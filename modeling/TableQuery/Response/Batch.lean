import TableQuery.Response.Basic

/-! # Batch responses

A batch response is an object with one response under each key of the batch.
-/

namespace TableQuery

structure BatchResponse where
  text : String
  /-- Keys and responses in the order of the requests. -/
  responses : List (String × AnyResponse)

namespace BatchResponse

/-- Reads the response under one key, from its own text. -/
def parseOne (root : Members) (request : String × ResponseKind) :
    Except ResponseError (String × AnyResponse) :=
  match Entries.get? request.1 root with
  | some (.object members) =>
    (request.2.parse (Json.object members).render).map (request.1, ·)
  | some _ => .error (.unexpectedType request.1 "object")
  | none => .error (.missingSubResponse request.1)

/-- Keys that no request has are passed over. -/
def parse (text : String) (requests : List (String × ResponseKind)) :
    Except ResponseError BatchResponse := do
  let root ← Response.parseRoot text
  let responses ← requests.mapM (parseOne root)
  .ok ⟨text, responses⟩

/-- The first response under the key. -/
def get? (b : BatchResponse) (key : String) : Option AnyResponse :=
  (b.responses.find? (·.1 == key)).map (·.2)

def size (b : BatchResponse) : Nat := b.responses.length

def isEmpty (b : BatchResponse) : Bool := b.responses.isEmpty

/-- The responses without their keys. -/
def toList (b : BatchResponse) : List AnyResponse := b.responses.map (·.2)

end BatchResponse

end TableQuery

import TableQuery.Response.Envelope

/-! # Facets: how often each value of a field occurs -/

namespace TableQuery

/-- Counts under field and value. -/
abbrev Facets := Keyed (Keyed UInt64)

namespace Facets

def countsOf (field : String) : Members → Except ResponseError (List (String × UInt64))
  | [] => .ok []
  | (value, count) :: buckets =>
    match Response.natural? count with
    | some n => (countsOf field buckets).map ((value, n) :: ·)
    | none =>
      .error (.unexpectedType ("response.data." ++ field ++ "." ++ value) "non-negative integer")

def ofMembers : Members → Except ResponseError (List (String × Keyed UInt64))
  | [] => .ok []
  | (field, .object buckets) :: fields => do
    let counts ← countsOf field buckets
    (ofMembers fields).map ((field, .ofList counts) :: ·)
  | (field, _) :: _ => .error (.unexpectedType ("response.data." ++ field) "object")

def decode (root : Members) (envelope : Envelope) : Except ResponseError Facets := do
  match ← Response.payloadMember? "data" root envelope with
  | none => .ok ∅
  | some (.object fields) => (ofMembers fields).map .ofList
  | some _ => .error (.unexpectedType "response.data" "object")

/-- The counts of one field. -/
def counts? (f : Facets) (field : String) : Option (Keyed UInt64) := f.get? field

end Facets

end TableQuery

import TableQuery.Json.Reader
import TableQuery.Response.Error

/-! # The envelope of a response

Every response is an object with a version and a status, and may hold its payload in the member
`response`. A status other than `ok` is an answer, not an error.
-/

namespace TableQuery

abbrev Members := List (String × Json)

namespace Response

def parseRoot (text : String) : Except ResponseError Members :=
  match Json.parse text with
  | .ok (.object root) => .ok root
  | .ok _ => .error (.unexpectedType "$" "object")
  | .error why => .error (.unreadable why)

/-- A string, or a number as its JSON text. -/
def scalarText (root : Members) (key : String) : Except ResponseError String :=
  match Entries.get? key root with
  | some (.string s) => .ok s
  | some (.number n) => .ok (Json.Number.render n)
  | some _ => .error (.unexpectedType key "string")
  | none => .error (.missingField key)

def natural? : Json → Option UInt64
  | .number n => n.toUInt64?
  | _ => none

/-- A count that may be absent or null. -/
def optionalCount (payload : Members) (key : String) : Except ResponseError (Option UInt64) :=
  match Entries.get? key payload with
  | none => .ok none
  | some .null => .ok none
  | some value =>
    match natural? value with
    | some n => .ok (some n)
    | none => .error (.unexpectedType ("response." ++ key) "non-negative integer")

end Response

structure Envelope where
  version : String
  status : String
  /-- How many rows match, when the server counted them. -/
  totalRowCount : Option UInt64
  includedRows : UInt64
  deriving DecidableEq, Repr

namespace Envelope

open Response

def ofRoot (root : Members) : Except ResponseError Envelope := do
  let version ← scalarText root "version"
  let status ← scalarText root "status"
  match Entries.get? "response" root with
  | some (.object payload) =>
    let total ← optionalCount payload "total_row_count"
    let included ← optionalCount payload "included_rows"
    .ok ⟨version, status, total, included.getD 0⟩
  | _ => .ok ⟨version, status, none, 0⟩

def parse (text : String) : Except ResponseError Envelope := parseRoot text >>= ofRoot

def isOk (e : Envelope) : Bool := e.status == "ok"

end Envelope

namespace Response

/-- The payload object; none when a rejected request has none. -/
def payload? (root : Members) (envelope : Envelope) : Except ResponseError (Option Members) :=
  match Entries.get? "response" root with
  | some (.object payload) => .ok (some payload)
  | some _ => .error (.unexpectedType "response" "object")
  | none => if envelope.isOk then .error (.missingField "response") else .ok none

/-- A member of the payload; none when the payload of a rejected request, or the payload itself, is
without it. -/
def payloadMember? (key : String) (root : Members) (envelope : Envelope) :
    Except ResponseError (Option Json) := do
  match ← payload? root envelope with
  | none => .ok none
  | some payload =>
    match Entries.get? key payload with
    | some value => .ok (some value)
    | none =>
      if envelope.isOk then .error (.missingField ("response." ++ key)) else .ok none

end Response

end TableQuery

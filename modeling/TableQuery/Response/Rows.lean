import TableQuery.Response.Envelope

/-! # Rows: what a read, a resolve or a look-up of a place answers -/

namespace TableQuery

abbrev Row := Members

abbrev Rows := List Row

namespace Rows

def ofItems (index : Nat) : List Json → Except ResponseError Rows
  | [] => .ok []
  | .object row :: items => (ofItems (index + 1) items).map (row :: ·)
  | _ :: _ => .error (.unexpectedType ("response.data[" ++ toString index ++ "]") "object")

def decode (root : Members) (envelope : Envelope) : Except ResponseError Rows := do
  match ← Response.payloadMember? "data" root envelope with
  | none => .ok []
  | some (.array items) => ofItems 0 items
  | some _ => .error (.unexpectedType "response.data" "array")

def textOf? : Json → Option String
  | .null => none
  | .string s => some s
  | other => some other.render

/-- The field of every row as text: a string as it is, any other value as JSON. -/
def mapStrings (rows : Rows) (field : String) : List (Option String) :=
  rows.map fun row => (Entries.get? field row).bind textOf?

end Rows

end TableQuery

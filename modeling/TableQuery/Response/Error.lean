import TableQuery.Json.Printer
import TableQuery.Text.Quoted

/-! # What can be wrong with a response -/

namespace TableQuery

/-- What a typed member of a response should be. -/
inductive Expected where
  | text
  | flag
  | list
  | column
  deriving DecidableEq, Repr

def Expected.phrase : Expected → String
  | .text => "a string"
  | .flag => "a boolean"
  | .list => "a sequence"
  | .column => "struct ColumnSchema"

/-- Why JSON has not the shape of a schema or of a receipt. -/
inductive ShapeError where
  | missingField (name : String)
  | invalidType (found : Json) (expected : Expected)
  /-- A column written as a list has no name. -/
  | emptyColumn
  | longColumn (length : Nat)

namespace ShapeError

/-- Names a value in an error: a list and an object by their form, any other value by its text. -/
def describe : Json → String
  | .null => "null"
  | .bool b => "boolean `" ++ (if b then "true" else "false") ++ "`"
  | .number (.integer value _ _) => "integer `" ++ toString value ++ "`"
  | .number n => "floating point `" ++ Json.Number.render n ++ "`"
  | .string s => "string " ++ Text.quoted s
  | .array _ => "sequence"
  | .object _ => "map"

def message : ShapeError → String
  | .missingField name => "missing field `" ++ name ++ "`"
  | .invalidType found expected =>
    "invalid type: " ++ describe found ++ ", expected " ++ expected.phrase
  | .emptyColumn => "invalid length 0, expected struct ColumnSchema with 7 elements"
  | .longColumn length =>
    "invalid length " ++ toString length ++ ", expected fewer elements in array"

end ShapeError

inductive ResponseError where
  /-- The text is not JSON. -/
  | unreadable (why : Json.Failure)
  | shape (why : ShapeError)
  | missingField (path : String)
  | unexpectedType (path expected : String)
  | missingSubResponse (key : String)

namespace ResponseError

def message : ResponseError → String
  | .unreadable .malformed => "JSON error: malformed text"
  | .unreadable .incomplete => "JSON error: unexpected end of text"
  | .shape why => "JSON error: " ++ why.message
  | .missingField path => "Missing field: " ++ path
  | .unexpectedType path expected =>
    "Unexpected type for " ++ path ++ ": expected " ++ expected
  | .missingSubResponse key => "Missing sub-response for key " ++ key

end ResponseError

end TableQuery

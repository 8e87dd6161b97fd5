import TableQuery.Parameter.Bag

/-! # Writing to a table: submissions, flags and who makes them -/

namespace TableQuery

/-- Values for a row. -/
structure Submit where
  params : Bag

namespace Submit

def empty : Submit := ⟨∅⟩

instance : EmptyCollection Submit := ⟨empty⟩

def setValue (s : Submit) (field : String) (value : Json) : Submit :=
  ⟨s.params.setJsonMember "values" field value⟩

/-- Clears the field in the row: the submission then holds null for it. -/
def removeValue (s : Submit) (field : String) : Submit := s.setValue field .null

def ofValues (values : List (String × Json)) : Submit :=
  values.foldl (fun s (field, value) => s.setValue field value) ∅

def requestParams (s : Submit) : RequestParams := s.params.requestParams

end Submit

/-- Who writes, and why. -/
structure Metadata where
  params : Bag

namespace Metadata

def empty : Metadata := ⟨∅⟩

instance : EmptyCollection Metadata := ⟨empty⟩
instance : Inhabited Metadata := ⟨empty⟩

def user (m : Metadata) (name : String) : Metadata := ⟨m.params.setLiteral "user" name⟩

def comment (m : Metadata) (text : String) : Metadata := ⟨m.params.setLiteral "comment" text⟩

def reference (m : Metadata) (text : String) : Metadata := ⟨m.params.setLiteral "reference" text⟩

/-- Marks a request that the server is to check but not to carry out. -/
def debug (m : Metadata) (dry : Bool) : Metadata :=
  ⟨m.params.setLiteral "debug" (if dry then "true" else "false")⟩

def requestParams (m : Metadata) : RequestParams := m.params.requestParams

end Metadata

/-- What is wrong with a row. -/
inductive Problem where
  | duplicate
  | inaccurate
  | inappropriate
  | nonexistent
  | spam
  | other
  deriving DecidableEq, Repr

namespace Problem

def all : List Problem := [.duplicate, .inaccurate, .inappropriate, .nonexistent, .spam, .other]

def token : Problem → String
  | .duplicate => "duplicate"
  | .inaccurate => "inaccurate"
  | .inappropriate => "inappropriate"
  | .nonexistent => "nonexistent"
  | .spam => "spam"
  | .other => "other"

end Problem

end TableQuery

import TableQuery.Response.Envelope

/-! # Schemas: what a table and its columns are

Members of an object are looked at in key order, and the first of a wrong type is the error. After
that the first required member that is absent is. Members that are not known are passed over.
-/

namespace TableQuery

structure Column where
  name : String
  description : Option String := none
  label : Option String := none
  datatype : Option String := none
  faceted : Bool := false
  sortable : Bool := false
  searchable : Bool := false
  deriving DecidableEq, Repr

structure Schema where
  title : String
  description : String
  searchEnabled : Bool
  geoEnabled : Bool
  columns : List Column
  deriving DecidableEq, Repr

namespace Shape

def text : Json → Except ShapeError String
  | .string s => .ok s
  | other => .error (.invalidType other .text)

def flag : Json → Except ShapeError Bool
  | .bool b => .ok b
  | other => .error (.invalidType other .flag)

def optionalText : Json → Except ShapeError (Option String)
  | .null => .ok none
  | other => (text other).map some

def required {α : Type} (name : String) : Option α → Except ShapeError α
  | some a => .ok a
  | none => .error (.missingField name)

end Shape

namespace Column

/-- Looks at one member; the name is kept apart because it may still be missing. -/
def readMember (read : Option String × Column) (member : String × Json) :
    Except ShapeError (Option String × Column) :=
  let (name, column) := read
  let value := member.2
  match member.1 with
  | "name" => (Shape.text value).map fun s => (some s, column)
  | "description" =>
    (Shape.optionalText value).map fun s => (name, { column with description := s })
  | "label" => (Shape.optionalText value).map fun s => (name, { column with label := s })
  | "datatype" => (Shape.optionalText value).map fun s => (name, { column with datatype := s })
  | "faceted" => (Shape.flag value).map fun b => (name, { column with faceted := b })
  | "sortable" => (Shape.flag value).map fun b => (name, { column with sortable := b })
  | "searchable" => (Shape.flag value).map fun b => (name, { column with searchable := b })
  | _ => .ok read

/-- The names in the order in which a list gives their values. -/
def memberNames : List String :=
  ["name", "description", "label", "datatype", "faceted", "sortable", "searchable"]

def ofMembers (members : Members) : Except ShapeError Column := do
  let (name, column) ← members.foldlM readMember (none, ⟨"", none, none, none, false, false, false⟩)
  let name ← Shape.required "name" name
  .ok { column with name }

/-- A list gives the values without their names and may end early, but not before the name. -/
def ofItems (items : List Json) : Except ShapeError Column := do
  if items.isEmpty then .error .emptyColumn
  else
    let column ← ofMembers (memberNames.zip items)
    if memberNames.length < items.length then .error (.longColumn items.length) else .ok column

def ofJson : Json → Except ShapeError Column
  | .object members => ofMembers members
  | .array items => ofItems items
  | other => .error (.invalidType other .column)

end Column

namespace Schema

/-- The schema of a rejected request. -/
def untitled : Schema := ⟨"", "", false, false, []⟩

/-- Looks at one member; title and columns are kept apart because they may still be missing. -/
def readMember (read : Option String × Option (List Column) × Schema) (member : String × Json) :
    Except ShapeError (Option String × Option (List Column) × Schema) :=
  let (title, columns, schema) := read
  let value := member.2
  match member.1 with
  | "title" => (Shape.text value).map fun s => (some s, columns, schema)
  | "description" =>
    (Shape.text value).map fun s => (title, columns, { schema with description := s })
  | "search_enabled" =>
    (Shape.flag value).map fun b => (title, columns, { schema with searchEnabled := b })
  | "geo_enabled" =>
    (Shape.flag value).map fun b => (title, columns, { schema with geoEnabled := b })
  | "fields" =>
    match value with
    | .array items => (items.mapM Column.ofJson).map fun cs => (title, some cs, schema)
    | other => .error (.invalidType other .list)
  | _ => .ok read

def ofMembers (view : Members) : Except ShapeError Schema := do
  let (title, columns, schema) ← view.foldlM readMember (none, none, untitled)
  let title ← Shape.required "title" title
  let columns ← Shape.required "fields" columns
  .ok { schema with title, columns }

def decode (root : Members) (envelope : Envelope) : Except ResponseError Schema := do
  match ← Response.payloadMember? "view" root envelope with
  | none => .ok untitled
  | some (.object view) => (ofMembers view).mapError .shape
  | some _ => .error (.unexpectedType "response.view" "object")

/-- The first column of that name. -/
def column? (s : Schema) (name : String) : Option Column := s.columns.find? (·.name == name)

end Schema

end TableQuery

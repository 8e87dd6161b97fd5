import TableQuery.Filter.Tree

/-! # Parameter values

A parameter keeps its value in the form in which it grows and becomes text only when it is sent.
-/

namespace TableQuery

inductive Parameter where
  | literal (text : String)
  /-- Values in the order in which they came first, none of them twice. -/
  | commaSet (values : List String)
  | commaList (values : List String)
  | json (value : Json)
  | filters (tree : Tree)
  deriving BEq

namespace Parameter

def commaJoin? (values : List String) : Option String :=
  if values.isEmpty then none else some (String.intercalate "," values)

/-- The text that is sent; none when there is nothing to send. -/
def render? : Parameter → Option String
  | .literal text => some text
  | .commaSet values => commaJoin? values
  | .commaList values => commaJoin? values
  | .json value => some value.render
  | .filters tree => tree.render?

def commaValues? : Parameter → Option (List String)
  | .commaSet values => some values
  | .commaList values => some values
  | _ => none

/-! ## Growing a value

Each takes the parameter that is there, if any, and gives the one that replaces it. A parameter of
another form is dropped.
-/

def addToSet (value : String) : Option Parameter → Parameter
  | some (.commaSet values) =>
    .commaSet (if values.contains value then values else values ++ [value])
  | _ => .commaSet [value]

def pushToList (value : String) : Option Parameter → Parameter
  | some (.commaList values) => .commaList (values ++ [value])
  | _ => .commaList [value]

def setMember (field : String) (value : Json) : Option Parameter → Parameter
  | some (.json (.object members)) => .json (.object (Entries.insert field value members))
  | _ => .json (.object [(field, value)])

def tree? : Option Parameter → Option Tree
  | some (.filters tree) => some tree
  | _ => none

end Parameter

end TableQuery

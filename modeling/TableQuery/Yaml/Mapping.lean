import TableQuery.Yaml.Document

/-! # YAML mappings

A document that is a mapping is read as its entries. Collections below the top are passed over.
-/

namespace TableQuery.Yaml

/-! ## Anchors

An anchor is numbered by how many names have been given before it. So it may have the number of an
earlier anchor, which then stands for the later node.
-/

/-- Binds a name to a number. -/
def bindName (name : String) (number : Nat) :
    List (String × Nat) → List (String × Nat)
  | [] => [(name, number)]
  | (n, m) :: rest => if n = name then (n, number) :: rest else (n, m) :: bindName name number rest

/-- Gives numbers for names; each alias names an anchor in front of it. -/
def numberAnchors? (names : List (String × Nat)) :
    List (Event String) → Option (List (Event Nat))
  | [] => some []
  | .alias name :: rest => do
    let number ← names.lookup name
    pure (.alias number :: (← numberAnchors? names rest))
  | .scalar none s :: rest => (numberAnchors? names rest).map (.scalar none s :: ·)
  | .scalar (some name) s :: rest =>
    let number := names.length
    (numberAnchors? (bindName name number names) rest).map (.scalar (some number) s :: ·)
  | .opening kind none :: rest => (numberAnchors? names rest).map (.opening kind none :: ·)
  | .opening kind (some name) :: rest =>
    let number := names.length
    (numberAnchors? (bindName name number names) rest).map (.opening kind (some number) :: ·)
  | .closing :: rest => (numberAnchors? names rest).map (.closing :: ·)

/-! ## Entries -/

inductive Value where
  | scalar (s : Scalar)
  | collection
  deriving DecidableEq, Repr

/-- The value of a node without looking through an alias. -/
def Event.value? : Event Nat → Option Value
  | .scalar _ s => some (.scalar s)
  | .opening .. => some .collection
  | _ => none

def Event.anchor? : Event Nat → Option Nat
  | .scalar anchor _ => anchor
  | .opening _ anchor => anchor
  | _ => none

/-- The value of the node that begins with an event; an alias has that of the last node with its
number. -/
def resolve? (events : List (Event Nat)) : Event Nat → Option Value
  | .alias number => (events.reverse.find? (·.anchor? = some number)).bind (·.value?)
  | event => event.value?

/-- The first event of each node outside of the collections that begin among the events. -/
def heads {α : Type} (depth : Nat) : List (Event α) → List (Event α)
  | [] => []
  | .closing :: rest => heads (depth - 1) rest
  | .opening kind anchor :: rest =>
    if depth = 0 then .opening kind anchor :: heads 1 rest else heads (depth + 1) rest
  | event :: rest => if depth = 0 then event :: heads 0 rest else heads depth rest

/-- Takes keys and values in turn. A key is a scalar. -/
def pairUp? : List Value → Option (List (String × Value))
  | [] => some []
  | .scalar key :: value :: rest => (pairUp? rest).map ((key.text, value) :: ·)
  | _ => none

/-- The entries of a mapping; nothing, or nothing written, is a mapping without entries. -/
def entries? (events : List (Event Nat)) : Option (List (String × Value)) :=
  match events with
  | [] => some []
  | .scalar _ s :: _ => if s.style = .plain && s.text.isEmpty then some [] else none
  | .opening .mapping _ :: rest => ((heads 0 rest).mapM (resolve? events)).bind pairUp?
  | _ => none

/-- The entries of the mapping that a text holds. -/
def readMapping? (text : String) : Option (List (String × Value)) :=
  if text.toList.all isAllowed then do
    let tokens ← tokens? (unifyBreaks text.toList)
    entries? (← numberAnchors? [] (← documentEvents? tokens))
  else none

end TableQuery.Yaml

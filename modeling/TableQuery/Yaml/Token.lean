/-! # Tokens of YAML text -/

namespace TableQuery.Yaml

inductive Collection where
  | sequence
  | mapping
  deriving DecidableEq, Repr

/-- The form in which a scalar is written. -/
inductive Style where
  | plain
  | quoted
  | literal
  | folded
  deriving DecidableEq, Repr

inductive Token where
  /-- The version of the language that a document is written in. -/
  | version (major minor : Nat)
  /-- A short form for the beginning of tags. -/
  | handle (name expansion : String)
  | documentStart
  | documentEnd
  /-- A block collection begins, indented further than what is around it. -/
  | indent (kind : Collection)
  /-- The innermost block collection ends. -/
  | dedent
  | opening (kind : Collection)
  | closing (kind : Collection)
  | item
  | comma
  | key
  | value
  | alias (name : String)
  | anchor (name : String)
  | tag (handle suffix : String)
  | scalar (style : Style) (text : String)
  deriving DecidableEq, Repr

/-- The token stands outside of every document, or begins or ends one. -/
def Token.isBoundary : Token → Bool
  | .version .. => true
  | .handle .. => true
  | .documentStart => true
  | .documentEnd => true
  | _ => false

end TableQuery.Yaml

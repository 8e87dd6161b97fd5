import TableQuery.Yaml.Token

/-! # Nodes of YAML text

The nodes of a document are given by events in the order of the text: a collection is an event that
opens it, the events of its parts and an event that closes it. Events are found in the tokens by
goals, of which each says what is required next.
-/

namespace TableQuery.Yaml

/-- A scalar with its tag, if it has one. -/
structure Scalar where
  style : Style
  tag : Option String := none
  text : String
  deriving DecidableEq, Repr

/-- An anchor is given by its name or by its number. -/
inductive Event (α : Type) where
  | alias (target : α)
  | scalar (anchor : Option α) (scalar : Scalar)
  | opening (kind : Collection) (anchor : Option α)
  | closing
  deriving DecidableEq, Repr

/-- A node of which nothing is written. -/
def Event.void : Event String := .scalar none ⟨.plain, none, ""⟩

/-! ## Anchors and tags of a node -/

structure Properties where
  anchor : Option String := none
  tag : Option String := none

/-- The anchor and the tag at the front, in either order, and the tokens after them. A tag is given
in full, and its handle must be a known one. -/
def readProperties? (spellTag? : String → String → Option String) :
    List Token → Option (Properties × List Token)
  | .anchor name :: .tag handle suffix :: rest =>
    (spellTag? handle suffix).map fun tag => (⟨some name, some tag⟩, rest)
  | .tag handle suffix :: .anchor name :: rest =>
    (spellTag? handle suffix).map fun tag => (⟨some name, some tag⟩, rest)
  | .anchor name :: rest => some (⟨some name, none⟩, rest)
  | .tag handle suffix :: rest => (spellTag? handle suffix).map fun tag => (⟨none, some tag⟩, rest)
  | rest => some ({}, rest)

/-! ## Goals -/

inductive Goal where
  /-- One node. It may be a block collection if `inBlock`, and a sequence whose items stand at the
  column of the keys around it if `mayBeFlat`. -/
  | node (inBlock mayBeFlat : Bool)
  | blockItems
  | flatItems
  | blockKeys
  | blockValue
  | flowItems (isFirst : Bool)
  /-- The key of an entry that is an item of a flow sequence. -/
  | pairKey
  | pairValue
  | pairEnd
  | flowKeys (isFirst : Bool)
  | flowValue
  /-- The value of an entry that is only a key. -/
  | missingValue
  deriving DecidableEq, Repr

/-- The events of a goal up to the first of its parts, the parts, and the tokens that are left. -/
abbrev Expansion := List (Event String) × List Goal × List Token

/-- A void node, or else the node that comes next, and then `goal`. -/
def nodeUnless (inBlock mayBeFlat : Bool) (ends : List Token) (goal : Goal) (rest : List Token) :
    Expansion :=
  if rest.head?.any (ends.contains ·) then ([.void], [goal], rest)
  else ([], [.node inBlock mayBeFlat, goal], rest)

/-- A comma comes before each item or entry but the first. -/
def skipComma? (isFirst : Bool) (tokens : List Token) : Option (List Token) :=
  if isFirst then some tokens
  else
    match tokens with
    | .comma :: rest => some rest
    | _ => none

/-- A node with its properties; with one of them the node itself may be missing. -/
def expandNode? (inBlock mayBeFlat : Bool) (props : Properties) : List Token → Option Expansion
  | .scalar style text :: rest =>
    some ([.scalar props.anchor ⟨style, props.tag, text⟩], [], rest)
  | .opening .sequence :: rest => some ([.opening .sequence props.anchor], [.flowItems true], rest)
  | .opening .mapping :: rest => some ([.opening .mapping props.anchor], [.flowKeys true], rest)
  | tokens =>
    match tokens, inBlock, mayBeFlat with
    | .item :: _, _, true => some ([.opening .sequence props.anchor], [.flatItems], tokens)
    | .indent .sequence :: rest, true, _ =>
      some ([.opening .sequence props.anchor], [.blockItems], rest)
    | .indent .mapping :: rest, true, _ =>
      some ([.opening .mapping props.anchor], [.blockKeys], rest)
    | _, _, _ =>
      if props.anchor.isSome || props.tag.isSome then
        some ([.scalar props.anchor ⟨.plain, props.tag, ""⟩], [], tokens)
      else none

/-- The keys of a flow mapping or the items of a flow sequence; `entry` takes up the next one. -/
def expandFlow? (kind : Collection) (isFirst : Bool) (entry : List Token → Expansion)
    (tokens : List Token) : Option Expansion :=
  if tokens.head? = some (.closing kind) then some ([.closing], [], tokens.drop 1)
  else
    (skipComma? isFirst tokens).map fun tokens =>
      if tokens.head? = some (.closing kind) then ([.closing], [], tokens.drop 1)
      else entry tokens

/-- An item is a node, or an entry that is a mapping of its own. -/
def flowItem : List Token → Expansion
  | .key :: rest => ([.opening .mapping none], [.pairKey, .flowItems false], rest)
  | tokens => ([], [.node false false, .flowItems false], tokens)

def flowEntry : List Token → Expansion
  | .key :: rest =>
    nodeUnless false false [.value, .comma, .closing .mapping] .flowValue rest
  | tokens => ([], [.node false false, .missingValue], tokens)

/-- What the tokens hold of a goal. -/
def Goal.expand? (spellTag? : String → String → Option String) (tokens : List Token) :
    Goal → Option Expansion
  | .node inBlock mayBeFlat =>
    match tokens with
    | .alias name :: rest => some ([.alias name], [], rest)
    | tokens =>
      (readProperties? spellTag? tokens).bind fun (props, rest) =>
        expandNode? inBlock mayBeFlat props rest
  | .blockItems =>
    match tokens with
    | .item :: rest => some (nodeUnless true false [.item, .dedent] .blockItems rest)
    | .dedent :: rest => some ([.closing], [], rest)
    | _ => none
  | .flatItems =>
    match tokens with
    | .item :: rest => some (nodeUnless true false [.item, .key, .value, .dedent] .flatItems rest)
    | tokens => some ([.closing], [], tokens)
  | .blockKeys =>
    match tokens with
    | .key :: rest => some (nodeUnless true true [.key, .value, .dedent] .blockValue rest)
    | .dedent :: rest => some ([.closing], [], rest)
    | _ => none
  | .blockValue =>
    match tokens with
    | .value :: rest => some (nodeUnless true true [.key, .value, .dedent] .blockKeys rest)
    | tokens => some ([.void], [.blockKeys], tokens)
  | .flowItems isFirst => expandFlow? .sequence isFirst flowItem tokens
  | .pairKey =>
    match tokens with
    -- A token that shows the key to be void belongs to it.
    | .value :: rest => some ([.void], [.pairValue], rest)
    | .comma :: rest => some ([.void], [.pairValue], rest)
    | .closing .sequence :: rest => some ([.void], [.pairValue], rest)
    | tokens => some ([], [.node false false, .pairValue], tokens)
  | .pairValue =>
    match tokens with
    | .value :: rest =>
      some (nodeUnless false false [.comma, .closing .sequence] .pairEnd rest)
    | tokens => some ([.void], [.pairEnd], tokens)
  | .pairEnd => some ([.closing], [], tokens)
  | .flowKeys isFirst => expandFlow? .mapping isFirst flowEntry tokens
  | .flowValue =>
    match tokens with
    | .value :: rest =>
      some (nodeUnless false false [.comma, .closing .mapping] (.flowKeys false) rest)
    | tokens => some ([.void], [.flowKeys false], tokens)
  | .missingValue => some ([.void], [.flowKeys false], tokens)

/-- Meets all goals with all tokens. -/
def meet? (spellTag? : String → String → Option String) :
    Nat → List Goal → List Token → Option (List (Event String))
  | _, [], tokens => if tokens.isEmpty then some [] else none
  | 0, _ :: _, _ => none
  | fuel + 1, goal :: goals, tokens =>
    (goal.expand? spellTag? tokens).bind fun (events, parts, rest) =>
      (meet? spellTag? fuel (parts ++ goals) rest).map (events ++ ·)

/-- The events of one node. Of five goals in a row at least one takes a token. -/
def Event.ofTokens? (spellTag? : String → String → Option String) (tokens : List Token) :
    Option (List (Event String)) :=
  meet? spellTag? (5 * (tokens.length + 1)) [.node true false] tokens

end TableQuery.Yaml

import TableQuery.Yaml.Block
import TableQuery.Yaml.Plain
import TableQuery.Yaml.Property

/-! # The layout of YAML text

Tokens are found from left to right. Block collections are not marked but shown by indentation, and
a key is known only by the colon after it: so each token that a key may begin with is remembered,
and the tokens that begin a mapping and a key are put in front of it when the colon comes.
-/

namespace TableQuery.Yaml

/-- How many bytes and line breaks come before a place, and how many characters of its line. -/
structure Place where
  offset : Nat := 0
  line : Nat := 0
  column : Nat := 0
  deriving DecidableEq, Repr

def Place.after (p : Place) (c : Char) : Place :=
  let offset := p.offset + c.utf8Size
  if isBreak c then ⟨offset, p.line + 1, 0⟩ else ⟨offset, p.line, p.column + 1⟩

/-- A place where a key may begin. -/
structure Candidate where
  place : Place
  /-- Nothing but a key may stand there. -/
  isRequired : Bool
  /-- How many tokens come before it. -/
  before : Nat
  deriving Repr

/-- The longest text of a key, in bytes. -/
def maxKeyLength : Nat := 1024

/-- A key is on one line, and it is not too long. -/
def Candidate.isStale (key : Candidate) (p : Place) : Bool :=
  key.place.line < p.line || key.place.offset + maxKeyLength < p.offset

structure Layout where
  rest : List Char
  place : Place := {}
  /-- The tokens so far, the last one first. -/
  tokens : List Token := []
  /-- The columns of the open block collections, the innermost first. -/
  columns : List Nat := []
  /-- A key may begin with the next token. -/
  admitsKey : Bool := true
  candidate : Option Candidate := none
  /-- The candidates around each flow collection that is open, the innermost first. -/
  outer : List (Option Candidate) := []

namespace Layout

def inFlow (l : Layout) : Bool := !l.outer.isEmpty

/-- The least column of what belongs to the innermost block collection. -/
def margin (l : Layout) : Nat := l.columns.head?.elim 0 (· + 1)

/-- Goes on at `rest`, which ends the text that is left. -/
def moveTo (l : Layout) (rest : List Char) : Layout :=
  { l with
    rest
    place := (l.rest.take (l.rest.length - rest.length)).foldl Place.after l.place }

def push (l : Layout) (token : Token) : Layout := { l with tokens := token :: l.tokens }

/-- Puts a token in at a place, which the number of tokens before it gives. -/
def insertToken (l : Layout) (before : Nat) (token : Token) : Layout :=
  let later := l.tokens.length - before
  { l with tokens := l.tokens.take later ++ token :: l.tokens.drop later }

/-! ## Keys -/

/-- Forgets a candidate; one that is required cannot be forgotten. -/
def release? : Option Candidate → Option (Option Candidate)
  | some key => if key.isRequired then none else some none
  | none => some none

def dropCandidate? (l : Layout) : Option Layout :=
  (release? l.candidate).map fun candidate => { l with candidate }

/-- The next token may begin a key. In a block it must, if it stands in the column of the keys. -/
def saveCandidate? (l : Layout) : Option Layout :=
  if l.admitsKey then
    let isRequired := !l.inFlow && l.columns.head? = some l.place.column
    l.dropCandidate?.map fun l =>
      { l with candidate := some ⟨l.place, isRequired, l.tokens.length⟩ }
  else some l

/-- Forgets the candidates that no colon can complete any more. -/
def dropStale? (l : Layout) : Option Layout := do
  let refresh? (candidate : Option Candidate) : Option (Option Candidate) :=
    if candidate.any (·.isStale l.place) then release? candidate else some candidate
  let candidate ← refresh? l.candidate
  let outer ← l.outer.mapM refresh?
  pure { l with candidate, outer }

/-! ## Block collections -/

/-- Begins a block collection in front of a token if it is indented further than those around. -/
def indentTo (l : Layout) (kind : Collection) (column before : Nat) : Layout :=
  if !l.inFlow && l.columns.head?.all (· < column) then
    { l.insertToken before (.indent kind) with columns := column :: l.columns }
  else l

/-- Ends the innermost block collections as long as their columns satisfy `p`. -/
def dedentWhile (l : Layout) (p : Nat → Bool) : Layout :=
  if l.inFlow then l
  else
    let closed := l.columns.takeWhile p
    { l with
      tokens := List.replicate closed.length .dedent ++ l.tokens
      columns := l.columns.dropWhile p }

def dedentAll (l : Layout) : Layout := l.dedentWhile fun _ => true

/-! ## Between tokens -/

/-- A tab may stand in front of the next token if no key begins there. -/
def isPassed (l : Layout) (c : Char) : Bool := c = ' ' || (c = '\t' && (l.inFlow || !l.admitsKey))

/-- A mark of the byte order at the front of a line takes a column, and else it is nothing. -/
def skipMark (l : Layout) : Layout :=
  if l.place.column = 0 && l.rest.head? = some '\ufeff' then l.moveTo (l.rest.drop 1) else l

/-- Passes over blanks, comments and line breaks. In a block a key may begin on each line. -/
def skipVoid : Nat → Layout → Layout
  | 0, l => l
  | fuel + 1, l =>
    let l := l.skipMark
    let rest := l.rest.dropWhile l.isPassed
    let rest := if rest.head? = some '#' then toBreak rest else rest
    match rest with
    | [] => l.moveTo []
    | c :: more =>
      if isBreak c then skipVoid fuel { l.moveTo more with admitsKey := l.admitsKey || !l.inFlow }
      else l.moveTo rest

/-- Gets to the next token. -/
def approach? (l : Layout) : Option Layout :=
  (skipVoid (l.rest.length + 1) l).dropStale?.map fun l => l.dedentWhile (l.place.column < ·)

/-! ## The next token

Each of these reads one kind of token, which begins at the front of the text that is left.
-/

/-- A token of `width` characters. -/
def take (l : Layout) (width : Nat) (token : Token) : Layout :=
  (l.moveTo (l.rest.drop width)).push token

/-- All blocks end before a directive or a marker. -/
def endBlocks? (l : Layout) : Option Layout :=
  l.dedentAll.dropCandidate?.map fun l => { l with admitsKey := false }

def directive? (l : Layout) : Option Layout := do
  let l ← l.endBlocks?
  let (token, rest) ← readDirective? (l.rest.drop 1)
  pure ((l.moveTo rest).push token)

def marker? (l : Layout) (token : Token) : Option Layout := l.endBlocks?.map (·.take 3 token)

def opening? (l : Layout) (kind : Collection) : Option Layout :=
  l.saveCandidate?.map fun l =>
    { l.take 1 (.opening kind) with
      candidate := none
      outer := l.candidate :: l.outer
      admitsKey := true }

def closing? (l : Layout) (kind : Collection) : Option Layout :=
  l.dropCandidate?.map fun l =>
    { l.take 1 (.closing kind) with
      candidate := l.outer.head?.join
      outer := l.outer.tail
      admitsKey := false }

def comma? (l : Layout) : Option Layout :=
  l.dropCandidate?.map fun l => { l.take 1 .comma with admitsKey := true }

/-- In a block an item or a key may stand only where a key may begin. -/
def item? (l : Layout) : Option Layout :=
  if l.inFlow || l.admitsKey then
    (l.indentTo .sequence l.place.column l.tokens.length).dropCandidate?.map fun l =>
      { l.take 1 .item with admitsKey := true }
  else none

def key? (l : Layout) : Option Layout :=
  if l.inFlow || l.admitsKey then
    (l.indentTo .mapping l.place.column l.tokens.length).dropCandidate?.map fun l =>
      { l.take 1 .key with admitsKey := !l.inFlow }
  else none

/-- A colon makes the candidate a key. Without one it comes after a marked key. -/
def value? (l : Layout) : Option Layout :=
  match l.candidate with
  | some key =>
    let l := (l.insertToken key.before .key).indentTo .mapping key.place.column key.before
    some { l.take 1 .value with candidate := none, admitsKey := false }
  | none =>
    if l.inFlow || l.admitsKey then
      let l := l.indentTo .mapping l.place.column l.tokens.length
      some { l.take 1 .value with admitsKey := !l.inFlow }
    else none

/-- A token that may begin a key, and that only a colon may come after in a key. -/
def word? (l : Layout) (read? : List Char → Option (Token × List Char)) : Option Layout :=
  l.saveCandidate?.bind fun l =>
    (read? l.rest).map fun (token, rest) => { (l.moveTo rest).push token with admitsKey := false }

def alias? (l : Layout) : Option Layout :=
  l.word? fun cs => (readAnchor? (cs.drop 1)).map fun (name, rest) => (.alias name, rest)

def anchor? (l : Layout) : Option Layout :=
  l.word? fun cs => (readAnchor? (cs.drop 1)).map fun (name, rest) => (.anchor name, rest)

def tag? (l : Layout) : Option Layout := l.word? fun cs => readTag? l.inFlow (cs.drop 1)

def quoted? (l : Layout) (quote : Char) : Option Layout :=
  l.word? fun cs =>
    (Yaml.quoted? quote (cs.drop 1)).map fun (text, rest) => (.scalar .quoted text, rest)

/-- A key may begin after plain text that ends with its line. -/
def plain? (l : Layout) : Option Layout :=
  l.saveCandidate?.bind fun l =>
    (Yaml.plain? l.inFlow l.margin l.rest).map fun plain =>
      { (l.moveTo plain.rest).push (.scalar .plain (String.ofList plain.text)) with
        admitsKey := plain.endsLine }

def block? (l : Layout) (style : Style) : Option Layout :=
  l.dropCandidate?.bind fun l =>
    (Block.read? (style = .literal) l.margin (l.rest.drop 1)).map fun (text, rest) =>
      { (l.moveTo rest).push (.scalar style text) with admitsKey := true }

def next? (l : Layout) : Option Layout :=
  match l.rest with
  | [] => none
  | c :: rest =>
    let begins := l.place.column = 0
    if begins && c = '%' then l.directive?
    else if begins && isMarker '-' l.rest then l.marker? .documentStart
    else if begins && isMarker '.' l.rest then l.marker? .documentEnd
    else if c = '[' then l.opening? .sequence
    else if c = '\x7b' then l.opening? .mapping
    else if c = ']' then l.closing? .sequence
    else if c = '\x7d' then l.closing? .mapping
    else if c = ',' then l.comma?
    else if c = '-' && endsWord rest then l.item?
    else if c = '?' && (l.inFlow || endsWord rest) then l.key?
    else if c = ':' && (l.inFlow || endsWord rest) then l.value?
    else if c = '*' then l.alias?
    else if c = '&' then l.anchor?
    else if c = '!' then l.tag?
    else if c = '|' && !l.inFlow then l.block? .literal
    else if c = '>' && !l.inFlow then l.block? .folded
    else if isQuote c then l.quoted? c
    else if isGap c || isIndicator c then none
    else l.plain?

/-- The tokens of the whole text, once nothing of it is left. -/
def finish? (l : Layout) : Option (List Token) := l.endBlocks?.map (·.tokens.reverse)

/-- Every token takes a character or more, so `fuel` need not exceed the length. -/
def run? : Nat → Layout → Option (List Token)
  | 0, _ => none
  | fuel + 1, l =>
    l.approach?.bind fun l => if l.rest.isEmpty then l.finish? else l.next?.bind (run? fuel)

end Layout

/-- The tokens of a text whose line breaks are unified. -/
def tokens? (cs : List Char) : Option (List Token) := Layout.run? (cs.length + 1) { rest := cs }

end TableQuery.Yaml

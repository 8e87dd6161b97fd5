import TableQuery.Text.Digits
import TableQuery.Yaml.Character

/-! # YAML block scalars

The text of a block is given by indented lines. In a literal block a line break stands for itself,
and in a folded block a line feed between two lines that do not begin with a blank is a space.
-/

namespace TableQuery.Yaml.Block

/-- What becomes of the line breaks at the end. -/
inductive Chomp where
  | strip
  | clip
  | keep
  deriving DecidableEq, Repr

/-! ## The header -/

def takeChomp : List Char → Chomp × List Char
  | '+' :: rest => (.keep, rest)
  | '-' :: rest => (.strip, rest)
  | cs => (.clip, cs)

/-- How far the lines are indented, as one digit; none is no digit, and zero is refused. -/
def takeIncrement? : List Char → Option (Option Nat × List Char)
  | [] => some (none, [])
  | c :: rest =>
    if c = '0' then none
    else if c.isDigit then some (some (Text.digitValue c), rest)
    else some (none, c :: rest)

/-- The two parts of a header, in either order, and the lines after it. -/
def readHeader? (cs : List Char) : Option (Chomp × Option Nat × List Char) := do
  let (first, rest) := takeChomp cs
  let (increment, rest) ← takeIncrement? rest
  let (chomp, rest) :=
    if first = .clip && increment.isSome then takeChomp rest else (first, rest)
  pure (chomp, increment, ← endLine? rest)

/-! ## The lines -/

/-- Empty lines, and the indentation of the line after them. -/
structure Lead where
  breaks : List Char
  /-- The most spaces that one of these lines begins with. -/
  width : Nat
  /-- The spaces in front of `rest`. -/
  column : Nat
  rest : List Char

/-- Reads empty lines and indentation, up to `indent` if that is known. A tab is no indentation. -/
def takeLead? (indent : Option Nat) : Nat → List Char → Option Lead
  | 0, _ => none
  | fuel + 1, cs =>
    let spaces := (cs.takeWhile (· = ' ')).length
    let column := indent.elim spaces (min spaces)
    let rest := cs.drop column
    match rest with
    | [] => some ⟨[], column, column, rest⟩
    | c :: more =>
      if c = '\t' && indent.all (column < ·) then none
      else if isBreak c then
        (takeLead? indent fuel more).map fun lead =>
          { lead with breaks := c :: lead.breaks, width := max column lead.width }
      else some ⟨[], column, column, rest⟩

/-- Joins two lines: `lineEnd` ended the first, and then came the empty lines of `breaks`. -/
def join (isFolded : Bool) (lineEnd breaks : List Char) : List Char :=
  if isFolded && lineEnd = ['\n'] then if breaks.isEmpty then [' '] else breaks
  else lineEnd ++ breaks

/-- The end of the text, as the header asks for. -/
def chompEnd (lineEnd breaks : List Char) : Chomp → List Char
  | .strip => []
  | .clip => lineEnd
  | .keep => lineEnd ++ breaks

/-- Reads the lines from `lead` on that are indented by `indent`. `lineEnd` ended the line before
them, which began with a blank if `hadBlank`. -/
def readLines? (isLiteral : Bool) (chomp : Chomp) (indent : Nat) :
    Nat → List Char → Bool → Lead → Option (List Char × List Char)
  | 0, _, _, _ => none
  | fuel + 1, lineEnd, hadBlank, lead =>
    if lead.column = indent && !lead.rest.isEmpty then
      let hasBlank := lead.rest.head?.any isBlank
      let joint := join (!isLiteral && !hadBlank && !hasBlank) lineEnd lead.breaks
      let line := lead.rest.takeWhile fun c => !isBreak c
      let after := toBreak lead.rest
      (takeLead? (some indent) (after.length + 1) (after.drop 1)).bind fun next =>
        (readLines? isLiteral chomp indent fuel (after.take 1) hasBlank next).map
          fun (text, rest) => (joint ++ line ++ text, rest)
    else some (chompEnd lineEnd lead.breaks chomp, lead.rest)

/-- The text of a block after its first mark, and the text after the block. `margin` is the least
column of what belongs to the collection around it. -/
def read? (isLiteral : Bool) (margin : Nat) (cs : List Char) : Option (String × List Char) := do
  let (chomp, increment, rest) ← readHeader? cs
  let known := increment.map (margin - 1 + ·)
  let lead ← takeLead? known (rest.length + 1) rest
  let indent := known.getD (max lead.width (max margin 1))
  let (text, rest) ← readLines? isLiteral chomp indent (rest.length + 1) [] false lead
  pure (String.ofList text, rest)

end TableQuery.Yaml.Block

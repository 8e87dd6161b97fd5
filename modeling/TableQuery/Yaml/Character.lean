/-! # Characters of YAML text

A gap is a run of blanks and line breaks. Within a scalar a gap on one line stands for itself, and a
gap over several lines is folded.
-/

namespace TableQuery.Yaml

/-- Characters that a document may hold. -/
def isAllowed (c : Char) : Bool :=
  let n := c.toNat
  n = 0x09 || n = 0x0A || n = 0x0D || (0x20 ≤ n && n ≤ 0x7E) || n = 0x85 ||
    (0xA0 ≤ n && n ≤ 0xFFFD) || 0x10000 ≤ n

def isBlank (c : Char) : Bool := c = ' ' || c = '\t'

def isBreak (c : Char) : Bool :=
  c = '\n' || c = '\r' || c = '\u0085' || c = '\u2028' || c = '\u2029'

def isGap (c : Char) : Bool := isBlank c || isBreak c

/-- Characters of the names of anchors, tags and directives. -/
def isNameChar (c : Char) : Bool := c.isAlphanum || c = '_' || c = '-'

/-- Characters that begin something other than plain text. -/
def isIndicator (c : Char) : Bool := "#,[]\x7b\x7d&*!|>'\"%@\x60".toList.contains c

/-- Characters that end plain text in a flow collection. -/
def isFlowIndicator (c : Char) : Bool := ",[]\x7b\x7d".toList.contains c

def isQuote (c : Char) : Bool := c = '"' || c = '\''

/-- A gap or the end of the text comes next. -/
def endsWord : List Char → Bool
  | [] => true
  | c :: _ => isGap c

/-! ## Line breaks -/

/-- Writes a line break as a line feed, but the separators of lines and of paragraphs stay what they
are. -/
def unifyBreaks : List Char → List Char
  | [] => []
  | '\r' :: '\n' :: rest => '\n' :: unifyBreaks rest
  | c :: rest => (if c = '\r' || c = '\u0085' then '\n' else c) :: unifyBreaks rest

/-- The gap at the front of the text, and the text after it. -/
def takeGap (cs : List Char) : List Char × List Char := (cs.takeWhile isGap, cs.dropWhile isGap)

/-- What a gap inside a scalar stands for: a single line feed is a blank, and of more line breaks
the first is dropped if it is a line feed. -/
def foldGap (gap : List Char) : List Char :=
  match gap.filter isBreak with
  | [] => gap
  | ['\n'] => [' ']
  | '\n' :: more => more
  | breaks => breaks

/-- The characters after the last line break. -/
def lastLine (gap : List Char) : List Char := (gap.reverse.takeWhile fun c => !isBreak c).reverse

/-- The text from the first line break on. -/
def toBreak (cs : List Char) : List Char := cs.dropWhile fun c => !isBreak c

/-- The text after the line, when nothing but a comment is left of the line. -/
def endLine? (cs : List Char) : Option (List Char) :=
  let rest := cs.dropWhile isBlank
  match if rest.head? = some '#' then toBreak rest else rest with
  | [] => some []
  | c :: more => if isBreak c then some more else none

/-! ## Markers of documents -/

/-- Three marks at the front, which begin or end a document. -/
def isMarker (mark : Char) (cs : List Char) : Bool :=
  cs.take 3 == [mark, mark, mark] && endsWord (cs.drop 3)

/-- A marker after a gap stands at the front of its line. -/
def reachesMarker (gap after : List Char) : Bool :=
  gap.getLast?.any isBreak && (isMarker '-' after || isMarker '.' after)

end TableQuery.Yaml

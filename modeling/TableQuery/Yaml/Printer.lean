import TableQuery.Yaml.Meaning

/-! # Writing YAML scalars

A text with a line feed is written as an indented block, and any other is written plain, or in
single quotes if it cannot be. What these forms cannot hold is in double quotes.
-/

namespace TableQuery.Yaml

/-! ## Which forms can hold a text -/

/-- Characters that each form can hold; any other is escaped, which is for double quotes only. -/
def isPrintable (c : Char) : Bool :=
  let n := c.toNat
  n = 0x0A || (0x20 ≤ n && n ≤ 0x7E) || (0xA0 ≤ n && n ≤ 0xFFFD && n ≠ 0xFEFF) || 0x10000 ≤ n

/-- Whether plain text would go wrong after its first character: at a colon that ends a word or a
number sign that begins one. -/
def hasInnerIndicator : List Char → Bool
  | [] => false
  | ' ' :: '#' :: _ => true
  | ':' :: rest => endsWord rest || hasInnerIndicator rest
  | _ :: rest => hasInnerIndicator rest

def beginsWithIndicator : List Char → Bool
  | '-' :: '-' :: '-' :: _ => true
  | '.' :: '.' :: '.' :: _ => true
  | c :: rest => isIndicator c || ((c = '?' || c = ':' || c = '-') && endsWord rest)
  | [] => false

/-- A space in front of a line break would be lost. -/
def hasSpaceBeforeBreak : List Char → Bool
  | [] => false
  | c :: rest => (c = ' ' && rest.head?.any isBreak) || hasSpaceBeforeBreak rest

/-- A space after a line break would be lost where lines are folded. -/
def hasSpaceAfterBreak : List Char → Bool
  | [] => false
  | c :: rest => (isBreak c && rest.head? = some ' ') || hasSpaceAfterBreak rest

def isPlain (cs : List Char) : Bool :=
  cs.all isPrintable && !cs.any isBreak && cs.head? != some ' ' && cs.getLast? != some ' ' &&
    !beginsWithIndicator cs && !hasInnerIndicator cs

def isSingle (cs : List Char) : Bool :=
  cs.all isPrintable && !hasSpaceBeforeBreak cs && !hasSpaceAfterBreak cs

def isBlock (cs : List Char) : Bool :=
  cs.all isPrintable && cs.getLast? != some ' ' && !hasSpaceBeforeBreak cs

/-! ## The forms -/

/-- Indents every line that is not empty. -/
def indentLines (atStart : Bool) : List Char → List Char
  | [] => []
  | c :: rest =>
    if isBreak c then c :: indentLines true rest
    else (if atStart then [' ', ' ', c] else [c]) ++ indentLines false rest

/-- A quote is written twice. The closing quote is indented if it begins a line. -/
def singleQuoted (cs : List Char) : List Char :=
  let doubled := cs.flatMap fun c => if c = '\'' then ['\'', '\''] else [c]
  '\'' :: indentLines false (doubled ++ ['\''])

def hexDigits (width n : Nat) : List Char :=
  let digits := (Nat.toDigits 16 n).map Char.toUpper
  List.replicate (width - digits.length) '0' ++ digits

/-- The letter that stands for a character after a backslash. -/
def escapeLetter? (c : Char) : Option Char :=
  match c.toNat with
  | 0x00 => some '0'
  | 0x07 => some 'a'
  | 0x08 => some 'b'
  | 0x09 => some 't'
  | 0x0A => some 'n'
  | 0x0B => some 'v'
  | 0x0C => some 'f'
  | 0x0D => some 'r'
  | 0x1B => some 'e'
  | 0x22 => some '"'
  | 0x5C => some '\\'
  | 0x85 => some 'N'
  | 0x2028 => some 'L'
  | 0x2029 => some 'P'
  | _ => none

def doubleQuotedChar (c : Char) : List Char :=
  match escapeLetter? c with
  | some letter => ['\\', letter]
  | none =>
    if isPrintable c then [c]
    else if c.toNat < 0x100 then '\\' :: 'x' :: hexDigits 2 c.toNat
    else if c.toNat < 0x10000 then '\\' :: 'u' :: hexDigits 4 c.toNat
    else '\\' :: 'U' :: hexDigits 8 c.toNat

def doubleQuoted (cs : List Char) : List Char := '"' :: cs.flatMap doubleQuotedChar ++ ['"']

/-- The header says how far the block is indented when its first line does not show it, and whether
the line breaks at the end belong to the text. -/
def blockHeader (cs : List Char) : List Char :=
  let indent := if cs.head?.any fun c => c = ' ' || isBreak c then ['2'] else []
  let chomp :=
    match (cs.reverse.takeWhile isBreak).length with
    | 0 => ['-']
    | 1 => if cs.length = 1 then ['+'] else []
    | _ => ['+']
  '|' :: indent ++ chomp

def block (cs : List Char) : List Char := blockHeader cs ++ '\n' :: indentLines true cs

def writeChars (cs : List Char) : List Char :=
  if cs.contains '\n' then if isBlock cs then block cs else doubleQuoted cs
  else if isPlain cs && !hasOtherMeaning (String.ofList cs) then cs
  else if isSingle cs then singleQuoted cs
  else doubleQuoted cs

/-- The scalar that reads back as the text. -/
def write (s : String) : String := String.ofList (writeChars s.toList)

/-- An entry of a block mapping. A line break at the end of a block is also that of the entry. -/
def writeEntry (name written : String) : String :=
  let ending := if written.toList.getLast?.any isBreak then "" else "\n"
  name ++ ": " ++ written ++ ending

end TableQuery.Yaml

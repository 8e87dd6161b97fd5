import TableQuery.Json.Literal

/-! # Tokens of JSON text -/

namespace TableQuery.Json

/-- Why a text is not JSON. -/
inductive Failure where
  /-- The text has a character where none of its kind may stand, or too large a number, or too deep
  a nesting. -/
  | malformed
  /-- The text ends where more is required. -/
  | incomplete
  deriving DecidableEq, Repr

inductive Token where
  | openArray
  | closeArray
  | openObject
  | closeObject
  | comma
  | colon
  | null
  | bool (b : Bool)
  | number (n : Number)
  | string (s : String)
  /-- A string, or else another value, that begins here and is not read to its end. -/
  | broken (isString : Bool) (why : Failure)
  deriving DecidableEq

def isSpace (c : Char) : Bool := c = ' ' || c = '\t' || c = '\n' || c = '\r'

/-! ## Strings -/

def hexValue? (c : Char) : Option Nat :=
  if c.isDigit then some (c.toNat - '0'.toNat)
  else if 'a' ≤ c && c ≤ 'f' then some (c.toNat - 'a'.toNat + 10)
  else if 'A' ≤ c && c ≤ 'F' then some (c.toNat - 'A'.toNat + 10)
  else none

/-- The UTF-16 unit that four hexadecimal digits name. -/
def unit? (a b c d : Char) : Option Nat := do
  pure ((((← hexValue? a) * 16 + (← hexValue? b)) * 16 + (← hexValue? c)) * 16 + (← hexValue? d))

/-- What an escape with fewer than four characters left means: four bytes may still be there. -/
def shortUnit (cs : List Char) : Failure :=
  if (String.ofList cs).utf8ByteSize < 4 then .incomplete else .malformed

def isLeading (unit : Nat) : Bool := 0xD800 ≤ unit && unit ≤ 0xDBFF

def isTrailing (unit : Nat) : Bool := 0xDC00 ≤ unit && unit ≤ 0xDFFF

def pairValue (leading trailing : Nat) : Nat :=
  0x10000 + (leading - 0xD800) * 0x400 + (trailing - 0xDC00)

/-- The character that a backslash and `c` stand for. -/
def escaped? : Char → Option Char
  | '"' => some '"'
  | '\\' => some '\\'
  | '/' => some '/'
  | 'b' => some '\x08'
  | 'f' => some '\x0c'
  | 'n' => some '\n'
  | 'r' => some '\r'
  | 't' => some '\t'
  | _ => none

/-- Reads up to the closing quote; `read` holds the characters so far, the last one first. -/
def readString (read : List Char) : List Char → Except Failure (String × List Char)
  | [] => .error .incomplete
  | '"' :: rest => .ok (String.ofList read.reverse, rest)
  | '\\' :: 'u' :: a :: b :: c :: d :: rest =>
    match unit? a b c d with
    | none => .error .malformed
    | some unit =>
      if isTrailing unit then .error .malformed
      else if isLeading unit then
        match rest with
        | [] => .error .incomplete
        | ['\\'] => .error .incomplete
        | '\\' :: 'u' :: e :: f :: g :: h :: rest =>
          match unit? e f g h with
          | some low =>
            if isTrailing low then readString (Char.ofNat (pairValue unit low) :: read) rest
            else .error .malformed
          | none => .error .malformed
        | '\\' :: 'u' :: short => .error (shortUnit short)
        | _ => .error .malformed
      else readString (Char.ofNat unit :: read) rest
  | '\\' :: 'u' :: short => .error (shortUnit short)
  | ['\\'] => .error .incomplete
  | '\\' :: c :: rest =>
    match escaped? c with
    | some e => readString (e :: read) rest
    | none => .error .malformed
  | c :: rest => if c.toNat < 0x20 then .error .malformed else readString (c :: read) rest

/-! ## Numbers -/

/-- At least one digit, and what follows the digits. -/
def readDigits (cs : List Char) : Except Failure (List Char × List Char) :=
  match cs with
  | [] => .error .incomplete
  | c :: _ =>
    if c.isDigit then .ok (cs.takeWhile Char.isDigit, cs.dropWhile Char.isDigit)
    else .error .malformed

/-- A zero is the only digit in front of the point, or not the first one. -/
def readWhole (cs : List Char) : Except Failure (List Char × List Char) := do
  let (digits, rest) ← readDigits cs
  if digits.head? = some '0' && digits.length ≠ 1 then .error .malformed else .ok (digits, rest)

def readFraction : List Char → Except Failure (Option (List Char) × List Char)
  | '.' :: rest => (readDigits rest).map fun (digits, rest) => (some digits, rest)
  | cs => .ok (none, cs)

def readExponent : List Char → Except Failure (Option (Bool × List Char) × List Char)
  | c :: rest =>
    if c = 'e' || c = 'E' then
      let (negative, rest) :=
        match rest with
        | '-' :: more => (true, more)
        | '+' :: more => (false, more)
        | _ => (false, rest)
      (readDigits rest).map fun (digits, rest) => (some (negative, digits), rest)
    else .ok (none, c :: rest)
  | [] => .ok (none, [])

def readNumber (cs : List Char) : Except Failure (Number × List Char) := do
  let (negative, rest) :=
    match cs with
    | '-' :: more => (true, more)
    | _ => (false, cs)
  let (whole, rest) ← readWhole rest
  let (fraction, rest) ← readFraction rest
  let (exponent, rest) ← readExponent rest
  match (Literal.mk negative whole fraction exponent).toNumber? with
  | some n => .ok (n, rest)
  | none => .error .malformed

/-! ## Words -/

/-- What follows `word` at the front of the text. -/
def readWord : List Char → List Char → Except Failure (List Char)
  | [], rest => .ok rest
  | _ :: _, [] => .error .incomplete
  | w :: word, c :: rest => if w = c then readWord word rest else .error .malformed

/-! ## All tokens -/

def tokenOf {α : Type} (isString : Bool) (token : α → Token) :
    Except Failure (α × List Char) → Token × List Char
  | .ok (a, rest) => (token a, rest)
  | .error why => (.broken isString why, [])

/-- The token that begins with `c`, and the text after it; after a broken token nothing is read. -/
def readToken (c : Char) (rest : List Char) : Token × List Char :=
  match c with
  | '[' => (.openArray, rest)
  | ']' => (.closeArray, rest)
  | '\x7b' => (.openObject, rest)
  | '\x7d' => (.closeObject, rest)
  | ',' => (.comma, rest)
  | ':' => (.colon, rest)
  | '"' => tokenOf true .string (readString [] rest)
  | 'n' => tokenOf false (fun _ => .null) ((readWord "ull".toList rest).map ((), ·))
  | 't' => tokenOf false (fun _ => .bool true) ((readWord "rue".toList rest).map ((), ·))
  | 'f' => tokenOf false (fun _ => .bool false) ((readWord "alse".toList rest).map ((), ·))
  | _ =>
    if c = '-' || c.isDigit then tokenOf false .number (readNumber (c :: rest))
    else (.broken false .malformed, [])

/-- Splits text into tokens; each takes a character or more, so `fuel` need not exceed the
length. -/
def tokenizeWith : Nat → List Char → List Token
  | 0, _ => []
  | _ + 1, [] => []
  | fuel + 1, c :: rest =>
    if isSpace c then tokenizeWith fuel rest
    else
      let (token, rest) := readToken c rest
      token :: tokenizeWith fuel rest

def tokenize (cs : List Char) : List Token := tokenizeWith cs.length cs

end TableQuery.Json

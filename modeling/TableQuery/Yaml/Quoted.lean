import TableQuery.Yaml.Character

/-! # Quoted YAML scalars

In single quotes a quote is written twice, and in double quotes a backslash escapes.
-/

namespace TableQuery.Yaml

def digitValue? (base : Nat) (c : Char) : Option Nat :=
  let value? :=
    if c.isDigit then some (c.toNat - '0'.toNat)
    else if 'a' ≤ c && c ≤ 'z' then some (c.toNat - 'a'.toNat + 10)
    else if 'A' ≤ c && c ≤ 'Z' then some (c.toNat - 'A'.toNat + 10)
    else none
  value?.filter (· < base)

def numeral? (base : Nat) (digits : List Char) : Option Nat :=
  if digits.isEmpty then none
  else digits.foldlM (fun n c => (digitValue? base c).map (base * n + ·)) 0

def escapeValue? (letter : Char) : Option Char :=
  match letter with
  | '0' => some '\x00'
  | 'a' => some '\x07'
  | 'b' => some '\x08'
  | 't' => some '\t'
  | '\t' => some '\t'
  | 'n' => some '\n'
  | 'v' => some '\x0b'
  | 'f' => some '\x0c'
  | 'r' => some '\r'
  | 'e' => some '\x1b'
  | ' ' => some ' '
  | '"' => some '"'
  | '/' => some '/'
  | '\\' => some '\\'
  | 'N' => some '\u0085'
  | '_' => some '\u00a0'
  | 'L' => some '\u2028'
  | 'P' => some '\u2029'
  | _ => none

/-- The character with the code that the first `width` digits give. -/
def readCode? (width : Nat) (cs : List Char) : Option (Char × List Char) :=
  if cs.length < width then none
  else
    (numeral? 16 (cs.take width)).bind fun n =>
      if n.isValidChar then some (Char.ofNat n, cs.drop width) else none

/-- The character of an escape, and the text after it. -/
def readEscape? : List Char → Option (Char × List Char)
  | [] => none
  | 'x' :: rest => readCode? 2 rest
  | 'u' :: rest => readCode? 4 rest
  | 'U' :: rest => readCode? 8 rest
  | letter :: rest => (escapeValue? letter).map (·, rest)

/-- Reads up to the closing quote. A line break after a backslash is dropped, and of the gap that it
begins only the other line breaks are kept. -/
def readQuoted? (quote : Char) : Nat → List Char → Option (List Char × List Char)
  | 0, _ => none
  | _ + 1, [] => none
  | fuel + 1, c :: rest =>
    let proceed (text after : List Char) : Option (List Char × List Char) :=
      (readQuoted? quote fuel after).map fun (more, after) => (text ++ more, after)
    if isGap c then
      let (gap, after) := takeGap (c :: rest)
      if reachesMarker gap after then none else proceed (foldGap gap) after
    else if c = quote then
      if quote = '\'' && rest.head? = some quote then proceed [quote] (rest.drop 1)
      else some ([], rest)
    else if quote = '"' && c = '\\' then
      if rest.head?.any isBreak then
        let (gap, after) := takeGap rest
        if reachesMarker gap after then none else proceed ((gap.filter isBreak).drop 1) after
      else (readEscape? rest).bind fun (value, after) => proceed [value] after
    else proceed [c] rest

/-- The text after an opening quote, and what comes after the closing one. -/
def quoted? (quote : Char) (cs : List Char) : Option (String × List Char) :=
  (readQuoted? quote (cs.length + 1) cs).map fun (text, after) => (String.ofList text, after)

end TableQuery.Yaml

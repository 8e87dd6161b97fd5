import TableQuery.Text.Digits
import TableQuery.Yaml.Quoted
import TableQuery.Yaml.Token

/-! # Anchors, tags and directives of YAML text

An anchor names a node, a tag says what a node is, and a directive is an instruction in front of a
document. Each reader takes the text after the mark and gives what it reads and the text after it.
-/

namespace TableQuery.Yaml

/-- The name at the front, and the text after it. -/
def takeName (cs : List Char) : List Char × List Char :=
  (cs.takeWhile isNameChar, cs.dropWhile isNameChar)

/-- The name of an anchor is not empty, and a gap or one of some marks comes after it. -/
def readAnchor? (cs : List Char) : Option (String × List Char) :=
  let (name, rest) := takeName cs
  let ends := endsWord rest || rest.head?.any ("?:,]\x7d%@\x60".toList.contains ·)
  if name.isEmpty || !ends then none else some (String.ofList name, rest)

/-! ## Tags -/

/-- Characters of a tag; those of a flow collection only where `isWide`. -/
def isTagChar (isWide : Bool) (c : Char) : Bool :=
  isNameChar c || ";/?:@&=+$.!~*'()".toList.contains c || (isWide && ",[]".toList.contains c)

/-- An octet that is written as a percent sign and two digits. -/
def readOctet? : List Char → Option (Nat × List Char)
  | '%' :: a :: b :: rest => (numeral? 16 [a, b]).map (·, rest)
  | _ => none

/-- How many octets come after the first one of a character. -/
def trailCount? (octet : Nat) : Option Nat :=
  if octet < 0x80 then some 0
  else if octet < 0xC0 then none
  else if octet < 0xE0 then some 1
  else if octet < 0xF0 then some 2
  else if octet < 0xF8 then some 3
  else none

def readTrail? : Nat → List Char → Option (List Char × List Char)
  | 0, cs => some ([], cs)
  | count + 1, cs => do
    let (octet, rest) ← readOctet? cs
    let (more, rest) ← if 0x80 ≤ octet && octet < 0xC0 then readTrail? count rest else none
    pure (Char.ofNat octet :: more, rest)

/-- All octets of one character; each is kept as a character of its own. -/
def readOctets? (cs : List Char) : Option (List Char × List Char) := do
  let (octet, rest) ← readOctet? cs
  let (more, rest) ← readTrail? (← trailCount? octet) rest
  pure (Char.ofNat octet :: more, rest)

def readTagChars? (isWide : Bool) : Nat → List Char → Option (List Char × List Char)
  | 0, _ => none
  | _ + 1, [] => some ([], [])
  | fuel + 1, c :: rest =>
    if c = '%' then do
      let (octets, rest) ← readOctets? (c :: rest)
      (readTagChars? isWide fuel rest).map fun (more, rest) => (octets ++ more, rest)
    else if isTagChar isWide c then
      (readTagChars? isWide fuel rest).map fun (more, rest) => (c :: more, rest)
    else some ([], c :: rest)

/-- The part of a tag at the front after what is `read` of it; an octet of zero ends it. -/
def readTagText? (isWide : Bool) (read : List Char) (cs : List Char) :
    Option (String × List Char) :=
  (readTagChars? isWide (cs.length + 1) cs).map fun (text, rest) =>
    (String.ofList ((read ++ text).takeWhile (· ≠ '\x00')), rest)

/-- A part of a tag that holds a character or more. -/
def readTagPart? (isWide : Bool) (cs : List Char) : Option (String × List Char) :=
  if cs.head?.any fun c => c = '%' || isTagChar isWide c then readTagText? isWide [] cs else none

/-- A whole tag in angle brackets, or a handle and the rest of the tag. A mark alone is a tag. -/
def readTagParts? (cs : List Char) : Option (String × String × List Char) :=
  match cs with
  | '<' :: rest => do
    let (tag, rest) ← readTagPart? true rest
    match rest with
    | '>' :: rest => pure ("", tag, rest)
    | _ => none
  | cs =>
    let (name, rest) := takeName cs
    match rest with
    | '!' :: rest =>
      (readTagPart? false rest).map fun (suffix, rest) =>
        ("!" ++ String.ofList name ++ "!", suffix, rest)
    | rest =>
      (readTagText? false name rest).map fun (suffix, rest) =>
        if suffix.isEmpty then ("", "!", rest) else ("!", suffix, rest)

def readTag? (inFlow : Bool) (cs : List Char) : Option (Token × List Char) := do
  let (handle, suffix, rest) ← readTagParts? cs
  if endsWord rest || (inFlow && rest.head? = some ',') then pure (.tag handle suffix, rest)
  else none

/-! ## Directives -/

/-- A number of at most nine digits. -/
def readVersionNumber? (cs : List Char) : Option (Nat × List Char) :=
  let digits := cs.takeWhile Char.isDigit
  if digits.isEmpty || 9 < digits.length then none
  else some (Text.digitsValue digits, cs.dropWhile Char.isDigit)

def readVersion? (cs : List Char) : Option (Token × List Char) := do
  let (major, rest) ← readVersionNumber? cs
  match rest with
  | '.' :: rest =>
    let (minor, rest) ← readVersionNumber? rest
    pure (.version major minor, rest)
  | _ => none

/-- A handle is one mark, or a name between two. -/
def readHandleName? : List Char → Option (String × List Char)
  | '!' :: rest =>
    match takeName rest with
    | (name, '!' :: rest) => some ("!" ++ String.ofList name ++ "!", rest)
    | ([], rest) => some ("!", rest)
    | _ => none
  | _ => none

def readHandle? (cs : List Char) : Option (Token × List Char) := do
  let (name, rest) ← readHandleName? cs
  if rest.head?.any isBlank then
    let (expansion, rest) ← readTagPart? true (rest.dropWhile isBlank)
    if endsWord rest then pure (.handle name expansion, rest) else none
  else none

/-- A directive takes its whole line. -/
def readDirective? (cs : List Char) : Option (Token × List Char) := do
  let (name, rest) := takeName cs
  let rest ← if endsWord rest then some (rest.dropWhile isBlank) else none
  let (directive, rest) ←
    if String.ofList name = "YAML" then readVersion? rest
    else if String.ofList name = "TAG" then readHandle? rest
    else none
  pure (directive, ← endLine? rest)

end TableQuery.Yaml

import TableQuery.Json.Token
import TableQuery.Number.Decimal

/-! # Writing JSON text

Compact text has no blanks. Indented text has one member or item a line, two blanks a level.
-/

namespace TableQuery.Json

/-- Doubles keep a point; exponents below -5 or above 15 are written with `e` and a sign. -/
def numberLayout : DecimalLayout := ⟨.even, some (-5), some 15, true⟩

def numberChars : Number → List Char
  | .integer value _ _ => (toString value).toList
  | .double x => numberLayout.render x

def Number.render (n : Number) : String := String.ofList (numberChars n)

/-! ## Strings -/

def hexDigit (n : Nat) : Char :=
  if n < 10 then Char.ofNat ('0'.toNat + n) else Char.ofNat ('a'.toNat + (n - 10))

/-- A quote, a backslash and the control characters are escaped; all else stands for itself. -/
def charChars (c : Char) : List Char :=
  if c = '"' then ['\\', '"']
  else if c = '\\' then ['\\', '\\']
  else if c = '\x08' then ['\\', 'b']
  else if c = '\x0c' then ['\\', 'f']
  else if c = '\n' then ['\\', 'n']
  else if c = '\r' then ['\\', 'r']
  else if c = '\t' then ['\\', 't']
  else if c.toNat < 0x20 then
    ['\\', 'u', '0', '0', hexDigit (c.toNat / 16), hexDigit (c.toNat % 16)]
  else [c]

def stringChars (s : String) : List Char := '"' :: s.toList.flatMap charChars ++ ['"']

/-! ## Compact text -/

def Token.chars : Token → List Char
  | .openArray => ['[']
  | .closeArray => [']']
  | .openObject => ['\x7b']
  | .closeObject => ['\x7d']
  | .comma => [',']
  | .colon => [':']
  | .null => "null".toList
  | .bool b => (if b then "true" else "false").toList
  | .number n => numberChars n
  | .string s => stringChars s
  | .broken _ _ => []

mutual

/-- The tokens of a value in front of `rest`. -/
def tokens : Json → List Token → List Token
  | .null, rest => .null :: rest
  | .bool b, rest => .bool b :: rest
  | .number n, rest => .number n :: rest
  | .string s, rest => .string s :: rest
  | .array [], rest => .openArray :: .closeArray :: rest
  | .array (item :: items), rest =>
    .openArray :: tokens item (itemTokens items (.closeArray :: rest))
  | .object [], rest => .openObject :: .closeObject :: rest
  | .object ((key, value) :: members), rest =>
    .openObject :: .string key :: .colon ::
      tokens value (memberTokens members (.closeObject :: rest))

def itemTokens : List Json → List Token → List Token
  | [], rest => rest
  | item :: items, rest => .comma :: tokens item (itemTokens items rest)

def memberTokens : List (String × Json) → List Token → List Token
  | [], rest => rest
  | (key, value) :: members, rest =>
    .comma :: .string key :: .colon :: tokens value (memberTokens members rest)

end

mutual

theorem tokens_append (v : Json) (ts rest : List Token) :
    tokens v (ts ++ rest) = tokens v ts ++ rest := by
  match v with
  | .null => rfl
  | .bool _ => rfl
  | .number _ => rfl
  | .string _ => rfl
  | .array [] => rfl
  | .array (item :: items) =>
    rw [tokens, ← List.cons_append, itemTokens_append, tokens_append item]
    rfl
  | .object [] => rfl
  | .object ((key, value) :: members) =>
    rw [tokens, ← List.cons_append, memberTokens_append, tokens_append value]
    rfl

theorem itemTokens_append (items : List Json) (ts rest : List Token) :
    itemTokens items (ts ++ rest) = itemTokens items ts ++ rest := by
  match items with
  | [] => rfl
  | item :: items =>
    rw [itemTokens, itemTokens_append items, tokens_append item]
    rfl

theorem memberTokens_append (members : List (String × Json)) (ts rest : List Token) :
    memberTokens members (ts ++ rest) = memberTokens members ts ++ rest := by
  match members with
  | [] => rfl
  | (key, value) :: members =>
    rw [memberTokens, memberTokens_append members, tokens_append value]
    rfl

end

/-- Compact text. -/
def render (v : Json) : String := String.ofList ((tokens v []).flatMap Token.chars)

instance : ToString Json := ⟨render⟩

theorem render_object_singleton (key : String) (v : Json) : (object [(key, v)]).render =
    "\x7b" ++ (string key).render ++ ":" ++ v.render ++ "\x7d" := by
  have htokens : tokens v [.closeObject] = tokens v [] ++ [.closeObject] := tokens_append v [] _
  rw [← String.toList_inj, render, tokens, memberTokens, htokens]
  simp [render, tokens, Token.chars]

/-! ## Indented text -/

def lineBreak (level : Nat) : List Char := '\n' :: List.replicate (2 * level) ' '

mutual

def indentedChars (level : Nat) : Json → List Char
  | .array [] => ['[', ']']
  | .array (item :: items) =>
    '[' :: lineBreak (level + 1) ++ indentedChars (level + 1) item ++
      indentedItems (level + 1) items ++ lineBreak level ++ [']']
  | .object [] => ['\x7b', '\x7d']
  | .object ((key, value) :: members) =>
    '\x7b' :: lineBreak (level + 1) ++ stringChars key ++ ':' :: ' ' ::
      indentedChars (level + 1) value ++ indentedMembers (level + 1) members ++
      lineBreak level ++ ['\x7d']
  | .null => Token.null.chars
  | .bool b => (Token.bool b).chars
  | .number n => numberChars n
  | .string s => stringChars s

def indentedItems (level : Nat) : List Json → List Char
  | [] => []
  | item :: items => ',' :: lineBreak level ++ indentedChars level item ++ indentedItems level items

def indentedMembers (level : Nat) : List (String × Json) → List Char
  | [] => []
  | (key, value) :: members =>
    ',' :: lineBreak level ++ stringChars key ++ ':' :: ' ' :: indentedChars level value ++
      indentedMembers level members

end

/-- Indented text. -/
def renderIndented (v : Json) : String := String.ofList (indentedChars 0 v)

end TableQuery.Json

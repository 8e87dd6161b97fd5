/-! # Percent-encoding

Letters, digits and `-._~` stand for themselves. Every other byte of the UTF-8 form is written as
`%` and two upper-case hexadecimal digits.
-/

namespace TableQuery.Text.Percent

/-- Bytes that need no escape: the unreserved characters of a URL. -/
def isUnreserved (b : UInt8) : Bool :=
  (0x30 ≤ b && b ≤ 0x39) || (0x41 ≤ b && b ≤ 0x5A) || (0x61 ≤ b && b ≤ 0x7A) ||
    b == 0x2D || b == 0x2E || b == 0x5F || b == 0x7E

/-- The upper-case hexadecimal digit of a number below sixteen. -/
def hexDigit (n : Nat) : Char :=
  if n < 10 then Char.ofNat (0x30 + n) else Char.ofNat (0x41 + (n - 10))

def encodeByte (b : UInt8) : List Char :=
  if isUnreserved b then [Char.ofNat b.toNat]
  else ['%', hexDigit (b.toNat / 16), hexDigit (b.toNat % 16)]

def encodeChars (cs : List Char) : List Char :=
  (cs.flatMap String.utf8EncodeChar).flatMap encodeByte

def encode (s : String) : String := String.ofList (encodeChars s.toList)

end TableQuery.Text.Percent

/-! # Digits and signs -/

namespace TableQuery.Text

def digitValue (c : Char) : Nat := c.toNat - '0'.toNat

/-- The number that decimal digits stand for. -/
def digitsValue (cs : List Char) : Nat := cs.foldl (fun n c => 10 * n + digitValue c) 0

/-- Whether a minus stands in front, and the text after the sign. -/
def takeSign : List Char → Bool × List Char
  | '-' :: rest => (true, rest)
  | '+' :: rest => (false, rest)
  | cs => (false, cs)

/-- Reads decimal digits with an optional sign. -/
def integer? (cs : List Char) : Option Int :=
  let (negative, digits) := takeSign cs
  if digits.isEmpty || !digits.all Char.isDigit then none
  else some (if negative then -digitsValue digits else digitsValue digits)

end TableQuery.Text

import TableQuery.Json.Basic
import TableQuery.Text.Digits

/-! # Number literals

The parts of a number literal and its value. An integer literal in range stays an integer. Any
other literal is a double: the leading digits that fit 64 bits, rounded to a double, times or
divided by a power of ten, each step rounded once.
-/

namespace TableQuery.Json

structure Literal where
  negative : Bool
  whole : List Char
  fraction : Option (List Char)
  /-- Sign and digits of the exponent; `true` stands for a minus. -/
  exponent : Option (Bool × List Char)
  deriving DecidableEq

namespace Literal

/-- Appends digits to `read` while the number fits 64 bits, and counts the digits left over. -/
def significand (read : Nat) : List Char → Nat × Nat
  | [] => (read, 0)
  | c :: rest =>
    let next := 10 * read + Text.digitValue c
    if next < 0x10000000000000000 then significand next rest else (read, rest.length + 1)

def exponentValue (e : Bool × List Char) : Int :=
  let magnitude := Text.digitsValue e.2
  if e.1 then -magnitude else magnitude

def largestPower : Nat := 308

/-- The double nearest to a power of ten up to the largest. -/
def tenTo (n : Nat) : Binary64 := (Binary64.ofNat? false (Nat.pow 10 n)).getD default

/-- Moves the point of `x` by `exponent` places; none when the result is too large. `fuel` bounds
the divisions by the largest power: the third already gives zero. -/
def scaled (x : Binary64) (exponent : Int) : Nat → Option Binary64
  | 0 => some x
  | fuel + 1 =>
    if 0 ≤ exponent then
      if exponent ≤ largestPower then x.mul? (tenTo exponent.toNat)
      else if x.isZero then some x else none
    else if -largestPower ≤ exponent then x.div? (tenTo (-exponent).toNat)
    else if x.isZero then some x
    else (x.div? (tenTo largestPower)).bind fun y => scaled y (exponent + largestPower) fuel

def toDouble? (l : Literal) : Option Binary64 := do
  let (read, dropped) := significand 0 l.whole
  let fraction := l.fraction.getD []
  let (read, ignored) := significand read fraction
  let exponent := (l.exponent.map exponentValue).getD 0
  let x ← Binary64.ofNat? false read
  let y ← scaled x (exponent + dropped - (fraction.length - ignored : Nat)) 4
  pure { y with negative := l.negative }

/-- The value of the literal; none when it, or a step on the way to it, is beyond the largest
double. -/
def toNumber? (l : Literal) : Option Number :=
  let magnitude := Text.digitsValue l.whole
  let value : Int := if l.negative then -magnitude else magnitude
  let isInteger := l.fraction.isNone && l.exponent.isNone && !(l.negative && magnitude == 0)
  if h : isInteger ∧ -0x8000000000000000 ≤ value ∧ value < 0x10000000000000000 then
    some (.integer value h.2.1 h.2.2)
  else l.toDouble?.map .double

end Literal

end TableQuery.Json

/-! # Double-precision numbers

A finite double is a sign and a rank: how many non-negative doubles are smaller in magnitude. All
arithmetic is exact on natural numbers and rounds once, to the nearest double, a tie to the even
rank.
-/

namespace TableQuery

/-- How many doubles there are from one power of two up to the next. -/
def octaveSize : Nat := 0x10000000000000

/-- One more than the largest rank of a finite double. -/
def maxRank : Nat := 2047 * octaveSize

structure Binary64 where
  negative : Bool
  rank : Nat
  rank_lt : rank < maxRank
  deriving DecidableEq

namespace Binary64

/-- Zero has a sign, and the two zeros are equal. -/
instance : BEq Binary64 where
  beq x y := x.rank == y.rank && (x.negative == y.negative || x.rank == 0)

def zero (negative : Bool) : Binary64 := ⟨negative, 0, by decide⟩

instance : Inhabited Binary64 := ⟨zero false⟩

def isZero (x : Binary64) : Bool := x.rank == 0

/-! ## Magnitude -/

/-- Exponent of the unit in the last place, counted from that of the smallest doubles. -/
def scale (rank : Nat) : Nat := rank / octaveSize - 1

/-- The magnitude as a multiple of `2 ^ -1074`. -/
def units (x : Binary64) : Nat := (x.rank - scale x.rank * octaveSize) <<< scale x.rank

/-- How many times the smallest positive double goes into one. -/
def unitsPerOne : Nat := 1 <<< 1074

/-! ## Rounding -/

/-- The quotient rounded to the nearest number, a tie to the even one. -/
def roundDiv (num den : Nat) : Nat :=
  let q := num / den
  let r := num % den
  if 2 * r < den then q else if den < 2 * r then q + 1 else q + q % 2

/-- The double nearest to `num / den`; none when that is beyond the largest finite one. -/
def ofRatio? (negative : Bool) (num den : Nat) : Option Binary64 :=
  let units := num * unitsPerOne
  let scale := (units / den).log2 - 52
  let rank := scale * octaveSize + roundDiv units (den <<< scale)
  if h : rank < maxRank then some ⟨negative, rank, h⟩ else none

def ofNat? (negative : Bool) (n : Nat) : Option Binary64 := ofRatio? negative n 1

def mul? (x y : Binary64) : Option Binary64 :=
  ofRatio? (x.negative != y.negative) (x.units * y.units) (unitsPerOne * unitsPerOne)

/-- The divisor is not zero. -/
def div? (x y : Binary64) : Option Binary64 :=
  ofRatio? (x.negative != y.negative) x.units y.units

/-- The double nearest to `digits * 10 ^ exponent`. -/
def ofDecimal? (negative : Bool) (digits : Nat) (exponent : Int) : Option Binary64 :=
  -- Beyond these exponents the answer is known, and the powers of ten stay small.
  if digits = 0 || exponent < -(digits.log2 + 331 : Nat) then some (zero negative)
  else if 310 < exponent then none
  else if 0 ≤ exponent then ofRatio? negative (digits * Nat.pow 10 exponent.toNat) 1
  else ofRatio? negative digits (Nat.pow 10 (-exponent).toNat)

example : (ofDecimal? false 1 0).map units = some unitsPerOne := by decide +kernel
example : (ofDecimal? false 5 (-324)).map rank = some 1 := by decide +kernel
example : (ofDecimal? true 2 (-324)).map rank = some 0 := by decide +kernel
example : ofDecimal? false 17976931348623159 292 = none := by decide +kernel

end Binary64

end TableQuery

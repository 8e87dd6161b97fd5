import TableQuery.Number.Binary64

/-! # Decimal text of doubles

A double is written with the fewest digits that read back as the same double and, of those, the
digits nearest to it. A layout says which digits win a tie and where the point and the exponent go.
-/

namespace TableQuery

/-- The number `digits * 10 ^ exponent`. -/
structure Decimal where
  digits : Nat
  exponent : Int
  deriving DecidableEq, Repr

namespace Decimal

/-- Drops zeros at the end of the digits; `fuel` bounds how many. -/
def trimZeros : Nat → Decimal → Decimal
  | 0, d => d
  | fuel + 1, d =>
    if d.digits % 10 = 0 && d.digits != 0 then trimZeros fuel ⟨d.digits / 10, d.exponent + 1⟩ else d

end Decimal

/-- Which of two numbers wins that are equally near: the one with an even last digit, or the larger
one. -/
inductive Tie where
  | even
  | up
  deriving DecidableEq, Repr

namespace Binary64

/-- The magnitude, digit for digit. -/
def exactDecimal (x : Binary64) : Decimal := ⟨x.units * Nat.pow 5 1074, -1074⟩

def readsBackAs (x : Binary64) (d : Decimal) : Bool :=
  ofDecimal? x.negative d.digits d.exponent == some x

/-- Of the two neighbours with `count` digits, the nearest that reads back. -/
def roundTo? (x : Binary64) (tie : Tie) (length count : Nat) : Option Decimal :=
  let exact := x.exactDecimal
  let cut := length - count
  let grid := Nat.pow 10 cut
  let lower := exact.digits / grid
  let rest := exact.digits % grid
  let onGrid (digits : Nat) : Decimal := ⟨digits, exact.exponent + cut⟩
  let lowerFirst := 2 * rest < grid || (2 * rest == grid && tie = .even && lower % 2 == 0)
  let candidates := if lowerFirst then [lower, lower + 1] else [lower + 1, lower]
  (candidates.map onGrid).find? x.readsBackAs

/-- The fewest digits that read back; seventeen are always enough. -/
def shortest (x : Binary64) (tie : Tie) : Decimal :=
  if x.isZero then ⟨0, 0⟩
  else
    let length := (toString x.exactDecimal.digits).length
    let found := (List.range 17).findSome? fun n => x.roundTo? tie length (n + 1)
    (found.getD x.exactDecimal).trimZeros 1100

end Binary64

/-! ## Layout -/

/-- How a double is written. `lowest` and `highest` bound the exponents of the first digit that
are written without an exponent; there `pointZero` gives whole numbers a `.0`. -/
structure DecimalLayout where
  tie : Tie
  lowest : Option Int
  highest : Option Int
  pointZero : Bool

namespace DecimalLayout

def isPositional (layout : DecimalLayout) (first : Int) : Bool :=
  layout.lowest.all (· ≤ first) && layout.highest.all (first ≤ ·)

/-- Digits and a point, where `first` is the exponent of the first digit. -/
def positional (layout : DecimalLayout) (digits : List Char) (first : Int) : List Char :=
  if first < 0 then "0.".toList ++ List.replicate (-first - 1).toNat '0' ++ digits
  else
    let whole := first.toNat + 1
    if digits.length ≤ whole then
      digits ++ List.replicate (whole - digits.length) '0' ++
        (if layout.pointZero then ['.', '0'] else [])
    else digits.take whole ++ '.' :: digits.drop whole

/-- One digit, the other digits after a point, and the exponent with its sign. -/
def scientific (digits : List Char) (first : Int) : List Char :=
  let mantissa :=
    match digits with
    | d :: e :: more => d :: '.' :: e :: more
    | short => short
  mantissa ++ 'e' :: (if first < 0 then '-' else '+') :: (toString first.natAbs).toList

def render (layout : DecimalLayout) (x : Binary64) : List Char :=
  let d := x.shortest layout.tie
  let digits := (toString d.digits).toList
  let first := d.exponent + digits.length - 1
  let magnitude :=
    if layout.isPositional first then layout.positional digits first else scientific digits first
  if x.negative then '-' :: magnitude else magnitude

end DecimalLayout

end TableQuery

import TableQuery.Number.Decimal
import TableQuery.Text.Digits

/-! # Doubles with infinities

What a number typed by hand can mean: a finite double, an infinity, or no number at all.
-/

namespace TableQuery

inductive Double where
  | finite (x : Binary64)
  | infinite (negative : Bool)
  | nan
  deriving DecidableEq

namespace Double

instance : Inhabited Double := ⟨.nan⟩

def lowered (cs : List Char) : List Char := cs.map Char.toLower

/-- Digits with an optional point and an optional exponent; a digit comes before or after the
point. -/
def decimalOf? (cs : List Char) : Option Decimal :=
  let whole := cs.takeWhile Char.isDigit
  let rest := cs.dropWhile Char.isDigit
  let (fraction, rest) :=
    match rest with
    | '.' :: more => (more.takeWhile Char.isDigit, more.dropWhile Char.isDigit)
    | _ => ([], rest)
  if whole.isEmpty && fraction.isEmpty then none
  else
    let exponent? :=
      match rest with
      | [] => some 0
      | c :: more => if c = 'e' || c = 'E' then Text.integer? more else none
    exponent?.map fun e => ⟨Text.digitsValue (whole ++ fraction), e - fraction.length⟩

/-- Reads a decimal number, `inf`, `infinity` or `nan` in any case, each with an optional sign. -/
def ofText? (s : String) : Option Double :=
  let (negative, body) := Text.takeSign s.toList
  if lowered body = "nan".toList then some .nan
  else if lowered body = "inf".toList || lowered body = "infinity".toList then
    some (.infinite negative)
  else
    (decimalOf? body).map fun d =>
      match Binary64.ofDecimal? negative d.digits d.exponent with
      | some x => .finite x
      | none => .infinite negative

/-- The magnitude is at most `bound`. -/
def isWithin (bound : Nat) : Double → Bool
  | .finite x => x.units ≤ bound * Binary64.unitsPerOne
  | .infinite _ => false
  | .nan => false

/-- All digits are written out, and a whole number has no point. A tie goes up. -/
def plainLayout : DecimalLayout := ⟨.up, none, none, false⟩

def toText : Double → String
  | .finite x => String.ofList (plainLayout.render x)
  | .infinite negative => if negative then "-inf" else "inf"
  | .nan => "NaN"

end Double

end TableQuery

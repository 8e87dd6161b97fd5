import Mathlib.Tactic.Ring
import TableQuery.Number.Decimal
import TableQuery.Proofs.Number.Rounding

/-!
# The shortest digits of a double

A double below the three largest ones is written with digits that are below them too, also when the
digits are rounded up. Only zero is written with the digit zero.
-/

namespace TableQuery

open Binary64

/-- The number is below the three largest doubles, by half a unit at least. -/
def Decimal.InRange (d : Decimal) : Prop :=
  2 * (d.digits * 10 ^ d.exponent.toNat * unitsPerOne) ≤
    (2 ^ 54 - 7) * (10 ^ (-d.exponent).toNat * largestUnit)

namespace Decimal

/-- A zero at the end of the digits is a zero less in front of the point, or one more behind it. -/
theorem InRange.dropZero {digits : Nat} {exponent : Int} (h : InRange ⟨10 * digits, exponent⟩) :
    InRange ⟨digits, exponent + 1⟩ := by
  unfold InRange at h ⊢
  dsimp only at h ⊢
  rcases Int.lt_or_le exponent 0 with hneg | hnonneg
  · have hpos : exponent.toNat = 0 ∧ (exponent + 1).toNat = 0 := by omega
    have hten : (-exponent).toNat = (-(exponent + 1)).toNat + 1 := by omega
    rw [hpos.1, hten] at h
    rw [hpos.2]
    refine Nat.le_of_mul_le_mul_left (c := 10) ?_ (by omega)
    calc 10 * (2 * (digits * 10 ^ 0 * unitsPerOne))
        = 2 * (10 * digits * 10 ^ 0 * unitsPerOne) := by ring
      _ ≤ (2 ^ 54 - 7) * (10 ^ ((-(exponent + 1)).toNat + 1) * largestUnit) := h
      _ = 10 * ((2 ^ 54 - 7) * (10 ^ (-(exponent + 1)).toNat * largestUnit)) := by
          rw [Nat.pow_succ]; ring
  · have hzero : (-exponent).toNat = 0 ∧ (-(exponent + 1)).toNat = 0 := by omega
    have hten : (exponent + 1).toNat = exponent.toNat + 1 := by omega
    rw [hzero.1] at h
    rw [hzero.2, hten]
    calc 2 * (digits * 10 ^ (exponent.toNat + 1) * unitsPerOne)
        = 2 * (10 * digits * 10 ^ exponent.toNat * unitsPerOne) := by rw [Nat.pow_succ]; ring
      _ ≤ (2 ^ 54 - 7) * (10 ^ 0 * largestUnit) := h

theorem InRange.movePoint {digits k : Nat} (h : InRange ⟨digits, k⟩) :
    InRange ⟨digits * 10 ^ (k + 1), -1⟩ := by
  have hexponent : (k : Int).toNat = k ∧ (-(k : Int)).toNat = 0 := by omega
  unfold InRange at h ⊢
  dsimp only at h
  rw [hexponent.1, hexponent.2] at h
  calc 2 * (digits * 10 ^ (k + 1) * 10 ^ 0 * unitsPerOne)
      = 10 * (2 * (digits * 10 ^ k * unitsPerOne)) := by rw [Nat.pow_succ]; ring
    _ ≤ 10 * ((2 ^ 54 - 7) * (10 ^ 0 * largestUnit)) := Nat.mul_le_mul_left 10 h
    _ = (2 ^ 54 - 7) * (10 ^ 1 * largestUnit) := by ring

theorem trimZeros_spec (fuel : Nat) {d : Decimal} (hd : d.digits ≠ 0) (h : d.InRange) :
    (d.trimZeros fuel).digits ≠ 0 ∧ (d.trimZeros fuel).InRange := by
  induction fuel generalizing d with
  | zero => exact ⟨hd, h⟩
  | succ fuel ih =>
    unfold trimZeros
    split
    next hzero =>
      have hlast : d.digits = 10 * (d.digits / 10) := by
        obtain ⟨hlast, -⟩ : d.digits % 10 = 0 ∧ d.digits ≠ 0 := by simpa using hzero
        omega
      refine ih (by dsimp only; omega) (InRange.dropZero ?_)
      rw [← hlast]
      exact h
    next => exact ⟨hd, h⟩

end Decimal

namespace Binary64

theorem units_ne_zero {x : Binary64} (hx : x.isZero = false) : x.units ≠ 0 := by
  have hrank : x.rank ≠ 0 := by simpa [isZero] using hx
  unfold units
  rw [Nat.shiftLeft_eq]
  refine Nat.mul_ne_zero ?_ (Nat.two_pow_pos _).ne'
  unfold scale octaveSize
  omega

theorem inRange_of_ofDecimal? {negative : Bool} {digits : Nat} {exponent : Int} {x : Binary64}
    (h : ofDecimal? negative digits exponent = some x) (hx : x.isZero = false)
    (hrank : x.rank + 4 ≤ maxRank) : digits ≠ 0 ∧ Decimal.InRange ⟨digits, exponent⟩ := by
  unfold ofDecimal? at h
  split at h
  next => cases h; cases hx
  next hsmall =>
    have hdigits : digits ≠ 0 := by
      rintro rfl
      exact hsmall (by simp)
    refine ⟨hdigits, ?_⟩
    unfold Decimal.InRange
    dsimp only
    split at h
    next => cases h
    next =>
      split at h
      next hnonneg =>
        have hzero : (-exponent).toNat = 0 := by omega
        rw [hzero, Nat.pow_zero]
        exact units_le_of_rank Nat.one_pos h hrank
      next hneg =>
        have hzero : exponent.toNat = 0 := by omega
        rw [hzero, Nat.pow_zero, Nat.mul_one]
        exact units_le_of_rank (Nat.pow_pos (by omega)) h hrank

theorem digits_exactDecimal (x : Binary64) :
    x.exactDecimal.digits = x.units * 5 ^ oneExponent := by
  rw [exactDecimal, ← oneExponent_eq]
  rfl

theorem exponent_exactDecimal (x : Binary64) : x.exactDecimal.exponent = -(oneExponent : Int) := by
  rw [oneExponent_eq]
  rfl

section

variable {x : Binary64} (hx : x.isZero = false) (hrank : x.rank + 4 ≤ maxRank)
include hx hrank

theorem spec_of_readsBackAs {d : Decimal} (h : x.readsBackAs d = true) :
    d.digits ≠ 0 ∧ d.InRange := by
  unfold readsBackAs at h
  cases hread : ofDecimal? x.negative d.digits d.exponent with
  | none => rw [hread] at h; cases h
  | some y =>
    rw [hread] at h
    have hsame : y.rank = x.rank := by
      obtain ⟨hsame, -⟩ := (Bool.and_eq_true ..).mp h
      exact eq_of_beq hsame
    refine inRange_of_ofDecimal? hread ?_ (hsame ▸ hrank)
    unfold isZero at hx ⊢
    rw [hsame]
    exact hx

theorem exactDecimal_spec : x.exactDecimal.digits ≠ 0 ∧ x.exactDecimal.InRange := by
  rw [digits_exactDecimal]
  refine ⟨Nat.mul_ne_zero (units_ne_zero hx) (Nat.pow_pos (by omega)).ne', ?_⟩
  have hunits := units_le hrank (by omega)
  have hpositive : (-(oneExponent : Int)).toNat = 0 ∧ (- -(oneExponent : Int)).toNat = oneExponent := by
    omega
  unfold Decimal.InRange
  rw [digits_exactDecimal, exponent_exactDecimal, hpositive.1, hpositive.2, unitsPerOne_eq]
  have hten : 10 ^ oneExponent = 5 ^ oneExponent * 2 ^ oneExponent := Nat.mul_pow 5 2 oneExponent
  calc 2 * (x.units * 5 ^ oneExponent * 10 ^ 0 * 2 ^ oneExponent)
      = 2 * x.units * 10 ^ oneExponent := by rw [hten]; ring
    _ ≤ (2 ^ 54 - 7) * largestUnit * 10 ^ oneExponent := Nat.mul_le_mul_right _ (by omega)
    _ = (2 ^ 54 - 7) * (10 ^ oneExponent * largestUnit) := by ring

theorem shortest_spec (tie : Tie) :
    (x.shortest tie).digits ≠ 0 ∧ (x.shortest tie).InRange := by
  have hfound : ∀ length count d, x.roundTo? tie length count = some d →
      d.digits ≠ 0 ∧ d.InRange := fun length count d h =>
    spec_of_readsBackAs hx hrank (List.find?_some h)
  unfold shortest
  rw [if_neg (by simp [hx])]
  dsimp only
  generalize hresult : (List.range 17).findSome? _ = found
  cases found with
  | none =>
    obtain ⟨hdigits, hrange⟩ := exactDecimal_spec hx hrank
    exact Decimal.trimZeros_spec 1100 hdigits hrange
  | some d =>
    obtain ⟨n, -, hn⟩ := List.exists_of_findSome?_eq_some hresult
    obtain ⟨hdigits, hrange⟩ := hfound _ _ d hn
    exact Decimal.trimZeros_spec 1100 hdigits hrange

end

/-! ## The sign has no part in the digits -/

def withSign (x : Binary64) (negative : Bool) : Binary64 := { x with negative }

theorem ofRatio?_withSign (first second : Bool) (num den : Nat) :
    (ofRatio? first num den).map (·.withSign second) = ofRatio? second num den := by
  unfold ofRatio?
  dsimp only
  split <;> rfl

theorem ofDecimal?_withSign (first second : Bool) (digits : Nat) (exponent : Int) :
    (ofDecimal? first digits exponent).map (·.withSign second) =
      ofDecimal? second digits exponent := by
  unfold ofDecimal?
  split
  next => rfl
  next =>
    split
    next => rfl
    next => split <;> exact ofRatio?_withSign ..

theorem negative_of_ofDecimal? {negative : Bool} {digits : Nat} {exponent : Int} {x : Binary64}
    (h : ofDecimal? negative digits exponent = some x) : x.negative = negative := by
  have hsame := ofDecimal?_withSign negative negative digits exponent
  rw [h, Option.map_some, Option.some.injEq] at hsame
  exact (congrArg Binary64.negative hsame).symm

theorem readsBackAs_withSign (x : Binary64) (negative : Bool) :
    (x.withSign negative).readsBackAs = x.readsBackAs := by
  funext d
  change (ofDecimal? negative d.digits d.exponent == some (x.withSign negative)) =
    (ofDecimal? x.negative d.digits d.exponent == some x)
  rw [← ofDecimal?_withSign x.negative]
  cases h : ofDecimal? x.negative d.digits d.exponent with
  | none => rfl
  | some y =>
    change (y.rank == x.rank && (negative == negative || y.rank == 0)) =
      (y.rank == x.rank && (y.negative == x.negative || y.rank == 0))
    rw [negative_of_ofDecimal? h, beq_self_eq_true, beq_self_eq_true]

theorem shortest_withSign (x : Binary64) (negative : Bool) (tie : Tie) :
    (x.withSign negative).shortest tie = x.shortest tie := by
  have hround : (x.withSign negative).roundTo? tie = x.roundTo? tie := by
    funext length count
    unfold roundTo?
    rw [readsBackAs_withSign]
    rfl
  unfold shortest
  rw [hround]
  rfl

end Binary64

end TableQuery

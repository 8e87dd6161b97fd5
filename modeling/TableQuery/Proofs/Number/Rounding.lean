import Mathlib.Tactic.Ring
import TableQuery.Number.Binary64

/-!
# Bounds for rounding

How far a quotient is from the double it is rounded to, and when it is small enough to be rounded.
All is said in natural numbers: a quotient is given as `units / den` in multiples of `2 ^ -1074`, the
smallest double.
-/

namespace TableQuery.Binary64

/-! ## The nearest whole number -/

section

variable {num den k : Nat}

theorem roundDiv_near (num : Nat) {den : Nat} (hden : 0 < den) :
    2 * (roundDiv num den * den) ≤ 2 * num + den ∧ 2 * num ≤ 2 * (roundDiv num den * den) + den := by
  have hsplit := Nat.div_add_mod num den
  have hrest := Nat.mod_lt num hden
  have hcomm : num / den * den = den * (num / den) := Nat.mul_comm ..
  unfold roundDiv
  dsimp only
  split
  next => omega
  next =>
    split
    next => rw [Nat.add_mul]; omega
    next =>
      -- A tie: the quotient is kept when it is even, and else the next one is taken.
      rcases Nat.mod_two_eq_zero_or_one (num / den) with h | h <;> rw [h, Nat.add_mul] <;> omega

theorem roundDiv_le (hden : 0 < den) (h : 2 * num < (2 * k + 1) * den) : roundDiv num den ≤ k := by
  by_contra hlt
  have hmul : (k + 1) * den ≤ roundDiv num den * den := Nat.mul_le_mul_right den (by omega)
  have hround := (roundDiv_near num hden).1
  have hleft : (2 * k + 1) * den = 2 * (k * den) + den := by ring
  have hright : (k + 1) * den = k * den + den := by ring
  omega

theorem le_roundDiv (hden : 0 < den) (h : k * den ≤ num) : k ≤ roundDiv num den := by
  have hquotient : k ≤ num / den := (Nat.le_div_iff_mul_le hden).mpr h
  unfold roundDiv
  dsimp only
  split
  next => exact hquotient
  next => split <;> omega

end

/-! ## Scale and significand -/

/-- The exponent of the unit to whose multiples the quotient is rounded. -/
def scaleOf (units den : Nat) : Nat := (units / den).log2 - 52

/-- The nearest multiple of that unit. -/
def significandOf (units den : Nat) : Nat := roundDiv units (den <<< scaleOf units den)

section

variable {units den : Nat}

theorem lt_of_scaleOf (units : Nat) {den : Nat} (hden : 0 < den) :
    units < 2 ^ (scaleOf units den + 53) * den := by
  have hlog : units / den < 2 ^ ((units / den).log2 + 1) := Nat.lt_log2_self
  have hpow : 2 ^ ((units / den).log2 + 1) ≤ 2 ^ (scaleOf units den + 53) :=
    Nat.pow_le_pow_right (by omega) (by unfold scaleOf; omega)
  exact (Nat.div_lt_iff_lt_mul hden).mp (Nat.lt_of_lt_of_le hlog hpow)

theorem scaleOf_lt (hden : 0 < den) {k : Nat} (h : units < 2 ^ (k + 52) * den) (hk : 0 < k) :
    scaleOf units den < k := by
  have hquotient : units / den < 2 ^ (k + 52) := (Nat.div_lt_iff_lt_mul hden).mpr h
  have hlog : (units / den).log2 < k + 52 := by
    by_cases hzero : units / den = 0
    · rw [hzero, Nat.log2_zero]; omega
    · exact (Nat.log2_lt hzero).mpr hquotient
  unfold scaleOf
  omega

theorem le_of_scaleOf (hden : 0 < den) (h : 2 ^ 52 * den ≤ units) :
    2 ^ (scaleOf units den + 52) * den ≤ units := by
  have hquotient : 2 ^ 52 ≤ units / den := (Nat.le_div_iff_mul_le hden).mpr h
  have hne : units / den ≠ 0 := by omega
  have hlog : 52 ≤ (units / den).log2 := (Nat.le_log2 hne).mpr hquotient
  have hscale : scaleOf units den + 52 = (units / den).log2 := by unfold scaleOf; omega
  rw [hscale]
  exact (Nat.le_div_iff_mul_le hden).mp (Nat.log2_self_le hne)

theorem le_of_scaleOf_pos (hden : 0 < den) (h : 0 < scaleOf units den) : 2 ^ 52 * den ≤ units := by
  have hlog : 52 < (units / den).log2 := by unfold scaleOf at h; omega
  have hne : units / den ≠ 0 := by
    intro hzero
    rw [hzero, Nat.log2_zero] at hlog
    omega
  exact (Nat.le_div_iff_mul_le hden).mp ((Nat.le_log2 hne).mp (Nat.le_of_lt hlog))

theorem scaled_pos (hden : 0 < den) (s : Nat) : 0 < den <<< s := by
  rw [Nat.shiftLeft_eq]
  exact Nat.mul_pos hden (Nat.two_pow_pos s)

theorem significandOf_le (units : Nat) {den : Nat} (hden : 0 < den) :
    significandOf units den ≤ 2 ^ 53 := by
  refine roundDiv_le (scaled_pos hden _) ?_
  have hlt := lt_of_scaleOf units hden
  rw [Nat.shiftLeft_eq]
  have hpow : 2 ^ (scaleOf units den + 53) * den = 2 ^ 53 * (den * 2 ^ scaleOf units den) := by
    rw [Nat.pow_add]; ring
  rw [hpow] at hlt
  omega

theorem le_significandOf (hden : 0 < den) (h : 2 ^ 52 * den ≤ units) :
    2 ^ 52 ≤ significandOf units den := by
  refine le_roundDiv (scaled_pos hden _) ?_
  have hle := le_of_scaleOf hden h
  have hpow : 2 ^ (scaleOf units den + 52) * den = 2 ^ 52 * (den * 2 ^ scaleOf units den) := by
    rw [Nat.pow_add]; ring
  rw [Nat.shiftLeft_eq]
  omega

end

/-! ## The nearest double -/

theorem ofRatio?_eq_some_iff {negative : Bool} {num den : Nat} {x : Binary64} :
    ofRatio? negative num den = some x ↔ x.negative = negative ∧
      x.rank = scaleOf (num * unitsPerOne) den * octaveSize +
        significandOf (num * unitsPerOne) den := by
  unfold ofRatio?
  dsimp only
  constructor
  · intro h
    split at h
    next hrank => cases h; exact ⟨rfl, rfl⟩
    next => cases h
  · rintro ⟨hnegative, hrank⟩
    obtain ⟨negative', rank, hlt⟩ := x
    cases hnegative
    cases hrank
    exact dif_pos hlt

theorem units_eq_of_rank {x : Binary64} {s m : Nat} (h : x.rank = s * octaveSize + m)
    (hm : m ≤ 2 ^ 53) (hs : 0 < s → 2 ^ 52 ≤ m) : x.units = m * 2 ^ s := by
  unfold octaveSize at h
  unfold units
  rw [Nat.shiftLeft_eq]
  by_cases hcarry : m = 2 ^ 53
  · -- The significand was rounded up to the next octave.
    have hscale : scale x.rank = s + 1 := by unfold scale octaveSize; omega
    rw [hscale, hcarry, Nat.pow_succ]
    have hrest : x.rank - (s + 1) * octaveSize = 2 ^ 52 := by unfold octaveSize; omega
    rw [hrest]
    ring
  · have hscale : scale x.rank = s := by unfold scale octaveSize; omega
    have hrest : x.rank - s * octaveSize = m := by unfold octaveSize; omega
    rw [hscale, hrest]

theorem units_of_ofRatio? {negative : Bool} {num den : Nat} {x : Binary64} (hden : 0 < den)
    (h : ofRatio? negative num den = some x) :
    x.units = significandOf (num * unitsPerOne) den * 2 ^ scaleOf (num * unitsPerOne) den :=
  units_eq_of_rank (ofRatio?_eq_some_iff.mp h).2 (significandOf_le _ hden) fun hscale =>
    le_significandOf hden (le_of_scaleOf_pos hden hscale)

/-- The nearest double to a quotient of at least `2 ^ k` units has at least as many. -/
theorem le_units_of_ofRatio? {negative : Bool} {num den k : Nat} {x : Binary64} (hden : 0 < den)
    (h : ofRatio? negative num den = some x) (hk : 52 ≤ k)
    (hle : 2 ^ k * den ≤ num * unitsPerOne) : 2 ^ k ≤ x.units := by
  have hnormal : 2 ^ 52 * den ≤ num * unitsPerOne :=
    Nat.le_trans (Nat.mul_le_mul_right den (Nat.pow_le_pow_right (by omega) hk)) hle
  have hscale : k < scaleOf (num * unitsPerOne) den + 53 := by
    have hlt := Nat.lt_of_le_of_lt hle (lt_of_scaleOf _ hden)
    exact (Nat.pow_lt_pow_iff_right (by omega)).mp (Nat.lt_of_mul_lt_mul_right hlt)
  rw [units_of_ofRatio? hden h]
  calc 2 ^ k ≤ 2 ^ (52 + scaleOf (num * unitsPerOne) den) :=
        Nat.pow_le_pow_right (by omega) (by omega)
    _ = 2 ^ 52 * 2 ^ scaleOf (num * unitsPerOne) den := Nat.pow_add ..
    _ ≤ significandOf (num * unitsPerOne) den * 2 ^ scaleOf (num * unitsPerOne) den :=
        Nat.mul_le_mul_right _ (le_significandOf hden hnormal)

/-- From the normal doubles on, the nearest double exceeds a quotient by `2 ^ -53` of it at most. -/
theorem units_le_of_ofRatio? {negative : Bool} {num den : Nat} {x : Binary64} (hden : 0 < den)
    (h : ofRatio? negative num den = some x) (hle : 2 ^ 52 * den ≤ num * unitsPerOne) :
    2 ^ 53 * (x.units * den) ≤ (2 ^ 53 + 1) * (num * unitsPerOne) := by
  have hround := (roundDiv_near (num * unitsPerOne)
    (scaled_pos hden (scaleOf (num * unitsPerOne) den))).1
  have hunit := le_of_scaleOf hden hle
  rw [units_of_ofRatio? hden h]
  unfold significandOf
  generalize num * unitsPerOne = units at *
  generalize scaleOf units den = s at *
  rw [Nat.shiftLeft_eq] at *
  have hproduct : roundDiv units (den * 2 ^ s) * 2 ^ s * den =
      roundDiv units (den * 2 ^ s) * (den * 2 ^ s) := by ring
  have hpow : 2 ^ (s + 52) * den = 2 ^ 52 * (den * 2 ^ s) := by rw [Nat.pow_add]; ring
  rw [hproduct]
  omega

/-! ## The largest doubles -/

-- The two exponents are irreducible, so that no power of two is computed.
@[irreducible] def largestScale : Nat := 2045

/-- The unit in the last place of the largest doubles. -/
def largestUnit : Nat := 2 ^ largestScale

theorem two_pow_add_largestScale (k : Nat) : 2 ^ (k + largestScale) = 2 ^ k * largestUnit :=
  Nat.pow_add ..

theorem shiftLeft_largestScale (den : Nat) : den <<< largestScale = den * largestUnit :=
  Nat.shiftLeft_eq ..

theorem exists_ofRatio? (negative : Bool) {num den : Nat} (hden : 0 < den)
    (h : 2 * (num * unitsPerOne) < (2 ^ 54 - 1) * (den * largestUnit)) :
    ∃ x, ofRatio? negative num den = some x := by
  have hscale : scaleOf (num * unitsPerOne) den < 1 + largestScale := by
    refine scaleOf_lt hden ?_ (by omega)
    rw [Nat.add_right_comm, two_pow_add_largestScale, Nat.mul_assoc, Nat.mul_comm largestUnit den]
    omega
  have hle := significandOf_le (num * unitsPerOne) hden
  -- In the last octave the significand must not be rounded up to the next power of two.
  have htop : scaleOf (num * unitsPerOne) den = largestScale →
      significandOf (num * unitsPerOne) den ≤ 2 ^ 53 - 1 := by
    intro htop
    refine roundDiv_le (scaled_pos hden _) ?_
    rw [htop, shiftLeft_largestScale]
    exact h
  have hrank : scaleOf (num * unitsPerOne) den * octaveSize +
      significandOf (num * unitsPerOne) den < maxRank := by
    unfold largestScale at hscale htop
    unfold maxRank octaveSize
    omega
  exact ⟨⟨negative, _, hrank⟩, ofRatio?_eq_some_iff.mpr ⟨rfl, rfl⟩⟩

theorem units_le_of_rank {negative : Bool} {num den : Nat} {x : Binary64} (hden : 0 < den)
    (h : ofRatio? negative num den = some x) (hrank : x.rank + 4 ≤ maxRank) :
    2 * (num * unitsPerOne) ≤ (2 ^ 54 - 7) * (den * largestUnit) := by
  rw [(ofRatio?_eq_some_iff.mp h).2] at hrank
  unfold maxRank octaveSize at hrank
  have hsignificand : 0 < scaleOf (num * unitsPerOne) den →
      2 ^ 52 ≤ significandOf (num * unitsPerOne) den := fun hpos =>
    le_significandOf hden (le_of_scaleOf_pos hden hpos)
  by_cases htop : scaleOf (num * unitsPerOne) den = largestScale
  · have hround := (roundDiv_near (num * unitsPerOne) (scaled_pos hden largestScale)).2
    have hm : significandOf (num * unitsPerOne) den ≤ 2 ^ 53 - 4 := by
      unfold largestScale at htop
      omega
    unfold significandOf at hm
    rw [htop, shiftLeft_largestScale] at hm
    rw [shiftLeft_largestScale] at hround
    have hmul := Nat.mul_le_mul_right (den * largestUnit) hm
    omega
  · -- Below the last octave even the next power of two is small enough.
    have hexponent : scaleOf (num * unitsPerOne) den + 53 ≤ 52 + largestScale := by
      unfold largestScale at *
      omega
    have hpow : 2 ^ (scaleOf (num * unitsPerOne) den + 53) ≤ 2 ^ (52 + largestScale) :=
      Nat.pow_le_pow_right (by omega) hexponent
    have hlt := Nat.lt_of_lt_of_le (lt_of_scaleOf _ hden) (Nat.mul_le_mul_right den hpow)
    rw [two_pow_add_largestScale, Nat.mul_assoc, Nat.mul_comm largestUnit den] at hlt
    omega

/-- The units of a double with `k` ranks from it to infinity. -/
theorem units_le {x : Binary64} {k : Nat} (hrank : x.rank + k ≤ maxRank) (hk : k ≤ 2 ^ 52) :
    x.units ≤ (2 ^ 53 - k) * largestUnit := by
  have hlt := x.rank_lt
  unfold maxRank octaveSize at hrank hlt
  unfold units
  rw [Nat.shiftLeft_eq]
  by_cases htop : scale x.rank = largestScale
  · rw [htop]
    exact Nat.mul_le_mul_right largestUnit (by unfold largestScale octaveSize; omega)
  · have hscale : scale x.rank + 1 ≤ largestScale := by
      unfold scale largestScale octaveSize at *
      omega
    have hrest : x.rank - scale x.rank * octaveSize ≤ 2 ^ 53 := by
      unfold scale octaveSize
      omega
    have hpow : 2 ^ scale x.rank * 2 ≤ largestUnit := by
      rw [← Nat.pow_succ]
      exact Nat.pow_le_pow_right (by omega) hscale
    have hmul := Nat.mul_le_mul (Nat.le_refl (2 ^ 52)) hpow
    calc (x.rank - scale x.rank * octaveSize) * 2 ^ scale x.rank
        ≤ 2 ^ 53 * 2 ^ scale x.rank := Nat.mul_le_mul_right _ hrest
      _ ≤ 2 ^ 52 * largestUnit := by omega
      _ ≤ (2 ^ 53 - k) * largestUnit := Nat.mul_le_mul_right _ (by omega)

/-! ## Products and quotients -/

@[irreducible] def oneExponent : Nat := 1074

theorem oneExponent_eq : oneExponent = 1074 := by
  unfold oneExponent
  rfl

theorem unitsPerOne_eq : unitsPerOne = 2 ^ oneExponent := by
  rw [unitsPerOne, ← oneExponent_eq]
  exact Nat.one_shiftLeft oneExponent

theorem unitsPerOne_pos : 0 < unitsPerOne := by
  rw [unitsPerOne_eq]
  exact Nat.two_pow_pos oneExponent

theorem largestUnit_pos : 0 < largestUnit := Nat.two_pow_pos largestScale

/-- The number is below the three largest doubles, and by half a unit at least. -/
def InRange (n : Nat) : Prop := 2 * (n * unitsPerOne) ≤ (2 ^ 54 - 7) * largestUnit

theorem InRange.mono {m n : Nat} (h : InRange n) (hmn : m ≤ n) : InRange m :=
  Nat.le_trans (Nat.mul_le_mul_left 2 (Nat.mul_le_mul_right unitsPerOne hmn)) h

theorem inRange_ten_pow {n : Nat} (hn : n ≤ 308) : InRange (10 ^ n) := by
  have hlargest : ∀ k, k = 308 → InRange (10 ^ k) := by
    rintro k rfl
    unfold InRange
    decide +kernel
  obtain ⟨k, hk⟩ : ∃ k, k = 308 := ⟨308, rfl⟩
  exact (hlargest k hk).mono (Nat.pow_le_pow_right (by omega) (hk ▸ hn))

theorem not_inRange_ten_pow {n : Nat} (hn : 308 < n) : ¬ InRange (10 ^ n) := by
  have hsmallest : ∀ k, k = 309 → ¬ InRange (10 ^ k) := by
    rintro k rfl
    unfold InRange
    decide +kernel
  obtain ⟨k, hk⟩ : ∃ k, k = 309 := ⟨309, rfl⟩
  exact fun h => hsmallest k hk (h.mono (Nat.pow_le_pow_right (by omega) (by omega)))

theorem InRange.exists_ofNat? {n : Nat} (h : InRange n) (negative : Bool) :
    ∃ x, ofNat? negative n = some x := by
  refine exists_ofRatio? negative Nat.one_pos ?_
  have hpos := largestUnit_pos
  unfold InRange at h
  omega

theorem two_pow_mul_le_unitsPerOne {k n : Nat} (hk : k ≤ oneExponent) (hn : 0 < n) :
    2 ^ k * 1 ≤ n * unitsPerOne := by
  rw [unitsPerOne_eq, Nat.mul_comm]
  exact Nat.mul_le_mul hn (Nat.pow_le_pow_right (by omega) hk)

theorem units_le_of_ofNat? {negative : Bool} {n : Nat} {x : Binary64}
    (h : ofNat? negative n = some x) :
    2 ^ 53 * x.units ≤ (2 ^ 53 + 1) * (n * unitsPerOne) := by
  rcases Nat.eq_zero_or_pos n with rfl | hn
  · have hzero : significandOf (0 * unitsPerOne) 1 ≤ 0 :=
      roundDiv_le (scaled_pos Nat.one_pos _) (by
        have := scaled_pos Nat.one_pos (scaleOf (0 * unitsPerOne) 1)
        omega)
    rw [units_of_ofRatio? Nat.one_pos h, Nat.le_zero.mp hzero]
    omega
  · have hle := units_le_of_ofRatio? Nat.one_pos h
      (two_pow_mul_le_unitsPerOne (by unfold oneExponent; omega) hn)
    omega

theorem le_units_of_ofNat? {negative : Bool} {n : Nat} {x : Binary64}
    (h : ofNat? negative n = some x) (hn : 0 < n) : unitsPerOne ≤ x.units := by
  rw [unitsPerOne_eq]
  exact le_units_of_ofRatio? Nat.one_pos h (by unfold oneExponent; omega)
    (two_pow_mul_le_unitsPerOne (Nat.le_refl oneExponent) hn)

-- Each factor may be too large by `2 ^ -53` of it; the gap left by the three largest doubles is wider.
theorem exists_mul? {x y : Binary64} {m n : Nat}
    (hx : 2 ^ 53 * x.units ≤ (2 ^ 53 + 1) * (m * unitsPerOne))
    (hy : 2 ^ 53 * y.units ≤ (2 ^ 53 + 1) * (n * unitsPerOne)) (h : InRange (m * n)) :
    ∃ z, x.mul? y = some z := by
  refine exists_ofRatio? _ (Nat.mul_pos unitsPerOne_pos unitsPerOne_pos) ?_
  have hone := unitsPerOne_pos
  have hlargest := largestUnit_pos
  unfold InRange at h
  generalize unitsPerOne = one at *
  generalize largestUnit = largest at *
  have hproduct := Nat.mul_le_mul hx hy
  refine Nat.lt_of_mul_lt_mul_left (a := 2 ^ 106) ?_
  calc 2 ^ 106 * (2 * (x.units * y.units * one))
      = 2 * one * (2 ^ 53 * x.units * (2 ^ 53 * y.units)) := by ring
    _ ≤ 2 * one * ((2 ^ 53 + 1) * (m * one) * ((2 ^ 53 + 1) * (n * one))) :=
        Nat.mul_le_mul_left _ hproduct
    _ = (2 ^ 53 + 1) ^ 2 * (one * one) * (2 * (m * n * one)) := by ring
    _ ≤ (2 ^ 53 + 1) ^ 2 * (one * one) * ((2 ^ 54 - 7) * largest) := Nat.mul_le_mul_left _ h
    _ = (2 ^ 53 + 1) ^ 2 * (2 ^ 54 - 7) * (one * one * largest) := by ring
    _ < 2 ^ 106 * (2 ^ 54 - 1) * (one * one * largest) :=
        Nat.mul_lt_mul_of_pos_right (by decide) (Nat.mul_pos (Nat.mul_pos hone hone) hlargest)
    _ = 2 ^ 106 * ((2 ^ 54 - 1) * (one * one * largest)) := Nat.mul_assoc ..

theorem exists_div? (x : Binary64) {y : Binary64} (hy : unitsPerOne ≤ y.units) :
    ∃ z, x.div? y = some z := by
  refine exists_ofRatio? _ (Nat.lt_of_lt_of_le unitsPerOne_pos hy) ?_
  have hx := units_le (x := x) (k := 1) x.rank_lt (by omega)
  calc 2 * (x.units * unitsPerOne)
      ≤ 2 * ((2 ^ 53 - 1) * largestUnit * y.units) :=
        Nat.mul_le_mul_left 2 (Nat.mul_le_mul hx hy)
    _ = (2 ^ 54 - 2) * (y.units * largestUnit) := by ring
    _ < (2 ^ 54 - 1) * (y.units * largestUnit) := by
        have := Nat.mul_pos (Nat.lt_of_lt_of_le unitsPerOne_pos hy) largestUnit_pos
        omega

end TableQuery.Binary64

import Mathlib.Tactic.GCongr
import TableQuery.Json.Literal
import TableQuery.Proofs.Json.Number
import TableQuery.Proofs.Number.Decimal

/-!
# Literals are read

The text of a literal is read as its parts. A literal with a point or an exponent has a value unless
the number it stands for comes near the largest doubles; how many roundings the value takes does not
matter for that.
-/

namespace TableQuery

/-! ## Digits -/

namespace Text

theorem foldl_digits (read : Nat) (cs : List Char) :
    cs.foldl (fun n c => 10 * n + digitValue c) read = read * 10 ^ cs.length + digitsValue cs := by
  induction cs generalizing read with
  | nil => simp [digitsValue]
  | cons c cs ih =>
    rw [digitsValue, List.foldl_cons, List.foldl_cons, ih, ih (10 * 0 + digitValue c),
      List.length_cons, Nat.pow_succ]
    ring

theorem digitsValue_cons (read : Nat) (c : Char) (cs : List Char) :
    read * 10 ^ (c :: cs).length + digitsValue (c :: cs) =
      (10 * read + digitValue c) * 10 ^ cs.length + digitsValue cs := by
  rw [← foldl_digits, ← foldl_digits]
  rfl

theorem digitsValue_append (as bs : List Char) :
    digitsValue (as ++ bs) = digitsValue as * 10 ^ bs.length + digitsValue bs := by
  rw [← foldl_digits, digitsValue, List.foldl_append]
  rfl

theorem digitsValue_replicate_zero (n : Nat) : digitsValue (List.replicate n '0') = 0 := by
  induction n with
  | zero => rfl
  | succ n ih =>
    have hzero : digitsValue ['0'] = 0 := rfl
    rw [List.replicate_succ, ← List.singleton_append, digitsValue_append, ih, hzero, Nat.zero_mul]

theorem digitValue_lt {c : Char} (h : c.isDigit = true) : digitValue c < 10 := by
  have hnine : c.toNat ≤ '9'.toNat := by
    simp only [Char.isDigit, Bool.and_eq_true, decide_eq_true_eq] at h
    exact UInt32.le_iff_toNat_le.mp h.2
  have hvalues : '9'.toNat = 57 ∧ '0'.toNat = 48 := by decide
  unfold digitValue
  omega

theorem digitsValue_lt {cs : List Char} (h : ∀ c ∈ cs, c.isDigit = true) :
    digitsValue cs < 10 ^ cs.length := by
  induction cs with
  | nil => decide
  | cons c cs ih =>
    obtain ⟨hc, hcs⟩ := List.forall_mem_cons.mp h
    have hfirst := digitsValue_cons 0 c cs
    rw [Nat.zero_mul, Nat.zero_add, Nat.mul_zero, Nat.zero_add] at hfirst
    have hdigit := Nat.mul_le_mul_right (10 ^ cs.length) (Nat.le_of_lt_succ (digitValue_lt hc))
    have hrest := ih hcs
    rw [List.length_cons, Nat.pow_succ]
    omega

end Text

namespace Json.Literal

open Text

/-- The digits that are kept, with a zero for every other digit, are no more than all digits. -/
theorem significand_spec (cs : List Char) {read : Nat} (hread : read < 2 ^ 64) :
    (significand read cs).1 < 2 ^ 64 ∧ (significand read cs).2 ≤ cs.length ∧
      (significand read cs).1 * 10 ^ (significand read cs).2 ≤
        read * 10 ^ cs.length + digitsValue cs := by
  induction cs generalizing read with
  | nil => exact ⟨hread, Nat.le_refl _, by simp [significand]⟩
  | cons c cs ih =>
    rw [digitsValue_cons]
    unfold significand
    dsimp only
    split
    next hfits =>
      obtain ⟨hkept, hleft, hle⟩ := ih hfits
      exact ⟨hkept, Nat.le_succ_of_le hleft, hle⟩
    next =>
      refine ⟨hread, Nat.le_refl _, ?_⟩
      calc read * 10 ^ (cs.length + 1) = 10 * read * 10 ^ cs.length := by rw [Nat.pow_succ]; ring
        _ ≤ (10 * read + digitValue c) * 10 ^ cs.length :=
          Nat.mul_le_mul_right _ (Nat.le_add_right ..)
        _ ≤ _ := Nat.le_add_right ..

theorem significand_of_lt (cs : List Char) {read : Nat}
    (h : read * 10 ^ cs.length + digitsValue cs < 2 ^ 64) :
    significand read cs = (read * 10 ^ cs.length + digitsValue cs, 0) := by
  induction cs generalizing read with
  | nil => simp [significand, digitsValue]
  | cons c cs ih =>
    rw [digitsValue_cons] at h ⊢
    have hfits : 10 * read + digitValue c < 2 ^ 64 := by
      have hone : 1 ≤ 10 ^ cs.length := Nat.pow_pos (by omega)
      have hmul := Nat.mul_le_mul_left (10 * read + digitValue c) hone
      omega
    rw [← ih h, significand]
    exact if_pos hfits

/-! ## Scaling -/

theorem exists_tenTo {n : Nat} (hn : n ≤ largestPower) :
    Binary64.ofNat? false (10 ^ n) = some (tenTo n) := by
  obtain ⟨t, ht⟩ := (Binary64.inRange_ten_pow hn).exists_ofNat? false
  unfold tenTo
  rw [Nat.pow_eq, ht]
  rfl

theorem exists_scaled_of_neg (x : Binary64) (exponent : Int) (h : exponent < 0) (fuel : Nat) :
    ∃ y, scaled x exponent fuel = some y := by
  have hdiv : ∀ (x : Binary64) (n : Nat), n ≤ largestPower → ∃ y, x.div? (tenTo n) = some y :=
    fun x n hn => Binary64.exists_div? x
      (Binary64.le_units_of_ofNat? (exists_tenTo hn) (Nat.pow_pos (by omega)))
  -- After a division by the largest power the exponent is still negative.
  induction fuel generalizing x exponent with
  | zero => exact ⟨x, rfl⟩
  | succ fuel ih =>
    unfold scaled
    rw [if_neg (by omega)]
    split
    next hlarge => exact hdiv x _ (by omega)
    next hsmall =>
      split
      next => exact ⟨x, rfl⟩
      next =>
        obtain ⟨y, hy⟩ := hdiv x largestPower (Nat.le_refl _)
        obtain ⟨z, hz⟩ := ih y (exponent + largestPower) (by omega)
        exact ⟨z, by rw [hy]; exact hz⟩

theorem exists_scaled {x : Binary64} {n : Nat}
    (hx : 2 ^ 53 * x.units ≤ (2 ^ 53 + 1) * (n * Binary64.unitsPerOne)) (exponent : Int)
    (h : 0 ≤ exponent → Binary64.InRange (n * 10 ^ exponent.toNat)) (fuel : Nat) :
    ∃ y, scaled x exponent fuel = some y := by
  rcases Int.lt_or_le exponent 0 with hneg | hnonneg
  · exact exists_scaled_of_neg x exponent hneg fuel
  cases fuel with
  | zero => exact ⟨x, rfl⟩
  | succ fuel =>
    unfold scaled
    rw [if_pos hnonneg]
    split
    next hsmall =>
      have hten := exists_tenTo (n := exponent.toNat) (by omega)
      exact Binary64.exists_mul? hx (Binary64.units_le_of_ofNat? hten) (h hnonneg)
    next hlarge =>
      -- Only zero can be multiplied by such a power of ten.
      have hn : n = 0 := by
        by_contra hn
        have hpower : 308 < exponent.toNat := by unfold largestPower at hlarge; omega
        exact Binary64.not_inRange_ten_pow hpower
          ((h hnonneg).mono (Nat.le_mul_of_pos_left _ (Nat.pos_of_ne_zero hn)))
      have hzero : x.isZero = true := by
        by_contra hne
        have hunits := Binary64.units_ne_zero (Bool.eq_false_iff.mpr hne)
        rw [hn, Nat.zero_mul] at hx
        omega
      exact ⟨x, if_pos hzero⟩

/-! ## Values -/

/-- The number that a literal stands for, before any rounding. -/
def decimal (l : Literal) : Decimal :=
  ⟨digitsValue (l.whole ++ l.fraction.getD []),
    (l.exponent.map exponentValue).getD 0 - (l.fraction.getD []).length⟩

theorem inRange_of_mul_le {d : Decimal} (h : d.InRange) {n k : Nat}
    (hle : n * 10 ^ k ≤ d.digits) (hexponent : 0 ≤ d.exponent + k) :
    Binary64.InRange (n * 10 ^ (d.exponent + k).toNat) := by
  unfold Decimal.InRange at h
  unfold Binary64.InRange
  rcases Int.lt_or_le d.exponent 0 with hneg | hnonneg
  · have hk : k = (d.exponent + k).toNat + (-d.exponent).toNat := by omega
    have hzero : d.exponent.toNat = 0 := by omega
    rw [hzero] at h
    rw [hk, Nat.pow_add] at hle
    generalize (d.exponent + k).toNat = e at *
    generalize (-d.exponent).toNat = j at *
    refine Nat.le_of_mul_le_mul_left (c := 10 ^ j) ?_ (Nat.pow_pos (by omega))
    calc 10 ^ j * (2 * (n * 10 ^ e * Binary64.unitsPerOne))
        = 2 * (n * (10 ^ e * 10 ^ j) * 10 ^ 0 * Binary64.unitsPerOne) := by ring
      _ ≤ 2 * (d.digits * 10 ^ 0 * Binary64.unitsPerOne) := by
          gcongr
      _ ≤ (2 ^ 54 - 7) * (10 ^ j * Binary64.largestUnit) := h
      _ = 10 ^ j * ((2 ^ 54 - 7) * Binary64.largestUnit) := by ring
  · have hsum : (d.exponent + k).toNat = k + d.exponent.toNat := by omega
    have hzero : (-d.exponent).toNat = 0 := by omega
    rw [hzero, Nat.pow_zero, Nat.one_mul] at h
    rw [hsum, Nat.pow_add]
    calc 2 * (n * (10 ^ k * 10 ^ d.exponent.toNat) * Binary64.unitsPerOne)
        = 2 * (n * 10 ^ k * 10 ^ d.exponent.toNat * Binary64.unitsPerOne) := by ring
      _ ≤ 2 * (d.digits * 10 ^ d.exponent.toNat * Binary64.unitsPerOne) := by gcongr
      _ ≤ (2 ^ 54 - 7) * Binary64.largestUnit := h

theorem toDouble?_eq {l : Literal} (hwhole : digitsValue l.whole < 2 ^ 64) :
    let kept := significand (digitsValue l.whole) (l.fraction.getD [])
    l.toDouble? = (Binary64.ofNat? false kept.1).bind fun x =>
      (scaled x (l.decimal.exponent + kept.2) 4).map ({ · with negative := l.negative }) := by
  intro kept
  have hall : significand 0 l.whole = (digitsValue l.whole, 0) := by
    rw [significand_of_lt l.whole (by omega), Nat.zero_mul, Nat.zero_add]
  have hignored : kept.2 ≤ (l.fraction.getD []).length := (significand_spec _ hwhole).2.1
  have hexponent : l.decimal.exponent + kept.2 = (l.exponent.map exponentValue).getD 0 +
      (0 : Nat) - ((l.fraction.getD []).length - kept.2 : Nat) := by
    unfold decimal
    dsimp only
    omega
  unfold toDouble?
  rw [hall, hexponent]
  change ((Binary64.ofNat? false kept.1).bind fun x => (scaled x _ 4).bind fun y => some _) = _
  cases Binary64.ofNat? false kept.1 with
  | none => rfl
  | some x => exact Option.map_eq_bind.symm

theorem exists_toDouble? {l : Literal} (hwhole : digitsValue l.whole < 2 ^ 64)
    (h : l.decimal.InRange) : ∃ x, l.toDouble? = some x := by
  obtain ⟨hfits, -, hle⟩ := significand_spec (l.fraction.getD []) hwhole
  rw [← digitsValue_append] at hle
  rw [toDouble?_eq hwhole]
  generalize significand (digitsValue l.whole) (l.fraction.getD []) = kept at *
  have hsmall : Binary64.InRange kept.1 :=
    (Binary64.inRange_ten_pow (n := 20) (by omega)).mono (by omega)
  obtain ⟨x, hx⟩ := hsmall.exists_ofNat? false
  obtain ⟨y, hy⟩ := exists_scaled (Binary64.units_le_of_ofNat? hx) (l.decimal.exponent + kept.2)
    (inRange_of_mul_le h hle) 4
  rw [hx]
  exact ⟨_, congrArg (Option.map _) hy⟩

/-! ## Text -/

/-- At least one digit, and nothing else. -/
def IsDigits (cs : List Char) : Prop := cs ≠ [] ∧ ∀ c ∈ cs, c.isDigit = true

def fractionChars : Option (List Char) → List Char
  | none => []
  | some digits => '.' :: digits

def exponentChars : Option (Bool × List Char) → List Char
  | none => []
  | some (negative, digits) => 'e' :: (if negative then '-' else '+') :: digits

def magnitudeChars (l : Literal) : List Char :=
  l.whole ++ fractionChars l.fraction ++ exponentChars l.exponent

structure WellFormed (l : Literal) : Prop where
  whole : IsDigits l.whole
  zero : l.whole.head? = some '0' → l.whole.length = 1
  fraction : ∀ digits ∈ l.fraction, IsDigits digits
  exponent : ∀ e ∈ l.exponent, IsDigits e.2

theorem readDigits_of_isDigits {cs rest : List Char} (h : IsDigits cs)
    (hrest : ∀ c ∈ rest.head?, c.isDigit = false) : readDigits (cs ++ rest) = .ok (cs, rest) := by
  obtain ⟨hne, hall⟩ := h
  have htake := Text.takeWhile_span hall hrest
  have hdrop := Text.dropWhile_span hall hrest
  cases cs with
  | nil => exact absurd rfl hne
  | cons c cs =>
    rw [readDigits.eq_def, htake, hdrop]
    exact if_pos (hall c List.mem_cons_self)

theorem readExponent_exponentChars {exponent : Option (Bool × List Char)}
    (h : ∀ e ∈ exponent, IsDigits e.2) :
    readExponent (exponentChars exponent) = .ok (exponent, []) := by
  cases exponent with
  | none => rfl
  | some e =>
    obtain ⟨negative, digits⟩ := e
    have hdigits : readDigits (digits ++ []) = .ok (digits, []) :=
      readDigits_of_isDigits (h _ rfl) nofun
    rw [List.append_nil] at hdigits
    cases negative <;> simp [exponentChars, readExponent_cons, Text.takeSign, hdigits, Except.map]

theorem not_isDigit_exponentChars (exponent : Option (Bool × List Char)) :
    ∀ c ∈ (exponentChars exponent).head?, c.isDigit = false ∧ c ≠ '.' := by
  cases exponent with
  | none => nofun
  | some e => rintro c hc; cases hc; decide

theorem readFraction_fractionChars {fraction : Option (List Char)}
    (h : ∀ digits ∈ fraction, IsDigits digits) (exponent : Option (Bool × List Char)) :
    readFraction (fractionChars fraction ++ exponentChars exponent) =
      .ok (fraction, exponentChars exponent) := by
  have hend := not_isDigit_exponentChars exponent
  cases fraction with
  | none =>
    unfold readFraction fractionChars
    rw [List.nil_append]
    split
    next more heq => exact absurd rfl (hend '.' (by rw [heq]; rfl)).2
    next => rfl
  | some digits =>
    have hdigits := readDigits_of_isDigits (h digits rfl) fun c hc => (hend c hc).1
    change (readDigits (digits ++ exponentChars exponent)).map _ = _
    rw [hdigits]
    rfl

theorem WellFormed.readWhole {l : Literal} (h : l.WellFormed) :
    readWhole l.magnitudeChars =
      .ok (l.whole, fractionChars l.fraction ++ exponentChars l.exponent) := by
  have hend : ∀ c ∈ (fractionChars l.fraction ++ exponentChars l.exponent).head?,
      c.isDigit = false := by
    cases hfraction : l.fraction with
    | none => exact fun c hc => (not_isDigit_exponentChars l.exponent c hc).1
    | some digits => rintro c hc; cases hc; rfl
  have hdigits := readDigits_of_isDigits h.whole hend
  have hzero : ¬ (l.whole.head? = some '0' && l.whole.length ≠ 1) = true := by
    simpa using h.zero
  unfold magnitudeChars Json.readWhole
  rw [List.append_assoc, hdigits]
  exact if_neg hzero

theorem WellFormed.readMagnitude {l : Literal} (h : l.WellFormed) :
    readMagnitude l.negative l.magnitudeChars =
      l.toNumber?.elim (.error .malformed) fun n => .ok (n, []) := by
  unfold Json.readMagnitude
  cases hn : l.toNumber? with
  | some n =>
    refine bind_eq_ok_iff.mpr ⟨_, h.readWhole, ?_⟩
    refine bind_eq_ok_iff.mpr ⟨_, readFraction_fractionChars h.fraction l.exponent, ?_⟩
    refine bind_eq_ok_iff.mpr ⟨_, readExponent_exponentChars h.exponent, ?_⟩
    dsimp only
    rw [hn]
  | none =>
    refine bind_eq_error_iff.mpr (.inr ⟨_, h.readWhole, ?_⟩)
    refine bind_eq_error_iff.mpr (.inr ⟨_, readFraction_fractionChars h.fraction l.exponent, ?_⟩)
    refine bind_eq_error_iff.mpr (.inr ⟨_, readExponent_exponentChars h.exponent, ?_⟩)
    dsimp only
    rw [hn]

def chars (l : Literal) : List Char :=
  if l.negative then '-' :: l.magnitudeChars else l.magnitudeChars

/-- A well-formed literal is read as its value, and one without a value is not read. -/
theorem WellFormed.readNumber_eq {l : Literal} (h : l.WellFormed) : Json.readNumber l.chars =
    l.toNumber?.elim (.error .malformed) fun n => .ok (n, []) := by
  have hread := h.readMagnitude
  unfold chars
  cases hnegative : l.negative with
  | true =>
    rw [hnegative] at hread
    exact hread
  | false =>
    rw [hnegative] at hread
    obtain ⟨hne, hall⟩ := h.whole
    cases hwhole : l.whole with
    | nil => exact absurd hwhole hne
    | cons c cs =>
      have hc : c ≠ '-' := by
        rintro rfl
        have hdigit := hall '-' (hwhole ▸ List.mem_cons_self)
        revert hdigit
        decide
      have hchars : l.magnitudeChars =
          c :: (cs ++ fractionChars l.fraction ++ exponentChars l.exponent) := by
        rw [magnitudeChars, hwhole]
        rfl
      rw [hchars] at hread ⊢
      exact (readNumber_cons hc _).trans hread

theorem WellFormed.readNumber {l : Literal} (h : l.WellFormed) {n : Number}
    (hn : l.toNumber? = some n) : readNumber l.chars = .ok (n, []) := by
  rw [h.readNumber_eq, hn]
  rfl

end Json.Literal

end TableQuery

import Mathlib.Data.List.Induction
import TableQuery.Json.Reader
import TableQuery.Proofs.Json.Double
import TableQuery.Proofs.Json.Lexeme

/-!
# Integers as they are written

The text of an integer is the one way to write its value, so an integer that is read as an integer is
written again as it was. One beyond the range is read as a double, or not at all, and no double has
the text of an integer.
-/

namespace TableQuery

open Json.Literal (IsDigits)

namespace Text

theorem digitChar_digitValue {c : Char} (h : c.isDigit = true) : (digitValue c).digitChar = c := by
  have hten : ∀ d < 10, d.digitChar = Char.ofNat ('0'.toNat + d) := by decide
  have hzero : '0'.toNat ≤ c.toNat := by
    simp only [Char.isDigit, Bool.and_eq_true, decide_eq_true_eq] at h
    exact UInt32.le_iff_toNat_le.mp h.1
  rw [hten _ (digitValue_lt h), digitValue, Nat.add_sub_cancel' hzero, Char.ofNat_toNat]

/-- Digits without a superfluous zero in front are the digits of their value. -/
theorem toDigits_digitsValue {cs : List Char} (h : IsDigits cs)
    (hzero : cs.head? = some '0' → cs.length = 1) : Nat.toDigits 10 (digitsValue cs) = cs := by
  induction cs using List.reverseRecOn with
  | nil => exact absurd rfl h.1
  | append_singleton cs c ih =>
    obtain ⟨-, hall⟩ := h
    have hc : c.isDigit = true := hall c (by simp)
    have hlast : digitsValue (cs ++ [c]) = digitsValue cs * 10 + digitValue c := by
      rw [digitsValue_append]
      simp [digitsValue]
    have hlt := digitValue_lt hc
    by_cases hnil : cs = []
    · subst hnil
      rw [hlast, Nat.toDigits_of_lt_base (by simpa [digitsValue] using hlt)]
      simp [digitsValue, digitChar_digitValue hc]
    · -- The digits in front have no zero at their start, so there is something to carry.
      have hhead : cs.head? ≠ some '0' := by
        intro hhead
        have hone := hzero (by rw [List.head?_append, hhead]; rfl)
        simp [hnil] at hone
      have hfront := ih ⟨hnil, fun d hd => hall d (by simp [hd])⟩ (absurd · hhead)
      have hpos : digitsValue cs ≠ 0 := by
        intro hnone
        rw [hnone] at hfront
        exact hhead (hfront ▸ rfl)
      have hdiv : (digitsValue cs * 10 + digitValue c) / 10 = digitsValue cs := by omega
      have hmod : (digitsValue cs * 10 + digitValue c) % 10 = digitValue c := by omega
      rw [hlast, Nat.toDigits_of_base_le (by omega) (by omega), hdiv, hmod, hfront,
        digitChar_digitValue hc]

end Text

namespace Json

namespace Literal

/-- Digits with or without a minus, without a superfluous zero in front. -/
structure IsInteger (l : Literal) : Prop extends l.WellFormed where
  noFraction : l.fraction = none
  noExponent : l.exponent = none

def intValue (l : Literal) : Int :=
  if l.negative then -Text.digitsValue l.whole else Text.digitsValue l.whole

/-- The value is in range, and it is no zero with a minus. -/
def IsExact (l : Literal) : Prop :=
  (-0x8000000000000000 ≤ l.intValue ∧ l.intValue < 0x10000000000000000) ∧
    (l.negative = true → Text.digitsValue l.whole ≠ 0)

variable {l : Literal}

theorem IsInteger.chars_eq (h : l.IsInteger) :
    l.chars = if l.negative then '-' :: l.whole else l.whole := by
  rw [chars, magnitudeChars, h.noFraction, h.noExponent]
  simp [fractionChars, exponentChars]

theorem IsInteger.isExact_iff (h : l.IsInteger) : l.IsExact ↔
    (l.fraction.isNone && l.exponent.isNone &&
      !(l.negative && Text.digitsValue l.whole == 0)) = true ∧
    -0x8000000000000000 ≤ l.intValue ∧ l.intValue < 0x10000000000000000 := by
  rw [IsExact, and_comm, h.noFraction, h.noExponent]
  cases l.negative <;> simp

theorem IsInteger.toNumber?_of_exact (h : l.IsInteger) (hexact : l.IsExact) :
    l.toNumber? = some (.integer l.intValue hexact.1.1 hexact.1.2) := by
  unfold toNumber?
  exact dif_pos (h.isExact_iff.mp hexact)

theorem IsInteger.toNumber?_of_not_exact (h : l.IsInteger) (hexact : ¬ l.IsExact) :
    l.toNumber? = l.toDouble?.map .double := by
  unfold toNumber?
  exact dif_neg (mt h.isExact_iff.mpr hexact)

/-! ## Writing -/

theorem IsInteger.numberChars_of_exact (h : l.IsInteger) (hexact : l.IsExact) :
    numberChars (.integer l.intValue hexact.1.1 hexact.1.2) = l.chars := by
  have hdigits := Text.toDigits_digitsValue h.whole h.zero
  -- The number carries bounds of its value, so the value is a variable until it is known.
  suffices hall : ∀ value lower upper, value = l.intValue →
      numberChars (.integer value lower upper) = l.chars from hall _ _ _ rfl
  intro value lower upper hvalue
  rw [intValue] at hvalue
  rw [h.chars_eq]
  cases hnegative : l.negative with
  | false =>
    rw [hnegative] at hvalue
    subst hvalue
    exact (numberChars_ofNat _ lower upper).trans hdigits
  | true =>
    obtain ⟨n, hn⟩ := Nat.exists_eq_succ_of_ne_zero (hexact.2 hnegative)
    rw [hn] at hdigits
    rw [hnegative, hn] at hvalue
    subst hvalue
    exact (numberChars_negSucc n lower upper).trans (congrArg ('-' :: ·) hdigits)

theorem IsInteger.not_mem_chars (h : l.IsInteger) {c : Char} (hminus : c ≠ '-')
    (hdigit : c.isDigit = false) : c ∉ l.chars := by
  have hwhole : c ∉ l.whole := by
    intro hc
    rw [h.whole.2 c hc] at hdigit
    cases hdigit
  rw [h.chars_eq]
  split
  · exact List.not_mem_cons_of_ne_of_not_mem hminus hwhole
  · exact hwhole

theorem mem_chars_of_notInteger (h : l.fraction.isSome = true ∨ l.exponent.isSome = true) :
    '.' ∈ l.chars ∨ 'e' ∈ l.chars := by
  have hmagnitude : ∀ c ∈ l.magnitudeChars, c ∈ l.chars := by
    intro c hc
    unfold chars
    split
    · exact List.mem_cons_of_mem _ hc
    · exact hc
  rcases h with hfraction | hexponent
  · obtain ⟨digits, hdigits⟩ := Option.isSome_iff_exists.mp hfraction
    refine .inl (hmagnitude '.' ?_)
    simp [magnitudeChars, hdigits, fractionChars]
  · obtain ⟨⟨negative, digits⟩, he⟩ := Option.isSome_iff_exists.mp hexponent
    refine .inr (hmagnitude 'e' ?_)
    simp [magnitudeChars, he, exponentChars]

theorem IsInteger.numberChars_double_ne (h : l.IsInteger) (x : Binary64) :
    numberChars (.double x) ≠ l.chars := by
  intro heq
  rw [numberChars_double] at heq
  have hseen := mem_chars_of_notInteger (notInteger_literalOf x.negative (x.shortest .even))
  rw [heq] at hseen
  rcases hseen with hpoint | hexponent
  · exact h.not_mem_chars (by decide) (by decide) hpoint
  · exact h.not_mem_chars (by decide) (by decide) hexponent

/-! ## Reading -/

theorem WellFormed.exists_cons (h : l.WellFormed) :
    ∃ c cs, l.chars = c :: cs ∧ (c = '-' ∨ c.isDigit = true) := by
  obtain ⟨hne, hall⟩ := h.whole
  obtain ⟨c, cs, hwhole⟩ := List.exists_cons_of_ne_nil hne
  unfold chars
  split
  · exact ⟨'-', _, rfl, .inl rfl⟩
  · exact ⟨c, cs ++ fractionChars l.fraction ++ exponentChars l.exponent,
      by rw [magnitudeChars, hwhole]; rfl, .inr (hall c (hwhole ▸ List.mem_cons_self))⟩

theorem WellFormed.tokenize (h : l.WellFormed) : tokenize l.chars =
    [l.toNumber?.elim (.broken false .malformed) Token.number] := by
  obtain ⟨c, cs, hchars, hc⟩ := h.exists_cons
  obtain ⟨hspace, htoken⟩ := readToken_of_number hc cs
  rw [← hchars, h.readNumber_eq] at htoken
  rw [Json.tokenize, hchars, List.length_cons, tokenizeWith, if_neg (by simp [hspace]), htoken]
  have hend : ∀ fuel, tokenizeWith fuel [] = [] := fun fuel => by cases fuel <;> rfl
  cases l.toNumber? with
  | none => simp [tokenOf, hend]
  | some n => simp [tokenOf, hend]

theorem WellFormed.parse (h : l.WellFormed) : Json.parse (String.ofList l.chars) =
    l.toNumber?.elim (.error .malformed) fun n => .ok (.number n) := by
  rw [Json.parse, String.toList_ofList, h.tokenize]
  cases l.toNumber? <;> rfl

end Literal

end Json

end TableQuery

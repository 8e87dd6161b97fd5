import Mathlib.Data.List.TakeWhile
import TableQuery.Json.Printer
import TableQuery.Json.Token
import TableQuery.Proofs.Result
import TableQuery.Proofs.Text.Span

/-!
# Numbers are read back from their text

An integer is read back from its digits. Whether a double is depends on the double: a long literal
is rounded more than once when it is read. What follows a number does not matter, as long as it
cannot go on as a number.
-/

namespace TableQuery

/-- The text of the double is read as the same double. -/
def Binary64.ReadsBack (x : Binary64) : Prop :=
  Json.readNumber (Json.numberChars (.double x)) = .ok (.double x, [])

theorem Binary64.readsBack_zero (negative : Bool) : (zero negative).ReadsBack := by
  have hread : (Json.readNumber (Json.numberChars (.double (zero negative)))).toOption =
      some (.double (zero negative), []) := by
    cases negative <;> decide +kernel
  unfold ReadsBack
  cases hresult : Json.readNumber (Json.numberChars (.double (zero negative))) with
  | error e => rw [hresult] at hread; cases hread
  | ok r => rw [hresult] at hread; cases hread; rfl

namespace Json

/-! ## The parts of a number -/

theorem readExponent_cons (c : Char) (cs : List Char) :
    readExponent (c :: cs) =
      if c = 'e' || c = 'E' then
        (readDigits (Text.takeSign cs).2).map fun d => (some ((Text.takeSign cs).1, d.1), d.2)
      else .ok (none, c :: cs) := by
  unfold readExponent Text.takeSign
  cases cs with
  | nil => rfl
  | cons d cs =>
    by_cases hminus : d = '-'
    · subst hminus; rfl
    · by_cases hplus : d = '+'
      · subst hplus; rfl
      · simp [hminus, hplus]

theorem takeSign_append {cs : List Char} (h : cs ≠ []) (rest : List Char) :
    Text.takeSign (cs ++ rest) = ((Text.takeSign cs).1, (Text.takeSign cs).2 ++ rest) := by
  cases cs with
  | nil => exact absurd rfl h
  | cons c cs => unfold Text.takeSign; split <;> simp_all

def readMagnitude (negative : Bool) (cs : List Char) : Except Failure (Number × List Char) :=
  readWhole cs >>= fun whole =>
  readFraction whole.2 >>= fun fraction =>
  readExponent fraction.2 >>= fun exponent =>
  match (Literal.mk negative whole.1 fraction.1 exponent.1).toNumber? with
  | some n => .ok (n, exponent.2)
  | none => .error .malformed

theorem readNumber_minus (cs : List Char) : readNumber ('-' :: cs) = readMagnitude true cs := rfl

theorem readNumber_cons {c : Char} (hc : c ≠ '-') (cs : List Char) :
    readNumber (c :: cs) = readMagnitude false (c :: cs) := by
  unfold readNumber
  split
  next negative rest hsign =>
    obtain ⟨rfl, rfl⟩ : false = negative ∧ c :: cs = rest := by simpa [hc] using hsign
    rfl

/-! ## A number and what follows it -/

/-- A number in front of `rest` ends there. -/
def EndsNumber (rest : List Char) : Prop :=
  ∀ c ∈ rest.head?, c.isDigit = false ∧ c ≠ '.' ∧ c ≠ 'e' ∧ c ≠ 'E'

section

variable {rest : List Char} (hrest : EndsNumber rest)
include hrest

theorem readDigits_append {cs digits left : List Char} (h : readDigits cs = .ok (digits, left)) :
    readDigits (cs ++ rest) = .ok (digits, left ++ rest) := by
  have hhead : ∀ c ∈ rest.head?, c.isDigit = false := fun c hc => (hrest c hc).1
  cases cs with
  | nil => cases h
  | cons c cs =>
    simp only [readDigits] at h
    split at h
    next hc =>
      cases h
      simp only [readDigits, List.cons_append, if_pos hc]
      rw [← List.cons_append, Text.takeWhile_append_of_head hhead,
        Text.dropWhile_append_of_head hhead]
    next => cases h

theorem readWhole_append {cs digits left : List Char} (h : readWhole cs = .ok (digits, left)) :
    readWhole (cs ++ rest) = .ok (digits, left ++ rest) := by
  unfold readWhole at h ⊢
  obtain ⟨⟨ds, l⟩, hds, h⟩ := bind_eq_ok_iff.mp h
  rw [readDigits_append hrest hds]
  change (if _ then _ else _) = _ at h
  change (if _ then _ else _) = _
  split at h
  next => cases h
  next hzero => cases h; exact if_neg hzero

theorem readFraction_append {cs left : List Char} {fraction : Option (List Char)}
    (h : readFraction cs = .ok (fraction, left)) :
    readFraction (cs ++ rest) = .ok (fraction, left ++ rest) := by
  unfold readFraction at h
  split at h
  next more =>
    obtain ⟨⟨ds, l⟩, hds, heq⟩ := map_eq_ok_iff.mp h
    cases heq
    simp [readFraction, readDigits_append hrest hds, Except.map]
  next hdot =>
    cases h
    unfold readFraction
    split
    next more heq =>
      cases cs with
      | nil => exact absurd rfl (hrest '.' (by simp_all)).2.1
      | cons c cs => cases heq; exact absurd rfl (hdot _)
    next => rfl

theorem readExponent_append {cs left : List Char} {exponent : Option (Bool × List Char)}
    (h : readExponent cs = .ok (exponent, left)) :
    readExponent (cs ++ rest) = .ok (exponent, left ++ rest) := by
  cases cs with
  | nil =>
    cases h
    cases rest with
    | nil => rfl
    | cons c rest =>
      obtain ⟨-, -, he, hE⟩ := hrest c rfl
      simp [readExponent_cons, he, hE]
  | cons c cs =>
    rw [List.cons_append]
    rw [readExponent_cons] at h ⊢
    split at h
    next hc =>
      obtain ⟨⟨ds, l⟩, hds, heq⟩ := map_eq_ok_iff.mp h
      cases heq
      have hcs : cs ≠ [] := by
        rintro rfl
        cases hds
      simp only [if_pos hc, takeSign_append hcs, readDigits_append hrest hds, Except.map]
    next hc =>
      cases h
      rw [if_neg hc]
      rfl

theorem readMagnitude_append {negative : Bool} {cs left : List Char} {n : Number}
    (h : readMagnitude negative cs = .ok (n, left)) :
    readMagnitude negative (cs ++ rest) = .ok (n, left ++ rest) := by
  unfold readMagnitude at h ⊢
  obtain ⟨whole, hwhole, h⟩ := bind_eq_ok_iff.mp h
  obtain ⟨fraction, hfraction, h⟩ := bind_eq_ok_iff.mp h
  obtain ⟨exponent, hexponent, h⟩ := bind_eq_ok_iff.mp h
  refine bind_eq_ok_iff.mpr ⟨_, readWhole_append hrest hwhole, ?_⟩
  refine bind_eq_ok_iff.mpr ⟨_, readFraction_append hrest hfraction, ?_⟩
  refine bind_eq_ok_iff.mpr ⟨_, readExponent_append hrest hexponent, ?_⟩
  dsimp only
  split at h
  next m hm => cases h; rfl
  next => cases h

theorem readNumber_append {cs left : List Char} {n : Number} (h : readNumber cs = .ok (n, left)) :
    readNumber (cs ++ rest) = .ok (n, left ++ rest) := by
  cases cs with
  | nil => cases h
  | cons c cs =>
    by_cases hc : c = '-'
    · subst hc
      exact readMagnitude_append hrest h
    · rw [List.cons_append]
      rw [readNumber_cons hc] at h ⊢
      exact readMagnitude_append hrest h

end

/-! ## Integers -/

theorem digitsValue_toDigits (n : Nat) : Text.digitsValue (Nat.toDigits 10 n) = n := by
  calc Text.digitsValue (Nat.toDigits 10 n)
      = Nat.ofDigitChars 10 (Nat.toDigits 10 n) 0 := Nat.ofDigitChars_eq_foldl.symm
    _ = n := Nat.ofDigitChars_ten_toDigits

theorem isDigit_of_mem_toDigits {n : Nat} {c : Char} (h : c ∈ Nat.toDigits 10 n) :
    c.isDigit = true := Nat.isDigit_of_mem_toDigits (by omega) (by omega) h

theorem eq_zero_of_head_toDigits (n : Nat) (h : (Nat.toDigits 10 n).head? = some '0') : n = 0 := by
  induction n using Nat.strongRecOn with
  | ind n ih =>
    by_cases hn : n < 10
    · rw [Nat.toDigits_of_lt_base hn, List.head?_singleton, Option.some.injEq] at h
      exact Nat.digitChar_eq_zero.mp h
    · have hlast : Nat.toDigits 10 n = Nat.toDigits 10 (n / 10) ++ [(n % 10).digitChar] :=
        Nat.toDigits_of_base_le (by omega) (by omega)
      rw [hlast, List.head?_append, Option.or_of_isSome (by simp [Nat.toDigits_ne_nil])] at h
      have := ih (n / 10) (by omega) h
      omega

theorem readWhole_toDigits (n : Nat) :
    readWhole (Nat.toDigits 10 n) = .ok (Nat.toDigits 10 n, []) := by
  have hall : ∀ c ∈ Nat.toDigits 10 n, c.isDigit = true := fun c => isDigit_of_mem_toDigits
  have htake : (Nat.toDigits 10 n).takeWhile Char.isDigit = Nat.toDigits 10 n := by
    exact List.takeWhile_eq_self_iff.mpr hall
  have hdrop : (Nat.toDigits 10 n).dropWhile Char.isDigit = [] := by
    exact List.dropWhile_eq_nil_iff.mpr hall
  have hread : readDigits (Nat.toDigits 10 n) = .ok (Nat.toDigits 10 n, []) := by
    rw [readDigits.eq_def]
    split
    next hnil => exact absurd hnil Nat.toDigits_ne_nil
    next c cs hcs =>
      rw [if_pos (hall c (hcs ▸ List.mem_cons_self)), htake, hdrop]
  have hzero : ¬ ((Nat.toDigits 10 n).head? = some '0' && (Nat.toDigits 10 n).length ≠ 1) = true := by
    intro h
    obtain ⟨hhead, hlength⟩ : (Nat.toDigits 10 n).head? = some '0' ∧
        (Nat.toDigits 10 n).length ≠ 1 := by simpa using h
    rw [eq_zero_of_head_toDigits n hhead] at hlength
    exact hlength rfl
  unfold readWhole
  exact bind_eq_ok_iff.mpr ⟨_, hread, if_neg hzero⟩

theorem readMagnitude_toDigits (negative : Bool) (n : Nat) {value : Number}
    (h : (Literal.mk negative (Nat.toDigits 10 n) none none).toNumber? = some value) :
    readMagnitude negative (Nat.toDigits 10 n) = .ok (value, []) := by
  unfold readMagnitude
  refine bind_eq_ok_iff.mpr ⟨_, readWhole_toDigits n, ?_⟩
  refine bind_eq_ok_iff.mpr ⟨(none, []), rfl, ?_⟩
  refine bind_eq_ok_iff.mpr ⟨(none, []), rfl, ?_⟩
  rw [h]

theorem toNumber?_toDigits {negative : Bool} {n : Nat} {value : Int}
    (hvalue : (if negative then -(n : Int) else n) = value) (hn : negative = true → n ≠ 0)
    (lower : -0x8000000000000000 ≤ value) (upper : value < 0x10000000000000000) :
    (Literal.mk negative (Nat.toDigits 10 n) none none).toNumber? =
      some (.integer value lower upper) := by
  subst hvalue
  unfold Literal.toNumber?
  simp only [digitsValue_toDigits]
  refine dif_pos ⟨?_, lower, upper⟩
  cases negative <;> simp_all

theorem numberChars_ofNat (n : Nat) (lower : -0x8000000000000000 ≤ Int.ofNat n)
    (upper : Int.ofNat n < 0x10000000000000000) :
    numberChars (.integer (.ofNat n) lower upper) = Nat.toDigits 10 n := Nat.toList_repr

theorem numberChars_negSucc (n : Nat) (lower : -0x8000000000000000 ≤ Int.negSucc n)
    (upper : Int.negSucc n < 0x10000000000000000) :
    numberChars (.integer (.negSucc n) lower upper) = '-' :: Nat.toDigits 10 (n + 1) := by
  change ("-" ++ Nat.repr (n + 1)).toList = _
  rw [String.toList_append, Nat.toList_repr]
  rfl

theorem readNumber_integer (value : Int) (lower : -0x8000000000000000 ≤ value)
    (upper : value < 0x10000000000000000) :
    readNumber (numberChars (.integer value lower upper)) =
      .ok (.integer value lower upper, []) := by
  cases value with
  | ofNat n =>
    have hread := readMagnitude_toDigits false n
      (toNumber?_toDigits (by simp) (by simp) lower upper)
    rw [numberChars_ofNat]
    cases hdigits : Nat.toDigits 10 n with
    | nil => exact absurd hdigits Nat.toDigits_ne_nil
    | cons c cs =>
      have hc : c ≠ '-' := by
        rintro rfl
        have := isDigit_of_mem_toDigits (hdigits ▸ List.mem_cons_self : '-' ∈ Nat.toDigits 10 n)
        revert this
        decide
      rw [readNumber_cons hc, ← hdigits]
      exact hread
  | negSucc n =>
    have hvalue : (if true then -((n + 1 : Nat) : Int) else (n + 1 : Nat)) = .negSucc n := rfl
    rw [numberChars_negSucc, readNumber_minus]
    exact readMagnitude_toDigits true (n + 1)
      (toNumber?_toDigits hvalue (fun _ => n.succ_ne_zero) lower upper)

end Json

end TableQuery

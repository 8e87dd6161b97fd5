import TableQuery.Proofs.Json.Literal

/-!
# Doubles are read from their text

The text of every double is that of a literal that can be read. What is read is not always the same
double, because the digits of a long literal are rounded more than once.
-/

namespace TableQuery

namespace Json

open Literal

/-! ## The literals of the two layouts -/

/-- Digits around a point; `first` is the exponent of the first digit. -/
def pointLiteral (negative : Bool) (digits : List Char) (first : Int) : Literal :=
  if first < 0 then
    ⟨negative, ['0'], some (List.replicate (-first - 1).toNat '0' ++ digits), none⟩
  else
    let whole := first.toNat + 1
    if digits.length ≤ whole then
      ⟨negative, digits ++ List.replicate (whole - digits.length) '0', some ['0'], none⟩
    else ⟨negative, digits.take whole, some (digits.drop whole), none⟩

/-- One digit in front of the point, if there is one, and an exponent. -/
def exponentLiteral (negative : Bool) (digits : List Char) (first : Int) : Literal :=
  ⟨negative, digits.take 1, if digits.length = 1 then none else some (digits.drop 1),
    some (first < 0, Nat.toDigits 10 first.natAbs)⟩

/-- What makes a literal readable, whatever it is rounded to. -/
structure Readable (l : Literal) : Prop where
  wellFormed : l.WellFormed
  notInteger : l.fraction.isSome = true ∨ l.exponent.isSome = true
  hasDouble : ∃ x, l.toDouble? = some x

theorem Readable.readNumber {l : Literal} (h : Readable l) {x : Binary64}
    (hx : l.toDouble? = some x) : readNumber l.chars = .ok (.double x, []) := by
  refine h.wellFormed.readNumber ?_
  unfold toNumber?
  rw [dif_neg, hx]
  · rfl
  · rintro ⟨hinteger, -⟩
    rcases h.notInteger with hsome | hsome <;> simp_all

theorem Readable.exists_readNumber {l : Literal} (h : Readable l) :
    ∃ x, Json.readNumber l.chars = .ok (.double x, []) := by
  obtain ⟨x, hx⟩ := h.hasDouble
  exact ⟨x, h.readNumber hx⟩

theorem isDigits_toDigits (n : Nat) : IsDigits (Nat.toDigits 10 n) :=
  ⟨Nat.toDigits_ne_nil, fun _ hc => isDigit_of_mem_toDigits hc⟩

theorem isDigits_singleton_zero : IsDigits ['0'] :=
  ⟨List.cons_ne_nil _ _, List.forall_mem_singleton.mpr rfl⟩

section

variable {digits : List Char} (hdigits : IsDigits digits) (hzero : digits.head? ≠ some '0')
  (negative : Bool) (first : Int)

theorem pointLiteral_chars : numberLayout.positional digits first =
    (pointLiteral negative digits first).magnitudeChars := by
  unfold DecimalLayout.positional pointLiteral
  dsimp only
  split
  next => simp [magnitudeChars, fractionChars, exponentChars]
  next =>
    split
    next => simp [magnitudeChars, fractionChars, exponentChars, numberLayout]
    next => simp [magnitudeChars, fractionChars, exponentChars]

include hdigits in
theorem exponentLiteral_chars : DecimalLayout.scientific digits first =
    (exponentLiteral negative digits first).magnitudeChars := by
  have hexponent : (toString first.natAbs).toList = Nat.toDigits 10 first.natAbs := Nat.toList_repr
  unfold DecimalLayout.scientific exponentLiteral magnitudeChars
  rw [hexponent]
  match digits with
  | [] => exact absurd rfl hdigits.1
  | [d] => simp [fractionChars, exponentChars]
  | d :: e :: more => simp [fractionChars, exponentChars]

include hdigits

theorem wellFormed_exponentLiteral : (exponentLiteral negative digits first).WellFormed := by
  obtain ⟨hne, hall⟩ := hdigits
  have hlength : 0 < digits.length := List.length_pos_iff.mpr hne
  have hwhole : IsDigits (digits.take 1) :=
    ⟨by simp [hne], fun c hc => hall c (List.mem_of_mem_take hc)⟩
  have hsingle : (digits.take 1).length = 1 := by
    rw [List.length_take]
    omega
  refine ⟨hwhole, fun _ => hsingle, ?_, ?_⟩
  · intro fraction hfraction
    unfold exponentLiteral at hfraction
    dsimp only at hfraction
    split at hfraction
    next => cases hfraction
    next hlong =>
      cases hfraction
      exact ⟨List.ne_nil_of_length_pos (by rw [List.length_drop]; omega),
        fun c hc => hall c (List.mem_of_mem_drop hc)⟩
  · intro e he
    cases he
    exact isDigits_toDigits _

include hzero

theorem wellFormed_pointLiteral : (pointLiteral negative digits first).WellFormed := by
  obtain ⟨hne, hall⟩ := hdigits
  have hzeros : ∀ n, ∀ c ∈ List.replicate n '0', c.isDigit = true := by
    intro n c hc
    rw [(List.mem_replicate.mp hc).2]
    rfl
  unfold pointLiteral
  dsimp only
  split
  next =>
    have hfraction : IsDigits (List.replicate (-first - 1).toNat '0' ++ digits) :=
      ⟨by simp [hne], List.forall_mem_append.mpr ⟨hzeros _, hall⟩⟩
    exact ⟨isDigits_singleton_zero, fun _ => rfl, fun _ h => by cases h; exact hfraction, nofun⟩
  next =>
    split
    next =>
      have hwhole : IsDigits (digits ++ List.replicate (first.toNat + 1 - digits.length) '0') :=
        ⟨by simp [hne], List.forall_mem_append.mpr ⟨hall, hzeros _⟩⟩
      refine ⟨hwhole, fun hhead => ?_, fun _ h => by cases h; exact isDigits_singleton_zero, nofun⟩
      rw [List.head?_append_of_ne_nil _ hne] at hhead
      exact absurd hhead hzero
    next hlong =>
      have hwhole : IsDigits (digits.take (first.toNat + 1)) :=
        ⟨by simp [hne], fun c hc => hall c (List.mem_of_mem_take hc)⟩
      have hfraction : IsDigits (digits.drop (first.toNat + 1)) :=
        ⟨List.ne_nil_of_length_pos (by rw [List.length_drop]; omega),
          fun c hc => hall c (List.mem_of_mem_drop hc)⟩
      refine ⟨hwhole, fun hhead => ?_, fun _ h => by cases h; exact hfraction, nofun⟩
      rw [List.head?_take, if_neg (by omega)] at hhead
      exact absurd hhead hzero

end

/-! ## The literals are in range -/

/-- A literal without an exponent whose digits are the given ones, but for zeros in front. -/
theorem decimal_of_split {negative : Bool} {whole fraction digits : List Char} {n : Nat}
    (h : whole ++ fraction = List.replicate n '0' ++ digits) :
    (Literal.mk negative whole (some fraction) none).decimal =
      ⟨Text.digitsValue digits, -(fraction.length : Int)⟩ := by
  unfold decimal
  simp only [Option.getD_some, Option.map_none, Option.getD_none, h, Text.digitsValue_append,
    Text.digitsValue_replicate_zero, Nat.zero_mul, Nat.zero_add, Int.zero_sub]

section

variable {digits : List Char} {first : Int} (negative : Bool)
  (h : Decimal.InRange ⟨Text.digitsValue digits, first + 1 - digits.length⟩)
include h

theorem inRange_pointLiteral : (pointLiteral negative digits first).decimal.InRange := by
  unfold pointLiteral
  dsimp only
  split
  next hneg =>
    have hzeros : ['0'] ++ (List.replicate (-first - 1).toNat '0' ++ digits) =
        List.replicate ((-first - 1).toNat + 1) '0' ++ digits := by
      rw [List.replicate_succ]
      rfl
    have hexponent : -((List.replicate (-first - 1).toNat '0' ++ digits).length : Int) =
        first + 1 - digits.length := by
      rw [List.length_append, List.length_replicate]
      omega
    rw [decimal_of_split hzeros, hexponent]
    exact h
  next hpositive =>
    split
    next hshort =>
      have hexponent : first + 1 - digits.length = (first.toNat + 1 - digits.length : Nat) := by
        omega
      rw [hexponent] at h
      have hvalue : Text.digitsValue
          (digits ++ List.replicate (first.toNat + 1 - digits.length) '0' ++ ['0']) =
            Text.digitsValue digits * 10 ^ (first.toNat + 1 - digits.length + 1) := by
        have hzero : Text.digitsValue ['0'] = 0 := rfl
        rw [Text.digitsValue_append, Text.digitsValue_append, Text.digitsValue_replicate_zero,
          hzero, List.length_replicate, List.length_singleton, Nat.pow_succ]
        ring
      unfold decimal
      simp only [Option.getD_some, hvalue]
      exact h.movePoint
    next hlong =>
      have hsplit : digits.take (first.toNat + 1) ++ digits.drop (first.toNat + 1) =
          List.replicate 0 '0' ++ digits := by
        rw [List.take_append_drop]
        rfl
      have hexponent : -((digits.drop (first.toNat + 1)).length : Int) =
          first + 1 - digits.length := by
        rw [List.length_drop]
        omega
      rw [decimal_of_split hsplit, hexponent]
      exact h

theorem inRange_exponentLiteral (hdigits : IsDigits digits) :
    (exponentLiteral negative digits first).decimal.InRange := by
  have hexponent : exponentValue (first < 0, Nat.toDigits 10 first.natAbs) = first := by
    unfold exponentValue
    rw [digitsValue_toDigits]
    dsimp only
    split
    next hneg => have := of_decide_eq_true hneg; omega
    next hnonneg => have := of_decide_eq_false (Bool.eq_false_iff.mpr hnonneg); omega
  have hlength : 0 < digits.length := List.length_pos_iff.mpr hdigits.1
  have hvalue : (exponentLiteral negative digits first).decimal =
      ⟨Text.digitsValue digits, first + 1 - digits.length⟩ := by
    unfold exponentLiteral decimal
    simp only [Option.map_some, Option.getD_some, hexponent]
    split
    next hone =>
      have htake : digits.take 1 = digits := List.take_of_length_le (by omega)
      rw [Option.getD_none, htake, List.append_nil, List.length_nil, hone]
      congr 1
      omega
    next hmore =>
      rw [Option.getD_some, List.take_append_drop, List.length_drop]
      congr 1
      omega
  rw [hvalue]
  exact h

end

/-! ## The text of a double -/

/-- The literal that the text of a double spells. -/
def literalOf (negative : Bool) (d : Decimal) : Literal :=
  let digits := Nat.toDigits 10 d.digits
  let first := d.exponent + digits.length - 1
  if numberLayout.isPositional first then pointLiteral negative digits first
  else exponentLiteral negative digits first

theorem negative_literalOf (negative : Bool) (d : Decimal) :
    (literalOf negative d).negative = negative := by
  unfold literalOf pointLiteral exponentLiteral
  dsimp only
  split
  next => split; exacts [rfl, by split <;> rfl]
  next => rfl

theorem magnitudeChars_literalOf (negative : Bool) (d : Decimal) :
    (literalOf negative d).magnitudeChars =
      let digits := (toString d.digits).toList
      let first := d.exponent + digits.length - 1
      if numberLayout.isPositional first then numberLayout.positional digits first
      else DecimalLayout.scientific digits first := by
  have htext : (toString d.digits).toList = Nat.toDigits 10 d.digits := Nat.toList_repr
  unfold literalOf
  rw [htext]
  dsimp only
  split
  next => exact (pointLiteral_chars negative _).symm
  next => exact (exponentLiteral_chars (isDigits_toDigits _) negative _).symm

theorem numberChars_double (x : Binary64) :
    numberChars (.double x) = (literalOf x.negative (x.shortest .even)).chars := by
  rw [chars, negative_literalOf, magnitudeChars_literalOf]
  rfl

theorem wellFormed_literalOf (negative : Bool) {d : Decimal} (hd : d.digits ≠ 0) :
    (literalOf negative d).WellFormed := by
  have hzero : (Nat.toDigits 10 d.digits).head? ≠ some '0' := fun h =>
    hd (eq_zero_of_head_toDigits d.digits h)
  unfold literalOf
  dsimp only
  split
  next => exact wellFormed_pointLiteral (isDigits_toDigits _) hzero negative _
  next => exact wellFormed_exponentLiteral (isDigits_toDigits _) negative _

theorem length_whole_literalOf (negative : Bool) (d : Decimal) :
    (literalOf negative d).whole.length ≤ 16 := by
  unfold literalOf
  dsimp only
  split
  next hpositional =>
    have hfirst : d.exponent + (Nat.toDigits 10 d.digits).length - 1 ≤ 15 :=
      of_decide_eq_true ((Bool.and_eq_true ..).mp hpositional).2
    unfold pointLiteral
    dsimp only
    split
    next => simp
    next => split <;> simp <;> omega
  next =>
    unfold exponentLiteral
    simp

theorem inRange_literalOf (negative : Bool) {d : Decimal} (h : d.InRange) :
    (literalOf negative d).decimal.InRange := by
  have hrange : Decimal.InRange ⟨Text.digitsValue (Nat.toDigits 10 d.digits),
      d.exponent + (Nat.toDigits 10 d.digits).length - 1 + 1 - (Nat.toDigits 10 d.digits).length⟩ := by
    rw [digitsValue_toDigits, Int.sub_add_cancel, Int.add_sub_cancel]
    exact h
  unfold literalOf
  dsimp only
  split
  next => exact inRange_pointLiteral negative hrange
  next => exact inRange_exponentLiteral negative hrange (isDigits_toDigits _)

theorem notInteger_literalOf (negative : Bool) (d : Decimal) :
    (literalOf negative d).fraction.isSome = true ∨ (literalOf negative d).exponent.isSome = true := by
  unfold literalOf
  dsimp only
  split
  next =>
    unfold pointLiteral
    dsimp only
    split
    next => exact .inl rfl
    next => split <;> exact .inl rfl
  next => exact .inr rfl

theorem exists_toDouble?_literalOf (negative : Bool) {d : Decimal} (hd : d.digits ≠ 0)
    (h : d.InRange) : ∃ x, (literalOf negative d).toDouble? = some x := by
  refine exists_toDouble? ?_ (inRange_literalOf negative h)
  have hlt := Text.digitsValue_lt (wellFormed_literalOf negative hd).whole.2
  have hpow : 10 ^ (literalOf negative d).whole.length ≤ 10 ^ 16 :=
    Nat.pow_le_pow_right (by omega) (length_whole_literalOf negative d)
  omega

theorem readable_literalOf (negative : Bool) {d : Decimal} (hd : d.digits ≠ 0)
    (h : ∃ x, (literalOf negative d).toDouble? = some x) : Readable (literalOf negative d) :=
  ⟨wellFormed_literalOf negative hd, notInteger_literalOf negative d, h⟩

/-! ## The largest doubles -/

theorem shortest_eq {x : Binary64} (hx : x.isZero = false) (tie : Tie) :
    x.shortest tie = (((List.range 17).findSome? fun n =>
      x.roundTo? tie (Nat.toDigits 10 x.exactDecimal.digits).length (n + 1)).getD
        x.exactDecimal).trimZeros 1100 := by
  have hlength : (toString x.exactDecimal.digits).length =
      (Nat.toDigits 10 x.exactDecimal.digits).length := by
    rw [← String.length_toList]
    exact congrArg List.length Nat.toList_repr
  unfold Binary64.shortest
  rw [if_neg (by simp [hx]), hlength]

-- The bounds say nothing about the three largest doubles. Their digits and literals are computed.
theorem length_largest (k : Fin 3) (h : maxRank - (k + 1) < maxRank) :
    (Nat.toDigits 10 (Binary64.mk false (maxRank - (k + 1)) h).exactDecimal.digits).length =
      1383 := by
  revert k
  decide +kernel

theorem shortest_largest (k : Fin 3) (negative : Bool) (h : maxRank - (k + 1) < maxRank) :
    (Binary64.mk negative (maxRank - (k + 1)) h).shortest .even =
      ⟨17976931348623157 - 2 * k, 292⟩ := by
  have hx : (Binary64.mk false (maxRank - (k + 1)) h).isZero = false := by
    rw [Binary64.isZero, beq_eq_false_iff_ne]
    dsimp only [maxRank, octaveSize]
    omega
  refine (Binary64.shortest_withSign (.mk false _ h) negative .even).trans ?_
  rw [shortest_eq hx, length_largest]
  revert k
  decide +kernel

theorem exists_toDouble?_largest (k : Fin 3) (negative : Bool) :
    ∃ x, (literalOf negative ⟨17976931348623157 - 2 * k, 292⟩).toDouble? = some x := by
  refine Option.isSome_iff_exists.mp ?_
  revert k negative
  decide +kernel

/-! ## Every double -/

theorem readable_double {x : Binary64} (hx : x.isZero = false) :
    Readable (literalOf x.negative (x.shortest .even)) := by
  by_cases hrank : x.rank + 4 ≤ maxRank
  · obtain ⟨hdigits, hrange⟩ := Binary64.shortest_spec hx hrank .even
    exact readable_literalOf x.negative hdigits
      (exists_toDouble?_literalOf x.negative hdigits hrange)
  · obtain ⟨negative, rank, hlt⟩ := x
    dsimp only at hrank
    obtain ⟨k, rfl⟩ : ∃ k : Fin 3, rank = maxRank - (k + 1) :=
      ⟨⟨maxRank - 1 - rank, by omega⟩, by dsimp only; omega⟩
    rw [shortest_largest k negative hlt]
    exact readable_literalOf negative (by dsimp only; omega) (exists_toDouble?_largest k negative)

theorem exists_readNumber_double (x : Binary64) :
    ∃ y, readNumber (numberChars (.double x)) = .ok (.double y, []) := by
  cases hx : x.isZero with
  | true =>
    have hzero : x = .zero x.negative := by
      obtain ⟨negative, rank, hlt⟩ := x
      cases eq_of_beq hx
      rfl
    rw [hzero]
    exact ⟨_, Binary64.readsBack_zero x.negative⟩
  | false =>
    rw [numberChars_double]
    exact (readable_double hx).exists_readNumber

end Json

/-- The double that the text of a double is read as. -/
def Binary64.reread (x : Binary64) : Binary64 :=
  match Json.readNumber (Json.numberChars (.double x)) with
  | .ok (.double y, _) => y
  | _ => x

def Number.reread : Number → Number
  | .integer value lower upper => .integer value lower upper
  | .double x => .double x.reread

theorem Json.readNumber_double (x : Binary64) :
    readNumber (numberChars (.double x)) = .ok (.double x.reread, []) := by
  obtain ⟨y, hy⟩ := exists_readNumber_double x
  unfold Binary64.reread
  rw [hy]

theorem Binary64.readsBack_iff {x : Binary64} : x.ReadsBack ↔ x.reread = x := by
  unfold ReadsBack
  rw [Json.readNumber_double]
  simp

theorem Json.readNumber_numberChars (n : Number) :
    readNumber (numberChars n) = .ok (n.reread, []) := by
  cases n with
  | integer value lower upper => exact readNumber_integer value lower upper
  | double x => exact readNumber_double x

/-! ## Doubles that are not read back -/

namespace Binary64

open Json

theorem reread_eq {x y : Binary64} (hx : x.isZero = false)
    (hy : (literalOf x.negative (x.shortest .even)).toDouble? = some y) : x.reread = y := by
  have hread := (readable_double hx).readNumber hy
  rw [← numberChars_double, readNumber_double] at hread
  cases hread
  rfl

/-- The double nearest to `3e50`. -/
def threeE50 : Binary64 := ⟨false, 5362002194234971878, by decide⟩

/-- The next larger double. -/
def aboveThreeE50 : Binary64 := ⟨false, 5362002194234971879, by decide⟩

theorem shortest_threeE50 : threeE50.shortest .even = ⟨3, 50⟩ := by
  have hlength : (Nat.toDigits 10 threeE50.exactDecimal.digits).length = 1125 := by decide +kernel
  rw [shortest_eq (by decide), hlength]
  decide +kernel

theorem shortest_aboveThreeE50 : aboveThreeE50.shortest .even = ⟨30000000000000002, 34⟩ := by
  have hlength : (Nat.toDigits 10 aboveThreeE50.exactDecimal.digits).length = 1125 := by
    decide +kernel
  rw [shortest_eq (by decide), hlength]
  decide +kernel

-- The power of ten is itself rounded, which moves the product by one place.
theorem reread_threeE50 : threeE50.reread = aboveThreeE50 := by
  refine reread_eq (by decide) ?_
  rw [shortest_threeE50]
  decide +kernel

theorem reread_aboveThreeE50 : aboveThreeE50.reread = threeE50 := by
  refine reread_eq (by decide) ?_
  rw [shortest_aboveThreeE50]
  decide +kernel

theorem render_threeE50_ne :
    Number.render (.double threeE50) ≠ Number.render (.double aboveThreeE50) := by
  intro h
  have hchars : numberChars (.double threeE50) = numberChars (.double aboveThreeE50) :=
    String.ofList_inj.mp h
  have hread := readNumber_double threeE50
  rw [hchars, readNumber_double, reread_threeE50, reread_aboveThreeE50] at hread
  revert hread
  decide

end Binary64

end TableQuery

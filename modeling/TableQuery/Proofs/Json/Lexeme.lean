import TableQuery.Json.Reader
import TableQuery.Proofs.Json.Double

/-!
# Tokens are read back from their text

The texts of tokens, one after the other, are split into the same tokens again, but for the doubles
that are read as another double. Two numbers may not stand side by side.
-/

namespace TableQuery.Json

/-! ## Strings -/

theorem unit?_hexDigit : ∀ n < 0x20,
    unit? '0' '0' (hexDigit (n / 16)) (hexDigit (n % 16)) = some n := by decide

theorem readString_charChars (read : List Char) (c : Char) (rest : List Char) :
    readString read (charChars c ++ rest) = readString (c :: read) rest := by
  unfold charChars
  split
  next h => subst h; rfl
  next hquote =>
    split
    next h => subst h; rfl
    next hbackslash =>
      iterate 5
        split
        next h => subst h; rfl
      split
      next hcontrol =>
        have hunit := unit?_hexDigit c.toNat hcontrol
        have htrailing : isTrailing c.toNat = false := by simp [isTrailing]; omega
        have hleading : isLeading c.toNat = false := by simp [isLeading]; omega
        simp [readString, hunit, htrailing, hleading, Char.ofNat_toNat]
      next hcontrol =>
        rw [List.cons_append, List.nil_append, readString, if_neg hcontrol] <;> simp_all

theorem readString_flatMap (read cs rest : List Char) :
    readString read (cs.flatMap charChars ++ '"' :: rest) =
      .ok (String.ofList (read.reverse ++ cs), rest) := by
  induction cs generalizing read with
  | nil => simp [readString]
  | cons c cs ih =>
    rw [List.flatMap_cons, List.append_assoc, readString_charChars, ih]
    simp

/-! ## Tokens -/

theorem readWord_append (word rest : List Char) : readWord word (word ++ rest) = .ok rest := by
  induction word with
  | nil => rfl
  | cons c word ih => simp [readWord, ih]

namespace Token

def isNumber : Token → Bool
  | .number _ => true
  | _ => false

def isBroken : Token → Bool
  | .broken _ _ => true
  | _ => false

/-- The token that the text of a token is read as. -/
def reread : Token → Token
  | .number n => .number n.reread
  | t => t

end Token

theorem head_of_readNumber {cs rest : List Char} {n : Number} (h : readNumber cs = .ok (n, rest)) :
    ∃ c more, cs = c :: more ∧ (c = '-' ∨ c.isDigit = true) := by
  cases cs with
  | nil => cases h
  | cons c cs =>
    refine ⟨c, cs, rfl, ?_⟩
    by_cases hc : c = '-'
    · exact .inl hc
    · rw [readNumber_cons hc, readMagnitude] at h
      obtain ⟨whole, hwhole, -⟩ := bind_eq_ok_iff.mp h
      obtain ⟨digits, hdigits, -⟩ := bind_eq_ok_iff.mp hwhole
      simp only [readDigits] at hdigits
      split at hdigits
      next hdigit => exact .inr hdigit
      next => cases hdigits

theorem readToken_of_number {c : Char} (hc : c = '-' ∨ c.isDigit = true) (rest : List Char) :
    isSpace c = false ∧ readToken c rest = tokenOf false .number (readNumber (c :: rest)) := by
  have hne : ∀ d : Char, d.isDigit = false → d ≠ '-' → c ≠ d := by
    rintro d hd hminus rfl
    rcases hc with rfl | hc
    · exact hminus rfl
    · rw [hd] at hc; cases hc
  have hnumber : (c = '-' || c.isDigit) = true := by simpa using hc
  constructor
  · simp [isSpace, hne]
  · unfold readToken
    simp [hne, hnumber]

theorem readToken_chars {t : Token} (ht : t.isBroken = false) {rest : List Char}
    (hrest : t.isNumber = true → EndsNumber rest) :
    ∃ c cs, t.chars = c :: cs ∧ isSpace c = false ∧
      readToken c (cs ++ rest) = (t.reread, rest) := by
  cases t with
  | openArray => exact ⟨'[', [], rfl, rfl, rfl⟩
  | closeArray => exact ⟨']', [], rfl, rfl, rfl⟩
  | openObject => exact ⟨'\x7b', [], rfl, rfl, rfl⟩
  | closeObject => exact ⟨'\x7d', [], rfl, rfl, rfl⟩
  | comma => exact ⟨',', [], rfl, rfl, rfl⟩
  | colon => exact ⟨':', [], rfl, rfl, rfl⟩
  | null =>
    refine ⟨'n', "ull".toList, rfl, rfl, ?_⟩
    simp only [readToken, readWord_append]
    rfl
  | bool b =>
    cases b with
    | false =>
      refine ⟨'f', "alse".toList, rfl, rfl, ?_⟩
      simp only [readToken, readWord_append]
      rfl
    | true =>
      refine ⟨'t', "rue".toList, rfl, rfl, ?_⟩
      simp only [readToken, readWord_append]
      rfl
  | string s =>
    refine ⟨'"', s.toList.flatMap charChars ++ ['"'], rfl, rfl, ?_⟩
    simp [readToken, readString_flatMap, tokenOf, Token.reread]
  | number n =>
    have hread := readNumber_numberChars n
    obtain ⟨c, cs, hcs, hc⟩ := head_of_readNumber hread
    obtain ⟨hspace, htoken⟩ := readToken_of_number hc (cs ++ rest)
    refine ⟨c, cs, hcs, hspace, ?_⟩
    rw [htoken, ← List.cons_append, ← hcs, readNumber_append (hrest rfl) hread]
    rfl
  | broken isString why => cases ht

/-- The first token, if there is one, is no number. -/
def StartsApart (ts : List Token) : Prop := ∀ t ∈ ts.head?, t.isNumber = false

/-- The tokens can be told apart in their texts, one text after the other: none is broken, and a
number is not followed by a number. -/
def AllLegible : List Token → Prop
  | [] => True
  | t :: ts => t.isBroken = false ∧ (t.isNumber = true → StartsApart ts) ∧ AllLegible ts

theorem endsNumber_chars {t : Token} (ht : t.isNumber = false) (hl : t.isBroken = false) (rest : List Char) :
    EndsNumber (t.chars ++ rest) := by
  have hends : ∀ c cs, c.isDigit = false ∧ c ≠ '.' ∧ c ≠ 'e' ∧ c ≠ 'E' → EndsNumber (c :: cs) := by
    rintro c cs hc d hd
    cases hd
    exact hc
  cases t with
  | number n => cases ht
  | broken isString why => cases hl
  | bool b => cases b <;> exact hends _ _ (by decide)
  | _ => exact hends _ _ (by decide)

theorem endsNumber_flatMap {ts : List Token} (ht : StartsApart ts) (hl : AllLegible ts) :
    EndsNumber (ts.flatMap Token.chars) := by
  cases ts with
  | nil => rintro c hc; cases hc
  | cons t ts => exact endsNumber_chars (ht t rfl) hl.1 _

theorem tokenizeWith_flatMap {ts : List Token} (h : AllLegible ts) {fuel : Nat}
    (hfuel : (ts.flatMap Token.chars).length ≤ fuel) :
    tokenizeWith fuel (ts.flatMap Token.chars) = ts.map Token.reread := by
  induction ts generalizing fuel with
  | nil => cases fuel <;> rfl
  | cons t ts ih =>
    obtain ⟨ht, hapart, hts⟩ := h
    obtain ⟨c, cs, hcs, hspace, htoken⟩ :=
      readToken_chars ht fun hn => endsNumber_flatMap (hapart hn) hts
    rw [List.flatMap_cons, hcs, List.cons_append] at hfuel ⊢
    cases fuel with
    | zero => cases hfuel
    | succ fuel =>
      have hshort : (ts.flatMap Token.chars).length ≤ fuel := by
        simp only [List.length_cons, List.length_append] at hfuel
        omega
      rw [tokenizeWith, if_neg (by simp [hspace]), htoken]
      exact congrArg (t.reread :: ·) (ih hts hshort)

theorem tokenize_flatMap {ts : List Token} (h : AllLegible ts) :
    tokenize (ts.flatMap Token.chars) = ts.map Token.reread := tokenizeWith_flatMap h (Nat.le_refl _)

end TableQuery.Json

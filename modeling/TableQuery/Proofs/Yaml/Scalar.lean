import TableQuery.Proofs.Yaml.Block
import TableQuery.Proofs.Yaml.Plain
import TableQuery.Yaml.Token

/-!
# Written scalars

A text is written in one of four forms, by what each can hold. All that is written is printable.
-/

namespace TableQuery.Yaml

/-- A form in which a text may be written, with the style that it is read in. -/
inductive Written : Style → List Char → List Char → Prop where
  | plain {cs : List Char} : cs ≠ [] → isPlain cs = true → Written .plain cs cs
  | single {cs : List Char} : isSingle cs = true → '\n' ∉ cs → Written .quoted cs (singleQuoted cs)
  | double (cs : List Char) : Written .quoted cs (doubleQuoted cs)
  | block {cs : List Char} : cs ≠ [] → (∀ c ∈ cs, isPrintable c = true) →
    Written .literal cs (block cs)

theorem exists_written (cs : List Char) : ∃ style, Written style cs (writeChars cs) ∧
    (style = .plain → hasOtherMeaning (String.ofList cs) = false) := by
  unfold writeChars
  split
  next hfeed =>
    have hne : cs ≠ [] := by
      rintro rfl
      cases hfeed
    split
    next hblock =>
      simp only [isBlock, Bool.and_eq_true, List.all_eq_true] at hblock
      exact ⟨.literal, .block hne hblock.1.1, by simp⟩
    next => exact ⟨.quoted, .double cs, by simp⟩
  next hfeed =>
    split
    next hplain =>
      obtain ⟨hplain, hother⟩ : isPlain cs = true ∧ hasOtherMeaning (String.ofList cs) = false := by
        simpa using hplain
      have hne : cs ≠ [] := by
        rintro rfl
        simp [hasOtherMeaning] at hother
      exact ⟨.plain, .plain hne hplain, fun _ => hother⟩
    next =>
      split
      next hsingle => exact ⟨.quoted, .single hsingle (by simpa using hfeed), by simp⟩
      next => exact ⟨.quoted, .double cs, by simp⟩

/-! ## The ends of what is written -/

theorem Written.beginsToken {style : Style} {cs written : List Char}
    (h : Written style cs written) (after : List Char) : BeginsToken (written ++ after) := by
  cases h with
  | plain hne hplain =>
    obtain ⟨c, cs, rfl⟩ := List.exists_cons_of_ne_nil hne
    obtain ⟨hgap, hindicator, hmark, -⟩ := head_of_isPlain hplain
    rintro _ ⟨⟩
    exact ⟨hgap, (ne_of_test (by decide) hindicator).symm, hmark⟩
  | single => rintro _ ⟨⟩; decide
  | double => rintro _ ⟨⟩; decide
  | block => rintro _ ⟨⟩; decide

/-- Only a block may end with a break of its own. -/
theorem Written.lineEnding_eq {style : Style} {cs written : List Char}
    (h : Written style cs written) (hstyle : style ≠ .literal) : lineEnding written = ['\n'] := by
  have hlast : ∀ c ∈ written.getLast?, isBreak c = false := by
    cases h with
    | plain hne hplain =>
      simp only [isPlain, Bool.and_eq_true, Bool.not_eq_true', List.any_eq_false] at hplain
      intro c hc
      simpa using hplain.1.1.1.1.2 c (List.mem_of_getLast? hc)
    | single => simp [singleQuoted, List.getLast?_cons, getLast?_indentLines, isBreak]
    | double => simp [doubleQuoted, List.getLast?_cons, isBreak]
    | block => exact absurd rfl hstyle
  cases hwritten : written.getLast? with
  | none => simp [lineEnding, hwritten]
  | some c => simp [lineEnding, hwritten, hlast c hwritten]

/-! ## Printable text -/

theorem isPrintable_indentLines {cs : List Char} (h : ∀ c ∈ cs, isPrintable c = true)
    (atStart : Bool) : ∀ c ∈ indentLines atStart cs, isPrintable c = true := by
  induction cs generalizing atStart with
  | nil => simp [indentLines]
  | cons c cs ih =>
    obtain ⟨hc, hcs⟩ := List.forall_mem_cons.mp h
    have hspace : isPrintable ' ' = true := by decide
    unfold indentLines
    split
    · exact List.forall_mem_cons.mpr ⟨hc, ih hcs true⟩
    · refine List.forall_mem_append.mpr ⟨?_, ih hcs false⟩
      split <;> simp [hc, hspace]

theorem isPrintable_digitChar : ∀ n < 16, isPrintable n.digitChar.toUpper = true := by decide

theorem isPrintable_hexDigits (width n : Nat) : ∀ c ∈ hexDigits width n, isPrintable c = true := by
  have hdigits : ∀ c ∈ (Nat.toDigits 16 n).map Char.toUpper, isPrintable c = true := by
    induction n using Nat.strongRecOn with
    | ind n ih =>
      by_cases hn : n < 16
      · rw [Nat.toDigits_of_lt_base hn]
        simpa using isPrintable_digitChar n hn
      · rw [Nat.toDigits_of_base_le (by omega) (by omega), List.map_append]
        refine List.forall_mem_append.mpr ⟨ih (n / 16) (by omega), ?_⟩
        simpa using isPrintable_digitChar (n % 16) (by omega)
  refine List.forall_mem_append.mpr ⟨fun c hc => ?_, hdigits⟩
  rw [List.eq_of_mem_replicate hc]
  decide

theorem isPrintable_escapeLetter {c letter : Char} (h : escapeLetter? c = some letter) :
    isPrintable letter = true := by
  unfold escapeLetter? at h
  split at h <;> cases h <;> decide

theorem isPrintable_doubleQuotedChar (c : Char) :
    ∀ d ∈ doubleQuotedChar c, isPrintable d = true := by
  have hbackslash : isPrintable '\\' = true := by decide
  have hcode {letter : Char} (hletter : isPrintable letter = true) (width : Nat) :
      ∀ d ∈ '\\' :: letter :: hexDigits width c.toNat, isPrintable d = true :=
    List.forall_mem_cons.mpr ⟨hbackslash,
      List.forall_mem_cons.mpr ⟨hletter, isPrintable_hexDigits width c.toNat⟩⟩
  unfold doubleQuotedChar
  split
  next letter hletter => simp [hbackslash, isPrintable_escapeLetter hletter]
  next =>
    split
    next hprintable => simpa using hprintable
    next =>
      split
      · exact hcode (by decide) 2
      · split
        · exact hcode (by decide) 4
        · exact hcode (by decide) 8

theorem isPrintable_blockHeader (cs : List Char) :
    ∀ c ∈ blockHeader cs, isPrintable c = true := by
  have hmark : ∀ chomp, ∀ c ∈ Block.chompMark chomp, isPrintable c = true := by
    intro chomp
    exact List.all_eq_true.mp (by cases chomp <;> decide)
  rw [Block.blockHeader_eq, Block.increment?]
  refine List.forall_mem_cons.mpr ⟨by decide, List.forall_mem_append.mpr ⟨?_, hmark _⟩⟩
  split <;> exact List.all_eq_true.mp (by decide)

theorem Written.isPrintable {style : Style} {cs written : List Char}
    (h : Written style cs written) : ∀ c ∈ written, Yaml.isPrintable c = true := by
  cases h with
  | plain hne hplain =>
    simp only [isPlain, Bool.and_eq_true, List.all_eq_true] at hplain
    exact hplain.1.1.1.1.1
  | single hsingle hfeed =>
    simp only [isSingle, Bool.and_eq_true, List.all_eq_true] at hsingle
    have hquote : Yaml.isPrintable '\'' = true := by decide
    refine List.forall_mem_cons.mpr ⟨hquote, isPrintable_indentLines ?_ false⟩
    refine List.forall_mem_append.mpr ⟨fun d hd => ?_, by simpa using hquote⟩
    obtain ⟨c, hc, hd⟩ := List.mem_flatMap.mp hd
    split at hd
    · have hd : d = '\'' := by simpa using hd
      exact hd ▸ hquote
    · exact List.mem_singleton.mp hd ▸ hsingle.1.1 c hc
  | double =>
    have hquote : Yaml.isPrintable '"' = true := by decide
    refine List.forall_mem_cons.mpr ⟨hquote, List.forall_mem_append.mpr ⟨fun d hd => ?_, ?_⟩⟩
    · obtain ⟨c, -, hd⟩ := List.mem_flatMap.mp hd
      exact isPrintable_doubleQuotedChar c d hd
    · simpa using hquote
  | block hne hprintable =>
    refine List.forall_mem_append.mpr ⟨isPrintable_blockHeader _, List.forall_mem_cons.mpr ⟨?_, ?_⟩⟩
    · decide
    · exact isPrintable_indentLines hprintable true

end TableQuery.Yaml

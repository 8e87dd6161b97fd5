import Mathlib.Algebra.Group.Nat.Defs
import TableQuery.Proofs.Yaml.Lines

/-!
# Quoted text is read back

Both kinds of quotes keep spaces as they are. Single quotes also keep separators of lines, with an
indentation after them that belongs to no text, and double quotes escape every break.
-/

namespace TableQuery.Yaml

/-! ## One step of reading -/

section

variable {quote : Char} {fuel : Nat} {after text rest : List Char}

theorem readQuoted?_close (hgap : isGap quote = false)
    (hrest : quote = '\'' → rest.head? ≠ some quote) :
    readQuoted? quote (fuel + 1) (quote :: rest) = some ([], rest) := by
  have hdoubled : (quote = '\'' && rest.head? = some quote) = false := by simpa using hrest
  simp only [readQuoted?, hgap, hdoubled]
  simp

variable (hread : readQuoted? quote fuel after = some (text, rest))
include hread

theorem readQuoted?_gap {gap : List Char} (hne : gap ≠ []) (hgap : ∀ c ∈ gap, isGap c = true)
    (hlast : ∀ c ∈ gap.getLast?, isBreak c = false) (hafter : ∀ c ∈ after.head?, isGap c = false) :
    readQuoted? quote (fuel + 1) (gap ++ after) = some (foldGap gap ++ text, rest) := by
  obtain ⟨c, more, rfl⟩ := List.exists_cons_of_ne_nil hne
  have htake := takeGap_append hgap hafter
  have hmarker := reachesMarker_eq_false after hlast
  rw [List.cons_append] at htake ⊢
  simp [readQuoted?, hgap c List.mem_cons_self, htake, hmarker, hread]

theorem readQuoted?_spaces {gap : List Char} (hne : gap ≠ []) (hgap : ∀ c ∈ gap, c = ' ')
    (hafter : ∀ c ∈ after.head?, isGap c = false) :
    readQuoted? quote (fuel + 1) (gap ++ after) = some (gap ++ text, rest) := by
  have hbreak : ∀ c ∈ gap, isBreak c = false := fun c hc => hgap c hc ▸ isBreak_space
  have hstep := readQuoted?_gap hread hne (fun c hc => hgap c hc ▸ by decide)
    (fun c hc => hbreak c (List.mem_of_mem_getLast? hc)) hafter
  rwa [foldGap_of_no_breaks hbreak] at hstep

theorem readQuoted?_separators {gap : List Char} (hne : gap ≠ [])
    (hgap : ∀ c ∈ gap, isBreak c = true) (hfeed : '\n' ∉ gap)
    (hafter : ∀ c ∈ after.head?, isGap c = false) :
    readQuoted? quote (fuel + 1) (gap ++ ' ' :: ' ' :: after) = some (gap ++ text, rest) := by
  have hall : ∀ c ∈ gap ++ [' ', ' '], isGap c = true := by
    refine List.forall_mem_append.mpr ⟨fun c hc => ?_, by simp [isGap, isBlank]⟩
    rw [isGap, hgap c hc, Bool.or_true]
  have hstep := readQuoted?_gap hread (List.append_ne_nil_of_left_ne_nil hne _) hall
    (by simp [isBreak_space]) hafter
  rw [foldGap_of_separators hne hgap hfeed (by simp [isBreak_space])] at hstep
  simpa using hstep

theorem readQuoted?_char {c : Char} (hgap : isGap c = false) (hquote : c ≠ quote)
    (hescape : quote = '"' → c ≠ '\\') :
    readQuoted? quote (fuel + 1) (c :: after) = some (c :: text, rest) := by
  have hplain : (quote = '"' && c = '\\') = false := by simpa using hescape
  simp only [readQuoted?, hgap, hplain]
  simp [hquote, hread]

theorem readQuoted?_doubled (hquote : quote = '\'') :
    readQuoted? quote (fuel + 1) ('\'' :: '\'' :: after) = some ('\'' :: text, rest) := by
  subst hquote
  have hgap : isGap '\'' = false := by decide
  simp [readQuoted?, hgap, hread]

theorem readQuoted?_escape {letter : Char} {more : List Char} {value : Char} (hquote : quote = '"')
    (hbreak : isBreak letter = false)
    (hescape : readEscape? (letter :: more) = some (value, after)) :
    readQuoted? quote (fuel + 1) ('\\' :: letter :: more) = some (value :: text, rest) := by
  subst hquote
  have hgap : isGap '\\' = false := by decide
  simp [readQuoted?, hgap, hbreak, hescape, hread]

end

/-! ## Single quotes -/

/-- What is written after the opening quote. -/
def singleBody (atStart : Bool) (cs : List Char) : List Char :=
  indentLines atStart (cs.flatMap (fun c => if c = '\'' then ['\'', '\''] else [c]) ++ ['\''])

theorem singleQuoted_eq (cs : List Char) : singleQuoted cs = '\'' :: singleBody false cs := rfl

/-- Where no quote is written twice, only the indentation is put in. -/
theorem singleBody_append {front : List Char} (h : '\'' ∉ front) (atStart : Bool)
    (cs : List Char) : singleBody atStart (front ++ cs) = indentLines atStart
      (front ++ (cs.flatMap (fun c => if c = '\'' then ['\'', '\''] else [c]) ++ ['\''])) := by
  have hfront : ∀ c ∈ front, (if c = '\'' then ['\'', '\''] else [c]) = [c] :=
    fun c hc => if_neg (ne_of_mem_of_not_mem hc h)
  rw [singleBody, List.flatMap_append, List.flatMap_congr hfront, List.flatMap_singleton',
    List.append_assoc]

theorem singleBody_breaks {breaks : List Char} (hne : breaks ≠ [])
    (h : ∀ c ∈ breaks, isBreak c = true) (cs : List Char) :
    singleBody false (breaks ++ cs) = breaks ++ singleBody true cs := by
  have hquote : '\'' ∉ breaks := fun hin => by simpa [isBreak] using h _ hin
  obtain ⟨c, breaks, rfl⟩ := List.exists_cons_of_ne_nil hne
  obtain ⟨hc, hbreaks⟩ := List.forall_mem_cons.mp h
  rw [singleBody_append hquote, List.cons_append, indentLines_break hc, indentLines_breaks hbreaks]
  rfl

theorem singleBody_char {c : Char} (hc : isBreak c = false) (hquote : c ≠ '\'') (cs : List Char) :
    singleBody false (c :: cs) = c :: singleBody false cs := by
  simp [singleBody, hquote, indentLines, hc]

theorem singleBody_quote (cs : List Char) :
    singleBody false ('\'' :: cs) = '\'' :: '\'' :: singleBody false cs := by
  have hbreak : isBreak '\'' = false := by decide
  simp [singleBody, indentLines, hbreak]

theorem singleBody_spaces {gap : List Char} (h : ∀ c ∈ gap, c = ' ') (cs : List Char) :
    singleBody false (gap ++ cs) = gap ++ singleBody false cs := by
  have hquote : '\'' ∉ gap := fun hin => by simpa using h _ hin
  rw [singleBody_append hquote, indentLines_line fun c hc => h c hc ▸ isBreak_space]
  rfl

theorem singleBody_true {cs : List Char} (h : ∀ c ∈ cs.head?, isBreak c = false) :
    singleBody true cs = ' ' :: ' ' :: singleBody false cs := by
  have hbreak : isBreak '\'' = false := by decide
  cases cs with
  | nil => simp [singleBody, indentLines, hbreak]
  | cons c cs =>
    have hc := h c rfl
    by_cases hquote : c = '\''
    · subst hquote
      simp [singleBody, indentLines, hbreak]
    · simp [singleBody, indentLines, hquote, hc]

theorem head_singleBody {cs : List Char} (h : ∀ c ∈ cs.head?, isGap c = false) (rest : List Char) :
    ∀ c ∈ (singleBody false cs ++ rest).head?, isGap c = false := by
  have hquote : isGap '\'' = false := by decide
  cases cs with
  | nil =>
    rintro c ⟨⟩
    exact hquote
  | cons d cs =>
    have hd := h d rfl
    have hbreak := not_isBreak hd
    by_cases heq : d = '\''
    · subst heq
      rw [singleBody_quote]
      rintro c ⟨⟩
      exact hd
    · rw [singleBody_char hbreak heq]
      rintro c ⟨⟩
      exact hd

/-- Text without a line feed that single quotes can hold, from some place on. -/
structure IsSingleTail (cs : List Char) : Prop where
  printable : ∀ c ∈ cs, isPrintable c = true
  noFeed : '\n' ∉ cs
  before : hasSpaceBeforeBreak cs = false
  after : hasSpaceAfterBreak cs = false

namespace IsSingleTail

theorem of_append {front back : List Char} (h : IsSingleTail (front ++ back)) :
    IsSingleTail back where
  printable c hc := h.printable c (List.mem_append_right _ hc)
  noFeed hc := h.noFeed (List.mem_append_right _ hc)
  before := eq_false_of_append (fun _ _ hscan => (Bool.or_eq_false_iff.mp hscan).2) h.before
  after := eq_false_of_append (fun _ _ hscan => (Bool.or_eq_false_iff.mp hscan).2) h.after

variable {gap rest : List Char}

theorem head_of_spaces (h : IsSingleTail (gap ++ rest)) (hne : gap ≠ []) (hgap : ∀ c ∈ gap, c = ' ')
    (hrest : ∀ c ∈ rest.head?, c ≠ ' ') : ∀ c ∈ rest.head?, isGap c = false := by
  have hlast : gap = gap.dropLast ++ [' '] := by
    rw [← hgap _ (List.getLast_mem hne), List.dropLast_append_getLast]
  intro c hc
  have hprintable := h.printable c (List.mem_append_right _ (List.mem_of_mem_head? hc))
  refine isGap_eq_false hprintable (hrest c hc) ?_
  rw [hlast, List.append_assoc] at h
  have hbefore := h.of_append.before
  rw [List.singleton_append, hasSpaceBeforeBreak, Option.mem_def.mp hc, Bool.or_eq_false_iff]
    at hbefore
  simpa using hbefore.1

theorem head_of_breaks (h : IsSingleTail (gap ++ rest)) (hne : gap ≠ [])
    (hgap : ∀ c ∈ gap, isBreak c = true) (hrest : ∀ c ∈ rest.head?, isBreak c = false) :
    ∀ c ∈ rest.head?, isGap c = false := by
  have hlast : gap = gap.dropLast ++ [gap.getLast hne] := (List.dropLast_append_getLast hne).symm
  intro c hc
  have hprintable := h.printable c (List.mem_append_right _ (List.mem_of_mem_head? hc))
  refine isGap_eq_false hprintable ?_ (hrest c hc)
  rintro rfl
  rw [hlast, List.append_assoc] at h
  have hafter := h.of_append.after
  rw [List.singleton_append, hasSpaceAfterBreak, Option.mem_def.mp hc,
    hgap _ (List.getLast_mem hne)] at hafter
  simp at hafter

/-- Such a text is empty, or it begins with spaces, with breaks or with no gap. -/
theorem front {cs : List Char} (h : IsSingleTail cs) : cs = [] ∨
    (∃ gap back, cs = gap ++ back ∧ gap ≠ [] ∧ (∀ c ∈ gap, c = ' ') ∧
      ∀ c ∈ back.head?, isGap c = false) ∨
    (∃ gap back, cs = gap ++ back ∧ gap ≠ [] ∧ (∀ c ∈ gap, isBreak c = true) ∧
      ∀ c ∈ back.head?, isGap c = false) ∨
    ∃ c back, cs = c :: back ∧ isGap c = false := by
  cases cs with
  | nil => exact .inl rfl
  | cons c cs =>
    by_cases hspace : c = ' '
    · obtain ⟨more, back, rfl, hmore, hback⟩ := Text.exists_span (fun d => decide (d = ' ')) cs
      have hgap : ∀ d ∈ c :: more, d = ' ' := by simpa [hspace] using hmore
      rw [← List.cons_append] at h
      exact .inr (.inl ⟨c :: more, back, rfl, List.cons_ne_nil c more, hgap,
        h.head_of_spaces (List.cons_ne_nil c more) hgap (by simpa using hback)⟩)
    · by_cases hbreak : isBreak c = true
      · obtain ⟨more, back, rfl, hmore, hback⟩ := Text.exists_span isBreak cs
        have hgap : ∀ d ∈ c :: more, isBreak d = true := by simpa [hbreak] using hmore
        rw [← List.cons_append] at h
        exact .inr (.inr (.inl ⟨c :: more, back, rfl, List.cons_ne_nil c more, hgap,
          h.head_of_breaks (List.cons_ne_nil c more) hgap hback⟩))
      · have hprintable := h.printable c List.mem_cons_self
        exact .inr (.inr (.inr ⟨c, cs, rfl,
          isGap_eq_false hprintable hspace (eq_false_of_ne_true hbreak)⟩))

end IsSingleTail

theorem length_lt_of_append {α : Type} {front back : List α} {n : Nat} (hne : front ≠ [])
    (h : (front ++ back).length < n + 1) : back.length < n := by
  have := List.length_pos_iff.mpr hne
  rw [List.length_append] at h
  omega

theorem readQuoted?_singleBody {cs rest : List Char} (h : IsSingleTail cs)
    (hrest : rest.head? ≠ some '\'') {fuel : Nat} (hfuel : cs.length < fuel) :
    readQuoted? '\'' fuel (singleBody false cs ++ rest) = some (cs, rest) := by
  -- By induction on the length of the text, a gap or a character at a time.
  induction fuel generalizing cs with
  | zero => cases hfuel
  | succ fuel ih =>
    rcases h.front with rfl | ⟨gap, back, rfl, hne, hgap, hback⟩ |
      ⟨gap, back, rfl, hne, hgap, hback⟩ | ⟨c, back, rfl, hc⟩
    · exact readQuoted?_close (by decide) fun _ => hrest
    · have hread := ih h.of_append (length_lt_of_append hne hfuel)
      rw [singleBody_spaces hgap, List.append_assoc]
      exact readQuoted?_spaces hread hne hgap (head_singleBody hback rest)
    · have hread := ih h.of_append (length_lt_of_append hne hfuel)
      have hfeed : '\n' ∉ gap := fun hin => h.noFeed (List.mem_append_left _ hin)
      rw [singleBody_breaks hne hgap, singleBody_true fun c hc => not_isBreak (hback c hc),
        List.append_assoc]
      exact readQuoted?_separators hread hne hgap hfeed (head_singleBody hback rest)
    · have hback : IsSingleTail back := @IsSingleTail.of_append [c] back h
      have hread := ih hback (Nat.lt_of_succ_lt_succ hfuel)
      by_cases hquote : c = '\''
      · subst hquote
        rw [singleBody_quote]
        exact readQuoted?_doubled hread rfl
      · rw [singleBody_char (not_isBreak hc) hquote]
        exact readQuoted?_char hread hc hquote (by simp)

theorem length_le_flatMap {f : Char → List Char} (h : ∀ c, f c ≠ []) (cs : List Char) :
    cs.length ≤ (cs.flatMap f).length := by
  induction cs with
  | nil => exact Nat.le_refl 0
  | cons c cs ih =>
    have := List.length_pos_iff.mpr (h c)
    rw [List.flatMap_cons, List.length_append, List.length_cons]
    omega

theorem length_le_singleBody (cs : List Char) : cs.length ≤ (singleBody false cs).length := by
  refine Nat.le_trans ?_ (length_le_indentLines _ _)
  have := length_le_flatMap (fun c => by split <;> simp :
    ∀ c, (if c = '\'' then ['\'', '\''] else [c]) ≠ []) cs
  rw [List.length_append]
  omega

theorem quoted?_singleBody {cs rest : List Char} (h : isSingle cs = true) (hfeed : '\n' ∉ cs)
    (hrest : rest.head? ≠ some '\'') :
    quoted? '\'' (singleBody false cs ++ rest) = some (String.ofList cs, rest) := by
  simp only [isSingle, Bool.and_eq_true, List.all_eq_true, Bool.not_eq_true'] at h
  have htail : IsSingleTail cs := ⟨h.1.1, hfeed, h.1.2, h.2⟩
  have hfuel : cs.length < (singleBody false cs ++ rest).length + 1 := by
    have := length_le_singleBody cs
    rw [List.length_append]
    omega
  rw [quoted?, readQuoted?_singleBody htail hrest hfuel]
  rfl

/-! ## Double quotes -/

theorem readEscape?_letter {c letter : Char} (h : escapeLetter? c = some letter) :
    isBreak letter = false ∧ ∀ after, readEscape? (letter :: after) = some (c, after) := by
  unfold escapeLetter? at h
  split at h <;> cases h
  all_goals
    rename_i hcode
    rw [← Char.ofNat_toNat c, hcode]
    exact ⟨by decide, fun _ => rfl⟩

theorem escapeLetter?_of_isBreak {c : Char} (h : isBreak c = true) :
    (escapeLetter? c).isSome = true := by
  simp only [isBreak, Bool.or_eq_true, decide_eq_true_eq] at h
  rcases h with (((rfl | rfl) | rfl) | rfl) | rfl <;> decide

theorem digitValue?_toUpper : ∀ n < 16, digitValue? 16 n.digitChar.toUpper = some n := by decide

theorem foldlM_zeros (width : Nat) : (List.replicate width '0').foldlM
    (fun n c => (digitValue? 16 c).map (16 * n + ·)) 0 = some 0 := by
  induction width with
  | zero => rfl
  | succ width ih => exact ih

theorem foldlM_toDigits (n : Nat) : ((Nat.toDigits 16 n).map Char.toUpper).foldlM
    (fun n c => (digitValue? 16 c).map (16 * n + ·)) 0 = some n := by
  -- By induction on the number, from its last digit.
  induction n using Nat.strongRecOn with
  | ind n ih =>
    by_cases hn : n < 16
    · rw [Nat.toDigits_of_lt_base hn]
      simp [digitValue?_toUpper n hn]
    · rw [Nat.toDigits_of_base_le (by omega) (by omega), List.map_append, List.foldlM_append,
        ih (n / 16) (by omega)]
      have hlast := digitValue?_toUpper (n % 16) (by omega)
      simp [hlast]
      omega

theorem length_hexDigits {width n : Nat} (hwidth : 0 < width) (h : n < 16 ^ width) :
    (hexDigits width n).length = width := by
  have := (Nat.length_toDigits_le_iff (by omega) hwidth).mpr h
  simp only [hexDigits, List.length_append, List.length_replicate, List.length_map]
  omega

theorem numeral?_hexDigits (width n : Nat) : numeral? 16 (hexDigits width n) = some n := by
  have hne : (hexDigits width n).isEmpty = false := by
    simp [hexDigits, Nat.toDigits_ne_nil]
  rw [numeral?, hne, hexDigits]
  simp only [List.foldlM_append, foldlM_zeros]
  exact foldlM_toDigits n

theorem readCode?_hexDigits {width : Nat} {c : Char} (hwidth : 0 < width)
    (h : c.toNat < 16 ^ width) (after : List Char) :
    readCode? width (hexDigits width c.toNat ++ after) = some (c, after) := by
  have hlength := length_hexDigits hwidth h
  have hvalid : c.toNat.isValidChar := c.valid
  have hlong : ¬ (hexDigits width c.toNat ++ after).length < width := by
    rw [List.length_append, hlength]
    omega
  rw [readCode?, if_neg hlong, List.take_left' hlength, List.drop_left' hlength, numeral?_hexDigits]
  simp [hvalid, Char.ofNat_toNat]

theorem toNat_lt (c : Char) : c.toNat < 16 ^ 8 := by
  have hvalid : c.toNat.isValidChar := c.valid
  rcases hvalid with h | h <;> omega

theorem doubleQuotedChar_space : doubleQuotedChar ' ' = [' '] := by decide

theorem readQuoted?_doubleQuotedChar {c : Char} (hspace : c ≠ ' ') :
    ∃ first more, doubleQuotedChar c = first :: more ∧ isGap first = false ∧
      ∀ {fuel : Nat} {after text rest : List Char}, readQuoted? '"' fuel after = some (text, rest) →
        readQuoted? '"' (fuel + 1) (first :: more ++ after) = some (c :: text, rest) := by
  have hbackslash : isGap '\\' = false := by decide
  unfold doubleQuotedChar
  cases hletter : escapeLetter? c with
  | some letter =>
    obtain ⟨hbreak, hescape⟩ := readEscape?_letter hletter
    exact ⟨_, _, rfl, hbackslash, fun hread =>
      readQuoted?_escape hread rfl hbreak (hescape _)⟩
  | none =>
    have hne : ∀ d, (escapeLetter? d).isSome = true → c ≠ d := by
      rintro _ hsome rfl
      rw [hletter] at hsome
      cases hsome
    dsimp only
    split
    next hprintable =>
      have hbreak : isBreak c = false := eq_false_of_ne_true fun h =>
        hne c (escapeLetter?_of_isBreak h) rfl
      have hgap := isGap_eq_false hprintable hspace hbreak
      exact ⟨_, _, rfl, hgap, fun hread =>
        readQuoted?_char hread hgap (hne '"' (by decide)) fun _ => hne '\\' (by decide)⟩
    next =>
      have hcode (width : Nat) (hwidth : 0 < width) (h : c.toNat < 16 ^ width)
          (after : List Char) := readCode?_hexDigits hwidth h after
      split
      next h =>
        exact ⟨_, _, rfl, hbackslash, fun hread =>
          readQuoted?_escape hread rfl (by decide) (hcode 2 (by omega) h _)⟩
      next =>
        split
        next h =>
          exact ⟨_, _, rfl, hbackslash, fun hread =>
            readQuoted?_escape hread rfl (by decide) (hcode 4 (by omega) h _)⟩
        next =>
          exact ⟨_, _, rfl, hbackslash, fun hread =>
            readQuoted?_escape hread rfl (by decide) (hcode 8 (by omega) (toNat_lt c) _)⟩

theorem doubleQuotedChar_ne_nil (c : Char) : doubleQuotedChar c ≠ [] := by
  by_cases hspace : c = ' '
  · subst hspace
    decide
  · obtain ⟨first, more, hfirst, -⟩ := readQuoted?_doubleQuotedChar hspace
    rw [hfirst]
    exact List.cons_ne_nil first more

theorem flatMap_doubleQuotedChar_spaces {gap : List Char} (h : ∀ c ∈ gap, c = ' ') :
    gap.flatMap doubleQuotedChar = gap := by
  have hgap : ∀ c ∈ gap, doubleQuotedChar c = [c] := fun c hc => h c hc ▸ doubleQuotedChar_space
  rw [List.flatMap_congr hgap, List.flatMap_singleton']

/-- What is written after the opening quote. -/
def doubleBody (cs : List Char) : List Char := cs.flatMap doubleQuotedChar ++ ['"']

theorem doubleQuoted_eq (cs : List Char) : doubleQuoted cs = '"' :: doubleBody cs := rfl

theorem doubleBody_append (front back : List Char) :
    doubleBody (front ++ back) = front.flatMap doubleQuotedChar ++ doubleBody back := by
  simp [doubleBody]

theorem head_doubleBody {cs : List Char} (h : ∀ c ∈ cs.head?, c ≠ ' ') (rest : List Char) :
    ∀ c ∈ (doubleBody cs ++ rest).head?, isGap c = false := by
  cases cs with
  | nil =>
    rintro c ⟨⟩
    decide
  | cons d cs =>
    obtain ⟨first, more, hfirst, hgap, -⟩ := readQuoted?_doubleQuotedChar (h d rfl)
    rw [doubleBody, List.flatMap_cons, hfirst]
    rintro c ⟨⟩
    exact hgap

theorem readQuoted?_doubleBody (cs rest : List Char) {fuel : Nat} (hfuel : cs.length < fuel) :
    readQuoted? '"' fuel (doubleBody cs ++ rest) = some (cs, rest) := by
  -- By induction on the length of the text, a gap or a character at a time.
  induction fuel generalizing cs with
  | zero => cases hfuel
  | succ fuel ih =>
    obtain ⟨gap, back, rfl, hgap, hback⟩ := Text.exists_span (fun c => decide (c = ' ')) cs
    have hgap : ∀ c ∈ gap, c = ' ' := by simpa using hgap
    have hback : ∀ c ∈ back.head?, c ≠ ' ' := by simpa using hback
    rw [doubleBody_append, flatMap_doubleQuotedChar_spaces hgap, List.append_assoc]
    by_cases hne : gap = []
    · subst hne
      cases back with
      | nil => exact readQuoted?_close (by decide) (by simp)
      | cons c back =>
        obtain ⟨first, more, hfirst, -, hstep⟩ := readQuoted?_doubleQuotedChar (hback c rfl)
        have hread := ih back (Nat.lt_of_succ_lt_succ hfuel)
        rw [List.nil_append, ← List.singleton_append, doubleBody_append]
        simpa [hfirst] using hstep hread
    · exact readQuoted?_spaces (ih back (length_lt_of_append hne hfuel)) hne hgap
        (head_doubleBody hback rest)

theorem quoted?_doubleBody (cs rest : List Char) :
    quoted? '"' (doubleBody cs ++ rest) = some (String.ofList cs, rest) := by
  have hfuel : cs.length < (doubleBody cs ++ rest).length + 1 := by
    have := length_le_flatMap doubleQuotedChar_ne_nil cs
    simp only [doubleBody, List.length_append]
    omega
  rw [quoted?, readQuoted?_doubleBody cs rest hfuel]
  rfl

end TableQuery.Yaml

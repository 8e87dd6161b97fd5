import Mathlib.Data.List.Basic
import TableQuery.Proofs.Yaml.Character
import TableQuery.Yaml.Plain

/-!
# Plain text is read back

Text that may be written plain is read as it is, up to the line break after it: no word in it ends
in a colon and none begins a comment.
-/

namespace TableQuery.Yaml

theorem hasInnerIndicator_cons (c : Char) (cs : List Char) : hasInnerIndicator (c :: cs) =
    (c = ' ' && cs.head? = some '#' || c = ':' && endsWord cs || hasInnerIndicator cs) := by
  rw [hasInnerIndicator.eq_def]
  split
  next h => cases h
  next h => cases h; simp
  next h => cases h; simp
  next hcomment hcolon h =>
    cases h
    have hspace : ¬(c = ' ' ∧ cs.head? = some '#') := by
      rintro ⟨rfl, hhead⟩
      obtain ⟨more, rfl⟩ := List.head?_eq_some_iff.mp hhead
      exact hcomment more rfl rfl
    simp_all

/-- Plain text from the middle of a line on. -/
structure IsPlainTail (cs : List Char) : Prop where
  gaps : ∀ c ∈ cs, isGap c = true → c = ' '
  ending : ∀ c ∈ cs.getLast?, c ≠ ' '
  words : hasInnerIndicator cs = false

theorem IsPlainTail.of_append {front back : List Char} (h : IsPlainTail (front ++ back)) :
    IsPlainTail back := by
  refine ⟨fun c hc => h.gaps c (List.mem_append_right _ hc), fun c hc => h.ending c ?_, ?_⟩
  · rw [List.getLast?_append, Option.mem_def.mp hc]
    rfl
  · refine eq_false_of_append (fun c cs hwords => ?_) h.words
    rw [hasInnerIndicator_cons, Bool.or_eq_false_iff] at hwords
    exact hwords.2

theorem endsWord_append_break (cs after : List Char) :
    endsWord (cs ++ '\n' :: after) = endsWord cs := by
  cases cs <;> rfl

theorem takeWord?_of_plain {word back after : List Char} (hword : ∀ c ∈ word, isGap c = false)
    (hback : ∀ c ∈ back.head?, isGap c = true) (hwords : hasInnerIndicator (word ++ back) = false) :
    takeWord? false (word ++ (back ++ '\n' :: after)) = some (word, back ++ '\n' :: after) := by
  induction word with
  | nil =>
    cases back with
    | nil => rfl
    | cons c back => simp [takeWord?, hback c rfl]
  | cons c word ih =>
    obtain ⟨hc, hword⟩ := List.forall_mem_cons.mp hword
    rw [List.cons_append, hasInnerIndicator_cons, Bool.or_eq_false_iff, Bool.or_eq_false_iff]
      at hwords
    have hcolon : (c = ':' && endsWord (word ++ (back ++ '\n' :: after))) = false := by
      rw [← List.append_assoc, endsWord_append_break]
      exact hwords.1.2
    rw [List.cons_append, takeWord?, ih hword hwords.2, hc, hcolon]
    rfl

theorem hasEarlyTab_of_spaces {gap : List Char} (h : ∀ c ∈ gap, c = ' ') (margin : Nat) :
    hasEarlyTab margin none gap = false := by
  induction gap with
  | nil => rfl
  | cons c gap ih =>
    obtain ⟨rfl, hgap⟩ := List.forall_mem_cons.mp h
    simpa [hasEarlyTab, isBreak_space] using ih hgap

/-- The gap after the text is a line break in front of a line that is not indented. -/
theorem readPlain?_last {word after : List Char} (hword : ∀ c ∈ word, isGap c = false)
    (hwords : hasInnerIndicator word = false) (hafter : ∀ c ∈ after.head?, isGap c = false)
    (fuel : Nat) :
    readPlain? false 1 (fuel + 1) (word ++ '\n' :: after) = some ⟨word, true, after⟩ := by
  have htake : takeWord? false (word ++ '\n' :: after) = some (word, '\n' :: after) :=
    @takeWord?_of_plain word [] after hword (by simp) (by simpa using hwords)
  have hgap : takeGap ('\n' :: after) = (['\n'], after) :=
    @takeGap_append ['\n'] after (List.forall_mem_singleton.mpr (by decide)) hafter
  have htab : hasEarlyTab 1 none ['\n'] = false := by decide
  have hstop : stopsAt false 1 ['\n'] after = true := by simp [stopsAt, isBreak_lineFeed, lastLine]
  simp [readPlain?, htake, hgap, htab, hstop, isBreak_lineFeed]

theorem readPlain?_spaces {word gap rest : List Char} {fuel : Nat} {more : Plain}
    (htake : takeWord? false (word ++ (gap ++ rest)) = some (word, gap ++ rest))
    (hgap : ∀ c ∈ gap, c = ' ') (hne : gap ≠ [])
    (hrest : ∀ c ∈ rest.head?, isGap c = false ∧ c ≠ '#')
    (hread : readPlain? false 1 fuel rest = some more) (hmore : more.text ≠ []) :
    readPlain? false 1 (fuel + 1) (word ++ (gap ++ rest)) =
      some { more with text := word ++ (gap ++ more.text) } := by
  have hspaces : takeGap (gap ++ rest) = (gap, rest) :=
    takeGap_append (fun c hc => hgap c hc ▸ by decide) fun c hc => (hrest c hc).1
  have hbreaks : ∀ c ∈ gap, isBreak c = false := fun c hc => hgap c hc ▸ isBreak_space
  have hcomment : rest.head? ≠ some '#' := fun h => (hrest '#' h).2 rfl
  have hmarker : reachesMarker gap rest = false :=
    reachesMarker_eq_false rest fun c hc => hbreaks c (List.mem_of_mem_getLast? hc)
  have hany : gap.any isBreak = false := List.any_eq_false.mpr fun c hc => by simp [hbreaks c hc]
  have hstop : stopsAt false 1 gap rest = false := by
    rw [stopsAt, hmarker, hany]
    simp [hcomment]
  simp [readPlain?, htake, hspaces, hasEarlyTab_of_spaces hgap, hne, hstop, hread, hmore,
    foldGap_of_no_breaks hbreaks]

theorem IsPlainTail.head_of_spaces {gap rest : List Char} (h : IsPlainTail (gap ++ rest))
    (hne : gap ≠ []) (hgap : ∀ c ∈ gap, c = ' ') (hrest : ∀ c ∈ rest.head?, c ≠ ' ') :
    rest ≠ [] ∧ ∀ c ∈ rest.head?, isGap c = false ∧ c ≠ '#' := by
  have hlast : gap = gap.dropLast ++ [' '] := by
    rw [← hgap _ (List.getLast_mem hne), List.dropLast_append_getLast]
  rw [hlast, List.append_assoc] at h
  have htail : IsPlainTail (' ' :: rest) := h.of_append
  refine ⟨?_, fun c hc => ⟨eq_false_of_ne_true fun hc' => ?_, ?_⟩⟩
  · rintro rfl
    exact htail.ending ' ' rfl rfl
  · exact hrest c hc (htail.gaps c (List.mem_cons_of_mem _ (List.mem_of_mem_head? hc)) hc')
  · rintro rfl
    have hwords := htail.words
    rw [hasInnerIndicator_cons, Option.mem_def.mp hc] at hwords
    simp at hwords

theorem readPlain?_of_tail {cs after : List Char} (h : IsPlainTail cs)
    (hafter : ∀ c ∈ after.head?, isGap c = false) {fuel : Nat} (hfuel : cs.length < fuel) :
    readPlain? false 1 fuel (cs ++ '\n' :: after) = some ⟨cs, true, after⟩ := by
  -- By induction on the length of the text, a word and the spaces behind it at a time.
  induction fuel generalizing cs with
  | zero => cases hfuel
  | succ fuel ih =>
    obtain ⟨word, back, rfl, hword, hback⟩ := Text.exists_span (fun c => !isGap c) cs
    obtain ⟨gap, rest, rfl, hgap, hrest⟩ := Text.exists_span (fun c => decide (c = ' ')) back
    have hword : ∀ c ∈ word, isGap c = false := by simpa using hword
    have hgap : ∀ c ∈ gap, c = ' ' := by simpa using hgap
    have hrest : ∀ c ∈ rest.head?, c ≠ ' ' := by simpa using hrest
    by_cases hne : gap = []
    · -- The word ends with the text, since a gap in the text begins with a space.
      subst hne
      have hnil : rest = [] := by
        cases rest with
        | nil => rfl
        | cons c rest =>
          have hc : isGap c = true := by simpa using hback c rfl
          exact absurd (h.gaps c (by simp) hc) (hrest c rfl)
      subst hnil
      simpa using readPlain?_last hword (by simpa using h.words) hafter fuel
    · have htail : IsPlainTail (gap ++ rest) := h.of_append
      obtain ⟨hsome, hhead⟩ := htail.head_of_spaces hne hgap hrest
      have hlength : rest.length < fuel := by
        have := List.length_pos_iff.mpr hne
        simp only [List.length_append] at hfuel
        omega
      have htake :=
        @takeWord?_of_plain word (gap ++ rest) after hword (by simpa using hback) h.words
      simp only [List.append_assoc] at htake ⊢
      refine readPlain?_spaces htake hgap hne ?_ (ih htail.of_append hlength) hsome
      rwa [List.head?_append_of_ne_nil rest hsome]

theorem isPlainTail_of_isPlain {cs : List Char} (h : isPlain cs = true) : IsPlainTail cs := by
  simp only [isPlain, Bool.and_eq_true, List.all_eq_true, Bool.not_eq_true', List.any_eq_false,
    bne_iff_ne] at h
  obtain ⟨⟨⟨⟨⟨hprintable, hbreak⟩, -⟩, hlast⟩, -⟩, hwords⟩ := h
  refine ⟨fun c hc => eq_space_of_isGap (hprintable c hc) (by simpa using hbreak c hc), ?_, hwords⟩
  rintro _ hc rfl
  exact hlast hc

theorem plain?_of_isPlain {cs after : List Char} (h : isPlain cs = true)
    (hafter : BeginsToken after) :
    plain? false 1 (cs ++ '\n' :: after) = some ⟨cs, true, after⟩ :=
  readPlain?_of_tail (isPlainTail_of_isPlain h) hafter.not_isGap
    (by simp only [List.length_append]; omega)

/-! ## Where plain text begins -/

theorem head_of_isPlain {c : Char} {cs : List Char} (h : isPlain (c :: cs) = true) :
    isGap c = false ∧ isIndicator c = false ∧ c ≠ '\ufeff' ∧
      (endsWord cs = true → c ≠ '-' ∧ c ≠ '?' ∧ c ≠ ':') := by
  simp only [isPlain, Bool.and_eq_true, List.all_eq_true, Bool.not_eq_true', List.any_eq_false,
    bne_iff_ne, List.head?_cons, Option.some.injEq, ne_eq] at h
  obtain ⟨⟨⟨⟨⟨hprintable, hbreak⟩, hspace⟩, -⟩, hbegins⟩, -⟩ := h
  have hc := hprintable c List.mem_cons_self
  have hindicator : isIndicator c = false ∧ (endsWord cs = true → c ≠ '-' ∧ c ≠ '?' ∧ c ≠ ':') := by
    unfold beginsWithIndicator at hbegins
    split at hbegins
    next => cases hbegins
    next => cases hbegins
    next heq =>
      cases heq
      simp only [Bool.or_eq_false_iff, Bool.and_eq_false_iff, decide_eq_false_iff_not] at hbegins
      exact ⟨hbegins.1, fun hword => by simp_all⟩
    next heq => cases heq
  exact ⟨isGap_eq_false hc hspace (by simpa using hbreak c List.mem_cons_self), hindicator.1,
    ne_of_test hc (by decide), hindicator.2⟩

theorem isMarker_of_isPlain {cs : List Char} (h : isPlain cs = true) {mark : Char}
    (hmark : mark = '-' ∨ mark = '.') (after : List Char) :
    isMarker mark (cs ++ '\n' :: after) = false := by
  simp only [isPlain, Bool.and_eq_true, Bool.not_eq_true'] at h
  have hbegins := h.1.2
  rcases cs with _ | ⟨c₁, _ | ⟨c₂, _ | ⟨c₃, cs⟩⟩⟩
  all_goals rcases hmark with rfl | rfl <;> simp [isMarker]
  all_goals
    rintro rfl rfl rfl
    simp [beginsWithIndicator] at hbegins

end TableQuery.Yaml

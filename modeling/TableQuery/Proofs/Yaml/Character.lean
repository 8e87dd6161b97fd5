import TableQuery.Proofs.Text.Span
import TableQuery.Yaml.Printer

/-!
# Characters of written YAML

All that is written is printable. A printable gap is made of spaces, line feeds and separators of
lines and paragraphs, so reading a text line by line finds the breaks that were written.
-/

namespace TableQuery.Yaml

/-! ## Printable characters -/

theorem isAllowed_of_isPrintable {c : Char} (h : isPrintable c = true) : isAllowed c = true := by
  simp only [isPrintable, isAllowed, Bool.or_eq_true, Bool.and_eq_true, decide_eq_true_eq] at h ⊢
  omega

theorem ne_of_test {test : Char → Bool} {c d : Char} (hc : test c = true) (hd : test d = false) :
    c ≠ d := by
  rintro rfl
  rw [hc] at hd
  cases hd

theorem isBlank_eq_false {c : Char} (h : isPrintable c = true) (hspace : c ≠ ' ') :
    isBlank c = false := by
  have htab : c ≠ '\t' := ne_of_test h (by decide)
  simp [isBlank, hspace, htab]

theorem eq_space_of_isGap {c : Char} (h : isPrintable c = true) (hbreak : isBreak c = false)
    (hgap : isGap c = true) : c = ' ' := by
  by_contra hspace
  rw [isGap, isBlank_eq_false h hspace, hbreak] at hgap
  cases hgap

theorem isGap_eq_false {c : Char} (h : isPrintable c = true) (hspace : c ≠ ' ')
    (hbreak : isBreak c = false) : isGap c = false :=
  eq_false_of_ne_true fun hgap => hspace (eq_space_of_isGap h hbreak hgap)

theorem not_isBreak {c : Char} (h : isGap c = false) : isBreak c = false :=
  (Bool.or_eq_false_iff.mp h).2

theorem isBreak_lineFeed : isBreak '\n' = true := by decide

theorem isBreak_space : isBreak ' ' = false := by decide

theorem unifyBreaks_of_isPrintable {cs : List Char} (h : ∀ c ∈ cs, isPrintable c = true) :
    unifyBreaks cs = cs := by
  induction cs with
  | nil => rfl
  | cons c cs ih =>
    obtain ⟨hc, hcs⟩ := List.forall_mem_cons.mp h
    have hreturn : c ≠ '\r' := ne_of_test hc (by decide)
    have hnext : c ≠ '\u0085' := ne_of_test hc (by decide)
    rw [unifyBreaks.eq_3 _ _ (by simp [hreturn]), ih hcs]
    simp [hreturn, hnext]

/-- What a scan does not find in a text is in no tail of it. -/
theorem eq_false_of_append {scan : List Char → Bool}
    (hstep : ∀ c cs, scan (c :: cs) = false → scan cs = false) {front back : List Char}
    (h : scan (front ++ back) = false) : scan back = false := by
  induction front with
  | nil => exact h
  | cons c front ih => exact ih (hstep c _ h)

/-! ## Gaps -/

theorem takeGap_append {gap after : List Char} (hgap : ∀ c ∈ gap, isGap c = true)
    (hafter : ∀ c ∈ after.head?, isGap c = false) : takeGap (gap ++ after) = (gap, after) := by
  rw [takeGap, Text.takeWhile_span hgap hafter, Text.dropWhile_span hgap hafter]

theorem foldGap_of_no_breaks {gap : List Char} (h : ∀ c ∈ gap, isBreak c = false) :
    foldGap gap = gap := by
  have hnone : gap.filter isBreak = [] := List.filter_eq_nil_iff.mpr fun c hc => by simp [h c hc]
  rw [foldGap, hnone]

theorem foldGap_of_separators {breaks indent : List Char} (hne : breaks ≠ [])
    (hbreaks : ∀ c ∈ breaks, isBreak c = true) (hfeed : '\n' ∉ breaks)
    (hindent : ∀ c ∈ indent, isBreak c = false) : foldGap (breaks ++ indent) = breaks := by
  have hkept : (breaks ++ indent).filter isBreak = breaks := by
    rw [List.filter_append, List.filter_eq_self.mpr hbreaks,
      List.filter_eq_nil_iff.mpr fun c hc => by simp [hindent c hc], List.append_nil]
  obtain ⟨c, more, rfl⟩ := List.exists_cons_of_ne_nil hne
  have hc : c ≠ '\n' := fun h => hfeed (h ▸ List.mem_cons_self)
  rw [foldGap, hkept]
  simp [hc]

theorem reachesMarker_eq_false {gap : List Char} (after : List Char)
    (h : ∀ c ∈ gap.getLast?, isBreak c = false) : reachesMarker gap after = false := by
  have hlast : gap.getLast?.any isBreak = false := by
    cases hgap : gap.getLast? with
    | none => rfl
    | some c => exact h c hgap
  rw [reachesMarker, hlast, Bool.false_and]

/-! ## What comes after an entry -/

/-- The text is at its end, or a token begins right at its front. -/
def BeginsToken (cs : List Char) : Prop :=
  ∀ c ∈ cs.head?, isGap c = false ∧ c ≠ '#' ∧ c ≠ '\ufeff'

theorem BeginsToken.not_isGap {cs : List Char} (h : BeginsToken cs) :
    ∀ c ∈ cs.head?, isGap c = false := fun c hc => (h c hc).1

end TableQuery.Yaml

import Mathlib.Data.List.Basic
import TableQuery.Proofs.Yaml.Character

/-!
# Indented lines

Every line of a text that is not empty is written two spaces further in, and the breaks between the
lines stay where they are.
-/

namespace TableQuery.Yaml

theorem indentLines_break {c : Char} (hc : isBreak c = true) (atStart : Bool) (cs : List Char) :
    indentLines atStart (c :: cs) = c :: indentLines true cs := by
  rw [indentLines, if_pos hc]

theorem indentLines_breaks {breaks : List Char} (h : ∀ c ∈ breaks, isBreak c = true)
    (cs : List Char) : indentLines true (breaks ++ cs) = breaks ++ indentLines true cs := by
  induction breaks with
  | nil => rfl
  | cons c breaks ih =>
    obtain ⟨hc, hbreaks⟩ := List.forall_mem_cons.mp h
    rw [List.cons_append, indentLines_break hc, ih hbreaks]
    rfl

theorem indentLines_line {line : List Char} (h : ∀ c ∈ line, isBreak c = false) (cs : List Char) :
    indentLines false (line ++ cs) = line ++ indentLines false cs := by
  induction line with
  | nil => rfl
  | cons c line ih =>
    obtain ⟨hc, hline⟩ := List.forall_mem_cons.mp h
    simp [indentLines, hc, ih hline]

theorem indentLines_true {c : Char} (hc : isBreak c = false) (cs : List Char) :
    indentLines true (c :: cs) = ' ' :: ' ' :: indentLines false (c :: cs) := by
  simp [indentLines, hc]

theorem indentLines_append_break {b : Char} (hb : isBreak b = true) (atStart : Bool)
    (cs : List Char) : indentLines atStart (cs ++ [b]) = indentLines atStart cs ++ [b] := by
  induction cs generalizing atStart with
  | nil => simp [indentLines, hb]
  | cons c cs ih =>
    rw [List.cons_append, indentLines, indentLines]
    split
    · rw [ih]
      rfl
    · rw [ih, List.append_assoc]

theorem getLast?_indentLines (atStart : Bool) (cs : List Char) :
    (indentLines atStart cs).getLast? = cs.getLast? := by
  induction cs generalizing atStart with
  | nil => rfl
  | cons c cs ih =>
    rw [indentLines]
    split
    · rw [List.getLast?_cons, List.getLast?_cons, ih]
    · rw [List.getLast?_append, ih, List.getLast?_cons]
      split <;> cases cs.getLast? <;> rfl

theorem length_le_indentLines (atStart : Bool) (cs : List Char) :
    cs.length ≤ (indentLines atStart cs).length := by
  induction cs generalizing atStart with
  | nil => exact Nat.le_refl 0
  | cons c cs ih =>
    unfold indentLines
    split
    · exact Nat.succ_le_succ (ih true)
    · have := ih false
      split <;> simp <;> omega

/-! ## The end of an entry -/

/-- What comes after a scalar in an entry: the line break, unless the scalar ends with one. -/
def lineEnding (written : List Char) : List Char :=
  if written.getLast?.any isBreak then [] else ['\n']

theorem exists_break (written : List Char) :
    ∃ front b, written ++ lineEnding written = front ++ [b] ∧ isBreak b = true := by
  unfold lineEnding
  split
  next hlast =>
    obtain ⟨b, hb, hbreak⟩ := (Option.any_eq_true _ _).mp hlast
    exact ⟨written.dropLast, b, by rw [List.append_nil, List.dropLast_append_getLast? b hb], hbreak⟩
  next => exact ⟨written, '\n', rfl, isBreak_lineFeed⟩

theorem indentLines_append_lineEnding (cs : List Char) :
    indentLines true cs ++ lineEnding cs = indentLines true (cs ++ lineEnding cs) := by
  rw [lineEnding]
  split
  · simp
  · rw [indentLines_append_break isBreak_lineFeed]

theorem isPrintable_lineEnding (cs : List Char) : ∀ c ∈ lineEnding cs, isPrintable c = true := by
  rw [lineEnding]
  split
  · simp
  · exact List.forall_mem_singleton.mpr (by decide)

end TableQuery.Yaml

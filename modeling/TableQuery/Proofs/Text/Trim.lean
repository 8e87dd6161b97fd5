import Mathlib.Data.List.DropRight
import TableQuery.Text.Blank

/-!
# Trimmed text

What is left of a text after trimming has no blank at its ends, and a text without blanks there stays
as it is.
-/

namespace TableQuery.Text

def IsTrimmed (cs : List Char) : Prop :=
  (∀ c ∈ cs.head?, isBlank c = false) ∧ ∀ c ∈ cs.getLast?, isBlank c = false

theorem head_of_prefix {α : Type} {xs ys : List α} {x : α} (h : xs <+: ys) (hx : x ∈ xs.head?) :
    x ∈ ys.head? := by
  obtain ⟨zs, rfl⟩ := h
  rw [List.head?_append, Option.mem_def.mp hx]
  rfl

theorem trimChars_eq (cs : List Char) :
    trimChars cs = (cs.dropWhile isBlank).rdropWhile isBlank := rfl

theorem isTrimmed_trimChars (cs : List Char) : IsTrimmed (trimChars cs) := by
  rw [trimChars_eq]
  constructor
  · intro c hc
    have hfirst : c ∈ (cs.dropWhile isBlank).head? := head_of_prefix (List.rdropWhile_prefix _ _) hc
    have hnot := List.head?_dropWhile_not isBlank cs
    rwa [Option.mem_def.mp hfirst] at hnot
  · intro c hc
    obtain ⟨hne, rfl⟩ := List.mem_getLast?_eq_getLast hc
    exact eq_false_of_ne_true (List.rdropWhile_last_not _ _ hne)

theorem trimChars_of_isTrimmed {cs : List Char} (h : IsTrimmed cs) : trimChars cs = cs := by
  obtain ⟨hfirst, hlast⟩ := h
  have hdrop : cs.dropWhile isBlank = cs := by
    cases cs with
    | nil => rfl
    | cons c cs => exact List.dropWhile_cons_of_neg (by simp [hfirst c rfl])
  rw [trimChars_eq, hdrop]
  refine (List.rdropWhile_eq_self_iff).mpr fun hne => ?_
  simp [hlast _ (List.getLast_mem_getLast? hne)]

theorem trimChars_eq_nil_iff (cs : List Char) : trimChars cs = [] ↔ ∀ c ∈ cs, isBlank c = true := by
  rw [trimChars_eq, List.rdropWhile_eq_nil_iff]
  constructor
  · intro h c hc
    rw [← List.takeWhile_append_dropWhile (p := isBlank) (l := cs)] at hc
    rcases List.mem_append.mp hc with hc | hc
    · exact List.mem_takeWhile_imp hc
    · exact h c hc
  · intro h c hc
    exact h c ((List.dropWhile_sublist _).subset hc)

theorem mem_of_mem_trimChars {c : Char} {cs : List Char} (h : c ∈ trimChars cs) : c ∈ cs :=
  (List.dropWhile_sublist _).subset ((List.rdropWhile_prefix _ _).subset h)

/-! ## Texts -/

@[simp] theorem toList_trim (s : String) : (trim s).toList = trimChars s.toList :=
  String.toList_ofList

theorem trim_of_isTrimmed {s : String} (h : IsTrimmed s.toList) : trim s = s := by
  rw [trim, trimChars_of_isTrimmed h, String.ofList_toList]

theorem trim_trim (s : String) : trim (trim s) = trim s := by
  refine trim_of_isTrimmed ?_
  rw [toList_trim]
  exact isTrimmed_trimChars s.toList

theorem trim_ne_empty_iff (s : String) : trim s ≠ "" ↔ ∃ c ∈ s.toList, isBlank c = false := by
  rw [ne_eq, trim, String.ofList_eq_empty_iff, trimChars_eq_nil_iff]
  simp

theorem not_mem_trim {c : Char} {s : String} (h : c ∉ s.toList) : c ∉ (trim s).toList := by
  rw [toList_trim]
  exact fun hmem => h (mem_of_mem_trimChars hmem)

end TableQuery.Text

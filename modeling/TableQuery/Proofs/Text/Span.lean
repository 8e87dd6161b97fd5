import Mathlib.Data.List.TakeWhile

/-!
# Spans of a text

A text splits at the first character without a property: all in front of it have the property, and
taking and dropping characters finds this place again.
-/

namespace TableQuery.Text

variable {α : Type} {p : α → Bool}

theorem exists_span (p : α → Bool) (cs : List α) : ∃ front back, cs = front ++ back ∧
    (∀ c ∈ front, p c = true) ∧ ∀ c ∈ back.head?, p c = false := by
  refine ⟨cs.takeWhile p, cs.dropWhile p, List.takeWhile_append_dropWhile.symm,
    fun c => List.mem_takeWhile_imp, fun c hc => ?_⟩
  have hnot := List.head?_dropWhile_not p cs
  rwa [Option.mem_def.mp hc] at hnot

theorem exists_span_end (p : α → Bool) (cs : List α) : ∃ front back, cs = front ++ back ∧
    (∀ c ∈ front.getLast?, p c = false) ∧ ∀ c ∈ back, p c = true := by
  obtain ⟨back, front, hcs, hback, hfront⟩ := exists_span p cs.reverse
  refine ⟨front.reverse, back.reverse, ?_, by simpa using hfront, by simpa using hback⟩
  rw [← List.reverse_append, ← hcs, List.reverse_reverse]

/-! ## The place where a text splits -/

theorem takeWhile_append_of_head {rest : List α} (h : ∀ a ∈ rest.head?, p a = false)
    (cs : List α) : (cs ++ rest).takeWhile p = cs.takeWhile p := by
  induction cs with
  | nil => cases rest <;> simp_all
  | cons a cs ih => by_cases ha : p a <;> simp [ha, ih]

theorem dropWhile_append_of_head {rest : List α} (h : ∀ a ∈ rest.head?, p a = false)
    (cs : List α) : (cs ++ rest).dropWhile p = cs.dropWhile p ++ rest := by
  induction cs with
  | nil => cases rest <;> simp_all
  | cons a cs ih => by_cases ha : p a <;> simp [ha, ih]

variable {front back : List α}

theorem takeWhile_span (hfront : ∀ c ∈ front, p c = true) (hback : ∀ c ∈ back.head?, p c = false) :
    (front ++ back).takeWhile p = front := by
  rw [takeWhile_append_of_head hback, List.takeWhile_eq_self_iff.mpr hfront]

theorem dropWhile_span (hfront : ∀ c ∈ front, p c = true) (hback : ∀ c ∈ back.head?, p c = false) :
    (front ++ back).dropWhile p = back := by
  rw [dropWhile_append_of_head hback, List.dropWhile_eq_nil_iff.mpr hfront, List.nil_append]

end TableQuery.Text

/-! # Cutting text at a separator -/

namespace TableQuery.Text

/-- The parts before and after the first `sep`. -/
def cutChars? (sep : Char) : List Char → Option (List Char × List Char)
  | [] => none
  | c :: rest =>
    if c = sep then some ([], rest)
    else (cutChars? sep rest).map fun (before, after) => (c :: before, after)

/-- The pieces between the separators; a text without one is a single piece. -/
def pieceChars (sep : Char) : List Char → List (List Char)
  | [] => [[]]
  | c :: rest =>
    if c = sep then [] :: pieceChars sep rest
    else
      match pieceChars sep rest with
      | [] => [[c]]
      | piece :: pieces => (c :: piece) :: pieces

def cut? (sep : Char) (s : String) : Option (String × String) :=
  (cutChars? sep s.toList).map fun (before, after) => (String.ofList before, String.ofList after)

/-- The parts before and after the last `sep`. -/
def cutLast? (sep : Char) (s : String) : Option (String × String) :=
  (cutChars? sep s.toList.reverse).map fun (after, before) =>
    (String.ofList before.reverse, String.ofList after.reverse)

def pieces (sep : Char) (s : String) : List String :=
  (pieceChars sep s.toList).map String.ofList

theorem eq_of_cutChars? {sep : Char} {cs before after : List Char}
    (h : cutChars? sep cs = some (before, after)) : cs = before ++ sep :: after ∧ sep ∉ before := by
  induction cs generalizing before with
  | nil => simp [cutChars?] at h
  | cons c rest ih =>
    unfold cutChars? at h
    split at h
    next hc => cases h; simp [hc]
    next hc =>
      obtain ⟨⟨b, a⟩, hcut, heq⟩ := Option.map_eq_some_iff.mp h
      cases heq
      obtain ⟨rfl, hmem⟩ := ih hcut
      exact ⟨rfl, by simp only [List.mem_cons, not_or]; exact ⟨fun h => hc h.symm, hmem⟩⟩

theorem cutChars?_of_not_mem {sep : Char} {cs : List Char} (h : sep ∉ cs) :
    cutChars? sep cs = none := by
  induction cs with
  | nil => rfl
  | cons c rest ih =>
    simp only [List.mem_cons, not_or] at h
    simp [cutChars?, Ne.symm h.1, ih h.2]

theorem cutChars?_append {sep : Char} {before : List Char} (h : sep ∉ before) (after : List Char) :
    cutChars? sep (before ++ sep :: after) = some (before, after) := by
  induction before with
  | nil => simp [cutChars?]
  | cons c rest ih =>
    simp only [List.mem_cons, not_or] at h
    simp [cutChars?, Ne.symm h.1, ih h.2]

theorem cutChars?_eq_some_iff {sep : Char} {cs before after : List Char} :
    cutChars? sep cs = some (before, after) ↔ cs = before ++ sep :: after ∧ sep ∉ before := by
  constructor
  · exact eq_of_cutChars?
  · rintro ⟨rfl, h⟩
    exact cutChars?_append h after

theorem cutChars?_eq_none_iff {sep : Char} {cs : List Char} :
    cutChars? sep cs = none ↔ sep ∉ cs := by
  refine ⟨fun hnone hmem => ?_, cutChars?_of_not_mem⟩
  obtain ⟨before, after, rfl, h⟩ := List.eq_append_cons_of_mem hmem
  rw [cutChars?_append h] at hnone
  cases hnone

theorem toList_join (before after : String) (sep : Char) :
    (before ++ String.singleton sep ++ after).toList = before.toList ++ sep :: after.toList := by
  simp

/-- A text is cut at the first separator. -/
theorem cut?_eq_some_iff {sep : Char} {s before after : String} :
    cut? sep s = some (before, after) ↔
      s = before ++ String.singleton sep ++ after ∧ sep ∉ before.toList := by
  rw [← String.toList_inj, toList_join, ← cutChars?_eq_some_iff, cut?, Option.map_eq_some_iff]
  constructor
  · rintro ⟨⟨b, a⟩, hcut, heq⟩
    cases heq
    simpa using hcut
  · intro hcut
    exact ⟨_, hcut, by simp⟩

theorem cut?_eq_none_iff {sep : Char} {s : String} : cut? sep s = none ↔ sep ∉ s.toList := by
  rw [cut?, Option.map_eq_none_iff, cutChars?_eq_none_iff]

theorem cutLast?_eq_none_iff {sep : Char} {s : String} :
    cutLast? sep s = none ↔ sep ∉ s.toList := by
  rw [cutLast?, Option.map_eq_none_iff, cutChars?_eq_none_iff, List.mem_reverse]

/-- A text is cut at the last separator. -/
theorem cutLast?_eq_some_iff {sep : Char} {s before after : String} :
    cutLast? sep s = some (before, after) ↔
      s = before ++ String.singleton sep ++ after ∧ sep ∉ after.toList := by
  have hreverse : s.toList = before.toList ++ sep :: after.toList ↔
      s.toList.reverse = after.toList.reverse ++ sep :: before.toList.reverse := by
    rw [← List.reverse_inj]
    simp
  rw [← String.toList_inj, toList_join, hreverse, ← List.mem_reverse, ← cutChars?_eq_some_iff,
    cutLast?, Option.map_eq_some_iff]
  constructor
  · rintro ⟨⟨a, b⟩, hcut, heq⟩
    cases heq
    simpa using hcut
  · intro hcut
    exact ⟨_, hcut, by simp⟩

theorem pieceChars_of_not_mem {sep : Char} {cs : List Char} (h : sep ∉ cs) :
    pieceChars sep cs = [cs] := by
  induction cs with
  | nil => rfl
  | cons c rest ih =>
    simp only [List.mem_cons, not_or] at h
    simp [pieceChars, Ne.symm h.1, ih h.2]

theorem pieceChars_append {sep : Char} {before : List Char} (h : sep ∉ before)
    (after : List Char) :
    pieceChars sep (before ++ sep :: after) = before :: pieceChars sep after := by
  induction before with
  | nil => simp [pieceChars]
  | cons c rest ih =>
    simp only [List.mem_cons, not_or] at h
    simp [pieceChars, Ne.symm h.1, ih h.2]

theorem not_mem_of_mem_pieceChars {sep : Char} {cs piece : List Char}
    (h : piece ∈ pieceChars sep cs) : sep ∉ piece := by
  induction cs generalizing piece with
  | nil =>
    rw [List.mem_singleton.mp h]
    exact List.not_mem_nil
  | cons c rest ih =>
    unfold pieceChars at h
    split at h
    next hc =>
      rcases List.mem_cons.mp h with rfl | h
      · exact List.not_mem_nil
      · exact ih h
    next hc =>
      split at h
      next => simpa [List.mem_singleton.mp h] using Ne.symm hc
      next first others hpieces =>
        rw [hpieces] at ih
        rcases List.mem_cons.mp h with rfl | h
        · exact List.not_mem_cons_of_ne_of_not_mem (Ne.symm hc) (ih List.mem_cons_self)
        · exact ih (List.mem_cons_of_mem _ h)

theorem not_mem_of_mem_pieces {sep : Char} {s piece : String} (h : piece ∈ pieces sep s) :
    sep ∉ piece.toList := by
  obtain ⟨chars, hchars, rfl⟩ := List.mem_map.mp h
  rw [String.toList_ofList]
  exact not_mem_of_mem_pieceChars hchars

theorem pieceChars_intercalate {sep : Char} {xs : List (List Char)} (hne : xs ≠ [])
    (h : ∀ x ∈ xs, sep ∉ x) : pieceChars sep ([sep].intercalate xs) = xs := by
  induction xs with
  | nil => exact absurd rfl hne
  | cons x xs ih =>
    obtain ⟨hx, hxs⟩ := List.forall_mem_cons.mp h
    cases xs with
    | nil => rw [List.intercalate_singleton, pieceChars_of_not_mem hx]
    | cons y ys =>
      rw [List.intercalate_cons_cons, List.append_assoc, List.singleton_append,
        pieceChars_append hx, ih (List.cons_ne_nil y ys) hxs]

/-- Texts without the separator are the pieces of the text that joins them. -/
theorem pieces_intercalate {sep : Char} {xs : List String} (hne : xs ≠ [])
    (h : ∀ x ∈ xs, sep ∉ x.toList) : pieces sep ((String.singleton sep).intercalate xs) = xs := by
  have hchars : ∀ cs ∈ xs.map String.toList, sep ∉ cs := List.forall_mem_map.mpr h
  unfold pieces
  rw [String.toList_intercalate, String.toList_singleton,
    pieceChars_intercalate (by simpa using hne) hchars, List.map_map]
  simp

/-- Pieces hold no separator, so texts are the pieces of the text that joins them only if they hold
none either. -/
theorem pieces_intercalate_iff {sep : Char} {xs : List String} (hne : xs ≠ []) :
    pieces sep ((String.singleton sep).intercalate xs) = xs ↔ ∀ x ∈ xs, sep ∉ x.toList := by
  constructor
  · intro h x hx
    rw [← h] at hx
    exact not_mem_of_mem_pieces hx
  · exact pieces_intercalate hne

end TableQuery.Text

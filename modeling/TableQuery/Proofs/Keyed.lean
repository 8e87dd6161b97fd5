import TableQuery.Keyed
import TableQuery.Proofs.Result

/-!
# Entries in key order

What is first in a list of ascending entries is first in key order, whoever wrote the entries.
-/

namespace TableQuery

variable {α β : Type}

namespace Entries

theorem ascending_iff {entries : List (String × α)} :
    Ascending entries ↔ (entries.map (·.1)).Pairwise (· < ·) := List.pairwise_map.symm

theorem ofList_of_ascending {entries : List (String × α)} (h : Ascending entries) :
    ofList entries = entries := by
  suffices ∀ read : List (String × α), Ascending (read ++ entries) →
      entries.foldl (fun entries pair => insert pair.1 pair.2 entries) read = read ++ entries from
    this [] h
  clear h
  induction entries with
  | nil => intro read _; exact (List.append_nil read).symm
  | cons e entries ih =>
    intro read hread
    have hlast : ∀ d ∈ read, d.1 < e.1 := fun d hd =>
      (List.pairwise_append.mp hread).2.2 d hd e List.mem_cons_self
    rw [List.foldl_cons, insert_of_last hlast, ih (read ++ [e]) (by simpa using hread)]
    simp

/-- The value fails under its key, and none fails under an earlier key. -/
structure FirstNot (P : α → Prop) (entries : List (String × α)) (key : String) (v : α) : Prop where
  held : get? key entries = some v
  fails : ¬ P v
  earlier : ∀ e ∈ entries, e.1 < key → P e.2

variable {P : α → Prop} {entries : List (String × α)}

theorem FirstNot.split {key : String} {v : α} (h : FirstNot P entries key v)
    (hascending : Ascending entries) :
    ∃ before after, entries = before ++ (key, v) :: after ∧ ∀ e ∈ before, P e.2 := by
  obtain ⟨before, after, rfl⟩ := List.append_of_mem (mem_of_get? h.held)
  refine ⟨before, after, rfl, fun e he => ?_⟩
  have hlt : e.1 < key := (List.pairwise_append.mp hascending).2.2 e he _ List.mem_cons_self
  exact h.earlier e (List.mem_append_left _ he) hlt

theorem all_or_firstNot (h : Ascending entries) :
    (∀ e ∈ entries, P e.2) ∨ ∃ key v, FirstNot P entries key v := by
  induction entries with
  | nil => exact .inl nofun
  | cons e entries ih =>
    obtain ⟨hfirst, hentries⟩ := List.pairwise_cons.mp h
    by_cases he : P e.2
    · rcases ih hentries with hall | ⟨key, v, hheld, hfails, hearlier⟩
      · exact .inl (List.forall_mem_cons.mpr ⟨he, hall⟩)
      · refine .inr ⟨key, v, get?_of_mem h (List.mem_cons_of_mem _ (mem_of_get? hheld)), hfails, ?_⟩
        exact List.forall_mem_cons.mpr ⟨fun _ => he, hearlier⟩
    · refine .inr ⟨e.1, e.2, if_pos rfl, he, ?_⟩
      refine List.forall_mem_cons.mpr ⟨fun hlt => ?_, fun d hd hlt => ?_⟩
      · exact absurd hlt (String.lt_irrefl _)
      · exact absurd (String.lt_trans hlt (hfirst d hd)) (String.lt_irrefl _)

theorem nodup_keys (h : Ascending entries) : (entries.map (·.1)).Nodup := by
  refine (ascending_iff.mp h).imp ?_
  rintro a _ hlt rfl
  exact String.lt_irrefl a hlt

theorem get?_eq_some_iff (hnodup : (entries.map (·.1)).Nodup) {key : String} {v : α} :
    get? key entries = some v ↔ (key, v) ∈ entries := by
  refine ⟨mem_of_get?, fun hmem => ?_⟩
  induction entries with
  | nil => cases hmem
  | cons e entries ih =>
    obtain ⟨hfresh, hnodup⟩ := List.nodup_cons.mp hnodup
    rcases List.mem_cons.mp hmem with rfl | hmem
    · exact if_pos rfl
    · have hne : key ≠ e.1 := fun heq => hfresh (List.mem_map.mpr ⟨(key, v), hmem, heq⟩)
      rw [get?, if_neg hne, ih hnodup hmem]

/-! ## Reading one entry after another -/

section

variable {γ ε : Type} {read : β → String × α → Except ε β}

theorem foldlM_get (get : β → γ) (R : α → γ → Prop) {key : String}
    (hread : ∀ b e b', read b e = .ok b' →
      (e.1 = key → R e.2 (get b')) ∧ (e.1 ≠ key → get b' = get b))
    (hnodup : (entries.map (·.1)).Nodup) {b b' : β} (h : entries.foldlM read b = .ok b') :
    (∃ v, get? key entries = some v ∧ R v (get b')) ∨
      get? key entries = none ∧ get b' = get b := by
  induction entries generalizing b with
  | nil =>
    cases h
    exact .inr ⟨rfl, rfl⟩
  | cons e entries ih =>
    obtain ⟨next, hnext, h⟩ := bind_eq_ok_iff.mp h
    obtain ⟨hfresh, hnodup⟩ := List.nodup_cons.mp hnodup
    obtain ⟨hsame, hother⟩ := hread b e next hnext
    have hrest := ih hnodup h
    by_cases hkey : e.1 = key
    · -- The key does not come again, so later entries keep what this one gave.
      rcases hrest with ⟨v, hv, -⟩ | ⟨-, hget⟩
      · subst hkey
        exact absurd (List.mem_map_of_mem (mem_of_get? hv)) hfresh
      · exact .inl ⟨e.2, if_pos hkey.symm, hget ▸ hsame hkey⟩
    · rw [get?, if_neg (Ne.symm hkey), ← hother hkey]
      exact hrest

theorem exists_foldlM_iff {Fits : String × α → Prop}
    (hread : ∀ e ∈ entries, ∀ b, (∃ b', read b e = .ok b') ↔ Fits e) (b : β) :
    (∃ b', entries.foldlM read b = .ok b') ↔ ∀ e ∈ entries, Fits e := by
  induction entries generalizing b with
  | nil => simp [pure, Except.pure]
  | cons e entries ih =>
    obtain ⟨he, hentries⟩ := List.forall_mem_cons.mp hread
    rw [List.forall_mem_cons]
    constructor
    · rintro ⟨b', h⟩
      obtain ⟨next, hnext, h⟩ := bind_eq_ok_iff.mp h
      exact ⟨(he b).mp ⟨next, hnext⟩, (ih hentries next).mp ⟨b', h⟩⟩
    · rintro ⟨hfits, hrest⟩
      obtain ⟨next, hnext⟩ := (he b).mpr hfits
      obtain ⟨b', h⟩ := (ih hentries next).mpr hrest
      exact ⟨b', bind_eq_ok_iff.mpr ⟨next, hnext, h⟩⟩

end

/-! ## Values in the order of their keys -/

theorem nodup_keys_zip {keys : List String} (h : keys.Nodup) (values : List α) :
    ((keys.zip values).map (·.1)).Nodup := by
  induction keys generalizing values with
  | nil => exact List.nodup_nil
  | cons key keys ih =>
    cases values with
    | nil => exact List.nodup_nil
    | cons v values =>
      obtain ⟨hfresh, hkeys⟩ := List.nodup_cons.mp h
      refine List.nodup_cons.mpr ⟨fun hmem => ?_, ih hkeys values⟩
      obtain ⟨e, he, rfl⟩ := List.mem_map.mp hmem
      exact hfresh (List.of_mem_zip he).1

/-- Where items give the first of some values and the defaults of their keys give the others, the
items are followed by the last of the defaults. -/
theorem completes_iff {defaults : List (String × α)} (hnodup : (defaults.map (·.1)).Nodup)
    (items values : List α) (hlength : values.length = defaults.length) :
    (items.length ≤ defaults.length ∧ ∀ e ∈ (defaults.map (·.1)).zip values,
      (get? e.1 ((defaults.map (·.1)).zip items)).or (get? e.1 defaults) = some e.2) ↔
      ∃ dropped, items ++ dropped = values ∧ dropped <:+ defaults.map (·.2) := by
  induction defaults generalizing items values with
  | nil =>
    obtain rfl := List.length_eq_zero_iff.mp hlength
    simp
  | cons d defaults ih =>
    obtain ⟨w, values, rfl⟩ := List.exists_cons_of_length_eq_add_one hlength
    obtain ⟨hfresh, hnodup⟩ := List.nodup_cons.mp hnodup
    have hrestLength : values.length = defaults.length := Nat.succ.inj hlength
    have hne : ∀ e ∈ (defaults.map (·.1)).zip values, e.1 ≠ d.1 := by
      intro e he heq
      have hkey : e.1 ∈ defaults.map (·.1) := (List.of_mem_zip he).1
      rw [heq] at hkey
      exact hfresh hkey
    rw [List.map_cons, List.map_cons, List.zip_cons_cons, List.forall_mem_cons]
    cases items with
    | nil =>
      have hrest := ih hnodup [] values hrestLength
      simp only [List.zip_nil_right, get?, Option.none_or, List.length_nil, Nat.zero_le, true_and,
        List.nil_append, exists_eq_left, if_true, Option.some.injEq] at hrest ⊢
      constructor
      · rintro ⟨rfl, hvalues⟩
        have hsuffix := hrest.mp fun e he => by
          have he' := hvalues e he
          rwa [if_neg (hne e he)] at he'
        obtain rfl := hsuffix.eq_of_length (by simpa using hrestLength)
        exact List.suffix_rfl
      · intro hsuffix
        obtain ⟨rfl, rfl⟩ := List.cons.inj (hsuffix.eq_of_length (by simpa using hlength))
        refine ⟨rfl, fun e he => ?_⟩
        rw [if_neg (hne e he), hrest.mpr List.suffix_rfl e he]
    | cons item items =>
      have hrest := ih hnodup items values hrestLength
      rw [List.zip_cons_cons, get?, if_pos rfl, Option.some_or, Option.some.injEq]
      constructor
      · rintro ⟨hle, rfl, hvalues⟩
        obtain ⟨dropped, rfl, hsuffix⟩ := hrest.mp ⟨Nat.le_of_succ_le_succ hle, fun e he => by
          have he' := hvalues e he
          rwa [get?, if_neg (hne e he), get?, if_neg (hne e he)] at he'⟩
        exact ⟨dropped, rfl, hsuffix.trans (List.suffix_cons ..)⟩
      · rintro ⟨dropped, hvalues, hsuffix⟩
        rw [List.cons_append, List.cons.injEq] at hvalues
        obtain ⟨rfl, rfl⟩ := hvalues
        have hsuffix' : dropped <:+ defaults.map (·.2) := by
          refine (List.suffix_cons_iff.mp hsuffix).resolve_left fun heq => ?_
          have hlonger := congrArg List.length heq
          simp only [List.length_append, List.length_cons, List.length_map] at hrestLength hlonger
          omega
        obtain ⟨hle, hitems⟩ := hrest.mpr ⟨dropped, rfl, hsuffix'⟩
        refine ⟨Nat.succ_le_succ hle, rfl, fun e he => ?_⟩
        rw [get?, if_neg (hne e he), get?, if_neg (hne e he), hitems e he]

end Entries

namespace Keyed

@[simp] theorem get?_empty (k : String) : (∅ : Keyed α).get? k = none := rfl

theorem empty_merge (m : Keyed α) : (∅ : Keyed α).merge m = m := by
  ext1 k
  rw [get?_merge, get?_empty, Option.or_none]

theorem ofList_entries (m : Keyed α) : ofList m.entries = m := by
  obtain ⟨entries, h⟩ := m
  simp only [ofList, Entries.ofList_of_ascending h]

theorem entries_mapValues (f : α → β) (m : Keyed α) :
    (m.mapValues f).entries = m.entries.map fun e => (e.1, f e.2) :=
  congrFun List.filterMap_eq_map' m.entries

theorem forall_mem_mapValues {f : α → β} {m : Keyed α} {Q : String × β → Prop} :
    (∀ e ∈ (m.mapValues f).entries, Q e) ↔ ∀ e ∈ m.entries, Q (e.1, f e.2) := by
  rw [entries_mapValues]
  exact List.forall_mem_map

theorem get?_mapValues (f : α → β) (m : Keyed α) (key : String) :
    (m.mapValues f).get? key = (m.get? key).map f := by
  rw [mapValues, get?_filterMap]
  exact (Option.map_eq_bind ..).symm

theorem exists_entries_mapValues {f : α → β} {entries : List (String × β)} (h : Ascending entries)
    (hform : ∀ e ∈ entries, ∃ a, e.2 = f a) : ∃ m : Keyed α, (m.mapValues f).entries = entries := by
  have hlist : ∃ es : List (String × α), (es.map fun e => (e.1, f e.2)) = entries := by
    clear h
    induction entries with
    | nil => exact ⟨[], rfl⟩
    | cons e entries ih =>
      obtain ⟨⟨a, ha⟩, hentries⟩ := List.forall_mem_cons.mp hform
      obtain ⟨es, rfl⟩ := ih hentries
      exact ⟨(e.1, a) :: es, by rw [List.map_cons, ← ha]⟩
  obtain ⟨es, rfl⟩ := hlist
  rw [Entries.ascending_iff, List.map_map] at h
  exact ⟨⟨es, Entries.ascending_iff.mpr h⟩, entries_mapValues f _⟩

end Keyed

end TableQuery

/-! # Maps with text keys

A map keeps its entries in ascending key order, so two maps that answer alike are equal.
-/

namespace TableQuery

/-- Entries are in ascending key order, and no key comes twice. -/
def Ascending {α : Type} (entries : List (String × α)) : Prop :=
  entries.Pairwise fun a b => a.1 < b.1

instance {α : Type} (entries : List (String × α)) : Decidable (Ascending entries) :=
  inferInstanceAs (Decidable (entries.Pairwise fun a b => a.1 < b.1))

namespace Entries

variable {α β : Type}

/-- Writes `value` under `key` at its place in the order; an entry of that key is replaced. -/
def insert (key : String) (value : α) : List (String × α) → List (String × α)
  | [] => [(key, value)]
  | (k, v) :: rest =>
    if key < k then (key, value) :: (k, v) :: rest
    else if key = k then (key, value) :: rest
    else (k, v) :: insert key value rest

def erase (key : String) : List (String × α) → List (String × α)
  | [] => []
  | (k, v) :: rest => if key = k then rest else (k, v) :: erase key rest

def get? (key : String) : List (String × α) → Option α
  | [] => none
  | (k, v) :: rest => if key = k then some v else get? key rest

/-- Of several values for one key the last is kept. -/
def ofList (pairs : List (String × α)) : List (String × α) :=
  pairs.foldl (fun entries pair => insert pair.1 pair.2 entries) []

theorem mem_of_mem_insert {key : String} {value : α} {entries : List (String × α)} {e : String × α}
    (h : e ∈ insert key value entries) : e = (key, value) ∨ e ∈ entries := by
  fun_induction insert key value entries with
  | case1 => simp_all
  | case2 => grind
  | case3 => grind
  | case4 => grind

theorem ascending_nil : Ascending ([] : List (String × α)) := List.Pairwise.nil

theorem lt_of_not_lt_of_ne {a b : String} (h : ¬ a < b) (hne : a ≠ b) : b < a := by
  rcases String.le_total a b with hab | hba
  · exact absurd (String.le_antisymm hab (String.not_lt.mp h)) hne
  · exact String.not_le.mp fun hab => hne (String.le_antisymm hab hba)

theorem ascending_insert (key : String) (value : α) {entries : List (String × α)}
    (h : Ascending entries) : Ascending (insert key value entries) := by
  induction entries with
  | nil => simp [insert, Ascending]
  | cons e rest ih =>
    obtain ⟨k, v⟩ := e
    obtain ⟨hk, hrest⟩ := List.pairwise_cons.mp h
    unfold insert
    split
    next hlt =>
      refine List.pairwise_cons.mpr ⟨?_, h⟩
      intro e he
      rcases List.mem_cons.mp he with rfl | he
      · exact hlt
      · exact String.lt_trans hlt (hk e he)
    next hlt =>
      split
      next heq => subst heq; exact List.pairwise_cons.mpr ⟨hk, hrest⟩
      next hne =>
        refine List.pairwise_cons.mpr ⟨?_, ih hrest⟩
        intro e he
        rcases mem_of_mem_insert he with rfl | he
        · exact lt_of_not_lt_of_ne hlt hne
        · exact hk e he

theorem insert_perm {key : String} (value : α) {entries : List (String × α)}
    (h : key ∉ entries.map (·.1)) : (insert key value entries).Perm ((key, value) :: entries) := by
  fun_induction insert key value entries with
  | case1 => exact .refl _
  | case2 => exact .refl _
  | case3 => simp at h
  | case4 k v rest _ _ ih =>
    have hrest : key ∉ rest.map (·.1) := fun hmem => h (List.mem_cons_of_mem _ hmem)
    exact ((ih hrest).cons (k, v)).trans (.swap ..)

theorem insert_of_last {key : String} {value : α} {entries : List (String × α)}
    (h : ∀ e ∈ entries, e.1 < key) : insert key value entries = entries ++ [(key, value)] := by
  induction entries with
  | nil => rfl
  | cons e entries ih =>
    obtain ⟨k, v⟩ := e
    have hlt : k < key := h (k, v) List.mem_cons_self
    have hne : key ≠ k := fun heq => String.lt_irrefl key (heq ▸ hlt)
    have hnlt : ¬ key < k := fun hgt => String.lt_irrefl key (String.lt_trans hgt hlt)
    rw [insert, if_neg hnlt, if_neg hne, ih fun e he => h e (List.mem_cons_of_mem _ he)]
    rfl

theorem erase_sublist (key : String) (entries : List (String × α)) :
    (erase key entries).Sublist entries := by
  fun_induction erase key entries with
  | case1 => exact .refl _
  | case2 => exact List.sublist_cons_self _ _
  | case3 k v rest _ ih => exact ih.cons_cons _

theorem ascending_erase (key : String) {entries : List (String × α)} (h : Ascending entries) :
    Ascending (erase key entries) := List.Pairwise.sublist (erase_sublist key entries) h

theorem ascending_ofList (pairs : List (String × α)) : Ascending (ofList pairs) := by
  suffices ∀ entries, Ascending entries →
      Ascending (pairs.foldl (fun entries pair => insert pair.1 pair.2 entries) entries) from
    this [] ascending_nil
  induction pairs with
  | nil => intro entries h; exact h
  | cons p pairs ih => intro entries h; exact ih _ (ascending_insert _ _ h)

theorem ofList_concat (pairs : List (String × α)) (pair : String × α) :
    ofList (pairs ++ [pair]) = insert pair.1 pair.2 (ofList pairs) := List.foldl_append

theorem ofList_perm {pairs : List (String × α)} (h : (pairs.map (·.1)).Nodup) :
    (ofList pairs).Perm pairs := by
  suffices ∀ entries : List (String × α), ((entries ++ pairs).map (·.1)).Nodup →
      (pairs.foldl (fun entries pair => insert pair.1 pair.2 entries) entries).Perm
        (entries ++ pairs) from this [] h
  induction pairs with
  | nil => intro entries _; simp
  | cons p pairs ih =>
    intro entries hnodup
    -- The key of `p` is neither among those inserted before nor among those still to come.
    have hmiddle : ((p :: (entries ++ pairs)).map (·.1)).Nodup :=
      (List.perm_middle.map _).nodup_iff.mp hnodup
    have hinsert : (insert p.1 p.2 entries ++ pairs).Perm (p :: (entries ++ pairs)) := by
      refine (insert_perm p.2 fun hmem => ?_).append_right pairs
      exact (List.nodup_cons.mp hmiddle).1 (by simp [hmem])
    have hrest := ih (List.nodup_cons.mp h).2 (insert p.1 p.2 entries)
      ((hinsert.map _).nodup_iff.mpr hmiddle)
    exact hrest.trans (hinsert.trans List.perm_middle.symm)

theorem ascending_filterMap (f : String → α → Option β) {entries : List (String × α)}
    (h : Ascending entries) :
    Ascending (entries.filterMap fun e => (f e.1 e.2).map (e.1, ·)) := by
  refine List.Pairwise.filterMap _ ?_ h
  intro a b hab x hx y hy
  simp only [Option.map_eq_some_iff] at hx hy
  obtain ⟨_, _, rfl⟩ := hx
  obtain ⟨_, _, rfl⟩ := hy
  exact hab

theorem mem_of_get? {key : String} {value : α} {entries : List (String × α)}
    (h : get? key entries = some value) : (key, value) ∈ entries := by
  fun_induction get? key entries with
  | case1 => cases h
  | case2 => cases h; exact List.mem_cons_self
  | case3 k v rest _ ih => exact List.mem_cons_of_mem _ (ih h)

theorem get?_of_mem {key : String} {value : α} {entries : List (String × α)} (h : Ascending entries)
    (hmem : (key, value) ∈ entries) : get? key entries = some value := by
  induction entries with
  | nil => cases hmem
  | cons e rest ih =>
    obtain ⟨hfirst, hrest⟩ := List.pairwise_cons.mp h
    rcases List.mem_cons.mp hmem with rfl | hmem
    · exact if_pos rfl
    · have hne : key ≠ e.1 := fun heq => String.lt_irrefl _ (heq ▸ hfirst _ hmem)
      rw [get?, if_neg hne, ih hrest hmem]

theorem get?_insert (key k : String) (value : α) (entries : List (String × α)) :
    get? k (insert key value entries) = if k = key then some value else get? k entries := by
  fun_induction insert key value entries with
  | case1 => simp [get?]
  | case2 => simp [get?]
  | case3 => grind [get?]
  | case4 => grind [get?]

theorem get?_eq_none_of_lt {key : String} {entries : List (String × α)}
    (h : ∀ e ∈ entries, key < e.1) : get? key entries = none := by
  induction entries with
  | nil => rfl
  | cons e rest ih =>
    have hne : key ≠ e.1 := fun heq => String.lt_irrefl _ (heq ▸ h e (by simp))
    simp [get?, hne, ih fun e he => h e (by simp [he])]

theorem get?_filterMap (f : String → α → Option β) (key : String) {entries : List (String × α)}
    (h : Ascending entries) :
    get? key (entries.filterMap fun e => (f e.1 e.2).map (e.1, ·)) =
      (get? key entries).bind (f key) := by
  induction entries with
  | nil => rfl
  | cons e rest ih =>
    obtain ⟨k, v⟩ := e
    obtain ⟨hk, hrest⟩ := List.pairwise_cons.mp h
    rw [get?]
    by_cases hkey : key = k
    · subst hkey
      have hnone : get? key (rest.filterMap fun e => (f e.1 e.2).map (e.1, ·)) = none := by
        rw [ih hrest, get?_eq_none_of_lt hk]
        rfl
      rw [if_pos rfl, Option.bind_some]
      cases hf : f key v with
      | none => rw [List.filterMap_cons_none (by simp [hf]), hnone]
      | some w => rw [List.filterMap_cons_some (b := (key, w)) (by simp [hf])]; exact if_pos rfl
    · rw [if_neg hkey, ← ih hrest]
      cases hf : f k v with
      | none => rw [List.filterMap_cons_none (by simp [hf])]
      | some w => rw [List.filterMap_cons_some (b := (k, w)) (by simp [hf])]; exact if_neg hkey

theorem get?_erase (key k : String) {entries : List (String × α)} (h : Ascending entries) :
    get? k (erase key entries) = if k = key then none else get? k entries := by
  induction entries with
  | nil => simp [erase, get?]
  | cons e rest ih =>
    obtain ⟨hk, hrest⟩ := List.pairwise_cons.mp h
    by_cases hkey : key = e.1
    · by_cases hk' : k = key
      · simpa [erase, hkey, hk'] using get?_eq_none_of_lt (by simpa using hk)
      · simp [erase, get?, ← hkey, hk']
    · simp only [erase, hkey, if_false, get?, ih hrest]
      by_cases hk' : k = e.1
      · simp [hk', Ne.symm hkey]
      · simp [hk']

theorem not_lt_of_get?_eq {d e : String × α} {xs ys : List (String × α)}
    (hy : Ascending (e :: ys)) (h : ∀ key, get? key (d :: xs) = get? key (e :: ys)) :
    ¬ d.1 < e.1 := by
  intro hlt
  have hnone : get? d.1 (e :: ys) = none := get?_eq_none_of_lt fun f hf => by
    rcases List.mem_cons.mp hf with rfl | hf
    · exact hlt
    · exact String.lt_trans hlt ((List.pairwise_cons.mp hy).1 f hf)
  have hd := h d.1
  rw [hnone] at hd
  simp [get?] at hd

/-- Ascending entries are known by what they answer. -/
theorem eq_of_get?_eq {xs ys : List (String × α)} (hx : Ascending xs) (hy : Ascending ys)
    (h : ∀ key, get? key xs = get? key ys) : xs = ys := by
  induction xs generalizing ys with
  | nil =>
    cases ys with
    | nil => rfl
    | cons e ys => simpa [get?] using h e.1
  | cons d xs ih =>
    cases ys with
    | nil => simpa [get?] using h d.1
    | cons e ys =>
      obtain ⟨hd, hxs⟩ := List.pairwise_cons.mp hx
      obtain ⟨he, hys⟩ := List.pairwise_cons.mp hy
      have hkey : d.1 = e.1 := String.le_antisymm
        (String.not_lt.mp (not_lt_of_get?_eq hx fun k => (h k).symm))
        (String.not_lt.mp (not_lt_of_get?_eq hy h))
      have hvalue : d.2 = e.2 := by simpa [get?, hkey] using h d.1
      have hrest : xs = ys := ih hxs hys fun k => by
        by_cases hk : k = d.1
        · rw [hk, get?_eq_none_of_lt hd, hkey, get?_eq_none_of_lt he]
        · have hk' : k ≠ e.1 := hkey ▸ hk
          simpa [get?, hk, hk'] using h k
      rw [hrest, Prod.ext hkey hvalue]

end Entries

/-- A map from text keys to values. -/
structure Keyed (α : Type) where
  entries : List (String × α)
  ascending : Ascending entries
  deriving DecidableEq

namespace Keyed

variable {α β : Type}

def empty : Keyed α := ⟨[], Entries.ascending_nil⟩

instance : EmptyCollection (Keyed α) := ⟨empty⟩
instance : Inhabited (Keyed α) := ⟨empty⟩
instance [BEq α] : BEq (Keyed α) := ⟨fun a b => a.entries == b.entries⟩

def get? (m : Keyed α) (key : String) : Option α := Entries.get? key m.entries

def contains (m : Keyed α) (key : String) : Bool := (m.get? key).isSome

def insert (m : Keyed α) (key : String) (value : α) : Keyed α :=
  ⟨Entries.insert key value m.entries, Entries.ascending_insert key value m.ascending⟩

def erase (m : Keyed α) (key : String) : Keyed α :=
  ⟨Entries.erase key m.entries, Entries.ascending_erase key m.ascending⟩

/-- Of several values for one key the last is kept. -/
def ofList (pairs : List (String × α)) : Keyed α :=
  ⟨Entries.ofList pairs, Entries.ascending_ofList pairs⟩

def size (m : Keyed α) : Nat := m.entries.length

def isEmpty (m : Keyed α) : Bool := m.entries.isEmpty

/-- Keeps the keys for which `f` gives a value. -/
def filterMap (f : String → α → Option β) (m : Keyed α) : Keyed β :=
  ⟨m.entries.filterMap fun e => (f e.1 e.2).map (e.1, ·), Entries.ascending_filterMap f m.ascending⟩

def mapValues (f : α → β) (m : Keyed α) : Keyed β := m.filterMap fun _ v => some (f v)

/-- The entries of both; where both have a key, the entry of `extra`. -/
def merge (m extra : Keyed α) : Keyed α :=
  extra.entries.foldl (fun out e => out.insert e.1 e.2) m

theorem get?_insert (m : Keyed α) (key k : String) (value : α) :
    (m.insert key value).get? k = if k = key then some value else m.get? k :=
  Entries.get?_insert key k value m.entries

theorem get?_erase (m : Keyed α) (key k : String) :
    (m.erase key).get? k = if k = key then none else m.get? k :=
  Entries.get?_erase key k m.ascending

theorem get?_filterMap (f : String → α → Option β) (m : Keyed α) (key : String) :
    (m.filterMap f).get? key = (m.get? key).bind (f key) :=
  Entries.get?_filterMap f key m.ascending

theorem get?_merge (m extra : Keyed α) (key : String) :
    (m.merge extra).get? key = (extra.get? key).or (m.get? key) := by
  obtain ⟨entries, hascending⟩ := extra
  unfold merge
  induction entries generalizing m with
  | nil => rfl
  | cons e rest ih =>
    obtain ⟨he, hrest⟩ := List.pairwise_cons.mp hascending
    rw [List.foldl_cons, ih _ hrest, get?_insert]
    by_cases hkey : key = e.1
    · have hnone : Entries.get? key rest = none := Entries.get?_eq_none_of_lt (hkey ▸ he)
      simp [get?, Entries.get?, hkey ▸ hnone, hkey]
    · simp [get?, Entries.get?, hkey]

@[ext] theorem ext {m n : Keyed α} (h : ∀ key, m.get? key = n.get? key) : m = n := by
  obtain ⟨xs, hx⟩ := m
  obtain ⟨ys, hy⟩ := n
  congr
  exact Entries.eq_of_get?_eq hx hy h

end Keyed

end TableQuery

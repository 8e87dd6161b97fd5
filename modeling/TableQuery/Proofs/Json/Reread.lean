import TableQuery.Proofs.Json.Double

/-!
# Values with their doubles read again

A value that is written and read again is the same but for its doubles, each of which is as its own
text is read. Order and nesting do not change, and nothing does when the doubles are read back.
-/

namespace TableQuery.Json

/-! ## The doubles of a value -/

mutual

def doubles : Json → List Binary64
  | .number (.double x) => [x]
  | .array items => itemDoubles items
  | .object members => memberDoubles members
  | _ => []

def itemDoubles : List Json → List Binary64
  | [] => []
  | item :: items => doubles item ++ itemDoubles items

def memberDoubles : List (String × Json) → List Binary64
  | [] => []
  | (_, value) :: members => doubles value ++ memberDoubles members

end

theorem mem_memberDoubles_iff {members : List (String × Json)} {x : Binary64} :
    x ∈ memberDoubles members ↔ ∃ e ∈ members, x ∈ e.2.doubles := by
  induction members with
  | nil => simp [memberDoubles]
  | cons e members ih => simp [memberDoubles, ih]

theorem memberDoubles_eq_nil {members : List (String × Json)} (h : ∀ e ∈ members, e.2.doubles = []) :
    memberDoubles members = [] := by
  refine List.eq_nil_iff_forall_not_mem.mpr fun x hx => ?_
  obtain ⟨e, he, hx⟩ := mem_memberDoubles_iff.mp hx
  rw [h e he] at hx
  cases hx

def DoublesReadBack (v : Json) : Prop := ∀ x ∈ v.doubles, x.ReadsBack

theorem doublesReadBack_object {members : List (String × Json)}
    (h : ∀ e ∈ members, e.2.DoublesReadBack) : (Json.object members).DoublesReadBack := by
  intro x hx
  obtain ⟨e, he, hx⟩ := mem_memberDoubles_iff.mp hx
  exact h e he x hx

mutual

/-- The value with each double as its text is read. -/
def reread : Json → Json
  | .number n => .number n.reread
  | .array items => .array (rereadItems items)
  | .object members => .object (rereadMembers members)
  | v => v

def rereadItems : List Json → List Json
  | [] => []
  | item :: items => reread item :: rereadItems items

def rereadMembers : List (String × Json) → List (String × Json)
  | [] => []
  | (key, value) :: members => (key, reread value) :: rereadMembers members

end

theorem rereadItems_eq_map (items : List Json) : rereadItems items = items.map reread := by
  induction items with
  | nil => rfl
  | cons item items ih => rw [rereadItems, ih]; rfl

theorem rereadMembers_eq_map (members : List (String × Json)) :
    rereadMembers members = members.map fun e => (e.1, e.2.reread) := by
  induction members with
  | nil => rfl
  | cons e members ih => rw [rereadMembers, ih]; rfl

mutual

theorem reread_eq_self (v : Json) (hv : ∀ x ∈ doubles v, x.ReadsBack) : v.reread = v := by
  match v with
  | .null => rfl
  | .bool _ => rfl
  | .number (.integer _ _ _) => rfl
  | .number (.double x) =>
    have hx : x.reread = x := Binary64.readsBack_iff.mp (hv x List.mem_cons_self)
    simp only [reread, Number.reread, hx]
  | .string _ => rfl
  | .array items => exact congrArg Json.array (rereadItems_eq_self items hv)
  | .object members => exact congrArg Json.object (rereadMembers_eq_self members hv)

theorem rereadItems_eq_self (items : List Json) (hv : ∀ x ∈ itemDoubles items, x.ReadsBack) :
    rereadItems items = items := by
  match items with
  | [] => rfl
  | item :: items =>
    simp only [itemDoubles, List.mem_append] at hv
    rw [rereadItems, reread_eq_self item fun x hx => hv x (.inl hx),
      rereadItems_eq_self items fun x hx => hv x (.inr hx)]

theorem rereadMembers_eq_self (members : List (String × Json))
    (hv : ∀ x ∈ memberDoubles members, x.ReadsBack) : rereadMembers members = members := by
  match members with
  | [] => rfl
  | (key, value) :: members =>
    simp only [memberDoubles, List.mem_append] at hv
    rw [rereadMembers, reread_eq_self value fun x hx => hv x (.inl hx),
      rereadMembers_eq_self members fun x hx => hv x (.inr hx)]

end

/-! ## A value keeps its form -/

theorem ascending_rereadMembers {members : List (String × Json)} (h : Ascending members) :
    Ascending (rereadMembers members) := by
  rw [rereadMembers_eq_map]
  exact List.pairwise_map.mpr h

mutual

theorem ordered_reread (v : Json) (h : v.Ordered) : v.reread.Ordered := by
  match v with
  | .null => trivial
  | .bool _ => trivial
  | .number _ => trivial
  | .string _ => trivial
  | .array items => exact orderedItems_rereadItems items h
  | .object members =>
    exact ⟨ascending_rereadMembers h.1, orderedMembers_rereadMembers members h.2⟩

theorem orderedItems_rereadItems (items : List Json) (h : OrderedItems items) :
    OrderedItems (rereadItems items) := by
  match items with
  | [] => trivial
  | item :: items => exact ⟨ordered_reread item h.1, orderedItems_rereadItems items h.2⟩

theorem orderedMembers_rereadMembers (members : List (String × Json)) (h : OrderedMembers members) :
    OrderedMembers (rereadMembers members) := by
  match members with
  | [] => trivial
  | (_, value) :: members =>
    exact ⟨ordered_reread value h.1, orderedMembers_rereadMembers members h.2⟩

end

mutual

theorem nesting_reread (v : Json) : v.reread.nesting = v.nesting := by
  match v with
  | .null => rfl
  | .bool _ => rfl
  | .number _ => rfl
  | .string _ => rfl
  | .array items => exact congrArg (· + 1) (nestingItems_rereadItems items)
  | .object members => exact congrArg (· + 1) (nestingMembers_rereadMembers members)

theorem nestingItems_rereadItems (items : List Json) :
    nestingItems (rereadItems items) = nestingItems items := by
  match items with
  | [] => rfl
  | item :: items =>
    rw [rereadItems, nestingItems, nestingItems, nesting_reread item, nestingItems_rereadItems items]

theorem nestingMembers_rereadMembers (members : List (String × Json)) :
    nestingMembers (rereadMembers members) = nestingMembers members := by
  match members with
  | [] => rfl
  | (_, value) :: members =>
    rw [rereadMembers, nestingMembers, nestingMembers, nesting_reread value,
      nestingMembers_rereadMembers members]

end

end TableQuery.Json

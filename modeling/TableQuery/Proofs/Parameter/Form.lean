import TableQuery.Proofs.Parameter.Edit

/-!
# The forms in a bag

Each call on a bag drops a value of a form that it cannot grow. So a comma set or a comma list holds
what was added since it was made, and a tree is never under another name than its own. What is sent
has the names of the bag, unless its tree has no nodes.
-/

namespace TableQuery

/-! ## Growing where there is no value of the form -/

namespace Parameter

theorem addToSet_of_ne {slot : Option Parameter} (h : ∀ values, slot ≠ some (.commaSet values))
    (value : String) : addToSet value slot = .commaSet [value] := by
  unfold addToSet
  split
  next values => exact absurd rfl (h values)
  next => rfl

theorem pushToList_of_ne {slot : Option Parameter} (h : ∀ values, slot ≠ some (.commaList values))
    (value : String) : pushToList value slot = .commaList [value] := by
  unfold pushToList
  split
  next values => exact absurd rfl (h values)
  next => rfl

theorem setMember_eq_json (field : String) (value : Json) (slot : Option Parameter) :
    ∃ object, setMember field value slot = .json object := by
  unfold setMember
  split
  next members => exact ⟨_, rfl⟩
  next => exact ⟨_, rfl⟩

end Parameter

/-! ## Calls and runs -/

/-- One call on a bag. A call that reaches for the tree finds an empty one when there is none, and
`change` is what all operations on that tree together make of it. -/
inductive BagCall where
  | edit (e : Edit)
  | changeFilters (change : Tree → Tree)

namespace BagCall

def key : BagCall → String
  | .edit e => e.key
  | .changeFilters _ => filtersKey

@[simp] theorem key_edit (e : Edit) : (edit e).key = e.key := rfl

def apply (b : Bag) : BagCall → Bag
  | .edit e => e.apply b
  | .changeFilters change => b.setFilters (change b.filters)

/-- What the call makes of the parameter under its key. -/
def step (slot : Option Parameter) : BagCall → Option Parameter
  | .edit e => e.step slot
  | .changeFilters change => some (.filters (change ((Parameter.tree? slot).getD ∅)))

theorem get?_apply (b : Bag) (c : BagCall) (k : String) :
    (c.apply b).get? k = if k = c.key then c.step (b.get? k) else b.get? k := by
  cases c with
  | edit e => exact e.get?_apply b k
  | changeFilters change =>
    refine (b.get?_set filtersKey k _).trans ?_
    by_cases hk : k = filtersKey
    · subst hk; rfl
    · rw [if_neg hk, key, if_neg hk]

def run (calls : List BagCall) : Bag := calls.foldl apply ∅

theorem get?_run_concat (calls : List BagCall) (c : BagCall) (k : String) :
    (run (calls ++ [c])).get? k =
      if k = c.key then c.step ((run calls).get? k) else (run calls).get? k := by
  rw [run, List.foldl_append]
  exact get?_apply (run calls) c k

/-! ## What was added since a value was made -/

/-- The calls made a value of the form under `k`, where there was none of that form, and every later
call under `k` added to it. These are the values that were added, the first one and the later
ones. -/
def Collected (grow : String → String → Edit) (form : List String → Parameter) (k : String)
    (calls : List BagCall) (added : List String) : Prop :=
  ∃ before first after later,
    calls = before ++ .edit (grow k first) :: after ∧
    (∀ values, (run before).get? k ≠ some (form values)) ∧
    after.filter (·.key = k) = later.map (fun value => .edit (grow k value)) ∧
    added = first :: later

namespace Collected

variable {grow : String → String → Edit} {form : List String → Parameter} {k : String}
  {calls : List BagCall} {added : List String}

theorem ne_nil (h : Collected grow form k calls added) : added ≠ [] := by
  obtain ⟨_, _, _, _, -, -, -, rfl⟩ := h
  exact List.cons_ne_nil _ _

theorem make (hnew : ∀ values, (run calls).get? k ≠ some (form values)) (value : String) :
    Collected grow form k (calls ++ [.edit (grow k value)]) [value] :=
  ⟨calls, value, [], [], rfl, hnew, rfl, rfl⟩

theorem put (hkey : ∀ value, (grow k value).key = k) (h : Collected grow form k calls added)
    (value : String) :
    Collected grow form k (calls ++ [.edit (grow k value)]) (added ++ [value]) := by
  obtain ⟨before, first, after, later, rfl, hnew, hlater, rfl⟩ := h
  refine ⟨before, first, after ++ [.edit (grow k value)], later ++ [value], ?_, hnew, ?_, rfl⟩
  · simp
  · simp [List.filter_append, hlater, hkey]

theorem skip (h : Collected grow form k calls added) {c : BagCall} (hc : c.key ≠ k) :
    Collected grow form k (calls ++ [c]) added := by
  obtain ⟨before, first, after, later, rfl, hnew, hlater, rfl⟩ := h
  refine ⟨before, first, after ++ [c], later, by simp, hnew, ?_, rfl⟩
  simp [List.filter_append, hlater, hc]

end Collected

/-! ## What may be under a key -/

/-- The parameter has a form that the calls account for. -/
def Accounted (k : String) (calls : List BagCall) : Option Parameter → Prop
  | some (.commaSet values) => values ≠ [] ∧ values.Nodup ∧
      ∃ added, Collected .addToCommaSet .commaSet k calls added ∧ values = added.eraseDups
  | some (.commaList values) =>
      values ≠ [] ∧ Collected .pushToCommaList .commaList k calls values
  | some (.filters _) => k = filtersKey
  | _ => True

namespace Accounted

variable {k : String} {calls : List BagCall}

theorem of_added {added : List String} (h : Collected .addToCommaSet .commaSet k calls added) :
    Accounted k calls (some (.commaSet added.eraseDups)) := by
  refine ⟨?_, Edit.nodup_eraseDups added, added, h, rfl⟩
  obtain ⟨first, later, rfl⟩ := List.exists_cons_of_ne_nil h.ne_nil
  rw [List.eraseDups_cons]
  exact List.cons_ne_nil _ _

theorem of_pushed {values : List String}
    (h : Collected .pushToCommaList .commaList k calls values) :
    Accounted k calls (some (.commaList values)) := ⟨h.ne_nil, h⟩

theorem skip {slot : Option Parameter} (h : Accounted k calls slot) {c : BagCall}
    (hc : c.key ≠ k) : Accounted k (calls ++ [c]) slot := by
  match slot, h with
  | some (.commaSet _), ⟨_, _, _, hadded, heq⟩ => exact heq ▸ of_added (hadded.skip hc)
  | some (.commaList _), ⟨_, hpushed⟩ => exact of_pushed (hpushed.skip hc)
  | some (.filters _), h => exact h
  | some (.literal _), _ => trivial
  | some (.json _), _ => trivial
  | none, _ => trivial

theorem addToCommaSet (h : Accounted k calls ((run calls).get? k)) (value : String) :
    Accounted k (calls ++ [.edit (.addToCommaSet k value)])
      (some (.addToSet value ((run calls).get? k))) := by
  by_cases hset : ∃ values, (run calls).get? k = some (.commaSet values)
  · obtain ⟨values, hslot⟩ := hset
    rw [hslot] at h ⊢
    obtain ⟨_, _, added, hadded, rfl⟩ := h
    rw [Parameter.addToSet, ← Edit.eraseDups_concat]
    exact of_added (hadded.put (fun _ => rfl) value)
  · rw [Parameter.addToSet_of_ne (not_exists.mp hset)]
    exact of_added (.make (not_exists.mp hset) value)

theorem pushToCommaList (h : Accounted k calls ((run calls).get? k)) (value : String) :
    Accounted k (calls ++ [.edit (.pushToCommaList k value)])
      (some (.pushToList value ((run calls).get? k))) := by
  by_cases hlist : ∃ values, (run calls).get? k = some (.commaList values)
  · obtain ⟨values, hslot⟩ := hlist
    rw [hslot] at h ⊢
    exact of_pushed (h.2.put (fun _ => rfl) value)
  · rw [Parameter.pushToList_of_ne (not_exists.mp hlist)]
    exact of_pushed (.make (not_exists.mp hlist) value)

theorem concat (h : Accounted k calls ((run calls).get? k)) (c : BagCall) :
    Accounted k (calls ++ [c]) ((run (calls ++ [c])).get? k) := by
  rw [get?_run_concat]
  by_cases hk : k = c.key
  · subst hk
    rw [if_pos rfl]
    -- Only the two growing calls look at what is there. Of texts and objects nothing is said.
    cases c with
    | changeFilters change => exact rfl
    | edit e =>
      cases e with
      | setLiteral key text => trivial
      | setJson key value => trivial
      | addToCommaSet key value => exact h.addToCommaSet value
      | pushToCommaList key value => exact h.pushToCommaList value
      | setJsonMember key field value =>
        obtain ⟨object, hobject⟩ := Parameter.setMember_eq_json field value ((run calls).get? key)
        change Accounted key _ (some (.setMember field value ((run calls).get? key)))
        rw [hobject]
        trivial
      | remove key => trivial
  · rw [if_neg hk]
    exact h.skip (Ne.symm hk)

theorem of_run (calls : List BagCall) (k : String) : Accounted k calls ((run calls).get? k) := by
  induction calls using List.reverseRecOn with
  | nil => trivial
  | append_singleton calls c ih => exact ih.concat c

end Accounted

end BagCall

/-! ## The names that are sent -/

theorem Tree.render?_eq_none_iff (t : Tree) : t.render? = none ↔ t.isEmpty = true := by
  obtain ⟨roots⟩ := t
  rcases roots with _ | ⟨first, _ | ⟨second, roots⟩⟩ <;>
    simp [Tree.render?, Tree.toJson?, Tree.root?, Tree.isEmpty]

theorem Parameter.commaJoin?_eq_none_iff (values : List String) :
    commaJoin? values = none ↔ values = [] := by
  cases values <;> simp [commaJoin?]

namespace BagCall

theorem render?_eq_none_iff {k : String} {calls : List BagCall} {p : Parameter}
    (h : Accounted k calls (some p)) :
    p.render? = none ↔ ∃ tree, p = .filters tree ∧ tree.isEmpty = true := by
  cases p with
  | literal text => simp [Parameter.render?]
  | commaSet values => simp [Parameter.render?, Parameter.commaJoin?_eq_none_iff, h.1]
  | commaList values => simp [Parameter.render?, Parameter.commaJoin?_eq_none_iff, h.1]
  | json value => simp [Parameter.render?]
  | filters tree => simp [Parameter.render?, Tree.render?_eq_none_iff]

end BagCall

/-- Whatever calls have made a bag of the empty one: a comma set is not empty, has no value twice
and has the values that were added since it was made in the order in which they came first; a comma
list is not empty and has all values that were pushed since it was made; a tree is only under its
own name. The names that are sent are those of the bag, without that of the tree just when the tree
has no nodes. -/
theorem bags_keep_their_forms (calls : List BagCall) (k : String) :
    BagCall.Accounted k calls ((BagCall.run calls).get? k) ∧
      ((BagCall.run calls).requestParams.contains k = true ↔
        (BagCall.run calls).contains k = true ∧
          ¬ (k = filtersKey ∧ ∃ tree,
            (BagCall.run calls).get? k = some (.filters tree) ∧ tree.isEmpty = true)) := by
  have haccounted := BagCall.Accounted.of_run calls k
  refine ⟨haccounted, ?_⟩
  have hsent : (BagCall.run calls).requestParams.contains k =
      (((BagCall.run calls).get? k).bind Parameter.render?).isSome :=
    congrArg Option.isSome (Bag.get?_requestParams _ k)
  have hheld : (BagCall.run calls).contains k = ((BagCall.run calls).get? k).isSome := rfl
  rw [hsent, hheld]
  generalize (BagCall.run calls).get? k = slot at haccounted ⊢
  cases slot with
  | none => simp
  | some p =>
    have hnone := BagCall.render?_eq_none_iff haccounted
    have hplace : ∀ tree, p = .filters tree → k = filtersKey := by
      rintro tree rfl
      exact haccounted
    rw [Option.bind_some, Option.isSome_iff_ne_none, ne_eq, hnone]
    grind

end TableQuery

import TableQuery.Filter.Field
import TableQuery.Proofs.Parameter.Edit
import TableQuery.Proofs.Query.Composition

/-!
# Runs of calls on queries

A run works on queries under names. A call either is about the filters, and may then involve several
queries, or it belongs to one query and edits its other parameters or its flag. The two kinds do not
see each other.
-/

namespace TableQuery

/-! ## Calls about filters -/

/-- How a predicate on a field is finished. -/
inductive FieldCall where
  | search (term : Json)
  | equal (value : Json)
  | notEqual (value : Json)
  | isIn (values : List Json)
  | notIn (values : List Json)
  | beginsWith (start : String)
  | notBeginsWith (start : String)
  | beginsWithAny (starts : List Json)
  | notBeginsWithAny (starts : List Json)
  | blank
  | notBlank
  | greaterThan (value : Json)
  | greaterThanOrEqual (value : Json)
  | lessThan (value : Json)
  | lessThanOrEqual (value : Json)

namespace FieldCall

def predicate (f : Field) : FieldCall → Predicate
  | .search term => f.search term
  | .equal value => f.equal value
  | .notEqual value => f.notEqual value
  | .isIn values => f.isIn values
  | .notIn values => f.notIn values
  | .beginsWith start => f.beginsWith start
  | .notBeginsWith start => f.notBeginsWith start
  | .beginsWithAny starts => f.beginsWithAny starts
  | .notBeginsWithAny starts => f.notBeginsWithAny starts
  | .blank => f.blank
  | .notBlank => f.notBlank
  | .greaterThan value => f.greaterThan value
  | .greaterThanOrEqual value => f.greaterThanOrEqual value
  | .lessThan value => f.lessThan value
  | .lessThanOrEqual value => f.lessThanOrEqual value

def comparison : FieldCall → Operator × Json
  | .search term => (.search, term)
  | .equal value => (.equal, value)
  | .notEqual value => (.notEqual, value)
  | .isIn values => (.isIn, .array values)
  | .notIn values => (.notIn, .array values)
  | .beginsWith start => (.beginsWith, .string start)
  | .notBeginsWith start => (.notBeginsWith, .string start)
  | .beginsWithAny starts => (.beginsWithAny, .array starts)
  | .notBeginsWithAny starts => (.notBeginsWithAny, .array starts)
  | .blank => (.blank, .bool true)
  | .notBlank => (.blank, .bool false)
  | .greaterThan value => (.greaterThan, value)
  | .greaterThanOrEqual value => (.greaterThanOrEqual, value)
  | .lessThan value => (.lessThan, value)
  | .lessThanOrEqual value => (.lessThanOrEqual, value)

theorem predicate_eq (f : Field) (c : FieldCall) :
    c.predicate f = ⟨f.name, c.comparison.1, c.comparison.2⟩ := by
  cases c <;> rfl

end FieldCall

inductive FilterCall (Name : Type) where
  | compare (name : Name) (field : String) (c : FieldCall)
  | add (name : Name) (node : Node)
  | compose (logic : Logic) (c : Forest.Composition Name)
  | pop (name : Name)

namespace FilterCall

open Filtered

variable {Name Q : Type} [DecidableEq Name] [Filtered Q]

/-- What the call does to trees that belong to no query. -/
def onTrees (f : Forest Name) : FilterCall Name → Forest Name
  | .compare name field c =>
    f.put name ((f name).add (.predicate ⟨field, c.comparison.1, c.comparison.2⟩))
  | .add name node => f.put name ((f name).add node)
  | .compose logic c => c.apply logic f
  | .pop name => f.put name (f name).withoutNewest

def onQueries (qs : Store Name Q) : FilterCall Name → Store Name Q
  | .compare name field c => qs.put name (addFilter (qs name) (.predicate (c.predicate ⟨field⟩)))
  | .add name node => qs.put name (addFilter (qs name) node)
  | .compose logic (.siblings target sources _) => qs.lend target sources (composeWith logic)
  | .compose logic (.withSelf target sources _) => qs.lend target sources (composeWithSelf logic)
  | .compose logic (.recent target count) =>
    qs.put target (composeRecent logic (qs target) count)
  | .pop name => qs.put name (popFilter (qs name)).2

/-- A call does to the trees of queries what it does to trees, and replaces nothing but trees. -/
def ActsOnTrees (qs after : Store Name Q) (f : Forest Name) : Prop :=
  trees after = f ∧ ∀ n, after n = qs n ∨ ∃ tree, after n = setFilters (qs n) tree

theorem actsOnTrees_put [Lawful Q] (qs : Store Name Q) (name : Name) (tree : Tree) :
    ActsOnTrees qs (qs.put name (setFilters (qs name) tree)) ((trees qs).put name tree) := by
  constructor
  · funext n
    by_cases hn : n = name
    · subst hn
      simp [trees, filters, Lawful.filters?_setFilters]
    · simp [trees, Store.put_of_ne _ _ hn]
  · intro n
    by_cases hn : n = name
    · subst hn
      exact .inr ⟨tree, Store.put_self ..⟩
    · exact .inl (Store.put_of_ne _ _ hn)

theorem actsOnTrees_of_regroups {qs after : Store Name Q} {logic : Logic} {target : Name}
    {siblings sources : List Name} (h : Regroups logic target siblings sources qs after) :
    ActsOnTrees qs after ((trees qs).regroup logic target sources) := by
  obtain ⟨htrees, hafter⟩ := h
  refine ⟨htrees, fun n => ?_⟩
  rw [hafter]
  by_cases hn : n ∈ target :: siblings
  · exact .inr ⟨trees after n, if_pos hn⟩
  · exact .inl (if_neg hn)

theorem actsOnTrees [Lawful Q] (qs : Store Name Q) (c : FilterCall Name) :
    ActsOnTrees qs (c.onQueries qs) (c.onTrees (trees qs)) := by
  cases c with
  | compare name field c =>
    rw [onQueries, c.predicate_eq]
    exact actsOnTrees_put qs name _
  | add name node => exact actsOnTrees_put qs name _
  | compose logic c =>
    rw [onTrees, Forest.Composition.apply_eq_regroup]
    cases c with
    | siblings target sources distinct =>
      exact actsOnTrees_of_regroups (composeWith_regroups qs logic distinct)
    | withSelf target sources distinct =>
      exact actsOnTrees_of_regroups (composeWithSelf_regroups qs logic distinct)
    | recent target count =>
      exact actsOnTrees_of_regroups (composeRecent_regroups qs logic target count)
  | pop name => exact actsOnTrees_put qs name _

end FilterCall

/-! ## Calls of one query -/

/-- A kind of query that is a bag and a flag. Its own calls leave the filters alone. -/
class Builder (Q : Type) (Own : outParam Type) [Filtered Q] where
  params : Q → Bag
  countRows : Q → Bool
  apply : Q → Own → Q
  /-- What a call does to the bag. -/
  edits : Own → List Edit
  /-- What a call says about counting rows. -/
  counting : Own → List Bool
  filters?_eq (q : Q) : Filtered.filters? q = (params q).filters?
  params_setFilters (q : Q) (tree : Tree) :
    params (Filtered.setFilters q tree) = (params q).setFilters tree
  countRows_setFilters (q : Q) (tree : Tree) :
    countRows (Filtered.setFilters q tree) = countRows q
  params_apply (q : Q) (c : Own) : params (apply q c) = (edits c).foldl Edit.apply (params q)
  countRows_apply (q : Q) (c : Own) : countRows (apply q c) = (counting c).getLast?.getD (countRows q)
  under_reserved (c : Own) : ∀ k ∈ [filtersKey, "include_count"], Edit.under k (edits c) = []

/-- A call in a run over queries under names. -/
inductive QueriesCall (Name Own : Type) where
  | own (name : Name) (c : Own)
  | filter (c : FilterCall Name)

namespace QueriesCall

variable {Name Own : Type} [DecidableEq Name]

def ownOf (name : Name) : QueriesCall Name Own → List Own
  | .own n c => if n = name then [c] else []
  | .filter _ => []

def filterCalls : QueriesCall Name Own → List (FilterCall Name)
  | .own _ _ => []
  | .filter c => [c]

end QueriesCall

namespace Builder

open Filtered

variable {Name Q Own : Type} [DecidableEq Name] [Filtered Q] [Builder Q Own]

def step (qs : Store Name Q) : QueriesCall Name Own → Store Name Q
  | .own name c => qs.put name (apply (qs name) c)
  | .filter c => c.onQueries qs

def run (qs : Store Name Q) (calls : List (QueriesCall Name Own)) : Store Name Q :=
  calls.foldl step qs

theorem run_append (qs : Store Name Q) (calls more : List (QueriesCall Name Own)) :
    run qs (calls ++ more) = run (run qs calls) more := List.foldl_append

/-! ### What a step and a run keep -/

/-- Under the key of the filters there is a tree or nothing. -/
def FiltersInPlace (b : Bag) : Prop := ∀ p, b.get? filtersKey = some p → ∃ tree, p = .filters tree

theorem filtersInPlace_setFilters (b : Bag) (tree : Tree) : FiltersInPlace (b.setFilters tree) := by
  intro p hp
  rw [Bag.setFilters, Bag.get?_set, if_pos rfl] at hp
  cases hp
  exact ⟨tree, rfl⟩

theorem get?_filtersKey_apply (q : Q) (c : Own) :
    (params (apply q c)).get? filtersKey = (params q).get? filtersKey := by
  rw [params_apply, Edit.get?_applyAll, under_reserved c filtersKey (by simp)]
  rfl

theorem filters_apply (q : Q) (c : Own) : filters (apply q c) = filters q := by
  unfold filters
  rw [filters?_eq, filters?_eq, Bag.filters?, Bag.filters?, get?_filtersKey_apply]

theorem render?_filters {q : Q} (h : FiltersInPlace (params q)) :
    ((params q).get? filtersKey).bind Parameter.render? = (filters q).render? := by
  unfold filters
  rw [filters?_eq, Bag.filters?]
  cases hslot : (params q).get? filtersKey with
  | none => rfl
  | some p =>
    obtain ⟨tree, rfl⟩ := h p hslot
    rfl

/-- A query becomes another by its own calls, with its tree replaced in between. -/
inductive Reaches : Q → List Own → Q → Prop
  | refl (q : Q) : Reaches q [] q
  | own {q after : Q} (c : Own) {cs : List Own} (h : Reaches (apply q c) cs after) :
      Reaches q (c :: cs) after
  | tree {q after : Q} (tree : Tree) {cs : List Own} (h : Reaches (setFilters q tree) cs after) :
      Reaches q cs after

theorem get?_of_reaches {q after : Q} {cs : List Own} (h : Reaches q cs after) {k : String}
    (hk : k ≠ filtersKey) : (params after).get? k =
      (Edit.under k (cs.flatMap (edits Q))).foldl Edit.step ((params q).get? k) := by
  induction h with
  | refl q => rfl
  | @own q after c cs h ih =>
    rw [ih, params_apply, Edit.get?_applyAll, List.flatMap_cons, Edit.under_append,
      List.foldl_append]
  | tree tree h ih => rw [ih, params_setFilters, Bag.setFilters, Bag.get?_set, if_neg hk]

theorem countRows_of_reaches {q after : Q} {cs : List Own} (h : Reaches q cs after) :
    countRows after = (cs.flatMap (counting Q)).getLast?.getD (countRows q) := by
  induction h with
  | refl q => rfl
  | @own q after c cs h ih =>
    rw [ih, countRows_apply, List.flatMap_cons, List.getLast?_append]
    cases (cs.flatMap (counting Q)).getLast? <;> rfl
  | tree tree h ih => rw [ih, countRows_setFilters]

theorem filtersInPlace_of_reaches {q after : Q} {cs : List Own} (h : Reaches q cs after)
    (hq : FiltersInPlace (params q)) : FiltersInPlace (params after) := by
  induction h with
  | refl q => exact hq
  | own c h ih =>
    refine ih fun p hp => hq p ?_
    rw [← hp, get?_filtersKey_apply]
  | tree tree h ih =>
    refine ih ?_
    rw [params_setFilters]
    exact filtersInPlace_setFilters _ tree

variable [Lawful Q] (qs : Store Name Q)

theorem reaches_run (calls : List (QueriesCall Name Own)) (name : Name) :
    Reaches (qs name) (calls.flatMap (·.ownOf name)) (run qs calls name) := by
  induction calls generalizing qs with
  | nil => exact .refl _
  | cons call calls ih =>
    have hrest := ih (step qs call)
    rw [List.flatMap_cons]
    cases call with
    | own n c =>
      rw [QueriesCall.ownOf]
      by_cases hn : n = name
      · subst hn
        have hstep : step qs (.own n c) n = apply (qs n) c := Store.put_self ..
        rw [if_pos rfl]
        exact .own c (hstep ▸ hrest)
      · have hstep : step qs (.own n c) name = qs name := Store.put_of_ne _ _ (Ne.symm hn)
        rw [if_neg hn]
        exact hstep ▸ hrest
    | filter c =>
      -- The call may be about other queries, but this one can only have another tree after it.
      have hstep : step qs (.filter c) = c.onQueries qs := rfl
      rcases (c.actsOnTrees qs).2 name with h | ⟨tree, h⟩
      · rw [hstep, h] at hrest
        exact hrest
      · rw [hstep, h] at hrest
        exact .tree tree hrest

theorem trees_run (calls : List (QueriesCall Name Own)) : trees (run qs calls) =
    (calls.flatMap QueriesCall.filterCalls).foldl FilterCall.onTrees (trees qs) := by
  induction calls generalizing qs with
  | nil => rfl
  | cons call calls ih =>
    have hstep : trees (step qs call) = call.filterCalls.foldl FilterCall.onTrees (trees qs) := by
      cases call with
      | own name c =>
        funext n
        by_cases hn : n = name
        · subst hn
          simp [trees, step, filters_apply, QueriesCall.filterCalls]
        · simp [trees, step, Store.put_of_ne _ _ hn, QueriesCall.filterCalls]
      | filter c => exact (c.actsOnTrees qs).1
    rw [run, List.foldl_cons, List.flatMap_cons, List.foldl_append, ← hstep]
    exact ih _

theorem get?_params_run (calls : List (QueriesCall Name Own)) (name : Name) {k : String}
    (hk : k ≠ filtersKey) : (params (run qs calls name)).get? k =
      (Edit.under k ((calls.flatMap (·.ownOf name)).flatMap (edits Q))).foldl Edit.step
        ((params (qs name)).get? k) :=
  get?_of_reaches (reaches_run qs calls name) hk

theorem get?_count_run (calls : List (QueriesCall Name Own)) (name : Name)
    (h : (params (qs name)).get? "include_count" = none) :
    (params (run qs calls name)).get? "include_count" = none := by
  rw [get?_params_run qs calls name (by decide), h,
    Edit.under_flatMap_nil fun c => under_reserved c _ (by simp)]
  rfl

/-! ### What is sent after a run -/

/-- No tree was made yet, and rows are not counted. -/
def Fresh (q : Q) : Prop :=
  (params q).get? filtersKey = none ∧ (params q).get? "include_count" = none ∧ countRows q = false

/-- A query that was fresh before the run sends what `sent` says, when `sent` goes by the last call
about counting, by the tree of the calls about filters and, under any other key, by the edits. -/
theorem get?_requestParams_run (calls : List (QueriesCall Name Own)) (name : Name)
    (hfresh : Fresh (qs name)) {sent : String → Option String}
    (hcounting : sent "include_count" =
      if ((calls.flatMap (·.ownOf name)).flatMap (counting Q)).getLast? = some true then some "true"
      else none)
    (htree : sent filtersKey =
      ((calls.flatMap QueriesCall.filterCalls).foldl FilterCall.onTrees (trees qs) name).render?)
    (hother : ∀ k, k ≠ filtersKey → k ≠ "include_count" →
      ((Edit.under k ((calls.flatMap (·.ownOf name)).flatMap (edits Q))).foldl Edit.step
        ((params (qs name)).get? k)).bind Parameter.render? = sent k) (k : String) :
    ((params (run qs calls name)).requestParamsCounting (countRows (run qs calls name))).get? k =
      sent k := by
  obtain ⟨hnotree, hnocount, hflag⟩ := hfresh
  have hreaches := reaches_run qs calls name
  rw [Bag.get?_requestParamsCounting, countRows_of_reaches hreaches, hflag]
  by_cases hcount : k = "include_count"
  · rw [hcount, get?_count_run qs calls name hnocount, hcounting]
    cases ((calls.flatMap (·.ownOf name)).flatMap (counting Q)).getLast? with
    | none => simp
    | some wanted => cases wanted <;> simp
  · rw [if_neg fun h => hcount h.2]
    by_cases hk : k = filtersKey
    · have hplace : FiltersInPlace (params (qs name)) := by
        intro p hp
        rw [hnotree] at hp
        cases hp
      rw [hk, render?_filters (filtersInPlace_of_reaches hreaches hplace), htree, ← trees_run]
      rfl
    · rw [get?_params_run qs calls name hk, hother k hk hcount]

end Builder

end TableQuery

import Mathlib.Logic.Function.Basic
import TableQuery.Filter.Tree

/-!
# Forests: filter trees under names

The three ways to compose are one algorithm: pop the newest node of each named tree, one name after
the other, and add what was popped to the target as one group. A name may come twice, and the target
may be among the names.
-/

namespace TableQuery

/-! ## Stores of named values -/

abbrev Store (Name α : Type) := Name → α

namespace Store

variable {Name α : Type} [DecidableEq Name]

def put (s : Store Name α) (name : Name) (value : α) : Store Name α := Function.update s name value

def putAll (s : Store Name α) : List Name → List α → Store Name α
  | name :: names, value :: values => putAll (s.put name value) names values
  | _, _ => s

/-- Lends the values of the target and of its siblings to an operation, and puts back what it makes
of them. -/
def lend (s : Store Name α) (target : Name) (siblings : List Name)
    (operation : α → List α → α × List α) : Store Name α :=
  let made := operation (s target) (siblings.map s)
  put (putAll s siblings made.2) target made.1

@[simp] theorem put_self (s : Store Name α) (name : Name) (value : α) :
    s.put name value name = value := Function.update_self ..

theorem put_of_ne (s : Store Name α) {name n : Name} (value : α) (h : n ≠ name) :
    s.put name value n = s n := Function.update_of_ne h ..

@[simp] theorem put_put (s : Store Name α) (name : Name) (first second : α) :
    (s.put name first).put name second = s.put name second := Function.update_idem ..

theorem putAll_map (s : Store Name α) (names : List Name) (g : Name → α) :
    s.putAll names (names.map g) = fun n => if n ∈ names then g n else s n := by
  induction names generalizing s with
  | nil => simp [putAll]
  | cons name names ih =>
    rw [List.map_cons, putAll, ih]
    funext n
    by_cases hn : n = name
    · subst hn
      by_cases hmem : n ∈ names <;> simp [hmem]
    · simp [hn, put_of_ne _ _ hn]

end Store

/-! ## Popping under names -/

abbrev Forest (Name : Type) := Store Name Tree

namespace Forest

variable {Name : Type} [DecidableEq Name]

def popAll (f : Forest Name) : List Name → List Node × Forest Name
  | [] => ([], f)
  | name :: names =>
    let later := popAll (f.put name (f name).withoutNewest) names
    ((f name).newest?.toList ++ later.1, later.2)

/-- Adds the newest nodes of the sources to the target, as one group. -/
def regroup (f : Forest Name) (logic : Logic) (target : Name) (sources : List Name) : Forest Name :=
  let popped := popAll f sources
  popped.2.put target ((popped.2 target).add (.group logic popped.1))

/-- Names that differ do not see each other's pops. -/
theorem popAll_of_nodup (f : Forest Name) {names : List Name} (hd : names.Nodup) :
    popAll f names = ((names.map f).filterMap Tree.newest?,
      fun n => if n ∈ names then (f n).withoutNewest else f n) := by
  induction names generalizing f with
  | nil => simp [popAll]
  | cons name names ih =>
    obtain ⟨hname, hnames⟩ := List.nodup_cons.mp hd
    have hold : ∀ n ∈ names, (f.put name (f name).withoutNewest) n = f n := fun n hn =>
      Store.put_of_ne _ _ fun heq => hname (heq ▸ hn)
    rw [popAll, ih _ hnames]
    refine Prod.ext ?_ (funext fun n => ?_)
    · simp only [List.map_congr_left hold, List.map_cons, List.filterMap_cons]
      cases (f name).newest? <;> rfl
    · by_cases hn : n = name
      · subst hn
        simp [hname]
      · simp [hn, Store.put_of_ne _ _ hn]

theorem popAll_of_not_mem (f : Forest Name) {names : List Name} {n : Name} (hn : n ∉ names) :
    (popAll f names).2 n = f n := by
  induction names generalizing f with
  | nil => rfl
  | cons name names ih =>
    obtain ⟨hname, hnames⟩ := not_or.mp (List.mem_cons.not.mp hn)
    rw [popAll, ih _ hnames, Store.put_of_ne _ _ hname]

theorem regroup_of_not_mem (f : Forest Name) (logic : Logic) {target : Name} {sources : List Name}
    {n : Name} (htarget : n ≠ target) (hsources : n ∉ sources) :
    regroup f logic target sources n = f n := by
  rw [regroup, Store.put_of_ne _ _ htarget, popAll_of_not_mem f hsources]

theorem popAll_replicate (f : Forest Name) (name : Name) (count : Nat) :
    popAll f (.replicate count name) = ((f name).roots.reverse.take count,
      f.put name ⟨(f name).roots.take ((f name).size - count)⟩) := by
  induction count generalizing f with
  | zero => simp [popAll, Tree.size, Store.put]
  | succ count ih =>
    rw [List.replicate_succ, popAll, ih]
    rcases List.eq_nil_or_concat (f name).roots with hroots | ⟨roots, node, hroots⟩
    · simp [Tree.newest?, Tree.withoutNewest, Tree.size, hroots]
    · have hsize : roots.length + 1 - (count + 1) = roots.length - count := by omega
      simp [Tree.newest?, Tree.withoutNewest, Tree.size, hroots, hsize, List.take_append]

/-! ## The three ways to compose -/

/-- One call that composes trees. The trees it works on are different ones. -/
inductive Composition (Name : Type) where
  | siblings (target : Name) (sources : List Name) (distinct : (target :: sources).Nodup)
  | withSelf (target : Name) (sources : List Name) (distinct : (target :: sources).Nodup)
  | recent (target : Name) (count : Nat)

namespace Composition

def target : Composition Name → Name
  | .siblings target _ _ => target
  | .withSelf target _ _ => target
  | .recent target _ => target

def sources : Composition Name → List Name
  | .siblings _ sources _ => sources
  | .withSelf target sources _ => target :: sources
  | .recent target count => .replicate count target

def apply (logic : Logic) (f : Forest Name) : Composition Name → Forest Name
  | .siblings target sources _ => f.lend target sources fun t ts => t.compose logic ts
  | .withSelf target sources _ => f.lend target sources fun t ts => t.composeWithSelf logic ts
  | .recent target count => f.put target ((f target).composeRecent logic count)

end Composition

theorem putAll_withoutNewest (f : Forest Name) {names : List Name} (hd : names.Nodup) :
    f.putAll names ((names.map f).map Tree.withoutNewest) = (popAll f names).2 := by
  rw [List.map_map, Store.putAll_map, popAll_of_nodup f hd]
  rfl

theorem lend_compose (f : Forest Name) (logic : Logic) {target : Name} {siblings : List Name}
    (hd : (target :: siblings).Nodup) :
    (f.lend target siblings fun t ts => t.compose logic ts) = regroup f logic target siblings := by
  obtain ⟨htarget, hsiblings⟩ := List.nodup_cons.mp hd
  have hsame : (popAll f siblings).2 target = f target := by
    simp [popAll_of_nodup f hsiblings, htarget]
  have hnodes : (popAll f siblings).1 = (siblings.map f).filterMap Tree.newest? := by
    rw [popAll_of_nodup f hsiblings]
  simp only [Store.lend, Tree.compose, Tree.regroup, Group.toNode, regroup]
  rw [putAll_withoutNewest f hsiblings, hsame, hnodes]

theorem lend_composeWithSelf (f : Forest Name) (logic : Logic) {target : Name}
    {siblings : List Name} (hd : (target :: siblings).Nodup) :
    (f.lend target siblings fun t ts => t.composeWithSelf logic ts) =
      regroup f logic target (target :: siblings) := by
  obtain ⟨htarget, hsiblings⟩ := List.nodup_cons.mp hd
  have hrest : ∀ n, n ≠ target → (popAll f (target :: siblings)).2 n = (popAll f siblings).2 n := by
    intro n hn
    simp [popAll_of_nodup f hd, popAll_of_nodup f hsiblings, hn]
  simp only [Store.lend, Tree.composeWithSelf, Group.toNode, regroup]
  rw [putAll_withoutNewest f hsiblings]
  funext n
  by_cases hn : n = target
  · subst hn
    simp [popAll_of_nodup f hd]
  · rw [Store.put_of_ne _ _ hn, Store.put_of_ne _ _ hn, hrest n hn]

theorem put_composeRecent (f : Forest Name) (logic : Logic) (target : Name) (count : Nat) :
    f.put target ((f target).composeRecent logic count) =
      regroup f logic target (.replicate count target) := by
  simp [regroup, popAll_replicate, Tree.composeRecent, Group.toNode]

theorem Composition.apply_eq_regroup (logic : Logic) (f : Forest Name) (c : Composition Name) :
    c.apply logic f = regroup f logic c.target c.sources := by
  cases c with
  | siblings target sources distinct => exact lend_compose f logic distinct
  | withSelf target sources distinct => exact lend_composeWithSelf f logic distinct
  | recent target count => exact put_composeRecent f logic target count

/-- The nodes that a call takes, in the order in which it takes them. -/
def Composition.popped (f : Forest Name) (c : Composition Name) : List Node :=
  (popAll f c.sources).1

theorem Composition.newest?_apply (logic : Logic) (f : Forest Name) (c : Composition Name) :
    (c.apply logic f c.target).newest? = some (.group logic (c.popped f)) := by
  rw [apply_eq_regroup, regroup, Store.put_self]
  simp [Tree.newest?, Tree.add, popped]

def composeAll (logic : Logic) (f : Forest Name) (calls : List (Composition Name)) : Forest Name :=
  calls.foldl (fun f c => c.apply logic f) f

end Forest

end TableQuery

import Mathlib.Algebra.BigOperators.Group.Finset.Basic
import Mathlib.Algebra.Order.Group.Multiset
import Mathlib.Tactic.Abel
import TableQuery.Proofs.Filter.Forest

/-!
# Nodes are conserved

Calls move nodes between trees, hand nodes out and put popped nodes into new groups. What the trees
hold and what was handed out is together what was there before, what was added, and the groups that
were formed.
-/

namespace TableQuery

/-! ## What is inside a node -/

namespace Node

mutual

/-- The node and all nodes below it, each with its whole subtree and as often as it occurs. -/
def occurrences : Node → Multiset Node
  | .predicate p => {.predicate p}
  | .group logic children => {.group logic children} + occurrencesAll children

def occurrencesAll : List Node → Multiset Node
  | [] => 0
  | node :: nodes => occurrences node + occurrencesAll nodes

end

mutual

/-- The predicates at the leaves, each as often as it occurs. -/
def predicates : Node → Multiset Predicate
  | .predicate p => {p}
  | .group _ children => predicatesAll children

def predicatesAll : List Node → Multiset Predicate
  | [] => 0
  | node :: nodes => predicates node + predicatesAll nodes

end

theorem occurrencesAll_eq_sum (nodes : List Node) :
    occurrencesAll nodes = (nodes.map occurrences).sum := by
  induction nodes with
  | nil => rfl
  | cons node nodes ih => rw [occurrencesAll, ih, List.map_cons, List.sum_cons]

theorem predicatesAll_eq_sum (nodes : List Node) :
    predicatesAll nodes = (nodes.map predicates).sum := by
  induction nodes with
  | nil => rfl
  | cons node nodes ih => rw [predicatesAll, ih, List.map_cons, List.sum_cons]

/-- A group weighs something of its own and what its children weigh. -/
def Composite {M : Type} [AddCommMonoid M] (weight own : Node → M) : Prop :=
  ∀ logic nodes, weight (.group logic nodes) = own (.group logic nodes) + (nodes.map weight).sum

theorem composite_occurrences : Composite occurrences fun node => {node} := fun logic nodes => by
  rw [occurrences, occurrencesAll_eq_sum]

theorem composite_predicates : Composite predicates fun _ => 0 := fun logic nodes => by
  rw [predicates, predicatesAll_eq_sum, zero_add]

theorem sum_singletons (nodes : List Node) :
    (nodes.map fun node => ({node} : Multiset Node)).sum = nodes := by
  induction nodes with
  | nil => rfl
  | cons node nodes ih => rw [List.map_cons, List.sum_cons, ih]; rfl

end Node

/-! ## What trees and forests weigh -/

namespace Tree

variable {M : Type} [AddCommMonoid M] (weight : Node → M)

def total (t : Tree) : M := (t.roots.map weight).sum

theorem total_add (t : Tree) (node : Node) :
    (t.add node).total weight = t.total weight + weight node := by
  simp [total, add]

theorem total_eq_newest_add_rest (t : Tree) :
    t.total weight = (t.newest?.toList.map weight).sum + t.withoutNewest.total weight := by
  unfold total newest? withoutNewest
  rcases List.eq_nil_or_concat t.roots with hroots | ⟨roots, node, hroots⟩
  · simp [hroots]
  · simp [hroots, add_comm]

end Tree

namespace Forest

variable {Name : Type} [Fintype Name] [DecidableEq Name] {M : Type} [AddCommMonoid M]
  (weight : Node → M)

def total (f : Forest Name) : M := ∑ n, (f n).total weight

theorem total_eq_at (f : Forest Name) (name : Name) :
    f.total weight = (f name).total weight + ∑ n ∈ Finset.univ.erase name, (f n).total weight :=
  (Finset.add_sum_erase _ _ (Finset.mem_univ name)).symm

theorem total_put (f : Forest Name) (name : Name) (t : Tree) :
    total weight (f.put name t) =
      t.total weight + ∑ n ∈ Finset.univ.erase name, (f n).total weight := by
  rw [total_eq_at weight _ name, Store.put_self]
  congr 1
  refine Finset.sum_congr rfl fun n hn => ?_
  rw [Store.put_of_ne _ _ (Finset.ne_of_mem_erase hn)]

theorem total_put_add (f : Forest Name) (name : Name) (node : Node) :
    total weight (f.put name ((f name).add node)) = f.total weight + weight node := by
  rw [total_put, total_eq_at weight f name, Tree.total_add, add_right_comm]

theorem total_pop (f : Forest Name) (name : Name) :
    f.total weight = ((f name).newest?.toList.map weight).sum +
      total weight (f.put name (f name).withoutNewest) := by
  rw [total_put, total_eq_at weight f name, Tree.total_eq_newest_add_rest, add_assoc]

theorem total_popAll (f : Forest Name) (names : List Name) :
    f.total weight = ((popAll f names).1.map weight).sum + total weight (popAll f names).2 := by
  induction names generalizing f with
  | nil => simp [popAll]
  | cons name names ih =>
    rw [total_pop weight f name, ih (f.put name _), popAll, List.map_append, List.sum_append,
      add_assoc]

theorem total_regroup (f : Forest Name) (logic : Logic) (target : Name) (sources : List Name) :
    total weight (f.regroup logic target sources) =
      total weight (popAll f sources).2 + weight (.group logic (popAll f sources).1) :=
  total_put_add weight (popAll f sources).2 target _

omit [DecidableEq Name] in
theorem size_eq_total (f : Forest Name) : ∑ n, (f n).size = f.total fun _ => 1 := by
  refine Finset.sum_congr rfl fun n _ => ?_
  simp [Tree.size, Tree.total]

theorem size_apply (logic : Logic) (f : Forest Name) (c : Composition Name) :
    ∑ n, (c.apply logic f n).size + (c.popped f).length = ∑ n, (f n).size + 1 := by
  have hpopped : ((c.popped f).map fun _ => 1).sum = (c.popped f).length := by simp
  rw [size_eq_total, size_eq_total, Composition.apply_eq_regroup, total_regroup,
    total_popAll _ f c.sources, ← hpopped, Composition.popped]
  omega

end Forest

/-! ## Calls and runs -/

namespace Forest

variable {Name : Type} [DecidableEq Name]

/-- One call on trees under names. The trees that one call works on are different ones. -/
inductive Call (Name : Type) where
  | add (name : Name) (node : Node)
  | pop (name : Name)
  | regroup (logic : Logic) (sources : List Name) (distinct : sources.Nodup)
  | compose (logic : Logic) (c : Composition Name)

namespace Call

/-- The forest after the call, and the nodes that the caller is handed: the popped one, or the group
of a regrouping. -/
def apply (f : Forest Name) : Call Name → Forest Name × List Node
  | .add name node => (f.put name ((f name).add node), [])
  | .pop name => (f.put name (f name).withoutNewest, (f name).newest?.toList)
  | .regroup logic sources _ =>
    let made := Tree.regroup logic (sources.map f)
    (f.putAll sources made.2, [made.1.toNode])
  | .compose logic c => (c.apply logic f, [])

def added : Call Name → List Node
  | .add _ node => [node]
  | _ => []

/-- The group that a regrouping or a composition forms. -/
def formed (f : Forest Name) : Call Name → List Node
  | .regroup logic sources _ => [(Tree.regroup logic (sources.map f)).1.toNode]
  | .compose logic c => [.group logic (c.popped f)]
  | _ => []

end Call

/-- The forest after a run of calls, and all nodes that were handed out. -/
def run (f : Forest Name) : List (Call Name) → Forest Name × List Node
  | [] => (f, [])
  | call :: calls =>
    let later := run (call.apply f).1 calls
    (later.1, (call.apply f).2 ++ later.2)

def formed (f : Forest Name) : List (Call Name) → List Node
  | [] => []
  | call :: calls => call.formed f ++ formed (call.apply f).1 calls

theorem regroup_eq_popAll (f : Forest Name) (logic : Logic) {sources : List Name}
    (hd : sources.Nodup) :
    (Tree.regroup logic (sources.map f)).1.toNode = .group logic (popAll f sources).1 ∧
      f.putAll sources (Tree.regroup logic (sources.map f)).2 = (popAll f sources).2 := by
  refine ⟨?_, putAll_withoutNewest f hd⟩
  rw [popAll_of_nodup f hd]
  rfl

variable [Fintype Name] {M : Type} [AddCommMonoid M] {weight own : Node → M}

/-- Nothing is gained but what is added and what the new groups weigh on their own. -/
theorem total_call (hgroup : Node.Composite weight own) (f : Forest Name) (call : Call Name) :
    total weight (call.apply f).1 + ((call.apply f).2.map weight).sum =
      f.total weight + (call.added.map weight).sum + ((call.formed f).map own).sum := by
  cases call with
  | add name node => simp [Call.apply, Call.added, Call.formed, total_put_add]
  | pop name =>
    rw [total_pop weight f name]
    simp [Call.apply, Call.added, Call.formed, add_comm]
  | regroup logic sources distinct =>
    obtain ⟨hmade, hrest⟩ := regroup_eq_popAll f logic distinct
    simp only [Call.apply, Call.added, Call.formed, hmade, hrest, List.map_cons, List.map_nil,
      List.sum_cons, List.sum_nil, add_zero, hgroup logic, total_popAll weight f sources]
    abel
  | compose logic c =>
    simp only [Call.apply, Call.added, Call.formed, Composition.apply_eq_regroup, total_regroup,
      Composition.popped, List.map_cons, List.map_nil, List.sum_cons, List.sum_nil, add_zero,
      hgroup logic, total_popAll weight f c.sources]
    abel

theorem total_run (hgroup : Node.Composite weight own) (f : Forest Name)
    (calls : List (Call Name)) :
    total weight (run f calls).1 + ((run f calls).2.map weight).sum =
      f.total weight + ((calls.flatMap Call.added).map weight).sum +
        ((formed f calls).map own).sum := by
  induction calls generalizing f with
  | nil => simp [run, formed]
  | cons call calls ih =>
    have hcall := total_call hgroup f call
    simp only [run, formed, List.map_append, List.sum_append, List.flatMap_cons]
    calc total weight (run (call.apply f).1 calls).1 +
          (((call.apply f).2.map weight).sum + ((run (call.apply f).1 calls).2.map weight).sum)
        = ((call.apply f).2.map weight).sum + (total weight (run (call.apply f).1 calls).1 +
            ((run (call.apply f).1 calls).2.map weight).sum) := by abel
      _ = (total weight (call.apply f).1 + ((call.apply f).2.map weight).sum) +
            ((calls.flatMap Call.added).map weight).sum +
            ((formed (call.apply f).1 calls).map own).sum := by rw [ih]; abel
      _ = _ := by rw [hcall]; abel

omit [DecidableEq Name] in
theorem total_empty : total weight (fun _ : Name => ∅) = 0 :=
  Finset.sum_eq_zero fun _ _ => rfl

end Forest

/-- The predicates in all trees and in what was handed out are those of the nodes that were added.
Node for node, a call and a run gain what is inside the added nodes and each group that is formed,
and lose nothing. A composition forms one group of the nodes that it pops, and so changes the number
of top-level nodes by one less the number of these. -/
theorem nodes_are_conserved {Name : Type} [Fintype Name] [DecidableEq Name] :
    (∀ calls : List (Forest.Call Name),
      (Forest.run (fun _ => ∅) calls).1.total Node.predicates +
          Node.predicatesAll (Forest.run (fun _ => ∅) calls).2 =
        Node.predicatesAll (calls.flatMap Forest.Call.added)) ∧
    (∀ (f : Forest Name) (call : Forest.Call Name),
      (call.apply f).1.total Node.occurrences + Node.occurrencesAll (call.apply f).2 =
        f.total Node.occurrences + Node.occurrencesAll call.added + call.formed f) ∧
    (∀ (f : Forest Name) (calls : List (Forest.Call Name)),
      (f.run calls).1.total Node.occurrences + Node.occurrencesAll (f.run calls).2 =
        f.total Node.occurrences + Node.occurrencesAll (calls.flatMap Forest.Call.added) +
          f.formed calls) ∧
    ∀ (logic : Logic) (f : Forest Name) (c : Forest.Composition Name),
      (c.apply logic f c.target).newest? = some (.group logic (c.popped f)) ∧
      ∑ n, (c.apply logic f n).size + (c.popped f).length = ∑ n, (f n).size + 1 := by
  refine ⟨fun calls => ?_, fun f call => ?_, fun f calls => ?_, fun logic f c => ⟨?_, ?_⟩⟩
  · have h := Forest.total_run Node.composite_predicates (fun _ : Name => ∅) calls
    rw [Forest.total_empty] at h
    simpa [Node.predicatesAll_eq_sum] using h
  · rw [Node.occurrencesAll_eq_sum, Node.occurrencesAll_eq_sum,
      Forest.total_call Node.composite_occurrences, Node.sum_singletons]
  · rw [Node.occurrencesAll_eq_sum, Node.occurrencesAll_eq_sum,
      Forest.total_run Node.composite_occurrences, Node.sum_singletons]
  · exact c.newest?_apply logic f
  · exact Forest.size_apply logic f c

end TableQuery

import TableQuery.Proofs.Filter.Forest
import TableQuery.Query.Facet

/-!
# Composition of queries

A query that composes does to its filter tree and to those of its siblings what the trees do, and
nothing else about any query changes. A query that has no tree yet counts as one with an empty tree.
-/

namespace TableQuery

namespace Filtered

/-- A query has the tree that it was given last. -/
class Lawful (Q : Type) [Filtered Q] : Prop where
  filters?_setFilters (q : Q) (tree : Tree) : filters? (setFilters q tree) = some tree

instance : Lawful Query := ⟨fun q tree => Bag.filters?_setFilters q.params tree⟩
instance : Lawful FacetQuery := ⟨fun q tree => Bag.filters?_setFilters q.params tree⟩

variable {Q Name : Type} [Filtered Q] [DecidableEq Name]

def trees (qs : Store Name Q) : Forest Name := fun n => filters (qs n)

/-- Gives the queries that are named the trees of the forest. -/
def replant (qs : Store Name Q) (names : List Name) (f : Forest Name) : Store Name Q :=
  fun n => if n ∈ names then setFilters (qs n) (f n) else qs n

/-- Does to the trees of queries what `operation` does to trees. -/
def onTrees (operation : Tree → List Tree → Tree × List Tree) (q : Q) (siblings : List Q) :
    Q × List Q :=
  let made := operation (filters q) (siblings.map filters)
  (setFilters q made.1, List.zipWith setFilters siblings made.2)

theorem lend_onTrees (qs : Store Name Q) (target : Name) (siblings : List Name)
    (operation : Tree → List Tree → Tree × List Tree)
    (hpop : ∀ t ts, (operation t ts).2 = ts.map Tree.withoutNewest) :
    qs.lend target siblings (onTrees operation) =
      replant qs (target :: siblings) ((trees qs).lend target siblings operation) := by
  have htrees : (siblings.map qs).map filters = siblings.map (trees qs) := by
    rw [List.map_map]
    rfl
  have hqueries : List.zipWith setFilters (siblings.map qs)
      ((siblings.map (trees qs)).map Tree.withoutNewest) =
      siblings.map fun n => setFilters (qs n) (trees qs n).withoutNewest := by
    simp [List.zipWith_map, List.zipWith_self]
  funext n
  unfold Store.lend onTrees replant
  simp only [htrees, hpop, hqueries]
  by_cases hn : n = target
  · subst hn
    simp [trees]
  · rw [Store.put_of_ne _ _ hn, Store.put_of_ne _ _ hn, List.map_map, Store.putAll_map,
      Store.putAll_map]
    by_cases hmem : n ∈ siblings <;> simp [hn, hmem]

theorem trees_replant [Lawful Q] (qs : Store Name Q) (names : List Name) (f : Forest Name)
    (hf : ∀ n, n ∉ names → f n = trees qs n) : trees (replant qs names f) = f := by
  funext n
  unfold trees replant filters
  by_cases hn : n ∈ names
  · simp [hn, Lawful.filters?_setFilters]
  · rw [if_neg hn, hf n hn]
    rfl

/-- The trees of the queries are regrouped, and nothing else changes: neither a query that does not
take part nor, in one that does, anything but its tree. -/
def Regroups (logic : Logic) (target : Name) (siblings sources : List Name)
    (qs after : Store Name Q) : Prop :=
  trees after = (trees qs).regroup logic target sources ∧
    after = replant qs (target :: siblings) (trees after)

theorem regroups_replant [Lawful Q] (qs : Store Name Q) (logic : Logic) (target : Name)
    {siblings sources : List Name} (hsources : ∀ n ∈ sources, n ∈ target :: siblings) :
    Regroups logic target siblings sources qs
      (replant qs (target :: siblings) ((trees qs).regroup logic target sources)) := by
  have htrees := trees_replant qs (target :: siblings) ((trees qs).regroup logic target sources) (by
    intro n hn
    have hne : n ≠ target := fun heq => hn (by simp [heq])
    exact Forest.regroup_of_not_mem _ _ hne fun hmem => hn (hsources n hmem))
  exact ⟨htrees, by rw [htrees]⟩

theorem composeWith_regroups [Lawful Q] (qs : Store Name Q) (logic : Logic) {target : Name}
    {siblings : List Name} (hd : (target :: siblings).Nodup) :
    Regroups logic target siblings siblings qs
      (qs.lend target siblings (composeWith logic)) := by
  have h := lend_onTrees qs target siblings (fun t ts => t.compose logic ts) fun _ _ => rfl
  rw [Forest.lend_compose _ _ hd] at h
  exact h ▸ regroups_replant qs logic target fun n hn => List.mem_cons_of_mem _ hn

theorem composeWithSelf_regroups [Lawful Q] (qs : Store Name Q) (logic : Logic) {target : Name}
    {siblings : List Name} (hd : (target :: siblings).Nodup) :
    Regroups logic target siblings (target :: siblings) qs
      (qs.lend target siblings (composeWithSelf logic)) := by
  have h := lend_onTrees qs target siblings (fun t ts => t.composeWithSelf logic ts) fun _ _ => rfl
  rw [Forest.lend_composeWithSelf _ _ hd] at h
  exact h ▸ regroups_replant qs logic target fun n hn => hn

theorem composeRecent_regroups [Lawful Q] (qs : Store Name Q) (logic : Logic) (target : Name) (count : Nat) :
    Regroups logic target [] (.replicate count target) qs
      (qs.put target (composeRecent logic (qs target) count)) := by
  have h : qs.put target (composeRecent logic (qs target) count) = replant qs [target]
      ((trees qs).regroup logic target (.replicate count target)) := by
    rw [← Forest.put_composeRecent]
    funext n
    by_cases hn : n = target
    · subst hn
      simp [replant, composeRecent, trees]
    · simp [replant, Store.put_of_ne _ _ hn, hn]
  rw [h]
  exact regroups_replant qs logic target fun n hn => by simp [List.eq_of_mem_replicate hn]

/-- Each of the three ways to compose queries regroups their trees. -/
def ComposeByRegroup (logic : Logic) (target : Name) (siblings : List Name) (count : Nat)
    (qs : Store Name Q) : Prop :=
  Regroups logic target siblings siblings qs (qs.lend target siblings (composeWith logic)) ∧
  Regroups logic target siblings (target :: siblings) qs
    (qs.lend target siblings (composeWithSelf logic)) ∧
  Regroups logic target [] (.replicate count target) qs
    (qs.put target (composeRecent logic (qs target) count))

theorem composeByRegroup [Lawful Q] (qs : Store Name Q) (logic : Logic) {target : Name}
    {siblings : List Name} (hd : (target :: siblings).Nodup) (count : Nat) :
    ComposeByRegroup logic target siblings count qs :=
  ⟨composeWith_regroups qs logic hd, composeWithSelf_regroups qs logic hd,
    composeRecent_regroups qs logic target count⟩

end Filtered

/-- Composing with siblings, with the target and its siblings, and with the newest nodes of the
target are one algorithm, on trees and on the queries that own them. -/
theorem composition_is_regroup {Name : Type} [DecidableEq Name] (logic : Logic) {target : Name}
    {siblings : List Name} (hd : (target :: siblings).Nodup) (count : Nat) :
    (∀ f : Forest Name,
      (f.lend target siblings fun t ts => t.compose logic ts) =
        f.regroup logic target siblings ∧
      (f.lend target siblings fun t ts => t.composeWithSelf logic ts) =
        f.regroup logic target (target :: siblings) ∧
      f.put target ((f target).composeRecent logic count) =
        f.regroup logic target (.replicate count target)) ∧
    (∀ qs : Store Name Query, Filtered.ComposeByRegroup logic target siblings count qs) ∧
    (∀ qs : Store Name FacetQuery, Filtered.ComposeByRegroup logic target siblings count qs) := by
  refine ⟨fun f => ⟨?_, ?_, ?_⟩, fun qs => ?_, fun qs => ?_⟩
  · exact f.lend_compose logic hd
  · exact f.lend_composeWithSelf logic hd
  · exact f.put_composeRecent logic target count
  · exact Filtered.composeByRegroup qs logic hd count
  · exact Filtered.composeByRegroup qs logic hd count

/-- The target is empty, the first sibling has two nodes and the second has none. -/
theorem composition_is_regroup_empty_target :
    [0, 1, 2].Nodup ∧
    (Store.lend (.put (fun _ => ∅) 1 ⟨[.group .and [], .group .or []]⟩) 0 [1, 2]
        fun t ts => t.compose .or ts) =
      Forest.regroup (.put (fun _ => ∅) 1 ⟨[.group .and [], .group .or []]⟩) .or 0 [1, 2] ∧
    Forest.regroup (.put (fun _ => ∅) 1 ⟨[.group .and [], .group .or []]⟩) .or 0 [1, 2] 0 =
      ⟨[.group .or [.group .or []]]⟩ :=
  ⟨by decide, ((composition_is_regroup .or (by decide) 0).1 _).1, rfl⟩

end TableQuery

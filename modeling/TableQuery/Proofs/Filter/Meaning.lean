import TableQuery.Proofs.Filter.Forest

/-!
# What filters mean

A valuation says which predicates hold. Composition under `and` keeps what the trees of a forest
mean together; composition under `or` can only allow more, except that a group of nothing allows
nothing.
-/

namespace TableQuery

/-! ## Nodes and trees -/

namespace Node

mutual

def eval (v : Predicate → Bool) : Node → Bool
  | .predicate p => v p
  | .group .and children => evalAll v children
  | .group .or children => evalAny v children

def evalAll (v : Predicate → Bool) : List Node → Bool
  | [] => true
  | node :: nodes => eval v node && evalAll v nodes

def evalAny (v : Predicate → Bool) : List Node → Bool
  | [] => false
  | node :: nodes => eval v node || evalAny v nodes

end

variable (v : Predicate → Bool)

theorem evalAll_eq_all (nodes : List Node) : evalAll v nodes = nodes.all (eval v) := by
  induction nodes with
  | nil => rfl
  | cons node nodes ih => rw [evalAll, ih, List.all_cons]

theorem evalAny_eq_any (nodes : List Node) : evalAny v nodes = nodes.any (eval v) := by
  induction nodes with
  | nil => rfl
  | cons node nodes ih => rw [evalAny, ih, List.any_cons]

theorem eval_and (nodes : List Node) : eval v (.group .and nodes) = nodes.all (eval v) := by
  rw [eval, evalAll_eq_all]

theorem eval_or (nodes : List Node) : eval v (.group .or nodes) = nodes.any (eval v) := by
  rw [eval, evalAny_eq_any]

end Node

namespace Tree

/-- All top-level nodes have to hold. -/
def eval (v : Predicate → Bool) (t : Tree) : Bool := t.roots.all (Node.eval v)

variable (v : Predicate → Bool)

theorem eval_add (t : Tree) (node : Node) : (t.add node).eval v = (t.eval v && node.eval v) := by
  simp [eval, add]

theorem eval_eq_newest_and_rest (t : Tree) :
    t.eval v = (t.newest?.toList.all (Node.eval v) && t.withoutNewest.eval v) := by
  unfold eval newest? withoutNewest
  rcases List.eq_nil_or_concat t.roots with hroots | ⟨roots, node, hroots⟩
  · simp [hroots]
  · simp [hroots, Bool.and_comm]

theorem eval_root {t : Tree} (ht : t.roots ≠ []) :
    ∃ root, t.root? = some root ∧ root.eval v = t.eval v := by
  unfold root? eval
  match hroots : t.roots with
  | [] => exact absurd hroots ht
  | [node] => exact ⟨node, rfl, by simp⟩
  | first :: second :: rest => exact ⟨_, rfl, Node.eval_and v _⟩

end Tree

/-! ## Forests -/

namespace Forest

variable {Name : Type} [DecidableEq Name] (v : Predicate → Bool)

def Holds (f : Forest Name) : Prop := ∀ n, (f n).eval v = true

theorem holds_iff_at (f : Forest Name) (name : Name) :
    f.Holds v ↔ (f name).eval v = true ∧ ∀ n, n ≠ name → (f n).eval v = true := by
  constructor
  · intro h
    exact ⟨h name, fun n _ => h n⟩
  · rintro ⟨hname, hothers⟩ n
    by_cases hn : n = name
    · exact hn ▸ hname
    · exact hothers n hn

theorem holds_put (f : Forest Name) (name : Name) (t : Tree) :
    Holds v (f.put name t) ↔ t.eval v = true ∧ ∀ n, n ≠ name → (f n).eval v = true := by
  rw [holds_iff_at v _ name, Store.put_self]
  refine and_congr_right fun _ => forall₂_congr fun n hn => ?_
  rw [Store.put_of_ne _ _ hn]

theorem holds_put_add (f : Forest Name) (name : Name) (node : Node) :
    Holds v (f.put name ((f name).add node)) ↔ f.Holds v ∧ node.eval v = true := by
  rw [holds_put, holds_iff_at v f name, Tree.eval_add, Bool.and_eq_true]
  exact and_right_comm

theorem holds_pop (f : Forest Name) (name : Name) :
    f.Holds v ↔ (f name).newest?.toList.all (Node.eval v) = true ∧
      Holds v (f.put name (f name).withoutNewest) := by
  rw [holds_put, holds_iff_at v f name, Tree.eval_eq_newest_and_rest, Bool.and_eq_true, and_assoc]

/-- What is popped and what is left mean together what was there. -/
theorem holds_popAll (f : Forest Name) (names : List Name) :
    f.Holds v ↔ (popAll f names).1.all (Node.eval v) = true ∧ Holds v (popAll f names).2 := by
  induction names generalizing f with
  | nil => simp [popAll]
  | cons name names ih =>
    rw [holds_pop v f name, ih (f.put name _), popAll, List.all_append, Bool.and_eq_true, and_assoc]

theorem holds_regroup (f : Forest Name) (logic : Logic) (target : Name) (sources : List Name) :
    Holds v (f.regroup logic target sources) ↔
      Holds v (popAll f sources).2 ∧ (Node.group logic (popAll f sources).1).eval v = true :=
  holds_put_add v (popAll f sources).2 target (.group logic (popAll f sources).1)

/-! ## Calls and runs -/

theorem holds_apply (logic : Logic) (f : Forest Name) (c : Composition Name) :
    Holds v (c.apply logic f) ↔
      Holds v (popAll f c.sources).2 ∧ (Node.group logic (c.popped f)).eval v = true := by
  rw [Composition.apply_eq_regroup, holds_regroup]
  rfl

theorem holds_apply_and (f : Forest Name) (c : Composition Name) :
    Holds v (c.apply .and f) ↔ f.Holds v := by
  rw [holds_apply, Node.eval_and, holds_popAll v f c.sources]
  exact and_comm

theorem holds_composeAll_and (f : Forest Name) (calls : List (Composition Name)) :
    Holds v (composeAll .and f calls) ↔ f.Holds v := by
  induction calls generalizing f with
  | nil => rfl
  | cons c calls ih => exact (ih (c.apply .and f)).trans (holds_apply_and v f c)

theorem holds_apply_or (f : Forest Name) (c : Composition Name) (hne : c.popped f ≠ [])
    (hf : f.Holds v) : Holds v (c.apply .or f) := by
  obtain ⟨hall, hrest⟩ := (holds_popAll v f c.sources).mp hf
  obtain ⟨node, hnode⟩ := List.exists_mem_of_ne_nil _ hne
  rw [holds_apply, Node.eval_or, List.any_eq_true]
  exact ⟨hrest, node, hnode, List.all_eq_true.mp hall node hnode⟩

theorem holds_apply_or_of_one (f : Forest Name) (c : Composition Name)
    (hone : (c.popped f).length = 1) : Holds v (c.apply .or f) ↔ f.Holds v := by
  obtain ⟨node, hnode⟩ := List.length_eq_one_iff.mp hone
  have hpopped : (popAll f c.sources).1 = [node] := hnode
  rw [holds_apply, Node.eval_or, hnode, holds_popAll v f c.sources, hpopped]
  simp [and_comm]

theorem eval_apply_or_of_nothing (f : Forest Name) (c : Composition Name)
    (hnone : c.popped f = []) : (c.apply .or f c.target).eval v = false := by
  rw [Tree.eval_eq_newest_and_rest, Composition.newest?_apply, hnone]
  simp [Node.eval_or]

end Forest

/-- The root means what the tree means; runs of compositions under `and` keep what all trees mean
together; one under `or` that pops something allows at least as much, and exactly as much if it pops
one node; and one that pops nothing leaves a target that never holds. -/
theorem composition_keeps_meaning {Name : Type} [DecidableEq Name] (v : Predicate → Bool) :
    (∀ t : Tree, t.roots ≠ [] → ∃ root, t.root? = some root ∧ root.eval v = t.eval v) ∧
    (∀ (f : Forest Name) (calls : List (Forest.Composition Name)),
      (f.composeAll .and calls).Holds v ↔ f.Holds v) ∧
    ∀ (f : Forest Name) (c : Forest.Composition Name),
      (c.apply .or f c.target).newest? = some (.group .or (c.popped f)) ∧
      (c.popped f ≠ [] → f.Holds v → (c.apply .or f).Holds v) ∧
      ((c.popped f).length = 1 → ((c.apply .or f).Holds v ↔ f.Holds v)) ∧
      (c.popped f = [] → (c.apply .or f c.target).eval v = false) := by
  refine ⟨fun t ht => Tree.eval_root v ht, fun f calls => ?_, fun f c => ⟨?_, ?_, ?_, ?_⟩⟩
  · exact f.holds_composeAll_and v calls
  · exact c.newest?_apply .or f
  · exact fun hne hf => f.holds_apply_or v c hne hf
  · exact f.holds_apply_or_of_one v c
  · exact f.eval_apply_or_of_nothing v c

/-- Each tree has one node, an empty conjunction. -/
theorem composition_keeps_meaning_one_node_each :
    (∃ root, Tree.root? ⟨[.group .and []]⟩ = some root ∧
      root.eval (fun _ => false) = Tree.eval (fun _ => false) ⟨[.group .and []]⟩) ∧
    Forest.Holds (fun _ => false) ((Forest.Composition.withSelf 0 [1, 2] (by decide)).apply .or
      fun _ => ⟨[.group .and []]⟩) ∧
    (Forest.Holds (fun _ => false) ((Forest.Composition.recent 0 3).apply .or
      fun _ => ⟨[.group .and []]⟩) ↔ Forest.Holds (fun _ => false) fun _ : Nat => ⟨[.group .and []]⟩) ∧
    ((Forest.Composition.siblings 0 [] (by decide)).apply .or (fun _ => ⟨[.group .and []]⟩) 0).eval
      (fun _ => false) = false := by
  have h := @composition_keeps_meaning Nat _ fun _ => false
  refine ⟨h.1 _ (List.cons_ne_nil _ _), ?_, ?_, ?_⟩
  · exact (h.2.2 _ _).2.1 (List.cons_ne_nil _ _) fun _ => rfl
  · exact (h.2.2 _ _).2.2.1 rfl
  · exact (h.2.2 _ (.siblings 0 [] (by decide))).2.2.2 rfl

end TableQuery

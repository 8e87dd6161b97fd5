import Mathlib.Data.Multiset.Lattice
import Mathlib.Order.Lattice.Nat
import TableQuery.Proofs.Filter.Conservation
import TableQuery.Proofs.Json.Depth

/-!
# How deep filters are

A composition puts what it pops one level deeper and takes no level away. The text of a filter nests
two containers for each level of the filter, so a reader with a limit reads filters up to half of it.
-/

namespace TableQuery

/-! ## Levels of nodes and of trees -/

namespace Node

theorem depthAll_eq_sup (nodes : List Node) :
    depthAll nodes = ((nodes : Multiset Node).map depth).sup := by
  induction nodes with
  | nil => rfl
  | cons node nodes ih =>
    rw [depthAll, ih, ← Multiset.cons_coe, Multiset.map_cons, Multiset.sup_cons]

theorem depth_group (logic : Logic) (nodes : List Node) :
    (Node.group logic nodes).depth = 1 + ((nodes : Multiset Node).map depth).sup := by
  rw [depth, depthAll_eq_sup, Nat.add_comm]

theorem depth_lt_of_mem {node : Node} {nodes : List Node} (h : node ∈ nodes) (logic : Logic) :
    node.depth < (Node.group logic nodes).depth := by
  have hle : node.depth ≤ ((nodes : Multiset Node).map depth).sup :=
    Multiset.le_sup (Multiset.mem_map_of_mem depth (Multiset.mem_coe.mpr h))
  rw [depth_group]
  omega

end Node

namespace Tree

theorem mem_roots_iff (t : Tree) (node : Node) :
    node ∈ t.roots ↔ node ∈ t.newest?.toList ∨ node ∈ t.withoutNewest.roots := by
  unfold newest? withoutNewest
  rcases List.eq_nil_or_concat t.roots with hroots | ⟨roots, last, hroots⟩
  · simp [hroots]
  · simp [hroots, or_comm]

theorem depth_root? (t : Tree) :
    t.root?.map Node.depth =
      match t.roots with
      | [] => none
      | [node] => some node.depth
      | nodes => some (1 + ((nodes : Multiset Node).map Node.depth).sup) := by
  unfold root?
  match t.roots with
  | [] => rfl
  | [node] => rfl
  | first :: second :: rest => exact congrArg some (Node.depth_group .and _)

end Tree

/-! ## Composition takes no level away -/

namespace Forest

variable {Name : Type} [DecidableEq Name]

/-- Some top-level node is at least so deep. -/
def HasDepth (f : Forest Name) (d : Nat) : Prop := ∃ n, ∃ node ∈ (f n).roots, d ≤ node.depth

def composeEach (f : Forest Name) (calls : List (Logic × Composition Name)) : Forest Name :=
  calls.foldl (fun f call => call.2.apply call.1 f) f

theorem mem_popAll (f : Forest Name) (names : List Name) {n : Name} {node : Node}
    (h : node ∈ (f n).roots) :
    node ∈ (popAll f names).1 ∨ node ∈ ((popAll f names).2 n).roots := by
  induction names generalizing f with
  | nil => exact .inr h
  | cons name names ih =>
    rw [popAll, List.mem_append]
    by_cases hn : n = name
    · subst hn
      rcases (Tree.mem_roots_iff _ node).mp h with hnewest | hrest
      · exact .inl (.inl hnewest)
      · have hput : node ∈ (f.put n (f n).withoutNewest n).roots := by rwa [Store.put_self]
        rcases ih _ hput with hlater | hstays
        · exact .inl (.inr hlater)
        · exact .inr hstays
    · have hput : node ∈ (f.put name (f name).withoutNewest n).roots := by
        rwa [Store.put_of_ne _ _ hn]
      rcases ih _ hput with hlater | hstays
      · exact .inl (.inr hlater)
      · exact .inr hstays

theorem hasDepth_apply {f : Forest Name} {d : Nat} (h : f.HasDepth d) (logic : Logic)
    (c : Composition Name) : (c.apply logic f).HasDepth d := by
  rw [Composition.apply_eq_regroup]
  obtain ⟨n, node, hnode, hd⟩ := h
  rcases mem_popAll f c.sources hnode with hpopped | hstays
  · refine ⟨c.target, .group logic (popAll f c.sources).1, by simp [regroup, Tree.add], ?_⟩
    exact hd.trans (Node.depth_lt_of_mem hpopped logic).le
  · refine ⟨n, node, ?_, hd⟩
    by_cases hn : n = c.target
    · subst hn
      simp [regroup, Tree.add, hstays]
    · rwa [regroup, Store.put_of_ne _ _ hn]

theorem hasDepth_composeEach {f : Forest Name} {d : Nat} (h : f.HasDepth d)
    (calls : List (Logic × Composition Name)) : (f.composeEach calls).HasDepth d := by
  induction calls generalizing f with
  | nil => exact h
  | cons call calls ih => exact ih (hasDepth_apply h call.1 call.2)

end Forest

/-! ## Levels of the text -/

namespace Json

def isScalar : Json → Bool
  | .array _ => false
  | .object _ => false
  | _ => true

theorem nesting_of_isScalar {v : Json} (h : v.isScalar) : v.nesting = 0 := by
  cases v with
  | array items => cases h
  | object members => cases h
  | _ => rfl

theorem ordered_of_isScalar {v : Json} (h : v.isScalar) : v.Ordered := by
  cases v with
  | array items => cases h
  | object members => cases h
  | _ => trivial

theorem nesting_member (key : String) (v : Json) :
    (Json.object [(key, v)]).nesting = v.nesting + 1 := by
  simp [nesting, nestingMembers]

theorem ordered_member (key : String) {v : Json} (h : v.Ordered) :
    (Json.object [(key, v)]).Ordered := ⟨List.pairwise_singleton .., h, trivial⟩

end Json

def operandNesting (ps : Multiset Predicate) : Nat := (ps.map fun p => p.operand.nesting).sup

theorem operandNesting_add (ps qs : Multiset Predicate) :
    operandNesting (ps + qs) = max (operandNesting ps) (operandNesting qs) := by
  simp [operandNesting]

theorem operandNesting_of_scalars {ps : Multiset Predicate} (h : ∀ p ∈ ps, p.operand.isScalar) :
    operandNesting ps = 0 := by
  refine Nat.le_zero.mp (Multiset.sup_le.mpr fun n hn => ?_)
  obtain ⟨p, hp, rfl⟩ := Multiset.mem_map.mp hn
  exact (Json.nesting_of_isScalar (h p hp)).le

namespace Node

-- A predicate and a group both write two containers around what they hold.
mutual

theorem nesting_toJson_bounds : ∀ node : Node, 2 * node.depth ≤ node.toJson.nesting ∧
    node.toJson.nesting ≤ 2 * node.depth + operandNesting node.predicates
  | .predicate p => by
    have hoperand : operandNesting (Node.predicate p).predicates = p.operand.nesting := by
      simp [operandNesting, predicates]
    rw [hoperand, toJson, Predicate.toJson, Json.nesting_member, Json.nesting_member, depth]
    omega
  | .group logic children => by
    have h := nestingItems_toJsonAll_bounds children
    rw [toJson, Json.nesting_member, Json.nesting, depth, predicates]
    omega

theorem nestingItems_toJsonAll_bounds : ∀ nodes : List Node,
    2 * depthAll nodes ≤ Json.nestingItems (toJsonAll nodes) ∧
    Json.nestingItems (toJsonAll nodes) ≤ 2 * depthAll nodes + operandNesting (predicatesAll nodes)
  | [] => by simp [depthAll, toJsonAll, Json.nestingItems]
  | node :: nodes => by
    have hnode := nesting_toJson_bounds node
    have hnodes := nestingItems_toJsonAll_bounds nodes
    rw [depthAll, toJsonAll, Json.nestingItems, predicatesAll, operandNesting_add]
    omega

end

theorem nesting_toJson_of_scalars {node : Node} (h : ∀ p ∈ node.predicates, p.operand.isScalar) :
    node.toJson.nesting = 2 * node.depth := by
  have hbounds := nesting_toJson_bounds node
  rw [operandNesting_of_scalars h] at hbounds
  omega

mutual

theorem ordered_toJson : ∀ node : Node, (∀ p ∈ node.predicates, p.operand.Ordered) →
    node.toJson.Ordered
  | .predicate p, h =>
    Json.ordered_member _ (Json.ordered_member _ (h p (by simp [predicates])))
  | .group logic children, h => Json.ordered_member _ (orderedItems_toJsonAll children h)

theorem orderedItems_toJsonAll : ∀ nodes : List Node,
    (∀ p ∈ predicatesAll nodes, p.operand.Ordered) → Json.OrderedItems (toJsonAll nodes)
  | [], _ => trivial
  | node :: nodes, h => by
    refine ⟨ordered_toJson node fun p hp => h p ?_, orderedItems_toJsonAll nodes fun p hp => h p ?_⟩
    · exact Multiset.mem_add.mpr (.inl hp)
    · exact Multiset.mem_add.mpr (.inr hp)

end

/-- Two containers a level, and no more than the reader allows. -/
theorem exists_parse_render_toJson_iff {node : Node}
    (h : ∀ p ∈ node.predicates, p.operand.isScalar) :
    (∃ v, Json.parse node.toJson.render = .ok v) ↔ node.depth ≤ 63 := by
  have hordered : node.toJson.Ordered :=
    ordered_toJson node fun p hp => Json.ordered_of_isScalar (h p hp)
  rw [Json.exists_parse_render_iff hordered, nesting_toJson_of_scalars h, Json.maxNesting]
  omega

end Node

/-- A composed group is one level deeper than the deepest node that it takes, and no run of
compositions makes the deepest node less deep. The text of a filter nests two containers for each
level, but for what is nested in the operands, so a reader gets through 63 levels and no more. -/
theorem filters_nest_by_depth {Name : Type} [DecidableEq Name] :
    (∀ (logic : Logic) (f : Forest Name) (c : Forest.Composition Name),
      (c.apply logic f c.target).newest? = some (.group logic (c.popped f)) ∧
      (Node.group logic (c.popped f)).depth =
        1 + ((c.popped f : Multiset Node).map Node.depth).sup ∧
      ∀ node ∈ c.popped f, node.depth < (Node.group logic (c.popped f)).depth) ∧
    (∀ (f : Forest Name) (calls : List (Logic × Forest.Composition Name)) (d : Nat),
      f.HasDepth d → (f.composeEach calls).HasDepth d) ∧
    (∀ t : Tree, t.root?.map Node.depth =
      match t.roots with
      | [] => none
      | [node] => some node.depth
      | nodes => some (1 + ((nodes : Multiset Node).map Node.depth).sup)) ∧
    (∀ node : Node,
      2 * node.depth ≤ node.toJson.nesting ∧
      node.toJson.nesting ≤ 2 * node.depth + operandNesting node.predicates ∧
      ((∀ p ∈ node.predicates, p.operand.isScalar) → node.toJson.nesting = 2 * node.depth)) ∧
    ∀ (t : Tree) (root : Node) (text : String), t.root? = some root → t.render? = some text →
      (∀ p ∈ root.predicates, p.operand.isScalar) →
      ((∃ v, Json.parse text = .ok v) ↔ root.depth ≤ 63) := by
  refine ⟨fun logic f c => ⟨?_, ?_, ?_⟩, ?_, ?_, fun node => ?_, ?_⟩
  · exact c.newest?_apply logic f
  · exact Node.depth_group logic _
  · intro node hnode
    exact Node.depth_lt_of_mem hnode logic
  · intro f calls d h
    exact Forest.hasDepth_composeEach h calls
  · exact Tree.depth_root?
  · obtain ⟨hlower, hupper⟩ := Node.nesting_toJson_bounds node
    exact ⟨hlower, hupper, Node.nesting_toJson_of_scalars⟩
  · intro t root text hroot htext hscalars
    have hrender : t.render? = some root.toJson.render := by
      rw [Tree.render?, Tree.toJson?, hroot]
      rfl
    obtain rfl := Option.some.inj (hrender.symm.trans htext)
    exact Node.exists_parse_render_toJson_iff hscalars

/-- A predicate in 62 groups can be read, and in one group more it cannot. -/
theorem filters_nest_by_depth_at_limit :
    let nested (n : Nat) : Node :=
      (fun node => .group .or [node])^[n] (.predicate ⟨"a", .equal, .null⟩)
    (∃ v, Json.parse (nested 62).toJson.render = .ok v) ∧
      ¬ ∃ v, Json.parse (nested 63).toJson.render = .ok v := by
  intro nested
  have hnested : ∀ n, (nested n).predicates = {⟨"a", .equal, .null⟩} ∧ (nested n).depth = n + 1 := by
    intro n
    induction n with
    | zero => exact ⟨rfl, rfl⟩
    | succ n ih =>
      simp only [nested, Function.iterate_succ_apply', Node.predicates, Node.predicatesAll,
        Node.depth, Node.depthAll] at ih ⊢
      rw [ih.1, ih.2]
      exact ⟨add_zero _, rfl⟩
  have hscalars : ∀ n, ∀ p ∈ (nested n).predicates, p.operand.isScalar := by
    intro n p hp
    rw [(hnested n).1, Multiset.mem_singleton] at hp
    subst hp
    rfl
  have hreads := fun n => (@filters_nest_by_depth Unit inferInstance).2.2.2.2 ⟨[nested n]⟩
    (nested n) _ rfl rfl (hscalars n)
  refine ⟨(hreads 62).mpr ?_, (hreads 63).not.mpr ?_⟩
  · rw [(hnested 62).2]
  · rw [(hnested 63).2]
    decide

end TableQuery

import TableQuery.Filter.Tree

/-!
# The grammar of filters

A filter as JSON is read back to the node that was written, and what can be read is what is written.
A group is told from a predicate by the array under its one member, so a field may have any name,
that of a logic too.
-/

namespace TableQuery

namespace Node

/-! ## Reading -/

mutual

def ofJson? : Json → Option Node
  | .object [(token, .array items)] => do
    let logic ← Logic.ofToken? token
    let children ← ofJsonAll? items
    return .group logic children
  | .object [(field, .object [(token, operand)])] => do
    let operator ← Operator.ofToken? token
    return .predicate ⟨field, operator, operand⟩
  | _ => none

def ofJsonAll? : List Json → Option (List Node)
  | [] => some []
  | item :: items => do
    let node ← ofJson? item
    let nodes ← ofJsonAll? items
    return node :: nodes

end

theorem ofJson?_eq_predicate_iff {j : Json} {p : Predicate} :
    ofJson? j = some (.predicate p) ↔ p.toJson = j := by
  constructor
  · intro h
    unfold ofJson? at h
    split at h
    case h_1 => simp [Option.bind_eq_some_iff] at h
    case h_2 field token operand =>
      obtain ⟨operator, hop, hp⟩ := Option.bind_eq_some_iff.mp h
      obtain rfl : ⟨field, operator, operand⟩ = p := by simpa using hp
      rw [Predicate.toJson, Operator.ofToken?_eq_some_iff.mp hop]
    case h_3 => cases h
  · rintro rfl
    simp [Predicate.toJson, ofJson?, Operator.ofToken?_token]

theorem ofJson?_eq_group_iff {j : Json} {logic : Logic} {children : List Node} :
    ofJson? j = some (.group logic children) ↔
      ∃ items, ofJsonAll? items = some children ∧ .object [(logic.token, .array items)] = j := by
  constructor
  · intro h
    unfold ofJson? at h
    split at h
    case h_1 token items =>
      obtain ⟨l, hl, h⟩ := Option.bind_eq_some_iff.mp h
      obtain ⟨nodes, hnodes, h⟩ := Option.bind_eq_some_iff.mp h
      obtain ⟨rfl, rfl⟩ : l = logic ∧ nodes = children := by simpa using h
      exact ⟨items, hnodes, by rw [Logic.ofToken?_eq_some_iff.mp hl]⟩
    case h_2 => simp [Option.bind_eq_some_iff] at h
    case h_3 => cases h
  · rintro ⟨items, hitems, rfl⟩
    simp [ofJson?, Logic.ofToken?_token, hitems]

theorem ofJsonAll?_cons_eq_some_iff {item : Json} {items : List Json} {node : Node}
    {nodes : List Node} : ofJsonAll? (item :: items) = some (node :: nodes) ↔
      ofJson? item = some node ∧ ofJsonAll? items = some nodes := by
  simp [ofJsonAll?, Option.bind_eq_some_iff]

-- By induction on the node, not on the text: a node says which of the two forms its text has.
mutual

theorem ofJson?_eq_some_iff : ∀ {node : Node} {j : Json}, ofJson? j = some node ↔ node.toJson = j
  | .predicate _, _ => ofJson?_eq_predicate_iff
  | .group logic children, j => by
    rw [ofJson?_eq_group_iff, toJson]
    constructor
    · rintro ⟨items, hitems, hj⟩
      rw [ofJsonAll?_eq_some_iff.mp hitems]
      exact hj
    · intro hj
      exact ⟨toJsonAll children, ofJsonAll?_eq_some_iff.mpr rfl, hj⟩

theorem ofJsonAll?_eq_some_iff : ∀ {nodes : List Node} {items : List Json},
    ofJsonAll? items = some nodes ↔ toJsonAll nodes = items
  | [], [] => by simp [ofJsonAll?, toJsonAll]
  | [], _ :: _ => by simp [ofJsonAll?, toJsonAll, Option.bind_eq_some_iff]
  | _ :: _, [] => by simp [ofJsonAll?, toJsonAll]
  | node :: nodes, item :: items => by
    rw [ofJsonAll?_cons_eq_some_iff, toJsonAll, ofJson?_eq_some_iff, ofJsonAll?_eq_some_iff,
      List.cons.injEq]

end

theorem toJson_injective : Function.Injective toJson := by
  intro a b h
  have ha : ofJson? a.toJson = some a := ofJson?_eq_some_iff.mpr rfl
  rw [h, ofJson?_eq_some_iff.mpr rfl] at ha
  exact (Option.some.inj ha).symm

theorem exists_toJson_eq_iff {j : Json} : (∃ node : Node, node.toJson = j) ↔ (ofJson? j).isSome := by
  rw [Option.isSome_iff_exists]
  exact exists_congr fun node => ofJson?_eq_some_iff.symm

/-! ## Comparing

The two zeros of the doubles compare as equal, in operands as in texts.
-/

theorem predicate_toJson_beq (p q : Predicate) : (p.toJson == q.toJson) = (p == q) := by
  have htoken : (p.operator.token == q.operator.token) = (p.operator == q.operator) := by
    rw [Bool.eq_iff_iff, beq_iff_eq, beq_iff_eq, ← Operator.ofToken?_eq_some_iff,
      Operator.ofToken?_token, Option.some.injEq, eq_comm]
  change (p.field == q.field && ((p.operator.token == q.operator.token && p.operand == q.operand &&
    true)) && true) = (p.field == q.field && (p.operator == q.operator && p.operand == q.operand))
  rw [htoken, Bool.and_true, Bool.and_true]

theorem group_token_beq (l m : Logic) : (l.token == m.token) = (l == m) := by
  cases l <;> cases m <;> decide

mutual

theorem toJson_beq : ∀ a b : Node, (a.toJson == b.toJson) = (a == b)
  | .predicate p, .predicate q => predicate_toJson_beq p q
  | .predicate p, .group l bs => by
    change ((p.field == l.token) && false && true) = false
    rw [Bool.and_false, Bool.false_and]
  | .group l as, .predicate q => by
    change ((l.token == q.field) && false && true) = false
    rw [Bool.and_false, Bool.false_and]
  | .group l as, .group m bs => by
    change ((l.token == m.token) && Json.beqItems (toJsonAll as) (toJsonAll bs) && true) =
      ((l == m) && beqAll as bs)
    rw [group_token_beq, toJsonAll_beq as bs, Bool.and_true]

theorem toJsonAll_beq : ∀ as bs : List Node,
    Json.beqItems (toJsonAll as) (toJsonAll bs) = beqAll as bs
  | [], [] | [], _ :: _ | _ :: _, [] => rfl
  | a :: as, b :: bs => by
    rw [toJsonAll, toJsonAll, Json.beqItems, beqAll, toJsonAll_beq as bs]
    exact congrArg (· && beqAll as bs) (toJson_beq a b)

end

end Node

/-! ## Trees -/

namespace Tree

theorem toJson?_eq_iff {a b : Tree} : a.toJson? = b.toJson? ↔ a.root? = b.root? :=
  (Option.map_injective Node.toJson_injective).eq_iff

theorem toJson?_beq (a b : Tree) : (a.toJson? == b.toJson?) = (a.root? == b.root?) := by
  unfold toJson?
  cases a.root? with
  | none => cases b.root? <;> rfl
  | some x =>
    cases b.root? with
    | none => rfl
    | some y => exact Node.toJson_beq x y

/-- One tree is a single group that holds the two or more nodes of the other. -/
def Wraps (a b : Tree) : Prop := 2 ≤ b.size ∧ a.roots = [.group .and b.roots]

theorem root?_eq_iff {a b : Tree} : a.root? = b.root? ↔ a = b ∨ a.Wraps b ∨ b.Wraps a := by
  obtain ⟨as⟩ := a
  obtain ⟨bs⟩ := b
  match as, bs with
  | [], [] | [], [_] | [_], [] | [], _ :: _ :: _ | _ :: _ :: _, [] => simp [root?, Wraps, size]
  | [x], [y] => simp [root?, Wraps, size]
  | [x], y :: z :: bs => simp [root?, Wraps, size, Group.toNode, Group.ofChildren]
  | x :: y :: as, [z] => simp [root?, Wraps, size, Group.toNode, Group.ofChildren, eq_comm]
  | x :: y :: as, z :: w :: bs => simp [root?, Wraps, size, Group.toNode, Group.ofChildren]

end Tree

/-- Each node is read back from its text and from no other, so different nodes write different
texts. Trees write the same text only if they have the same root. -/
theorem filter_reads_back :
    (∀ (node : Node) (j : Json), Node.ofJson? j = some node ↔ node.toJson = j) ∧
    Function.Injective Node.toJson ∧
    (∀ j : Json, (∃ node : Node, node.toJson = j) ↔ (Node.ofJson? j).isSome) ∧
    (∀ a b : Node, (a.toJson == b.toJson) = (a == b)) ∧
    ∀ a b : Tree,
      (a.toJson? = b.toJson? ↔ a.root? = b.root?) ∧
      (a.toJson? == b.toJson?) = (a.root? == b.root?) ∧
      (a.root? = b.root? ↔ a = b ∨ a.Wraps b ∨ b.Wraps a) := by
  refine ⟨fun node j => ?_, ?_, fun j => ?_, fun a b => ?_, fun a b => ⟨?_, ?_, ?_⟩⟩
  · exact Node.ofJson?_eq_some_iff
  · exact Node.toJson_injective
  · exact Node.exists_toJson_eq_iff
  · exact Node.toJson_beq a b
  · exact Tree.toJson?_eq_iff
  · exact Tree.toJson?_beq a b
  · exact Tree.root?_eq_iff

/-- A field may be named like a logic. -/
example : Node.ofJson? (.object [("$and", .object [("$eq", .array [])])]) =
    some (.predicate ⟨"$and", .equal, .array []⟩) := by
  rfl

end TableQuery

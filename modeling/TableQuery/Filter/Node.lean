import TableQuery.Filter.Operator
import TableQuery.Json.Basic

/-! # Filters

A filter is a tree: a leaf compares one field, an inner node joins its children with a logic. On
the wire a predicate is `{field: {operator: operand}}` and a group `{logic: [child, ...]}`.
-/

namespace TableQuery

structure Predicate where
  field : String
  operator : Operator
  operand : Json
  deriving BEq

/-- A group of any number of children, none or one included, stays a group. -/
inductive Node where
  | predicate (p : Predicate)
  | group (logic : Logic) (children : List Node)

def Predicate.toJson (p : Predicate) : Json :=
  .object [(p.field, .object [(p.operator.token, p.operand)])]

namespace Node

mutual

def beq : Node → Node → Bool
  | .predicate p, .predicate q => p == q
  | .group l as, .group m bs => l == m && beqAll as bs
  | _, _ => false

def beqAll : List Node → List Node → Bool
  | [], [] => true
  | a :: as, b :: bs => beq a b && beqAll as bs
  | _, _ => false

end

instance : BEq Node := ⟨beq⟩

mutual

def toJson : Node → Json
  | .predicate p => p.toJson
  | .group logic children => .object [(logic.token, .array (toJsonAll children))]

def toJsonAll : List Node → List Json
  | [] => []
  | node :: nodes => toJson node :: toJsonAll nodes

end

mutual

/-- A predicate is one level deep, a group one level more than its deepest child. -/
def depth : Node → Nat
  | .predicate _ => 1
  | .group _ children => depthAll children + 1

def depthAll : List Node → Nat
  | [] => 0
  | node :: nodes => max (depth node) (depthAll nodes)

end

theorem toJsonAll_eq_map (nodes : List Node) : toJsonAll nodes = nodes.map toJson := by
  induction nodes with
  | nil => rfl
  | cons node nodes ih => simp [toJsonAll, ih]

end Node

/-- A group on its own, before it becomes a node. -/
structure Group where
  logic : Logic
  children : List Node
  deriving BEq

namespace Group

def empty (logic : Logic) : Group := ⟨logic, []⟩

instance : Inhabited Group := ⟨empty .and⟩

def ofChildren (children : List Node) : Group := ⟨.and, children⟩

def withLogic (g : Group) (logic : Logic) : Group := { g with logic }

def push (g : Group) (node : Node) : Group := { g with children := g.children ++ [node] }

def size (g : Group) : Nat := g.children.length

def isEmpty (g : Group) : Bool := g.children.isEmpty

def toNode (g : Group) : Node := .group g.logic g.children

def toJson (g : Group) : Json := g.toNode.toJson

end Group

end TableQuery

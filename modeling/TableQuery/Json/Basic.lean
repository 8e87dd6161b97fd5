import TableQuery.Keyed
import TableQuery.Number.Binary64

/-! # JSON values

A number keeps the way it was written: `1` is an integer and `1.0` is a double. The members of an
object are in ascending key order.
-/

namespace TableQuery

inductive Number where
  /-- An integer of the signed or of the unsigned 64-bit range. -/
  | integer (value : Int) (lower : -0x8000000000000000 ≤ value)
      (upper : value < 0x10000000000000000)
  | double (value : Binary64)
  deriving DecidableEq

namespace Number

/-- Numbers written differently are different, but the two zeros among the doubles are equal. -/
instance : BEq Number where
  beq
    | .integer a _ _, .integer b _ _ => a == b
    | .double a, .double b => a == b
    | _, _ => false

def ofUInt64 (n : UInt64) : Number :=
  .integer n.toNat (by omega) (by have := n.toNat_lt; omega)

def ofUInt32 (n : UInt32) : Number :=
  .integer n.toNat (by omega) (by have := n.toNat_lt; omega)

/-- The integer, when it is not negative. -/
def toUInt64? : Number → Option UInt64
  | .integer value _ _ => if 0 ≤ value then some (UInt64.ofNat value.toNat) else none
  | .double _ => none

theorem toUInt64?_ofUInt64 (n : UInt64) : (ofUInt64 n).toUInt64? = some n := by
  simp [ofUInt64, toUInt64?]

end Number

inductive Json where
  | null
  | bool (b : Bool)
  | number (n : Number)
  | string (s : String)
  | array (items : List Json)
  | object (members : List (String × Json))

namespace Json

instance : Inhabited Json := ⟨.null⟩

mutual

def beq : Json → Json → Bool
  | .null, .null => true
  | .bool a, .bool b => a == b
  | .number a, .number b => a == b
  | .string a, .string b => a == b
  | .array a, .array b => beqItems a b
  | .object a, .object b => beqMembers a b
  | _, _ => false

def beqItems : List Json → List Json → Bool
  | [], [] => true
  | a :: as, b :: bs => beq a b && beqItems as bs
  | _, _ => false

def beqMembers : List (String × Json) → List (String × Json) → Bool
  | [], [] => true
  | (k, a) :: as, (l, b) :: bs => k == l && beq a b && beqMembers as bs
  | _, _ => false

end

instance : BEq Json := ⟨beq⟩

mutual

/-- In every object, at every depth, the members are in ascending key order. -/
def Ordered : Json → Prop
  | .array items => OrderedItems items
  | .object members => Ascending members ∧ OrderedMembers members
  | _ => True

def OrderedItems : List Json → Prop
  | [] => True
  | item :: items => Ordered item ∧ OrderedItems items

def OrderedMembers : List (String × Json) → Prop
  | [] => True
  | (_, value) :: members => Ordered value ∧ OrderedMembers members

end

mutual

instance decidableOrdered : (v : Json) → Decidable v.Ordered
  | .null => .isTrue trivial
  | .bool _ => .isTrue trivial
  | .number _ => .isTrue trivial
  | .string _ => .isTrue trivial
  | .array items => decidableOrderedItems items
  | .object members =>
    @instDecidableAnd _ _ inferInstance (decidableOrderedMembers members)

instance decidableOrderedItems : (items : List Json) → Decidable (OrderedItems items)
  | [] => .isTrue trivial
  | item :: items => @instDecidableAnd _ _ (decidableOrdered item) (decidableOrderedItems items)

instance decidableOrderedMembers : (members : List (String × Json)) →
    Decidable (OrderedMembers members)
  | [] => .isTrue trivial
  | (_, value) :: members =>
    @instDecidableAnd _ _ (decidableOrdered value) (decidableOrderedMembers members)

end

mutual

/-- How many arrays and objects are nested. -/
def nesting : Json → Nat
  | .array items => nestingItems items + 1
  | .object members => nestingMembers members + 1
  | _ => 0

def nestingItems : List Json → Nat
  | [] => 0
  | item :: items => max (nesting item) (nestingItems items)

def nestingMembers : List (String × Json) → Nat
  | [] => 0
  | (_, value) :: members => max (nesting value) (nestingMembers members)

end

/-- An object from members in any order; of several values for one key the last is kept. -/
def ofMembers (members : List (String × Json)) : Json := .object (Entries.ofList members)

def ofKeyed (members : Keyed Json) : Json := .object members.entries

def nat64 (n : UInt64) : Json := .number (.ofUInt64 n)

/-- A count as JSON; counts here are lengths of lists in memory, far below the range of 64 bits. -/
def count (n : Nat) : Json := nat64 (UInt64.ofNat n)

def double (x : Binary64) : Json := .number (.double x)

def optional {α : Type} (f : α → Json) : Option α → Json
  | none => .null
  | some a => f a

def member? (key : String) : Json → Option Json
  | .object members => Entries.get? key members
  | _ => none

def isObject : Json → Bool
  | .object _ => true
  | _ => false

end Json

end TableQuery

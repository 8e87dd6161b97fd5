import TableQuery.Parameter.Value

/-! # Parameter bags -/

namespace TableQuery

/-- Names and texts of the parameters of a request. -/
abbrev RequestParams := Keyed String

/-- The name under which a bag keeps its filter tree. -/
def filtersKey : String := "filters"

structure Bag where
  params : Keyed Parameter
  deriving BEq

namespace Bag

def empty : Bag := ⟨∅⟩

instance : EmptyCollection Bag := ⟨empty⟩
instance : Inhabited Bag := ⟨empty⟩

def get? (b : Bag) (key : String) : Option Parameter := b.params.get? key

def contains (b : Bag) (key : String) : Bool := b.params.contains key

/-- Counts parameters that have nothing to send, too. -/
def size (b : Bag) : Nat := b.params.size

def isEmpty (b : Bag) : Bool := b.params.isEmpty

def set (b : Bag) (key : String) (value : Parameter) : Bag := ⟨b.params.insert key value⟩

def remove (b : Bag) (key : String) : Bag := ⟨b.params.erase key⟩

def setLiteral (b : Bag) (key text : String) : Bag := b.set key (.literal text)

def setJson (b : Bag) (key : String) (value : Json) : Bag := b.set key (.json value)

def addToCommaSet (b : Bag) (key value : String) : Bag :=
  b.set key (.addToSet value (b.get? key))

def pushToCommaList (b : Bag) (key value : String) : Bag :=
  b.set key (.pushToList value (b.get? key))

/-- Writes one member of the object under `key`. -/
def setJsonMember (b : Bag) (key field : String) (value : Json) : Bag :=
  b.set key (.setMember field value (b.get? key))

def commaValues? (b : Bag) (key : String) : Option (List String) :=
  (b.get? key).bind Parameter.commaValues?

/-! ## The filter tree -/

/-- The tree, if one was made. -/
def filters? (b : Bag) : Option Tree := Parameter.tree? (b.get? filtersKey)

def filters (b : Bag) : Tree := b.filters?.getD ∅

def setFilters (b : Bag) (tree : Tree) : Bag := b.set filtersKey (.filters tree)

/-! ## Sending -/

/-- The parameters that have something to send. -/
def requestParams (b : Bag) : RequestParams := b.params.filterMap fun _ value => value.render?

/-- With an extra bag, whose parameters win. -/
def requestParamsWith (b extra : Bag) : RequestParams := b.requestParams.merge extra.requestParams

/-! ## What is under a key -/

theorem get?_set (b : Bag) (key k : String) (value : Parameter) :
    (b.set key value).get? k = if k = key then some value else b.get? k :=
  Keyed.get?_insert b.params key k value

theorem filters?_setFilters (b : Bag) (tree : Tree) : (b.setFilters tree).filters? = some tree := by
  simp [filters?, setFilters, get?_set, Parameter.tree?]

end Bag

end TableQuery

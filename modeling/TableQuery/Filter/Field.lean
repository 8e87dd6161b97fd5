import TableQuery.Filter.Node

/-! # Predicates on a field -/

namespace TableQuery

structure Field where
  name : String

namespace Field

def compare (f : Field) (operator : Operator) (operand : Json) : Predicate :=
  ⟨f.name, operator, operand⟩

/-- Full text search in this field. -/
def search (f : Field) (term : Json) : Predicate := f.compare .search term

def equal (f : Field) (value : Json) : Predicate := f.compare .equal value

def notEqual (f : Field) (value : Json) : Predicate := f.compare .notEqual value

def isIn (f : Field) (values : List Json) : Predicate := f.compare .isIn (.array values)

def notIn (f : Field) (values : List Json) : Predicate := f.compare .notIn (.array values)

def beginsWith (f : Field) (start : String) : Predicate := f.compare .beginsWith (.string start)

def notBeginsWith (f : Field) (start : String) : Predicate :=
  f.compare .notBeginsWith (.string start)

def beginsWithAny (f : Field) (starts : List Json) : Predicate :=
  f.compare .beginsWithAny (.array starts)

def notBeginsWithAny (f : Field) (starts : List Json) : Predicate :=
  f.compare .notBeginsWithAny (.array starts)

def blank (f : Field) : Predicate := f.compare .blank (.bool true)

/-- The same operator as `blank`, with the operand `false`. -/
def notBlank (f : Field) : Predicate := f.compare .blank (.bool false)

def greaterThan (f : Field) (value : Json) : Predicate := f.compare .greaterThan value

def greaterThanOrEqual (f : Field) (value : Json) : Predicate := f.compare .greaterThanOrEqual value

def lessThan (f : Field) (value : Json) : Predicate := f.compare .lessThan value

def lessThanOrEqual (f : Field) (value : Json) : Predicate := f.compare .lessThanOrEqual value

end Field

end TableQuery

/-! # Operators and logic of filters -/

namespace TableQuery

/-- How a predicate compares a field. Whether the operand suits it is left to the server. -/
inductive Operator where
  | equal
  | notEqual
  | isIn
  | notIn
  | beginsWith
  | notBeginsWith
  | beginsWithAny
  | notBeginsWithAny
  | blank
  | greaterThan
  | greaterThanOrEqual
  | lessThan
  | lessThanOrEqual
  | search
  deriving DecidableEq, Repr

namespace Operator

def all : List Operator :=
  [.equal, .notEqual, .isIn, .notIn, .beginsWith, .notBeginsWith, .beginsWithAny,
   .notBeginsWithAny, .blank, .greaterThan, .greaterThanOrEqual, .lessThan, .lessThanOrEqual,
   .search]

theorem mem_all (op : Operator) : op ∈ all := by cases op <;> decide

def token : Operator → String
  | .equal => "$eq"
  | .notEqual => "$neq"
  | .isIn => "$in"
  | .notIn => "$nin"
  | .beginsWith => "$bw"
  | .notBeginsWith => "$nbw"
  | .beginsWithAny => "$bwin"
  | .notBeginsWithAny => "$nbwin"
  | .blank => "$blank"
  | .greaterThan => "$gt"
  | .greaterThanOrEqual => "$gte"
  | .lessThan => "$lt"
  | .lessThanOrEqual => "$lte"
  | .search => "$search"

def ofToken? : String → Option Operator
  | "$eq" => some .equal
  | "$neq" => some .notEqual
  | "$in" => some .isIn
  | "$nin" => some .notIn
  | "$bw" => some .beginsWith
  | "$nbw" => some .notBeginsWith
  | "$bwin" => some .beginsWithAny
  | "$nbwin" => some .notBeginsWithAny
  | "$blank" => some .blank
  | "$gt" => some .greaterThan
  | "$gte" => some .greaterThanOrEqual
  | "$lt" => some .lessThan
  | "$lte" => some .lessThanOrEqual
  | "$search" => some .search
  | _ => none

theorem ofToken?_token (op : Operator) : ofToken? op.token = some op := by cases op <;> rfl

theorem ofToken?_eq_some_iff {token : String} {op : Operator} :
    ofToken? token = some op ↔ op.token = token := by
  constructor
  · intro h
    unfold ofToken? at h
    split at h <;> cases h <;> rfl
  · rintro rfl
    exact ofToken?_token op

end Operator

inductive Logic where
  | and
  | or
  deriving DecidableEq, Repr

namespace Logic

instance : Inhabited Logic := ⟨.and⟩

def token : Logic → String
  | .and => "$and"
  | .or => "$or"

def ofToken? : String → Option Logic
  | "$and" => some .and
  | "$or" => some .or
  | _ => none

theorem ofToken?_token (logic : Logic) : ofToken? logic.token = some logic := by
  cases logic <;> rfl

theorem ofToken?_eq_some_iff {token : String} {logic : Logic} :
    ofToken? token = some logic ↔ logic.token = token := by
  constructor
  · intro h
    unfold ofToken? at h
    split at h <;> cases h <;> rfl
  · rintro rfl
    exact ofToken?_token logic

end Logic

end TableQuery

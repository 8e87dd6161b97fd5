import TableQuery.Geo
import TableQuery.Query.Filtered
import TableQuery.Url

/-! # Read queries -/

namespace TableQuery

/-! ## Parameters that more than one kind of query has -/

namespace Bag

def search (b : Bag) (term : String) : Bag := b.setLiteral "q" term

def within (b : Bag) (circle : Circle) : Bag := b.setJson "geo" circle.toJson

def select (b : Bag) (fields : List String) : Bag :=
  fields.foldl (fun b field => b.addToCommaSet "select" field) b

def selected? (b : Bag) : Option (List String) := b.commaValues? "select"

/-- A number above zero is set, and any other clears the parameter. -/
def setPositive (b : Bag) (key : String) (value : Int64) : Bag :=
  if 0 < value then b.setLiteral key (toString value.toInt) else b.remove key

def requestParamsCounting (b : Bag) (countRows : Bool) : RequestParams :=
  if countRows then b.requestParamsWith ((∅ : Bag).setLiteral "include_count" "true")
  else b.requestParams

end Bag

/-! ## Reading rows -/

structure Query where
  params : Bag
  /-- Whether the answer is to carry the number of all rows that match. -/
  countRows : Bool
  deriving BEq

namespace Query

def empty : Query := ⟨∅, false⟩

instance : EmptyCollection Query := ⟨empty⟩
instance : Inhabited Query := ⟨empty⟩

instance : Filtered Query where
  filters? q := q.params.filters?
  setFilters q tree := { q with params := q.params.setFilters tree }

def search (q : Query) (term : String) : Query := { q with params := q.params.search term }

def limit (q : Query) (rows : Int64) : Query :=
  { q with params := q.params.setPositive "limit" rows }

def offset (q : Query) (rows : Int64) : Query :=
  { q with params := q.params.setPositive "offset" rows }

/-- Asks for these fields; a field asked for before is sent once. -/
def only (q : Query) (fields : List String) : Query := { q with params := q.params.select fields }

def selectFields? (q : Query) : Option (List String) := q.params.selected?

def sortBy (q : Query) (field direction : String) : Query :=
  { q with params := q.params.pushToCommaList "sort" (field ++ ":" ++ direction) }

def sortAscending (q : Query) (field : String) : Query := q.sortBy field "asc"

def sortDescending (q : Query) (field : String) : Query := q.sortBy field "desc"

def within (q : Query) (circle : Circle) : Query := { q with params := q.params.within circle }

def includeRowCount (q : Query) (wanted : Bool) : Query := { q with countRows := wanted }

def requestParams (q : Query) : RequestParams := q.params.requestParamsCounting q.countRows

def urlQuery (q : Query) : String := Url.query q.requestParams

def decodedQuery (q : Query) : String := Url.decodedQuery q.requestParams

end Query

end TableQuery

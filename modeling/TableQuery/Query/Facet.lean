import TableQuery.Query.Read

/-! # Facet queries: how often each value of a field occurs -/

namespace TableQuery

structure FacetQuery where
  params : Bag
  /-- Whether the answer is to carry the number of all rows that match. -/
  countRows : Bool
  deriving BEq

namespace FacetQuery

def empty : FacetQuery := ⟨∅, false⟩

instance : EmptyCollection FacetQuery := ⟨empty⟩
instance : Inhabited FacetQuery := ⟨empty⟩

instance : Filtered FacetQuery where
  filters? q := q.params.filters?
  setFilters q tree := { q with params := q.params.setFilters tree }

/-- A query about the values of these fields. -/
def ofFields (fields : List String) : FacetQuery := ⟨Bag.select ∅ fields, false⟩

def fields (q : FacetQuery) : List String := q.params.selected?.getD []

/-- Leaves out values that occur less often. -/
def minCount (q : FacetQuery) (count : UInt64) : FacetQuery :=
  { q with params := q.params.setLiteral "min_count" (toString count.toNat) }

/-- Limits how many values each field gives; zero is sent like any other number. -/
def maxValues (q : FacetQuery) (count : UInt64) : FacetQuery :=
  { q with params := q.params.setLiteral "limit" (toString count.toNat) }

def search (q : FacetQuery) (term : String) : FacetQuery :=
  { q with params := q.params.search term }

def within (q : FacetQuery) (circle : Circle) : FacetQuery :=
  { q with params := q.params.within circle }

def includeRowCount (q : FacetQuery) (wanted : Bool) : FacetQuery :=
  { q with countRows := wanted }

def requestParams (q : FacetQuery) : RequestParams := q.params.requestParamsCounting q.countRows

def urlQuery (q : FacetQuery) : String := Url.query q.requestParams

end FacetQuery

end TableQuery

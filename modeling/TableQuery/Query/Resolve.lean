import TableQuery.Query.Read

/-! # Queries for one entity or one place -/

namespace TableQuery

/-- What is known of an entity that is looked for. -/
structure ResolveQuery where
  params : Bag

namespace ResolveQuery

def empty : ResolveQuery := ⟨∅⟩

instance : EmptyCollection ResolveQuery := ⟨empty⟩

def add (q : ResolveQuery) (field : String) (value : Json) : ResolveQuery :=
  ⟨q.params.setJsonMember "values" field value⟩

def ofValues (values : List (String × Json)) : ResolveQuery :=
  values.foldl (fun q (field, value) => q.add field value) ∅

def requestParams (q : ResolveQuery) : RequestParams := q.params.requestParams

end ResolveQuery

/-- The address at a point. -/
structure Geocode where
  point : Point

def Geocode.requestParams (q : Geocode) : RequestParams :=
  ((∅ : Bag).setJson "geo" q.point.toJson).requestParams

/-- The neighbourhood of a point. -/
structure Geopulse where
  params : Bag

namespace Geopulse

def ofPoint (point : Point) : Geopulse := ⟨(∅ : Bag).setJson "geo" point.toJson⟩

def only (q : Geopulse) (fields : List String) : Geopulse := ⟨q.params.select fields⟩

def requestParams (q : Geopulse) : RequestParams := q.params.requestParams

end Geopulse

end TableQuery

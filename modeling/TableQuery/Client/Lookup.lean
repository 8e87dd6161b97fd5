import TableQuery.Query.Facet
import TableQuery.Query.Resolve
import TableQuery.Response.Basic

/-! # Lookups: the requests that only read

A lookup can be sent on its own or wait in a queue; either way it is the same path, the same
parameters and the same kind of response.
-/

namespace TableQuery

structure Lookup where
  /-- Relative to the root of the server. -/
  path : String
  params : RequestParams
  kind : ResponseKind
  deriving DecidableEq

namespace Lookup

/-- The URL from the root, as a batch carries it. -/
def url (l : Lookup) : String := "/" ++ Url.withQuery l.path l.params

def fetch (table : String) (q : Query) : Lookup := ⟨"t/" ++ table, q.requestParams, .read⟩

def facets (table : String) (q : FacetQuery) : Lookup :=
  ⟨"t/" ++ table ++ "/facets", q.requestParams, .facet⟩

def resolve (table : String) (q : ResolveQuery) : Lookup :=
  ⟨table ++ "/resolve", q.requestParams, .read⟩

def schema (table : String) : Lookup := ⟨"t/" ++ table ++ "/schema", ∅, .schema⟩

def geocode (point : Point) : Lookup :=
  ⟨"places/geocode", (Geocode.mk point).requestParams, .read⟩

def geopulse (q : Geopulse) : Lookup := ⟨"places/geopulse", q.requestParams, .read⟩

/-- Deals and offers. -/
def monetize (q : Query) : Lookup := ⟨"places/monetize", q.requestParams, .read⟩

/-- Any path, of whose response only the envelope is read. -/
def raw (path : String) (params : RequestParams) : Lookup := ⟨path, params, .raw⟩

end Lookup

end TableQuery

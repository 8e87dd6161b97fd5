import TableQuery.Parameter.Bag
import TableQuery.Text.Percent

/-! # Query strings

Names are written as they are and values percent-encoded, in the order of the names.
-/

namespace TableQuery.Url

/-- `name=value` pairs joined with `&`, each value written by `encode`. -/
def joinPairs (encode : String → String) (params : RequestParams) : String :=
  String.intercalate "&" (params.entries.map fun (key, value) => key ++ "=" ++ encode value)

def query (params : RequestParams) : String := joinPairs Text.Percent.encode params

/-- The query with its values as they are, for people to read. -/
def decodedQuery (params : RequestParams) : String := joinPairs id params

/-- A path with its query; without parameters there is no question mark. -/
def withQuery (path : String) (params : RequestParams) : String :=
  if params.isEmpty then path else path ++ "?" ++ query params

end TableQuery.Url

import TableQuery.Parameter.Bag

/-! # Queries with filters

What all queries that own a filter tree can do. A query gets its tree the first time the tree is
written to; being the source of a composition counts as a write.
-/

namespace TableQuery

class Filtered (Q : Type) where
  /-- The tree, if one was made. -/
  filters? : Q → Option Tree
  setFilters : Q → Tree → Q

namespace Filtered

variable {Q : Type} [Filtered Q]

def filters (q : Q) : Tree := (filters? q).getD ∅

def addFilter (q : Q) (node : Node) : Q := setFilters q ((filters q).add node)

def popFilter (q : Q) : Option Node × Q :=
  ((filters q).newest?, setFilters q (filters q).withoutNewest)

/-- Adds the newest filters of the siblings to the query, as one group. -/
def composeWith (logic : Logic) (q : Q) (siblings : List Q) : Q × List Q :=
  let (tree, rest) := (filters q).compose logic (siblings.map filters)
  (setFilters q tree, List.zipWith setFilters siblings rest)

/-- Composition in which the query's own newest filter comes first. -/
def composeWithSelf (logic : Logic) (q : Q) (siblings : List Q) : Q × List Q :=
  let (tree, rest) := (filters q).composeWithSelf logic (siblings.map filters)
  (setFilters q tree, List.zipWith setFilters siblings rest)

/-- Regroups the newest `count` filters of the query. -/
def composeRecent (logic : Logic) (q : Q) (count : Nat) : Q :=
  setFilters q ((filters q).composeRecent logic count)

end Filtered

end TableQuery

import TableQuery.Filter.Node
import TableQuery.Json.Printer

/-! # The filter tree of a query

A tree is a list of top-level nodes that all have to hold. Composition takes the newest node off
each source and adds the nodes taken to a target, as one group.
-/

namespace TableQuery

structure Tree where
  roots : List Node
  deriving BEq

namespace Tree

def empty : Tree := ⟨[]⟩

instance : EmptyCollection Tree := ⟨empty⟩
instance : Inhabited Tree := ⟨empty⟩

def size (t : Tree) : Nat := t.roots.length

def isEmpty (t : Tree) : Bool := t.roots.isEmpty

def add (t : Tree) (node : Node) : Tree := ⟨t.roots ++ [node]⟩

/-- The node added last. -/
def newest? (t : Tree) : Option Node := t.roots.getLast?

/-- The tree without its newest node; an empty tree stays empty. -/
def withoutNewest (t : Tree) : Tree := ⟨t.roots.dropLast⟩

/-- One group of the newest node of each source, in the order of the sources. -/
def regroup (logic : Logic) (sources : List Tree) : Group × List Tree :=
  (⟨logic, sources.filterMap newest?⟩, sources.map withoutNewest)

/-- Adds the newest nodes of the sources to the tree, as one group. -/
def compose (t : Tree) (logic : Logic) (sources : List Tree) : Tree × List Tree :=
  let (group, rest) := regroup logic sources
  (t.add group.toNode, rest)

/-- Composition in which the tree's own newest node comes first. -/
def composeWithSelf (t : Tree) (logic : Logic) (sources : List Tree) : Tree × List Tree :=
  let group : Group := ⟨logic, (t :: sources).filterMap newest?⟩
  (t.withoutNewest.add group.toNode, sources.map withoutNewest)

/-- Regroups the newest `count` nodes of the tree, or all if there are fewer, newest first. -/
def composeRecent (t : Tree) (logic : Logic) (count : Nat) : Tree :=
  let group : Group := ⟨logic, t.roots.reverse.take count⟩
  add ⟨t.roots.take (t.size - count)⟩ group.toNode

/-- The one node that stands for the whole tree. -/
def root? (t : Tree) : Option Node :=
  match t.roots with
  | [] => none
  | [node] => some node
  | nodes => some (Group.ofChildren nodes).toNode

def toJson? (t : Tree) : Option Json := t.root?.map Node.toJson

def render? (t : Tree) : Option String := t.toJson?.map Json.render

end Tree

end TableQuery

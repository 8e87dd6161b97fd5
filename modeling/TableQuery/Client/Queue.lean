import TableQuery.Client.Lookup
import TableQuery.Response.Batch

/-! # Queued lookups and the batch they become

A batch names its lookups `q0`, `q1` and so on, in the order of the queue, and sends their URLs as
one object.
-/

namespace TableQuery

structure Queue where
  pending : List Lookup

namespace Queue

def empty : Queue := ⟨[]⟩

instance : EmptyCollection Queue := ⟨empty⟩

def push (q : Queue) (l : Lookup) : Queue := ⟨q.pending ++ [l]⟩

def size (q : Queue) : Nat := q.pending.length

def isEmpty (q : Queue) : Bool := q.pending.isEmpty

end Queue

structure Batch where
  entries : List (String × Lookup)

namespace Batch

def key (index : Nat) : String := "q" ++ toString index

def ofLookups (lookups : List Lookup) : Batch :=
  ⟨lookups.mapIdx fun index l => (key index, l)⟩

def size (b : Batch) : Nat := b.entries.length

def isEmpty (b : Batch) : Bool := b.entries.isEmpty

/-- The URL of each lookup under its key. -/
def queries (b : Batch) : Json :=
  .ofMembers (b.entries.map fun (key, l) => (key, .string l.url))

def requestParams (b : Batch) : RequestParams := .ofList [("queries", b.queries.render)]

def kinds (b : Batch) : List (String × ResponseKind) := b.entries.map fun (key, l) => (key, l.kind)

def parseResponse (b : Batch) (text : String) : Except ResponseError BatchResponse :=
  BatchResponse.parse text b.kinds

end Batch

/-- Takes all lookups off the queue. -/
def Queue.drain (q : Queue) : Batch × Queue := (.ofLookups q.pending, ∅)

end TableQuery

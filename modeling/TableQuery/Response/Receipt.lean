import TableQuery.Response.Schema

/-! # Receipts: what a submission answers -/

namespace TableQuery

structure Receipt where
  /-- The row written; none when the submission was rejected. -/
  entityId : Option String
  newEntity : Bool
  deriving DecidableEq, Repr

namespace Receipt

def readMember (read : Option String × Option Bool) (member : String × Json) :
    Except ShapeError (Option String × Option Bool) :=
  match member.1 with
  | "factual_id" => (Shape.text member.2).map fun s => (some s, read.2)
  | "new_entity" => (Shape.flag member.2).map fun b => (read.1, some b)
  | _ => .ok read

def ofMembers (payload : Members) : Except ShapeError Receipt := do
  let (entityId, newEntity) ← payload.foldlM readMember (none, none)
  let entityId ← Shape.required "factual_id" entityId
  let newEntity ← Shape.required "new_entity" newEntity
  .ok ⟨some entityId, newEntity⟩

def decode (root : Members) (envelope : Envelope) : Except ResponseError Receipt := do
  match ← Response.payload? root envelope with
  | none => .ok ⟨none, false⟩
  | some payload => (ofMembers payload).mapError .shape

end Receipt

end TableQuery

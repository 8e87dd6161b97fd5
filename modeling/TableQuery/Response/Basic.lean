import TableQuery.Response.Facets
import TableQuery.Response.Receipt
import TableQuery.Response.Rows

/-! # Responses

A response keeps the text it was read from, its envelope and its decoded payload.
-/

namespace TableQuery

structure Response (α : Type) where
  text : String
  envelope : Envelope
  payload : α

namespace Response

variable {α : Type}

/-- Reads text whose payload `decode` decodes, after the envelope. -/
def parse (decode : Members → Envelope → Except ResponseError α) (text : String) :
    Except ResponseError (Response α) := do
  let root ← parseRoot text
  let envelope ← Envelope.ofRoot root
  let payload ← decode root envelope
  .ok ⟨text, envelope, payload⟩

/-- Whether the server says that it sent no rows. -/
def isEmpty (r : Response α) : Bool := r.envelope.includedRows == 0

/-- Leaves the payload as it is. -/
def decodeNothing (_ : Members) (_ : Envelope) : Except ResponseError Unit := .ok ()

end Response

/-- How a payload is decoded. -/
inductive ResponseKind where
  | read
  | facet
  | schema
  | submit
  | flag
  | raw
  deriving DecidableEq, Repr

namespace ResponseKind

def all : List ResponseKind := [.read, .facet, .schema, .submit, .flag, .raw]

def name : ResponseKind → String
  | .read => "read"
  | .facet => "facet"
  | .schema => "schema"
  | .submit => "submit"
  | .flag => "flag"
  | .raw => "raw"

def ofName? (name : String) : Option ResponseKind := all.find? (·.name = name)

theorem ofName?_name (kind : ResponseKind) : ofName? kind.name = some kind := by
  cases kind <;> decide

end ResponseKind

/-- A response of any kind. -/
inductive AnyResponse where
  | read (r : Response Rows)
  | facet (r : Response Facets)
  | schema (r : Response Schema)
  | submit (r : Response Receipt)
  | flag (r : Response Unit)
  | raw (r : Response Unit)

def ResponseKind.parse (kind : ResponseKind) (text : String) : Except ResponseError AnyResponse :=
  match kind with
  | .read => (Response.parse Rows.decode text).map .read
  | .facet => (Response.parse Facets.decode text).map .facet
  | .schema => (Response.parse Schema.decode text).map .schema
  | .submit => (Response.parse Receipt.decode text).map .submit
  | .flag => (Response.parse Response.decodeNothing text).map .flag
  | .raw => (Response.parse Response.decodeNothing text).map .raw

namespace AnyResponse

def kind : AnyResponse → ResponseKind
  | .read _ => .read
  | .facet _ => .facet
  | .schema _ => .schema
  | .submit _ => .submit
  | .flag _ => .flag
  | .raw _ => .raw

def envelope : AnyResponse → Envelope
  | .read r => r.envelope
  | .facet r => r.envelope
  | .schema r => r.envelope
  | .submit r => r.envelope
  | .flag r => r.envelope
  | .raw r => r.envelope

def text : AnyResponse → String
  | .read r => r.text
  | .facet r => r.text
  | .schema r => r.text
  | .submit r => r.text
  | .flag r => r.text
  | .raw r => r.text

def isEmpty (r : AnyResponse) : Bool := r.envelope.includedRows == 0

def rows? : AnyResponse → Option Rows
  | .read r => some r.payload
  | _ => none

def facets? : AnyResponse → Option Facets
  | .facet r => some r.payload
  | _ => none

def schema? : AnyResponse → Option Schema
  | .schema r => some r.payload
  | _ => none

/-! ## Summary -/

/-- What a summary adds for the kind of the response. -/
def detail : AnyResponse → Members
  | .read r => [("rows", .count r.payload.length)]
  | .facet r =>
    [("facets", .ofKeyed (r.payload.mapValues fun counts => .count counts.size))]
  | .schema r =>
    [("title", .string r.payload.title),
     ("columns", .array (r.payload.columns.map fun c => .string c.name))]
  | .submit r =>
    [("entity_id", .optional .string r.payload.entityId),
     ("new_entity", .bool r.payload.newEntity)]
  | .flag _ => []
  | .raw _ => []

/-- The envelope and the size of the payload, as an object. -/
def summary (r : AnyResponse) : Members :=
  Entries.ofList ([
    ("kind", .string r.kind.name),
    ("version", .string r.envelope.version),
    ("status", .string r.envelope.status),
    ("total_row_count", .optional .nat64 r.envelope.totalRowCount),
    ("included_rows", .nat64 r.envelope.includedRows)] ++ r.detail)

end AnyResponse

end TableQuery

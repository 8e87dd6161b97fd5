import TableQuery.Proofs.Result
import TableQuery.Response.Basic

/-!
# Decoding of a root object

A response is decoded from the object that its text holds. The text is kept with the response and
has no other part in it; what can go wrong after the text was read is the shape of the object.
-/

namespace TableQuery

namespace Response

variable {α : Type}

/-- The response that an object stands for; the text is kept as it is. -/
def ofRoot (decode : Members → Envelope → Except ResponseError α) (text : String) (root : Members) :
    Except ResponseError (Response α) := do
  let envelope ← Envelope.ofRoot root
  let payload ← decode root envelope
  .ok ⟨text, envelope, payload⟩

theorem parseRoot_eq_ok_iff {text : String} {root : Members} :
    parseRoot text = .ok root ↔ Json.parse text = .ok (.object root) := by
  unfold parseRoot
  split
  next members h => simp [h]
  next v hnot h =>
    rw [h]
    refine iff_of_false nofun fun hv => ?_
    cases hv
    exact hnot root rfl
  next why h => simp [h]

def withText (r : Response α) (text : String) : Response α := { r with text }

theorem parse_eq (decode : Members → Envelope → Except ResponseError α) (text : String) :
    parse decode text = parseRoot text >>= ofRoot decode text := rfl

theorem ofRoot_eq_map (decode : Members → Envelope → Except ResponseError α) (text first : String)
    (root : Members) :
    ofRoot decode text root = (ofRoot decode first root).map (·.withText text) := by
  unfold ofRoot
  cases Envelope.ofRoot root with
  | error e => rfl
  | ok envelope =>
    simp only [bind, Except.bind]
    cases decode root envelope <;> rfl

end Response

def AnyResponse.withText (text : String) : AnyResponse → AnyResponse
  | .read r => .read (r.withText text)
  | .facet r => .facet (r.withText text)
  | .schema r => .schema (r.withText text)
  | .submit r => .submit (r.withText text)
  | .flag r => .flag (r.withText text)
  | .raw r => .raw (r.withText text)

namespace ResponseKind

open Response

def decode (kind : ResponseKind) (text : String) (root : Members) :
    Except ResponseError AnyResponse :=
  match kind with
  | .read => (ofRoot Rows.decode text root).map .read
  | .facet => (ofRoot Facets.decode text root).map .facet
  | .schema => (ofRoot Schema.decode text root).map .schema
  | .submit => (ofRoot Receipt.decode text root).map .submit
  | .flag => (ofRoot decodeNothing text root).map .flag
  | .raw => (ofRoot decodeNothing text root).map .raw

theorem parse_eq (kind : ResponseKind) (text : String) :
    kind.parse text = parseRoot text >>= kind.decode text := by
  cases kind <;> exact map_bind_eq ..

theorem parse_of_object {text : String} {root : Members} (h : Json.parse text = .ok (.object root))
    (kind : ResponseKind) : kind.parse text = kind.decode text root := by
  rw [parse_eq, parseRoot_eq_ok_iff.mpr h]
  rfl

theorem decode_eq_map (kind : ResponseKind) (text first : String) (root : Members) :
    kind.decode text root = (kind.decode first root).map (·.withText text) := by
  unfold decode
  cases kind <;> simp only <;> rw [ofRoot_eq_map _ text first] <;> cases ofRoot _ first root <;> rfl

end ResponseKind

/-! ## What can go wrong -/

namespace ResponseError

/-- The error is about the shape of an object, not about its text. -/
def IsShape : ResponseError → Prop
  | .unreadable _ => False
  | _ => True

end ResponseError

/-- Whatever goes wrong is the shape of an object. -/
def OnlyShape {α : Type} (x : Except ResponseError α) : Prop := ∀ e, x = .error e → e.IsShape

namespace OnlyShape

variable {α β : Type} {x : Except ResponseError α}

theorem ok (a : α) : OnlyShape (.ok a : Except ResponseError α) := nofun

theorem error {e : ResponseError} (h : e.IsShape) : OnlyShape (.error e : Except ResponseError α) := by
  rintro _ heq
  cases heq
  exact h

theorem bind {f : α → Except ResponseError β} (hx : OnlyShape x) (hf : ∀ a, OnlyShape (f a)) :
    OnlyShape (x >>= f) := by
  intro e h
  rcases bind_eq_error_iff.mp h with h | ⟨a, -, h⟩
  · exact hx e h
  · exact hf a e h

theorem map {f : α → β} (hx : OnlyShape x) : OnlyShape (x.map f) := fun e h =>
  hx e (map_eq_error_iff.mp h)

theorem mapError {x : Except ShapeError α} : OnlyShape (x.mapError .shape) := by
  cases x with
  | error e => exact error trivial
  | ok a => exact ok a

end OnlyShape

namespace Response

theorem onlyShape_scalarText (root : Members) (key : String) : OnlyShape (scalarText root key) := by
  unfold scalarText
  split
  next => exact .ok _
  next => exact .ok _
  next => exact .error trivial
  next => exact .error trivial

theorem onlyShape_optionalCount (payload : Members) (key : String) :
    OnlyShape (optionalCount payload key) := by
  unfold optionalCount
  split
  next => exact .ok _
  next => exact .ok _
  next => split; exacts [.ok _, .error trivial]

theorem onlyShape_envelope (root : Members) : OnlyShape (Envelope.ofRoot root) := by
  unfold Envelope.ofRoot
  refine .bind (onlyShape_scalarText root _) fun version => ?_
  refine .bind (onlyShape_scalarText root _) fun status => ?_
  split
  next payload _ =>
    exact .bind (onlyShape_optionalCount payload _) fun total =>
      .bind (onlyShape_optionalCount payload _) fun included => .ok _
  next => exact .ok _

theorem onlyShape_payload? (root : Members) (envelope : Envelope) :
    OnlyShape (payload? root envelope) := by
  unfold payload?
  split
  next => exact .ok _
  next => exact .error trivial
  next => split; exacts [.error trivial, .ok _]

theorem onlyShape_payloadMember? (key : String) (root : Members) (envelope : Envelope) :
    OnlyShape (payloadMember? key root envelope) := by
  refine .bind (onlyShape_payload? root envelope) fun payload => ?_
  split
  next => exact .ok _
  next payload =>
    split
    next => exact .ok _
    next => split; exacts [.error trivial, .ok _]

theorem onlyShape_ofRoot {α : Type} {decode : Members → Envelope → Except ResponseError α}
    (h : ∀ root envelope, OnlyShape (decode root envelope)) (text : String) (root : Members) :
    OnlyShape (ofRoot decode text root) :=
  .bind (onlyShape_envelope root) fun envelope => .bind (h root envelope) fun _ => .ok _

end Response

theorem Rows.onlyShape_ofItems (index : Nat) (items : List Json) :
    OnlyShape (Rows.ofItems index items) := by
  fun_induction Rows.ofItems index items with
  | case1 => exact .ok _
  | case2 index row items ih => exact .map ih
  | case3 => exact .error trivial

theorem Facets.onlyShape_countsOf (field : String) (buckets : Members) :
    OnlyShape (Facets.countsOf field buckets) := by
  fun_induction Facets.countsOf field buckets with
  | case1 => exact .ok _
  | case2 value count buckets n _ ih => exact .map ih
  | case3 => exact .error trivial

theorem Facets.onlyShape_ofMembers (fields : Members) : OnlyShape (Facets.ofMembers fields) := by
  fun_induction Facets.ofMembers fields with
  | case1 => exact .ok _
  | case2 field buckets fields ih =>
    exact .bind (Facets.onlyShape_countsOf field buckets) fun _ => .map ih
  | case3 => exact .error trivial

theorem Rows.onlyShape_decode (root : Members) (envelope : Envelope) :
    OnlyShape (Rows.decode root envelope) := by
  refine .bind (Response.onlyShape_payloadMember? _ root envelope) fun data => ?_
  split
  next => exact .ok _
  next items => exact Rows.onlyShape_ofItems 0 items
  next => exact .error trivial

theorem Facets.onlyShape_decode (root : Members) (envelope : Envelope) :
    OnlyShape (Facets.decode root envelope) := by
  refine .bind (Response.onlyShape_payloadMember? _ root envelope) fun data => ?_
  split
  next => exact .ok _
  next fields => exact .map (Facets.onlyShape_ofMembers fields)
  next => exact .error trivial

theorem Schema.onlyShape_decode (root : Members) (envelope : Envelope) :
    OnlyShape (Schema.decode root envelope) := by
  refine .bind (Response.onlyShape_payloadMember? _ root envelope) fun view => ?_
  split
  next => exact .ok _
  next view => exact .mapError
  next => exact .error trivial

theorem Receipt.onlyShape_decode (root : Members) (envelope : Envelope) :
    OnlyShape (Receipt.decode root envelope) := by
  refine .bind (Response.onlyShape_payload? root envelope) fun payload => ?_
  split
  next => exact .ok _
  next payload => exact .mapError

theorem ResponseKind.onlyShape_decode (kind : ResponseKind) (text : String) (root : Members) :
    OnlyShape (kind.decode text root) := by
  unfold ResponseKind.decode
  cases kind with
  | read => exact .map (Response.onlyShape_ofRoot Rows.onlyShape_decode text root)
  | facet => exact .map (Response.onlyShape_ofRoot Facets.onlyShape_decode text root)
  | schema => exact .map (Response.onlyShape_ofRoot Schema.onlyShape_decode text root)
  | submit => exact .map (Response.onlyShape_ofRoot Receipt.onlyShape_decode text root)
  | flag => exact .map (Response.onlyShape_ofRoot (fun _ _ => .ok _) text root)
  | raw => exact .map (Response.onlyShape_ofRoot (fun _ _ => .ok _) text root)

end TableQuery

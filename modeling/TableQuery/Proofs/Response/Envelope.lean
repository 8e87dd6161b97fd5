import TableQuery.Proofs.Json.RoundTrip
import TableQuery.Proofs.Response.Decoding

/-!
# The envelope

What an object has to hold for an envelope, and which fault of it is reported: the first in the
order version, status, total count, included rows. Every kind of response reads the envelope first,
so the faults of the envelope are faults of every kind.
-/

namespace TableQuery

theorem Json.isObject_eq_false_iff {v : Json} :
    v.isObject = false ↔ ∀ members, v ≠ .object members := by
  cases v <;> simp [isObject]

namespace Response

/-! ## Members of an envelope -/

/-- The member is a string, or a number with this text. -/
inductive Scalar (root : Members) (key : String) : String → Prop
  | string {s : String} (h : Entries.get? key root = some (.string s)) : Scalar root key s
  | number {n : Number} (h : Entries.get? key root = some (.number n)) :
      Scalar root key (Json.Number.render n)

/-- What is wrong with a member that should be a string or a number. -/
inductive NoScalar (root : Members) (key : String) : ResponseError → Prop
  | absent (h : Entries.get? key root = none) : NoScalar root key (.missingField key)
  | otherType {v : Json} (h : Entries.get? key root = some v) (hstring : ∀ s, v ≠ .string s)
      (hnumber : ∀ n, v ≠ .number n) : NoScalar root key (.unexpectedType key "string")

/-- The member is a count, or there is none. -/
inductive Counted (payload : Members) (key : String) : Option UInt64 → Prop
  | absent (h : Entries.get? key payload = none) : Counted payload key none
  | null (h : Entries.get? key payload = some .null) : Counted payload key none
  | number {n : UInt64} (h : Entries.get? key payload = some (.nat64 n)) :
      Counted payload key (some n)

/-- What is wrong with a member that should be a count. -/
inductive NoCount (payload : Members) (key : String) : ResponseError → Prop
  | otherType {v : Json} (h : Entries.get? key payload = some v) (hnull : v ≠ .null)
      (hnumber : ∀ n, v ≠ .nat64 n) :
      NoCount payload key (.unexpectedType ("response." ++ key) "non-negative integer")

theorem scalarText_eq_ok_iff {root : Members} {key s : String} :
    scalarText root key = .ok s ↔ Scalar root key s := by
  unfold scalarText
  constructor
  · intro h
    split at h
    next s' hs => cases h; exact .string hs
    next n hn => cases h; exact .number hn
    next => cases h
    next => cases h
  · intro h
    cases h with
    | string h => rw [h]
    | number h => rw [h]

theorem scalarText_eq_error_iff {root : Members} {key : String} {e : ResponseError} :
    scalarText root key = .error e ↔ NoScalar root key e := by
  unfold scalarText
  constructor
  · intro h
    split at h
    next => cases h
    next => cases h
    next v hstring hnumber hv =>
      cases h
      exact .otherType hv (fun s heq => hstring s heq) (fun n heq => hnumber n heq)
    next hnone => cases h; exact .absent hnone
  · intro h
    cases h with
    | absent h => rw [h]
    | @otherType v h hstring hnumber =>
      rw [h]
      cases v with
      | string s => exact absurd rfl (hstring s)
      | number n => exact absurd rfl (hnumber n)
      | _ => rfl

theorem natural?_eq_some_iff {v : Json} {n : UInt64} : natural? v = some n ↔ v = .nat64 n := by
  constructor
  · intro h
    unfold natural? at h
    split at h
    next m =>
      cases m with
      | integer value lower upper =>
        simp only [Number.toUInt64?] at h
        split at h
        next hnonneg =>
          cases h
          have hfits : value.toNat < UInt64.size := by
            change value.toNat < 0x10000000000000000
            omega
          have hvalue : ((UInt64.ofNat value.toNat).toNat : Int) = value := by
            rw [UInt64.toNat_ofNat_of_lt' hfits]
            omega
          simp only [Json.nat64, Number.ofUInt64, hvalue]
        next => cases h
      | double x => cases h
    next => cases h
  · rintro rfl
    exact Number.toUInt64?_ofUInt64 n

theorem optionalCount_eq_ok_iff {payload : Members} {key : String} {count : Option UInt64} :
    optionalCount payload key = .ok count ↔ Counted payload key count := by
  unfold optionalCount
  constructor
  · intro h
    split at h
    next hnone => cases h; exact .absent hnone
    next hnull => cases h; exact .null hnull
    next v hnull hv =>
      split at h
      next n hn => cases h; exact .number (natural?_eq_some_iff.mp hn ▸ hv)
      next => cases h
  · intro h
    cases h with
    | absent h => rw [h]
    | null h => rw [h]
    | @number n h =>
      have hn : natural? (.number (.ofUInt64 n)) = some n := natural?_eq_some_iff.mpr rfl
      simp only [h, Json.nat64, hn]

theorem optionalCount_eq_error_iff {payload : Members} {key : String} {e : ResponseError} :
    optionalCount payload key = .error e ↔ NoCount payload key e := by
  unfold optionalCount
  constructor
  · intro h
    split at h
    next => cases h
    next => cases h
    next v hnull hv =>
      split at h
      next => cases h
      next hnone =>
        cases h
        refine .otherType hv (fun heq => hnull heq) fun n heq => ?_
        rw [natural?_eq_some_iff.mpr heq] at hnone
        cases hnone
  · intro h
    obtain ⟨h, hnull, hnumber⟩ := h
    rename_i v
    have hnone : natural? v = none := by
      cases hn : natural? v with
      | none => rfl
      | some n => exact absurd (natural?_eq_some_iff.mp hn) (hnumber n)
    rw [h]
    split
    next heq => cases heq
    next heq => cases heq; exact absurd rfl hnull
    next w _ heq => cases heq; rw [hnone]

theorem parseRoot_eq_error_iff {text : String} {e : ResponseError} :
    parseRoot text = .error e ↔ (∃ why, Json.parse text = .error why ∧ e = .unreadable why) ∨
      ∃ v, Json.parse text = .ok v ∧ v.isObject = false ∧ e = .unexpectedType "$" "object" := by
  unfold parseRoot
  constructor
  · intro h
    split at h
    next => cases h
    next v hnot hv =>
      cases h
      exact .inr ⟨v, hv, Json.isObject_eq_false_iff.mpr hnot, rfl⟩
    next why hwhy => cases h; exact .inl ⟨why, hwhy, rfl⟩
  · rintro (⟨why, h, rfl⟩ | ⟨v, h, hv, rfl⟩)
    · rw [h]
    · rw [h]
      split
      next root heq => cases heq; cases hv
      next => rfl
      next heq => cases heq

end Response

/-! ## Reading an envelope -/

namespace Envelope

open Response

/-- The envelope that an object holds. -/
inductive Of (root : Members) : Envelope → Prop
  | payload {payload : Members} {version status : String} {total included : Option UInt64}
      (hversion : Scalar root "version" version) (hstatus : Scalar root "status" status)
      (hpayload : Entries.get? "response" root = some (.object payload))
      (htotal : Counted payload "total_row_count" total)
      (hincluded : Counted payload "included_rows" included) :
      Of root ⟨version, status, total, included.getD 0⟩
  | noPayload {version status : String}
      (hversion : Scalar root "version" version) (hstatus : Scalar root "status" status)
      (hpayload : ∀ payload, Entries.get? "response" root ≠ some (.object payload)) :
      Of root ⟨version, status, none, 0⟩

/-- The first fault of an object that holds no envelope. -/
inductive Fault (root : Members) : ResponseError → Prop
  | version {e : ResponseError} (h : NoScalar root "version" e) : Fault root e
  | status {version : String} {e : ResponseError} (hversion : Scalar root "version" version)
      (h : NoScalar root "status" e) : Fault root e
  | total {version status : String} {payload : Members} {e : ResponseError}
      (hversion : Scalar root "version" version) (hstatus : Scalar root "status" status)
      (hpayload : Entries.get? "response" root = some (.object payload))
      (h : NoCount payload "total_row_count" e) : Fault root e
  | included {version status : String} {payload : Members} {total : Option UInt64}
      {e : ResponseError}
      (hversion : Scalar root "version" version) (hstatus : Scalar root "status" status)
      (hpayload : Entries.get? "response" root = some (.object payload))
      (htotal : Counted payload "total_row_count" total)
      (h : NoCount payload "included_rows" e) : Fault root e

/-- The first fault of a text that holds no envelope. -/
inductive TextFault (text : String) : ResponseError → Prop
  | unreadable {why : Json.Failure} (h : Json.parse text = .error why) :
      TextFault text (.unreadable why)
  | notObject {v : Json} (h : Json.parse text = .ok v) (hv : v.isObject = false) :
      TextFault text (.unexpectedType "$" "object")
  | object {root : Members} {e : ResponseError} (h : Json.parse text = .ok (.object root))
      (he : Fault root e) : TextFault text e

/-- The counts of an object, read after its version and status. -/
def countsOf (root : Members) (version status : String) : Except ResponseError Envelope :=
  match Entries.get? "response" root with
  | some (.object payload) => do
    let total ← optionalCount payload "total_row_count"
    let included ← optionalCount payload "included_rows"
    .ok ⟨version, status, total, included.getD 0⟩
  | _ => .ok ⟨version, status, none, 0⟩

theorem countsOf_of_object {root payload : Members} (version status : String)
    (h : Entries.get? "response" root = some (.object payload)) :
    countsOf root version status = optionalCount payload "total_row_count" >>= fun total =>
      optionalCount payload "included_rows" >>= fun included =>
        .ok ⟨version, status, total, included.getD 0⟩ := by
  rw [countsOf, h]

theorem countsOf_of_not_object {root : Members} (version status : String)
    (h : ∀ payload, Entries.get? "response" root ≠ some (.object payload)) :
    countsOf root version status = .ok ⟨version, status, none, 0⟩ := by
  unfold countsOf
  split
  next payload hpayload => exact absurd hpayload (h payload)
  next => rfl

theorem ofRoot_eq (root : Members) :
    ofRoot root = scalarText root "version" >>= fun version =>
      scalarText root "status" >>= fun status => countsOf root version status := rfl

theorem ofRoot_eq_ok_iff {root : Members} {e : Envelope} : ofRoot root = .ok e ↔ Of root e := by
  rw [ofRoot_eq]
  constructor
  · intro h
    obtain ⟨version, hversion, h⟩ := bind_eq_ok_iff.mp h
    obtain ⟨status, hstatus, h⟩ := bind_eq_ok_iff.mp h
    have hversion := scalarText_eq_ok_iff.mp hversion
    have hstatus := scalarText_eq_ok_iff.mp hstatus
    unfold countsOf at h
    split at h
    next payload hpayload =>
      obtain ⟨total, htotal, h⟩ := bind_eq_ok_iff.mp h
      obtain ⟨included, hincluded, h⟩ := bind_eq_ok_iff.mp h
      cases h
      exact .payload hversion hstatus hpayload (optionalCount_eq_ok_iff.mp htotal)
        (optionalCount_eq_ok_iff.mp hincluded)
    next hpayload => cases h; exact .noPayload hversion hstatus hpayload
  · intro h
    cases h with
    | payload hversion hstatus hpayload htotal hincluded =>
      refine bind_eq_ok_iff.mpr ⟨_, scalarText_eq_ok_iff.mpr hversion, ?_⟩
      refine bind_eq_ok_iff.mpr ⟨_, scalarText_eq_ok_iff.mpr hstatus, ?_⟩
      rw [countsOf_of_object _ _ hpayload]
      refine bind_eq_ok_iff.mpr ⟨_, optionalCount_eq_ok_iff.mpr htotal, ?_⟩
      exact bind_eq_ok_iff.mpr ⟨_, optionalCount_eq_ok_iff.mpr hincluded, rfl⟩
    | noPayload hversion hstatus hpayload =>
      refine bind_eq_ok_iff.mpr ⟨_, scalarText_eq_ok_iff.mpr hversion, ?_⟩
      refine bind_eq_ok_iff.mpr ⟨_, scalarText_eq_ok_iff.mpr hstatus, ?_⟩
      exact countsOf_of_not_object _ _ hpayload

theorem ofRoot_eq_error_iff {root : Members} {e : ResponseError} :
    ofRoot root = .error e ↔ Fault root e := by
  rw [ofRoot_eq]
  constructor
  · intro h
    rcases bind_eq_error_iff.mp h with h | ⟨version, hversion, h⟩
    · exact .version (scalarText_eq_error_iff.mp h)
    have hversion := scalarText_eq_ok_iff.mp hversion
    rcases bind_eq_error_iff.mp h with h | ⟨status, hstatus, h⟩
    · exact .status hversion (scalarText_eq_error_iff.mp h)
    have hstatus := scalarText_eq_ok_iff.mp hstatus
    unfold countsOf at h
    split at h
    next payload hpayload =>
      rcases bind_eq_error_iff.mp h with h | ⟨total, htotal, h⟩
      · exact .total hversion hstatus hpayload (optionalCount_eq_error_iff.mp h)
      have htotal := optionalCount_eq_ok_iff.mp htotal
      rcases bind_eq_error_iff.mp h with h | ⟨included, -, h⟩
      · exact .included hversion hstatus hpayload htotal (optionalCount_eq_error_iff.mp h)
      · cases h
    next => cases h
  · intro h
    cases h with
    | version h => exact bind_eq_error_iff.mpr (.inl (scalarText_eq_error_iff.mpr h))
    | status hversion h =>
      refine bind_eq_error_iff.mpr (.inr ⟨_, scalarText_eq_ok_iff.mpr hversion, ?_⟩)
      exact bind_eq_error_iff.mpr (.inl (scalarText_eq_error_iff.mpr h))
    | total hversion hstatus hpayload h =>
      refine bind_eq_error_iff.mpr (.inr ⟨_, scalarText_eq_ok_iff.mpr hversion, ?_⟩)
      refine bind_eq_error_iff.mpr (.inr ⟨_, scalarText_eq_ok_iff.mpr hstatus, ?_⟩)
      rw [countsOf_of_object _ _ hpayload]
      exact bind_eq_error_iff.mpr (.inl (optionalCount_eq_error_iff.mpr h))
    | included hversion hstatus hpayload htotal h =>
      refine bind_eq_error_iff.mpr (.inr ⟨_, scalarText_eq_ok_iff.mpr hversion, ?_⟩)
      refine bind_eq_error_iff.mpr (.inr ⟨_, scalarText_eq_ok_iff.mpr hstatus, ?_⟩)
      rw [countsOf_of_object _ _ hpayload]
      refine bind_eq_error_iff.mpr (.inr ⟨_, optionalCount_eq_ok_iff.mpr htotal, ?_⟩)
      exact bind_eq_error_iff.mpr (.inl (optionalCount_eq_error_iff.mpr h))

theorem parse_eq_ok_iff {text : String} {e : Envelope} :
    parse text = .ok e ↔ ∃ root, Json.parse text = .ok (.object root) ∧ Of root e := by
  simp only [parse, bind_eq_ok_iff, parseRoot_eq_ok_iff, ofRoot_eq_ok_iff]

theorem parse_eq_error_iff {text : String} {e : ResponseError} :
    parse text = .error e ↔ TextFault text e := by
  rw [parse, bind_eq_error_iff, parseRoot_eq_error_iff]
  constructor
  · rintro ((⟨why, h, rfl⟩ | ⟨v, h, hv, rfl⟩) | ⟨root, hroot, h⟩)
    · exact .unreadable h
    · exact .notObject h hv
    · exact .object (parseRoot_eq_ok_iff.mp hroot) (ofRoot_eq_error_iff.mp h)
  · intro h
    cases h with
    | unreadable h => exact .inl (.inl ⟨_, h, rfl⟩)
    | notObject h hv => exact .inl (.inr ⟨_, h, hv, rfl⟩)
    | object h he => exact .inr ⟨_, parseRoot_eq_ok_iff.mpr h, ofRoot_eq_error_iff.mpr he⟩

end Envelope

/-! ## What follows the envelope -/

namespace Response

variable {root payload : Members}

theorem payload?_of_object (h : Entries.get? "response" root = some (.object payload))
    (envelope : Envelope) : payload? root envelope = .ok (some payload) := by
  rw [payload?, h]

theorem payload?_of_not_object {v : Json} (h : Entries.get? "response" root = some v)
    (hv : v.isObject = false) (envelope : Envelope) :
    payload? root envelope = .error (.unexpectedType "response" "object") := by
  rw [payload?, h]
  split
  next payload heq => cases heq; cases hv
  next => rfl
  next heq => cases heq

theorem payload?_of_absent (h : Entries.get? "response" root = none) (envelope : Envelope) :
    payload? root envelope =
      if envelope.isOk then .error (.missingField "response") else .ok none := by
  rw [payload?, h]

theorem payloadMember?_of_object (key : String)
    (h : Entries.get? "response" root = some (.object payload)) (envelope : Envelope) :
    payloadMember? key root envelope =
      match Entries.get? key payload with
      | some value => .ok (some value)
      | none => if envelope.isOk then .error (.missingField ("response." ++ key)) else .ok none := by
  rw [payloadMember?, payload?_of_object h]
  rfl

theorem payloadMember?_of_error (key : String) {envelope : Envelope} {e : ResponseError}
    (h : payload? root envelope = .error e) : payloadMember? key root envelope = .error e := by
  rw [payloadMember?, h]
  rfl

theorem payloadMember?_of_none (key : String) {envelope : Envelope}
    (h : payload? root envelope = .ok none) : payloadMember? key root envelope = .ok none := by
  rw [payloadMember?, h]
  rfl

end Response

namespace ResponseKind

/-- Decodes the payload of an object whose envelope was read. -/
def decodePayload (kind : ResponseKind) (text : String) (root : Members) (envelope : Envelope) :
    Except ResponseError AnyResponse :=
  match kind with
  | .read => (Rows.decode root envelope).map fun rows => .read ⟨text, envelope, rows⟩
  | .facet => (Facets.decode root envelope).map fun facets => .facet ⟨text, envelope, facets⟩
  | .schema => (Schema.decode root envelope).map fun schema => .schema ⟨text, envelope, schema⟩
  | .submit => (Receipt.decode root envelope).map fun receipt => .submit ⟨text, envelope, receipt⟩
  | .flag => .ok (.flag ⟨text, envelope, ()⟩)
  | .raw => .ok (.raw ⟨text, envelope, ()⟩)

theorem decode_eq (kind : ResponseKind) (text : String) (root : Members) :
    kind.decode text root = Envelope.ofRoot root >>= kind.decodePayload text root := by
  unfold decode Response.ofRoot
  cases Envelope.ofRoot root with
  | error e => cases kind <;> rfl
  | ok envelope =>
    cases kind with
    | read => exact map_bind_eq (Rows.decode root envelope) ..
    | facet => exact map_bind_eq (Facets.decode root envelope) ..
    | schema => exact map_bind_eq (Schema.decode root envelope) ..
    | submit => exact map_bind_eq (Receipt.decode root envelope) ..
    | flag => rfl
    | raw => rfl

theorem of_decodePayload {kind : ResponseKind} {text : String} {root : Members}
    {envelope : Envelope} {r : AnyResponse} (h : kind.decodePayload text root envelope = .ok r) :
    r.envelope = envelope ∧ r.kind = kind ∧ r.text = text := by
  cases kind with
  | read => obtain ⟨rows, -, rfl⟩ := map_eq_ok_iff.mp h; exact ⟨rfl, rfl, rfl⟩
  | facet => obtain ⟨facets, -, rfl⟩ := map_eq_ok_iff.mp h; exact ⟨rfl, rfl, rfl⟩
  | schema => obtain ⟨schema, -, rfl⟩ := map_eq_ok_iff.mp h; exact ⟨rfl, rfl, rfl⟩
  | submit => obtain ⟨receipt, -, rfl⟩ := map_eq_ok_iff.mp h; exact ⟨rfl, rfl, rfl⟩
  | flag => cases h; exact ⟨rfl, rfl, rfl⟩
  | raw => cases h; exact ⟨rfl, rfl, rfl⟩

theorem exists_decodePayload {kind : ResponseKind} (hkind : kind = .raw ∨ kind = .flag)
    (text : String) (root : Members) (envelope : Envelope) :
    ∃ r, kind.decodePayload text root envelope = .ok r := by
  rcases hkind with rfl | rfl <;> exact ⟨_, rfl⟩

theorem parse_eq_envelope (kind : ResponseKind) (text : String) :
    kind.parse text = Response.parseRoot text >>= fun root =>
      Envelope.ofRoot root >>= kind.decodePayload text root := by
  rw [parse_eq]
  exact congrArg (Response.parseRoot text >>= ·) (funext (kind.decode_eq text))

theorem parse_of_envelope {text : String} {root : Members} {envelope : Envelope}
    (h : Json.parse text = .ok (.object root)) (he : Envelope.Of root envelope)
    (kind : ResponseKind) : kind.parse text = kind.decodePayload text root envelope := by
  rw [parse_of_object h, decode_eq, Envelope.ofRoot_eq_ok_iff.mpr he]
  rfl

end ResponseKind

/-- The envelope is read from a text when the text holds an object with its members, and else the
first fault in the order of reading is the error. Every kind of response reads the same envelope or
fails with the same fault, and keeps its text; the kinds without a payload fail in no other way. -/
theorem envelope_is_read_alike :
    (∀ text e, Envelope.parse text = .ok e ↔
      ∃ root, Json.parse text = .ok (.object root) ∧ Envelope.Of root e) ∧
    (∀ text e, Envelope.parse text = .error e ↔ Envelope.TextFault text e) ∧
    (∀ (kind : ResponseKind) text e, Envelope.parse text = .error e → kind.parse text = .error e) ∧
    (∀ (kind : ResponseKind) text r, kind.parse text = .ok r →
      Envelope.parse text = .ok r.envelope ∧ r.kind = kind ∧ r.text = text) ∧
    ∀ kind : ResponseKind, kind = .raw ∨ kind = .flag → ∀ text,
      (∃ r, kind.parse text = .ok r) ↔ ∃ e, Envelope.parse text = .ok e := by
  have hresponse : ∀ (kind : ResponseKind) text r, kind.parse text = .ok r →
      Envelope.parse text = .ok r.envelope ∧ r.kind = kind ∧ r.text = text := by
    intro kind text r h
    rw [kind.parse_eq_envelope] at h
    obtain ⟨root, hroot, h⟩ := bind_eq_ok_iff.mp h
    obtain ⟨envelope, henvelope, h⟩ := bind_eq_ok_iff.mp h
    obtain ⟨rfl, hkind, htext⟩ := ResponseKind.of_decodePayload h
    exact ⟨bind_eq_ok_iff.mpr ⟨root, hroot, henvelope⟩, hkind, htext⟩
  refine ⟨fun text e => Envelope.parse_eq_ok_iff, fun text e => Envelope.parse_eq_error_iff, ?_,
    hresponse, ?_⟩
  · intro kind text e h
    rw [kind.parse_eq_envelope, bind_eq_error_iff]
    rcases bind_eq_error_iff.mp h with h | ⟨root, hroot, h⟩
    · exact .inl h
    · exact .inr ⟨root, hroot, bind_eq_error_iff.mpr (.inl h)⟩
  · intro kind hkind text
    constructor
    · rintro ⟨r, hr⟩
      exact ⟨r.envelope, (hresponse kind text r hr).1⟩
    · rintro ⟨e, he⟩
      obtain ⟨root, hroot, hofRoot⟩ := bind_eq_ok_iff.mp he
      obtain ⟨r, hr⟩ := ResponseKind.exists_decodePayload hkind text root e
      rw [kind.parse_eq_envelope]
      exact ⟨r, bind_eq_ok_iff.mpr ⟨root, hroot, bind_eq_ok_iff.mpr ⟨e, hofRoot, hr⟩⟩⟩

/-- One text has a double where a count should be, the other has null. -/
theorem envelope_is_read_alike_count_with_point :
    let fault : ResponseError :=
      .unexpectedType "response.total_row_count" "non-negative integer"
    let root (total : Json) : Members :=
      [("response", .object [("total_row_count", total)]), ("status", .string "ok"),
        ("version", .string "3")]
    let bad := (Json.object (root (.double (.zero false)))).render
    let good := (Json.object (root .null)).render
    Envelope.parse bad = .error fault ∧ ResponseKind.read.parse bad = .error fault ∧
      Envelope.parse good = .ok ⟨"3", "ok", none, 0⟩ ∧
      ∃ r, ResponseKind.flag.parse good = .ok r ∧ r.envelope = ⟨"3", "ok", none, 0⟩ ∧
        r.text = good := by
  intro fault root bad good
  have hbad : Json.parse bad = .ok (.object (root (.double (.zero false)))) := by
    refine Json.parse_render (by decide) (by decide) fun x hx => ?_
    rw [List.mem_singleton.mp hx]
    exact Binary64.readsBack_zero false
  have hgood : Json.parse good = .ok (.object (root .null)) :=
    Json.parse_render (by decide) (by decide) nofun
  obtain ⟨hok, herror, hfail, hresponse, hbare⟩ := envelope_is_read_alike
  have hfault : Envelope.parse bad = .error fault :=
    (herror bad fault).mpr (.object hbad (.total (.string rfl) (.string rfl) rfl
      (.otherType rfl nofun nofun)))
  have henvelope : Envelope.parse good = .ok ⟨"3", "ok", none, 0⟩ :=
    (hok good _).mpr ⟨_, hgood, .payload (.string rfl) (.string rfl) rfl (.null rfl) (.absent rfl)⟩
  obtain ⟨r, hr⟩ := (hbare .flag (.inr rfl) good).mpr ⟨_, henvelope⟩
  obtain ⟨hr', -, htext⟩ := hresponse .flag good r hr
  exact ⟨hfault, hfail .read bad fault hfault, henvelope, r, hr,
    Except.ok.inj (hr'.symm.trans henvelope), htext⟩

end TableQuery

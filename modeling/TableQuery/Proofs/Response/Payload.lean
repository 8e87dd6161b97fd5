import TableQuery.Proofs.Json.Reading
import TableQuery.Proofs.Response.Envelope

/-!
# Members of a payload

Rows, facets and schemas are each decoded from one member of the payload. It may be missing, alone or
with the whole payload, when the status says that the request was rejected, and never has another
form. What is read from the member is the business of each kind.
-/

namespace TableQuery

theorem Envelope.isOk_iff {e : Envelope} : e.isOk = true ↔ e.status = "ok" := beq_iff_eq

theorem Envelope.Of.status_eq {root : Members} {e : Envelope} {status : String} (h : Of root e)
    (hstatus : Entries.get? "status" root = some (.string status)) : e.status = status := by
  have hscalar : Response.Scalar root "status" e.status := by
    cases h with
    | payload hversion hstatus hpayload htotal hincluded => exact hstatus
    | noPayload hversion hstatus hpayload => exact hstatus
  generalize e.status = read at hscalar
  cases hscalar with
  | string h =>
    cases hstatus.symm.trans h
    rfl
  | number h => cases hstatus.symm.trans h

theorem Json.isObject_iff {v : Json} : v.isObject = true ↔ ∃ members, v = .object members := by
  cases v <;> simp [isObject]

namespace Response

/-- The member of that name in the payload of a root object. -/
def inPayload? (key : String) (root : Members) : Option Json :=
  (Entries.get? "response" root).bind (Json.member? key)

/-- What there is to decode: the member, or nothing when a rejected request is without it. -/
inductive Held (key : String) (root : Members) (envelope : Envelope) : Option Json → Prop
  | member {v : Json} (h : inPayload? key root = some v) : Held key root envelope (some v)
  | noMember {payload : Members} (hstatus : envelope.status ≠ "ok")
      (hpayload : Entries.get? "response" root = some (.object payload))
      (h : Entries.get? key payload = none) : Held key root envelope none
  | noPayload (hstatus : envelope.status ≠ "ok") (h : Entries.get? "response" root = none) :
      Held key root envelope none

/-- Why there is nothing that may be decoded. -/
inductive NotHeld (key : String) (root : Members) (envelope : Envelope) : ResponseError → Prop
  | noMember {payload : Members} (hstatus : envelope.status = "ok")
      (hpayload : Entries.get? "response" root = some (.object payload))
      (h : Entries.get? key payload = none) :
      NotHeld key root envelope (.missingField ("response." ++ key))
  | noPayload (hstatus : envelope.status = "ok") (h : Entries.get? "response" root = none) :
      NotHeld key root envelope (.missingField "response")
  | otherPayload {v : Json} (h : Entries.get? "response" root = some v) (hv : v.isObject = false) :
      NotHeld key root envelope (.unexpectedType "response" "object")

section

variable {key : String} {root payload : Members} {envelope : Envelope} {v : Json}

theorem inPayload?_of_object (h : Entries.get? "response" root = some (.object payload)) :
    inPayload? key root = Entries.get? key payload := by
  rw [inPayload?, h]
  rfl

theorem inPayload?_eq_some_iff : inPayload? key root = some v ↔
    ∃ payload, Entries.get? "response" root = some (.object payload) ∧
      Entries.get? key payload = some v := by
  constructor
  · intro h
    obtain ⟨w, hw, hv⟩ := Option.bind_eq_some_iff.mp h
    cases w with
    | object payload => exact ⟨payload, hw, hv⟩
    | _ => cases hv
  · rintro ⟨payload, hpayload, hv⟩
    rw [inPayload?_of_object hpayload, hv]

theorem inPayload?_of_held {found : Option Json} (h : Held key root envelope found) :
    inPayload? key root = found := by
  cases h with
  | member h => exact h
  | noMember hstatus hpayload h => rw [inPayload?_of_object hpayload, h]
  | noPayload hstatus h =>
    rw [inPayload?, h]
    rfl

theorem ordered_inPayload? (hroot : (Json.object root).Ordered) (h : inPayload? key root = some v) :
    v.Ordered := by
  obtain ⟨payload, hpayload, hv⟩ := inPayload?_eq_some_iff.mp h
  exact Json.ordered_of_get? (Json.ordered_of_get? hroot hpayload) hv

theorem payloadMember?_of_held {found : Option Json} (h : Held key root envelope found) :
    payloadMember? key root envelope = .ok found := by
  cases h with
  | member h =>
    obtain ⟨payload, hpayload, hv⟩ := inPayload?_eq_some_iff.mp h
    rw [payloadMember?_of_object key hpayload, hv]
  | noMember hstatus hpayload h =>
    rw [payloadMember?_of_object key hpayload, h]
    exact if_neg (mt Envelope.isOk_iff.mp hstatus)
  | noPayload hstatus h =>
    apply payloadMember?_of_none
    rw [payload?_of_absent h]
    exact if_neg (mt Envelope.isOk_iff.mp hstatus)

theorem payloadMember?_of_notHeld {e : ResponseError} (h : NotHeld key root envelope e) :
    payloadMember? key root envelope = .error e := by
  cases h with
  | noMember hstatus hpayload h =>
    rw [payloadMember?_of_object key hpayload, h]
    exact if_pos (Envelope.isOk_iff.mpr hstatus)
  | noPayload hstatus h =>
    apply payloadMember?_of_error
    rw [payload?_of_absent h]
    exact if_pos (Envelope.isOk_iff.mpr hstatus)
  | otherPayload h hv => exact payloadMember?_of_error key (payload?_of_not_object h hv envelope)

theorem held_or_notHeld (key : String) (root : Members) (envelope : Envelope) :
    (∃ found, Held key root envelope found) ∨ ∃ e, NotHeld key root envelope e := by
  cases hresponse : Entries.get? "response" root with
  | none =>
    by_cases hstatus : envelope.status = "ok"
    · exact .inr ⟨_, .noPayload hstatus hresponse⟩
    · exact .inl ⟨_, .noPayload hstatus hresponse⟩
  | some v =>
    cases v with
    | object payload =>
      cases hmember : Entries.get? key payload with
      | none =>
        by_cases hstatus : envelope.status = "ok"
        · exact .inr ⟨_, .noMember hstatus hresponse hmember⟩
        · exact .inl ⟨_, .noMember hstatus hresponse hmember⟩
      | some w => exact .inl ⟨_, .member (inPayload?_eq_some_iff.mpr ⟨payload, hresponse, hmember⟩)⟩
    | _ => exact .inr ⟨_, .otherPayload hresponse rfl⟩

theorem payloadMember?_eq_ok_iff {found : Option Json} :
    payloadMember? key root envelope = .ok found ↔ Held key root envelope found :=
  (eq_iff_of_exhaustive (fun _ => payloadMember?_of_held) (fun _ => payloadMember?_of_notHeld)
    (held_or_notHeld key root envelope)).1 found

theorem payloadMember?_eq_error_iff {e : ResponseError} :
    payloadMember? key root envelope = .error e ↔ NotHeld key root envelope e :=
  (eq_iff_of_exhaustive (fun _ => payloadMember?_of_held) (fun _ => payloadMember?_of_notHeld)
    (held_or_notHeld key root envelope)).2 e

end

/-! ## Decoding of one member -/

section

variable {α : Type}

/-- Reads the member; a rejected request that is without it gives `absent`. -/
def decodeMember (key : String) (absent : α) (read : Json → Except ResponseError α) (root : Members)
    (envelope : Envelope) : Except ResponseError α :=
  payloadMember? key root envelope >>= fun
    | none => .ok absent
    | some v => read v

inductive Decodes (key : String) (absent : α) (Spells : Json → α → Prop) (root : Members)
    (envelope : Envelope) : α → Prop
  | member {v : Json} {a : α} (h : inPayload? key root = some v) (hv : Spells v a) :
      Decodes key absent Spells root envelope a
  | missing (h : Held key root envelope none) : Decodes key absent Spells root envelope absent

inductive Refuses (key : String) (Faulty : Json → ResponseError → Prop) (root : Members)
    (envelope : Envelope) : ResponseError → Prop
  | member {v : Json} {e : ResponseError} (h : inPayload? key root = some v) (hv : Faulty v e) :
      Refuses key Faulty root envelope e
  | notHeld {e : ResponseError} (h : NotHeld key root envelope e) :
      Refuses key Faulty root envelope e

variable {key : String} {absent : α} {read : Json → Except ResponseError α} {root : Members}
  {envelope : Envelope}

theorem decodeMember_eq_ok_iff {Spells : Json → α → Prop}
    (hread : ∀ v, inPayload? key root = some v → ∀ a, read v = .ok a ↔ Spells v a) {a : α} :
    decodeMember key absent read root envelope = .ok a ↔
      Decodes key absent Spells root envelope a := by
  rw [decodeMember, bind_eq_ok_iff]
  constructor
  · rintro ⟨found, hfound, ha⟩
    have hheld := payloadMember?_eq_ok_iff.mp hfound
    cases found with
    | none =>
      cases ha
      exact .missing hheld
    | some v =>
      have hv := inPayload?_of_held hheld
      exact .member hv ((hread v hv a).mp ha)
  · intro h
    cases h with
    | @member v a h hv => exact ⟨some v, payloadMember?_of_held (.member h), (hread v h a).mpr hv⟩
    | missing h => exact ⟨none, payloadMember?_of_held h, rfl⟩

theorem decodeMember_eq_error_iff {Faulty : Json → ResponseError → Prop}
    (hread : ∀ v, inPayload? key root = some v → ∀ e, read v = .error e ↔ Faulty v e)
    {e : ResponseError} :
    decodeMember key absent read root envelope = .error e ↔ Refuses key Faulty root envelope e := by
  rw [decodeMember, bind_eq_error_iff]
  constructor
  · rintro (hnot | ⟨found, hfound, he⟩)
    · exact .notHeld (payloadMember?_eq_error_iff.mp hnot)
    · cases found with
      | none => cases he
      | some v =>
        have hv := inPayload?_of_held (payloadMember?_eq_ok_iff.mp hfound)
        exact .member hv ((hread v hv e).mp he)
  · intro h
    cases h with
    | @member v e h hv =>
      exact .inr ⟨some v, payloadMember?_of_held (.member h), (hread v h e).mpr hv⟩
    | notHeld h => exact .inl (payloadMember?_of_notHeld h)

end

/-! ## Texts whose envelope is read -/

section

variable {α : Type} {text : String}

theorem exists_root_of_parse {decode : Members → Envelope → Except ResponseError α} {r : Response α}
    (h : parse decode text = .ok r) :
    ∃ root, Json.parse text = .ok (.object root) ∧ Envelope.Of root r.envelope := by
  obtain ⟨root, hroot, h⟩ := bind_eq_ok_iff.mp h
  obtain ⟨envelope, henvelope, h⟩ := bind_eq_ok_iff.mp h
  obtain ⟨payload, -, h⟩ := bind_eq_ok_iff.mp h
  cases h
  exact ⟨root, parseRoot_eq_ok_iff.mp hroot, Envelope.ofRoot_eq_ok_iff.mp henvelope⟩

variable {root : Members} {envelope : Envelope} (htext : Json.parse text = .ok (.object root))
  (henvelope : Envelope.Of root envelope)
include htext henvelope

theorem parse_of_envelope (decode : Members → Envelope → Except ResponseError α) :
    parse decode text = (decode root envelope).map (⟨text, envelope, ·⟩) := by
  rw [parse_eq, parseRoot_eq_ok_iff.mpr htext]
  change ofRoot decode text root = _
  rw [ofRoot, Envelope.ofRoot_eq_ok_iff.mpr henvelope]
  rfl

variable {key : String} {absent : α} {read : Json → Except ResponseError α}

theorem parse_decodeMember_eq_ok_iff {Spells : Json → α → Prop}
    (hread : ∀ v, inPayload? key root = some v → ∀ a, read v = .ok a ↔ Spells v a)
    (r : Response α) : parse (decodeMember key absent read) text = .ok r ↔
      r.text = text ∧ r.envelope = envelope ∧
        Decodes key absent Spells root envelope r.payload := by
  rw [parse_of_envelope htext henvelope, map_eq_ok_iff, ← decodeMember_eq_ok_iff hread]
  constructor
  · rintro ⟨payload, hpayload, rfl⟩
    exact ⟨rfl, rfl, hpayload⟩
  · rintro ⟨rfl, rfl, hpayload⟩
    exact ⟨r.payload, hpayload, rfl⟩

theorem parse_decodeMember_eq_error_iff {Faulty : Json → ResponseError → Prop}
    (hread : ∀ v, inPayload? key root = some v → ∀ e, read v = .error e ↔ Faulty v e)
    (e : ResponseError) : parse (decodeMember key absent read) text = .error e ↔
      Refuses key Faulty root envelope e := by
  rw [parse_of_envelope htext henvelope, map_eq_error_iff, decodeMember_eq_error_iff hread]

end

end Response

end TableQuery

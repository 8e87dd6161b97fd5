import TableQuery.Proofs.Response.UnknownMembers

/-!
# Rejected requests

A status other than `ok` says that a request was rejected. The payload may then be missing, and every
kind of response is decoded as an empty one. Under the status `ok` rows, facets and schemas need it.
-/

namespace TableQuery

open Response

theorem Entries.get?_insert_self {α : Type} (key : String) (value : α)
    (entries : List (String × α)) : get? key (insert key value entries) = some value := by
  rw [get?_insert, if_pos rfl]

theorem Json.ordered_insert (key : String) {members : Members} {v : Json}
    (h : (Json.object members).Ordered) (hv : v.Ordered) :
    (Json.object (Entries.insert key v members)).Ordered := by
  refine ⟨Entries.ascending_insert key v h.1, (orderedMembers_iff _).mpr fun e he => ?_⟩
  rcases Entries.mem_of_mem_insert he with rfl | he
  · exact hv
  · exact (orderedMembers_iff members).mp h.2 e he

theorem Response.Scalar.insert {root : Members} {key k s : String} (h : Scalar root key s)
    (hkey : key ≠ k) (v : Json) : Scalar (Entries.insert k v root) key s := by
  have hget : Entries.get? key (Entries.insert k v root) = Entries.get? key root := by
    rw [Entries.get?_insert, if_neg hkey]
  cases h with
  | string h => exact .string (hget.trans h)
  | number h => exact .number (hget.trans h)

/-- The object has the version and the status of a rejected request, and no payload. -/
structure Response.Rejected (root : Members) (version status : String) : Prop where
  hversion : Scalar root "version" version
  hstatus : Scalar root "status" status
  status_ne : status ≠ "ok"
  no_response : Entries.get? "response" root = none

namespace ResponseKind

/-- The members of a payload that this kind is decoded from. -/
def payloadMembers : ResponseKind → List String
  | .read => ["data"]
  | .facet => ["data"]
  | .schema => ["view"]
  | .submit => ["factual_id", "new_entity"]
  | .flag => []
  | .raw => []

/-- The response with nothing in its payload. -/
def withoutPayload (kind : ResponseKind) (text : String) (envelope : Envelope) : AnyResponse :=
  match kind with
  | .read => .read ⟨text, envelope, []⟩
  | .facet => .facet ⟨text, envelope, ∅⟩
  | .schema => .schema ⟨text, envelope, .untitled⟩
  | .submit => .submit ⟨text, envelope, ⟨none, false⟩⟩
  | .flag => .flag ⟨text, envelope, ()⟩
  | .raw => .raw ⟨text, envelope, ()⟩

section

variable {root payload : Members} {envelope : Envelope}

theorem decodePayload_of_absent (kind : ResponseKind) (text : String)
    (h : payload? root envelope = .ok none) :
    kind.decodePayload text root envelope = .ok (kind.withoutPayload text envelope) := by
  have hmember := fun key => payloadMember?_of_none key h
  cases kind with
  | read => simp only [decodePayload, Rows.decode, hmember]; rfl
  | facet => simp only [decodePayload, Facets.decode, hmember]; rfl
  | schema => simp only [decodePayload, Schema.decode, hmember]; rfl
  | submit => simp only [decodePayload, Receipt.decode, h]; rfl
  | flag => rfl
  | raw => rfl

theorem payloadMember?_of_rejected {key : String} (henvelope : envelope.isOk = false)
    (h : Entries.get? "response" root = some (.object payload))
    (hkey : Entries.get? key payload = none) : payloadMember? key root envelope = .ok none := by
  rw [payloadMember?_of_object key h, hkey, henvelope]
  rfl

theorem decodePayload_of_no_members {kind : ResponseKind} (hkind : kind ≠ .submit) (text : String)
    (henvelope : envelope.isOk = false)
    (h : Entries.get? "response" root = some (.object payload))
    (hmembers : ∀ name ∈ kind.payloadMembers, Entries.get? name payload = none) :
    kind.decodePayload text root envelope = .ok (kind.withoutPayload text envelope) := by
  have hmember : ∀ name ∈ kind.payloadMembers, payloadMember? name root envelope = .ok none :=
    fun name hname => payloadMember?_of_rejected henvelope h (hmembers name hname)
  cases kind with
  | read => simp only [decodePayload, Rows.decode, hmember "data" List.mem_cons_self]; rfl
  | facet => simp only [decodePayload, Facets.decode, hmember "data" List.mem_cons_self]; rfl
  | schema => simp only [decodePayload, Schema.decode, hmember "view" List.mem_cons_self]; rfl
  | submit => exact absurd rfl hkind
  | flag => rfl
  | raw => rfl

end

end ResponseKind

/-- A receipt has to name the row, also when the submission was rejected. -/
theorem Receipt.decode_of_no_members {root payload : Members} (hpayload : Ascending payload)
    (h : Entries.get? "response" root = some (.object payload))
    (hmembers : ∀ name ∈ ResponseKind.submit.payloadMembers, Entries.get? name payload = none)
    (envelope : Envelope) :
    decode root envelope = .error (.shape (.missingField "factual_id")) := by
  have hempty : ofMembers payload = ofMembers [] :=
    ofMembers_congr hpayload Entries.ascending_nil hmembers
  rw [decode, payload?_of_object h]
  change (ofMembers payload).mapError _ = _
  rw [hempty]
  rfl

namespace Response.Rejected

variable {root : Members} {version status : String}

theorem isOk (h : Rejected root version status) (total : Option UInt64) (included : UInt64) :
    (Envelope.mk version status total included).isOk = false := beq_false_of_ne h.status_ne

theorem envelope (h : Rejected root version status) :
    Envelope.Of root ⟨version, status, none, 0⟩ :=
  .noPayload h.hversion h.hstatus (by simp [h.no_response])

theorem parse (h : Rejected root version status) {text : String}
    (htext : Json.parse text = .ok (.object root)) (kind : ResponseKind) :
    kind.parse text = .ok (kind.withoutPayload text ⟨version, status, none, 0⟩) := by
  have hpayload : payload? root ⟨version, status, none, 0⟩ = .ok none := by
    rw [payload?_of_absent h.no_response, h.isOk]
    rfl
  rw [ResponseKind.parse_of_envelope htext h.envelope]
  exact kind.decodePayload_of_absent text hpayload

theorem envelope_insert (h : Rejected root version status) {payload : Members}
    {total included : Option UInt64} (htotal : Counted payload "total_row_count" total)
    (hincluded : Counted payload "included_rows" included) :
    Envelope.Of (Entries.insert "response" (.object payload) root)
      ⟨version, status, total, included.getD 0⟩ :=
  .payload (h.hversion.insert (by decide) _) (h.hstatus.insert (by decide) _)
    (Entries.get?_insert_self ..) htotal hincluded

end Response.Rejected

/-! ## Missing payloads -/

/-- The kinds that need a payload as long as the status is `ok`. -/
def ResponseKind.dataKinds : List ResponseKind := [.read, .facet, .schema]

/-- The object says that all is well, but holds no payload. -/
structure Response.Bare (root : Members) : Prop where
  hversion : ∃ version, Scalar root "version" version
  hstatus : Scalar root "status" "ok"
  no_response : Entries.get? "response" root = none

theorem Response.Bare.parse {root : Members} (h : Bare root) {kind : ResponseKind}
    (hkind : kind ∈ ResponseKind.dataKinds) {text : String}
    (htext : Json.parse text = .ok (.object root)) :
    kind.parse text = .error (.missingField "response") := by
  obtain ⟨version, hversion⟩ := h.hversion
  have henvelope : Envelope.Of root ⟨version, "ok", none, 0⟩ :=
    .noPayload hversion h.hstatus (by simp [h.no_response])
  have hpayload : payload? root ⟨version, "ok", none, 0⟩ = .error (.missingField "response") :=
    payload?_of_absent h.no_response _
  have hmember := fun key => payloadMember?_of_error key hpayload
  rw [ResponseKind.parse_of_envelope htext henvelope]
  rcases List.mem_cons.mp hkind with rfl | hkind
  · simp only [ResponseKind.decodePayload, Rows.decode, hmember]
    rfl
  rcases List.mem_cons.mp hkind with rfl | hkind
  · simp only [ResponseKind.decodePayload, Facets.decode, hmember]
    rfl
  · obtain rfl := List.mem_singleton.mp hkind
    simp only [ResponseKind.decodePayload, Schema.decode, hmember]
    rfl

/-! ## Rejections with and without a payload -/

/-- A rejected request without a payload is decoded as an empty response of every kind. When there
is a payload that holds nothing of the kind, the response is the same but for the counts of the
payload; only a receipt is then missed. -/
theorem rejections_are_read_leniently (kind : ResponseKind) {root payload : Members}
    {version status bare full : String} {total included : Option UInt64}
    (h : Rejected root version status) (htotal : Counted payload "total_row_count" total)
    (hincluded : Counted payload "included_rows" included)
    (hmembers : ∀ name ∈ kind.payloadMembers, Entries.get? name payload = none)
    (hbare : Json.parse bare = .ok (.object root))
    (hfull : Json.parse full = .ok (.object (Entries.insert "response" (.object payload) root))) :
    kind.parse bare = .ok (kind.withoutPayload bare ⟨version, status, none, 0⟩) ∧
    (kind ≠ .submit → kind.parse full =
      .ok (kind.withoutPayload full ⟨version, status, total, included.getD 0⟩)) ∧
    (kind = .submit → kind.parse full = .error (.shape (.missingField "factual_id"))) := by
  have hparse := ResponseKind.parse_of_envelope hfull (h.envelope_insert htotal hincluded) kind
  have hresponse := Entries.get?_insert_self "response" (Json.object payload) root
  refine ⟨h.parse hbare kind, ?_, ?_⟩
  · intro hkind
    rw [hparse]
    exact ResponseKind.decodePayload_of_no_members hkind full (h.isOk ..) hresponse hmembers
  · rintro rfl
    have hpayload := Json.ordered_of_get? (Json.fits_of_parse hfull).1 hresponse
    rw [hparse, ResponseKind.decodePayload,
      Receipt.decode_of_no_members hpayload.1 hresponse hmembers]
    rfl

/-- A rejected read with a payload of a count and a member that is not known. -/
theorem rejections_are_read_leniently_unknown_member :
    let root : Members := [("status", .string "error"), ("version", .string "3")]
    let payload : Members := [("seen", .bool true), ("total_row_count", .nat64 7)]
    let bare := (Json.object root).render
    let full := (Json.object (Entries.insert "response" (.object payload) root)).render
    ResponseKind.read.parse bare = .ok (.read ⟨bare, ⟨"3", "error", none, 0⟩, []⟩) ∧
      ResponseKind.read.parse full = .ok (.read ⟨full, ⟨"3", "error", some 7, 0⟩, []⟩) := by
  intro root payload bare full
  have hroot : (Json.object root).Ordered := by decide
  have hpayload : (Json.object payload).Ordered := by decide
  have hbare : Json.parse bare = .ok (.object root) := Json.parse_render hroot (by decide) nofun
  have hfull := Json.parse_render (Json.ordered_insert "response" hroot hpayload) (by decide) nofun
  have hrejected : Rejected root "3" "error" := ⟨.string rfl, .string rfl, by decide, rfl⟩
  have hmembers : ∀ name ∈ ResponseKind.read.payloadMembers, Entries.get? name payload = none := by
    decide
  obtain ⟨hempty, hcounted, -⟩ := rejections_are_read_leniently .read hrejected
    (.number rfl) (.absent rfl) hmembers hbare hfull
  exact ⟨hempty, hcounted nofun⟩

/-- The submission is read without a payload, and not with a payload that holds nothing of a
receipt. -/
theorem rejected_submission_with_empty_payload :
    ¬ ∀ (kind : ResponseKind) (root payload : Members) (version status bare full : String)
        (total included : Option UInt64), Rejected root version status →
      Counted payload "total_row_count" total → Counted payload "included_rows" included →
      (∀ name ∈ kind.payloadMembers, Entries.get? name payload = none) →
      Json.parse bare = .ok (.object root) →
      Json.parse full = .ok (.object (Entries.insert "response" (.object payload) root)) →
      (∃ r, kind.parse bare = .ok r) ∧ ∃ r, kind.parse full = .ok r := by
  intro huniform
  let root : Members := [("status", .string "error"), ("version", .string "3")]
  have hroot : (Json.object root).Ordered := by decide
  have hempty : (Json.object []).Ordered := ⟨Entries.ascending_nil, trivial⟩
  have hbare := Json.parse_render hroot (by decide) nofun
  have hfull := Json.parse_render (Json.ordered_insert "response" hroot hempty) (by decide) nofun
  have hrejected : Rejected root "3" "error" := ⟨.string rfl, .string rfl, by decide, rfl⟩
  obtain ⟨-, r, hr⟩ := huniform .submit root [] "3" "error" _ _ none none hrejected (.absent rfl)
    (.absent rfl) (fun _ _ => rfl) hbare hfull
  rw [ResponseKind.parse_of_object hfull] at hr
  cases hr

end TableQuery

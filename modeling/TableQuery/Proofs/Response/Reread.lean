import TableQuery.Proofs.Json.RoundTrip
import TableQuery.Proofs.Response.Rejection

/-!
# Responses that are written and read again

An object that decodes still decodes after it was written and read again. Doubles may have become
other doubles: those in rows, and a double that stands for the version or the status. All else of the
response is the same.
-/

namespace TableQuery

open Json Response

theorem Json.get?_rereadMembers (key : String) (members : Members) :
    Entries.get? key (rereadMembers members) = (Entries.get? key members).map Json.reread := by
  induction members with
  | nil => rfl
  | cons e members ih =>
    obtain ⟨k, v⟩ := e
    rw [rereadMembers, Entries.get?, Entries.get?]
    split
    next => rfl
    next => exact ih

theorem Json.absent_reread {key : String} {members : Members}
    (h : Entries.get? key members = none) : Entries.get? key (rereadMembers members) = none := by
  rw [get?_rereadMembers, h]
  rfl

/-! ## The envelope -/

namespace Response

theorem render_number_ne_ok (n : Number) : Json.Number.render n ≠ "ok" := by
  intro h
  have hchars : numberChars n = ['o', 'k'] := by
    rw [← String.toList_ofList (l := numberChars n)]
    exact congrArg String.toList h
  have hread := readNumber_numberChars n
  rw [hchars] at hread
  cases hread

/-- The texts of a member before and after its object was written and read again. A number may be
read as another number, but a string stays and so does the status `ok`. -/
structure Respelled (root : Members) (key before after : String) : Prop where
  hbefore : Scalar root key before
  hafter : Scalar (rereadMembers root) key after
  ok_iff : after = "ok" ↔ before = "ok"
  same : (∀ x, Entries.get? key root = some (.double x) → x.ReadsBack) → after = before

theorem Scalar.reread {root : Members} {key s : String} (h : Scalar root key s) :
    ∃ t, Respelled root key s t := by
  cases h with
  | @string s h =>
    exact ⟨s, .string h, .string (by rw [get?_rereadMembers, h]; rfl), Iff.rfl, fun _ => rfl⟩
  | @number n h =>
    refine ⟨Json.Number.render n.reread, .number h, .number (by rw [get?_rereadMembers, h]; rfl),
      ?_, ?_⟩
    · exact iff_of_false (render_number_ne_ok _) (render_number_ne_ok _)
    · intro hback
      cases n with
      | integer value lower upper => rfl
      | double x => rw [Number.reread, Binary64.readsBack_iff.mp (hback x h)]

theorem Counted.reread {payload : Members} {key : String} {count : Option UInt64}
    (h : Counted payload key count) : Counted (rereadMembers payload) key count := by
  cases h with
  | absent h => exact .absent (absent_reread h)
  | null h => exact .null (by rw [get?_rereadMembers, h]; rfl)
  | number h => exact .number (by rw [get?_rereadMembers, h]; rfl)

theorem Rejected.reread {root : Members} {version status : String}
    (h : Rejected root version status) :
    ∃ v s, Respelled root "version" version v ∧ Respelled root "status" status s ∧
      Rejected (rereadMembers root) v s := by
  obtain ⟨v, hversion⟩ := h.hversion.reread
  obtain ⟨s, hstatus⟩ := h.hstatus.reread
  have hne : s ≠ "ok" := fun heq => h.status_ne (hstatus.ok_iff.mp heq)
  exact ⟨v, s, hversion, hstatus, hversion.hafter, hstatus.hafter, hne,
    absent_reread h.no_response⟩

theorem Bare.reread {root : Members} (h : Bare root) : Bare (rereadMembers root) := by
  obtain ⟨version, hversion⟩ := h.hversion
  obtain ⟨v, hversion⟩ := hversion.reread
  obtain ⟨s, hstatus⟩ := h.hstatus.reread
  obtain rfl : s = "ok" := hstatus.ok_iff.mpr rfl
  exact ⟨⟨v, hversion.hafter⟩, hstatus.hafter, absent_reread h.no_response⟩

end Response

theorem Json.not_object_reread {key : String} {members : Members}
    (h : ∀ payload, Entries.get? key members ≠ some (.object payload)) (payload : Members) :
    Entries.get? key (rereadMembers members) ≠ some (.object payload) := by
  rw [get?_rereadMembers]
  intro hobject
  obtain ⟨v, hv, hreread⟩ := Option.map_eq_some_iff.mp hobject
  cases v with
  | object members => exact h members hv
  | _ => cases hreread

theorem Envelope.Of.reread {root : Members} {e : Envelope} (h : Envelope.Of root e) :
    ∃ version status, Respelled root "version" e.version version ∧
      Respelled root "status" e.status status ∧
      Envelope.Of (rereadMembers root) { e with version, status } := by
  cases h with
  | payload hversion hstatus hpayload htotal hincluded =>
    obtain ⟨v, hversion⟩ := hversion.reread
    obtain ⟨s, hstatus⟩ := hstatus.reread
    have hresponse := get?_rereadMembers "response" root
    rw [hpayload] at hresponse
    exact ⟨v, s, hversion, hstatus,
      .payload hversion.hafter hstatus.hafter hresponse htotal.reread hincluded.reread⟩
  | noPayload hversion hstatus hpayload =>
    obtain ⟨v, hversion⟩ := hversion.reread
    obtain ⟨s, hstatus⟩ := hstatus.reread
    exact ⟨v, s, hversion, hstatus,
      .noPayload hversion.hafter hstatus.hafter (not_object_reread hpayload)⟩

/-! ## Payloads -/

namespace Response

section

variable {root : Members} {e e' : Envelope} (hok : e'.isOk = e.isOk)
include hok

theorem payload?_reread {payload : Option Members} (h : payload? root e = .ok payload) :
    payload? (rereadMembers root) e' = .ok (payload.map rereadMembers) := by
  unfold payload? at h ⊢
  rw [get?_rereadMembers]
  split at h
  next members hmembers => cases h; rw [hmembers]; rfl
  next => cases h
  next habsent =>
    -- Whether a payload may be missing depends on the status alone.
    rw [habsent, hok]
    split at h
    next => cases h
    next hnot => cases h; exact if_neg hnot

theorem payloadMember?_reread {key : String} {v : Option Json}
    (h : payloadMember? key root e = .ok v) :
    payloadMember? key (rereadMembers root) e' = .ok (v.map Json.reread) := by
  obtain ⟨payload, hpayload, h⟩ := bind_eq_ok_iff.mp h
  refine bind_eq_ok_iff.mpr ⟨_, payload?_reread hok hpayload, ?_⟩
  cases payload with
  | none => cases h; rfl
  | some members =>
    dsimp only [Option.map_some] at h ⊢
    rw [get?_rereadMembers, hok]
    split at h
    next v hv => cases h; rw [hv]; rfl
    next habsent =>
      rw [habsent]
      split at h
      next => cases h
      next hnot => cases h; exact if_neg hnot

end

theorem natural?_reread (v : Json) : natural? v.reread = natural? v := by
  match v with
  | .null => rfl
  | .bool _ => rfl
  | .number (.integer _ _ _) => rfl
  | .number (.double _) => rfl
  | .string _ => rfl
  | .array _ => rfl
  | .object _ => rfl

end Response

theorem Rows.ofItems_reread {index : Nat} {items : List Json} {rows : Rows}
    (h : ofItems index items = .ok rows) :
    ofItems index (rereadItems items) = .ok (rows.map rereadMembers) := by
  induction items generalizing index rows with
  | nil => cases h; rfl
  | cons item items ih =>
    cases item with
    | object row =>
      obtain ⟨rest, hrest, rfl⟩ := map_eq_ok_iff.mp h
      exact map_eq_ok_iff.mpr ⟨_, ih hrest, rfl⟩
    | _ => cases h

theorem Facets.countsOf_reread (field : String) (buckets : Members) :
    countsOf field (rereadMembers buckets) = countsOf field buckets := by
  induction buckets with
  | nil => rfl
  | cons bucket buckets ih =>
    rw [rereadMembers, countsOf, countsOf, natural?_reread, ih]

theorem Facets.ofMembers_reread {fields : Members} {facets : List (String × Keyed UInt64)}
    (h : ofMembers fields = .ok facets) : ofMembers (rereadMembers fields) = .ok facets := by
  induction fields generalizing facets with
  | nil => exact h
  | cons field fields ih =>
    obtain ⟨key, v⟩ := field
    cases v with
    | object buckets =>
      obtain ⟨counts, hcounts, h⟩ := bind_eq_ok_iff.mp h
      obtain ⟨rest, hrest, rfl⟩ := map_eq_ok_iff.mp h
      refine bind_eq_ok_iff.mpr ⟨counts, ?_, map_eq_ok_iff.mpr ⟨rest, ih hrest, rfl⟩⟩
      rw [countsOf_reread, hcounts]
    | _ => cases h

namespace Shape

/-- What is read from a value is read from it again after it was written. -/
def Stable {α : Type} (read : Json → Except ShapeError α) : Prop :=
  ∀ v a, read v = .ok a → read v.reread = .ok a

theorem stable_text : Stable text := by
  intro v s h
  cases v with
  | string s => exact h
  | _ => cases h

theorem stable_flag : Stable flag := by
  intro v b h
  cases v with
  | bool b => exact h
  | _ => cases h

theorem stable_optionalText : Stable optionalText := by
  intro v s h
  cases v with
  | null => exact h
  | string s => exact h
  | _ => cases h

theorem Stable.map {α β : Type} {read : Json → Except ShapeError α} (h : Stable read) (f : α → β) :
    Stable fun v => (read v).map f := by
  intro v b hb
  obtain ⟨a, ha, rfl⟩ := map_eq_ok_iff.mp hb
  exact map_eq_ok_iff.mpr ⟨a, h v a ha, rfl⟩

theorem Stable.mapM {α : Type} {read : Json → Except ShapeError α} (h : Stable read)
    {items : List Json} {as : List α} (has : items.mapM read = .ok as) :
    (rereadItems items).mapM read = .ok as := by
  rw [rereadItems_eq_map]
  refine mapM_eq_ok_iff.mpr (List.forall₂_map_left_iff.mpr ?_)
  exact (mapM_eq_ok_iff.mp has).imp h

theorem foldlM_rereadMembers {β : Type} {read : β → String × Json → Except ShapeError β}
    (hread : ∀ b key, Stable fun v => read b (key, v)) (members : Members) {b last : β}
    (h : members.foldlM read b = .ok last) : (rereadMembers members).foldlM read b = .ok last := by
  induction members generalizing b with
  | nil => exact h
  | cons member members ih =>
    rw [List.foldlM_cons] at h
    obtain ⟨next, hnext, h⟩ := bind_eq_ok_iff.mp h
    rw [rereadMembers, List.foldlM_cons]
    exact bind_eq_ok_iff.mpr ⟨next, hread b member.1 member.2 next hnext, ih h⟩

end Shape

open Shape

theorem Column.stable_readMember (read : Option String × Column) (key : String) :
    Stable fun v => readMember read (key, v) := by
  intro v read' h
  unfold readMember at h ⊢
  dsimp only at h ⊢
  split at h
  next => exact stable_text.map _ v _ h
  next => exact stable_optionalText.map _ v _ h
  next => exact stable_optionalText.map _ v _ h
  next => exact stable_optionalText.map _ v _ h
  next => exact stable_flag.map _ v _ h
  next => exact stable_flag.map _ v _ h
  next => exact stable_flag.map _ v _ h
  next => exact h

theorem Column.ofMembers_reread {members : Members} {column : Column}
    (h : ofMembers members = .ok column) : ofMembers (rereadMembers members) = .ok column := by
  obtain ⟨read, hread, h⟩ := bind_eq_ok_iff.mp h
  have hfold := foldlM_rereadMembers stable_readMember members hread
  exact bind_eq_ok_iff.mpr ⟨read, hfold, h⟩

theorem Column.ofItems_reread {items : List Json} {column : Column}
    (h : ofItems items = .ok column) : ofItems (rereadItems items) = .ok column := by
  have hzip : memberNames.zip (rereadItems items) = rereadMembers (memberNames.zip items) := by
    rw [rereadItems_eq_map, rereadMembers_eq_map, List.zip_map_right]
    rfl
  unfold ofItems at h ⊢
  rw [hzip, rereadItems_eq_map, List.isEmpty_map, List.length_map]
  split at h
  next => cases h
  next hne =>
    rw [if_neg hne]
    obtain ⟨read, hread, h⟩ := bind_eq_ok_iff.mp h
    exact bind_eq_ok_iff.mpr ⟨read, ofMembers_reread hread, h⟩

theorem Column.stable_ofJson : Stable ofJson := by
  intro v column h
  cases v with
  | object members => exact ofMembers_reread h
  | array items => exact ofItems_reread h
  | _ => cases h

theorem Schema.stable_readMember (read : Option String × Option (List Column) × Schema)
    (key : String) : Stable fun v => readMember read (key, v) := by
  intro v read' h
  unfold readMember at h ⊢
  dsimp only at h ⊢
  split at h
  next => exact stable_text.map _ v _ h
  next => exact stable_text.map _ v _ h
  next => exact stable_flag.map _ v _ h
  next => exact stable_flag.map _ v _ h
  next =>
    cases v with
    | array items =>
      obtain ⟨columns, hcolumns, rfl⟩ := map_eq_ok_iff.mp h
      exact map_eq_ok_iff.mpr ⟨columns, Column.stable_ofJson.mapM hcolumns, rfl⟩
    | _ => cases h
  next => exact h

theorem Schema.ofMembers_reread {view : Members} {schema : Schema} (h : ofMembers view = .ok schema) :
    ofMembers (rereadMembers view) = .ok schema := by
  obtain ⟨read, hread, h⟩ := bind_eq_ok_iff.mp h
  have hfold := foldlM_rereadMembers stable_readMember view hread
  exact bind_eq_ok_iff.mpr ⟨read, hfold, h⟩

theorem Receipt.stable_readMember (read : Option String × Option Bool) (key : String) :
    Stable fun v => readMember read (key, v) := by
  intro v read' h
  unfold readMember at h ⊢
  dsimp only at h ⊢
  split at h
  next => exact stable_text.map _ v _ h
  next => exact stable_flag.map _ v _ h
  next => exact h

theorem Receipt.ofMembers_reread {payload : Members} {receipt : Receipt}
    (h : ofMembers payload = .ok receipt) : ofMembers (rereadMembers payload) = .ok receipt := by
  obtain ⟨read, hread, h⟩ := bind_eq_ok_iff.mp h
  have hfold := foldlM_rereadMembers stable_readMember payload hread
  exact bind_eq_ok_iff.mpr ⟨read, hfold, h⟩

/-! ## Responses -/

section

variable {root : Members} {e e' : Envelope} (hok : e'.isOk = e.isOk)
include hok

theorem Rows.decode_reread {rows : Rows} (h : decode root e = .ok rows) :
    decode (rereadMembers root) e' = .ok (rows.map rereadMembers) := by
  obtain ⟨data, hdata, h⟩ := bind_eq_ok_iff.mp h
  refine bind_eq_ok_iff.mpr ⟨_, payloadMember?_reread hok hdata, ?_⟩
  split at h
  next => cases h; rfl
  next items => exact ofItems_reread h
  next => cases h

theorem Facets.decode_reread {facets : Facets} (h : decode root e = .ok facets) :
    decode (rereadMembers root) e' = .ok facets := by
  obtain ⟨data, hdata, h⟩ := bind_eq_ok_iff.mp h
  refine bind_eq_ok_iff.mpr ⟨_, payloadMember?_reread hok hdata, ?_⟩
  split at h
  next => cases h; rfl
  next fields =>
    obtain ⟨counts, hcounts, rfl⟩ := map_eq_ok_iff.mp h
    exact map_eq_ok_iff.mpr ⟨counts, ofMembers_reread hcounts, rfl⟩
  next => cases h

theorem Schema.decode_reread {schema : Schema} (h : decode root e = .ok schema) :
    decode (rereadMembers root) e' = .ok schema := by
  obtain ⟨view, hview, h⟩ := bind_eq_ok_iff.mp h
  refine bind_eq_ok_iff.mpr ⟨_, payloadMember?_reread hok hview, ?_⟩
  split at h
  next => cases h; rfl
  next view => exact mapError_eq_ok_iff.mpr (ofMembers_reread (mapError_eq_ok_iff.mp h))
  next => cases h

theorem Receipt.decode_reread {receipt : Receipt} (h : decode root e = .ok receipt) :
    decode (rereadMembers root) e' = .ok receipt := by
  obtain ⟨payload, hpayload, h⟩ := bind_eq_ok_iff.mp h
  refine bind_eq_ok_iff.mpr ⟨_, payload?_reread hok hpayload, ?_⟩
  split at h
  next => cases h; rfl
  next payload => exact mapError_eq_ok_iff.mpr (ofMembers_reread (mapError_eq_ok_iff.mp h))

end

/-- The response with other texts, and with the doubles of its rows read again. -/
def AnyResponse.reread (text version status : String) : AnyResponse → AnyResponse
  | .read r => .read ⟨text, { r.envelope with version, status }, r.payload.map rereadMembers⟩
  | .facet r => .facet ⟨text, { r.envelope with version, status }, r.payload⟩
  | .schema r => .schema ⟨text, { r.envelope with version, status }, r.payload⟩
  | .submit r => .submit ⟨text, { r.envelope with version, status }, r.payload⟩
  | .flag r => .flag ⟨text, { r.envelope with version, status }, r.payload⟩
  | .raw r => .raw ⟨text, { r.envelope with version, status }, r.payload⟩

theorem ResponseKind.decodePayload_reread {kind : ResponseKind} {root : Members} {e : Envelope}
    {text other version status : String} {r : AnyResponse}
    (hok : Envelope.isOk { e with version, status } = e.isOk)
    (h : kind.decodePayload text root e = .ok r) :
    kind.decodePayload other (rereadMembers root) { e with version, status } =
      .ok (r.reread other version status) := by
  cases kind with
  | read =>
    obtain ⟨rows, hrows, rfl⟩ := map_eq_ok_iff.mp h
    exact map_eq_ok_iff.mpr ⟨_, Rows.decode_reread hok hrows, rfl⟩
  | facet =>
    obtain ⟨facets, hfacets, rfl⟩ := map_eq_ok_iff.mp h
    exact map_eq_ok_iff.mpr ⟨_, Facets.decode_reread hok hfacets, rfl⟩
  | schema =>
    obtain ⟨schema, hschema, rfl⟩ := map_eq_ok_iff.mp h
    exact map_eq_ok_iff.mpr ⟨_, Schema.decode_reread hok hschema, rfl⟩
  | submit =>
    obtain ⟨receipt, hreceipt, rfl⟩ := map_eq_ok_iff.mp h
    exact map_eq_ok_iff.mpr ⟨_, Receipt.decode_reread hok hreceipt, rfl⟩
  | flag => cases h; rfl
  | raw => cases h; rfl

/-- An object that decodes does so with its doubles read again, and only these doubles differ. -/
theorem ResponseKind.decode_reread {kind : ResponseKind} {text : String} {root : Members}
    {r : AnyResponse} (h : kind.decode text root = .ok r) :
    ∃ version status, Respelled root "version" r.envelope.version version ∧
      Respelled root "status" r.envelope.status status ∧
      ∀ other, kind.decode other (rereadMembers root) = .ok (r.reread other version status) := by
  rw [decode_eq] at h
  obtain ⟨e, he, h⟩ := bind_eq_ok_iff.mp h
  obtain ⟨version, status, hversion, hstatus, hreread⟩ := (Envelope.ofRoot_eq_ok_iff.mp he).reread
  have hok : Envelope.isOk { e with version, status } = e.isOk :=
    Bool.eq_iff_iff.mpr (by simpa [Envelope.isOk] using hstatus.ok_iff)
  rw [(of_decodePayload h).1]
  refine ⟨version, status, hversion, hstatus, fun other => ?_⟩
  rw [decode_eq]
  exact bind_eq_ok_iff.mpr
    ⟨_, Envelope.ofRoot_eq_ok_iff.mpr hreread, decodePayload_reread hok h⟩

end TableQuery

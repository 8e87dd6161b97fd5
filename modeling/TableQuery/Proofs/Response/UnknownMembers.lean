import Mathlib.Tactic.FinCases
import TableQuery.Proofs.Json.Reading
import TableQuery.Proofs.Json.RoundTrip
import TableQuery.Proofs.Response.Envelope

/-!
# Members that are not known

A response is decoded from the members that its kind knows. Two objects that agree on these give the
same response or the same error, whatever else they hold, at every level from the object itself down
to the columns of a schema.
-/

namespace TableQuery

/-! ## Members that a decoder knows -/

namespace Entries

variable {α β ε : Type}

/-- What a value does when it is read under a key with one of the names. -/
def action (read : β → String × α → Except ε β) (names : List String) (key : String) (v : α) :
    Option (β → Except ε β) :=
  if key ∈ names then some fun b => read b (key, v) else none

def actions (read : β → String × α → Except ε β) (names : List String)
    (entries : List (String × α)) : List (String × (β → Except ε β)) :=
  entries.filterMap fun e => (action read names e.1 e.2).map (e.1, ·)

section

variable {read : β → String × α → Except ε β} {names : List String}

theorem foldlM_actions (hskip : ∀ b e, e.1 ∉ names → read b e = .ok b)
    (entries : List (String × α)) (b : β) :
    (actions read names entries).foldlM (fun b e => e.2 b) b = entries.foldlM read b := by
  induction entries generalizing b with
  | nil => rfl
  | cons e entries ih =>
    by_cases he : e.1 ∈ names
    · have hcons : actions read names (e :: entries) =
          (e.1, fun b => read b e) :: actions read names entries := by
        simp [actions, action, he]
      rw [hcons, List.foldlM_cons, List.foldlM_cons]
      exact congrArg (read b e >>= ·) (funext ih)
    · have hcons : actions read names (e :: entries) = actions read names entries := by
        simp [actions, action, he]
      rw [hcons, List.foldlM_cons, hskip b e he]
      exact ih b

theorem foldlM_congr (hskip : ∀ b e, e.1 ∉ names → read b e = .ok b) {xs ys : List (String × α)}
    (hx : Ascending xs) (hy : Ascending ys)
    (h : ∀ key ∈ names, (get? key xs).map (fun v b => read b (key, v)) =
      (get? key ys).map (fun v b => read b (key, v))) (b : β) :
    xs.foldlM read b = ys.foldlM read b := by
  -- The values may differ under a known key as long as they do the same, so the actions are compared.
  have hactions : actions read names xs = actions read names ys := by
    refine eq_of_get?_eq (ascending_filterMap _ hx) (ascending_filterMap _ hy) fun key => ?_
    rw [actions, actions, get?_filterMap _ key hx, get?_filterMap _ key hy]
    by_cases hkey : key ∈ names
    · have hmap : action read names key = some ∘ fun v b => read b (key, v) :=
        funext fun v => if_pos hkey
      rw [hmap, ← Option.map_eq_bind, ← Option.map_eq_bind, h key hkey]
    · have hnone : action read names key = fun _ => none := funext fun v => if_neg hkey
      simp [hnone]
  rw [← foldlM_actions hskip, hactions, foldlM_actions hskip]

end

end Entries

/-! ## Objects that agree -/

/-- Both members are absent, both are objects that are alike, or neither is an object. -/
inductive Response.SameForm (R : Members → Members → Prop) : Option Json → Option Json → Prop
  | absent : SameForm R none none
  | object {v w : Members} (h : R v w) : SameForm R (some (.object v)) (some (.object w))
  | other {v w : Json} (hv : v.isObject = false) (hw : w.isObject = false) :
      SameForm R (some v) (some w)

namespace Response

theorem SameForm.elim {R : Members → Members → Prop} {v w : Option Json} (h : SameForm R v w) :
    (v = none ∧ w = none) ∨ (∃ m n, v = some (.object m) ∧ w = some (.object n) ∧ R m n) ∨
      ∃ x y, v = some x ∧ w = some y ∧ x.isObject = false ∧ y.isObject = false := by
  cases h with
  | absent => exact .inl ⟨rfl, rfl⟩
  | object h => exact .inr (.inl ⟨_, _, rfl, rfl, h⟩)
  | other hv hw => exact .inr (.inr ⟨_, _, rfl, rfl, hv, hw⟩)

end Response

open Response

/-- The two values are equal, or objects that agree on the members of a column. -/
inductive Column.Same : Json → Json → Prop
  | object {v w : Members} (h : ∀ name ∈ memberNames, Entries.get? name v = Entries.get? name w) :
      Same (.object v) (.object w)
  | refl (v : Json) : Same v v

namespace Schema

/-- The two members are equal, or lists of the same columns. -/
inductive SameColumns : Option Json → Option Json → Prop
  | array {items others : List Json} (h : List.Forall₂ Column.Same items others) :
      SameColumns (some (.array items)) (some (.array others))
  | refl (v : Option Json) : SameColumns v v

structure SameView (v w : Members) : Prop where
  members : ∀ name ∈ ["title", "description", "search_enabled", "geo_enabled"],
    Entries.get? name v = Entries.get? name w
  columns : SameColumns (Entries.get? "fields" v) (Entries.get? "fields" w)

end Schema

namespace ResponseKind

/-- The payloads agree on the members of this kind. -/
def SameMembers (kind : ResponseKind) (v w : Members) : Prop :=
  match kind with
  | .read => Entries.get? "data" v = Entries.get? "data" w
  | .facet => Entries.get? "data" v = Entries.get? "data" w
  | .schema => SameForm Schema.SameView (Entries.get? "view" v) (Entries.get? "view" w)
  | .submit => ∀ name ∈ ["factual_id", "new_entity"], Entries.get? name v = Entries.get? name w
  | .flag => True
  | .raw => True

structure SamePayload (kind : ResponseKind) (v w : Members) : Prop where
  counts : ∀ name ∈ ["total_row_count", "included_rows"], Entries.get? name v = Entries.get? name w
  members : kind.SameMembers v w

/-- The objects agree on all that is known of a response of this kind. -/
structure SameRoot (kind : ResponseKind) (root other : Members) : Prop where
  tags : ∀ name ∈ ["version", "status"], Entries.get? name root = Entries.get? name other
  payload : SameForm kind.SamePayload (Entries.get? "response" root)
    (Entries.get? "response" other)

end ResponseKind

/-! ## Agreeing objects are decoded alike -/

theorem Column.readMember_of_unknown (read : Option String × Column) (member : String × Json)
    (h : member.1 ∉ memberNames) : readMember read member = .ok read := by
  unfold readMember
  split
  all_goals simp_all [memberNames]

theorem Column.ofMembers_congr {v w : Members} (hv : Ascending v) (hw : Ascending w)
    (h : ∀ name ∈ memberNames, Entries.get? name v = Entries.get? name w) :
    ofMembers v = ofMembers w := by
  unfold ofMembers
  rw [Entries.foldlM_congr readMember_of_unknown hv hw fun name hname => by rw [h name hname]]

theorem Column.ofJson_congr {v w : Json} (h : Same v w) (hv : v.Ordered) (hw : w.Ordered) :
    ofJson v = ofJson w := by
  cases h with
  | object h => exact ofMembers_congr hv.1 hw.1 h
  | refl v => rfl

namespace Schema

theorem mapM_ofJson_congr {items others : List Json} (h : List.Forall₂ Column.Same items others)
    (hitems : Json.OrderedItems items) (hothers : Json.OrderedItems others) :
    items.mapM Column.ofJson = others.mapM Column.ofJson := by
  induction h with
  | nil => rfl
  | cons hsame _ ih =>
    rw [List.mapM_cons, List.mapM_cons, Column.ofJson_congr hsame hitems.1 hothers.1,
      ih hitems.2 hothers.2]

def memberNames : List String := ["title", "description", "search_enabled", "geo_enabled", "fields"]

theorem readMember_of_unknown (read : Option String × Option (List Column) × Schema)
    (member : String × Json) (h : member.1 ∉ memberNames) : readMember read member = .ok read := by
  unfold readMember
  split
  all_goals simp_all [memberNames]

theorem readMember_columns_congr {v w : Option Json} (h : SameColumns v w)
    (hv : ∀ x, v = some x → x.Ordered) (hw : ∀ x, w = some x → x.Ordered) :
    v.map (fun x read => readMember read ("fields", x)) =
      w.map (fun x read => readMember read ("fields", x)) := by
  cases h with
  | array h =>
    have hcolumns := mapM_ofJson_congr h (hv _ rfl) (hw _ rfl)
    refine congrArg some (funext fun read => ?_)
    change Except.map _ _ = Except.map _ _
    rw [hcolumns]
  | refl v => rfl

theorem ofMembers_congr {v w : Members} (hv : (Json.object v).Ordered) (hw : (Json.object w).Ordered)
    (h : SameView v w) : ofMembers v = ofMembers w := by
  have hsame : ∀ name ∈ memberNames, (Entries.get? name v).map (fun x read => readMember read (name, x)) =
      (Entries.get? name w).map (fun x read => readMember read (name, x)) := by
    intro name hname
    by_cases hfields : name = "fields"
    · subst hfields
      exact readMember_columns_congr h.columns (fun x hx => Json.ordered_of_get? hv hx)
        fun x hx => Json.ordered_of_get? hw hx
    · have hother : name ∈ ["title", "description", "search_enabled", "geo_enabled"] := by
        simp_all [memberNames]
      rw [h.members name hother]
  unfold ofMembers
  rw [Entries.foldlM_congr readMember_of_unknown hv.1 hw.1 hsame]

end Schema

theorem Receipt.readMember_of_unknown (read : Option String × Option Bool) (member : String × Json)
    (h : member.1 ∉ ["factual_id", "new_entity"]) : readMember read member = .ok read := by
  unfold readMember
  split <;> simp_all

theorem Receipt.ofMembers_congr {v w : Members} (hv : Ascending v) (hw : Ascending w)
    (h : ∀ name ∈ ["factual_id", "new_entity"], Entries.get? name v = Entries.get? name w) :
    ofMembers v = ofMembers w := by
  unfold ofMembers
  rw [Entries.foldlM_congr readMember_of_unknown hv hw fun name hname => by rw [h name hname]]

/-! ## Agreeing payloads are decoded alike -/

section

variable {root other : Members} {envelope : Envelope}

theorem Response.payloadMember?_congr (key : String)
    (h : payload? root envelope = payload? other envelope) :
    payloadMember? key root envelope = payloadMember? key other envelope := by
  unfold payloadMember?
  rw [h]

theorem Response.payloadMember?_congr_of_object {key : String} {v w : Members}
    (hv : Entries.get? "response" root = some (.object v))
    (hw : Entries.get? "response" other = some (.object w))
    (h : Entries.get? key v = Entries.get? key w) :
    payloadMember? key root envelope = payloadMember? key other envelope := by
  rw [payloadMember?_of_object key hv, payloadMember?_of_object key hw, h]

theorem Rows.decode_congr
    (h : payloadMember? "data" root envelope = payloadMember? "data" other envelope) :
    Rows.decode root envelope = Rows.decode other envelope := by
  unfold Rows.decode
  rw [h]

theorem Facets.decode_congr
    (h : payloadMember? "data" root envelope = payloadMember? "data" other envelope) :
    Facets.decode root envelope = Facets.decode other envelope := by
  unfold Facets.decode
  rw [h]

theorem Schema.decode_congr
    (h : payloadMember? "view" root envelope = payloadMember? "view" other envelope) :
    Schema.decode root envelope = Schema.decode other envelope := by
  unfold Schema.decode
  rw [h]

theorem Receipt.decode_congr (h : payload? root envelope = payload? other envelope) :
    Receipt.decode root envelope = Receipt.decode other envelope := by
  unfold Receipt.decode
  rw [h]

theorem ResponseKind.decodePayload_congr (kind : ResponseKind) (text : String)
    (h : payload? root envelope = payload? other envelope) :
    kind.decodePayload text root envelope = kind.decodePayload text other envelope := by
  unfold decodePayload
  rw [Rows.decode_congr (payloadMember?_congr _ h), Facets.decode_congr (payloadMember?_congr _ h),
    Schema.decode_congr (payloadMember?_congr _ h), Receipt.decode_congr h]

theorem Schema.decode_congr_of_object {v w : Members} (hv : (Json.object v).Ordered)
    (hw : (Json.object w).Ordered) (hroot : Entries.get? "response" root = some (.object v))
    (hother : Entries.get? "response" other = some (.object w))
    (h : SameForm SameView (Entries.get? "view" v) (Entries.get? "view" w)) :
    Schema.decode root envelope = Schema.decode other envelope := by
  unfold Schema.decode
  rw [payloadMember?_of_object _ hroot, payloadMember?_of_object _ hother]
  rcases h.elim with ⟨hm, hn⟩ | ⟨m, n, hm, hn, hsame⟩ | ⟨x, y, hm, hn, hx, hy⟩
  · rw [hm, hn]
  · have hview := ofMembers_congr (Json.ordered_of_get? hv hm) (Json.ordered_of_get? hw hn) hsame
    rw [hm, hn]
    change (ofMembers m).mapError _ = (ofMembers n).mapError _
    rw [hview]
  · rw [hm, hn]
    -- Both fail alike: neither is an object.
    cases x with
    | object view => cases hx
    | _ =>
      cases y with
      | object view => cases hy
      | _ => rfl

end

namespace ResponseKind

variable {kind : ResponseKind} {root other : Members}

theorem SameRoot.scalarText (h : kind.SameRoot root other) :
    ∀ name ∈ ["version", "status"], scalarText root name = scalarText other name := by
  intro name hname
  unfold Response.scalarText
  rw [h.tags name hname]

theorem SamePayload.optionalCount {v w : Members} (h : kind.SamePayload v w) :
    ∀ name ∈ ["total_row_count", "included_rows"], optionalCount v name = optionalCount w name := by
  intro name hname
  unfold Response.optionalCount
  rw [h.counts name hname]

theorem SameRoot.countsOf (h : kind.SameRoot root other) (version status : String) :
    Envelope.countsOf root version status = Envelope.countsOf other version status := by
  rcases h.payload.elim with ⟨hv, hw⟩ | ⟨v, w, hv, hw, hsame⟩ | ⟨x, y, hv, hw, hx, hy⟩
  · rw [Envelope.countsOf_of_not_object _ _ (by simp [hv]),
      Envelope.countsOf_of_not_object _ _ (by simp [hw])]
  · rw [Envelope.countsOf_of_object _ _ hv, Envelope.countsOf_of_object _ _ hw,
      hsame.optionalCount _ (by simp), hsame.optionalCount _ (by simp)]
  · rw [Envelope.countsOf_of_not_object _ _ (by simp [hv, Json.isObject_eq_false_iff.mp hx]),
      Envelope.countsOf_of_not_object _ _ (by simp [hw, Json.isObject_eq_false_iff.mp hy])]

theorem SameRoot.envelope (h : kind.SameRoot root other) :
    Envelope.ofRoot root = Envelope.ofRoot other := by
  rw [Envelope.ofRoot_eq, Envelope.ofRoot_eq, h.scalarText _ (by simp), h.scalarText _ (by simp)]
  simp only [h.countsOf]

theorem SameRoot.decodePayload (h : kind.SameRoot root other) (hroot : (Json.object root).Ordered)
    (hother : (Json.object other).Ordered) (text : String) (envelope : Envelope) :
    kind.decodePayload text root envelope = kind.decodePayload text other envelope := by
  rcases h.payload.elim with ⟨hv, hw⟩ | ⟨v, w, hv, hw, hsame⟩ | ⟨x, y, hv, hw, hx, hy⟩
  · refine kind.decodePayload_congr text ?_
    rw [payload?_of_absent hv, payload?_of_absent hw]
  · have hvo := Json.ordered_of_get? hroot hv
    have hwo := Json.ordered_of_get? hother hw
    have hmembers := hsame.members
    unfold ResponseKind.decodePayload
    cases kind with
    | read => simp only [Rows.decode_congr (payloadMember?_congr_of_object hv hw hmembers)]
    | facet => simp only [Facets.decode_congr (payloadMember?_congr_of_object hv hw hmembers)]
    | schema => simp only [Schema.decode_congr_of_object hvo hwo hv hw hmembers]
    | submit =>
      have hreceipt := Receipt.ofMembers_congr hvo.1 hwo.1 hmembers
      simp only [Receipt.decode, payload?_of_object hv, payload?_of_object hw, bind, Except.bind,
        hreceipt]
    | flag => rfl
    | raw => rfl
  · refine kind.decodePayload_congr text ?_
    rw [payload?_of_not_object hv hx, payload?_of_not_object hw hy]

end ResponseKind

/-- Two texts of objects that agree on what is known of a kind of response give the same response,
apart from the text that is kept, or the same error. -/
theorem unknown_members_are_passed_over (kind : ResponseKind) {text other : String}
    {root rest : Members} (htext : Json.parse text = .ok (.object root))
    (hother : Json.parse other = .ok (.object rest)) (h : kind.SameRoot root rest) :
    kind.parse text = (kind.parse other).map (·.withText text) := by
  have hroot := (Json.fits_of_parse htext).1
  have hrest := (Json.fits_of_parse hother).1
  have hdecode : kind.decode text root = kind.decode text rest := by
    rw [kind.decode_eq, kind.decode_eq, h.envelope]
    exact congrArg (Envelope.ofRoot rest >>= ·) (funext fun e => h.decodePayload hroot hrest text e)
  rw [ResponseKind.parse_of_object htext, ResponseKind.parse_of_object hother, hdecode]
  exact kind.decode_eq_map text other rest

/-- One of the texts has more members at every level down to a column. -/
theorem unknown_members_are_passed_over_down_to_columns :
    let column : Json := .object [("name", .string "a")]
    let longer : Json := .object [("name", .string "a"), ("unit", .null)]
    let view (fields : List Json) (more : Members) : Json :=
      .object ([("fields", .array fields), ("title", .string "t")] ++ more)
    let root (payload more : Members) : Members :=
      [("response", .object payload), ("status", .string "ok"), ("version", .string "3")] ++ more
    let plain := root [("view", view [column, .array [.string "b"]] [])] []
    let rich := root [("seen", .bool true), ("view", view [longer, .array [.string "b"]]
      [("user", .null)])] [("zone", .object [])]
    let text := (Json.object rich).render
    let other := (Json.object plain).render
    Json.parse text = .ok (.object rich) ∧ Json.parse other = .ok (.object plain) ∧
      ResponseKind.schema.SameRoot rich plain ∧
      ResponseKind.schema.parse text = (ResponseKind.schema.parse other).map (·.withText text) := by
  intro column longer view root plain rich text other
  have htext : Json.parse text = .ok (.object rich) := Json.parse_render (by decide) (by decide) nofun
  have hother : Json.parse other = .ok (.object plain) :=
    Json.parse_render (by decide) (by decide) nofun
  have hcolumn : Column.Same longer column := by
    refine .object fun name hname => ?_
    fin_cases hname <;> rfl
  have hcolumns : List.Forall₂ Column.Same [longer, .array [.string "b"]]
      [column, .array [.string "b"]] := .cons hcolumn (.cons (.refl _) .nil)
  have hview : Schema.SameView
      [("fields", .array [longer, .array [.string "b"]]), ("title", .string "t"), ("user", .null)]
      [("fields", .array [column, .array [.string "b"]]), ("title", .string "t")] :=
    ⟨fun name hname => by fin_cases hname <;> rfl, .array hcolumns⟩
  have hsame : ResponseKind.schema.SameRoot rich plain :=
    ⟨fun name hname => by fin_cases hname <;> rfl,
      .object ⟨fun name hname => by fin_cases hname <;> rfl, .object hview⟩⟩
  exact ⟨htext, hother, hsame, unknown_members_are_passed_over .schema htext hother hsame⟩

end TableQuery

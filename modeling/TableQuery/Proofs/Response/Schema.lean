import TableQuery.Proofs.Response.Column
import TableQuery.Proofs.Response.Payload

/-!
# Schemas are read exactly

A view gives the title, the columns in their order, and of the rest what differs from the defaults.
What lacks one of the two, or has a known member of a wrong type, is no view.
-/

namespace TableQuery

namespace Schema

open Shape

/-! ## What a schema is written as -/

def toMembers (s : Schema) : Members :=
  [("title", .string s.title), ("description", .string s.description),
    ("search_enabled", .bool s.searchEnabled), ("geo_enabled", .bool s.geoEnabled)]

def defaults : Members :=
  [("description", .string ""), ("search_enabled", .bool false), ("geo_enabled", .bool false)]

structure SpelledBy (view : Members) (s : Schema) : Prop where
  members : ∀ e ∈ s.toMembers, (Entries.get? e.1 view).or (Entries.get? e.1 defaults) = some e.2
  columns : ∃ items, Entries.get? "fields" view = some (.array items) ∧
    List.Forall₂ Column.Spells items s.columns

inductive Spells : Json → Schema → Prop
  | object {view : Members} {s : Schema} (h : SpelledBy view s) : Spells (.object view) s

def IsColumns (v : Json) : Prop :=
  ∃ items, v = .array items ∧ ∀ item ∈ items, ¬ Column.Malformed item

def memberTypes : List (String × (Json → Prop)) :=
  [("title", IsText), ("description", IsText), ("search_enabled", IsFlag), ("geo_enabled", IsFlag),
    ("fields", IsColumns)]

inductive MalformedView : Json → Prop
  | otherType {v : Json} (hv : v.isObject = false) : MalformedView v
  | noMember {view : Members} {name : String} (hname : name ∈ ["title", "fields"])
      (h : Entries.get? name view = none) : MalformedView (.object view)
  | memberType {view : Members} (h : Mistyped memberTypes view) : MalformedView (.object view)

/-- What is wrong with the answer to a request that was not rejected. -/
inductive Malformed (root : Members) : Prop
  | noPayload (h : Entries.get? "response" root = none)
  | otherPayload {v : Json} (h : Entries.get? "response" root = some v) (hv : v.isObject = false)
  | noView {payload : Members} (h : Entries.get? "response" root = some (.object payload))
      (hview : Entries.get? "view" payload = none)
  | view {v : Json} (h : Response.inPayload? "view" root = some v) (hv : MalformedView v)

/-! ## What is kept of the members -/

abbrev Read : Type := Option String × Option (List Column) × Schema

def scalarNames : List String := ["title", "description", "search_enabled", "geo_enabled"]

/-- What has been read of one member, or its default; the title has none. -/
def valueOf (read : Read) (name : String) : Option Json :=
  if name = "title" then read.1.map .string else Entries.get? name read.2.2.toMembers

theorem valueOf_readMember {read read' : Read} {e : String × Json}
    (h : readMember read e = .ok read') {name : String} (hname : name ∈ scalarNames) :
    (e.1 = name → some e.2 = valueOf read' name) ∧
      (e.1 ≠ name → valueOf read' name = valueOf read name) := by
  obtain ⟨key, v⟩ := e
  obtain ⟨title, columns, s⟩ := read
  unfold readMember at h
  dsimp only at h ⊢
  split at h
  iterate 2
    next =>
      obtain ⟨t, ht, rfl⟩ := map_eq_ok_iff.mp h
      obtain rfl := text_eq_ok_iff.mp ht
      fin_cases hname <;> simp [valueOf, toMembers, Entries.get?]
  iterate 2
    next =>
      obtain ⟨b, hb, rfl⟩ := map_eq_ok_iff.mp h
      obtain rfl := flag_eq_ok_iff.mp hb
      fin_cases hname <;> simp [valueOf, toMembers, Entries.get?]
  next =>
    split at h
    next =>
      obtain ⟨cs, -, rfl⟩ := map_eq_ok_iff.mp h
      fin_cases hname <;> simp [valueOf]
    next => cases h
  next =>
    cases h
    fin_cases hname <;> simp_all

/-- The list of columns that a member gives. -/
def ReadColumns (v : Json) (columns : Option (List Column)) : Prop :=
  ∃ items cs, v = .array items ∧ items.mapM Column.ofJson = .ok cs ∧ columns = some cs

theorem columns_readMember {read read' : Read} {e : String × Json}
    (h : readMember read e = .ok read') :
    (e.1 = "fields" → ReadColumns e.2 read'.2.1) ∧ (e.1 ≠ "fields" → read'.2.1 = read.2.1) := by
  obtain ⟨key, v⟩ := e
  obtain ⟨title, columns, s⟩ := read
  unfold readMember at h
  dsimp only at h ⊢
  split at h
  iterate 4
    next =>
      obtain ⟨a, -, rfl⟩ := map_eq_ok_iff.mp h
      simp
  next =>
    split at h
    next items =>
      obtain ⟨cs, hcs, rfl⟩ := map_eq_ok_iff.mp h
      exact ⟨fun _ => ⟨items, cs, rfl, hcs, rfl⟩, fun hne => absurd rfl hne⟩
    next => cases h
  next =>
    cases h
    simp_all

theorem exists_mapM_ofJson_iff {items : List Json} (h : Json.OrderedItems items) :
    (∃ cs, items.mapM Column.ofJson = .ok cs) ↔ ∀ item ∈ items, ¬ Column.Malformed item := by
  simp only [mapM_eq_ok_iff, exists_forall₂_iff]
  exact forall₂_congr fun item hitem =>
    Column.exists_ofJson_iff ((Json.orderedItems_iff items).mp h item hitem)

theorem exists_readMember_iff {e : String × Json} (he : e.2.Ordered) (read : Read) :
    (∃ read', readMember read e = .ok read') ↔ Typed memberTypes e := by
  obtain ⟨key, v⟩ := e
  obtain ⟨title, columns, s⟩ := read
  unfold readMember
  dsimp only
  split
  iterate 2
    next => exact exists_map_eq_ok_iff.trans (exists_text_iff.trans (by simp [Typed, memberTypes]))
  iterate 2
    next => exact exists_map_eq_ok_iff.trans (exists_flag_iff.trans (by simp [Typed, memberTypes]))
  next =>
    split
    next items =>
      refine exists_map_eq_ok_iff.trans ((exists_mapM_ofJson_iff he).trans ?_)
      simp [Typed, memberTypes, IsColumns]
    next hother =>
      constructor
      · rintro ⟨_, h⟩
        cases h
      · intro h
        obtain ⟨items, hitems, -⟩ := h IsColumns (by simp [memberTypes])
        exact absurd hitems (hother items)
  next => simp_all [Typed, memberTypes]

theorem eq_of_valueOf {read : Read} {s : Schema}
    (h : ∀ e ∈ s.toMembers, valueOf read e.1 = some e.2) :
    read.1 = some s.title ∧ { read.2.2 with title := s.title, columns := s.columns } = s := by
  obtain ⟨title, columns, r⟩ := read
  simp [toMembers, valueOf, Entries.get?] at h
  obtain ⟨htitle, hdescription, hsearch, hgeo⟩ := h
  refine ⟨htitle, ?_⟩
  simp only [hdescription, hsearch, hgeo]

theorem valueOf_of_mem_toMembers (title : String) (columns : List Column) (s : Schema) :
    ∀ e ∈ { s with title := title, columns := columns }.toMembers,
      valueOf (some title, some columns, s) e.1 = some e.2 := by
  simp [toMembers, valueOf, Entries.get?]

theorem mem_scalarNames_of_mem_toMembers {s : Schema} {e : String × Json} (he : e ∈ s.toMembers) :
    e.1 ∈ scalarNames := List.mem_map_of_mem he

/-! ## Views -/

section

variable {view : Members} (hview : (Json.object view).Ordered)
include hview

theorem valueOf_foldlM {read : Read} (h : view.foldlM readMember (none, none, untitled) = .ok read)
    {name : String} (hname : name ∈ scalarNames) :
    valueOf read name = (Entries.get? name view).or (Entries.get? name defaults) := by
  have hread := Entries.foldlM_get (valueOf · name) (fun v x => some v = x)
    (fun _ _ _ hstep => valueOf_readMember hstep hname) (Entries.nodup_keys hview.1) h
  rcases hread with ⟨v, hv, hvalue⟩ | ⟨hnone, hvalue⟩
  · rw [hv, ← hvalue, Option.some_or]
  · rw [hnone, hvalue, Option.none_or]
    fin_cases hname <;> rfl

theorem columns_foldlM {read : Read} (h : view.foldlM readMember (none, none, untitled) = .ok read) :
    (∃ v, Entries.get? "fields" view = some v ∧ ReadColumns v read.2.1) ∨
      Entries.get? "fields" view = none ∧ read.2.1 = none :=
  Entries.foldlM_get (·.2.1) ReadColumns (fun _ _ _ hstep => columns_readMember hstep)
    (Entries.nodup_keys hview.1) h

theorem exists_foldlM_iff :
    (∃ read, view.foldlM readMember (none, none, untitled) = .ok read) ↔
      ¬ Mistyped memberTypes view := by
  rw [← forall_typed_iff (Entries.nodup_keys hview.1)]
  exact Entries.exists_foldlM_iff (fun e he => exists_readMember_iff
    ((Json.orderedMembers_iff view).mp hview.2 e he)) _

theorem mapM_ofJson_iff {items : List Json} {cs : List Column}
    (hitems : Entries.get? "fields" view = some (.array items)) :
    items.mapM Column.ofJson = .ok cs ↔ List.Forall₂ Column.Spells items cs := by
  have hordered : (Json.array items).Ordered := Json.ordered_of_get? hview hitems
  rw [mapM_eq_ok_iff]
  exact forall₂_iff_of_forall_mem fun item hitem c =>
    Column.ofJson_eq_ok_iff ((Json.orderedItems_iff items).mp hordered item hitem)

theorem not_mistyped_of_spelledBy {s : Schema} (h : SpelledBy view s) :
    ¬ Mistyped memberTypes view := by
  rw [← forall_typed_iff (Entries.nodup_keys hview.1)]
  rintro ⟨name, v⟩ he T hT
  have hget := (Entries.get?_eq_some_iff (Entries.nodup_keys hview.1)).mpr he
  have hscalar : ∀ w, (name, w) ∈ s.toMembers → v = w := by
    intro w hw
    have hvalue := h.members _ hw
    rw [hget] at hvalue
    exact Option.some.inj hvalue
  simp only [memberTypes, List.mem_cons, Prod.mk.injEq, List.not_mem_nil, or_false] at hT
  rcases hT with ⟨rfl, rfl⟩ | ⟨rfl, rfl⟩ | ⟨rfl, rfl⟩ | ⟨rfl, rfl⟩ | ⟨rfl, rfl⟩
  · exact ⟨s.title, hscalar _ (by simp [toMembers])⟩
  · exact ⟨s.description, hscalar _ (by simp [toMembers])⟩
  · exact ⟨s.searchEnabled, hscalar _ (by simp [toMembers])⟩
  · exact ⟨s.geoEnabled, hscalar _ (by simp [toMembers])⟩
  · obtain ⟨items, hfields, hspells⟩ := h.columns
    cases hget.symm.trans hfields
    have hmapM := (mapM_ofJson_iff hview hfields).mpr hspells
    exact ⟨items, rfl,
      (exists_mapM_ofJson_iff (Json.ordered_of_get? hview hfields)).mp ⟨_, hmapM⟩⟩

theorem ofMembers_eq_ok_iff {s : Schema} : ofMembers view = .ok s ↔ SpelledBy view s := by
  constructor
  · intro h
    obtain ⟨⟨found, columns, r⟩, hfold, h⟩ := bind_eq_ok_iff.mp h
    obtain ⟨title, htitle, h⟩ := bind_eq_ok_iff.mp h
    obtain ⟨cs, hcs, h⟩ := bind_eq_ok_iff.mp h
    cases required_eq_ok_iff.mp htitle
    cases required_eq_ok_iff.mp hcs
    cases h
    refine ⟨fun e he => ?_, ?_⟩
    · rw [← valueOf_foldlM hview hfold (mem_scalarNames_of_mem_toMembers he)]
      exact valueOf_of_mem_toMembers title cs r e he
    · rcases columns_foldlM hview hfold with ⟨_, hfields, items, _, rfl, hmapM, hread⟩ | ⟨-, hread⟩
      · cases hread
        exact ⟨items, hfields, (mapM_ofJson_iff hview hfields).mp hmapM⟩
      · cases hread
  · intro h
    obtain ⟨read, hfold⟩ := (exists_foldlM_iff hview).mpr (not_mistyped_of_spelledBy hview h)
    obtain ⟨htitle, hschema⟩ := eq_of_valueOf fun e he =>
      (valueOf_foldlM hview hfold (mem_scalarNames_of_mem_toMembers he)).trans (h.members e he)
    obtain ⟨items, hfields, hspells⟩ := h.columns
    have hmapM := (mapM_ofJson_iff hview hfields).mpr hspells
    have hcolumns : read.2.1 = some s.columns := by
      rcases columns_foldlM hview hfold with ⟨_, hv, _, _, rfl, hmapM', hread⟩ | ⟨hnone, -⟩
      · cases hfields.symm.trans hv
        cases hmapM.symm.trans hmapM'
        exact hread
      · cases hfields.symm.trans hnone
    refine bind_eq_ok_iff.mpr ⟨read, hfold, bind_eq_ok_iff.mpr ⟨s.title, ?_, ?_⟩⟩
    · exact required_eq_ok_iff.mpr htitle
    · refine bind_eq_ok_iff.mpr ⟨s.columns, required_eq_ok_iff.mpr hcolumns, ?_⟩
      exact congrArg Except.ok hschema

theorem exists_ofMembers_iff : (∃ s, ofMembers view = .ok s) ↔
    ¬ Mistyped memberTypes view ∧ ∀ name ∈ ["title", "fields"], Entries.get? name view ≠ none := by
  constructor
  · rintro ⟨s, hs⟩
    have hspelled := (ofMembers_eq_ok_iff hview).mp hs
    refine ⟨not_mistyped_of_spelledBy hview hspelled, fun name hname hnone => ?_⟩
    fin_cases hname
    · have htitle := hspelled.members ("title", .string s.title) (by simp [toMembers])
      rw [hnone] at htitle
      cases htitle
    · obtain ⟨items, hfields, -⟩ := hspelled.columns
      cases hfields.symm.trans hnone
  · rintro ⟨htyped, hnames⟩
    obtain ⟨read, hfold⟩ := (exists_foldlM_iff hview).mpr htyped
    obtain ⟨v, hv⟩ := Option.ne_none_iff_exists'.mp (hnames "title" (by simp))
    have hvalue := valueOf_foldlM hview hfold (List.mem_cons_self : "title" ∈ scalarNames)
    rw [hv] at hvalue
    obtain ⟨title, htitle, -⟩ := Option.map_eq_some_iff.mp hvalue
    rcases columns_foldlM hview hfold with ⟨_, -, _, cs, -, -, hcs⟩ | ⟨hnone, -⟩
    · exact ⟨_, bind_eq_ok_iff.mpr ⟨read, hfold, bind_eq_ok_iff.mpr ⟨title,
        required_eq_ok_iff.mpr htitle, bind_eq_ok_iff.mpr ⟨cs, required_eq_ok_iff.mpr hcs, rfl⟩⟩⟩⟩
    · exact absurd hnone (hnames "fields" (by simp))

end

/-! ## Answers -/

def ofJson : Json → Except ResponseError Schema
  | .object view => (ofMembers view).mapError .shape
  | _ => .error (.unexpectedType "response.view" "object")

theorem decode_eq : decode = Response.decodeMember "view" untitled ofJson := by
  funext root envelope
  unfold decode Response.decodeMember
  refine congrArg _ (funext fun found => ?_)
  match found with
  | none => rfl
  | some v => cases v <;> rfl

theorem ofJson_eq_ok_iff {v : Json} (hv : v.Ordered) {s : Schema} :
    ofJson v = .ok s ↔ Spells v s := by
  cases v with
  | object view =>
    refine mapError_eq_ok_iff.trans ((ofMembers_eq_ok_iff hv).trans ⟨.object, fun h => ?_⟩)
    cases h with
    | object h => exact h
  | _ => exact iff_of_false nofun nofun

theorem exists_ofJson_iff {v : Json} (hv : v.Ordered) :
    (∃ s, ofJson v = .ok s) ↔ ¬ MalformedView v := by
  cases v with
  | object view =>
    simp only [ofJson, mapError_eq_ok_iff, exists_ofMembers_iff hv]
    refine ⟨?_, fun h => ⟨?_, ?_⟩⟩
    · rintro ⟨htyped, hnames⟩ hmalformed
      cases hmalformed with
      | otherType hv => cases hv
      | noMember hname h => exact hnames _ hname h
      | memberType h => exact htyped h
    · exact fun hmistyped => h (.memberType hmistyped)
    · exact fun name hname hnone => h (.noMember hname hnone)
  | _ => exact iff_of_false nofun fun h => h (.otherType rfl)

theorem column?_eq_some_iff {s : Schema} {name : String} {c : Column} :
    s.column? name = some c ↔ c.name = name ∧
      ∃ before after, s.columns = before ++ c :: after ∧ ∀ d ∈ before, d.name ≠ name := by
  simp [column?, List.find?_eq_some_iff_append]

theorem column?_eq_none_iff {s : Schema} {name : String} :
    s.column? name = none ↔ ∀ c ∈ s.columns, c.name ≠ name := by
  simp [column?]

theorem exists_spells_iff {root : Members} (hroot : (Json.object root).Ordered) :
    (∃ v s, Response.inPayload? "view" root = some v ∧ Spells v s) ↔ ¬ Malformed root := by
  have hview : ∀ v, Response.inPayload? "view" root = some v →
      ((∃ s, Spells v s) ↔ ¬ MalformedView v) := by
    intro v hv
    have hordered := Response.ordered_inPayload? hroot hv
    rw [← exists_ofJson_iff hordered]
    simp only [ofJson_eq_ok_iff hordered]
  constructor
  · rintro ⟨v, s, hv, hspells⟩ hmalformed
    obtain ⟨payload, hpayload, hmember⟩ := Response.inPayload?_eq_some_iff.mp hv
    cases hmalformed with
    | noPayload h => cases hpayload.symm.trans h
    | otherPayload h hother =>
      cases hpayload.symm.trans h
      cases hother
    | noView h hnone =>
      cases hpayload.symm.trans h
      cases hmember.symm.trans hnone
    | view h hmalformed =>
      cases hv.symm.trans h
      exact (hview v hv).mp ⟨s, hspells⟩ hmalformed
  · intro h
    cases hresponse : Entries.get? "response" root with
    | none => exact absurd (.noPayload hresponse) h
    | some payload =>
      cases payload with
      | object payload =>
        cases hmember : Entries.get? "view" payload with
        | none => exact absurd (.noView hresponse hmember) h
        | some v =>
          have hv := Response.inPayload?_eq_some_iff.mpr ⟨payload, hresponse, hmember⟩
          obtain ⟨s, hspells⟩ := (hview v hv).mpr fun hmalformed => h (.view hv hmalformed)
          exact ⟨v, s, hv, hspells⟩
      | _ => exact absurd (.otherPayload hresponse rfl) h

/-! ## Texts -/

section

variable {text : String} {root : Members} (htext : Json.parse text = .ok (.object root))
include htext

theorem parse_eq_ok_iff {envelope : Envelope} (henvelope : Envelope.Of root envelope)
    (r : Response Schema) :
    Response.parse decode text = .ok r ↔ r.text = text ∧ r.envelope = envelope ∧
      Response.Decodes "view" untitled Spells root envelope r.payload := by
  have hroot := (Json.fits_of_parse htext).1
  rw [decode_eq]
  exact Response.parse_decodeMember_eq_ok_iff htext henvelope
    (fun v hv s => ofJson_eq_ok_iff (Response.ordered_inPayload? hroot hv)) r

theorem exists_parse_iff (hstatus : Entries.get? "status" root = some (.string "ok")) :
    (∃ r, Response.parse decode text = .ok r) ↔
      ¬ Malformed root ∧ ∃ envelope, Envelope.Of root envelope := by
  rw [← exists_spells_iff (Json.fits_of_parse htext).1]
  constructor
  · rintro ⟨r, hr⟩
    obtain ⟨root', htext', henvelope⟩ := Response.exists_root_of_parse hr
    cases htext.symm.trans htext'
    obtain ⟨-, -, hdecodes⟩ := (parse_eq_ok_iff htext henvelope r).mp hr
    refine ⟨?_, r.envelope, henvelope⟩
    have hok := henvelope.status_eq hstatus
    generalize r.payload = s at hdecodes
    cases hdecodes with
    | member h hspells => exact ⟨_, s, h, hspells⟩
    | missing h =>
      cases h with
      | noMember hne => exact absurd hok hne
      | noPayload hne => exact absurd hok hne
  · rintro ⟨⟨v, s, hv, hspells⟩, envelope, henvelope⟩
    refine ⟨⟨text, envelope, s⟩, (parse_eq_ok_iff htext henvelope _).mpr ?_⟩
    exact ⟨rfl, rfl, .member hv hspells⟩

end

end Schema

/-- An answer is read as a schema exactly when its view spells the schema, in whatever way. One whose
status is ok is refused exactly when the view or the envelope is malformed. -/
theorem schemas_are_read_exactly :
    (∀ text root envelope, Json.parse text = .ok (.object root) → Envelope.Of root envelope →
      ∀ r, Response.parse Schema.decode text = .ok r ↔ r.text = text ∧ r.envelope = envelope ∧
        Response.Decodes "view" Schema.untitled Schema.Spells root envelope r.payload) ∧
    (∀ text root, Json.parse text = .ok (.object root) →
      Entries.get? "status" root = some (.string "ok") →
      ((∃ e, Response.parse Schema.decode text = .error e) ↔
        Schema.Malformed root ∨ ¬ ∃ envelope, Envelope.Of root envelope)) ∧
    ∀ (s : Schema) (name : String),
      (∀ c, s.column? name = some c ↔ c.name = name ∧
        ∃ before after, s.columns = before ++ c :: after ∧ ∀ d ∈ before, d.name ≠ name) ∧
      (s.column? name = none ↔ ∀ c ∈ s.columns, c.name ≠ name) := by
  refine ⟨?_, fun text root htext hstatus => ?_, fun s name => ⟨fun c => ?_, ?_⟩⟩
  · intro text root envelope htext henvelope
    exact Schema.parse_eq_ok_iff htext henvelope
  · rw [exists_error_iff, Schema.exists_parse_iff htext hstatus, not_and_or, not_not]
  · exact Schema.column?_eq_some_iff
  · exact Schema.column?_eq_none_iff

/-- One column is an object with a member that is not known, the other a list that ends early. A
description that is null is refused. -/
theorem schemas_are_read_exactly_two_forms :
    let fields : Json := .array
      [.object [("label", .null), ("name", .string "a"), ("unit", .nat64 1)],
        .array [.string "b", .null, .string "B"]]
    let root (view : Members) : Members :=
      [("response", .object [("view", .object view)]), ("status", .string "ok"),
        ("version", .string "3")]
    let good := root [("fields", fields), ("geo_enabled", .bool true), ("title", .string "t")]
    let bad := root [("description", .null), ("fields", fields), ("title", .string "t")]
    let s : Schema := ⟨"t", "", false, true, [⟨"a", none, none, none, false, false, false⟩,
      ⟨"b", none, some "B", none, false, false, false⟩]⟩
    Response.parse Schema.decode (Json.object good).render =
      .ok ⟨(Json.object good).render, ⟨"3", "ok", none, 0⟩, s⟩ ∧
    ∃ e, Response.parse Schema.decode (Json.object bad).render = .error e := by
  intro fields root good bad s
  have hgood : Json.parse (Json.object good).render = .ok (.object good) :=
    Json.parse_render (by decide) (by decide) nofun
  have hbad : Json.parse (Json.object bad).render = .ok (.object bad) :=
    Json.parse_render (by decide) (by decide) nofun
  have henvelope : Envelope.Of good ⟨"3", "ok", none, 0⟩ :=
    .payload (.string rfl) (.string rfl) rfl (.absent rfl) (.absent rfl)
  constructor
  · refine (schemas_are_read_exactly.1 _ _ _ hgood henvelope _).mpr
      ⟨rfl, rfl, .member rfl (.object ⟨?_, _, rfl, .cons (.object ?_) (.cons ?_ .nil)⟩)⟩
    · simp [Schema.toMembers, s, Entries.get?, Schema.defaults]
    · simp [Column.SpelledBy, Column.toMembers, Entries.get?, Column.defaults, Json.optional]
    · let dropped : List Json := [.null, .bool false, .bool false, .bool false]
      exact @Column.Spells.array _ dropped _ rfl ⟨[.null, .null], rfl⟩
  · refine (schemas_are_read_exactly.2.1 _ _ hbad rfl).mpr (.inl (.view rfl ?_))
    have hnull : ¬ Shape.IsText .null := by
      rintro ⟨_, h⟩
      cases h
    exact .memberType (@Shape.Mistyped.intro _ _ "description" _ _ rfl
      (by simp [Schema.memberTypes]) hnull)

end TableQuery

import TableQuery.Proofs.Response.Payload

/-!
# Rows are read exactly

The rows of a response are the objects in its list, in order. Only a request that was rejected may be
answered without the list. A list that holds anything but objects is refused at the first such place.
-/

namespace TableQuery

namespace Rows

def Spells (v : Json) (rows : Rows) : Prop := v = .array (rows.map .object)

inductive Fault : Json → ResponseError → Prop
  | notArray {v : Json} (hv : ∀ items, v ≠ .array items) :
      Fault v (.unexpectedType "response.data" "array")
  | element {before : Rows} {v : Json} {after : List Json} (hv : v.isObject = false) :
      Fault (.array (before.map .object ++ v :: after))
        (.unexpectedType ("response.data[" ++ toString before.length ++ "]") "object")

/-- What a field of a row is as text. -/
inductive Shows (field : String) (row : Row) : Option String → Prop
  | absent (h : Entries.get? field row = none) : Shows field row none
  | null (h : Entries.get? field row = some .null) : Shows field row none
  | string {s : String} (h : Entries.get? field row = some (.string s)) : Shows field row (some s)
  | other {v : Json} (h : Entries.get? field row = some v) (hnull : v ≠ .null)
      (hstring : ∀ s, v ≠ .string s) : Shows field row (some v.render)

/-! ## Elements -/

theorem ofItems_eq_ok_iff {index : Nat} {items : List Json} {rows : Rows} :
    ofItems index items = .ok rows ↔ items = rows.map .object := by
  fun_induction ofItems index items generalizing rows with
  | case1 =>
    constructor
    · intro h
      cases h
      rfl
    · intro h
      rw [List.map_eq_nil_iff.mp h.symm]
  | case2 index row items ih =>
    rw [map_eq_ok_iff]
    constructor
    · rintro ⟨rest, hrest, rfl⟩
      rw [ih.mp hrest]
      rfl
    · intro h
      cases rows with
      | nil => cases h
      | cons first rest =>
        obtain ⟨hfirst, hrest⟩ := List.cons.inj h
        cases hfirst
        exact ⟨rest, ih.mpr hrest, rfl⟩
  | case3 index v items hnot =>
    constructor
    · intro h
      cases h
    · intro h
      cases rows with
      | nil => cases h
      | cons first rest => exact absurd (List.cons.inj h).1 (hnot first)

theorem ofItems_of_fault (index : Nat) (before : Rows) {v : Json} (hv : v.isObject = false)
    (after : List Json) : ofItems index (before.map .object ++ v :: after) = .error
      (.unexpectedType ("response.data[" ++ toString (index + before.length) ++ "]") "object") := by
  induction before generalizing index with
  | nil =>
    cases v with
    | object members => cases hv
    | _ => rfl
  | cons row before ih =>
    rw [List.map_cons, List.cons_append, ofItems, ih, List.length_cons,
      Nat.add_right_comm index 1, Nat.add_assoc]
    rfl

theorem all_objects_or_first_other (items : List Json) :
    (∃ rows : Rows, items = rows.map .object) ∨
      ∃ (before : Rows) (v : Json) (after : List Json),
        items = before.map .object ++ v :: after ∧ v.isObject = false := by
  induction items with
  | nil => exact .inl ⟨[], rfl⟩
  | cons v items ih =>
    cases hv : v.isObject with
    | false => exact .inr ⟨[], v, items, rfl, hv⟩
    | true =>
      obtain ⟨row, rfl⟩ := Json.isObject_iff.mp hv
      rcases ih with ⟨rows, rfl⟩ | ⟨before, w, after, rfl, hw⟩
      · exact .inl ⟨row :: rows, rfl⟩
      · exact .inr ⟨row :: before, w, after, rfl, hw⟩

/-! ## Lists -/

def ofJson : Json → Except ResponseError Rows
  | .array items => ofItems 0 items
  | _ => .error (.unexpectedType "response.data" "array")

theorem decode_eq : decode = Response.decodeMember "data" [] ofJson := by
  funext root envelope
  unfold decode Response.decodeMember
  refine congrArg _ (funext fun found => ?_)
  match found with
  | none => rfl
  | some v => cases v <;> rfl

theorem ofJson_of_spells {v : Json} {rows : Rows} (h : Spells v rows) : ofJson v = .ok rows := by
  subst h
  exact ofItems_eq_ok_iff.mpr rfl

theorem ofJson_of_fault {v : Json} {e : ResponseError} (h : Fault v e) : ofJson v = .error e := by
  cases h with
  | notArray hv =>
    cases v with
    | array items => exact absurd rfl (hv items)
    | _ => rfl
  | @element before v after hv =>
    refine (ofItems_of_fault 0 before hv after).trans ?_
    rw [Nat.zero_add]

theorem spells_or_fault (v : Json) : (∃ rows, Spells v rows) ∨ ∃ e, Fault v e := by
  cases v with
  | array items =>
    rcases all_objects_or_first_other items with ⟨rows, rfl⟩ | ⟨before, w, after, rfl, hw⟩
    · exact .inl ⟨rows, rfl⟩
    · exact .inr ⟨_, .element hw⟩
  | _ => exact .inr ⟨_, .notArray nofun⟩

theorem ofJson_eq_iff (v : Json) :
    (∀ rows, ofJson v = .ok rows ↔ Spells v rows) ∧ ∀ e, ofJson v = .error e ↔ Fault v e :=
  eq_iff_of_exhaustive (fun _ => ofJson_of_spells) (fun _ => ofJson_of_fault) (spells_or_fault v)

/-! ## Fields as text -/

theorem shows_textOf? (field : String) (row : Row) :
    Shows field row ((Entries.get? field row).bind textOf?) := by
  cases h : Entries.get? field row with
  | none => exact .absent h
  | some v =>
    cases v with
    | null => exact .null h
    | string s => exact .string h
    | _ => exact .other h nofun nofun

theorem shows_none_iff {field : String} {row : Row} : Shows field row none ↔
    Entries.get? field row = none ∨ Entries.get? field row = some .null := by
  constructor
  · intro h
    cases h with
    | absent h => exact .inl h
    | null h => exact .inr h
  · rintro (h | h)
    · exact .absent h
    · exact .null h

theorem Shows.eq {field : String} {row : Row} {shown : Option String} (h : Shows field row shown) :
    (Entries.get? field row).bind textOf? = shown := by
  cases h with
  | absent h => rw [h]; rfl
  | null h => rw [h]; rfl
  | string h => rw [h]; rfl
  | @other v h hnull hstring =>
    rw [h]
    cases v with
    | null => exact absurd rfl hnull
    | string s => exact absurd rfl (hstring s)
    | _ => rfl

theorem getElem?_mapStrings_iff {rows : Rows} {field : String} {i : Nat} {shown : Option String} :
    (mapStrings rows field)[i]? = some shown ↔
      ∃ row, rows[i]? = some row ∧ Shows field row shown := by
  rw [mapStrings, List.getElem?_map, Option.map_eq_some_iff]
  constructor
  · rintro ⟨row, hrow, rfl⟩
    exact ⟨row, hrow, shows_textOf? field row⟩
  · rintro ⟨row, hrow, hshows⟩
    exact ⟨row, hrow, hshows.eq⟩

end Rows

/-- A read succeeds exactly when the payload spells rows, or may be without them, and then has these
rows in their order and one text for each of them and a field. Otherwise its error is the fault of the
payload. -/
theorem rows_are_read_exactly {text : String} {root : Members} {envelope : Envelope}
    (htext : Json.parse text = .ok (.object root)) (henvelope : Envelope.Of root envelope) :
    (∀ r, Response.parse Rows.decode text = .ok r ↔ r.text = text ∧ r.envelope = envelope ∧
      Response.Decodes "data" [] Rows.Spells root envelope r.payload) ∧
    (∀ e, Response.parse Rows.decode text = .error e ↔
      Response.Refuses "data" Rows.Fault root envelope e) ∧
    (∀ (v : Json) (rows : Rows), Rows.Spells v rows → ∃ items, v = .array items ∧
      rows.length = items.length ∧ rows.head?.map .object = items.head? ∧
      ∀ i : Nat, rows[i]?.map .object = items[i]?) ∧
    ∀ (rows : Rows) (field : String),
      (rows.mapStrings field).length = rows.length ∧
      (∀ (i : Nat) (shown : Option String), (rows.mapStrings field)[i]? = some shown ↔
        ∃ row, rows[i]? = some row ∧ Rows.Shows field row shown) ∧
      ∀ i : Nat, (rows.mapStrings field)[i]? = some none ↔ ∃ row, rows[i]? = some row ∧
        (Entries.get? field row = none ∨ Entries.get? field row = some .null) := by
  refine ⟨fun r => ?_, fun e => ?_, fun v rows hspells => ?_, fun rows field => ⟨?_, ?_, ?_⟩⟩
  · rw [Rows.decode_eq]
    exact Response.parse_decodeMember_eq_ok_iff htext henvelope
      (fun v _ => (Rows.ofJson_eq_iff v).1) r
  · rw [Rows.decode_eq]
    exact Response.parse_decodeMember_eq_error_iff htext henvelope
      (fun v _ => (Rows.ofJson_eq_iff v).2) e
  · refine ⟨rows.map .object, hspells, ?_⟩
    simp
  · exact List.length_map _
  · intro i shown
    exact Rows.getElem?_mapStrings_iff
  · intro i
    rw [Rows.getElem?_mapStrings_iff]
    simp only [Rows.shows_none_iff]

/-- Two rows of which one has no text, a list that is refused at its second element, and a rejected
request without a list. -/
theorem rows_are_read_exactly_second_element :
    let root (status : String) (payload : Members) : Members :=
      [("response", .object payload), ("status", .string status), ("version", .string "3")]
    let rows : Rows := [[("a", .nat64 7)], [("a", .null)]]
    let good := root "ok" [("data", .array (rows.map .object))]
    let bad := root "error" [("data", .array [.object [], .array [], .null])]
    let rejected := root "error" []
    (∃ r, Response.parse Rows.decode (Json.object good).render = .ok r ∧ r.payload = rows ∧
      r.payload.mapStrings "a" = [some "7", none]) ∧
    Response.parse Rows.decode (Json.object bad).render =
      .error (.unexpectedType "response.data[1]" "object") ∧
    ∃ r, Response.parse Rows.decode (Json.object rejected).render = .ok r ∧ r.payload = [] := by
  intro root rows good bad rejected
  have hgood : Json.parse (Json.object good).render = .ok (.object good) :=
    Json.parse_render (by decide) (by decide) nofun
  have hbad : Json.parse (Json.object bad).render = .ok (.object bad) :=
    Json.parse_render (by decide) (by decide) nofun
  have hrejected : Json.parse (Json.object rejected).render = .ok (.object rejected) :=
    Json.parse_render (by decide) (by decide) nofun
  have henvelope : ∀ status payload, Entries.get? "total_row_count" payload = none →
      Entries.get? "included_rows" payload = none →
      Envelope.Of (root status payload) ⟨"3", status, none, 0⟩ := by
    intro status payload htotal hincluded
    exact .payload (.string rfl) (.string rfl) rfl (.absent htotal) (.absent hincluded)
  have hrows := ((rows_are_read_exactly hgood (henvelope "ok" _ rfl rfl)).1 ⟨_, _, rows⟩).mpr
    ⟨rfl, rfl, .member rfl rfl⟩
  have hnone := ((rows_are_read_exactly hrejected (henvelope "error" _ rfl rfl)).1 ⟨_, _, []⟩).mpr
    ⟨rfl, rfl, .missing (.noMember (by decide) rfl rfl)⟩
  refine ⟨⟨_, hrows, rfl, rfl⟩, ?_, ⟨_, hnone, rfl⟩⟩
  refine ((rows_are_read_exactly hbad (henvelope "error" _ rfl rfl)).2.1 _).mpr ?_
  exact .member rfl (@Rows.Fault.element [[]] (.array []) [.null] rfl)

end TableQuery

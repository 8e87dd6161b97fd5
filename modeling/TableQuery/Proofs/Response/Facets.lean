import Mathlib.Tactic.FinCases
import TableQuery.Proofs.Json.RoundTrip
import TableQuery.Proofs.Keyed
import TableQuery.Proofs.Response.Payload

/-!
# Facets are read exactly

Facets are an object of objects of counts. What is read from such an object is written as the same
object, and what has another form is refused where it first differs, in key order.
-/

namespace TableQuery

namespace Facets

def countsToJson (counts : Keyed UInt64) : Json := .ofKeyed (counts.mapValues .nat64)

def toJson (f : Facets) : Json := .ofKeyed (f.mapValues countsToJson)

/-- An answer that holds facets and nothing else. -/
def answer (f : Facets) (version status : String) : Json :=
  .object [("response", .object [("data", f.toJson)]), ("status", .string status),
    ("version", .string version)]

def Spells (v : Json) (f : Facets) : Prop := v = f.toJson

def IsCount (v : Json) : Prop := ∃ n : UInt64, v = .nat64 n

def IsBuckets (v : Json) : Prop := ∃ buckets, v = .object buckets ∧ ∀ e ∈ buckets, IsCount e.2

inductive Fault : Json → ResponseError → Prop
  | notObject {v : Json} (hv : v.isObject = false) :
      Fault v (.unexpectedType "response.data" "object")
  | bucket {fields : Members} {field : String} {v : Json}
      (h : Entries.FirstNot IsBuckets fields field v) (hv : v.isObject = false) :
      Fault (.object fields) (.unexpectedType ("response.data." ++ field) "object")
  | count {fields buckets : Members} {field value : String} {v : Json}
      (h : Entries.FirstNot IsBuckets fields field (.object buckets))
      (hv : Entries.FirstNot IsCount buckets value v) :
      Fault (.object fields)
        (.unexpectedType ("response.data." ++ field ++ "." ++ value) "non-negative integer")

/-- The data is not an object, or has a bucket that is none, or a count that is no such number. -/
inductive Malformed : Json → Prop
  | notObject {data : Json} (h : data.isObject = false) : Malformed data
  | bucket {data v : Json} {field : String} (h : data.member? field = some v)
      (hv : v.isObject = false) : Malformed data
  | count {data bucket v : Json} {field value : String} (h : data.member? field = some bucket)
      (hbucket : bucket.member? value = some v) (hv : ¬ IsCount v) : Malformed data

/-! ## Counts and buckets -/

theorem countsOf_map (field : String) (counts : List (String × UInt64)) :
    countsOf field (counts.map fun e => (e.1, .nat64 e.2)) = .ok counts := by
  induction counts with
  | nil => rfl
  | cons e counts ih =>
    rw [List.map_cons, countsOf, Response.natural?_eq_some_iff.mpr rfl, ih]
    rfl

theorem countsOf_of_not_count (field : String) {before : Members} {value : String} {v : Json}
    (after : Members) (hbefore : ∀ e ∈ before, IsCount e.2) (hv : ¬ IsCount v) :
    countsOf field (before ++ (value, v) :: after) = .error
      (.unexpectedType ("response.data." ++ field ++ "." ++ value) "non-negative integer") := by
  induction before with
  | nil =>
    cases hnatural : Response.natural? v with
    | none => rw [List.nil_append, countsOf, hnatural]
    | some n => exact absurd ⟨n, Response.natural?_eq_some_iff.mp hnatural⟩ hv
  | cons e before ih =>
    obtain ⟨⟨n, hn⟩, hbefore⟩ := List.forall_mem_cons.mp hbefore
    rw [List.cons_append, countsOf, Response.natural?_eq_some_iff.mpr hn, ih hbefore]
    rfl

theorem exists_countsToJson {v : Json} (hv : v.Ordered) (h : IsBuckets v) :
    ∃ counts, v = countsToJson counts := by
  obtain ⟨buckets, rfl, hbuckets⟩ := h
  obtain ⟨counts, rfl⟩ := Keyed.exists_entries_mapValues hv.1 hbuckets
  exact ⟨counts, rfl⟩

theorem ofMembers_cons (field : String) (counts : Keyed UInt64) (fields : Members) :
    ofMembers ((field, countsToJson counts) :: fields) =
      (ofMembers fields).map ((field, counts) :: ·) := by
  have hcounts := countsOf_map field counts.entries
  rw [← Keyed.entries_mapValues] at hcounts
  rw [countsToJson, Json.ofKeyed, ofMembers, hcounts]
  change (ofMembers fields).map ((field, Keyed.ofList counts.entries) :: ·) = _
  rw [Keyed.ofList_entries]

theorem ofMembers_map (facets : List (String × Keyed UInt64)) :
    ofMembers (facets.map fun e => (e.1, countsToJson e.2)) = .ok facets := by
  induction facets with
  | nil => rfl
  | cons e facets ih =>
    rw [List.map_cons, ofMembers_cons, ih]
    rfl

theorem ofMembers_append {before : Members} (hbefore : ∀ e ∈ before, e.2.Ordered ∧ IsBuckets e.2)
    {fields : Members} {e : ResponseError} (h : ofMembers fields = .error e) :
    ofMembers (before ++ fields) = .error e := by
  induction before with
  | nil => exact h
  | cons d before ih =>
    obtain ⟨field, v⟩ := d
    obtain ⟨⟨hordered, hbuckets⟩, hrest⟩ := List.forall_mem_cons.mp hbefore
    obtain ⟨counts, rfl⟩ := exists_countsToJson hordered hbuckets
    rw [List.cons_append, ofMembers_cons, ih hrest]
    rfl

/-! ## Objects of buckets -/

def ofJson : Json → Except ResponseError Facets
  | .object fields => (ofMembers fields).map .ofList
  | _ => .error (.unexpectedType "response.data" "object")

theorem decode_eq : decode = Response.decodeMember "data" ∅ ofJson := by
  funext root envelope
  unfold decode Response.decodeMember
  refine congrArg _ (funext fun found => ?_)
  match found with
  | none => rfl
  | some v => cases v <;> rfl

theorem ofJson_of_spells {v : Json} {f : Facets} (h : Spells v f) : ofJson v = .ok f := by
  subst h
  rw [toJson, Json.ofKeyed, ofJson, Keyed.entries_mapValues, ofMembers_map]
  exact congrArg Except.ok (Keyed.ofList_entries f)

theorem ofJson_of_fault {v : Json} (hordered : v.Ordered) {e : ResponseError} (h : Fault v e) :
    ofJson v = .error e := by
  cases h with
  | notObject hv =>
    cases v with
    | object fields => cases hv
    | _ => rfl
  | @bucket fields field v h hv =>
    obtain ⟨before, after, rfl, hbefore⟩ := h.split hordered.1
    have hfault : ofMembers ((field, v) :: after) =
        .error (.unexpectedType ("response.data." ++ field) "object") := by
      cases v with
      | object buckets => cases hv
      | _ => rfl
    rw [ofJson, ofMembers_append (fun d hd => ⟨?_, hbefore d hd⟩) hfault]
    · rfl
    · exact (Json.orderedMembers_iff _).mp hordered.2 d (List.mem_append_left _ hd)
  | @count fields buckets field value v h hv =>
    have hbuckets : Ascending buckets := (Json.ordered_of_get? hordered h.held).1
    obtain ⟨before, after, rfl, hbefore⟩ := h.split hordered.1
    obtain ⟨counted, rest, rfl, hcounted⟩ := hv.split hbuckets
    have hfault : ofMembers ((field, .object (counted ++ (value, v) :: rest)) :: after) = .error
        (.unexpectedType ("response.data." ++ field ++ "." ++ value) "non-negative integer") := by
      rw [ofMembers, countsOf_of_not_count field rest hcounted hv.fails]
      rfl
    rw [ofJson, ofMembers_append (fun d hd => ⟨?_, hbefore d hd⟩) hfault]
    · rfl
    · exact (Json.orderedMembers_iff _).mp hordered.2 d (List.mem_append_left _ hd)

theorem spells_or_fault {v : Json} (hv : v.Ordered) : (∃ f, Spells v f) ∨ ∃ e, Fault v e := by
  cases v with
  | object fields =>
    rcases Entries.all_or_firstNot (P := IsBuckets) hv.1 with hall | ⟨field, w, hfirst⟩
    · have hform : ∀ e ∈ fields, ∃ counts, e.2 = countsToJson counts := fun e he =>
        exists_countsToJson ((Json.orderedMembers_iff fields).mp hv.2 e he) (hall e he)
      obtain ⟨f, rfl⟩ := Keyed.exists_entries_mapValues hv.1 hform
      exact .inl ⟨f, rfl⟩
    · cases w with
      | object buckets =>
        have hbuckets : Ascending buckets := (Json.ordered_of_get? hv hfirst.held).1
        rcases Entries.all_or_firstNot (P := IsCount) hbuckets with hall | ⟨value, x, hcount⟩
        · exact absurd ⟨buckets, rfl, hall⟩ hfirst.fails
        · exact .inr ⟨_, .count hfirst hcount⟩
      | _ => exact .inr ⟨_, .bucket hfirst rfl⟩
  | _ => exact .inr ⟨_, .notObject rfl⟩

theorem ofJson_eq_iff {v : Json} (hv : v.Ordered) :
    (∀ f, ofJson v = .ok f ↔ Spells v f) ∧ ∀ e, ofJson v = .error e ↔ Fault v e :=
  eq_iff_of_exhaustive (fun _ => ofJson_of_spells) (fun _ => ofJson_of_fault hv) (spells_or_fault hv)

theorem member?_countsToJson (counts : Keyed UInt64) (value : String) :
    (countsToJson counts).member? value = (counts.get? value).map .nat64 :=
  Keyed.get?_mapValues Json.nat64 counts value

theorem member?_toJson (f : Facets) (field : String) :
    f.toJson.member? field = (f.counts? field).map countsToJson :=
  Keyed.get?_mapValues countsToJson f field

theorem not_malformed_toJson (f : Facets) : ¬ Malformed f.toJson := by
  intro h
  cases h with
  | notObject h => cases h
  | @bucket v field h hv =>
    rw [member?_toJson] at h
    obtain ⟨counts, -, rfl⟩ := Option.map_eq_some_iff.mp h
    cases hv
  | @count bucket v field value h hbucket hv =>
    rw [member?_toJson] at h
    obtain ⟨counts, -, rfl⟩ := Option.map_eq_some_iff.mp h
    rw [member?_countsToJson] at hbucket
    obtain ⟨n, -, rfl⟩ := Option.map_eq_some_iff.mp hbucket
    exact hv ⟨n, rfl⟩

/-! ## Answers -/

theorem ordered_toJson (f : Facets) : f.toJson.Ordered := by
  refine ⟨Keyed.ascending _, ?_⟩
  rw [Json.orderedMembers_iff, Keyed.forall_mem_mapValues]
  intro field _
  refine ⟨Keyed.ascending _, ?_⟩
  rw [Json.orderedMembers_iff, Keyed.forall_mem_mapValues]
  exact fun _ _ => trivial

theorem nesting_toJson_le (f : Facets) : f.toJson.nesting ≤ 2 := by
  refine Nat.succ_le_succ ?_
  rw [Json.nestingMembers_le_iff, Keyed.forall_mem_mapValues]
  intro field _
  refine Nat.succ_le_succ ?_
  rw [Json.nestingMembers_le_iff, Keyed.forall_mem_mapValues]
  exact fun _ _ => Nat.le_refl 0

theorem doubles_toJson (f : Facets) : f.toJson.doubles = [] := by
  refine Json.memberDoubles_eq_nil ?_
  rw [Keyed.forall_mem_mapValues]
  intro field _
  refine Json.memberDoubles_eq_nil ?_
  rw [Keyed.forall_mem_mapValues]
  exact fun _ _ => rfl

theorem parse_render_answer (f : Facets) (version status : String) :
    Json.parse (f.answer version status).render = .ok (f.answer version status) := by
  have hkeys : ["response", "status", "version"].Pairwise (· < ·) := by decide
  refine Json.parse_render ?_ ?_ ?_
  · have hpayload : (Json.object [("data", f.toJson)]).Ordered :=
      ⟨List.pairwise_singleton .., ordered_toJson f, trivial⟩
    exact ⟨Entries.ascending_iff.mpr hkeys, hpayload, trivial, trivial, trivial⟩
  · have hdata := nesting_toJson_le f
    simp [answer, Json.nesting, Json.nestingMembers, Json.maxNesting]
    omega
  · intro x hx
    simp [answer, Json.doubles, Json.memberDoubles, doubles_toJson] at hx

/-! ## Texts -/

section

variable {text : String} {root : Members} (htext : Json.parse text = .ok (.object root))
include htext

theorem parse_eq_iff {envelope : Envelope} (henvelope : Envelope.Of root envelope) :
    (∀ r, Response.parse decode text = .ok r ↔ r.text = text ∧ r.envelope = envelope ∧
      Response.Decodes "data" ∅ Spells root envelope r.payload) ∧
    ∀ e, Response.parse decode text = .error e ↔ Response.Refuses "data" Fault root envelope e := by
  have hroot := (Json.fits_of_parse htext).1
  rw [decode_eq]
  constructor
  · exact Response.parse_decodeMember_eq_ok_iff htext henvelope fun v hv =>
      (ofJson_eq_iff (Response.ordered_inPayload? hroot hv)).1
  · exact Response.parse_decodeMember_eq_error_iff htext henvelope fun v hv =>
      (ofJson_eq_iff (Response.ordered_inPayload? hroot hv)).2

theorem toJson_of_parse {v : Json} (hv : Response.inPayload? "data" root = some v)
    {r : Response Facets} (hr : Response.parse decode text = .ok r) : r.payload.toJson = v := by
  obtain ⟨root', htext', henvelope⟩ := Response.exists_root_of_parse hr
  cases htext.symm.trans htext'
  obtain ⟨-, -, hdecodes⟩ := ((parse_eq_iff htext henvelope).1 r).mp hr
  generalize r.payload = f at hdecodes
  cases hdecodes with
  | member h hspells =>
    cases hv.symm.trans h
    exact hspells.symm
  | missing h => cases hv.symm.trans (Response.inPayload?_of_held h)

theorem exists_error_of_malformed {v : Json} (hv : Response.inPayload? "data" root = some v)
    (h : Malformed v) : ∃ e, Response.parse decode text = .error e := by
  refine exists_error_iff.mpr ?_
  rintro ⟨r, hr⟩
  obtain rfl := toJson_of_parse htext hv hr
  exact not_malformed_toJson r.payload h

end

theorem parse_answer (f : Facets) (version status : String) :
    Response.parse decode (f.answer version status).render =
      .ok ⟨(f.answer version status).render, ⟨version, status, none, 0⟩, f⟩ := by
  refine ((parse_eq_iff (parse_render_answer f version status) ?_).1 _).mpr ⟨rfl, rfl, ?_⟩
  · exact .payload (.string rfl) (.string rfl) rfl (.absent rfl) (.absent rfl)
  · exact .member rfl rfl

end Facets

/-- Facets are read exactly from the data that they are written as. Data of no such form is refused
with the path of the first bucket or count, in key order, that is wrong. -/
theorem facets_are_read_exactly :
    (∀ (f : Facets) (version status : String),
      Response.parse Facets.decode (f.answer version status).render =
        .ok ⟨(f.answer version status).render, ⟨version, status, none, 0⟩, f⟩) ∧
    (∀ text root envelope, Json.parse text = .ok (.object root) → Envelope.Of root envelope →
      (∀ r, Response.parse Facets.decode text = .ok r ↔ r.text = text ∧ r.envelope = envelope ∧
        Response.Decodes "data" ∅ Facets.Spells root envelope r.payload) ∧
      ∀ e, Response.parse Facets.decode text = .error e ↔
        Response.Refuses "data" Facets.Fault root envelope e) ∧
    (∀ text root v, Json.parse text = .ok (.object root) →
      Response.inPayload? "data" root = some v →
      (∀ r, Response.parse Facets.decode text = .ok r → r.payload.toJson = v ∧
        ∀ field, (r.payload.counts? field).map Facets.countsToJson = v.member? field) ∧
      (Facets.Malformed v → ∃ e, Response.parse Facets.decode text = .error e)) := by
  refine ⟨Facets.parse_answer, ?_, fun text root v htext hv => ⟨fun r hr => ?_, ?_⟩⟩
  · intro text root envelope htext henvelope
    exact Facets.parse_eq_iff htext henvelope
  · obtain rfl := Facets.toJson_of_parse htext hv hr
    exact ⟨rfl, fun field => (Facets.member?_toJson r.payload field).symm⟩
  · exact Facets.exists_error_of_malformed htext hv

/-- Two counts of the first field are wrong and the second field is no object. -/
theorem facets_are_read_exactly_first_fault :
    let below : Json := .number (.integer (-1) (by decide) (by decide))
    let data : Json := .object
      [("a", .object [("x", .nat64 18446744073709551615), ("y", below), ("z", .null)]),
        ("b", .string "1")]
    let root : Members :=
      [("response", .object [("data", data)]), ("status", .string "ok"), ("version", .string "3")]
    Facets.Malformed data ∧ Response.parse Facets.decode (Json.object root).render =
      .error (.unexpectedType "response.data.a.y" "non-negative integer") := by
  intro below data root
  have htext : Json.parse (Json.object root).render = .ok (.object root) :=
    Json.parse_render (by decide) (by decide) nofun
  have henvelope : Envelope.Of root ⟨"3", "ok", none, 0⟩ :=
    .payload (.string rfl) (.string rfl) rfl (.absent rfl) (.absent rfl)
  have hbelow : ¬ Facets.IsCount below := by
    rintro ⟨n, hn⟩
    cases Response.natural?_eq_some_iff.mpr hn
  refine ⟨@Facets.Malformed.bucket data (.string "1") "b" rfl rfl,
    ((facets_are_read_exactly.2.1 _ root _ htext henvelope).2 _).mpr (.member rfl ?_)⟩
  refine @Facets.Fault.count _ _ "a" "y" below ⟨rfl, ?_, ?_⟩ ⟨rfl, hbelow, ?_⟩
  · rintro ⟨_, h, hall⟩
    cases h
    exact hbelow (hall ("y", below) (by simp))
  · intro e he hlt
    fin_cases he <;> exact absurd hlt (by decide)
  · intro e he hlt
    fin_cases he
    · exact ⟨_, rfl⟩
    · exact absurd hlt (by decide)
    · exact absurd hlt (by decide)

end TableQuery

import TableQuery.Proofs.Json.Depth
import TableQuery.Proofs.Keyed
import TableQuery.Proofs.Query.Record
import TableQuery.Submission

/-!
# Values of a row

A resolve query and a submission send the values of a row as one object. It has a member for each
field that was written, with the value that was written last; a field that was cleared has null.
-/

namespace TableQuery

/-! ## Last writes -/

section

variable {α : Type}

def lastWrite? (field : String) (writes : List (String × α)) : Option α :=
  (writes.filter (·.1 = field)).getLast?.map (·.2)

theorem lastWrite?_concat (field : String) (writes : List (String × α)) (w : String × α) :
    lastWrite? field (writes ++ [w]) = if field = w.1 then some w.2 else lastWrite? field writes := by
  unfold lastWrite?
  by_cases hfield : field = w.1
  · simp [hfield]
  · simp [hfield, Ne.symm hfield]

theorem mem_of_lastWrite? {field : String} {writes : List (String × α)} {v : α}
    (h : lastWrite? field writes = some v) : (field, v) ∈ writes := by
  obtain ⟨w, hw, rfl⟩ := Option.map_eq_some_iff.mp h
  obtain ⟨hmem, hfield⟩ := List.mem_filter.mp (List.mem_of_getLast? hw)
  rwa [← of_decide_eq_true hfield]

theorem isSome_lastWrite?_iff (field : String) (writes : List (String × α)) :
    (lastWrite? field writes).isSome ↔ field ∈ writes.map (·.1) := by
  simp [lastWrite?]

theorem eq_nil_iff_lastWrite? (writes : List (String × α)) :
    writes = [] ↔ ∀ field, lastWrite? field writes = none := by
  constructor
  · rintro rfl field
    rfl
  · intro hnone
    refine List.eq_nil_iff_forall_not_mem.mpr fun w hw => ?_
    have hsome := (isSome_lastWrite?_iff w.1 writes).mpr (List.mem_map_of_mem hw)
    rw [hnone] at hsome
    cases hsome

theorem lastWrite?_swap {first second : String × α} (h : first.1 ≠ second.1)
    (before after : List (String × α)) (field : String) :
    lastWrite? field (before ++ first :: second :: after) =
      lastWrite? field (before ++ second :: first :: after) := by
  have hpair : [first, second].filter (·.1 = field) = [second, first].filter (·.1 = field) := by
    by_cases hfirst : first.1 = field
    · have hsecond : second.1 ≠ field := fun heq => h (hfirst.trans heq.symm)
      simp [hfirst, hsecond]
    · simp [List.filter_cons, hfirst]
  have hsplit : ∀ a b : String × α, before ++ a :: b :: after = before ++ ([a, b] ++ after) :=
    fun _ _ => rfl
  simp only [lastWrite?, hsplit, List.filter_append, hpair]

theorem Keyed.get?_ofList (writes : List (String × α)) (field : String) :
    (ofList writes).get? field = lastWrite? field writes := by
  change Entries.get? field (Entries.ofList writes) = _
  -- From the end, since one more write decides what its own field has.
  induction writes using List.reverseRecOn with
  | nil => rfl
  | append_singleton writes w ih =>
    rw [Entries.ofList_concat, Entries.get?_insert, ih, lastWrite?_concat]

end

/-! ## What writes leave in a bag -/

namespace Bag

def ofWrites (writes : List (String × Json)) : Bag :=
  (writes.map fun w => Edit.setJsonMember "values" w.1 w.2).foldl Edit.apply ∅

theorem ofWrites_concat (writes : List (String × Json)) (w : String × Json) :
    ofWrites (writes ++ [w]) = (Edit.setJsonMember "values" w.1 w.2).apply (ofWrites writes) := by
  rw [ofWrites, List.map_append, List.foldl_append]
  rfl

theorem requestParams_ofWrites {writes : List (String × Json)} (hne : writes ≠ []) :
    (ofWrites writes).requestParams =
      (∅ : RequestParams).insert "values" (Json.ofKeyed (.ofList writes)).render := by
  have hkey : ∀ w : String × Json, (Edit.setJsonMember "values" w.1 w.2).key = "values" :=
    fun _ => rfl
  ext1 k
  rw [get?_requestParams, ofWrites, Edit.get?_applyAll, Edit.under_map hkey, Keyed.get?_insert]
  by_cases hk : k = "values"
  · have hsome : ¬ writes.isEmpty = true := mt List.isEmpty_iff.mp hne
    have hslot := (Edit.foldl_step_setJsonMember "values" writes).trans (if_neg hsome)
    rw [if_pos hk, if_pos hk.symm]
    exact congrArg (·.bind Parameter.render?) hslot
  · rw [if_neg hk, if_neg (Ne.symm hk)]
    rfl

theorem requestParams_ofWrites_congr {first second : List (String × Json)}
    (h : ∀ field, lastWrite? field first = lastWrite? field second) :
    (ofWrites first).requestParams = (ofWrites second).requestParams := by
  have hnil : first = [] ↔ second = [] := by simp only [eq_nil_iff_lastWrite?, h]
  by_cases hsecond : second = []
  · rw [hnil.mpr hsecond, hsecond]
  · have hfirst : first ≠ [] := mt hnil.mp hsecond
    have hsame : Keyed.ofList first = Keyed.ofList second := by
      ext1 field
      rw [Keyed.get?_ofList, Keyed.get?_ofList, h]
    rw [requestParams_ofWrites hfirst, requestParams_ofWrites hsecond, hsame]

end Bag

/-- Nothing is sent when nothing was written. Otherwise one parameter is sent. Its text is read as
an object with the last write of each field that was written and with no other member, when these
values have their members in order, nest no deeper than a reader allows in an object, and have
doubles that are read back. -/
def SendsLastWrites (writes : List (String × Json)) (sent : RequestParams) : Prop :=
  (writes = [] → sent = ∅) ∧
  (writes ≠ [] → ∃ text, sent = (∅ : RequestParams).insert "values" text ∧
    ((∀ field v, lastWrite? field writes = some v → Json.Fits 1 v ∧ v.DoublesReadBack) →
      ∃ members : Keyed Json, Json.parse text = .ok (.ofKeyed members) ∧
        ∀ field, members.get? field = lastWrite? field writes ∧
          (members.contains field = true ↔ field ∈ writes.map (·.1))))

theorem sendsLastWrites (writes : List (String × Json)) :
    SendsLastWrites writes (Bag.ofWrites writes).requestParams := by
  constructor
  · rintro rfl
    rfl
  · intro hne
    refine ⟨_, Bag.requestParams_ofWrites hne, fun hreads => ⟨.ofList writes, ?_, fun field => ?_⟩⟩
    · have hmembers : ∀ e ∈ (Keyed.ofList writes).entries,
          Json.Fits 1 e.2 ∧ e.2.DoublesReadBack := by
        intro e he
        refine hreads e.1 e.2 ?_
        rw [← Keyed.get?_ofList]
        exact Entries.get?_of_mem (Keyed.ofList writes).ascending he
      exact Json.parse_render_object
        ⟨(Keyed.ofList writes).ascending, fun e he => (hmembers e he).1⟩
        fun e he => (hmembers e he).2
    · have hfield := Keyed.get?_ofList writes field
      refine ⟨hfield, ?_⟩
      rw [← isSome_lastWrite?_iff, ← hfield]
      rfl

/-! ## Submissions -/

theorem Submit.params_ofValues (given : List (String × Json)) :
    (ofValues given).params = Bag.ofWrites given := by
  induction given using List.reverseRecOn with
  | nil => rfl
  | append_singleton given w ih =>
    rw [Bag.ofWrites_concat, ← ih, ofValues, List.foldl_concat]
    rfl

inductive SubmitCall where
  | setValue (field : String) (value : Json)
  | removeValue (field : String)

namespace SubmitCall

def apply (s : Submit) : SubmitCall → Submit
  | .setValue field value => s.setValue field value
  | .removeValue field => s.removeValue field

/-- What the call writes, and where; to clear a field is to write null. -/
def write : SubmitCall → String × Json
  | .setValue field value => (field, value)
  | .removeValue field => (field, .null)

theorem params_apply (s : Submit) (c : SubmitCall) :
    (c.apply s).params = (Edit.setJsonMember "values" c.write.1 c.write.2).apply s.params := by
  cases c <;> rfl

def run (given : List (String × Json)) (calls : List SubmitCall) : Submit :=
  calls.foldl apply (.ofValues given)

theorem params_run (given : List (String × Json)) (calls : List SubmitCall) :
    (run given calls).params = Bag.ofWrites (given ++ calls.map write) := by
  induction calls using List.reverseRecOn with
  | nil => exact (Submit.params_ofValues given).trans (congrArg Bag.ofWrites (List.append_nil _).symm)
  | append_singleton calls c ih =>
    rw [List.map_append, ← List.append_assoc, List.map_singleton, Bag.ofWrites_concat, ← ih,
      ← params_apply, run, List.foldl_concat]
    rfl

end SubmitCall

theorem ResolveQuery.params_ofValues (writes : List (String × Json)) :
    (ofValues writes).params = Bag.ofWrites writes := params_foldl writes ∅

/-- A resolve query sends the values that were added to it, and a submission sends those that it was
made with or that were set later, with null for each field that was cleared: under each field what
was written last, and no field that was written is missing. Writes to different fields may change
places. -/
theorem last_writes_are_sent :
    (∀ writes : List (String × Json),
      SendsLastWrites writes (ResolveQuery.ofValues writes).requestParams) ∧
    (∀ (given : List (String × Json)) (calls : List SubmitCall),
      SendsLastWrites (given ++ calls.map SubmitCall.write)
        (SubmitCall.run given calls).requestParams) ∧
    (∀ (before after : List (String × Json)) (first second : String × Json),
      first.1 ≠ second.1 →
      (ResolveQuery.ofValues (before ++ first :: second :: after)).requestParams =
        (ResolveQuery.ofValues (before ++ second :: first :: after)).requestParams) ∧
    ∀ (given : List (String × Json)) (before after : List SubmitCall) (first second : SubmitCall),
      first.write.1 ≠ second.write.1 →
      (SubmitCall.run given (before ++ first :: second :: after)).requestParams =
        (SubmitCall.run given (before ++ second :: first :: after)).requestParams := by
  refine ⟨fun writes => ?_, fun given calls => ?_, ?_, ?_⟩
  · rw [ResolveQuery.requestParams, ResolveQuery.params_ofValues]
    exact sendsLastWrites writes
  · rw [Submit.requestParams, SubmitCall.params_run]
    exact sendsLastWrites _
  · intro before after first second hne
    rw [ResolveQuery.requestParams, ResolveQuery.requestParams, ResolveQuery.params_ofValues,
      ResolveQuery.params_ofValues]
    exact Bag.requestParams_ofWrites_congr (lastWrite?_swap hne before after)
  · intro given before after first second hne
    rw [Submit.requestParams, Submit.requestParams, SubmitCall.params_run, SubmitCall.params_run]
    refine Bag.requestParams_ofWrites_congr fun field => ?_
    simp only [List.map_append, List.map_cons, ← List.append_assoc]
    exact lastWrite?_swap hne _ _ field

/-- The name is cleared after it was given. The rate is a negative zero. -/
theorem last_writes_are_sent_cleared_field :
    let given : List (String × Json) :=
      [("name", .string "Cafe"), ("rate", .double (.zero true)), ("tel", .null)]
    let tag : SubmitCall := .setValue "tags" (.array [.object [("a", .null)]])
    let clear : SubmitCall := .removeValue "name"
    let writes := given ++ [tag, clear].map SubmitCall.write
    (∀ field v, lastWrite? field writes = some v → Json.Fits 1 v ∧ v.DoublesReadBack) ∧
    (∃ text members, (SubmitCall.run given [tag, clear]).requestParams =
        (∅ : RequestParams).insert "values" text ∧ Json.parse text = .ok (.ofKeyed members) ∧
      members.get? "name" = some .null ∧ members.get? "rate" = some (.double (.zero true)) ∧
      members.get? "city" = none) ∧
    tag.write.1 ≠ clear.write.1 ∧
    (SubmitCall.run given [tag, clear]).requestParams =
      (SubmitCall.run given [clear, tag]).requestParams := by
  intro given tag clear writes
  have hreads : ∀ field v, lastWrite? field writes = some v →
      Json.Fits 1 v ∧ v.DoublesReadBack := by
    have hall : ∀ w ∈ writes, Json.Fits 1 w.2 ∧ w.2.DoublesReadBack := by
      simp only [writes, given, tag, clear, SubmitCall.write, List.map_cons, List.map_nil,
        List.cons_append, List.nil_append, List.forall_mem_cons]
      refine ⟨⟨⟨trivial, by decide⟩, nofun⟩, ⟨⟨trivial, by decide⟩, ?_⟩, ⟨⟨trivial, by decide⟩, nofun⟩,
        ⟨⟨by decide, by decide⟩, nofun⟩, ⟨⟨trivial, by decide⟩, nofun⟩, nofun⟩
      intro x hx
      rw [List.mem_singleton.mp hx]
      exact Binary64.readsBack_zero true
    exact fun field v hv => hall (field, v) (mem_of_lastWrite? hv)
  obtain ⟨-, hsubmit, -, hswap⟩ := last_writes_are_sent
  have hfields : tag.write.1 ≠ clear.write.1 := by decide
  obtain ⟨text, hsent, hparse⟩ := (hsubmit given [tag, clear]).2 nofun
  obtain ⟨members, hmembers, hget⟩ := hparse hreads
  refine ⟨hreads, ⟨text, members, hsent, hmembers, (hget "name").1, (hget "rate").1, (hget "city").1⟩,
    hfields, hswap given [] [] tag clear hfields⟩

end TableQuery

import TableQuery.Proofs.Parameter.Independence
import TableQuery.Proofs.Query.Record
import TableQuery.Text.Cut

/-!
# Reading comma-joined values back

The text of joined values is cut at its commas into the values just when no value has a comma
itself. So the fields that a query selects are read back from what it sends.
-/

namespace TableQuery

def NoCommas (values : List String) : Prop := ∀ v ∈ values, ',' ∉ v.toList

theorem noCommas_eraseDups (values : List String) : NoCommas values.eraseDups ↔ NoCommas values := by
  simp [NoCommas]

/-- The values between the commas of what is sent, when something is sent. -/
def piecesOf? (sent : Option String) : Option (List String) := sent.map (Text.pieces ',')

theorem piecesOf?_joined? {values : List String} (hne : values ≠ []) :
    piecesOf? (Edit.joined? values) = some values ↔ NoCommas values := by
  rw [Edit.joined?_of_ne_nil hne, piecesOf?, Option.map_some, Option.some.injEq]
  exact Text.pieces_intercalate_iff hne

theorem piecesOf?_joined?_eraseDups {values : List String} (hne : values ≠ []) :
    piecesOf? (Edit.joined? values.eraseDups) = some values.eraseDups ↔ NoCommas values := by
  have hdistinct : values.eraseDups ≠ [] := by
    obtain ⟨v, hv⟩ := List.exists_mem_of_ne_nil values hne
    exact List.ne_nil_of_mem (List.mem_eraseDups.mpr hv)
  rw [piecesOf?_joined? hdistinct, noCommas_eraseDups]

/-! ## Values under one name -/

namespace BagCall

theorem get?_requestParams_of_under {b : Bag} {calls : List BagCall} {k : String}
    {edits : List Edit} (hfresh : b.get? k = none) (h : under k calls = edits.map .edit) :
    (calls.foldl apply b).requestParams.get? k = Edit.rendered edits := by
  have hslot : (calls.foldl apply b).get? k = (under k calls).foldl step (b.get? k) :=
    Bag.get?_foldl get?_apply b calls k
  rw [Bag.get?_requestParams, hslot, hfresh, h, List.foldl_map]
  rfl

end BagCall

/-! ## Fields that are selected -/

/-- The distinct fields in the order in which they came first; none when no field was named. -/
def distinct? (fields : List String) : Option (List String) :=
  if fields = [] then none else some fields.eraseDups

theorem piecesOf?_eq_distinct?_iff (fields : List String) :
    piecesOf? (Edit.joined? fields.eraseDups) = distinct? fields ↔ NoCommas fields := by
  by_cases hne : fields = []
  · subst hne
    exact iff_of_true rfl nofun
  · rw [distinct?, if_neg hne]
    exact piecesOf?_joined?_eraseDups hne

theorem selected?_of_get? {b : Bag} {fields : List String}
    (h : b.get? "select" = (fields.map (.addToCommaSet "select")).foldl Edit.step none) :
    b.selected? = distinct? fields := by
  rw [Bag.selected?, Bag.commaValues?, h, Edit.foldl_step_addToCommaSet]
  cases fields <;> rfl

def QueryCall.fieldsOf {Name : Type} [DecidableEq Name] (calls : List (QueriesCall Name QueryCall))
    (name : Name) : List String := (calls.flatMap (·.ownOf name)).flatMap selected

theorem QueryCall.selectFields?_run {Name : Type} [DecidableEq Name]
    (calls : List (QueriesCall Name QueryCall)) (name : Name) :
    (Builder.run (fun _ => Query.empty) calls name).selectFields? =
      distinct? (fieldsOf calls name) := by
  have hselect : "select" ≠ filtersKey := by decide
  have hslot := Builder.get?_params_run (fun _ => Query.empty) calls name hselect
  have hunder := Edit.under_flatMap under_select (calls.flatMap (·.ownOf name))
  exact selected?_of_get? (hslot.trans (congrArg (List.foldl Edit.step none) hunder))

theorem FacetCall.fields_run {Name : Type} [DecidableEq Name] (fields : Name → List String)
    (calls : List (QueriesCall Name FacetCall)) (name : Name) :
    (Builder.run (fun n => FacetQuery.ofFields (fields n)) calls name).fields =
      (distinct? (fields name)).getD [] := by
  have hselect : "select" ≠ filtersKey := by decide
  have hslot := Builder.get?_params_run (fun n => FacetQuery.ofFields (fields n)) calls name hselect
  have hunder := Edit.under_flatMap_nil (under_other (k := "select") (by decide))
    (calls.flatMap (·.ownOf name))
  have hmade := (get?_ofFields (fields name) "select").trans (if_pos rfl)
  have hrun := hslot.trans (congrArg (List.foldl Edit.step _) hunder)
  exact congrArg (·.getD []) (selected?_of_get? (hrun.trans hmade))

theorem Geopulse.get?_only (point : Point) (selections : List (List String)) :
    (selections.foldl only (.ofPoint point)).requestParams.get? "select" =
      Edit.joined? selections.flatten.eraseDups := by
  have hadded : selections.flatMap (·.map (Edit.addToCommaSet "select")) =
      selections.flatten.map (.addToCommaSet "select") := by
    rw [List.map_flatten]
    rfl
  have hslot : (ofPoint point).params.get? "select" = none := rfl
  rw [requestParams, Bag.get?_requestParams, params_foldl, hadded, Edit.get?_applyAll,
    Edit.under_addToCommaSet, if_pos rfl, hslot]
  exact Edit.rendered_addToCommaSet "select" selections.flatten

/-- Values that calls have added to a comma set or pushed to a comma list are the pieces between the
commas of what is sent, each distinct value once and in the order in which it came first or all in
their order, just when none of them has a comma. So it is for the fields that a query, a facet query
or a pulse selects, and these are the fields that it tells. -/
theorem joined_values_are_read_back {Name : Type} [DecidableEq Name] :
    (∀ (b : Bag) (calls : List BagCall) (k : String) (values : List String),
      b.get? k = none → values ≠ [] →
      (BagCall.under k calls = values.map (fun v => .edit (.addToCommaSet k v)) →
        (piecesOf? ((calls.foldl BagCall.apply b).requestParams.get? k) = some values.eraseDups ↔
          NoCommas values)) ∧
      (BagCall.under k calls = values.map (fun v => .edit (.pushToCommaList k v)) →
        (piecesOf? ((calls.foldl BagCall.apply b).requestParams.get? k) = some values ↔
          NoCommas values))) ∧
    (∀ (calls : List (QueriesCall Name QueryCall)) (name : Name),
      let q := Builder.run (fun _ => Query.empty) calls name
      let fields := QueryCall.fieldsOf calls name
      q.selectFields? = distinct? fields ∧
      (piecesOf? (q.requestParams.get? "select") = q.selectFields? ↔ NoCommas fields)) ∧
    (∀ (fields : Name → List String) (calls : List (QueriesCall Name FacetCall)) (name : Name),
      let q := Builder.run (fun n => FacetQuery.ofFields (fields n)) calls name
      q.fields = (distinct? (fields name)).getD [] ∧
      (piecesOf? (q.requestParams.get? "select") = distinct? (fields name) ↔
        NoCommas (fields name))) ∧
    ∀ (point : Point) (selections : List (List String)),
      piecesOf? ((selections.foldl Geopulse.only (.ofPoint point)).requestParams.get? "select") =
        distinct? selections.flatten ↔ NoCommas selections.flatten := by
  refine ⟨fun b calls k values hfresh hne => ⟨fun h => ?_, fun h => ?_⟩, ?_, ?_, ?_⟩
  · have hedits : BagCall.under k calls = (values.map (.addToCommaSet k)).map .edit := by
      rw [h, List.map_map]
      rfl
    rw [BagCall.get?_requestParams_of_under hfresh hedits, Edit.rendered_addToCommaSet]
    exact piecesOf?_joined?_eraseDups hne
  · have hedits : BagCall.under k calls = (values.map (.pushToCommaList k)).map .edit := by
      rw [h, List.map_map]
      rfl
    rw [BagCall.get?_requestParams_of_under hfresh hedits, Edit.rendered_pushToCommaList]
    exact piecesOf?_joined? hne
  · intro calls name q fields
    have hfields : q.selectFields? = distinct? fields := QueryCall.selectFields?_run calls name
    have hsent : q.requestParams.get? "select" = Edit.joined? fields.eraseDups :=
      QueryCall.get?_run calls name "select"
    rw [hsent, hfields]
    exact ⟨rfl, piecesOf?_eq_distinct?_iff fields⟩
  · intro fields calls name q
    have hsent : q.requestParams.get? "select" = Edit.joined? (fields name).eraseDups :=
      FacetCall.get?_run fields calls name "select"
    rw [hsent]
    exact ⟨FacetCall.fields_run fields calls name, piecesOf?_eq_distinct?_iff (fields name)⟩
  · intro point selections
    rw [Geopulse.get?_only]
    exact piecesOf?_eq_distinct?_iff selections.flatten

/-- Values come twice, one is empty, and other parameters are set in between. A value with a comma is
not read back. -/
theorem joined_values_are_read_back_empty_value :
    let q : BagCall := .edit (.setLiteral "q" "x")
    let add (v : String) : BagCall := .edit (.addToCommaSet "select" v)
    let push (v : String) : BagCall := .edit (.pushToCommaList "sort" v)
    (∅ : Bag).get? "select" = none ∧ (∅ : Bag).get? "sort" = none ∧
    BagCall.under "select" [add "name", q, add "", add "name"] = ["name", "", "name"].map add ∧
    BagCall.under "sort" [push "a:asc", push "a:asc", q] = ["a:asc", "a:asc"].map push ∧
    BagCall.under "sort" [push "a,b:asc"] = ["a,b:asc"].map push ∧
    piecesOf? ((BagCall.run [add "name", q, add "", add "name"]).requestParams.get? "select") =
      some ["name", ""] ∧
    piecesOf? ((BagCall.run [push "a:asc", push "a:asc", q]).requestParams.get? "sort") =
      some ["a:asc", "a:asc"] ∧
    piecesOf? ((BagCall.run [push "a,b:asc"]).requestParams.get? "sort") ≠ some ["a,b:asc"] := by
  intro q add push
  have hread := (@joined_values_are_read_back Unit inferInstance).1 ∅
  have hplain : NoCommas ["name", "", "name"] ∧ NoCommas ["a:asc", "a:asc"] := by
    unfold NoCommas
    decide
  have hcomma : ¬ NoCommas ["a,b:asc"] := by
    unfold NoCommas
    decide
  refine ⟨rfl, rfl, rfl, rfl, rfl, ?_, ?_, ?_⟩
  · have hnames := hread [add "name", q, add "", add "name"] "select" ["name", "", "name"] rfl nofun
    exact (hnames.1 rfl).mpr hplain.1
  · have hsorts := hread [push "a:asc", push "a:asc", q] "sort" ["a:asc", "a:asc"] rfl nofun
    exact (hsorts.2 rfl).mpr hplain.2
  · have hsort := hread [push "a,b:asc"] "sort" ["a,b:asc"] rfl nofun
    exact (hsort.2 rfl).not.mpr hcomma

end TableQuery

import TableQuery.Client.Lookup
import TableQuery.Proofs.Query.Record
import TableQuery.Proofs.Url.Decoding

/-!
# Names of parameters

The parameters of a lookup that is made from a query have names from a fixed list, and none of these
names has a character at which a URL is cut.
-/

namespace TableQuery

/-- The lookups that are made from a query, whatever calls have built the query. -/
inductive Lookup.OfQuery : Lookup → Prop
  | fetch (table : String) (calls : List (QueriesCall Nat QueryCall)) (n : Nat) :
      OfQuery (.fetch table (Builder.run (fun _ => Query.empty) calls n))
  | facets (table : String) (fields : Nat → List String) (calls : List (QueriesCall Nat FacetCall))
      (n : Nat) : OfQuery (.facets table (Builder.run (fun n => .ofFields (fields n)) calls n))
  | resolve (table : String) (values : List (String × Json)) :
      OfQuery (.resolve table (.ofValues values))
  | schema (table : String) : OfQuery (.schema table)
  | geocode (point : Point) : OfQuery (.geocode point)
  | geopulse (point : Point) (selections : List (List String)) :
      OfQuery (.geopulse (selections.foldl Geopulse.only (.ofPoint point)))

def parameterNames : List String :=
  ["q", "limit", "offset", "select", "sort", "geo", "include_count", "filters", "min_count", "values"]

theorem plainNames_of_get? {params : RequestParams}
    (h : ∀ k text, params.get? k = some text → k ∈ parameterNames) : Url.PlainNames params := by
  have hnames : ∀ name ∈ parameterNames, '&' ∉ name.toList ∧ '=' ∉ name.toList := by decide
  intro e he
  exact hnames e.1 (h e.1 e.2 (Entries.get?_of_mem params.ascending he))

theorem plainNames_requestParams {b : Bag} {edits : List Edit} (hb : b = edits.foldl Edit.apply ∅)
    (h : ∀ e ∈ edits, e.key ∈ parameterNames) : Url.PlainNames b.requestParams := by
  refine plainNames_of_get? fun k text hk => ?_
  rw [Bag.get?_requestParams, hb, Edit.get?_applyAll] at hk
  by_contra hmem
  have hnone : Edit.under k edits = [] := by
    refine List.filter_eq_nil_iff.mpr fun e he heq => hmem ?_
    rw [← of_decide_eq_true heq]
    exact h e he
  rw [hnone] at hk
  cases hk

theorem QueryCall.mem_of_sent {calls : List QueryCall} {tree : Tree} {k text : String}
    (h : sent calls tree k = some text) : k ∈ parameterNames := by
  unfold sent at h
  split at h <;> first | decide | cases h

theorem FacetCall.mem_of_sent {fields : List String} {calls : List FacetCall} {tree : Tree}
    {k text : String} (h : sent fields calls tree k = some text) : k ∈ parameterNames := by
  unfold sent at h
  split at h <;> first | decide | cases h

theorem QueryCall.plainNames_run {Name : Type} [DecidableEq Name]
    (calls : List (QueriesCall Name QueryCall)) (name : Name) :
    Url.PlainNames (Builder.run (fun _ => Query.empty) calls name).requestParams :=
  plainNames_of_get? fun k _ hk => mem_of_sent ((get?_run calls name k).symm.trans hk)

theorem FacetCall.plainNames_run {Name : Type} [DecidableEq Name] (fields : Name → List String)
    (calls : List (QueriesCall Name FacetCall)) (name : Name) :
    Url.PlainNames
      (Builder.run (fun n => FacetQuery.ofFields (fields n)) calls name).requestParams :=
  plainNames_of_get? fun k _ hk => mem_of_sent ((get?_run fields calls name k).symm.trans hk)

theorem Lookup.OfQuery.plainNames {l : Lookup} (h : l.OfQuery) : Url.PlainNames l.params := by
  cases h with
  | fetch table calls n => exact QueryCall.plainNames_run calls n
  | facets table fields calls n => exact FacetCall.plainNames_run fields calls n
  | resolve table values =>
    refine plainNames_requestParams (ResolveQuery.params_foldl values ∅) fun e he => ?_
    obtain ⟨value, -, rfl⟩ := List.mem_map.mp he
    simp [parameterNames]
  | schema table => exact nofun
  | geocode point =>
    have hbag : (∅ : Bag).setJson "geo" point.toJson =
        [Edit.setJson "geo" point.toJson].foldl Edit.apply ∅ := rfl
    exact plainNames_requestParams hbag (by simp [parameterNames])
  | geopulse point selections =>
    have hbag : (selections.foldl Geopulse.only (.ofPoint point)).params =
        (Edit.setJson "geo" point.toJson ::
          selections.flatMap (·.map (Edit.addToCommaSet "select"))).foldl Edit.apply ∅ :=
      Geopulse.params_foldl selections (.ofPoint point)
    refine plainNames_requestParams hbag (List.forall_mem_cons.mpr ⟨by simp [parameterNames], ?_⟩)
    intro e he
    obtain ⟨fields, -, he⟩ := List.mem_flatMap.mp he
    obtain ⟨field, -, rfl⟩ := List.mem_map.mp he
    simp [parameterNames]

end TableQuery

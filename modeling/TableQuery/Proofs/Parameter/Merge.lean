import TableQuery.Proofs.Keyed
import TableQuery.Proofs.Parameter.Form
import TableQuery.Proofs.Query.Record

/-!
# Sending with an extra bag

Both bags are sent in one pass, the extra one last, and each parameter that has a text replaces what
was sent under its name. So the extra bag wins where it has something to send, and only there.
-/

namespace TableQuery

namespace Bag

/-- Sends one parameter; one that has nothing to send leaves the map as it is. -/
def sendOne (sent : RequestParams) (e : String × Parameter) : RequestParams :=
  match e.2.render? with
  | some text => sent.insert e.1 text
  | none => sent

theorem merge_requestParams (sent : RequestParams) (b : Bag) :
    sent.merge b.requestParams = b.params.entries.foldl sendOne sent := by
  unfold Keyed.merge requestParams Keyed.filterMap
  rw [List.foldl_filterMap]
  congr 1
  funext sent e
  unfold sendOne
  cases htext : e.2.render? <;> simp [htext]

theorem requestParams_eq_foldl (b : Bag) : b.requestParams = b.params.entries.foldl sendOne ∅ := by
  rw [← merge_requestParams, Keyed.empty_merge]

theorem requestParamsWith_eq_foldl (b extra : Bag) : b.requestParamsWith extra =
    (b.params.entries ++ extra.params.entries).foldl sendOne ∅ := by
  rw [List.foldl_append, ← requestParams_eq_foldl, ← merge_requestParams]
  rfl

theorem get?_requestParamsWith (b extra : Bag) (k : String) : (b.requestParamsWith extra).get? k =
    (extra.requestParams.get? k).or (b.requestParams.get? k) := Keyed.get?_merge ..

theorem get?_requestParamsWith_of_unsent {b extra : Bag} {k : String}
    (h : extra.requestParams.get? k = none) :
    (b.requestParamsWith extra).get? k = b.requestParams.get? k := by
  rw [get?_requestParamsWith, h, Option.none_or]

/-- Counting rows adds its own parameter and changes no other. -/
def AddsCount (plain counting : RequestParams) : Prop :=
  plain.get? "include_count" = none ∧ counting = plain.insert "include_count" "true"

theorem addsCount {b : Bag} (h : b.get? "include_count" = none) :
    AddsCount (b.requestParamsCounting false) (b.requestParamsCounting true) := by
  constructor
  · simp [get?_requestParamsCounting, h]
  · ext1 k
    rw [Keyed.get?_insert, get?_requestParamsCounting, get?_requestParamsCounting]
    simp

end Bag

/-- What is sent with an extra bag is what one pass over both sends: under each name what the extra
bag has to send, or else what the bag has to send, so it is the union of what the two send alone. In
bags that calls have made of the empty one, only a tree without nodes has nothing to send, and it
takes nothing away. A query that counts rows sends what it sends without counting, and that it
counts. -/
theorem extra_bag_wins_where_it_sends {Name : Type} [DecidableEq Name] :
    (∀ b extra : Bag,
      b.requestParamsWith extra =
        (b.params.entries ++ extra.params.entries).foldl Bag.sendOne ∅ ∧
      ∀ k,
        (b.requestParamsWith extra).get? k =
          ((extra.get? k).bind Parameter.render?).or ((b.get? k).bind Parameter.render?) ∧
        (b.requestParamsWith extra).get? k =
          (extra.requestParams.get? k).or (b.requestParams.get? k)) ∧
    (∀ (b : Bag) (calls : List BagCall) (k : String) (p : Parameter),
      (BagCall.run calls).get? k = some p → p.render? = none →
      (k = filtersKey ∧ ∃ tree, p = .filters tree ∧ tree.isEmpty = true) ∧
      (b.requestParamsWith (BagCall.run calls)).get? k = b.requestParams.get? k) ∧
    (∀ (calls : List (QueriesCall Name QueryCall)) (name : Name),
      let q := Builder.run (fun _ => Query.empty) calls name
      Bag.AddsCount (q.includeRowCount false).requestParams
        (q.includeRowCount true).requestParams) ∧
    ∀ (fields : Name → List String) (calls : List (QueriesCall Name FacetCall)) (name : Name),
      let q := Builder.run (fun n => FacetQuery.ofFields (fields n)) calls name
      Bag.AddsCount (q.includeRowCount false).requestParams
        (q.includeRowCount true).requestParams := by
  refine ⟨fun b extra => ⟨b.requestParamsWith_eq_foldl extra, fun k => ⟨?_, ?_⟩⟩, ?_, ?_, ?_⟩
  · rw [Bag.get?_requestParamsWith, Bag.get?_requestParams, Bag.get?_requestParams]
  · exact b.get?_requestParamsWith extra k
  · intro b calls k p hheld hnothing
    have haccounted := BagCall.Accounted.of_run calls k
    rw [hheld] at haccounted
    obtain ⟨tree, rfl, hempty⟩ := (BagCall.render?_eq_none_iff haccounted).mp hnothing
    refine ⟨⟨haccounted, tree, rfl, hempty⟩, Bag.get?_requestParamsWith_of_unsent ?_⟩
    rw [Bag.get?_requestParams, hheld]
    exact hnothing
  · intro calls name q
    exact Bag.addsCount (Builder.get?_count_run (fun _ => Query.empty) calls name rfl)
  · intro fields calls name q
    exact Bag.addsCount (Builder.get?_count_run (fun n => FacetQuery.ofFields (fields n)) calls name
      (FacetCall.get?_ofFields (fields name) "include_count"))

/-- The tree of the extra bag has lost its only node. The text that the bag has under the name of the
tree is sent. -/
theorem extra_bag_wins_where_it_sends_emptied_tree :
    let b := BagCall.run [.edit (.setLiteral filtersKey "raw"), .edit (.setLiteral "q" "x")]
    let calls := [.changeFilters (·.add (.group .or [])), .edit (.setLiteral "q" "y"),
      .changeFilters Tree.withoutNewest]
    (BagCall.run calls).get? filtersKey = some (.filters ∅) ∧
    (Parameter.filters ∅).render? = none ∧
    (b.requestParamsWith (BagCall.run calls)).get? filtersKey = some "raw" ∧
    (b.requestParamsWith (BagCall.run calls)).get? "q" = some "y" := by
  intro b calls
  obtain ⟨hpass, hnothing, -⟩ := @extra_bag_wins_where_it_sends Unit inferInstance
  refine ⟨rfl, rfl, ?_, ?_⟩
  · rw [(hnothing b calls filtersKey (.filters ∅) rfl rfl).2]
    rfl
  · rw [((hpass b (BagCall.run calls)).2 "q").1]
    rfl

end TableQuery

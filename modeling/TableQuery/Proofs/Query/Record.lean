import TableQuery.Proofs.Query.Run
import TableQuery.Query.Resolve

/-!
# What a query sends

The parameters of a query are known from the calls that were made on it: the last of those that set,
all of those that collect, and the tree that the calls about filters build.
-/

namespace TableQuery

/-! ## Reading rows -/

/-- A call on a query that is not about filters. -/
inductive QueryCall where
  | search (term : String)
  | limit (rows : Int64)
  | offset (rows : Int64)
  | only (fields : List String)
  | sortAscending (field : String)
  | sortDescending (field : String)
  | within (circle : Circle)
  | includeRowCount (wanted : Bool)

namespace QueryCall

def apply (q : Query) : QueryCall → Query
  | .search term => q.search term
  | .limit rows => q.limit rows
  | .offset rows => q.offset rows
  | .only fields => q.only fields
  | .sortAscending field => q.sortAscending field
  | .sortDescending field => q.sortDescending field
  | .within circle => q.within circle
  | .includeRowCount wanted => q.includeRowCount wanted

def terms : QueryCall → List String
  | .search term => [term]
  | _ => []

def limits : QueryCall → List Int64
  | .limit rows => [rows]
  | _ => []

def offsets : QueryCall → List Int64
  | .offset rows => [rows]
  | _ => []

def selected : QueryCall → List String
  | .only fields => fields
  | _ => []

def sorts : QueryCall → List String
  | .sortAscending field => [field ++ ":asc"]
  | .sortDescending field => [field ++ ":desc"]
  | _ => []

def circles : QueryCall → List Circle
  | .within circle => [circle]
  | _ => []

def counting : QueryCall → List Bool
  | .includeRowCount wanted => [wanted]
  | _ => []

def positive? (rows : Int64) : Option String :=
  if 0 < rows then some (toString rows.toInt) else none

/-- What a query sends under a key after these calls, with this filter tree. -/
def sent (calls : List QueryCall) (tree : Tree) : String → Option String
  | "q" => (calls.flatMap terms).getLast?
  | "limit" => (calls.flatMap limits).getLast?.bind positive?
  | "offset" => (calls.flatMap offsets).getLast?.bind positive?
  | "select" => Edit.joined? (calls.flatMap selected).eraseDups
  | "sort" => Edit.joined? (calls.flatMap sorts)
  | "geo" => (calls.flatMap circles).getLast?.map Circle.render
  | "include_count" => if (calls.flatMap counting).getLast? = some true then some "true" else none
  | "filters" => tree.render?
  | _ => none

def setPositive (key : String) (rows : Int64) : Edit :=
  if 0 < rows then .setLiteral key (toString rows.toInt) else .remove key

def edits : QueryCall → List Edit
  | .search term => [.setLiteral "q" term]
  | .limit rows => [setPositive "limit" rows]
  | .offset rows => [setPositive "offset" rows]
  | .only fields => fields.map (.addToCommaSet "select")
  | .sortAscending field => [.pushToCommaList "sort" (field ++ ":asc")]
  | .sortDescending field => [.pushToCommaList "sort" (field ++ ":desc")]
  | .within circle => [.setJson "geo" circle.toJson]
  | .includeRowCount _ => []

@[simp] theorem key_setPositive (key : String) (rows : Int64) : (setPositive key rows).key = key := by
  unfold setPositive
  split <;> rfl

theorem apply_setPositive (b : Bag) (key : String) (rows : Int64) :
    (setPositive key rows).apply b = b.setPositive key rows := by
  unfold setPositive Bag.setPositive
  split <;> rfl

theorem rendered_setPositive (key : String) (xs : List Int64) :
    Edit.rendered (xs.map (setPositive key)) = xs.getLast?.bind positive? := by
  refine Edit.rendered_of_overwriting (fun rows slot => ?_) xs
  unfold setPositive positive?
  split <;> rfl

theorem under_search (c : QueryCall) : Edit.under "q" c.edits = c.terms.map (.setLiteral "q") := by
  cases c <;> simp [edits, terms]

theorem under_limit (c : QueryCall) :
    Edit.under "limit" c.edits = c.limits.map (setPositive "limit") := by
  cases c <;> simp [edits, limits]

theorem under_offset (c : QueryCall) :
    Edit.under "offset" c.edits = c.offsets.map (setPositive "offset") := by
  cases c <;> simp [edits, offsets]

theorem under_select (c : QueryCall) :
    Edit.under "select" c.edits = c.selected.map (.addToCommaSet "select") := by
  cases c <;> simp [edits, selected]

theorem under_sort (c : QueryCall) :
    Edit.under "sort" c.edits = c.sorts.map (.pushToCommaList "sort") := by
  cases c <;> simp [edits, sorts]

theorem under_geo (c : QueryCall) :
    Edit.under "geo" c.edits = c.circles.map fun circle => .setJson "geo" circle.toJson := by
  cases c <;> simp [edits, circles]

theorem under_other {k : String} (hk : k ∉ ["q", "limit", "offset", "select", "sort", "geo"])
    (c : QueryCall) : Edit.under k c.edits = [] := by
  simp only [List.mem_cons, List.not_mem_nil, or_false, not_or] at hk
  cases c <;> simp [edits, eq_comm, hk]

theorem params_apply (q : Query) (c : QueryCall) :
    (c.apply q).params = c.edits.foldl Edit.apply q.params := by
  cases c with
  | limit rows => exact (apply_setPositive _ _ rows).symm
  | offset rows => exact (apply_setPositive _ _ rows).symm
  | only fields => rw [edits, List.foldl_map]; rfl
  | sortAscending field =>
    have hjoin : field ++ ":" ++ "asc" = field ++ ":asc" := String.append_assoc ..
    change q.params.pushToCommaList "sort" (field ++ ":" ++ "asc") = _
    rw [hjoin]
    rfl
  | sortDescending field =>
    have hjoin : field ++ ":" ++ "desc" = field ++ ":desc" := String.append_assoc ..
    change q.params.pushToCommaList "sort" (field ++ ":" ++ "desc") = _
    rw [hjoin]
    rfl
  | search term => rfl
  | within circle => rfl
  | includeRowCount wanted => rfl

instance : Builder Query QueryCall where
  params q := q.params
  countRows q := q.countRows
  apply := apply
  edits := edits
  counting := counting
  filters?_eq _ := rfl
  params_setFilters _ _ := rfl
  countRows_setFilters _ _ := rfl
  params_apply := params_apply
  countRows_apply q c := by cases c <;> rfl
  under_reserved c k hk := under_other (by
    simp only [List.mem_cons, List.not_mem_nil, or_false] at hk
    rcases hk with rfl | rfl <;> decide) c

theorem rendered_under (calls : List QueryCall) (tree : Tree) {k : String}
    (hfilters : k ≠ filtersKey) (hcount : k ≠ "include_count") :
    Edit.rendered (Edit.under k (calls.flatMap edits)) = sent calls tree k := by
  unfold sent
  split
  next =>
    rw [Edit.under_flatMap under_search, Edit.rendered_of_overwriting fun _ _ => rfl]
    exact Option.bind_fun_some _
  next => rw [Edit.under_flatMap under_limit, rendered_setPositive]
  next => rw [Edit.under_flatMap under_offset, rendered_setPositive]
  next => rw [Edit.under_flatMap under_select, Edit.rendered_addToCommaSet]
  next => rw [Edit.under_flatMap under_sort, Edit.rendered_pushToCommaList]
  next =>
    rw [Edit.under_flatMap under_geo, Edit.rendered_of_overwriting fun _ _ => rfl]
    cases (calls.flatMap circles).getLast? <;> rfl
  next => exact absurd rfl hcount
  next => exact absurd rfl hfilters
  next =>
    have hk : k ∉ ["q", "limit", "offset", "select", "sort", "geo"] := by simp_all
    rw [Edit.under_flatMap_nil (under_other hk)]
    rfl

theorem get?_run {Name : Type} [DecidableEq Name] (calls : List (QueriesCall Name QueryCall))
    (name : Name) (k : String) :
    (Builder.run (fun _ => (∅ : Query)) calls name).requestParams.get? k =
      sent (calls.flatMap (·.ownOf name))
        ((calls.flatMap QueriesCall.filterCalls).foldl FilterCall.onTrees (fun _ => ∅) name) k := by
  have hfresh : Builder.Fresh (∅ : Query) := ⟨rfl, rfl, rfl⟩
  refine Builder.get?_requestParams_run (fun _ => (∅ : Query)) calls name hfresh rfl rfl ?_ k
  intro k hfilters hcount
  exact rendered_under _ _ hfilters hcount

end QueryCall

/-! ## Counting values -/

/-- A call on a facet query that is not about filters. -/
inductive FacetCall where
  | search (term : String)
  | minCount (count : UInt64)
  | maxValues (count : UInt64)
  | within (circle : Circle)
  | includeRowCount (wanted : Bool)

namespace FacetCall

def apply (q : FacetQuery) : FacetCall → FacetQuery
  | .search term => q.search term
  | .minCount count => q.minCount count
  | .maxValues count => q.maxValues count
  | .within circle => q.within circle
  | .includeRowCount wanted => q.includeRowCount wanted

def terms : FacetCall → List String
  | .search term => [term]
  | _ => []

def minCounts : FacetCall → List UInt64
  | .minCount count => [count]
  | _ => []

def maxCounts : FacetCall → List UInt64
  | .maxValues count => [count]
  | _ => []

def circles : FacetCall → List Circle
  | .within circle => [circle]
  | _ => []

def counting : FacetCall → List Bool
  | .includeRowCount wanted => [wanted]
  | _ => []

/-- What a facet query about the fields sends under a key after these calls, with this filter
tree. A count of zero is sent. -/
def sent (fields : List String) (calls : List FacetCall) (tree : Tree) : String → Option String
  | "q" => (calls.flatMap terms).getLast?
  | "select" => Edit.joined? fields.eraseDups
  | "min_count" => (calls.flatMap minCounts).getLast?.map fun count => toString count.toNat
  | "limit" => (calls.flatMap maxCounts).getLast?.map fun count => toString count.toNat
  | "geo" => (calls.flatMap circles).getLast?.map Circle.render
  | "include_count" => if (calls.flatMap counting).getLast? = some true then some "true" else none
  | "filters" => tree.render?
  | _ => none

def edits : FacetCall → List Edit
  | .search term => [.setLiteral "q" term]
  | .minCount count => [.setLiteral "min_count" (toString count.toNat)]
  | .maxValues count => [.setLiteral "limit" (toString count.toNat)]
  | .within circle => [.setJson "geo" circle.toJson]
  | .includeRowCount _ => []

theorem under_search (c : FacetCall) : Edit.under "q" c.edits = c.terms.map (.setLiteral "q") := by
  cases c <;> simp [edits, terms]

theorem under_minCount (c : FacetCall) : Edit.under "min_count" c.edits =
    c.minCounts.map fun count => .setLiteral "min_count" (toString count.toNat) := by
  cases c <;> simp [edits, minCounts]

theorem under_limit (c : FacetCall) : Edit.under "limit" c.edits =
    c.maxCounts.map fun count => .setLiteral "limit" (toString count.toNat) := by
  cases c <;> simp [edits, maxCounts]

theorem under_geo (c : FacetCall) :
    Edit.under "geo" c.edits = c.circles.map fun circle => .setJson "geo" circle.toJson := by
  cases c <;> simp [edits, circles]

theorem under_other {k : String} (hk : k ∉ ["q", "min_count", "limit", "geo"]) (c : FacetCall) :
    Edit.under k c.edits = [] := by
  simp only [List.mem_cons, List.not_mem_nil, or_false, not_or] at hk
  cases c <;> simp [edits, eq_comm, hk]

instance : Builder FacetQuery FacetCall where
  params q := q.params
  countRows q := q.countRows
  apply := apply
  edits := edits
  counting := counting
  filters?_eq _ := rfl
  params_setFilters _ _ := rfl
  countRows_setFilters _ _ := rfl
  params_apply q c := by cases c <;> rfl
  countRows_apply q c := by cases c <;> rfl
  under_reserved c k hk := under_other (by
    simp only [List.mem_cons, List.not_mem_nil, or_false] at hk
    rcases hk with rfl | rfl <;> decide) c

theorem get?_ofFields (fields : List String) (k : String) :
    (FacetQuery.ofFields fields).params.get? k =
      if k = "select" then (fields.map (.addToCommaSet "select")).foldl Edit.step none else none := by
  have hbag : (FacetQuery.ofFields fields).params =
      (fields.map (.addToCommaSet "select")).foldl Edit.apply ∅ := by
    rw [List.foldl_map]
    rfl
  rw [hbag, Edit.get?_applyAll, Edit.under_addToCommaSet]
  by_cases hk : k = "select"
  · rw [if_pos hk, if_pos hk.symm]
    rfl
  · rw [if_neg hk, if_neg (Ne.symm hk)]
    rfl

theorem rendered_under (fields : List String) (calls : List FacetCall) (tree : Tree) {k : String}
    (hfilters : k ≠ filtersKey) (hcount : k ≠ "include_count") :
    ((Edit.under k (calls.flatMap edits)).foldl Edit.step
      ((FacetQuery.ofFields fields).params.get? k)).bind Parameter.render? =
      sent fields calls tree k := by
  rw [get?_ofFields]
  by_cases hselect : k = "select"
  · have hnone : Edit.under k (calls.flatMap edits) = [] :=
      Edit.under_flatMap_nil (under_other (hselect ▸ by decide)) calls
    rw [if_pos hselect, hnone, hselect]
    exact Edit.rendered_addToCommaSet "select" fields
  · rw [if_neg hselect]
    change Edit.rendered (Edit.under k (calls.flatMap edits)) = _
    unfold sent
    split
    next =>
      rw [Edit.under_flatMap under_search, Edit.rendered_of_overwriting fun _ _ => rfl]
      exact Option.bind_fun_some _
    next => exact absurd rfl hselect
    next =>
      rw [Edit.under_flatMap under_minCount, Edit.rendered_of_overwriting fun _ _ => rfl]
      cases (calls.flatMap minCounts).getLast? <;> rfl
    next =>
      rw [Edit.under_flatMap under_limit, Edit.rendered_of_overwriting fun _ _ => rfl]
      cases (calls.flatMap maxCounts).getLast? <;> rfl
    next =>
      rw [Edit.under_flatMap under_geo, Edit.rendered_of_overwriting fun _ _ => rfl]
      cases (calls.flatMap circles).getLast? <;> rfl
    next => exact absurd rfl hcount
    next => exact absurd rfl hfilters
    next =>
      have hk : k ∉ ["q", "min_count", "limit", "geo"] := by simp_all
      rw [Edit.under_flatMap_nil (under_other hk)]
      rfl

theorem get?_run {Name : Type} [DecidableEq Name] (fields : Name → List String)
    (calls : List (QueriesCall Name FacetCall)) (name : Name) (k : String) :
    (Builder.run (fun n => FacetQuery.ofFields (fields n)) calls name).requestParams.get? k =
      sent (fields name) (calls.flatMap (·.ownOf name))
        ((calls.flatMap QueriesCall.filterCalls).foldl FilterCall.onTrees (fun _ => ∅) name) k := by
  have hfresh : Builder.Fresh (FacetQuery.ofFields (fields name)) :=
    ⟨get?_ofFields (fields name) filtersKey, get?_ofFields (fields name) "include_count", rfl⟩
  have htrees : Filtered.trees (fun n => FacetQuery.ofFields (fields n)) = fun _ => ∅ := by
    funext n
    have hslot : (FacetQuery.ofFields (fields n)).params.get? filtersKey = none :=
      get?_ofFields (fields n) filtersKey
    change (Parameter.tree? ((FacetQuery.ofFields (fields n)).params.get? filtersKey)).getD ∅ = ∅
    rw [hslot]
    rfl
  refine Builder.get?_requestParams_run (fun n => FacetQuery.ofFields (fields n)) calls name hfresh
    rfl (by rw [htrees]; rfl) ?_ k
  intro k hfilters hcount
  exact rendered_under _ _ _ hfilters hcount

end FacetCall

/-! ## One entity and one place -/

theorem ResolveQuery.params_foldl (values : List (String × Json)) (q : ResolveQuery) :
    (values.foldl (fun q (field, value) => q.add field value) q).params =
      (values.map fun e => Edit.setJsonMember "values" e.1 e.2).foldl Edit.apply q.params := by
  induction values generalizing q with
  | nil => rfl
  | cons e values ih => exact ih (q.add e.1 e.2)

theorem Geopulse.params_foldl (selections : List (List String)) (q : Geopulse) :
    (selections.foldl only q).params =
      (selections.flatMap (·.map (Edit.addToCommaSet "select"))).foldl Edit.apply q.params := by
  induction selections generalizing q with
  | nil => rfl
  | cons fields selections ih =>
    rw [List.foldl_cons, ih, List.flatMap_cons, List.foldl_append, List.foldl_map]
    rfl

/-- Whatever calls are made on queries that were new, each query sends under each key what the calls
on it and the tree of the calls about filters say, and so does each facet query. -/
theorem queries_send_their_record {Name : Type} [DecidableEq Name] :
    (∀ (calls : List (QueriesCall Name QueryCall)) (name : Name) (k : String),
      (Builder.run (fun _ => Query.empty) calls name).requestParams.get? k =
        QueryCall.sent (calls.flatMap (·.ownOf name))
          ((calls.flatMap QueriesCall.filterCalls).foldl FilterCall.onTrees (fun _ => ∅) name) k) ∧
    ∀ (fields : Name → List String) (calls : List (QueriesCall Name FacetCall)) (name : Name)
      (k : String),
      (Builder.run (fun n => FacetQuery.ofFields (fields n)) calls name).requestParams.get? k =
        FacetCall.sent (fields name) (calls.flatMap (·.ownOf name))
          ((calls.flatMap QueriesCall.filterCalls).foldl FilterCall.onTrees (fun _ => ∅) name) k :=
  ⟨QueryCall.get?_run, FacetCall.get?_run⟩

end TableQuery

import TableQuery.Command.Run
import TableQuery.Proofs.Query.Record

/-!
# The query of a command line

The query that arguments describe is one that calls make, so what it sends is known from the calls.
-/

namespace TableQuery

namespace Arguments

/-! ## The calls that make the query -/

def sortCall (s : SortArgument) : QueryCall :=
  if s.descending then .sortDescending s.field else .sortAscending s.field

/-- The calls that come in front of the filters. -/
def setUp (args : Arguments) : List QueryCall :=
  args.search.toList.map .search ++ args.limit.toList.map .limit ++
    args.offset.toList.map .offset ++ [.only args.select] ++ args.sorts.map sortCall ++
    args.within.toList.map .within

def equalityCall (e : EqualityArgument) : FilterCall Unit := .compare () e.field (.equal e.value)

def calls (args : Arguments) : List (QueriesCall Unit QueryCall) :=
  args.setUp.map (.own ()) ++ args.equals.map (fun e => .filter (equalityCall e)) ++
    [.own () (.includeRowCount args.includeCount)]

/-- One predicate for each filter, in their order. -/
def tree (args : Arguments) : Tree :=
  ⟨args.equals.map fun e => .predicate ⟨e.field, .equal, e.value⟩⟩

theorem run_own (qs : Store Unit Query) (cs : List QueryCall) :
    Builder.run qs (cs.map (.own ())) () = cs.foldl QueryCall.apply (qs ()) := by
  induction cs generalizing qs with
  | nil => rfl
  | cons c cs ih =>
    have hstep : Builder.step qs (.own () c) () = c.apply (qs ()) := Store.put_self ..
    exact (ih _).trans (congrArg (cs.foldl QueryCall.apply) hstep)

theorem run_equals (qs : Store Unit Query) (es : List EqualityArgument) :
    Builder.run qs (es.map fun e => .filter (equalityCall e)) () = es.foldl addEquality (qs ()) := by
  induction es generalizing qs with
  | nil => rfl
  | cons e es ih =>
    have hstep : (equalityCall e).onQueries qs () = addEquality (qs ()) e := by
      rw [equalityCall, FilterCall.onQueries, Store.put_self, FieldCall.predicate, addEquality]
    exact (ih _).trans (congrArg (es.foldl addEquality) hstep)

theorem foldl_optional {α : Type} (o : Option α) (made : α → QueryCall) (q : Query) :
    (o.toList.map made).foldl QueryCall.apply q = o.elim q fun a => (made a).apply q := by
  cases o <;> rfl

theorem apply_sortCall (q : Query) (s : SortArgument) : (sortCall s).apply q = addSort q s := by
  unfold sortCall addSort
  split <;> rfl

theorem query_eq_run (args : Arguments) :
    args.query = Builder.run (fun _ => Query.empty) args.calls () := by
  have hlast (qs : Store Unit Query) :
      Builder.run qs [.own () (.includeRowCount args.includeCount)] () =
        (qs ()).includeRowCount args.includeCount :=
    run_own qs [.includeRowCount args.includeCount]
  have hsorts (q : Query) :
      (args.sorts.map sortCall).foldl QueryCall.apply q = args.sorts.foldl addSort q := by
    simp only [List.foldl_map, apply_sortCall]
  rw [calls, Builder.run_append, Builder.run_append, hlast, run_equals, run_own, setUp]
  iterate 5 rw [List.foldl_append]
  rw [foldl_optional, foldl_optional, foldl_optional, foldl_optional, hsorts]
  rfl

/-! ## What the query sends -/

theorem ownOf_calls (args : Arguments) : args.calls.flatMap (·.ownOf ()) =
    args.setUp ++ [.includeRowCount args.includeCount] := by
  simp [calls, List.flatMap_map, QueriesCall.ownOf]

theorem filterCalls_calls (args : Arguments) :
    args.calls.flatMap QueriesCall.filterCalls = args.equals.map equalityCall := by
  have hown : args.setUp.flatMap (fun c => QueriesCall.filterCalls (.own () c)) = [] :=
    List.flatMap_eq_nil_iff.mpr fun _ _ => rfl
  simp only [calls, List.flatMap_append, List.flatMap_map, hown, List.nil_append]
  exact (List.append_nil _).trans List.map_eq_flatMap.symm

theorem foldl_equals (es : List EqualityArgument) (f : Forest Unit) :
    (es.map equalityCall).foldl FilterCall.onTrees f () =
      ⟨(f ()).roots ++ es.map fun e => .predicate ⟨e.field, .equal, e.value⟩⟩ := by
  induction es generalizing f with
  | nil => simp
  | cons e es ih =>
    rw [List.map_cons, List.foldl_cons, ih]
    simp [equalityCall, FilterCall.onTrees, FieldCall.comparison, Tree.add]

theorem foldl_filterCalls (args : Arguments) :
    (args.calls.flatMap QueriesCall.filterCalls).foldl FilterCall.onTrees (fun _ => ∅) () =
      args.tree := by
  rw [filterCalls_calls, foldl_equals]
  rfl

theorem filters_query (args : Arguments) : Filtered.filters args.query = args.tree := by
  rw [query_eq_run, ← foldl_filterCalls]
  exact congrFun (Builder.trees_run (fun _ => Query.empty) args.calls) ()

theorem get?_query (args : Arguments) (k : String) : args.query.requestParams.get? k =
    QueryCall.sent (args.setUp ++ [.includeRowCount args.includeCount]) args.tree k := by
  rw [query_eq_run, ← ownOf_calls, ← foldl_filterCalls]
  exact QueryCall.get?_run args.calls () k

end Arguments

end TableQuery

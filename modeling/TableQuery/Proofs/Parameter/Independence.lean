import TableQuery.Proofs.Parameter.Form

/-!
# Parameters are independent

A call on a bag sees what is under its own name and changes nothing else. So the calls of one name
leave there what they would leave alone, however calls of other names come in between.
-/

namespace TableQuery

theorem Bag.ext_get? {a b : Bag} (h : ∀ k, a.get? k = b.get? k) : a = b :=
  congrArg Bag.mk (Keyed.ext h)

namespace BagCall

def under (k : String) (calls : List BagCall) : List BagCall := calls.filter (·.key = k)

theorem under_under (k : String) (calls : List BagCall) : under k (under k calls) = under k calls :=
  List.filter_eq_self.mpr fun _ hc => (List.mem_filter.mp hc).2

theorem under_under_of_ne {other k : String} (h : other ≠ k) (calls : List BagCall) :
    under other (under k calls) = [] := by
  refine List.filter_eq_nil_iff.mpr fun c hc hother => h ?_
  rw [← of_decide_eq_true hother, of_decide_eq_true (List.mem_filter.mp hc).2]

theorem get?_run (calls : List BagCall) (k : String) :
    (run calls).get? k = (under k calls).foldl step none :=
  Bag.get?_foldl get?_apply ∅ calls k

theorem get?_run_under (calls : List BagCall) (k : String) :
    (run (under k calls)).get? k = (run calls).get? k := by
  rw [get?_run, get?_run, under_under]

theorem get?_run_under_of_ne {other k : String} (h : other ≠ k) (calls : List BagCall) :
    (run (under k calls)).get? other = none := by
  rw [get?_run, under_under_of_ne h]
  rfl

theorem run_congr {first second : List BagCall} (h : ∀ k, under k first = under k second) :
    run first = run second := by
  refine Bag.ext_get? fun k => ?_
  rw [get?_run, get?_run, h]

end BagCall

/-- What calls leave under a name is what the calls of that name leave there when they are made
alone on an empty bag, and these put nothing under another name. So runs that make the same calls of
each name in the same order end in the same bag and send the same, however the names take turns. -/
theorem parameters_are_independent :
    (∀ (calls : List BagCall) (k : String),
      (BagCall.run calls).get? k = (BagCall.run (BagCall.under k calls)).get? k ∧
      ∀ other, other ≠ k → (BagCall.run (BagCall.under k calls)).get? other = none) ∧
    ∀ first second : List BagCall,
      (∀ k, BagCall.under k first = BagCall.under k second) →
      BagCall.run first = BagCall.run second ∧
      (BagCall.run first).requestParams = (BagCall.run second).requestParams := by
  refine ⟨fun calls k => ⟨(BagCall.get?_run_under calls k).symm, ?_⟩, ?_⟩
  · intro other hother
    exact BagCall.get?_run_under_of_ne hother calls
  · intro first second hsame
    have hrun : BagCall.run first = BagCall.run second := BagCall.run_congr hsame
    exact ⟨hrun, congrArg Bag.requestParams hrun⟩

/-- Two names take turns in the one run and come one after the other in the other. Under its name the
tree replaces a text, in both. -/
theorem parameters_are_independent_taking_turns :
    let raw : BagCall := .edit (.setLiteral filtersKey "raw")
    let filter : BagCall := .changeFilters (·.add (.group .or []))
    let name : BagCall := .edit (.addToCommaSet "select" "name")
    let phone : BagCall := .edit (.addToCommaSet "select" "tel")
    "select" ≠ filtersKey ∧
    (BagCall.run (BagCall.under filtersKey [name, raw, phone, filter])).get? "select" = none ∧
    (∀ k, BagCall.under k [name, raw, phone, filter] =
      BagCall.under k [raw, filter, name, phone]) ∧
    BagCall.run [name, raw, phone, filter] = BagCall.run [raw, filter, name, phone] := by
  intro raw filter name phone
  have hother : "select" ≠ filtersKey := by decide
  have hsame : ∀ k, BagCall.under k [name, raw, phone, filter] =
      BagCall.under k [raw, filter, name, phone] := by
    intro k
    by_cases hfilters : filtersKey = k
    · subst hfilters
      rfl
    · by_cases hselect : "select" = k
      · subst hselect
        rfl
      · simp [BagCall.under, raw, filter, name, phone, BagCall.key, hfilters, hselect]
  obtain ⟨hruns, hturns⟩ := parameters_are_independent
  exact ⟨hother, (hruns _ filtersKey).2 "select" hother, hsame, (hturns _ _ hsame).1⟩

end TableQuery

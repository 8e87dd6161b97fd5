import Mathlib.Data.List.Induction
import Mathlib.Data.List.Nodup
import TableQuery.Query.Read

/-!
# Edits of a bag

An edit changes what is under its own key, and only that. So what a run of edits leaves under a key
is known from the edits of that key alone.
-/

namespace TableQuery

/-- When each call changes what is under its own key and only that, what a run leaves under a key is
known from the calls of that key, in their order. -/
theorem Bag.get?_foldl {Call : Type} {apply : Bag → Call → Bag} {key : Call → String}
    {step : Option Parameter → Call → Option Parameter}
    (happly : ∀ b c k, (apply b c).get? k = if k = key c then step (b.get? k) c else b.get? k)
    (b : Bag) (calls : List Call) (k : String) :
    (calls.foldl apply b).get? k = (calls.filter (key · = k)).foldl step (b.get? k) := by
  induction calls generalizing b with
  | nil => rfl
  | cons c calls ih =>
    rw [List.foldl_cons, ih, happly]
    by_cases hk : k = key c
    · rw [if_pos hk, List.filter_cons_of_pos (by simpa using hk.symm), List.foldl_cons]
    · rw [if_neg hk, List.filter_cons_of_neg (by simpa using Ne.symm hk)]

inductive Edit where
  | setLiteral (key text : String)
  | setJson (key : String) (value : Json)
  | addToCommaSet (key value : String)
  | pushToCommaList (key value : String)
  | setJsonMember (key field : String) (value : Json)
  | remove (key : String)

namespace Edit

def key : Edit → String
  | .setLiteral key _ => key
  | .setJson key _ => key
  | .addToCommaSet key _ => key
  | .pushToCommaList key _ => key
  | .setJsonMember key _ _ => key
  | .remove key => key

@[simp] theorem key_setLiteral (key text : String) : (setLiteral key text).key = key := rfl

@[simp] theorem key_setJson (key : String) (value : Json) : (setJson key value).key = key := rfl

@[simp] theorem key_addToCommaSet (key value : String) : (addToCommaSet key value).key = key := rfl

@[simp] theorem key_pushToCommaList (key value : String) :
    (pushToCommaList key value).key = key := rfl

@[simp] theorem key_setJsonMember (key field : String) (value : Json) :
    (setJsonMember key field value).key = key := rfl

@[simp] theorem key_remove (key : String) : (remove key).key = key := rfl

def apply (b : Bag) : Edit → Bag
  | .setLiteral key text => b.setLiteral key text
  | .setJson key value => b.setJson key value
  | .addToCommaSet key value => b.addToCommaSet key value
  | .pushToCommaList key value => b.pushToCommaList key value
  | .setJsonMember key field value => b.setJsonMember key field value
  | .remove key => b.remove key

/-- What the edit makes of the parameter under its key. -/
def step (slot : Option Parameter) : Edit → Option Parameter
  | .setLiteral _ text => some (.literal text)
  | .setJson _ value => some (.json value)
  | .addToCommaSet _ value => some (.addToSet value slot)
  | .pushToCommaList _ value => some (.pushToList value slot)
  | .setJsonMember _ field value => some (.setMember field value slot)
  | .remove _ => none

theorem get?_apply (b : Bag) (e : Edit) (k : String) :
    (e.apply b).get? k = if k = e.key then e.step (b.get? k) else b.get? k := by
  cases e with
  | setLiteral key text => exact b.get?_set key k _
  | setJson key value => exact b.get?_set key k _
  | addToCommaSet key value =>
    refine (b.get?_set key k _).trans ?_
    by_cases hk : k = key <;> simp [step, hk]
  | pushToCommaList key value =>
    refine (b.get?_set key k _).trans ?_
    by_cases hk : k = key <;> simp [step, hk]
  | setJsonMember key field value =>
    refine (b.get?_set key k _).trans ?_
    by_cases hk : k = key <;> simp [step, hk]
  | remove key => exact b.params.get?_erase key k

def under (k : String) (edits : List Edit) : List Edit := edits.filter (·.key = k)

@[simp] theorem under_nil (k : String) : under k [] = [] := rfl

@[simp] theorem under_cons (k : String) (e : Edit) (edits : List Edit) :
    under k (e :: edits) = if e.key = k then e :: under k edits else under k edits := by
  unfold under
  by_cases hk : e.key = k <;> simp [hk]

theorem under_append (k : String) (first second : List Edit) :
    under k (first ++ second) = under k first ++ under k second := List.filter_append ..

theorem under_map {α : Type} {made : α → Edit} {key : String} (h : ∀ a, (made a).key = key)
    (k : String) (as : List α) : under k (as.map made) = if key = k then as.map made else [] := by
  induction as with
  | nil => simp
  | cons a as ih =>
    rw [List.map_cons, under_cons, ih, h]
    by_cases hk : key = k <;> simp [hk]

@[simp] theorem under_addToCommaSet (k key : String) (values : List String) :
    under k (values.map (addToCommaSet key)) =
      if key = k then values.map (addToCommaSet key) else [] :=
  under_map (key_addToCommaSet key) k values

theorem get?_applyAll (b : Bag) (edits : List Edit) (k : String) :
    (edits.foldl apply b).get? k = (under k edits).foldl step (b.get? k) :=
  Bag.get?_foldl get?_apply b edits k

theorem under_flatMap {α β : Type} {edits : α → List Edit} {k : String} {parts : α → List β}
    {made : β → Edit} (h : ∀ a, under k (edits a) = (parts a).map made) (as : List α) :
    under k (as.flatMap edits) = (as.flatMap parts).map made := by
  induction as with
  | nil => rfl
  | cons a as ih =>
    rw [List.flatMap_cons, under_append, h, ih, List.flatMap_cons, List.map_append]

theorem under_flatMap_nil {α : Type} {edits : α → List Edit} {k : String}
    (h : ∀ a, under k (edits a) = []) (as : List α) : under k (as.flatMap edits) = [] := by
  induction as with
  | nil => rfl
  | cons a as ih =>
    rw [List.flatMap_cons, under_append, h, ih, List.append_nil]

/-! ## What edits of one key leave there -/

theorem eraseDups_concat (values : List String) (value : String) :
    (values ++ [value]).eraseDups =
      if values.eraseDups.contains value then values.eraseDups
      else values.eraseDups ++ [value] := by
  rw [List.eraseDups_append]
  by_cases hmem : value ∈ values
  · simp [List.removeAll, hmem, List.mem_eraseDups]
  · simp [List.removeAll, hmem, List.mem_eraseDups, List.eraseDups_cons]

theorem nodup_eraseDups (values : List String) : values.eraseDups.Nodup := by
  induction values using List.reverseRecOn with
  | nil => exact List.nodup_nil
  | append_singleton values value ih =>
    rw [eraseDups_concat]
    by_cases hmem : value ∈ values.eraseDups
    · rwa [if_pos (List.contains_iff_mem.mpr hmem)]
    · rw [if_neg (mt List.contains_iff_mem.mp hmem), ← List.concat_eq_append]
      exact List.Nodup.concat hmem ih

theorem foldl_step_addToCommaSet (key : String) (values : List String) :
    (values.map (addToCommaSet key)).foldl step none =
      if values.isEmpty then none else some (.commaSet values.eraseDups) := by
  induction values using List.reverseRecOn with
  | nil => rfl
  | append_singleton values value ih =>
    rw [List.map_append, List.foldl_append, ih, eraseDups_concat]
    cases values with
    | nil => rfl
    | cons first values => rfl

theorem foldl_step_pushToCommaList (key : String) (values : List String) :
    (values.map (pushToCommaList key)).foldl step none =
      if values.isEmpty then none else some (.commaList values) := by
  induction values using List.reverseRecOn with
  | nil => rfl
  | append_singleton values value ih =>
    rw [List.map_append, List.foldl_append, ih]
    cases values <;> rfl

theorem foldl_step_setJsonMember (key : String) (writes : List (String × Json)) :
    (writes.map fun w => setJsonMember key w.1 w.2).foldl step none =
      if writes.isEmpty then none else some (.json (.object (Entries.ofList writes))) := by
  induction writes using List.reverseRecOn with
  | nil => rfl
  | append_singleton writes w ih =>
    rw [List.map_append, List.foldl_append, ih, Entries.ofList_concat]
    cases writes <;> rfl

/-! ### As text -/

/-- The values with commas between them; without values nothing is sent. -/
def joined? : List String → Option String
  | [] => none
  | value :: values => some (String.intercalate "," (value :: values))

theorem joined?_of_ne_nil {values : List String} (h : values ≠ []) :
    joined? values = some ((String.singleton ',').intercalate values) := by
  obtain ⟨value, rest, rfl⟩ := List.exists_cons_of_ne_nil h
  rfl

theorem render?_commaSet (values : List String) :
    (Parameter.commaSet values).render? = joined? values := by
  cases values <;> rfl

theorem render?_commaList (values : List String) :
    (Parameter.commaList values).render? = joined? values := by
  cases values <;> rfl

/-- What is sent for a parameter that only edits of its key have made. -/
def rendered (edits : List Edit) : Option String := (edits.foldl step none).bind Parameter.render?

/-- Of edits that do not look at what is there, the last one counts. -/
theorem rendered_of_overwriting {α : Type} {made : α → Edit} {text : α → Option String}
    (h : ∀ a slot, ((made a).step slot).bind Parameter.render? = text a) (xs : List α) :
    rendered (xs.map made) = xs.getLast?.bind text := by
  unfold rendered
  induction xs using List.reverseRecOn with
  | nil => rfl
  | append_singleton xs x ih =>
    rw [List.map_append, List.foldl_append, List.getLast?_concat]
    exact h x _

theorem rendered_addToCommaSet (key : String) (values : List String) :
    rendered (values.map (addToCommaSet key)) = joined? values.eraseDups := by
  rw [rendered, foldl_step_addToCommaSet]
  cases values with
  | nil => rfl
  | cons value values => exact render?_commaSet (value :: values).eraseDups

theorem rendered_pushToCommaList (key : String) (values : List String) :
    rendered (values.map (pushToCommaList key)) = joined? values := by
  rw [rendered, foldl_step_pushToCommaList]
  cases values with
  | nil => rfl
  | cons value values => exact render?_commaList (value :: values)

end Edit

/-! ## What is sent -/

namespace Bag

theorem get?_requestParams (b : Bag) (k : String) :
    b.requestParams.get? k = (b.get? k).bind Parameter.render? :=
  Keyed.get?_filterMap (fun _ => Parameter.render?) b.params k

theorem get?_requestParamsCounting (b : Bag) (countRows : Bool) (k : String) :
    (b.requestParamsCounting countRows).get? k =
      if countRows ∧ k = "include_count" then some "true" else (b.get? k).bind Parameter.render? := by
  unfold requestParamsCounting
  cases countRows with
  | false => exact get?_requestParams b k
  | true =>
    rw [if_pos rfl, requestParamsWith, Keyed.get?_merge, get?_requestParams, get?_requestParams]
    have hextra : ((∅ : Bag).setLiteral "include_count" "true").get? k =
        if k = "include_count" then some (.literal "true") else none := get?_set ..
    rw [hextra]
    by_cases hk : k = "include_count" <;> simp [hk, Parameter.render?]

end Bag

end TableQuery

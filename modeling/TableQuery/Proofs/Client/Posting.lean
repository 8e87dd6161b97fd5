import TableQuery.Client.Basic
import TableQuery.Proofs.Filter.Forest
import TableQuery.Proofs.Query.Values

/-!
# What is posted

A submission is posted with its values and a flag with its problem, each beside the metadata that
comes with it. Metadata never has an entry under the name of the values or of the problem, so neither
side overwrites the other.
-/

namespace TableQuery

/-! ## Metadata -/

inductive MetadataCall where
  | user (name : String)
  | comment (text : String)
  | reference (text : String)
  | debug (dry : Bool)

namespace MetadataCall

def apply (m : Metadata) : MetadataCall → Metadata
  | .user name => m.user name
  | .comment text => m.comment text
  | .reference text => m.reference text
  | .debug dry => m.debug dry

/-- The name under which the call writes, and the text. -/
def write : MetadataCall → String × String
  | .user name => ("user", name)
  | .comment text => ("comment", text)
  | .reference text => ("reference", text)
  | .debug dry => ("debug", if dry then "true" else "false")

def names : List String := ["user", "comment", "reference", "debug"]

theorem name_mem_names (c : MetadataCall) : c.write.1 ∈ names := by
  cases c <;> simp [write, names]

theorem params_apply (m : Metadata) (c : MetadataCall) :
    (c.apply m).params = m.params.setLiteral c.write.1 c.write.2 := by
  cases c <;> rfl

def run (calls : List MetadataCall) : Metadata := calls.foldl apply ∅

theorem get?_run (calls : List MetadataCall) (k : String) :
    (run calls).params.get? k = (lastWrite? k (calls.map write)).map .literal := by
  induction calls using List.reverseRecOn with
  | nil => rfl
  | append_singleton calls c ih =>
    rw [run, List.foldl_concat, ← run, params_apply, Bag.setLiteral, Bag.get?_set, ih,
      List.map_append, List.map_singleton, lastWrite?_concat]
    split <;> rfl

theorem get?_requestParams_run (calls : List MetadataCall) (k : String) :
    (run calls).requestParams.get? k = lastWrite? k (calls.map write) := by
  rw [Metadata.requestParams, Bag.get?_requestParams, get?_run]
  cases lastWrite? k (calls.map write) <;> rfl

theorem mem_names_of_sent {calls : List MetadataCall} {k : String}
    (h : (run calls).requestParams.contains k = true) : k ∈ names := by
  obtain ⟨text, htext⟩ := Option.isSome_iff_exists.mp h
  rw [get?_requestParams_run] at htext
  obtain ⟨c, -, hc⟩ := List.mem_map.mp (mem_of_lastWrite? htext)
  have hname := c.name_mem_names
  rwa [hc] at hname

theorem get?_run_of_not_mem {k : String} (h : k ∉ names) (calls : List MetadataCall) :
    (run calls).requestParams.get? k = none :=
  Option.not_isSome_iff_eq_none.mp fun hsome => h (mem_names_of_sent hsome)

def under (k : String) (calls : List MetadataCall) : List MetadataCall :=
  calls.filter (·.write.1 = k)

theorem lastWrite?_eq_of_under (k : String) (calls : List MetadataCall) :
    lastWrite? k (calls.map write) = ((under k calls).map write).getLast?.map (·.2) := by
  rw [lastWrite?, List.filter_map]
  rfl

theorem requestParams_congr {first second : List MetadataCall}
    (h : ∀ k, under k first = under k second) :
    (run first).requestParams = (run second).requestParams := by
  ext1 k
  rw [get?_requestParams_run, get?_requestParams_run, lastWrite?_eq_of_under,
    lastWrite?_eq_of_under, h]

end MetadataCall

/-! ### Metadata made from metadata -/

/-- A call on the metadata under one name, whose result is put under another name or the same. -/
structure MetadataStep (Name : Type) where
  source : Name
  call : MetadataCall
  target : Name

namespace MetadataStep

variable {Name : Type} [DecidableEq Name]

def step (ms : Store Name Metadata) (s : MetadataStep Name) : Store Name Metadata :=
  ms.put s.target (s.call.apply (ms s.source))

/-- What is under each name after the steps; at first all metadata is empty. -/
def run (steps : List (MetadataStep Name)) : Store Name Metadata := steps.foldl step fun _ => ∅

/-- The calls that have led to what is under each name, in their order. -/
def histories (steps : List (MetadataStep Name)) : Store Name (List MetadataCall) :=
  steps.foldl (fun hs s => hs.put s.target (hs s.source ++ [s.call])) fun _ => []

theorem run_concat (steps : List (MetadataStep Name)) (s : MetadataStep Name) :
    run (steps ++ [s]) = step (run steps) s := List.foldl_concat ..

theorem histories_concat (steps : List (MetadataStep Name)) (s : MetadataStep Name) :
    histories (steps ++ [s]) =
      (histories steps).put s.target (histories steps s.source ++ [s.call]) := List.foldl_concat ..

/-- Metadata is known from its own history, whatever else was made from the same metadata. -/
theorem run_eq (steps : List (MetadataStep Name)) (name : Name) :
    run steps name = MetadataCall.run (histories steps name) := by
  induction steps using List.reverseRecOn generalizing name with
  | nil => rfl
  | append_singleton steps s ih =>
    rw [run_concat, histories_concat, step]
    by_cases hname : name = s.target
    · subst hname
      rw [Store.put_self, Store.put_self, ih, MetadataCall.run, MetadataCall.run, List.foldl_concat]
    · rw [Store.put_of_ne _ _ hname, Store.put_of_ne _ _ hname, ih]

end MetadataStep

/-! ## Submissions -/

namespace SubmitCall

theorem get?_requestParams_run_of_ne {k : String} (hk : k ≠ "values") (given : List (String × Json))
    (calls : List SubmitCall) : (run given calls).requestParams.get? k = none := by
  rw [Submit.requestParams, params_run]
  obtain ⟨hnothing, hsomething⟩ := sendsLastWrites (given ++ calls.map write)
  by_cases hwrites : given ++ calls.map write = []
  · rw [hnothing hwrites]
    rfl
  · obtain ⟨text, hsent, -⟩ := hsomething hwrites
    rw [hsent, Keyed.get?_insert, if_neg hk]
    rfl

/-- Values are sent when a field was touched, and nothing else ever is. -/
theorem contains_run_iff (given : List (String × Json)) (calls : List SubmitCall) (k : String) :
    (run given calls).requestParams.contains k = true ↔
      k = "values" ∧ given ++ calls.map write ≠ [] := by
  by_cases hk : k = "values"
  · subst hk
    rw [Submit.requestParams, params_run]
    obtain ⟨hnothing, hsomething⟩ := sendsLastWrites (given ++ calls.map write)
    by_cases hwrites : given ++ calls.map write = []
    · rw [hnothing hwrites]
      exact iff_of_false Bool.false_ne_true fun h => h.2 hwrites
    · obtain ⟨text, hsent, -⟩ := hsomething hwrites
      rw [hsent, Keyed.contains, Keyed.get?_insert, if_pos rfl]
      exact iff_of_true rfl ⟨rfl, hwrites⟩
  · rw [Keyed.contains, get?_requestParams_run_of_ne hk]
    exact iff_of_false Bool.false_ne_true fun h => hk h.1

theorem requestParams_congr {given given' : List (String × Json)} {calls calls' : List SubmitCall}
    (h : ∀ field, (given ++ calls.map write).filter (·.1 = field) =
      (given' ++ calls'.map write).filter (·.1 = field)) :
    (run given calls).requestParams = (run given' calls').requestParams := by
  rw [Submit.requestParams, Submit.requestParams, params_run, params_run]
  refine Bag.requestParams_ofWrites_congr fun field => ?_
  rw [lastWrite?, lastWrite?, h]

end SubmitCall

/-! ## What is posted -/

/-- The entries of both maps and no others, each with the text that it has there. No name is in
both. -/
structure Unites (first second posted : RequestParams) : Prop where
  apart : ∀ k, first.get? k = none ∨ second.get? k = none
  entries : ∀ k text,
    posted.get? k = some text ↔ first.get? k = some text ∨ second.get? k = some text

theorem unites_merge {first second : RequestParams}
    (h : ∀ k, first.get? k = none ∨ second.get? k = none) :
    Unites first second (first.merge second) := by
  refine ⟨h, fun k text => ?_⟩
  rw [Keyed.get?_merge]
  rcases h k with hnone | hnone <;> simp [hnone]

theorem insert_eq_merge (params : RequestParams) (key text : String) :
    params.insert key text = params.merge ((∅ : RequestParams).insert key text) := by
  ext1 k
  rw [Keyed.get?_merge, Keyed.get?_insert, Keyed.get?_insert, Keyed.get?_empty]
  by_cases hk : k = key <;> simp [hk]

variable {Name : Type} [DecidableEq Name]

theorem unites_submission (given : List (String × Json)) (calls : List SubmitCall)
    (steps : List (MetadataStep Name)) (name : Name) :
    Unites (MetadataStep.run steps name).requestParams (SubmitCall.run given calls).requestParams
      ((MetadataStep.run steps name).requestParams.merge
        (SubmitCall.run given calls).requestParams) := by
  refine unites_merge fun k => ?_
  by_cases hk : k = "values"
  · rw [MetadataStep.run_eq]
    exact .inl (MetadataCall.get?_run_of_not_mem (hk ▸ by decide) _)
  · exact .inr (SubmitCall.get?_requestParams_run_of_ne hk given calls)

theorem unites_flag (problem : Problem) (steps : List (MetadataStep Name)) (name : Name) :
    Unites (MetadataStep.run steps name).requestParams
      ((∅ : RequestParams).insert "problem" problem.token)
      ((MetadataStep.run steps name).requestParams.insert "problem" problem.token) := by
  rw [insert_eq_merge]
  refine unites_merge fun k => ?_
  by_cases hk : k = "problem"
  · rw [MetadataStep.run_eq]
    exact .inl (MetadataCall.get?_run_of_not_mem (hk ▸ by decide) _)
  · exact .inr ((Keyed.get?_insert ..).trans (if_neg hk))

/-- A submission posts its metadata and its values, and a flag its metadata and its problem, each
entry with the text that it has on its own. Metadata has under each of its names what was set last on
the way to it, and values are there when a field was touched. Calls under different names may change
places. -/
theorem posts_unite_metadata_and_payload :
    (∀ (steps : List (MetadataStep Name)) (name : Name) (k : String),
      let sent := (MetadataStep.run steps name).requestParams
      sent.get? k = lastWrite? k ((MetadataStep.histories steps name).map MetadataCall.write) ∧
      (sent.contains k = true → k ∈ MetadataCall.names)) ∧
    (∀ (given : List (String × Json)) (calls : List SubmitCall) (k : String),
      (SubmitCall.run given calls).requestParams.contains k = true ↔
        k = "values" ∧ given ++ calls.map SubmitCall.write ≠ []) ∧
    (∀ (transport : Transport) (c : Client) (table id : String) (given : List (String × Json))
      (calls : List SubmitCall) (steps : List (MetadataStep Name)) (name : Name),
      let s := SubmitCall.run given calls
      let m := MetadataStep.run steps name
      ∃ posted, Unites m.requestParams s.requestParams posted ∧
        (c.submit transport table s m).2.calls =
          c.calls ++ [⟨.post, Client.submitPath table, posted⟩] ∧
        (c.submitTo transport table id s m).2.calls =
          c.calls ++ [⟨.post, Client.submitToPath table id, posted⟩]) ∧
    (∀ (transport : Transport) (c : Client) (table id : String) (problem : Problem)
      (steps : List (MetadataStep Name)) (name : Name),
      let m := MetadataStep.run steps name
      ∃ posted, Unites m.requestParams ((∅ : RequestParams).insert "problem" problem.token) posted ∧
        (c.flag transport table id problem m).2.calls =
          c.calls ++ [⟨.post, Client.flagPath table id, posted⟩]) ∧
    ∀ (transport : Transport) (c : Client) (table id : String) (problem : Problem)
      (given given' : List (String × Json)) (calls calls' : List SubmitCall)
      (steps steps' : List (MetadataStep Name)) (name name' : Name),
      (∀ field, (given ++ calls.map SubmitCall.write).filter (·.1 = field) =
        (given' ++ calls'.map SubmitCall.write).filter (·.1 = field)) →
      (∀ k, MetadataCall.under k (MetadataStep.histories steps name) =
        MetadataCall.under k (MetadataStep.histories steps' name')) →
      let s := SubmitCall.run given calls
      let s' := SubmitCall.run given' calls'
      let m := MetadataStep.run steps name
      let m' := MetadataStep.run steps' name'
      (c.submit transport table s m).2.calls = (c.submit transport table s' m').2.calls ∧
      (c.submitTo transport table id s m).2.calls = (c.submitTo transport table id s' m').2.calls ∧
      (c.flag transport table id problem m).2.calls =
        (c.flag transport table id problem m').2.calls := by
  refine ⟨fun steps name k => ?_, SubmitCall.contains_run_iff, ?_, ?_, ?_⟩
  · rw [MetadataStep.run_eq]
    exact ⟨MetadataCall.get?_requestParams_run _ k, MetadataCall.mem_names_of_sent⟩
  · intro transport c table id given calls steps name
    exact ⟨_, unites_submission given calls steps name, rfl, rfl⟩
  · intro transport c table id problem steps name
    exact ⟨_, unites_flag problem steps name, rfl⟩
  · intro transport c table id problem given given' calls calls' steps steps' name name' hvalues
      hsetters s s' m m'
    have hsubmit : s.requestParams = s'.requestParams := SubmitCall.requestParams_congr hvalues
    have hmetadata : m.requestParams = m'.requestParams := by
      have hcongr := MetadataCall.requestParams_congr hsetters
      rwa [← MetadataStep.run_eq, ← MetadataStep.run_eq] at hcongr
    have hposted : m.requestParams.merge s.requestParams =
        m'.requestParams.merge s'.requestParams := by rw [hsubmit, hmetadata]
    have hflag : m.requestParams.insert "problem" problem.token =
        m'.requestParams.insert "problem" problem.token := by rw [hmetadata]
    refine ⟨?_, ?_, ?_⟩
    · exact congrArg (fun posted => c.calls ++ [⟨.post, Client.submitPath table, posted⟩]) hposted
    · exact congrArg (fun posted => c.calls ++ [⟨.post, Client.submitToPath table id, posted⟩]) hposted
    · exact congrArg (fun posted => c.calls ++ [⟨.post, Client.flagPath table id, posted⟩]) hflag

/-- Two users come from one base. The second also asks for a dry run, after the user is set or before
any is. Its field is given to the one submission and set in the other. -/
theorem posts_unite_metadata_and_payload_shared_base :
    let transport := Transport.canned ∅
    let c := Client.new default
    let steps : List (MetadataStep Nat) :=
      [⟨0, .user "alice", 1⟩, ⟨1, .comment "closed", 2⟩, ⟨1, .user "bob", 3⟩, ⟨3, .debug true, 3⟩]
    let steps' : List (MetadataStep Nat) :=
      [⟨0, .debug true, 1⟩, ⟨1, .user "alice", 1⟩, ⟨1, .user "bob", 5⟩]
    let name : String × Json := ("name", .string "Cafe")
    let clear : SubmitCall := .removeValue "tel"
    (∀ field, ([name] ++ [clear].map SubmitCall.write).filter (·.1 = field) =
      ([] ++ [clear, .setValue name.1 name.2].map SubmitCall.write).filter (·.1 = field)) ∧
    (∀ k, MetadataCall.under k (MetadataStep.histories steps 3) =
      MetadataCall.under k (MetadataStep.histories steps' 5)) ∧
    (MetadataStep.run steps 2).requestParams.get? "user" = some "alice" ∧
    (MetadataStep.run steps 3).requestParams.get? "user" = some "bob" ∧
    (MetadataStep.run steps 3).requestParams.get? "comment" = none ∧
    (c.submit transport "places" (SubmitCall.run [name] [clear])
        (MetadataStep.run steps 3)).2.calls =
      (c.submit transport "places" (SubmitCall.run [] [clear, .setValue name.1 name.2])
        (MetadataStep.run steps' 5)).2.calls := by
  intro transport c steps steps' name clear
  have hvalues : ∀ field, ([name] ++ [clear].map SubmitCall.write).filter (·.1 = field) =
      ([] ++ [clear, .setValue name.1 name.2].map SubmitCall.write).filter (·.1 = field) := by
    intro field
    by_cases hname : "name" = field
    · subst hname
      rfl
    · simp [name, clear, SubmitCall.write, List.filter_cons, hname]
  have hsetters : ∀ k, MetadataCall.under k (MetadataStep.histories steps 3) =
      MetadataCall.under k (MetadataStep.histories steps' 5) := by
    intro k
    change MetadataCall.under k [.user "alice", .user "bob", .debug true] =
      MetadataCall.under k [.debug true, .user "alice", .user "bob"]
    by_cases huser : "user" = k
    · subst huser
      rfl
    · simp [MetadataCall.under, MetadataCall.write, List.filter_cons, huser]
  obtain ⟨hsent, -, -, -, hswap⟩ := @posts_unite_metadata_and_payload Nat inferInstance
  refine ⟨hvalues, hsetters, (hsent steps 2 "user").1, (hsent steps 3 "user").1,
    (hsent steps 3 "comment").1, ?_⟩
  exact (hswap transport c "places" "" .other _ _ _ _ steps steps' 3 5 hvalues hsetters).1

end TableQuery

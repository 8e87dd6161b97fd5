import TableQuery.Proofs.Client.Delivery
import TableQuery.Text.Cut

/-!
# Where the calls of a client go

The method and the path of a call tell what is asked of the server, and of which table and row. Two
things blur this: a name with a slash in it, and the table `resolve`, which is read at the path
where a record is resolved against the table `t`.
-/

namespace TableQuery

/-! ## What is asked -/

/-- What a call asks for, without what it carries. -/
inductive Endpoint where
  | fetch (table : String)
  | facets (table : String)
  | resolve (table : String)
  | schema (table : String)
  | geocode
  | geopulse
  | monetize
  | submit (table : String)
  | submitTo (table id : String)
  | flag (table id : String)
  | batch
  deriving DecidableEq

namespace Endpoint

def names : Endpoint → List String
  | .fetch table => [table]
  | .facets table => [table]
  | .resolve table => [table]
  | .schema table => [table]
  | .submit table => [table]
  | .submitTo table id => [table, id]
  | .flag table id => [table, id]
  | _ => []

def method : Endpoint → Method
  | .submit _ => .post
  | .submitTo _ _ => .post
  | .flag _ _ => .post
  | _ => .get

/-- What stands between the slashes of the path. -/
def segments : Endpoint → List String
  | .fetch table => ["t", table]
  | .facets table => ["t", table, "facets"]
  | .resolve table => [table, "resolve"]
  | .schema table => ["t", table, "schema"]
  | .geocode => ["places", "geocode"]
  | .geopulse => ["places", "geopulse"]
  | .monetize => ["places", "monetize"]
  | .submit table => ["t", table, "submit"]
  | .submitTo table id => ["t", table, id, "submit"]
  | .flag table id => ["t", table, id, "flag"]
  | .batch => ["multi"]

def path (e : Endpoint) : String := (String.singleton '/').intercalate e.segments

/-- Reading the one table and resolving against the other go to the same place. -/
def Blurred (a b : Endpoint) : Prop :=
  a = .fetch "resolve" ∧ b = .resolve "t" ∨ a = .resolve "t" ∧ b = .fetch "resolve"

theorem segments_ne_nil (e : Endpoint) : e.segments ≠ [] := by
  cases e <;> exact List.cons_ne_nil _ _

theorem not_mem_segments {e : Endpoint} (h : ∀ name ∈ e.names, '/' ∉ name.toList) :
    ∀ segment ∈ e.segments, '/' ∉ segment.toList := by
  cases e <;> simp_all [segments, names]

theorem pieces_path {e : Endpoint} (h : ∀ name ∈ e.names, '/' ∉ name.toList) :
    Text.pieces '/' e.path = e.segments :=
  Text.pieces_intercalate e.segments_ne_nil (not_mem_segments h)

theorem eq_or_blurred_of_segments {a b : Endpoint} (hmethod : a.method = b.method)
    (hsegments : a.segments = b.segments) : a = b ∨ Blurred a b := by
  cases a <;> cases b <;> simp_all [method, segments, Blurred]

theorem Blurred.method_eq {a b : Endpoint} (h : Blurred a b) : a.method = b.method := by
  rcases h with ⟨rfl, rfl⟩ | ⟨rfl, rfl⟩ <;> rfl

theorem Blurred.path_eq {a b : Endpoint} (h : Blurred a b) : a.path = b.path := by
  rcases h with ⟨rfl, rfl⟩ | ⟨rfl, rfl⟩ <;> rfl

/-- Apart from slashes, the method and the path are shared by the blurred pair only. -/
theorem same_route_iff {a b : Endpoint}
    (h : ∀ name ∈ a.names ++ b.names, '/' ∉ name.toList) :
    a.method = b.method ∧ a.path = b.path ↔ a = b ∨ Blurred a b := by
  obtain ⟨ha, hb⟩ := List.forall_mem_append.mp h
  constructor
  · rintro ⟨hmethod, hpath⟩
    refine eq_or_blurred_of_segments hmethod ?_
    rw [← pieces_path ha, hpath, pieces_path hb]
  · rintro (rfl | hblurred)
    · exact ⟨rfl, rfl⟩
    · exact ⟨hblurred.method_eq, hblurred.path_eq⟩

end Endpoint

/-- A slash in a name may stand for one between segments. -/
example : (Endpoint.fetch "places/facets").path = (Endpoint.facets "places").path := by
  decide +kernel

structure Call.GoesTo (call : Call) (e : Endpoint) : Prop where
  method : call.method = e.method
  path : call.path = e.path

/-! ## Actions of a client -/

/-- What a client does at an endpoint, with all that it is given for it. -/
inductive Action where
  | fetch (table : String) (q : Query)
  | facets (table : String) (q : FacetQuery)
  | resolve (table : String) (q : ResolveQuery)
  /-- Resolves against the table of places and keeps the best match. -/
  | bestMatch (q : ResolveQuery)
  | schema (table : String)
  | geocode (point : Point)
  | geopulse (q : Geopulse)
  | monetize (q : Query)
  | submit (table : String) (s : Submit) (m : Metadata)
  | submitTo (table id : String) (s : Submit) (m : Metadata)
  | flag (table id : String) (problem : Problem) (m : Metadata)
  | sendBatch

namespace Action

def operation : Action → Operation
  | .fetch table q => .request (.lookup (.fetch table q))
  | .facets table q => .request (.lookup (.facets table q))
  | .resolve table q => .request (.lookup (.resolve table q))
  | .bestMatch q => .request (.resolve q)
  | .schema table => .request (.lookup (.schema table))
  | .geocode point => .request (.lookup (.geocode point))
  | .geopulse q => .request (.lookup (.geopulse q))
  | .monetize q => .request (.lookup (.monetize q))
  | .submit table s m => .request (.submit table s m)
  | .submitTo table id s m => .request (.submitTo table id s m)
  | .flag table id problem m => .request (.flag table id problem m)
  | .sendBatch => .send

def endpoint : Action → Endpoint
  | .fetch table _ => .fetch table
  | .facets table _ => .facets table
  | .resolve table _ => .resolve table
  | .bestMatch _ => .resolve "places"
  | .schema table => .schema table
  | .geocode _ => .geocode
  | .geopulse _ => .geopulse
  | .monetize _ => .monetize
  | .submit table _ _ => .submit table
  | .submitTo table id _ _ => .submitTo table id
  | .flag table id _ _ => .flag table id
  | .sendBatch => .batch

def Makes (transport : Transport) (c : Client) (a : Action) (call : Call) : Prop :=
  (a.operation.run transport c).2.calls = c.calls ++ [call]

theorem goesTo_of_request {a : Action} {r : Request} (h : a.operation = .request r) :
    r.call.GoesTo a.endpoint := by
  cases a <;> cases h <;> refine ⟨rfl, String.toList_injective ?_⟩ <;>
    simp [Request.call, endpoint, Endpoint.path, Endpoint.segments, Lookup.fetch, Lookup.facets,
      Lookup.resolve, Lookup.schema, Lookup.geocode, Lookup.geopulse, Lookup.monetize,
      Client.submitPath, Client.submitToPath, Client.flagPath]

/-- A batch reaches the transport only if something is queued. -/
theorem carries_of_makes {transport : Transport} {c : Client} {call : Call}
    (h : Makes transport c .sendBatch call) : call.Carries c.queue.pending := by
  obtain ⟨-, hempty, hpending⟩ := Event.proper_of transport c .send
  by_cases hnil : c.queue.pending = []
  · have hnone := (hempty hnil).1.symm.trans h
    simp [Event.of] at hnone
  · obtain ⟨sent, hcarries, hcalls, -⟩ := hpending hnil
    cases List.append_cancel_left (hcalls.symm.trans h)
    exact hcarries

theorem goesTo_of_makes {transport : Transport} {c : Client} {a : Action} {call : Call}
    (h : a.Makes transport c call) : call.GoesTo a.endpoint := by
  cases hoperation : a.operation with
  | queue l => cases a <;> cases hoperation
  | request r =>
    have hcalls : c.calls ++ [r.call] = c.calls ++ [call] := by
      rw [← h, hoperation]
      exact (Event.proper_of transport c (.request r)).1.symm
    cases List.append_cancel_left hcalls
    exact goesTo_of_request hoperation
  | send =>
    cases a <;> cases hoperation
    have hcarries := carries_of_makes h
    exact ⟨hcarries.method, hcarries.path⟩

end Action

/-- Two calls with one method and one path ask for the same of the same table and row, if no name
holds a slash and the two are not the blurred pair. -/
theorem routes_are_unambiguous {transport₁ transport₂ : Transport} {c₁ c₂ : Client}
    {a₁ a₂ : Action} {call₁ call₂ : Call} (h₁ : a₁.Makes transport₁ c₁ call₁)
    (h₂ : a₂.Makes transport₂ c₂ call₂) :
    (call₁.method = call₂.method ∧ call₁.path = call₂.path →
      a₁.endpoint = a₂.endpoint ∨
      (∃ name ∈ a₁.endpoint.names ++ a₂.endpoint.names, '/' ∈ name.toList) ∨
      Endpoint.Blurred a₁.endpoint a₂.endpoint) ∧
    (a₁.endpoint = a₂.endpoint ∨ Endpoint.Blurred a₁.endpoint a₂.endpoint →
      call₁.method = call₂.method ∧ call₁.path = call₂.path) := by
  have hgoes₁ := Action.goesTo_of_makes h₁
  have hgoes₂ := Action.goesTo_of_makes h₂
  rw [hgoes₁.method, hgoes₂.method, hgoes₁.path, hgoes₂.path]
  constructor
  · intro hroute
    by_cases hslash : ∃ name ∈ a₁.endpoint.names ++ a₂.endpoint.names, '/' ∈ name.toList
    · exact .inr (.inl hslash)
    · have hnames : ∀ name ∈ a₁.endpoint.names ++ a₂.endpoint.names, '/' ∉ name.toList :=
        fun name hmem hin => hslash ⟨name, hmem, hin⟩
      exact ((Endpoint.same_route_iff hnames).mp hroute).imp_right .inr
  · rintro (heq | hblurred)
    · exact ⟨congrArg _ heq, congrArg _ heq⟩
    · exact ⟨hblurred.method_eq, hblurred.path_eq⟩

/-- Two clients make the same call, and no name holds a slash: only the blurred pair does this. -/
theorem routes_are_unambiguous_but_for_resolve :
    Action.Makes (.canned ∅) (.new {}) (.fetch "resolve" ∅) ⟨.get, "t/resolve", ∅⟩ ∧
    Action.Makes (.canned ∅) (.new {}) (.resolve "t" ∅) ⟨.get, "t/resolve", ∅⟩ ∧
    Endpoint.Blurred (Action.fetch "resolve" ∅).endpoint (Action.resolve "t" ∅).endpoint := by
  have hread : Action.Makes (.canned ∅) (.new {}) (.fetch "resolve" ∅)
      ⟨.get, "t/resolve", ∅⟩ := rfl
  have hresolve : Action.Makes (.canned ∅) (.new {}) (.resolve "t" ∅)
      ⟨.get, "t/resolve", ∅⟩ := rfl
  refine ⟨hread, hresolve, ?_⟩
  rcases (routes_are_unambiguous hread hresolve).1 ⟨rfl, rfl⟩ with heq | hslash | hblurred
  · cases heq
  · simp [Action.endpoint, Endpoint.names] at hslash
  · exact hblurred

end TableQuery

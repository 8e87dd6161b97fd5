import TableQuery.Proofs.Client.Delivery
import TableQuery.Proofs.Client.WireForm
import TableQuery.Proofs.Response.Batch

/-!
# Reads agree, whether they are sent alone or in a batch

A read that is queued is the call that would be made at once, with the same reader for its answer.
An object under the key of the read in a batch is therefore read as it would be if it came alone.
-/

namespace TableQuery

/-- A read that can be sent alone or wait in a queue. -/
inductive Reading where
  | fetch (table : String) (q : Query)
  | facets (table : String) (q : FacetQuery)
  | resolve (table : String) (q : ResolveQuery)
  | schema (table : String)
  | geocode (point : Point)
  | geopulse (q : Geopulse)

namespace Reading

def lookup : Reading → Lookup
  | .fetch table q => .fetch table q
  | .facets table q => .facets table q
  | .resolve table q => .resolve table q
  | .schema table => .schema table
  | .geocode point => .geocode point
  | .geopulse q => .geopulse q

def enqueue (c : Client) (r : Reading) : Client := c.enqueue r.lookup

def send (transport : Transport) (c : Client) (r : Reading) :
    Except ClientError AnyResponse × Client := c.lookup transport r.lookup

def path : Reading → String
  | .fetch table _ => "t/" ++ table
  | .facets table _ => "t/" ++ table ++ "/facets"
  | .resolve table _ => table ++ "/resolve"
  | .schema table => "t/" ++ table ++ "/schema"
  | .geocode _ => "places/geocode"
  | .geopulse _ => "places/geopulse"

def params : Reading → RequestParams
  | .fetch _ q => q.requestParams
  | .facets _ q => q.requestParams
  | .resolve _ q => q.requestParams
  | .schema _ => ∅
  | .geocode point => (Geocode.mk point).requestParams
  | .geopulse q => q.requestParams

def kind : Reading → ResponseKind
  | .fetch _ _ => .read
  | .facets _ _ => .facet
  | .resolve _ _ => .read
  | .schema _ => .schema
  | .geocode _ => .read
  | .geopulse _ => .read

def call (r : Reading) : Call := ⟨.get, r.path, r.params⟩

theorem lookup_eq (r : Reading) : r.lookup = ⟨r.path, r.params, r.kind⟩ := by
  cases r <;> rfl

theorem send_eq (transport : Transport) (c : Client) (r : Reading) :
    r.send transport c = ((transport c.calls r.call).bind (Request.readAs r.kind),
      { c with calls := c.calls ++ [r.call] }) := by
  unfold send Client.lookup
  rw [lookup_eq]
  rfl

end Reading

/-- Alone, the reading gives a response for a text of the object under the key. -/
def Reading.SucceedsOn (r : Reading) (root : Members) (key : String) : Prop :=
  ∃ members, Entries.get? key root = some (.object members) ∧
    ∃ (other : Transport) (d : Client) (text : String) (response : AnyResponse),
      Json.parse text = .ok (.object members) ∧ other d.calls r.call = .ok text ∧
      (r.send other d).1 = .ok response

/-- The readings wait in the queue of the client, and the transport answers them with a body that
holds the object. -/
structure BatchAnswered (transport : Transport) (c : Client) (rs : List Reading) (body : String)
    (root : Members) : Prop where
  queued : c.queue.pending = rs.map Reading.lookup
  answered : transport c.calls (batchCall (rs.map Reading.lookup)) = .ok body
  read : Json.parse body = .ok (.object root)
  doubles : BatchResponse.ListedReadBack body (Batch.ofLookups (rs.map Reading.lookup)).kinds

namespace BatchAnswered

variable {transport : Transport} {c : Client} {rs : List Reading} {body : String} {root : Members}

theorem getElem?_kinds {i : Nat} (hi : i < rs.length) :
    (Batch.ofLookups (rs.map Reading.lookup)).kinds[i]? = some (Batch.key i, rs[i].kind) := by
  rw [Batch.getElem?_kinds, List.getElem?_map, List.getElem?_eq_getElem hi]
  exact congrArg (fun l : Lookup => some (Batch.key i, l.kind)) rs[i].lookup_eq

theorem sendRequests_eq (h : BatchAnswered transport c rs body root) (hne : rs ≠ []) :
    (c.sendRequests transport).1 = (BatchResponse.parse body
      (Batch.ofLookups (rs.map Reading.lookup)).kinds).mapError .response :=
  sendRequests_of_answered h.queued (by simpa using hne) h.answered

theorem responses_of_sendRequests (h : BatchAnswered transport c rs body root) {i : Nat}
    (hi : i < rs.length) {members : Members}
    (hmembers : Entries.get? (Batch.key i) root = some (.object members)) {b : BatchResponse}
    (hb : (c.sendRequests transport).1 = .ok b) :
    ∃ response, b.responses[i]? = some (Batch.key i, response) ∧
      rs[i].kind.decode (Json.object members).render members = .ok response := by
  have hne : rs ≠ [] := List.ne_nil_of_length_pos (Nat.zero_lt_of_lt hi)
  rw [h.sendRequests_eq hne, mapError_eq_ok_iff] at hb
  obtain ⟨-, root', hroot, hanswers⟩ := (BatchResponse.parse_eq_ok_iff h.doubles).mp hb
  cases h.read.symm.trans hroot
  obtain ⟨⟨key, response⟩, hresponse, hkey, members', hmembers', hdecode⟩ :=
    exists_getElem?_of_forall₂ hanswers (getElem?_kinds hi)
  cases hkey
  cases hmembers.symm.trans hmembers'
  exact ⟨response, hresponse, hdecode⟩

theorem send_of_text {r : Reading} {other : Transport} {d : Client} {text : String}
    {members : Members} (htext : Json.parse text = .ok (.object members))
    (hanswer : other d.calls r.call = .ok text) :
    (r.send other d).1 = ((r.kind.decode (Json.object members).render members).map
      (·.withText text)).mapError .response := by
  rw [Reading.send_eq, hanswer, ← ResponseKind.decode_eq_map, ← ResponseKind.parse_of_object htext]
  rfl

theorem exists_sendRequests (h : BatchAnswered transport c rs body root) (hne : rs ≠ [])
    (halone : ∀ i (hi : i < rs.length), rs[i].SucceedsOn root (Batch.key i)) :
    ∃ b, (c.sendRequests transport).1 = .ok b ∧ b.responses.length = rs.length := by
  have hanswers : ∀ request ∈ (Batch.ofLookups (rs.map Reading.lookup)).kinds,
      ∃ answer, BatchResponse.Answers root request answer := by
    refine Batch.forall_mem_kinds _ fun i hi => ?_
    have hi : i < rs.length := by simpa using hi
    obtain ⟨members, hmembers, other, d, text, response, htext, hanswer, hresponse⟩ := halone i hi
    rw [send_of_text htext hanswer, mapError_eq_ok_iff, map_eq_ok_iff] at hresponse
    obtain ⟨own, hown, -⟩ := hresponse
    rw [List.getElem_map, Reading.lookup_eq]
    exact ⟨(Batch.key i, own), rfl, members, hmembers, hown⟩
  obtain ⟨answers, hforall⟩ := exists_forall₂_iff.mpr hanswers
  have hparse := (BatchResponse.parse_eq_ok_iff h.doubles (b := ⟨body, answers⟩)).mpr
    ⟨rfl, root, h.read, hforall⟩
  refine ⟨⟨body, answers⟩, ?_, ?_⟩
  · rw [h.sendRequests_eq hne, hparse]
    rfl
  · rw [← hforall.length_eq, Batch.length_kinds, List.length_map]

end BatchAnswered

/-- A reading is queued as the call that is made for it when it is sent alone, with the reader that
reads the answer to that call. When a batch of readings is answered with an object that holds an
object for a reading, then the reading gives what it gives alone for a text of that object, except
for the text that is kept; and when alone it fails, the batch fails. When none fails alone, the batch
succeeds. -/
theorem batched_and_direct_reads_agree :
    (∀ (transport : Transport) (c : Client) (r : Reading),
      (r.enqueue c).queue.pending = c.queue.pending ++ [⟨r.path, r.params, r.kind⟩] ∧
      (r.send transport c).2.calls = c.calls ++ [⟨.get, r.path, r.params⟩] ∧
      (r.send transport c).1 = (transport c.calls ⟨.get, r.path, r.params⟩).bind fun text =>
        (r.kind.parse text).mapError .response) ∧
    ∀ (transport : Transport) (c : Client) (rs : List Reading) (body : String) (root : Members),
      BatchAnswered transport c rs body root →
      (∀ (i : Nat) (hi : i < rs.length) (members : Members),
        Entries.get? (Batch.key i) root = some (.object members) →
          Json.parse (Json.object members).render = .ok (.object members) ∧
          ∀ (other : Transport) (d : Client) (text : String),
            Json.parse text = .ok (.object members) → other d.calls rs[i].call = .ok text →
            (∀ b, (c.sendRequests transport).1 = .ok b →
              ∃ response, b.responses[i]? = some (Batch.key i, response) ∧
                (rs[i].send other d).1 = .ok (response.withText text)) ∧
            ∀ e, (rs[i].send other d).1 = .error e →
              ∃ why, (c.sendRequests transport).1 = .error why) ∧
      (rs ≠ [] → (∀ i (hi : i < rs.length), rs[i].SucceedsOn root (Batch.key i)) →
        ∃ b, (c.sendRequests transport).1 = .ok b ∧ b.responses.length = rs.length) := by
  refine ⟨fun transport c r => ⟨?_, ?_, ?_⟩, ?_⟩
  · rw [← r.lookup_eq]
    rfl
  · rw [r.send_eq]
    rfl
  · rw [r.send_eq]
    rfl
  intro transport c rs body root h
  refine ⟨fun i hi members hmembers => ?_, h.exists_sendRequests⟩
  have hlisted : (Batch.key i, rs[i].kind) ∈ (Batch.ofLookups (rs.map Reading.lookup)).kinds :=
    List.mem_of_getElem? (BatchAnswered.getElem?_kinds hi)
  have hdoubles := h.doubles root h.read _ hlisted members hmembers
  refine ⟨BatchResponse.parse_render_member h.read hmembers hdoubles, ?_⟩
  intro other d text htext hanswer
  have hsend := BatchAnswered.send_of_text htext hanswer
  have hbatch : ∀ b, (c.sendRequests transport).1 = .ok b →
      ∃ response, b.responses[i]? = some (Batch.key i, response) ∧
        (rs[i].send other d).1 = .ok (response.withText text) := by
    intro b hb
    obtain ⟨response, hresponse, hdecode⟩ := h.responses_of_sendRequests hi hmembers hb
    rw [hdecode] at hsend
    exact ⟨response, hresponse, hsend⟩
  refine ⟨hbatch, fun e he => ?_⟩
  cases hresult : (c.sendRequests transport).1 with
  | error why => exact ⟨why, rfl⟩
  | ok b =>
    obtain ⟨response, -, hok⟩ := hbatch b hresult
    rw [he] at hok
    cases hok

/-- A search and a count, in a batch and alone: the count has a payload first, then none. -/
theorem batched_and_direct_reads_agree_search_and_count :
    let fetch : Reading := .fetch "places" (((∅ : Query).search "sushi").limit 5)
    let facets : Reading := .facets "places" ((FacetQuery.ofFields ["country"]).search "sushi")
    let envelope : Members := [("status", .string "ok"), ("version", .string "3")]
    let rows : Members :=
      ("response", .object [("data", .array [.object [("name", .string "Maki")]])]) :: envelope
    let counts : Members :=
      ("response", .object [("data", .object [("country", .object [("jp", .count 12)])])]) ::
        envelope
    let answering (members : Members) : Transport := fun _ _ => .ok (Json.object members).render
    let root (second : Members) := [("q0", Json.object rows), ("q1", .object second)]
    let c := [fetch, facets].foldl Reading.enqueue (.new default)
    let read : AnyResponse := .read
      ⟨(Json.object rows).render, ⟨"3", "ok", none, 0⟩, [[("name", .string "Maki")]]⟩
    let facet : AnyResponse := .facet
      ⟨(Json.object counts).render, ⟨"3", "ok", none, 0⟩, .ofList [("country", .ofList [("jp", 12)])]⟩
    (∀ second ∈ [counts, envelope], BatchAnswered (answering (root second)) c [fetch, facets]
      (Json.object (root second)).render (root second)) ∧
    ((fetch.send (answering rows) (.new default)).1 = .ok read ∧
      (facets.send (answering counts) (.new default)).1 = .ok facet ∧
      ∃ b first second, (c.sendRequests (answering (root counts))).1 = .ok b ∧
        b.responses.length = 2 ∧
        b.responses[0]? = some ("q0", first) ∧ first.withText read.text = read ∧
        b.responses[1]? = some ("q1", second) ∧ second.withText facet.text = facet) ∧
    (facets.send (answering envelope) (.new default)).1 =
        .error (.response (.missingField "response")) ∧
      ∃ why, (c.sendRequests (answering (root envelope))).1 = .error why := by
  intro fetch facets envelope rows counts answering root c read facet
  have hdoubles : (Json.object rows).DoublesReadBack := nofun
  have hbatch : ∀ second ∈ [counts, envelope], BatchAnswered (answering (root second)) c
      [fetch, facets] (Json.object (root second)).render (root second) := by
    intro second hsecond
    have hread : Json.parse (Json.object (root second)).render = .ok (.object (root second)) := by
      rcases List.mem_pair.mp hsecond with rfl | rfl <;>
        exact Json.parse_render (by decide) (by decide) nofun
    have hlast : (Json.object second).DoublesReadBack := by
      rcases List.mem_pair.mp hsecond with rfl | rfl <;> exact nofun
    exact ⟨rfl, rfl, hread, BatchResponse.listedReadBack_of_root hread
      (List.forall_mem_cons.mpr ⟨hdoubles, List.forall_mem_singleton.mpr hlast⟩)⟩
  have hrows : Json.parse (Json.object rows).render = .ok (.object rows) :=
    Json.parse_render (by decide) (by decide) nofun
  have hcounts : Json.parse (Json.object counts).render = .ok (.object counts) :=
    Json.parse_render (by decide) (by decide) nofun
  have henvelope : Json.parse (Json.object envelope).render = .ok (.object envelope) :=
    Json.parse_render (by decide) (by decide) nofun
  have hfetch : (fetch.send (answering rows) (.new default)).1 = .ok read := by
    rw [BatchAnswered.send_of_text hrows rfl]
    rfl
  have hfacets : (facets.send (answering counts) (.new default)).1 = .ok facet := by
    rw [BatchAnswered.send_of_text hcounts rfl]
    rfl
  have hfails : (facets.send (answering envelope) (.new default)).1 =
      .error (.response (.missingField "response")) := by
    rw [BatchAnswered.send_of_text henvelope rfl]
    rfl
  obtain ⟨hagree, hsucceeds⟩ := batched_and_direct_reads_agree.2 _ _ _ _ _ (hbatch counts (by simp))
  obtain ⟨b, hb, hlength⟩ := hsucceeds (List.cons_ne_nil _ _) fun i hi =>
    match i, hi with
    | 0, _ => ⟨rows, rfl, answering rows, .new default, _, read, hrows, rfl, hfetch⟩
    | 1, _ => ⟨counts, rfl, answering counts, .new default, _, facet, hcounts, rfl, hfacets⟩
  obtain ⟨first, hfirst, hread⟩ :=
    ((hagree 0 (by decide) rows rfl).2 (answering rows) (.new default) _ hrows rfl).1 b hb
  obtain ⟨second, hsecond, hfacet⟩ :=
    ((hagree 1 (by decide) counts rfl).2 (answering counts) (.new default) _ hcounts rfl).1 b hb
  have hbroken := (batched_and_direct_reads_agree.2 _ _ _ _ _ (hbatch envelope (by simp))).1 1
    (by decide) envelope rfl
  refine ⟨hbatch, ⟨hfetch, hfacets, b, first, second, hb, hlength, hfirst, ?_, hsecond, ?_⟩, hfails,
    (hbroken.2 (answering envelope) (.new default) _ henvelope rfl).2 _ hfails⟩
  · exact Except.ok.inj (hread.symm.trans hfetch)
  · exact Except.ok.inj (hfacet.symm.trans hfacets)

end TableQuery

import TableQuery.Client.Basic
import TableQuery.Proofs.Client.WireForm

/-!
# Delivery of queued lookups

In every run of a client each lookup that was queued is either sent in one batch or still pending,
in the order in which they were queued, however the transport answers. What a batch sends is said of
the text that goes out: a URL for each lookup, under its number.
-/

namespace TableQuery

/-! ## Operations -/

inductive Result where
  | nothing
  | response (r : AnyResponse)
  | row (row : Option Row)
  | body (text : String)
  | batch (b : BatchResponse)

abbrev Outcome := Except ClientError Result

def Outcome.of {α : Type} (result : α → Result) (r : Except ClientError α × Client) :
    Outcome × Client := (r.1.map result, r.2)

/-- What makes a call of its own. -/
inductive Request where
  | lookup (l : Lookup)
  | resolve (q : ResolveQuery)
  | rawGet (path : String) (params : RequestParams)
  | submit (table : String) (s : Submit) (m : Metadata)
  | submitTo (table id : String) (s : Submit) (m : Metadata)
  | flag (table id : String) (problem : Problem) (m : Metadata)

namespace Request

def run (transport : Transport) (c : Client) : Request → Outcome × Client
  | .lookup l => Outcome.of .response (c.lookup transport l)
  | .resolve q => Outcome.of .row (c.resolve transport q)
  | .rawGet path params => Outcome.of .body (c.rawGet transport path params)
  | .submit table s m => Outcome.of .response (c.submit transport table s m)
  | .submitTo table id s m => Outcome.of .response (c.submitTo transport table id s m)
  | .flag table id problem m => Outcome.of .response (c.flag transport table id problem m)

def call : Request → Call
  | .lookup l => ⟨.get, l.path, l.params⟩
  | .resolve q => ⟨.get, "places/resolve", q.requestParams⟩
  | .rawGet path params => ⟨.get, path, params⟩
  | .submit table s m => ⟨.post, Client.submitPath table, m.requestParams.merge s.requestParams⟩
  | .submitTo table id s m =>
    ⟨.post, Client.submitToPath table id, m.requestParams.merge s.requestParams⟩
  | .flag table id problem m =>
    ⟨.post, Client.flagPath table id, m.requestParams.insert "problem" problem.token⟩

def readAs (kind : ResponseKind) (text : String) : Except ClientError AnyResponse :=
  (kind.parse text).mapError .response

def read : Request → String → Outcome
  | .lookup l, text => (readAs l.kind text).map .response
  | .resolve _, text => (readAs .read text).map fun r => .row (r.rows?.bind List.head?)
  | .rawGet _ _, text => .ok (.body text)
  | .submit _ _ _, text => (readAs .submit text).map .response
  | .submitTo _ _ _ _, text => (readAs .submit text).map .response
  | .flag _ _ _ _, text => (readAs .flag text).map .response

theorem of_callFor (transport : Transport) (c : Client) (call : Call) (kind : ResponseKind) :
    Outcome.of .response (c.callFor transport call kind) =
      ((transport c.calls call).bind fun text => (readAs kind text).map .response,
        { c with calls := c.calls ++ [call] }) := by
  unfold Outcome.of Client.callFor Client.call
  cases transport c.calls call <;> rfl

theorem of_resolve (transport : Transport) (c : Client) (q : ResolveQuery) :
    Outcome.of .row (c.resolve transport q) =
      ((transport c.calls (call (.resolve q))).bind (read (.resolve q)),
        { c with calls := c.calls ++ [call (.resolve q)] }) := by
  have hcall : call (.resolve q) =
      ⟨.get, (Lookup.resolve "places" q).path, (Lookup.resolve "places" q).params⟩ := by
    rfl
  rw [hcall]
  unfold Outcome.of Client.resolve Client.lookup Client.callFor Client.call
  refine Prod.ext ?_ rfl
  cases transport c.calls ⟨.get, (Lookup.resolve "places" q).path, _⟩ with
  | error e => rfl
  | ok text =>
    change ((readAs .read text).map _).map _ = (readAs .read text).map _
    cases readAs .read text <;> rfl

theorem of_rawGet (transport : Transport) (c : Client) (path : String) (params : RequestParams) :
    Outcome.of .body (c.rawGet transport path params) =
      ((transport c.calls ⟨.get, path, params⟩).bind fun text => .ok (.body text),
        { c with calls := c.calls ++ [⟨.get, path, params⟩] }) := by
  unfold Outcome.of Client.rawGet Client.call
  cases transport c.calls ⟨.get, path, params⟩ <;> rfl

/-- A request makes its one call; what it gives is an error of the transport or what it reads. -/
theorem run_eq (transport : Transport) (c : Client) (r : Request) :
    r.run transport c =
      ((transport c.calls r.call).bind r.read, { c with calls := c.calls ++ [r.call] }) := by
  cases r with
  | lookup l => exact of_callFor transport c ⟨.get, l.path, l.params⟩ l.kind
  | resolve q => exact of_resolve transport c q
  | rawGet path params => exact of_rawGet transport c path params
  | submit table s m => exact of_callFor transport c (call (.submit table s m)) .submit
  | submitTo table id s m => exact of_callFor transport c (call (.submitTo table id s m)) .submit
  | flag table id problem m => exact of_callFor transport c (call (.flag table id problem m)) .flag

end Request

/-! ## Batches -/

/-- The call gets a batch of the lookups: its one parameter is the text of an object that has the URL
of the lookup at `i` under `qi`, and nothing else. A path without a question mark and parameters with
plain names are read back from the URL. -/
structure Call.Carries (call : Call) (lookups : List Lookup) : Prop where
  method : call.method = .get
  path : call.path = "multi"
  queries : ∃ text members, call.params.entries = [("queries", text)] ∧
    Json.parse text = .ok (.object members) ∧
    (members.map (·.1)).Perm ((List.range lookups.length).map fun i => "q" ++ toString i) ∧
    ∀ i (hi : i < lookups.length), ∃ url,
      Entries.get? ("q" ++ toString i) members = some (.string ("/" ++ url)) ∧
      url = Url.withQuery lookups[i].path lookups[i].params ∧
      ('?' ∉ lookups[i].path.toList → Url.PlainNames lookups[i].params →
        Url.read? url = some (lookups[i].path, lookups[i].params.entries))

/-- The one call in which lookups are sent as a batch. -/
def batchCall (lookups : List Lookup) : Call :=
  ⟨.get, "multi", (Batch.ofLookups lookups).requestParams⟩

theorem carries_batchCall (lookups : List Lookup) : (batchCall lookups).Carries lookups where
  method := rfl
  path := rfl
  queries := by
    refine ⟨(Batch.ofLookups lookups).queries.render, Entries.ofList (Batch.urls lookups), rfl,
      Batch.parse_queries lookups, Batch.keys_perm lookups, fun i hi => ?_⟩
    exact ⟨Url.withQuery lookups[i].path lookups[i].params, Batch.get?_urls lookups hi, rfl,
      Url.read?_withQuery⟩

/-- The response under `qi` is that of the lookup at `i`, and of its kind. -/
def readResponses (lookups : List Lookup) (text : String) : Except ClientError BatchResponse :=
  (BatchResponse.parse text (lookups.mapIdx fun i l => ("q" ++ toString i, l.kind))).mapError
    .response

theorem parseResponse_ofLookups (lookups : List Lookup) (text : String) :
    ((Batch.ofLookups lookups).parseResponse text).mapError .response =
      readResponses lookups text := by
  rw [Batch.parseResponse, Batch.kinds_ofLookups]
  rfl

def readBatch (lookups : List Lookup) (text : String) : Outcome :=
  (readResponses lookups text).map .batch

theorem sendRequests_of_pending (transport : Transport) {c : Client} (h : c.queue.pending ≠ []) :
    c.sendRequests transport =
      ((transport c.calls (batchCall c.queue.pending)).bind (readResponses c.queue.pending),
        { c with queue := ∅, calls := c.calls ++ [batchCall c.queue.pending] }) := by
  unfold Client.sendRequests Queue.isEmpty
  rw [if_neg fun hempty => h (List.isEmpty_iff.mp hempty)]
  refine Prod.ext (congrArg (transport c.calls (batchCall c.queue.pending)).bind ?_) rfl
  exact funext (parseResponse_ofLookups c.queue.pending)

theorem sendRequests_of_answered {transport : Transport} {c : Client} {lookups : List Lookup}
    {body : String} (hpending : c.queue.pending = lookups) (hne : lookups ≠ [])
    (hanswer : transport c.calls (batchCall lookups) = .ok body) :
    (c.sendRequests transport).1 =
      (BatchResponse.parse body (Batch.ofLookups lookups).kinds).mapError .response := by
  rw [sendRequests_of_pending transport (hpending.symm ▸ hne), hpending, hanswer]
  exact (parseResponse_ofLookups lookups body).symm

/-! ## Runs -/

inductive Operation where
  /-- Queues any lookup, those with a name of their own among them. -/
  | queue (l : Lookup)
  | request (r : Request)
  | send

namespace Operation

def run (transport : Transport) (c : Client) : Operation → Outcome × Client
  | .queue l => (.ok .nothing, c.enqueue l)
  | .request r => r.run transport c
  | .send => Outcome.of .batch (c.sendRequests transport)

def queued : Operation → List Lookup
  | .queue l => [l]
  | _ => []

end Operation

/-- One operation of a run, with the client before and after it. -/
structure Event where
  before : Client
  operation : Operation
  outcome : Outcome
  after : Client

namespace Event

def of (transport : Transport) (c : Client) (op : Operation) : Event :=
  ⟨c, op, (op.run transport c).1, (op.run transport c).2⟩

def sent (e : Event) : List Lookup :=
  match e.operation with
  | .send => e.before.queue.pending
  | _ => []

/-- What an operation may do to the queue and to the transport, and what it gives. -/
def Proper (transport : Transport) (e : Event) : Prop :=
  match e.operation with
  | .queue l =>
    e.after.calls = e.before.calls ∧ e.after.queue.pending = e.before.queue.pending ++ [l]
  | .request r =>
    e.after.calls = e.before.calls ++ [r.call] ∧
    e.after.queue.pending = e.before.queue.pending ∧
    e.outcome = (transport e.before.calls r.call).bind r.read
  | .send =>
    e.after.queue.pending = [] ∧
    (e.before.queue.pending = [] →
      e.after.calls = e.before.calls ∧ e.outcome = .error .emptyBatch) ∧
    (e.before.queue.pending ≠ [] → ∃ call : Call, call.Carries e.before.queue.pending ∧
      e.after.calls = e.before.calls ++ [call] ∧
      e.outcome = (transport e.before.calls call).bind (readBatch e.before.queue.pending))

theorem send_of_empty (transport : Transport) {c : Client} (h : c.queue.pending = []) :
    Operation.send.run transport c = (.error .emptyBatch, c) := by
  change Outcome.of .batch (c.sendRequests transport) = _
  unfold Client.sendRequests Queue.isEmpty
  rw [if_pos (List.isEmpty_iff.mpr h)]
  rfl

theorem send_of_pending (transport : Transport) {c : Client} (h : c.queue.pending ≠ []) :
    Operation.send.run transport c =
      ((transport c.calls (batchCall c.queue.pending)).bind (readBatch c.queue.pending),
        { c with queue := ∅, calls := c.calls ++ [batchCall c.queue.pending] }) := by
  change Outcome.of .batch (c.sendRequests transport) = _
  rw [sendRequests_of_pending transport h]
  refine Prod.ext ?_ rfl
  change (((transport c.calls (batchCall c.queue.pending)).bind _).map _) = _
  cases transport c.calls (batchCall c.queue.pending) <;> rfl

theorem proper_of (transport : Transport) (c : Client) (op : Operation) :
    (of transport c op).Proper transport := by
  cases op with
  | queue l => exact ⟨rfl, rfl⟩
  | request r =>
    have hrun := Request.run_eq transport c r
    exact ⟨congrArg (·.2.calls) hrun, congrArg (·.2.queue.pending) hrun, congrArg (·.1) hrun⟩
  | send =>
    by_cases h : c.queue.pending = []
    · have hrun := send_of_empty transport h
      exact ⟨(congrArg (·.2.queue.pending) hrun).trans h,
        fun _ => ⟨congrArg (·.2.calls) hrun, congrArg (·.1) hrun⟩, fun hne => absurd h hne⟩
    · have hrun := send_of_pending transport h
      exact ⟨congrArg (·.2.queue.pending) hrun, fun hnil => absurd hnil h,
        fun _ => ⟨batchCall c.queue.pending, carries_batchCall _, congrArg (·.2.calls) hrun,
          congrArg (·.1) hrun⟩⟩

def sendCalls (e : Event) : List Call :=
  match e.operation with
  | .send => e.after.calls.drop e.before.calls.length
  | _ => []

theorem forall₂_sendCalls {transport : Transport} {e : Event} (h : e.Proper transport) :
    List.Forall₂ Call.Carries e.sendCalls ([e.sent].filter fun lookups => !lookups.isEmpty) := by
  obtain ⟨before, op, outcome, after⟩ := e
  cases op with
  | queue l => exact .nil
  | request r => exact .nil
  | send =>
    obtain ⟨-, hempty, hpending⟩ := h
    unfold sendCalls sent
    cases hsent : before.queue.pending with
    | nil =>
      have hcalls : after.calls = before.calls := (hempty hsent).1
      simp [hcalls]
    | cons l lookups =>
      obtain ⟨call, hcarries, hcalls, -⟩ := hpending (hsent ▸ List.cons_ne_nil l lookups)
      have hcarries : call.Carries (l :: lookups) := hsent ▸ hcarries
      have hcalls : after.calls = before.calls ++ [call] := hcalls
      simpa [hcalls] using hcarries

/-- What is pending or queued by an operation is sent by it or pending afterwards. -/
theorem sent_append_pending (transport : Transport) (c : Client) (op : Operation) :
    (of transport c op).sent ++ (of transport c op).after.queue.pending =
      c.queue.pending ++ op.queued := by
  have h := proper_of transport c op
  cases op with
  | queue l => exact h.2
  | request r => exact h.2.1.trans (List.append_nil _).symm
  | send => exact congrArg (c.queue.pending ++ ·) h.1

end Event

def events (transport : Transport) : Client → List Operation → List Event
  | _, [] => []
  | c, op :: ops =>
    let e := Event.of transport c op
    e :: events transport e.after ops

def runAll (transport : Transport) (c : Client) (ops : List Operation) : Client :=
  ops.foldl (fun c op => (op.run transport c).2) c

theorem proper_of_mem_events (transport : Transport) (c : Client) (ops : List Operation) :
    ∀ e ∈ events transport c ops, e.Proper transport := by
  induction ops generalizing c with
  | nil => simp [events]
  | cons op ops ih =>
    intro e he
    rcases List.mem_cons.mp he with rfl | he
    · exact Event.proper_of transport c op
    · exact ih _ e he

theorem sent_append_pending_of_run (transport : Transport) (c : Client) (ops : List Operation) :
    (events transport c ops).flatMap Event.sent ++ (runAll transport c ops).queue.pending =
      c.queue.pending ++ ops.flatMap Operation.queued := by
  induction ops generalizing c with
  | nil => simp [events, runAll]
  | cons op ops ih =>
    rw [events, List.flatMap_cons, List.flatMap_cons, List.append_assoc]
    have hrest := ih (Event.of transport c op).after
    have hfirst := Event.sent_append_pending transport c op
    calc (Event.of transport c op).sent ++
          ((events transport (Event.of transport c op).after ops).flatMap Event.sent ++
            (runAll transport (Event.of transport c op).after ops).queue.pending)
        = (Event.of transport c op).sent ++ ((Event.of transport c op).after.queue.pending ++
            ops.flatMap Operation.queued) := by rw [hrest]
      _ = c.queue.pending ++ op.queued ++ ops.flatMap Operation.queued := by
        rw [← List.append_assoc, hfirst]
      _ = c.queue.pending ++ (op.queued ++ ops.flatMap Operation.queued) := List.append_assoc ..

/-- The batches that are sent in a run. -/
def batches (es : List Event) : List (List Lookup) :=
  (es.map Event.sent).filter fun lookups => !lookups.isEmpty

theorem flatten_batches (es : List Event) : (batches es).flatten = es.flatMap Event.sent :=
  List.flatten_filter_not_isEmpty

theorem forall₂_flatMap_sendCalls {transport : Transport} {es : List Event}
    (h : ∀ e ∈ es, e.Proper transport) :
    List.Forall₂ Call.Carries (es.flatMap Event.sendCalls) (batches es) := by
  induction es with
  | nil => exact .nil
  | cons e es ih =>
    obtain ⟨he, hes⟩ := List.forall_mem_cons.mp h
    have hbatches : batches (e :: es) =
        ([e.sent].filter fun lookups => !lookups.isEmpty) ++ batches es :=
      List.filter_append [e.sent] (es.map Event.sent)
    rw [List.flatMap_cons, hbatches]
    exact List.rel_append (Event.forall₂_sendCalls he) (ih hes)

/-- Each operation of a run does its own to the queue and the transport. The calls that send lookups
carry one batch each, and the batches, one after the other and followed by what is pending, are what
was queued. -/
theorem queue_is_delivered_in_order (transport : Transport) (config : Config)
    (ops : List Operation) :
    (∀ e ∈ events transport (.new config) ops, e.Proper transport) ∧
    List.Forall₂ Call.Carries ((events transport (.new config) ops).flatMap Event.sendCalls)
      (batches (events transport (.new config) ops)) ∧
    (batches (events transport (.new config) ops)).flatten ++
      (runAll transport (.new config) ops).queue.pending = ops.flatMap Operation.queued := by
  have hproper := proper_of_mem_events transport (.new config) ops
  refine ⟨hproper, forall₂_flatMap_sendCalls hproper, ?_⟩
  rw [flatten_batches, sent_append_pending_of_run]
  rfl

end TableQuery

import TableQuery.Client.Config
import TableQuery.Client.Queue
import TableQuery.Client.Transport
import TableQuery.Submission

/-! # The client

A client sends lookups and writes through a transport, and collects lookups for a batch. It keeps
the calls that it made, in order.
-/

namespace TableQuery

structure Client where
  config : Config
  queue : Queue
  calls : List Call

namespace Client

def new (config : Config) : Client := ⟨config, ∅, []⟩

/-- The line that a client with `debug` on logs for a call. -/
def logLine? (config : Config) (call : Call) : Option String :=
  if config.debug then
    some ("method=" ++ call.method.name ++ " sending request url=" ++
      config.urlFor (Url.withQuery call.path call.params))
  else none

/-- Makes a call and gives the body of its answer. -/
def call (transport : Transport) (c : Client) (call : Call) : Except ClientError String × Client :=
  (transport c.calls call, { c with calls := c.calls ++ [call] })

def callFor (transport : Transport) (c : Client) (call : Call) (kind : ResponseKind) :
    Except ClientError AnyResponse × Client :=
  let (body, c) := c.call transport call
  (body.bind fun text => (kind.parse text).mapError .response, c)

/-! ## Reading -/

def lookup (transport : Transport) (c : Client) (l : Lookup) :
    Except ClientError AnyResponse × Client :=
  c.callFor transport ⟨.get, l.path, l.params⟩ l.kind

/-- The best match for an entity, in the table of places. -/
def resolve (transport : Transport) (c : Client) (q : ResolveQuery) :
    Except ClientError (Option Row) × Client :=
  let (response, c) := c.lookup transport (.resolve "places" q)
  (response.map fun r => r.rows?.bind List.head?, c)

/-- The body for a path, not read any further. -/
def rawGet (transport : Transport) (c : Client) (path : String) (params : RequestParams) :
    Except ClientError String × Client :=
  c.call transport ⟨.get, path, params⟩

/-! ## Writing -/

def submitPath (table : String) : String := "t/" ++ table ++ "/submit"

def submitToPath (table id : String) : String := "t/" ++ table ++ "/" ++ id ++ "/submit"

def flagPath (table id : String) : String := "t/" ++ table ++ "/" ++ id ++ "/flag"

def sendSubmit (transport : Transport) (c : Client) (path : String) (s : Submit) (m : Metadata) :
    Except ClientError AnyResponse × Client :=
  c.callFor transport ⟨.post, path, m.requestParams.merge s.requestParams⟩ .submit

/-- Adds a row to a table. -/
def submit (transport : Transport) (c : Client) (table : String) (s : Submit) (m : Metadata) :
    Except ClientError AnyResponse × Client :=
  c.sendSubmit transport (submitPath table) s m

/-- Changes a row of a table. -/
def submitTo (transport : Transport) (c : Client) (table id : String) (s : Submit) (m : Metadata) :
    Except ClientError AnyResponse × Client :=
  c.sendSubmit transport (submitToPath table id) s m

/-- Reports a problem with a row. -/
def flag (transport : Transport) (c : Client) (table id : String) (problem : Problem)
    (m : Metadata) : Except ClientError AnyResponse × Client :=
  c.callFor transport
    ⟨.post, flagPath table id, m.requestParams.insert "problem" problem.token⟩ .flag

/-! ## Batches -/

def enqueue (c : Client) (l : Lookup) : Client := { c with queue := c.queue.push l }

/-- Sends all queued lookups in one call; the queue is empty afterwards, whatever the answer. -/
def sendRequests (transport : Transport) (c : Client) : Except ClientError BatchResponse × Client :=
  if c.queue.isEmpty then (.error .emptyBatch, c)
  else
    let (batch, queue) := c.queue.drain
    let (body, c) := { c with queue }.call transport ⟨.get, "multi", batch.requestParams⟩
    (body.bind fun text => (batch.parseResponse text).mapError .response, c)

end Client

end TableQuery

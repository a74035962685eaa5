import TraceRollup.Collector
import TraceRollup.Http.Endpoint
import TraceRollup.Http.Status
import TraceRollup.Inbox

/-!
# Answering requests

A collector takes messages of other nodes at one path and, if it is open to agents, segments at
another. `respond` says how a request is answered and what becomes of the collector; `probe`
answers questions on its health.
-/

namespace TraceRollup.Http

/-! ### Requests and answers -/

structure Request where
  method : String := "POST"
  /-- Without the query. -/
  path : String
  headers : List (String × String) := []
  body : List UInt8 := []

namespace Request

/-- The first header of a name, given in lower case. -/
def header? (r : Request) (name : String) : Option String :=
  (r.headers.find? fun h => h.1.toLower == name).map (·.2)

def isGzip (r : Request) : Bool := (r.header? "content-encoding").any fun v => v.toLower == "gzip"

/-- The body is said to be JSON, perhaps of a special kind or with parameters. -/
def isJson (r : Request) : Bool :=
  (r.header? "content-type").any fun v =>
    let kind := String.ofList ((v.toLower.toList.takeWhile (· ≠ ';')).filter (· ≠ ' '))
    kind == "application/json" || (kind.startsWith "application/" && kind.endsWith "+json")

end Request

inductive GzipFault
  | badHeader | cutShort
  deriving DecidableEq

def GzipFault.message : GzipFault → String
  | .badHeader => "gzip decode: invalid gzip header"
  | .cutShort => "gzip decode: unexpected end of file"

abbrev Unpacker := List UInt8 → Except GzipFault (List UInt8)

inductive Answer
  | tally (t : Tally)
  | page (text : String)
  | damaged (fault : GzipFault)
  | refused (status : Status)
  deriving DecidableEq

def Answer.status : Answer → Status
  | .tally _ | .page _ => .ok
  | .damaged _ => .badRequest
  | .refused status => status

/-- Longer bodies are not read. -/
def maxBody : Nat := 2 * 1024 * 1024

/-! ### Messages -/

def takeMessages {σ : Type} (receiver : Receiver σ) (unpack : Unpacker) (s : σ) (r : Request) : Answer × σ :=
  match if r.isGzip then unpack r.body else .ok r.body with
  | .error fault => (.damaged fault, s)
  | .ok bytes =>
    let t := receiver.takeBatch s bytes
    (.tally t.1, t.2)

/-! ### Segments -/

/-- The segments in a body, or the status of a body without. -/
def segments? (body : List UInt8) : Except Status (List Segment) :=
  match (Text.ofBytes? body).bind Json.parse with
  | none => .error .badRequest
  | some j =>
    match j.list?.bind fun items => items.mapM Segment.decode? with
    | none => .error .unprocessable
    | some segments => .ok segments

/-- Takes segments in. Those that are discarded at once are rejected. -/
def takeSegments (c : Collector) (segments : List Segment) : Option (Answer × Collector) := do
  let total := segments.length
  let c := c.modifyNode fun n => { n with shared := n.shared.count .segmentsReceived total }
  let (accepted, c) ← c.ingestAll segments
  return (.tally ⟨accepted, total - min accepted total⟩, c)

/-! ### Collectors -/

/-- Answers a request. None when the arithmetic leaves its range. -/
def respond (unpack : Unpacker) (openToAgents : Bool) (c : Collector) (r : Request) : Option (Answer × Collector) :=
  if r.path = messagesPath then
    if r.method ≠ "POST" then some (.refused .methodNotAllowed, c)
    else if maxBody < r.body.length then some (.refused .payloadTooLarge, c)
    else
      let t := takeMessages (Cluster.receiver 0) unpack c.cluster r
      some (t.1, { c with cluster := t.2 })
  else if r.path = segmentsPath ∧ openToAgents then
    if r.method ≠ "POST" then some (.refused .methodNotAllowed, c)
    else if !r.isJson then some (.refused .unsupportedMediaType, c)
    else if maxBody < r.body.length then some (.refused .payloadTooLarge, c)
    else
      match segments? r.body with
      | .error status => some (.refused status, c)
      | .ok segments => takeSegments c segments
  else some (.refused .notFound, c)

/-- Answers a question on the health of a collector. -/
def probe (metricsPage : String) (r : Request) : Answer :=
  if r.path = "/metrics" ∨ r.path = "/healthz" then
    if r.method ≠ "GET" ∧ r.method ≠ "HEAD" then .refused .methodNotAllowed
    else if r.path = "/metrics" then .page metricsPage
    else .page "ok"
  else .refused .notFound

theorem respond_of_unknown_path (unpack : Unpacker) (openToAgents : Bool) (c : Collector) (r : Request)
    (hm : r.path ≠ messagesPath) (hs : r.path ≠ segmentsPath) :
    respond unpack openToAgents c r = some (.refused .notFound, c) := by
  simp [respond, hm, hs]

end TraceRollup.Http

import TraceRollup.Http.Endpoint
import TraceRollup.Http.Status
import TraceRollup.Ndjson
import TraceRollup.Refusal

/-!
# Sending messages to other nodes

Messages to a node are sent in batches of a bounded size, each with one post. The first post
that fails ends the sending, and all messages share that outcome. How a post is answered is
up to the `Network`.
-/

namespace TraceRollup.Http

/-! ### Compression -/

inductive Coding
  | plain | gzip
  deriving DecidableEq

def Coding.header? : Coding → Option String
  | .plain => none
  | .gzip => some "gzip"

def Coding.ofSetting? : String → Option Coding
  | "none" | "" => some .plain
  | "gzip" => some .gzip
  | _ => none

/-! ### Posts -/

structure Post where
  target : Url
  coding : Coding
  /-- The bytes before they are coded. -/
  body : List UInt8

def Post.contentType : String := "application/x-ndjson"

inductive ConnectFault
  | noRoute | nameNotResolved
  deriving DecidableEq

def ConnectFault.message : ConnectFault → String
  | .noRoute => "tcp connect error: Network is unreachable (os error 101)"
  | .nameNotResolved =>
    "dns error: failed to lookup address information: Temporary failure in name resolution"

inductive PostFault
  | unknownCoding (setting : String)
  | badTarget (fault : UrlFault)
  | noConnection (target : Url) (fault : ConnectFault)
  | unwelcome (status : Status)
  deriving DecidableEq

def PostFault.message : PostFault → String
  | .unknownCoding setting => "compressing NDJSON body: unsupported compression: " ++ setting
  | .badTarget fault => "sending remote batch: builder error: " ++ fault.message
  | .noConnection target fault =>
    "sending remote batch: error sending request for url (" ++ target.render ++ "): client error (Connect): "
      ++ fault.message
  | .unwelcome status => "unexpected status: " ++ status.text

/-! ### Networks -/

/-- How posts are answered. -/
abbrev Network := Post → Except ConnectFault Status

/-- No address can be reached, and no name is known. -/
def Network.offline : Network := fun post =>
  match post.target.host with
  | .address _ => .error .noRoute
  | .name _ => .error .nameNotResolved

/-! ### Sending -/

structure Client where
  compression : String
  batchSize : Nat

namespace Client

/-- Cuts a list into pieces of a size; the last may be smaller. -/
def chunks {α : Type} (size : Nat) (xs : List α) : List (List α) :=
  if _h : xs = [] ∨ size = 0 then []
  else xs.take size :: chunks size (xs.drop size)
termination_by xs.length
decreasing_by
  rw [not_or] at _h
  have : xs.length ≠ 0 := by simpa using _h.1
  simp only [List.length_drop]
  omega

/-- The batches that messages are sent in. A size of 0 is taken for 1. -/
def batches (c : Client) (messages : List WireMessage) : List (List WireMessage) :=
  chunks (max c.batchSize 1) messages

def post (c : Client) (node : String) (batch : List WireMessage) : Except PostFault Post :=
  match Coding.ofSetting? c.compression with
  | none => .error (.unknownCoding c.compression)
  | some coding =>
    match Url.parse (endpoint node) with
    | .error fault => .error (.badTarget fault)
    | .ok target => .ok { target, coding, body := Ndjson.body batch }

/-- Sends one batch; the post, if it arrived, and the fault, if there was one. -/
def sendBatch (c : Client) (net : Network) (node : String) (batch : List WireMessage) :
    Option Post × Option PostFault :=
  match c.post node batch with
  | .error fault => (none, some fault)
  | .ok post =>
    match net post with
    | .error fault => (none, some (.noConnection post.target fault))
    | .ok status => (some post, if status.isSuccess then none else some (.unwelcome status))

/-- Sends batches until one fails. -/
def sendBatches (c : Client) (net : Network) (node : String) :
    List (List WireMessage) → List Post × Except Refusal Unit
  | [] => ([], .ok ())
  | batch :: rest =>
    match c.sendBatch net node batch with
    | (arrived, some fault) => (arrived.toList, .error (.unreachable node fault.message))
    | (arrived, none) =>
      let r := sendBatches c net node rest
      (arrived.toList ++ r.1, r.2)

/-- Sends messages to a node; the posts that arrived there, and the outcome. -/
def send (c : Client) (net : Network) (node : String) (messages : List WireMessage) :
    List Post × Except Refusal Unit :=
  c.sendBatches net node (c.batches messages)

/-! ### Batches hold all messages -/

theorem flatten_chunks {α : Type} {size : Nat} (h : 0 < size) (xs : List α) : (chunks size xs).flatten = xs := by
  fun_induction chunks size xs with
  | case1 xs hx =>
    rcases hx with rfl | hx
    · rfl
    · omega
  | case2 xs hx ih => rw [List.flatten_cons, ih, List.take_append_drop]

theorem flatten_batches (c : Client) (messages : List WireMessage) : (c.batches messages).flatten = messages :=
  flatten_chunks (by omega) messages

theorem send_nil (c : Client) (net : Network) (node : String) : c.send net node [] = ([], .ok ()) := by
  simp [send, batches, chunks, sendBatches]

end Client
end TraceRollup.Http

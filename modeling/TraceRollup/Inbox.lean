import TraceRollup.Cluster.Schedule
import TraceRollup.Ndjson

/-!
# Batches of messages that arrive

The bytes of a batch are taken line by line, in order. Every line that is not blank is accepted
or rejected by itself, and counted once: a line without a message is malformed, any other goes
to the pipeline that it names.
-/

namespace TraceRollup

/-- How many of what arrived were accepted and how many rejected. -/
structure Tally where
  accepted : Nat := 0
  rejected : Nat := 0
  deriving DecidableEq, Inhabited

namespace Tally

def note (t : Tally) (accepted : Bool) : Tally :=
  if accepted then { t with accepted := t.accepted + 1 } else { t with rejected := t.rejected + 1 }

def total (t : Tally) : Nat := t.accepted + t.rejected

end Tally

/-! ### Any receiver -/

structure Receiver (σ : Type) where
  deliver : σ → WireMessage → Except Refusal Unit × σ
  /-- Notes a line that holds no message. -/
  malformed : σ → σ

namespace Receiver
variable {σ : Type}

def takeLine (r : Receiver σ) (t : Tally × σ) (line : List UInt8) : Tally × σ :=
  match Ndjson.message? line with
  | none => (t.1.note false, r.malformed t.2)
  | some m =>
    let d := r.deliver t.2 m
    (t.1.note d.1.isOk, d.2)

def takeBatch (r : Receiver σ) (s : σ) (bytes : List UInt8) : Tally × σ :=
  (Ndjson.filled bytes).foldl r.takeLine ({}, s)

end Receiver

/-! ### Nodes and clusters -/

def Node.countMalformed (n : Node) : Node := { n with shared := n.shared.count (.wireMessages "malformed") 1 }

/-- A node as it stands: what finds a full queue is refused. -/
def Node.receiver : Receiver Node := ⟨fun n m => n.deliver m, Node.countMalformed⟩

/-- A node of a cluster in which senders may wait for room. -/
def Cluster.receiver (k : Nat) : Receiver Cluster :=
  ⟨fun c m => c.deliver k m, fun c => c.modifyNode k Node.countMalformed⟩

end TraceRollup

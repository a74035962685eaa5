import TraceRollup.WireMessage
import TraceRollup.HashRing
import TraceRollup.Counters

/-!
# Sending records to their owners

The dispatcher splits a batch by the node that owns each record's key on the ring of the
current members. Records owned here, and all records when no member is known, stay; every
other owner gets one send with its records in order. The records of a send that fails are
lost, since the running totals are sent again.
-/

namespace TraceRollup

/-- The way to a node: open, closed with a reason, or one on which a send never ends. -/
inductive Link
  | up
  | down (reason : String)
  | stalled
  deriving DecidableEq

abbrev Links := String → Link

structure Parcel where
  node : String
  messages : List WireMessage

structure Dispatcher where
  pipeline : PipelineId
  /-- The stage that the records are for, on this node and on the others. -/
  target : StageId
  /-- The name of this node. -/
  here : String

/-- What routing a batch comes to. -/
structure Routed (α : Type) where
  kept : List (Snapshot α)
  /-- Sends that reach their node. -/
  parcels : List Parcel
  sent : Nat
  failed : Nat
  counters : Counters

namespace Dispatcher

/-- The other node that owns a record, if one does. -/
def foreignOwner? {α : Type} [Rollup α] (hash : PointHash) (d : Dispatcher) (ring : HashRing) (s : Snapshot α) :
    Option String :=
  match ring.owner? hash (Rollup.routingKey s.record) with
  | some node => if node = d.here then none else some node
  | none => none

/-- Adds a message to the parcel of its node. -/
def addToParcel (node : String) (m : WireMessage) : List Parcel → List Parcel
  | [] => [⟨node, [m]⟩]
  | p :: rest =>
    if p.node = node then { p with messages := p.messages ++ [m] } :: rest else p :: addToParcel node m rest

/-- The records that stay and a parcel for each other owner. -/
structure Parts (α : Type) where
  kept : List (Snapshot α) := []
  parcels : List Parcel := []

/-- Puts a record where it belongs. -/
def place {α : Type} [Rollup α] (hash : PointHash) (d : Dispatcher) (ring : HashRing) (parts : Parts α)
    (s : Snapshot α) : Parts α :=
  match d.foreignOwner? hash ring s with
  | none => { parts with kept := parts.kept ++ [s] }
  | some node =>
    { parts with parcels := addToParcel node (.ofSnapshot d.pipeline d.target s) parts.parcels }

def split {α : Type} [Rollup α] (hash : PointHash) (d : Dispatcher) (ring : HashRing)
    (batch : List (Snapshot α)) : Parts α :=
  batch.foldl (d.place hash ring) {}

def messageCount (parcels : List Parcel) : Nat := parcels.foldr (fun p n => p.messages.length + n) 0

/-- Counts the messages of each send under an outcome. -/
def countParcels (outcome : String) (parcels : List Parcel) (c : Counters) : Counters :=
  parcels.foldl (fun c p => c.add (.wireMessages outcome) p.messages.length) c

/-- Routes a batch on a ring. None when a send never ends: then the batch is never done. -/
def route {α : Type} [Rollup α] (hash : PointHash) (d : Dispatcher) (ring : HashRing) (links : Links)
    (batch : List (Snapshot α)) (c : Counters) : Option (Routed α) :=
  let parts := d.split hash ring batch
  if parts.parcels.any fun p => links p.node = .stalled then none
  else
    let out := parts.parcels.partition fun p => decide (links p.node = .up)
    some {
      kept := parts.kept
      parcels := out.1
      sent := messageCount out.1
      failed := messageCount out.2
      counters := countParcels "failed" out.2 (countParcels "sent" out.1 c) }

end Dispatcher
end TraceRollup

import TraceRollup.Refusal
import TraceRollup.Rollup.Basic
import TraceRollup.Json.Reader
import TraceRollup.Json.Writer

/-!
# Messages between nodes

A snapshot is a record with the node it comes from, its origin. On its way to the node that
owns it, it travels as a message that names the receiving stage by number and carries the
record as JSON. Messages are written one to a line.
-/

namespace TraceRollup

/-- A record with the node whose total it is. -/
structure Snapshot (α : Type) where
  origin : String
  record : α
  deriving DecidableEq

structure WireMessage where
  pipeline : PipelineId
  stage : StageId
  tag : String
  origin : String
  payload : Json

namespace WireMessage

/-- The message that takes a snapshot to a stage. -/
def ofSnapshot {α : Type} [Rollup α] (pipeline : PipelineId) (stage : StageId) (s : Snapshot α) : WireMessage :=
  ⟨pipeline, stage, Rollup.tag α, s.origin, Rollup.encode s.record⟩

/-- The snapshot in a message. The tag is not looked at. -/
def snapshot {α : Type} [Rollup α] (m : WireMessage) : Except Refusal (Snapshot α) :=
  match Rollup.decode? m.payload with
  | some record => .ok ⟨m.origin, record⟩
  | none => .error (.undecodable (Rollup.tag α))

/-! ### Text -/

def toJson (m : WireMessage) : Json :=
  .obj [
    ("graph_id", .ofNat m.pipeline.number.toNat),
    ("stage_id", .ofNat m.stage.number.toNat),
    ("entity_type", .str m.tag),
    ("origin", .str m.origin),
    ("payload", m.payload)]

def fieldNames : List String := ["graph_id", "stage_id", "entity_type", "origin", "payload"]

def ofJson? (j : Json) : Option WireMessage := do
  match ← j.record? fieldNames with
  | [pipeline, stage, tag, origin, payload] =>
    let payload ← payload
    if payload.readable then
      return {
        pipeline := ⟨UInt16.ofNat (← (← pipeline).nat? 16)⟩
        stage := ⟨UInt32.ofNat (← (← stage).nat? 32)⟩
        tag := ← (← tag).string?
        origin := ← (← origin).string?
        payload := payload.normal }
    else none
  | _ => none

/-- How deep arrays and objects may be nested in a text, the message itself counted. -/
def maxDepth : Nat := 127

/-- Reads a message. A payload nested too deeply is refused; other members may be. -/
def parse? (text : String) : Option WireMessage := do
  let j ← Json.parse text
  match j.record? fieldNames with
  | some [_, _, _, _, some payload] => if payload.depth < maxDepth then ofJson? j else none
  | _ => none

/-- The line that carries a message, without its line break. -/
def line (m : WireMessage) : String := m.toJson.render

/-- Opening a message gives back the snapshot that was put in, if its record can be read. -/
theorem snapshot_ofSnapshot {α : Type} [Rollup α] (p : PipelineId) (stage : StageId) (s : Snapshot α)
    (h : Rollup.decode? (Rollup.encode s.record) = some s.record) :
    (ofSnapshot p stage s).snapshot = .ok s := by
  simp [ofSnapshot, snapshot, h]

end WireMessage
end TraceRollup

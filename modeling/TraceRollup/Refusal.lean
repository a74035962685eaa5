import TraceRollup.Store
import TraceRollup.Text.Quoted

/-!
# Stages and refusals

A pipeline is a chain of stages; each stage has a number made of the pipeline's number and
the kind of stage. `Refusal` lists why a record or a message is not taken, `message` words
it, and `reason` is the short label under which it is counted.
-/

namespace TraceRollup

/-! ### Numbers of pipelines and stages -/

structure PipelineId where
  number : UInt16
  deriving DecidableEq, Inhabited

instance : ToString PipelineId := ⟨fun p => toString p.number⟩

/-- What a stage does with a record: keep running totals, send it to the node that owns it, or
fold it into stored rows. -/
inductive StageKind
  | aggregate | dispatch | persist
  deriving DecidableEq, Repr, Inhabited

namespace StageKind

def name : StageKind → String
  | .aggregate => "aggregate"
  | .dispatch => "dispatch"
  | .persist => "persist"

def code : StageKind → Nat
  | .aggregate => 1
  | .dispatch => 2
  | .persist => 3

/-- The order in which the stages of all pipelines are closed. -/
def closingOrder : List StageKind := [.aggregate, .dispatch, .persist]

def ofName? (s : String) : Option StageKind := closingOrder.find? fun k => k.name == s

theorem code_injective {j k : StageKind} (h : j.code = k.code) : j = k := by
  cases j <;> cases k <;> first | rfl | (simp [code] at h)

end StageKind

structure StageId where
  number : UInt32
  deriving DecidableEq, Inhabited

instance : ToString StageId := ⟨fun s => toString s.number⟩

/-- Ten times the pipeline's number, plus the code of the kind. -/
def StageId.of (p : PipelineId) (k : StageKind) : StageId :=
  ⟨UInt32.ofNat (p.number.toNat * 10 + k.code)⟩

theorem StageId.toNat_of (p : PipelineId) (k : StageKind) :
    (StageId.of p k).number.toNat = p.number.toNat * 10 + k.code := by
  have h := p.number.toNat_lt
  have hk : k.code ≤ 3 := by cases k <;> decide
  simp only [StageId.of, UInt32.toNat_ofNat']
  omega

theorem StageId.of_inj {p q : PipelineId} {j k : StageKind} : StageId.of p j = StageId.of q k ↔ p = q ∧ j = k := by
  constructor
  · intro h
    have hn := congrArg (fun s : StageId => s.number.toNat) h
    simp only [StageId.toNat_of] at hn
    have hj : j.code ≤ 3 := by cases j <;> decide
    have hk : k.code ≤ 3 := by cases k <;> decide
    refine ⟨?_, StageKind.code_injective (by omega)⟩
    cases p; cases q
    congr 1
    exact UInt16.toNat_inj.1 (by simp only at hn; omega)
  · rintro ⟨rfl, rfl⟩; rfl

/-! ### Refusals -/

inductive NameSpace
  | application | address | serviceName | agentInstance
  deriving DecidableEq, Repr, Inhabited

namespace NameSpace

def name : NameSpace → String
  | .application => "application"
  | .address => "address"
  | .serviceName => "service_name"
  | .agentInstance => "instance"

def all : List NameSpace := [.application, .address, .serviceName, .agentInstance]
def ofName? (s : String) : Option NameSpace := all.find? fun n => n.name == s

end NameSpace

inductive Refusal
  | unresolvedName (space : NameSpace) (name : String)
  | saturated (stage : StageId)
  | unreachable (node reason : String)
  | storage (e : StoreError)
  | unknownPipeline (p : PipelineId)
  | unknownStage (p : PipelineId) (stage : StageId)
  | wrongTag (p : PipelineId) (expected actual : String)
  | undecodable (tag : String)
  | closed
  deriving DecidableEq

namespace Refusal

/-- The label under which the refusal is counted. -/
def reason : Refusal → String
  | .unresolvedName _ _ => "unresolved"
  | .saturated _ => "queue_saturated"
  | .unreachable _ _ => "remote_unreachable"
  | .storage _ => "storage_unavailable"
  | .unknownPipeline _ | .unknownStage _ _ => "unknown_target"
  | .wrongTag _ _ _ => "type_mismatch"
  | .undecodable _ => "decode"
  | .closed => "closed"

def message : Refusal → String
  | .unresolvedName space name =>
    "name " ++ Text.quoted name ++ " in namespace " ++ space.name ++ " is not registered yet"
  | .saturated stage => "stage " ++ toString stage ++ " queue is saturated"
  | .unreachable node reason => "remote node " ++ node ++ " unreachable: " ++ reason
  | .storage e => "storage unavailable: " ++ e.message
  | .unknownPipeline p => "unknown graph " ++ toString p
  | .unknownStage p stage => "graph " ++ toString p ++ " has no stage " ++ toString stage
  | .wrongTag p expected actual =>
    "graph " ++ toString p ++ " carries " ++ expected ++ ", message declares " ++ actual
  | .undecodable tag => "decoding " ++ tag ++ " payload"
  | .closed => "pipeline is shutting down"

end Refusal
end TraceRollup

import TraceRollup.Refusal

/-!
# Layouts of pipelines

A layout is the list of kinds of a pipeline's stages. `checkLayout` accepts one that is not
empty, has no kind twice, has nothing after a persist stage and something after a dispatch
stage; `IsLayout` says the same without looking at the order of the checks.
-/

namespace TraceRollup

inductive BuildError
  | empty (p : PipelineId)
  | stageAfterTerminal (p : PipelineId) (stage : StageId)
  | duplicateStage (p : PipelineId) (stage : StageId)
  | dispatchWithoutTarget (p : PipelineId) (stage : StageId)
  | duplicatePipeline (p : PipelineId)
  deriving DecidableEq

namespace BuildError

def message : BuildError → String
  | .empty p => "graph " ++ toString p ++ " has no stages"
  | .stageAfterTerminal p s =>
    "graph " ++ toString p ++ ": stage " ++ toString s ++ " follows a terminal persistence stage"
  | .duplicateStage p s => "graph " ++ toString p ++ ": stage " ++ toString s ++ " declared twice"
  | .dispatchWithoutTarget p s =>
    "graph " ++ toString p ++ ": dispatch stage " ++ toString s ++ " has no downstream stage to target"
  | .duplicatePipeline p => "graph " ++ toString p ++ " is already registered"

end BuildError

abbrev Layout := List StageKind

/-- A list of stage kinds from which a pipeline can be built. -/
structure IsLayout (kinds : Layout) : Prop where
  nonempty : kinds ≠ []
  nodup : kinds.Nodup
  persist_last : ∀ before after, kinds = before ++ StageKind.persist :: after → after = []
  dispatch_not_last : ∀ before, kinds ≠ before ++ [StageKind.dispatch]

/-- Checks the stages after those seen. -/
def checkStages (p : PipelineId) (seen : List StageKind) : Layout → Except BuildError Unit
  | [] => .ok ()
  | k :: rest =>
    let stage := StageId.of p k
    if k ∈ seen then .error (.duplicateStage p stage)
    else if .persist ∈ seen then .error (.stageAfterTerminal p stage)
    else if k = .dispatch ∧ rest = [] then .error (.dispatchWithoutTarget p stage)
    else checkStages p (seen ++ [k]) rest

def checkLayout (p : PipelineId) (kinds : Layout) : Except BuildError Unit :=
  if kinds = [] then .error (.empty p) else checkStages p [] kinds

/-- A step in drawing up a layout: a first stage, which discards what was there, or a next one. -/
inductive LayoutStep
  | first (k : StageKind)
  | next (k : StageKind)
  deriving DecidableEq

def Layout.ofSteps (steps : List LayoutStep) : Layout :=
  steps.foldl (fun kinds s => match s with | .first k => [k] | .next k => kinds ++ [k]) []

end TraceRollup

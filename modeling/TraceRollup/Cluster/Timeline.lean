import TraceRollup.Cluster.Schedule

/-!
# Clusters in time

While time goes by, a node whose flush timer was started flushes its ledgers at every strike. A
node that was shut down flushes no more.
-/

namespace TraceRollup

structure Timeline where
  cluster : Cluster
  /-- Nanoseconds on the clock by which the timers run. -/
  elapsed : Nat := 0
  timers : List (Timer × Nat) := []
  stopped : List Nat := []

namespace Timeline

def settle (t : Timeline) : Timeline := { t with cluster := t.cluster.settle }

/-- Starts the flush timer of a node, unless it runs already. -/
def startTimer (t : Timeline) (k : Nat) : Timeline :=
  match t.cluster.nodes[k]? with
  | none => t
  | some n =>
    if k ∈ t.stopped ∨ t.timers.any (fun x => x.2 = k) then t
    else { t with timers := t.timers ++ [(⟨t.elapsed, n.options.flushInterval⟩, k)] }

/-- Flushes a node and lets the workers finish what comes of it. -/
def strike (t : Timeline) (k : Nat) : Option Timeline := do
  return { t with cluster := (← t.cluster.flush k).2.settle }

def advance (t : Timeline) (d : Duration) : Option Timeline := do
  let upTo := t.elapsed + d.nanos
  let s ← (Timer.dueJobs t.timers t.elapsed upTo).foldlM strike t
  return { s with elapsed := upTo, cluster := { s.cluster with clock := s.cluster.clock.add d } }

/-- Flushes a node now; no report after it was shut down. -/
def flush (t : Timeline) (k : Nat) : Option (Option FlushReport × Timeline) :=
  if k ∈ t.stopped then some (none, t)
  else do
    let (report, c) ← t.cluster.flush k
    return (some report, { t with cluster := c })

/-- Shuts a node down, once. None also when the time by which it is to be down cannot be told. -/
def shutDown (t : Timeline) (k : Nat) : Option (Option FlushReport × Timeline) :=
  if k ∈ t.stopped then some (none, t)
  else do
    let _ ← (← t.cluster.nodes[k]?).options.shutdownTimeout.deadline? t.elapsed
    let (report, c) ← t.cluster.shutDown k
    return (some report, { t with
      cluster := c, stopped := t.stopped ++ [k], timers := t.timers.filter fun x => x.2 ≠ k })

end Timeline
end TraceRollup

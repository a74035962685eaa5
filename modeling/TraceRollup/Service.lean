import TraceRollup.Collector
import TraceRollup.Config
import TraceRollup.Digest.Sha256

/-!
# Collectors as configured

What a configuration makes of a node: a collector that flushes, retries and purges by itself,
and that can be stopped so that nothing which it holds is lost.
-/

namespace TraceRollup.Collector

/-- The node that a configuration describes, with its pipelines. -/
def nodeOf (cfg : Config) (store : Store) : ExceptT BuildError Option Node :=
  buildPipelines? cfg.alarmRules? {
    name := cfg.cluster.selfAddress
    options := cfg.pipelineOptions
    store
    shared := ⟨{ members := ⟨cfg.clusterNodes, 0⟩, virtualNodes := cfg.cluster.virtualNodes }, .fresh⟩ }

/-- Starts a collector over a store: parked segments are retried, rows are purged at once and
from then on, and ledgers are flushed. -/
def start (cfg : Config) (store : Store) (clock : Instant) : ExceptT BuildError Option Collector := do
  let n ← nodeOf cfg store
  let c : Collector := {
    cluster := { nodes := [n], hash := Sha256.firstWord, attached := [], clock }
    intake := { parked := ⟨cfg.exchange.maxRetries, cfg.exchange.maxPending, []⟩ } }
  let c := c.startTimer cfg.exchange.retryInterval .retry
  let c :=
    if cfg.retention.enabled then
      (c.sweepNow cfg.retention.retention).startTimer cfg.retention.sweepInterval (.sweep cfg.retention.retention)
    else c
  return c.startFlushing

def updateMembers (c : Collector) (nodes : List String) : Collector := c.modifyNode (·.updateMembers nodes)

/-- Stops a collector: parked segments have a last attempt, then the pipelines are shut down. -/
def stop (c : Collector) : Option (Option FlushReport × Collector) := do
  let (_, c) ← c.finish
  c.settle.shutDown

end TraceRollup.Collector

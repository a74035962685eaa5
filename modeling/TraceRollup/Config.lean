import TraceRollup.Duration.Text
import TraceRollup.Json.Basic
import TraceRollup.Pipeline
import TraceRollup.Rollup.Alarm
import TraceRollup.Text.Quoted
import TraceRollup.Yaml

/-!
# Configuration

The settings of a collector, with their defaults, in two notations: JSON and YAML. What cannot
be decoded is refused as a whole. What was decoded is checked by `Config.fault?`, which finds
the first setting that makes no sense.
-/

namespace TraceRollup

/-! ### Notations -/

/-- A notation in which settings can be written: how a value is read as a record, a list, a text
and so on. -/
class SettingsNotation (δ : Type) where
  /-- The values of the fields with these names, where given. -/
  record? : List String → δ → Option (List (Option δ))
  list? : δ → Option (List δ)
  text? : δ → Option String
  choice? : δ → Option String
  nat? : Nat → δ → Option Nat
  int64? : δ → Option Int64
  double? : δ → Option Binary64
  bool? : δ → Option Bool

instance : SettingsNotation Json where
  record? := Json.record?
  list? := Json.list?
  text? := Json.string?
  choice? := Json.alternative?
  nat? := Json.nat?
  int64? := Json.int64?
  double? := Json.double?
  bool? := Json.bool?

namespace Yaml

def text? : Yaml → Option String
  | .scalar _ s => some s
  | _ => none

/-- The text of a scalar without quotes. -/
def plainText? : Yaml → Option String
  | .scalar true s => some s
  | _ => none

def isBlankScalar : Yaml → Bool
  | .scalar true "" => true
  | _ => false

/-- The fields of a mapping by name, each at most once; a sequence of the first few fields; or
nothing at all. -/
def record? (names : List String) : Yaml → Option (List (Option Yaml))
  | .mapping entries => do
    let entries ← entries.mapM fun e => (text? e.1).map fun k => (k, e.2)
    names.mapM fun name =>
      match entries.filter fun e => e.1 = name with
      | [] => some none
      | [e] => some (some e.2)
      | _ => none
  | .sequence items =>
    if items.length ≤ names.length then
      some (items.map some ++ List.replicate (names.length - items.length) none)
    else none
  | y => if y.isBlankScalar then some (names.map fun _ => none) else none

def list? : Yaml → Option (List Yaml)
  | .sequence items => some items
  | y => if y.isBlankScalar then some [] else none

/-- An unquoted whole number between two bounds. -/
def intBetween? (low high : Int) (y : Yaml) : Option Int := do
  let n ← integer? (← y.plainText?).toList
  if low ≤ n ∧ n ≤ high then some n else none

/-- An unquoted natural number of so many bits; it has no minus sign. -/
def nat? (bits : Nat) (y : Yaml) : Option Nat :=
  if (y.plainText?.bind fun s => s.toList.head?) = some '-' then none
  else (y.intBetween? 0 ((Nat.pow 2 bits : Nat) - 1)).map Int.toNat

instance : SettingsNotation Yaml where
  record? := record?
  list? := list?
  text? := text?
  choice? := text?
  nat? := nat?
  int64? y := (y.intBetween? (-9223372036854775808) 9223372036854775807).map Int64.ofInt
  double? y := y.plainText?.bind double?
  bool? y := y.plainText?.bind bool?

end Yaml

/-! ### Settings -/

structure ClusterSettings where
  selfAddress : String := ""
  nodes : List String := []
  virtualNodes : Nat := 160
  deriving DecidableEq

structure RemoteSettings where
  listenAddress : String := ":11800"
  timeout : Duration := .ofSeconds 5
  compression : String := "none"
  batchSize : Nat := 256
  deriving DecidableEq

inductive PolicyName
  | drop | block
  deriving DecidableEq, Repr

structure StreamSettings where
  queueCapacity : Nat := 1024
  queuePolicy : PolicyName := .drop
  blockTimeout : Duration := .ofMillis 100
  window : Duration := .ofSeconds 600
  deriving DecidableEq

structure PersistenceSettings where
  flushInterval : Duration := .ofSeconds 3
  batchSize : Nat := 2000
  shutdownTimeout : Duration := .ofSeconds 10
  deriving DecidableEq

structure ExchangeSettings where
  maxRetries : Nat := 5
  retryInterval : Duration := .ofSeconds 1
  maxPending : Nat := 10000
  deriving DecidableEq

structure AlarmSettings where
  enabled : Bool := true
  minCalls : Int64 := 10
  errorRateThreshold : Binary64 := Binary64.roundRatio false 1 2
  latency : Duration := .ofSeconds 3
  deriving DecidableEq

structure RetentionSettings where
  enabled : Bool := true
  retention : Duration := .ofSeconds 604800
  sweepInterval : Duration := .ofSeconds 3600
  deriving DecidableEq

structure HealthSettings where
  address : String := ":9090"
  deriving DecidableEq

structure Config where
  logLevel : String := "info"
  cluster : ClusterSettings := {}
  remote : RemoteSettings := {}
  stream : StreamSettings := {}
  persistence : PersistenceSettings := {}
  exchange : ExchangeSettings := {}
  alarm : AlarmSettings := {}
  retention : RetentionSettings := {}
  health : HealthSettings := {}
  deriving DecidableEq

/-! ### Decoding -/

/-- Reads a field, or takes the default where there is none. -/
def fieldOr {δ α : Type} (fallback : α) (read : δ → Option α) : Option δ → Option α
  | none => some fallback
  | some d => read d

def PolicyName.ofName? : String → Option PolicyName
  | "drop" => some .drop
  | "block" => some .block
  | _ => none

section
variable {δ : Type} [SettingsNotation δ]
open SettingsNotation

def duration? (d : δ) : Option Duration := (text? d).bind Duration.parse

def ClusterSettings.decode? (d : δ) : Option ClusterSettings := do
  match ← record? ["self_address", "nodes", "virtual_nodes"] d with
  | [address, nodes, virtualNodes] =>
    return {
      selfAddress := ← fieldOr "" text? address
      nodes := ← fieldOr [] (fun d => do (← list? d).mapM text?) nodes
      virtualNodes := ← fieldOr 160 (nat? 64) virtualNodes }
  | _ => none

def RemoteSettings.decode? (d : δ) : Option RemoteSettings := do
  let o : RemoteSettings := {}
  match ← record? ["listen_addr", "timeout", "compression", "batch_size"] d with
  | [address, timeout, compression, batchSize] =>
    return {
      listenAddress := ← fieldOr o.listenAddress text? address
      timeout := ← fieldOr o.timeout duration? timeout
      compression := ← fieldOr o.compression text? compression
      batchSize := ← fieldOr o.batchSize (nat? 64) batchSize }
  | _ => none

def StreamSettings.decode? (d : δ) : Option StreamSettings := do
  let o : StreamSettings := {}
  match ← record? ["queue_capacity", "queue_policy", "block_timeout", "aggregation_window"] d with
  | [capacity, policy, timeout, window] =>
    return {
      queueCapacity := ← fieldOr o.queueCapacity (nat? 64) capacity
      queuePolicy := ← fieldOr o.queuePolicy (fun d => (choice? d).bind PolicyName.ofName?) policy
      blockTimeout := ← fieldOr o.blockTimeout duration? timeout
      window := ← fieldOr o.window duration? window }
  | _ => none

def PersistenceSettings.decode? (d : δ) : Option PersistenceSettings := do
  let o : PersistenceSettings := {}
  match ← record? ["flush_interval", "batch_size", "shutdown_timeout"] d with
  | [interval, batchSize, timeout] =>
    return {
      flushInterval := ← fieldOr o.flushInterval duration? interval
      batchSize := ← fieldOr o.batchSize (nat? 64) batchSize
      shutdownTimeout := ← fieldOr o.shutdownTimeout duration? timeout }
  | _ => none

def ExchangeSettings.decode? (d : δ) : Option ExchangeSettings := do
  let o : ExchangeSettings := {}
  match ← record? ["max_retries", "retry_interval", "max_pending"] d with
  | [retries, interval, pending] =>
    return {
      maxRetries := ← fieldOr o.maxRetries (nat? 32) retries
      retryInterval := ← fieldOr o.retryInterval duration? interval
      maxPending := ← fieldOr o.maxPending (nat? 64) pending }
  | _ => none

def AlarmSettings.decode? (d : δ) : Option AlarmSettings := do
  let o : AlarmSettings := {}
  match ← record? ["enabled", "min_calls", "error_rate_threshold", "avg_latency_threshold"] d with
  | [enabled, minCalls, threshold, latency] =>
    return {
      enabled := ← fieldOr o.enabled bool? enabled
      minCalls := ← fieldOr o.minCalls int64? minCalls
      errorRateThreshold := ← fieldOr o.errorRateThreshold double? threshold
      latency := ← fieldOr o.latency duration? latency }
  | _ => none

def RetentionSettings.decode? (d : δ) : Option RetentionSettings := do
  let o : RetentionSettings := {}
  match ← record? ["enabled", "metric_retention", "sweep_interval"] d with
  | [enabled, retention, interval] =>
    return {
      enabled := ← fieldOr o.enabled bool? enabled
      retention := ← fieldOr o.retention duration? retention
      sweepInterval := ← fieldOr o.sweepInterval duration? interval }
  | _ => none

def HealthSettings.decode? (d : δ) : Option HealthSettings := do
  match ← record? ["addr"] d with
  | [address] => return { address := ← fieldOr ":9090" text? address }
  | _ => none

def Config.fieldNames : List String :=
  ["log_level", "cluster", "remote", "stream", "persistence", "exchange", "alarm", "ttl", "health"]

def Config.decode? (d : δ) : Option Config := do
  match ← record? fieldNames d with
  | [logLevel, cluster, remote, stream, persistence, exchange, alarm, retention, health] =>
    return {
      logLevel := ← fieldOr "info" text? logLevel
      cluster := ← fieldOr {} ClusterSettings.decode? cluster
      remote := ← fieldOr {} RemoteSettings.decode? remote
      stream := ← fieldOr {} StreamSettings.decode? stream
      persistence := ← fieldOr {} PersistenceSettings.decode? persistence
      exchange := ← fieldOr {} ExchangeSettings.decode? exchange
      alarm := ← fieldOr {} AlarmSettings.decode? alarm
      retention := ← fieldOr {} RetentionSettings.decode? retention
      health := ← fieldOr {} HealthSettings.decode? health }
  | _ => none

end

/-! ### Checks -/

/-- Why a configuration makes no sense. -/
inductive ConfigFault
  | noSelfAddress
  | selfNotListed (address : String)
  | notPositive (setting : String)
  | blockWithoutTimeout
  | unknownCompression (name : String)
  | thresholdOutOfRange (x : Binary64)
  | negativeMinCalls
  deriving DecidableEq

def ConfigFault.message : ConfigFault → String
  | .noSelfAddress => "cluster.self_address is required"
  | .selfNotListed a => "cluster.self_address " ++ a ++ " must be listed in cluster.nodes"
  | .notPositive s => s ++ " must be positive"
  | .blockWithoutTimeout => "stream.block_timeout must be positive with the block policy"
  | .unknownCompression c => "remote.compression must be one of none, gzip (got " ++ Text.quoted c ++ ")"
  | .thresholdOutOfRange x => "alarm.error_rate_threshold must be in (0, 1] (got " ++ x.positional ++ ")"
  | .negativeMinCalls => "alarm.min_calls must not be negative"

namespace Config

/-- The checks in order, each with the fault that it finds. -/
def checks (c : Config) : List (Bool × ConfigFault) := [
  (c.cluster.selfAddress = "", .noSelfAddress),
  (c.cluster.nodes ≠ [] ∧ c.cluster.selfAddress ∉ c.cluster.nodes, .selfNotListed c.cluster.selfAddress),
  (c.cluster.virtualNodes = 0, .notPositive "cluster.virtual_nodes"),
  (c.remote.compression ∉ ["none", "gzip"], .unknownCompression c.remote.compression),
  (c.remote.batchSize = 0, .notPositive "remote.batch_size"),
  (c.remote.timeout.isZero, .notPositive "remote.timeout"),
  (c.stream.queueCapacity = 0, .notPositive "stream.queue_capacity"),
  (c.stream.queuePolicy = .block ∧ c.stream.blockTimeout.isZero, .blockWithoutTimeout),
  (c.stream.window.isZero, .notPositive "stream.aggregation_window"),
  (c.persistence.flushInterval.isZero, .notPositive "persistence.flush_interval"),
  (c.persistence.batchSize = 0, .notPositive "persistence.batch_size"),
  (c.exchange.retryInterval.isZero, .notPositive "exchange.retry_interval"),
  (c.exchange.maxPending = 0, .notPositive "exchange.max_pending"),
  (c.alarm.enabled ∧ ¬((Binary64.zero false).lt c.alarm.errorRateThreshold ∧
    c.alarm.errorRateThreshold.le (Binary64.ofInt 1)), .thresholdOutOfRange c.alarm.errorRateThreshold),
  (c.alarm.enabled ∧ c.alarm.minCalls < 0, .negativeMinCalls),
  (c.retention.enabled ∧ c.retention.retention.isZero, .notPositive "ttl.metric_retention"),
  (c.retention.enabled ∧ c.retention.sweepInterval.isZero, .notPositive "ttl.sweep_interval")]

def fault? (c : Config) : Option ConfigFault := (c.checks.find? (·.1)).map (·.2)

/-- The addresses of the cluster; a node without a list is alone. -/
def clusterNodes (c : Config) : List String :=
  if c.cluster.nodes = [] then [c.cluster.selfAddress] else c.cluster.nodes

def pipelineOptions (c : Config) : PipelineOptions where
  queueCapacity := c.stream.queueCapacity
  policy := match c.stream.queuePolicy with
    | .drop => .drop
    | .block => .block c.stream.blockTimeout
  window := c.stream.window
  flushInterval := c.persistence.flushInterval
  batchSize := c.persistence.batchSize
  shutdownTimeout := c.persistence.shutdownTimeout

def alarmRules? (c : Config) : Option AlarmRules :=
  if c.alarm.enabled then some ⟨c.alarm.minCalls, c.alarm.errorRateThreshold, c.alarm.latency⟩ else none

/-! ### Files -/

/-- Why a configuration file is of no use. -/
inductive LoadFault
  | unreadable
  | undecodable
  | unsound (fault : ConfigFault)
  deriving DecidableEq

def ofYaml (text : String) : Except LoadFault Config :=
  match (Yaml.parse text).bind fun y => decode? y with
  | none => .error .undecodable
  | some c =>
    match c.fault? with
    | some f => .error (.unsound f)
    | none => .ok c

end Config
end TraceRollup

import Weir.Lib.F64
import Mathlib.Data.String.Basic

/-!
# Evidence (`weir-status/src/evidence.rs`, `codes.rs`, `condition.rs`, `config.rs`)

The facts that the status rules read, the codes of the conditions and the thresholds. What
is not known is `none`. Times are unix milliseconds, ages are doubles of seconds; integers
are `u64` unless a width is named.
-/

namespace Weir.Status

open Weir.Lib

/-! ## Closed sets -/

inductive Phase
  | initializing | recovering | handoff | binding | serving | shuttingDown
  deriving DecidableEq

namespace Phase

def all : List Phase := [initializing, recovering, handoff, binding, serving, shuttingDown]

def asStr : Phase → String
  | initializing => "initializing"
  | recovering => "recovering"
  | handoff => "handoff"
  | binding => "binding"
  | serving => "serving"
  | shuttingDown => "shutting_down"

/-- `before_serving`. -/
def beforeServing : Phase → Bool
  | initializing | recovering | handoff | binding => true
  | serving | shuttingDown => false

end Phase

inductive Source
  | daemon | metrics | disk | metricsAndDisk
  deriving DecidableEq

inductive ListenerKind
  | unix | tcp
  deriving DecidableEq

def ListenerKind.asStr : ListenerKind → String
  | unix => "unix"
  | tcp => "tcp"

inductive ListenerState
  | notConfigured | pending | bound | closed | failed
  deriving DecidableEq

def ListenerState.asStr : ListenerState → String
  | notConfigured => "not_configured"
  | pending => "pending"
  | bound => "bound"
  | closed => "closed"
  | failed => "failed"

inductive ShardState
  | starting | up | respawning | offline | stopped
  deriving DecidableEq

inductive OfflineReason
  | respawnExhausted | counterScanFailed | flusherExited
  deriving DecidableEq

def OfflineReason.asStr : OfflineReason → String
  | respawnExhausted => "respawn_exhausted"
  | counterScanFailed => "counter_scan_failed"
  | flusherExited => "flusher_exited"

inductive DrainStateCode
  | draining | retryingTransient | blockedDeadLetterFull | stopped
  deriving DecidableEq

namespace DrainStateCode

def all : List DrainStateCode := [draining, retryingTransient, blockedDeadLetterFull, stopped]

def asStr : DrainStateCode → String
  | draining => "draining"
  | retryingTransient => "retrying_transient"
  | blockedDeadLetterFull => "blocked_dead_letter_full"
  | stopped => "stopped"

end DrainStateCode

inductive DrainExitCode
  | running | stopped | gaveUp
  deriving DecidableEq

inductive SinkHealthCode
  | healthy | degraded | down
  deriving DecidableEq

namespace SinkHealthCode

def all : List SinkHealthCode := [healthy, degraded, down]

def asStr : SinkHealthCode → String
  | healthy => "healthy"
  | degraded => "degraded"
  | down => "down"

end SinkHealthCode

inductive SinkFailureKind
  | transient | permanent | timeout | contractViolation
  deriving DecidableEq

namespace SinkFailureKind

def all : List SinkFailureKind := [transient, permanent, timeout, contractViolation]

def asStr : SinkFailureKind → String
  | transient => "transient"
  | permanent => "permanent"
  | timeout => "timeout"
  | contractViolation => "contract_violation"

end SinkFailureKind

inductive AdminState
  | disabled | bound | unavailable
  deriving DecidableEq

inductive AdminReason
  | parentInsecure | pathTooLong | inUse | bindFailed
  deriving DecidableEq

def AdminReason.asStr : AdminReason → String
  | parentInsecure => "parent_insecure"
  | pathTooLong => "path_too_long"
  | inUse => "in_use"
  | bindFailed => "bind_failed"

inductive ReloadTriggerCode
  | sighup | admin
  deriving DecidableEq

inductive ReloadOutcomeCode
  | applied | noop | failed
  deriving DecidableEq

inductive ReloadItem
  | tlsCertificates | configFile
  deriving DecidableEq

def ReloadItem.asStr : ReloadItem → String
  | tlsCertificates => "tls_certificates"
  | configFile => "config_file"

inductive ReloadItemOutcome
  | reloaded | failed | notConfigured
  deriving DecidableEq

inductive NotReloadedReason
  | restartRequired
  deriving DecidableEq

def NotReloadedReason.asStr : NotReloadedReason → String
  | restartRequired => "restart_required"

/-! ## Sorted maps -/

/-- A `BTreeMap` with text keys: its entries in the order of the keys. -/
abbrev Table (α : Type) := List (String × α)

def Table.insert {α : Type} (key : String) (value : α) : Table α → Table α
  | [] => [(key, value)]
  | entry :: rest =>
    if key = entry.1 then (key, value) :: rest
    else if key < entry.1 then (key, value) :: entry :: rest
    else entry :: Table.insert key value rest

def Table.get {α : Type} (t : Table α) (key : String) : Option α :=
  (t.find? fun entry => entry.1 = key).map Prod.snd

theorem Table.get_cons {α : Type} (entry : String × α) (t : Table α) (key : String) :
    Table.get (entry :: t) key = if entry.1 = key then some entry.2 else t.get key := by
  unfold Table.get
  by_cases h : entry.1 = key <;> simp [h]

theorem Table.get_insert {α : Type} (key key' : String) (value : α) (t : Table α) :
    (t.insert key value).get key' = if key = key' then some value else t.get key' := by
  induction t with
  | nil => exact Table.get_cons (key, value) [] key'
  | cons entry rest ih =>
    unfold Table.insert
    split
    next hkey =>
      rw [Table.get_cons, Table.get_cons, ← hkey]
      by_cases h : key = key' <;> simp [h]
    next hkey =>
      split
      · rw [Table.get_cons]
      rw [Table.get_cons, ih, Table.get_cons]
      by_cases h : key = key'
      · rw [if_pos h, if_neg fun hentry => hkey (h.trans hentry.symm), if_pos h]
      · rw [if_neg h]
        simp [h]

/-! ## Configuration -/

inductive ConfigValue
  | bool (v : Bool)
  | u64 (v : Nat)
  | i64 (v : Int)
  | str (v : String)
  | null

structure PublicConfig where
  shardCount : Option Nat
  workerCount : Option Nat
  wabMaxBytes : Option Nat
  deadLetterMaxBytes : Option Nat
  wabSegmentMaxBytes : Option Nat
  wabSegmentMaxAgeSecs : Option Nat
  wabSegmentMaxLifetimeSecs : Option Nat
  sinkMaxRetries : Option Nat
  sinkTimeoutSecs : Option Nat
  healthPollIntervalSecs : Option Nat
  shutdownTimeoutSecs : Option Nat
  drainShutdownBudgetSecs : Option Nat
  maxConnections : Option Nat
  peerUidCheck : Option Bool
  tlsEnabled : Option Bool

def PublicConfig.default : PublicConfig :=
  ⟨none, none, none, none, none, none, none, none, none, none, none, none, none, none, none⟩

def ConfigValue.asU64 : ConfigValue → Option Nat
  | u64 v => some v
  | _ => none

def ConfigValue.asBool : ConfigValue → Option Bool
  | bool v => some v
  | _ => none

/-- `PublicConfig::from_view`. -/
def PublicConfig.fromView (view : Table ConfigValue) : PublicConfig :=
  let u (key : String) := (view.get key).bind ConfigValue.asU64
  let b (key : String) := (view.get key).bind ConfigValue.asBool
  { shardCount := u "shard_count"
    workerCount := u "worker_count"
    wabMaxBytes := u "wab_max_bytes"
    deadLetterMaxBytes := u "dead_letter_max_bytes"
    wabSegmentMaxBytes := u "wab_segment_max_bytes"
    wabSegmentMaxAgeSecs := u "wab_segment_max_age_secs"
    wabSegmentMaxLifetimeSecs := u "wab_segment_max_lifetime_secs"
    sinkMaxRetries := u "sink_max_retries"
    sinkTimeoutSecs := u "sink_timeout_secs"
    healthPollIntervalSecs := u "health_poll_interval_secs"
    shutdownTimeoutSecs := u "shutdown_timeout_secs"
    drainShutdownBudgetSecs := u "drain_shutdown_budget_secs"
    maxConnections := u "max_connections"
    peerUidCheck := b "peer_uid_check"
    tlsEnabled := b "tls_enabled" }

/-! ## Evidence -/

structure SegmentId where
  shard : Nat
  counter : Nat

structure IdentityEvidence where
  version : String
  wireVersion : Nat
  pid : Nat
  startedAtUnixMs : Nat
  wabDir : String
  socketPath : String
  wabDirDev : Nat
  wabDirIno : Nat

structure ListenerEvidence where
  kind : ListenerKind
  state : ListenerState

structure ShardEvidence (F : F64) where
  id : Nat
  state : ShardState
  reason : Option OfflineReason
  sinceUnixMs : Nat
  respawns : Nat
  workerRunning : Bool
  handoffBlockedSinceUnixMs : Option Nat
  activeSegmentAgeSecs : Option F.Val

/-- `ingest_capable`. -/
def ShardEvidence.ingestCapable {F : F64} (s : ShardEvidence F) : Bool :=
  (s.state = .up || s.state = .respawning) && s.workerRunning

structure WorkerEvidence where
  id : Nat
  running : Bool
  exitedAtUnixMs : Option Nat

structure CapEvidence where
  maxBytes : Nat
  lowWaterBytes : Nat
  bytesNow : Nat
  rejecting : Bool
  firstScanOkUnixMs : Option Nat
  lastScanOkUnixMs : Option Nat
  growingUnbounded : Option Bool

structure ChannelEvidence where
  depth : Nat
  capacity : Nat
  highSinceUnixMs : Option Nat

structure BusyEvidence where
  sinkCall : Bool
  sinceUnixMs : Nat

structure InFlightEvidence where
  segment : SegmentId
  attempt : Nat
  retriesLeft : Nat
  processedRecords : Nat
  nextRetryAtUnixMs : Option Nat

structure RequeueEvidence where
  ticket : Nat
  requeued : Nat
  alreadyQueued : Nat
  backoffCut : Bool
  coalesced : Bool
  scanError : Option String
  atUnixMs : Nat

structure DrainEvidence (F : F64) where
  state : DrainStateCode
  stateSinceUnixMs : Nat
  pauseRequested : Bool
  paused : Bool
  held : Bool
  pausedSinceUnixMs : Option Nat
  pausedByUid : Option Nat
  generation : Nat
  observedRequeue : Nat
  inFlight : Option InFlightEvidence
  commitInFlightSinceUnixMs : Option Nat
  busy : Option BusyEvidence
  lastProgressUnixMs : Option Nat
  heartbeatAgeSecs : Option F.Val
  pendingSegments : Nat
  backlogSegments : Nat
  replayTotal : Nat
  replayRemaining : Nat
  blockedSinceUnixMs : Option Nat
  lastRequeue : Option RequeueEvidence
  exit : DrainExitCode
  lastPanic : Option String

structure SinkEvidence where
  health : Option SinkHealthCode
  healthSinceUnixMs : Option Nat
  lastSuccessUnixMs : Option Nat
  lastFailureUnixMs : Option Nat
  lastFailureKind : Option SinkFailureKind
  consecutiveFailures : Nat
  lastError : Option String
  probeReason : Option String

structure BacklogEvidence (F : F64) where
  undeliveredSegments : Nat
  undeliveredRecords : Nat
  oldestUndeliveredAgeSecs : Option F.Val
  deadLetterBytes : Nat
  deadLetterMaxBytes : Option Nat
  quarantineBytes : Nat
  quarantineFiles : Nat
  scannedAtMs : Nat

structure RecentCounters where
  ackTimeouts5m : Option Nat
  fsyncFailures15m : Option Nat
  flusherPanics15m : Option Nat
  strandedSinceLastSuccess : Option Nat
  drainPanicsTotal : Option Nat
  recoverySegmentsFailed : Option Nat
  recoveryQuarantineCopyFailed : Option Nat
  coalesceEwmaUs : Option Nat

structure ReloadItemEvidence where
  item : ReloadItem
  outcome : ReloadItemOutcome
  detail : Option String

structure NotReloadedEvidence where
  item : ReloadItem
  reasonCode : NotReloadedReason

structure ReloadEvidence where
  trigger : ReloadTriggerCode
  atUnixMs : Nat
  outcome : ReloadOutcomeCode
  tlsLastFailed : Bool
  items : List ReloadItemEvidence
  notReloaded : List NotReloadedEvidence

structure AdminEvidence where
  enabled : Bool
  state : AdminState
  reason : Option AdminReason
  path : Option String

structure ConfigEvidence where
  sinkType : String
  commitTimeoutSecs : Option Nat
  publicConfig : PublicConfig
  view : Table ConfigValue

/-- Everything that the evaluator may read. -/
structure Evidence (F : F64) where
  nowUnixMs : Nat
  source : Source
  identity : Option IdentityEvidence
  startedAtUnixMs : Option Nat
  phase : Option Phase
  phaseSinceUnixMs : Option Nat
  everServed : Option Bool
  shuttingDown : Option Bool
  shuttingDownSinceUnixMs : Option Nat
  forced : Option Bool
  drainDeadlineUnixMs : Option Nat
  drainBudgetSecs : Option Nat
  listeners : Option (List ListenerEvidence)
  shards : Option (List (ShardEvidence F))
  workers : Option (List WorkerEvidence)
  queueDepth : Option Nat
  wabCap : Option CapEvidence
  channel : Option ChannelEvidence
  drain : Option (DrainEvidence F)
  sink : Option SinkEvidence
  backlog : Option (BacklogEvidence F)
  recent : Option RecentCounters
  reload : Option ReloadEvidence
  admin : Option AdminEvidence
  config : Option ConfigEvidence

/-- `Evidence::empty`. -/
def Evidence.empty (F : F64) (nowUnixMs : Nat) (source : Source) : Evidence F where
  nowUnixMs := nowUnixMs
  source := source
  identity := none
  startedAtUnixMs := none
  phase := none
  phaseSinceUnixMs := none
  everServed := none
  shuttingDown := none
  shuttingDownSinceUnixMs := none
  forced := none
  drainDeadlineUnixMs := none
  drainBudgetSecs := none
  listeners := none
  shards := none
  workers := none
  queueDepth := none
  wabCap := none
  channel := none
  drain := none
  sink := none
  backlog := none
  recent := none
  reload := none
  admin := none
  config := none

/-! ## Conditions -/

inductive Severity
  | info | warning | critical
  deriving DecidableEq

inductive Affects
  | ingest | delivery | durability
  deriving DecidableEq

inductive Gate
  | readiness | liveness
  deriving DecidableEq

inductive ConditionCode
  | starting | shuttingDown | listenerDown | noLiveShard | shardOffline | workerExited
  | wabCapRejecting | drainBackpressure | ackTimeoutsRecent | wabScanStale | wabGrowingUnbounded
  | drainStopped | drainWedged | drainPaused | drainBlockedDeadLetterFull | deliveryStalled
  | deliveryLagging | segmentsStranded | sinkDown | sinkDegraded | sinkFailing
  | deadLetterNearCap | noopSink | activeSegmentAging | fsyncFailuresRecent
  | flusherRespawnedRecent | quarantineNonempty | recoveryIncomplete | tlsReloadFailed
  | adminUnavailable | daemonUnreachable | recoveryPending | unknown
  deriving DecidableEq

structure CatalogueEntry where
  code : ConditionCode
  severity : Severity
  affects : Affects
  gates : List Gate
  runbook : String

/-- A row of the catalogue, with the anchor of its runbook. -/
def CatalogueEntry.row (code : ConditionCode) (severity : Severity) (affects : Affects)
    (gates : List Gate) (anchor : String) : CatalogueEntry :=
  ⟨code, severity, affects, gates, "docs/monitoring.md#cond-" ++ anchor⟩

open CatalogueEntry in
/-- `CATALOGUE`. -/
def catalogue : List CatalogueEntry := [
  row .starting .info .ingest [.readiness] "starting",
  row .shuttingDown .info .ingest [.readiness] "shutting_down",
  row .listenerDown .critical .ingest [.readiness, .liveness] "listener_down",
  row .noLiveShard .critical .ingest [.readiness, .liveness] "no_live_shard",
  row .shardOffline .critical .ingest [] "shard_offline",
  row .workerExited .critical .ingest [.liveness] "worker_exited",
  row .wabCapRejecting .critical .ingest [.readiness] "wab_cap_rejecting",
  row .drainBackpressure .warning .ingest [] "drain_backpressure",
  row .ackTimeoutsRecent .warning .ingest [] "ack_timeouts_recent",
  row .wabScanStale .warning .ingest [] "wab_scan_stale",
  row .wabGrowingUnbounded .warning .durability [] "wab_growing_unbounded",
  row .drainStopped .critical .delivery [.liveness] "drain_stopped",
  row .drainWedged .critical .delivery [.liveness] "drain_wedged",
  row .drainPaused .warning .delivery [] "drain_paused",
  row .drainBlockedDeadLetterFull .critical .delivery [] "drain_blocked_dead_letter_full",
  row .deliveryStalled .warning .delivery [] "delivery_stalled",
  row .deliveryLagging .warning .delivery [] "delivery_lagging",
  row .segmentsStranded .warning .delivery [] "segments_stranded",
  row .sinkDown .warning .delivery [] "sink_down",
  row .sinkDegraded .info .delivery [] "sink_degraded",
  row .sinkFailing .warning .delivery [] "sink_failing",
  row .deadLetterNearCap .warning .delivery [] "dead_letter_near_cap",
  row .noopSink .warning .delivery [] "noop_sink",
  row .activeSegmentAging .info .delivery [] "active_segment_aging",
  row .fsyncFailuresRecent .critical .durability [] "fsync_failures_recent",
  row .flusherRespawnedRecent .warning .ingest [] "flusher_respawned_recent",
  row .quarantineNonempty .warning .durability [] "quarantine_nonempty",
  row .recoveryIncomplete .critical .durability [] "recovery_incomplete",
  row .tlsReloadFailed .warning .ingest [] "tls_reload_failed",
  row .adminUnavailable .warning .ingest [] "admin_unavailable"]

inductive EvidenceValue (F : F64)
  | u64 (v : Nat)
  | f64 (v : F.Val)
  | bool (v : Bool)
  | segment (v : SegmentId)
  | shards (v : List Nat)
  | code (v : String)
  | text (v : String)

structure Condition (F : F64) where
  code : ConditionCode
  severity : Severity
  affects : Affects
  sinceUnixMs : Option Nat
  summary : String
  detail : Option String
  evidence : Table (EvidenceValue F)
  runbook : String
  gates : List Gate

structure Evaluation (F : F64) where
  conditions : List (Condition F)
  unevaluated : List ConditionCode

structure Thresholds (F : F64) where
  handoffBlockedMs : Nat
  channelHighMs : Nat
  wabScanStaleMs : Nat
  wedgeGraceMs : Nat
  deliveryStalledMs : Nat
  deliveryLaggingSecs : F.Val
  sinkFailingConsecutive : Nat
  deadLetterNearCapPercent : Nat
  activeSegmentAgingSecs : F.Val
  coalesceSlowUs : Nat

/-- `Thresholds::DEFAULT`. -/
def Thresholds.default (F : F64) : Thresholds F where
  handoffBlockedMs := 1000
  channelHighMs := 10000
  wabScanStaleMs := 30000
  wedgeGraceMs := 15000
  deliveryStalledMs := 300000
  deliveryLaggingSecs := F.ofU64 900
  sinkFailingConsecutive := 3
  deadLetterNearCapPercent := 80
  activeSegmentAgingSecs := F.ofU64 3600
  coalesceSlowUs := 1000000

/-- A drain that has just started. -/
def DrainEvidence.started (F : F64) : DrainEvidence F :=
  { state := .draining, stateSinceUnixMs := 0, pauseRequested := false, paused := false
    held := false, pausedSinceUnixMs := none, pausedByUid := none, generation := 0
    observedRequeue := 0, inFlight := none, commitInFlightSinceUnixMs := none, busy := none
    lastProgressUnixMs := none, heartbeatAgeSecs := none, pendingSegments := 0
    backlogSegments := 0, replayTotal := 0, replayRemaining := 0, blockedSinceUnixMs := none
    lastRequeue := none, exit := .running, lastPanic := none }

/-- `DETAIL_PANIC_MAX_BYTES`. -/
def detailPanicMaxBytes : Nat := 256

end Weir.Status

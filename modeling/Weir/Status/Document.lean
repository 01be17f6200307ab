import Weir.Status.Rules

/-!
# The status documents (`weir-status/src/probe.rs`, `doc.rs`, `public.rs`)

The probes, the document for the administrator, built from the evidence and its evaluation,
and the public document, which is built from the administrator's one.
-/

namespace Weir.Status

open Weir.Lib

variable {F : F64}

/-! ## Probes -/

inductive LivezCheck
  | listenerDown | noLiveShard | workerExited | drainStopped | drainWedged
  deriving DecidableEq

def LivezCheck.code : LivezCheck → ConditionCode
  | listenerDown => .listenerDown
  | noLiveShard => .noLiveShard
  | workerExited => .workerExited
  | drainStopped => .drainStopped
  | drainWedged => .drainWedged

structure ProbeCheck where
  code : ConditionCode
  ok : Bool
  summary : Option String

structure ProbeVerdict where
  ok : Bool
  failing : List ConditionCode
  checks : List ProbeCheck

namespace ProbeVerdict

def passing : ProbeVerdict := ⟨true, [], []⟩

def pass (v : ProbeVerdict) (code : ConditionCode) : ProbeVerdict :=
  { v with checks := v.checks ++ [⟨code, true, none⟩] }

def fail (v : ProbeVerdict) (code : ConditionCode) (summary : Option String) : ProbeVerdict :=
  { ok := false
    failing := v.failing ++ [code]
    checks := v.checks ++ [⟨code, false, summary⟩] }

def record (v : ProbeVerdict) (code : ConditionCode) (outcome : Outcome F) (failClosed : Bool) :
    ProbeVerdict :=
  match outcome with
  | .inactive => v.pass code
  | .active f => v.fail code (some f.summary)
  | .unevaluated => if failClosed then v.fail code none else v.pass code

end ProbeVerdict

/-- `READINESS_CODES`. -/
def readinessCodes : List ConditionCode :=
  [.starting, .shuttingDown, .listenerDown, .noLiveShard, .wabCapRejecting]

/-- `readiness`, for `/readyz`: missing evidence fails the check. -/
def readiness (e : Evidence F) : ProbeVerdict :=
  readinessCodes.foldl (fun v code => v.record code (rule code e (Thresholds.default F)) true)
    .passing

/-- `liveness`, for `/livez`: the selected checks, while serving, on positive evidence. -/
def liveness (e : Evidence F) (t : Thresholds F) (checks : List LivezCheck) : ProbeVerdict :=
  checks.foldl (fun v c =>
    if e.phase = some .serving then v.record c.code (rule c.code e t) false else v.pass c.code)
    .passing

/-- `startup`, for `/startupz`. -/
def startup (e : Evidence F) : ProbeVerdict :=
  if e.everServed = some true then ProbeVerdict.passing.pass .starting
  else
    let summary := match rule .starting e (Thresholds.default F) with
      | .active f => some f.summary
      | .inactive | .unevaluated => none
    ProbeVerdict.passing.fail .starting summary

/-! ## The administrator's document -/

/-- `SCHEMA`. -/
def schemaName : String := "weir.status/v1"

/-- `CHANNEL_CAPACITY`. -/
def channelCapacity : Nat := 256

/-- `ADMIN_PROTOCOL`. -/
def adminProtocol : Nat := 1

/-- `ADMIN_VERBS`. -/
def adminVerbs : List String :=
  ["status", "reload", "drain.pause", "drain.resume", "drain.retry_stranded"]

/-- `MAX_DOC_SHARDS`. -/
def maxDocShards : Nat := 256

/-- `MAX_DOC_CONDITIONS`. -/
def maxDocConditions : Nat := 40

inductive View
  | publicView | admin
  deriving DecidableEq

structure InstanceView where
  wabDir : String
  socketPath : String
  wabDirDev : Nat
  wabDirIno : Nat

structure Verdict where
  ready : Bool
  live : Bool
  startupComplete : Bool
  livezChecks : List LivezCheck
  readinessFailing : List ConditionCode
  livenessFailing : List ConditionCode

structure ReplayView where
  total : Nat
  remaining : Nat

structure StartupView where
  phase : Option Phase
  phaseSinceMs : Option Nat
  replay : Option ReplayView

structure LifecycleView where
  shuttingDown : Option Bool
  shuttingDownSinceMs : Option Nat
  forced : Option Bool
  drainDeadlineMs : Option Nat

structure ListenerView where
  kind : ListenerKind
  state : ListenerState

structure WabCapView where
  maxBytes : Nat
  lowWaterBytes : Nat
  bytesNow : Nat
  rejecting : Bool
  lastScanOkMs : Option Nat

structure IngestView where
  listeners : List ListenerView
  queueDepth : Option Nat
  wabCap : Option WabCapView

structure ShardView (F : F64) where
  id : Nat
  state : ShardState
  reason : Option OfflineReason
  sinceMs : Nat
  respawns : Nat
  workerRunning : Bool
  handoffBlockedSinceMs : Option Nat
  activeSegmentAgeSecs : Option F.Val

structure InFlightView where
  segment : SegmentId
  attempt : Nat
  retriesLeft : Nat
  processedRecords : Nat
  nextRetryAtMs : Option Nat
  commitInFlightSinceMs : Option Nat

structure AdminRequeueView where
  ticket : Nat
  requeued : Nat
  alreadyQueued : Nat
  backoffCut : Bool
  coalesced : Bool
  scanFailed : Bool
  atMs : Nat
  scanError : Option String

structure AdminDrainView (F : F64) where
  state : DrainStateCode
  stateSinceMs : Option Nat
  paused : Bool
  pauseRequested : Bool
  held : Bool
  pausedSinceMs : Option Nat
  pausedByUid : Option Nat
  generation : Nat
  observedRequeue : Nat
  inFlight : Option InFlightView
  pendingSegments : Nat
  backlogSegments : Nat
  channelDepth : Option Nat
  channelCapacity : Nat
  heartbeatAgeSecs : Option F.Val
  blockedSinceMs : Option Nat
  lastRequeue : Option AdminRequeueView
  exit : DrainExitCode
  lastPanic : Option String

structure AdminSinkFailure where
  atMs : Nat
  kind : Option SinkFailureKind
  message : Option String

structure AdminSinkView where
  sinkType : String
  health : Option SinkHealthCode
  healthSinceMs : Option Nat
  lastSuccessMs : Option Nat
  lastFailure : Option AdminSinkFailure
  consecutiveFailures : Nat
  probeReason : Option String

structure BacklogView (F : F64) where
  undeliveredSegments : Nat
  undeliveredRecords : Nat
  oldestUndeliveredAgeSecs : Option F.Val
  deadLetterBytes : Nat
  deadLetterMaxBytes : Option Nat
  quarantineBytes : Nat
  quarantineFiles : Nat
  scannedAtMs : Nat

structure AdminReloadItem where
  item : String
  outcome : ReloadItemOutcome
  detail : Option String

structure NotReloadedView where
  item : String
  reasonCode : String

structure AdminReloadLast where
  trigger : ReloadTriggerCode
  atMs : Nat
  outcome : ReloadOutcomeCode
  items : List AdminReloadItem
  notReloaded : List NotReloadedView

structure AdminReloadView where
  last : Option AdminReloadLast

structure AdminSurfaceView where
  protocol : Nat
  verbs : List String
  state : Option AdminState
  reasonCode : Option String
  path : Option String

structure AdminConfigDoc where
  publicConfig : PublicConfig
  view : Table ConfigValue

/-- `AdminConfigDoc::default`. -/
def AdminConfigDoc.default : AdminConfigDoc := ⟨PublicConfig.default, []⟩

structure AdminStatusDoc (F : F64) where
  schema : String
  view : View
  version : String
  wireVersion : Nat
  generatedAtMs : Nat
  startedAtMs : Nat
  uptimeSecs : F.Val
  pid : Nat
  instanceView : InstanceView
  verdict : Verdict
  conditions : List (Condition F)
  unevaluated : List ConditionCode
  startup : StartupView
  lifecycle : LifecycleView
  ingest : IngestView
  shards : List (ShardView F)
  drain : Option (AdminDrainView F)
  sink : Option AdminSinkView
  backlog : Option (BacklogView F)
  reload : AdminReloadView
  admin : AdminSurfaceView
  config : AdminConfigDoc

/-- `shard_view`. -/
def shardView (s : ShardEvidence F) : ShardView F where
  id := s.id
  state := s.state
  reason := s.reason
  sinceMs := s.sinceUnixMs
  respawns := s.respawns
  workerRunning := s.workerRunning
  handoffBlockedSinceMs := s.handoffBlockedSinceUnixMs
  activeSegmentAgeSecs := s.activeSegmentAgeSecs

def requeueView (r : RequeueEvidence) : AdminRequeueView where
  ticket := r.ticket
  requeued := r.requeued
  alreadyQueued := r.alreadyQueued
  backoffCut := r.backoffCut
  coalesced := r.coalesced
  scanFailed := r.scanError.isSome
  atMs := r.atUnixMs
  scanError := r.scanError

/-- `drain_view`. -/
def drainView (d : DrainEvidence F) (channel : Option ChannelEvidence) : AdminDrainView F where
  state := d.state
  stateSinceMs := some d.stateSinceUnixMs
  paused := d.paused
  pauseRequested := d.pauseRequested
  held := d.held
  pausedSinceMs := d.pausedSinceUnixMs
  pausedByUid := d.pausedByUid
  generation := d.generation
  observedRequeue := d.observedRequeue
  inFlight := d.inFlight.map fun i =>
    { segment := i.segment
      attempt := i.attempt
      retriesLeft := i.retriesLeft
      processedRecords := i.processedRecords
      nextRetryAtMs := i.nextRetryAtUnixMs
      commitInFlightSinceMs := d.commitInFlightSinceUnixMs }
  pendingSegments := d.pendingSegments
  backlogSegments := d.backlogSegments
  channelDepth := channel.map (·.depth)
  channelCapacity := channelCapacity
  heartbeatAgeSecs := d.heartbeatAgeSecs
  blockedSinceMs := d.blockedSinceUnixMs
  lastRequeue := d.lastRequeue.map requeueView
  exit := d.exit
  lastPanic := d.lastPanic

/-- `sink_view`. -/
def sinkView (s : SinkEvidence) (config : Option ConfigEvidence) : AdminSinkView where
  sinkType := config.elim "unknown" (·.sinkType)
  health := s.health
  healthSinceMs := s.healthSinceUnixMs
  lastSuccessMs := s.lastSuccessUnixMs
  lastFailure := s.lastFailureUnixMs.map fun at_ =>
    { atMs := at_, kind := s.lastFailureKind, message := s.lastError }
  consecutiveFailures := s.consecutiveFailures
  probeReason := s.probeReason

def backlogView (b : BacklogEvidence F) : BacklogView F where
  undeliveredSegments := b.undeliveredSegments
  undeliveredRecords := b.undeliveredRecords
  oldestUndeliveredAgeSecs := b.oldestUndeliveredAgeSecs
  deadLetterBytes := b.deadLetterBytes
  deadLetterMaxBytes := b.deadLetterMaxBytes
  quarantineBytes := b.quarantineBytes
  quarantineFiles := b.quarantineFiles
  scannedAtMs := b.scannedAtMs

/-- `reload_last`. -/
def reloadLast (r : ReloadEvidence) : AdminReloadLast where
  trigger := r.trigger
  atMs := r.atUnixMs
  outcome := r.outcome
  items := r.items.map fun i => ⟨i.item.asStr, i.outcome, i.detail⟩
  notReloaded := r.notReloaded.map fun n => ⟨n.item.asStr, n.reasonCode.asStr⟩

/-- `AdminStatusDoc::build`. -/
def AdminStatusDoc.build (identity : IdentityEvidence) (e : Evidence F) (eval : Evaluation F)
    (t : Thresholds F) (livezChecks : List LivezCheck) : AdminStatusDoc F where
  schema := schemaName
  view := .admin
  version := identity.version
  wireVersion := identity.wireVersion
  generatedAtMs := e.nowUnixMs
  startedAtMs := identity.startedAtUnixMs
  uptimeSecs := F.div (F.ofU64 (e.nowUnixMs - identity.startedAtUnixMs)) (F.ofU64 1000)
  pid := identity.pid
  instanceView :=
    { wabDir := identity.wabDir
      socketPath := identity.socketPath
      wabDirDev := identity.wabDirDev
      wabDirIno := identity.wabDirIno }
  verdict :=
    { ready := (readiness e).ok
      live := (liveness e t livezChecks).ok
      startupComplete := (Status.startup e).ok
      livezChecks := livezChecks
      readinessFailing := (readiness e).failing
      livenessFailing := (liveness e t livezChecks).failing }
  conditions := eval.conditions.take maxDocConditions
  unevaluated := eval.unevaluated
  startup :=
    { phase := e.phase
      phaseSinceMs := e.phaseSinceUnixMs
      replay := e.drain.map fun d => ⟨d.replayTotal, d.replayRemaining⟩ }
  lifecycle :=
    { shuttingDown := e.shuttingDown
      shuttingDownSinceMs := e.shuttingDownSinceUnixMs
      forced := e.forced
      drainDeadlineMs := e.drainDeadlineUnixMs }
  ingest :=
    { listeners := (e.listeners.getD []).map fun l => ⟨l.kind, l.state⟩
      queueDepth := e.queueDepth
      wabCap := e.wabCap.map fun c =>
        { maxBytes := c.maxBytes
          lowWaterBytes := c.lowWaterBytes
          bytesNow := c.bytesNow
          rejecting := c.rejecting
          lastScanOkMs := c.lastScanOkUnixMs } }
  shards := ((e.shards.getD []).take maxDocShards).map shardView
  drain := e.drain.map fun d => drainView d e.channel
  sink := e.sink.map fun s => sinkView s e.config
  backlog := e.backlog.map backlogView
  reload := ⟨e.reload.map reloadLast⟩
  admin :=
    { protocol := adminProtocol
      verbs := adminVerbs
      state := e.admin.map (·.state)
      reasonCode := (e.admin.bind (·.reason)).map AdminReason.asStr
      path := e.admin.bind (·.path) }
  config := (e.config.map fun c => ⟨c.publicConfig, c.view⟩).getD AdminConfigDoc.default

/-! ## The public document -/

inductive PublicEvidenceValue (F : F64)
  | u64 (v : Nat)
  | f64 (v : F.Val)
  | bool (v : Bool)
  | segment (v : SegmentId)
  | shards (v : List Nat)
  | code (v : String)

/-- `PublicEvidenceValue::from_admin`: free text is for the administrator only. -/
def PublicEvidenceValue.fromAdmin : EvidenceValue F → Option (PublicEvidenceValue F)
  | .u64 n => some (u64 n)
  | .f64 x => some (f64 x)
  | .bool b => some (bool b)
  | .code c => some (code c)
  | .segment s => some (segment s)
  | .shards s => some (shards s)
  | .text _ => none

structure PublicCondition (F : F64) where
  code : ConditionCode
  severity : Severity
  affects : Affects
  sinceMs : Option Nat
  summary : String
  evidence : Table (PublicEvidenceValue F)
  runbook : String
  gates : List Gate

structure PublicRequeueView where
  ticket : Nat
  requeued : Nat
  alreadyQueued : Nat
  backoffCut : Bool
  coalesced : Bool
  scanFailed : Bool
  atMs : Nat

structure PublicDrainView (F : F64) where
  state : DrainStateCode
  stateSinceMs : Option Nat
  paused : Bool
  pauseRequested : Bool
  held : Bool
  pausedSinceMs : Option Nat
  generation : Nat
  observedRequeue : Nat
  inFlight : Option InFlightView
  pendingSegments : Nat
  backlogSegments : Nat
  channelDepth : Option Nat
  channelCapacity : Nat
  heartbeatAgeSecs : Option F.Val
  blockedSinceMs : Option Nat
  lastRequeue : Option PublicRequeueView
  exit : DrainExitCode

structure PublicSinkFailure where
  atMs : Nat
  kind : Option SinkFailureKind

structure PublicSinkView where
  sinkType : String
  health : Option SinkHealthCode
  healthSinceMs : Option Nat
  lastSuccessMs : Option Nat
  lastFailure : Option PublicSinkFailure
  consecutiveFailures : Nat

structure PublicReloadItem where
  item : String
  outcome : ReloadItemOutcome

structure PublicReloadLast where
  trigger : ReloadTriggerCode
  atMs : Nat
  outcome : ReloadOutcomeCode
  items : List PublicReloadItem
  notReloaded : List NotReloadedView

structure PublicReloadView where
  last : Option PublicReloadLast

structure PublicAdminSurface where
  protocol : Nat
  verbs : List String
  state : Option AdminState
  reasonCode : Option String

@[ext]
structure PublicStatusDoc (F : F64) where
  schema : String
  view : View
  version : String
  wireVersion : Nat
  generatedAtMs : Nat
  startedAtMs : Nat
  uptimeSecs : F.Val
  verdict : Verdict
  conditions : List (PublicCondition F)
  unevaluated : List ConditionCode
  startup : StartupView
  lifecycle : LifecycleView
  ingest : IngestView
  shards : List (ShardView F)
  drain : Option (PublicDrainView F)
  sink : Option PublicSinkView
  backlog : Option (BacklogView F)
  reload : PublicReloadView
  admin : PublicAdminSurface
  config : PublicConfig

/-- `public_condition`. -/
def publicCondition (c : Condition F) : PublicCondition F where
  code := c.code
  severity := c.severity
  affects := c.affects
  sinceMs := c.sinceUnixMs
  summary := c.summary
  evidence := c.evidence.filterMap fun entry =>
    (PublicEvidenceValue.fromAdmin entry.2).map fun v => (entry.1, v)
  runbook := c.runbook
  gates := c.gates

def publicRequeue (r : AdminRequeueView) : PublicRequeueView where
  ticket := r.ticket
  requeued := r.requeued
  alreadyQueued := r.alreadyQueued
  backoffCut := r.backoffCut
  coalesced := r.coalesced
  scanFailed := r.scanFailed
  atMs := r.atMs

/-- `public_drain`. -/
def publicDrain (d : AdminDrainView F) : PublicDrainView F where
  state := d.state
  stateSinceMs := d.stateSinceMs
  paused := d.paused
  pauseRequested := d.pauseRequested
  held := d.held
  pausedSinceMs := d.pausedSinceMs
  generation := d.generation
  observedRequeue := d.observedRequeue
  inFlight := d.inFlight
  pendingSegments := d.pendingSegments
  backlogSegments := d.backlogSegments
  channelDepth := d.channelDepth
  channelCapacity := d.channelCapacity
  heartbeatAgeSecs := d.heartbeatAgeSecs
  blockedSinceMs := d.blockedSinceMs
  lastRequeue := d.lastRequeue.map publicRequeue
  exit := d.exit

/-- `public_sink`. -/
def publicSink (s : AdminSinkView) : PublicSinkView where
  sinkType := s.sinkType
  health := s.health
  healthSinceMs := s.healthSinceMs
  lastSuccessMs := s.lastSuccessMs
  lastFailure := s.lastFailure.map fun f => ⟨f.atMs, f.kind⟩
  consecutiveFailures := s.consecutiveFailures

def publicReloadLast (l : AdminReloadLast) : PublicReloadLast where
  trigger := l.trigger
  atMs := l.atMs
  outcome := l.outcome
  items := l.items.map fun i => ⟨i.item, i.outcome⟩
  notReloaded := l.notReloaded

/-- `public_reload`. -/
def publicReload (r : AdminReloadView) : PublicReloadView := ⟨r.last.map publicReloadLast⟩

/-- `public_admin_surface`. -/
def publicAdminSurface (a : AdminSurfaceView) : PublicAdminSurface where
  protocol := a.protocol
  verbs := a.verbs
  state := a.state
  reasonCode := a.reasonCode

/-- `public`. -/
def publicDoc (doc : AdminStatusDoc F) : PublicStatusDoc F where
  schema := doc.schema
  view := .publicView
  version := doc.version
  wireVersion := doc.wireVersion
  generatedAtMs := doc.generatedAtMs
  startedAtMs := doc.startedAtMs
  uptimeSecs := doc.uptimeSecs
  verdict := doc.verdict
  conditions := (doc.conditions.take maxDocConditions).map publicCondition
  unevaluated := doc.unevaluated
  startup := doc.startup
  lifecycle := doc.lifecycle
  ingest := doc.ingest
  shards := doc.shards.take maxDocShards
  drain := doc.drain.map publicDrain
  sink := doc.sink.map publicSink
  backlog := doc.backlog
  reload := publicReload doc.reload
  admin := publicAdminSurface doc.admin
  config := doc.config.publicConfig

/-- The public document of the daemon: the evidence is evaluated, the administrator's document
is built of it, and the public one of that. -/
def publicStatus (identity : IdentityEvidence) (e : Evidence F) (t : Thresholds F)
    (latches : ConditionCode → Option Nat) (livezChecks : List LivezCheck) : PublicStatusDoc F :=
  publicDoc (AdminStatusDoc.build identity e (evaluate e t latches) t livezChecks)

end Weir.Status

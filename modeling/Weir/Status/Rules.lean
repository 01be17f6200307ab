import Weir.Lock.Record
import Weir.Status.Evidence

/-!
# The rules (`weir-status/src/rules.rs`, `summary.rs`)

One rule for each condition. A rule says that its condition is active, that it is not, or
that the evidence it needs is missing.
-/

namespace Weir.Status

open Weir.Lib

variable {F : F64}

/-- `age_ms`. -/
def ageMs (now since : Nat) : Nat := now - since

/-- `u64::MAX`. -/
def u64Max : Nat := 2 ^ 64 - 1

def saturatingMul (a b : Nat) : Nat := min (a * b) u64Max

def saturatingAdd (a b : Nat) : Nat := min (a + b) u64Max

/-- `tri_or`. -/
def triOr : Option Bool → Option Bool → Option Bool
  | some true, _ => some true
  | _, some true => some true
  | some false, some false => some false
  | _, _ => none

inductive AckTimeoutCause
  | deliveryStallingIngest | storageSlowOrFailing | flusherNotCompleting
  deriving DecidableEq

def AckTimeoutCause.asStr : AckTimeoutCause → String
  | deliveryStallingIngest => "delivery_stalling_ingest"
  | storageSlowOrFailing => "storage_slow_or_failing"
  | flusherNotCompleting => "flusher_not_completing"

/-! ## Summaries -/

namespace Summary

/-- `join_ids`. -/
def joinIds (ids : List Nat) : String := ",".intercalate (ids.map toString)

def starting (phase : Phase) (secs : Nat) : String :=
  s!"startup phase {phase.asStr} for {secs}s; the producer socket binds after recovery seals " ++
    "open segments"

def shuttingDown : Option Nat → Option Nat → String
  | some left, some budget =>
    s!"graceful shutdown; new connections refused; drain has {left}s of its {budget}s budget"
  | _, _ => "graceful shutdown; new connections refused"

def listenerDown (kind : ListenerKind) : String :=
  s!"{kind.asStr} listener is not accepting; restart re-binds it"

def noLiveShard : String :=
  "every shard's flusher or owning worker is offline; new connections are refused; restart " ++
    "re-runs recovery"

def shardOffline (ids : List Nat) (reason : OfflineReason) : String :=
  s!"shard(s) {joinIds ids} offline ({reason.asStr}); new connections avoid them; connections " ++
    "already pinned to them nack until they reconnect; restart to recover"

def workerExited (worker : Nat) (shards : List Nat) : String :=
  s!"worker {worker} exited; shards {joinIds shards} cannot accept records"

def wabCapRejecting (bytes cap lowWater : Nat) : String :=
  s!"WAB holds {bytes} of the {cap} cap; pushes nack until below {lowWater}; the root cause is " ++
    "delivery (see drain/sink conditions)"

def drainBackpressure (depth : Option Nat) (ids : List Nat) (blockedSecs : Nat) : String :=
  let shown := depth.elim "unknown" toString
  s!"drain channel {shown}/256; shard(s) {joinIds ids} blocked handing off for {blockedSecs}s; " ++
    "acks wait behind the hand-off, so producers see ACK_TIMEOUT nacks of durable records " ++
    "(delivery, not storage)"

def ackTimeoutsRecent (count : Nat) (cause : AckTimeoutCause) : String :=
  let why := match cause with
    | .deliveryStallingIngest => "delivery is stalling ingest"
    | .storageSlowOrFailing => "storage is slow or failing"
    | .flusherNotCompleting => "a flusher is not completing groups; check shards"
  s!"{count} ack timeout(s) in the last 5 min; {why}"

def wabScanStale (never : Bool) (ageSecs : Nat) : String :=
  let tail :=
    "wab_max_bytes is enforced against a stale size (fail-closed); lag figures are stale"
  if never then s!"no successful WAB scan yet; {tail}"
  else s!"no successful WAB scan for {ageSecs}s; {tail}"

def wabGrowingUnbounded : String :=
  "the WAB is growing while delivery is unhealthy and no wab_max_bytes is set; producers are " ++
    "acked into an unbounded buffer"

def drainStopped (panics : Nat) : String :=
  s!"drain supervisor gave up after {panics} panics; ingest continues, nothing is delivered, " ++
    "the WAB grows; sink_health is stale; restart resumes"

def drainWedged (inSinkCall : Bool) (secs : Nat) : String :=
  let place := if inSinkCall then "inside a sink call" else "with no sink call in flight"
  s!"drain thread has made no progress for {secs}s ({place}); it is blocked inside a sink call " ++
    "that does not yield; a restart re-delivers the in-flight segment from record 0"

def drainPaused (sinceMs : Nat) (heldAt : Option Nat) (unbounded : Bool) : String :=
  let held := heldAt.elim "" fun n => s!" (held: mid-segment at record {n})"
  let grows := if unbounded then "WAB grows without bound: wab_max_bytes=0" else "WAB grows"
  s!"delivery paused since {sinceMs}{held}; ingest keeps buffering; {grows}; restart also resumes"

def drainBlocked (dlBytes cap : Option Nat) : String :=
  let shown (v : Option Nat) := v.elim "?" toString
  s!"dead_letter/ at {shown dlBytes}/{shown cap}; free space (weir-ctl dl requeue/drop) or " ++
    "raise the cap"

def deliveryStalled (undelivered secs : Nat) : String :=
  s!"{undelivered} undelivered segment(s) and no successful commit for {secs}s"

def deliveryLagging (ageSecs : Nat) : String :=
  s!"the oldest undelivered segment is up to {ageSecs}s old"

def segmentsStranded (n : Nat) : String :=
  s!"{n} segment(s) exhausted retries; auto-resumed on a healthy probe or via `weir-ctl drain " ++
    "retry-stranded`; each resume re-delivers from record 0"

def sinkDown : Option Nat → String
  | some t => s!"sink unreachable since {t}; weir keeps buffering durably (not a readiness failure)"
  | none => "sink unreachable; weir keeps buffering durably (not a readiness failure)"

def sinkDegraded : String := "the sink's health probe reports degraded"

def sinkFailing (failures : Nat) (kind : Option SinkFailureKind) : String :=
  let shown := kind.elim "unknown" SinkFailureKind.asStr
  s!"{failures} consecutive commits failed while the probe passes; last kind {shown}"

def deadLetterNearCap (bytes cap : Nat) : String :=
  s!"dead_letter/ holds {bytes} of its {cap}-byte cap"

def noopSink : String := "records are acked and DISCARDED"

def activeSegmentAging (shard secs : Nat) : String :=
  s!"shard {shard}'s active segment is {secs}s old and both seal timers are 0; its records wait " ++
    "for a size rotation or shutdown"

def fsyncFailuresRecent (n : Nat) : String :=
  s!"{n} WAB fsync failure(s) in the last 15 min; the records in those groups were nacked, not " ++
    "acked"

def flusherRespawnedRecent (n : Nat) : String :=
  s!"{n} WAB flusher panic(s) in the last 15 min; every shard is back up"

def quarantineNonempty (bytes files : Nat) : String :=
  s!"quarantine/ holds {files} file(s), {bytes} bytes; inspect with weir-ctl quarantine"

def recoveryIncomplete (failed copyFailed : Nat) : String :=
  s!"startup recovery failed for {failed} segment(s) and could not keep {copyFailed} quarantine " ++
    "copy(ies) in this process"

def tlsReloadFailed : String := "the last TLS reload failed; previous certificates still served"

def adminUnavailable (reason : Option AdminReason) : String :=
  let shown := reason.elim "unknown" AdminReason.asStr
  s!"admin socket not bound ({shown}); weir-ctl drain/reload unavailable, kill -HUP still reloads"

end Summary

/-! ## Outcomes -/

structure Fired (F : F64) where
  summary : String
  detail : Option String
  evidence : Table (EvidenceValue F)

def Fired.new (summary : String) : Fired F := ⟨summary, none, []⟩

/-- `Fired::with`. -/
def Fired.withValue (f : Fired F) (key : String) (v : EvidenceValue F) : Fired F :=
  { f with evidence := f.evidence.insert key v }

/-- `Fired::with`, if there is a value. -/
def Fired.withSome {α : Type} (f : Fired F) (key : String) (v : Option α)
    (value : α → EvidenceValue F) : Fired F :=
  v.elim f fun a => f.withValue key (value a)

/-- `Fired::detail`. -/
def Fired.withDetail (f : Fired F) (d : Option String) : Fired F := { f with detail := d }

inductive Outcome (F : F64)
  | unevaluated
  | inactive
  | active (f : Fired F)

def Outcome.isActive : Outcome F → Bool
  | active _ => true
  | _ => false

/-! ## One rule for each code -/

variable (e : Evidence F) (t : Thresholds F)

def starting : Outcome F :=
  match e.phase with
  | none => .unevaluated
  | some phase =>
    if !phase.beforeServing then .inactive
    else
      let secs := e.phaseSinceUnixMs.elim 0 fun s => ageMs e.nowUnixMs s / 1000
      .active (((Fired.new (Summary.starting phase secs)).withValue "phase" (.code phase.asStr)
        ).withValue "phase_secs" (.u64 secs))

def shuttingDown : Outcome F :=
  match e.shuttingDown with
  | none => .unevaluated
  | some false => .inactive
  | some true =>
    let left := e.drainDeadlineUnixMs.map fun d => (d - e.nowUnixMs) / 1000
    .active ((((Fired.new (Summary.shuttingDown left e.drainBudgetSecs)).withValue "forced"
      (.bool (e.forced.getD false))).withSome "budget_left_secs" left .u64).withSome "budget_secs"
      e.drainBudgetSecs .u64)

/-- Whether a listener is down, if that is known. -/
def listenerIsDown (sd : Option Bool) : ListenerState → Option Bool
  | .failed => some true
  | .closed => sd.map (!·)
  | .notConfigured | .pending | .bound => some false

/-- The loop of `listener_down`. -/
def listenerLoop (sd : Option Bool) : List ListenerEvidence → Bool → Outcome F
  | [], unknown => if unknown then .unevaluated else .inactive
  | l :: ls, unknown =>
    match listenerIsDown sd l.state with
    | some true => .active (((Fired.new (Summary.listenerDown l.kind)).withValue "listener"
        (.code l.kind.asStr)).withValue "state" (.code l.state.asStr))
    | none => listenerLoop sd ls true
    | some false => listenerLoop sd ls unknown

def listenerDown : Outcome F :=
  match e.listeners with
  | none => .unevaluated
  | some listeners => listenerLoop e.shuttingDown listeners false

def noLiveShard : Outcome F :=
  match e.phase, e.shards with
  | some phase, some shards =>
    if phase ≠ .serving ∨ shards.any ShardEvidence.ingestCapable then .inactive
    else .active ((Fired.new Summary.noLiveShard).withValue "shard_count" (.u64 shards.length))
  | _, _ => .unevaluated

def shardOffline : Outcome F :=
  match e.shards, e.shuttingDown with
  | some shards, some sd =>
    if sd then .inactive
    else
      let offline := shards.filter fun s => s.state = .offline
      match offline with
      | [] => .inactive
      | first :: _ =>
        if offline.length = shards.length then .inactive
        else
          let ids := offline.map (·.id)
          let reason := first.reason.getD .flusherExited
          .active (((Fired.new (Summary.shardOffline ids reason)).withValue "reason"
            (.code reason.asStr)).withValue "shards" (.shards ids))
  | _, _ => .unevaluated

/-- `as u16`. -/
def toU16 (n : Nat) : Nat := n % 2 ^ 16

def workerExited : Outcome F :=
  match e.workers, e.shuttingDown with
  | some workers, some sd =>
    if sd then .inactive
    else
      match workers.find? fun w => !w.running && w.exitedAtUnixMs.isSome with
      | none => .inactive
      | some w =>
        let n := toU16 workers.length
        let shards := ((e.shards.getD []).map (·.id)).filter fun id => 0 < n && id % n = w.id
        .active (((Fired.new (Summary.workerExited w.id shards)).withValue "worker"
          (.u64 w.id)).withValue "shards" (.shards shards))
  | _, _ => .unevaluated

def wabCapRejecting : Outcome F :=
  match e.wabCap with
  | none => .unevaluated
  | some c =>
    if !c.rejecting then .inactive
    else .active ((((Fired.new (Summary.wabCapRejecting c.bytesNow c.maxBytes
      c.lowWaterBytes)).withValue "bytes" (.u64 c.bytesNow)).withValue "cap"
      (.u64 c.maxBytes)).withValue "low_water" (.u64 c.lowWaterBytes))

/-- The shards that are blocked for too long, and for how many seconds the longest is. -/
def blockedShards (now : Nat) (t : Thresholds F) (shards : List (ShardEvidence F)) :
    List Nat × Nat :=
  let ids := (shards.filter fun s => s.handoffBlockedSinceUnixMs.any fun b =>
    t.handoffBlockedMs ≤ ageMs now b).map (·.id)
  let longest := ((shards.filterMap (·.handoffBlockedSinceUnixMs)).map (ageMs now)).foldl max 0
  (ids, longest / 1000)

def drainBackpressure : Outcome F :=
  let blocked := e.shards.map (blockedShards e.nowUnixMs t)
  let channelHigh := e.channel.map fun c => c.highSinceUnixMs.any fun h =>
    decide (t.channelHighMs ≤ ageMs e.nowUnixMs h)
  match triOr (blocked.map fun b => !b.1.isEmpty) channelHigh with
  | none => .unevaluated
  | some false => .inactive
  | some true =>
    let found := blocked.getD ([], 0)
    let depth := e.channel.map (·.depth)
    .active ((((Fired.new (Summary.drainBackpressure depth found.1 found.2)).withValue
      "blocked_secs" (.u64 found.2)).withValue "shards" (.shards found.1)).withSome
      "channel_depth" depth .u64)

def ackTimeoutsRecent : Outcome F :=
  match e.recent.bind (·.ackTimeouts5m) with
  | none => .unevaluated
  | some n =>
    if n = 0 then .inactive
    else
      let storage := e.recent.any fun r =>
        0 < r.fsyncFailures15m.getD 0 || t.coalesceSlowUs < r.coalesceEwmaUs.getD 0
      let cause : AckTimeoutCause :=
        if (drainBackpressure e t).isActive then .deliveryStallingIngest
        else if storage then .storageSlowOrFailing
        else .flusherNotCompleting
      .active (((Fired.new (Summary.ackTimeoutsRecent n cause)).withValue "ack_timeouts"
        (.u64 n)).withValue "cause" (.code cause.asStr))

def wabScanStale : Outcome F :=
  if e.source ≠ .daemon then .unevaluated
  else
    match e.wabCap with
    | none => .unevaluated
    | some c =>
      match c.lastScanOkUnixMs with
      | none => .active ((Fired.new (Summary.wabScanStale true 0)).withValue "never" (.bool true))
      | some at_ =>
        if t.wabScanStaleMs < ageMs e.nowUnixMs at_ then
          let secs := ageMs e.nowUnixMs at_ / 1000
          .active ((Fired.new (Summary.wabScanStale false secs)).withValue "scan_age_secs"
            (.u64 secs))
        else .inactive

def wabGrowingUnbounded : Outcome F :=
  match e.wabCap.bind (·.growingUnbounded) with
  | none => .unevaluated
  | some false => .inactive
  | some true => .active (Fired.new Summary.wabGrowingUnbounded)

/-- `truncate`: the longest start that fits and ends at a character boundary. -/
def truncate (s : String) (max : Nat) : String := String.ofList (Lock.takeBytes max s.toList)

def drainStopped : Outcome F :=
  match e.drain, e.shuttingDown with
  | some d, some sd =>
    if d.exit ≠ .gaveUp ∨ sd then .inactive
    else
      let panics := (e.recent.bind (·.drainPanicsTotal)).getD 0
      .active (((Fired.new (Summary.drainStopped panics)).withValue "panics"
        (.u64 panics)).withDetail (d.lastPanic.map fun p => truncate p detailPanicMaxBytes))
  | _, _ => .unevaluated

/-- A sink call that has run for longer than the commit timeout and the grace. -/
def sinkCallWedged (commitTimeoutSecs : Option Nat) (t : Thresholds F) (age : Nat)
    (key : String) : Outcome F :=
  match commitTimeoutSecs with
  | none => .unevaluated
  | some ct =>
    if saturatingAdd (saturatingMul ct 1000) t.wedgeGraceMs < age then
      .active ((Fired.new (Summary.drainWedged true (age / 1000))).withValue key
        (.u64 (age / 1000)))
    else .inactive

def drainWedged : Outcome F :=
  match e.drain, e.config with
  | some d, some c =>
    if d.exit ≠ .running then .inactive
    else
      match d.commitInFlightSinceUnixMs with
      | some since =>
        sinkCallWedged c.commitTimeoutSecs t (ageMs e.nowUnixMs since) "commit_age_secs"
      | none =>
        match d.busy with
        | some b =>
          if !b.sinkCall then .inactive
          else sinkCallWedged c.commitTimeoutSecs t (ageMs e.nowUnixMs b.sinceUnixMs) "busy_secs"
        | none =>
          match d.lastProgressUnixMs, c.publicConfig.healthPollIntervalSecs with
          | some p, some hp =>
            let age := ageMs e.nowUnixMs p
            if saturatingAdd (saturatingMul hp 1000) t.wedgeGraceMs ≤ age then
              .active ((Fired.new (Summary.drainWedged false (age / 1000))).withValue
                "progress_age_secs" (.u64 (age / 1000)))
            else .inactive
          | _, _ => .unevaluated
  | _, _ => .unevaluated

def drainPaused : Outcome F :=
  match e.drain with
  | none => .unevaluated
  | some d =>
    if !(d.pauseRequested || d.paused) then .inactive
    else
      let unbounded := e.config.any fun c => c.publicConfig.wabMaxBytes = some 0
      let held := d.inFlight.filter fun _ => d.held
      let since := d.pausedSinceUnixMs.getD e.nowUnixMs
      .active ((((((Fired.new (Summary.drainPaused since (held.map (·.processedRecords))
        unbounded)).withValue "held" (.bool d.held)).withValue "in_effect"
        (.bool d.paused)).withDetail (d.pausedByUid.map fun uid => s!"paused by uid {uid}")
        ).withSome "held_at_record" (held.map (·.processedRecords)) .u64).withSome "segment"
        (held.map (·.segment)) .segment)

def drainBlockedDeadLetterFull : Outcome F :=
  match e.drain with
  | none => .unevaluated
  | some d =>
    if d.state ≠ .blockedDeadLetterFull then .inactive
    else
      let dl := e.backlog.map (·.deadLetterBytes)
      let cap := e.config.bind (·.publicConfig.deadLetterMaxBytes)
      .active ((Fired.new (Summary.drainBlocked dl cap)).withSome "blocked_since_ms"
        d.blockedSinceUnixMs .u64)

def deliveryStalled : Outcome F :=
  match e.backlog, e.sink, e.drain with
  | some b, some s, some d =>
    if b.undeliveredSegments = 0 ∨ d.paused ∨ d.pauseRequested then .inactive
    else
      match s.lastSuccessUnixMs.or e.startedAtUnixMs with
      | none => .unevaluated
      | some reference =>
        let idle := ageMs e.nowUnixMs reference
        if idle < t.deliveryStalledMs then .inactive
        else .active (((Fired.new (Summary.deliveryStalled b.undeliveredSegments
          (idle / 1000))).withValue "undelivered_segments" (.u64 b.undeliveredSegments)
          ).withValue "idle_secs" (.u64 (idle / 1000)))
  | _, _, _ => .unevaluated

def deliveryLagging : Outcome F :=
  match e.backlog with
  | none => .unevaluated
  | some b =>
    match b.oldestUndeliveredAgeSecs with
    | none => .inactive
    | some a =>
      if F.lt t.deliveryLaggingSecs a then
        .active ((Fired.new (Summary.deliveryLagging (F.toU64 a))).withValue "oldest_age_secs"
          (.f64 a))
      else .inactive

def segmentsStranded : Outcome F :=
  match e.recent.bind (·.strandedSinceLastSuccess) with
  | none => .unevaluated
  | some n =>
    if n = 0 then .inactive
    else .active ((Fired.new (Summary.segmentsStranded n)).withValue "stranded" (.u64 n))

def sinkDown : Outcome F :=
  match e.sink with
  | none => .unevaluated
  | some s =>
    match s.health with
    | none => .unevaluated
    | some .down => .active ((Fired.new (Summary.sinkDown s.healthSinceUnixMs)).withDetail
        s.probeReason)
    | some _ => .inactive

def sinkDegraded : Outcome F :=
  match e.sink with
  | none => .unevaluated
  | some s =>
    match s.health with
    | none => .unevaluated
    | some .degraded => .active ((Fired.new Summary.sinkDegraded).withDetail s.probeReason)
    | some _ => .inactive

def sinkFailing : Outcome F :=
  match e.sink with
  | none => .unevaluated
  | some s =>
    if s.consecutiveFailures < t.sinkFailingConsecutive ∨ s.health = some .down then .inactive
    else .active ((((Fired.new (Summary.sinkFailing s.consecutiveFailures
      s.lastFailureKind)).withValue "consecutive_failures" (.u64 s.consecutiveFailures)
      ).withDetail s.lastError).withSome "kind" s.lastFailureKind fun k => .code k.asStr)

def deadLetterNearCap : Outcome F :=
  match e.backlog, e.config with
  | some b, some c =>
    match c.publicConfig.deadLetterMaxBytes with
    | none => .unevaluated
    | some cap =>
      if cap = 0 ∨ saturatingMul b.deadLetterBytes 100
          < saturatingMul cap t.deadLetterNearCapPercent then .inactive
      else .active (((Fired.new (Summary.deadLetterNearCap b.deadLetterBytes cap)).withValue
        "bytes" (.u64 b.deadLetterBytes)).withValue "cap" (.u64 cap))
  | _, _ => .unevaluated

def noopSink : Outcome F :=
  match e.config with
  | none => .unevaluated
  | some c => if c.sinkType = "noop" then .active (Fired.new Summary.noopSink) else .inactive

/-- `Iterator::max_by` with `total_cmp`: of equal ones the last. -/
def maxByValue {α : Type} (xs : List (α × F.Val)) : Option (α × F.Val) :=
  xs.foldl (fun best x => some (best.elim x fun b => if F.totalCmp b.2 x.2 = .gt then b else x))
    none

def activeSegmentAging : Outcome F :=
  match e.shards, e.config, e.backlog with
  | some shards, some c, some _ =>
    match c.publicConfig.wabSegmentMaxAgeSecs, c.publicConfig.wabSegmentMaxLifetimeSecs with
    | some age, some life =>
      if age ≠ 0 ∨ life ≠ 0 then .inactive
      else
        let ages := shards.filterMap fun s => s.activeSegmentAgeSecs.map fun a => (s.id, a)
        match maxByValue (ages.filter fun x => F.lt t.activeSegmentAgingSecs x.2) with
        | none => .inactive
        | some oldest => .active (((Fired.new (Summary.activeSegmentAging oldest.1
            (F.toU64 oldest.2))).withValue "shard" (.u64 oldest.1)).withValue "age_secs"
            (.f64 oldest.2))
    | _, _ => .unevaluated
  | _, _, _ => .unevaluated

def fsyncFailuresRecent : Outcome F :=
  match e.recent.bind (·.fsyncFailures15m) with
  | none => .unevaluated
  | some n =>
    if n = 0 then .inactive
    else .active ((Fired.new (Summary.fsyncFailuresRecent n)).withValue "fsync_failures" (.u64 n))

def flusherRespawnedRecent : Outcome F :=
  match e.recent.bind (·.flusherPanics15m), e.shards with
  | some n, some shards =>
    if n = 0 ∨ !shards.all fun s => s.state = .up then .inactive
    else .active ((Fired.new (Summary.flusherRespawnedRecent n)).withValue "panics" (.u64 n))
  | _, _ => .unevaluated

def quarantineNonempty : Outcome F :=
  match e.backlog with
  | none => .unevaluated
  | some b =>
    if b.quarantineBytes = 0 then .inactive
    else .active (((Fired.new (Summary.quarantineNonempty b.quarantineBytes
      b.quarantineFiles)).withValue "bytes" (.u64 b.quarantineBytes)).withValue "files"
      (.u64 b.quarantineFiles))

def recoveryIncomplete : Outcome F :=
  match e.recent with
  | none => .unevaluated
  | some r =>
    match r.recoverySegmentsFailed, r.recoveryQuarantineCopyFailed with
    | some failed, some copy =>
      if failed = 0 ∧ copy = 0 then .inactive
      else .active (((Fired.new (Summary.recoveryIncomplete failed copy)).withValue
        "segments_failed" (.u64 failed)).withValue "quarantine_copy_failed" (.u64 copy))
    | _, _ => .unevaluated

def tlsReloadFailed : Outcome F :=
  match e.reload with
  | none => .unevaluated
  | some r =>
    if !r.tlsLastFailed then .inactive
    else
      let detail := (r.items.find? fun i => i.item = .tlsCertificates).bind (·.detail)
      .active ((Fired.new Summary.tlsReloadFailed).withDetail detail)

def adminUnavailable : Outcome F :=
  match e.admin with
  | none => .unevaluated
  | some a =>
    if !(a.enabled && a.state = .unavailable) then .inactive
    else .active ((Fired.new (Summary.adminUnavailable a.reason)).withSome "reason" a.reason
      fun r => .code r.asStr)

/-- `rule`. -/
def rule (c : ConditionCode) (e : Evidence F) (t : Thresholds F) : Outcome F :=
  match c with
  | .starting => starting e
  | .shuttingDown => shuttingDown e
  | .listenerDown => listenerDown e
  | .noLiveShard => noLiveShard e
  | .shardOffline => shardOffline e
  | .workerExited => workerExited e
  | .wabCapRejecting => wabCapRejecting e
  | .drainBackpressure => drainBackpressure e t
  | .ackTimeoutsRecent => ackTimeoutsRecent e t
  | .wabScanStale => wabScanStale e t
  | .wabGrowingUnbounded => wabGrowingUnbounded e
  | .drainStopped => drainStopped e
  | .drainWedged => drainWedged e t
  | .drainPaused => drainPaused e
  | .drainBlockedDeadLetterFull => drainBlockedDeadLetterFull e
  | .deliveryStalled => deliveryStalled e t
  | .deliveryLagging => deliveryLagging e t
  | .segmentsStranded => segmentsStranded e
  | .sinkDown => sinkDown e
  | .sinkDegraded => sinkDegraded e
  | .sinkFailing => sinkFailing e t
  | .deadLetterNearCap => deadLetterNearCap e t
  | .noopSink => noopSink e
  | .activeSegmentAging => activeSegmentAging e t
  | .fsyncFailuresRecent => fsyncFailuresRecent e
  | .flusherRespawnedRecent => flusherRespawnedRecent e
  | .quarantineNonempty => quarantineNonempty e
  | .recoveryIncomplete => recoveryIncomplete e
  | .tlsReloadFailed => tlsReloadFailed e
  | .adminUnavailable => adminUnavailable e
  -- the codes that only `weir-ctl` emits, and the one of a newer daemon
  | .daemonUnreachable | .recoveryPending | .unknown => .inactive

/-- One entry of the catalogue, into the evaluation. -/
def Evaluation.add (out : Evaluation F) (latches : ConditionCode → Option Nat)
    (entry : CatalogueEntry) : Outcome F → Evaluation F
  | .unevaluated => { out with unevaluated := out.unevaluated ++ [entry.code] }
  | .inactive => out
  | .active f => { out with conditions := out.conditions ++ [{
      code := entry.code
      severity := entry.severity
      affects := entry.affects
      sinceUnixMs := latches entry.code
      summary := f.summary
      detail := f.detail
      evidence := f.evidence
      runbook := entry.runbook
      gates := entry.gates }] }

/-- `evaluate`. -/
def evaluate (latches : ConditionCode → Option Nat) : Evaluation F :=
  catalogue.foldl (fun out entry => out.add latches entry (rule entry.code e t)) ⟨[], []⟩

end Weir.Status

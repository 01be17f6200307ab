import Weir.Status.Rules

/-!
# What the rules decide

A rule decides whether its condition holds, if the evidence says so, and reports what it
found. `truth` is the decision alone: a formula of three-valued logic over the evidence,
where a value that is not known makes unknown whatever depends on it.

> `rule_kind`: the rules decide what the formulas say.

> `erased_never_inactive`: whatever evidence is taken away, a condition that was active is
> never inactive.
-/

namespace Weir.Status

open Weir.Lib List

variable {F : F64}

/-- Active, inactive, or not known. -/
def Outcome.kind : Outcome F → Option Bool
  | unevaluated => none
  | inactive => some false
  | active _ => some true

theorem Outcome.kind_eq_true {o : Outcome F} : o.kind = some true ↔ ∃ fired, o = .active fired := by
  cases o <;> simp [Outcome.kind]

theorem Outcome.kind_eq_false {o : Outcome F} : o.kind = some false ↔ o = .inactive := by
  cases o <;> simp [Outcome.kind]

/-- One of them holds. -/
def triAny (xs : List (Option Bool)) : Option Bool := xs.foldr triOr (some false)

/-- The decision of `drain_wedged` for a drain that is running. -/
def drainIsWedged (now : Nat) (t : Thresholds F) (d : DrainEvidence F) (c : ConfigEvidence) :
    Option Bool :=
  let tooLong (since : Nat) := c.commitTimeoutSecs.map fun ct =>
    decide (saturatingAdd (saturatingMul ct 1000) t.wedgeGraceMs < ageMs now since)
  match d.commitInFlightSinceUnixMs, d.busy with
  | some since, _ => tooLong since
  | none, some b => if b.sinkCall then tooLong b.sinceUnixMs else some false
  | none, none => d.lastProgressUnixMs.bind fun p =>
    c.publicConfig.healthPollIntervalSecs.map fun hp =>
      decide (saturatingAdd (saturatingMul hp 1000) t.wedgeGraceMs ≤ ageMs now p)

/-- The decision of `delivery_stalled` for a drain that is not paused. -/
def deliveryIsStalled (now : Nat) (t : Thresholds F) (startedAt lastSuccess : Option Nat) :
    Option Bool :=
  (lastSuccess.or startedAt).map fun reference =>
    !decide (ageMs now reference < t.deliveryStalledMs)

/-- Whether the condition holds, if that is known. -/
def truth (c : ConditionCode) (e : Evidence F) (t : Thresholds F) : Option Bool :=
  match c with
  | .starting => e.phase.map Phase.beforeServing
  | .shuttingDown => e.shuttingDown
  | .listenerDown => e.listeners.bind fun ls =>
    triAny (ls.map fun l => listenerIsDown e.shuttingDown l.state)
  | .noLiveShard => e.phase.bind fun phase => e.shards.map fun shards =>
    decide (phase = .serving) && !shards.any ShardEvidence.ingestCapable
  | .shardOffline => e.shards.bind fun shards => e.shuttingDown.map fun sd =>
    !sd && (shards.any (fun s => s.state = .offline) && !shards.all fun s => s.state = .offline)
  | .workerExited => e.workers.bind fun workers => e.shuttingDown.map fun sd =>
    !sd && workers.any fun w => !w.running && w.exitedAtUnixMs.isSome
  | .wabCapRejecting => e.wabCap.map (·.rejecting)
  | .drainBackpressure => triOr
    (e.shards.map fun shards => !(blockedShards e.nowUnixMs t shards).1.isEmpty)
    (e.channel.map fun c => c.highSinceUnixMs.any fun h =>
      decide (t.channelHighMs ≤ ageMs e.nowUnixMs h))
  | .ackTimeoutsRecent => e.recent.bind fun r => r.ackTimeouts5m.map fun n => !decide (n = 0)
  | .wabScanStale => if e.source = .daemon then
      e.wabCap.map fun c => c.lastScanOkUnixMs.elim true fun at_ =>
        decide (t.wabScanStaleMs < ageMs e.nowUnixMs at_)
    else none
  | .wabGrowingUnbounded => e.wabCap.bind (·.growingUnbounded)
  | .drainStopped => e.drain.bind fun d => e.shuttingDown.map fun sd =>
    decide (d.exit = .gaveUp) && !sd
  | .drainWedged => e.drain.bind fun d => e.config.bind fun c =>
    if d.exit = .running then drainIsWedged e.nowUnixMs t d c else some false
  | .drainPaused => e.drain.map fun d => d.pauseRequested || d.paused
  | .drainBlockedDeadLetterFull => e.drain.map fun d => decide (d.state = .blockedDeadLetterFull)
  | .deliveryStalled => e.backlog.bind fun b => e.sink.bind fun s => e.drain.bind fun d =>
    if b.undeliveredSegments = 0 ∨ d.paused ∨ d.pauseRequested then some false
    else deliveryIsStalled e.nowUnixMs t e.startedAtUnixMs s.lastSuccessUnixMs
  | .deliveryLagging => e.backlog.map fun b =>
    b.oldestUndeliveredAgeSecs.any (F.lt t.deliveryLaggingSecs)
  | .segmentsStranded => e.recent.bind fun r => r.strandedSinceLastSuccess.map fun n =>
    !decide (n = 0)
  | .sinkDown => e.sink.bind fun s => s.health.map fun h => decide (h = .down)
  | .sinkDegraded => e.sink.bind fun s => s.health.map fun h => decide (h = .degraded)
  | .sinkFailing => e.sink.map fun s =>
    !decide (s.consecutiveFailures < t.sinkFailingConsecutive ∨ s.health = some .down)
  | .deadLetterNearCap => e.backlog.bind fun b => e.config.bind fun c =>
    c.publicConfig.deadLetterMaxBytes.map fun cap =>
      !decide (cap = 0 ∨ saturatingMul b.deadLetterBytes 100
        < saturatingMul cap t.deadLetterNearCapPercent)
  | .noopSink => e.config.map fun c => decide (c.sinkType = "noop")
  | .activeSegmentAging => e.shards.bind fun shards => e.config.bind fun c =>
    e.backlog.bind fun _ =>
    c.publicConfig.wabSegmentMaxAgeSecs.bind fun age =>
      c.publicConfig.wabSegmentMaxLifetimeSecs.map fun life =>
        !decide (age ≠ 0 ∨ life ≠ 0) &&
          shards.any fun s => s.activeSegmentAgeSecs.any (F.lt t.activeSegmentAgingSecs)
  | .fsyncFailuresRecent => e.recent.bind fun r => r.fsyncFailures15m.map fun n => !decide (n = 0)
  | .flusherRespawnedRecent => e.recent.bind fun r => r.flusherPanics15m.bind fun n =>
    e.shards.map fun shards => !decide (n = 0) && shards.all fun s => s.state = .up
  | .quarantineNonempty => e.backlog.map fun b => !decide (b.quarantineBytes = 0)
  | .recoveryIncomplete => e.recent.bind fun r => r.recoverySegmentsFailed.bind fun failed =>
    r.recoveryQuarantineCopyFailed.map fun copy => !decide (failed = 0 ∧ copy = 0)
  | .tlsReloadFailed => e.reload.map (·.tlsLastFailed)
  | .adminUnavailable => e.admin.map fun a => a.enabled && decide (a.state = .unavailable)
  | .daemonUnreachable | .recoveryPending | .unknown => some false

/-! ## The rules decide what the formulas say -/

@[simp] theorem kind_unevaluated : (Outcome.unevaluated : Outcome F).kind = none := rfl

@[simp] theorem kind_inactive : (Outcome.inactive : Outcome F).kind = some false := rfl

@[simp] theorem kind_active (f : Fired F) : (Outcome.active f).kind = some true := rfl

/-- A rule that fires unless a test says otherwise. -/
@[simp] theorem kind_ite {p : Prop} [Decidable p] (f : Fired F) :
    (if p then .inactive else .active f : Outcome F).kind = some (!decide p) := by
  by_cases h : p <;> simp [h]

@[simp] theorem kind_ite_active {p : Prop} [Decidable p] (f : Fired F) :
    (if p then .active f else .inactive : Outcome F).kind = some (decide p) := by
  by_cases h : p <;> simp [h]

theorem listenerLoop_kind (sd : Option Bool) (ls : List ListenerEvidence) (unknown : Bool) :
    (listenerLoop sd ls unknown : Outcome F).kind
      = triOr (if unknown then none else some false)
          (triAny (ls.map fun l => listenerIsDown sd l.state)) := by
  induction ls generalizing unknown with
  | nil => cases unknown <;> rfl
  | cons l ls ih =>
    unfold listenerLoop
    rw [map_cons, triAny, foldr_cons, ← triAny]
    -- what is known of the listeners behind this one
    generalize triAny (ls.map fun l => listenerIsDown sd l.state) = rest at ih
    rcases listenerIsDown sd l.state with _ | _ | _
    on_goal 3 => cases unknown <;> rfl
    all_goals
      rw [ih]
      cases unknown <;> rcases rest with _ | _ | _ <;> rfl

section

variable (e : Evidence F) (t : Thresholds F)

theorem listenerDown_kind : (listenerDown e).kind = truth .listenerDown e t := by
  unfold listenerDown truth
  cases e.listeners with
  | none => rfl
  | some ls =>
    rw [listenerLoop_kind, Option.bind_some]
    generalize triAny (ls.map fun l => listenerIsDown e.shuttingDown l.state) = known
    rcases known with _ | _ | _ <;> rfl

theorem shardOffline_kind : (shardOffline e).kind = truth .shardOffline e t := by
  unfold shardOffline truth
  rcases e.shards with _ | shards
  · rfl
  rcases e.shuttingDown with _ | _ | _
  · rfl
  on_goal 2 => rfl
  dsimp only
  rw [Option.bind_some, Option.map_some]
  rw [if_neg Bool.false_ne_true]
  split
  next hnone =>
    have hany : shards.any (fun s => s.state = .offline) = false := by
      rw [any_eq_false]
      exact List.filter_eq_nil_iff.mp hnone
    rw [hany]
    rfl
  next first rest hsome =>
    have hmem : first ∈ shards.filter fun s => s.state = .offline := by simp [hsome]
    have hany : shards.any (fun s => s.state = .offline) = true :=
      any_eq_true.mpr ⟨first, mem_filter.mp hmem⟩
    have hall : (shards.filter fun s => s.state = .offline).length = shards.length ↔
        shards.all (fun s => s.state = .offline) = true := by
      rw [length_filter_eq_length_iff, all_eq_true]
    rw [hany, kind_ite]
    simp only [hall, Bool.decide_eq_true]
    rfl

theorem workerExited_kind : (workerExited e).kind = truth .workerExited e t := by
  unfold workerExited truth
  rcases e.workers with _ | workers
  · rfl
  rcases e.shuttingDown with _ | _ | _
  · rfl
  on_goal 2 => rfl
  dsimp only
  rw [Option.bind_some, Option.map_some]
  rw [if_neg Bool.false_ne_true, ← isSome_find?]
  cases workers.find? _ <;> rfl

theorem drainBackpressure_kind : (drainBackpressure e t).kind = truth .drainBackpressure e t := by
  unfold drainBackpressure truth
  dsimp only
  rw [Option.map_map]
  split <;> exact Eq.symm ‹_›

end

/-- A counter that has to be zero. -/
theorem counter_kind {o : Option RecentCounters} {field : RecentCounters → Option Nat}
    {fired : Nat → Fired F} :
    (match o.bind field with
      | none => .unevaluated
      | some n => if n = 0 then .inactive else .active (fired n) : Outcome F).kind
      = o.bind fun r => (field r).map fun n => !decide (n = 0) := by
  cases o with
  | none => rfl
  | some r =>
    rw [Option.bind_some, Option.bind_some]
    cases field r <;> simp

theorem sinkCallWedged_kind (commitTimeoutSecs : Option Nat) (t : Thresholds F) (age : Nat)
    (key : String) :
    (sinkCallWedged commitTimeoutSecs t age key).kind = commitTimeoutSecs.map fun ct =>
      decide (saturatingAdd (saturatingMul ct 1000) t.wedgeGraceMs < age) := by
  unfold sinkCallWedged
  cases commitTimeoutSecs <;> simp

theorem drainWedged_kind (e : Evidence F) (t : Thresholds F) :
    (drainWedged e t).kind = truth .drainWedged e t := by
  unfold drainWedged truth
  rcases e.drain with _ | d
  · rfl
  rcases e.config with _ | c
  · rfl
  dsimp only
  rw [Option.bind_some, Option.bind_some]
  by_cases hrunning : d.exit = .running
  · rw [if_neg (not_not_intro hrunning), if_pos hrunning]
    unfold drainIsWedged
    cases d.commitInFlightSinceUnixMs with
    | some since => exact sinkCallWedged_kind _ _ _ _
    | none =>
      cases d.busy with
      | some b =>
        dsimp only
        cases b.sinkCall with
        | true => exact sinkCallWedged_kind _ _ _ _
        | false => rfl
      | none => cases d.lastProgressUnixMs <;> cases c.publicConfig.healthPollIntervalSecs <;> simp
  · rw [if_pos hrunning, if_neg hrunning]
    rfl

theorem deliveryStalled_kind (e : Evidence F) (t : Thresholds F) :
    (deliveryStalled e t).kind = truth .deliveryStalled e t := by
  unfold deliveryStalled truth
  rcases e.backlog with _ | b
  · rfl
  rcases e.sink with _ | s
  · rfl
  rcases e.drain with _ | d
  · rfl
  dsimp only
  rw [Option.bind_some, Option.bind_some, Option.bind_some]
  split
  · rfl
  · unfold deliveryIsStalled
    cases s.lastSuccessUnixMs.or e.startedAtUnixMs <;> simp

theorem maxByValue_isSome {α : Type} (xs : List (α × F.Val)) :
    (maxByValue xs).isSome = !xs.isEmpty := by
  have hfold : ∀ (xs : List (α × F.Val)) (best : Option (α × F.Val)),
      (xs.foldl (fun best x =>
        some (best.elim x fun b => if F.totalCmp b.2 x.2 = .gt then b else x)) best).isSome
        = (best.isSome || !xs.isEmpty) := by
    intro xs
    induction xs with
    | nil => intro best; simp
    | cons x xs ih =>
      intro best
      rw [foldl_cons, ih]
      simp
  exact hfold xs none

/-- A shard with an age over the threshold is what the rule reports. -/
theorem maxByValue_over (shards : List (ShardEvidence F)) (limit : F.Val) :
    (maxByValue ((shards.filterMap fun s => s.activeSegmentAgeSecs.map fun a =>
        (s.id, a)).filter fun x => F.lt limit x.2)).isSome
      = shards.any fun s => s.activeSegmentAgeSecs.any (F.lt limit) := by
  rw [maxByValue_isSome]
  induction shards with
  | nil => rfl
  | cons s shards ih =>
    rw [any_cons, ← ih, filterMap_cons]
    cases s.activeSegmentAgeSecs with
    | none => rfl
    | some a =>
      rw [Option.map_some, filter_cons, Option.any_some]
      cases F.lt limit a <;> rfl

theorem activeSegmentAging_kind (e : Evidence F) (t : Thresholds F) :
    (activeSegmentAging e t).kind = truth .activeSegmentAging e t := by
  unfold activeSegmentAging truth
  rcases e.shards with _ | shards
  · rfl
  rcases e.config with _ | c
  · rfl
  rcases e.backlog with _ | b
  · rfl
  dsimp only
  rw [Option.bind_some, Option.bind_some, Option.bind_some]
  rcases c.publicConfig.wabSegmentMaxAgeSecs with _ | age
  · rfl
  rcases c.publicConfig.wabSegmentMaxLifetimeSecs with _ | life
  · rfl
  dsimp only
  rw [Option.bind_some, Option.map_some, ← maxByValue_over]
  by_cases htimers : age ≠ 0 ∨ life ≠ 0
  · rw [if_pos htimers, decide_eq_true htimers]
    rfl
  · rw [if_neg htimers, decide_eq_false htimers]
    cases maxByValue _ <;> rfl

/-- The rules decide what the formulas say. -/
theorem rule_kind (c : ConditionCode) (e : Evidence F) (t : Thresholds F) :
    (rule c e t).kind = truth c e t := by
  cases c with
  | listenerDown => exact listenerDown_kind e t
  | shardOffline => exact shardOffline_kind e t
  | workerExited => exact workerExited_kind e t
  | drainBackpressure => exact drainBackpressure_kind e t
  | drainWedged => exact drainWedged_kind e t
  | deliveryStalled => exact deliveryStalled_kind e t
  | activeSegmentAging => exact activeSegmentAging_kind e t
  | ackTimeoutsRecent | segmentsStranded | fsyncFailuresRecent => exact counter_kind
  -- the others test the fields that they read
  | starting => simp only [rule, starting, truth]; cases e.phase <;> simp
  | shuttingDown =>
    simp only [rule, shuttingDown, truth]
    rcases e.shuttingDown with _ | _ | _ <;> rfl
  | noLiveShard =>
    simp only [rule, noLiveShard, truth]
    rcases e.phase with _ | phase <;> rcases e.shards with _ | shards <;> try rfl
    cases h : shards.any ShardEvidence.ingestCapable <;> simp [h]
  | wabScanStale =>
    simp only [rule, wabScanStale, truth]
    by_cases hsource : e.source = .daemon
    · rw [if_neg (not_not_intro hsource), if_pos hsource]
      cases e.wabCap with
      | none => rfl
      | some c => cases h : c.lastScanOkUnixMs <;> simp [h]
    · rw [if_pos hsource, if_neg hsource]
      rfl
  | wabGrowingUnbounded =>
    simp only [rule, wabGrowingUnbounded, truth]
    rcases e.wabCap.bind (·.growingUnbounded) with _ | _ | _ <;> rfl
  | drainStopped =>
    simp only [rule, drainStopped, truth]
    cases e.drain with
    | none => rfl
    | some d => rcases e.shuttingDown with _ | _ | _ <;> simp
  | drainPaused | drainBlockedDeadLetterFull =>
    simp only [rule, drainPaused, drainBlockedDeadLetterFull, truth]; cases e.drain <;> simp
  | deliveryLagging =>
    simp only [rule, deliveryLagging, truth]
    cases e.backlog with
    | none => rfl
    | some b => cases h : b.oldestUndeliveredAgeSecs <;> simp [h]
  | sinkDown | sinkDegraded =>
    simp only [rule, sinkDown, sinkDegraded, truth]
    cases e.sink with
    | none => rfl
    | some s => rcases h : s.health with _ | _ | _ | _ <;> simp [h]
  | deadLetterNearCap =>
    simp only [rule, deadLetterNearCap, truth]
    rcases e.backlog with _ | b <;> rcases e.config with _ | c <;> try rfl
    cases h : c.publicConfig.deadLetterMaxBytes <;> simp [h]
  | flusherRespawnedRecent =>
    simp only [rule, flusherRespawnedRecent, truth]
    rcases e.recent with _ | r
    · rfl
    rw [Option.bind_some, Option.bind_some]
    rcases r.flusherPanics15m with _ | n <;> rcases e.shards with _ | shards <;> try rfl
    cases h : shards.all (fun s => s.state = .up) <;> simp [h]
  | recoveryIncomplete =>
    simp only [rule, recoveryIncomplete, truth]
    cases e.recent with
    | none => rfl
    | some r =>
      cases h : r.recoverySegmentsFailed <;> cases h' : r.recoveryQuarantineCopyFailed <;>
        simp [h, h']
  | wabCapRejecting => simp only [rule, wabCapRejecting, truth]; cases e.wabCap <;> simp
  | sinkFailing => simp only [rule, sinkFailing, truth]; cases e.sink <;> simp
  | noopSink => simp only [rule, noopSink, truth]; cases e.config <;> simp
  | quarantineNonempty => simp only [rule, quarantineNonempty, truth]; cases e.backlog <;> simp
  | tlsReloadFailed => simp only [rule, tlsReloadFailed, truth]; cases e.reload <;> simp
  | adminUnavailable => simp only [rule, adminUnavailable, truth]; cases e.admin <;> simp
  | daemonUnreachable | recoveryPending | unknown => rfl

/-! ## Evidence taken away -/

/-- A value left as it is, or taken away. -/
def Kept {α : Type} (o o' : Option α) : Prop := o' = o ∨ o' = none

theorem Kept.refl {α : Type} (o : Option α) : Kept o o := .inl rfl

theorem Kept.map {α β : Type} {o o' : Option α} (h : Kept o o') (f : α → β) :
    Kept (o.map f) (o'.map f) := by
  rcases h with rfl | rfl
  · exact .inl rfl
  · exact .inr rfl

/-- What is computed from a known value is known, or lost with it. -/
theorem Kept.bind {α β : Type} {o o' : Option α} {f f' : α → Option β} (h : Kept o o')
    (hf : ∀ a, Kept (f a) (f' a)) : Kept (o.bind f) (o'.bind f') := by
  rcases h with rfl | rfl
  · cases o' with
    | none => exact Kept.refl none
    | some a => exact hf a
  · exact .inr rfl

theorem Kept.or {α : Type} {a b b' : Option α} (h : Kept b b') : Kept (a.or b) (a.or b') := by
  cases a with
  | none => exact h
  | some a => exact Kept.refl _

theorem Kept.triOr {a a' b b' : Option Bool} (ha : Kept a a') (hb : Kept b b') :
    Kept (triOr a b) (triOr a' b') := by
  -- a disjunct that holds decides alone, whether or not the other is known
  rcases ha with rfl | rfl <;> rcases hb with rfl | rfl
  · exact Kept.refl _
  · rcases a' with _ | _ | _ <;> first | exact .inr rfl | exact .inl rfl
  · rcases b' with _ | _ | _ <;> rcases a with _ | _ | _ <;> first | exact .inr rfl | exact .inl rfl
  · exact .inr rfl

theorem Kept.triAny {α : Type} {f f' : α → Option Bool} (h : ∀ a, Kept (f a) (f' a)) :
    ∀ xs : List α, Kept (triAny (xs.map f)) (triAny (xs.map f')) := by
  intro xs
  induction xs with
  | nil => exact Kept.refl _
  | cons x xs ih => exact Kept.triOr (h x) ih

/-- `e'` is `e` with some of its optional fields taken away. -/
structure Erased (e e' : Evidence F) : Prop where
  nowUnixMs : e'.nowUnixMs = e.nowUnixMs
  source : e'.source = e.source
  identity : Kept e.identity e'.identity
  startedAtUnixMs : Kept e.startedAtUnixMs e'.startedAtUnixMs
  phase : Kept e.phase e'.phase
  phaseSinceUnixMs : Kept e.phaseSinceUnixMs e'.phaseSinceUnixMs
  everServed : Kept e.everServed e'.everServed
  shuttingDown : Kept e.shuttingDown e'.shuttingDown
  shuttingDownSinceUnixMs : Kept e.shuttingDownSinceUnixMs e'.shuttingDownSinceUnixMs
  forced : Kept e.forced e'.forced
  drainDeadlineUnixMs : Kept e.drainDeadlineUnixMs e'.drainDeadlineUnixMs
  drainBudgetSecs : Kept e.drainBudgetSecs e'.drainBudgetSecs
  listeners : Kept e.listeners e'.listeners
  shards : Kept e.shards e'.shards
  workers : Kept e.workers e'.workers
  queueDepth : Kept e.queueDepth e'.queueDepth
  wabCap : Kept e.wabCap e'.wabCap
  channel : Kept e.channel e'.channel
  drain : Kept e.drain e'.drain
  sink : Kept e.sink e'.sink
  backlog : Kept e.backlog e'.backlog
  recent : Kept e.recent e'.recent
  reload : Kept e.reload e'.reload
  admin : Kept e.admin e'.admin
  config : Kept e.config e'.config

theorem Kept.listenerIsDown {sd sd' : Option Bool} (h : Kept sd sd') (state : ListenerState) :
    Kept (listenerIsDown sd state) (listenerIsDown sd' state) := by
  cases state with
  | closed => exact h.map _
  | _ => exact Kept.refl _

/-- With less evidence every formula is left as it is, or not known. -/
theorem Erased.truth {e e' : Evidence F} (h : Erased e e') (c : ConditionCode)
    (t : Thresholds F) : Kept (truth c e t) (truth c e' t) := by
  cases c with
  | starting => exact h.phase.map _
  | shuttingDown => exact h.shuttingDown
  | listenerDown =>
    exact h.listeners.bind fun ls =>
      Kept.triAny (fun l => Kept.listenerIsDown h.shuttingDown l.state) ls
  | noLiveShard => exact h.phase.bind fun phase => h.shards.map _
  | shardOffline => exact h.shards.bind fun shards => h.shuttingDown.map _
  | workerExited => exact h.workers.bind fun workers => h.shuttingDown.map _
  | drainBackpressure =>
    unfold Status.truth
    rw [h.nowUnixMs]
    exact (h.shards.map _).triOr (h.channel.map _)
  | wabScanStale =>
    unfold Status.truth
    dsimp only
    rw [h.nowUnixMs, h.source]
    split
    · exact h.wabCap.map _
    · exact Kept.refl none
  | drainStopped => exact h.drain.bind fun d => h.shuttingDown.map _
  | drainWedged =>
    unfold Status.truth
    rw [h.nowUnixMs]
    exact h.drain.bind fun d => h.config.bind fun c => Kept.refl _
  | deliveryStalled =>
    unfold Status.truth deliveryIsStalled
    rw [h.nowUnixMs]
    refine h.backlog.bind fun b => h.sink.bind fun s => h.drain.bind fun d => ?_
    split
    · exact Kept.refl _
    · exact h.startedAtUnixMs.or.map _
  | activeSegmentAging =>
    exact h.shards.bind fun shards => h.config.bind fun c => h.backlog.bind fun b => Kept.refl _
  | flusherRespawnedRecent =>
    exact h.recent.bind fun r => (Kept.refl r.flusherPanics15m).bind fun n => h.shards.map _
  | deadLetterNearCap => exact h.backlog.bind fun b => h.config.bind fun c => Kept.refl _
  | ackTimeoutsRecent | segmentsStranded | fsyncFailuresRecent | recoveryIncomplete =>
    exact h.recent.bind fun r => Kept.refl _
  | sinkDown | sinkDegraded => exact h.sink.bind fun s => Kept.refl _
  | wabGrowingUnbounded => exact h.wabCap.bind fun c => Kept.refl _
  | wabCapRejecting => exact h.wabCap.map _
  | drainPaused | drainBlockedDeadLetterFull => exact h.drain.map _
  | deliveryLagging | quarantineNonempty => exact h.backlog.map _
  | sinkFailing => exact h.sink.map _
  | noopSink => exact h.config.map _
  | tlsReloadFailed => exact h.reload.map _
  | adminUnavailable => exact h.admin.map _
  | daemonUnreachable | recoveryPending | unknown => exact Kept.refl _

/-- Missing evidence never reads as healthy: a condition that is active stays active or is not
evaluated, whichever fields are taken away. -/
theorem erased_never_inactive (e e' : Evidence F) (t : Thresholds F) (c : ConditionCode)
    (herased : Erased e e') (hactive : ∃ fired, rule c e t = .active fired) :
    (∃ fired, rule c e' t = .active fired) ∨ rule c e' t = .unevaluated := by
  obtain ⟨fired, hfired⟩ := hactive
  have hkept := herased.truth c t
  rw [← rule_kind, ← rule_kind, hfired] at hkept
  cases hrule : rule c e' t with
  | active fired' => exact .inl ⟨fired', rfl⟩
  | unevaluated => exact .inr rfl
  | inactive =>
    rw [hrule] at hkept
    rcases hkept with h | h <;> cases h

/-- A drain that runs, with segments left to deliver and no delivery yet. -/
def undelivering : Evidence natF64 :=
  { Evidence.empty natF64 3600000 .daemon with
    startedAtUnixMs := some 0
    drain := some (.started _)
    sink := some
      { health := none, healthSinceUnixMs := none, lastSuccessUnixMs := none
        lastFailureUnixMs := none, lastFailureKind := none, consecutiveFailures := 0
        lastError := none, probeReason := none }
    backlog := some
      { undeliveredSegments := 3, undeliveredRecords := 0, oldestUndeliveredAgeSecs := none
        deadLetterBytes := 0, deadLetterMaxBytes := none, quarantineBytes := 0
        quarantineFiles := 0, scannedAtMs := 0 } }

theorem erased_startedAt (e : Evidence F) : Erased e { e with startedAtUnixMs := none } := by
  constructor <;> first | rfl | exact Kept.refl _ | exact .inr rfl

/-- Without the time the daemon started, the stalled delivery is not evaluated. -/
theorem erased_never_inactive_startedAt :
    (∃ fired, rule .deliveryStalled undelivering (Thresholds.default natF64) = .active fired) ∧
      ((∃ fired, rule .deliveryStalled { undelivering with startedAtUnixMs := none }
          (Thresholds.default natF64) = .active fired) ∨
        rule .deliveryStalled { undelivering with startedAtUnixMs := none }
          (Thresholds.default natF64) = .unevaluated) :=
  ⟨⟨_, rfl⟩, erased_never_inactive undelivering _ (Thresholds.default natF64) .deliveryStalled
    (erased_startedAt undelivering) ⟨_, rfl⟩⟩

end Weir.Status

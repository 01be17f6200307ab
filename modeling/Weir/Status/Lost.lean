import Weir.Status.Exposition
import Weir.Status.Truth

/-!
# Lost series

A scrape may lack lines: a proxy drops a family, a scrape is cut off. The rules then decide
on less, and some series read as a value when they are absent: no sample of
`weir_quarantine_bytes_on_disk` reads as an empty quarantine.

> `Reduced.hides_nothing`: where families are lost as a whole or in lines, and that is
> `Harmless`, a condition that is active never becomes inactive.
-/

namespace Weir.Status

open Weir.Lib List

variable {F : F64}

/-! ## Families -/

namespace Scrape

/-- The samples of one name. -/
def family (s : Scrape F) (name : String) : Scrape F := s.filter fun x => x.name = name

theorem scalar_family (s : Scrape F) (name : String) :
    s.scalar name = (s.family name).scalar name := by
  unfold scalar family
  rw [find?_filter]
  congr 2
  funext x
  by_cases h : x.name = name <;> simp [h]

theorem labelled_family (s : Scrape F) (name label : String) :
    s.labelled name label = (s.family name).filterMap (labelOf label) := rfl

end Scrape

/-- What is read of `s'` when families of `A` are lost, and lines of families of `B`. -/
structure Reduced (A B : String → Prop) (s s' : Scrape F) : Prop where
  gone : ∀ name, A name → s'.family name = []
  same : ∀ name, ¬A name → ¬B name → s'.family name = s.family name

/-! ## Which series decide -/

/-- A series that a condition is decided by. If it is lost, its condition must not be decided:
one of the gates has to be lost with it. A series that reads as a value when it is absent is
no gate of its own. -/
structure Reading where
  code : ConditionCode
  series : String
  absentReads : Bool
  gates : List String
  deriving DecidableEq

/-- What keeps `active_segment_aging` from being decided. -/
def agingGates : List String :=
  ["weir_wab_shard_up", "weir_sink_info", "weir_wab_undelivered_segments",
    "weir_config_segment_max_age_seconds", "weir_config_segment_max_lifetime_seconds"]

/-- What keeps `delivery_stalled` from being decided, whatever its reference is. -/
def stalledGates : List String :=
  ["weir_wab_undelivered_segments", "weir_sink_health", "weir_drain_state"]

def nearCapGates : List String :=
  ["weir_wab_undelivered_segments", "weir_sink_info", "weir_config_dead_letter_max_bytes"]

def recoveryGates : List String :=
  ["weir_recovery_segments_failed_total", "weir_recovery_quarantine_copy_failed_total"]

def readings : List Reading := [
  ⟨.starting, "weir_startup_phase", false, ["weir_startup_phase"]⟩,
  ⟨.noLiveShard, "weir_worker_up", true, ["weir_startup_phase", "weir_wab_shard_up"]⟩,
  ⟨.shardOffline, "weir_wab_shard_up", false, ["weir_startup_phase", "weir_wab_shard_up"]⟩,
  ⟨.workerExited, "weir_worker_up", false, ["weir_startup_phase", "weir_worker_up"]⟩,
  ⟨.wabCapRejecting, "weir_wab_cap_rejecting", false,
    ["weir_wab_cap_rejecting", "weir_wab_bytes_on_disk", "weir_config_wab_max_bytes"]⟩,
  ⟨.drainPaused, "weir_drain_paused", true, ["weir_drain_state"]⟩,
  ⟨.drainBlockedDeadLetterFull, "weir_drain_state", false, ["weir_drain_state"]⟩,
  ⟨.deliveryStalled, "weir_wab_undelivered_segments", false, stalledGates⟩,
  ⟨.deliveryStalled, "weir_sink_last_success_timestamp_seconds", true,
    "weir_start_time_seconds" :: stalledGates⟩,
  ⟨.deliveryStalled, "weir_sink_last_success_timestamp_seconds", false,
    "weir_sink_last_success_timestamp_seconds" :: stalledGates⟩,
  ⟨.deliveryStalled, "weir_start_time_seconds", false, "weir_start_time_seconds" :: stalledGates⟩,
  ⟨.deliveryLagging, "weir_wab_oldest_undelivered_age_seconds", true,
    ["weir_wab_undelivered_segments"]⟩,
  ⟨.sinkDown, "weir_sink_health", false, ["weir_sink_health"]⟩,
  ⟨.sinkFailing, "weir_sink_consecutive_failures", true, ["weir_sink_health"]⟩,
  ⟨.deadLetterNearCap, "weir_dead_letter_bytes_on_disk", true, nearCapGates⟩,
  ⟨.deadLetterNearCap, "weir_config_dead_letter_max_bytes", false, nearCapGates⟩,
  ⟨.noopSink, "weir_sink_info", false, ["weir_sink_info"]⟩,
  ⟨.activeSegmentAging, "weir_wab_shard_up", false, agingGates⟩,
  ⟨.activeSegmentAging, "weir_wab_active_segment_age_seconds", true, agingGates⟩,
  ⟨.activeSegmentAging, "weir_config_segment_max_age_seconds", false, agingGates⟩,
  ⟨.activeSegmentAging, "weir_config_segment_max_lifetime_seconds", false, agingGates⟩,
  ⟨.quarantineNonempty, "weir_quarantine_bytes_on_disk", true,
    ["weir_wab_undelivered_segments"]⟩,
  ⟨.recoveryIncomplete, "weir_recovery_segments_failed_total", false, recoveryGates⟩,
  ⟨.recoveryIncomplete, "weir_recovery_quarantine_copy_failed_total", false, recoveryGates⟩]

/-- Families of `A` may be lost as a whole and lines of families of `B`: where a series that
decides is lost, a gate of its condition is. -/
def Harmless (A B : String → Prop) : Prop :=
  ∀ r ∈ readings, B r.series ∨ r.absentReads ∧ A r.series → ∃ g ∈ r.gates, A g

section

variable {A B : String → Prop} {s s' : Scrape F}

/-- While the gates of a reading are there, its series is as it was. -/
theorem Reduced.reading (h : Reduced A B s s') (hsafe : Harmless A B) {r : Reading}
    (hr : r ∈ readings) (hgates : ∀ g ∈ r.gates, ¬A g) :
    s'.family r.series = s.family r.series := by
  have hself : r.absentReads = true ∨ r.series ∈ r.gates := by
    have hall : ∀ r ∈ readings, r.absentReads = true ∨ r.series ∈ r.gates := by decide
    exact hall r hr
  have hkept : ¬(B r.series ∨ r.absentReads ∧ A r.series) := by
    intro hlost
    obtain ⟨g, hg, hgone⟩ := hsafe r hr hlost
    exact hgates g hg hgone
  refine h.same r.series ?_ fun hB => hkept (.inl hB)
  intro hA
  rcases hself with hdefault | hgate
  · exact hkept (.inr ⟨hdefault, hA⟩)
  · exact hgates r.series hgate hA

variable {name : String}

theorem Reduced.scalar_gone (h : Reduced A B s s') (hA : A name) : s'.scalar name = none := by
  rw [Scrape.scalar_family, h.gone name hA]
  rfl

theorem Reduced.scalar_present (h : Reduced A B s s') {v : F.Val} (hv : s'.scalar name = some v) :
    ¬A name := by
  intro hA
  rw [h.scalar_gone hA] at hv
  cases hv

variable {label : String}

theorem Reduced.labelled_present (h : Reduced A B s s') (hne : s'.labelled name label ≠ []) :
    ¬A name := by
  intro hA
  rw [Scrape.labelled_family, h.gone name hA] at hne
  exact hne rfl

theorem Reduced.oneHot_present (h : Reduced A B s s') {v : String}
    (hv : s'.oneHot name label = some v) : ¬A name := by
  have hne : s'.labelled name label ≠ [] := by
    intro hnil
    rw [Scrape.oneHot, hnil] at hv
    cases hv
  exact h.labelled_present hne

theorem scalar_congr (h : s'.family name = s.family name) : s'.scalar name = s.scalar name := by
  rw [Scrape.scalar_family, h, ← Scrape.scalar_family]

theorem Reduced.scalar_same (h : Reduced A B s s') (hsafe : Harmless A B) (r : Reading)
    (hr : r ∈ readings) (hgates : ∀ g ∈ r.gates, ¬A g) : s'.scalar r.series = s.scalar r.series :=
  scalar_congr (h.reading hsafe hr hgates)

theorem labelled_congr (h : s'.family name = s.family name) :
    s'.labelled name label = s.labelled name label := by
  rw [Scrape.labelled_family, h, ← Scrape.labelled_family]

theorem oneHot_congr (h : s'.family name = s.family name) :
    s'.oneHot name label = s.oneHot name label := by
  rw [Scrape.oneHot, labelled_congr h, ← Scrape.oneHot]

/-- A one-hot family that may only be lost as a whole. -/
theorem Reduced.oneHot (h : Reduced A B s s') (hsafe : Harmless A B) {code : ConditionCode}
    {v : String} (hr : ⟨code, name, false, [name]⟩ ∈ readings)
    (hv : s'.oneHot name label = some v) : s.oneHot name label = some v := by
  have hgates : ∀ g ∈ [name], ¬A g := by
    intro g hg
    rw [mem_singleton.mp hg]
    exact h.oneHot_present hv
  rw [← oneHot_congr (h.reading hsafe hr hgates), hv]

end

/-! ## The parts of the evidence -/

theorem get_withEntry (key key' : String) (v : Option Nat) (view : Table ConfigValue) :
    (withEntry key v view).get key' = if key = key' then (v.map .u64).or (view.get key')
      else view.get key' := by
  unfold withEntry
  cases v with
  | none => simp
  | some n =>
    show (view.insert key (.u64 n)).get key' = _
    rw [Table.get_insert]
    rfl

section

variable (s : Scrape F) (now : Nat)

theorem viewOf_get (key : String) (hshards : "shard_count" ≠ key)
    (hworkers : "worker_count" ≠ key) : (viewOf s now).get key
      = Table.get (configMetrics.foldl (fun view m =>
        withEntry m.1 ((s.scalar m.2).map F.toU64) view) []) key := by
  unfold viewOf
  rw [get_withEntry, if_neg hworkers, get_withEntry, if_neg hshards]

/-- A setting of the public configuration is the metric that its key is read from. -/
theorem viewOf_metric {key metric : String} (h : (key, metric) ∈ configMetrics) :
    ((viewOf s now).get key).bind ConfigValue.asU64 = (s.scalar metric).map F.toU64 := by
  have hread : ∀ o : Option Nat, ((o.map ConfigValue.u64).or none).bind ConfigValue.asU64 = o := by
    intro o
    cases o <;> rfl
  simp only [configMetrics, mem_cons, Prod.mk.injEq, not_mem_nil, or_false] at h
  rcases h with ⟨rfl, rfl⟩ | ⟨rfl, rfl⟩ | ⟨rfl, rfl⟩ | ⟨rfl, rfl⟩ | ⟨rfl, rfl⟩ | ⟨rfl, rfl⟩ |
    ⟨rfl, rfl⟩ | ⟨rfl, rfl⟩
  all_goals
    rw [viewOf_get s now _ (by decide) (by decide)]
    simp only [configMetrics, foldl_cons, foldl_nil, get_withEntry]
    exact hread _

theorem fromView_deadLetterMaxBytes :
    (PublicConfig.fromView (viewOf s now)).deadLetterMaxBytes
      = (s.scalar "weir_config_dead_letter_max_bytes").map F.toU64 :=
  viewOf_metric s now (by decide)

theorem fromView_wabSegmentMaxAgeSecs :
    (PublicConfig.fromView (viewOf s now)).wabSegmentMaxAgeSecs
      = (s.scalar "weir_config_segment_max_age_seconds").map F.toU64 :=
  viewOf_metric s now (by decide)

theorem fromView_wabSegmentMaxLifetimeSecs :
    (PublicConfig.fromView (viewOf s now)).wabSegmentMaxLifetimeSecs
      = (s.scalar "weir_config_segment_max_lifetime_seconds").map F.toU64 :=
  viewOf_metric s now (by decide)

theorem fromView_healthPollIntervalSecs :
    (PublicConfig.fromView (viewOf s now)).healthPollIntervalSecs = none := by
  show ((viewOf s now).get "health_poll_interval_secs").bind ConfigValue.asU64 = none
  rw [viewOf_get s now _ (by decide) (by decide)]
  simp only [configMetrics, foldl_cons, foldl_nil, get_withEntry]
  rfl

end

/-- The series of one shard, as `shardsOf` reads it. -/
def shardIn (s : Scrape F) (now : Nat) : String × F.Val → Option (ShardEvidence F) :=
  shardOf (phaseOf s) (workersOf s) (s.labelled "weir_wab_handoff_blocked_seconds" "shard")
    (s.labelled "weir_wab_active_segment_age_seconds" "shard") now

theorem shardsOf_some {s : Scrape F} {now : Nat} {shards : List (ShardEvidence F)}
    (h : shardsOf s now = some shards) :
    s.labelled "weir_wab_shard_up" "shard" ≠ [] ∧
      shards = (s.labelled "weir_wab_shard_up" "shard").filterMap (shardIn s now) := by
  unfold shardsOf at h
  dsimp only at h
  split at h
  · cases h
  next hne => exact ⟨hne, (Option.some.inj h).symm⟩

/-- With the same series, the shards agree on whatever the other reads do not change. -/
theorem shardsOf_map_congr {β : Type} {s s' : Scrape F} {now : Nat}
    {shards shards' : List (ShardEvidence F)} (k : ShardEvidence F → β)
    (hup : s'.family "weir_wab_shard_up" = s.family "weir_wab_shard_up")
    (h : shardsOf s now = some shards) (h' : shardsOf s' now = some shards')
    (hk : ∀ x, (shardIn s' now x).map k = (shardIn s now x).map k) :
    shards'.map k = shards.map k := by
  rw [(shardsOf_some h).2, (shardsOf_some h').2, map_filterMap, map_filterMap,
    labelled_congr hup]
  congr 1
  funext x
  exact hk x

section

variable {α β : Type} {k : α → β} {xs ys : List α} (h : xs.map k = ys.map k) (p : β → Bool)

include h

theorem any_of_map_eq : xs.any (fun x => p (k x)) = ys.any fun x => p (k x) := by
  have hany := congrArg (any · p) h
  rw [any_map, any_map] at hany
  exact hany

theorem all_of_map_eq : xs.all (fun x => p (k x)) = ys.all fun x => p (k x) := by
  have hall := congrArg (all · p) h
  rw [all_map, all_map] at hall
  exact hall

end

/-! ## A harmless loss hides nothing -/

/-- No sample says for how long a commit may run or how often the sink is probed. -/
theorem drainWedged_ne_true (s : Scrape F) (now : Nat) (t : Thresholds F) :
    truth .drainWedged (evidenceOf s now) t ≠ some true := by
  intro htrue
  obtain ⟨d, hd, hrest⟩ := Option.bind_eq_some_iff.mp htrue
  obtain ⟨c, hc, hwedged⟩ := Option.bind_eq_some_iff.mp hrest
  obtain ⟨sinkType, hsink, rfl⟩ := Option.map_eq_some_iff.mp hc
  split at hwedged
  · unfold drainIsWedged at hwedged
    rw [fromView_healthPollIntervalSecs] at hwedged
    split at hwedged
    · cases hwedged
    · split at hwedged <;> cases hwedged
    · obtain ⟨p, hp, hnone⟩ := Option.bind_eq_some_iff.mp hwedged; cases hnone
  · cases hwedged

theorem triOr_none_ne_false (a : Option Bool) : triOr a none ≠ some false := by
  cases a with
  | none => decide
  | some b => cases b <;> decide

section

variable {A B : String → Prop} {s s' : Scrape F}

/-- A condition that is decided on what is left is decided as before, or was not decided. -/
def NotHidden (now : Nat) (t : Thresholds F) (s s' : Scrape F) (c : ConditionCode) : Prop :=
  truth c (evidenceOf s' now) t = some false → truth c (evidenceOf s now) t ≠ some true

/-- Where both are known, they are the same. -/
def Agrees {α : Type} (o' o : Option α) : Prop := ∀ v' v, o' = some v' → o = some v → v' = v

theorem Agrees.bind {α β : Type} {o' o : Option α} {f' f : α → Option β}
    (h : ∀ v' v, o' = some v' → o = some v → Agrees (f' v') (f v)) :
    Agrees (o'.bind f') (o.bind f) := by
  intro w' w hw' hw
  obtain ⟨v', hv', hw'⟩ := Option.bind_eq_some_iff.mp hw'
  obtain ⟨v, hv, hw⟩ := Option.bind_eq_some_iff.mp hw
  exact h v' v hv' hv w' w hw' hw

theorem Agrees.map {α β : Type} {o' o : Option α} {f' f : α → β}
    (h : ∀ v' v, o' = some v' → o = some v → f' v' = f v) : Agrees (o'.map f') (o.map f) := by
  intro w' w hw' hw
  obtain ⟨v', hv', rfl⟩ := Option.map_eq_some_iff.mp hw'
  obtain ⟨v, hv, rfl⟩ := Option.map_eq_some_iff.mp hw
  exact h v' v hv' hv

variable {now : Nat} {t : Thresholds F} {c : ConditionCode}

theorem NotHidden.of_eq
    (heq : truth c (evidenceOf s' now) t = some false →
      truth c (evidenceOf s' now) t = truth c (evidenceOf s now) t) : NotHidden now t s s' c := by
  intro hfalse
  rw [← heq hfalse, hfalse]
  decide

theorem NotHidden.of_agrees
    (h : Agrees (truth c (evidenceOf s' now) t) (truth c (evidenceOf s now) t)) :
    NotHidden now t s s' c :=
  fun hfalse htrue => Bool.noConfusion (h false true hfalse htrue)

variable (h : Reduced A B s s') (hsafe : Harmless A B)

include h

theorem Reduced.shardUp {shards : List (ShardEvidence F)}
    (hshards : shardsOf s' now = some shards) : ¬A "weir_wab_shard_up" :=
  h.labelled_present (shardsOf_some hshards).1

include hsafe

/-- What is read of a code that a one-hot family names. -/
theorem Reduced.named {α β : Type} (code : ConditionCode) {name label : String} {all : List α}
    {asStr : α → String} {f : α → β} {v : β} (hr : ⟨code, name, false, [name]⟩ ∈ readings)
    (hv : ((s'.oneHot name label).bind (findNamed all asStr)).map f = some v) :
    (s'.oneHot name label).bind (findNamed all asStr)
      = (s.oneHot name label).bind (findNamed all asStr) ∧ ¬A name := by
  obtain ⟨w, hw, -⟩ := Option.map_eq_some_iff.mp hv
  obtain ⟨text, htext, -⟩ := Option.bind_eq_some_iff.mp hw
  rw [h.oneHot hsafe hr htext, htext]
  exact ⟨rfl, h.oneHot_present htext⟩

variable {β : Type} {v : β}

theorem Reduced.phase {f : Phase → β} (hv : (phaseOf s').map f = some v) :
    phaseOf s' = phaseOf s ∧ ¬A "weir_startup_phase" :=
  h.named hsafe .starting (by decide) hv

theorem Reduced.drainState {f : DrainStateCode → β} (hv : (drainStateOf s').map f = some v) :
    drainStateOf s' = drainStateOf s ∧ ¬A "weir_drain_state" :=
  h.named hsafe .drainBlockedDeadLetterFull (by decide) hv

theorem Reduced.sinkHealth {f : SinkHealthCode → β} (hv : (sinkHealthOf s').map f = some v) :
    sinkHealthOf s' = sinkHealthOf s ∧ ¬A "weir_sink_health" :=
  h.named hsafe .sinkDown (by decide) hv

/-- A decision on the phase alone. -/
theorem Reduced.phase_decides {g : Phase → Bool}
    (hfalse : (phaseOf s').map g = some false) : (phaseOf s).map g ≠ some true := by
  rw [← (h.phase hsafe hfalse).1, hfalse]
  decide

/-- A decision on the health of the sink alone. -/
theorem Reduced.sinkHealth_decides {g : SinkHealthCode → Bool}
    (hfalse : ((sinkOf s').bind fun k => k.health.map g) = some false) :
    ((sinkOf s).bind fun k => k.health.map g) ≠ some true := by
  obtain ⟨k', hk', -⟩ := Option.bind_eq_some_iff.mp hfalse
  simp only [sinkOf, Option.bind_map, Function.comp_def] at hfalse ⊢
  rw [← (h.sinkHealth hsafe hk').1, hfalse]
  decide

theorem Reduced.noLiveShard : NotHidden now t s s' .noLiveShard := by
  refine .of_agrees (.bind fun p' p hp' hp => .map fun shards' shards hshards' hshards => ?_)
  obtain ⟨hphase, hAphase⟩ := h.phase hsafe (f := id) (by rw [Option.map_id]; exact hp')
  have hgates : ∀ g ∈ ["weir_startup_phase", "weir_wab_shard_up"], ¬A g := by
    simp [hAphase, h.shardUp hshards']
  have hup := h.reading hsafe (r := ⟨.shardOffline, "weir_wab_shard_up", false, _⟩)
    (by decide) hgates
  have hworkers := h.reading hsafe (r := ⟨.noLiveShard, "weir_worker_up", true, _⟩)
    (by decide) hgates
  -- whether a shard can ingest depends on its series, the phase and the workers
  have hw : workersOf s' = workersOf s := by
    unfold workersOf
    rw [labelled_congr hworkers]
  have hmap := shardsOf_map_congr ShardEvidence.ingestCapable hup hshards hshards' fun x => by
    unfold shardIn shardOf
    rw [hphase, hw, Option.map_map, Option.map_map]
    rfl
  have hany : shards'.any ShardEvidence.ingestCapable = shards.any ShardEvidence.ingestCapable :=
    any_of_map_eq hmap id
  have hsame : p' = p := Option.some.inj (hp'.symm.trans (hphase.trans hp))
  rw [hany, hsame]

theorem Reduced.shardOffline : NotHidden now t s s' .shardOffline := by
  refine .of_agrees (.bind fun shards' shards hshards' hshards => .map fun sd' sd hsd' hsd => ?_)
  obtain ⟨hphase, hAphase⟩ := h.phase hsafe hsd'
  have hgates : ∀ g ∈ ["weir_startup_phase", "weir_wab_shard_up"], ¬A g := by
    simp [hAphase, h.shardUp hshards']
  have hup := h.reading hsafe (r := ⟨.shardOffline, "weir_wab_shard_up", false, _⟩)
    (by decide) hgates
  have hmap := shardsOf_map_congr ShardEvidence.state hup hshards hshards' fun x => by
    unfold shardIn shardOf
    rw [hphase, Option.map_map, Option.map_map]
    rfl
  have hany : shards'.any (fun x => x.state = .offline)
      = shards.any (fun x => x.state = .offline) :=
    any_of_map_eq hmap fun state => decide (state = .offline)
  have hall : shards'.all (fun x => x.state = .offline)
      = shards.all (fun x => x.state = .offline) :=
    all_of_map_eq hmap fun state => decide (state = .offline)
  have hsame : sd' = sd := by
    change (phaseOf s').map _ = _ at hsd'
    rw [hphase] at hsd'
    exact Option.some.inj (hsd'.symm.trans hsd)
  rw [hany, hall, hsame]

theorem Reduced.workerExited : NotHidden now t s s' .workerExited := by
  refine .of_eq fun hfalse => ?_
  obtain ⟨workers', hworkers', hrest⟩ := Option.bind_eq_some_iff.mp hfalse
  obtain ⟨sd', hsd', -⟩ := Option.map_eq_some_iff.mp hrest
  obtain ⟨hphase, hAphase⟩ := h.phase hsafe hsd'
  have hne : s'.labelled "weir_worker_up" "worker" ≠ [] := by
    intro hnil
    have hnone : (evidenceOf s' now).workers = none := by
      show (if workersOf s' = [] then none else _) = _
      unfold workersOf
      rw [hnil]
      rfl
    rw [hnone] at hworkers'
    cases hworkers'
  have hgates : ∀ g ∈ ["weir_startup_phase", "weir_worker_up"], ¬A g := by
    simp [hAphase, h.labelled_present hne]
  have hup := h.reading hsafe (r := ⟨.workerExited, "weir_worker_up", false, _⟩)
    (by decide) hgates
  -- the workers and the phase are the same, and nothing else is read
  have hw : workersOf s' = workersOf s := by
    unfold workersOf
    rw [labelled_congr hup]
  simp only [truth, evidenceOf, hphase, hw]

theorem Reduced.wabCapRejecting : NotHidden now t s s' .wabCapRejecting := by
  refine .of_agrees (.map fun cap' cap hcap' hcap => ?_)
  obtain ⟨rej', hrej', hcap'⟩ := Option.bind_eq_some_iff.mp hcap'
  obtain ⟨bytes', hbytes', hcap'⟩ := Option.bind_eq_some_iff.mp hcap'
  obtain ⟨max', hmax', rfl⟩ := Option.map_eq_some_iff.mp hcap'
  obtain ⟨rej, hrej, hcap⟩ := Option.bind_eq_some_iff.mp hcap
  obtain ⟨bytes, -, hcap⟩ := Option.bind_eq_some_iff.mp hcap
  obtain ⟨max, -, rfl⟩ := Option.map_eq_some_iff.mp hcap
  have hgates : ∀ g ∈ ["weir_wab_cap_rejecting", "weir_wab_bytes_on_disk",
      "weir_config_wab_max_bytes"], ¬A g := by
    simp [h.scalar_present hrej', h.scalar_present hbytes', h.scalar_present hmax']
  have hsame := h.scalar_same hsafe ⟨.wabCapRejecting, "weir_wab_cap_rejecting", false, _⟩
    (by decide) hgates
  have heq : rej' = rej := Option.some.inj (hrej'.symm.trans (hsame.trans hrej))
  rw [heq]

/-- A decision on the state of the drain and the phase. -/
theorem Reduced.drainStopped : NotHidden now t s s' .drainStopped := by
  refine .of_eq fun hfalse => ?_
  obtain ⟨d', hd', hrest⟩ := Option.bind_eq_some_iff.mp hfalse
  obtain ⟨sd', hsd', -⟩ := Option.map_eq_some_iff.mp hrest
  simp only [truth, evidenceOf, drainOf, (h.phase hsafe hsd').1, (h.drainState hsafe hd').1,
    Option.bind_map, Function.comp_def]

theorem Reduced.paused (hA : ¬A "weir_drain_state") :
    s'.scalar "weir_drain_paused" = s.scalar "weir_drain_paused" := by
  have hgates : ∀ g ∈ ["weir_drain_state"], ¬A g := by simpa using hA
  exact h.scalar_same hsafe ⟨.drainPaused, "weir_drain_paused", true, _⟩ (by decide) hgates

theorem Reduced.drainPaused : NotHidden now t s s' .drainPaused := by
  refine .of_eq fun hfalse => ?_
  obtain ⟨d', hd', -⟩ := Option.map_eq_some_iff.mp hfalse
  obtain ⟨hstate, hA⟩ := h.drainState hsafe hd'
  simp only [truth, evidenceOf, drainOf, hstate, h.paused hsafe hA, Option.map_map,
    Function.comp_def]

theorem Reduced.drainBlocked : NotHidden now t s s' .drainBlockedDeadLetterFull := by
  refine .of_eq fun hfalse => ?_
  obtain ⟨d', hd', -⟩ := Option.map_eq_some_iff.mp hfalse
  simp only [truth, evidenceOf, drainOf, (h.drainState hsafe hd').1, Option.map_map,
    Function.comp_def]

/-- The reference of a stalled delivery, if there is one left, is the one there was. -/
theorem Reduced.reference (hgates : ∀ g ∈ stalledGates, ¬A g) :
    deliveryIsStalled now t ((s'.scalar "weir_start_time_seconds").map ms)
        ((positive (s'.scalar "weir_sink_last_success_timestamp_seconds")).map ms) = none ∨
      deliveryIsStalled now t ((s'.scalar "weir_start_time_seconds").map ms)
          ((positive (s'.scalar "weir_sink_last_success_timestamp_seconds")).map ms)
        = deliveryIsStalled now t ((s.scalar "weir_start_time_seconds").map ms)
          ((positive (s.scalar "weir_sink_last_success_timestamp_seconds")).map ms) := by
  by_cases hAsuccess : A "weir_sink_last_success_timestamp_seconds"
  · -- the start takes the place of a lost success, so it has to be lost with it
    obtain ⟨g, hg, hAg⟩ := hsafe ⟨.deliveryStalled, "weir_sink_last_success_timestamp_seconds",
      true, "weir_start_time_seconds" :: stalledGates⟩ (by decide) (.inr ⟨rfl, hAsuccess⟩)
    rcases mem_cons.mp hg with rfl | hg
    · left
      rw [h.scalar_gone hAsuccess, h.scalar_gone hAg]
      rfl
    · exact absurd hAg (hgates g hg)
  · have hsuccess := scalar_congr (h.reading hsafe (r := ⟨.deliveryStalled,
        "weir_sink_last_success_timestamp_seconds", false, _⟩) (by decide)
      (List.forall_mem_cons.mpr ⟨hAsuccess, hgates⟩))
    rw [hsuccess]
    by_cases hAstart : A "weir_start_time_seconds"
    · rw [h.scalar_gone hAstart]
      cases (positive (s.scalar "weir_sink_last_success_timestamp_seconds")).map ms with
      | none => exact .inl rfl
      | some reference => exact .inr rfl
    · have hstart := scalar_congr (h.reading hsafe (r := ⟨.deliveryStalled,
          "weir_start_time_seconds", false, _⟩) (by decide)
        (List.forall_mem_cons.mpr ⟨hAstart, hgates⟩))
      rw [hstart]
      exact .inr rfl

theorem Reduced.deliveryStalled : NotHidden now t s s' .deliveryStalled := by
  refine .of_agrees (.bind fun b' b hb' hb => .bind fun k' k hk' hk => .bind fun d' d hd' hd => ?_)
  obtain ⟨segments', hsegments', rfl⟩ := Option.map_eq_some_iff.mp hb'
  obtain ⟨segments, hsegments, rfl⟩ := Option.map_eq_some_iff.mp hb
  obtain ⟨-, hAsink⟩ := h.sinkHealth hsafe hk'
  obtain ⟨-, hAdrain⟩ := h.drainState hsafe hd'
  obtain ⟨health', -, rfl⟩ := Option.map_eq_some_iff.mp hk'
  obtain ⟨health, -, rfl⟩ := Option.map_eq_some_iff.mp hk
  obtain ⟨state', -, rfl⟩ := Option.map_eq_some_iff.mp hd'
  obtain ⟨state, -, rfl⟩ := Option.map_eq_some_iff.mp hd
  have hgates : ∀ g ∈ stalledGates, ¬A g := by
    simp [stalledGates, h.scalar_present hsegments', hAsink, hAdrain]
  have hsame := h.scalar_same hsafe
    ⟨.deliveryStalled, "weir_wab_undelivered_segments", false, _⟩ (by decide) hgates
  have heq : segments' = segments := Option.some.inj (hsegments'.symm.trans (hsame.trans hsegments))
  dsimp only
  rw [heq, h.paused hsafe hAdrain]
  split
  · exact fun v' v hv' hv => Option.some.inj (hv'.symm.trans hv)
  · intro v' v hv' hv
    rcases h.reference hsafe hgates with hnone | hsame
    · exact absurd (hnone.symm.trans hv') (by simp)
    · exact Option.some.inj (hv'.symm.trans (hsame.trans hv))

theorem Reduced.deliveryLagging : NotHidden now t s s' .deliveryLagging := by
  refine .of_agrees (.map fun b' b hb' hb => ?_)
  obtain ⟨segments', hsegments', rfl⟩ := Option.map_eq_some_iff.mp hb'
  obtain ⟨segments, -, rfl⟩ := Option.map_eq_some_iff.mp hb
  have hgates : ∀ g ∈ ["weir_wab_undelivered_segments"], ¬A g := by
    simpa using h.scalar_present hsegments'
  rw [h.scalar_same hsafe
    ⟨.deliveryLagging, "weir_wab_oldest_undelivered_age_seconds", true, _⟩ (by decide) hgates]

theorem Reduced.quarantineNonempty : NotHidden now t s s' .quarantineNonempty := by
  refine .of_agrees (.map fun b' b hb' hb => ?_)
  obtain ⟨segments', hsegments', rfl⟩ := Option.map_eq_some_iff.mp hb'
  obtain ⟨segments, -, rfl⟩ := Option.map_eq_some_iff.mp hb
  have hgates : ∀ g ∈ ["weir_wab_undelivered_segments"], ¬A g := by
    simpa using h.scalar_present hsegments'
  rw [h.scalar_same hsafe
    ⟨.quarantineNonempty, "weir_quarantine_bytes_on_disk", true, _⟩ (by decide) hgates]

theorem Reduced.sinkFailing : NotHidden now t s s' .sinkFailing := by
  refine .of_eq fun hfalse => ?_
  obtain ⟨k', hk', -⟩ := Option.map_eq_some_iff.mp hfalse
  obtain ⟨hhealth, hA⟩ := h.sinkHealth hsafe hk'
  have hgates : ∀ g ∈ ["weir_sink_health"], ¬A g := by simpa using hA
  have hfailures := h.scalar_same hsafe ⟨.sinkFailing, "weir_sink_consecutive_failures", true, _⟩
    (by decide) hgates
  simp only [truth, evidenceOf, sinkOf, hhealth, hfailures, Option.map_map, Function.comp_def]

theorem Reduced.deadLetterNearCap : NotHidden now t s s' .deadLetterNearCap := by
  refine .of_agrees (.bind fun b' b hb' hb => .bind fun c' c hc' hc => ?_)
  obtain ⟨segments', hsegments', rfl⟩ := Option.map_eq_some_iff.mp hb'
  obtain ⟨segments, -, rfl⟩ := Option.map_eq_some_iff.mp hb
  obtain ⟨sinkType', hsink', rfl⟩ := Option.map_eq_some_iff.mp hc'
  obtain ⟨sinkType, -, rfl⟩ := Option.map_eq_some_iff.mp hc
  rw [fromView_deadLetterMaxBytes, fromView_deadLetterMaxBytes, Option.map_map, Option.map_map]
  refine .map fun cap' cap hcap' hcap => ?_
  have hgates : ∀ g ∈ nearCapGates, ¬A g := by
    simp [nearCapGates, h.scalar_present hsegments', h.oneHot_present hsink',
      h.scalar_present hcap']
  have hsame := h.scalar_same hsafe
    ⟨.deadLetterNearCap, "weir_config_dead_letter_max_bytes", false, _⟩ (by decide) hgates
  have hbytes := h.scalar_same hsafe
    ⟨.deadLetterNearCap, "weir_dead_letter_bytes_on_disk", true, _⟩ (by decide) hgates
  have heq : cap' = cap := Option.some.inj (hcap'.symm.trans (hsame.trans hcap))
  rw [heq, hbytes]

theorem Reduced.noopSink : NotHidden now t s s' .noopSink := by
  refine .of_eq fun hfalse => ?_
  obtain ⟨c', hc', -⟩ := Option.map_eq_some_iff.mp hfalse
  obtain ⟨sinkType, hsink, -⟩ := Option.map_eq_some_iff.mp hc'
  have hs := h.oneHot hsafe (show ⟨.noopSink, _, false, _⟩ ∈ readings by decide) hsink
  simp only [truth, evidenceOf, configOf, hsink, hs, Option.map_some]

theorem Reduced.recoveryIncomplete : NotHidden now t s s' .recoveryIncomplete := by
  refine .of_eq fun hfalse => ?_
  obtain ⟨failed, hfailed, hrest⟩ := Option.bind_eq_some_iff.mp hfalse
  obtain ⟨copy, hcopy, -⟩ := Option.map_eq_some_iff.mp hrest
  obtain ⟨v, hv, -⟩ := Option.map_eq_some_iff.mp hfailed
  obtain ⟨w, hw, -⟩ := Option.map_eq_some_iff.mp hcopy
  have hgates : ∀ g ∈ recoveryGates, ¬A g := by
    simp [recoveryGates, h.scalar_present hv, h.scalar_present hw]
  have hf := h.scalar_same hsafe
    ⟨.recoveryIncomplete, "weir_recovery_segments_failed_total", false, _⟩ (by decide) hgates
  have hc := h.scalar_same hsafe
    ⟨.recoveryIncomplete, "weir_recovery_quarantine_copy_failed_total", false, _⟩ (by decide) hgates
  simp only [truth, evidenceOf, recentOf, hf, hc, Option.bind_some]

theorem Reduced.activeSegmentAging : NotHidden now t s s' .activeSegmentAging := by
  refine .of_agrees (.bind fun shards' shards hshards' hshards => .bind fun c' c hc' hc =>
    .bind fun b' b hb' hb => ?_)
  obtain ⟨sinkType', hsink', rfl⟩ := Option.map_eq_some_iff.mp hc'
  obtain ⟨sinkType, -, rfl⟩ := Option.map_eq_some_iff.mp hc
  obtain ⟨segments', hsegments', -⟩ := Option.map_eq_some_iff.mp hb'
  simp only [fromView_wabSegmentMaxAgeSecs, fromView_wabSegmentMaxLifetimeSecs, Option.bind_map,
    Option.map_map, Function.comp_def]
  refine .bind fun age' age hage' hage => .map fun life' life hlife' hlife => ?_
  have hgates : ∀ g ∈ agingGates, ¬A g := by
    simp [agingGates, h.shardUp hshards', h.oneHot_present hsink', h.scalar_present hsegments',
      h.scalar_present hage', h.scalar_present hlife']
  have hup := h.reading hsafe (r := ⟨.activeSegmentAging, "weir_wab_shard_up", false, _⟩)
    (by decide) hgates
  have hages := h.reading hsafe
    (r := ⟨.activeSegmentAging, "weir_wab_active_segment_age_seconds", true, _⟩)
    (by decide) hgates
  have hmaxAge := h.scalar_same hsafe
    ⟨.activeSegmentAging, "weir_config_segment_max_age_seconds", false, _⟩ (by decide) hgates
  have hmaxLife := h.scalar_same hsafe
    ⟨.activeSegmentAging, "weir_config_segment_max_lifetime_seconds", false, _⟩ (by decide) hgates
  have hmap := shardsOf_map_congr ShardEvidence.activeSegmentAgeSecs hup hshards hshards'
      fun x => by
    unfold shardIn shardOf
    rw [labelled_congr hages, Option.map_map, Option.map_map]
    rfl
  have hany := any_of_map_eq hmap fun a => a.any (F.lt t.activeSegmentAgingSecs)
  have hageEq : age' = age := Option.some.inj (hage'.symm.trans (hmaxAge.trans hage))
  have hlifeEq : life' = life := Option.some.inj (hlife'.symm.trans (hmaxLife.trans hlife))
  rw [hany, hageEq, hlifeEq]

/-- What is lost as a whole or in lines hides no condition, if that is harmless. -/
theorem Reduced.hides_nothing (now : Nat) (t : Thresholds F) (c : ConditionCode) :
    NotHidden now t s s' c := by
  cases c with
  | starting | shuttingDown => exact h.phase_decides hsafe
  | noLiveShard => exact h.noLiveShard hsafe
  | shardOffline => exact h.shardOffline hsafe
  | workerExited => exact h.workerExited hsafe
  | wabCapRejecting => exact h.wabCapRejecting hsafe
  | drainStopped => exact h.drainStopped hsafe
  | drainWedged => exact fun _ => drainWedged_ne_true s now t
  | drainPaused => exact h.drainPaused hsafe
  | drainBlockedDeadLetterFull => exact h.drainBlocked hsafe
  | deliveryStalled => exact h.deliveryStalled hsafe
  | deliveryLagging => exact h.deliveryLagging hsafe
  | sinkDown | sinkDegraded => exact h.sinkHealth_decides hsafe
  | sinkFailing => exact h.sinkFailing hsafe
  | deadLetterNearCap => exact h.deadLetterNearCap hsafe
  | noopSink => exact h.noopSink hsafe
  | activeSegmentAging => exact h.activeSegmentAging hsafe
  | quarantineNonempty => exact h.quarantineNonempty hsafe
  | recoveryIncomplete => exact h.recoveryIncomplete hsafe
  | drainBackpressure =>
    -- the channel is not exported, so it is never known that there is no backpressure
    exact fun hfalse => absurd hfalse (triOr_none_ne_false _)
  | listenerDown =>
    intro _ htrue
    obtain ⟨listeners, hlisteners, hdown⟩ := Option.bind_eq_some_iff.mp htrue
    change (if _ then some [] else none) = some listeners at hlisteners
    split at hlisteners <;> cases hlisteners
    cases hdown
  | wabGrowingUnbounded =>
    intro _ htrue
    obtain ⟨cap, hcap, hgrowing⟩ := Option.bind_eq_some_iff.mp htrue
    obtain ⟨rej, -, hcap⟩ := Option.bind_eq_some_iff.mp hcap
    obtain ⟨bytes, -, hcap⟩ := Option.bind_eq_some_iff.mp hcap
    obtain ⟨max, -, rfl⟩ := Option.map_eq_some_iff.mp hcap
    cases hgrowing
  -- the others are not decided by a scrape
  | _ => exact fun _ htrue => nomatch htrue

end

end Weir.Status

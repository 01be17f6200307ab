import Weir.Ingest.Pipeline

/-!
# The seal timers (`wab/mod.rs`)

A segment that fills slowly is sealed by a timer: `segment_max_lifetime` counts
from its creation, `segment_max_age` from the shard's last flush. The flusher
looks at the two clocks when its wait for a batch times out and, if a lifetime
is set, after each flush. `TimedFlusher` puts a clock over the flusher of
`Weir.Ingest`: time passes only in a wait, a flush or a seal, and each of them
has a bound.

> `active_bounded`: an open segment is at most its timer, one `batch_deadline`,
> one flush and one seal old.

> `sealBeforeSizeThreshold_keeps_iff`: a timed seal that fails never leaves the
> segment open: `seal_current` took it out of the writer before the first step
> that can fail.
-/

namespace Weir.Timers

open Weir.Lib Weir.Wab Weir.Ingest

/-! ## One timed seal -/

/-- Which timer asked for a seal. -/
inductive TimedSeal
  | lifetime
  | idle
  deriving DecidableEq, Repr

/-- A timer that is set, on a clock that runs, and due. -/
def reached (max elapsed : Option Nat) : Bool :=
  match max, elapsed with
  | some max, some elapsed => decide (elapsed ≥ max)
  | _, _ => false

/-- `due_timed_seal`. -/
def dueTimedSeal (segmentMaxAge idleFor segmentMaxLifetime activeSegmentAge : Option Nat) :
    Option TimedSeal :=
  if reached segmentMaxLifetime activeSegmentAge then some .lifetime
  else if reached segmentMaxAge idleFor then some .idle
  else none

/-- `seal_before_size_threshold`: its result, the writer, and what it did. -/
def sealBeforeSizeThreshold (w : ShardWriter) (io : SealIo) (delivered : Bool) :
    Bool × ShardWriter × List Event :=
  match w.sealCurrent io with
  | (w, .ok (some sealed), ops) =>
    (true, w, ops.map (.io none) ++ (if delivered then [.handedOff sealed] else []))
  | (w, .ok none, ops) => (true, w, ops.map (.io none))
  | (w, .error _, ops) => (false, w, ops.map (.io none))

theorem sealCurrent_active (w : ShardWriter) (io : SealIo) :
    (w.sealCurrent io).1.active = none := by
  unfold ShardWriter.sealCurrent
  split
  next h => exact h
  next => split <;> rfl

theorem flusherCall_seal_active (z : Zstd) (w : ShardWriter) (io : SealIo) (delivered : Bool) :
    (flusherCall z w (.sealCurrent io delivered)).1.active = none := by
  have h := sealCurrent_active w io
  unfold flusherCall
  dsimp only
  split <;> simp_all

/-- No step of a seal of the segment at `p` fails. A path without a directory
has no directory to sync. -/
def StepsSucceed (p : Path) (io : SealIo) : Prop :=
  io.sentinel = .ok ∧ io.footer = .ok ∧ io.fsync = none ∧ io.sealedExists = .ok false ∧
    io.rename = none ∧ ((sealedPathFor p).dir = [] ∨ io.dirSync = none)

/-- A seal succeeds exactly when each of its steps does. -/
theorem seal_ok_iff (seg : WabSegment) (io : SealIo) :
    (∃ sealed ops, seg.seal io = (.ok sealed, ops)) ↔ StepsSucceed seg.path io := by
  obtain ⟨_, sentinel, footer, fsync, sealedExists, rename, dirSync⟩ := io
  unfold StepsSucceed WabSegment.seal WabSegment.finalizeToDisk WabSegment.fsync fsyncParentDir
  cases sentinel with
  | failed => simp
  | ok =>
    cases footer with
    | failed => simp
    | ok =>
      cases fsync with
      | some => simp
      | none =>
        rcases sealedExists with e | found
        · simp
        cases found with
        | true => simp
        | false =>
          cases rename with
          | some => simp
          | none =>
            by_cases hdir : (sealedPathFor seg.path).dir = []
            · simp [hdir]
            · cases dirSync <;> simp [hdir]

/-- The segment stays the writer's own, same path and same records, over a timed
seal that reports failure exactly when no step of the seal fails at all. -/
theorem sealBeforeSizeThreshold_keeps_iff (w : ShardWriter) (seg : WabSegment) (io : SealIo)
    (delivered : Bool) (hactive : w.active = some seg) :
    ((sealBeforeSizeThreshold w io delivered).1 = false →
      (sealBeforeSizeThreshold w io delivered).2.1.active = some seg ∧
        (sealBeforeSizeThreshold w io delivered).2.1.activePath = w.activePath) ↔
      StepsSucceed seg.path io := by
  rw [← seal_ok_iff]
  unfold sealBeforeSizeThreshold ShardWriter.sealCurrent
  rw [hactive]
  dsimp only
  rcases seg.seal io with ⟨e | sealed, ops⟩
  · simp
  · simp

/-- A writer with one record in its open segment. -/
def oneRecord : ShardWriter :=
  { ShardWriter.new 0 ["wab"] 4096 .none 0 with
    nextCounter := 2
    active := some ⟨segmentPath ["wab"] 1, 41, 1, 1, Hasher.new, .none, false⟩
    activePath := some (segmentPath ["wab"] 1)
    activeRecords := 1 }

theorem sealBeforeSizeThreshold_keeps_calm :
    StepsSucceed (segmentPath ["wab"] 1) .calm ∧
    ((sealBeforeSizeThreshold oneRecord .calm true).1 = false →
      (sealBeforeSizeThreshold oneRecord .calm true).2.1.active = oneRecord.active ∧
        (sealBeforeSizeThreshold oneRecord .calm true).2.1.activePath = oneRecord.activePath) :=
  have hcalm : StepsSucceed (segmentPath ["wab"] 1) .calm :=
    ⟨rfl, rfl, rfl, rfl, rfl, .inr rfl⟩
  ⟨hcalm, (sealBeforeSizeThreshold_keeps_iff oneRecord _ .calm true rfl).mpr hcalm⟩

/-- One rename fails: the writer is empty afterwards, and a shutdown seal that
could do everything has nothing to hand to the drain. -/
theorem sealBeforeSizeThreshold_drops :
    ∃ io : SealIo, oneRecord.active.isSome ∧
      (sealBeforeSizeThreshold oneRecord io true).1 = false ∧
      (sealBeforeSizeThreshold oneRecord io true).2.1.active.isNone ∧
      (sealBeforeSizeThreshold (sealBeforeSizeThreshold oneRecord io true).2.1 .calm true).2.2
        = [] :=
  ⟨{ SealIo.calm with rename := some (IoError.new .other "I/O error") }, rfl, rfl, rfl, rfl⟩

/-! ## The flusher's clocks -/

/-- The settings of a flusher, and how long its flushes (with what they collect
and hand off) and its seals (with their hand-off) take at most. -/
structure TimerConfig where
  batchDeadline : Nat
  segmentMaxAge : Option Nat
  segmentMaxLifetime : Option Nat
  flushTakes : Nat
  sealTakes : Nat

/-- A flusher in time. `since` is when its wait, flush or seal began, `sealing`
that a timed seal runs, and `lastFlushAt` the end of the last flush. -/
structure TimedFlusher where
  now : Nat
  since : Nat
  sealing : Bool
  flusher : Flusher
  channel : List Batch
  activeOpenedAt : Nat
  lastWriteAt : Option Nat
  lastFlushAt : Nat

inductive TimedMove
  | tick (d : Nat)
  | arrive (b : Batch)
  | act (mv : FlusherMove)
  | timeOut
  | rest
  | sealed (io : SealIo) (delivered : Bool)

namespace TimedFlusher

def start (w : ShardWriter) : TimedFlusher := ⟨0, 0, false, .new w, [], 0, none, 0⟩

abbrev writer (s : TimedFlusher) : ShardWriter := s.flusher.st.writer

/-- Between the first batch of a flush and its last ack. -/
def inFlush : Phase → Bool
  | .draining | .writing _ | .acking => true
  | _ => false

/-- When what the flusher is doing is over at the latest. -/
def limit (cfg : TimerConfig) (s : TimedFlusher) : Option Nat :=
  if s.sealing then some (s.since + cfg.sealTakes)
  else
    match s.flusher.phase with
    | .receiving => some (s.since + cfg.batchDeadline)
    | .draining | .writing _ | .acking => some (s.since + cfg.flushTakes)
    | .resting => some s.since
    | .closing => some (s.since + cfg.sealTakes)
    | .exited => none

/-- The timers, read at this instant. -/
def due (cfg : TimerConfig) (s : TimedFlusher) : Option TimedSeal :=
  dueTimedSeal cfg.segmentMaxAge (s.lastWriteAt.map (s.now - ·)) cfg.segmentMaxLifetime
    (s.writer.active.map fun _ => s.now - s.activeOpenedAt)

/-- The clocks after a move: `ensure_open` stamps a segment it opens, the end of a
flush restarts the idle clock. `active_opened_at` is read with a segment open
only, so a create that failed may stamp it too. -/
def mark (cfg : TimerConfig) (s : TimedFlusher) : FlusherMove → TimedFlusher
  | .write _ _ => if s.writer.active.isNone then { s with activeOpenedAt := s.now } else s
  | .ackDurable =>
    { s with
      since := s.now
      lastWriteAt := if cfg.segmentMaxAge.isSome then some s.now else s.lastWriteAt
      lastFlushAt := s.now }
  | .receive | .disconnect => { s with since := s.now }
  | _ => s

/-- The moves `act` takes: those without a timer, and no death of the thread. -/
def untimed : FlusherMove → Bool
  | .timeOut _ | .rest _ | .die => false
  | _ => true

/-- One step of the flusher loop in time. -/
def step (cfg : TimerConfig) (z : Zstd) (t : Topology) (s : TimedFlusher) :
    TimedMove → Option TimedFlusher
  | .tick d =>
    if (s.limit cfg).all (s.now + d ≤ ·) then some { s with now := s.now + d } else none
  | .arrive b => some { s with channel := s.channel ++ [b] }
  | .act mv =>
    if s.sealing = false ∧ untimed mv then
      (s.flusher.step z t s.channel mv).map fun (flusher, channel) =>
        { s.mark cfg mv with flusher := flusher, channel := channel }
    else none
  | .timeOut =>
    if s.sealing = false ∧ s.now = s.since + cfg.batchDeadline then
      (s.flusher.step z t s.channel (.timeOut none)).map fun (flusher, channel) =>
        if s.flusher.batches = [] ∧ (s.due cfg).isSome ∧ s.writer.active.isSome then
          { s with since := s.now, sealing := true }
        else { s with since := s.now, flusher := flusher, channel := channel }
    else none
  | .rest =>
    if s.sealing = false then
      (s.flusher.step z t s.channel (.rest none)).map fun (flusher, channel) =>
        if cfg.segmentMaxLifetime.isSome ∧ (s.due cfg).isSome then
          { s with since := s.now, sealing := true }
        else { s with since := s.now, flusher := flusher, channel := channel }
    else none
  | .sealed io delivered =>
    if s.sealing then
      some { s with
        since := s.now
        sealing := false
        flusher := { s.flusher.sealIfDue z (some ⟨io, delivered⟩) with phase := .receiving }
        lastWriteAt :=
          if (sealBeforeSizeThreshold s.writer io delivered).1 then none else s.lastWriteAt }
    else none

/-- A timer of the open segment runs out at `b`. -/
def RunsOutAt (cfg : TimerConfig) (s : TimedFlusher) (b : Nat) : Prop :=
  (∃ l, cfg.segmentMaxLifetime = some l ∧ b = s.activeOpenedAt + l) ∨
    ∃ a, cfg.segmentMaxAge = some a ∧ b = max s.activeOpenedAt s.lastFlushAt + a

/-- How far behind a timer the flusher may have begun what it is doing. -/
def slack (cfg : TimerConfig) (s : TimedFlusher) : Nat :=
  if s.sealing then cfg.batchDeadline + cfg.flushTakes
  else
    match s.flusher.phase with
    | .receiving | .exited => 0
    | .draining | .writing _ | .acking | .closing => cfg.batchDeadline
    | .resting => cfg.batchDeadline + cfg.flushTakes

/-- The invariant of the loop. -/
structure Timely (cfg : TimerConfig) (s : TimedFlusher) : Prop where
  began : s.since ≤ s.now
  limit : ∀ l, s.limit cfg = some l → s.now ≤ l
  covered : s.writer.active.isSome → ∀ b, s.RunsOutAt cfg b → s.since ≤ b + s.slack cfg
  idle : s.flusher.phase = .receiving ∨ s.flusher.phase = .resting → s.writer.active.isSome →
    cfg.segmentMaxAge.isSome → s.lastWriteAt = some s.lastFlushAt
  rested : s.flusher.phase = .resting → s.sealing = false → s.since ≤ s.lastFlushAt
  gone : s.flusher.phase = .exited → s.writer.active = none

variable {cfg : TimerConfig} {s s' : TimedFlusher}

/-- With no segment open, the timers have nothing to say. -/
theorem Timely.of_none (hnone : s.writer.active = none) (hphase : s.flusher.phase ≠ .resting)
    (hbegan : s.since ≤ s.now) (hlimit : ∀ l, s.limit cfg = some l → s.now ≤ l) :
    s.Timely cfg where
  began := hbegan
  limit := hlimit
  covered := by rw [hnone]; intro h; cases h
  idle := by rw [hnone]; intro _ h; cases h
  rested := fun h => absurd h hphase
  gone := fun _ => hnone

/-- With no timer due, none of an open segment's timers has run out. -/
theorem le_of_not_due (hdue : s.due cfg = none) (hactive : s.writer.active.isSome)
    (hidle : cfg.segmentMaxAge.isSome → s.lastWriteAt = some s.lastFlushAt) {b : Nat}
    (hb : s.RunsOutAt cfg b) : s.now ≤ b := by
  obtain ⟨seg, hseg⟩ := Option.isSome_iff_exists.mp hactive
  unfold due dueTimedSeal at hdue
  split at hdue
  · cases hdue
  rename_i hlife
  split at hdue
  · cases hdue
  rename_i hage
  rcases hb with ⟨l, hl, rfl⟩ | ⟨a, ha, rfl⟩
  · simp only [reached, hl, hseg, Option.map_some, decide_eq_true_eq] at hlife
    omega
  · rw [ha] at hidle hage
    simp only [reached, hidle rfl, Option.map_some, decide_eq_true_eq] at hage
    omega

/-- A wait is over in time for the timers. -/
theorem Timely.received (h : s.Timely cfg) (hphase : s.flusher.phase = .receiving)
    (hsealing : s.sealing = false) (hactive : s.writer.active.isSome) {b : Nat}
    (hb : s.RunsOutAt cfg b) : s.now ≤ b + cfg.batchDeadline := by
  have hlimit := h.limit _ (by rw [TimedFlusher.limit, hsealing, hphase]; rfl)
  have hcovered := h.covered hactive b hb
  rw [slack, hsealing, hphase] at hcovered
  exact le_trans hlimit (Nat.add_le_add_right hcovered _)

theorem groupFsync_active {fault : Option IoError} {st : FlushState}
    (h : (groupFsync fault st).writer.active.isSome) : st.writer.active.isSome := by
  cases hactive : st.writer.active with
  | some seg => rfl
  | none =>
    unfold groupFsync at h
    split at h
    · rw [hactive] at h
      exact h
    · simp [ShardWriter.fsyncCurrent, hactive] at h

/-- A flush began and runs in time. -/
theorem Timely.flush (h : s.Timely cfg) (hsealing : s.sealing = false)
    (hphase : inFlush s.flusher.phase) : s.now ≤ s.since + cfg.flushTakes ∧
      (s.writer.active.isSome → ∀ b, s.RunsOutAt cfg b → s.since ≤ b + cfg.batchDeadline) := by
  obtain ⟨-, hlimit, hcovered, -⟩ := h
  unfold TimedFlusher.limit at hlimit
  unfold slack at hcovered
  rw [hsealing] at hlimit hcovered
  cases hp : s.flusher.phase <;> rw [hp] at hphase hlimit hcovered <;>
    first | exact ⟨hlimit _ rfl, hcovered⟩ | cases hphase

theorem Timely.of_flush (hsealing : s.sealing = false) (hphase : inFlush s.flusher.phase)
    (hbegan : s.since ≤ s.now) (hnow : s.now ≤ s.since + cfg.flushTakes)
    (hcovered : s.writer.active.isSome → ∀ b, s.RunsOutAt cfg b →
      s.since ≤ b + cfg.batchDeadline) : s.Timely cfg := by
  refine ⟨hbegan, ?_, ?_, ?_, ?_, ?_⟩ <;> cases hp : s.flusher.phase <;>
    simp_all [inFlush, TimedFlusher.limit, slack]

/-- The moves that no timer decides. -/
theorem Timely.act {z : Zstd} {t : Topology} (h : s.Timely cfg) {mv : FlusherMove}
    {f : Flusher} {channel : List Batch} (hsealing : s.sealing = false) (hmv : untimed mv)
    (hs : s.flusher.step z t s.channel mv = some (f, channel)) :
    Timely cfg { s.mark cfg mv with flusher := f, channel := channel } := by
  cases mv with
  | timeOut | rest | die => cases hmv
  | receive =>
    simp only [Flusher.step] at hs
    split at hs <;> cases hs
    next hphase _ =>
      exact .of_flush hsealing rfl (le_rfl) (Nat.le_add_right _ _)
        fun hactive b hb => h.received hphase hsealing hactive hb
  | disconnect =>
    simp only [Flusher.step] at hs
    split at hs <;> cases hs
    next hphase _ =>
      refine ⟨le_rfl, ?_, fun hactive b hb => ?_, ?_, ?_, ?_⟩
      · simp [mark, TimedFlusher.limit, hsealing]
      · have := h.received hphase hsealing hactive hb
        simpa [mark, slack, hsealing] using this
      all_goals simp
  | drain | beginFlush =>
    simp only [Flusher.step] at hs
    split at hs
    · have hphase : s.flusher.phase = .draining := by assumption
      split at hs <;> cases hs
      obtain ⟨hnow, hcovered⟩ := h.flush hsealing (by rw [hphase]; rfl)
      exact .of_flush hsealing (by simp [Flusher.take, Flusher.begin, hphase, inFlush]) h.began hnow
        hcovered
    · cases hs
  | write io delivered =>
    simp only [Flusher.step] at hs
    split at hs <;> cases hs
    next hphase =>
      obtain ⟨hnow, hcovered⟩ := h.flush hsealing (by rw [hphase]; rfl)
      unfold mark
      dsimp only
      split
      · -- the record opens a segment, so its clock starts now
        refine .of_flush hsealing rfl h.began hnow ?_
        have hbegan := h.began
        rintro _ b (⟨l, _, rfl⟩ | ⟨a, _, rfl⟩) <;> dsimp only <;> omega
      next hopen =>
        refine .of_flush hsealing rfl h.began hnow fun _ b hb => ?_
        exact hcovered (by simpa [Option.isSome_iff_ne_none] using hopen) b hb
  | groupFsync fault =>
    simp only [Flusher.step] at hs
    split at hs <;> cases hs
    next hphase =>
      obtain ⟨hnow, hcovered⟩ := h.flush hsealing (by rw [hphase]; rfl)
      exact .of_flush hsealing rfl h.began hnow fun hactive => hcovered (groupFsync_active hactive)
  | ackDurable =>
    simp only [Flusher.step] at hs
    split at hs <;> cases hs
    next hphase =>
      obtain ⟨hnow, hcovered⟩ := h.flush hsealing (by rw [hphase]; rfl)
      refine ⟨le_rfl, ?_, ?_, fun _ _ ha => if_pos ha, fun _ _ => le_rfl, by simp⟩
      · simp [mark, TimedFlusher.limit, hsealing]
      rintro hactive b (⟨l, hl, rfl⟩ | ⟨a, _, rfl⟩)
      · have := hcovered hactive _ (.inl ⟨l, hl, rfl⟩)
        simp only [mark, slack, hsealing, Bool.false_eq_true, if_false]
        omega
      · simp only [mark]
        omega
  | close io delivered =>
    simp only [Flusher.step] at hs
    split at hs <;> cases hs
    refine .of_none (flusherCall_seal_active z _ io delivered) (by simp) h.began ?_
    simp [TimedFlusher.limit, mark, hsealing]

theorem Timely.step {z : Zstd} {t : Topology} {mv : TimedMove} (h : s.Timely cfg)
    (hs : s.step cfg z t mv = some s') : s'.Timely cfg := by
  cases mv with
  | tick d =>
    obtain ⟨hd, hs⟩ := Option.ite_none_right_eq_some.mp hs
    cases hs
    refine ⟨Nat.le_add_right_of_le h.began, fun l hl => ?_, h.covered, h.idle, h.rested, h.gone⟩
    have : s.limit cfg = some l := hl
    simpa [this] using hd
  | arrive b =>
    cases hs
    exact ⟨h.began, h.limit, h.covered, h.idle, h.rested, h.gone⟩
  | act mv =>
    obtain ⟨hmv, hs⟩ := Option.ite_none_right_eq_some.mp hs
    obtain ⟨⟨f, channel⟩, hf, rfl⟩ := Option.map_eq_some_iff.mp hs
    exact h.act hmv.1 hmv.2 hf
  | timeOut =>
    simp only [TimedFlusher.step, Option.ite_none_right_eq_some, Option.map_eq_some_iff] at hs
    obtain ⟨hnow, ⟨f, channel⟩, hf, rfl⟩ := hs
    simp only [Flusher.step] at hf
    split at hf
    on_goal 2 => cases hf
    next hphase _ =>
      have hreceived := @Timely.received cfg s h hphase hnow.1
      split
      · -- a timer is due: the seal begins
        refine ⟨le_rfl, ?_, fun hactive b hb => ?_, h.idle, by simp, h.gone⟩
        · simp [TimedFlusher.limit]
        · have := hreceived hactive hb
          simp only [slack, if_true]
          omega
      next hdue =>
        split at hf <;> cases hf
        next hbatches =>
          refine ⟨le_rfl, ?_, fun hactive b hb => ?_, h.idle, ?_, h.gone⟩
          · simp [TimedFlusher.limit, Flusher.sealIfDue, hnow.1, hphase]
          · have hnone := Option.not_isSome_iff_eq_none.mp fun hd => hdue ⟨hbatches, hd, hactive⟩
            exact Nat.le_add_right_of_le
              (le_of_not_due (s := s) hnone hactive (h.idle (.inl hphase) hactive) hb)
          · simp [Flusher.sealIfDue, hphase]
        · exact .of_flush hnow.1 rfl (le_rfl) (Nat.le_add_right _ _)
            fun hactive b hb => hreceived hactive hb
  | rest =>
    simp only [TimedFlusher.step, Option.ite_none_right_eq_some, Option.map_eq_some_iff] at hs
    obtain ⟨hsealing, ⟨f, channel⟩, hf, rfl⟩ := hs
    simp only [Flusher.step] at hf
    split at hf <;> cases hf
    next hphase =>
      have hlimit := h.limit s.since (by rw [TimedFlusher.limit, hsealing, hphase]; rfl)
      split
      · refine ⟨le_rfl, ?_, fun hactive b hb => ?_, h.idle, by simp, h.gone⟩
        · simp [TimedFlusher.limit]
        have := h.covered hactive b hb
        simp only [slack, hsealing, hphase, Bool.false_eq_true, if_false] at this
        simp only [slack, if_true]
        omega
      next hdue =>
        refine ⟨le_rfl, ?_, fun hactive b hb => ?_, fun _ => h.idle (.inr hphase), by simp, by simp⟩
        · simp [TimedFlusher.limit, hsealing]
        refine Nat.le_add_right_of_le ?_
        cases hlife : cfg.segmentMaxLifetime with
        | some l =>
          rw [hlife] at hdue
          have hnone := Option.not_isSome_iff_eq_none.mp fun hd => hdue ⟨rfl, hd⟩
          exact le_of_not_due (s := s) hnone hactive (h.idle (.inr hphase) hactive) hb
        | none =>
          -- only the idle timer is set, and its clock has just been restarted
          have hrested := h.rested hphase hsealing
          rcases hb with ⟨l, hl, _⟩ | ⟨a, _, rfl⟩
          · rw [hlife] at hl
            cases hl
          · dsimp only
            omega
  | sealed io delivered =>
    obtain ⟨_, hs⟩ := Option.ite_none_right_eq_some.mp hs
    cases hs
    refine .of_none ?_ (by simp) (le_rfl) ?_
    · simp only [Flusher.sealIfDue]
      split
      · exact flusherCall_seal_active z _ io delivered
      next hnone => simpa using hnone
    · simp [TimedFlusher.limit]

/-- The seal timers bound how long a segment stays open. In every state a flusher
reaches, whatever arrives and whenever, an open segment is no older than
`segment_max_lifetime` and one wait, flush and seal, and the shard's last flush
(or the opening, in the segment's first flush) no further back than
`segment_max_age` and the same. -/
theorem active_bounded {z : Zstd} {t : Topology} {w : ShardWriter} (hw : w.active = none)
    (h : Run (step cfg z t) (fun _ _ => True) (start w) s) (hactive : s.writer.active.isSome) :
    (∀ l, cfg.segmentMaxLifetime = some l →
      s.now ≤ s.activeOpenedAt + l + (cfg.batchDeadline + cfg.flushTakes + cfg.sealTakes)) ∧
    ∀ a, cfg.segmentMaxAge = some a →
      s.now ≤ max s.activeOpenedAt s.lastFlushAt + a
        + (cfg.batchDeadline + cfg.flushTakes + cfg.sealTakes) := by
  have htimely : s.Timely cfg := by
    refine h.invariant (fun _ _ _ _ hs hi => hi.step hs)
      (.of_none hw (by simp [start, Flusher.new]) ?_ ?_)
    · exact le_rfl
    · exact fun _ _ => Nat.zero_le _
  have hbound : ∀ b, s.RunsOutAt cfg b →
      s.now ≤ b + (cfg.batchDeadline + cfg.flushTakes + cfg.sealTakes) := by
    intro b hb
    obtain ⟨-, hlimit, hcovered, -, -, hgone⟩ := htimely
    have hsince := hcovered hactive b hb
    unfold TimedFlusher.limit at hlimit
    unfold slack at hsince
    split at hsince
    next hsealing =>
      have := hlimit _ (if_pos hsealing)
      omega
    next hsealing =>
      rw [if_neg hsealing] at hlimit
      cases hp : s.flusher.phase <;> rw [hp] at hlimit hsince
      case exited => rw [hgone hp] at hactive; cases hactive
      all_goals
        have := hlimit _ rfl
        dsimp only at hsince
        omega
  exact ⟨fun l hl => hbound _ (.inl ⟨l, hl, rfl⟩), fun a ha => hbound _ (.inr ⟨a, ha, rfl⟩)⟩

/-- Both timers are set, and a flusher is two ticks into its first flush. -/
def firstFlush : TimerConfig × Option TimedFlusher :=
  let cfg : TimerConfig := ⟨5, some 60, some 30, 2, 1⟩
  (cfg, follow (step cfg .plain ⟨1, 1, 2⟩) (start (.new 0 ["wab"] 4096 .none 0))
    [.tick 5, .timeOut, .tick 1, .arrive ⟨[⟨[1], .durable, false, 0⟩]⟩, .act .receive,
      .act .beginFlush, .act (.write ⟨false, .calm, .wrote 9, .calm⟩ true), .tick 2])

theorem active_bounded_firstFlush :
    ∃ s, firstFlush.2 = some s ∧ s.writer.active.isSome ∧
      (∀ l, firstFlush.1.segmentMaxLifetime = some l → s.now ≤ s.activeOpenedAt + l
        + (firstFlush.1.batchDeadline + firstFlush.1.flushTakes + firstFlush.1.sealTakes)) ∧
      ∀ a, firstFlush.1.segmentMaxAge = some a → s.now ≤ max s.activeOpenedAt s.lastFlushAt + a
        + (firstFlush.1.batchDeadline + firstFlush.1.flushTakes + firstFlush.1.sealTakes) := by
  have hopen : firstFlush.2.map (·.writer.active.isSome) = some true := by decide +kernel
  obtain ⟨s, hs, hactive⟩ := Option.map_eq_some_iff.mp hopen
  exact ⟨s, hs, hactive, active_bounded rfl (Run.of_follow (fun _ _ _ => trivial) hs) hactive⟩

end TimedFlusher

end Weir.Timers

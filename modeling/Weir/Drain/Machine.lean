import Weir.Drain.Attempt

/-!
# The drain thread (`drain/mod.rs`)

`Thread.step` is the drain's loop, one decision at a time: arrivals on the
channel, the rescan, retries of outstanding confirms and moves, the attempts,
strands, pauses, a full dead-letter directory, panics and the stop.

A `Label` says which decision comes next and carries the answers of the system
calls made on the way. Nothing is assumed about the answers. The pauses between
two attempts, the health probe and the metrics decide when a label comes, and
are left out; so are the sidecars, whose bytes a rescan is told.

`trace` records what happened, oldest first.
-/

namespace Weir.Drain

open Weir.Lib Weir.Wab List

/-! ## The thread -/

/-- What is under each `.wab.sealed` name. -/
abbrev Files := Path → Option Bytes

/-- The drain makes no sealed segments, so its operations only take them away. -/
def Files.after (files : Files) (ops : List (Op Path)) : Files :=
  fun p => if ops.any (takesName p) then none else files p

structure Thread where
  state : DrainState
  channel : List Path
  pending : List Path
  backlog : List Path
  backlogTurn : Bool
  ledger : SegmentLedger
  deadLetter : DeadLetterWriter
  files : Files
  trace : List Event

/-- What the supervisor does about a panic. -/
inductive Respawn
  | respawned (totalBytes maxCounter : Nat)
  | gaveUp
  | stopped

/-- How an attempt ends: it returns, or the sink panics behind its first `acts`
acts. -/
inductive Ending
  | returned (io : AfterIo)
  | panicked (acts : Nat) (respawn : Respawn)

/-- A segment a rescan lists, with the bytes of its sidecar. -/
structure Found where
  path : Path
  sidecar : Option Bytes
  check : CheckIo
  orphan : OrphanIo

inductive Label
  /-- A segment appears under its sealed name. -/
  | sealed (p : Path) (file : Bytes)
  /-- Something outside the drain takes a segment away. -/
  | vanished (p : Path)
  | arrive (p : Path)
  /-- A wait moves the head of the channel to `pending`. -/
  | buffer
  | retryConfirm (p : Path) (io : ConfirmIo)
  | retryQuarantine (p : Path) (io : MoveIo)
  | rescan (now : Nat) (found : List Found)
  | next (now : Nat) (stat : Option FileId) (io : AttemptIo) (ending : Ending)
  | retry (io : AttemptIo) (ending : Ending)
  | strand (now : Nat)
  | deadLetterRescan (scan : Except IoError Nat) (missing : Bool) (mkdir sync : Option IoError)
  | resume
  | panic (respawn : Respawn)
  | stop

/-- What a scan makes of a segment: whether it is to be delivered, and the
operations on the way. -/
def scanOne (cfg : DrainConfig) (f : Found) : Bool × List (Op Path) :=
  match checkConfirmed f.path cfg.wabDir f.sidecar f.check with
  | (.ok true, ops) =>
    if cfg.orphanCleanup then (false, ops ++ (deleteOrphan f.path f.orphan).2) else (false, ops)
  | (.ok false, ops) => (true, ops)
  | (.error _, ops) => (false, ops)

/-- `scan_unconfirmed_sealed`, over the segments it lists. -/
def scanUnconfirmedSealed (cfg : DrainConfig) (exclude : Path → Bool) :
    List Found → List Path × List (Op Path) × List Event
  | [] => ([], [], [])
  | f :: rest =>
    match scanUnconfirmedSealed cfg exclude rest with
    | (segments, ops, events) =>
      if exclude f.path then (segments, ops, events)
      else
        match scanOne cfg f with
        | (true, ops') =>
          (f.path :: segments, ops' ++ ops, .checked f.path :: .rescanned f.path :: events)
        | (false, ops') => (segments, ops' ++ ops, .checked f.path :: events)

namespace Thread

/-- A drain that starts with the segments the startup scan found. -/
def init (cfg : DrainConfig) (now totalBytes maxCounter : Nat) (backlog : List Path) : Thread where
  state := .draining
  channel := []
  pending := []
  backlog := backlog
  backlogTurn := false
  ledger := SegmentLedger.new now
  deadLetter := DeadLetterWriter.open cfg.wabDir totalBytes maxCounter
  files := fun _ => none
  trace := []

/-- `next_queued`: live arrivals and the backlog take turns. -/
def nextQueued (s : Thread) : Option (Path × Thread) :=
  let fromBacklog :=
    match s.backlog with
    | [] => none
    | p :: rest => some (p, { s with backlog := rest, backlogTurn := false })
  if s.backlogTurn ∧ s.backlog ≠ [] then fromBacklog
  else
    match s.pending, s.channel with
    | p :: rest, _ => some (p, { s with pending := rest, backlogTurn := true })
    | [], p :: rest => some (p, { s with channel := rest, backlogTurn := true })
    | [], [] => fromBacklog

/-- `requeue_unconfirmed`. -/
def requeueUnconfirmed (cfg : DrainConfig) (s : Thread) (now : Nat) (found : List Found) : Thread :=
  let pending := s.pending ++ s.channel
  match scanUnconfirmedSealed cfg (s.ledger.excludes · now) found with
  | (segments, ops, events) =>
    let queued := pending ++ s.backlog ++ (s.state.holds.map (·.1)).toList
    { s with
      channel := []
      pending := pending
      backlog := s.backlog ++ segments.filter (· ∉ queued)
      files := s.files.after ops
      trace := s.trace ++ events }

/-- The supervisor's side of a panic: what the thread held in its variables is
gone, the ledger stays. -/
def panicked (cfg : DrainConfig) (s : Thread) (respawn : Respawn) : Thread :=
  let s := { s with pending := [], backlog := [], backlogTurn := false }
  match respawn with
  | .stopped => { s with state := .exited }
  | .gaveUp => { s with state := .exited, ledger := s.ledger.noteDrainPanic }
  | .respawned totalBytes maxCounter =>
    { s with
      state := .draining
      ledger := s.ledger.noteDrainPanic
      deadLetter := DeadLetterWriter.open cfg.wabDir totalBytes maxCounter }

/-- The operations of the move that an attempt made, if it made one. -/
def moveOps (cfg : DrainConfig) (p : Path) (result : ProcessResult) (io : AttemptIo) :
    List (Op Path) :=
  match result with
  | .quarantined | .quarantinePending _ => (moveToQuarantine p cfg io.process.move).2
  | _ => []

/-- One attempt at `p`, to its end. -/
def attempt (z : Zstd) (sha : Sha256) (cfg : DrainConfig) (s : Thread) (p : Path) (skip : Nat)
    (resume : HeldResume) (retriesLeft delay : Nat) (io : AttemptIo) (ending : Ending) : Thread :=
  let file := (s.files p).getD []
  let out := attemptSegment z sha cfg p file s.deadLetter s.ledger skip io
  match ending with
  | .panicked acts respawn =>
    panicked cfg
      { s with
        ledger := out.ledger.beginAttempt p io.startedAt
        trace := s.trace ++ (out.acts.take acts).map (Event.act p) ++ [.panicked p] }
      respawn
  | .returned io' =>
    let after := nextStateAfterProcess cfg p file out.result resume retriesLeft delay out.ledger io'
    { s with
      state := after.state
      ledger := after.ledger
      deadLetter := out.deadLetter
      files := s.files.after (moveOps cfg p out.result io ++ after.ops)
      trace := s.trace ++ out.acts.map (Event.act p)
        ++ .attempted p (s.files p).isSome out.result out.readSentinel :: after.events }

/-- One decision of the drain thread; `none` where its state does not allow it. -/
def step (z : Zstd) (sha : Sha256) (cfg : DrainConfig) (s : Thread) : Label → Option Thread
  | .sealed p file =>
    some { s with
      files := fun q => if q = p then some file else s.files q
      trace := s.trace ++ [.sealed p file] }
  | .vanished p => some { s with files := fun q => if q = p then none else s.files q }
  | .arrive p => some { s with channel := s.channel ++ [p] }
  | .buffer =>
    match s.channel with
    | [] => none
    | p :: rest => some { s with channel := rest, pending := s.pending ++ [p] }
  | .retryConfirm p io =>
    match s.state, s.ledger.confirmPending.lookup p with
    | .draining, some pending | .exited, some pending =>
      match retryConfirm p ((s.files p).getD []) pending io with
      | (outcome, ops) =>
        some { s with
          ledger := s.ledger.noteRetry p pending outcome
          files := s.files.after ops }
    | _, _ => none
  | .retryQuarantine p io =>
    match s.state, s.ledger.quarantinePending.lookup p with
    | .draining, some _ | .exited, some _ =>
      match moveToQuarantine p cfg io with
      | (.ok (), ops) =>
        some { s with
          ledger := { s.ledger with quarantinePending := s.ledger.quarantinePending.erase p }
          files := s.files.after ops }
      | (.error _, ops) => some { s with files := s.files.after ops }
    | _, _ => none
  | .rescan now found => if s.state.running then some (s.requeueUnconfirmed cfg now found) else none
  | .next now stat io ending =>
    match s.state, s.nextQueued with
    | .draining, some (p, s) =>
      match s.ledger.admitPath p now stat with
      | (.drop _, l) => some { s with ledger := l }
      | (.process skip, l) =>
        some ({ s with ledger := l }.attempt z sha cfg p skip .fresh cfg.maxRetries
          cfg.baseRetryDelay io ending)
    | _, _ => none
  | .retry io ending =>
    match s.state with
    | .retryingTransient p (retriesLeft + 1) nextDelay processed cause =>
      some (s.attempt z sha cfg p processed (.retry (retriesLeft + 1) nextDelay cause) retriesLeft
        (nextDelay * 2) io ending)
    | _ => none
  | .strand now =>
    match s.state with
    | .retryingTransient p 0 nextDelay _ _ =>
      some { s with state := .draining, ledger := s.ledger.setNotBefore p (now + nextDelay) }
    | _ => none
  | .deadLetterRescan scan missing mkdir sync =>
    let w := (s.deadLetter.rescan scan missing mkdir sync).1
    match s.state with
    | .draining => some { s with deadLetter := w }
    | .blockedDeadLetterFull p processed needed =>
      if w.wouldExceedCap needed cfg.deadLetterMaxBytes then some { s with deadLetter := w }
      else
        some { s with
          state := .retryingTransient p cfg.maxRetries cfg.baseRetryDelay processed .sink
          deadLetter := w }
    | _ => none
  | .resume =>
    match s.state with
    | .held p _ .fresh =>
      some { s with state := .draining, pending := p :: s.pending, backlogTurn := false }
    | .held p processed (.retry retriesLeft nextDelay cause) =>
      some { s with state := .retryingTransient p retriesLeft nextDelay processed cause }
    | _ => none
  | .panic respawn => if s.state = .exited then none else some (s.panicked cfg respawn)
  | .stop => some { s with state := .exited }

end Thread

/-- The states the drain reaches by steps that are all `allowed`. -/
inductive Reach (z : Zstd) (sha : Sha256) (cfg : DrainConfig) (allowed : Thread → Label → Prop) :
    Thread → Prop
  | init (now totalBytes maxCounter : Nat) (backlog : List Path) :
      Reach z sha cfg allowed (Thread.init cfg now totalBytes maxCounter backlog)
  | step {s s' : Thread} {l : Label} (h : Reach z sha cfg allowed s) (hl : allowed s l)
      (hs : s.step z sha cfg l = some s') : Reach z sha cfg allowed s'

section

variable {z : Zstd} {sha : Sha256} {cfg : DrainConfig} {allowed : Thread → Label → Prop}

/-- Runs the labels, as long as the guard lets them pass. -/
def Thread.run (z : Zstd) (sha : Sha256) (cfg : DrainConfig) (guard : Thread → Label → Prop)
    [∀ s l, Decidable (guard s l)] (s : Thread) : List Label → Option Thread
  | [] => some s
  | l :: ls =>
    if guard s l then (s.step z sha cfg l).bind fun s' => run z sha cfg guard s' ls else none

/-- What every step the guard lets pass keeps, a run keeps. -/
theorem Thread.run_keeps {guard : Thread → Label → Prop} [∀ s l, Decidable (guard s l)]
    {P : Thread → Prop} :
    ∀ {ls : List Label} {s s' : Thread},
      (∀ l ∈ ls, ∀ s s', P s → guard s l → s.step z sha cfg l = some s' → P s') →
      P s → s.run z sha cfg guard ls = some s' → P s' := by
  intro ls
  induction ls with
  | nil =>
    intro s s' _ hs h
    rw [← Option.some.inj h]
    exact hs
  | cons l ls ih =>
    intro s s' hkeeps hs h
    unfold Thread.run at h
    split at h
    next hl =>
      obtain ⟨s₁, hs₁, hrun⟩ := Option.bind_eq_some_iff.mp h
      exact ih (fun l hl => hkeeps l (mem_cons_of_mem _ hl))
        (hkeeps l mem_cons_self s s₁ hs hl hs₁) hrun
    · cases h

theorem Reach.run {guard : Thread → Label → Prop} [∀ s l, Decidable (guard s l)]
    {ls : List Label} {s s' : Thread} (hallowed : ∀ l ∈ ls, ∀ s, guard s l → allowed s l)
    (hs : Reach z sha cfg allowed s) (h : s.run z sha cfg guard ls = some s') :
    Reach z sha cfg allowed s' :=
  Thread.run_keeps (fun l hl s _ hr hg hstep => hr.step (hallowed l hl s hg) hstep) hs h

end

/-! ## What a step can do to one segment -/

/-- How far the segment `p` was processed, when the thread holds it. -/
def Thread.heldAt (s : Thread) (p : Path) : Option Nat :=
  match s.state.holds with
  | none => none
  | some (q, n) => if q = p then some n else none

/-- The segment a decision is about, where its answers matter to it. -/
def Thread.subject (s : Thread) : Label → Option Path
  | .next _ _ _ _ => s.nextQueued.map (·.1)
  | .retry _ _ => s.state.holds.map (·.1)
  | .retryConfirm p _ | .retryQuarantine p _ => some p
  | _ => none

/-- The event is part of an attempt at `p`. -/
def Event.Delivers (p : Path) : Event → Prop
  | .act q _ | .attempted q _ _ _ | .carryRefused q | .panicked q => q = p
  | .sealed _ _ | .checked _ | .rescanned _ => False

theorem Files.after_eq (files : Files) (ops : List (Op Path)) (p : Path) :
    files.after ops p = files p ∨ files.after ops p = none := by
  unfold Files.after
  split
  · exact .inr rfl
  · exact .inl rfl

variable {p : Path} {l : Label} {s s' s₁ : Thread} {skip : Nat} {io : AttemptIo} {ending : Ending}

theorem Files.after_taken {files : Files} {ops : List (Op Path)}
    (h : ops.any (takesName p) = true) : files.after ops p = none := if_pos h

/-- A step that makes no attempt at `p`. -/
structure Idle (p : Path) (l : Label) (s s' : Thread) : Prop where
  trace : ∃ events, s'.trace = s.trace ++ events ∧ ∀ e ∈ events, ¬e.Delivers p
  held : s'.heldAt p = none ∨ s'.heldAt p = s.heldAt p ∧ s'.ledger.view p = s.ledger.view p
  progress : (s'.ledger.view p).cursor = (s.ledger.view p).cursor ∧
      (s'.ledger.view p).carry = (s.ledger.view p).carry ∨
    (s'.ledger.view p).cursor = none ∧ (s'.ledger.view p).carry = none ∧
      (s'.ledger.view p).park.isSome
  park : (s.ledger.view p).park.isSome → (s'.ledger.view p).park.isSome
  confirm : (s.ledger.view p).confirm.isSome → (s'.ledger.view p).confirm.isSome ∨
    s'.files p = none ∨ ∃ io e, l = .retryConfirm p io ∧ io.sealedStat = .error e
  quarantine : (s.ledger.view p).quarantine.isSome → (s'.ledger.view p).quarantine.isSome ∨
    s'.files p = none ∨ ∃ io, l = .retryQuarantine p io ∧ io.gone = true
  file : s'.files p = s.files p ∨ s'.files p = none ∨
    ∃ file, l = .sealed p file ∧ .sealed p file ∈ s'.trace ∧ s'.files p = some file

theorem Idle.of_view (events : List Event)
    (htrace : s'.trace = s.trace ++ events) (hevents : ∀ e ∈ events, ¬e.Delivers p)
    (hheld : s'.heldAt p = none ∨ s'.heldAt p = s.heldAt p)
    (hview : s'.ledger.view p = s.ledger.view p)
    (hfile : s'.files p = s.files p ∨ s'.files p = none ∨
      ∃ file, l = .sealed p file ∧ .sealed p file ∈ s'.trace ∧ s'.files p = some file) :
    Idle p l s s' where
  trace := ⟨events, htrace, hevents⟩
  held := hheld.imp id fun h => ⟨h, hview⟩
  progress := .inl ⟨by rw [hview], by rw [hview]⟩
  park := fun h => by rwa [hview]
  confirm := fun h => .inl (by rwa [hview])
  quarantine := fun h => .inl (by rwa [hview])
  file := hfile

theorem Idle.same (htrace : s'.trace = s.trace)
    (hheld : s'.heldAt p = none ∨ s'.heldAt p = s.heldAt p)
    (hview : s'.ledger.view p = s.ledger.view p)
    (hfile : s'.files p = s.files p ∨ s'.files p = none) : Idle p l s s' :=
  .of_view [] (by rw [htrace, append_nil]) (by simp) hheld hview (hfile.imp id .inl)

theorem Idle.mem_held (h : Idle p l s s') {n : Nat} (hn : n ∈ s'.heldAt p) :
    n ∈ s.heldAt p := by
  rcases h.held with hh | ⟨hh, _⟩
  · rw [hh] at hn; cases hn
  · rwa [← hh]

/-- The attempt a step makes at `p`: from a resume point the thread holds, or
from the one `p` is admitted with. -/
structure Starts (p : Path) (l : Label) (s s₁ : Thread) (skip : Nat) (io : AttemptIo)
    (ending : Ending) : Prop where
  files : s₁.files = s.files
  trace : s₁.trace = s.trace
  others : ∀ q ≠ p, s₁.ledger.view q = s.ledger.view q
  resumes : (l = .retry io ending ∧ s.heldAt p = some skip ∧ s₁.ledger = s.ledger) ∨
    ∃ now stat, l = .next now stat io ending ∧ (s.nextQueued).map (·.1) = some p ∧
      s.ledger.admitPath p now stat = (.process skip, s₁.ledger)

/-- The segment an attempt is made at is the subject of the step. -/
theorem Starts.subject (hs : Starts p l s s₁ skip io ending) : s.subject l = some p := by
  rcases hs.resumes with ⟨rfl, hheld, _⟩ | ⟨now, stat, rfl, hq, _⟩
  · unfold Thread.heldAt at hheld
    show s.state.holds.map (·.1) = some p
    split at hheld
    · cases hheld
    rename_i q n hq
    rw [hq]
    split at hheld
    next hqp => rw [hqp]; rfl
    · cases hheld
  · exact hq

/-- A rescan skips what it excludes. -/
theorem scanUnconfirmedSealed_events (cfg : DrainConfig) (exclude : Path → Bool)
    (found : List Found) : ∀ e ∈ (scanUnconfirmedSealed cfg exclude found).2.2,
      ∃ q, exclude q = false ∧ (e = .checked q ∨ e = .rescanned q) := by
  induction found with
  | nil => simp [scanUnconfirmedSealed]
  | cons f rest ih =>
    unfold scanUnconfirmedSealed
    generalize scanUnconfirmedSealed cfg exclude rest = scan at ih
    dsimp only at ih ⊢
    split
    · exact ih
    rename_i hf
    have hq := eq_false_of_ne_true hf
    split
    · simp only [mem_cons, forall_eq_or_imp]
      exact ⟨⟨_, hq, .inl rfl⟩, ⟨_, hq, .inr rfl⟩, ih⟩
    · simp only [mem_cons, forall_eq_or_imp]
      exact ⟨⟨_, hq, .inl rfl⟩, ih⟩

namespace Thread

variable {q : Path}

theorem nextQueued_some {s₁ : Thread} (h : s.nextQueued = some (p, s₁)) :
    s₁.state = s.state ∧ s₁.ledger = s.ledger ∧ s₁.files = s.files ∧ s₁.trace = s.trace := by
  have hback : ∀ {q : Path} {s₂ : Thread},
      (match s.backlog with
        | [] => none
        | p :: rest => some (p, { s with backlog := rest, backlogTurn := false })) = some (q, s₂) →
      s₂.state = s.state ∧ s₂.ledger = s.ledger ∧ s₂.files = s.files ∧ s₂.trace = s.trace := by
    intro q s₂ hb
    split at hb <;> cases hb
    exact ⟨rfl, rfl, rfl, rfl⟩
  unfold nextQueued at h
  dsimp only at h
  split at h
  · exact hback h
  split at h
  · cases h; exact ⟨rfl, rfl, rfl, rfl⟩
  · cases h; exact ⟨rfl, rfl, rfl, rfl⟩
  · exact hback h

theorem heldAt_of_holds_none (p : Path) (h : s.state.holds = none) : s.heldAt p = none := by
  unfold heldAt
  rw [h]

section

variable (cfg : DrainConfig) (s : Thread) (respawn : Respawn)

theorem panicked_state : (s.panicked cfg respawn).state.holds = none := by
  cases respawn <;> rfl

theorem panicked_files : (s.panicked cfg respawn).files = s.files := by
  cases respawn <;> rfl

theorem panicked_trace : (s.panicked cfg respawn).trace = s.trace := by
  cases respawn <;> rfl

theorem panicked_ledger :
    (s.panicked cfg respawn).ledger = s.ledger ∨
      (s.panicked cfg respawn).ledger = s.ledger.noteDrainPanic := by
  cases respawn with
  | stopped => exact .inl rfl
  | gaveUp => exact .inr rfl
  | respawned => exact .inr rfl

end

/-- What a panic does to the entries of a segment: nothing, or it parks the one in flight. -/
theorem panicked_view (cfg : DrainConfig) (s : Thread) (p : Path) (respawn : Respawn) :
    (s.panicked cfg respawn).ledger.view p = s.ledger.view p ∨ s.ledger.inFlight = some p ∧
      ∃ why, (s.panicked cfg respawn).ledger.view p
        = { (s.ledger.view p).forgotten with park := some why } := by
  rcases panicked_ledger cfg s respawn with h | h
  · rw [h]
    exact .inl rfl
  · rw [h]
    exact s.ledger.view_noteDrainPanic p

variable (z : Zstd) (sha : Sha256) (cfg : DrainConfig)

/-- An attempt at `q` leaves every other segment alone. -/
theorem attempt_idle {s₀ : Thread} (hpq : p ≠ q) (skip : Nat)
    (resume : HeldResume) (retriesLeft delay : Nat) (io : AttemptIo) (ending : Ending)
    (hfiles : s.files = s₀.files) (htrace : s.trace = s₀.trace)
    (hview : s.ledger.view p = s₀.ledger.view p) :
    Idle p l s₀ (s.attempt z sha cfg q skip resume retriesLeft delay io ending) := by
  have hout := attemptSegment_view_ne z sha cfg q
      ((s.files q).getD []) s.deadLetter s.ledger skip io
    hpq
  unfold attempt
  dsimp only
  generalize attemptSegment z sha cfg q ((s.files q).getD []) s.deadLetter s.ledger skip io = out
    at hout
  cases ending with
  | panicked k respawn =>
    have hpan := panicked_view cfg
      { s with
        ledger := out.ledger.beginAttempt q io.startedAt
        trace := s.trace ++ (out.acts.take k).map (Event.act q) ++ [.panicked q] } p respawn
    refine Idle.of_view ((out.acts.take k).map (Event.act q) ++ [.panicked q]) ?_ ?_
      (.inl (heldAt_of_holds_none p (panicked_state ..))) ?_ ?_
    · rw [panicked_trace, htrace, append_assoc]
    · simp [-map_take, or_imp, forall_and, Event.Delivers, hpq.symm]
    · rw [hpan.resolve_right fun h => hpq (Option.some.inj h.1).symm]
      exact hout.trans hview
    · rw [panicked_files, hfiles]
      exact .inl rfl
  | returned after =>
    obtain ⟨hne, hcase⟩ := nextStateAfterProcess_cases cfg q ((s.files q).getD []) out.result resume
      retriesLeft delay out.ledger after
    dsimp only
    generalize nextStateAfterProcess cfg q ((s.files q).getD []) out.result resume
      retriesLeft delay out.ledger after = next at hne hcase
    refine Idle.of_view
      (out.acts.map (Event.act q)
        ++ .attempted q (s.files q).isSome out.result out.readSentinel :: next.events) ?_ ?_
      (.inl ?_) ((hne p hpq).trans (hout.trans hview)) ?_
    · rw [htrace, append_assoc]
    · have hevents : ∀ e ∈ next.events, e = .carryRefused q := by
        rcases hcase with ⟨n, carry, l', state, _, _, rfl, _⟩ | hgo
        · obtain ⟨_, kept, _, hstores⟩ := keepProgress_view q n carry l' after state
          exact hstores.events
        · simp [hgo.events]
      simp only [mem_append, mem_cons, mem_map, or_imp, forall_and, forall_eq]
      refine ⟨by simp [Event.Delivers, hpq.symm], hpq.symm, fun e he => ?_⟩
      rw [hevents e he]
      exact hpq.symm
    · unfold heldAt
      split
      · rfl
      rename_i q' n hq'
      rcases hcase with ⟨n', carry, l', state, _, _, rfl, hst⟩ | hgo
      · have : state.holds = some (q', n) := by
          rw [← hq']
          unfold keepProgress
          rfl
        rw [if_neg]
        rw [(hst _ _ this).1]
        exact fun h => hpq h.symm
      · rw [hgo.state] at hq'
        cases hq'
    · rcases Files.after_eq s.files (moveOps cfg q out.result io ++ next.ops) p with h | h
      · exact .inl (by rw [← hfiles]; exact h)
      · exact .inr (.inl h)

/-- A retried confirm stays owned until the segment is gone or a stat failed. -/
theorem retryConfirm_idle {io : ConfirmIo}
    (h : s.step z sha cfg (.retryConfirm q io) = some s') (p : Path) :
    Idle p (.retryConfirm q io) s s' := by
  unfold step at h
  dsimp only at h
  split at h
  case h_3 => cases h
  all_goals
    next pending hst hpend =>
      have hheld : s.heldAt p = none := heldAt_of_holds_none p (by rw [hst]; rfl)
      have hdone := retryConfirm_done q ((s.files q).getD []) pending io
      generalize retryConfirm q ((s.files q).getD []) pending io = out at hdone h
      obtain ⟨outcome, ops⟩ := out
      cases h
      by_cases hpq : p = q
      · subst hpq
        obtain ⟨c, hc, hout⟩ := s.ledger.view_noteRetry_self hpend outcome
        refine ⟨⟨[], (append_nil _).symm, by simp⟩, .inl hheld,
          .inl ⟨by rw [hc], by rw [hc]⟩, fun hp => by rw [hc]; exact hp, ?_,
          fun hq => .inl (by rw [hc]; exact hq), (Files.after_eq s.files ops p).imp id .inl⟩
        intro _
        rw [hc]
        rcases hout with rfl | hout
        · rcases hdone rfl with hd | ⟨e, he⟩
          · exact .inr (.inl (Files.after_taken hd))
          · exact .inr (.inr ⟨io, e, rfl, he⟩)
        · exact .inl hout
      · exact .same rfl (.inl hheld) (s.ledger.view_noteRetry_ne _ _ hpq)
          (Files.after_eq s.files ops p)

theorem retryQuarantine_idle {io : MoveIo}
    (h : s.step z sha cfg (.retryQuarantine q io) = some s') (p : Path) :
    Idle p (.retryQuarantine q io) s s' := by
  unfold step at h
  dsimp only at h
  split at h
  case h_3 => cases h
  all_goals
    next hst _ =>
      have hheld : s.heldAt p = none := heldAt_of_holds_none p (by rw [hst]; rfl)
      have hok := moveToQuarantine_ok q cfg io
      generalize moveToQuarantine q cfg io = out at hok h
      obtain ⟨result, ops⟩ := out
      cases result with
      | error e =>
        cases h
        exact .same rfl (.inl hheld) rfl (Files.after_eq s.files ops p)
      | ok u =>
        cases h
        by_cases hpq : p = q
        · subst hpq
          refine ⟨⟨[], (append_nil _).symm, by simp⟩, .inl hheld,
            .inl ⟨rfl, rfl⟩, fun hp => hp, fun hc => .inl hc, ?_,
            (Files.after_eq s.files ops p).imp id .inl⟩
          intro _
          rcases hok rfl with hd | hg
          · exact .inr (.inl (Files.after_taken hd))
          · exact .inr (.inr ⟨io, rfl, hg⟩)
        · exact .same rfl (.inl hheld) (by simp [SegmentLedger.view, hpq])
            (Files.after_eq s.files ops p)

theorem strand_idle (s : Thread) (q p : Path) (at_ : Nat) (l : Label) :
    Idle p l s { s with state := .draining, ledger := s.ledger.setNotBefore q at_ } := by
  by_cases hpq : p = q
  · subst hpq
    have hv := s.ledger.view_setNotBefore_self (p := p) at_
    exact ⟨⟨[], (append_nil _).symm, by simp⟩, .inl (heldAt_of_holds_none p rfl),
      .inl ⟨by rw [hv], by rw [hv]⟩, fun h => by rw [hv]; exact h,
      fun h => .inl (by rw [hv]; exact h), fun h => .inl (by rw [hv]; exact h), .inl rfl⟩
  · exact .same rfl (.inl (heldAt_of_holds_none p rfl)) (s.ledger.view_setNotBefore_ne at_ hpq)
      (.inl rfl)

theorem panic_idle (s : Thread) (p : Path) (respawn : Respawn) (l : Label) :
    Idle p l s (s.panicked cfg respawn) := by
  rcases panicked_view cfg s p respawn with hv | ⟨-, why, hv⟩
  · exact .same (panicked_trace ..) (.inl (heldAt_of_holds_none p (panicked_state ..))) hv
      (.inl (by rw [panicked_files]))
  exact ⟨⟨[], by rw [panicked_trace, append_nil], by simp⟩,
    .inl (heldAt_of_holds_none p (panicked_state ..)),
    .inr ⟨by rw [hv]; rfl, by rw [hv]; rfl, by rw [hv]; rfl⟩, fun _ => by rw [hv]; rfl,
    fun h => .inl (by rw [hv]; exact h), fun h => .inl (by rw [hv]; exact h),
    .inl (by rw [panicked_files])⟩

/-- The segment is out of the thread's hands: owned by a disposition, parked, or
gone. -/
def Out (s : Thread) (p : Path) : Prop :=
  (s.ledger.view p).confirm.isSome ∨ (s.ledger.view p).quarantine.isSome ∨
    (s.ledger.view p).park.isSome ∨ s.files p = none

/-- What an attempt that returned left of its segment: the progress it reports,
or nothing. -/
inductive Leaves (p : Path) (v : View) (result : ProcessResult) (io : AttemptIo) (after : AfterIo)
    (events : List Event) (s' : Thread) : Prop
  | progress {n : Nat} {carry : Option DeadLetterCarry} {kept : Option PinnedCarry}
      (hresult : result.progress = some (n, carry))
      (hview : s'.ledger.view p
        = { v with
            cursor := if n = 0 then v.cursor else after.progressStat.map (⟨n, ·⟩)
            carry := kept })
      (hstores : Stores p after v.carry carry kept events)
      (hheld : s'.heldAt p = some n ∨ s'.heldAt p = none)
  | nothing (hheld : s'.heldAt p = none) (hcursor : (s'.ledger.view p).cursor = none)
      (hcarry : (s'.ledger.view p).carry = none) (hevents : events = [])
      (hout : io.process.move.gone = false → after.move.gone = false →
        (∀ e, after.confirm.sealedStat ≠ .error e) → s'.Out p)
      (hconfirmed : ∀ n, result = .confirmed n → (∀ e, after.confirm.sealedStat ≠ .error e) →
        (s'.ledger.view p).confirm.isSome ∨ s'.files p = none)

theorem Leaves.events {v : View} {result : ProcessResult} {io : AttemptIo}
    {after : AfterIo} {events : List Event} (h : Leaves p v result io after events s') :
    ∀ e ∈ events, e = .carryRefused p := by
  cases h with
  | progress _ _ hstores _ => exact hstores.events
  | nothing _ _ _ hevents => rw [hevents]; simp

/-- How an attempt ends, from the trace it began with and the file it found. -/
inductive Ends (p : Path) (trace : List Event) (file : Option Bytes) (io : AttemptIo)
    (out : Attempted) (s' : Thread) : Ending → Prop
  | returned {after : AfterIo} {events : List Event}
      (htrace : s'.trace = trace ++ out.acts.map (Event.act p)
        ++ .attempted p file.isSome out.result out.readSentinel :: events)
      (hfiles : s'.files p = file ∨ s'.files p = none)
      (hleaves : Leaves p (out.ledger.view p) out.result io after events s') :
      Ends p trace file io out s' (.returned after)
  /-- The cursor stays as the attempt found it, and the carry is lost. -/
  | panicked {k : Nat} {respawn : Respawn}
      (htrace : s'.trace = trace ++ ((out.acts.take k).map (Event.act p) ++ [.panicked p]))
      (hfiles : s'.files p = file) (hheld : s'.heldAt p = none)
      (hview : s'.ledger.view p = out.ledger.view p ∨
        ∃ why, s'.ledger.view p = { (out.ledger.view p).forgotten with park := some why }) :
      Ends p trace file io out s' (.panicked k respawn)

theorem attempt_ends (s : Thread) (p : Path) (skip : Nat) (resume : HeldResume)
    (retriesLeft delay : Nat) (io : AttemptIo) (ending : Ending) :
    Ends p s.trace (s.files p) io
      (attemptSegment z sha cfg p ((s.files p).getD []) s.deadLetter s.ledger skip io)
      (s.attempt z sha cfg p skip resume retriesLeft delay io ending) ending := by
  have hmoved := attemptSegment_quarantined z sha cfg p ((s.files p).getD []) s.deadLetter s.ledger
    skip io
  unfold attempt
  dsimp only
  generalize attemptSegment z sha cfg p ((s.files p).getD []) s.deadLetter s.ledger skip io = out
    at hmoved ⊢
  cases ending with
  | panicked k respawn =>
    refine .panicked ?_ ?_ (heldAt_of_holds_none p (panicked_state ..))
      ((panicked_view cfg _ p respawn).imp_right And.right)
    · rw [panicked_trace, append_assoc]
    · rw [panicked_files]
  | returned after =>
    have hq : out.result = .quarantined → io.process.move.gone = false →
        (moveOps cfg p out.result io).any (takesName p) = true := by
      intro hr hgone
      have hok := moveToQuarantine_ok p cfg io.process.move (hmoved hr)
      rw [hgone] at hok
      rw [hr]
      exact hok.resolve_right (by simp)
    obtain ⟨_, hcase⟩ := nextStateAfterProcess_cases cfg p ((s.files p).getD []) out.result resume
      retriesLeft delay out.ledger after
    dsimp only
    generalize nextStateAfterProcess cfg p ((s.files p).getD []) out.result resume
      retriesLeft delay out.ledger after = next at hcase ⊢
    refine .returned rfl (Files.after_eq _ _ p) ?_
    rcases hcase with ⟨n, carry, l', state, hres, hl', rfl, hst⟩ | hgo
    · obtain ⟨_, kept, hview, hstores⟩ := keepProgress_view p n carry l' after state
      rw [hl'] at hview hstores
      refine .progress hres hview hstores ?_
      unfold heldAt
      split
      · exact .inr rfl
      next q m hq =>
        obtain ⟨rfl, rfl⟩ := hst q m (by rw [← hq]; unfold keepProgress; rfl)
        exact .inl (if_pos rfl)
    · refine .nothing (heldAt_of_holds_none p
        (by show next.state.holds = none; rw [hgo.state]; rfl))
        hgo.cursor hgo.carry hgo.events ?_ ?_
      · intro hg1 hg2 hstat
        by_cases hr : out.result = .quarantined
        · refine .inr (.inr (.inr (Files.after_taken ?_)))
          rw [any_append, hq hr hg1, Bool.true_or]
        rcases hgo.disposed hr hg2 hstat with h | h | h | h
        · exact .inl h
        · exact .inr (.inl h)
        · exact .inr (.inr (.inl h))
        · refine .inr (.inr (.inr (Files.after_taken ?_)))
          rw [any_append, h, Bool.or_true]
      · intro n hr hstat
        rcases hgo.confirmed n hr hstat with h | h
        · exact .inl h
        · refine .inr (Files.after_taken ?_)
          rw [any_append, h, Bool.or_true]

/-- An attempt a step makes at `p`: where it starts, what it does and how it ends. -/
inductive Attempts (z : Zstd) (sha : Sha256) (cfg : DrainConfig) (p : Path) (l : Label)
    (s s' : Thread) : Prop
  | intro {s₁ : Thread} {skip : Nat} {io : AttemptIo} {ending : Ending} {out : Attempted}
      {skip' : Nat} {cursor : Option ResumeCursor} (hstarts : Starts p l s s₁ skip io ending)
      (hout : attemptSegment z sha cfg p
        ((s.files p).getD []) s₁.deadLetter s₁.ledger skip io = out)
      (hre : Rechecked (s₁.ledger.view p) skip io skip' cursor)
      (hview : out.ledger.view p = { s₁.ledger.view p with cursor := cursor, carry := none })
      (hdid : Did sha (segmentIdentity p) (recordsOf z ((s.files p).getD [])) (s₁.ledger.view p)
        skip' io out.result out.acts)
      (hends : Ends p s.trace (s.files p) io out s' ending)

theorem attempt_attempts {s₁ : Thread} {skip : Nat} {io : AttemptIo} {ending : Ending}
    (hs : Starts p l s s₁ skip io ending) (resume : HeldResume) (retriesLeft delay : Nat) :
    Attempts z sha cfg p l s (s₁.attempt z sha cfg p skip resume retriesLeft delay io ending) := by
  have hends := attempt_ends z sha cfg s₁ p skip resume retriesLeft delay io ending
  rw [hs.trace, hs.files] at hends
  obtain ⟨_, _, hre, hview, hdid⟩ := attemptSegment_explains z sha cfg p ((s.files p).getD [])
    s₁.deadLetter s₁.ledger skip io
  exact ⟨hs, rfl, hre, hview, hdid, hends⟩

/-- A step makes an attempt at `p`, or is idle for it. -/
theorem step_cases (h : s.step z sha cfg l = some s') (p : Path) :
    Idle p l s s' ∨ Attempts z sha cfg p l s s' := by
  have hnone : ∀ {s' : Thread}, s'.state.holds = none → s'.trace = s.trace →
      s'.ledger = s.ledger → s'.files = s.files → Idle p l s s' :=
    fun hholds htrace hledger hfiles => .same htrace (.inl (heldAt_of_holds_none p hholds))
      (by rw [hledger]) (.inl (by rw [hfiles]))
  cases l with
  | retryConfirm q io => exact .inl (retryConfirm_idle z sha cfg h p)
  | retryQuarantine q io => exact .inl (retryQuarantine_idle z sha cfg h p)
  | sealed q file =>
    left
    cases h
    refine Idle.of_view [.sealed q file] rfl (by simp [Event.Delivers]) (.inr rfl) rfl ?_
    by_cases hq : p = q
    · subst hq
      exact .inr (.inr ⟨file, rfl, by simp, if_pos rfl⟩)
    · exact .inl (if_neg hq)
  | vanished q =>
    left
    cases h
    refine .same rfl (.inr rfl) rfl ?_
    by_cases hq : p = q
    · exact .inr (if_pos hq)
    · exact .inl (if_neg hq)
  | arrive q =>
    cases h
    exact .inl (.same rfl (.inr rfl) rfl (.inl rfl))
  | buffer =>
    dsimp only [step] at h
    split at h <;> cases h
    exact .inl (.same rfl (.inr rfl) rfl (.inl rfl))
  | rescan now found =>
    dsimp only [step] at h
    split at h <;> cases h
    refine .inl (.of_view _ rfl ?_ (.inr rfl) rfl ((Files.after_eq s.files _ p).imp id .inl))
    intro e he
    obtain ⟨_, -, rfl | rfl⟩ := scanUnconfirmedSealed_events _ _ _ e he <;> exact id
  | next now stat io ending =>
    dsimp only [step] at h
    split at h
    next q s₀ hstate hq =>
      obtain ⟨hst, hled, hfiles, htrace⟩ := nextQueued_some hq
      split at h
      next owner l hadm =>
        cases h
        obtain rfl := s₀.ledger.admitPath_drop hadm
        exact .inl (hnone (by rw [hst, hstate]; rfl) htrace hled hfiles)
      next skip l hadm =>
        cases h
        have hview : ∀ r ≠ q, l.view r = s.ledger.view r := by
          intro r hr
          have := s₀.ledger.view_admitPath_ne now stat hr
          rw [hadm] at this
          rw [this, hled]
        by_cases hpq : p = q
        · subst hpq
          have hst : Starts p (.next now stat io ending) s { s₀ with ledger := l } skip io ending :=
            ⟨hfiles, htrace, hview,
              .inr ⟨now, stat, rfl, by rw [hq]; rfl, by rw [← hled]; exact hadm⟩⟩
          exact .inr (attempt_attempts z sha cfg hst ..)
        · exact .inl (attempt_idle z sha cfg hpq skip _ _ _ io ending hfiles htrace (hview p hpq))
    · cases h
  | retry io ending =>
    dsimp only [step] at h
    split at h <;> cases h
    next q retriesLeft nextDelay processed cause hstate =>
      by_cases hpq : p = q
      · subst hpq
        have hheld : s.heldAt p = some processed := by
          unfold heldAt
          rw [hstate]
          exact if_pos rfl
        have hst : Starts p (.retry io ending) s s processed io ending :=
          ⟨rfl, rfl, fun _ _ => rfl, .inl ⟨rfl, hheld, rfl⟩⟩
        exact .inr (attempt_attempts z sha cfg hst ..)
      · exact .inl (attempt_idle z sha cfg hpq processed _ _ _ io ending rfl rfl rfl)
  | strand now =>
    dsimp only [step] at h
    split at h <;> cases h
    exact .inl (strand_idle s _ p _ _)
  | deadLetterRescan scan missing mkdir sync =>
    left
    dsimp only [step] at h
    split at h
    · cases h
      exact .same rfl (.inr rfl) rfl (.inl rfl)
    next q processed needed hstate =>
      split at h <;> cases h
      · exact .same rfl (.inr rfl) rfl (.inl rfl)
      refine .same rfl (.inr ?_) rfl (.inl rfl)
      unfold heldAt
      rw [hstate]
      rfl
    · cases h
  | resume =>
    left
    dsimp only [step] at h
    split at h
    · cases h
      exact hnone rfl rfl rfl rfl
    next q processed retriesLeft nextDelay cause hstate =>
      cases h
      refine .same rfl (.inr ?_) rfl (.inl rfl)
      unfold heldAt
      rw [hstate]
      rfl
    · cases h
  | panic respawn =>
    dsimp only [step] at h
    split at h <;> cases h
    exact .inl (panic_idle cfg s p respawn _)
  | stop =>
    cases h
    exact .inl (hnone rfl rfl rfl rfl)

theorem Ends.trace {trace : List Event} {file : Option Bytes} {io : AttemptIo} {out : Attempted}
    {ending : Ending} (h : Ends p trace file io out s' ending) : trace <+: s'.trace := by
  cases h with
  | returned htrace _ _ => rw [htrace, append_assoc]; exact prefix_append _ _
  | panicked htrace _ _ _ => rw [htrace]; exact prefix_append _ _

/-- The trace only grows. -/
theorem step_trace (h : s.step z sha cfg l = some s') : s.trace <+: s'.trace := by
  have hpath : Path := ⟨[], ""⟩
  rcases step_cases z sha cfg h hpath with hidle | ⟨_, _, _, _, _, hends⟩
  · obtain ⟨events, htrace, _⟩ := hidle.trace
    exact ⟨events, htrace.symm⟩
  · exact hends.trace

end Thread

/-- No disposition, park or cool-down of the path. -/
def View.Free (v : View) : Prop :=
  v.confirm = none ∧ v.quarantine = none ∧ v.park = none ∧ v.notBefore = none

theorem View.Free.not_owned {v : View} (h : v.Free) (now : Nat) : ¬v.Owned now := by
  obtain ⟨h1, h2, h3, h4⟩ := h
  unfold View.Owned
  rw [h1, h2, h3, h4]
  simp

section

variable (h : Starts p l s s₁ skip io ending)
  (hheld : ∀ n ∈ s.heldAt p, (s.ledger.view p).Free)

include h hheld

/-- An attempt is only made at a path without a disposition or park. -/
theorem Starts.unowned :
    (s.ledger.view p).confirm = none ∧ (s.ledger.view p).quarantine = none ∧
      (s.ledger.view p).park = none := by
  rcases h.resumes with ⟨_, hh, _⟩ | ⟨now, stat, _, _, hadm⟩
  · obtain ⟨h1, h2, h3, _⟩ := hheld skip hh
    exact ⟨h1, h2, h3⟩
  have hown := (s.ledger.admitPath_process hadm).1
  unfold View.Owned at hown
  simp only [not_or, Bool.not_eq_true, Option.isSome_eq_false_iff, Option.isNone_iff_eq_none]
    at hown
  exact ⟨hown.1, hown.2.1, hown.2.2.1⟩

/-- When it starts, nothing owns the path. -/
theorem Starts.free : (s₁.ledger.view p).Free := by
  obtain ⟨h1, h2, h3⟩ := h.unowned hheld
  rcases h.resumes with ⟨_, hh, hled⟩ | ⟨now, stat, _, _, hadm⟩
  · rw [hled]
    exact hheld skip hh
  rcases (s.ledger.admitPath_process hadm).2 with ⟨_, _, _, _, hv⟩ | ⟨_, _, hv⟩
  · rw [hv]
    exact ⟨h1, h2, h3, rfl⟩
  · rw [hv]
    exact ⟨h1, h2, h3, rfl⟩

end

/-- What the thread holds, nothing owns. -/
theorem Reach.held_free {z : Zstd} {sha : Sha256} {cfg : DrainConfig}
    {allowed : Thread → Label → Prop} (h : Reach z sha cfg allowed s) (p : Path) :
    ∀ n ∈ s.heldAt p, (s.ledger.view p).Free := by
  induction h with
  | init => intro n hn; exact absurd hn (by simp [Thread.heldAt, Thread.init, DrainState.holds])
  | step _ _ hs ih =>
    intro n hn
    rcases Thread.step_cases z sha cfg hs p with hidle | ⟨hst, _, _, hview, _, hends⟩
    · rcases hidle.held with hh | ⟨hh, hv⟩
      · rw [hh] at hn; cases hn
      · rw [hh] at hn
        rw [hv]
        exact ih n hn
    · cases hends with
      | panicked _ _ hh _ => rw [hh] at hn; cases hn
      | returned _ _ hleaves =>
        cases hleaves with
        | nothing hh => rw [hh] at hn; cases hn
        | progress _ hv _ _ =>
          rw [hv, hview]
          exact hst.free ih

/-! ## The resume points of a segment -/

/-- What is known of the points `p` may be resumed from, and of the carry kept for it. -/
structure Points (P : Nat → Prop) (Q : DeadLetterCarry → Prop) (p : Path) (s : Thread) : Prop where
  held : ∀ n ∈ s.heldAt p, P n
  cursor : ∀ c ∈ (s.ledger.view p).cursor, P c.processed
  carry : ∀ c ∈ (s.ledger.view p).carry, Q c.carry

theorem Rechecked.points {P : Nat → Prop} {v : View} {skip' : Nat} {cursor : Option ResumeCursor}
    (h : Rechecked v skip io skip' cursor) (hzero : P 0) (hskip : P skip)
    (hcursor : ∀ c ∈ v.cursor, P c.processed) : P skip' ∧ ∀ c ∈ cursor, P c.processed := by
  rcases h with ⟨rfl, rfl⟩ | ⟨_, rfl, rfl⟩
  · exact ⟨hskip, hcursor⟩
  · exact ⟨hzero, by simp⟩

namespace Points

variable {P : Nat → Prop} {Q : DeadLetterCarry → Prop} (h : Points P Q p s)

include h

theorem idle (hi : Idle p l s s') : Points P Q p s' := by
  refine ⟨fun n hn => h.held n (hi.mem_held hn), ?_, ?_⟩
  · rcases hi.progress with ⟨hcur, _⟩ | ⟨hcur, _⟩
    · rw [hcur]; exact h.cursor
    · rw [hcur]; simp
  · rcases hi.progress with ⟨_, hcar⟩ | ⟨_, hcar, _⟩
    · rw [hcar]; exact h.carry
    · rw [hcar]; simp

variable (hzero : P 0) (hs : Starts p l s s₁ skip io ending)

include hzero hs

/-- The point an attempt starts from, and the entries of the ledger it starts with. -/
theorem starts : P skip ∧ (∀ c ∈ (s₁.ledger.view p).cursor, P c.processed) ∧
    ∀ c ∈ (s₁.ledger.view p).carry, Q c.carry := by
  rcases hs.resumes with ⟨_, hheld, hled⟩ | ⟨now, stat, _, _, hadm⟩
  · rw [hled]
    exact ⟨h.held skip hheld, h.cursor, h.carry⟩
  rcases (s.ledger.admitPath_process hadm).2 with ⟨c, hc, _, rfl, hv⟩ | ⟨rfl, _, hv⟩
  · rw [hv]
    exact ⟨h.cursor c hc, h.cursor, h.carry⟩
  · rw [hv]
    exact ⟨hzero, by simp, h.carry⟩

/-- What holds of the progress an attempt reports holds of the points it leaves. -/
theorem ends {skip' : Nat} {cursor : Option ResumeCursor} {out : Attempted} {trace : List Event}
    {file : Option Bytes} (hre : Rechecked (s₁.ledger.view p) skip io skip' cursor)
    (hview : out.ledger.view p = { s₁.ledger.view p with cursor := cursor, carry := none })
    (hends : Thread.Ends p trace file io out s' ending)
    (hprogress : ∀ after, ending = .returned after → ∀ n carry,
      out.result.progress = some (n, carry) → P n ∧ ∀ c ∈ carry, Q c) : Points P Q p s' := by
  obtain ⟨hskip, hcursor, _⟩ := h.starts hzero hs
  have hcur := (hre.points hzero hskip hcursor).2
  cases hends with
  | panicked _ _ hheld hv =>
    refine ⟨by rw [hheld]; simp, ?_, ?_⟩
    · rcases hv with hv | ⟨why, hv⟩
      · rw [hv, hview]; exact hcur
      · rw [hv]; simp [View.forgotten]
    · rcases hv with hv | ⟨why, hv⟩
      · rw [hv, hview]; simp
      · rw [hv]; simp [View.forgotten]
  | @returned after _ _ _ hleaves =>
    cases hleaves with
    | nothing hheld hcur' hcar' =>
      exact ⟨by rw [hheld]; simp, by rw [hcur']; simp, by rw [hcar']; simp⟩
    | @progress n carry kept hres hv hstores hheld =>
      obtain ⟨hn, hcarry⟩ := hprogress after rfl n carry hres
      rw [hview] at hv hstores
      refine ⟨?_, ?_, ?_⟩
      · intro m hm
        rcases hheld with hh | hh
        · rw [hh] at hm
          rwa [← Option.some.inj hm]
        · rw [hh] at hm; cases hm
      · intro c hc
        rw [hv] at hc
        split at hc
        · exact hcur c hc
        · obtain ⟨id, _, rfl⟩ := Option.map_eq_some_iff.mp hc
          exact hn
      · intro c hc
        rw [hv] at hc
        cases carry with
        | none =>
          rw [show kept = none from hstores.1] at hc
          cases hc
        | some carry =>
          rcases hstores with ⟨id, _, rfl, _⟩ | ⟨rfl, _⟩
          · rw [← Option.some.inj hc]
            exact hcarry carry rfl
          · cases hc

end Points

end Weir.Drain

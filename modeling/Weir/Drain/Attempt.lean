import Weir.Drain.Batches
import Weir.Drain.View

/-!
# One attempt, with the ledger around it (`drain/mod.rs`)

`attempt_segment` picks up what an earlier attempt left in the ledger and
`next_state_after_process` stores what this one leaves.

> `attemptSegment_explains`: what an attempt does, from the resume point it is
> given and the carry it takes.

> `nextStateAfterProcess_cases`: behind an attempt the segment either keeps its
> progress, or has none left and is owned, gone, or let go.
-/

namespace Weir.Drain

open Weir.Lib Weir.Wab

/-! ## One attempt, with the ledger around it -/

def localReadStrandLimit : Nat := 3

/-- `local_read_limit`. -/
def localReadLimit (cfg : DrainConfig) : Nat :=
  min (saturatingAdd32 cfg.maxRetries 1 * localReadStrandLimit) (2 ^ 32 - 1)

/-- `local_read_escalation_due`. -/
def localReadEscalationDue (cfg : DrainConfig) (l : SegmentLedger) (p : Path) (failures : Nat) :
    Bool :=
  decide (localReadLimit cfg ≤ failures)
    && decide (cfg.localReadEscalationMinAge ≤ l.localReadFailingFor p)

/-- `local_read_escalates_next`. -/
def localReadEscalatesNext (cfg : DrainConfig) (l : SegmentLedger) (p : Path) : Bool :=
  localReadEscalationDue cfg l p (saturatingAdd32 (l.readFailures p) 1)

/-- The answers one attempt gets: the clock and the stats of the ledger, the
dead-letter write of a carry, and what the delivery meets. -/
structure AttemptIo where
  startedAt : Nat
  skipStat : Option FileId
  carryStat : Option FileId
  settle : DeadLetterIo
  process : ProcessIo

structure Attempted where
  result : ProcessResult
  ledger : SegmentLedger
  deadLetter : DeadLetterWriter
  acts : List Act
  readSentinel : Bool

/-- `settle_dl_carry`: the new cursor, or the result to report. -/
def settleDlCarry (cfg : DrainConfig) (skip : Nat) (carry : DeadLetterCarry) (w : DeadLetterWriter)
    (io : DeadLetterIo) : Except ProcessResult Nat × DeadLetterWriter × List Act :=
  match deadLetterRecords cfg w carry.through carry.payloads io with
  | (.ok (), w, acts) =>
    (.ok (max carry.through skip), w, acts ++ [.counted .committed carry.committed])
  | (.error (.blocked needed), w, acts) =>
    (.error (.blockedDeadLetter skip needed (some carry)), w, acts)
  | (.error .writeFailed, w, acts) =>
    (.error (.transient none skip .localWrite (some carry)), w, acts)

/-- `attempt_segment`, on a segment that holds `file`. -/
def attemptSegment (z : Zstd) (sha : Sha256) (cfg : DrainConfig) (p : Path) (file : Bytes)
    (w : DeadLetterWriter) (l : SegmentLedger) (skip : Nat) (io : AttemptIo) : Attempted :=
  let checked := (l.beginAttempt p io.startedAt).checkedSkip p skip io.skipStat
  let taken := checked.2.takeDlCarry p io.carryStat
  let settled : Except ProcessResult Nat × DeadLetterWriter × List Act :=
    match taken.1 with
    | none => (.ok checked.1, w, [])
    | some carry => settleDlCarry cfg checked.1 carry w io.settle
  match settled with
  | (.error r, w, acts) => ⟨r, taken.2.endAttempt, w, acts, false⟩
  | (.ok skip, w, acts) =>
    let out := processSegment z sha cfg p file w skip (localReadEscalatesNext cfg taken.2 p)
      io.process
    ⟨out.result, taken.2.endAttempt, out.deadLetter, acts ++ out.acts, out.readSentinel⟩

/-! ## What follows an attempt -/

/-- What a held segment resumes as. -/
inductive HeldResume
  | fresh
  | retry (retriesLeft nextDelay : Nat) (cause : TransientCause)
  deriving DecidableEq

inductive DrainState
  | draining
  | retryingTransient (segment : Path) (retriesLeft nextDelay processed : Nat)
      (cause : TransientCause)
  | blockedDeadLetterFull (segment : Path) (processed needed : Nat)
  | held (segment : Path) (processed : Nat) (resume : HeldResume)
  | abandoned (segment : Path) (processed : Nat)
  | exited
  deriving DecidableEq

namespace DrainState

/-- The segment a state holds, and how far it was processed. -/
def holds : DrainState → Option (Path × Nat)
  | .retryingTransient p _ _ processed _ => some (p, processed)
  | .blockedDeadLetterFull p processed _ => some (p, processed)
  | .held p processed _ => some (p, processed)
  | .draining | .abandoned _ _ | .exited => none

/-- The states in which the thread still rescans. -/
def running : DrainState → Bool
  | .abandoned _ _ | .exited => false
  | _ => true

end DrainState

/-- What happened, as the outside sees it. -/
inductive Event
  | sealed (p : Path) (file : Bytes)
  | act (p : Path) (a : Act)
  /-- An attempt returned; `present` tells whether the segment was there. -/
  | attempted (p : Path) (present : Bool) (result : ProcessResult) (readSentinel : Bool)
  | carryRefused (p : Path)
  | panicked (p : Path)
  /-- `check_confirmed` was called on the segment. -/
  | checked (p : Path)
  /-- The rescan returned the segment. -/
  | rescanned (p : Path)
  deriving DecidableEq

/-- `next_retry_delay`, in milliseconds. -/
def nextRetryDelay (default : Nat) (hint : Option Nat) : Nat := min (hint.getD default) 300000

/-- The answers that follow an attempt: of a confirm, of an escalated read
failure, and the stats of the ledger. -/
structure AfterIo where
  confirm : ConfirmIo
  readFailedAt : Nat
  move : MoveIo
  progressStat : Option FileId
  carryStat : Option FileId

structure After where
  state : DrainState
  ledger : SegmentLedger
  ops : List (Op Path)
  events : List Event

/-- `store_dl_carry`. -/
def storeDlCarry (p : Path) (carry : Option DeadLetterCarry) (stat : Option FileId)
    (l : SegmentLedger) : SegmentLedger × List Event :=
  match carry with
  | none => (l, [])
  | some carry =>
    match l.setDlCarry p carry stat with
    | (true, l) => (l, [])
    | (false, l) => (l, [.carryRefused p])

/-- `escalate_local_read`: the ledger, and what became of the segment when the
failure was escalated. -/
def escalateLocalRead (cfg : DrainConfig) (p : Path) (cls : ErrClass) (l : SegmentLedger)
    (io : AfterIo) : SegmentLedger × Option After :=
  match l.noteLocalReadFailure p cls io.readFailedAt with
  | (failures, l) =>
    if localReadEscalationDue cfg l p failures then
      match cls with
      | .process => (l, none)
      | .access => (l, some ⟨.draining, l.park p .localReadFailed, [], []⟩)
      | .media =>
        match moveToQuarantine p cfg io.move with
        | (.ok (), ops) => (l, some ⟨.draining, l.forget p, ops, []⟩)
        | (.error _, ops) =>
          (l, some ⟨.draining, l.noteQuarantinePending p "drain: persistent local read error",
            ops, []⟩)
    else (l, none)

/-- The cursor and the carry are stored for the next attempt. -/
def keepProgress (p : Path) (processed : Nat) (carry : Option DeadLetterCarry) (l : SegmentLedger)
    (io : AfterIo) (state : DrainState) : After :=
  match storeDlCarry p carry io.carryStat (l.recordProgress p processed io.progressStat) with
  | (l, events) => ⟨state, l, [], events⟩

/-- `next_state_after_process`, on a segment that holds `file`. A transient
failure is retried with `retriesLeft` attempts to go and a delay of `delay`. -/
def nextStateAfterProcess (cfg : DrainConfig) (p : Path) (file : Bytes) (result : ProcessResult)
    (resume : HeldResume) (retriesLeft delay : Nat) (l : SegmentLedger) (io : AfterIo) : After :=
  match result with
  | .confirmed recordCount =>
    match confirmAndDelete p file recordCount io.confirm with
    | (outcome, ops) => ⟨.draining, (l.forget p).noteConfirmOutcome p outcome recordCount, ops, []⟩
  | .transient retryAfter processed cause carry =>
    let escalated :=
      match cause with
      | .localRead cls _ => escalateLocalRead cfg p cls l io
      | _ => (l, none)
    match escalated with
    | (_, some after) => after
    | (l, none) =>
      keepProgress p processed carry l io
        (.retryingTransient p retriesLeft (nextRetryDelay delay retryAfter) processed cause)
  | .blockedDeadLetter processed needed carry =>
    keepProgress p processed carry l io (.blockedDeadLetterFull p processed needed)
  | .parked reason => ⟨.draining, l.park p reason, [], []⟩
  | .quarantined => ⟨.draining, l.forget p, [], []⟩
  | .quarantinePending reason => ⟨.draining, l.noteQuarantinePending p reason, [], []⟩
  | .paused processed => keepProgress p processed none l io (.held p processed resume)
  | .abandoned processed => keepProgress p processed none l io (.abandoned p processed)

/-- The operation leaves nothing under the name `p`, or finds nothing there. -/
def takesName (p : Path) : Op Path → Bool
  | .unlink q => q = p
  | .rename q _ => q = p
  | .probe q found => q = p && !found
  | _ => false

/-! ## What an attempt does -/

/-- What an attempt from `skip` did with the carry it found, and then with the
segment. -/
inductive Did (sha : Sha256) (segment : String) (rs : List Bytes) (v : View) (skip : Nat)
    (io : AttemptIo) (result : ProcessResult) : List Act → Prop
  | plain {acts : List Act} (hcarry : ∀ pinned ∈ v.carry, io.carryStat ≠ some pinned.id)
      (h : Reports sha segment rs skip result acts) : Did sha segment rs v skip io result acts
  | settled {carry : DeadLetterCarry} {id : FileId} {ops : List (Op Path)} {acts : List Act}
      (hcarry : v.carry = some ⟨carry, id⟩) (hid : io.carryStat = some id)
      (hseals : carry.payloads ≠ [] → Seals ops carry.payloads)
      (h : Reports sha segment rs (max carry.through skip) result acts) :
      Did sha segment rs v skip io result
        (.deadLettered carry.through carry.payloads ops
          :: .counted .deadLettered carry.payloads.length
          :: .counted .committed carry.committed :: acts)
  | owing {carry : DeadLetterCarry} {id : FileId} (hcarry : v.carry = some ⟨carry, id⟩)
      (hid : io.carryStat = some id) (h : result.progress = some (skip, some carry)) :
      Did sha segment rs v skip io result []

variable {segment : String} {result : ProcessResult} {acts : List Act}
  {rs : List Bytes} {carry : Option DeadLetterCarry} {mid : Nat} {r : ProcessResult}

theorem Did.mono {sha : Sha256} {rs' : List Bytes} {v : View} {skip : Nat} {io : AttemptIo}
    (h : Did sha segment rs v skip io result acts) (hrs : rs <+: rs') :
    Did sha segment rs' v skip io result acts := by
  cases h with
  | plain hcarry h => exact .plain hcarry (h.mono hrs)
  | settled hcarry hid hseals h => exact .settled hcarry hid hseals (h.mono hrs)
  | owing hcarry hid h => exact .owing hcarry hid h

theorem settleDlCarry_spec {cfg : DrainConfig} {skip : Nat} {carry : DeadLetterCarry}
    {w w' : DeadLetterWriter} {io : DeadLetterIo} {settled : Except ProcessResult Nat}
    (h : settleDlCarry cfg skip carry w io = (settled, w', acts)) :
    (settled = .ok (max carry.through skip) ∧
      ∃ ops, (carry.payloads ≠ [] → Seals ops carry.payloads) ∧
        acts = [.deadLettered carry.through carry.payloads ops,
          .counted .deadLettered carry.payloads.length, .counted .committed carry.committed]) ∨
    acts = [] ∧ ∃ r needed, settled = .error r ∧
      (r = .blockedDeadLetter skip needed (some carry) ∨
        r = .transient none skip .localWrite (some carry)) := by
  unfold settleDlCarry at h
  split at h
  next w₁ acts₁ hdl =>
    simp only [Prod.mk.injEq] at h
    obtain ⟨ops, hseals, rfl⟩ := deadLetterRecords_ok hdl
    exact .inl ⟨h.1.symm, ops, hseals, h.2.2.symm⟩
  next needed w₁ acts₁ hdl =>
    simp only [Prod.mk.injEq] at h
    rw [deadLetterRecords_error hdl] at h
    exact .inr ⟨h.2.2.symm, _, needed, h.1.symm, .inl rfl⟩
  next w₁ acts₁ hdl =>
    simp only [Prod.mk.injEq] at h
    rw [deadLetterRecords_error hdl] at h
    exact .inr ⟨h.2.2.symm, _, 0, h.1.symm, .inr rfl⟩

section

variable (z : Zstd) (sha : Sha256) (cfg : DrainConfig) (p : Path) (file : Bytes)
  (w : DeadLetterWriter) (l : SegmentLedger) (skip : Nat) (io : AttemptIo)

/-- An attempt gives the ledger back without the carry it took, whatever it did. -/
theorem attemptSegment_ledger :
    (attemptSegment z sha cfg p file w l skip io).ledger
      = (((l.beginAttempt p io.startedAt).checkedSkip p skip io.skipStat).2.takeDlCarry p
          io.carryStat).2.endAttempt := by
  unfold attemptSegment
  dsimp only
  split <;> rfl

theorem attemptSegment_view_ne {q : Path} (h : q ≠ p) :
    (attemptSegment z sha cfg p file w l skip io).ledger.view q = l.view q := by
  rw [attemptSegment_ledger, SegmentLedger.view_endAttempt, SegmentLedger.view_takeDlCarry_ne _ _ h,
    SegmentLedger.view_checkedSkip_ne _ _ _ h, SegmentLedger.view_beginAttempt]

/-- The resume point an attempt starts from, and the cursor it leaves: both as
they were, or both dropped because the cursor is of another file. -/
def Rechecked (v : View) (skip : Nat) (io : AttemptIo) (skip' : Nat)
    (cursor : Option ResumeCursor) :
    Prop :=
  skip' = skip ∧ cursor = v.cursor ∨
  (∃ c id, v.cursor = some c ∧ io.skipStat = some id ∧ id ≠ c.id) ∧ skip' = 0 ∧ cursor = none

theorem attemptSegment_explains :
    ∃ skip' cursor, Rechecked (l.view p) skip io skip' cursor ∧
      (attemptSegment z sha cfg p file w l skip io).ledger.view p
        = { l.view p with cursor := cursor, carry := none } ∧
      Did sha (segmentIdentity p) (recordsOf z file) (l.view p) skip' io
        (attemptSegment z sha cfg p file w l skip io).result
        (attemptSegment z sha cfg p file w l skip io).acts := by
  have hledger := attemptSegment_ledger z sha cfg p file w l skip io
  generalize hl : l.beginAttempt p io.startedAt = l₁ at hledger
  have hview : l₁.view p = l.view p := by rw [← hl]; rfl
  generalize hout : attemptSegment z sha cfg p file w l skip io = out at hledger ⊢
  have hchecked := l₁.checkedSkip_self (p := p) skip io.skipStat
  rw [hview] at hchecked
  unfold attemptSegment at hout
  rw [hl] at hout
  generalize l₁.checkedSkip p skip io.skipStat = checked at hout hledger hchecked
  obtain ⟨skip', l₂⟩ := checked
  dsimp only at hout hledger hchecked
  have htaken := l₂.view_takeDlCarry_self (p := p) io.carryStat
  have hcarry : (l₂.view p).carry = (l.view p).carry := by
    rcases hchecked with ⟨_, h⟩ | ⟨_, _, h⟩ <;> rw [h]
  refine ⟨skip', (l₂.view p).cursor, ?_, ?_, ?_⟩
  · rcases hchecked with ⟨h, hv⟩ | ⟨hc, h, hv⟩
    · exact .inl ⟨h, by rw [hv]⟩
    · exact .inr ⟨hc, h, by rw [hv]⟩
  · rw [hledger, SegmentLedger.view_endAttempt, htaken]
    rcases hchecked with ⟨_, h⟩ | ⟨_, _, h⟩ <;> rw [h]
  · cases hc : (l₂.takeDlCarry p io.carryStat).1 with
    | none =>
      rw [hc] at hout
      rw [← hout]
      refine .plain ?_ (processSegment_reports ..)
      intro pinned hp
      exact l₂.takeDlCarry_none hc (by rw [hcarry]; exact hp)
    | some carry =>
      obtain ⟨id, hid, hpin⟩ := l₂.takeDlCarry_some hc
      rw [hcarry] at hpin
      rw [hc] at hout
      split at hout
      next r w' acts hs =>
        rcases settleDlCarry_spec hs with ⟨h, _⟩ | ⟨rfl, r', needed, hr, h⟩
        · cases h
        · rw [← hout, Except.error.inj hr]
          exact .owing hpin hid (by rcases h with rfl | rfl <;> rfl)
      next through w' acts hs =>
        rcases settleDlCarry_spec hs with ⟨h, ops, hseals, rfl⟩ | ⟨_, r', needed, hr, _⟩
        · rw [← hout, Except.ok.inj h]
          exact .settled hpin hid hseals (processSegment_reports ..)
        · cases hr

/-- An attempt does not get past the carry it found, or it delivers the segment with the
decision of its ledger. -/
theorem attemptSegment_cases :
    let out := attemptSegment z sha cfg p file w l skip io
    ((∃ skip' needed carry, out.result = .blockedDeadLetter skip' needed (some carry) ∨
        out.result = .transient none skip' .localWrite (some carry)) ∧
      out.acts = [] ∧ out.readSentinel = false) ∨
    ∃ skip' w' settled, (settled = [] ∨ ∃ carry : DeadLetterCarry, ∃ ops,
        settled = [.deadLettered carry.through carry.payloads ops,
          .counted .deadLettered carry.payloads.length, .counted .committed carry.committed]) ∧
      let done := processSegment z sha cfg p file w' skip' (localReadEscalatesNext cfg out.ledger p)
        io.process
      out.result = done.result ∧ out.acts = settled ++ done.acts ∧
        out.readSentinel = done.readSentinel := by
  fun_cases attemptSegment z sha cfg p file w l skip io
  case case1 settled r w' acts hs =>
    dsimp only [settled] at hs
    split at hs
    · cases hs
    next carry _ =>
      rcases settleDlCarry_spec hs with ⟨h, _⟩ | ⟨rfl, r', needed, hr, h⟩
      · cases h
      · cases hr
        exact .inl ⟨⟨_, needed, carry, h⟩, rfl, rfl⟩
  case case2 settled skip' w' acts hs out =>
    refine .inr ⟨skip', w', acts, ?_, rfl, rfl, rfl⟩
    dsimp only [settled] at hs
    split at hs
    · cases hs
      exact .inl rfl
    · rcases settleDlCarry_spec hs with ⟨_, ops, _, rfl⟩ | ⟨_, _, _, hr, _⟩
      · exact .inr ⟨_, ops, rfl⟩
      · cases hr

theorem attemptSegment_quarantined
    (h : (attemptSegment z sha cfg p file w l skip io).result = .quarantined) :
    (moveToQuarantine p cfg io.process.move).1 = .ok () := by
  rcases attemptSegment_cases z sha cfg p file w l skip io with
    ⟨⟨_, _, _, hr⟩, _⟩ | ⟨_, _, _, _, hr, _⟩
  · simp [h] at hr
  · exact processSegment_quarantined (hr.symm.trans h)

theorem attemptSegment_readSentinel
    (h : (attemptSegment z sha cfg p file w l skip io).readSentinel = true) : file ≠ [] := by
  rcases attemptSegment_cases z sha cfg p file w l skip io with
    ⟨_, _, hread⟩ | ⟨_, _, _, _, _, _, hread⟩
  · simp [h] at hread
  · exact processSegment_readSentinel (hread.symm.trans h)

theorem attemptSegment_confirmed_length {n : Nat}
    (h : (attemptSegment z sha cfg p file w l skip io).result = .confirmed n)
    (hread : (attemptSegment z sha cfg p file w l skip io).readSentinel = true ∨
      ¬io.process.Gone) : n = (recordsOf z file).length := by
  rcases attemptSegment_cases z sha cfg p file w l skip io with
    ⟨⟨_, _, _, hr⟩, _⟩ | ⟨_, _, _, _, hr, _, hsame⟩
  · simp [h] at hr
  · rw [hsame] at hread
    exact processSegment_confirmed_length (hr.symm.trans h) hread

end

/-! ## What an attempt leaves -/

theorem ProcessResult.Ends.progress {sha : Sha256} {skip n : Nat}
    (h : r.Ends sha segment rs skip mid acts)
    (hr : r.progress = some (n, carry)) : n = mid ∧ Pends sha segment rs mid carry acts := by
  cases r with
  | transient _ _ _ _ | blockedDeadLetter _ _ _ | abandoned _ =>
    obtain ⟨rfl, rfl⟩ := hr
    exact h
  | paused _ =>
    obtain ⟨rfl, rfl⟩ := hr
    obtain ⟨h, rfl⟩ := h
    exact ⟨h, .nil _⟩
  | confirmed _ | quarantined | quarantinePending _ | parked _ => exact absurd hr (by
      simp [ProcessResult.progress])

theorem ProcessResult.Ends.pends {sha : Sha256} {skip : Nat}
    (h : r.Ends sha segment rs skip mid acts) :
    ∃ carry, Pends sha segment rs mid carry acts := by
  cases r with
  | transient _ _ _ _ | blockedDeadLetter _ _ _ | abandoned _ => exact ⟨_, h.2⟩
  | confirmed _ | paused _ => exact ⟨none, .inl ⟨rfl, h.2⟩⟩
  | quarantined | quarantinePending _ | parked _ => exact ⟨none, .inl ⟨rfl, h⟩⟩

/-- An attempt at a segment without records did nothing. -/
theorem Reports.of_nil {sha : Sha256} {skip : Nat} (h : Reports sha segment [] skip result acts) :
    acts = [] ∧ ∀ n carry, result.progress = some (n, carry) → n = skip ∧ carry = none := by
  obtain ⟨mid, sentActs, rest, rfl, hsent, hends⟩ := h
  have hchunk : ∀ {n : Nat} {batch : List Bytes}, batch <+: ([] : List Bytes).drop n →
      batch = [] := by
    intro n batch hb
    rw [List.drop_nil] at hb
    exact List.prefix_nil.mp hb
  have hmid : mid = skip ∧ sentActs = [] := by
    cases hsent with
    | nil => exact ⟨rfl, rfl⟩
    | snoc _ hb hne _ => exact absurd (hchunk hb) hne
  obtain ⟨rfl, rfl⟩ := hmid
  have hpends : ∀ carry, Pends sha segment [] mid carry rest → carry = none ∧ rest = [] := by
    rintro carry (h | ⟨batch, hb, hne, _⟩)
    · exact h
    · exact absurd (hchunk hb) hne
  obtain ⟨carry, hp⟩ := hends.pends
  refine ⟨by rw [(hpends carry hp).2]; rfl, ?_⟩
  intro n carry' hprog
  obtain ⟨rfl, hp'⟩ := hends.progress hprog
  exact ⟨rfl, (hpends carry' hp').1⟩

/-- What the ledger keeps of a carry, and whether it was refused. -/
def Stores (p : Path) (io : AfterIo) (old : Option PinnedCarry) :
    Option DeadLetterCarry → Option PinnedCarry → List Event → Prop
  | none, kept, events => kept = old ∧ events = []
  | some carry, kept, events =>
    (∃ id, io.carryStat = some id ∧ kept = some ⟨carry, id⟩ ∧ events = []) ∨
    kept = none ∧ events = [.carryRefused p]

theorem Stores.events {p : Path} {io : AfterIo} {old kept : Option PinnedCarry}
    {events : List Event} (h : Stores p io old carry kept events) :
    ∀ e ∈ events, e = .carryRefused p := by
  cases carry with
  | none => rw [h.2]; simp
  | some carry =>
    rcases h with ⟨_, _, _, h⟩ | ⟨_, h⟩
    · rw [h]; simp
    · rw [h]; simp

theorem keepProgress_view (p : Path) (n : Nat) (carry : Option DeadLetterCarry) (l : SegmentLedger)
    (io : AfterIo) (state : DrainState) :
    (∀ q ≠ p, (keepProgress p n carry l io state).ledger.view q = l.view q) ∧
    ∃ kept, (keepProgress p n carry l io state).ledger.view p
        = { l.view p with
            cursor := if n = 0 then (l.view p).cursor else io.progressStat.map (⟨n, ·⟩)
            carry := kept } ∧
      Stores p io (l.view p).carry carry kept (keepProgress p n carry l io state).events := by
  have hself : (l.recordProgress p n io.progressStat).view p
      = { l.view p with
          cursor := if n = 0 then (l.view p).cursor else io.progressStat.map (⟨n, ·⟩) } := by
    rw [SegmentLedger.view_recordProgress_self]
    split <;> rfl
  have hne : ∀ q ≠ p, (l.recordProgress p n io.progressStat).view q = l.view q := fun q hq =>
    l.view_recordProgress_ne n io.progressStat hq
  unfold keepProgress storeDlCarry
  cases carry with
  | none => exact ⟨hne, (l.view p).carry, by rw [hself], rfl, rfl⟩
  | some carry =>
    dsimp only
    generalize l.recordProgress p n io.progressStat = l₁ at hself hne
    have hset := l₁.view_setDlCarry_self (p := p) carry io.carryStat
    have hsetne := fun q (hq : q ≠ p) => l₁.view_setDlCarry_ne (p := p) carry io.carryStat hq
    generalize l₁.setDlCarry p carry io.carryStat = out at hset hsetne
    obtain ⟨stored, l₂⟩ := out
    rcases hset with ⟨id, hid, rfl, hv⟩ | ⟨rfl, hv⟩
    · exact ⟨fun q hq => (hsetne q hq).trans (hne q hq), some ⟨carry, id⟩, by rw [hv, hself],
        .inl ⟨id, hid, rfl, rfl⟩⟩
    · exact ⟨fun q hq => (hsetne q hq).trans (hne q hq), none, by rw [hv, hself],
        .inr ⟨rfl, rfl⟩⟩

/-! ### Where a segment goes that is not attempted again -/

theorem deleteConfirmedSegment_done {sealed : Path} {remove : Option IoError}
    (h : (deleteConfirmedSegment sealed remove).1 = .done) :
    (deleteConfirmedSegment sealed remove).2.any (takesName sealed) = true := by
  unfold deleteConfirmedSegment at h ⊢
  split
  · simp [takesName]
  rename_i e
  dsimp only at h
  by_cases hk : e.kind = .notFound
  · rw [if_pos hk]
    simp [takesName]
  · rw [if_neg hk] at h
    cases h

/-- A confirm that is done left nothing under the name, unless it could not stat
the segment. -/
theorem confirmAndDelete_done (sealed : Path) (file : Bytes) (n : Nat) (io : ConfirmIo)
    (h : (confirmAndDelete sealed file n io).1 = .done) :
    (confirmAndDelete sealed file n io).2.any (takesName sealed) = true ∨
      ∃ e, io.sealedStat = .error e := by
  unfold confirmAndDelete at h ⊢
  split
  next e he => exact .inr ⟨e, he⟩
  · exact .inl (by simp [takesName])
  next hstat =>
    rw [hstat] at h
    left
    split
    next hw => rw [hw] at h; cases h
    next hw =>
      rw [hw] at h
      have := deleteConfirmedSegment_done h
      simp only [List.any_cons, List.any_append, this, Bool.or_true]

theorem retryConfirm_done (sealed : Path) (file : Bytes) (pending : ConfirmPending) (io : ConfirmIo)
    (h : (retryConfirm sealed file pending io).1 = .done) :
    (retryConfirm sealed file pending io).2.any (takesName sealed) = true ∨
      ∃ e, io.sealedStat = .error e := by
  unfold retryConfirm at h ⊢
  cases hs : pending.stage with
  | sidecar =>
    rw [hs] at h
    exact confirmAndDelete_done _ _ _ _ h
  | delete =>
    rw [hs] at h
    exact .inl (deleteConfirmedSegment_done h)

theorem moveToQuarantine_ok (p : Path) (cfg : DrainConfig) (io : MoveIo)
    (h : (moveToQuarantine p cfg io).1 = .ok ()) :
    (moveToQuarantine p cfg io).2.any (takesName p) = true ∨ io.gone = true := by
  unfold moveToQuarantine at h ⊢
  split
  next ops hq =>
    unfold quarantine at hq
    split at hq
    · cases hq
    split at hq
    · cases hq
    · rw [← (Prod.mk.inj hq).2]
      simp [takesName]
  next e ops hq =>
    rw [hq] at h
    cases hg : io.gone with
    | true => exact .inr rfl
    | false => rw [hg] at h; cases h

/-- The segment is out of the drain's hands: a disposition or a park owns it, or
the operations left nothing under its name. -/
def Disposed (p : Path) (v : View) (ops : List (Op Path)) : Prop :=
  v.confirm.isSome ∨ v.quarantine.isSome ∨ v.park.isSome ∨ ops.any (takesName p) = true

/-- Behind an attempt that left no progress the segment is disposed of, unless a
stat that failed took it for gone. -/
structure LetsGo (p : Path) (result : ProcessResult) (io : AfterIo) (out : After) : Prop where
  state : out.state = .draining
  events : out.events = []
  cursor : (out.ledger.view p).cursor = none
  carry : (out.ledger.view p).carry = none
  disposed : result ≠ .quarantined → io.move.gone = false →
    (∀ e, io.confirm.sealedStat ≠ .error e) → Disposed p (out.ledger.view p) out.ops
  confirmed : ∀ n, result = .confirmed n → (∀ e, io.confirm.sealedStat ≠ .error e) →
    (out.ledger.view p).confirm.isSome ∨ out.ops.any (takesName p) = true

theorem LetsGo.park (p : Path) (l : SegmentLedger) (why : ParkReason) (io : AfterIo)
    (hr : ∀ n, result ≠ .confirmed n) :
    LetsGo p result io ⟨.draining, l.park p why, [], []⟩ where
  state := rfl
  events := rfl
  cursor := by rw [SegmentLedger.view_park_self]; rfl
  carry := by rw [SegmentLedger.view_park_self]; rfl
  disposed := by
    intro _ _ _
    rw [SegmentLedger.view_park_self]
    exact .inr (.inr (.inl rfl))
  confirmed := fun n h => absurd h (hr n)

theorem LetsGo.quarantinePending (p : Path) (l : SegmentLedger) (reason : String) (io : AfterIo)
    (ops : List (Op Path)) (hr : ∀ n, result ≠ .confirmed n) :
    LetsGo p result io ⟨.draining, l.noteQuarantinePending p reason, ops, []⟩ where
  state := rfl
  events := rfl
  cursor := by rw [SegmentLedger.view_noteQuarantinePending_self]; rfl
  carry := by rw [SegmentLedger.view_noteQuarantinePending_self]; rfl
  disposed := by
    intro _ _ _
    rw [SegmentLedger.view_noteQuarantinePending_self]
    exact .inr (.inl rfl)
  confirmed := fun n h => absurd h (hr n)

theorem escalateLocalRead_cases (cfg : DrainConfig) (p : Path) (cls : ErrClass) (l : SegmentLedger)
    (io : AfterIo) (result : ProcessResult) (hr : ∀ n, result ≠ .confirmed n) :
    (∀ q, (escalateLocalRead cfg p cls l io).1.view q = l.view q) ∧
    ∀ out, (escalateLocalRead cfg p cls l io).2 = some out →
      (∀ q ≠ p, out.ledger.view q = l.view q) ∧ LetsGo p result io out := by
  have hview := fun q => l.view_noteLocalReadFailure (p := p) (q := q) cls io.readFailedAt
  unfold escalateLocalRead
  generalize l.noteLocalReadFailure p cls io.readFailedAt = noted at hview
  obtain ⟨failures, l₁⟩ := noted
  dsimp only at hview ⊢
  split
  · cases cls with
    | process => exact ⟨hview, by simp⟩
    | access =>
      refine ⟨hview, ?_⟩
      rintro out hout
      rw [← Option.some.inj hout]
      exact ⟨fun q hq => by rw [← hview q]; exact l₁.view_park_ne _ hq, .park p l₁ _ io hr⟩
    | media =>
      dsimp only
      split
      next ops hmove =>
        refine ⟨hview, ?_⟩
        rintro out hout
        rw [← Option.some.inj hout]
        refine ⟨fun q hq => by rw [← hview q]; exact l₁.view_forget_ne hq, rfl, rfl, ?_, ?_, ?_,
          fun n h => absurd h (hr n)⟩
        · rw [SegmentLedger.view_forget_self]; rfl
        · rw [SegmentLedger.view_forget_self]; rfl
        intro _ hgone _
        have := moveToQuarantine_ok p cfg io.move (by rw [hmove])
        rw [hmove, hgone] at this
        exact .inr (.inr (.inr (this.resolve_right (by simp))))
      next e ops hmove =>
        refine ⟨hview, ?_⟩
        rintro out hout
        rw [← Option.some.inj hout]
        exact ⟨fun q hq => by rw [← hview q]; exact l₁.view_noteQuarantinePending_ne _ hq,
          .quarantinePending p l₁ _ io ops hr⟩
  · exact ⟨hview, by simp⟩

/-- Behind an attempt the segment keeps its progress, or is let go. -/
theorem nextStateAfterProcess_cases (cfg : DrainConfig) (p : Path) (file : Bytes)
    (result : ProcessResult) (resume : HeldResume) (retriesLeft delay : Nat) (l : SegmentLedger)
    (io : AfterIo) :
    (∀ q ≠ p, (nextStateAfterProcess cfg p file result resume retriesLeft delay l io).ledger.view q
      = l.view q) ∧
    ((∃ n carry l' state, result.progress = some (n, carry) ∧ l'.view p = l.view p ∧
        nextStateAfterProcess cfg p file result resume retriesLeft delay l io
          = keepProgress p n carry l' io state ∧
        ∀ q m, state.holds = some (q, m) → q = p ∧ m = n) ∨
      LetsGo p result io (nextStateAfterProcess cfg p file result resume retriesLeft delay l
        io)) := by
  unfold nextStateAfterProcess
  cases result with
  | confirmed n =>
    have hdone := confirmAndDelete_done p file n io.confirm
    dsimp only
    generalize confirmAndDelete p file n io.confirm = confirm at hdone
    obtain ⟨outcome, ops⟩ := confirm
    obtain ⟨c, hc, hout⟩ := (l.forget p).view_noteConfirmOutcome_self (p := p) outcome n
    rw [SegmentLedger.view_forget_self] at hc
    refine ⟨fun q hq => ?_, .inr ?_⟩
    · rw [SegmentLedger.view_noteConfirmOutcome_ne _ _ _ hq, SegmentLedger.view_forget_ne _ hq]
    have hconf : (∀ e, io.confirm.sealedStat ≠ .error e) →
        c.isSome ∨ ops.any (takesName p) = true := by
      intro hstat
      rcases hout with ⟨rfl, _⟩ | hout
      · exact .inr ((hdone rfl).resolve_right fun ⟨e, he⟩ => hstat e he)
      · exact .inl hout
    refine ⟨rfl, rfl, by rw [hc]; rfl, by rw [hc]; rfl, ?_, ?_⟩
    · intro _ _ hstat
      rw [hc]
      rcases hconf hstat with h | h
      · exact .inl h
      · exact .inr (.inr (.inr h))
    · intro _ _ hstat
      rw [hc]
      exact hconf hstat
  | transient retryAfter processed cause carry =>
    have hesc : ∃ esc : SegmentLedger × Option After,
        (match cause with
          | .localRead cls _ => escalateLocalRead cfg p cls l io
          | _ => (l, none)) = esc ∧ (∀ q, esc.1.view q = l.view q) ∧
        ∀ out, esc.2 = some out → (∀ q ≠ p, out.ledger.view q = l.view q) ∧
          LetsGo p (.transient retryAfter processed cause carry) io out := by
      cases cause with
      | localRead cls errno =>
        obtain ⟨h1, h2⟩ := escalateLocalRead_cases cfg p cls l io
          (.transient retryAfter processed (.localRead cls errno) carry) (by simp)
        exact ⟨_, rfl, h1, h2⟩
      | sink | localWrite => exact ⟨_, rfl, fun _ => rfl, by simp⟩
    obtain ⟨⟨l', escalated⟩, heq, hl', hgo⟩ := hesc
    dsimp only
    rw [heq]
    cases escalated with
    | some out => exact ⟨(hgo out rfl).1, .inr (hgo out rfl).2⟩
    | none =>
      refine ⟨fun q hq => ?_, .inl ⟨processed, carry, l', _, rfl, hl' p, rfl, by
        simp [DrainState.holds]⟩⟩
      exact ((keepProgress_view ..).1 q hq).trans (hl' q)
  | blockedDeadLetter processed needed carry =>
    exact ⟨(keepProgress_view ..).1, .inl ⟨processed, carry, l, _, rfl, rfl, rfl, by
      simp [DrainState.holds]⟩⟩
  | paused processed | abandoned processed =>
    exact ⟨(keepProgress_view ..).1, .inl ⟨processed, none, l, _, rfl, rfl, rfl, by
      simp [DrainState.holds]⟩⟩
  | parked reason => exact ⟨fun q hq => l.view_park_ne _ hq, .inr (.park p l reason io (by simp))⟩
  | quarantined =>
    refine ⟨fun q hq => l.view_forget_ne hq, .inr ⟨rfl, rfl, ?_, ?_, fun h => absurd rfl h, ?_⟩⟩
    · rw [SegmentLedger.view_forget_self]; rfl
    · rw [SegmentLedger.view_forget_self]; rfl
    · exact fun n h => absurd h (by simp)
  | quarantinePending reason =>
    exact ⟨fun q hq => l.view_noteQuarantinePending_ne _ hq,
      .inr (.quarantinePending p l reason io [] (by simp))⟩

end Weir.Drain

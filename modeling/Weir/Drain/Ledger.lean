import Mathlib.Data.List.AList
import Weir.Wab.Reader
import Weir.Wab.Names

/-!
# The drain's ledger (`drain/ledger.rs`)

In-memory bookkeeping keyed by segment path. It decides whether a queued path
may be processed (`admit`, and `excludes` for the rescan), and keeps what one
attempt leaves for the next: the resume cursor and the dead-letter carry, each
pinned to the file it was measured on.

The answer of every `file_identity` is an argument (`none`: the file could not
be stat'ed), and so is the clock. The counters other threads read
(`LedgerCounts`) mirror the sizes of the maps and are left out.
-/

namespace Weir.Drain

open Weir.Lib Weir.Wab

/-- A `HashMap<PathBuf, α>`. -/
abbrev PathMap (α : Type) := AList fun _ : Path => α

/-- `(dev, ino)`. -/
structure FileId where
  dev : Nat
  ino : Nat
  deriving DecidableEq, Repr

/-- How far into a segment the drain has durably processed. -/
structure ResumeCursor where
  processed : Nat
  id : FileId
  deriving DecidableEq, Repr

/-- Which map of the ledger owns a path that is not admitted. -/
inductive Owner
  | confirmPending
  | quarantinePending
  | parked
  | coolingDown
  deriving DecidableEq, Repr

inductive Admit
  | process (skip : Nat)
  | drop (owner : Owner)
  deriving DecidableEq, Repr

inductive ParkReason
  | localReadFailed
  | unsupportedVersion
  | drainPanic
  deriving DecidableEq, Repr

inductive ErrClass
  | process
  | access
  | media
  deriving DecidableEq, Repr

/-- What made an attempt transient. -/
inductive TransientCause
  | sink
  | localRead (cls : ErrClass) (errno : Option Nat)
  | localWrite
  deriving DecidableEq, Repr

/-- `u32::saturating_add`. -/
def saturatingAdd32 (a b : Nat) : Nat := min (a + b) (2 ^ 32 - 1)

def drainPanicParkLimit : Nat := 2
def dlCarryMaxBytes : Nat := 64 * 1024 * 1024

/-- What a sub-batch still owes the dead-letter directory after its commit. -/
structure DeadLetterCarry where
  through : Nat
  payloads : List Bytes
  bytes : Nat
  committed : Nat
  deriving DecidableEq, Repr

structure PinnedCarry where
  carry : DeadLetterCarry
  id : FileId
  deriving DecidableEq, Repr

inductive ConfirmStage
  | sidecar
  | delete
  deriving DecidableEq, Repr

structure ConfirmPending where
  stage : ConfirmStage
  recordCount : Nat
  deriving DecidableEq, Repr

/-- How far a confirm got. -/
inductive ConfirmOutcome
  | done
  | sidecarFailed
  | deleteFailed
  deriving DecidableEq, Repr

structure LocalReadFailures where
  count : Nat
  firstAt : Nat
  deriving DecidableEq, Repr

structure SegmentLedger where
  resumeFrom : PathMap ResumeCursor
  dlCarry : PathMap PinnedCarry
  dlCarryMaxBytes : Nat
  confirmPending : PathMap ConfirmPending
  quarantinePending : PathMap String
  parked : PathMap ParkReason
  localReadFailures : PathMap LocalReadFailures
  notBefore : PathMap Nat
  panicCount : PathMap Nat
  inFlight : Option Path
  attemptStarted : Nat

namespace SegmentLedger

def new (now : Nat) : SegmentLedger where
  resumeFrom := ∅
  dlCarry := ∅
  dlCarryMaxBytes := Drain.dlCarryMaxBytes
  confirmPending := ∅
  quarantinePending := ∅
  parked := ∅
  localReadFailures := ∅
  notBefore := ∅
  panicCount := ∅
  inFlight := none
  attemptStarted := now

variable (l : SegmentLedger) (p : Path)

/-- Whether the cool-down of `p` is still running at `now`. -/
def cooling (now : Nat) : Bool :=
  match l.notBefore.lookup p with
  | none => false
  | some at_ => decide (now < at_)

/-- The cursor half of `admit`: resume past it when it describes the file at
`p`, discard it otherwise. -/
def resume (ident : Option FileId) : Admit × SegmentLedger :=
  match l.resumeFrom.lookup p with
  | none => (.process 0, l)
  | some cursor =>
    if ident = some cursor.id then (.process cursor.processed, l)
    else (.process 0, { l with resumeFrom := l.resumeFrom.erase p })

/-- `SegmentLedger::admit`. -/
def admitPath (now : Nat) (ident : Option FileId) : Admit × SegmentLedger :=
  if p ∈ l.confirmPending then (.drop .confirmPending, l)
  else if p ∈ l.quarantinePending then (.drop .quarantinePending, l)
  else if p ∈ l.parked then (.drop .parked, l)
  else if l.cooling p now then (.drop .coolingDown, l)
  else { l with notBefore := l.notBefore.erase p }.resume p ident

/-- `excludes`: the rescan must not touch `p`. -/
def excludes (now : Nat) : Bool :=
  decide (p ∈ l.confirmPending) || decide (p ∈ l.quarantinePending) || decide (p ∈ l.parked)
    || l.cooling p now

/-- `checked_skip`: a resume point carried outside the ledger is dropped only
when the cursor's pin names another file. -/
def checkedSkip (skip : Nat) (ident : Option FileId) : Nat × SegmentLedger :=
  if skip = 0 then (0, l)
  else
    match l.resumeFrom.lookup p, ident with
    | some cursor, some id =>
      if id ≠ cursor.id then (0, { l with resumeFrom := l.resumeFrom.erase p }) else (skip, l)
    | _, _ => (skip, l)

/-- `record_progress`. -/
def recordProgress (processed : Nat) (ident : Option FileId) : SegmentLedger :=
  if processed = 0 then l
  else
    match ident with
    | some id => { l with resumeFrom := l.resumeFrom.insert p ⟨processed, id⟩ }
    | none => { l with resumeFrom := l.resumeFrom.erase p }

/-- `forget`: the progress entries go, dispositions and parks stay. -/
def forget : SegmentLedger :=
  { l with
    resumeFrom := l.resumeFrom.erase p
    dlCarry := l.dlCarry.erase p
    localReadFailures := l.localReadFailures.erase p
    notBefore := l.notBefore.erase p
    panicCount := l.panicCount.erase p }

/-- `park`. -/
def park (why : ParkReason) : SegmentLedger :=
  { l with parked := l.parked.insert p why }.forget p

/-- `begin_attempt`. -/
def beginAttempt (now : Nat) : SegmentLedger :=
  { l with inFlight := some p, attemptStarted := now }

/-- `end_attempt`. -/
def endAttempt : SegmentLedger := { l with inFlight := none }

/-- `note_drain_panic`. -/
def noteDrainPanic : SegmentLedger :=
  match l.inFlight with
  | none => l
  | some p =>
    let panics := saturatingAdd32 ((l.panicCount.lookup p).getD 0) 1
    let l' := { l with inFlight := none, panicCount := l.panicCount.insert p panics }
    if panics ≥ drainPanicParkLimit then l'.park p .drainPanic else l'

/-- `local_read_failures`: the running count. -/
def readFailures : Nat :=
  ((l.localReadFailures.lookup p).map (·.count)).getD 0

/-- `note_local_read_failure`. -/
def noteLocalReadFailure (cls : ErrClass) (now : Nat) : Nat × SegmentLedger :=
  if cls = .process then (l.readFailures p, l)
  else
    let f := (l.localReadFailures.lookup p).getD ⟨0, now⟩
    let count := saturatingAdd32 f.count 1
    (count, { l with localReadFailures := l.localReadFailures.insert p ⟨count, f.firstAt⟩ })

/-- `local_read_failing_for`: how long `p` had been failing when the latest
attempt began. -/
def localReadFailingFor : Nat :=
  match l.localReadFailures.lookup p with
  | none => 0
  | some f => l.attemptStarted - f.firstAt

/-- The bytes the carries of the other paths hold. -/
def otherCarryBytes : Nat :=
  ((l.dlCarry.entries.filter (·.1 ≠ p)).map fun s => s.2.carry.bytes).sum

/-- `set_dl_carry`: whether the carry was stored. -/
def setDlCarry (carry : DeadLetterCarry) (ident : Option FileId) : Bool × SegmentLedger :=
  match ident with
  | some id =>
    if l.otherCarryBytes p + carry.bytes ≤ l.dlCarryMaxBytes then
      (true, { l with dlCarry := l.dlCarry.insert p ⟨carry, id⟩ })
    else (false, { l with dlCarry := l.dlCarry.erase p })
  | none => (false, { l with dlCarry := l.dlCarry.erase p })

/-- `take_dl_carry`: a carry pinned to another file is discarded. -/
def takeDlCarry (ident : Option FileId) : Option DeadLetterCarry × SegmentLedger :=
  match l.dlCarry.lookup p with
  | none => (none, l)
  | some pinned =>
    (if ident = some pinned.id then some pinned.carry else none,
      { l with dlCarry := l.dlCarry.erase p })

/-- `set_not_before`. -/
def setNotBefore (at_ : Nat) : SegmentLedger :=
  { l with notBefore := l.notBefore.insert p at_ }

/-- `note_confirm_outcome`. -/
def noteConfirmOutcome (outcome : ConfirmOutcome) (recordCount : Nat) : SegmentLedger :=
  match outcome with
  | .done => l
  | .sidecarFailed => { l with confirmPending := l.confirmPending.insert p ⟨.sidecar, recordCount⟩ }
  | .deleteFailed => { l with confirmPending := l.confirmPending.insert p ⟨.delete, recordCount⟩ }

/-- `note_quarantine_pending`. -/
def noteQuarantinePending (reason : String) : SegmentLedger :=
  { l with quarantinePending := l.quarantinePending.insert p reason }.forget p

/-- `p` is owned by a disposition, parked, or cooling down: what `admit` and
`excludes` look at. -/
def Owned (now : Nat) : Prop :=
  p ∈ l.confirmPending ∨ p ∈ l.quarantinePending ∨ p ∈ l.parked ∨ l.cooling p now = true

instance (now : Nat) : Decidable (l.Owned p now) :=
  inferInstanceAs (Decidable (_ ∨ _ ∨ _ ∨ _))

/-- The rescan skips exactly the owned paths. -/
theorem excludes_iff (now : Nat) : l.excludes p now = true ↔ l.Owned p now := by
  simp only [excludes, Owned, Bool.or_eq_true, decide_eq_true_eq, or_assoc]

/-- Admission drops exactly the owned paths. -/
theorem admitPath_drop_iff (now : Nat) (ident : Option FileId) :
    (∃ owner, (l.admitPath p now ident).1 = .drop owner) ↔ l.Owned p now := by
  have hresume : ∀ l' : SegmentLedger, ¬∃ owner, (l'.resume p ident).1 = .drop owner := by
    rintro l' ⟨owner, h⟩
    unfold resume at h
    split at h
    · cases h
    · split at h <;> cases h
  unfold admitPath Owned
  by_cases h1 : p ∈ l.confirmPending
  · simp [h1]
  by_cases h2 : p ∈ l.quarantinePending
  · simp [h1, h2]
  by_cases h3 : p ∈ l.parked
  · simp [h1, h2, h3]
  cases h4 : l.cooling p now with
  | true => simp [h1, h2, h3]
  | false =>
    simp only [h1, h2, h3, if_false, Bool.false_eq_true, or_self, iff_false]
    exact hresume _

end SegmentLedger

/-- `classify`, by errno where there is one (Linux numbers), else by kind. -/
def classify (e : IoError) : ErrClass :=
  match e.rawOsError with
  | some errno =>
    if errno ∈ [24, 23, 12, 105, 11, 4] then .process
    else if errno ∈ [13, 1, 21, 20, 40] then .access
    else .media
  | none =>
    match e.kind with
    | .outOfMemory | .interrupted | .wouldBlock => .process
    | .permissionDenied | .isADirectory | .notADirectory => .access
    | _ => .media

end Weir.Drain

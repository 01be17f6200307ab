import Weir.Wab.Shard

/-!
# `flush_batch` (`wab/mod.rs`): no false ack

A flush writes a group of batches, then resolves every record's ack: records of
a segment that rotated mid-flush are durable by its seal, records of the
still-active segment share one group fsync, and a dropped segment nacks the
records collected for it. The trace of a flush (`Event`) is everything it did,
in order: disk operations, each with the record whose `write_record` performed
it, hand-offs, and acks.

> `flushBatch_honest`: an ack that says durable to a Durable record comes after
> that record was written whole and after a sync of the same segment that
> followed the write.

The invariant that carries it is `FlushInv`: everything pending was written to
the one segment that is open now. `fsync_current` succeeds silently when no
segment is open, so a pending ack that outlived its segment would be acked
falsely; the cases of `WriteRecord` show that whatever closes the segment also
empties, or promotes, the pending acks.
-/

namespace Weir.Wab

open Weir.Lib List

/-- The durability tier a producer asked for. -/
inductive Durability
  | durable
  | buffered
  deriving DecidableEq, Repr

/-- Where a record was put: the segment's address and the 1-based ordinal. -/
structure RecordSlot where
  segment : String
  index : Nat
  deriving DecidableEq, Repr

/-- What the flusher tells the socket handler about one record. -/
structure AckOutcome where
  durable : Bool
  coordinate : Option RecordSlot
  deriving DecidableEq, Repr

/-- `AckOutcome::durable`. -/
def AckOutcome.durableAt (coordinate : Option RecordSlot) : AckOutcome := ⟨true, coordinate⟩

/-- `AckOutcome::failed`. -/
def AckOutcome.failed : AckOutcome := ⟨false, none⟩

/-- A record on its way to the disk. `ackTx` names its oneshot channel. -/
structure WorkUnit where
  payload : Bytes
  durability : Durability
  wantsCoordinate : Bool
  ackTx : Nat
  deriving DecidableEq, Repr

structure Batch where
  records : List WorkUnit
  deriving DecidableEq, Repr

/-- What a flush does. `io who op` is a disk operation, performed by the
`write_record` call of the record `who`, or by the group fsync (`none`). -/
inductive Event
  | io (who : Option WorkUnit) (op : Op Path)
  | handedOff (sealed : Path)
  | resolved (unit : WorkUnit) (outcome : AckOutcome)
  deriving DecidableEq, Repr

/-- `PendingAck`. The sender `tx` is held by the unit it came with, so the unit
stands for it. -/
structure PendingAck where
  tx : WorkUnit
  slot : Option RecordSlot
  deriving DecidableEq, Repr

/-- `PendingAck::resolve`. -/
def PendingAck.resolve (a : PendingAck) (durable : Bool) : Event :=
  .resolved a.tx (if durable then .durableAt a.slot else .failed)

/-- The variables of `flush_batch`, and its trace so far. -/
structure FlushState where
  writer : ShardWriter
  durableAcks : List PendingAck
  pendingAcks : List PendingAck
  trace : List Event

/-- The outcomes of one flush: of the `k`-th record's write, of the hand-off its
rotation makes, and of the group fsync. -/
structure FlushIo where
  record : Nat → WriteIo
  handOff : Nat → Bool
  fsync : Option IoError

/-- The coordinate of the record just written, for a producer that asked. -/
def slotFor (w : ShardWriter) (rotation : Option Path) (u : WorkUnit) : Option RecordSlot :=
  if u.wantsCoordinate then
    (w.drainAddress rotation).map fun segment => ⟨segment, w.activeRecords⟩
  else none

/-- One record of the flush: the body of the inner loop. -/
def flushUnit (z : Zstd) (io : WriteIo) (delivered : Bool) (st : FlushState) (u : WorkUnit) :
    FlushState :=
  match st.writer.writeRecord z u.payload io with
  | (w, .error _, ops) =>
    let trace := st.trace ++ ops.map (.io (some u))
    if w.lastFailure = .segmentDropped then
      { writer := w
        durableAcks := st.durableAcks
        pendingAcks := []
        trace := trace ++ (st.pendingAcks.map (·.resolve false) ++ [.resolved u .failed]) }
    else
      { st with writer := w, trace := trace ++ [.resolved u .failed] }
  | (w, .ok none, ops) =>
    let trace := st.trace ++ ops.map (.io (some u))
    match u.durability with
    | .durable =>
      { st with
        writer := w
        pendingAcks := st.pendingAcks ++ [⟨u, slotFor w none u⟩]
        trace := trace }
    | .buffered =>
      { st with writer := w, trace := trace ++ [.resolved u (.durableAt (slotFor w none u))] }
  | (w, .ok (some sealed), ops) =>
    -- The hand-off precedes the promotion, and its result is dropped.
    let trace := st.trace ++ ops.map (.io (some u))
      ++ (if delivered then [.handedOff sealed] else [])
    let durableAcks := st.durableAcks ++ st.pendingAcks
    match u.durability with
    | .durable =>
      { writer := w
        durableAcks := durableAcks ++ [⟨u, slotFor w (some sealed) u⟩]
        pendingAcks := []
        trace := trace }
    | .buffered =>
      { writer := w
        durableAcks := durableAcks
        pendingAcks := []
        trace := trace ++ [.resolved u (.durableAt (slotFor w (some sealed) u))] }

/-- The two nested loops over the batches' records. -/
def flushUnits (z : Zstd) (io : FlushIo) : Nat → FlushState → List WorkUnit → FlushState
  | _, st, [] => st
  | k, st, u :: us => flushUnits z io (k + 1) (flushUnit z (io.record k) (io.handOff k) st u) us

/-- The group fsync (`fsync_observed`) and the acks that ride on it. -/
def groupFsync (fault : Option IoError) (st : FlushState) : FlushState :=
  if st.pendingAcks = [] then st
  else
    match st.writer.fsyncCurrent fault with
    | (w, .error _, ops) =>
      { st with
        writer := w
        pendingAcks := []
        trace := st.trace ++ ops.map (.io none) ++ st.pendingAcks.map (·.resolve false) }
    | (w, .ok (), ops) =>
      { st with
        writer := w
        pendingAcks := []
        trace := st.trace ++ ops.map (.io none) ++ st.pendingAcks.map (·.resolve true) }

/-- The records of a flush, in the order the loops take them. -/
def unitsOf (batches : List Batch) : List WorkUnit := batches.flatMap (·.records)

/-- `flush_batch`: the writer after it, and what it did. -/
def flushBatch (z : Zstd) (w : ShardWriter) (batches : List Batch) (io : FlushIo) :
    ShardWriter × List Event :=
  let st := flushUnits z io 0 ⟨w, [], [], []⟩ (unitsOf batches)
  let st := groupFsync io.fsync st
  (st.writer, st.trace ++ st.durableAcks.map (·.resolve true))

/-- What the flusher thread does with its writer: flushes, and the timed or
shutdown seal of the active segment. -/
inductive FlusherCall
  | flush (batches : List Batch) (io : FlushIo)
  | sealCurrent (io : SealIo) (delivered : Bool)

/-- The records a call takes in. -/
def FlusherCall.units : FlusherCall → List WorkUnit
  | .flush batches _ => unitsOf batches
  | .sealCurrent .. => []

/-- One call of the flusher. -/
def flusherCall (z : Zstd) (w : ShardWriter) : FlusherCall → ShardWriter × List Event
  | .flush batches io => flushBatch z w batches io
  | .sealCurrent io delivered =>
    match w.sealCurrent io with
    | (w, .ok (some sealed), ops) =>
      (w, ops.map (.io none) ++ (if delivered then [.handedOff sealed] else []))
    | (w, _, ops) => (w, ops.map (.io none))

/-- A run of the flusher: the trace of each call. -/
def flusherRun (z : Zstd) : ShardWriter → List FlusherCall → List (List Event)
  | _, [] => []
  | w, call :: calls =>
    (flusherCall z w call).2 :: flusherRun z (flusherCall z w call).1 calls

/-! ## Every ack is resolved once -/

/-- The units whose acks a trace resolves, in order. -/
def resolvedUnits (tr : List Event) : List WorkUnit :=
  tr.filterMap fun
    | .resolved u _ => some u
    | _ => none

@[simp] theorem resolvedUnits_append (xs ys : List Event) :
    resolvedUnits (xs ++ ys) = resolvedUnits xs ++ resolvedUnits ys := filterMap_append

@[simp] theorem resolvedUnits_io (who : Option WorkUnit) (ops : List (Op Path)) :
    resolvedUnits (ops.map (.io who)) = [] := by
  induction ops with
  | nil => rfl
  | cons op ops ih => exact ih

@[simp] theorem resolvedUnits_resolve (acks : List PendingAck) (b : Bool) :
    resolvedUnits (acks.map (·.resolve b)) = acks.map (·.tx) := by
  induction acks with
  | nil => rfl
  | cons a acks ih => exact congrArg (a.tx :: ·) ih

@[simp] theorem resolvedUnits_single (u : WorkUnit) (o : AckOutcome) :
    resolvedUnits [.resolved u o] = [u] := rfl

@[simp] theorem resolvedUnits_handOff (b : Bool) (p : Path) :
    resolvedUnits (if b then [.handedOff p] else []) = [] := by
  cases b <;> rfl

/-- The units a flush has resolved or still owes an ack. -/
def FlushState.accounted (st : FlushState) : List WorkUnit :=
  resolvedUnits st.trace ++ (st.durableAcks.map (·.tx) ++ st.pendingAcks.map (·.tx))

/-- How often a unit is accounted for, as a sum over the three places. -/
theorem FlushState.count_accounted (st : FlushState) (v : WorkUnit) :
    st.accounted.count v = (resolvedUnits st.trace).count v
      + ((st.durableAcks.map (·.tx)).count v + (st.pendingAcks.map (·.tx)).count v) := by
  rw [FlushState.accounted, count_append, count_append]

/-- Each record is accounted for when its turn comes, whatever its write did. -/
theorem flushUnit_accounted (z : Zstd) (io : WriteIo) (b : Bool) (st : FlushState) (u : WorkUnit) :
    (flushUnit z io b st u).accounted.Perm (st.accounted ++ [u]) := by
  rw [perm_iff_count]
  intro v
  rw [count_append, FlushState.count_accounted, FlushState.count_accounted]
  unfold flushUnit
  split <;> dsimp only <;> split <;>
    simp only [resolvedUnits_append, resolvedUnits_io, resolvedUnits_resolve, resolvedUnits_single,
      resolvedUnits_handOff, count_append, map_append, map_cons, map_nil,
      count_nil] <;>
    omega

theorem flushUnits_accounted (z : Zstd) (io : FlushIo) (us : List WorkUnit) (k : Nat)
    (st : FlushState) : (flushUnits z io k st us).accounted.Perm (st.accounted ++ us) := by
  induction us generalizing k st with
  | nil => rw [append_nil]; exact List.Perm.refl _
  | cons u us ih =>
    have hstep := flushUnit_accounted z (io.record k) (io.handOff k) st u
    have hrest := ih (k + 1) (flushUnit z (io.record k) (io.handOff k) st u)
    refine hrest.trans ?_
    rw [show st.accounted ++ u :: us = (st.accounted ++ [u]) ++ us by simp]
    exact hstep.append_right us

/-- The group fsync resolves what is pending, one way or the other. -/
theorem groupFsync_resolved (fault : Option IoError) (st : FlushState) :
    resolvedUnits (groupFsync fault st).trace
        = resolvedUnits st.trace ++ st.pendingAcks.map (·.tx) ∧
      (groupFsync fault st).durableAcks = st.durableAcks := by
  unfold groupFsync
  split
  next hnone => simp [hnone]
  · split <;> simp

/-- Every ack channel of a flush is resolved exactly once in it. -/
theorem flushBatch_resolved (z : Zstd) (w : ShardWriter) (batches : List Batch) (io : FlushIo) :
    (resolvedUnits (flushBatch z w batches io).2).Perm (unitsOf batches) := by
  refine List.Perm.trans ?_ (flushUnits_accounted z io (unitsOf batches) 0 ⟨w, [], [], []⟩)
  obtain ⟨hresolved, hdurable⟩ := groupFsync_resolved io.fsync
    (flushUnits z io 0 ⟨w, [], [], []⟩ (unitsOf batches))
  rw [flushBatch, resolvedUnits_append, resolvedUnits_resolve, hresolved, hdurable, append_assoc]
  exact perm_append_comm.append_left _

/-! ## A durable ack follows a write and a sync -/

section Honest

variable (form : Bytes → Option Bytes)

/-- The record's own `write_record` put it whole into the segment at `path`.
`form` gives a payload's stored form. -/
def WrittenTo (tr : List Event) (u : WorkUnit) (path : Path) : Prop :=
  ∃ stored pre post, form u.payload = some stored ∧
    tr = pre ++ .io (some u) (.append path (encodeRecord stored)) :: post

/-- The record was written whole to some segment, and later that segment was
synced. -/
def SyncedIn (tr : List Event) (u : WorkUnit) : Prop :=
  ∃ path stored pre mid who post, form u.payload = some stored ∧
    tr = pre ++ .io (some u) (.append path (encodeRecord stored))
      :: (mid ++ .io who (.fsync path) :: post)

/-- Each durable ack to a Durable record comes after its write and a sync. -/
def Honest (tr : List Event) : Prop :=
  ∀ pre u o post, tr = pre ++ .resolved u o :: post → o.durable = true →
    u.durability = .durable → SyncedIn form pre u

variable {form} {tr : List Event} {u : WorkUnit}
  {path : Path} {evs : List Event} {acks : List PendingAck} {o : AckOutcome}
  {seg : WabSegment} {opened : List (Op Path)} {stored : Bytes}

theorem WrittenTo.append (h : WrittenTo form tr u path) (evs : List Event) :
    WrittenTo form (tr ++ evs) u path := by
  obtain ⟨stored, pre, post, hform, rfl⟩ := h
  exact ⟨stored, pre, post ++ evs, hform, by simp⟩

theorem SyncedIn.append (h : SyncedIn form tr u) (evs : List Event) :
    SyncedIn form (tr ++ evs) u := by
  obtain ⟨path, stored, pre, mid, who, post, hform, rfl⟩ := h
  exact ⟨path, stored, pre, mid, who, post ++ evs, hform, by simp⟩

/-- A sync of the segment that comes after the write. -/
theorem WrittenTo.synced {who : Option WorkUnit}
    (h : WrittenTo form tr u path) (hmem : .io who (.fsync path) ∈ evs) :
    SyncedIn form (tr ++ evs) u := by
  obtain ⟨stored, pre, post, hform, rfl⟩ := h
  obtain ⟨mid, last, rfl⟩ := append_of_mem hmem
  exact ⟨path, stored, pre, post ++ mid, who, last, hform, by simp⟩

/-- A trace stays honest when the acks added to it are about records that were
synced before them. -/
theorem Honest.concat (h : Honest form tr)
    (hnew : ∀ pre u o post, evs = pre ++ .resolved u o :: post → o.durable = true →
      u.durability = .durable → SyncedIn form (tr ++ pre) u) : Honest form (tr ++ evs) := by
  intro pre u o post heq hdur hu
  rcases append_eq_append_iff.mp heq with ⟨more, rfl, hevs⟩ | ⟨more, rfl, hmore⟩
  · exact hnew more u o post hevs hdur hu
  · cases more with
    | nil => simpa using hnew [] u o post hmore.symm hdur hu
    | cons e more =>
      simp only [cons_append, List.cons.injEq] at hmore
      obtain ⟨rfl, _⟩ := hmore
      exact h pre u o more rfl hdur hu

theorem Honest.append (h : Honest form tr)
    (hnew : ∀ u o, .resolved u o ∈ evs → o.durable = true → u.durability = .durable →
      SyncedIn form tr u) : Honest form (tr ++ evs) :=
  h.concat fun pre u o _ heq hdur hu => (hnew u o (by rw [heq]; simp) hdur hu).append pre

theorem Honest.append_io (h : Honest form tr) (who : Option WorkUnit) (ops : List (Op Path)) :
    Honest form (tr ++ ops.map (.io who)) :=
  h.append (by simp)

/-- Nacks are always honest. -/
theorem resolve_false_not_durable
    (h : .resolved u o ∈ acks.map (·.resolve false)) : o.durable = false := by
  obtain ⟨a, _, ha⟩ := mem_map.mp h
  simp only [PendingAck.resolve, Event.resolved.injEq] at ha
  rw [← ha.2]
  rfl

theorem mem_of_resolve {b : Bool}
    (h : .resolved u o ∈ acks.map (·.resolve b)) : ∃ a ∈ acks, a.tx = u := by
  obtain ⟨a, ha, he⟩ := mem_map.mp h
  simp only [PendingAck.resolve, Event.resolved.injEq] at he
  exact ⟨a, ha, he.1⟩

/-- The invariant of a flush: what is pending is in the open segment, what is
promoted is synced, and no ack so far was false. -/
structure FlushInv (z : Zstd) (form : Bytes → Option Bytes) (st : FlushState) : Prop where
  codec : storedForm z st.writer.compression st.writer.compressionLevel = form
  pending : ∀ a ∈ st.pendingAcks, ∃ seg, st.writer.active = some seg ∧
    WrittenTo form st.trace a.tx seg.path
  durable : ∀ a ∈ st.durableAcks, SyncedIn form st.trace a.tx
  honest : Honest form st.trace

variable {z : Zstd} {st : FlushState}

/-- The pending acks of an open writer are in the segment a write goes to. -/
theorem FlushInv.pending_opened (h : FlushInv z form st) {io : CreateIo} {w₁ : ShardWriter}
    (hopen : ShardWriter.Opened st.writer io w₁ seg opened) :
    ∀ a ∈ st.pendingAcks, WrittenTo form st.trace a.tx seg.path := by
  intro a ha
  obtain ⟨seg₀, hact, hw⟩ := h.pending a ha
  obtain ⟨_, rfl, _⟩ := hopen.eq_of_active hact
  exact hw

/-- The record just appended is written. -/
theorem writtenTo_of_append (tr : List Event) (path : Path)
    (hform : form u.payload = some stored) (opened : List (Op Path)) :
    WrittenTo form
      (tr ++ (opened ++ [Op.append path (encodeRecord stored)]).map (.io (some u))) u path :=
  ⟨stored, tr ++ opened.map (.io (some u)), [], hform, by simp⟩

/-- Nothing pending after a dropped segment, and every nack is honest. -/
theorem FlushInv.dropped (h : FlushInv z form st) {w : ShardWriter}
    (hcodec : storedForm z w.compression w.compressionLevel = form) (u : WorkUnit)
    (ops : List (Op Path)) :
    FlushInv z form
      { writer := w
        durableAcks := st.durableAcks
        pendingAcks := []
        trace := st.trace ++ ops.map (.io (some u))
          ++ (st.pendingAcks.map (·.resolve false) ++ [.resolved u .failed]) } where
  codec := hcodec
  pending := by simp
  durable := fun a ha => ((h.durable a ha).append _).append _
  honest := (h.honest.append_io _ _).append (by
    intro v o hmem hdur _
    rcases mem_append.mp hmem with hmem | hmem
    · rw [resolve_false_not_durable hmem] at hdur
      cases hdur
    · simp only [mem_singleton, Event.resolved.injEq] at hmem
      rw [hmem.2] at hdur
      exact absurd hdur (by simp [AckOutcome.failed]))

/-- A rotation syncs the segment: the record that filled it and everything
pending for it. -/
theorem synced_of_rotation {v : WorkUnit} {io : SealIo} {sealed : Path} {sealing : List (Op Path)}
    (hseal : (seg.accept stored).seal io = (.ok sealed, sealing))
    (h : WrittenTo form tr v seg.path ∨ v = u ∧ form u.payload = some stored) :
    SyncedIn form (tr ++ (opened ++ [Op.append seg.path (encodeRecord stored)] ++ sealing).map
      (.io (some u))) v := by
  have hsync : Event.io (some u) (.fsync seg.path) ∈ sealing.map (Event.io (some u)) := by
    obtain ⟨_, sync, _, rfl⟩ := WabSegment.seal_ok hseal
    simp [WabSegment.accept]
  rw [map_append, ← append_assoc]
  rcases h with h | ⟨rfl, hform⟩
  · exact (h.append _).synced hsync
  · exact (writtenTo_of_append tr seg.path hform opened).synced hsync

/-- An ack to a Buffered record promises nothing. -/
theorem Honest.append_buffered (h : Honest form tr) (hu : u.durability = .buffered)
    (o : AckOutcome) :
    Honest form (tr ++ [.resolved u o]) := by
  refine h.append ?_
  intro v o' hmem _ hv
  simp only [mem_singleton, Event.resolved.injEq] at hmem
  rw [hmem.1, hu] at hv
  cases hv

/-- One record keeps the invariant, whatever its write does. -/
theorem flushUnit_inv (h : FlushInv z form st) (io : WriteIo) (b : Bool)
    (u : WorkUnit) : FlushInv z form (flushUnit z io b st u) := by
  have hspec := ShardWriter.writeRecord_spec z st.writer u.payload io
  unfold flushUnit
  generalize st.writer.writeRecord z u.payload io = res at hspec ⊢
  obtain ⟨w, r, ops⟩ := res
  have hcodec : storedForm z w.compression w.compressionLevel = form := by
    rw [hspec.codec.1, hspec.codec.2]; exact h.codec
  cases hspec with
  | rejected e =>
    -- the segment stays open: the pending acks stay, only this record is nacked
    dsimp only
    rw [if_neg (by simp [ShardWriter.lastFailure])]
    refine ⟨hcodec, ?_, fun a ha => ((h.durable a ha).append _).append _, ?_⟩
    · intro a ha
      obtain ⟨seg, hact, hw⟩ := h.pending a ha
      exact ⟨seg, hact, (hw.append _).append _⟩
    · refine (h.honest.append_io _ _).append ?_
      intro v o hmem hdur _
      simp only [mem_singleton, Event.resolved.injEq] at hmem
      rw [hmem.2] at hdur
      cases hdur
  | openFailed _ _ | writeFailed _ _ _ | sealFailed _ _ _ _ _ =>
    dsimp only; rw [if_pos (by rfl)]; exact h.dropped hcodec u _
  | @written stored w₁ seg opened hstored hopen _ _ =>
    rw [h.codec] at hstored
    have hpend : ∀ a ∈ st.pendingAcks, ∀ evs, WrittenTo form (st.trace ++ evs) a.tx seg.path :=
      fun a ha evs => (h.pending_opened hopen a ha).append evs
    dsimp only
    split
    · refine ⟨hcodec, ?_, fun a ha => (h.durable a ha).append _, h.honest.append_io _ _⟩
      intro a ha
      refine ⟨seg.accept stored, rfl, ?_⟩
      rcases mem_append.mp ha with ha | ha
      · exact hpend a ha _
      · rw [mem_singleton.mp ha]
        exact writtenTo_of_append st.trace seg.path hstored opened
    next hu =>
      exact ⟨hcodec, fun a ha => ⟨seg.accept stored, rfl, (hpend a ha _).append _⟩,
        fun a ha => ((h.durable a ha).append _).append _,
        (h.honest.append_io _ _).append_buffered hu _⟩
  | @rotated stored w₁ seg sealed opened sealing hstored hopen _ _ hseal =>
    rw [h.codec] at hstored
    have hdur : ∀ a ∈ st.durableAcks ++ st.pendingAcks, SyncedIn form
        (st.trace ++ (opened ++ [Op.append seg.path (encodeRecord stored)] ++ sealing).map
          (.io (some u))) a.tx := by
      intro a ha
      rcases mem_append.mp ha with ha | ha
      · exact (h.durable a ha).append _
      · exact synced_of_rotation hseal (.inl (h.pending_opened hopen a ha))
    have hhand : Honest form (st.trace ++ (opened ++ [Op.append seg.path (encodeRecord stored)]
        ++ sealing).map (.io (some u)) ++ (if b then [.handedOff sealed] else [])) :=
      (h.honest.append_io _ _).append (by cases b <;> simp)
    dsimp only
    split
    · refine ⟨hcodec, by simp, ?_, hhand⟩
      intro a ha
      rcases mem_append.mp ha with ha | ha
      · exact (hdur a ha).append _
      · rw [mem_singleton.mp ha]
        exact (synced_of_rotation hseal (.inr ⟨rfl, hstored⟩)).append _
    next hu =>
      exact ⟨hcodec, by simp, fun a ha => ((hdur a ha).append _).append _,
        hhand.append_buffered hu _⟩

theorem flushUnits_inv (io : FlushIo) (us : List WorkUnit) (k : Nat) (st : FlushState) :
    FlushInv z form st →
      FlushInv z form (flushUnits z io k st us) := by
  induction us generalizing k st with
  | nil => intro h; exact h
  | cons u us ih => intro h; exact ih (k + 1) _ (flushUnit_inv h _ _ u)

/-- The group fsync acks what it synced: with something pending there is an open
segment, so its success is a real one. -/
theorem groupFsync_inv (h : FlushInv z form st) (fault : Option IoError) :
    FlushInv z form (groupFsync fault st) := by
  unfold groupFsync
  split
  · exact h
  rename_i hne
  obtain ⟨a₀, ha₀⟩ := exists_mem_of_ne_nil _ hne
  obtain ⟨seg, hact, _⟩ := h.pending a₀ ha₀
  rw [ShardWriter.fsyncCurrent, hact]
  dsimp only
  cases hsync : seg.fsync fault with
  | mk r ops =>
    cases r <;> refine ⟨h.codec, by simp, fun a ha => ((h.durable a ha).append _).append _,
      (h.honest.append_io _ _).append ?_⟩
    case error e =>
      intro v o hmem hdur _
      rw [resolve_false_not_durable hmem] at hdur
      cases hdur
    case ok =>
      intro v o hmem _ _
      obtain ⟨a, ha, rfl⟩ := mem_of_resolve hmem
      obtain ⟨seg', hact', hw⟩ := h.pending a ha
      obtain rfl : seg = seg' := Option.some.inj (hact.symm.trans hact')
      have hmem : Event.io none (.fsync seg.path) ∈ ops.map (Event.io none) := by
        rw [WabSegment.fsync_ok hsync]
        simp
      exact hw.synced hmem

theorem Honest.nil : Honest form [] := by
  intro pre u o post heq
  exact absurd heq (by simp)

/-- A flush keeps it, from any state of the writer. -/
theorem flushBatch_inv (z : Zstd) (w : ShardWriter) (batches : List Batch) (io : FlushIo) :
    FlushInv z (storedForm z w.compression w.compressionLevel)
      (groupFsync io.fsync (flushUnits z io 0 ⟨w, [], [], []⟩ (unitsOf batches))) :=
  groupFsync_inv (flushUnits_inv io _ 0 ⟨w, [], [], []⟩ ⟨rfl, by simp, by simp, .nil⟩) io.fsync

/-- No flush acks falsely, from any state of the writer. -/
theorem flushBatch_honest (z : Zstd) (w : ShardWriter) (batches : List Batch) (io : FlushIo) :
    Honest (storedForm z w.compression w.compressionLevel) (flushBatch z w batches io).2 := by
  have h := flushBatch_inv z w batches io
  refine h.honest.append ?_
  intro v o hmem _ _
  obtain ⟨a, ha, rfl⟩ := mem_of_resolve hmem
  exact h.durable a ha

theorem SyncedIn.prepend (h : SyncedIn form tr u) (evs : List Event) :
    SyncedIn form (evs ++ tr) u := by
  obtain ⟨path, stored, pre, mid, who, post, hform, rfl⟩ := h
  exact ⟨path, stored, evs ++ pre, mid, who, post, hform, by simp⟩

end Honest

/-- A call of the flusher is honest, resolves the acks of its records, and keeps
the codec. -/
theorem flusherCall_spec (z : Zstd) (w : ShardWriter) (call : FlusherCall) :
    Honest (storedForm z w.compression w.compressionLevel) (flusherCall z w call).2 ∧
    (resolvedUnits (flusherCall z w call).2).Perm call.units ∧
    storedForm z (flusherCall z w call).1.compression (flusherCall z w call).1.compressionLevel
      = storedForm z w.compression w.compressionLevel := by
  cases call with
  | flush batches io =>
    exact ⟨flushBatch_honest z w batches io, flushBatch_resolved z w batches io,
      (flushBatch_inv z w batches io).codec⟩
  | sealCurrent io delivered =>
    have hnil : Honest (storedForm z w.compression w.compressionLevel) [] := .nil
    unfold flusherCall ShardWriter.sealCurrent FlusherCall.units
    cases w.active with
    | none => exact ⟨hnil, List.Perm.refl _, rfl⟩
    | some seg =>
      dsimp only
      cases seg.seal io with
      | mk r ops =>
        cases r with
        | error e => exact ⟨hnil.append_io none ops, by simp, rfl⟩
        | ok sealed =>
          exact ⟨(hnil.append_io none ops).append (by cases delivered <;> simp), by simp, rfl⟩

/-- No false Durable ack, over every run of a shard's flusher and every outcome
of its calls: an ack that tells a Durable record it is durable comes after the
record was written whole to a segment and after a sync of that segment that
followed the write. Every call resolves each of its records' acks once. -/
theorem flusherRun_no_false_ack (z : Zstd) (w : ShardWriter) (calls : List FlusherCall) :
    (∀ pre u o post, (flusherRun z w calls).flatten = pre ++ .resolved u o :: post →
      o.durable = true → u.durability = .durable →
      SyncedIn (storedForm z w.compression w.compressionLevel) pre u) ∧
    List.Forall₂ (fun call tr => (resolvedUnits tr).Perm call.units) calls
      (flusherRun z w calls) := by
  induction calls generalizing w with
  | nil => exact ⟨Honest.nil, .nil⟩
  | cons call calls ih =>
    obtain ⟨hhonest, hres, hcodec⟩ := flusherCall_spec z w call
    obtain ⟨hrest, hall⟩ := ih (flusherCall z w call).1
    rw [hcodec] at hrest
    exact ⟨hhonest.concat fun _ u o _ heq hdur hu => (hrest _ u o _ heq hdur hu).prepend _,
      .cons hres hall⟩

end Weir.Wab

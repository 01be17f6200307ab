import Weir.Drain.Process
import Weir.Ingest.Pipeline
import Weir.Wire.Payload

/-!
# Pushes (`weir-server/src/socket/connection.rs`: `handle_push`, `handle_push_batch`; `wab/cap.rs`)

A push makes a unit for each of its records, with an ack channel of its own, hands
the units to the queue and waits for the acks. What the queue and the flusher do is
given: `EnqueueIo` for each record, and `AckWait` for each channel.

> `handlePushBatch_truthful`: a set bit of the reply means that the record was
> enqueued and that its own channel resolved durable.

> `handlePushBatch_counts`: no counter runs below zero, and the records acked and the
> records counted under a cause are the whole batch.

> `enqueueTime_bounded_iff`: a batch is enqueued within one timeout if one of its records at
> most finds the partition full, and not otherwise: its blocking waits follow one another.
-/

namespace Weir.Server

open Weir.Lib Weir.Wab Weir.Wire Weir.Ingest Weir.Drain List

/-! ## Admission -/

structure ConnectionConfig where
  maxPayloadBytes : Nat
  maxBatchRecords : Nat
  shardId : Nat
  wabMaxBytes : Nat

/-- The shared atomics at an admission check. -/
structure Gauges where
  wabBytesNow : Nat
  wabCapRejecting : Bool
  wabOwnershipLost : Bool

/-- `low_water`. -/
def lowWater (cap : Nat) : Nat := cap / 10 * 9

/-- `evaluate`, with the flag it leaves behind. -/
def evaluate (cap bytes : Nat) (rejecting : Bool) : Bool × Bool :=
  if cap = 0 then (false, rejecting)
  else
    let now := if rejecting then decide (bytes ≥ lowWater cap) else decide (bytes ≥ cap)
    (now, now)

inductive AdmissionRefusal
  | ownershipLost
  | wabCap
  deriving DecidableEq, Repr

/-- `admission_refusal`, with the flag it leaves behind. -/
def admissionRefusal (cfg : ConnectionConfig) (g : Gauges) : Option AdmissionRefusal × Bool :=
  if g.wabOwnershipLost then (some .ownershipLost, g.wabCapRejecting)
  else
    let (refuse, flag) := evaluate cfg.wabMaxBytes g.wabBytesNow g.wabCapRejecting
    (if refuse then some .wabCap else none, flag)

inductive NackInternalCause
  | ownershipLost
  | wabCap
  | queueFull
  | writeFailed
  | senderDropped
  | ackTimeout
  | coordinate
  deriving DecidableEq, Repr

/-- `AdmissionRefusal::cause`. -/
def AdmissionRefusal.cause : AdmissionRefusal → NackInternalCause
  | .ownershipLost => .ownershipLost
  | .wabCap => .wabCap

/-- `count_internal_nack`. -/
def countInternalNack (cause : NackInternalCause) (n : Nat) : List (NackInternalCause × Nat) :=
  if n > 0 then [(cause, n)] else []

/-! ## Responses -/

inductive Response
  | ack
  | ackTracked (coordinate : RecordCoordinate)
  | ackBatch (accepted : List Bool)
  | healthCheckResponse
  | nack (reason : NackReason) (extra : Bytes)
  deriving DecidableEq

/-- The envelopes of `ack_frame_bytes`, `send_ack_tracked`, `send_ack_batch`,
`healthcheck_response_frame_bytes` and `send_nack`. -/
def Response.envelope : Response → Envelope
  | .ack => .new (.new .ack .durable 0) []
  | .ackTracked coordinate => .new (.new .ackTracked .durable 0) coordinate.encode
  | .ackBatch accepted => .new (.new .ackBatch .durable 0) (encodeAckBatch accepted)
  | .healthCheckResponse => .new (.new .healthCheckResponse .durable 0) []
  | .nack reason extra => .new (.new .nack .durable 0) (reason.toByte :: extra)

def Response.frame (resp : Response) : Bytes := resp.envelope.encode

/-! ## The queue and the acks -/

/-- How the queue takes one unit: at once, or within the timeout of the blocking push,
whose task may also fail. -/
structure EnqueueIo where
  tryPush : Bool
  pushTimeout : Except IoError Bool

/-- Whether the unit went into the queue. -/
def EnqueueIo.pushed (io : EnqueueIo) : Except IoError Bool :=
  if io.tryPush then .ok true else io.pushTimeout

theorem EnqueueIo.pushed_ok {io : EnqueueIo} (h : ∃ pushed, io.pushTimeout = .ok pushed) :
    ∃ pushed, io.pushed = .ok pushed := by
  unfold EnqueueIo.pushed
  split
  · exact ⟨true, rfl⟩
  · exact h

/-- How the wait for an ack ends: resolved, the sender dropped, or the deadline passed. -/
inductive AckWait
  | resolved (outcome : AckOutcome)
  | dropped
  | elapsed
  deriving DecidableEq, Repr

/-- What a push meets: the queue for each record of the frame, and the ack of each
channel. -/
structure PushIo where
  enqueue : Nat → EnqueueIo
  acks : Nat → AckWait

/-- What a push did: its answer or the error of its task, the units in the queue, and the
internal nacks it counted. -/
structure Pushed (ρ : Type) where
  result : Except IoError ρ
  units : List Routed
  internal : List (NackInternalCause × Nat)

/-- The answer to a push whose ack came back. -/
def answerPush (sha : Sha256) (payload : Bytes) (tracked : Bool) :
    AckWait → Response × List (NackInternalCause × Nat)
  | .resolved outcome =>
    if outcome.durable then
      if tracked then
        match outcome.coordinate.map fun slot =>
          RecordCoordinate.new slot.segment slot.index
            (forRecord sha slot.segment slot.index payload) with
        | some (.ok coordinate) => (.ackTracked coordinate, [])
        | _ => (.nack .internalError [], countInternalNack .coordinate 1)
      else (.ack, [])
    else (.nack .internalError [], countInternalNack .writeFailed 1)
  | .dropped => (.nack .internalError [], countInternalNack .senderDropped 1)
  | .elapsed => (.nack .internalError [], countInternalNack .ackTimeout 1)

/-- `handle_push`; `tx` is the ack channel it makes. -/
def handlePush (sha : Sha256) (cfg : ConnectionConfig) (durability : Durability) (payload : Bytes)
    (tracked : Bool) (tx : Nat) (io : PushIo) : Pushed Response :=
  match (io.enqueue 0).pushed with
  | .error e => ⟨.error e, [], []⟩
  | .ok false => ⟨.ok (.nack .internalError []), [], countInternalNack .queueFull 1⟩
  | .ok true =>
    let (resp, internal) := answerPush sha payload tracked (io.acks tx)
    ⟨.ok resp, [⟨cfg.shardId, ⟨payload, durability, tracked, tx⟩⟩], internal⟩

/-! ## Batches -/

/-- The unit of record `i` of a batch; its channel is the `i`-th behind `tx`. -/
def batchUnit (cfg : ConnectionConfig) (durability : Durability) (tx i : Nat) (payload : Bytes) :
    Routed :=
  ⟨cfg.shardId, ⟨payload, durability, false, tx + i⟩⟩

/-- The enqueue loop of `handle_push_batch`, from record `i` on: a receiver for each record
it got to, and the units in the queue. It stops at the first record the queue refuses. -/
def enqueueAll (cfg : ConnectionConfig) (durability : Durability) (tx : Nat)
    (io : Nat → EnqueueIo) (i : Nat) : List Bytes → Except IoError (List (Option Nat)) × List Routed
  | [] => (.ok [], [])
  | record :: rest =>
    match (io i).pushed with
    | .error e => (.error e, [])
    | .ok false => (.ok [none], [])
    | .ok true =>
      let (receivers, units) := enqueueAll cfg durability tx io (i + 1) rest
      (receivers.map (some (tx + i) :: ·), batchUnit cfg durability tx i record :: units)

/-- The outcomes and counters of the await loop. -/
structure Tally where
  accepted : List Bool
  acked : Nat
  writeFailed : Nat
  dropped : Nat
  timedOut : Bool

/-- The await loop, from record `i` on. It stops when the deadline passes. -/
def awaitAll (acks : Nat → AckWait) : List (Option Nat) → Nat → Tally → Tally
  | [], _, t => t
  | none :: rest, i, t => awaitAll acks rest (i + 1) t
  | some rx :: rest, i, t =>
    match acks rx with
    | .resolved outcome =>
      if outcome.durable then
        awaitAll acks rest (i + 1)
          { t with accepted := t.accepted.set i true, acked := t.acked + 1 }
      else awaitAll acks rest (i + 1) { t with writeFailed := t.writeFailed + 1 }
    | .dropped => awaitAll acks rest (i + 1) { t with dropped := t.dropped + 1 }
    | .elapsed => { t with timedOut := true }

/-- The reply to a batch and the counters behind it. -/
structure BatchReport where
  accepted : List Bool
  enqueuedOk : Nat
  acked : Nat
  queueFull : Nat
  writeFailed : Nat
  senderDropped : Nat
  ackTimeout : Nat
  nacked : Nat

/-- What `handle_push_batch` makes of its receivers. -/
def report (acks : Nat → AckWait) (n : Nat) (receivers : List (Option Nat)) : BatchReport :=
  let enqueuedOk := (receivers.filter Option.isSome).length
  let resized := receivers ++ replicate (n - receivers.length) none
  let t := awaitAll acks resized 0 ⟨replicate n false, 0, 0, 0, false⟩
  { accepted := t.accepted
    enqueuedOk := enqueuedOk
    acked := t.acked
    queueFull := n - enqueuedOk
    writeFailed := t.writeFailed
    senderDropped := t.dropped
    ackTimeout := enqueuedOk - t.acked - t.writeFailed - t.dropped
    nacked := n - t.acked }

/-- `handle_push_batch`; the channels are numbered from `tx` on. -/
def handlePushBatch (cfg : ConnectionConfig) (durability : Durability) (records : List Bytes)
    (tx : Nat) (io : PushIo) : Pushed BatchReport :=
  match enqueueAll cfg durability tx io.enqueue 0 records with
  | (.error e, units) => ⟨.error e, units, []⟩
  | (.ok receivers, units) =>
    let r := report io.acks records.length receivers
    ⟨.ok r, units, countInternalNack .queueFull r.queueFull
      ++ countInternalNack .writeFailed r.writeFailed
      ++ countInternalNack .senderDropped r.senderDropped
      ++ countInternalNack .ackTimeout r.ackTimeout⟩

section

variable {cfg : ConnectionConfig} {durability : Durability} {tx : Nat}

/-- The queue took the first records and no other, on the channels in order. -/
theorem enqueueAll_units (io : Nat → EnqueueIo) :
    ∀ (records : List Bytes) (i : Nat),
      (enqueueAll cfg durability tx io i records).2.map (·.unit.payload) <+: records ∧
      (enqueueAll cfg durability tx io i records).2.map (·.unit.ackTx)
        = List.range' (tx + i) (enqueueAll cfg durability tx io i records).2.length := by
  intro records
  induction records with
  | nil => exact fun i => ⟨prefix_rfl, rfl⟩
  | cons record rest ih =>
    intro i
    unfold enqueueAll
    split
    · exact ⟨prefix_append [] _, rfl⟩
    · exact ⟨prefix_append [] _, rfl⟩
    · obtain ⟨hpayloads, hchannels⟩ := ih (i + 1)
      rw [map_cons, map_cons, hchannels, length_cons, range'_succ]
      exact ⟨(prefix_cons_inj record).mpr hpayloads, rfl⟩

/-- The receivers of the records the queue took, and nothing behind the one it refused. -/
theorem enqueueAll_receivers (io : Nat → EnqueueIo) (records : List Bytes) (i : Nat)
    (receivers : List (Option Nat)) (units : List Routed) :
    enqueueAll cfg durability tx io i records = (.ok receivers, units) →
      ∃ refused, receivers = (List.range units.length).map (fun j => some (tx + i + j)) ++ refused ∧
        (refused = [] ∨ refused = [none]) ∧ receivers.length ≤ records.length := by
  induction records generalizing i receivers units with
  | nil =>
    intro h
    obtain ⟨h₁, rfl⟩ := Prod.mk.inj h
    cases h₁
    exact ⟨[], rfl, .inl rfl, le_rfl⟩
  | cons record rest ih =>
    intro h
    unfold enqueueAll at h
    split at h
    · cases h
    · obtain ⟨h₁, rfl⟩ := Prod.mk.inj h
      cases h₁
      exact ⟨[none], rfl, .inr rfl, Nat.succ_le_succ (Nat.zero_le _)⟩
    · obtain ⟨h₁, rfl⟩ := Prod.mk.inj h
      cases hrest : (enqueueAll cfg durability tx io (i + 1) rest).1 with
      | error e => rw [hrest] at h₁; cases h₁
      | ok receivers' =>
        rw [hrest] at h₁
        cases h₁
        obtain ⟨refused, hrec, hone, hlen⟩ := ih (i + 1) receivers' _ (Prod.ext hrest rfl)
        refine ⟨refused, ?_, hone, Nat.succ_le_succ hlen⟩
        rw [hrec, length_cons, range_succ_eq_map, map_cons, map_map,
          add_zero, cons_append]
        congr 2
        refine map_congr_left fun j _ => ?_
        congr 1
        omega

/-- What the await loop makes of its counters: a bit it sets belongs to a receiver that
resolved durable, and it counts each receiver at most once. -/
structure Awaited (acks : Nat → AckWait) (receivers : List (Option Nat)) (i : Nat) (t t' : Tally) :
    Prop where
  length : t'.accepted.length = t.accepted.length
  bits : ∀ j : Nat, t'.accepted[j]? = some true → t.accepted[j]? = some true ∨
    ∃ k rx outcome, j = i + k ∧ receivers[k]? = some (some rx) ∧ acks rx = .resolved outcome ∧
      outcome.durable = true
  counts : t'.acked + t'.writeFailed + t'.dropped
    ≤ t.acked + t.writeFailed + t.dropped + (receivers.filter Option.isSome).length

/-- One more receiver in front. -/
theorem Awaited.cons {acks : Nat → AckWait} {receivers : List (Option Nat)} {rx : Nat} {i : Nat}
    {t t₁ t' : Tally} (h : Awaited acks receivers (i + 1) t₁ t')
    (hlen : t₁.accepted.length = t.accepted.length)
    (hbits : ∀ j : Nat, t₁.accepted[j]? = some true → t.accepted[j]? = some true ∨
      j = i ∧ ∃ outcome, acks rx = .resolved outcome ∧ outcome.durable = true)
    (hcounts : t₁.acked + t₁.writeFailed + t₁.dropped
      ≤ t.acked + t.writeFailed + t.dropped + 1) : Awaited acks (some rx :: receivers) i t t' := by
  refine ⟨h.length.trans hlen, fun j hj => ?_, ?_⟩
  · rcases h.bits j hj with hj | ⟨k, rx', outcome, rfl, hk, hrx, hd⟩
    · rcases hbits j hj with hj | ⟨rfl, outcome, hrx, hd⟩
      · exact .inl hj
      · exact .inr ⟨0, rx, outcome, rfl, rfl, hrx, hd⟩
    · exact .inr ⟨k + 1, rx', outcome, by omega, hk, hrx, hd⟩
  · have hle := h.counts
    rw [filter_cons_of_pos rfl, length_cons]
    omega

theorem awaitAll_awaited (acks : Nat → AckWait) :
    ∀ (receivers : List (Option Nat)) (i : Nat) (t : Tally),
      Awaited acks receivers i t (awaitAll acks receivers i t) := by
  intro receivers
  induction receivers with
  | nil => exact fun i t => ⟨rfl, fun j hj => .inl hj, le_rfl⟩
  | cons rx receivers ih =>
    intro i t
    cases rx with
    | none =>
      have h := ih (i + 1) t
      refine ⟨h.length, fun j hj => ?_, h.counts⟩
      refine (h.bits j hj).imp id ?_
      intro ⟨k, rx, outcome, hj, hk, hrx, hd⟩
      exact ⟨k + 1, rx, outcome, by omega, hk, hrx, hd⟩
    | some rx =>
      unfold awaitAll
      split
      next outcome hrx =>
        split
        next hd =>
          refine (ih (i + 1) _).cons (length_set ..) (fun j hj => ?_) ?_
          · dsimp only at hj
            rw [getElem?_set] at hj
            split at hj
            next hij => exact .inr ⟨hij.symm, outcome, hrx, hd⟩
            · exact .inl hj
          · dsimp only
            omega
        · refine (ih (i + 1) _).cons rfl (fun j hj => .inl hj) ?_
          dsimp only
          omega
      · refine (ih (i + 1) _).cons rfl (fun j hj => .inl hj) ?_
        dsimp only
        omega
      · exact ⟨rfl, fun j hj => .inl hj, Nat.le_add_right _ _⟩

variable (cfg durability tx) in
/-- Without a failure of the blocking push's task, a batch is answered. -/
theorem handlePushBatch_ok (records : List Bytes) {io : PushIo}
    (hjoin : ∀ i, ∃ pushed, (io.enqueue i).pushTimeout = .ok pushed) :
    ∃ report, (handlePushBatch cfg durability records tx io).result = .ok report := by
  have hall : ∀ (records : List Bytes) (i : Nat),
      ∃ receivers, (enqueueAll cfg durability tx io.enqueue i records).1 = .ok receivers := by
    intro records
    induction records with
    | nil => exact fun i => ⟨[], rfl⟩
    | cons record rest ih =>
      intro i
      obtain ⟨pushed, hp⟩ := EnqueueIo.pushed_ok (hjoin i)
      obtain ⟨receivers, hrest⟩ := ih (i + 1)
      unfold enqueueAll
      rw [hp]
      cases pushed with
      | false => exact ⟨[none], rfl⟩
      | true =>
        refine ⟨some (tx + i) :: receivers, ?_⟩
        dsimp only
        rw [hrest]
        rfl
  obtain ⟨receivers, hrec⟩ := hall records 0
  unfold handlePushBatch
  split
  next heq => rw [heq] at hrec; cases hrec
  · exact ⟨_, rfl⟩

variable (cfg durability tx) in
/-- The units of a batch are its first records, on the channels from `tx` on. -/
theorem handlePushBatch_units (records : List Bytes) (io : PushIo) :
    (handlePushBatch cfg durability records tx io).units.map (·.unit.payload) <+: records ∧
      (handlePushBatch cfg durability records tx io).units.map (·.unit.ackTx)
        = List.range' tx (handlePushBatch cfg durability records tx io).units.length := by
  have hall : (handlePushBatch cfg durability records tx io).units
      = (enqueueAll cfg durability tx io.enqueue 0 records).2 := by
    unfold handlePushBatch
    split
    next h => rw [h]
    next h => rw [h]
  rw [hall]
  exact enqueueAll_units io.enqueue records 0

section

variable {records : List Bytes} {io : PushIo} {r : BatchReport}
  (h : (handlePushBatch cfg durability records tx io).result = .ok r)

include h

/-- The receivers behind a report, and the records they belong to. -/
theorem handlePushBatch_receivers :
    ∃ receivers refused, r = report io.acks records.length receivers ∧
      receivers = (List.range (handlePushBatch cfg durability records tx io).units.length).map
        (fun j => some (tx + j)) ++ refused ∧
      (refused = [] ∨ refused = [none]) ∧ receivers.length ≤ records.length := by
  unfold handlePushBatch at h ⊢
  split at h
  · cases h
  rename_i receivers units heq
  cases h
  obtain ⟨refused, hrec, hone, hlen⟩ :=
    enqueueAll_receivers io.enqueue records 0 receivers units heq
  exact ⟨receivers, refused, rfl, hrec, hone, hlen⟩

/-- A set bit is a record that was enqueued and whose own channel resolved durable. -/
theorem handlePushBatch_truthful :
    r.accepted.length = records.length ∧
    ∀ i : Nat, r.accepted[i]? = some true →
      i < (handlePushBatch cfg durability records tx io).units.length ∧
      ∃ outcome, io.acks (tx + i) = .resolved outcome ∧ outcome.durable = true := by
  obtain ⟨receivers, refused, rfl, hrec, hone, hlen⟩ := handlePushBatch_receivers h
  have hawait := awaitAll_awaited io.acks
    (receivers ++ replicate (records.length - receivers.length) none) 0
    ⟨replicate records.length false, 0, 0, 0, false⟩
  refine ⟨hawait.length.trans (length_replicate ..), fun i hi => ?_⟩
  rcases hawait.bits i hi with hfalse | ⟨k, rx, outcome, rfl, hk, hrx, hd⟩
  · dsimp only at hfalse
    rw [getElem?_replicate] at hfalse
    split at hfalse <;> cases hfalse
  · rw [zero_add]
    -- the receiver is not one of the padding, nor the refused one
    have hmem : k < (handlePushBatch cfg durability records tx io).units.length ∧ rx = tx + k := by
      generalize (handlePushBatch cfg durability records tx io).units.length = n at hrec ⊢
      rw [hrec, append_assoc] at hk
      rcases lt_or_ge k n with hlt | hge
      · rw [getElem?_append_left (by simpa using hlt)] at hk
        rw [getElem?_map, getElem?_range hlt, Option.map_some] at hk
        exact ⟨hlt, (Option.some.inj (Option.some.inj hk)).symm⟩
      · have hnone : ∀ x ∈ refused ++ replicate (records.length - receivers.length) none,
            x = none := by
          intro x hx
          rcases mem_append.mp hx with hx | hx
          · rcases hone with rfl | rfl
            · cases hx
            · exact mem_singleton.mp hx
          · exact eq_of_mem_replicate hx
        rw [getElem?_append_right (by simpa using hge)] at hk
        rw [← hrec] at hk
        exact absurd (hnone _ (mem_of_getElem? hk)) (by simp)
    obtain ⟨hlt, rfl⟩ := hmem
    exact ⟨hlt, outcome, hrx, hd⟩

/-- No subtraction of the counters runs below zero, and the counts add up to the batch. -/
theorem handlePushBatch_counts :
    r.enqueuedOk ≤ records.length ∧ r.acked ≤ r.enqueuedOk ∧
    r.writeFailed ≤ r.enqueuedOk - r.acked ∧
    r.senderDropped ≤ r.enqueuedOk - r.acked - r.writeFailed ∧ r.acked ≤ records.length ∧
    r.acked + r.queueFull + r.writeFailed + r.senderDropped + r.ackTimeout = records.length := by
  obtain ⟨receivers, refused, rfl, hrec, hone, hlen⟩ := handlePushBatch_receivers h
  have hawait := awaitAll_awaited io.acks
    (receivers ++ replicate (records.length - receivers.length) none) 0
    ⟨replicate records.length false, 0, 0, 0, false⟩
  have hcounts := hawait.counts
  have hfilter : (receivers ++ replicate (records.length - receivers.length) none).filter
      Option.isSome = receivers.filter Option.isSome := by
    rw [filter_append, filter_replicate_of_neg (by simp), append_nil]
  have hle := length_filter_le Option.isSome receivers
  rw [hfilter] at hcounts
  dsimp only [report] at hcounts ⊢
  omega

end

end

/-! ## How long the enqueue loop takes -/

/-- `QUEUE_PUSH_TIMEOUT`, in milliseconds. -/
def queuePushTimeout : Nat := 5000

/-- What one record meets at its partition: a slot that is free after some time, or no
receiver left. -/
inductive Partition
  | frees (after : Nat)
  | disconnected
  deriving DecidableEq

/-- `QueueSender::try_push` and `QueueSender::push_timeout` there. -/
def Partition.io : Partition → EnqueueIo
  | .frees after => ⟨after = 0, .ok (after < queuePushTimeout)⟩
  | .disconnected => ⟨false, .ok false⟩

/-- The time the two take. -/
def Partition.spent : Partition → Nat
  | .frees after => min after queuePushTimeout
  | .disconnected => 0

/-- The time `handle_push_batch` spends enqueuing: what each record takes that it came to. -/
def enqueueTime (cfg : ConnectionConfig) (durability : Durability) (tx : Nat)
    (partition : Nat → Partition) (records : List Bytes) : Nat :=
  match (enqueueAll cfg durability tx (fun i => (partition i).io) 0 records).1 with
  | .ok receivers => ((List.range receivers.length).map fun i => (partition i).spent).sum
  | .error _ => 0

/-- How many of the first `n` records find the partition full. -/
def fullAmong (full : Nat → Bool) (n : Nat) : Nat := ((List.range n).filter full).length

/-- A batch that meets a full partition only where `full` has it. -/
def FullOnly (full : Nat → Bool) (partition : Nat → Partition) : Prop :=
  ∀ i, partition i ≠ .frees 0 → full i = true

/-- Each record that finds the partition full costs one timeout at most, the others nothing. -/
theorem spent_le {full : Nat → Bool} {partition : Nat → Partition}
    (h : FullOnly full partition) (n : Nat) :
    ((List.range n).map fun i => (partition i).spent).sum
      ≤ fullAmong full n * queuePushTimeout := by
  unfold fullAmong
  induction n with
  | zero => exact Nat.zero_le _
  | succ n ih =>
    rw [range_succ, map_append, sum_append, filter_append, length_append,
      Nat.add_mul]
    refine Nat.add_le_add ih ?_
    by_cases hfree : partition n = .frees 0
    · simp [hfree, Partition.spent]
    · have hle : (partition n).spent ≤ queuePushTimeout := by
        cases partition n with
        | frees after => exact Nat.min_le_right ..
        | disconnected => exact Nat.zero_le _
      rw [filter_cons_of_pos (h n hfree)]
      simpa using hle

/-- The partition that frees a slot just before each wait of a record in `full` would end. -/
def lastMoment (full : Nat → Bool) (i : Nat) : Partition :=
  .frees (if full i then queuePushTimeout - 1 else 0)

theorem lastMoment_fullOnly (full : Nat → Bool) : FullOnly full (lastMoment full) := by
  intro i hfull
  by_contra hnot
  exact hfull (by simp [lastMoment, hnot])

theorem lastMoment_pushed (full : Nat → Bool) (i : Nat) :
    (lastMoment full i).io.pushed = .ok true := by
  by_cases h : full i <;> simp [lastMoment, h, Partition.io, EnqueueIo.pushed, queuePushTimeout]

section

variable (cfg : ConnectionConfig) (durability : Durability) (tx : Nat)

/-- A loop whose pushes all go through gets to every record. -/
theorem enqueueAll_all {io : Nat → EnqueueIo} (h : ∀ i, (io i).pushed = .ok true)
    (records : List Bytes) (i : Nat) :
    ∃ receivers, (enqueueAll cfg durability tx io i records).1 = .ok receivers ∧
      receivers.length = records.length := by
  induction records generalizing i with
  | nil => exact ⟨[], rfl, rfl⟩
  | cons record rest ih =>
    obtain ⟨receivers, hok, hlen⟩ := ih (i + 1)
    refine ⟨some (tx + i) :: receivers, ?_, by rw [length_cons, hlen, length_cons]⟩
    rw [enqueueAll, h i]
    dsimp only
    rw [hok]
    rfl

/-- A wait after another, for each record that finds the partition full. -/
theorem enqueueTime_lastMoment (full : Nat → Bool) (records : List Bytes) :
    enqueueTime cfg durability tx (lastMoment full) records
      = fullAmong full records.length * (queuePushTimeout - 1) := by
  obtain ⟨receivers, hok, hlen⟩ :=
    enqueueAll_all cfg durability tx (lastMoment_pushed full) records 0
  rw [enqueueTime, hok]
  dsimp only
  rw [hlen]
  unfold fullAmong
  induction records.length with
  | zero => exact (zero_mul _).symm
  | succ n ih =>
    rw [range_succ, map_append, sum_append, ih, filter_append,
      length_append, Nat.add_mul]
    by_cases h : full n <;> simp [h, lastMoment, Partition.spent]

theorem fullAmong_mono (full : Nat → Bool) {m n : Nat} (h : m ≤ n) :
    fullAmong full m ≤ fullAmong full n :=
  ((range_sublist.mpr h).filter full).length_le

/-- The loop comes to the records of the batch at most, and waits for those that find the
partition full. -/
theorem enqueueTime_le {full : Nat → Bool} {partition : Nat → Partition}
    (h : FullOnly full partition) (records : List Bytes) :
    enqueueTime cfg durability tx partition records
      ≤ fullAmong full records.length * queuePushTimeout := by
  unfold enqueueTime
  split
  next receivers hok =>
    obtain ⟨-, -, -, hlen⟩ :=
      enqueueAll_receivers (fun i => (partition i).io) records 0 receivers _ (Prod.ext hok rfl)
    exact le_trans (spent_le h _) (Nat.mul_le_mul_right _ (fullAmong_mono full hlen))
  · exact Nat.zero_le _

end

/-- A batch that the connection takes off its payload holds it for one timeout at most exactly
if one of its records at most can find the partition full. -/
theorem enqueueTime_bounded_iff (cfg : ConnectionConfig) (durability : Durability) (tx : Nat)
    (payload : Bytes) (full : Nat → Bool) :
    (∀ records, decodeBatchBody payload cfg.maxBatchRecords cfg.maxPayloadBytes = .ok records →
      ∀ partition, FullOnly full partition →
        enqueueTime cfg durability tx partition records ≤ queuePushTimeout) ↔
    ∀ records, decodeBatchBody payload cfg.maxBatchRecords cfg.maxPayloadBytes = .ok records →
      fullAmong full records.length ≤ 1 := by
  refine forall₂_congr fun records _ => ⟨fun h => ?_, fun h partition hp => ?_⟩
  · -- two slots that are freed at the last moment take almost two timeouts
    have htime := h _ (lastMoment_fullOnly full)
    rw [enqueueTime_lastMoment, queuePushTimeout] at htime
    omega
  · have hle := enqueueTime_le cfg durability tx hp records
    have hone := Nat.mul_le_mul_right queuePushTimeout h
    omega

/-- Two records of one byte, and a partition that frees a slot just before each wait would
end: the connection is held for 9998 ms. -/
theorem enqueueTime_two_records :
    decodeBatchBody [1, 2, 0, 1, 0, 0, 0, 7, 1, 0, 0, 0, 8] 100 100 = .ok [[7], [8]] ∧
      enqueueTime ⟨100, 100, 0, 0⟩ .durable 0 (lastMoment fun _ => true) [[7], [8]] = 9998 := by
  refine ⟨by decide +kernel, ?_⟩
  rw [enqueueTime_lastMoment]
  rfl

end Weir.Server

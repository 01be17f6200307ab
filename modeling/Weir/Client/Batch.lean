import Weir.Client.Exchange
import Weir.Server.Push

/-!
# A batch from the queue to the client

The server's reply to a batch holds a bit for each record. It goes over the wire as a
bitmap, and the client reads it back for as many records as it sent.

> `pushBatch_outcome`: a client whose batch is answered returns the server's list.

> `ack_batch_truthful`: so a record the client is told is durable was enqueued, and its
> own channel resolved durable.
-/

namespace Weir.Client

open Weir.Lib Weir.Wab Weir.Wire Weir.Server

/-- The client reads back the list the server answered with, for every length it sends. -/
theorem WeirClient.pushBatch_outcome {c : WeirClient} {records : List Bytes}
    {durability : Durability} {accepted : List Bool} (husable : c.isPoisoned = false)
    (hfits : BatchFits records) (hlen : accepted.length = records.length)
    (hanswered : Answered c (batchRequest records durability)
      (Response.ackBatch accepted).envelope) :
    (c.pushBatch records durability).1 = .ok accepted := by
  have hpos : 0 < accepted.length := hlen ▸ List.length_pos_iff.mpr hfits.nonempty
  have hcount : accepted.length ≤ maxBatchRecordsHardCap := hlen ▸ hfits.count
  have hsmall : accepted.length < 2 ^ 16 := lt_of_le_of_lt hcount (by decide)
  obtain ⟨s, hsend⟩ := sendFrame_answered hanswered
  have hdec : decodeAckBatch (encodeAckBatch accepted) records.length = .ok accepted :=
    hlen ▸ decodeAckBatch_encode hpos hsmall
  unfold pushBatch
  rw [ensureUsable_of husable]
  rw [if_neg hfits.nonempty, if_neg (not_lt.mpr hfits.count), hfits.sizes]
  rw [show Envelope.new (.new .pushBatch durability 0) (encodeBatchBody records)
    = batchRequest records durability from rfl, hsend]
  have htype : (Response.ackBatch accepted).envelope.header.messageType = .ackBatch := rfl
  have hpayload : (Response.ackBatch accepted).envelope.payload = encodeAckBatch accepted := rfl
  dsimp only
  rw [htype]
  rw [hpayload, hdec]

/-- The reply to a batch is truthful. Whatever the queue takes, the flusher acks or drops and
the deadline cuts off, the units handed over are the first records on channels of their own;
a batch that is answered has a bit set only for a record that was handed over and whose own
channel resolved durable; the counters stay above zero and add up to the batch; and the
client returns the same list. A batch goes unanswered only where a task of the runtime
failed. -/
theorem ack_batch_truthful (cfg : ConnectionConfig) (durability : Durability)
    (records : List Bytes) (tx : Nat) (io : PushIo) :
    let pushed := handlePushBatch cfg durability records tx io
    pushed.units.map (·.unit.payload) <+: records ∧
    pushed.units.map (·.unit.ackTx) = List.range' tx pushed.units.length ∧
    match pushed.result with
    | .error _ => ∃ i e, (io.enqueue i).pushTimeout = .error e
    | .ok r =>
      r.accepted.length = records.length ∧
      (∀ i : Nat, r.accepted[i]? = some true → i < pushed.units.length ∧
        ∃ outcome, io.acks (tx + i) = .resolved outcome ∧ outcome.durable = true) ∧
      (r.enqueuedOk ≤ records.length ∧ r.acked ≤ r.enqueuedOk ∧
        r.writeFailed ≤ r.enqueuedOk - r.acked ∧
        r.senderDropped ≤ r.enqueuedOk - r.acked - r.writeFailed ∧ r.acked ≤ records.length) ∧
      r.acked + r.queueFull + r.writeFailed + r.senderDropped + r.ackTimeout = records.length ∧
      ∀ c : WeirClient, c.isPoisoned = false → BatchFits records →
        Answered c (batchRequest records durability) (Response.ackBatch r.accepted).envelope →
        (c.pushBatch records durability).1 = .ok r.accepted := by
  obtain ⟨hpayloads, hchannels⟩ := handlePushBatch_units cfg durability tx records io
  refine ⟨hpayloads, hchannels, ?_⟩
  split
  next e h =>
    by_contra hnone
    have hjoin : ∀ i, ∃ pushed, (io.enqueue i).pushTimeout = .ok pushed := by
      intro i
      cases hi : (io.enqueue i).pushTimeout with
      | error e => exact absurd ⟨i, e, hi⟩ hnone
      | ok pushed => exact ⟨pushed, rfl⟩
    obtain ⟨r, hr⟩ := handlePushBatch_ok cfg durability tx records hjoin
    rw [hr] at h
    cases h
  next r h =>
    obtain ⟨hlen, htrue⟩ := handlePushBatch_truthful h
    obtain ⟨h₁, h₂, h₃, h₄, h₅, hsum⟩ := handlePushBatch_counts h
    exact ⟨hlen, htrue, ⟨h₁, h₂, h₃, h₄, h₅⟩, hsum, fun c husable hfits hanswered =>
      WeirClient.pushBatch_outcome husable hfits hlen hanswered⟩

/-- Nine records: the flusher refuses the second one, drops the third, and the queue is full at
the last one. -/
def partialBatch : PushIo where
  enqueue i := ⟨decide (i < 8), .ok false⟩
  acks rx := if rx = 4 then .resolved ⟨false, none⟩ else if rx = 5 then .dropped
    else .resolved (.durableAt none)

theorem ack_batch_truthful_partial :
    let pushed := handlePushBatch ⟨1024, 16, 0, 0⟩ .durable (List.replicate 9 [7]) 3 partialBatch
    ∃ r, pushed.result = .ok r ∧ pushed.units.length = 8 ∧
      r.accepted = [true, false, false, true, true, true, true, true, false] ∧
      r.acked + r.queueFull + r.writeFailed + r.senderDropped + r.ackTimeout = 9 ∧
      decodeAckBatch (encodeAckBatch r.accepted) 9 = .ok r.accepted := by
  have h := (ack_batch_truthful ⟨1024, 16, 0, 0⟩ .durable (List.replicate 9 [7]) 3 partialBatch).2.2
  exact ⟨_, rfl, rfl, rfl, h.2.2.2.1, by decide +kernel⟩

end Weir.Client

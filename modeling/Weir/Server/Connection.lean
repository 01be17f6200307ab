import Weir.Lib.Stream
import Weir.Server.Push

/-!
# A connection (`weir-server/src/socket/connection.rs`: `handle_connection`)

The handler reads a frame, answers it and reads the next one, until a read fails or a
branch of the source returns. What it meets is given: the stream, whose chunks may be
cut anywhere and which may fail or be interrupted by the timeout or the shutdown, and
for each frame what the queue, the flusher and the write do.

> `handleFrame_answers`: after a frame that keeps the connection, exactly its bytes
> were taken, and they are a whole valid frame.

> `connection_protocol`: over a whole connection, one response for each frame answered,
> in order; the connection goes on just behind the responses that keep it; and records
> are enqueued only from valid frames that were not refused, each at most once.
-/

namespace Weir.Server

open Weir.Lib Weir.Wab Weir.Wire Weir.Ingest Weir.Drain List

/-- What can end the wait for a read other than its bytes. -/
inductive Disturbance
  | error (e : IoError)
  | elapsed
  | shutdown
  deriving DecidableEq, Repr

abbrev Stream := BufReader UInt8 Disturbance

/-- The buffer of a `tokio::io::BufReader`. -/
def bufCapacity : Nat := 8192

theorem bufCapacity_pos : 0 < bufCapacity := by decide

def payloadPreallocCap : Nat := 64 * 1024

/-- What one frame meets: whether the shutdown was signalled before it, the gauges at the
admission check, the queue and the acks, and how the write of the response fails, behind
how many of its bytes. -/
structure FrameIo where
  shutdown : Bool
  gauges : Gauges
  push : PushIo
  write : Option (Nat × IoError)

/-- What the handler did for one frame: the bytes it took, the response it sent and the
bytes of it that were written, the units in the queue, the internal nacks it counted, what
it returned if it did, and the stream and the next ack channel behind it. -/
structure Turn where
  taken : Bytes
  answer : Option Response
  written : Bytes
  units : List Routed
  internal : List (NackInternalCause × Nat)
  returned : Option (Except IoError Unit)
  stream : Stream
  nextTx : Nat

/-- The handler returns without a response. -/
def Turn.stop (taken : Bytes) (units : List Routed) (result : Except IoError Unit) (r : Stream)
    (tx : Nat) : Turn :=
  ⟨taken, none, [], units, [], some result, r, tx⟩

/-- The handler sends a response, and goes on or returns as the source does there. A failed
write ends the connection. -/
def Turn.reply (io : FrameIo) (goesOn : Bool) (taken : Bytes) (resp : Response)
    (units : List Routed) (internal : List (NackInternalCause × Nat)) (r : Stream)
    (tx : Nat) : Turn :=
  match io.write with
  | some (k, e) => ⟨taken, none, resp.frame.take k, units, internal, some (.error e), r, tx⟩
  | none =>
    ⟨taken, some resp, resp.frame, units, internal, if goesOn then none else some (.ok ()), r, tx⟩

/-- What `handle_connection` makes of a failed header read. -/
def headerExit : Short Disturbance → Except IoError Unit
  | .eof | .failed .elapsed | .failed .shutdown => .ok ()
  | .failed (.error e) =>
    if e.kind = .unexpectedEof ∨ e.kind = .connectionReset then .ok () else .error e

/-- What it makes of a failed read behind the header. -/
def bodyExit : Short Disturbance → Except IoError Unit
  | .eof => .error (.new .unexpectedEof "early eof")
  | .failed (.error e) => .error e
  | .failed .elapsed | .failed .shutdown => .ok ()

/-- `nack_for_decode_error`, without the metric. -/
def nackForDecodeError : DecodeError → NackReason × Bytes
  | .badMagic => (.badMagic, [])
  | .versionMismatch _ _ => (.versionMismatch, [wireVersion])
  | .headerCrcMismatch _ _ => (.badHeaderCrc, [])
  | .unknownMessageType _ | .unknownDurability _ => (.unknownMessage, [])
  | .reservedFlagsSet _ => (.reservedFlagsSet, [])
  | _ => (.internalError, [])

/-- The reason a malformed batch is refused with. -/
def nackForBatchError : BatchError → NackReason
  | .emptyRecord _ => .emptyPayload
  | .tooManyRecords _ _ | .recordTooLarge _ _ _ => .payloadTooLarge
  | _ => .badBatchFraming

/-- `is_push`. -/
def isPush : MessageType → Bool
  | .push | .pushTracked | .pushBatch => true
  | _ => false

/-- A full read in two parts, as of a payload: up to `cap`, which is allocated ahead, and the
rest once that has come. -/
def readInParts (cap n : Nat) (r : Stream) : Taken Stream UInt8 Disturbance :=
  let first := r.readExact bufCapacity (min n cap)
  if first.error.isSome ∨ n ≤ cap then first
  else
    let rest := first.rest.readExact bufCapacity (n - cap)
    { rest with got := first.got ++ rest.got }

/-- The arm of a `Push` or `PushTracked`; `taken` is the frame. -/
def pushFrame (sha : Sha256) (cfg : ConnectionConfig) (io : FrameIo) (tx : Nat) (header : Header)
    (payload taken : Bytes) (r : Stream) : Turn :=
  match (admissionRefusal cfg io.gauges).1 with
  | some refusal =>
    .reply io true taken (.nack .internalError []) [] (countInternalNack refusal.cause 1) r tx
  | none =>
    match handlePush sha cfg header.durability payload
      (decide (header.messageType = .pushTracked)) tx io.push with
    | ⟨.error e, units, _⟩ => .stop taken units (.error e) r (tx + 1)
    | ⟨.ok resp, units, internal⟩ => .reply io true taken resp units internal r (tx + 1)

/-- The arm of a `PushBatch`. -/
def batchFrame (cfg : ConnectionConfig) (io : FrameIo) (tx : Nat) (header : Header)
    (payload taken : Bytes) (r : Stream) : Turn :=
  match (admissionRefusal cfg io.gauges).1 with
  | some refusal =>
    .reply io true taken (.nack .internalError []) [] (countInternalNack refusal.cause 1) r tx
  | none =>
    match decodeBatchBody payload cfg.maxBatchRecords cfg.maxPayloadBytes with
    | .error e => .reply io false taken (.nack (nackForBatchError e) []) [] [] r tx
    | .ok records =>
      match handlePushBatch cfg header.durability records tx io.push with
      | ⟨.error e, units, _⟩ => .stop taken units (.error e) r (tx + records.length)
      | ⟨.ok report, units, internal⟩ =>
        .reply io true taken (.ackBatch report.accepted) units internal r (tx + records.length)

/-- `handle_connection`'s `match` on the message type. -/
def dispatch (sha : Sha256) (cfg : ConnectionConfig) (io : FrameIo) (tx : Nat) (header : Header)
    (payload taken : Bytes) (r : Stream) : Turn :=
  match header.messageType with
  | .push | .pushTracked => pushFrame sha cfg io tx header payload taken r
  | .pushBatch => batchFrame cfg io tx header payload taken r
  | .healthCheck => .reply io true taken .healthCheckResponse [] [] r tx
  | _ => .reply io false taken (.nack .unknownMessage []) [] [] r tx

/-- One round of `handle_connection`'s loop. -/
def handleFrame (sha : Sha256) (cfg : ConnectionConfig) (io : FrameIo) (tx : Nat) (r : Stream) :
    Turn :=
  if io.shutdown then .stop [] [] (.ok ()) r tx
  else
    match r.readExact bufCapacity headerLen with
    | ⟨got, some short, r⟩ => .stop got [] (headerExit short) r tx
    | ⟨headerBuf, none, r⟩ =>
      match Header.decode headerBuf with
      | .error e =>
        let (reason, extra) := nackForDecodeError e
        .reply io false headerBuf (.nack reason extra) [] [] r tx
      | .ok header =>
        let payloadLen := header.payloadLen.toNat
        if payloadLen > min cfg.maxPayloadBytes maxPayloadHardCap then
          .reply io false headerBuf (.nack .payloadTooLarge []) [] [] r tx
        else if payloadLen = 0 ∧ isPush header.messageType = true then
          .reply io false headerBuf (.nack .emptyPayload []) [] [] r tx
        else
          match readInParts payloadPreallocCap payloadLen r with
          | ⟨got, some short, r⟩ => .stop (headerBuf ++ got) [] (bodyExit short) r tx
          | ⟨payload, none, r⟩ =>
            match r.readExact bufCapacity 4 with
            | ⟨got, some short, r⟩ => .stop (headerBuf ++ payload ++ got) [] (bodyExit short) r tx
            | ⟨crcBuf, none, r⟩ =>
              if UInt32.ofNat (leNat crcBuf) ≠ crc32 payload then
                .reply io false (headerBuf ++ payload ++ crcBuf) (.nack .badPayloadCrc [])
                  [] [] r tx
              else dispatch sha cfg io tx header payload (headerBuf ++ payload ++ crcBuf) r

/-! ## One frame -/

/-- The responses that keep the connection. -/
def Response.keeps : Response → Bool
  | .nack reason _ => decide (reason = .internalError)
  | _ => true

/-- The response fits a frame: a digest is 32 bytes, a batch is within its cap, and a nack
carries one more byte at most. -/
def Response.Bounded : Response → Prop
  | .ackTracked coordinate => coordinate.recordId.length = 32
  | .ackBatch accepted => accepted.length ≤ maxBatchRecordsHardCap
  | .nack _ extra => extra.length ≤ 1
  | _ => True

theorem Response.frame_decodes {resp : Response} (h : resp.Bounded) :
    Envelope.decode resp.frame = .ok resp.envelope := by
  refine Envelope.decode_encode _ (by cases resp <;> rfl) ?_
  cases resp with
  | ack | healthCheckResponse => exact Nat.zero_le _
  | ackTracked coordinate =>
    have hlen := coordinate.encode_length
    have hname := coordinate.bounded
    show coordinate.encode.length ≤ maxPayloadHardCap
    rw [hlen, show coordinate.recordId.length = 32 from h]
    unfold maxSegmentNameLen at hname
    unfold maxPayloadHardCap
    omega
  | ackBatch accepted =>
    have hle : accepted.length ≤ 2048 := h
    show (encodeAckBatch accepted).length ≤ maxPayloadHardCap
    rw [encodeAckBatch_length, bitmapLen, ackBatchHeaderLen, maxPayloadHardCap]
    omega
  | nack reason extra =>
    have hle : extra.length ≤ 1 := h
    show (reason.toByte :: extra).length ≤ maxPayloadHardCap
    rw [length_cons, maxPayloadHardCap]
    omega

/-- The records a frame pushes. -/
def frameRecords (cfg : ConnectionConfig) (e : Envelope) : Option (List Bytes) :=
  match e.header.messageType with
  | .push | .pushTracked => some [e.payload]
  | .pushBatch => (decodeBatchBody e.payload cfg.maxBatchRecords cfg.maxPayloadBytes).toOption
  | _ => none

/-- Units of a frame's records, on channels of their own from `tx` on. -/
structure Enqueues (cfg : ConnectionConfig) (io : FrameIo) (tx : Nat) (t : Turn) : Prop where
  records : t.units ≠ [] → ∃ e records, Envelope.decode t.taken = .ok e ∧
    (admissionRefusal cfg io.gauges).1 = none ∧ frameRecords cfg e = some records ∧
    t.units.map (·.unit.payload) <+: records
  channels : t.units.map (·.unit.ackTx) = List.range' tx t.units.length
  below : tx + t.units.length ≤ t.nextTx

/-- A digest is 32 bytes. -/
def Digests (sha : Sha256) : Prop := ∀ bs, (sha bs).length = 32

/-- What one round of the loop does: it takes what comes first; it sends a response or
nothing; it goes on just if the response keeps the connection, and has then taken one whole
frame. -/
structure Answers (sha : Sha256) (cfg : ConnectionConfig) (io : FrameIo) (tx : Nat) (r : Stream)
    (t : Turn) : Prop where
  taken : t.taken ++ t.stream.content = r.content
  answer : ∀ resp ∈ t.answer, t.written = resp.frame
  bounded : Digests sha → ∀ resp ∈ t.answer, resp.Bounded
  silent : t.answer = none → io.write = none → t.written = []
  goesOn : t.returned = none ↔ ∃ resp ∈ t.answer, resp.keeps = true
  whole : t.returned = none → ∃ e, Envelope.decode t.taken = .ok e
  enqueues : Enqueues cfg io tx t

section

variable {sha : Sha256} {cfg : ConnectionConfig} {io : FrameIo} {tx : Nat} {r r' : Stream}
  {units : List Routed} {tx' : Nat} {resp : Response}

theorem Answers.stop {taken : Bytes} {result : Except IoError Unit}
    (htaken : taken ++ r'.content = r.content)
    (henq : Enqueues cfg io tx (.stop taken units result r' tx')) :
    Answers sha cfg io tx r (.stop taken units result r' tx') :=
  ⟨htaken, by simp [Turn.stop], by simp [Turn.stop], fun _ _ => rfl, by simp [Turn.stop],
    by simp [Turn.stop], henq⟩

theorem Enqueues.none {t : Turn} (hunits : t.units = []) (htx : tx ≤ t.nextTx) :
    Enqueues cfg io tx t :=
  ⟨fun h => absurd hunits h, by rw [hunits]; rfl, by rw [hunits]; exact htx⟩

variable {internal : List (NackInternalCause × Nat)}

section

variable {taken : Bytes} (htaken : taken ++ r'.content = r.content)

include htaken

theorem Answers.reply {goesOn : Bool} (hbounded : Digests sha → resp.Bounded)
    (hkeeps : goesOn = resp.keeps) (hwhole : goesOn = true → ∃ e, Envelope.decode taken = .ok e)
    (henq : ∀ t : Turn, t.taken = taken → t.units = units → t.nextTx = tx' → Enqueues cfg io tx t) :
    Answers sha cfg io tx r (.reply io goesOn taken resp units internal r' tx') := by
  unfold Turn.reply
  split
  next k e hw =>
    refine ⟨htaken, by simp, by simp, fun _ hnone => ?_, by simp, by simp, henq _ rfl rfl rfl⟩
    rw [hnone] at hw
    cases hw
  · refine ⟨htaken, ?_, ?_, by simp, ?_, ?_, henq _ rfl rfl rfl⟩
    · intro resp' hresp
      rw [← Option.some.inj hresp]
    · intro hsha resp' hresp
      rw [← Option.some.inj hresp]
      exact hbounded hsha
    · subst hkeeps
      cases hk : resp.keeps <;> simp [hk]
    · intro hret
      refine hwhole ?_
      cases goesOn with
      | true => rfl
      | false => cases hret

/-- A refusal that closes the connection. -/
theorem Answers.refuse {reason : NackReason} {extra : Bytes} (hextra : extra.length ≤ 1)
    (hreason : reason ≠ .internalError) :
    Answers sha cfg io tx r (.reply io false taken (.nack reason extra) [] [] r' tx) :=
  .reply htaken (fun _ => hextra) (by simp [Response.keeps, hreason]) (by simp)
    fun _ _ hunits htx => .none hunits (le_of_eq htx.symm)

/-- A refusal that keeps it, of a whole frame. -/
theorem Answers.refuseKeeping {e : Envelope} (hwhole : Envelope.decode taken = .ok e) :
    Answers sha cfg io tx r (.reply io true taken (.nack .internalError []) [] internal r' tx) :=
  .reply htaken (fun _ => Nat.zero_le 1) rfl (fun _ => ⟨e, hwhole⟩)
    fun _ _ hunits htx => .none hunits (le_of_eq htx.symm)

end

theorem nackForDecodeError_closes {buf : Bytes} {e : DecodeError}
    (h : Header.decode buf = .error e) :
    (nackForDecodeError e).1 ≠ .internalError ∧ (nackForDecodeError e).2.length ≤ 1 := by
  unfold Header.decode at h
  split at h
  · cases h; exact ⟨by simp [nackForDecodeError], Nat.zero_le 1⟩
  split at h
  · split at h
    · cases h; exact ⟨by simp [nackForDecodeError], Nat.zero_le 1⟩
    split at h
    · cases h; exact ⟨by simp [nackForDecodeError], Nat.zero_le 1⟩
    · cases h; exact ⟨by simp [nackForDecodeError], Nat.zero_le 1⟩
    · split at h <;> cases h
      exact ⟨by simp [nackForDecodeError], Nat.zero_le 1⟩
  · cases h; exact ⟨by simp [nackForDecodeError], le_rfl⟩

theorem nackForBatchError_closes (e : BatchError) : nackForBatchError e ≠ .internalError := by
  cases e <;> simp [nackForBatchError]

/-- Every answer to a push keeps the connection. -/
theorem answerPush_keeps (sha : Sha256) (payload : Bytes) (tracked : Bool) (wait : AckWait) :
    (answerPush sha payload tracked wait).1.keeps = true ∧
      (Digests sha → (answerPush sha payload tracked wait).1.Bounded) := by
  have hnack : (Response.nack .internalError []).keeps = true ∧
      (Digests sha → (Response.nack .internalError []).Bounded) := ⟨rfl, fun _ => Nat.zero_le 1⟩
  cases wait with
  | dropped | elapsed => exact hnack
  | resolved outcome =>
    unfold answerPush
    dsimp only
    split
    · split
      · split
        next coordinate heq =>
          refine ⟨rfl, fun hsha => ?_⟩
          obtain ⟨slot, _, hnew⟩ := Option.map_eq_some_iff.mp heq
          unfold RecordCoordinate.new at hnew
          split at hnew
          · cases hnew
          · rw [← Except.ok.inj hnew]
            exact hsha _
        · exact hnack
      · exact ⟨rfl, fun _ => trivial⟩
    · exact hnack

variable (sha cfg tx) in
/-- The units of a push, and the record they carry. -/
theorem handlePush_units (durability : Durability) (payload : Bytes) (tracked : Bool)
    (push : PushIo) :
    (handlePush sha cfg durability payload tracked tx push).units = [] ∨
      (handlePush sha cfg durability payload tracked tx push).units
        = [⟨cfg.shardId, ⟨payload, durability, tracked, tx⟩⟩] := by
  unfold handlePush
  split
  · exact .inl rfl
  · exact .inl rfl
  · exact .inr rfl

theorem handlePush_keeps {durability : Durability}
    {payload : Bytes} {tracked : Bool} {push : PushIo}
    (h : (handlePush sha cfg durability payload tracked tx push).result = .ok resp) :
    resp.keeps = true ∧ (Digests sha → resp.Bounded) := by
  unfold handlePush at h
  split at h
  · cases h
  · cases h; exact ⟨rfl, fun _ => Nat.zero_le 1⟩
  · cases h; exact answerPush_keeps sha payload tracked _

variable {e : Envelope} {taken : Bytes}

theorem pushFrame_answers (hmt : e.header.messageType = .push ∨ e.header.messageType = .pushTracked)
    (htaken : taken ++ r'.content = r.content) (hwhole : Envelope.decode taken = .ok e) :
    Answers sha cfg io tx r (pushFrame sha cfg io tx e.header e.payload taken r') := by
  unfold pushFrame
  split
  · exact .refuseKeeping htaken hwhole
  rename_i hadmitted
  have hframe : frameRecords cfg e = some [e.payload] := by
    unfold frameRecords
    rcases hmt with h | h <;> rw [h]
  generalize htracked : decide (e.header.messageType = .pushTracked) = tracked
  have hunits := handlePush_units sha cfg tx e.header.durability e.payload tracked io.push
  have henq : ∀ t : Turn, t.taken = taken →
      t.units = (handlePush sha cfg e.header.durability e.payload tracked tx io.push).units →
      t.nextTx = tx + 1 → Enqueues cfg io tx t := by
    intro t htk ht htx
    rcases hunits with hu | hu
    · exact .none (ht.trans hu) (by omega)
    rw [hu] at ht
    refine ⟨fun _ => ⟨e, _, htk ▸ hwhole, hadmitted, hframe, ?_⟩, ?_, ?_⟩
    · rw [ht]
      exact prefix_refl _
    · rw [ht]
      rfl
    · rw [ht, htx]
      exact le_rfl
  split
  next err units _ heq =>
    rw [heq] at henq
    exact .stop htaken (henq _ rfl rfl rfl)
  next resp units internal heq =>
    have hres : (handlePush sha cfg e.header.durability e.payload tracked tx io.push).result
        = .ok resp := by rw [heq]
    obtain ⟨hkeeps, hbounded⟩ := handlePush_keeps hres
    rw [heq] at henq
    exact .reply htaken hbounded hkeeps.symm (fun _ => ⟨e, hwhole⟩) henq

theorem batchFrame_answers (hmt : e.header.messageType = .pushBatch)
    (htaken : taken ++ r'.content = r.content) (hwhole : Envelope.decode taken = .ok e) :
    Answers sha cfg io tx r (batchFrame cfg io tx e.header e.payload taken r') := by
  unfold batchFrame
  split
  · exact .refuseKeeping htaken hwhole
  rename_i hadmitted
  split
  next err _ => exact .refuse htaken (Nat.zero_le 1) (nackForBatchError_closes err)
  next records hrecords =>
    have hframe : frameRecords cfg e = some records := by
      rw [frameRecords, hmt, hrecords]
      rfl
    have hbounds := decodeBatchBody_bounds hrecords
    obtain ⟨hpre, hchannels⟩ :=
      handlePushBatch_units cfg e.header.durability tx records io.push
    have henq : ∀ t : Turn, t.taken = taken →
        t.units = (handlePushBatch cfg e.header.durability records tx io.push).units →
        t.nextTx = tx + records.length → Enqueues cfg io tx t := by
      intro t htk hunits htx
      have hlen := hpre.length_le
      rw [length_map] at hlen
      refine ⟨fun _ => ⟨e, records, htk ▸ hwhole, hadmitted, hframe, hunits ▸ hpre⟩,
        hunits ▸ hchannels, ?_⟩
      rw [hunits, htx]
      omega
    split
    next err units _ heq =>
      rw [heq] at henq
      exact .stop htaken (henq _ rfl rfl rfl)
    next report units internal heq =>
      have hres : (handlePushBatch cfg e.header.durability records tx io.push).result
          = .ok report := by rw [heq]
      have haccepted := (handlePushBatch_truthful hres).1
      rw [heq] at henq
      refine .reply htaken (fun _ => ?_) rfl (fun _ => ⟨e, hwhole⟩) henq
      show report.accepted.length ≤ maxBatchRecordsHardCap
      omega

/-- Each arm answers as the loop does for a whole frame. -/
theorem dispatch_answers (htaken : taken ++ r'.content = r.content)
    (hwhole : Envelope.decode taken = .ok e) :
    Answers sha cfg io tx r (dispatch sha cfg io tx e.header e.payload taken r') := by
  unfold dispatch
  split
  next hmt => exact pushFrame_answers (.inl hmt) htaken hwhole
  next hmt => exact pushFrame_answers (.inr hmt) htaken hwhole
  next hmt => exact batchFrame_answers hmt htaken hwhole
  · exact .reply htaken (fun _ => trivial) rfl (fun _ => ⟨e, hwhole⟩)
      fun _ _ hunits htx => .none hunits (le_of_eq htx.symm)
  · exact .refuse htaken (Nat.zero_le 1) (by simp)

theorem readInParts_took (cap n : Nat) (r : Stream) :
    (readInParts cap n r).got ++ (readInParts cap n r).rest.content = r.content ∧
      ((readInParts cap n r).error = none → (readInParts cap n r).got.length = n) := by
  obtain ⟨hgot, hlen⟩ := r.readExact_took bufCapacity (min n cap)
  unfold readInParts
  dsimp only
  split
  next hdone =>
    refine ⟨hgot, fun hnone => ?_⟩
    have hle : n ≤ cap := by
      rcases hdone with hs | hle
      · rw [hnone] at hs
        cases hs
      · exact hle
    rw [hlen hnone]
    omega
  next hmore =>
    obtain ⟨hsome, hlt⟩ := not_or.mp hmore
    obtain ⟨hgot', hlen'⟩ := (r.readExact bufCapacity (min n cap)).rest.readExact_took bufCapacity
      (n - cap)
    refine ⟨?_, fun hnone => ?_⟩
    · rw [append_assoc, hgot', hgot]
    · rw [length_append, hlen (by simpa using hsome), hlen' hnone]
      omega

/-- One round of the loop, on any stream and whatever it meets. -/
theorem handleFrame_answers (sha : Sha256) (cfg : ConnectionConfig) (io : FrameIo) (tx : Nat)
    (r : Stream) : Answers sha cfg io tx r (handleFrame sha cfg io tx r) := by
  have hstop : ∀ {taken : Bytes} {result : Except IoError Unit} {r' : Stream},
      taken ++ r'.content = r.content → Answers sha cfg io tx r (.stop taken [] result r' tx) :=
    fun h => .stop h (.none rfl (le_rfl))
  unfold handleFrame
  split
  · exact hstop rfl
  obtain ⟨hheader, hheaderLen⟩ := r.readExact_took bufCapacity headerLen
  split
  next got short r₁ heq =>
    rw [heq] at hheader
    exact hstop hheader
  rename_i headerBuf r₁ heq
  rw [heq] at hheader hheaderLen
  split
  next err hdec =>
    obtain ⟨hcloses, hextra⟩ := nackForDecodeError_closes hdec
    exact .refuse hheader hextra hcloses
  rename_i header hdec
  dsimp only
  split
  · exact .refuse hheader (Nat.zero_le 1) (by simp)
  rename_i hcap
  split
  · exact .refuse hheader (Nat.zero_le 1) (by simp)
  obtain ⟨hpayload, hpayloadLen⟩ :=
    readInParts_took payloadPreallocCap header.payloadLen.toNat r₁
  split
  next got short r₂ heq₂ =>
    rw [heq₂] at hpayload
    exact hstop (by rw [append_assoc, hpayload]; exact hheader)
  rename_i payload r₂ heq₂
  rw [heq₂] at hpayload hpayloadLen
  obtain ⟨hcrc, hcrcLen⟩ := r₂.readExact_took bufCapacity 4
  split
  next got short r₃ heq₃ =>
    rw [heq₃] at hcrc
    exact hstop (by rw [append_assoc, hcrc, append_assoc, hpayload]; exact hheader)
  rename_i crcBuf r₃ heq₃
  rw [heq₃] at hcrc hcrcLen
  have htaken : headerBuf ++ payload ++ crcBuf ++ r₃.content = r.content := by
    rw [append_assoc, hcrc, append_assoc, hpayload]
    exact hheader
  split
  · exact .refuse htaken (Nat.zero_le 1) (by simp)
  rename_i hmatch
  have hlen : payload.length = header.payloadLen.toNat := hpayloadLen rfl
  exact dispatch_answers htaken (Envelope.decode_parts (hheaderLen rfl) hdec hlen
    (by omega) (hcrcLen rfl) (not_not.mp hmatch))

/-! ## Undisturbed frames -/

/-- No shutdown, no failed write, and no failure of the blocking push's task. -/
structure FrameIo.Calm (io : FrameIo) : Prop where
  awake : io.shutdown = false
  writes : io.write = none
  joins : ∀ i, ∃ pushed, (io.push.enqueue i).pushTimeout = .ok pushed

/-- The round sent a response, and left the stream as `r'`. -/
def Turn.Responded (t : Turn) (r' : Stream) : Prop := t.answer ≠ none ∧ t.stream = r'

theorem Turn.reply_responded (hio : io.Calm) {goesOn : Bool} :
    (Turn.reply io goesOn taken resp units internal r' tx').Responded r' := by
  rw [Turn.reply, hio.writes]
  exact ⟨by simp, rfl⟩

/-- Undisturbed, a whole frame is answered. -/
theorem dispatch_responded (hio : io.Calm) (sha : Sha256) (header : Header) (payload : Bytes) :
    (dispatch sha cfg io tx header payload taken r').Responded r' := by
  have hpush : (pushFrame sha cfg io tx header payload taken r').Responded r' := by
    unfold pushFrame
    split
    · exact Turn.reply_responded hio
    split
    next err _ _ heq =>
      obtain ⟨pushed, hp⟩ := EnqueueIo.pushed_ok (hio.joins 0)
      rw [handlePush, hp] at heq
      cases pushed <;> cases heq
    · exact Turn.reply_responded hio
  unfold dispatch
  split
  · exact hpush
  · exact hpush
  · unfold batchFrame
    split
    · exact Turn.reply_responded hio
    split
    · exact Turn.reply_responded hio
    rename_i records _
    obtain ⟨report, hreport⟩ := handlePushBatch_ok cfg header.durability tx records hio.joins
    split
    next err _ _ heq => rw [heq] at hreport; cases hreport
    · exact Turn.reply_responded hio
  · exact Turn.reply_responded hio
  · exact Turn.reply_responded hio

theorem readInParts_calm (cap n : Nat) {r : Stream} (h : Calm r.inner) :
    Calm (readInParts cap n r).rest.inner ∧ ((readInParts cap n r).error = none ∨
      r.content.length < n ∧ (readInParts cap n r).rest.content = []) := by
  obtain ⟨hcalm, hend⟩ := BufReader.readExact_calm bufCapacity_pos (min n cap) r h
  unfold readInParts
  dsimp only
  split
  · exact ⟨hcalm, hend.imp id fun h => ⟨lt_of_lt_of_le h.2.1 (min_le_left ..), h.2.2⟩⟩
  next hmore =>
    obtain ⟨hsome, hlt⟩ := not_or.mp hmore
    obtain ⟨hgot, hlen⟩ := r.readExact_took bufCapacity (min n cap)
    obtain ⟨hcalm', hend'⟩ := BufReader.readExact_calm bufCapacity_pos (n - cap) _ hcalm
    refine ⟨hcalm', hend'.imp id fun h => ⟨?_, h.2.2⟩⟩
    have hrest := h.2.1
    rw [← hgot, length_append, hlen (by simpa using hsome)]
    omega

/-- Undisturbed, only the end of the stream inside a frame is left without an answer: no chunk
boundary ends a read. -/
theorem handleFrame_calm (sha : Sha256) (cfg : ConnectionConfig) {io : FrameIo} (hio : io.Calm)
    (tx : Nat) {r : Stream} (hr : Calm r.inner) :
    Calm (handleFrame sha cfg io tx r).stream.inner ∧
      ((handleFrame sha cfg io tx r).answer = none →
        (handleFrame sha cfg io tx r).stream.content = [] ∧
          ∀ e, Envelope.decode r.content ≠ .ok e) := by
  have hresponded : ∀ {t : Turn} {r' : Stream}, t.Responded r' → Calm r'.inner →
      Calm t.stream.inner ∧ (t.answer = none →
        t.stream.content = [] ∧ ∀ e, Envelope.decode r.content ≠ .ok e) :=
    fun h hcalm => ⟨h.2 ▸ hcalm, fun hnone => absurd hnone h.1⟩
  unfold handleFrame
  rw [hio.awake, if_neg (by simp)]
  obtain ⟨hcalm₁, hend₁⟩ := BufReader.readExact_calm bufCapacity_pos headerLen r hr
  split
  next got short r₁ heq =>
    rw [heq] at hcalm₁ hend₁
    refine ⟨hcalm₁, fun _ => hend₁.elim (by simp) fun h => ⟨h.2.2, fun e he => ?_⟩⟩
    have hlen := Envelope.decode_length he
    omega
  next headerBuf r₁ heq =>
    obtain ⟨htook₁, hlen₁⟩ := r.readExact_took bufCapacity headerLen
    rw [heq] at hcalm₁ htook₁ hlen₁
    dsimp only at hcalm₁
    split
    · exact hresponded (Turn.reply_responded hio) hcalm₁
    rename_i header hdec
    have hshort : r₁.content.length < header.payloadLen.toNat + 4 →
        ∀ e, Envelope.decode r.content ≠ .ok e :=
      fun h => htook₁ ▸ Envelope.decode_short (hlen₁ rfl) hdec h
    dsimp only
    split
    · exact hresponded (Turn.reply_responded hio) hcalm₁
    split
    · exact hresponded (Turn.reply_responded hio) hcalm₁
    obtain ⟨hcalm₂, hend₂⟩ := readInParts_calm payloadPreallocCap header.payloadLen.toNat hcalm₁
    split
    next got short r₂ heq₂ =>
      rw [heq₂] at hcalm₂ hend₂
      exact ⟨hcalm₂, fun _ => hend₂.elim (by simp) fun h => ⟨h.2, hshort (by omega)⟩⟩
    next payload r₂ heq₂ =>
      obtain ⟨htook₂, hlen₂⟩ := readInParts_took payloadPreallocCap header.payloadLen.toNat r₁
      rw [heq₂] at hcalm₂ htook₂ hlen₂
      dsimp only at htook₂
      obtain ⟨hcalm₃, hend₃⟩ := BufReader.readExact_calm bufCapacity_pos 4 r₂ hcalm₂
      split
      next got short r₃ heq₃ =>
        rw [heq₃] at hcalm₃ hend₃
        refine ⟨hcalm₃, fun _ => hend₃.elim (by simp) fun h => ⟨h.2.2, hshort ?_⟩⟩
        rw [← htook₂, length_append, hlen₂ rfl]
        omega
      next crcBuf r₃ heq₃ =>
        rw [heq₃] at hcalm₃
        split
        · exact hresponded (Turn.reply_responded hio) hcalm₃
        · exact hresponded (dispatch_responded hio sha header payload) hcalm₃

/-! ## The connection -/

/-- A round that goes on has taken a frame. -/
theorem Answers.shrinks {t : Turn} (h : Answers sha cfg io tx r t) (hret : t.returned = none) :
    t.stream.content.length < r.content.length := by
  obtain ⟨e, he⟩ := h.whole hret
  have hlen := Envelope.decode_length he
  rw [← h.taken, length_append]
  omega

/-- `handle_connection`: round after round, as long as none returns. Frame `k` meets
`ios k`. -/
def handleConnection (sha : Sha256) (cfg : ConnectionConfig) (ios : Nat → FrameIo) (k tx : Nat)
    (r : Stream) : List Turn :=
  let t := handleFrame sha cfg (ios k) tx r
  if _h : t.returned = none then t :: handleConnection sha cfg ios (k + 1) t.nextTx t.stream
  else [t]
termination_by r.content.length
decreasing_by exact (handleFrame_answers sha cfg (ios k) tx r).shrinks _h

/-- The rounds of a connection, from round `k` and channel `tx` on, with the stream before
each. -/
inductive Converses (sha : Sha256) (cfg : ConnectionConfig) (ios : Nat → FrameIo) :
    Nat → Nat → Stream → List Turn → Prop
  | last {k tx : Nat} {r : Stream} {t : Turn} (ht : t = handleFrame sha cfg (ios k) tx r)
      (hret : t.returned ≠ none) : Converses sha cfg ios k tx r [t]
  | more {k tx : Nat} {r : Stream} {t : Turn} {ts : List Turn}
      (ht : t = handleFrame sha cfg (ios k) tx r) (hret : t.returned = none)
      (hts : Converses sha cfg ios (k + 1) t.nextTx t.stream ts) :
      Converses sha cfg ios k tx r (t :: ts)

theorem handleConnection_converses (sha : Sha256) (cfg : ConnectionConfig) (ios : Nat → FrameIo)
    (k tx : Nat) (r : Stream) :
    Converses sha cfg ios k tx r (handleConnection sha cfg ios k tx r) := by
  fun_induction handleConnection sha cfg ios k tx r with
  | case1 k tx r t hret ih => exact .more rfl hret ih
  | case2 k tx r t hret => exact .last rfl hret

variable {ios : Nat → FrameIo} {k : Nat} {ts : List Turn}

theorem Converses.ne_nil (h : Converses sha cfg ios k tx r ts) : ts ≠ [] := by
  cases h <;> simp

/-- A round of a connection: what came before it, whole frames that were taken, and whether
another one follows. -/
theorem Converses.round {pre post : List Turn} {t : Turn}
    (h : Converses sha cfg ios k tx r (pre ++ t :: post)) :
    ∃ tx' r', tx ≤ tx' ∧ t = handleFrame sha cfg (ios (k + pre.length)) tx' r' ∧
      r.content = pre.flatMap (·.taken) ++ r'.content ∧
      (Calm r.inner → (∀ i, (ios i).Calm) → Calm r'.inner) ∧
      (∀ u ∈ pre, ∃ e, Envelope.decode u.taken = .ok e) ∧ (post ≠ [] ↔ t.returned = none) := by
  induction pre generalizing k tx r with
  | nil =>
    cases h with
    | last ht hret =>
      exact ⟨tx, r, le_rfl, ht, rfl, fun h _ => h, by simp, by simp [hret]⟩
    | more ht hret hts =>
      exact ⟨tx, r, le_rfl, ht, rfl, fun h _ => h, by simp, by simp [hret, hts.ne_nil]⟩
  | cons u pre ih =>
    rw [cons_append] at h
    generalize hrest : pre ++ t :: post = rest at h
    cases h with
    | last ht hret => exact absurd hrest (by simp)
    | more hu hret hts =>
      rw [← hrest] at hts
      have ha := hu ▸ handleFrame_answers sha cfg (ios k) tx r
      obtain ⟨tx', r', htx, ht, hcontent, hcalm, hwhole, hpost⟩ := ih hts
      have hbelow := ha.enqueues.below
      refine ⟨tx', r', by omega, ?_, ?_, fun hr hios => ?_, ?_, hpost⟩
      · rw [ht, length_cons]
        congr 2
        omega
      · rw [← ha.taken, hcontent, flatMap_cons, append_assoc]
      · exact hcalm (hu ▸ (handleFrame_calm sha cfg (hios k) tx hr).1) hios
      · intro v hv
        rcases mem_cons.mp hv with rfl | hv
        · exact ha.whole hret
        · exact hwhole v hv

/-- The channels of a connection's units go up. -/
theorem Converses.channels (h : Converses sha cfg ios k tx r ts) :
    ((ts.flatMap (·.units)).map (·.unit.ackTx)).Pairwise (· < ·) ∧
      ∀ c ∈ (ts.flatMap (·.units)).map (·.unit.ackTx), tx ≤ c := by
  induction h with
  | @last k tx r t ht hret =>
    have ha := ht ▸ handleFrame_answers sha cfg (ios k) tx r
    rw [flatMap_singleton, ha.enqueues.channels]
    exact ⟨pairwise_lt_range' .., fun c hc => (mem_range'_1.mp hc).1⟩
  | @more k tx r t ts ht hret hts ih =>
    have ha := ht ▸ handleFrame_answers sha cfg (ios k) tx r
    have hbelow := ha.enqueues.below
    rw [flatMap_cons, map_append, ha.enqueues.channels]
    refine ⟨List.pairwise_append.mpr ⟨pairwise_lt_range' .., ih.1, fun a ha b hb => ?_⟩,
      fun c hc => ?_⟩
    · have hlt := (mem_range'_1.mp ha).2
      have hle := ih.2 b hb
      omega
    · rcases mem_append.mp hc with hc | hc
      · exact (mem_range'_1.mp hc).1
      · have hle := ih.2 c hc
        omega

/-- The bytes written are the frames of the responses, in order. -/
theorem Converses.written (h : Converses sha cfg ios k tx r ts) (hios : ∀ i, (ios i).Calm) :
    ts.flatMap (·.written) = (ts.filterMap (·.answer)).flatMap Response.frame := by
  have hone : ∀ {k tx : Nat} {r : Stream} {t : Turn} (ts : List Turn),
      t = handleFrame sha cfg (ios k) tx r →
      t.written ++ (ts.filterMap (·.answer)).flatMap Response.frame
        = ((t :: ts).filterMap (·.answer)).flatMap Response.frame := by
    intro k tx r t ts ht
    have ha := ht ▸ handleFrame_answers sha cfg (ios k) tx r
    cases hanswer : t.answer with
    | none =>
      rw [ha.silent hanswer (hios k).writes, filterMap_cons_none hanswer, nil_append]
    | some resp =>
      rw [ha.answer resp hanswer, filterMap_cons_some hanswer, flatMap_cons]
  induction h with
  | last ht hret => rw [← hone [] ht, flatMap_singleton]; simp
  | more ht hret hts ih => rw [← hone _ ht, flatMap_cons, ih]

end

/-- A connection that nothing disturbs, whatever the client sends and however it is cut into
chunks. Each round writes one response frame or nothing, in the order of the frames; behind
a round comes another one just if its response keeps the connection, and then the bytes of
whole frames, one for each round, and no others were taken; a round without a response is
the end of the stream, with less than a frame left; and what a round enqueues are the first
records of a valid frame that was admitted, each unit on an ack channel of its own. -/
theorem connection_protocol {sha : Sha256} (hsha : Digests sha) (cfg : ConnectionConfig)
    {ios : Nat → FrameIo} (hios : ∀ i, (ios i).Calm) {chunks : List Bytes}
    (hchunks : ∀ c ∈ chunks, c ≠ []) :
    let turns := handleConnection sha cfg ios 0 0 ⟨[], chunks.map .chunk⟩
    turns.flatMap (·.written) = (turns.filterMap (·.answer)).flatMap Response.frame ∧
    ((turns.flatMap (·.units)).map (·.unit.ackTx)).Nodup ∧
    ∀ pre t post, turns = pre ++ t :: post →
      (∀ resp ∈ t.answer, Envelope.decode resp.frame = .ok resp.envelope) ∧
      (post ≠ [] ↔ ∃ resp ∈ t.answer, resp.keeps = true) ∧
      (post ≠ [] → (∀ u ∈ pre ++ [t], ∃ e, Envelope.decode u.taken = .ok e) ∧
        chunks.flatten = (pre ++ [t]).flatMap (·.taken) ++ t.stream.content) ∧
      (t.answer = none → chunks.flatten = (pre ++ [t]).flatMap (·.taken) ∧
        ∀ e, Envelope.decode t.taken ≠ .ok e) ∧
      (t.units ≠ [] → ∃ e records, Envelope.decode t.taken = .ok e ∧
        (admissionRefusal cfg (ios pre.length).gauges).1 = none ∧
        frameRecords cfg e = some records ∧ t.units.map (·.unit.payload) <+: records) := by
  have hconv := handleConnection_converses sha cfg ios 0 0 ⟨[], chunks.map .chunk⟩
  have hcontent : (⟨[], chunks.map .chunk⟩ : Stream).content = chunks.flatten := by
    rw [BufReader.content, nil_append, content, flatMap_map]
    exact flatMap_id
  have hcalm : Calm (⟨[], chunks.map .chunk⟩ : Stream).inner := by
    intro a ha
    obtain ⟨c, hc, rfl⟩ := mem_map.mp ha
    cases c with
    | nil => exact absurd rfl (hchunks [] hc)
    | cons x xs => exact ⟨x, xs, rfl⟩
  refine ⟨hconv.written hios, hconv.channels.1.imp ne_of_lt, fun pre t post hturns => ?_⟩
  rw [hturns] at hconv
  obtain ⟨tx, r, _, ht, hbefore, hcalm', hwhole, hpost⟩ := hconv.round
  rw [zero_add] at ht
  have ha := ht ▸ handleFrame_answers sha cfg (ios pre.length) tx r
  have hconsumed : chunks.flatten = (pre ++ [t]).flatMap (·.taken) ++ t.stream.content := by
    rw [← hcontent, hbefore, ← ha.taken, flatMap_append, flatMap_singleton,
      append_assoc]
  refine ⟨?_, hpost.trans ha.goesOn, fun hne => ⟨fun u hu => ?_, hconsumed⟩, fun hnone => ?_,
    ha.enqueues.records⟩
  · exact fun resp hresp => Response.frame_decodes (ha.bounded hsha resp hresp)
  · rcases mem_append.mp hu with hu | hu
    · exact hwhole u hu
    · rw [mem_singleton.mp hu]
      exact ha.whole (hpost.mp hne)
  · have hend := handleFrame_calm sha cfg (hios pre.length) tx (hcalm' hcalm hios)
    rw [← ht] at hend
    obtain ⟨hnil, hshort⟩ := hend.2 hnone
    rw [← ha.taken, hnil, append_nil] at hshort
    exact ⟨by rw [hconsumed, hnil, append_nil], hshort⟩

/-! ### Two frames in three chunks -/

def constantSha : Sha256 := fun _ => replicate 32 0

def sampleConnection : ConnectionConfig := ⟨1024, 4, 0, 0⟩

/-- The queue has room, and the flusher acks. -/
def calmFrame : FrameIo where
  shutdown := false
  gauges := ⟨0, false, false⟩
  push := ⟨fun _ => ⟨true, .ok true⟩, fun _ => .resolved (.durableAt none)⟩
  write := none

/-- A health check and a push, cut inside their headers. -/
def splitChunks : List Bytes :=
  let check := (Envelope.new (.new .healthCheck .durable 0) []).encode
  let push := (Envelope.new (.new .push .durable 0) [7]).encode
  [check.take 3, check.drop 3 ++ push.take 5, push.drop 5]

set_option maxRecDepth 10000 in
theorem connection_protocol_split :
    let turns := handleConnection constantSha sampleConnection (fun _ => calmFrame) 0 0
      ⟨[], splitChunks.map .chunk⟩
    turns.map (·.answer) = [some .healthCheckResponse, some .ack, none] ∧
    turns.flatMap (·.written) = (turns.filterMap (·.answer)).flatMap Response.frame ∧
    ((turns.flatMap (·.units)).map (·.unit.ackTx)).Nodup := by
  have hsha : Digests constantSha := fun _ => length_replicate ..
  have hios : ∀ _ : Nat, calmFrame.Calm := fun _ => ⟨rfl, rfl, fun _ => ⟨true, rfl⟩⟩
  have hchunks : ∀ c ∈ splitChunks, c ≠ [] := by decide +kernel
  have h := connection_protocol hsha sampleConnection hios hchunks
  exact ⟨by decide +kernel, h.1, h.2.1⟩

end Weir.Server

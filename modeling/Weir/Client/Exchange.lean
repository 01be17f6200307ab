import Weir.Lib.Stream
import Weir.Wire.Payload

/-!
# The client (`weir-client/src/client.rs`)

A client writes one request frame and reads one response frame for each call. Its
socket is given by what the reads and the writes will meet; `taken` and `sent` record
the bytes that went by.

> `readResponse_spec`, `sendFrame_spec`: a reply that is returned is one whole frame
> behind one whole request, and anything else poisons the client.

> `push_exchanged`, `pushTracked_exchanged`, `pushBatch_exchanged`, `healthCheck_exchanged`:
> a method sends nothing, poisons the client, or exchanges one request for one reply, and
> its `Ok` is what that reply says.
-/

namespace Weir.Client

open Weir.Lib Weir.Wab Weir.Wire

/-! ## The socket -/

structure Socket where
  arrivals : List (Arrival UInt8 IoError)
  writes : List (WriteStep IoError)
  taken : Bytes
  sent : Bytes
  deriving DecidableEq

/-- `is_interrupted`. -/
def interrupted (e : IoError) : Bool := decide (e.kind = .interrupted)

/-- `stream.read_exact` into a buffer of `n` bytes. -/
def Socket.readExact (s : Socket) (n : Nat) : Except IoError Bytes × Socket :=
  match Lib.readExact interrupted n s.arrivals with
  | ⟨got, none, rest⟩ => (.ok got, { s with arrivals := rest, taken := s.taken ++ got })
  | ⟨got, some .eof, rest⟩ =>
    (.error (.new .unexpectedEof "failed to fill whole buffer"),
      { s with arrivals := rest, taken := s.taken ++ got })
  | ⟨got, some (.failed e), rest⟩ =>
    (.error e, { s with arrivals := rest, taken := s.taken ++ got })

/-- `stream.write_all`. -/
def Socket.writeAll (s : Socket) (frame : Bytes) : Except IoError Unit × Socket :=
  match Lib.writeAll interrupted
    (.new .writeZero "failed to write whole buffer") s.writes frame with
  | ⟨sent, none, rest⟩ => (.ok (), { s with writes := rest, sent := s.sent ++ sent })
  | ⟨sent, some e, rest⟩ => (.error e, { s with writes := rest, sent := s.sent ++ sent })

variable {s : Socket} {request reply : Envelope}
  {s' : Socket} {n : Nat} {got frame payload : Bytes} {resp : Envelope}

theorem Socket.readExact_ok (h : s.readExact n = (.ok got, s')) :
    got.length = n ∧ s'.taken = s.taken ++ got ∧ s'.sent = s.sent ∧
      Lib.readExact interrupted n s.arrivals = ⟨got, none, s'.arrivals⟩ := by
  have hlen := Lib.readExact_length interrupted s.arrivals n
  unfold Socket.readExact at h
  split at h
  next got' rest heq =>
    rw [heq] at hlen
    obtain ⟨h₁, rfl⟩ := Prod.mk.inj h
    cases h₁
    exact ⟨hlen rfl, rfl, rfl, heq⟩
  · cases h
  · cases h

theorem Socket.readExact_of {rest : List (Arrival UInt8 IoError)}
    (h : Lib.readExact interrupted n s.arrivals = ⟨got, none, rest⟩) :
    s.readExact n = (.ok got, { s with arrivals := rest, taken := s.taken ++ got }) := by
  rw [Socket.readExact, h]

/-- An empty read leaves the connection alone. -/
theorem Socket.readExact_pos (s : Socket) (n : Nat) :
    (if n > 0 then s.readExact n else (.ok [], s)) = s.readExact n := by
  split
  · rfl
  next h =>
    obtain rfl : n = 0 := Nat.eq_zero_of_not_pos h
    simp [Socket.readExact, Lib.readExact]

theorem Socket.writeAll_ok (h : s.writeAll frame = (.ok (), s')) :
    s'.sent = s.sent ++ frame ∧ s'.taken = s.taken := by
  have hsent := Lib.writeAll_sent interrupted (.new .writeZero "failed to write whole buffer")
    s.writes frame
  unfold Socket.writeAll at h
  split at h
  next sent rest heq =>
    rw [heq] at hsent
    cases h
    exact ⟨by rw [show sent = frame from hsent rfl], rfl⟩
  · cases h

/-! ## Errors and replies -/

inductive ClientError
  | io (e : IoError)
  | nack (reason : NackReason)
  | versionMismatch (daemonVersion : UInt8)
  | unknownNack (b : UInt8)
  | payloadTooLarge (len limit : Nat)
  | protocol (msg : String)
  | noDefaultDurability
  | emptyPayload
  deriving DecidableEq, Repr

structure WeirClient where
  stream : Socket
  defaultDurability : Option Durability
  poisoned : Bool
  closedAfterNack : Bool

def maxResponsePayloadLenOther : Nat := 2

/-- `max_response_payload_len`. -/
def maxResponsePayloadLen : MessageType → Nat
  | .ackTracked => maxTrackedAckPayloadLen
  | .ackBatch => maxAckBatchPayloadLen
  | _ => maxResponsePayloadLenOther

/-- `nack_error`. -/
def nackError : Bytes → ClientError
  | [] => .protocol "Nack frame had empty payload"
  | b :: rest =>
    match NackReason.tryFrom b with
    | some .versionMismatch =>
      match rest with
      | daemonVersion :: _ => .versionMismatch daemonVersion
      | [] => .nack .versionMismatch
    | some reason => .nack reason
    | none => .unknownNack b

namespace WeirClient

/-- `from_parts`. -/
def fromParts (stream : Socket) (defaultDurability : Option Durability) : WeirClient :=
  ⟨stream, defaultDurability, false, false⟩

/-- `is_poisoned`. -/
def isPoisoned (c : WeirClient) : Bool := c.poisoned || c.closedAfterNack

def poison (c : WeirClient) : WeirClient := { c with poisoned := true }

/-- `ensure_usable`. -/
def ensureUsable (c : WeirClient) : Except ClientError Unit :=
  if c.closedAfterNack then
    .error (.protocol ("connection closed by the daemon after a Nack; "
      ++ "drop this client and reconnect before sending again"))
  else if c.poisoned then
    .error (.protocol ("client connection poisoned by a prior response-read error/timeout; "
      ++ "drop this client and reconnect before sending again"))
  else .ok ()

/-- `read_response_inner`. -/
def readResponseInner (c : WeirClient) : Except ClientError Envelope × WeirClient :=
  match c.stream.readExact headerLen with
  | (.error e, s) => (.error (.io e), { c with stream := s })
  | (.ok headerBuf, s) =>
    let c := { c with stream := s }
    match Header.decode headerBuf with
    | .error e => (.error (.protocol e.display), c)
    | .ok header =>
      let payloadLen := header.payloadLen.toNat
      let cap := maxResponsePayloadLen header.messageType
      if payloadLen > cap then
        (.error (.protocol ("response payload_len " ++ toString payloadLen ++ " exceeds the "
          ++ toString cap ++ "-byte cap for " ++ header.messageType.debug
          ++ "; refusing to allocate")), c)
      else
        match (if payloadLen > 0 then c.stream.readExact payloadLen else (.ok [], c.stream)) with
        | (.error e, s) => (.error (.io e), { c with stream := s })
        | (.ok payloadBuf, s) =>
          match s.readExact 4 with
          | (.error e, s) => (.error (.io e), { c with stream := s })
          | (.ok crcBuf, s) =>
            let c := { c with stream := s }
            let expected := UInt32.ofNat (leNat crcBuf)
            if expected ≠ crc32 payloadBuf then
              (.error (.protocol ("response payload CRC mismatch: expected " ++ hexWord expected
                ++ ", computed " ++ hexWord (crc32 payloadBuf))), c)
            else (.ok (.new header payloadBuf), c)

/-- `read_response`. -/
def readResponse (c : WeirClient) : Except ClientError Envelope × WeirClient :=
  match c.readResponseInner with
  | (.error e, c) => (.error e, c.poison)
  | (.ok resp, c) => (.ok resp, c)

/-- `send_frame`. -/
def sendFrame (c : WeirClient) (frame : Bytes) : Except ClientError Envelope × WeirClient :=
  match c.stream.writeAll frame with
  | (.ok (), s) => readResponse { c with stream := s }
  | (.error writeErr, s) =>
    match readResponse { c with stream := s } with
    | (.ok resp, c) =>
      if resp.header.messageType = .nack then
        (.error (nackError resp.payload), { c with closedAfterNack := true })
      else (.error (.io writeErr), c.poison)
    | (.error _, c) => (.error (.io writeErr), c.poison)

/-- `note_nack`. -/
def noteNack (c : WeirClient) (err : ClientError) : ClientError × WeirClient :=
  if err = .nack .internalError then (err, c) else (err, { c with closedAfterNack := true })

/-- `surface_nack`. -/
def surfaceNack (c : WeirClient) (payload : Bytes) : ClientError × WeirClient :=
  match nackError payload with
  | .protocol msg => (.protocol msg, c.poison)
  | other => c.noteNack other

/-- The error of a Nack. -/
def failNack {α : Type} (c : WeirClient) (payload : Bytes) : Except ClientError α × WeirClient :=
  let (err, c) := c.surfaceNack payload
  (.error err, c)

/-- `send_record`. -/
def sendRecord (c : WeirClient) (messageType : MessageType) (payload : Bytes)
    (durability : Durability) : Except ClientError Envelope × WeirClient :=
  match c.ensureUsable with
  | .error e => (.error e, c)
  | .ok () =>
    if payload = [] then (.error .emptyPayload, c)
    else if payload.length > maxPayloadHardCap then
      (.error (.payloadTooLarge payload.length maxPayloadHardCap), c)
    else c.sendFrame (Envelope.new (.new messageType durability 0) payload).encode

/-- `push`. -/
def push (c : WeirClient) (payload : Bytes) (durability : Durability) :
    Except ClientError Unit × WeirClient :=
  match c.sendRecord .push payload durability with
  | (.error e, c) => (.error e, c)
  | (.ok resp, c) =>
    match resp.header.messageType with
    | .ack => (.ok (), c)
    | .nack => c.failNack resp.payload
    | other => (.error (.protocol ("expected Ack or Nack, got " ++ other.debug)), c.poison)

/-- `push_tracked`. -/
def pushTracked (c : WeirClient) (payload : Bytes) (durability : Durability) :
    Except ClientError RecordCoordinate × WeirClient :=
  match c.sendRecord .pushTracked payload durability with
  | (.error e, c) => (.error e, c)
  | (.ok resp, c) =>
    match resp.header.messageType with
    | .ackTracked =>
      match RecordCoordinate.decode resp.payload with
      | .ok coordinate => (.ok coordinate, c)
      | .error e => (.error (.protocol ("malformed record coordinate: " ++ e.display)), c.poison)
    | .nack => c.failNack resp.payload
    | other => (.error (.protocol ("expected AckTracked or Nack, got " ++ other.debug)), c.poison)

/-- The guards of `push_batch` on each record. -/
def checkRecords : List Bytes → Option ClientError
  | [] => none
  | s :: rest =>
    if s = [] then some .emptyPayload
    else if s.length > maxPayloadHardCap then some (.payloadTooLarge s.length maxPayloadHardCap)
    else checkRecords rest

/-- `push_batch`; a `BatchOutcome` is its list. -/
def pushBatch (c : WeirClient) (records : List Bytes) (durability : Durability) :
    Except ClientError (List Bool) × WeirClient :=
  match c.ensureUsable with
  | .error e => (.error e, c)
  | .ok () =>
    if records = [] then (.error .emptyPayload, c)
    else if records.length > maxBatchRecordsHardCap then
      (.error (.payloadTooLarge records.length maxBatchRecordsHardCap), c)
    else
      match checkRecords records with
      | some e => (.error e, c)
      | none =>
        match c.sendFrame
          (Envelope.new (.new .pushBatch durability 0) (encodeBatchBody records)).encode with
        | (.error e, c) => (.error e, c)
        | (.ok resp, c) =>
          match resp.header.messageType with
          | .ackBatch =>
            match decodeAckBatch resp.payload records.length with
            | .ok accepted => (.ok accepted, c)
            | .error e => (.error (.protocol ("malformed AckBatch payload: " ++ e.display)),
                c.poison)
          | .ack =>
            (.error (.protocol ("daemon answered a PushBatch with a bare Ack; the records may be "
              ++ "durable but their individual outcomes are unknown")), c.poison)
          | other =>
            (.error (.protocol ("unexpected response to a PushBatch: " ++ other.debug)), c.poison)

/-- `health_check`. -/
def healthCheck (c : WeirClient) : Except ClientError Unit × WeirClient :=
  match c.ensureUsable with
  | .error e => (.error e, c)
  | .ok () =>
    match c.stream.writeAll (Envelope.new (.new .healthCheck .durable 0) []).encode with
    | (.error e, s) => (.error (.io e), { c with stream := s, poisoned := true })
    | (.ok (), s) =>
      match readResponse { c with stream := s } with
      | (.error e, c) => (.error e, c)
      | (.ok resp, c) =>
        match resp.header.messageType with
        | .healthCheckResponse => (.ok (), c)
        | .nack => c.failNack resp.payload
        | other => (.error (.protocol ("expected HealthCheckResponse, got " ++ other.debug)),
            c.poison)

/-- `push_default`. -/
def pushDefault (c : WeirClient) (payload : Bytes) : Except ClientError Unit × WeirClient :=
  match c.defaultDurability with
  | none => (.error .noDefaultDurability, c)
  | some d => c.push payload d

/-- `push_tracked_default`. -/
def pushTrackedDefault (c : WeirClient) (payload : Bytes) :
    Except ClientError RecordCoordinate × WeirClient :=
  match c.defaultDurability with
  | none => (.error .noDefaultDurability, c)
  | some d => c.pushTracked payload d

end WeirClient

/-! ## One exchange -/

/-- Between the two states one whole request was written and one whole frame was read. -/
structure Spoke (c c' : WeirClient) (request reply : Envelope) : Prop where
  sent : c'.stream.sent = c.stream.sent ++ request.encode
  taken : ∃ frame, Envelope.decode frame = .ok reply ∧ c'.stream.taken = c.stream.taken ++ frame

/-- How a call ends that would send `request`: it fails before it sends anything, it fails and
the client is poisoned, or it exchanges the request for a reply, and its `Ok` is what the
reply says. -/
inductive Exchanged {α : Type} (c : WeirClient) (request : Envelope) (means : Envelope → α → Prop) :
    Except ClientError α × WeirClient → Prop
  | silent (e : ClientError) : Exchanged c request means (.error e, c)
  | broken {e : ClientError} {c' : WeirClient} (h : c'.isPoisoned = true) :
      Exchanged c request means (.error e, c')
  | spoke {result : Except ClientError α} {c' : WeirClient} {reply : Envelope}
      (h : Spoke c c' request reply) (husable : c'.isPoisoned = false)
      (hok : ∀ v, result = .ok v → means reply v) : Exchanged c request means (result, c')

theorem Envelope.new_eq {header : Header} (h : header.payloadLen = declaredLen payload) :
    Envelope.new header payload = ⟨header, payload, h⟩ := by
  unfold Envelope.new
  congr
  exact h.symm

theorem maxResponsePayloadLen_le (m : MessageType) :
    maxResponsePayloadLen m ≤ maxPayloadHardCap := by
  cases m <;> decide

/-- The next bytes are one frame that decodes to the reply, of a size its type may have. -/
structure Arrives (arrivals : List (Arrival UInt8 IoError)) (frame : Bytes) (reply : Envelope) :
    Prop where
  delivers : Delivers interrupted arrivals frame
  decodes : Envelope.decode frame = .ok reply
  cap : reply.payload.length ≤ maxResponsePayloadLen reply.header.messageType

variable {c c' : WeirClient}

/-- A response that is read is one whole frame. -/
theorem WeirClient.readResponseInner_ok (h : c.readResponseInner = (.ok resp, c')) :
    c'.isPoisoned = c.isPoisoned ∧ c'.stream.sent = c.stream.sent ∧
      ∃ frame, Arrives c.stream.arrivals frame resp ∧
        c'.stream.taken = c.stream.taken ++ frame := by
  unfold readResponseInner at h
  split at h
  · cases h
  rename_i headerBuf s₁ hheader
  obtain ⟨hlen₁, htaken₁, hsent₁, hread₁⟩ := Socket.readExact_ok hheader
  dsimp only at h
  split at h
  · cases h
  rename_i header hdec
  split at h
  · cases h
  rename_i hcap
  rw [Socket.readExact_pos] at h
  split at h
  · cases h
  rename_i payloadBuf s₂ hpayload
  obtain ⟨hlen₂, htaken₂, hsent₂, hread₂⟩ := Socket.readExact_ok hpayload
  split at h
  · cases h
  rename_i crcBuf s₃ hcrc
  obtain ⟨hlen₃, htaken₃, hsent₃, hread₃⟩ := Socket.readExact_ok hcrc
  split at h
  · cases h
  rename_i hmatch
  obtain ⟨h₁, rfl⟩ := Prod.mk.inj h
  cases h₁
  rw [Envelope.new_eq (declaredLen_of_toNat hlen₂)]
  refine ⟨rfl, hsent₃.trans (hsent₂.trans hsent₁), headerBuf ++ (payloadBuf ++ crcBuf),
    ⟨?_, ?_, ?_⟩, ?_⟩
  · refine Delivers.append_iff.mpr ⟨s₁.arrivals, by rwa [hlen₁], ?_⟩
    refine Delivers.append_iff.mpr ⟨s₂.arrivals, by rwa [hlen₂], ?_⟩
    exact ⟨s₃.arrivals, by rwa [hlen₃]⟩
  · have hle := maxResponsePayloadLen_le header.messageType
    rw [← List.append_assoc]
    exact Envelope.decode_parts hlen₁ hdec hlen₂ (by omega) hlen₃ (not_not.mp hmatch)
  · rw [hlen₂]
    exact Nat.le_of_not_lt hcap
  · show s₃.taken = _
    rw [htaken₃, htaken₂, htaken₁]
    simp only [List.append_assoc]

theorem WeirClient.readResponse_ok (h : c.readResponse = (.ok resp, c')) :
    c'.isPoisoned = c.isPoisoned ∧ c'.stream.sent = c.stream.sent ∧
      ∃ frame, Arrives c.stream.arrivals frame resp ∧
        c'.stream.taken = c.stream.taken ++ frame := by
  unfold readResponse at h
  split at h
  · cases h
  next resp' c'' hinner =>
    obtain ⟨h₁, rfl⟩ := Prod.mk.inj h
    exact readResponseInner_ok (Except.ok.inj h₁ ▸ hinner)

/-- `read_response` returns one whole frame, or poisons. -/
theorem WeirClient.readResponse_spec (c : WeirClient) :
    (∃ e c', c.readResponse = (.error e, c') ∧ c'.isPoisoned = true) ∨
    ∃ resp c', c.readResponse = (.ok resp, c') ∧ c'.isPoisoned = c.isPoisoned ∧
      c'.stream.sent = c.stream.sent ∧
      ∃ frame, Arrives c.stream.arrivals frame resp ∧
        c'.stream.taken = c.stream.taken ++ frame := by
  cases h : c.readResponse with
  | mk result c' =>
    cases result with
    | ok resp => exact .inr ⟨resp, c', rfl, readResponse_ok h⟩
    | error e =>
      refine .inl ⟨e, c', rfl, ?_⟩
      unfold readResponse at h
      split at h
      · rw [← (Prod.mk.inj h).2]; rfl
      · cases h

/-- A write and a read. -/
theorem WeirClient.readResponse_spoke (hwrite : c.stream.writeAll request.encode = (.ok (), s)) :
    (∃ e c', readResponse { c with stream := s } = (.error e, c') ∧ c'.isPoisoned = true) ∨
    ∃ resp c', readResponse { c with stream := s } = (.ok resp, c') ∧
      c'.isPoisoned = c.isPoisoned ∧ Spoke c c' request resp := by
  obtain ⟨hsent, htaken⟩ := Socket.writeAll_ok hwrite
  rcases readResponse_spec { c with stream := s } with
    h | ⟨resp, c', h, hflags, hsent', frame, harrives, htaken'⟩
  · exact .inl h
  · refine .inr ⟨resp, c', h, hflags, hsent'.trans hsent, frame, harrives.decodes, ?_⟩
    rw [htaken', htaken]

/-- `send_frame` exchanges the request for a reply, or poisons. -/
theorem WeirClient.sendFrame_spec (c : WeirClient) (request : Envelope) :
    (∃ e c', c.sendFrame request.encode = (.error e, c') ∧ c'.isPoisoned = true) ∨
    ∃ resp c', c.sendFrame request.encode = (.ok resp, c') ∧ c'.isPoisoned = c.isPoisoned ∧
      Spoke c c' request resp := by
  unfold sendFrame
  split
  next s hwrite => exact readResponse_spoke hwrite
  next writeErr s hwrite =>
    -- the read behind a failed write ends in one of the two flags
    refine .inl ?_
    split
    next resp c' _ =>
      split
      · exact ⟨_, _, rfl, by simp [isPoisoned]⟩
      · exact ⟨_, _, rfl, rfl⟩
    · exact ⟨_, _, rfl, rfl⟩

theorem WeirClient.ensureUsable_ok (h : c.ensureUsable = .ok ()) :
    c.isPoisoned = false := by
  unfold ensureUsable at h
  split at h
  · cases h
  rename_i hclosed
  split at h
  · cases h
  next hpoisoned => rw [isPoisoned, Bool.eq_false_iff.mpr hclosed,
    Bool.eq_false_iff.mpr hpoisoned]; rfl

/-- A reply that arrives whole, in any pieces, is the one that is read. -/
theorem WeirClient.readResponse_arrives (h : Arrives c.stream.arrivals frame reply) :
    ∃ s, c.readResponse = (.ok reply, { c with stream := s }) := by
  obtain ⟨headerBuf, crcBuf, rfl, hlen, hheader, hcrcLen, hcrc, -⟩ := Envelope.decode_ok h.decodes
  have hpayload := Envelope.payloadLen_toNat (le_trans h.cap (maxResponsePayloadLen_le _))
  obtain ⟨rest₁, hread₁, htail⟩ := Delivers.append_iff.mp (List.append_assoc .. ▸ h.delivers)
  obtain ⟨rest₂, hread₂, rest₃, hread₃⟩ := Delivers.append_iff.mp htail
  rw [hlen] at hread₁
  rw [hcrcLen] at hread₃
  refine ⟨⟨rest₃, c.stream.writes, c.stream.taken ++ headerBuf ++ reply.payload ++ crcBuf,
    c.stream.sent⟩, ?_⟩
  unfold readResponse readResponseInner
  rw [Socket.readExact_of hread₁]
  dsimp only
  rw [hheader]
  dsimp only
  rw [hpayload, if_neg (not_lt.mpr h.cap), Socket.readExact_pos, Socket.readExact_of hread₂]
  dsimp only
  rw [Socket.readExact_of hread₃]
  dsimp only
  rw [hcrc, if_neg (not_not.mpr rfl), Envelope.new_eq reply.declared]

/-- A Nack leaves the client as it is, or closes it. -/
theorem WeirClient.surfaceNack_spec (c : WeirClient) (payload : Bytes) :
    (c.surfaceNack payload).2 = c ∨ (c.surfaceNack payload).2.isPoisoned = true := by
  unfold surfaceNack
  split
  · exact .inr rfl
  unfold noteNack
  split
  · exact .inl rfl
  · exact .inr (by simp [isPoisoned])

theorem Exchanged.failNack {α : Type}
    {means : Envelope → α → Prop} (h : Spoke c c' request reply) (husable : c'.isPoisoned = false)
    (payload : Bytes) : Exchanged c request means (c'.failNack payload) := by
  show Exchanged c request means (.error (c'.surfaceNack payload).1, (c'.surfaceNack payload).2)
  rcases c'.surfaceNack_spec payload with heq | hp
  · rw [heq]
    exact .spoke h husable (by simp)
  · exact .broken hp

/-- What a method makes of the reply to its request. -/
theorem Exchanged.of_reply {α : Type}
    {means : Envelope → α → Prop} {sent : Except ClientError Envelope × WeirClient}
    (husable : c.isPoisoned = false)
    {answer : Envelope → WeirClient → Except ClientError α × WeirClient}
    (hanswer : ∀ resp c', Spoke c c' request resp → c'.isPoisoned = false →
      Exchanged c request means (answer resp c')) :
    ((∃ e c', sent = (.error e, c') ∧ c'.isPoisoned = true) ∨
      ∃ resp c', sent = (.ok resp, c') ∧ c'.isPoisoned = c.isPoisoned ∧ Spoke c c' request resp) →
    Exchanged c request means
      (match sent with
      | (.error e, c') => (.error e, c')
      | (.ok resp, c') => answer resp c') := by
  rintro (⟨e, c', rfl, h⟩ | ⟨resp, c', rfl, hflags, hspoke⟩)
  · exact .broken h
  · exact hanswer resp c' hspoke (hflags.trans husable)

section

variable (c)

/-- A poisoned client fails before it touches the socket. -/
theorem WeirClient.ensureUsable_error (h : c.isPoisoned = true) :
    ∃ e, c.ensureUsable = .error e := by
  unfold ensureUsable
  split
  · exact ⟨_, rfl⟩
  rename_i hclosed
  split
  · exact ⟨_, rfl⟩
  next hpoisoned =>
    rw [isPoisoned, Bool.eq_false_iff.mpr hclosed, Bool.eq_false_iff.mpr hpoisoned] at h
    cases h

/-- The request of a push. -/
def recordRequest (messageType : MessageType) (payload : Bytes) (durability : Durability) :
    Envelope :=
  .new (.new messageType durability 0) payload

theorem WeirClient.sendRecord_spec (messageType : MessageType) (payload : Bytes)
    (durability : Durability) :
    (∃ e, c.sendRecord messageType payload durability = (.error e, c)) ∨
    c.isPoisoned = false ∧
      ((∃ e c', c.sendRecord messageType payload durability = (.error e, c') ∧
        c'.isPoisoned = true) ∨
      ∃ resp c', c.sendRecord messageType payload durability = (.ok resp, c') ∧
        c'.isPoisoned = c.isPoisoned ∧
        Spoke c c' (recordRequest messageType payload durability) resp) := by
  unfold sendRecord
  split
  next e _ => exact .inl ⟨e, rfl⟩
  next husable =>
    split
    · exact .inl ⟨_, rfl⟩
    · split
      · exact .inl ⟨_, rfl⟩
      · exact .inr ⟨ensureUsable_ok husable, c.sendFrame_spec _⟩

theorem WeirClient.push_exchanged (payload : Bytes) (durability : Durability) :
    Exchanged c (recordRequest .push payload durability)
      (fun reply _ => reply.header.messageType = .ack) (c.push payload durability) := by
  unfold push
  rcases c.sendRecord_spec .push payload durability with ⟨e, h⟩ | ⟨husable, hsent⟩
  · rw [h]
    exact .silent e
  refine .of_reply husable (fun resp c' hspoke hc' => ?_) hsent
  split
  next hack => exact .spoke hspoke hc' fun _ _ => hack
  · exact .failNack hspoke hc' _
  · exact .broken rfl

theorem WeirClient.pushTracked_exchanged (payload : Bytes) (durability : Durability) :
    Exchanged c (recordRequest .pushTracked payload durability)
      (fun reply v => reply.header.messageType = .ackTracked ∧
        RecordCoordinate.decode reply.payload = .ok v) (c.pushTracked payload durability) := by
  unfold pushTracked
  rcases c.sendRecord_spec .pushTracked payload durability with ⟨e, h⟩ | ⟨husable, hsent⟩
  · rw [h]
    exact .silent e
  refine .of_reply husable (fun resp c' hspoke hc' => ?_) hsent
  split
  next hack =>
    split
    next coordinate hdec =>
      refine .spoke hspoke hc' fun v hv => ?_
      rw [← Except.ok.inj hv]
      exact ⟨hack, hdec⟩
    · exact .broken rfl
  · exact .failNack hspoke hc' _
  · exact .broken rfl

/-- The request of a batch. -/
def batchRequest (records : List Bytes) (durability : Durability) : Envelope :=
  .new (.new .pushBatch durability 0) (encodeBatchBody records)

theorem WeirClient.pushBatch_exchanged (records : List Bytes) (durability : Durability) :
    Exchanged c (batchRequest records durability)
      (fun reply v => reply.header.messageType = .ackBatch ∧
        decodeAckBatch reply.payload records.length = .ok v) (c.pushBatch records durability) := by
  unfold pushBatch
  split
  · exact .silent _
  rename_i husable
  split
  · exact .silent _
  split
  · exact .silent _
  split
  · exact .silent _
  refine .of_reply (ensureUsable_ok husable) (fun resp c' hspoke hc' => ?_)
    (c.sendFrame_spec (batchRequest records durability))
  split
  next hack =>
    split
    next accepted hdec =>
      refine .spoke hspoke hc' fun v hv => ?_
      rw [← Except.ok.inj hv]
      exact ⟨hack, hdec⟩
    · exact .broken rfl
  · exact .broken rfl
  · exact .broken rfl

/-- The request of a health check. -/
def healthRequest : Envelope := .new (.new .healthCheck .durable 0) []

theorem WeirClient.healthCheck_exchanged :
    Exchanged c healthRequest (fun reply _ => reply.header.messageType = .healthCheckResponse)
      c.healthCheck := by
  unfold healthCheck
  split
  · exact .silent _
  rename_i husable
  split
  · exact .broken (by simp [isPoisoned])
  rename_i s hwrite
  refine .of_reply (ensureUsable_ok husable) (fun resp c' hspoke hc' => ?_)
    (readResponse_spoke hwrite)
  split
  next hack => exact .spoke hspoke hc' fun _ _ => hack
  · exact .failNack hspoke hc' _
  · exact .broken rfl

end

/-! ## Answered requests -/

/-- The request is written whole, and behind it the reply arrives. -/
def Answered (c : WeirClient) (request reply : Envelope) : Prop :=
  ∃ s frame, c.stream.writeAll request.encode = (.ok (), s) ∧ Arrives s.arrivals frame reply

theorem WeirClient.sendFrame_answered (h : Answered c request reply) :
    ∃ s, c.sendFrame request.encode = (.ok reply, { c with stream := s }) := by
  obtain ⟨s, frame, hwrite, harrives⟩ := h
  rw [sendFrame, hwrite]
  exact readResponse_arrives (c := { c with stream := s }) harrives

theorem WeirClient.ensureUsable_of (h : c.isPoisoned = false) :
    c.ensureUsable = .ok () := by
  obtain ⟨hpoisoned, hclosed⟩ := Bool.or_eq_false_iff.mp h
  rw [ensureUsable, hclosed, hpoisoned]
  rfl

/-- The guards of `send_record` pass. -/
structure RecordFits (payload : Bytes) : Prop where
  nonempty : payload ≠ []
  size : payload.length ≤ maxPayloadHardCap

theorem WeirClient.sendRecord_fits (husable : c.isPoisoned = false)
    (hfits : RecordFits payload) (messageType : MessageType) (durability : Durability) :
    c.sendRecord messageType payload durability
      = c.sendFrame (recordRequest messageType payload durability).encode := by
  rw [sendRecord, ensureUsable_of husable]
  rw [if_neg hfits.nonempty, if_neg (not_lt.mpr hfits.size)]
  rfl

/-- The guards of `push_batch` pass. -/
structure BatchFits (records : List Bytes) : Prop where
  nonempty : records ≠ []
  count : records.length ≤ maxBatchRecordsHardCap
  sizes : WeirClient.checkRecords records = none

end Weir.Client

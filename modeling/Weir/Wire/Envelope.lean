import Weir.Lib.Text
import Weir.Wab.Flush

/-!
# The wire frame (`weir-core/src/envelope.rs`, `durability.rs`, `nack.rs`, `error.rs`)

A frame is a 16-byte header, the payload it declares, and the CRC of the payload.
A header is made by `new`, which pins the version, or by `decode`, which checks
every field, so its version is a field of the type; an envelope carries that its
header declares its payload's length.

> `Header.decode_encode`, `Envelope.decode_encode`: what is encoded decodes.

> `Envelope.decode_parts`: a header that decodes, the payload it declares, and the
> payload's CRC, read one after another, are a frame.
-/

namespace Weir.Wire

open Weir.Lib Weir.Wab List

def wireVersion : UInt8 := 1
def magic : Bytes := [0x57, 0x45, 0x49, 0x52]
def headerLen : Nat := 16

/-- `{b:#04x}`. -/
def hexByte (b : UInt8) : String := "0x" ++ String.ofList (hexFixed 2 b.toNat)

/-- `{w:#010x}`. -/
def hexWord (w : UInt32) : String := "0x" ++ String.ofList (hexFixed 8 w.toNat)

/-! ## Message types, durabilities and reasons -/

inductive MessageType
  | push
  | ack
  | nack
  | healthCheck
  | healthCheckResponse
  | pushTracked
  | ackTracked
  | pushBatch
  | ackBatch
  deriving DecidableEq, Repr

def MessageType.toByte : MessageType → UInt8
  | .push => 0x01
  | .ack => 0x02
  | .nack => 0x03
  | .healthCheck => 0x04
  | .healthCheckResponse => 0x05
  | .pushTracked => 0x06
  | .ackTracked => 0x07
  | .pushBatch => 0x08
  | .ackBatch => 0x09

/-- `MessageType::try_from`. -/
def MessageType.tryFrom (b : UInt8) : Option MessageType :=
  if b = 0x01 then some .push
  else if b = 0x02 then some .ack
  else if b = 0x03 then some .nack
  else if b = 0x04 then some .healthCheck
  else if b = 0x05 then some .healthCheckResponse
  else if b = 0x06 then some .pushTracked
  else if b = 0x07 then some .ackTracked
  else if b = 0x08 then some .pushBatch
  else if b = 0x09 then some .ackBatch
  else none

/-- The derived `Debug`. -/
def MessageType.debug : MessageType → String
  | .push => "Push"
  | .ack => "Ack"
  | .nack => "Nack"
  | .healthCheck => "HealthCheck"
  | .healthCheckResponse => "HealthCheckResponse"
  | .pushTracked => "PushTracked"
  | .ackTracked => "AckTracked"
  | .pushBatch => "PushBatch"
  | .ackBatch => "AckBatch"

@[simp] theorem MessageType.tryFrom_toByte (m : MessageType) : tryFrom m.toByte = some m := by
  cases m <;> rfl

/-- The wire byte of a tier. -/
def durabilityByte : Durability → UInt8
  | .durable => 0x01
  | .buffered => 0x03

/-- `Durability::try_from`: the retired `0x02` is still a durable push. -/
def durabilityFrom (b : UInt8) : Option Durability :=
  if b = 0x01 ∨ b = 0x02 then some .durable else if b = 0x03 then some .buffered else none

@[simp] theorem durabilityFrom_byte (d : Durability) :
    durabilityFrom (durabilityByte d) = some d := by
  cases d <;> rfl

inductive NackReason
  | badMagic
  | versionMismatch
  | badHeaderCrc
  | payloadTooLarge
  | badPayloadCrc
  | internalError
  | emptyPayload
  | unknownMessage
  | reservedFlagsSet
  | badBatchFraming
  deriving DecidableEq, Repr

def NackReason.toByte : NackReason → UInt8
  | .badMagic => 0x01
  | .versionMismatch => 0x02
  | .badHeaderCrc => 0x03
  | .payloadTooLarge => 0x04
  | .badPayloadCrc => 0x05
  | .internalError => 0x06
  | .emptyPayload => 0x07
  | .unknownMessage => 0x08
  | .reservedFlagsSet => 0x09
  | .badBatchFraming => 0x0B

/-- `NackReason::try_from`. -/
def NackReason.tryFrom (b : UInt8) : Option NackReason :=
  if b = 0x01 then some .badMagic
  else if b = 0x02 then some .versionMismatch
  else if b = 0x03 then some .badHeaderCrc
  else if b = 0x04 then some .payloadTooLarge
  else if b = 0x05 then some .badPayloadCrc
  else if b = 0x06 then some .internalError
  else if b = 0x07 then some .emptyPayload
  else if b = 0x08 then some .unknownMessage
  else if b = 0x09 then some .reservedFlagsSet
  else if b = 0x0B then some .badBatchFraming
  else none

@[simp] theorem NackReason.tryFrom_toByte (r : NackReason) : tryFrom r.toByte = some r := by
  cases r <;> rfl

/-- Every byte that is read is written back. -/
theorem written_of_read {α : Type} {read : UInt8 → Option α} {write : α → UInt8}
    (hall : ∀ n : Fin 256, (read (.ofNat n)).all (fun a => write a == .ofNat n) = true)
    {b : UInt8} {a : α} (h : read b = some a) : write a = b := by
  have hb := hall ⟨b.toNat, b.toNat_lt⟩
  rw [UInt8.ofNat_toNat, h] at hb
  exact eq_of_beq hb

theorem NackReason.toByte_of_tryFrom {b : UInt8} {r : NackReason} (h : tryFrom b = some r) :
    r.toByte = b :=
  written_of_read (by decide +kernel) h

/-! ## Decode errors -/

inductive DecodeError
  | badMagic
  | versionMismatch (supported received : UInt8)
  | unknownMessageType (b : UInt8)
  | unknownDurability (b : UInt8)
  | headerCrcMismatch (expected computed : UInt32)
  | payloadCrcMismatch (expected computed : UInt32)
  | truncatedFrame
  | payloadTooLarge (len cap : Nat)
  | reservedFlagsSet (flags : UInt8)
  | trailingBytes (extra : Nat)
  deriving DecidableEq, Repr

/-- `Display for DecodeError`. -/
def DecodeError.display : DecodeError → String
  | .badMagic => "bad magic bytes: not a weir frame"
  | .versionMismatch supported received =>
    "wire version mismatch: daemon supports v" ++ toString supported ++ ", frame carries v"
      ++ toString received
  | .unknownMessageType t => "unknown message type: " ++ hexByte t
  | .unknownDurability d => "unknown durability byte: " ++ hexByte d
  | .headerCrcMismatch expected computed =>
    "header CRC mismatch: expected " ++ hexWord expected ++ ", computed " ++ hexWord computed
  | .payloadCrcMismatch expected computed =>
    "payload CRC mismatch: expected " ++ hexWord expected ++ ", computed " ++ hexWord computed
  | .truncatedFrame => "truncated frame: buffer shorter than declared length"
  | .payloadTooLarge len cap => "payload length " ++ toString len ++ " exceeds cap " ++ toString cap
  | .reservedFlagsSet flags => "reserved flags byte must be zero, got " ++ hexByte flags
  | .trailingBytes extra =>
    "buffer has " ++ toString extra ++ " byte(s) past the declared frame length"

/-! ## Header -/

structure Header where
  version : UInt8
  messageType : MessageType
  durability : Durability
  flags : UInt8
  payloadLen : UInt32
  current : version = wireVersion
  deriving DecidableEq, Repr

namespace Header

/-- `Header::new`. -/
def new (messageType : MessageType) (durability : Durability) (flags : UInt8) : Header :=
  ⟨wireVersion, messageType, durability, flags, 0, rfl⟩

/-- The bytes the header's CRC covers. -/
def body (h : Header) : Bytes :=
  magic ++ [h.version, h.messageType.toByte, durabilityByte h.durability, h.flags]
    ++ leBytes 4 h.payloadLen.toNat

/-- `Header::encode`. -/
def encode (h : Header) : Bytes := h.body ++ leBytes 4 (crc32 h.body).toNat

/-- `Header::decode`, on a buffer of 16 bytes. -/
def decode (buf : Bytes) : Except DecodeError Header :=
  if slice buf 0 4 ≠ magic then .error .badMagic
  else if h : buf.getD 4 0 = wireVersion then
    if UInt32.ofNat (leNat (slice buf 12 16)) ≠ crc32 (slice buf 0 12) then
      .error (.headerCrcMismatch (UInt32.ofNat (leNat (slice buf 12 16))) (crc32 (slice buf 0 12)))
    else
      match MessageType.tryFrom (buf.getD 5 0), durabilityFrom (buf.getD 6 0) with
      | none, _ => .error (.unknownMessageType (buf.getD 5 0))
      | some _, none => .error (.unknownDurability (buf.getD 6 0))
      | some messageType, some durability =>
        if buf.getD 7 0 ≠ 0 then .error (.reservedFlagsSet (buf.getD 7 0))
        else .ok ⟨buf.getD 4 0, messageType, durability, buf.getD 7 0,
          UInt32.ofNat (leNat (slice buf 8 12)), h⟩
  else .error (.versionMismatch wireVersion (buf.getD 4 0))

@[simp] theorem body_length (h : Header) : h.body.length = 12 := by
  simp [body, magic]

@[simp] theorem encode_length (h : Header) : h.encode.length = headerLen := by
  simp [encode, headerLen]

/-- What the CRC of a header covers, with `tier` as the byte of its tier. -/
def bodyAs (h : Header) (tier : UInt8) : Bytes :=
  magic ++ [h.version, h.messageType.toByte, tier, h.flags] ++ leBytes 4 h.payloadLen.toNat

/-- A header with `tier` as the byte of its tier, and the CRC of that. -/
def encodeAs (h : Header) (tier : UInt8) : Bytes :=
  h.bodyAs tier ++ leBytes 4 (crc32 (h.bodyAs tier)).toNat

theorem bodyAs_length (h : Header) (tier : UInt8) : (h.bodyAs tier).length = 12 := by
  simp [bodyAs, magic]

theorem encodeAs_length (h : Header) (tier : UInt8) : (h.encodeAs tier).length = headerLen := by
  rfl

/-- A header decodes whichever byte its tier is written as. -/
theorem decode_encodeAs (h : Header) {tier : UInt8} (hf : h.flags = 0)
    (htier : durabilityFrom tier = some h.durability) : decode (h.encodeAs tier) = .ok h := by
  have hmagic : slice (h.encodeAs tier) 0 4 = magic := by
    simp only [encodeAs, bodyAs, append_assoc]
    exact slice_middle (p := []) rfl rfl
  have hbody : slice (h.encodeAs tier) 0 12 = h.bodyAs tier :=
    slice_middle (p := []) rfl (by simp)
  have hcrc : slice (h.encodeAs tier) 12 16 = leBytes 4 (crc32 (h.bodyAs tier)).toNat := by
    have hmid := slice_middle (p := h.bodyAs tier) (m := leBytes 4 (crc32 (h.bodyAs tier)).toNat)
      (q := []) (h.bodyAs_length tier) (b := 16) (by simp)
    rwa [append_nil] at hmid
  have hlen : slice (h.encodeAs tier) 8 12 = leBytes 4 h.payloadLen.toNat := by
    exact slice_middle (by simp [magic]) (by simp)
  have h4 : (h.encodeAs tier).getD 4 0 = h.version := by simp [encodeAs, bodyAs, magic]
  have h5 : (h.encodeAs tier).getD 5 0 = h.messageType.toByte := by simp [encodeAs, bodyAs, magic]
  have h6 : (h.encodeAs tier).getD 6 0 = tier := by simp [encodeAs, bodyAs, magic]
  have h7 : (h.encodeAs tier).getD 7 0 = h.flags := by simp [encodeAs, bodyAs, magic]
  have hword : ∀ w : UInt32, UInt32.ofNat (leNat (leBytes 4 w.toNat)) = w := by
    intro w
    rw [leNat_leBytes_of_lt w.toNat_lt, UInt32.ofNat_toNat]
  unfold decode
  rw [if_neg (by simp [hmagic]), dif_pos (h4.trans h.current), hcrc, hbody, hword,
    if_neg (by simp)]
  simp only [h5, h6, h7, MessageType.tryFrom_toByte, htier, hlen, hword, h4, hf,
    ne_eq, not_true_eq_false, if_false]
  obtain ⟨version, messageType, durability, flags, payloadLen, current⟩ := h
  subst hf
  rfl

theorem decode_encode (h : Header) (hf : h.flags = 0) : decode h.encode = .ok h :=
  h.decode_encodeAs hf (durabilityFrom_byte h.durability)

end Header

/-! ## Envelope -/

/-- The length a frame declares for a payload, saturated at `u32::MAX`. -/
def declaredLen (payload : Bytes) : UInt32 :=
  if payload.length < 2 ^ 32 then UInt32.ofNat payload.length else 0xFFFFFFFF

theorem declaredLen_toNat {payload : Bytes} (h : payload.length < 2 ^ 32) :
    (declaredLen payload).toNat = payload.length := by
  rw [declaredLen, if_pos h, UInt32.toNat_ofNat_of_lt' h]

theorem declaredLen_of_toNat {payload : Bytes} {n : UInt32} (h : payload.length = n.toNat) :
    n = declaredLen payload := by
  have hlt : payload.length < 2 ^ 32 := h ▸ n.toNat_lt
  rw [declaredLen, if_pos hlt, h, UInt32.ofNat_toNat]

structure Envelope where
  header : Header
  payload : Bytes
  declared : header.payloadLen = declaredLen payload
  deriving DecidableEq, Repr

namespace Envelope

/-- `Envelope::new`: the payload is what counts. -/
def new (header : Header) (payload : Bytes) : Envelope :=
  ⟨{ header with payloadLen := declaredLen payload }, payload, rfl⟩

/-- `Envelope::encode`. -/
def encode (e : Envelope) : Bytes :=
  e.header.encode ++ e.payload ++ leBytes 4 (crc32 e.payload).toNat

theorem slice_declares {buf : Bytes} {header : Header}
    (h : ¬buf.length < headerLen + header.payloadLen.toNat + 4) :
    header.payloadLen
      = declaredLen (slice buf headerLen (headerLen + header.payloadLen.toNat)) := by
  refine declaredLen_of_toNat ?_
  rw [slice, length_take, length_drop]
  omega

/-- `Envelope::decode`: the buffer is exactly one frame. -/
def decode (buf : Bytes) : Except DecodeError Envelope :=
  if buf.length < headerLen then .error .truncatedFrame
  else
    match Header.decode (buf.take headerLen) with
    | .error e => .error e
    | .ok header =>
      let payloadLen := header.payloadLen.toNat
      let frameLen := headerLen + payloadLen + 4
      if payloadLen > maxPayloadHardCap then
        .error (.payloadTooLarge payloadLen maxPayloadHardCap)
      else if h : buf.length < frameLen then .error .truncatedFrame
      else if buf.length > frameLen then .error (.trailingBytes (buf.length - frameLen))
      else
        let payload := slice buf headerLen (headerLen + payloadLen)
        let expected := UInt32.ofNat (leNat (slice buf (headerLen + payloadLen) frameLen))
        if expected ≠ crc32 payload then .error (.payloadCrcMismatch expected (crc32 payload))
        else .ok ⟨header, payload, slice_declares h⟩

/-- A header that decodes, the payload it declares and a CRC that matches are a frame. -/
theorem decode_parts {headerBuf payload crcBuf : Bytes} {header : Header}
    (hlen : headerBuf.length = headerLen) (hheader : Header.decode headerBuf = .ok header)
    (hpayload : payload.length = header.payloadLen.toNat)
    (hcap : payload.length ≤ maxPayloadHardCap)
    (hcrcLen : crcBuf.length = 4) (hcrc : UInt32.ofNat (leNat crcBuf) = crc32 payload) :
    decode (headerBuf ++ payload ++ crcBuf)
      = .ok ⟨header, payload, declaredLen_of_toNat hpayload⟩ := by
  have hsize : (headerBuf ++ payload ++ crcBuf).length
      = headerLen + header.payloadLen.toNat + 4 := by
    rw [length_append, length_append, hlen, hpayload, hcrcLen]
  have htake : (headerBuf ++ payload ++ crcBuf).take headerLen = headerBuf := by
    rw [append_assoc, take_append_of_le_length (le_of_eq hlen.symm),
      take_of_length_le (le_of_eq hlen)]
  have hmid : slice (headerBuf ++ payload ++ crcBuf) headerLen
      (headerLen + header.payloadLen.toNat) = payload := by
    refine slice_middle hlen ?_
    rw [hpayload]
  have htail : slice (headerBuf ++ payload ++ crcBuf) (headerLen + header.payloadLen.toNat)
      (headerLen + header.payloadLen.toNat + 4) = crcBuf := by
    have h := slice_middle (p := headerBuf ++ payload) (m := crcBuf) (q := [])
      (a := headerLen + header.payloadLen.toNat) (b := headerLen + header.payloadLen.toNat + 4)
      (by rw [length_append, hlen, hpayload]) (by rw [hcrcLen])
    rwa [append_nil] at h
  unfold decode
  rw [if_neg (by omega), htake, hheader]
  dsimp only
  rw [if_neg (by omega), dif_neg (by omega), if_neg (by omega)]
  simp only [hmid, htail, hcrc, ne_eq, not_true_eq_false, if_false]

/-- A frame is its header, its payload and a CRC that matches. -/
theorem decode_ok {buf : Bytes} {e : Envelope} (h : decode buf = .ok e) :
    ∃ headerBuf crcBuf, buf = headerBuf ++ e.payload ++ crcBuf ∧ headerBuf.length = headerLen ∧
      Header.decode headerBuf = .ok e.header ∧ crcBuf.length = 4 ∧
      UInt32.ofNat (leNat crcBuf) = crc32 e.payload ∧ e.payload.length ≤ maxPayloadHardCap := by
  unfold decode at h
  split at h
  · cases h
  split at h
  · cases h
  rename_i header hheader
  dsimp only at h
  split at h
  · cases h
  split at h
  · cases h
  split at h
  · cases h
  split at h
  · cases h
  rename_i hcrc
  cases h
  refine ⟨buf.take headerLen, slice buf (headerLen + header.payloadLen.toNat)
    (headerLen + header.payloadLen.toNat + 4), ?_, ?_, hheader, ?_, not_not.mp hcrc, ?_⟩
  · show buf = buf.take headerLen ++ slice buf headerLen (headerLen + header.payloadLen.toNat)
      ++ slice buf (headerLen + header.payloadLen.toNat)
        (headerLen + header.payloadLen.toNat + 4)
    unfold slice
    have hcrcBuf : (buf.drop (headerLen + header.payloadLen.toNat)).length ≤ 4 := by
      rw [length_drop]
      omega
    rw [Nat.add_sub_cancel_left, ← take_add, Nat.add_sub_cancel_left,
      take_of_length_le hcrcBuf, take_append_drop]
  · rw [length_take]
    omega
  · rw [slice, length_take, length_drop]
    omega
  · show (slice buf headerLen (headerLen + header.payloadLen.toNat)).length ≤ _
    rw [slice_length (by omega)]
    omega

theorem payloadLen_toNat {e : Envelope} (hcap : e.payload.length ≤ maxPayloadHardCap) :
    e.header.payloadLen.toNat = e.payload.length := by
  rw [e.declared, declaredLen_toNat]
  exact lt_of_le_of_lt hcap (by decide)

theorem decode_length {buf : Bytes} {e : Envelope} (h : decode buf = .ok e) :
    buf.length = headerLen + e.payload.length + 4 := by
  obtain ⟨headerBuf, crcBuf, rfl, hlen, -, hcrcLen, -⟩ := decode_ok h
  rw [length_append, length_append, hlen, hcrcLen]

/-- Less than the payload and the CRC that a header announces is no frame. -/
theorem decode_short {headerBuf rest : Bytes} {header : Header}
    (hlen : headerBuf.length = headerLen) (hheader : Header.decode headerBuf = .ok header)
    (hshort : rest.length < header.payloadLen.toNat + 4) (e : Envelope) :
    decode (headerBuf ++ rest) ≠ .ok e := by
  intro h
  have hsize := decode_length h
  obtain ⟨headerBuf', crcBuf, hbuf, hlen', hheader', -, -, hcap⟩ := decode_ok h
  rw [append_assoc] at hbuf
  rw [append_inj_left hbuf (hlen.trans hlen'.symm), hheader'] at hheader
  rw [← Except.ok.inj hheader, payloadLen_toNat hcap] at hshort
  rw [length_append] at hsize
  omega

theorem decode_encode (e : Envelope) (hflags : e.header.flags = 0)
    (hcap : e.payload.length ≤ maxPayloadHardCap) : decode e.encode = .ok e := by
  exact decode_parts e.header.encode_length (e.header.decode_encode hflags)
    (payloadLen_toNat hcap).symm hcap (by simp)
    (by rw [leNat_leBytes_of_lt (crc32 e.payload).toNat_lt, UInt32.ofNat_toNat])

@[simp] theorem encode_length (e : Envelope) :
    e.encode.length = headerLen + e.payload.length + 4 := by
  rw [encode, length_append, length_append, Header.encode_length, leBytes_length]

end Envelope

end Weir.Wire

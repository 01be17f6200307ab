import Weir.Lib.Bits
import Weir.Wire.Envelope

/-!
# The payloads of frames (`weir-core/src/batch.rs`, `coordinate.rs`)

A `PushBatch` carries its records one behind another, each with its length; an
`AckBatch` carries a bit for each of them; an `AckTracked` carries where a record
was put.

> `decodeAckBatch_encode`: the outcomes a client decodes are the ones the daemon
> encoded, for every length that is not zero and fits its two bytes.

> `decodeBatchBody_bounds`: what decodes has at least one record, and no more than
> either cap.
-/

namespace Weir.Wire

open Weir.Lib Weir.Wab List

/-! ## `PushBatch` -/

def batchVersion : UInt8 := 1
def ackBatchVersion : UInt8 := 1
def batchHeaderLen : Nat := 3
def ackBatchHeaderLen : Nat := 3
def maxBatchRecordsHardCap : Nat := 2048

/-- `n.div_ceil(8)`. -/
def bitmapLen (n : Nat) : Nat := (n + 7) / 8

def maxAckBatchPayloadLen : Nat := ackBatchHeaderLen + bitmapLen maxBatchRecordsHardCap

inductive BatchError
  | truncated (len need : Nat)
  | unsupportedVersion (version : UInt8)
  | emptyBatch
  | tooManyRecords (count cap : Nat)
  | emptyRecord (index : Nat)
  | recordTooLarge (index len cap : Nat)
  | truncatedRecord (index : Nat)
  | lengthMismatch (declared actual : Nat)
  | paddingNotZero (byte : UInt8)
  deriving DecidableEq, Repr

/-- `Display for BatchError`. -/
def BatchError.display : BatchError → String
  | .truncated len need =>
    "batch body truncated: " ++ toString len ++ " bytes, need at least " ++ toString need
  | .unsupportedVersion version => "unsupported batch version " ++ hexByte version
  | .emptyBatch => "batch declared zero records"
  | .tooManyRecords count cap =>
    "batch declared " ++ toString count ++ " records, cap is " ++ toString cap
  | .emptyRecord index => "record " ++ toString index ++ " is zero-length"
  | .recordTooLarge index len cap =>
    "record " ++ toString index ++ " is " ++ toString len ++ " bytes, cap is " ++ toString cap
  | .truncatedRecord index => "record " ++ toString index ++ " runs past the end of the body"
  | .lengthMismatch declared actual =>
    "batch declared " ++ toString declared ++ ", found " ++ toString actual
  | .paddingNotZero byte => "padding bits set in final bitmap byte " ++ hexByte byte

/-- `encode_batch_body`. The count is cut to two bytes and a length to four. -/
def encodeBatchBody (records : List Bytes) : Bytes :=
  batchVersion :: leBytes 2 records.length ++ records.flatMap fun r => leBytes 4 r.length ++ r

/-- The loop of `decode_batch_body`, from `cursor` on. -/
def walkBatch (body : Bytes) (declared recordCap cursor : Nat) (out : List Bytes) :
    Except BatchError (Nat × List Bytes) :=
  if _h : cursor < body.length then
    if cursor + 4 > body.length then .error (.truncatedRecord out.length)
    else
      let len := leNat (slice body cursor (cursor + 4))
      if len = 0 then .error (.emptyRecord out.length)
      else if len > recordCap then .error (.recordTooLarge out.length len recordCap)
      else if cursor + 4 + len > body.length then .error (.truncatedRecord out.length)
      else if out.length = declared then .error (.lengthMismatch declared (declared + 1))
      else walkBatch body declared recordCap (cursor + 4 + len)
        (out ++ [slice body (cursor + 4) (cursor + 4 + len)])
  else .ok (cursor, out)
termination_by body.length - cursor

/-- `decode_batch_body`. -/
def decodeBatchBody (body : Bytes) (maxRecords maxRecordLen : Nat) :
    Except BatchError (List Bytes) :=
  if body.length < batchHeaderLen then .error (.truncated body.length batchHeaderLen)
  else if body.getD 0 0 ≠ batchVersion then .error (.unsupportedVersion (body.getD 0 0))
  else
    let declared := leNat (slice body 1 3)
    let cap := min maxRecords maxBatchRecordsHardCap
    if declared = 0 then .error .emptyBatch
    else if declared > cap then .error (.tooManyRecords declared cap)
    else
      match walkBatch body declared (min maxRecordLen maxPayloadHardCap) batchHeaderLen [] with
      | .error e => .error e
      | .ok (cursor, out) =>
        if out.length ≠ declared then .error (.lengthMismatch declared out.length)
        else if cursor ≠ body.length then .error (.lengthMismatch cursor body.length)
        else .ok out

theorem decodeBatchBody_bounds {body : Bytes} {maxRecords maxRecordLen : Nat} {records : List Bytes}
    (h : decodeBatchBody body maxRecords maxRecordLen = .ok records) :
    0 < records.length ∧ records.length ≤ min maxRecords maxBatchRecordsHardCap := by
  unfold decodeBatchBody at h
  dsimp only at h
  split at h
  · cases h
  split at h
  · cases h
  split at h
  · cases h
  split at h
  · cases h
  split at h
  · cases h
  split at h
  · cases h
  rename_i hcount
  split at h <;> cases h
  omega

/-! ## `AckBatch` -/

/-- The loop of `encode_ack_batch`, from flag `i` on. -/
def setBits (out : Bytes) (i : Nat) : List Bool → Bytes
  | [] => out
  | ok :: rest =>
    setBits
      (if ok then out.modify (ackBatchHeaderLen + i / 8) (· ||| mask (i % 8)) else out) (i + 1) rest

/-- `encode_ack_batch`. -/
def encodeAckBatch (accepted : List Bool) : Bytes :=
  setBits (ackBatchVersion :: leBytes 2 accepted.length
    ++ replicate (bitmapLen accepted.length) 0) 0 accepted

/-- `decode_ack_batch`. -/
def decodeAckBatch (payload : Bytes) (expected : Nat) : Except BatchError (List Bool) :=
  if payload.length < ackBatchHeaderLen then .error (.truncated payload.length ackBatchHeaderLen)
  else if payload.getD 0 0 ≠ ackBatchVersion then .error (.unsupportedVersion (payload.getD 0 0))
  else
    let declared := leNat (slice payload 1 3)
    let want := ackBatchHeaderLen + bitmapLen declared
    let last := payload.getD (payload.length - 1) 0
    if declared = 0 then .error .emptyBatch
    else if declared ≠ expected then .error (.lengthMismatch declared expected)
    else if payload.length ≠ want then .error (.lengthMismatch want payload.length)
    else if declared % 8 ≠ 0 ∧ last &&& ~~~(mask (declared % 8) - 1) ≠ 0 then
      .error (.paddingNotZero last)
    else
      let bits := payload.drop ackBatchHeaderLen
      .ok ((List.range declared).map fun i => decide (bits.getD (i / 8) 0 &&& mask (i % 8) ≠ 0))

/-- The loop sets bits of the map behind the header. -/
theorem setBits_append {header : Bytes} (hlen : header.length = ackBatchHeaderLen) :
    ∀ (accepted : List Bool) (i : Nat) (bits : Bytes), (i + accepted.length + 7) / 8 ≤ bits.length →
      ∃ bits', setBits (header ++ bits) i accepted = header ++ bits' ∧ bits'.length = bits.length ∧
        ∀ j, bitAt bits' j = (bitAt bits j || decide (i ≤ j ∧
          accepted.getD (j - i) false = true)) := by
  intro accepted
  induction accepted with
  | nil => exact fun i bits _ => ⟨bits, rfl, rfl, by simp⟩
  | cons ok rest ih =>
    intro i bits hroom
    rw [length_cons] at hroom
    have hbyte : i / 8 < bits.length := by omega
    have hstep : (if ok then (header ++ bits).modify (ackBatchHeaderLen + i / 8)
        (· ||| mask (i % 8))
        else header ++ bits) = header ++ (if ok then setAt bits i else bits) := by
      cases ok with
      | false => rfl
      | true =>
        rw [if_pos rfl, if_pos rfl, ← hlen, setAt]
        rw [modify_eq_take_drop, modify_eq_take_drop, take_length_add_append,
          drop_length_add_append, append_assoc]
    obtain ⟨bits', hset, hlen', hbits⟩ := ih (i + 1) (if ok then setAt bits i else bits)
      (by split <;> (try rw [setAt_length]) <;> omega)
    refine ⟨bits', ?_, ?_, fun j => ?_⟩
    · rw [setBits, hstep, hset]
    · rw [hlen']
      split
      · exact setAt_length bits i
      · rfl
    · have hfirst : bitAt (if ok then setAt bits i else bits) j
          = (bitAt bits j || decide (i = j ∧ ok = true)) := by
        cases ok with
        | false => simp
        | true => rw [if_pos rfl, bitAt_setAt hbyte]; simp
      rw [hbits j, hfirst, Bool.or_assoc, ← Bool.decide_or]
      congr 1
      refine decide_eq_decide.mpr ?_
      rcases Nat.lt_trichotomy j i with hlt | rfl | hgt
      · exact ⟨fun h => by omega, fun h => by omega⟩
      · rw [Nat.sub_self, getD_cons_zero]
        exact ⟨fun h => h.elim (fun h => ⟨le_rfl, h.2⟩) fun h => by omega,
          fun h => .inl ⟨rfl, h.2⟩⟩
      · obtain ⟨k, rfl⟩ : ∃ k, j = i + 1 + k := ⟨j - (i + 1), by omega⟩
        have hsub : i + 1 + k - i = k + 1 := by omega
        rw [hsub, getD_cons_succ, Nat.add_sub_cancel_left]
        exact ⟨fun h => h.elim (fun h => by omega) fun h => ⟨by omega, h.2⟩,
          fun h => .inr ⟨by omega, h.2⟩⟩

/-- The header and the bits of an encoded reply. -/
theorem encodeAckBatch_bits (accepted : List Bool) :
    ∃ bits, encodeAckBatch accepted = ackBatchVersion :: leBytes 2 accepted.length ++ bits ∧
      bits.length = bitmapLen accepted.length ∧ ∀ j, bitAt bits j = accepted.getD j false := by
  have hheader : (ackBatchVersion :: leBytes 2 accepted.length).length = ackBatchHeaderLen := by
    simp [ackBatchHeaderLen]
  obtain ⟨bits, hset, hlen, hbits⟩ := setBits_append hheader accepted 0
    (replicate (bitmapLen accepted.length) 0) (by simp [bitmapLen])
  refine ⟨bits, hset, hlen.trans (length_replicate ..), fun j => ?_⟩
  rw [hbits j, bitAt_replicate]
  simp

theorem encodeAckBatch_length (accepted : List Bool) :
    (encodeAckBatch accepted).length = ackBatchHeaderLen + bitmapLen accepted.length := by
  obtain ⟨bits, henc, hlen, _⟩ := encodeAckBatch_bits accepted
  rw [henc, length_append, hlen, length_cons, leBytes_length, ackBatchHeaderLen]

theorem decodeAckBatch_encode {accepted : List Bool} (hpos : 0 < accepted.length)
    (hlt : accepted.length < 2 ^ 16) :
    decodeAckBatch (encodeAckBatch accepted) accepted.length = .ok accepted := by
  obtain ⟨bits, henc, _, hbits⟩ := encodeAckBatch_bits accepted
  have hsize := encodeAckBatch_length accepted
  have hversion : (encodeAckBatch accepted).getD 0 0 = ackBatchVersion := by rw [henc]; rfl
  have hdeclared : leNat (slice (encodeAckBatch accepted) 1 3) = accepted.length := by
    have hmid : slice (encodeAckBatch accepted) 1 3 = leBytes 2 accepted.length := by
      rw [henc]
      exact slice_middle (p := [ackBatchVersion]) rfl (by simp)
    rw [hmid, leNat_leBytes_of_lt hlt]
  have hdrop : (encodeAckBatch accepted).drop ackBatchHeaderLen = bits := by
    rw [henc]
    exact drop_left' (by simp [ackBatchHeaderLen])
  have hlast : (encodeAckBatch accepted).getD ((encodeAckBatch accepted).length - 1) 0
      = bits.getD ((accepted.length - 1) / 8) 0 := by
    have hidx : (encodeAckBatch accepted).length - 1
        = ackBatchHeaderLen + (accepted.length - 1) / 8 := by
      rw [hsize, bitmapLen]
      omega
    rw [hidx, ← hdrop, getD_eq_getElem?_getD, getD_eq_getElem?_getD, getElem?_drop]
  have hpadding : ¬(accepted.length % 8 ≠ 0 ∧
      bits.getD ((accepted.length - 1) / 8) 0 &&& ~~~(mask (accepted.length % 8) - 1) ≠ 0) := by
    rintro ⟨hmod, hne⟩
    refine hne (and_padding (Nat.mod_lt _ (by omega)) fun k hk huk => ?_)
    -- bit `k` of the last byte is behind the last flag
    have hbit := hbits (8 * ((accepted.length - 1) / 8) + k)
    have hdiv : (8 * ((accepted.length - 1) / 8) + k) / 8 = (accepted.length - 1) / 8 := by omega
    have hrem : (8 * ((accepted.length - 1) / 8) + k) % 8 = k := by omega
    rw [bitAt, hdiv, hrem] at hbit
    rw [hbit, getD_eq_getElem?_getD, getElem?_eq_none (by omega), Option.getD_none]
  unfold decodeAckBatch
  dsimp only
  rw [hdeclared, hdrop, hlast, if_neg (by rw [hsize]; omega), if_neg (not_not.mpr hversion),
    if_neg (by omega), if_neg (by simp), if_neg (by simp [hsize]), if_neg hpadding]
  congr 1
  refine ext_getElem (by simp) fun i hi hi' => ?_
  rw [getElem_map, getElem_range]
  have hbit := hbits i
  rw [getD_eq_getElem?_getD, getElem?_eq_getElem hi', Option.getD_some] at hbit
  rw [← hbit, bitAt]
  by_cases h : bit (bits.getD (i / 8) 0) (i % 8) = true
  · rw [h]
    exact decide_eq_true ((and_mask_ne_zero (Nat.mod_lt _ (by omega))).mpr h)
  · rw [Bool.eq_false_iff.mpr h]
    exact decide_eq_false fun hne => h ((and_mask_ne_zero (Nat.mod_lt _ (by omega))).mp hne)

/-! ## `AckTracked` -/

def coordinateVersion : UInt8 := 1
def coordinateFixedLen : Nat := 43
def maxSegmentNameLen : Nat := 255
def maxTrackedAckPayloadLen : Nat := coordinateFixedLen + maxSegmentNameLen

inductive CoordinateError
  | truncated (len need : Nat)
  | unsupportedVersion (version : UInt8)
  | segmentTooLong (len cap : Nat)
  | lengthMismatch (declared actual : Nat)
  | segmentNotUtf8
  deriving DecidableEq, Repr

/-- `Display for CoordinateError`. -/
def CoordinateError.display : CoordinateError → String
  | .truncated len need =>
    "record coordinate truncated: " ++ toString len ++ " bytes, need at least " ++ toString need
  | .unsupportedVersion version =>
    "unsupported record-coordinate version " ++ hexByte version ++ "; this build understands "
      ++ hexByte coordinateVersion
  | .segmentTooLong len cap =>
    "record coordinate segment name is " ++ toString len ++ " bytes, over the " ++ toString cap
      ++ "-byte cap"
  | .lengthMismatch declared actual =>
    "record coordinate declares " ++ toString declared ++ " bytes but the payload is "
      ++ toString actual
  | .segmentNotUtf8 => "record coordinate segment name is not valid UTF-8"

/-- Where a record is. The constructor and the decoder bound the name. -/
structure RecordCoordinate where
  segment : String
  index : Nat
  recordId : Bytes
  bounded : segment.utf8ByteSize ≤ maxSegmentNameLen
  deriving DecidableEq

namespace RecordCoordinate

/-- `RecordCoordinate::new`. -/
def new (segment : String) (index : Nat) (recordId : Bytes) :
    Except CoordinateError RecordCoordinate :=
  if h : segment.utf8ByteSize > maxSegmentNameLen then
    .error (.segmentTooLong segment.utf8ByteSize maxSegmentNameLen)
  else .ok ⟨segment, index, recordId, Nat.le_of_not_lt h⟩

/-- `RecordCoordinate::encode`. -/
def encode (c : RecordCoordinate) : Bytes :=
  coordinateVersion :: leBytes 8 c.index ++ c.recordId ++ leBytes 2 c.segment.utf8ByteSize
    ++ c.segment.toUTF8.data.toList

/-- `RecordCoordinate::decode`. -/
def decode (buf : Bytes) : Except CoordinateError RecordCoordinate :=
  if buf.length < coordinateFixedLen then .error (.truncated buf.length coordinateFixedLen)
  else if buf.getD 0 0 ≠ coordinateVersion then .error (.unsupportedVersion (buf.getD 0 0))
  else
    let segmentLen := leNat (slice buf 41 43)
    if hcap : segmentLen > maxSegmentNameLen then
      .error (.segmentTooLong segmentLen maxSegmentNameLen)
    else if hlen : buf.length ≠ coordinateFixedLen + segmentLen then
      .error (.lengthMismatch (coordinateFixedLen + segmentLen) buf.length)
    else if hutf8 : (⟨(buf.drop coordinateFixedLen).toArray⟩ : ByteArray).IsValidUTF8 then
      .ok ⟨String.fromUTF8 _ hutf8, leNat (slice buf 1 9), slice buf 9 41, by
        show (buf.drop coordinateFixedLen).toArray.size ≤ maxSegmentNameLen
        rw [List.size_toArray, length_drop]
        omega⟩
    else .error .segmentNotUtf8

theorem encode_length (c : RecordCoordinate) :
    c.encode.length = 11 + c.recordId.length + c.segment.utf8ByteSize := by
  have hutf8 : c.segment.toUTF8.data.toList.length = c.segment.utf8ByteSize := rfl
  rw [encode, length_append, length_append, length_append, hutf8, leBytes_length,
    length_cons, leBytes_length]
  omega

end RecordCoordinate

end Weir.Wire

import Weir.Lib.HashChain
import Weir.Sink.Batch

/-!
# The chain of a segment and its sidecar (`weir-attest/src/chain.rs`, `sidecar.rs`)

A segment's chain starts from the head of its predecessor, the fields of its header and
its name, and takes in the id of every record. The `.attest` sidecar holds the head it
started from, the head it ended with, and how many records there were.

> `segmentHead_inj`: two segments with one head are the same segment, unless the hash has a
> collision among what was hashed for them.

> `codecs_exact`: a sidecar decodes from its own encoding only, and a head is read from
> 64 digits only, but for a text with a `+`, which the integer parser takes for a sign.
-/

namespace Weir.Attest

open Weir.Lib Weir.Wab Weir.Drain Weir.Sink List

/-- SHA-256, with the length of its digests. -/
structure Digest where
  sha : Sha256
  width : ∀ b, (sha b).length = 32

/-- A 256-bit chain head. -/
@[ext]
structure ChainHead where
  bytes : Bytes
  width : bytes.length = 32
  deriving DecidableEq

/-- `ChainHead::ORIGIN`: the head a chain starts from when it has no predecessor. -/
def ChainHead.origin : ChainHead := ⟨replicate 32 0, by simp⟩

def Digest.head (d : Digest) (b : Bytes) : ChainHead := ⟨d.sha b, d.width b⟩

/-- `DOMAIN_SEP`: the text `weir-attest-v1`. -/
def domainSep : Bytes :=
  [0x77, 0x65, 0x69, 0x72, 0x2D, 0x61, 0x74, 0x74, 0x65, 0x73, 0x74, 0x2D, 0x76, 0x31]

/-- What `chain_origin` hashes. -/
def originInput (prev : ChainHead) (header : SegmentHeaderMeta) (segmentName : String) : Bytes :=
  domainSep ++ (prev.bytes ++ ([header.formatVersion] ++ (leBytes 2 header.shardId.toNat
    ++ (i64Bytes header.createdAt ++ (leBytes 8 segmentName.utf8ByteSize
      ++ segmentName.toUTF8.data.toList)))))

/-- `chain_origin`. -/
def chainOrigin (d : Digest) (prev : ChainHead) (header : SegmentHeaderMeta)
    (segmentName : String) : ChainHead :=
  d.head (originInput prev header segmentName)

/-- What `chain_step` hashes. -/
def stepInput (prev : ChainHead) (recordId : RecordId) : Bytes := prev.bytes ++ recordId

/-- `chain_step`. -/
def chainStep (d : Digest) (prev : ChainHead) (recordId : RecordId) : ChainHead :=
  d.head (stepInput prev recordId)

/-! ## What a head commits to -/

/-- The head of a segment with these records. -/
def segmentHead (d : Digest) (prev : ChainHead) (header : SegmentHeaderMeta) (name : String)
    (records : List Bytes) : ChainHead :=
  chain d.head stepInput (originInput prev header name) (idsFrom d.sha name 0 records)

/-- Everything that is hashed for it: the origin, the links, and the records. -/
def segmentInputs (d : Digest) (prev : ChainHead) (header : SegmentHeaderMeta) (name : String)
    (records : List Bytes) : List Bytes :=
  hashed d.head stepInput (originInput prev header name) (idsFrom d.sha name 0 records)
    ++ records.mapIdx fun i p => recordIdInput name (i + 1) p

theorem originInput_length (prev : ChainHead) (header : SegmentHeaderMeta) (name : String) :
    (originInput prev header name).length = 65 + name.utf8ByteSize := by
  have hutf8 : name.toUTF8.data.toList.length = name.utf8ByteSize := rfl
  simp only [originInput, length_append, prev.width, leBytes_length, i64Bytes_length,
    length_cons, length_nil, hutf8, domainSep]
  omega

variable {name : String} {records : List Bytes}
  {prev prev' : ChainHead} {m m' : SegmentHeaderMeta} {name' : String} {sha : Sha256}
  {records' : List Bytes}

/-- What an origin hashes determines what it was made of. -/
theorem originInput_inj (h : originInput prev m name = originInput prev' m' name') :
    prev = prev' ∧ m.formatVersion = m'.formatVersion ∧ m.shardId = m'.shardId ∧
      m.createdAt = m'.createdAt ∧ name = name' := by
  obtain ⟨-, h⟩ := append_inj h rfl
  obtain ⟨hprev, h⟩ := append_inj h (by rw [prev.width, prev'.width])
  obtain ⟨hversion, h⟩ := append_inj h rfl
  obtain ⟨hshard, h⟩ := append_inj h (by simp)
  obtain ⟨hcreated, h⟩ := append_inj h (by simp)
  obtain ⟨-, hname⟩ := append_inj h (by simp)
  refine ⟨ChainHead.ext hprev, (List.cons.inj hversion).1, ?_, ?_, ?_⟩
  · have hs : leNat (leBytes 2 m.shardId.toNat) = m.shardId.toNat :=
      leNat_leBytes_of_lt m.shardId.toNat_lt
    have hs' : leNat (leBytes 2 m'.shardId.toNat) = m'.shardId.toNat :=
      leNat_leBytes_of_lt m'.shardId.toNat_lt
    exact UInt16.toNat_inj.mp (by rw [← hs, hshard, hs'])
  · rw [← i64Of_bytes m.createdAt, hcreated, i64Of_bytes]
  · exact String.toByteArray_inj.mp (ByteArray.ext (Array.toList_inj.mp hname))

/-- A link is the head before it and an id. -/
theorem stepInput_inj (d : Digest) (x y : Bytes) (a b : RecordId)
    (h : stepInput (d.head x) a = stepInput (d.head y) b) : d.head x = d.head y ∧ a = b := by
  obtain ⟨hhead, hid⟩ := append_inj h (by rw [(d.head x).width, (d.head y).width])
  exact ⟨ChainHead.ext hhead, hid⟩

/-- An origin is longer than the two digests of a link. -/
theorem originInput_ne (d : Digest) (prev : ChainHead) (m : SegmentHeaderMeta) (name : String)
    (head : ChainHead) (x : Bytes) : originInput prev m name ≠ stepInput head (d.sha x) := by
  intro h
  have hlen := congrArg length h
  rw [originInput_length, stepInput, length_append, head.width, d.width] at hlen
  omega

theorem mem_idsFrom {lo : Nat} {id : RecordId}
    (h : id ∈ idsFrom sha name lo records) : ∃ x, id = sha x := by
  obtain ⟨i, _, rfl⟩ := mem_mapIdx.mp h
  exact ⟨_, rfl⟩

/-- What an id hashes determines the bytes of the record, at one place of one segment. -/
theorem recordIdInput_payload {i : Nat} {p q : Bytes}
    (h : recordIdInput name i p = recordIdInput name i q) : p = q := by
  unfold recordIdInput at h
  rw [append_assoc, append_assoc _ _ q] at h
  exact (append_inj (append_cancel_left h) (by simp)).2

/-- The ids of a segment determine its records. -/
theorem idsFrom_inj
    (hinj : Set.InjOn sha {x | x ∈ (records.mapIdx fun i p => recordIdInput name (i + 1) p) ∨
      x ∈ records'.mapIdx fun i p => recordIdInput name (i + 1) p})
    (h : idsFrom sha name 0 records = idsFrom sha name 0 records') : records = records' := by
  have hlen : records.length = records'.length := by
    have hlen := congrArg length h
    rwa [idsFrom, idsFrom, length_mapIdx, length_mapIdx] at hlen
  refine ext_getElem hlen fun i hi hi' => ?_
  have hid : (idsFrom sha name 0 records)[i]? = (idsFrom sha name 0 records')[i]? := by rw [h]
  simp only [idsFrom, getElem?_mapIdx, getElem?_eq_getElem hi,
    getElem?_eq_getElem hi', Option.map_some, zero_add] at hid
  have hinput : recordIdInput name (i + 1) records[i] = recordIdInput name (i + 1) records'[i] :=
    hinj (.inl (mem_mapIdx.mpr ⟨i, hi, rfl⟩)) (.inr (mem_mapIdx.mpr ⟨i, hi', rfl⟩))
      (Option.some.inj hid)
  exact recordIdInput_payload hinput

/-- A head commits to the predecessor, the fields of the header, the name and all records, as long
as the hash has no collision among what was hashed. -/
theorem segmentHead_inj {d : Digest}
    (hinj : Set.InjOn d.sha {x | x ∈ segmentInputs d prev m name records ∨
      x ∈ segmentInputs d prev' m' name' records'})
    (h : segmentHead d prev m name records = segmentHead d prev' m' name' records') :
    prev = prev' ∧ m.formatVersion = m'.formatVersion ∧ m.shardId = m'.shardId ∧
      m.createdAt = m'.createdAt ∧ name = name' ∧ records = records' := by
  have hchain : Set.InjOn d.head
      {x | x ∈ hashed d.head stepInput (originInput prev m name) (idsFrom d.sha name 0 records) ∨
        x ∈ hashed d.head stepInput (originInput prev' m' name')
          (idsFrom d.sha name' 0 records')} := by
    intro x hx y hy hxy
    exact hinj (hx.imp (mem_append_left _) (mem_append_left _))
      (hy.imp (mem_append_left _) (mem_append_left _)) (congrArg ChainHead.bytes hxy)
  obtain ⟨horigin, hids⟩ := chain_inj (stepInput_inj d) (by
    intro head id hid
    obtain ⟨x, rfl⟩ := mem_idsFrom hid
    exact originInput_ne d prev m name head x) (by
    intro head id hid
    obtain ⟨x, rfl⟩ := mem_idsFrom hid
    exact originInput_ne d prev' m' name' head x) hchain h
  obtain ⟨hprev, hversion, hshard, hcreated, rfl⟩ := originInput_inj horigin
  refine ⟨hprev, hversion, hshard, hcreated, rfl, idsFrom_inj (hinj.mono ?_) hids⟩
  exact fun x hx => hx.imp (mem_append_right _) (mem_append_right _)

/-! ## The sidecar -/

inductive AttestError
  | badHexLength (len : Nat)
  | badHexDigit
  | io (e : IoError)
  | badMagic
  | unsupportedSidecarVersion (version : UInt8)
  | truncatedSidecar
  | sidecarCrcMismatch
  deriving DecidableEq, Repr

def AttestError.display : AttestError → String
  | .badHexLength len => s!"chain head must be 64 hex characters, got {len}"
  | .badHexDigit => "chain head contains a non-hex character"
  | .io e => "io: " ++ e.message
  | .badMagic => "not a weir attest sidecar (bad magic)"
  | .unsupportedSidecarVersion version => "unsupported attest sidecar version 0x"
    ++ String.ofList (hexFixed 2 version.toNat)
  | .truncatedSidecar => "attest sidecar is truncated"
  | .sidecarCrcMismatch => "attest sidecar CRC mismatch"

/-- `ATTEST_MAGIC`: the text `WATT`. -/
def attestMagic : Bytes := [0x57, 0x41, 0x54, 0x54]

def attestFormatVersion : UInt8 := 1

structure Sidecar where
  formatVersion : UInt8
  shardId : UInt16
  segmentName : String
  prevHead : ChainHead
  head : ChainHead
  recordCount : Nat
  sealedAt : Int64
  deriving DecidableEq

/-- `FIXED_LEN`: the bytes before the segment name. -/
def fixedLen : Nat := 4 + 1 + 2 + 32 + 32 + 8 + 8 + 2

namespace Sidecar

/-- The fields that `Sidecar::encode` writes, in order. -/
def fields (s : Sidecar) : List Bytes :=
  [attestMagic, [s.formatVersion], leBytes 2 s.shardId.toNat, s.prevHead.bytes, s.head.bytes,
    leBytes 8 s.recordCount, i64Bytes s.sealedAt, leBytes 2 s.segmentName.utf8ByteSize,
    s.segmentName.toUTF8.data.toList]

/-- What the CRC of a sidecar covers. -/
def body (s : Sidecar) : Bytes := s.fields.flatten

/-- `Sidecar::encode`. -/
def encode (s : Sidecar) : Bytes := s.body ++ leBytes 4 (crc32 s.body).toNat

variable {bytes : Bytes}

/-- A sidecar that is not too short holds both heads. -/
theorem prevHead_width (h : ¬bytes.length < fixedLen + 4) : (slice bytes 7 39).length = 32 :=
  slice_length (by unfold fixedLen at h; omega)

theorem head_width (h : ¬bytes.length < fixedLen + 4) : (slice bytes 39 71).length = 32 :=
  slice_length (by unfold fixedLen at h; omega)

/-- `Sidecar::decode`. -/
def decode (bytes : Bytes) : Except AttestError Sidecar :=
  if hlen : bytes.length < fixedLen + 4 then .error .truncatedSidecar
  else if slice bytes 0 4 ≠ attestMagic then .error .badMagic
  else if bytes.getD 4 0 ≠ attestFormatVersion then
    .error (.unsupportedSidecarVersion (bytes.getD 4 0))
  else
    let nameLen := leNat (slice bytes (fixedLen - 2) fixedLen)
    let want := fixedLen + nameLen + 4
    if bytes.length ≠ want then .error .truncatedSidecar
    else if crc32 (bytes.take (want - 4)) ≠ UInt32.ofNat (leNat (slice bytes (want - 4) want)) then
      .error .sidecarCrcMismatch
    else if hutf8 :
        (⟨(slice bytes fixedLen (fixedLen + nameLen)).toArray⟩ : ByteArray).IsValidUTF8 then
      .ok
        { formatVersion := bytes.getD 4 0
          shardId := UInt16.ofNat (leNat (slice bytes 5 7))
          segmentName := String.fromUTF8 _ hutf8
          prevHead := ⟨slice bytes 7 39, prevHead_width hlen⟩
          head := ⟨slice bytes 39 71, head_width hlen⟩
          recordCount := leNat (slice bytes 71 79)
          sealedAt := i64Of (slice bytes 79 87) }
    else .error .truncatedSidecar

theorem fields_lengths (s : Sidecar) :
    s.fields.map List.length = [4, 1, 2, 32, 32, 8, 8, 2, s.segmentName.utf8ByteSize] := by
  have hutf8 : s.segmentName.toUTF8.data.toList.length = s.segmentName.utf8ByteSize := rfl
  simp only [fields, map_cons, map_nil, s.prevHead.width, s.head.width, leBytes_length,
    i64Bytes_length, length_cons, length_nil, hutf8, attestMagic]

theorem body_length (s : Sidecar) : s.body.length = fixedLen + s.segmentName.utf8ByteSize := by
  rw [body, length_flatten, fields_lengths]
  simp only [sum_cons, sum_nil, fixedLen]
  omega

/-- The `k`th field of an encoded sidecar stands behind those before it. -/
theorem slice_encode (s : Sidecar) {m : Bytes} {k a b : Nat} (hk : s.fields[k]? = some m)
    (ha : ([4, 1, 2, 32, 32, 8, 8, 2, s.segmentName.utf8ByteSize].take k).sum = a)
    (hb : a + m.length = b) : slice s.encode a b = m := by
  rw [← s.fields_lengths, ← map_take] at ha
  exact slice_field hk ha hb

/-- A sidecar decodes to what was encoded. -/
theorem decode_encode {s : Sidecar} (hversion : s.formatVersion = attestFormatVersion)
    (hname : s.segmentName.utf8ByteSize < 256 ^ 2) (hcount : s.recordCount < 256 ^ 8) :
    decode s.encode = .ok s := by
  have hlen := s.body_length
  have hsize : s.encode.length = fixedLen + s.segmentName.utf8ByteSize + 4 := by
    rw [encode, length_append, hlen, leBytes_length]
  have hmagic : slice s.encode 0 4 = attestMagic := s.slice_encode (k := 0) rfl rfl rfl
  have hformat : s.encode.getD 4 0 = s.formatVersion := rfl
  have hshard : slice s.encode 5 7 = leBytes 2 s.shardId.toNat :=
    s.slice_encode (k := 2) rfl rfl (by simp)
  have hprev : slice s.encode 7 39 = s.prevHead.bytes :=
    s.slice_encode (k := 3) rfl rfl (by rw [s.prevHead.width])
  have hhead : slice s.encode 39 71 = s.head.bytes :=
    s.slice_encode (k := 4) rfl rfl (by rw [s.head.width])
  have hcounted : slice s.encode 71 79 = leBytes 8 s.recordCount :=
    s.slice_encode (k := 5) rfl rfl (by simp)
  have hsealed : slice s.encode 79 87 = i64Bytes s.sealedAt :=
    s.slice_encode (k := 6) rfl rfl (by simp)
  have hnameLen : slice s.encode (fixedLen - 2) fixedLen
      = leBytes 2 s.segmentName.utf8ByteSize :=
    s.slice_encode (k := 7) rfl rfl (by simp [fixedLen])
  have hnamed : slice s.encode fixedLen (fixedLen + s.segmentName.utf8ByteSize)
      = s.segmentName.toUTF8.data.toList :=
    s.slice_encode (k := 8) rfl rfl rfl
  have hread : leNat (leBytes 2 s.segmentName.utf8ByteSize) = s.segmentName.utf8ByteSize :=
    leNat_leBytes_of_lt hname
  have hbody : s.encode.take (fixedLen + s.segmentName.utf8ByteSize) = s.body := by
    rw [encode, ← hlen, take_left]
  have hcrc : slice s.encode (fixedLen + s.segmentName.utf8ByteSize)
      (fixedLen + s.segmentName.utf8ByteSize + 4) = leBytes 4 (crc32 s.body).toNat := by
    have hmiddle := slice_middle (p := s.body) (m := leBytes 4 (crc32 s.body).toNat) (q := [])
      hlen rfl
    rwa [append_nil, leBytes_length] at hmiddle
  unfold decode
  rw [dif_neg (by omega), if_neg (not_not_intro hmagic), hformat, if_neg (not_not_intro hversion)]
  rw [hnameLen, hread, if_neg (not_not_intro hsize), Nat.add_sub_cancel, hbody, hcrc,
    crcField, if_neg (not_not_intro rfl)]
  have hbytes : (⟨(slice s.encode fixedLen (fixedLen + s.segmentName.utf8ByteSize)).toArray⟩
      : ByteArray) = s.segmentName.toUTF8 := by
    rw [hnamed]
  have hvalid : s.segmentName.toUTF8.IsValidUTF8 := s.segmentName.isValidUTF8
  have hs : leNat (leBytes 2 s.shardId.toNat) = s.shardId.toNat :=
    leNat_leBytes_of_lt s.shardId.toNat_lt
  simp only [hbytes, hshard, hprev, hhead, hcounted, hsealed, hs, i64Of_bytes,
    leNat_leBytes_of_lt hcount]
  rw [dif_pos hvalid, UInt16.ofNat_toNat]
  rfl

theorem singleton_slice {k : Nat} (h : k < bytes.length) :
    [bytes.getD k 0] = slice bytes k (k + 1) := by
  rw [slice, drop_eq_getElem_cons h, Nat.add_sub_cancel_left, take_succ_cons, take_zero, getD,
    getElem?_eq_getElem h, Option.getD_some]

theorem i64Bytes_of (h : bytes.length = 8) : i64Bytes (i64Of bytes) = bytes := by
  have hlt := leNat_lt bytes
  rw [h] at hlt
  rw [i64Bytes, i64Of, UInt64.toUInt64_toInt64, UInt64.toNat_ofNat_of_lt' hlt, leBytes_of_length h]

/-- The sidecars whose fields fit where `encode` puts them. -/
structure Fits (s : Sidecar) : Prop where
  version : s.formatVersion = attestFormatVersion
  name : s.segmentName.utf8ByteSize ≤ 65535
  count : s.recordCount < 2 ^ 64

/-- A sidecar decodes from its own encoding only. -/
theorem encode_of_decode {s : Sidecar} (h : decode bytes = .ok s) : s.Fits ∧ bytes = s.encode := by
  unfold decode at h
  split at h
  · cases h
  rename_i hlen
  have hlong : 93 ≤ bytes.length := Nat.le_of_not_lt hlen
  have hfield : ∀ a b, b ≤ 89 → leNat (slice bytes a b) < 256 ^ (b - a) ∧
      leBytes (b - a) (leNat (slice bytes a b)) = slice bytes a b := by
    intro a b hb
    have hwidth : (slice bytes a b).length = b - a := slice_length (by omega)
    have hlt := leNat_lt (slice bytes a b)
    exact ⟨by rwa [hwidth] at hlt, leBytes_of_length hwidth⟩
  split at h
  · cases h
  rename_i hmagic
  split at h
  · cases h
  rename_i hversion
  dsimp only at h
  obtain ⟨hname, hnamed⟩ := hfield (fixedLen - 2) fixedLen (by decide)
  generalize leNat (slice bytes (fixedLen - 2) fixedLen) = n at h hname hnamed
  split at h
  · cases h
  rename_i hwant
  split at h
  · cases h
  rename_i hcrc
  split at h
  on_goal 2 => cases h
  rename_i hutf8
  cases h
  obtain ⟨hshort, hshard⟩ := hfield 5 7 (by decide)
  obtain ⟨hcount, hcounted⟩ := hfield 71 79 (by decide)
  have hsize : (slice bytes fixedLen (fixedLen + n)).toArray.size = n := by
    rw [size_toArray, slice_length (by omega), Nat.add_sub_cancel_left]
  refine ⟨⟨not_not.mp hversion, Nat.le_of_lt_succ (hsize.trans_lt hname), hcount⟩, ?_⟩
  have hbody : body ⟨bytes.getD 4 0, UInt16.ofNat (leNat (slice bytes 5 7)),
      String.fromUTF8 _ hutf8, ⟨slice bytes 7 39, prevHead_width hlen⟩,
      ⟨slice bytes 39 71, head_width hlen⟩, leNat (slice bytes 71 79),
      i64Of (slice bytes 79 87)⟩ = bytes.take (fixedLen + n) := by
    show [attestMagic, [bytes.getD 4 0], leBytes 2 (UInt16.ofNat _).toNat, slice bytes 7 39,
      slice bytes 39 71, leBytes (79 - 71) (leNat (slice bytes 71 79)), i64Bytes _,
      leBytes (fixedLen - (fixedLen - 2)) (slice bytes fixedLen (fixedLen + n)).toArray.size,
      slice bytes fixedLen (fixedLen + n)].flatten = slice bytes 0 (fixedLen + n)
    rw [hsize, UInt16.toNat_ofNat_of_lt' hshort, ← not_not.mp hmagic, singleton_slice (by omega),
      i64Bytes_of (slice_length (by omega)), hnamed, show leBytes 2 _ = _ from hshard, hcounted]
    -- The fields leave no gap: the slices of two that meet append to one.
    have hfixed : fixedLen = 89 := rfl
    simp only [flatten_cons, flatten_nil, append_nil, hfixed]
    simp (disch := omega) only [slice_append_slice]
  have hfour : (slice bytes (fixedLen + n) (fixedLen + n + 4)).length = 4 := by
    rw [slice_length (by omega), Nat.add_sub_cancel_left]
  rw [Nat.add_sub_cancel] at hcrc
  have htail : slice bytes (fixedLen + n) (fixedLen + n + 4) = bytes.drop (fixedLen + n) :=
    take_of_length_le (by rw [length_drop]; omega)
  rw [encode, hbody, not_not.mp hcrc, leBytes_word hfour, htail, take_append_drop]

end Sidecar

/-! ## Heads in hexadecimal -/

/-- The bytes of a text that is ASCII. -/
def ascii (cs : List Char) : Bytes := cs.map Char.toUInt8

/-- The hexadecimal digits, of either case. -/
def hexDigits : Bytes := ascii "0123456789abcdefABCDEF".toList

/-- The sign that `from_str_radix` takes of an unsigned number, which has no other. -/
def plus : UInt8 := '+'.toUInt8

/-- `char::to_digit(16)`. -/
def toDigit (c : UInt8) : Option UInt8 :=
  (hexDigits.idxOf? c).map fun i => .ofNat (if i < 16 then i else i - 6)

/-- `u8::from_str_radix(_, 16)` of two characters: a `+` before a digit is a sign. -/
def fromStrRadix (a b : UInt8) : Option UInt8 :=
  if a = plus then toDigit b
  else (toDigit a).bind fun x => (toDigit b).map (16 * x + ·)

/-- The loop of `ChainHead::from_hex`. -/
def hexPairs : Bytes → Option Bytes
  | a :: b :: rest => (fromStrRadix a b).bind fun x => (hexPairs rest).map (x :: ·)
  | _ => some []

/-- Only the digits have a value. -/
theorem mem_of_toDigit {c d : UInt8} (h : toDigit c = some d) : c ∈ hexDigits := by
  obtain ⟨i, hi, -⟩ := Option.map_eq_some_iff.mp h
  by_contra hc
  rw [idxOf?_eq_none_iff.mpr hc] at hi
  cases hi

/-- Each pair is a byte. Without a sign, only digits are read. -/
theorem hexPairs_some : ∀ {s bytes : Bytes}, hexPairs s = some bytes →
    bytes.length = s.length / 2 ∧ (s.length % 2 = 0 → plus ∉ s → ∀ c ∈ s, c ∈ hexDigits)
  | [], _, h => by cases h; simp
  | [_], _, h => by cases h; simp
  | a :: b :: rest, bytes, h => by
    obtain ⟨x, hx, h⟩ := Option.bind_eq_some_iff.mp h
    obtain ⟨more, hmore, rfl⟩ := Option.map_eq_some_iff.mp h
    obtain ⟨hlen, hdigits⟩ := hexPairs_some hmore
    simp only [length_cons, hlen, mem_cons, not_or, forall_eq_or_imp]
    refine ⟨by omega, fun heven hplus => ?_⟩
    rw [fromStrRadix, if_neg (Ne.symm hplus.1)] at hx
    obtain ⟨y, hy, hx⟩ := Option.bind_eq_some_iff.mp hx
    obtain ⟨z, hz, -⟩ := Option.map_eq_some_iff.mp hx
    exact ⟨mem_of_toDigit hy, mem_of_toDigit hz, hdigits (by omega) hplus.2.2⟩

/-- `ChainHead::from_hex`, of the bytes of a text. -/
def ChainHead.fromHex (s : Bytes) : Except AttestError ChainHead :=
  if hlen : s.length ≠ 64 then .error (.badHexLength s.length)
  else if ∃ c ∈ s, 128 ≤ c then .error .badHexDigit
  else
    match hs : hexPairs s with
    | none => .error .badHexDigit
    | some bytes => .ok ⟨bytes, by rw [(hexPairs_some hs).1, not_not.mp hlen]⟩

/-- `ChainHead::to_hex`. -/
def ChainHead.toHex (head : ChainHead) : Bytes := ascii (Sink.toHex head.bytes)

/-- `u8::to_ascii_lowercase`. -/
def toAsciiLowercase (c : UInt8) : UInt8 := if 65 ≤ c ∧ c ≤ 90 then c + 32 else c

/-- A text of 64 hexadecimal digits. -/
def HexText (s : Bytes) : Prop := s.length = 64 ∧ ∀ c ∈ s, c ∈ hexDigits

variable {s bytes : Bytes} {head : ChainHead}

theorem ChainHead.fromHex_ok (h : fromHex s = .ok head) :
    s.length = 64 ∧ hexPairs s = some head.bytes := by
  unfold fromHex at h
  split at h
  · cases h
  rename_i hlen
  split at h
  · cases h
  split at h
  · cases h
  rename_i hs
  cases h
  exact ⟨not_not.mp hlen, hs⟩

/-- A pair of digits is the byte that is spelled so in lower case. -/
theorem fromStrRadix_digits : ∀ a ∈ hexDigits, ∀ b ∈ hexDigits,
    (fromStrRadix a b).map (fun x => ascii (hexFixed 2 x.toNat))
      = some [toAsciiLowercase a, toAsciiLowercase b] := by
  decide +kernel

/-- Digits are read, as the bytes that spell them in lower case. -/
theorem hexPairs_digits : ∀ {s : Bytes}, s.length % 2 = 0 → (∀ c ∈ s, c ∈ hexDigits) →
    ∃ bytes, hexPairs s = some bytes ∧ ascii (Sink.toHex bytes) = s.map toAsciiLowercase
  | [], _, _ => ⟨[], rfl, rfl⟩
  | [_], heven, _ => by cases heven
  | a :: b :: rest, heven, h => by
    simp only [mem_cons, forall_eq_or_imp] at h
    rw [length_cons, length_cons] at heven
    obtain ⟨more, hmore, hspells⟩ := hexPairs_digits (by omega) h.2.2
    obtain ⟨x, hx, hpair⟩ := Option.map_eq_some_iff.mp (fromStrRadix_digits a h.1 b h.2.1)
    refine ⟨x :: more, by simp [hexPairs, hx, hmore], ?_⟩
    rw [Sink.toHex, flatMap_cons, ascii, map_append, ← ascii, hpair, ← Sink.toHex, ← ascii, hspells]
    rfl

/-- A text of 64 digits is accepted, with the head that spells it. -/
theorem HexText.read (h : HexText s) :
    ∃ head, ChainHead.fromHex s = .ok head ∧ head.toHex = s.map toAsciiLowercase := by
  obtain ⟨bytes, hs, hspells⟩ := hexPairs_digits (by rw [h.1]) h.2
  refine ⟨⟨bytes, by rw [(hexPairs_some hs).1, h.1]⟩, ?_, hspells⟩
  have hascii : ∀ c ∈ hexDigits, ¬128 ≤ c := by decide +kernel
  unfold ChainHead.fromHex
  rw [dif_neg (not_not_intro h.1), if_neg]
  · split
    next hnone => rw [hs] at hnone; cases hnone
    next hsome => rw [hs] at hsome; cases hsome; rfl
  · rintro ⟨c, hc, hge⟩
    exact hascii c (h.2 c hc) hge

/-- What is printed reads back. -/
theorem hexPairs_toHex (bytes : Bytes) : hexPairs (ascii (Sink.toHex bytes)) = some bytes := by
  have hbyte : ∀ n : Fin 256, fromStrRadix (Nat.digitChar (n / 16 % 16)).toUInt8
      (Nat.digitChar (n % 16)).toUInt8 = some (.ofNat n) := by decide +kernel
  induction bytes with
  | nil => rfl
  | cons b bytes ih =>
    have hb := hbyte ⟨b.toNat, b.toNat_lt⟩
    rw [UInt8.ofNat_toNat] at hb
    show (fromStrRadix _ _).bind (fun x => (hexPairs (ascii (Sink.toHex bytes))).map (x :: ·)) = _
    rw [ih, show fromStrRadix _ _ = some b from hb]
    rfl

/-- A head reads back from its text, as its text is digits and spells no other head. -/
theorem ChainHead.fromHex_toHex (head : ChainHead) : fromHex head.toHex = .ok head := by
  have hdigit : ∀ d < 16, (Nat.digitChar d).toUInt8 ∈ hexDigits := by decide +kernel
  have htext : HexText head.toHex := by
    refine ⟨?_, fun c hc => ?_⟩
    · simp [toHex, ascii, Sink.toHex, length_flatMap, hexFixed_length, head.width]
    · obtain ⟨x, hx, rfl⟩ := mem_map.mp hc
      obtain ⟨d, hd, rfl⟩ := mem_toHex hx
      exact hdigit d hd
  obtain ⟨head', hread, -⟩ := htext.read
  have hbytes := (fromHex_ok hread).2.symm.trans (hexPairs_toHex head.bytes)
  rw [hread, ChainHead.ext (Option.some.inj hbytes)]

end Weir.Attest

import Weir.Lib.LittleEndian
import Weir.Lib.Crc32

/-!
# The on-disk segment format (`weir-wab/src/format.rs`)

A segment file is a 24-byte header, then records framed as
`payload_len (u32 LE) ++ crc32 (u32 LE) ++ payload`, then the four zero bytes
of the sentinel, then a 32-byte footer. A `.confirmed` sidecar is a fixed
36-byte file. Builders and parsers are kept in pairs, and each pair has its
round trip: `parseSegmentHeader_build`, `parseConfirmed_build`.

Timestamps are the source's `i64` (`Int64`); a shard id is its `u16`. The
`u64` counters are `Nat`, reduced to eight bytes where they are written, as
the `to_le_bytes` of the source does.
-/

namespace Weir.Wab

open Weir.Lib List

/-- The error kinds of `std::io` the modelled functions produce or test for. -/
inductive ErrorKind
  | notFound
  | permissionDenied
  | alreadyExists
  | invalidInput
  | invalidData
  | unexpectedEof
  | writeZero
  | wouldBlock
  | timedOut
  | connectionReset
  | interrupted
  | outOfMemory
  | isADirectory
  | notADirectory
  | other
  deriving DecidableEq, Repr

/-- An `io::Error`: its kind, the errno it came with (a synthesised error has
none), and its message. -/
structure IoError where
  kind : ErrorKind
  rawOsError : Option Nat
  message : String
  deriving DecidableEq, Repr

/-- `io::Error::new`. -/
def IoError.new (kind : ErrorKind) (message : String) : IoError := ⟨kind, none, message⟩

/-- `{:#010x}`. -/
def hex32 (n : UInt32) : String :=
  let digits := Nat.toDigits 16 n.toNat
  "0x" ++ String.ofList (replicate (8 - digits.length) '0' ++ digits)

/-- How a segment's records are stored. -/
inductive Compression
  | none
  | zstd
  deriving DecidableEq, Repr

def formatVersionV1 : UInt8 := 1
def formatVersionV2 : UInt8 := 2
def formatVersionMaxSupported : UInt8 := formatVersionV2
def flagZstd : UInt8 := 1
def knownFlags : UInt8 := flagZstd

/-- The header flags byte. -/
def Compression.flags : Compression → UInt8
  | .none => 0
  | .zstd => flagZstd

/-- The lowest format version that can express the mode. -/
def Compression.formatVersion : Compression → UInt8
  | .none => formatVersionV1
  | .zstd => formatVersionV2

/-- `weir_core::MAX_PAYLOAD_HARD_CAP`. -/
def maxPayloadHardCap : Nat := 16 * 1024 * 1024

/-- zstd's worst-case compressed size. -/
def compressBound (n : Nat) : Nat := n + n / 255 + 16

def maxStoredRecordBytes : Nat := compressBound maxPayloadHardCap

/-- The stored-record cap of a segment: the writer, the reader and recovery
each select it from the header's compression with this same match. -/
def Compression.storedCap : Compression → Nat
  | .none => maxPayloadHardCap
  | .zstd => maxStoredRecordBytes

/-- Both caps fit the `u32` length field. -/
theorem Compression.storedCap_lt (c : Compression) : c.storedCap < 256 ^ 4 := by
  cases c <;> decide

def segmentMagic : Bytes := [0x57, 0x45, 0x49, 0x52]
def segmentHeaderLen : Nat := 24
def segmentFooterLen : Nat := 32

/-- `SENTINEL` / `build_sentinel`. -/
def buildSentinel : Bytes := [0, 0, 0, 0]

def confirmedMagic : Bytes := [0x57, 0x43, 0x4F, 0x4E]
def confirmedVersion : UInt8 := 1
def confirmedLen : Nat := 36

/-- `buf[a..b]`. -/
def slice (buf : Bytes) (a b : Nat) : Bytes := (buf.drop a).take (b - a)

/-- `i64::to_le_bytes`. -/
def i64Bytes (t : Int64) : Bytes := leBytes 8 t.toUInt64.toNat

/-- `i64::from_le_bytes`. -/
def i64Of (bs : Bytes) : Int64 := (UInt64.ofNat (leNat bs)).toInt64

@[simp] theorem i64Bytes_length (t : Int64) : (i64Bytes t).length = 8 := leBytes_length 8 _

theorem i64Of_bytes (t : Int64) : i64Of (i64Bytes t) = t := by
  have hlt : t.toUInt64.toNat < 256 ^ 8 := t.toUInt64.toNat_lt
  rw [i64Of, i64Bytes, leNat_leBytes_of_lt hlt]
  simp

/-! ## Segment header -/

/-- The 24-byte segment header; `createdAt` is `unix_nanos_now()` at creation. -/
def buildSegmentHeader (shardId : UInt16) (c : Compression) (createdAt : Int64) : Bytes :=
  segmentMagic ++ [c.formatVersion, c.flags] ++ leBytes 2 shardId.toNat ++ i64Bytes createdAt
    ++ replicate 8 0

structure SegmentHeaderMeta where
  formatVersion : UInt8
  compression : Compression
  shardId : UInt16
  createdAt : Int64
  deriving DecidableEq, Repr

inductive SegmentHeaderParseError
  | wrongLength (got : Nat)
  | badMagic
  | unknownVersion (v : UInt8)
  | reservedFlagsSet (version flags : UInt8)
  deriving DecidableEq, Repr

/-- `{:#010b}` of a byte. -/
def binaryByte (b : UInt8) : String :=
  "0b" ++ String.ofList ((List.range 8).map fun i => if b.toNat.testBit (7 - i) then '1' else '0')

/-- The `Display` of a header error. -/
def SegmentHeaderParseError.display : SegmentHeaderParseError → String
  | .wrongLength got => s!"segment header is {got} bytes, expected {segmentHeaderLen}"
  | .badMagic => "segment header has bad magic (expected b\"WEIR\")"
  | .unknownVersion v => s!"unknown segment format version {v}"
  | .reservedFlagsSet v flags =>
    s!"segment header (v{v}) has reserved flag bits set: " ++ binaryByte flags
      ++ "; written by a newer weir, or corrupt"

/-- The compression a version byte and a flags byte declare. -/
def headerCompression (version flags : UInt8) : Except SegmentHeaderParseError Compression :=
  if version = formatVersionV1 then
    if flags = 0 then .ok .none else .error (.reservedFlagsSet formatVersionV1 flags)
  else if version = formatVersionV2 then
    if flags &&& ~~~knownFlags ≠ 0 then .error (.reservedFlagsSet formatVersionV2 flags)
    else if flags &&& flagZstd ≠ 0 then .ok .zstd
    else .ok .none
  else .error (.unknownVersion version)

/-- `parse_segment_header`. -/
def parseSegmentHeader (buf : Bytes) : Except SegmentHeaderParseError SegmentHeaderMeta :=
  if buf.length ≠ segmentHeaderLen then .error (.wrongLength buf.length)
  else if slice buf 0 4 ≠ segmentMagic then .error .badMagic
  else
    match headerCompression (buf.getD 4 0) (buf.getD 5 0) with
    | .error e => .error e
    | .ok c =>
      .ok { formatVersion := buf.getD 4 0
            compression := c
            shardId := UInt16.ofNat (leNat (slice buf 6 8))
            createdAt := i64Of (slice buf 8 16) }

@[simp] theorem buildSegmentHeader_length (s : UInt16) (c : Compression) (t : Int64) :
    (buildSegmentHeader s c t).length = segmentHeaderLen := by
  simp [buildSegmentHeader, segmentMagic, segmentHeaderLen]

theorem headerCompression_build (c : Compression) :
    headerCompression c.formatVersion c.flags = .ok c := by
  cases c <;> rfl

variable {a b : Nat} {file : Bytes}

/-- A slice that covers exactly the middle of a concatenation. -/
theorem slice_middle {p m q : Bytes} (ha : p.length = a)
    (hb : a + m.length = b) : slice (p ++ m ++ q) a b = m := by
  have hlen : b - a = m.length := by omega
  rw [slice, append_assoc, ← ha, drop_left, ha, hlen, take_left]

theorem slice_length (hb : b ≤ file.length) : (slice file a b).length = b - a := by
  rw [slice, length_take, length_drop]
  omega

/-- A slice and the one behind it. -/
theorem slice_append_slice {c : Nat} (hab : a ≤ b) (hbc : b ≤ c) :
    slice file a b ++ slice file b c = slice file a c := by
  have hdrop : file.drop b = (file.drop a).drop (b - a) := by
    rw [drop_drop, Nat.add_sub_cancel' hab]
  have hlen : c - a = b - a + (c - b) := by omega
  rw [slice, slice, slice, hlen, hdrop, ← take_add]

theorem slice_append_drop (h : a ≤ b) : slice file a b ++ file.drop b = file.drop a := by
  have hdrop : file.drop b = (file.drop a).drop (b - a) := by
    rw [drop_drop, Nat.add_sub_cancel' h]
  rw [slice, hdrop, take_append_drop]

/-- A field of a concatenation, behind the fields before it. -/
theorem slice_field {fields : List Bytes} {tail m : Bytes} {k : Nat} (hk : fields[k]? = some m)
    (ha : ((fields.take k).map List.length).sum = a) (hb : a + m.length = b) :
    slice (fields.flatten ++ tail) a b = m := by
  obtain ⟨hlt, hm⟩ := List.getElem?_eq_some_iff.mp hk
  have hsplit : fields.take k ++ (m :: fields.drop (k + 1)) = fields := by
    rw [← hm, ← drop_eq_getElem_cons hlt, take_append_drop]
  have hflat : fields.flatten
      = (fields.take k).flatten ++ (m ++ (fields.drop (k + 1)).flatten) := by
    rw [← flatten_cons, ← flatten_append, hsplit]
  rw [hflat, append_assoc, append_assoc, ← append_assoc]
  exact slice_middle (by rw [length_flatten, ha]) hb

/-- The writer's header parses back to what it was built from. -/
theorem parseSegmentHeader_build (s : UInt16) (c : Compression) (t : Int64) :
    parseSegmentHeader (buildSegmentHeader s c t) = .ok ⟨c.formatVersion, c, s, t⟩ := by
  have hmagic : slice (buildSegmentHeader s c t) 0 4 = segmentMagic := by
    simp only [buildSegmentHeader, append_assoc]
    exact slice_middle (p := []) rfl rfl
  have hver : (buildSegmentHeader s c t).getD 4 0 = c.formatVersion := by
    simp [buildSegmentHeader, segmentMagic]
  have hflags : (buildSegmentHeader s c t).getD 5 0 = c.flags := by
    simp [buildSegmentHeader, segmentMagic]
  have hshard : slice (buildSegmentHeader s c t) 6 8 = leBytes 2 s.toNat := by
    rw [buildSegmentHeader, append_assoc _ (i64Bytes t)]
    exact slice_middle rfl (by simp)
  have hcreated : slice (buildSegmentHeader s c t) 8 16 = i64Bytes t :=
    slice_middle (by simp [segmentMagic]) (by simp)
  have hs : leNat (leBytes 2 s.toNat) = s.toNat := leNat_leBytes_of_lt s.toNat_lt
  unfold parseSegmentHeader
  rw [if_neg (by simp), if_neg (by simp [hmagic]), hver, hflags, headerCompression_build, hshard,
    hcreated, hs, i64Of_bytes]
  simp

/-- A header that parses is 24 bytes long. -/
theorem parseSegmentHeader_length {buf : Bytes} {m : SegmentHeaderMeta}
    (h : parseSegmentHeader buf = .ok m) : buf.length = segmentHeaderLen := by
  unfold parseSegmentHeader at h
  split at h
  · cases h
  next hlen => exact Decidable.not_not.mp hlen

/-! ## Records and footer -/

/-- One stored record as it lies in the file. -/
def encodeRecord (stored : Bytes) : Bytes :=
  leBytes 4 stored.length ++ leBytes 4 (crc32 stored).toNat ++ stored

/-- A run of stored records. -/
def encodeRecords (rs : List Bytes) : Bytes := rs.flatMap encodeRecord

@[simp] theorem encodeRecord_length (s : Bytes) : (encodeRecord s).length = 8 + s.length := by
  simp only [encodeRecord, length_append, leBytes_length]

@[simp] theorem encodeRecords_nil : encodeRecords [] = [] := rfl

theorem encodeRecords_cons (s : Bytes) (rs : List Bytes) :
    encodeRecords (s :: rs) = encodeRecord s ++ encodeRecords rs := rfl

theorem encodeRecords_append (xs ys : List Bytes) :
    encodeRecords (xs ++ ys) = encodeRecords xs ++ encodeRecords ys := List.flatMap_append

/-- No record is empty on disk. -/
theorem length_le_encodeRecords (rs : List Bytes) : rs.length ≤ (encodeRecords rs).length := by
  induction rs with
  | nil => exact le_rfl
  | cons s rs ih =>
    rw [encodeRecords_cons, length_append, encodeRecord_length, length_cons]
    omega

/-- The framing only adds. -/
theorem sum_length_le_encodeRecords (ss : List Bytes) :
    (ss.map List.length).sum ≤ (encodeRecords ss).length := by
  induction ss with
  | nil => exact le_rfl
  | cons s ss ih =>
    rw [encodeRecords_cons, length_append, encodeRecord_length, map_cons, sum_cons]
    omega

/-- The 32-byte segment footer. -/
def buildSegmentFooter (recordCount dataBytes : Nat) (fileCrc32 : UInt32) (sealedAt : Int64) :
    Bytes :=
  leBytes 8 recordCount ++ leBytes 8 dataBytes ++ leBytes 4 fileCrc32.toNat ++ i64Bytes sealedAt
    ++ replicate 4 0

@[simp] theorem buildSegmentFooter_length (n d : Nat) (c : UInt32) (t : Int64) :
    (buildSegmentFooter n d c t).length = segmentFooterLen := by
  simp [buildSegmentFooter, segmentFooterLen]

/-- A well-formed sealed segment: header, records, sentinel, and the footer that
describes them. -/
def sealedBytes (header : Bytes) (ss : List Bytes) (sealedAt : Int64) : Bytes :=
  header ++ encodeRecords ss ++ (buildSentinel
    ++ buildSegmentFooter ss.length (ss.map List.length).sum (crc32 (header ++ encodeRecords ss))
      sealedAt)

structure SegmentFooterMeta where
  recordCount : Nat
  dataBytes : Nat
  fileCrc32 : UInt32
  sealedAt : Int64
  deriving DecidableEq, Repr

/-- `parse_segment_footer`: positional, so only the length is checked. -/
def parseSegmentFooter (buf : Bytes) : Option SegmentFooterMeta :=
  if buf.length ≠ segmentFooterLen then none
  else some
    { recordCount := leNat (slice buf 0 8)
      dataBytes := leNat (slice buf 8 16)
      fileCrc32 := UInt32.ofNat (leNat (slice buf 16 20))
      sealedAt := i64Of (slice buf 20 28) }

/-- A footer parses back to what it was built from. -/
theorem parseSegmentFooter_build {n d : Nat} {c : UInt32} {t : Int64} (hn : n < 256 ^ 8)
    (hd : d < 256 ^ 8) : parseSegmentFooter (buildSegmentFooter n d c t) = some ⟨n, d, c, t⟩ := by
  have hcount : slice (buildSegmentFooter n d c t) 0 8 = leBytes 8 n := by
    simp only [buildSegmentFooter, append_assoc]
    exact slice_middle (p := []) rfl (by simp)
  have hdata : slice (buildSegmentFooter n d c t) 8 16 = leBytes 8 d := by
    rw [buildSegmentFooter, append_assoc _ (i64Bytes t), append_assoc _ (leBytes 4 _)]
    exact slice_middle (by simp) (by simp)
  have hcrc : slice (buildSegmentFooter n d c t) 16 20 = leBytes 4 c.toNat := by
    rw [buildSegmentFooter, append_assoc _ (i64Bytes t)]
    exact slice_middle (by simp) (by simp)
  have hsealed : slice (buildSegmentFooter n d c t) 20 28 = i64Bytes t :=
    slice_middle (by simp) (by simp)
  unfold parseSegmentFooter
  rw [if_neg (by simp), hcount, hdata, hcrc, hsealed, leNat_leBytes_of_lt hn,
    leNat_leBytes_of_lt hd, leNat_leBytes_of_lt c.toNat_lt, i64Of_bytes]
  simp

/-! ## Confirmation sidecar -/

structure ConfirmedMeta where
  sealedAt : Int64
  recordCount : Nat
  drainedAt : Int64
  deriving DecidableEq, Repr

/-- The first 32 bytes of a sidecar, which its CRC covers. -/
def confirmedBody (sealedAt : Int64) (recordCount : Nat) (drainedAt : Int64) : Bytes :=
  confirmedMagic ++ [confirmedVersion, 0, 0, 0] ++ i64Bytes sealedAt ++ leBytes 8 recordCount
    ++ i64Bytes drainedAt

/-- `build_confirmed`. -/
def buildConfirmed (sealedAt : Int64) (recordCount : Nat) (drainedAt : Int64) : Bytes :=
  confirmedBody sealedAt recordCount drainedAt
    ++ leBytes 4 (crc32 (confirmedBody sealedAt recordCount drainedAt)).toNat

inductive ConfirmedParseError
  | wrongLength (got : Nat)
  | badMagic
  | unknownVersion (v : UInt8)
  | crcMismatch (expected computed : UInt32)
  deriving DecidableEq, Repr

/-- `parse_confirmed`. -/
def parseConfirmed (buf : Bytes) : Except ConfirmedParseError ConfirmedMeta :=
  if buf.length ≠ confirmedLen then .error (.wrongLength buf.length)
  else if slice buf 0 4 ≠ confirmedMagic then .error .badMagic
  else if buf.getD 4 0 ≠ confirmedVersion then .error (.unknownVersion (buf.getD 4 0))
  else if UInt32.ofNat (leNat (slice buf 32 36)) ≠ crc32 (slice buf 0 32) then
    .error (.crcMismatch (UInt32.ofNat (leNat (slice buf 32 36))) (crc32 (slice buf 0 32)))
  else .ok
    { sealedAt := i64Of (slice buf 8 16)
      recordCount := leNat (slice buf 16 24)
      drainedAt := i64Of (slice buf 24 32) }

@[simp] theorem confirmedBody_length (s : Int64) (n : Nat) (d : Int64) :
    (confirmedBody s n d).length = 32 := by
  simp [confirmedBody, confirmedMagic]

/-- The drain's sidecar parses; its record count comes back modulo `2 ^ 64`. -/
theorem parseConfirmed_build (s : Int64) (n : Nat) (d : Int64) :
    parseConfirmed (buildConfirmed s n d) = .ok ⟨s, n % 256 ^ 8, d⟩ := by
  have hmagic : slice (buildConfirmed s n d) 0 4 = confirmedMagic := by
    simp only [buildConfirmed, confirmedBody, append_assoc]
    exact slice_middle (p := []) rfl rfl
  have hver : (buildConfirmed s n d).getD 4 0 = confirmedVersion := by
    simp [buildConfirmed, confirmedBody, confirmedMagic]
  have hcrc : slice (buildConfirmed s n d) 32 36
      = leBytes 4 (crc32 (confirmedBody s n d)).toNat := by
    have h := slice_middle (p := confirmedBody s n d)
      (m := leBytes 4 (crc32 (confirmedBody s n d)).toNat) (q := [])
      (confirmedBody_length s n d) (b := 36) (by simp)
    rwa [append_nil] at h
  have hbody : slice (buildConfirmed s n d) 0 32 = confirmedBody s n d :=
    slice_middle (p := []) rfl (by simp)
  have hsealed : slice (buildConfirmed s n d) 8 16 = i64Bytes s := by
    rw [buildConfirmed, confirmedBody, append_assoc _ (leBytes 8 n),
      append_assoc _ (leBytes 8 n ++ _)]
    exact slice_middle rfl (by simp)
  have hcount : slice (buildConfirmed s n d) 16 24 = leBytes 8 n := by
    rw [buildConfirmed, confirmedBody, append_assoc _ (i64Bytes d)]
    exact slice_middle (by simp [confirmedMagic]) (by simp)
  have hdrained : slice (buildConfirmed s n d) 24 32 = i64Bytes d :=
    slice_middle (by simp [confirmedMagic]) (by simp)
  have h32 : leNat (leBytes 4 (crc32 (confirmedBody s n d)).toNat)
      = (crc32 (confirmedBody s n d)).toNat :=
    leNat_leBytes_of_lt (crc32 (confirmedBody s n d)).toNat_lt
  have hlen : (buildConfirmed s n d).length = confirmedLen := by
    simp [buildConfirmed, confirmedLen]
  unfold parseConfirmed
  rw [if_neg (by simp [hlen]), if_neg (by simp [hmagic]), if_neg (by rw [hver]; simp), hcrc,
    hbody, h32, if_neg (by simp), hsealed, hcount, hdrained, i64Of_bytes, i64Of_bytes,
    leNat_leBytes]

end Weir.Wab

import Mathlib.Data.Set.Function
import Weir.Sink.Batch
import Weir.Drain.Truncation

/-!
# Object names of the S3 sink (`weir-sink-s3/src/{key,time,framing,lib}.rs`)

A sub-batch becomes one object. Its key is the prefix, the partition the
segment's creation time renders to, and a name: the creation time, the id of the
first record and the number of records. A `PutObject` overwrites what is under
its key.

> `object_key_content`: two sub-batches the drain hands over, in whatever
> attempts and under whatever settings, have one key only if they are the same
> records and make the same object.
-/

namespace Weir.Sink

open Weir.Lib Weir.Wab Weir.Drain List

/-! ## Time -/

structure Utc where
  year : Int
  month : Nat
  day : Nat
  hour : Nat
  minute : Nat
  second : Nat
  deriving DecidableEq, Repr

/-- `civil_from_days`. -/
def civilFromDays (z : Int) : Int × Nat × Nat :=
  let z := z + 719468
  let era := (if z ≥ 0 then z else z - 146096).tdiv 146097
  let doe := (z - era * 146097).toNat
  let yoe := (doe - doe / 1460 + doe / 36524 - doe / 146096) / 365
  let y := (yoe : Int) + era * 400
  let doy := doe - (365 * yoe + yoe / 4 - yoe / 100)
  let mp := (5 * doy + 2) / 153
  let d := doy - (153 * mp + 2) / 5 + 1
  let m := if mp < 10 then mp + 3 else mp - 9
  (if m ≤ 2 then y + 1 else y, m, d)

/-- `utc_from_unix_nanos`; the divisions are Euclidean. -/
def utcFromUnixNanos (nanos : Int64) : Utc :=
  let secs := nanos.toInt / 1000000000
  let days := secs / 86400
  let sod := (secs % 86400).toNat
  match civilFromDays days with
  | (year, month, day) => ⟨year, month, day, sod / 3600, sod % 3600 / 60, sod % 60⟩

/-! ## Partition templates -/

/-- `str::trim_matches('/')`. -/
def trimSlashes (s : List Char) : List Char :=
  ((s.dropWhile (· = '/')).reverse.dropWhile (· = '/')).reverse

inductive Piece
  | literal (s : List Char)
  | year
  | month
  | day
  | hour
  deriving DecidableEq, Repr

structure PartitionTemplate where
  pieces : List Piece
  deriving DecidableEq, Repr

/-- `{n:0w}`: decimal, padded with zeros to `w` digits. -/
def padded (w n : Nat) : List Char :=
  replicate (w - (Nat.toDigits 10 n).length) '0' ++ Nat.toDigits 10 n

/-- `{y:04}` of a signed year; the sign counts towards the width. -/
def paddedYear (y : Int) : List Char :=
  if y < 0 then '-' :: padded 3 y.natAbs else padded 4 y.natAbs

/-- `PartitionTemplate::render`. -/
def PartitionTemplate.render (tmpl : PartitionTemplate) (t : Utc) : List Char :=
  tmpl.pieces.flatMap fun
    | .literal s => s
    | .year => paddedYear t.year
    | .month => padded 2 t.month
    | .day => padded 2 t.day
    | .hour => padded 2 t.hour

/-! ## Objects -/

/-- `key::batch_name`. -/
def batchName (createdAt : Int64) (firstRecordIdHex : List Char) (count : Nat) : List Char :=
  hexFixed 16 createdAt.toUInt64.toNat ++ '-' :: (firstRecordIdHex ++ '-' :: Nat.toDigits 10 count)

/-- The parts of a key before its leaf: the prefix and the partition, where they are
not empty. -/
def keyParts (pre : List Char) (tmpl : PartitionTemplate) (createdAt : Int64) : List (List Char) :=
  let pre := trimSlashes pre
  let rendered := trimSlashes (tmpl.render (utcFromUnixNanos createdAt))
  (if pre = [] then [] else [pre]) ++
    (if tmpl.pieces = [] ∨ rendered = [] then [] else [rendered])

/-- `key::object_key`. -/
def objectKey (pre : List Char) (tmpl : PartitionTemplate) (createdAt : Int64)
    (name ext : List Char) : List Char :=
  ['/'].intercalate (keyParts pre tmpl createdAt ++ [name ++ '.' :: ext])

inductive Framing
  | ndjson
  | lengthPrefixed
  deriving DecidableEq, Repr

inductive ObjectCompression
  | none
  | zstd
  | gzip
  deriving DecidableEq, Repr

/-- `framing::extension`. -/
def extension (framing : Framing) (compression : ObjectCompression) : List Char :=
  let base := match framing with
    | .ndjson => "ndjson".toList
    | .lengthPrefixed => "weirbin".toList
  match compression with
  | .none => base
  | .zstd => base ++ ".zst".toList
  | .gzip => base ++ ".gz".toList

/-- The compressors, which live outside the repository. -/
structure Encoders where
  zstd : Bytes → Bytes
  gzip : Bytes → Bytes

/-- The dead-letter reason for a record NDJSON cannot represent. -/
def newlineReason : String :=
  "record contains a newline; NDJSON framing cannot represent it "
    ++ "(set sink_s3_framing = \"length-prefixed\" for binary payloads)"

structure Framed where
  body : Bytes
  committed : List Bytes
  deadLettered : List (Bytes × String)
  deriving DecidableEq

/-- The record cannot be a line. -/
def breaksLine (record : Bytes) : Bool := record.any fun b => b = 10 || b = 13

/-- What `framing::frame` lays out for one record, where it does. -/
def frameRecord (framing : Framing) (record : Bytes) : Option Bytes :=
  match framing with
  | .ndjson => if breaksLine record then none else some (record ++ [10])
  | .lengthPrefixed => some (leBytes 8 record.length ++ record)

def Encoders.compress (enc : Encoders) (compression : ObjectCompression) (raw : Bytes) : Bytes :=
  match compression with
  | .none => raw
  | .zstd => enc.zstd raw
  | .gzip => enc.gzip raw

/-- `framing::frame`. -/
def frame (enc : Encoders) (records : List Bytes) (framing : Framing)
    (compression : ObjectCompression) : Framed :=
  let raw := (records.filterMap (frameRecord framing)).flatten
  { body := if raw = [] then [] else enc.compress compression raw
    committed := records.filter fun r => (frameRecord framing r).isSome
    deadLettered :=
      (records.filter fun r => (frameRecord framing r).isNone).map (·, newlineReason) }

/-- `S3Sink`, without its client. -/
structure S3Sink where
  pre : List Char
  partition : PartitionTemplate
  framing : Framing
  compression : ObjectCompression
  maxBatchSize : Nat

namespace S3Sink

/-- `S3Sink::batch_name`: a batch without ids is named by its token. -/
def batchName (batch : SinkBatch) (createdAt : Int64) : List Char :=
  match batch.recordIds.bind List.head? with
  | some first => Sink.batchName createdAt (toHex first) batch.records.length
  | none => Sink.batchName createdAt (toHex batch.dedupToken) batch.records.length

/-- The key `S3Sink::commit` writes under. -/
def key (sink : S3Sink) (batch : SinkBatch) : List Char :=
  let createdAt := batch.segmentCreatedAt.getD 0
  objectKey sink.pre sink.partition createdAt (batchName batch createdAt)
    (extension sink.framing sink.compression)

/-- The `PutObject` of `S3Sink::commit`: the key and the body. An empty body is not
written. -/
def put (sink : S3Sink) (enc : Encoders) (batch : SinkBatch) : Option (List Char × Bytes) :=
  let framed := frame enc batch.records sink.framing sink.compression
  if framed.body = [] then none else some (sink.key batch, framed.body)

end S3Sink

/-! ## A key determines its fields -/

/-- What is no hexadecimal digit is in no hexadecimal text. -/
theorem not_mem_hex {c : Char} (hc : ∀ d : Fin 16, c ≠ Nat.digitChar d) {text : List Char}
    (h : ∀ c ∈ text, ∃ d < 16, c = Nat.digitChar d) : c ∉ text := by
  intro hmem
  obtain ⟨d, hd, heq⟩ := h c hmem
  exact hc ⟨d, hd⟩ heq

theorem not_mem_toDigits {c : Char} (hc : c.isDigit = false) (n : Nat) : c ∉ Nat.toDigits 10 n := by
  intro hmem
  rw [Nat.isDigit_of_mem_toDigits (by decide) (by decide) hmem] at hc
  cases hc

/-- A name has neither of the other separators of a key in it. -/
theorem not_mem_batchName {c : Char} (hc : ∀ d : Fin 16, c ≠ Nat.digitChar d)
    (hdigit : c.isDigit = false) (hdash : c ≠ '-') {hex : List Char}
    (hhex : ∀ c ∈ hex, ∃ d < 16, c = Nat.digitChar d) (createdAt : Int64) (count : Nat) :
    c ∉ batchName createdAt hex count := by
  intro hmem
  simp only [batchName, mem_append, mem_cons] at hmem
  rcases hmem with h | h | h | h | h
  · exact not_mem_hex hc (fun _ => mem_hexFixed) h
  · exact hdash h
  · exact not_mem_hex hc hhex h
  · exact hdash h
  · exact not_mem_toDigits hdigit count h

variable {createdAt createdAt' : Int64}

/-- A name determines the creation time, the id and the count. -/
theorem batchName_inj {hex hex' : List Char} {count count' : Nat}
    (hhex : ∀ c ∈ hex, ∃ d < 16, c = Nat.digitChar d)
    (hhex' : ∀ c ∈ hex', ∃ d < 16, c = Nat.digitChar d)
    (h : batchName createdAt hex count = batchName createdAt' hex' count') :
    createdAt = createdAt' ∧ hex = hex' ∧ count = count' := by
  have hno : ∀ t : Int64, '-' ∉ hexFixed 16 t.toUInt64.toNat := fun t =>
    not_mem_hex (by decide) fun _ => mem_hexFixed
  have hlt : ∀ t : Int64, t.toUInt64.toNat < 16 ^ 16 := fun t => t.toUInt64.toNat_lt
  obtain ⟨htime, hrest⟩ := sep_inj (hno createdAt) (hno createdAt') h
  obtain ⟨rfl, hcount⟩ := sep_inj (not_mem_hex (by decide) hhex) (not_mem_hex (by decide) hhex')
    hrest
  have htime' := UInt64.toNat_inj.mp (hexFixed_inj (hlt createdAt) (hlt createdAt') htime)
  refine ⟨congrArg Int64.ofUInt64 htime', rfl, ?_⟩
  rw [← Nat.ofDigitChars_ten_toDigits (n := count), hcount, Nat.ofDigitChars_ten_toDigits]

theorem extension_no_slash (framing : Framing) (compression : ObjectCompression) :
    '/' ∉ extension framing compression := by
  cases framing <;> cases compression <;> decide

theorem extension_inj {framing framing' : Framing} {compression compression' : ObjectCompression}
    (h : extension framing compression = extension framing' compression') :
    framing = framing' ∧ compression = compression' := by
  revert h
  cases framing <;> cases compression <;> cases framing' <;> cases compression' <;> decide

/-- The last part of a key stands behind its last slash. -/
theorem intercalate_last (parts : List (List Char)) (leaf : List Char) :
    ∃ pre, EndsIn '/' pre ∧ ['/'].intercalate (parts ++ [leaf]) = pre ++ leaf := by
  induction parts with
  | nil => exact ⟨[], .inl rfl, by simp [intercalate]⟩
  | cons part parts ih =>
    obtain ⟨pre, hends, heq⟩ := ih
    refine ⟨part ++ '/' :: pre, .inr ?_, ?_⟩
    · rcases hends with rfl | ⟨init, rfl⟩
      · exact ⟨part, rfl⟩
      · exact ⟨part ++ '/' :: init, by simp⟩
    · have hcons : ['/'].intercalate (part :: (parts ++ [leaf]))
          = part ++ '/' :: ['/'].intercalate (parts ++ [leaf]) := by
        cases parts with
        | nil | cons p ps => simp [intercalate]
      rw [cons_append, hcons, heq, append_assoc, cons_append]

/-- Whatever the prefix and the partition, a key determines the name and the extension. -/
theorem objectKey_inj {pre pre' : List Char} {tmpl tmpl' : PartitionTemplate}
    {name name' ext ext' : List Char}
    (hname : '.' ∉ name ∧ '/' ∉ name) (hname' : '.' ∉ name' ∧ '/' ∉ name')
    (hext : '/' ∉ ext) (hext' : '/' ∉ ext')
    (h : objectKey pre tmpl createdAt name ext = objectKey pre' tmpl' createdAt' name' ext') :
    name = name' ∧ ext = ext' := by
  have hleaf : ∀ {name ext : List Char}, '/' ∉ name → '/' ∉ ext → '/' ∉ name ++ '.' :: ext := by
    intro name ext hn he hmem
    rcases mem_append.mp hmem with hmem | hmem
    · exact hn hmem
    · rcases mem_cons.mp hmem with hc | hmem
      · cases hc
      · exact he hmem
  obtain ⟨before, hends, heq⟩ := intercalate_last (keyParts pre tmpl createdAt) (name ++ '.' :: ext)
  obtain ⟨before', hends', heq'⟩ := intercalate_last (keyParts pre' tmpl' createdAt')
    (name' ++ '.' :: ext')
  rw [objectKey, objectKey, heq, heq'] at h
  exact sep_inj hname.1 hname'.1
    (last_inj hends hends' (hleaf hname.2 hext) (hleaf hname'.2 hext') h)

/-! ## One key, one object -/

/-- The key of a batch the drain made, which has ids. -/
theorem key_handed {sha : Sha256} (sink : S3Sink) {payloads : List Bytes} {ids : List RecordId}
    {first : RecordId} (h : ids.length = payloads.length) (hfirst : ids.head? = some first) :
    sink.key (handed sha createdAt payloads ids h)
      = objectKey sink.pre sink.partition createdAt
        (batchName createdAt (toHex first) payloads.length)
        (extension sink.framing sink.compression) := by
  simp only [S3Sink.key, S3Sink.batchName, handed, SinkBatch.withSegmentContext, Option.bind_some,
    hfirst, Option.getD_some]

/-- It determines the creation time of its segment, the id of its first record, and its
length. -/
theorem key_handed_inj {sha : Sha256} {sink sink' : S3Sink}
    {payloads payloads' : List Bytes} {ids ids' : List RecordId}
    {h : ids.length = payloads.length} {h' : ids'.length = payloads'.length}
    (hne : payloads ≠ []) (hne' : payloads' ≠ [])
    (hkey : sink.key (handed sha createdAt payloads ids h)
      = sink'.key (handed sha createdAt' payloads' ids' h')) :
    createdAt = createdAt' ∧ ids.head? = ids'.head? ∧ payloads.length = payloads'.length ∧
      sink.framing = sink'.framing ∧ sink.compression = sink'.compression := by
  have hfirst : ∀ {payloads : List Bytes} {ids : List RecordId}, ids.length = payloads.length →
      payloads ≠ [] → ∃ first, ids.head? = some first := by
    intro payloads ids hlen hne
    cases ids with
    | nil => exact absurd (length_eq_zero_iff.mp hlen.symm) hne
    | cons first _ => exact ⟨first, rfl⟩
  obtain ⟨first, hids⟩ := hfirst h hne
  obtain ⟨first', hids'⟩ := hfirst h' hne'
  rw [key_handed sink h hids, key_handed sink' h' hids'] at hkey
  have hname : ∀ (first : RecordId) (t : Int64) (n : Nat),
      '.' ∉ batchName t (toHex first) n ∧ '/' ∉ batchName t (toHex first) n := fun _ t n =>
    ⟨not_mem_batchName (by decide) rfl (by decide) (fun _ => mem_toHex) t n,
      not_mem_batchName (by decide) rfl (by decide) (fun _ => mem_toHex) t n⟩
  obtain ⟨hn, he⟩ := objectKey_inj (hname ..) (hname ..) (extension_no_slash _ _)
    (extension_no_slash _ _) hkey
  obtain ⟨ht, hhex, hcount⟩ := batchName_inj (fun _ => mem_toHex) (fun _ => mem_toHex) hn
  rw [hids, hids', toHex_inj hhex]
  exact ⟨ht, rfl, hcount, extension_inj he⟩

/-- The segments of the buffers that feed a bucket: their names and records are counted
in 64 bits, no two share both their identity and their creation time, and the digest
tells their records apart. -/
structure Distinct (z : Zstd) (sha : Sha256) (segments : Set (Path × Bytes)) : Prop where
  bounded : ∀ s ∈ segments, (segmentIdentity s.1).utf8ByteSize < 2 ^ 64 ∧
    (recordsOf z s.2).length < 2 ^ 64
  apart : ∀ s ∈ segments, ∀ s' ∈ segments, segmentIdentity s.1 = segmentIdentity s'.1 →
    createdAtOf s.2 = createdAtOf s'.2 → s.2 = s'.2
  injective : Set.InjOn sha {input | ∃ s ∈ segments, ∃ i payload,
    (recordsOf z s.2)[i]? = some payload ∧
    input = recordIdInput (segmentIdentity s.1) (i + 1) payload}

/-- No `PutObject` of the drain destroys what another one wrote: sub-batches with one
key are the same records in the same order, and the objects are equal. -/
theorem object_key_content {z : Zstd} {sha : Sha256} {segments : Set (Path × Bytes)}
    (hd : Distinct z sha segments) {s s' : Path × Bytes} (hs : s ∈ segments) (hs' : s' ∈ segments)
    {batch batch' : SinkBatch} (hb : Commits z sha s.1 s.2 batch)
    (hb' : Commits z sha s'.1 s'.2 batch') {sink sink' : S3Sink}
    (hkey : sink.key batch = sink'.key batch') :
    batch.records = batch'.records ∧ ∀ enc, sink.put enc batch = sink'.put enc batch' := by
  obtain ⟨cfg, w, l, skip, io, lo, payloads, ids, reply, createdAt, hlen, hact, hcreated, rfl⟩ := hb
  obtain ⟨cfg', w', l', skip', io', lo', payloads', ids', reply', createdAt', hlen', hact',
    hcreated', rfl⟩ := hb'
  have hover := attemptSegment_handover z sha cfg s.1 s.2 w l skip io hact
  have hover' := attemptSegment_handover z sha cfg' s'.1 s'.2 w' l' skip' io' hact'
  obtain ⟨ht, hfirst, hcount, hframing, hcompression⟩ :=
    key_handed_inj hover.ne_nil hover'.ne_nil hkey
  -- the first id gives the segment and the place in it
  obtain ⟨payload, hget, hid⟩ := handover_first hover
  obtain ⟨payload', hget', hid'⟩ := handover_first hover'
  rw [hid, hid'] at hfirst
  have hinput := hd.injective ⟨s, hs, lo, payload, hget, rfl⟩ ⟨s', hs', lo', payload', hget', rfl⟩
    (Option.some.inj hfirst)
  have hlo := (List.getElem?_eq_some_iff.mp hget).1
  have hlo' := (List.getElem?_eq_some_iff.mp hget').1
  have hbound := hd.bounded s hs
  have hbound' := hd.bounded s' hs'
  obtain ⟨hsegment, hindex, _⟩ := recordIdInput_inj hbound.1 hbound'.1 (by omega) (by omega) hinput
  obtain rfl : lo = lo' := Nat.succ.inj hindex
  have hfile := hd.apart s hs s' hs' hsegment (by rw [hcreated, hcreated', ht])
  have hpayloads : payloads = payloads' := by
    rw [List.prefix_iff_eq_take.mp hover.chunk, List.prefix_iff_eq_take.mp hover'.chunk, hcount,
      hfile]
  refine ⟨hpayloads, fun enc => ?_⟩
  rw [S3Sink.put, S3Sink.put, hkey, hframing, hcompression]
  show (if (frame enc payloads _ _).body = [] then none
    else some (_, (frame enc payloads _ _).body))
    = _
  rw [hpayloads]
  rfl

/-! ### A resized batch under another prefix -/

/-- An attempt at the sample segment with a batch size, from its first record. -/
def sizedAttempt (maxBatchSize : Nat) : AttemptIo where
  startedAt := 0
  skipStat := none
  carryStat := none
  settle := calmIo.deadLetters 0
  process := { calmIo with maxBatchSize := maxBatchSize }

/-- The whole sample segment as one batch. -/
def sampleBatch : SinkBatch :=
  handed id 0 lostRecord.payloads
    (idsFrom id (segmentIdentity sampleSegment) 0 lostRecord.payloads) (by decide)

set_option maxRecDepth 10000 in
theorem sampleBatch_commits (maxBatchSize : Nat) (h : .commit 0 lostRecord.payloads
        (idsFrom id (segmentIdentity sampleSegment) 0 lostRecord.payloads)
        (.ok lostRecord.payloads [])
      ∈ (attemptSegment Zstd.plain id sampleConfig sampleSegment lostRecord.bytes sampleDeadLetter
        (.new 0) 0 (sizedAttempt maxBatchSize)).acts) :
    Commits Zstd.plain id sampleSegment lostRecord.bytes sampleBatch :=
  ⟨sampleConfig, sampleDeadLetter, .new 0, 0, sizedAttempt maxBatchSize, 0, lostRecord.payloads, _,
    _, 0, by decide, h, by decide +kernel, rfl⟩

/-- A prefix, or a partition of the same text. -/
def prefixedSink : S3Sink := ⟨['a'], ⟨[]⟩, .ndjson, .none, 2⟩

def partitionedSink : S3Sink := ⟨[], ⟨[.literal ['a']]⟩, .ndjson, .none, 5⟩

set_option maxRecDepth 10000 in
theorem object_key_content_resized :
    prefixedSink.key sampleBatch = partitionedSink.key sampleBatch ∧
      ∀ enc, prefixedSink.put enc sampleBatch = partitionedSink.put enc sampleBatch := by
  have hdistinct : Distinct Zstd.plain id {(sampleSegment, lostRecord.bytes)} := by
    refine ⟨?_, ?_, Function.injective_id.injOn⟩
    · rintro s rfl
      exact ⟨by decide +kernel, by decide +kernel⟩
    · rintro s rfl s' rfl _ _
      rfl
  have htwo := sampleBatch_commits 2 (by decide +kernel)
  have hfive := sampleBatch_commits 5 (by decide +kernel)
  have hkey : prefixedSink.key sampleBatch = partitionedSink.key sampleBatch := by decide +kernel
  exact ⟨hkey, (object_key_content hdistinct rfl rfl htwo hfive hkey).2⟩

end Weir.Sink

import Mathlib.Data.Set.Function
import Weir.Drain.History
import Weir.Lib.Text

/-!
# What a sink is handed (`weir-sink-sdk/src/lib.rs`)

`Sink::commit` takes a `SinkBatch`: the records, a token for the batch, an id for
each record, and the time the segment was created. The drain makes one for every
sub-batch (`commit_batch_ctl`), and `Act.commit` records the records and the ids;
`Commits` adds the rest.

> `handover_first`: the first record of a sub-batch, and its id.

> `identity_unambiguous`: tokens are equal only for equal lists of payloads, and
> ids only for equal segments, indices and bytes.
-/

namespace Weir.Sink

open Weir.Lib Weir.Wab Weir.Drain List

/-- A `DedupToken` is a digest. -/
abbrev DedupToken := Bytes

/-- `DedupToken::for_payloads`. -/
def DedupToken.forPayloads (sha : Sha256) (payloads : List Bytes) : DedupToken :=
  sha (payloads.flatMap fun p => leBytes 8 p.length ++ p)

/-- `to_hex`: `{b:02x}` for every byte. -/
def toHex (digest : Bytes) : List Char := digest.flatMap fun b => hexFixed 2 b.toNat

/-- `SinkBatch`. The ids are read positionally, so there is one for each record. -/
structure SinkBatch where
  records : List Bytes
  dedupToken : DedupToken
  recordIds : Option (List RecordId)
  segmentCreatedAt : Option Int64
  parallel : ∀ ids ∈ recordIds, ids.length = records.length

/-- `SinkBatch::with_segment_context`, which panics unless the lists are parallel. -/
def SinkBatch.withSegmentContext (records : List Bytes) (dedupToken : DedupToken)
    (recordIds : List RecordId) (segmentCreatedAt : Int64)
    (h : recordIds.length = records.length) : SinkBatch where
  records := records
  dedupToken := dedupToken
  recordIds := some recordIds
  segmentCreatedAt := some segmentCreatedAt
  parallel := by
    intro ids hids
    rw [← Option.some.inj hids]
    exact h

/-- The batch `commit_batch_ctl` makes of a sub-batch. -/
def handed (sha : Sha256) (segmentCreatedAt : Int64) (payloads : List Bytes)
    (ids : List RecordId) (h : ids.length = payloads.length) : SinkBatch :=
  .withSegmentContext payloads (.forPayloads sha payloads) ids segmentCreatedAt h

/-- The creation time in the header of a segment. -/
def createdAtOf (file : Bytes) : Option Int64 :=
  match SegmentReader.open file noFault with
  | .ok reader => some reader.header.createdAt
  | .error _ => none

/-- An attempt at the segment `file` under the name `p`, whatever it meets, hands
`batch` to the sink. -/
def Commits (z : Zstd) (sha : Sha256) (p : Path) (file : Bytes) (batch : SinkBatch) : Prop :=
  ∃ cfg w l skip io lo payloads ids reply createdAt h,
    .commit lo payloads ids reply ∈ (attemptSegment z sha cfg p file w l skip io).acts ∧
    createdAtOf file = some createdAt ∧ batch = handed sha createdAt payloads ids h

/-! ## Record ids -/

/-- What `RecordId::for_record` hashes. -/
def recordIdInput (segment : String) (index : Nat) (payload : Bytes) : Bytes :=
  leBytes 8 segment.utf8ByteSize ++ segment.toUTF8.data.toList ++ leBytes 8 index
    ++ leBytes 8 payload.length ++ payload

/-- The hashed text determines the record's address and its bytes. -/
theorem recordIdInput_inj {segment segment' : String} {index index' : Nat}
    {payload payload' : Bytes}
    (hs : segment.utf8ByteSize < 2 ^ 64) (hs' : segment'.utf8ByteSize < 2 ^ 64)
    (hi : index < 2 ^ 64) (hi' : index' < 2 ^ 64)
    (h : recordIdInput segment index payload = recordIdInput segment' index' payload') :
    segment = segment' ∧ index = index' ∧ payload = payload' := by
  simp only [recordIdInput, append_assoc] at h
  obtain ⟨hsize, h⟩ := append_inj h (by simp)
  have hlen : segment.toUTF8.data.toList.length = segment'.toUTF8.data.toList.length :=
    leBytes_inj hs hs' hsize
  obtain ⟨hutf8, h⟩ := append_inj h hlen
  obtain ⟨hindex, h⟩ := append_inj h (by simp)
  obtain ⟨_, hpayload⟩ := append_inj h (by simp)
  refine ⟨?_, leBytes_inj hi hi' hindex, hpayload⟩
  exact String.toByteArray_inj.mp (ByteArray.ext (Array.toList_inj.mp hutf8))

/-! ## Tokens -/

/-- A payload behind its length. -/
def lengthPrefixed (payload : Bytes) : Bytes := leBytes 8 payload.length ++ payload

theorem lengthPrefixed_delimited :
    Delimited (fun p : Bytes => p.length < 2 ^ 64) lengthPrefixed := by
  intro p q hp hq
  refine ⟨by simp [lengthPrefixed, leBytes], fun s t heq => ?_⟩
  simp only [lengthPrefixed, append_assoc] at heq
  obtain ⟨hlen, hrest⟩ := append_inj heq (by simp)
  exact append_inj hrest (leBytes_inj hp hq hlen)

/-- What `DedupToken::for_payloads` hashes. -/
def tokenInput (payloads : List Bytes) : Bytes := payloads.flatMap lengthPrefixed

/-- Where the digest tells the hashed texts apart, a token determines its payloads and
an id its record, each of them whole: bytes cannot move from one field to the next. -/
theorem identity_unambiguous {sha : Sha256} {hashed : Set Bytes} (hsha : Set.InjOn sha hashed) :
    (∀ payloads payloads' : List Bytes, (∀ p ∈ payloads ++ payloads', p.length < 2 ^ 64) →
      tokenInput payloads ∈ hashed → tokenInput payloads' ∈ hashed →
      DedupToken.forPayloads sha payloads = DedupToken.forPayloads sha payloads' →
      payloads = payloads') ∧
    ∀ (segment segment' : String) (index index' : UInt64) (payload payload' : Bytes),
      segment.utf8ByteSize < 2 ^ 64 → segment'.utf8ByteSize < 2 ^ 64 →
      recordIdInput segment index.toNat payload ∈ hashed →
      recordIdInput segment' index'.toNat payload' ∈ hashed →
      forRecord sha segment index.toNat payload = forRecord sha segment' index'.toNat payload' →
      segment = segment' ∧ index = index' ∧ payload = payload' := by
  refine ⟨fun ps qs hlen hp hq heq => ?_, fun s s' i i' p p' hs hs' hp hp' heq => ?_⟩
  · exact flatMap_inj lengthPrefixed_delimited (fun p h => hlen p (mem_append_left _ h))
      (fun p h => hlen p (mem_append_right _ h)) (hsha hp hq heq)
  · obtain ⟨hsegment, hindex, hpayload⟩ :=
      recordIdInput_inj hs hs' i.toNat_lt i'.toNat_lt (hsha hp hp' heq)
    exact ⟨hsegment, UInt64.toNat_inj.mp hindex, hpayload⟩

/-- A byte moved to the next payload, or from the name to the payload. -/
theorem identity_unambiguous_regrouped :
    DedupToken.forPayloads id [[1, 2], [3]] ≠ DedupToken.forPayloads id [[1], [2, 3]] ∧
      forRecord id "ab" 1 [99] ≠ forRecord id "a" 1 [98, 99] := by
  obtain ⟨htoken, hid⟩ :=
    identity_unambiguous (Function.injective_id.injOn : Set.InjOn (id : Sha256) Set.univ)
  refine ⟨fun heq => ?_, fun heq => ?_⟩
  · exact absurd (htoken _ _ (by decide) trivial trivial heq) (by decide)
  · exact absurd (hid _ _ 1 1 _ _ (by decide) (by decide) trivial trivial heq).1 (by decide)

/-- The first record of a hand-over and its id. -/
theorem handover_first {sha : Sha256} {segment : String} {rs : List Bytes} {lo : Nat}
    {batch : List Bytes} {ids : List RecordId} (h : Handover sha segment rs lo batch ids) :
    ∃ payload, rs[lo]? = some payload ∧
      ids.head? = some (sha (recordIdInput segment (lo + 1) payload)) := by
  obtain ⟨hchunk, hne, rfl⟩ := h
  cases batch with
  | nil => exact absurd rfl hne
  | cons payload rest =>
    refine ⟨payload, ?_, ?_⟩
    · obtain ⟨tail, htail⟩ := hchunk
      have hzero : (rs.drop lo)[0]? = some payload := by rw [← htail]; rfl
      rwa [getElem?_drop, add_zero] at hzero
    · simp [idsFrom, forRecord, recordIdInput]

/-! ## Hexadecimal digests -/

theorem mem_toHex {digest : Bytes} {c : Char} (h : c ∈ toHex digest) :
    ∃ d < 16, c = Nat.digitChar d := by
  obtain ⟨b, _, hc⟩ := mem_flatMap.mp h
  exact mem_hexFixed hc

theorem toHex_inj {a b : Bytes} (h : toHex a = toHex b) : a = b := by
  have hpair : Delimited (fun _ => True) fun b : UInt8 => hexFixed 2 b.toNat := by
    intro x y _ _
    refine ⟨fun hnil => ?_, fun s t heq => ?_⟩
    · exact absurd (congrArg length hnil) (by rw [hexFixed_length]; simp)
    · obtain ⟨hhead, htail⟩ := append_inj heq (by rw [hexFixed_length, hexFixed_length])
      have hxy := hexFixed_inj (by have := x.toNat_lt; omega) (by have := y.toNat_lt; omega) hhead
      exact ⟨UInt8.toNat_inj.mp hxy, htail⟩
  exact flatMap_inj hpair (fun _ _ => trivial) (fun _ _ => trivial) h

end Weir.Sink

import Weir.Attest.Chain
import Weir.Wab.Verify

/-!
# Chaining and verifying a sealed segment (`weir-attest/src/verify.rs`)

`chain_segment` verifies a sealed segment, chains its records and makes the sidecar;
`verify_segment` reads the sidecar, chains the segment as it is now from the head the
sidecar started with, and compares.

> `attestation_commits`: the verdict is `Verified` exactly if the name, the fields of the
> header and all records are those that were chained.
-/

namespace Weir.Attest

open Weir.Lib Weir.Wab Weir.Drain Weir.Sink List

/-- A path of the file system, as `to_string_lossy` gives its components: they have at most 255
bytes, each of which may become a replacement character. -/
structure SegmentPath where
  path : Path
  dir_le : ∀ s ∈ path.dir, s.utf8ByteSize ≤ 3 * 255
  file_le : path.file.utf8ByteSize ≤ 3 * 255

/-- `segment_name_for`. -/
def segmentNameFor (path : Path) : String :=
  match path.dir.getLast? with
  | some shard => shard ++ "/" ++ path.file
  | none => path.file

def SegmentPath.name (p : SegmentPath) : String := segmentNameFor p.path

/-- `sidecar_path`. -/
def sidecarPath (path : Path) : Path := { path with file := path.file ++ ".attest" }

/-- A segment file that could be opened: its bytes, and what its reads meet. -/
structure SegmentFile where
  file : Bytes
  fault : ReadFault

/-- The loop over the reader: the head and the count after the last record, or the first error. -/
def chainItems (d : Digest) (name : String) :
    List (Except IoError Bytes) → Nat → ChainHead → Except IoError (ChainHead × Nat)
  | [], i, head => .ok (head, i)
  | .error e :: _, _, _ => .error e
  | .ok payload :: items, i, head =>
    chainItems d name items (i + 1) (chainStep d head (forRecord d.sha name (i + 1) payload))

/-- `chain_segment`, of a segment that opens as `segment`. -/
def chainSegment (z : Zstd) (d : Digest) (p : SegmentPath) (segment : Except IoError SegmentFile)
    (prev : ChainHead) : Except AttestError Sidecar :=
  let unverified (e : SegmentVerifyError) : AttestError := .io (IoError.new .other e.display)
  match segment with
  | .error e => .error (unverified (.io e))
  | .ok f =>
    match verifySealedSegment f.file f.fault with
    | .error e => .error (unverified e)
    | .ok verification =>
      match SegmentReader.open f.file f.fault with
      | .error e => .error (.io e)
      | .ok reader =>
        match chainItems d p.name (reader.readAll z f.fault).1 0
            (chainOrigin d prev reader.header p.name) with
        | .error e => .error (.io e)
        | .ok (head, count) => .ok
          { formatVersion := attestFormatVersion
            shardId := reader.header.shardId
            segmentName := p.name
            prevHead := prev
            head := head
            recordCount := count
            sealedAt := verification.footer.sealedAt }

inductive Verdict
  | verified
  | diverged (atRecord : Option Nat) (expected actual : ChainHead)
  | missingSidecar
  deriving DecidableEq

/-- How many records the loop of `first_divergence` sees. -/
def countItems : List (Except IoError Bytes) → Nat → Except IoError Nat
  | [], seen => .ok seen
  | .error e :: _, _ => .error e
  | .ok _ :: items, seen => countItems items (seen + 1)

/-- `first_divergence`. -/
def firstDivergence (z : Zstd) (segment : Except IoError SegmentFile) (sidecar : Sidecar) :
    Except AttestError (Option Nat) :=
  match segment with
  | .error e => .error (.io e)
  | .ok f =>
    match SegmentReader.open f.file f.fault with
    | .error e => .error (.io e)
    | .ok reader =>
      match countItems (reader.readAll z f.fault).1 0 with
      | .error e => .error (.io e)
      | .ok seen => if seen < sidecar.recordCount then .ok (some (seen + 1)) else .ok none

/-- `verify_segment`. The sidecar is there or not, and reads as bytes or an error. -/
def verifySegment (z : Zstd) (d : Digest) (p : SegmentPath)
    (sidecarFile : Option (Except IoError Bytes)) (segment : Except IoError SegmentFile) :
    Except AttestError Verdict :=
  match sidecarFile with
  | none => .ok .missingSidecar
  | some (.error e) => .error (.io e)
  | some (.ok bytes) =>
    match Sidecar.decode bytes with
    | .error e => .error e
    | .ok sidecar =>
      match segment with
      | .error e => .error (.io e)
      | .ok f =>
        match SegmentReader.open f.file f.fault with
        | .error e => .error (.io e)
        | .ok reader =>
          match chainItems d p.name (reader.readAll z f.fault).1 0
              (chainOrigin d sidecar.prevHead reader.header p.name) with
          | .error e => .error (.io e)
          | .ok (head, count) =>
            if head = sidecar.head ∧ count = sidecar.recordCount then .ok .verified
            else
              match firstDivergence z segment sidecar with
              | .error e => .error e
              | .ok atRecord => .ok (.diverged atRecord sidecar.head head)

/-! ## What is read and chained -/

/-- The reader reads the file to its end without an error. -/
def Reads (z : Zstd) (f : SegmentFile) (header : SegmentHeaderMeta) (records : List Bytes) : Prop :=
  ∃ reader, SegmentReader.open f.file f.fault = .ok reader ∧ reader.header = header ∧
    (reader.readAll z f.fault).1 = records.map .ok

/-- The items, if all of them are records. -/
def allRecords : List (Except IoError Bytes) → Option (List Bytes)
  | [] => some []
  | .error _ :: _ => none
  | .ok p :: items => (allRecords items).map (p :: ·)

/-- The header and the records of a file that can be read to its end. -/
def readRecords (z : Zstd) (f : SegmentFile) : Option (SegmentHeaderMeta × List Bytes) :=
  match SegmentReader.open f.file f.fault with
  | .error _ => none
  | .ok reader => (allRecords (reader.readAll z f.fault).1).map fun records =>
    (reader.header, records)

theorem allRecords_map (records : List Bytes) : allRecords (records.map .ok) = some records := by
  induction records with
  | nil => rfl
  | cons p records ih => rw [map_cons, allRecords, ih, Option.map_some]

variable {z : Zstd} {f : SegmentFile} {m : SegmentHeaderMeta} {records : List Bytes}

theorem Reads.readRecords (h : Reads z f m records) : readRecords z f = some (m, records) := by
  obtain ⟨reader, hopen, rfl, hitems⟩ := h
  rw [Attest.readRecords, hopen]
  dsimp only
  rw [hitems, allRecords_map, Option.map_some]

theorem eq_map_of_allRecords {items : List (Except IoError Bytes)} {records : List Bytes}
    (h : allRecords items = some records) : items = records.map .ok := by
  induction items generalizing records with
  | nil =>
    rw [← Option.some.inj h]
    rfl
  | cons item items ih =>
    cases item with
    | error e => cases h
    | ok p =>
      obtain ⟨rest, hrest, rfl⟩ := Option.map_eq_some_iff.mp h
      rw [ih hrest, map_cons]

theorem reads_of_readRecords (h : readRecords z f = some (m, records)) : Reads z f m records := by
  unfold readRecords at h
  split at h
  · cases h
  rename_i reader hopen
  obtain ⟨rest, hrest, heq⟩ := Option.map_eq_some_iff.mp h
  cases heq
  exact ⟨reader, hopen, rfl, eq_map_of_allRecords hrest⟩

theorem chainItems_records (d : Digest) (name : String) (records : List Bytes) (i : Nat)
    (head : ChainHead) :
    chainItems d name (records.map .ok) i head
      = .ok (chainFrom d.head stepInput head (idsFrom d.sha name i records),
        i + records.length) := by
  induction records generalizing i head with
  | nil => rfl
  | cons p records ih =>
    have hids : idsFrom d.sha name i (p :: records)
        = forRecord d.sha name (i + 1) p :: idsFrom d.sha name (i + 1) records := by
      simp [idsFrom, mapIdx_cons, add_assoc, add_comm 1]
    rw [map_cons, chainItems, ih, hids, length_cons, add_assoc, add_comm 1]
    rfl

variable {d : Digest} {name : String} {p : SegmentPath}

theorem chainItems_ok {items : List (Except IoError Bytes)} {i : Nat} {head : ChainHead}
    {r : ChainHead × Nat} (h : chainItems d name items i head = .ok r) :
    ∃ records : List Bytes, items = records.map .ok := by
  induction items generalizing i head with
  | nil => exact ⟨[], rfl⟩
  | cons item items ih =>
    cases item with
    | error e => cases h
    | ok p =>
      obtain ⟨records, rfl⟩ := ih h
      exact ⟨p :: records, rfl⟩

theorem countItems_records (records : List Bytes) (seen : Nat) :
    countItems (records.map .ok) seen = .ok (seen + records.length) := by
  induction records generalizing seen with
  | nil => rfl
  | cons p records ih =>
    rw [map_cons, countItems, ih, length_cons, add_assoc, add_comm 1]

/-- A name is shorter than its length field can say. -/
theorem SegmentPath.name_lt (p : SegmentPath) : p.name.utf8ByteSize < 256 ^ 2 := by
  have hfile := p.file_le
  unfold SegmentPath.name segmentNameFor
  split
  next shard hshard =>
    have hdir := p.dir_le shard (mem_of_getLast? hshard)
    have hslash : ("/" : String).utf8ByteSize = 1 := rfl
    rw [String.utf8ByteSize_append, String.utf8ByteSize_append, hslash]
    omega
  · omega

variable {reader : SegmentReader} {m' : SegmentHeaderMeta} {bytes : Bytes}
  {segment : Except IoError SegmentFile} {prev : ChainHead} {sidecar : Sidecar}

theorem Reads.chained (h : Reads z f m records)
    (hopen : SegmentReader.open f.file f.fault = .ok reader) (prev : ChainHead) (name : String) :
    chainItems d name (reader.readAll z f.fault).1 0 (chainOrigin d prev reader.header name)
      = .ok (segmentHead d prev m name records, records.length) := by
  obtain ⟨reader', hopen', rfl, hitems⟩ := h
  obtain rfl := Except.ok.inj (hopen.symm.trans hopen')
  rw [hitems, chainItems_records, zero_add]
  rfl

theorem Reads.of_chained {head : ChainHead}
    {r : ChainHead × Nat} (hopen : SegmentReader.open f.file f.fault = .ok reader)
    (h : chainItems d name (reader.readAll z f.fault).1 0 head = .ok r) :
    ∃ records, Reads z f reader.header records := by
  obtain ⟨records, hitems⟩ := chainItems_ok h
  exact ⟨records, reader, hopen, rfl, hitems⟩

theorem Reads.unique {records' : List Bytes} (h : Reads z f m records)
    (h' : Reads z f m' records') : m = m' ∧ records = records' := by
  obtain ⟨reader, hopen, rfl, hitems⟩ := h
  obtain ⟨reader', hopen', rfl, hitems'⟩ := h'
  obtain rfl := Except.ok.inj (hopen.symm.trans hopen')
  have hmap := hitems.symm.trans hitems'
  exact ⟨rfl, (map_inj_right fun a b => Except.ok.inj).mp hmap⟩

/-- What was read although reads may fail is what the file holds. -/
theorem Reads.unfaulted (h : Reads z f m records) : Reads z ⟨f.file, noFault⟩ m records := by
  obtain ⟨reader, hopen, hheader, hitems⟩ := h
  refine ⟨reader, SegmentReader.open_noFault hopen, hheader, ?_⟩
  rwa [← SegmentReader.readAll_noFault hitems]

/-- The bytes of a segment that reads as these records: a header, their frames, and then a sentinel
or fewer than four bytes. What stands behind the sentinel is not read. -/
def ReadsAs (z : Zstd) (bytes : Bytes) (m : SegmentHeaderMeta) (records : List Bytes) : Prop :=
  ∃ header body ss rest, bytes = header ++ body ∧ parseSegmentHeader header = .ok m ∧
    Holds z m.compression body ss records rest ∧ Ends rest

theorem reads_iff : Reads z ⟨bytes, noFault⟩ m records ↔ ReadsAs z bytes m records := by
  -- a reader that has just opened stands behind the header
  have hopened : ∀ header body : Bytes, parseSegmentHeader header = .ok m →
      (((⟨header ++ body, segmentHeaderLen, false, m, none⟩ : SegmentReader).readAll z noFault).1
          = records.map .ok ↔
        ∃ ss rest, Holds z m.compression body ss records rest ∧ Ends rest) := by
    intro header body hparse
    have hlen := parseSegmentHeader_length hparse
    have hbody : (header ++ body).drop segmentHeaderLen = body := drop_left' hlen
    rw [SegmentReader.readAll_iff rfl (by dsimp only; rw [length_append]; omega)]
    rw [hbody]
  constructor
  · rintro ⟨reader, hopen, rfl, hitems⟩
    obtain ⟨header, body, hbytes, hparse, hreader⟩ := SegmentReader.open_ok hopen
    rw [hreader, hbytes] at hitems
    obtain ⟨ss, rest, hholds, hends⟩ := (hopened header body hparse).mp hitems
    exact ⟨header, body, ss, rest, hbytes, hparse, hholds, hends⟩
  · rintro ⟨header, body, ss, rest, rfl, hparse, hholds, hends⟩
    exact ⟨_, SegmentReader.open_of_header rfl rfl hparse, rfl,
      (hopened header body hparse).mpr ⟨ss, rest, hholds, hends⟩⟩

/-- A file with a footer holds no more records than the footer can count. -/
theorem Reads.length_lt {v : SegmentVerification} (h : Reads z f m records)
    (hverify : verifySealedSegment f.file f.fault = .ok v) : records.length < 256 ^ 8 := by
  obtain ⟨reader, hopen, rfl, hitems⟩ := h
  obtain ⟨ss, header, buf, hm, hss, hfile, hbuf, hparsed, -, hcount, -⟩ :=
    verifySealedSegment_inv hverify
  obtain rfl := SegmentReader.open_eq hopen hfile hm
  obtain ⟨ss', rest, hholds, -⟩ := SegmentReader.collect_ok _ _ records hitems rfl
  have hbody : f.file.drop segmentHeaderLen = encodeRecords ss ++ (buildSentinel ++ buf) := by
    rw [hfile, drop_left' (parseSegmentHeader_length hm)]
  have hle : ss' <+: ss :=
    prefix_of_sentinel hss hholds.stored ⟨_, hholds.body.symm.trans hbody⟩
  have hfield : v.footer.recordCount < 256 ^ 8 := by
    unfold parseSegmentFooter at hparsed
    rw [if_neg (not_not_intro hbuf)] at hparsed
    rw [← Option.some.inj hparsed]
    have hslice : (slice buf 0 8).length = 8 :=
      slice_length (by rw [hbuf]; decide)
    have hlt := leNat_lt (slice buf 0 8)
    rwa [hslice] at hlt
  have hlen := hle.length_le
  rw [← hholds.decodes.length_eq]
  omega

/-- What a chained segment's sidecar says. -/
theorem chainSegment_ok (h : chainSegment z d p segment prev = .ok sidecar) :
    ∃ f m records, segment = .ok f ∧ Reads z f m records ∧ sidecar.prevHead = prev ∧
      sidecar.head = segmentHead d prev m p.name records ∧ sidecar.recordCount = records.length ∧
      Sidecar.decode sidecar.encode = .ok sidecar := by
  unfold chainSegment at h
  split at h
  · cases h
  rename_i f
  split at h
  · cases h
  rename_i v hverify
  split at h
  · cases h
  rename_i reader hopen
  split at h
  · cases h
  rename_i head count hchain
  obtain ⟨records, hreads⟩ := Reads.of_chained hopen hchain
  rw [hreads.chained hopen] at hchain
  cases hchain
  cases h
  exact ⟨f, reader.header, records, rfl, hreads, rfl, rfl, rfl,
    Sidecar.decode_encode rfl p.name_lt (hreads.length_lt hverify)⟩

/-- The same, of a segment that reads as the records. -/
theorem chainSegment_reads (h : chainSegment z d p (.ok f) prev = .ok sidecar)
    (hreads : Reads z f m records) : sidecar.prevHead = prev ∧
      sidecar.head = segmentHead d prev m p.name records ∧ sidecar.recordCount = records.length ∧
      Sidecar.decode sidecar.encode = .ok sidecar := by
  obtain ⟨g, m₀, records₀, hg, hreads₀, hsays⟩ := chainSegment_ok h
  cases hg
  obtain ⟨rfl, rfl⟩ := hreads.unique hreads₀
  exact hsays

/-- The verdict on a segment that can be read, by a sidecar that decodes. -/
theorem verifySegment_reads
    (hdecode : Sidecar.decode bytes = .ok sidecar) (h : Reads z f m records) :
    verifySegment z d p (some (.ok bytes)) (.ok f) =
      if segmentHead d sidecar.prevHead m p.name records = sidecar.head ∧
          records.length = sidecar.recordCount then .ok .verified
      else .ok (.diverged
        (if records.length < sidecar.recordCount then some (records.length + 1) else none)
        sidecar.head (segmentHead d sidecar.prevHead m p.name records)) := by
  obtain ⟨reader, hopen, hheader, hitems⟩ := id h
  unfold verifySegment
  dsimp only
  rw [hdecode]
  rw [hopen]
  dsimp only
  rw [h.chained hopen]
  dsimp only
  split
  · rfl
  unfold firstDivergence
  dsimp only
  rw [hopen]
  dsimp only
  rw [hitems, countItems_records, zero_add]
  dsimp only
  by_cases hlt : records.length < sidecar.recordCount
  · rw [if_pos hlt, if_pos hlt]
  · rw [if_neg hlt, if_neg hlt]

/-- Behind a verdict `Verified` is a segment whose chain is that of its sidecar; behind
`MissingSidecar`, no sidecar. -/
theorem verifySegment_inv {sidecarFile : Option (Except IoError Bytes)} {verdict : Verdict}
    (h : verifySegment z d p sidecarFile segment = .ok verdict) :
    sidecarFile = none ∧ verdict = .missingSidecar ∨
    ∃ bytes sidecar f m records, sidecarFile = some (.ok bytes) ∧
      Sidecar.decode bytes = .ok sidecar ∧ segment = .ok f ∧ Reads z f m records ∧
      (verdict = .verified → sidecar.head = segmentHead d sidecar.prevHead m p.name records) ∧
      verdict ≠ .missingSidecar := by
  unfold verifySegment at h
  split at h
  · exact .inl ⟨rfl, (Except.ok.inj h).symm⟩
  · cases h
  rename_i bytes
  split at h
  · cases h
  rename_i sidecar hdecode
  split at h
  · cases h
  rename_i f
  split at h
  · cases h
  rename_i reader hopen
  split at h
  · cases h
  rename_i head count hchain
  obtain ⟨records, hreads⟩ := Reads.of_chained hopen hchain
  rw [hreads.chained hopen] at hchain
  cases hchain
  refine .inr ⟨bytes, sidecar, f, reader.header, records, rfl, hdecode, rfl, hreads, ?_⟩
  split at h
  next hsame =>
    rw [← Except.ok.inj h]
    exact ⟨fun _ => hsame.1.symm, by simp⟩
  · split at h
    · cases h
    · rw [← Except.ok.inj h]
      exact ⟨by simp, by simp⟩

/-- The head of a segment is made of its name, three fields of its header and its records. -/
theorem segmentHead_same
    (hversion : m'.formatVersion = m.formatVersion) (hshard : m'.shardId = m.shardId)
    (hcreated : m'.createdAt = m.createdAt) :
    segmentHead d prev m' name records = segmentHead d prev m name records := by
  have horigin : originInput prev m' name = originInput prev m name := by
    simp only [originInput, hversion, hshard, hcreated]
  rw [segmentHead, horigin, segmentHead]

/-! ## The attestation -/

/-- An attestation commits to a segment's content. Whatever was chained from whatever predecessor,
and whatever can be read later under whatever name: the verdict by that sidecar is `Verified`
exactly if the name, the format version, the shard and the creation time of the header and the
whole sequence of records are those that were chained. Where records are missing at the end, the
verdict names the first of them. -/
theorem attestation_commits {z : Zstd} {d : Digest} {p p' : SegmentPath} {prev : ChainHead}
    {f f' : SegmentFile} {sidecar : Sidecar} {m m' : SegmentHeaderMeta}
    {records records' : List Bytes} (hchain : chainSegment z d p (.ok f) prev = .ok sidecar)
    (hreads : Reads z f m records) (hreads' : Reads z f' m' records')
    (hinj : Set.InjOn d.sha {x | x ∈ segmentInputs d prev m p.name records ∨
      x ∈ segmentInputs d prev m' p'.name records'}) :
    (verifySegment z d p' (some (.ok sidecar.encode)) (.ok f') = .ok .verified ↔
      p'.name = p.name ∧ m'.formatVersion = m.formatVersion ∧ m'.shardId = m.shardId ∧
        m'.createdAt = m.createdAt ∧ records' = records) ∧
    (records' <+: records → records' ≠ records →
      ∃ actual, verifySegment z d p' (some (.ok sidecar.encode)) (.ok f')
        = .ok (.diverged (some (records'.length + 1)) sidecar.head actual)) := by
  obtain ⟨hprev, hhead, hcount, hdecode⟩ := chainSegment_reads hchain hreads
  rw [verifySegment_reads hdecode hreads', hprev, hhead, hcount]
  constructor
  · constructor
    · intro hverdict
      split at hverdict
      next hsame =>
        obtain ⟨-, hversion, hshard, hcreated, hname, hrecords⟩ := segmentHead_inj hinj hsame.1.symm
        exact ⟨hname.symm, hversion.symm, hshard.symm, hcreated.symm, hrecords.symm⟩
      · cases hverdict
    · rintro ⟨hname, hversion, hshard, hcreated, rfl⟩
      rw [hname, if_pos ⟨segmentHead_same hversion hshard hcreated, rfl⟩]
  · intro hle hne
    have hlt : records'.length < records.length :=
      lt_of_le_of_ne hle.length_le fun heq => hne (hle.eq_of_length heq)
    rw [if_neg (fun hsame => ne_of_lt hlt hsame.2), if_pos hlt]
    exact ⟨_, rfl⟩

/-! ### A segment that lost its last record -/

/-- A digest of 32 bytes for concrete runs. -/
def modDigest : Digest := ⟨fun b => leBytes 32 (leNat b % (2 ^ 255 - 19)),
    fun _ => leBytes_length 32 _⟩

/-- A sealed segment with these records. -/
def sealedFile (records : List Bytes) : SegmentFile :=
  ⟨sealedBytes (buildSegmentHeader 0 .none 0) records 0, noFault⟩

def firstSegment : SegmentPath :=
  ⟨⟨["shard_00"], "seg_00000001.wab.sealed"⟩, by decide +kernel, by decide +kernel⟩

theorem attestation_commits_shortened :
    ∃ sidecar, chainSegment .plain modDigest firstSegment (.ok (sealedFile [[7], [8]])) .origin
        = .ok sidecar ∧
      (verifySegment .plain modDigest firstSegment (some (.ok sidecar.encode))
        (.ok (sealedFile [[7]])) ≠ .ok .verified) ∧
      ∃ actual, verifySegment .plain modDigest firstSegment (some (.ok sidecar.encode))
        (.ok (sealedFile [[7]])) = .ok (.diverged (some 2) sidecar.head actual) := by
  have hreads : Reads .plain (sealedFile [[7], [8]]) ⟨1, .none, 0, 0⟩ [[7], [8]] :=
    reads_of_readRecords (by decide +kernel)
  have hreads' : Reads .plain (sealedFile [[7]]) ⟨1, .none, 0, 0⟩ [[7]] :=
    reads_of_readRecords (by decide +kernel)
  have hhashed : ∀ x ∈ segmentInputs modDigest .origin ⟨1, .none, 0, 0⟩ firstSegment.name [[7], [8]]
        ++ segmentInputs modDigest .origin ⟨1, .none, 0, 0⟩ firstSegment.name [[7]],
      ∀ y ∈ segmentInputs modDigest .origin ⟨1, .none, 0, 0⟩ firstSegment.name [[7], [8]]
        ++ segmentInputs modDigest .origin ⟨1, .none, 0, 0⟩ firstSegment.name [[7]],
      modDigest.sha x = modDigest.sha y → x = y := by
    decide +kernel
  cases hchain : chainSegment .plain modDigest firstSegment (.ok (sealedFile [[7], [8]]))
      .origin with
  | error e =>
    have hok : (chainSegment .plain modDigest firstSegment (.ok (sealedFile [[7], [8]]))
      .origin).isOk = true := by decide +kernel
    rw [hchain] at hok
    cases hok
  | ok sidecar =>
    obtain ⟨hverified, hdiverged⟩ := attestation_commits hchain hreads hreads' fun x hx y hy =>
      hhashed x (mem_append.mpr hx) y (mem_append.mpr hy)
    refine ⟨sidecar, rfl, fun h => ?_, hdiverged ⟨[[8]], rfl⟩ (by decide)⟩
    exact absurd (hverified.mp h).2.2.2.2 (by decide)

end Weir.Attest

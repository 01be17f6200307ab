import Weir.Wab.Durability
import Weir.Wab.Framing
import Weir.Wab.Verify

/-!
# What is written is what is read

Three pieces of code walk over the frames of a sealed segment: the verifier in chunks, with a
running CRC; `SegmentReader` record by record; the forensic reader by offsets. They agree on
every file that the verifier accepts, and the verifier accepts every file that `ShardWriter`
seals.

> `verified_read_whole`: an accepted file is read to its sentinel by both readers, and holds
> nothing but what they read and its footer.

> `writeAll_written`: what a run of `write_record` leaves on the disk.

> `sealed_segments_read_back`: the sealed segments hold the payloads, in order.
-/

namespace Weir.Wab

open Weir.Lib List

/-! ## Both readers over a sealed file -/

section

variable {z : Zstd} {file header rest : Bytes} {m : SegmentHeaderMeta} {ss ps : List Bytes}

/-- `SegmentReader` reads the records and stops at the sentinel. -/
theorem SegmentReader.read_whole (hm : parseSegmentHeader header = .ok m)
    (hok : ∀ s ∈ ss, StoredOk m.compression s) (hdec : Decodes z m.compression ss ps)
    (hfile : file = header ++ (encodeRecords ss ++ (buildSentinel ++ rest))) :
    ∃ r, SegmentReader.open file noFault = .ok r ∧ (r.readAll z noFault).1 = ps.map .ok ∧
      (r.readAll z noFault).2.terminatedCleanly = some true ∧
      (r.readAll z noFault).2.pos = segmentHeaderLen + (encodeRecords ss).length + 4 := by
  have hlen := parseSegmentHeader_length hm
  have hlength : file.length = segmentHeaderLen + (encodeRecords ss).length + 4 + rest.length := by
    rw [hfile, length_append, hlen, length_append, length_append,
      show buildSentinel.length = 4 from rfl]
    omega
  have hbody : file.drop segmentHeaderLen = encodeRecords ss ++ (buildSentinel ++ rest) := by
    rw [hfile, drop_left' hlen]
  have hopen : SegmentReader.open file noFault = .ok ⟨file, segmentHeaderLen, false, m, none⟩ :=
    SegmentReader.open_of_header rfl hfile hm
  have hrecords := SegmentReader.collect_records ss ps ⟨file, segmentHeaderLen, false, m, none⟩
    (buildSentinel ++ rest) 1 rfl (by dsimp only; omega) hbody hok hdec
  have hsentinel : file.drop (segmentHeaderLen + (encodeRecords ss).length)
      = buildSentinel ++ rest := by
    rw [← drop_drop, hbody, drop_left]
  rw [SegmentReader.collect_sentinel (r := ⟨file, _, false, m, none⟩) 0 rfl (by dsimp only; omega)
    hsentinel] at hrecords
  have hfuel := length_le_encodeRecords ss
  have hread := SegmentReader.readAll_eq (z := z) (n := ss.length + 1)
    (r := ⟨file, segmentHeaderLen, false, m, none⟩) (by dsimp only; omega) (by rw [hrecords])
  rw [hrecords, append_nil] at hread
  refine ⟨_, hopen, ?_⟩
  rw [hread]
  exact ⟨rfl, rfl, rfl⟩

/-- The forensic reader takes the same records where they stand. -/
theorem RecoveryReader.readAll_records (ss ps : List Bytes) (r : RecoveryReader) (rest : Bytes) :
    r.Live →
      r.file.drop r.pos = encodeRecords ss ++ rest → Trailer rest →
      (∀ s ∈ ss, StoredOk r.header.compression s) → Decodes z r.header.compression ss ps →
      r.readAll z noFault = ps.map .record := by
  induction ss generalizing ps r rest with
  | nil =>
    intro hlive hd htrailer _ hdec
    obtain rfl : ps = [] := length_eq_zero_iff.mp hdec.length_eq.symm
    exact readAll_clean hlive (htrailer.cleanEnd hlive.inside hd)
  | cons s ss ih =>
    intro hlive hd htrailer hok hdec
    cases ps with
    | nil => cases hdec.length_eq
    | cons p ps =>
      obtain ⟨hp, hps⟩ := List.cons.inj hdec
      rw [encodeRecords_cons, append_assoc] at hd
      have hframe := frameAt_record (hok s mem_cons_self) hlive.inside hd
      rw [readAll_record hlive hframe (intact_record s) hp,
        ih ps _ rest (hlive.behind hframe 0).1 (drop_record hd).2.2.2 htrailer
          (fun t ht => hok t (mem_cons_of_mem _ ht)) hps]
      rfl

end

/-- Records that all decode have payloads. -/
theorem exists_decodes {z : Zstd} {c : Compression} {ss : List Bytes}
    (h : c = .zstd → ∀ s ∈ ss, ∃ p, z.decompress s maxPayloadHardCap = some p) :
    ∃ ps, Decodes z c ss ps := by
  cases c with
  | none =>
    refine ⟨ss, ?_⟩
    rw [Decodes]
    exact map_congr_left fun _ _ => rfl
  | zstd =>
    have h' := h rfl
    clear h
    induction ss with
    | nil => exact ⟨[], rfl⟩
    | cons s ss ih =>
      obtain ⟨p, hp⟩ := h' s mem_cons_self
      obtain ⟨ps, hps⟩ := ih fun t ht => h' t (mem_cons_of_mem _ ht)
      exact ⟨p :: ps, List.cons_eq_cons.mpr ⟨hp, hps⟩⟩

/-- What `verify_sealed_segment` accepts is a header, `record_count` frames of `data_bytes` stored
bytes, a sentinel and a footer, and both readers read it whole: as many records, the same ones,
and an end on the sentinel. -/
theorem verified_read_whole (z : Zstd) (file : Bytes) (fault : ReadFault) (v : SegmentVerification)
    (h : verifySealedSegment file fault = .ok v) :
    ∃ ss, v.footer.recordCount = ss.length ∧ v.footer.dataBytes = (ss.map List.length).sum ∧
      file.length = segmentHeaderLen + (encodeRecords ss).length + 4 + segmentFooterLen ∧
      slice file segmentHeaderLen (segmentHeaderLen + (encodeRecords ss).length)
        = encodeRecords ss ∧
      ((v.header.compression = .zstd →
          ∀ s ∈ ss, ∃ p, z.decompress s maxPayloadHardCap = some p) →
        ∃ ps reader forensic, Decodes z v.header.compression ss ps ∧
          SegmentReader.open file noFault = .ok reader ∧
          (reader.readAll z noFault).1 = ps.map .ok ∧
          (reader.readAll z noFault).2.terminatedCleanly = some true ∧
          RecoveryReader.open file noFault none = .ok forensic ∧
          ∀ n : Nat, forensic.answer z noFault n = (ps.map RecoveryItem.record)[n]?) := by
  obtain ⟨ss, header, buf, hm, hok, hfile, hbuf, -, -, hcount, hdata⟩ := verifySealedSegment_inv h
  have hlen := parseSegmentHeader_length hm
  have hlength : file.length
      = segmentHeaderLen + (encodeRecords ss).length + 4 + segmentFooterLen := by
    rw [hfile, length_append, hlen, length_append, length_append, hbuf,
      show buildSentinel.length = 4 from rfl]
    omega
  have hbody : file.drop segmentHeaderLen = encodeRecords ss ++ (buildSentinel ++ buf) := by
    rw [hfile, drop_left' hlen]
  refine ⟨ss, hcount, hdata, hlength, ?_, fun hdecodes => ?_⟩
  · rw [slice, hbody, Nat.add_sub_cancel_left, take_left]
  obtain ⟨ps, hdec⟩ := exists_decodes hdecodes
  obtain ⟨reader, hopen, hitems, hclean, -⟩ := SegmentReader.read_whole hm hok hdec hfile
  have hlive : RecoveryReader.Live ⟨file, v.header, segmentHeaderLen, file.length, false, 0,
      none⟩ := .start (by omega) v.header
  refine ⟨ps, reader, _, hdec, hopen, hitems, hclean, RecoveryReader.open_of_header hm hfile,
    fun n => ?_⟩
  rw [RecoveryReader.answer_eq z noFault _ hlive.sound,
    RecoveryReader.readAll_records ss ps _ _ hlive hbody (.inr ⟨buf, hbuf, rfl⟩) hok hdec]

theorem verified_read_whole_two :
    ∃ v, verifySealedSegment (sealedBytes (buildSegmentHeader 0 .none 0) [[1], [2, 3]] 0) noFault
        = .ok v ∧
      ∃ ss ps reader, ss.length = 2 ∧ Decodes Zstd.plain .none ss ps ∧
        SegmentReader.open (sealedBytes (buildSegmentHeader 0 .none 0) [[1], [2, 3]] 0) noFault
          = .ok reader ∧
        (reader.readAll Zstd.plain noFault).1 = ps.map .ok := by
  have hok : ∀ s ∈ ([[1], [2, 3]] : List Bytes), StoredOk .none s := by decide
  have hv := verifySealedSegment_sealedBytes (t := 0) (parseSegmentHeader_build 0 .none 0) hok
    (by decide) (by decide)
  obtain ⟨ss, hcount, -, -, -, hread⟩ := verified_read_whole Zstd.plain _ _ _ hv
  obtain ⟨ps, reader, -, hdec, hopen, hitems, -⟩ := hread fun h => absurd h (by decide)
  exact ⟨_, hv, ss, ps, reader, hcount.symm, hdec, hopen, hitems⟩

/-! ## Calls that succeed -/

/-- What zstd's documentation says of its output: the frame of a payload is not empty and stays
within `compress_bound`. -/
def Zstd.Framed (z : Zstd) : Prop :=
  ∀ (p s : Bytes) (level : Int), p ≠ [] → z.compress p level = some s →
    0 < s.length ∧ s.length ≤ compressBound p.length

theorem Zstd.plain_framed : Zstd.plain.Framed := by
  intro p s level hne h
  obtain rfl : p = s := Option.some.inj h
  refine ⟨length_pos_iff.mpr hne, ?_⟩
  rw [compressBound]
  omega

/-- The stored form of a payload is within the cap that the reader applies. -/
theorem storedOk_of_storedForm {z : Zstd} (hz : z.Framed) {c : Compression} {level : Int}
    {p s : Bytes} (hne : p ≠ []) (hcap : p.length ≤ maxPayloadHardCap)
    (h : storedForm z c level p = some s) : StoredOk c s := by
  cases c with
  | none =>
    cases h
    exact ⟨length_pos_iff.mpr hne, hcap⟩
  | zstd =>
    obtain ⟨hpos, hle⟩ := hz p s level hne h
    refine ⟨hpos, le_trans hle ?_⟩
    exact Nat.add_le_add_right (Nat.add_le_add hcap (Nat.div_le_div_right hcap)) 16

structure CreateIo.Succeeds (io : CreateIo) : Prop where
  opened : io.opened = none
  header : io.header = .ok
  dirSync : io.dirSync = none

structure SealIo.Succeeds (io : SealIo) : Prop where
  sentinel : io.sentinel = .ok
  footer : io.footer = .ok
  fsync : io.fsync = none
  free : io.sealedExists = .ok false
  rename : io.rename = none
  dirSync : io.dirSync = none

/-- Where the next record goes in its file. -/
def ShardWriter.offset (w : ShardWriter) : Nat :=
  match w.active with
  | some seg => seg.bytesWritten
  | none => segmentHeaderLen

/-- Every call of a `write_record` succeeds. The kernel takes no write that would end beyond the
largest file offset, an `i64`. -/
structure WriteIo.Succeeds (z : Zstd) (w : ShardWriter) (payload : Bytes) (io : WriteIo) :
    Prop where
  codec : io.compressFault = false
  create : io.create.Succeeds
  write : ∃ stored, storedForm z w.compression w.compressionLevel payload = some stored ∧
    io.write = .wrote (4 + 4 + stored.length) ∧ w.offset + 8 + stored.length < 2 ^ 63
  sealIo : io.sealIo.Succeeds

theorem fsyncParentDir_succeeds (p : Path) : ∃ sync, fsyncParentDir p none = (.ok (), sync) := by
  unfold fsyncParentDir
  split <;> exact ⟨_, rfl⟩

theorem WabSegment.create_succeeds {io : CreateIo} (h : io.Succeeds) (path : Path)
    (shardId : UInt16) (c : Compression) :
    ∃ seg ops, WabSegment.create path shardId c io = (.ok seg, ops) := by
  obtain ⟨sync, hsync⟩ := fsyncParentDir_succeeds path
  rw [← h.dirSync] at hsync
  simp only [WabSegment.create, h.opened, h.header, hsync]
  exact ⟨_, _, rfl⟩

theorem WabSegment.seal_succeeds {io : SealIo} (h : io.Succeeds) (seg : WabSegment) :
    ∃ sealed ops, seg.seal io = (.ok sealed, ops) := by
  obtain ⟨sync, hsync⟩ := fsyncParentDir_succeeds (sealedPathFor seg.path)
  rw [← h.dirSync] at hsync
  simp only [WabSegment.seal, WabSegment.finalizeToDisk, WabSegment.fsync, h.sentinel, h.footer,
    h.fsync, h.free, h.rename, hsync]
  exact ⟨_, _, rfl⟩

/-- A clean segment accepts every storable record. -/
theorem WabSegment.writeRecord_accepts {seg : WabSegment} {stored : Bytes}
    (hpoison : seg.poisoned = false) (hok : StoredOk seg.compression stored) :
    seg.writeRecord stored (.wrote (4 + 4 + stored.length))
      = (seg.accept stored, .ok (), [.append seg.path (encodeRecord stored)]) := by
  have hne : stored ≠ [] := length_pos_iff.mp hok.1
  have hlt : stored.length < 2 ^ 32 := lt_of_le_of_lt hok.2 seg.compression.storedCap_lt
  have hrefusal : seg.refusal stored = none := by
    rw [WabSegment.refusal, hpoison, if_neg Bool.false_ne_true, if_neg hne,
      if_neg (not_le.mpr hlt), if_neg (not_lt.mpr hok.2)]
  rw [WabSegment.writeRecord, hrefusal]
  dsimp only
  rw [if_pos rfl]
  rfl

namespace ShardWriter

variable {w : ShardWriter}

theorem ensureOpen_succeeds {io : CreateIo} (h : io.Succeeds) :
    ∃ w₁ ops, w.ensureOpen io = (w₁, .ok (), ops) := by
  unfold ensureOpen
  split
  · exact ⟨_, _, rfl⟩
  obtain ⟨seg, ops, hcreate⟩ := WabSegment.create_succeeds h
    (segmentPath w.shardDir w.nextCounter) w.shardId w.compression
  dsimp only
  rw [hcreate]
  exact ⟨_, _, rfl⟩

/-- A segment that `create` has just made is clean. -/
theorem Opened.clean {w₁ : ShardWriter} {io : CreateIo} {seg : WabSegment} {ops : List (Op Path)}
    (h : Opened w io w₁ seg ops)
    (hw : ∀ seg, w.active = some seg → seg.poisoned = false ∧ seg.compression = w.compression) :
    seg.poisoned = false ∧ seg.compression = w.compression := by
  cases h with
  | already hact => exact hw seg hact
  | fresh hact hcreate =>
    obtain ⟨rfl, -⟩ := WabSegment.create_ok hcreate
    exact ⟨rfl, rfl⟩

/-- When its calls succeed, so does `write_record`. -/
theorem writeRecord_succeeds {z : Zstd} (hz : z.Framed) {payload : Bytes}
    {io : WriteIo} (hne : payload ≠ []) (hcap : payload.length ≤ maxPayloadHardCap)
    (hw : ∀ seg, w.active = some seg → seg.poisoned = false ∧ seg.compression = w.compression)
    (h : io.Succeeds z w payload) : ∃ w' sealed ops, w.writeRecord z payload io
      = (w', .ok sealed, ops) := by
  obtain ⟨stored, hstored, hwrite, -⟩ := h.write
  obtain ⟨w₁, opened, hopen⟩ := ensureOpen_succeeds (w := w) h.create
  obtain ⟨seg, hact, hop⟩ := ensureOpen_ok hopen
  obtain ⟨hpoison, hcomp⟩ := hop.clean hw
  have hok := storedOk_of_storedForm hz hne hcap hstored
  rw [← hcomp] at hok
  have haccept := WabSegment.writeRecord_accepts hpoison hok
  rw [← hwrite] at haccept
  obtain ⟨sealed, sealing, hseal⟩ := (seg.accept stored).seal_succeeds h.sealIo
  unfold writeRecord
  rw [if_neg hne, if_neg (by rw [h.codec]; simp), hstored]
  rw [hopen]
  dsimp only
  rw [hact]
  dsimp only
  rw [haccept]
  dsimp only
  split
  · rw [hseal]
    exact ⟨_, _, _, rfl⟩
  · exact ⟨_, _, _, rfl⟩

end ShardWriter

/-! ## The files of a shard -/

section

variable (z : Zstd) (dir : List String) (shardId : UInt16) (c : Compression) (level : Int)

/-- The file of the open segment with counter `n`, and what it holds. -/
structure ActiveFile (d : Disk Path) (seg : WabSegment) (records : List Stored) (n i : Nat)
    (createdAt : Int64) : Prop where
  path : seg.path = segPath dir n .active
  inode : d.names.lookup seg.path = some i
  alone : ∀ p, d.names.lookup p = some i → p = seg.path
  unsealed : d.names.lookup (segPath dir n .sealed) = none
  inv : SegRun.Inv z level (buildSegmentHeader shardId c createdAt) c
    ⟨some seg, d.files i, records, 0⟩
  clean : seg.poisoned = false
  bytes : seg.bytesWritten = segmentHeaderLen + (encodeRecords (records.map (·.stored))).length
  fits : seg.bytesWritten < 2 ^ 63

/-- A sealed segment and the records that are in it. -/
structure SealedFile (d : Disk Path) (x : Path × List Stored) : Prop where
  name : ∃ n, x.1 = segPath dir n .sealed
  content : ∃ i createdAt sealedAt, d.names.lookup x.1 = some i ∧
    (d.files i).content
      = sealedBytes (buildSegmentHeader shardId c createdAt) (x.2.map (·.stored)) sealedAt
  records : ∀ r ∈ x.2, r.payload.length ≤ maxPayloadHardCap ∧
    storedForm z c level r.payload = some r.stored ∧ StoredOk c r.stored
  filled : x.2 ≠ []
  fits : (encodeRecords (x.2.map (·.stored))).length < 2 ^ 63

/-- The disk under a shard's writer: the sealed segments, the one that is open, and no file yet for
the counters to come. -/
structure Written (d : Disk Path) (next : Nat) (active : Option WabSegment)
    (done : List (Path × List Stored)) (records : List Stored) : Prop where
  sound : d.Sound
  fresh : ∀ n, next ≤ n → d.names.lookup (segPath dir n .active) = none ∧
    d.names.lookup (segPath dir n .sealed) = none
  kept : ∀ x ∈ done, SealedFile z dir shardId c level d x
  distinct : (done.map (·.1)).Nodup
  idle : active = none → records = []
  busy : ∀ seg, active = some seg → ∃ n i createdAt, n < next ∧
    ActiveFile z dir shardId c level d seg records n i createdAt

end

section

variable {z : Zstd} {dir : List String} {shardId : UInt16} {c : Compression} {level : Int}
  {d d' : Disk Path} {next : Nat} {done : List (Path × List Stored)} {records : List Stored}

section

variable {x : Path × List Stored} (h : SealedFile z dir shardId c level d x)

include h

/-- What leaves a sealed file alone keeps what is known of it. -/
theorem SealedFile.frame
    (hkeep : ∀ i, d.names.lookup x.1 = some i → d'.names.lookup x.1 = some i ∧
      d'.files i = d.files i) :
    SealedFile z dir shardId c level d' x := by
  obtain ⟨i, createdAt, sealedAt, hi, hcontent⟩ := h.content
  obtain ⟨hi', hfile⟩ := hkeep i hi
  exact ⟨h.name, ⟨i, createdAt, sealedAt, hi', by rw [hfile]; exact hcontent⟩, h.records,
    h.filled, h.fits⟩

theorem SealedFile.ne_active (n : Nat) : x.1 ≠ segPath dir n .active := by
  obtain ⟨m, hm⟩ := h.name
  rw [hm]
  intro heq
  cases (segPath_inj heq).2

end

variable {seg : WabSegment}

/-- A fresh segment under the next counter. -/
theorem Written.create (h : Written z dir shardId c level d next none done records) {io : CreateIo}
    {ops : List (Op Path)}
    (hcreate : WabSegment.create (segmentPath dir next) shardId c io = (.ok seg, ops)) :
    ∃ d', d.run ops = some d' ∧
      Written z dir shardId c level d' (next + 1) (some seg) done records := by
  obtain rfl := h.idle rfl
  rw [segmentPath_eq] at hcreate
  have hstart := SegRun.start_inv z level (segPath dir next .active) shardId c io
  rw [SegRun.start, hcreate] at hstart
  obtain ⟨rfl, sync, hsync, rfl⟩ := WabSegment.create_ok hcreate
  have hsyncs := fsyncParentDir_ops (segPath dir next .active) io.dirSync
  have honNames := fsyncParentDir_onNames (segPath dir next .active) io.dirSync
  rw [hsync] at hsyncs honNames
  dsimp only at hstart
  rw [File.run_append, File.run_onNames honNames, File.run_cons, File.step_create] at hstart
  have hon : ∀ op ∈ [Op.append (segPath dir next .active)
      (buildSegmentHeader shardId c io.createdAt)], op.OnFile (segPath dir next .active) := by
    simp [Op.OnFile]
  have hmade := Disk.run_create (h.fresh next (le_rfl)).1 hon
  obtain ⟨d', hrun, hnames, hfiles⟩ := Disk.run_then_syncDir hmade hsyncs
  have hlookup : ∀ q, d'.names.lookup q
      = if q = segPath dir next .active then some d.fresh else d.names.lookup q := by
    intro q
    rw [hnames, Disk.names_setFile, Disk.lookup_newFile]
  have hfile : ∀ i, i ≠ d.fresh → d'.files i = d.files i := by
    intro i hi
    rw [hfiles, Disk.files_setFile_ne _ hi]
    exact Disk.files_setFile_ne d hi _
  refine ⟨d', hrun, h.sound.run hrun, ?_, ?_, h.distinct, fun hnone => absurd hnone (by simp), ?_⟩
  · intro n hn
    have hne : ∀ e, segPath dir n e ≠ segPath dir next .active := by
      intro e heq
      have := (segPath_inj heq).1
      omega
    rw [hlookup, if_neg (hne _), hlookup, if_neg (hne _)]
    exact h.fresh n (by omega)
  · intro x hx
    have hsealed := h.kept x hx
    refine hsealed.frame fun i hi => ⟨?_, hfile i (ne_of_lt (h.sound.lt hi))⟩
    rw [hlookup, if_neg (hsealed.ne_active next)]
    exact hi
  · intro seg hseg
    cases hseg
    refine ⟨next, d.fresh, io.createdAt, Nat.lt_succ_self _, rfl, ?_, ?_, ?_, ?_, rfl, rfl, ?_⟩
    · rw [hlookup, if_pos rfl]
    · intro p hp
      rw [hlookup] at hp
      split at hp
      next heq => exact heq
      · exact absurd (h.sound.lt hp) (lt_irrefl _)
    · rw [hlookup, if_neg fun heq => by cases (segPath_inj heq).2]
      exact (h.fresh next (le_rfl)).2
    · rw [hfiles, Disk.files_setFile]
      exact hstart
    · show segmentHeaderLen < 2 ^ 63
      decide

/-- A record behind the ones that are there. -/
theorem Written.append
    (h : Written z dir shardId c level d next (some seg) done records) {payload stored : Bytes}
    (hne : payload ≠ []) (hcap : payload.length ≤ maxPayloadHardCap)
    (hstored : storedForm z c level payload = some stored) (hok : StoredOk c stored)
    (hfits : seg.bytesWritten + 8 + stored.length < 2 ^ 63) :
    ∃ d', d.run [.append seg.path (encodeRecord stored)] = some d' ∧
      Written z dir shardId c level d' next (some (seg.accept stored)) done
        (records ++ [⟨payload, stored⟩]) := by
  obtain ⟨n, i, createdAt, hn, ha⟩ := h.busy seg rfl
  have hon : ∀ op ∈ [Op.append seg.path (encodeRecord stored)], op.OnFile seg.path := by
    simp [Op.OnFile]
  have hrun := Disk.run_onFile hon ha.inode
  have hinv := SegRun.write_inv ha.inv rfl ⟨payload, hcap⟩ (.wrote (4 + 4 + stored.length))
  have hcomp : seg.compression = c := ha.inv.compression seg rfl
  rw [SegRun.write, if_neg hne, hcomp, hstored] at hinv
  dsimp only at hinv
  rw [WabSegment.writeRecord_accepts ha.clean (hcomp ▸ hok)] at hinv
  refine ⟨_, hrun, h.sound.run hrun, h.fresh, ?_, h.distinct, fun hnone => absurd hnone (by simp),
    ?_⟩
  · intro x hx
    have hsealed := h.kept x hx
    refine hsealed.frame fun j hj => ⟨hj, Disk.files_setFile_ne d ?_ _⟩
    -- the open file has no other name
    rintro rfl
    exact hsealed.ne_active n ((ha.alone _ hj).trans ha.path)
  · intro seg' hseg'
    cases hseg'
    refine ⟨n, i, createdAt, hn, ha.path, ha.inode, ha.alone, ha.unsealed, ?_, ha.clean, ?_, hfits⟩
    · rw [Disk.files_setFile]
      exact hinv
    show seg.bytesWritten + 8 + stored.length = _
    rw [ha.bytes, map_append, encodeRecords_append, length_append, map_singleton,
      encodeRecords_cons, encodeRecords_nil, append_nil, encodeRecord_length]
    dsimp only
    omega

/-- The open segment sealed. -/
theorem Written.seal
    (h : Written z dir shardId c level d next (some seg) done records) (hne : records ≠ [])
    {io : SealIo} {sealed : Path} {ops : List (Op Path)} (hseal : seg.seal io = (.ok sealed, ops)) :
    ∃ d', d.run ops = some d' ∧
      Written z dir shardId c level d' next none (done ++ [(sealed, records)]) [] := by
  obtain ⟨n, i, createdAt, hn, ha⟩ := h.busy seg rfl
  have hbytes := SegRun.seal_sealedBytes ha.inv rfl ha.clean hseal
  rw [WabSegment.seal_run hseal] at hbytes
  obtain ⟨hsealed, sync, hsync, rfl⟩ := WabSegment.seal_ok hseal
  rw [ha.path, sealedPathFor_segPath] at hsealed
  subst hsealed
  have hsyncs := fsyncParentDir_ops (segPath dir n .sealed) io.dirSync
  rw [hsync] at hsyncs
  generalize hwrites : [Op.append seg.path buildSentinel,
    .append seg.path (seg.footer io.sealedAt), .fsync seg.path] = writes at hbytes
  have hon : ∀ op ∈ writes, op.OnFile seg.path := by
    rw [← hwrites]
    simp [Op.OnFile]
  have hrun₁ := Disk.run_onFile hon ha.inode
  have hpublish := Disk.run_publish (d := d.setFile i ((d.files i).run seg.path writes)) ha.inode
    ha.unsealed
  have hmoved : d.run (writes ++ [.probe (segPath dir n .sealed) false,
      .rename seg.path (segPath dir n .sealed)])
      = some ((d.setFile i ((d.files i).run seg.path writes)).update
        (.move seg.path (segPath dir n .sealed) i)) := by
    rw [Disk.run_append, hrun₁]
    exact hpublish
  obtain ⟨d', hrun, hnames, hfiles⟩ := Disk.run_then_syncDir hmoved hsyncs
  have hlookup : ∀ q, d'.names.lookup q = if q = segPath dir n .sealed then some i
      else if q = seg.path then none else d.names.lookup q := by
    intro q
    rw [hnames, Disk.names_update, Update.lookup_move, Disk.names_setFile]
  have hops : [Op.append seg.path buildSentinel, .append seg.path (seg.footer io.sealedAt),
      .fsync seg.path, .probe (segPath dir n .sealed) false,
      .rename seg.path (segPath dir n .sealed)] ++ sync
      = writes ++ [.probe (segPath dir n .sealed) false,
        .rename seg.path (segPath dir n .sealed)] ++ sync := by
    rw [← hwrites]
    rfl
  rw [hops]
  refine ⟨d', hrun, h.sound.run hrun, ?_, ?_, ?_, fun _ => rfl, fun seg hseg => by cases hseg⟩
  · intro k hk
    have hne : ∀ e e', segPath dir k e ≠ segPath dir n e' := by
      intro e e' heq
      have := (segPath_inj heq).1
      omega
    rw [hlookup, if_neg (hne _ _), ha.path, if_neg (hne _ _), hlookup, if_neg (hne _ _), ha.path,
      if_neg (hne _ _)]
    exact h.fresh k hk
  · intro x hx
    rcases mem_append.mp hx with hx | hx
    · have hold := h.kept x hx
      refine hold.frame fun j hj => ⟨?_, ?_⟩
      · rw [hlookup, if_neg, if_neg (by rw [ha.path]; exact hold.ne_active n)]
        · exact hj
        · intro heq
          rw [heq, ha.unsealed] at hj
          cases hj
      · have hji : j ≠ i := by
          rintro rfl
          exact hold.ne_active n ((ha.alone _ hj).trans ha.path)
        rw [hfiles]
        exact Disk.files_setFile_ne d hji _
    · obtain rfl := mem_singleton.mp hx
      refine ⟨⟨n, rfl⟩, ⟨i, createdAt, io.sealedAt, ?_, ?_⟩, ha.inv.records, hne, ?_⟩
      · rw [hlookup, if_pos rfl]
      · rw [hfiles]
        show ((d.setFile i ((d.files i).run seg.path writes)).files i).content = _
        rw [Disk.files_setFile]
        exact hbytes
      · have := ha.fits
        rw [ha.bytes] at this
        dsimp only
        omega
  · rw [map_append, map_singleton]
    refine List.nodup_append.mpr ⟨h.distinct, nodup_singleton _, ?_⟩
    intro p hp q hq heq
    obtain rfl := mem_singleton.mp hq
    obtain ⟨x, hx, rfl⟩ := mem_map.mp hp
    obtain ⟨j, -, -, hj, -⟩ := (h.kept x hx).content
    rw [heq, ha.unsealed] at hj
    cases hj

end

/-! ## A run of writes -/

namespace ShardWriter

/-- `write_record` for one payload after another, up to the first that fails: the segments it
sealed, and what was done to the disk. -/
def writeAll (z : Zstd) : ShardWriter → List (Bytes × WriteIo) →
    ShardWriter × Except IoError (List Path) × List (Op Path)
  | w, [] => (w, .ok [], [])
  | w, (payload, io) :: rest =>
    match w.writeRecord z payload io with
    | (w', .error e, ops) => (w', .error e, ops)
    | (w', .ok sealed, ops) =>
      match writeAll z w' rest with
      | (w'', .error e, ops') => (w'', .error e, ops ++ ops')
      | (w'', .ok paths, ops') => (w'', .ok (sealed.toList ++ paths), ops ++ ops')

/-- The writes, and `seal_current` for the segment they leave open. -/
def writeAndSeal (z : Zstd) (w : ShardWriter) (writes : List (Bytes × WriteIo)) (io : SealIo) :
    Except IoError (List Path) × List (Op Path) :=
  match w.writeAll z writes with
  | (_, .error e, ops) => (.error e, ops)
  | (w', .ok paths, ops) =>
    match w'.sealCurrent io with
    | (_, .error e, ops') => (.error e, ops ++ ops')
    | (_, .ok last, ops') => (.ok (paths ++ last.toList), ops ++ ops')

/-- All calls of a run of writes succeed. -/
def AllSucceed (z : Zstd) : ShardWriter → List (Bytes × WriteIo) → Prop
  | _, [] => True
  | w, (payload, io) :: rest =>
    io.Succeeds z w payload ∧ AllSucceed z (w.writeRecord z payload io).1 rest

/-- What a writer has on the disk: an open segment holds a record. -/
structure OnDisk (z : Zstd) (w : ShardWriter) (d : Disk Path) (done : List (Path × List Stored))
    (records : List Stored) : Prop where
  written : Written z w.shardDir w.shardId w.compression w.compressionLevel d w.nextCounter w.active
    done records
  filled : w.active ≠ none → records ≠ []

section

variable {z : Zstd} {w w' w₁ : ShardWriter} {d : Disk Path} {done : List (Path × List Stored)}
  {records : List Stored} {seg : WabSegment} {ops : List (Op Path)}

theorem OnDisk.clean (h : OnDisk z w d done records) :
    ∀ seg, w.active = some seg → seg.poisoned = false ∧ seg.compression = w.compression := by
  intro seg hact
  obtain ⟨n, i, createdAt, -, ha⟩ := h.written.busy seg hact
  exact ⟨ha.clean, ha.inv.compression seg rfl⟩

variable {io : CreateIo}

theorem Opened.shard (h : Opened w io w₁ seg ops) :
    w₁.shardDir = w.shardDir ∧ w₁.shardId = w.shardId := by
  cases h <;> exact ⟨rfl, rfl⟩

/-- With a segment open the record goes to its end. -/
theorem Opened.offset_eq (h : Opened w io w₁ seg ops) : seg.bytesWritten = w.offset := by
  cases h with
  | already hact => rw [offset, hact]
  | fresh hact hcreate =>
    obtain ⟨rfl, -⟩ := WabSegment.create_ok hcreate
    rw [offset, hact]

section

variable (h : OnDisk z w d done records)

include h

/-- An open segment, the one from before or a fresh one. -/
theorem OnDisk.opened (ho : Opened w io w₁ seg ops) : ∃ d₁, d.run ops = some d₁ ∧
      Written z w.shardDir w.shardId w.compression w.compressionLevel d₁ w₁.nextCounter (some seg)
        done records := by
  cases ho with
  | already hact =>
    refine ⟨d, rfl, ?_⟩
    rw [← hact]
    exact h.written
  | fresh hact hcreate =>
    have hw := h.written
    rw [hact] at hw
    exact hw.create hcreate

/-- The record of one write, with the segment open that takes it. -/
theorem OnDisk.appended {payload stored : Bytes} (hne : payload ≠ [])
    (hcap : payload.length ≤ maxPayloadHardCap)
    (hstored : storedForm z w.compression w.compressionLevel payload = some stored)
    (hopen : Opened w io w₁ seg ops) (hok : StoredOk seg.compression stored)
    (hfits : w.offset + 8 + stored.length < 2 ^ 63) :
    ∃ d', d.run (ops ++ [.append seg.path (encodeRecord stored)]) = some d' ∧
      Written z w.shardDir w.shardId w.compression w.compressionLevel d' w₁.nextCounter
        (some (seg.accept stored)) done (records ++ [⟨payload, stored⟩]) := by
  obtain ⟨d₁, hrun₁, hw₁⟩ := h.opened hopen
  rw [(hopen.clean h.clean).2] at hok
  rw [← hopen.offset_eq] at hfits
  obtain ⟨d', hrun', hw'⟩ := hw₁.append hne hcap hstored hok hfits
  refine ⟨d', ?_, hw'⟩
  rw [Disk.run_append, hrun₁]
  exact hrun'

/-- One successful `write_record`: the record is the last of the open segment, or of the one that
was sealed. -/
theorem OnDisk.write {payload : Bytes} {io : WriteIo} {sealed : Option Path} (hne : payload ≠ [])
    (hcap : payload.length ≤ maxPayloadHardCap)
    (hspec : WriteRecord z w payload io w' (.ok sealed) ops)
    (hfits : ∀ stored, storedForm z w.compression w.compressionLevel payload = some stored →
      w.offset + 8 + stored.length < 2 ^ 63) :
    ∃ d' done' records' r, d.run ops = some d' ∧ OnDisk z w' d' done' records' ∧
      done'.map (·.1) = done.map (·.1) ++ sealed.toList ∧ r.payload = payload ∧
      done'.flatMap (·.2) ++ records' = done.flatMap (·.2) ++ records ++ [r] := by
  cases hspec with
  | @written stored w₁ seg opened hstored hopen hok _ =>
    obtain ⟨d', hrun, hw⟩ := h.appended hne hcap hstored hopen hok (hfits stored hstored)
    obtain ⟨hcomp, hlevel⟩ := hopen.codec
    obtain ⟨hdir, hid⟩ := hopen.shard
    rw [← hcomp, ← hlevel, ← hdir, ← hid] at hw
    exact ⟨d', done, _, _, hrun, ⟨hw, fun _ => by simp⟩, (append_nil _).symm, rfl,
      (append_assoc ..).symm⟩
  | @rotated stored w₁ seg sealed opened sealing hstored hopen hok _ hseal =>
    obtain ⟨d₁, hrun₁, hw₁⟩ := h.appended hne hcap hstored hopen hok (hfits stored hstored)
    obtain ⟨d', hrun', hw⟩ := hw₁.seal (by simp) hseal
    obtain ⟨hcomp, hlevel⟩ := hopen.codec
    obtain ⟨hdir, hid⟩ := hopen.shard
    rw [← hcomp, ← hlevel, ← hdir, ← hid] at hw
    refine ⟨d', _, [], ⟨payload, stored⟩, ?_, ⟨hw, fun hact => absurd rfl hact⟩, ?_, rfl, ?_⟩
    · rw [Disk.run_append, hrun₁]
      exact hrun'
    · simp
    · simp

/-- `seal_current` seals what is open. -/
theorem OnDisk.sealCurrent {io : SealIo} (hio : io.Succeeds) :
    ∃ w' last ops d' groups, w.sealCurrent io = (w', .ok last, ops) ∧ d.run ops = some d' ∧
      Written z w.shardDir w.shardId w.compression w.compressionLevel d' w.nextCounter none
        groups [] ∧
      groups.map (·.1) = done.map (·.1) ++ last.toList ∧
      groups.flatMap (·.2) = done.flatMap (·.2) ++ records := by
  have hw := h.written
  cases hact : w.active with
  | none =>
    rw [hact] at hw
    obtain rfl := hw.idle rfl
    refine ⟨_, none, [], d, done, by rw [ShardWriter.sealCurrent, hact], rfl, hw, ?_, ?_⟩
    · exact (append_nil _).symm
    · exact (append_nil _).symm
  | some seg =>
    rw [hact] at hw
    obtain ⟨sealed, ops, hseal⟩ := seg.seal_succeeds hio
    obtain ⟨d', hrun, hw'⟩ := hw.seal (h.filled (by rw [hact]; simp)) hseal
    have hcurrent : w.sealCurrent io
        = ({ w with active := none, activePath := none }, .ok (some sealed), ops) := by
      rw [ShardWriter.sealCurrent, hact]
      dsimp only
      rw [hseal]
    refine ⟨_, some sealed, ops, d', _, hcurrent, hrun, hw', ?_, ?_⟩
    · simp
    · simp

end

/-- A run of successful writes: every call returns, and the payloads are on the disk in order. -/
theorem writeAll_written (hz : z.Framed) :
    ∀ (writes : List (Bytes × WriteIo)) (w : ShardWriter) (d : Disk Path)
      (done : List (Path × List Stored)) (records : List Stored),
      OnDisk z w d done records →
      (∀ x ∈ writes, x.1 ≠ [] ∧ x.1.length ≤ maxPayloadHardCap) → w.AllSucceed z writes →
      ∃ w' paths ops d' done' records' new, w.writeAll z writes = (w', .ok paths, ops) ∧
        d.run ops = some d' ∧ OnDisk z w' d' done' records' ∧
        (w'.compression = w.compression ∧ w'.compressionLevel = w.compressionLevel) ∧
        done'.map (·.1) = done.map (·.1) ++ paths ∧ new.map (·.payload) = writes.map (·.1) ∧
        done'.flatMap (·.2) ++ records' = done.flatMap (·.2) ++ records ++ new := by
  intro writes
  induction writes with
  | nil =>
    intro w d done records h _ _
    exact ⟨w, [], [], d, done, records, [], rfl, rfl, h, ⟨rfl, rfl⟩, (append_nil _).symm, rfl,
      (append_nil _).symm⟩
  | cons x writes ih =>
    obtain ⟨payload, io⟩ := x
    intro w d done records h hpayloads hall
    obtain ⟨hne, hcap⟩ := hpayloads _ mem_cons_self
    obtain ⟨hio, hrest⟩ := hall
    obtain ⟨w₁, sealed, ops₁, hwrite⟩ := writeRecord_succeeds hz hne hcap h.clean hio
    have hspec := writeRecord_spec z w payload io
    rw [hwrite] at hspec hrest
    obtain ⟨stored, hstored, -, hlt⟩ := hio.write
    have hfits : ∀ s, storedForm z w.compression w.compressionLevel payload = some s →
        w.offset + 8 + s.length < 2 ^ 63 := by
      intro s hs
      rw [hstored] at hs
      rw [← Option.some.inj hs]
      exact hlt
    obtain ⟨d₁, done₁, records₁, r, hrun₁, h₁, hpaths₁, rfl, hsame₁⟩ :=
      h.write hne hcap hspec hfits
    obtain ⟨hcomp, hlevel⟩ := hspec.codec
    obtain ⟨w', paths, ops, d', done', records', new, hwrites, hrun, h', hcodec, hpaths, hnew,
      hsame⟩ := ih w₁ d₁ done₁ records₁ h₁ (fun y hy => hpayloads y (mem_cons_of_mem _ hy)) hrest
    refine ⟨w', sealed.toList ++ paths, ops₁ ++ ops, d', done', records', r :: new, ?_, ?_, h',
      ⟨hcodec.1.trans hcomp, hcodec.2.trans hlevel⟩, ?_, ?_, ?_⟩
    · rw [writeAll, hwrite]
      dsimp only
      rw [hwrites]
    · rw [Disk.run_append, hrun₁]
      exact hrun
    · rw [hpaths, hpaths₁, append_assoc]
    · rw [map_cons, hnew, map_cons]
    · rw [hsame, hsame₁, append_assoc]
      rfl

end

end ShardWriter

/-- A sealed file verifies, with the numbers of its records in the footer, and is read back. -/
theorem SealedFile.read_back {z : Zstd} (hz : z.Inverts) {dir : List String} {shardId : UInt16}
    {c : Compression} {level : Int} {d : Disk Path} {x : Path × List Stored}
    (h : SealedFile z dir shardId c level d x) :
    ∃ file v reader, d.read x.1 = some file ∧ verifySealedSegment file noFault = .ok v ∧
      v.footer.recordCount = x.2.length ∧
      v.footer.dataBytes = (x.2.map (·.stored.length)).sum ∧
      SegmentReader.open file noFault = .ok reader ∧
      (reader.readAll z noFault).1 = x.2.map (fun r => .ok r.payload) ∧
      (reader.readAll z noFault).2.terminatedCleanly = some true := by
  obtain ⟨i, createdAt, sealedAt, hi, hcontent⟩ := h.content
  have hm := parseSegmentHeader_build shardId c createdAt
  have hok : ∀ s ∈ x.2.map (·.stored), StoredOk c s := by
    intro s hs
    obtain ⟨r, hr, rfl⟩ := mem_map.mp hs
    exact (h.records r hr).2.2
  have hdec : Decodes z c (x.2.map (·.stored)) (x.2.map (·.payload)) := by
    rw [Decodes, map_map, map_map]
    refine map_congr_left fun r hr => ?_
    obtain ⟨hcap, hform, -⟩ := h.records r hr
    exact decodeStored_storedForm hz hcap hform
  have hdata : ((x.2.map (·.stored)).map length).sum
      ≤ (encodeRecords (x.2.map (·.stored))).length := sum_length_le_encodeRecords _
  have hcount := length_le_encodeRecords (x.2.map (·.stored))
  have hfits := h.fits
  have hv := verifySealedSegment_sealedBytes (t := sealedAt) hm hok (by omega) (by omega)
  have hfile : sealedBytes (buildSegmentHeader shardId c createdAt) (x.2.map (·.stored)) sealedAt
      = _ := append_assoc ..
  obtain ⟨reader, hopen, hitems, hclean, -⟩ := SegmentReader.read_whole hm hok hdec hfile
  refine ⟨_, _, reader, ?_, hv, ?_, ?_, hopen, ?_, hclean⟩
  · rw [Disk.read_of_lookup hi, hcontent]
  · exact length_map ..
  · dsimp only
    rw [map_map]
    rfl
  · rw [hitems, map_map]
    rfl

/-- `ShardWriter` and the readers agree: when all calls succeed, the segments that are sealed by
rotation and at the end hold the payloads in order, each verifies with its own counts, and each is
read back whole. -/
theorem sealed_segments_read_back (z : Zstd) (hz : z.Inverts) (hframed : z.Framed)
    (w : ShardWriter) (hidle : w.active = none) (d : Disk Path) (hd : d.Sound)
    (hfresh : ∀ n, w.nextCounter ≤ n → d.names.lookup (segPath w.shardDir n .active) = none ∧
      d.names.lookup (segPath w.shardDir n .sealed) = none) (writes : List (Bytes × WriteIo))
    (hpayloads : ∀ x ∈ writes, x.1 ≠ [] ∧ x.1.length ≤ maxPayloadHardCap)
    (hwrites : w.AllSucceed z writes) (io : SealIo) (hio : io.Succeeds) :
    ∃ (groups : List (Path × List Stored)) (ops : List (Op Path)) (d' : Disk Path),
      w.writeAndSeal z writes io = (.ok (groups.map (·.1)), ops) ∧ d.run ops = some d' ∧
      (groups.flatMap (·.2)).map (·.payload) = writes.map (·.1) ∧ (groups.map (·.1)).Nodup ∧
      ∀ g ∈ groups, g.2 ≠ [] ∧
        (∀ r ∈ g.2, storedForm z w.compression w.compressionLevel r.payload = some r.stored) ∧
        ∃ file v reader, d'.read g.1 = some file ∧ verifySealedSegment file noFault = .ok v ∧
          v.footer.recordCount = g.2.length ∧
          v.footer.dataBytes = (g.2.map (·.stored.length)).sum ∧
          SegmentReader.open file noFault = .ok reader ∧
          (reader.readAll z noFault).1 = g.2.map (fun r => .ok r.payload) ∧
          (reader.readAll z noFault).2.terminatedCleanly = some true := by
  have hstart : ShardWriter.OnDisk z w d [] [] := by
    refine ⟨⟨hd, hfresh, by simp, nodup_nil, fun _ => rfl, fun seg hseg => ?_⟩,
      fun hact => absurd hidle hact⟩
    rw [hidle] at hseg
    cases hseg
  obtain ⟨w', paths, ops, d₁, done, records, new, hrun, hdisk, h, ⟨hcomp, hlevel⟩, hpaths, hnew,
    hsame⟩ := ShardWriter.writeAll_written hframed writes w d [] [] hstart hpayloads hwrites
  obtain ⟨w'', last, ops', d', groups, hseal, hdisk', hw, hgroups, hall⟩ := h.sealCurrent hio
  rw [hcomp, hlevel] at hw
  refine ⟨groups, ops ++ ops', d', ?_, ?_, ?_, hw.distinct, ?_⟩
  · rw [ShardWriter.writeAndSeal, hrun]
    dsimp only
    rw [hseal, hgroups, hpaths]
    rfl
  · rw [Disk.run_append, hdisk]
    exact hdisk'
  · rw [hall, hsame, ← hnew]
    rfl
  · intro g hg
    have hfile := hw.kept g hg
    exact ⟨hfile.filled, fun r hr => (hfile.records r hr).2.1, hfile.read_back hz⟩

/-- Two writes into a shard whose segments are full at thirty bytes, so that each is sealed. -/
def twoWrites : List (Bytes × WriteIo) :=
  [([1], ⟨false, .calm, .wrote 9, .calm⟩), ([2], ⟨false, .calm, .wrote 9, .calm⟩)]

theorem sealed_segments_read_back_two :
    ∃ (groups : List (Path × List Stored)) (ops : List (Op Path)) (d' : Disk Path),
      (ShardWriter.new 0 ["wab"] 30 .zstd 3).writeAndSeal Zstd.plain twoWrites .calm
          = (.ok (groups.map (·.1)), ops) ∧
        Disk.empty.run ops = some d' ∧
        (groups.flatMap (·.2)).map (·.payload) = [[1], [2]] := by
  have hfirst : (⟨false, .calm, .wrote 9, .calm⟩ : WriteIo).Succeeds Zstd.plain
      (ShardWriter.new 0 ["wab"] 30 .zstd 3) [1] :=
    ⟨rfl, ⟨rfl, rfl, rfl⟩, ⟨[1], rfl, rfl, by decide⟩, ⟨rfl, rfl, rfl, rfl, rfl, rfl⟩⟩
  obtain ⟨groups, ops, d', hrun, hdisk, hall, -⟩ := sealed_segments_read_back Zstd.plain
    Zstd.plain_inverts Zstd.plain_framed (ShardWriter.new 0 ["wab"] 30 .zstd 3) rfl Disk.empty
    ⟨(fun _ _ h => by cases h), by simp [Disk.empty]⟩ (fun n _ => ⟨rfl, rfl⟩) twoWrites (by decide)
    ⟨hfirst, ⟨rfl, ⟨rfl, rfl, rfl⟩, ⟨[2], rfl, rfl, by decide⟩, ⟨rfl, rfl, rfl, rfl, rfl, rfl⟩⟩,
      trivial⟩ .calm ⟨rfl, rfl, rfl, rfl, rfl, rfl⟩
  exact ⟨groups, ops, d', hrun, hdisk, hall⟩

end Weir.Wab

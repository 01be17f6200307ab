import Weir.Wab.Shard

/-!
# The life of one segment file

A segment is created, takes records, is synced now and then, and is sealed or
dropped; any of these may fail part-way. `SegRun` follows one segment through
such a life: its handle, its file as the kernel holds it, the records accepted
so far, and how many of them the last successful sync covered.

> `SegRun.run_inv`: whatever the calls and their outcomes, the file holds the
> header and the accepted records in order, then at most the remains of a
> failed write or of a seal; and the stable part covers the synced records.

It is what crash recovery (`Recovery`) and the coordinates of records rest on.
-/

namespace Weir.Wab

open Weir.Lib List

/-- A payload the socket layer lets through: `MAX_PAYLOAD_HARD_CAP` at most. -/
abbrev Payload := { bs : Bytes // bs.length ≤ maxPayloadHardCap }

/-- A record in a segment: what the producer sent and its stored form. -/
structure Stored where
  payload : Bytes
  stored : Bytes
  deriving DecidableEq, Repr

/-- A segment's handle (`none` once it is sealed, or when the create failed), its
file, its records, and the number of them a successful sync has covered. -/
structure SegRun where
  seg : Option WabSegment
  file : File
  records : List Stored
  synced : Nat

/-- A call on an open segment, with the outcome of its system calls. -/
inductive SegCall
  | write (payload : Payload) (io : Vectored)
  | fsync (fault : Option IoError)
  | sealIt (io : SealIo)

namespace SegRun

/-- The bytes of the accepted records. -/
def body (st : SegRun) : Bytes := encodeRecords (st.records.map (·.stored))

/-- The segment right after `WabSegment::create`. -/
def start (path : Path) (shardId : UInt16) (c : Compression) (io : CreateIo) : SegRun :=
  match WabSegment.create path shardId c io with
  | (.ok seg, ops) => ⟨some seg, File.empty.run path ops, [], 0⟩
  | (.error _, ops) => ⟨none, File.empty.run path ops, [], 0⟩

/-- `write_record` on the open segment: the codec, then the write. -/
def write (z : Zstd) (level : Int) (st : SegRun) (seg : WabSegment) (payload : Bytes)
    (io : Vectored) : SegRun :=
  if payload = [] then st
  else
    match storedForm z seg.compression level payload with
    | none => st
    | some stored =>
      match seg.writeRecord stored io with
      | (seg', .ok (), ops) =>
        { st with
          seg := some seg'
          file := st.file.run seg.path ops
          records := st.records ++ [⟨payload, stored⟩] }
      | (seg', .error _, ops) => { st with seg := some seg', file := st.file.run seg.path ops }

/-- One call. -/
def step (z : Zstd) (level : Int) (st : SegRun) (call : SegCall) : SegRun :=
  match st.seg with
  | none => st
  | some seg =>
    match call with
    | .write payload io => st.write z level seg payload.1 io
    | .fsync fault =>
      match seg.fsync fault with
      | (.ok (), ops) =>
        { st with file := st.file.run seg.path ops, synced := st.records.length }
      | (.error _, ops) => { st with file := st.file.run seg.path ops }
    | .sealIt io =>
      { st with
        seg := none
        file := st.file.run seg.path (seg.seal io).2
        synced := if .fsync seg.path ∈ (seg.seal io).2 then st.records.length else st.synced }

/-- A sequence of calls. -/
def run (z : Zstd) (level : Int) (st : SegRun) (calls : List SegCall) : SegRun :=
  calls.foldl (step z level) st

/-- What a segment's life keeps. `header` is the header `create` wrote, `c` the
segment's compression. -/
structure Inv (z : Zstd) (level : Int) (header : Bytes) (c : Compression) (st : SegRun) : Prop where
  records : ∀ r ∈ st.records, r.payload.length ≤ maxPayloadHardCap ∧
    storedForm z c level r.payload = some r.stored ∧ StoredOk c r.stored
  content : st.records ≠ [] ∨ st.seg ≠ none → ∃ extra, st.file.content = header ++ st.body ++ extra
  clean : ∀ seg, st.seg = some seg → seg.poisoned = false → st.file.content = header ++ st.body
  compression : ∀ seg, st.seg = some seg → seg.compression = c
  mirror : ∀ seg, st.seg = some seg → seg.recordCount = st.records.length ∧
    seg.dataBytes = (st.records.map (·.stored.length)).sum ∧
    seg.fileCrcHasher = Hasher.new.update (header ++ st.body)
  synced_le : st.synced ≤ st.records.length
  stable : 0 < st.synced →
    (header ++ encodeRecords ((st.records.take st.synced).map (·.stored))).length ≤ st.file.stable

variable {level : Int} {header : Bytes} {c : Compression} {st : SegRun} {z : Zstd}

/-- Every accepted record is storable. -/
theorem Inv.storedOk (h : Inv z level header c st) :
    ∀ s ∈ st.records.map (·.stored), StoredOk c s := by
  intro s hs
  obtain ⟨r, hr, rfl⟩ := mem_map.mp hs
  exact (h.records r hr).2.2

theorem body_concat (st : SegRun) (r : Stored) :
    encodeRecords ((st.records ++ [r]).map (·.stored)) = st.body ++ encodeRecord r.stored := by
  rw [map_append, encodeRecords_append, body, map_singleton, encodeRecords_cons,
    encodeRecords_nil, append_nil]

theorem start_inv (z : Zstd) (level : Int) (path : Path) (shardId : UInt16) (c : Compression)
    (io : CreateIo) :
    Inv z level (buildSegmentHeader shardId c io.createdAt) c (start path shardId c io) := by
  unfold start
  split
  next seg ops hcreate =>
    obtain ⟨rfl, sync, hsync, rfl⟩ := WabSegment.create_ok hcreate
    have hnames : ∀ op ∈ sync, op.OnNames := by
      have h := fsyncParentDir_onNames path io.dirSync
      rwa [hsync] at h
    have hfile : (File.empty.run path ([.create path,
        .append path (buildSegmentHeader shardId c io.createdAt)] ++ sync)).content
          = buildSegmentHeader shardId c io.createdAt := by
      rw [File.run_append, File.run_onNames hnames]
      simp [File.empty]
    refine ⟨by simp, fun _ => ⟨[], by simpa [body] using hfile⟩, ?_, ?_, ?_, Nat.zero_le _, ?_⟩
    · intro seg _ _
      simpa [body] using hfile
    · intro seg hseg
      rw [← Option.some.inj hseg]
    · intro seg hseg
      rw [← Option.some.inj hseg]
      simp [body]
    · exact fun h => absurd h (by simp)
  · exact ⟨by simp, by simp, by simp, by simp, by simp, Nat.zero_le _, fun h => absurd h (by simp)⟩

section

variable (h : Inv z level header c st)

include h

theorem write_inv {seg : WabSegment} (hseg : st.seg = some seg) (payload : Payload)
    (io : Vectored) :
    Inv z level header c (st.write z level seg payload.1 io) := by
  have hc := h.compression seg hseg
  unfold write
  split
  · exact h
  split
  · exact h
  rename_i stored hstored
  split
  next seg' ops hwrite =>
    -- accepted: the segment was clean, and stays so with one more record
    obtain ⟨hpoison, hok, rfl, rfl⟩ := WabSegment.writeRecord_ok hwrite
    have hclean := h.clean seg hseg hpoison
    have hcontent : (st.file.run seg.path [.append seg.path (encodeRecord stored)]).content
        = header ++ (st.body ++ encodeRecord stored) := by
      simp [hclean]
    obtain ⟨hcount, hdata, hcrc⟩ := h.mirror seg hseg
    refine ⟨?_, ?_, ?_, ?_, ?_, ?_, ?_⟩
    · intro r hr
      rcases mem_append.mp hr with hr | hr
      · exact h.records r hr
      · rw [mem_singleton.mp hr]
        rw [hc] at hstored hok
        exact ⟨payload.2, hstored, hok⟩
    · intro _
      exact ⟨[], by rw [append_nil]; unfold body; rw [body_concat]; exact hcontent⟩
    · intro seg' _ _
      unfold body
      rw [body_concat]
      exact hcontent
    · intro seg' hseg'
      rw [← Option.some.inj hseg']
      exact hc
    · intro seg' hseg'
      rw [← Option.some.inj hseg']
      refine ⟨?_, ?_, ?_⟩
      · simp [WabSegment.accept, hcount]
      · simp [WabSegment.accept, hdata]
      · unfold body
        rw [body_concat, ← append_assoc, ← Hasher.update_append, ← hcrc]
        rfl
    · exact le_trans h.synced_le (by simp)
    · intro hpos
      have := h.stable hpos
      rw [take_append_of_le_length h.synced_le]
      simpa using this
  next seg' e ops hwrite =>
    rcases WabSegment.writeRecord_error hwrite with ⟨rfl, rfl⟩ | ⟨rfl, hops⟩
    · exact ⟨h.records, fun _ => h.content (.inr (by simp [hseg])),
        fun s hs => h.clean s (hseg.trans hs), fun s hs => h.compression s (hseg.trans hs),
        fun s hs => h.mirror s (hseg.trans hs), h.synced_le, h.stable⟩
    · -- poisoned: at most a part of the record is behind the accepted ones
      obtain ⟨part, hfile⟩ : ∃ part, st.file.run seg.path ops = st.file.append part := by
        rcases hops with rfl | ⟨n, rfl⟩
        · exact ⟨[], by simp [File.append]⟩
        · exact ⟨(encodeRecord stored).take n, by simp⟩
      obtain ⟨extra, hextra⟩ := h.content (.inr (by simp [hseg]))
      refine ⟨h.records, ?_, ?_, ?_, ?_, h.synced_le, ?_⟩
      · intro _
        exact ⟨extra ++ part, by
          rw [hfile, File.content_append, hextra, append_assoc]; rfl⟩
      · intro s hs hp
        rw [← Option.some.inj hs] at hp
        cases hp
      · intro s hs
        rw [← Option.some.inj hs]
        exact hc
      · intro s hs
        rw [← Option.some.inj hs]
        exact h.mirror seg hseg
      · intro hpos
        rw [hfile]
        exact h.stable hpos

/-- A sync covers every record accepted before it. -/
theorem Inv.stable_sync (hopen : st.seg ≠ none) (bs : Bytes) :
    (header ++ encodeRecords ((st.records.take st.records.length).map (·.stored))).length
      ≤ (st.file.append bs).sync.stable := by
  obtain ⟨extra, hextra⟩ := h.content (.inr hopen)
  rw [take_length, File.stable_sync, File.content_append, hextra]
  simp only [length_append, body]
  omega

theorem step_inv (call : SegCall) : Inv z level header c (st.step z level call) := by
  unfold step
  split
  · exact h
  rename_i seg hseg
  have hopen : st.seg ≠ none := by simp [hseg]
  obtain ⟨extra, hextra⟩ := h.content (.inr hopen)
  cases call with
  | write payload io => exact write_inv h hseg payload io
  | fsync fault =>
    dsimp only
    split
    next ops hfs =>
      have hfile : st.file.run seg.path ops = st.file.sync := by
        rw [WabSegment.fsync_ok hfs]; simp
      rw [hfile]
      refine ⟨h.records, h.content, h.clean, h.compression, h.mirror, le_rfl, ?_⟩
      intro _
      have := h.stable_sync hopen []
      simpa [File.sync, File.append] using this
    next e ops hfs =>
      rw [WabSegment.fsync_error hfs, File.run_nil]
      exact h
  | sealIt io =>
    refine ⟨h.records, ?_, by simp, by simp, by simp, ?_, ?_⟩
    · intro _
      rcases seg.seal_file io st.file with ⟨part, hfile, _⟩ | hfile
      · exact ⟨extra ++ part, by
          dsimp only; rw [hfile, File.content_append, hextra, append_assoc]; rfl⟩
      exact ⟨extra ++ (buildSentinel ++ seg.footer io.sealedAt), by
        dsimp only
        rw [hfile, File.content_sync, File.content_append, File.content_append, hextra]
        simp [body]⟩
    · dsimp only
      split
      · exact le_rfl
      · exact h.synced_le
    · dsimp only
      rcases seg.seal_file io st.file with ⟨part, hfile, hno⟩ | hfile
      · rw [if_neg hno, hfile]
        exact h.stable
      intro hpos
      rw [hfile, File.append_append]
      split
      · exact h.stable_sync hopen _
      rename_i hno
      -- without the sync among the operations the file could not be synced
      rw [if_neg hno] at hpos
      refine le_trans (h.stable hpos) (le_trans st.file.stable_le ?_)
      rw [File.stable_sync, File.content_append, length_append]
      exact Nat.le_add_right ..

end

/-- Over a whole life the file keeps what was accepted, and its stable part what
was synced. -/
theorem run_inv (calls : List SegCall) :
    ∀ {st : SegRun}, Inv z level header c st → Inv z level header c (st.run z level calls) := by
  induction calls with
  | nil => intro st h; exact h
  | cons call calls ih => intro st h; exact ih (step_inv h call)

/-- A successful seal of a clean segment leaves a well-formed sealed file. -/
theorem seal_sealedBytes (h : Inv z level header c st) {seg : WabSegment}
    (hseg : st.seg = some seg) (hpoison : seg.poisoned = false) {io : SealIo} {sealed : Path}
    {ops : List (Op Path)} (hok : seg.seal io = (.ok sealed, ops)) :
    (st.file.run seg.path ops).content
      = sealedBytes header (st.records.map (·.stored)) io.sealedAt := by
  obtain ⟨hcount, hdata, hcrc⟩ := h.mirror seg hseg
  rw [WabSegment.seal_run hok]
  simp only [File.run_cons, File.run_nil, File.step_append, File.step_fsync, File.content_sync,
    File.content_append, h.clean seg hseg hpoison]
  simp only [sealedBytes, body, WabSegment.footer, hcount, hdata, hcrc, crc32, length_map,
    map_map, append_assoc, Function.comp_def]

end SegRun

end Weir.Wab

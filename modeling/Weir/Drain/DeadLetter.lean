import Weir.Wab.SegmentRun

/-!
# The dead-letter writer (`drain/dead_letter.rs`)

Records a sink rejects for good are written to segments of their own under
`dead_letter/`, one sealed segment a write. The writer counts the directory's
bytes for the cap and reserves a fresh counter before it tries anything.

> `writeRecords_ok`: a successful write of some records is a sealed segment
> that holds exactly those records, synced before it got its sealed name.
-/

namespace Weir.Drain

open Weir.Lib Weir.Wab

/-- `u64::saturating_add`. -/
def saturatingAdd (a b : Nat) : Nat := min (a + b) (2 ^ 64 - 1)

/-- `estimated_segment_bytes`: header, framed records, sentinel and footer. -/
def estimatedSegmentBytes (records : List Bytes) : Nat :=
  segmentHeaderLen + (records.map fun p => 8 + p.length).sum + buildSentinel.length
    + segmentFooterLen

structure DeadLetterWriter where
  dir : List String
  nextCounter : Nat
  totalBytes : Nat
  dirEntryDurable : Bool

/-- The shard id that marks a dead-letter segment. -/
def deadLetterShard : UInt16 := 0xFFFF

/-- The outcomes of one `write_sealed`: the calls on the segment, one
`write_vectored` a record, and the size the sealed file is stat'ed with. -/
structure SealedWriteIo where
  create : CreateIo
  writes : Nat → Vectored
  sealIo : SealIo
  stat : Option Nat

/-- The outcomes of a `write_records`: of the directory's sync, of the first
write, of what a missing directory leads to, and of the second write. -/
structure DeadLetterIo where
  dirSync : Option IoError
  first : SealedWriteIo
  missing : Bool
  mkdir : Option IoError
  dirSyncAgain : Option IoError
  second : SealedWriteIo

namespace DeadLetterWriter

/-- `dl_{counter:08}.wab`. -/
def activePath (w : DeadLetterWriter) : Path :=
  ⟨w.dir, "dl_" ++ (String.ofList (pad8 w.nextCounter) ++ extActive)⟩

/-- `open`, over what the directory scan found. -/
def «open» (wabDir : List String) (totalBytes maxCounter : Nat) : DeadLetterWriter where
  dir := wabDir ++ ["dead_letter"]
  nextCounter := maxCounter + 1
  totalBytes := totalBytes
  dirEntryDurable := false

/-- `would_exceed_cap`. -/
def wouldExceedCap (w : DeadLetterWriter) (additional cap : Nat) : Bool :=
  decide (saturatingAdd w.totalBytes additional > cap)

/-- `make_dir_entry_durable`. -/
def makeDirEntryDurable (w : DeadLetterWriter) (sync : Option IoError) :
    DeadLetterWriter × Except IoError Unit :=
  if w.dirEntryDurable then (w, .ok ())
  else
    match sync with
    | some e => (w, .error e)
    | none => ({ w with dirEntryDurable := true }, .ok ())

/-- `create_dir`. -/
def createDir (w : DeadLetterWriter) (mkdir : Option IoError) :
    DeadLetterWriter × Except IoError Unit :=
  ({ w with dirEntryDurable := false },
    match mkdir with
    | some e => .error e
    | none => .ok ())

/-- `recreate_dir`: what was in the directory is gone, so nothing counts. -/
def recreateDir (w : DeadLetterWriter) (mkdir sync : Option IoError) :
    DeadLetterWriter × Except IoError Unit :=
  match w.createDir mkdir with
  | (w, .error e) => (w, .error e)
  | (w, .ok ()) => { w with totalBytes := 0 }.makeDirEntryDurable sync

/-- `rescan`, over the total the scan found; `missing` when the directory itself
is gone. -/
def rescan (w : DeadLetterWriter) (scan : Except IoError Nat) (missing : Bool)
    (mkdir sync : Option IoError) : DeadLetterWriter × Except IoError Unit :=
  match scan with
  | .ok total => ({ w with totalBytes := total }, .ok ())
  | .error e =>
    if e.kind = .notFound ∧ missing then w.recreateDir mkdir sync else (w, .error e)

/-- The records, written one by one; the first failure ends it. -/
def writeEach (seg : WabSegment) (writes : Nat → Vectored) :
    Nat → List Bytes → WabSegment × Except IoError Unit × List (Op Path)
  | _, [] => (seg, .ok (), [])
  | k, payload :: rest =>
    match seg.writeRecord payload (writes k) with
    | (seg', .error e, ops) => (seg', .error e, ops)
    | (seg', .ok (), ops) =>
      ((writeEach seg' writes (k + 1) rest).1, (writeEach seg' writes (k + 1) rest).2.1,
        ops ++ (writeEach seg' writes (k + 1) rest).2.2)

/-- `write_sealed`. The counter is reserved before the create. -/
def writeSealed (w : DeadLetterWriter) (records : List Bytes) (io : SealedWriteIo) :
    DeadLetterWriter × Except IoError Unit × List (Op Path) :=
  let active := w.activePath
  let w := { w with nextCounter := w.nextCounter + 1 }
  match WabSegment.create active deadLetterShard .none io.create with
  | (.error e, ops) => (w, .error e, ops)
  | (.ok seg, created) =>
    match writeEach seg io.writes 0 records with
    | (_, .error e, ops) => (w, .error e, created ++ ops)
    | (seg, .ok (), written) =>
      match seg.seal io.sealIo with
      | (.error e, ops) => (w, .error e, created ++ written ++ ops)
      | (.ok _, sealing) =>
        let fileBytes := io.stat.getD (estimatedSegmentBytes records)
        ({ w with totalBytes := saturatingAdd w.totalBytes fileBytes }, .ok (),
          created ++ written ++ sealing)

/-- `write_records`. A missing directory is made again once. -/
def writeRecords (w : DeadLetterWriter) (records : List Bytes) (io : DeadLetterIo) :
    DeadLetterWriter × Except IoError Unit × List (Op Path) :=
  if records = [] then (w, .ok (), [])
  else
    match w.makeDirEntryDurable io.dirSync with
    | (w, .error e) => (w, .error e, [])
    | (w, .ok ()) =>
      match w.writeSealed records io.first with
      | (w, .ok (), ops) => (w, .ok (), ops)
      | (w, .error e, ops) =>
        if e.kind ≠ .notFound then (w, .error e, ops)
        else
          let remade :=
            if io.missing then w.recreateDir io.mkdir io.dirSyncAgain
            else
              match w.createDir io.mkdir with
              | (w, .error e) => (w, .error e)
              | (w, .ok ()) => w.makeDirEntryDurable io.dirSyncAgain
          match remade with
          | (w, .error e) => (w, .error e, ops)
          | (w, .ok ()) =>
            match w.writeSealed records io.second with
            | (w, result, ops') => (w, result, ops ++ ops')

end DeadLetterWriter

/-- The operations make a dead-letter segment from scratch that holds exactly
`records` when they end; they sync it and give it its sealed name. -/
def Seals (ops : List (Op Path)) (records : List Bytes) : Prop :=
  ∃ pre active own createdAt sealedAt, ops = pre ++ .create active :: own ∧
    (File.empty.run active own).content
      = sealedBytes (buildSegmentHeader deadLetterShard .none createdAt) records sealedAt ∧
    (∀ r ∈ records, StoredOk .none r) ∧
    .fsync active ∈ own ∧ .rename active (sealedPathFor active) ∈ own

variable {ops : List (Op Path)} {records : List Bytes}

theorem Seals.append_left (pre : List (Op Path)) (h : Seals ops records) :
    Seals (pre ++ ops) records := by
  obtain ⟨pre', active, own, createdAt, sealedAt, rfl, h⟩ := h
  exact ⟨pre ++ pre', active, own, createdAt, sealedAt, by rw [List.append_assoc], h⟩

/-- A record the segment accepts is one more record of its life. -/
theorem writeRecord_inv {z : Zstd} {level : Int} {header : Bytes} {st : SegRun}
    {seg seg' : WabSegment} {payload : Bytes} {io : Vectored}
    (h : SegRun.Inv z level header .none st) (hseg : st.seg = some seg)
    (hw : seg.writeRecord payload io = (seg', .ok (), ops)) :
    SegRun.Inv z level header .none
      { st with
        seg := some seg'
        file := st.file.run seg.path ops
        records := st.records ++ [⟨payload, payload⟩] } := by
  have hc := h.compression seg hseg
  obtain ⟨_, hok, _, _⟩ := WabSegment.writeRecord_ok hw
  rw [hc] at hok
  have hstep : st.write z level seg payload io
      = { st with
          seg := some seg'
          file := st.file.run seg.path ops
          records := st.records ++ [⟨payload, payload⟩] } := by
    unfold SegRun.write
    have hstored : storedForm z .none level payload = some payload := rfl
    rw [if_neg (List.length_pos_iff.mp hok.1), hc, hstored]
    dsimp only
    rw [hw]
  rw [← hstep]
  exact SegRun.write_inv h hseg ⟨payload, hok.2⟩ io

/-- Writing all the records keeps the segment clean and its file in step. -/
theorem writeEach_ok {z : Zstd} {level : Int} {header : Bytes} {writes : Nat → Vectored} :
    ∀ (records : List Bytes) (k : Nat) {st : SegRun} {seg seg' : WabSegment}
      {ops : List (Op Path)}, SegRun.Inv z level header .none st → st.seg = some seg →
      seg.poisoned = false → DeadLetterWriter.writeEach seg writes k records = (seg', .ok (), ops) →
      ∃ st', SegRun.Inv z level header .none st' ∧ st'.seg = some seg' ∧ seg'.poisoned = false ∧
        seg'.path = seg.path ∧ st'.file = st.file.run seg.path ops ∧
        st'.records.map (·.stored) = st.records.map (·.stored) ++ records := by
  intro records
  induction records with
  | nil =>
    intro k st seg seg' ops h hseg hp hw
    obtain ⟨rfl, rfl⟩ := hw
    exact ⟨st, h, hseg, hp, rfl, rfl, by simp⟩
  | cons payload rest ih =>
    intro k st seg seg' ops h hseg hp hw
    unfold DeadLetterWriter.writeEach at hw
    split at hw
    · cases hw
    rename_i seg₁ ops₁ hone
    simp only [Prod.mk.injEq] at hw
    obtain ⟨hs, hr, rfl⟩ := hw
    obtain ⟨_, _, rfl, _⟩ := WabSegment.writeRecord_ok hone
    obtain ⟨st', hinv, hseg', hp', hpath, hfile, hrecs⟩ :=
      ih (k + 1) (writeRecord_inv h hseg hone) rfl hp (Prod.ext hs (Prod.ext hr rfl))
    refine ⟨st', hinv, hseg', hp', hpath, ?_, ?_⟩
    · rw [hfile, File.run_append]
      rfl
    · rw [hrecs]
      simp

theorem writeSealed_ok {w w' : DeadLetterWriter} {io : SealedWriteIo}
    (h : w.writeSealed records io = (w', .ok (), ops)) : Seals ops records := by
  unfold DeadLetterWriter.writeSealed at h
  dsimp only at h
  split at h
  · cases h
  rename_i seg created hcreate
  split at h
  · cases h
  rename_i seg' written hwritten
  split at h
  · cases h
  rename_i sealed sealing hseal
  obtain ⟨_, rfl⟩ := h
  -- the segment's life so far, from its create
  have hstart := SegRun.start_inv Zstd.plain 0 w.activePath deadLetterShard .none io.create
  unfold SegRun.start at hstart
  rw [hcreate] at hstart
  obtain ⟨hseg, _, _, hcreated⟩ := WabSegment.create_ok hcreate
  obtain ⟨st, hinv, hst, hpoison, hpath, hfile, hrecs⟩ :=
    writeEach_ok records 0 hstart rfl (by rw [hseg]) hwritten
  have hactive : seg.path = w.activePath := by rw [hseg]
  have hcontent := SegRun.seal_sealedBytes hinv hst hpoison hseal
  obtain ⟨hto, sync, _, hsealing⟩ := WabSegment.seal_ok hseal
  rw [hfile, hpath, hactive, ← File.run_append, ← File.run_append, hrecs] at hcontent
  have hok := hinv.storedOk
  rw [hrecs] at hok
  refine ⟨[], w.activePath, created.tail ++ written ++ sealing, io.create.createdAt,
    io.sealIo.sealedAt, ?_, ?_, ?_, ?_, ?_⟩
  · rw [hcreated]
    simp
  · rw [hcreated] at hcontent ⊢
    simpa using hcontent
  · simpa using hok
  · rw [hsealing, hpath, hactive]
    simp
  · rw [hsealing, hto, hpath, hactive]
    simp

/-- A successful write of some records is a sealed segment that holds them. -/
theorem writeRecords_ok {w w' : DeadLetterWriter} {io : DeadLetterIo}
    (hne : records ≠ []) (h : w.writeRecords records io = (w', .ok (), ops)) :
    Seals ops records := by
  unfold DeadLetterWriter.writeRecords at h
  rw [if_neg hne] at h
  split at h
  · cases h
  split at h
  next w₂ ops₁ hfirst =>
    simp only [Prod.mk.injEq, true_and] at h
    rw [← h.2]
    exact writeSealed_ok hfirst
  next w₂ e ops₁ _ =>
    split at h
    · cases h
    dsimp only at h
    split at h
    · cases h
    simp only [Prod.mk.injEq] at h
    obtain ⟨hw, hr, rfl⟩ := h
    exact (writeSealed_ok (Prod.ext hw (Prod.ext hr rfl))).append_left ops₁

end Weir.Drain

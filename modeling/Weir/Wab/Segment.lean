import Weir.Lib.Disk
import Weir.Wab.Names
import Weir.Wab.Reader

/-!
# `WabSegment` (`wab/segment.rs`)

One active segment file and its write accounting. Every system call's outcome
is an argument, so a theorem for all arguments covers every pattern of
failures; what the calls did to the disk is returned as a list of operations
(`Weir.Lib.Op`), in order. The handle's `file` is its `path`: nothing renames
a segment while its handle is open.

Each function has one lemma that says everything a success means:

> `writeRecord_ok`: the record, framed, is the one thing appended.

> `seal_ok`: the file was synced after the sentinel and the footer, and only
> then renamed to the sealed path.
-/

namespace Weir.Wab

open Weir.Lib List

/-- `Path::display`. -/
def Path.display (p : Path) : String := String.join (p.dir.map (· ++ "/")) ++ p.file

/-- `Path::parent`: the directory a path lies in. -/
def Path.parent (p : Path) : Option Path := p.dir.getLast?.map (⟨p.dir.dropLast, ·⟩)

instance : Located Path := ⟨Path.parent⟩

/-- How a `write_all` ended: with everything written, or after `n` bytes with
an error. -/
inductive WriteAll
  | ok
  | failed (n : Nat) (e : IoError)
  deriving DecidableEq, Repr

/-- How a `write_vectored` ended: the number of bytes it wrote, or an error. -/
inductive Vectored
  | wrote (n : Nat)
  | failed (e : IoError)
  deriving DecidableEq, Repr

/-- `fsync_parent_dir`; a path without a parent has nothing to sync. -/
def fsyncParentDir (p : Path) (fault : Option IoError) : Except IoError Unit × List (Op Path) :=
  if p.dir = [] then (.ok (), [])
  else
    match fault with
    | some e => (.error e, [])
    | none => (.ok (), [.syncDir p.parent])

structure WabSegment where
  path : Path
  bytesWritten : Nat
  recordCount : Nat
  dataBytes : Nat
  fileCrcHasher : Hasher
  compression : Compression
  poisoned : Bool

/-- The outcomes of `WabSegment::create`'s calls; `createdAt` is the clock. -/
structure CreateIo where
  opened : Option IoError
  createdAt : Int64
  header : WriteAll
  dirSync : Option IoError

/-- Every call succeeds. -/
def CreateIo.calm : CreateIo := ⟨none, 0, .ok, none⟩

/-- `WabSegment::create`. -/
def WabSegment.create (path : Path) (shardId : UInt16) (c : Compression) (io : CreateIo) :
    Except IoError WabSegment × List (Op Path) :=
  match io.opened with
  | some e => (.error e, [])
  | none =>
    let header := buildSegmentHeader shardId c io.createdAt
    match io.header with
    | .failed n e => (.error e, [.create path, .append path (header.take n)])
    | .ok =>
      match fsyncParentDir path io.dirSync with
      | (.error e, ops) => (.error e, [.create path, .append path header] ++ ops)
      | (.ok (), ops) =>
        (.ok { path := path
               bytesWritten := segmentHeaderLen
               recordCount := 0
               dataBytes := 0
               fileCrcHasher := Hasher.new.update header
               compression := c
               poisoned := false },
          [.create path, .append path header] ++ ops)

/-- The checks of `WabSegment::write_record` that refuse a record before
anything is written. -/
def WabSegment.refusal (seg : WabSegment) (payload : Bytes) : Option IoError :=
  if seg.poisoned then
    some (IoError.new .other "segment is poisoned by a previous partial write")
  else if payload = [] then
    some (IoError.new .invalidInput "empty payload cannot be represented in a WAB segment")
  else if payload.length ≥ 2 ^ 32 then
    some (IoError.new .invalidInput
      s!"payload length {payload.length} exceeds u32::MAX — record rejected")
  else if payload.length > seg.compression.storedCap then
    some (IoError.new .invalidInput
      s!"stored record length {payload.length} exceeds the cap {seg.compression.storedCap}")
  else none

/-- `WabSegment::write_record`; `payload` is the stored form. -/
def WabSegment.writeRecord (seg : WabSegment) (payload : Bytes) (io : Vectored) :
    WabSegment × Except IoError Unit × List (Op Path) :=
  match seg.refusal payload with
  | some e => (seg, .error e, [])
  | none =>
    let total := 4 + 4 + payload.length
    match io with
    | .failed e => ({ seg with poisoned := true }, .error e, [])
    | .wrote n =>
      if n = total then
        ({ seg with
            bytesWritten := seg.bytesWritten + 8 + payload.length
            recordCount := seg.recordCount + 1
            dataBytes := seg.dataBytes + payload.length
            fileCrcHasher := seg.fileCrcHasher.update (encodeRecord payload) },
          .ok (), [.append seg.path (encodeRecord payload)])
      else
        -- The file offset moved past bytes the accounting did not see.
        ({ seg with poisoned := true },
          .error (IoError.new .writeZero "short vectored write of WAB record"),
          [.append seg.path ((encodeRecord payload).take n)])

/-- `WabSegment::fsync`. -/
def WabSegment.fsync (seg : WabSegment) (fault : Option IoError) :
    Except IoError Unit × List (Op Path) :=
  match fault with
  | some e => (.error e, [])
  | none => (.ok (), [.fsync seg.path])

/-- `WabSegment::should_rotate`. -/
def WabSegment.shouldRotate (seg : WabSegment) (maxBytes : Nat) : Bool :=
  decide (seg.bytesWritten ≥ maxBytes)

/-- The outcomes of `WabSegment::seal`'s calls; `sealedAt` is the clock. -/
structure SealIo where
  sealedAt : Int64
  sentinel : WriteAll
  footer : WriteAll
  fsync : Option IoError
  sealedExists : Except IoError Bool
  rename : Option IoError
  dirSync : Option IoError

/-- A seal whose every step succeeds. -/
def SealIo.calm : SealIo := ⟨0, .ok, .ok, none, .ok false, none, none⟩

/-- The footer the segment's accounting gives. -/
def WabSegment.footer (seg : WabSegment) (sealedAt : Int64) : Bytes :=
  buildSegmentFooter seg.recordCount seg.dataBytes seg.fileCrcHasher.finalize sealedAt

/-- `WabSegment::finalize_to_disk`: the durability commit point of a seal. -/
def WabSegment.finalizeToDisk (seg : WabSegment) (io : SealIo) :
    Except IoError Path × List (Op Path) :=
  match io.sentinel with
  | .failed n e => (.error e, [.append seg.path (buildSentinel.take n)])
  | .ok =>
    match io.footer with
    | .failed n e =>
      (.error e,
        [.append seg.path buildSentinel, .append seg.path ((seg.footer io.sealedAt).take n)])
    | .ok =>
      match seg.fsync io.fsync with
      | (.error e, ops) =>
        (.error e,
          [.append seg.path buildSentinel, .append seg.path (seg.footer io.sealedAt)] ++ ops)
      | (.ok (), ops) =>
        (.ok seg.path,
          [.append seg.path buildSentinel, .append seg.path (seg.footer io.sealedAt)] ++ ops)

/-- `WabSegment::seal`. -/
def WabSegment.seal (seg : WabSegment) (io : SealIo) : Except IoError Path × List (Op Path) :=
  match seg.finalizeToDisk io with
  | (.error e, ops) => (.error e, ops)
  | (.ok activePath, ops) =>
    let sealedPath := sealedPathFor activePath
    match io.sealedExists with
    | .error e => (.error e, ops)
    | .ok true =>
      (.error (IoError.new .alreadyExists
        ("refusing to seal '" ++ activePath.display ++ "' over existing '" ++ sealedPath.display
          ++ "' — would overwrite a sealed segment")),
        ops ++ [.probe sealedPath true])
    | .ok false =>
      match io.rename with
      | some e => (.error e, ops ++ [.probe sealedPath false])
      | none =>
        match fsyncParentDir sealedPath io.dirSync with
        | (.error e, sync) =>
          (.error e, ops ++ [.probe sealedPath false, .rename activePath sealedPath] ++ sync)
        | (.ok (), sync) =>
          (.ok sealedPath,
            ops ++ [.probe sealedPath false, .rename activePath sealedPath] ++ sync)

variable {fault : Option IoError} {ops : List (Op Path)}
  {p : Path} {e : IoError} {io : SealIo} {stored : Bytes}

theorem fsyncParentDir_ok (h : fsyncParentDir p fault = (.ok (), ops))
    (hdir : p.dir ≠ []) : ops = [.syncDir p.parent] := by
  unfold fsyncParentDir at h
  rw [if_neg hdir] at h
  split at h
  · cases h
  · simpa using h.symm

theorem fsyncParentDir_error (h : fsyncParentDir p fault = (.error e, ops)) :
    fault = some e ∧ ops = [] := by
  unfold fsyncParentDir at h
  split at h
  · cases h
  split at h
  next e' =>
    obtain ⟨he, hops⟩ := Prod.mk.inj h
    exact ⟨congrArg some (Except.error.inj he), hops.symm⟩
  · cases h

theorem fsyncParentDir_ops (p : Path) (fault : Option IoError) :
    ∀ op ∈ (fsyncParentDir p fault).2, op = .syncDir p.parent := by
  unfold fsyncParentDir
  split
  · simp
  · split <;> simp

variable {seg : WabSegment}

/-- What a successful create leaves: an empty accounting over a file that holds
the header. -/
theorem WabSegment.create_ok {path : Path} {shardId : UInt16} {c : Compression} {io : CreateIo}
    (h : WabSegment.create path shardId c io = (.ok seg, ops)) :
    seg = { path := path
            bytesWritten := segmentHeaderLen
            recordCount := 0
            dataBytes := 0
            fileCrcHasher := Hasher.new.update (buildSegmentHeader shardId c io.createdAt)
            compression := c
            poisoned := false } ∧
    ∃ sync, fsyncParentDir path io.dirSync = (.ok (), sync) ∧
      ops = [.create path, .append path (buildSegmentHeader shardId c io.createdAt)] ++ sync := by
  unfold WabSegment.create at h
  split at h
  · cases h
  split at h
  · cases h
  split at h
  · cases h
  next sync hsync =>
    simp only [Prod.mk.injEq, Except.ok.injEq] at h
    exact ⟨h.1.symm, sync, hsync, h.2.symm⟩

/-- The segment after a record was accepted. -/
def WabSegment.accept (seg : WabSegment) (stored : Bytes) : WabSegment :=
  { seg with
    bytesWritten := seg.bytesWritten + 8 + stored.length
    recordCount := seg.recordCount + 1
    dataBytes := seg.dataBytes + stored.length
    fileCrcHasher := seg.fileCrcHasher.update (encodeRecord stored) }

/-- A record that is not refused is storable. -/
theorem WabSegment.refusal_none (h : seg.refusal stored = none) :
    seg.poisoned = false ∧ StoredOk seg.compression stored := by
  unfold WabSegment.refusal at h
  split at h
  · cases h
  rename_i hp
  split at h
  · cases h
  rename_i hne
  split at h
  · cases h
  split at h
  · cases h
  next hcap =>
    exact ⟨by simpa using hp, length_pos_iff.mpr hne, le_of_not_gt hcap⟩

/-- An accepted record was storable, and is the one thing appended. -/
theorem WabSegment.writeRecord_ok {seg' : WabSegment} {io : Vectored}
    (h : seg.writeRecord stored io = (seg', .ok (), ops)) :
    seg.poisoned = false ∧ StoredOk seg.compression stored ∧ seg' = seg.accept stored ∧
      ops = [.append seg.path (encodeRecord stored)] := by
  unfold WabSegment.writeRecord at h
  split at h
  · cases h
  rename_i hr
  cases io with
  | failed e => cases h
  | wrote n =>
    dsimp only at h
    split at h
    · simp only [Prod.mk.injEq, true_and] at h
      exact ⟨(refusal_none hr).1, (refusal_none hr).2, h.1.symm, h.2.symm⟩
    · cases h

/-- A record that was not accepted was refused with nothing written, or left at
most a part of itself and poisoned the segment. -/
theorem WabSegment.writeRecord_error {seg' : WabSegment} {io : Vectored}
    (h : seg.writeRecord stored io = (seg', .error e, ops)) :
    (seg' = seg ∧ ops = []) ∨
    (seg' = { seg with poisoned := true } ∧
      (ops = [] ∨ ∃ n, ops = [.append seg.path ((encodeRecord stored).take n)])) := by
  unfold WabSegment.writeRecord at h
  split at h
  · simp only [Prod.mk.injEq] at h
    exact .inl ⟨h.1.symm, h.2.2.symm⟩
  cases io with
  | failed e =>
    simp only [Prod.mk.injEq] at h
    exact .inr ⟨h.1.symm, .inl h.2.2.symm⟩
  | wrote n =>
    dsimp only at h
    split at h
    · cases h
    · simp only [Prod.mk.injEq] at h
      exact .inr ⟨h.1.symm, .inr ⟨n, h.2.2.symm⟩⟩

theorem WabSegment.fsync_ok (h : seg.fsync fault = (.ok (), ops)) : ops = [.fsync seg.path] := by
  unfold WabSegment.fsync at h
  split at h
  · cases h
  · simpa using h.symm

theorem WabSegment.fsync_error (h : seg.fsync fault = (.error e, ops)) : ops = [] := by
  unfold WabSegment.fsync at h
  split at h
  · simpa using (Prod.mk.inj h).2.symm
  · cases h

/-- Past the commit point the sentinel and the footer are in the file and a
sync followed them. -/
theorem WabSegment.finalizeToDisk_ok (h : seg.finalizeToDisk io = (.ok p, ops)) :
    p = seg.path ∧
    ops = [.append seg.path buildSentinel, .append seg.path (seg.footer io.sealedAt),
      .fsync seg.path] := by
  unfold WabSegment.finalizeToDisk at h
  split at h
  · cases h
  split at h
  · cases h
  split at h
  · cases h
  rename_i sync hsync
  have hs := WabSegment.fsync_ok hsync
  simp only [Prod.mk.injEq, Except.ok.injEq] at h
  refine ⟨h.1.symm, ?_⟩
  rw [← h.2, hs]
  rfl

/-- What the commit point does to the segment's file: it appends a part of the
sentinel and the footer, or both, and then syncs. -/
theorem WabSegment.finalizeToDisk_file (seg : WabSegment) (io : SealIo) :
    (∃ e ops part, seg.finalizeToDisk io = (.error e, ops) ∧ .fsync seg.path ∉ ops ∧
      ∀ f : File, f.run seg.path ops = f.append part) ∨
    seg.finalizeToDisk io = (.ok seg.path,
      [.append seg.path buildSentinel, .append seg.path (seg.footer io.sealedAt),
        .fsync seg.path]) := by
  unfold WabSegment.finalizeToDisk
  cases io.sentinel with
  | failed n e =>
    exact .inl ⟨e, _, buildSentinel.take n, rfl, by simp, fun f => by simp⟩
  | ok =>
    cases io.footer with
    | failed n e =>
      refine .inl ⟨e, _, buildSentinel ++ (seg.footer io.sealedAt).take n, rfl, by simp, ?_⟩
      simp [File.append_append]
    | ok =>
      cases hfs : seg.fsync io.fsync with
      | mk r ops =>
        cases r with
        | error e =>
          refine .inl ⟨e, _, buildSentinel ++ seg.footer io.sealedAt, rfl, ?_, ?_⟩
          · rw [WabSegment.fsync_error hfs]; simp
          · intro f; rw [WabSegment.fsync_error hfs]; simp [File.append_append]
        | ok _ => exact .inr (by rw [WabSegment.fsync_ok hfs]; rfl)

theorem fsyncParentDir_onNames (p : Path) (fault : Option IoError) :
    ∀ op ∈ (fsyncParentDir p fault).2, op.OnNames := by
  intro op hop
  rw [fsyncParentDir_ops p fault op hop]
  trivial

theorem publish_onNames {sync : List (Op Path)} (h : ∀ op ∈ sync, op.OnNames) {src dst : Path} :
    ∀ op ∈ [Op.probe dst false, .rename src dst] ++ sync, op.OnNames :=
  forall_mem_cons.mpr ⟨trivial, forall_mem_cons.mpr ⟨trivial, h⟩⟩

/-- Behind the commit point a seal only works on names. -/
theorem WabSegment.seal_ops (seg : WabSegment) (io : SealIo) :
    ∃ publish, (seg.seal io).2 = (seg.finalizeToDisk io).2 ++ publish ∧
      ∀ op ∈ publish, op.OnNames := by
  unfold WabSegment.seal
  split
  next e ops hfin => exact ⟨[], by simp [hfin], by simp⟩
  next p ops hfin =>
    rw [hfin]
    dsimp only
    split
    · exact ⟨[], by simp, by simp⟩
    · exact ⟨_, rfl, by simp [Op.OnNames]⟩
    split
    · exact ⟨_, rfl, by simp [Op.OnNames]⟩
    have hsync := fsyncParentDir_onNames (sealedPathFor p) io.dirSync
    split
    next e sync heq => rw [heq] at hsync; exact ⟨_, append_assoc .., publish_onNames hsync⟩
    next sync heq => rw [heq] at hsync; exact ⟨_, append_assoc .., publish_onNames hsync⟩

/-- What a seal does to the segment's file. -/
theorem WabSegment.seal_file (seg : WabSegment) (io : SealIo) (f : File) :
    (∃ part, f.run seg.path (seg.seal io).2 = f.append part ∧
      .fsync seg.path ∉ (seg.seal io).2) ∨
    f.run seg.path (seg.seal io).2
      = ((f.append buildSentinel).append (seg.footer io.sealedAt)).sync := by
  obtain ⟨publish, hops, hnames⟩ := seg.seal_ops io
  rw [hops, File.run_append, File.run_onNames hnames]
  rcases seg.finalizeToDisk_file io with ⟨e, ops, part, hfin, hno, hrun⟩ | hfin
  · refine .inl ⟨part, by rw [hfin]; exact hrun f, ?_⟩
    rw [hfin]
    intro hmem
    rcases mem_append.mp hmem with hmem | hmem
    · exact hno hmem
    · exact hnames _ hmem
  · exact .inr (by rw [hfin]; simp)

/-- A successful seal synced the file after its last byte, found no sealed file
in its way and renamed. -/
theorem WabSegment.seal_ok {sealed : Path} (h : seg.seal io = (.ok sealed, ops)) :
    sealed = sealedPathFor seg.path ∧
    ∃ sync, fsyncParentDir sealed io.dirSync = (.ok (), sync) ∧
      ops = [.append seg.path buildSentinel, .append seg.path (seg.footer io.sealedAt),
        .fsync seg.path, .probe sealed false, .rename seg.path sealed] ++ sync := by
  unfold WabSegment.seal at h
  split at h
  · cases h
  rename_i p ops' hfin
  obtain ⟨rfl, rfl⟩ := WabSegment.finalizeToDisk_ok hfin
  dsimp only at h
  split at h
  · cases h
  · cases h
  split at h
  · cases h
  split at h
  · cases h
  rename_i sync hsync
  obtain ⟨rfl, rfl⟩ := h
  exact ⟨rfl, sync, hsync, rfl⟩

/-- What a successful seal does to the file is done before it is renamed. -/
theorem WabSegment.seal_run {sealed : Path} (h : seg.seal io = (.ok sealed, ops)) (f : File) :
    f.run seg.path ops = f.run seg.path
      [.append seg.path buildSentinel, .append seg.path (seg.footer io.sealedAt),
        .fsync seg.path] := by
  obtain ⟨_, sync, hsync, rfl⟩ := WabSegment.seal_ok h
  have hnames := fsyncParentDir_onNames sealed io.dirSync
  rw [hsync] at hnames
  have hsplit : [Op.append seg.path buildSentinel, .append seg.path (seg.footer io.sealedAt),
      .fsync seg.path, .probe sealed false, .rename seg.path sealed] ++ sync
      = [Op.append seg.path buildSentinel, .append seg.path (seg.footer io.sealedAt),
        .fsync seg.path] ++ ([.probe sealed false, .rename seg.path sealed] ++ sync) := by simp
  rw [hsplit, File.run_append, File.run_onNames (publish_onNames hnames)]

end Weir.Wab

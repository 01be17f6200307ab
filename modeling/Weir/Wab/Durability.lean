import Mathlib.Data.List.Infix
import Weir.Wab.Recovery
import Weir.Wab.SegmentRun

/-!
# Crash durability of acked records

A segment lives (`SegRun`), the machine crashes, and recovery runs over what
the crash left in the `.wab` file: the synced prefix, then anything. The result
composes the three earlier ones: the writer keeps its synced records in the
stable part, the replay never cuts before them, and the reader yields what the
rewritten file starts with.

> `recoverSegment_durable`: when recovery succeeds, the sealed file yields
> every synced record first and in order; when it fails, the bytes are intact
> in place or in `quarantine/`, unless the rewrite pass itself failed after it
> had cut a clean tail, and then the synced records are still in the file.
-/

namespace Weir.Wab

open Weir.Lib List

/-- `shard_dir_path`: `shard_{id:02}` under the WAB directory. -/
def shardDirPath (wabDir : List String) (shardId : Nat) : List String :=
  wabDir ++ ["shard_" ++ String.ofList
    (replicate (2 - (Nat.toDigits 10 shardId).length) '0' ++ Nat.toDigits 10 shardId)]

/-- A shard's directory is not the quarantine directory. -/
theorem shardDirPath_ne_quarantine (wabDir : List String) (shardId : Nat) :
    shardDirPath wabDir shardId ≠ quarantineDir wabDir := by
  intro h
  have hname := append_cancel_left h
  simp only [List.cons.injEq, and_true] at hname
  have hlist := congrArg (fun s => s.toList.head?) hname
  rw [String.toList_append] at hlist
  cases hlist

/-- Reading `bytes` with `SegmentReader` gives the payloads `ps` first. -/
def Yields (z : Zstd) (bytes : Bytes) (ps : List Bytes) : Prop :=
  ∃ r rest, SegmentReader.open bytes noFault = .ok r ∧
    (r.readAll z noFault).1 = ps.map .ok ++ rest

variable {z : Zstd} {header : Bytes} {m : SegmentHeaderMeta} {ss : List Bytes}

/-- A file that starts with a header and records yields the records. -/
theorem yields_of_records {ps : List Bytes} (hp : parseSegmentHeader header = .ok m)
    (hok : ∀ s ∈ ss, StoredOk m.compression s) (hdec : Decodes z m.compression ss ps)
    (tail : Bytes) :
    Yields z (header ++ encodeRecords ss ++ tail) ps := by
  have hlen := parseSegmentHeader_length hp
  have hfuel : ss.length ≤ (header ++ encodeRecords ss ++ tail).length + 2 := by
    have := length_le_encodeRecords ss
    simp only [length_append]
    omega
  have hopen : SegmentReader.open (header ++ encodeRecords ss ++ tail) noFault
      = .ok ⟨header ++ encodeRecords ss ++ tail, segmentHeaderLen, false, m, none⟩ :=
    SegmentReader.open_of_header rfl (append_assoc ..) hp
  have hread := SegmentReader.collect_records ss ps
    ⟨header ++ encodeRecords ss ++ tail, segmentHeaderLen, false, m, none⟩ tail
    ((header ++ encodeRecords ss ++ tail).length + 2 - ss.length) rfl (by simp [hlen])
    (by rw [append_assoc]; exact drop_left' hlen) hok hdec
  rw [Nat.add_sub_cancel' hfuel] at hread
  exact ⟨_, _, hopen, congrArg Prod.fst hread⟩

/-- Whether a call of the rewrite pass behind the cut failed. -/
def RecoverIo.RewriteFails (io : RecoverIo) : Prop :=
  io.seek ≠ none ∨ io.sentinel ≠ .ok ∨ io.footer ≠ .ok ∨ io.fsync ≠ none ∨ io.rename ≠ none ∨
    io.dirSync ≠ none

/-- The footer of a rewrite pass. -/
def Replay.footer (st : Replay) (t : Int64) : Bytes :=
  buildSegmentFooter st.recordCount st.dataBytes st.crc.finalize t

/-- The calls of a rewrite pass up to its rename. -/
def Replay.sealing (st : Replay) (path : Path) (t : Int64) : List (Op Path) :=
  [.setLen path st.validEnd, .append path buildSentinel, .append path (st.footer t), .fsync path]

/-- A part of the seal, written behind the cut. -/
structure Replay.PartSeal (st : Replay) (path : Path) (t : Int64) (writes : List (Op Path)) :
    Prop where
  onPath : ∀ op ∈ writes, op.Extends path
  seals : writes.flatMap Op.written <+: buildSentinel ++ st.footer t

/-- What the rewrite pass can do: fail before the cut, fail behind it with the
file still under its old name, or get as far as the rename. -/
theorem rewrite_cases (path : Path) (st : Replay) (io : RecoverIo) :
    (∃ e, rewrite path st io = (.error e, [])) ∨
    (∃ e writes, rewrite path st io = (.error e, .setLen path st.validEnd :: writes) ∧
      st.PartSeal path io.sealedAt writes ∧ io.RewriteFails) ∨
    (∃ sync, (∀ op ∈ sync, op = .syncDir path.parent) ∧
      (rewrite path st io).2
        = st.sealing path io.sealedAt ++ (.rename path (sealedPathFor path) :: sync) ∧
      ((rewrite path st io).1 = .ok (sealedPathFor path) ∨
        (∃ e, (rewrite path st io).1 = .error e) ∧ io.RewriteFails)) := by
  unfold rewrite RecoverIo.RewriteFails Replay.sealing Replay.footer
  -- each call may fail, and what was written before it is a part of the seal
  rcases io.openWrite with _ | e
  on_goal 2 => exact .inl ⟨e, rfl⟩
  rcases io.setLen with _ | e
  on_goal 2 => exact .inl ⟨e, rfl⟩
  right
  rcases io.seek with _ | e
  on_goal 2 => exact .inl ⟨e, [], rfl, ⟨by simp, by simp⟩, by simp⟩
  rcases io.sentinel with _ | ⟨n, e⟩
  on_goal 2 =>
    refine .inl ⟨e, _, rfl, ⟨by simp [Op.Extends], ?_⟩, by simp⟩
    have hcut : buildSentinel.take n <+: buildSentinel := take_prefix ..
    simpa [Op.written] using hcut.trans (prefix_append ..)
  rcases io.footer with _ | ⟨n, e⟩
  on_goal 2 =>
    refine .inl ⟨e, _, rfl, ⟨by simp [Op.Extends], ?_⟩, by simp⟩
    simpa [Op.written, Replay.footer] using take_prefix ..
  rcases io.fsync with _ | e
  on_goal 2 =>
    exact .inl ⟨e, _, rfl, ⟨by simp [Op.Extends], by simp [Op.written, Replay.footer]⟩, by simp⟩
  rcases io.rename with _ | e
  on_goal 2 =>
    exact .inl ⟨e, _, rfl, ⟨by simp [Op.Extends], by simp [Op.written, Replay.footer]⟩, by simp⟩
  right
  have hsync := fsyncParentDir_ops (sealedPathFor path) io.dirSync
  rcases hfs : fsyncParentDir (sealedPathFor path) io.dirSync with ⟨e | _, sync⟩
  · rw [hfs] at hsync
    exact ⟨sync, hsync, rfl, .inr ⟨⟨e, rfl⟩, by simp [(fsyncParentDir_error hfs).1]⟩⟩
  · rw [hfs] at hsync
    exact ⟨sync, hsync, rfl, .inl rfl⟩

variable {path : Path} {io : RecoverIo} {d d' : Disk Path}
  {st : Replay} {i : Nat} {file : Bytes} {more : List Bytes}

/-- A rewrite pass that succeeded made all its calls. -/
theorem rewrite_ok {q : Path} (hok : (rewrite path st io).1 = .ok q) :
    q = sealedPathFor path ∧ ∃ sync, (∀ op ∈ sync, op = .syncDir path.parent) ∧
      (rewrite path st io).2
        = st.sealing path io.sealedAt ++ (.rename path (sealedPathFor path) :: sync) := by
  rcases rewrite_cases path st io with ⟨e, hrw⟩ | ⟨e, _, hrw, _⟩ | ⟨sync, hsync, hops, hres⟩
  · rw [hrw] at hok
    cases hok
  · rw [hrw] at hok
    cases hok
  rcases hres with hres | ⟨⟨e, he⟩, _⟩
  · rw [hres] at hok
    exact ⟨(Except.ok.inj hok).symm, sync, hsync, hops⟩
  · rw [he] at hok
    cases hok

theorem rewrite_error {e : IoError} (he : (rewrite path st io).1 = .error e) :
    (rewrite path st io).2 = [] ∨ io.RewriteFails := by
  rcases rewrite_cases path st io with ⟨e, hrw⟩ | ⟨_, _, _, _, hfails⟩ | ⟨_, _, _, hok | hres⟩
  · exact .inl (by rw [hrw])
  · exact .inr hfails
  · rw [hok] at he
    cases he
  · exact .inr hres.2

theorem prefix_append_cases {α : Type} {pre a b : List α} (h : pre <+: a ++ b) :
    pre <+: a ∨ ∃ rest, rest <+: b ∧ pre = a ++ rest := by
  rcases prefix_or_prefix_of_prefix h (prefix_append a b) with h' | ⟨rest, rfl⟩
  · exact .inl h'
  · exact .inr ⟨rest, (prefix_append_right_inj a).mp h, rfl⟩

variable {pre : List (Op Path)}

/-- A rewrite pass, stopped anywhere: before the cut, with a part of the seal written,
or renamed. -/
theorem rewrite_crash (hpre : pre <+: (rewrite path st io).2) :
    pre = [] ∨
    (∃ writes, pre = .setLen path st.validEnd :: writes ∧ st.PartSeal path io.sealedAt writes) ∨
    ∃ sync, (∀ op ∈ sync, op = .syncDir path.parent) ∧
      pre = st.sealing path io.sealedAt ++ (.rename path (sealedPathFor path) :: sync) := by
  -- the cut, and a part of what extends the file
  have hcut : ∀ writes, st.PartSeal path io.sealedAt writes →
      pre <+: .setLen path st.validEnd :: writes → pre = [] ∨
      ∃ some, pre = .setLen path st.validEnd :: some ∧ st.PartSeal path io.sealedAt some := by
    intro writes hseal hpre
    rcases List.prefix_cons_iff.mp hpre with rfl | ⟨some, rfl, hsome⟩
    · exact .inl rfl
    · exact .inr ⟨some, rfl, fun op hop => hseal.onPath op (hsome.subset hop),
        (hsome.flatMap _).trans hseal.seals⟩
  rcases rewrite_cases path st io with ⟨e, hrw⟩ | ⟨e, writes, hrw, hseal, _⟩ |
    ⟨sync, hsync, hops, _⟩
  · rw [hrw, prefix_nil] at hpre
    exact .inl hpre
  · rw [hrw] at hpre
    exact (hcut writes hseal hpre).imp_right .inl
  rw [hops] at hpre
  have hall : pre <+: st.sealing path io.sealedAt → _ :=
    hcut _ ⟨by simp [Op.Extends], by simp [Op.written]⟩
  rcases prefix_append_cases hpre with hpre | ⟨rest, hrest, rfl⟩
  · exact (hall hpre).imp_right .inl
  rcases List.prefix_cons_iff.mp hrest with rfl | ⟨some, rfl, hsome⟩
  · exact (hall (by simp)).imp_right .inl
  · exact .inr (.inr ⟨some, fun op hop => hsync op (hsome.subset hop), rfl⟩)

/-- The file after the rewrite pass, under its new name; other files are as they were. -/
theorem rewrite_renamed {t : Int64} {sync : List (Op Path)}
    (hi : d.names.lookup path = some i) (hin : st.validEnd ≤ (d.files i).content.length)
    (hsync : ∀ op ∈ sync, op = .syncDir path.parent)
    (hrun : d.run (st.sealing path t ++ (.rename path (sealedPathFor path) :: sync)) = some d') :
    d'.read (sealedPathFor path)
      = some ((d.files i).content.take st.validEnd ++ (buildSentinel ++ st.footer t)) ∧
    ∀ q j, q ≠ path → q ≠ sealedPathFor path → j ≠ i → d.names.lookup q = some j →
      d'.names.lookup q = some j ∧ d'.files j = d.files j := by
  rw [Replay.sealing, Disk.run_append, Disk.run_onFile (by simp [Op.OnFile]) hi, Option.bind_some,
    Disk.run] at hrun
  split at hrun
  next d₁ hren =>
    obtain ⟨j, hj, hdst, hfiles, hother⟩ := Disk.step_rename hren
    obtain rfl : j = i := Option.some.inj (hj.symm.trans hi)
    obtain ⟨d₂, hrun₂, hnames₂, hfiles₂⟩ := Disk.run_syncDir hsync d₁
    obtain rfl : d₂ = d' := Option.some.inj (hrun₂.symm.trans hrun)
    refine ⟨?_, ?_⟩
    · rw [Disk.read, hnames₂, hdst, Option.map_some, hfiles₂, hfiles, Disk.files_setFile]
      simp only [File.run_cons, File.run_nil, File.step_setLen, File.step_append,
        File.step_fsync, File.content_sync, File.content_append, File.content_setLen hin,
        append_assoc]
    · intro q k hq hq' hk hqk
      rw [hnames₂, hother q hq hq', hfiles₂, hfiles]
      exact ⟨hqk, Disk.files_setFile_ne d hk _⟩
  · cases hrun

/-- The disk behind a rewrite pass that was stopped anywhere. The file is untouched, or it
starts with the replayed bytes under its old or its new name; other files are as they
were. -/
theorem rewrite_disk (hi : d.names.lookup path = some i)
    (hin : st.validEnd ≤ (d.files i).content.length) (hpre : pre <+: (rewrite path st io).2)
    (hrun : d.run pre = some d') :
    (d' = d ∨
      (∃ part, part <+: buildSentinel ++ st.footer io.sealedAt ∧
        d'.read path = some ((d.files i).content.take st.validEnd ++ part)) ∨
      d'.read (sealedPathFor path) = some ((d.files i).content.take st.validEnd
        ++ (buildSentinel ++ st.footer io.sealedAt))) ∧
    ∀ q j, q ≠ path → q ≠ sealedPathFor path → j ≠ i → d.names.lookup q = some j →
      d'.names.lookup q = some j ∧ d'.files j = d.files j := by
  rcases rewrite_crash hpre with rfl | ⟨writes, rfl, ⟨hwrites, hseal⟩⟩ | ⟨sync, hsync, rfl⟩
  · cases hrun
    exact ⟨.inl rfl, fun q j _ _ _ hq => ⟨hq, rfl⟩⟩
  · -- the cut and some writes, all on the one file
    have hon : ∀ op ∈ Op.setLen path st.validEnd :: writes, op.OnFile path := by
      intro op hop
      rcases mem_cons.mp hop with rfl | hop
      · rfl
      · exact (hwrites op hop).onFile
    rw [Disk.run_onFile hon hi] at hrun
    cases hrun
    refine ⟨.inr (.inl ⟨_, hseal, ?_⟩), fun q j _ _ hj hq => ⟨hq, Disk.files_setFile_ne d hj _⟩⟩
    rw [Disk.read, Disk.names_setFile, hi, Option.map_some, Disk.files_setFile, File.run_cons,
      File.step_setLen, File.run_extends hwrites, File.content_setLen hin]
  · obtain ⟨hread, hframe⟩ := rewrite_renamed hi hin hsync hrun
    exact ⟨.inr (.inr hread), hframe⟩

/-- The replay of the file ends clean: a torn record, or a seal, is all it leaves out. -/
def ReplaysClean (file : Bytes) (io : RecoverIo) : Prop :=
  ∃ m ss st, parseSegmentHeader (file.take segmentHeaderLen) = .ok m ∧
    Stopped file (file.take segmentHeaderLen) m.compression io.fault io.stat ss st .clean

/-- What recovery may leave of a file that held `file`, with `known` its synced
payloads: the file whole, in place or in `quarantine/`; or, when the tail was
clean and the rewrite pass failed behind its cut, a file that still yields them. -/
def Salvaged (z : Zstd) (path : Path) (wabDir : List String) (file : Bytes) (known : List Bytes)
    (io : RecoverIo) (d : Disk Path) : Prop :=
  d.read path = some file ∨ (∃ q, q.dir = quarantineDir wabDir ∧ d.read q = some file) ∨
    ReplaysClean file io ∧ io.RewriteFails ∧ ∃ q bytes, (q = path ∨ q = sealedPathFor path) ∧
      d.read q = some bytes ∧ Yields z bytes known

theorem Disk.read_of_lookup {p : Path} (h : d.names.lookup p = some i) :
    d.read p = some (d.files i).content := by
  rw [Disk.read, h, Option.map_some]

variable {known : List Bytes} {wabDir : List String}

/-- A quarantined file is whole at its new place; one that could not be moved is
whole at the old. -/
theorem quarantine_salvaged {qio : QuarantineIo} {reason : String} (hd : d.Sound)
    (hi : d.names.lookup path = some i)
    (hrun : d.run (quarantineAndCount path wabDir qio reason).2 = some d') :
    Salvaged z path wabDir (d.files i).content known io d' := by
  obtain ⟨look, hlook, ⟨e, hq⟩ | ⟨dest, hdir, hq⟩⟩ := quarantine_ops path wabDir qio
  · rw [quarantineAndCount, hq] at hrun
    obtain ⟨hi', hsame⟩ := (hlook.run hd hrun).2.1 path i hi
    exact .inl (by rw [Disk.read_of_lookup hi', hsame])
  · rw [quarantineAndCount, hq] at hrun
    obtain ⟨d₁, hrun₁, hren⟩ := Disk.run_split hrun
    obtain ⟨hi₁, hsame⟩ := (hlook.run hd hrun₁).2.1 path i hi
    rw [Disk.run] at hren
    split at hren
    next d₂ hstep =>
      cases hren
      obtain ⟨j, hj, hdst, hfiles, _⟩ := Disk.step_rename hstep
      obtain rfl : j = i := Option.some.inj (hj.symm.trans hi₁)
      exact .inr (.inl ⟨dest, hdir, by rw [Disk.read_of_lookup hdst, hfiles, hsame]⟩)
    · cases hren

/-- A copy to quarantine, stopped anywhere, leaves the file alone. -/
theorem copyToQuarantine_crash {io : CopyIo} (hd : d.Sound) (hi : d.names.lookup path = some i)
    (hpre : pre <+: (copyToQuarantine path wabDir file io).2) (hrun : d.run pre = some d') :
    d'.names.lookup path = some i ∧ d'.files i = d.files i := by
  obtain ⟨look, hlook, hq | ⟨dest, writes, sync, _, hfree, hwrites, hsync, hops⟩⟩ :=
    copyToQuarantine_ops path wabDir file io
  · rw [hq] at hpre
    exact ((hlook.stopped hpre).run hd hrun).2.1 path i hi
  rw [hops] at hpre
  rcases prefix_append_cases hpre with hpre | ⟨rest, hrest, rfl⟩
  · exact ((hlook.stopped hpre).run hd hrun).2.1 path i hi
  obtain ⟨d₁, hrun₁, hrun₂⟩ := Disk.run_split hrun
  -- the destination was tested and is free, so it is not the file itself
  obtain ⟨_, hkept, hnone⟩ := hlook.run hd hrun₁
  obtain ⟨hi₁, hsame⟩ := hkept path i hi
  have hne : path ≠ dest := by
    rintro rfl
    cases (hnone path hfree).symm.trans hi₁
  rcases List.prefix_cons_iff.mp hrest with rfl | ⟨written, rfl, hwritten⟩
  · cases hrun₂
    exact ⟨hi₁, hsame⟩
  -- some of the writes to the new file, then some of the syncs
  have hshape : ∃ someWrites someSync, (∀ op ∈ someWrites, op.OnFile dest) ∧
      (∀ op ∈ someSync, op = .syncDir dest.parent) ∧ written = someWrites ++ someSync := by
    rcases prefix_append_cases hwritten with hwritten | ⟨tail, htail, rfl⟩
    · exact ⟨written, [], fun op hop => hwrites op (hwritten.subset hop), by simp, by simp⟩
    · exact ⟨writes, tail, hwrites, fun op hop => hsync op (htail.subset hop), rfl⟩
  obtain ⟨someWrites, someSync, hon, honly, rfl⟩ := hshape
  obtain ⟨d₂, hnew, _, _, _, hframe⟩ := Disk.run_newFile (hd.run hrun₁) (hnone dest hfree) hon
  obtain ⟨hpath, hcontent⟩ := hframe path hne i hi₁
  rw [← cons_append, Disk.run_append, hnew, Option.bind_some] at hrun₂
  obtain ⟨d₃, hrun₃, hnames, hfiles⟩ := Disk.run_syncDir honly d₂
  obtain rfl := Option.some.inj (hrun₃.symm.trans hrun₂)
  exact ⟨by rw [hnames]; exact hpath, by rw [hfiles, hcontent, hsame]⟩

theorem copyToQuarantine_run {io : CopyIo} {ops rest : List (Op Path)} (hd : d.Sound)
    (hi : d.names.lookup path = some i) (hcopy : (copyToQuarantine path wabDir file io).2 = ops)
    (hrun : d.run (ops ++ rest) = some d') :
    ∃ d₁, d.run ops = some d₁ ∧ d₁.run rest = some d' ∧
      d₁.names.lookup path = some i ∧ d₁.files i = d.files i := by
  obtain ⟨d₁, hrun₁, hrun₂⟩ := Disk.run_split hrun
  exact ⟨d₁, hrun₁, hrun₂, copyToQuarantine_crash hd hi (by rw [hcopy]) hrun₁⟩

/-- The disk behind a copy that succeeded: the copy is whole, under an inode of its own, and
a crash takes neither its bytes nor its name; where no crash could take `quarantine/`, none can
now. -/
theorem copyToQuarantine_copied {io : CopyIo} {dest : Path} {ops : List (Op Path)} (hd : d.Sound)
    (hcopy : copyToQuarantine path wabDir file io = (.ok dest, ops)) (hrun : d.run ops = some d') :
    dest.dir = quarantineDir wabDir ∧ ∃ j, d'.names.lookup dest = some j ∧
      (∀ p i, d.names.lookup p = some i → i ≠ j) ∧ d'.files j = .settled file ∧
      (∀ m, d'.Possible m → m.lookup dest = some j) ∧
      (d.Kept (quarantineEntry wabDir) → d'.Kept (quarantineEntry wabDir)) := by
  obtain ⟨hdir, look, hlook, hfree, rfl⟩ := copyToQuarantine_ok hcopy
  obtain ⟨d₁, hrun₁, hrest⟩ := Disk.run_split hrun
  obtain ⟨hfound, hkept, hnone⟩ := hlook.run hd hrun₁
  have hd₁ := hd.run hrun₁
  have hwrites : ∀ op ∈ [Op.append dest file, .fsync dest], op.OnFile dest := by
    simp [Op.OnFile]
  have hall : d₁.run ([.truncate dest, .append dest file, .fsync dest] ++ [.syncDir dest.parent])
      = some d' := hrest
  rw [Disk.run_append, Disk.run_truncate (hnone dest hfree) hwrites, Option.bind_some] at hall
  obtain rfl := Option.some.inj hall
  have hnew : (d₁.newFile dest).names.lookup dest = some d₁.fresh := by
    rw [Disk.lookup_newFile, if_pos rfl]
  refine ⟨hdir, d₁.fresh, by rw [Disk.names_syncDir]; exact hnew, ?_, ?_, ?_, ?_⟩
  · exact fun p i hp => ne_of_lt (hd₁.lt (hkept p i hp).1)
  · exact (Disk.files_setFile ..).trans (by simp [File.sync, File.empty, File.settled])
  · exact fun m hm => Disk.Possible.lookup_synced hm hnew
  · intro hentry m hm
    obtain rfl := hfound (hentry _ d.possible_names)
    -- the new name may be lost, and is not that of the directory
    have hm' : (d₁.update (.link dest d₁.fresh)).Possible m := hm.of_syncDir
    rcases hm'.of_update with hold | ⟨m₀, hold, rfl⟩
    · exact hentry m hold
    · rw [Update.lookup_link]
      split
      · rfl
      · exact hentry m₀ hold

section

variable (hi : d.names.lookup path = some i) (hin : st.validEnd ≤ (d.files i).content.length)
  (hyields : ∀ extra, Yields z ((d.files i).content.take st.validEnd ++ extra) known)

include hi hin hyields

/-- A rewrite pass that returns has sealed the known payloads. -/
theorem rewrite_yields {q : Path} (hrun : d.run (rewrite path st io).2 = some d')
    (hok : (rewrite path st io).1 = .ok q) :
    q = sealedPathFor path ∧ ∃ bytes, d'.read q = some bytes ∧ Yields z bytes known := by
  obtain ⟨rfl, sync, hsync, hops⟩ := rewrite_ok hok
  rw [hops] at hrun
  exact ⟨rfl, _, (rewrite_renamed hi hin hsync hrun).1, hyields _⟩

/-- One that fails behind a clean replay has not lost them. -/
theorem rewrite_salvaged (hclean : ReplaysClean (d.files i).content io) (wabDir : List String)
    {e : IoError}
    (hrun : d.run (rewrite path st io).2 = some d') (he : (rewrite path st io).1 = .error e) :
    Salvaged z path wabDir (d.files i).content known io d' := by
  obtain ⟨hdisk, _⟩ := rewrite_disk hi hin (prefix_refl _) hrun
  rcases rewrite_error he with hnone | hfails
  · rw [hnone] at hrun
    cases hrun
    exact .inl (Disk.read_of_lookup hi)
  rcases hdisk with rfl | ⟨part, _, hread⟩ | hread
  · exact .inl (Disk.read_of_lookup hi)
  · exact .inr (.inr ⟨hclean, hfails, path, _, .inl rfl, hread, hyields _⟩)
  · exact .inr (.inr ⟨hclean, hfails, _, _, .inr rfl, hread, hyields _⟩)

end

/-- The known records are among those the replay stopped behind, so they are yielded. -/
theorem Stopped.yields {fault : ReadFault} {stat : Option IoError} {why : ReplayEnd}
    {found : List Bytes} {tail : Bytes}
    (h : Stopped file header m.compression fault stat found st why)
    (hp : parseSegmentHeader header = .ok m) (hfile : file = header ++ encodeRecords ss ++ tail)
    (hok : ∀ s ∈ ss, StoredOk m.compression s) (hdec : Decodes z m.compression ss known)
    (extra : Bytes) : Yields z (file.take st.validEnd ++ extra) known := by
  have hstarts : encodeRecords ss <+: file.drop segmentHeaderLen := by
    rw [hfile, append_assoc, drop_left' (parseSegmentHeader_length hp)]
    exact prefix_append ..
  obtain ⟨more, rfl⟩ := h.longest.most ss hok hstarts
  have hy := yields_of_records hp hok hdec (encodeRecords more ++ extra)
  rw [h.split, encodeRecords_append]
  simpa only [append_assoc] using hy

section

variable (hd : d.Sound) (hi : d.names.lookup path = some i) (hdir : path.dir ≠ quarantineDir wabDir)

include hd hi hdir

/-- With the whole file copied to quarantine first, the rewrite pass cannot lose
anything. -/
theorem copied_salvaged {dest : Path} {ops : List (Op Path)} {d₁ : Disk Path}
    (hcopy : copyToQuarantine path wabDir (d.files i).content io.copy = (.ok dest, ops))
    (hrun₁ : d.run ops = some d₁) (hi₁ : d₁.names.lookup path = some i)
    (hin : st.validEnd ≤ (d₁.files i).content.length)
    (hrun : d₁.run (rewrite path st io).2 = some d') :
    Salvaged z path wabDir (d.files i).content known io d' := by
  obtain ⟨hqdir, j, hq, hnew, hqc, _⟩ := copyToQuarantine_copied hd hcopy hrun₁
  obtain ⟨_, hframe⟩ := rewrite_disk hi₁ hin (prefix_refl _) hrun
  have hne : dest ≠ path := fun h => hdir (h ▸ hqdir)
  have hne' : dest ≠ sealedPathFor path := fun h => hdir (by rw [h] at hqdir; exact hqdir)
  obtain ⟨hq', hqc'⟩ := hframe dest j hne hne' (hnew path i hi).symm hq
  exact .inr (.inl ⟨dest, hqdir, by rw [Disk.read_of_lookup hq', hqc', hqc]; rfl⟩)

/-- Recovery of a file that holds `known` payloads behind any header it parses. -/
theorem recoverSegment_disk
    (hknown : ∀ header m, parseSegmentHeader header = .ok m →
      (∃ t, (d.files i).content = header ++ t) →
      ∃ ss tail, (d.files i).content = header ++ encodeRecords ss ++ tail ∧
        (∀ s ∈ ss, StoredOk m.compression s) ∧ Decodes z m.compression ss known)
    (hrun : d.run (recoverSegment path wabDir (d.files i).content io).2 = some d') :
    (∀ q, (recoverSegment path wabDir (d.files i).content io).1 = .ok q →
      q = sealedPathFor path ∧ ∃ bytes, d'.read q = some bytes ∧ Yields z bytes known) ∧
    (∀ e, (recoverSegment path wabDir (d.files i).content io).1 = .error e →
      Salvaged z path wabDir (d.files i).content known io d') := by
  have h := recoverSegment_recovers path wabDir (d.files i).content io
  generalize recoverSegment path wabDir (d.files i).content io = r at h hrun ⊢
  cases h with
  | unread e =>
    cases hrun
    exact ⟨by simp, fun _ _ => .inl (Disk.read_of_lookup hi)⟩
  | headless _ => exact ⟨by simp, fun _ _ => quarantine_salvaged hd hi hrun⟩
  | clean hp hstopped =>
    obtain ⟨ss, tail, hfile, hok, hdec⟩ := hknown _ _ hp ⟨_, (take_append_drop ..).symm⟩
    have hyields := hstopped.yields hp hfile hok hdec
    exact ⟨fun q hq => rewrite_yields hi hstopped.inside hyields hrun hq,
      fun e he => rewrite_salvaged hi hstopped.inside hyields ⟨_, _, _, hp, hstopped⟩ wabDir hrun
        he⟩
  | @corrupt _ _ st _ r ops rest hp hstopped hcopy hrest =>
    obtain ⟨ss, tail, hfile, hok, hdec⟩ := hknown _ _ hp ⟨_, (take_append_drop ..).symm⟩
    have hyields := hstopped.yields hp hfile hok hdec
    have hinside := hstopped.inside
    obtain ⟨d₁, hrun₁, hrun₂, hi₁, hcontent⟩ := copyToQuarantine_run hd hi hcopy hrun
    rcases hrest with ⟨⟨e, rfl⟩, rfl⟩ | ⟨⟨dest, hcopied⟩, rfl, rfl⟩
    · cases hrun₂
      exact ⟨by simp, fun _ _ => .inl (by rw [Disk.read_of_lookup hi₁, hcontent])⟩
    · rw [← hcontent] at hyields hinside
      exact ⟨fun q hq => rewrite_yields hi₁ hinside hyields hrun₂ hq,
        fun e he => copied_salvaged hd hi hdir hcopied hrun₁ hi₁ hinside hrun₂⟩

end

/-- The stored form of a payload reads back as the payload. -/
theorem decodeStored_storedForm (hz : z.Inverts) {c : Compression} {level : Int} {p s : Bytes}
    (hcap : p.length ≤ maxPayloadHardCap) (h : storedForm z c level p = some s) :
    decodeStored z c s = some p := by
  cases c with
  | none => exact h.symm
  | zstd => exact hz p s level hcap h

/-- The payloads a segment's last successful sync covered. -/
def SegRun.syncedPayloads (st : SegRun) : List Bytes :=
  (st.records.take st.synced).map (·.payload)

/-- A crash image starts with the header and the synced records. -/
theorem SegRun.Inv.image {level : Int} {c : Compression} {st : SegRun}
    (h : SegRun.Inv z level header c st) {image : Bytes} (himage : st.file.Image image)
    (hpos : 0 < st.synced) : ∃ tail,
      image = header ++ encodeRecords ((st.records.take st.synced).map (·.stored)) ++ tail := by
  have hne : st.records ≠ [] := by
    intro hnil
    have := h.synced_le
    rw [hnil] at this
    exact absurd this (by simp; omega)
  obtain ⟨extra, hcontent⟩ := h.content (.inl hne)
  have hsplit : st.file.content
      = header ++ encodeRecords ((st.records.take st.synced).map (·.stored))
        ++ (encodeRecords ((st.records.drop st.synced).map (·.stored)) ++ extra) := by
    rw [hcontent, SegRun.body]
    conv_lhs => rw [← take_append_drop st.synced st.records]
    rw [map_append, encodeRecords_append]
    simp only [append_assoc]
  generalize hk : header ++ encodeRecords ((st.records.take st.synced).map (·.stored)) = known
    at hsplit
  have hle : known.length ≤ st.file.stable := by rw [← hk]; exact h.stable hpos
  have htake : image.take known.length = known := by
    calc image.take known.length = (image.take st.file.stable).take known.length := by
          rw [take_take, min_eq_left hle]
      _ = (st.file.content.take st.file.stable).take known.length := by rw [himage.1]
      _ = st.file.content.take known.length := by rw [take_take, min_eq_left hle]
      _ = known := by rw [hsplit, take_left]
  exact ⟨image.drop known.length, by
    conv_lhs => rw [← take_append_drop known.length image, htake]⟩

/-- Crash durability: for every life of a segment and every crash image of its
`.wab` file, a successful recovery seals a file that yields every synced record
first and in order, and a failed one leaves them salvaged. -/
theorem recoverSegment_durable (z : Zstd) (hz : z.Inverts) (level : Int) (wabDir : List String)
    (shard counter : Nat) (shardId : UInt16) (c : Compression) (cio : CreateIo)
    (calls : List SegCall) (image : Bytes) (io : RecoverIo) (d d' : Disk Path)
    (himage : ((SegRun.start (segmentPath (shardDirPath wabDir shard) counter) shardId c cio).run z
      level calls).file.Image image)
    (hd : d.Sound) (hread : d.read (segmentPath (shardDirPath wabDir shard) counter) = some image)
    (hrun : d.run (recoverSegment (segmentPath (shardDirPath wabDir shard) counter) wabDir image
      io).2 = some d') :
    (∀ q, (recoverSegment (segmentPath (shardDirPath wabDir shard) counter) wabDir image io).1
        = .ok q →
      q = sealedPathFor (segmentPath (shardDirPath wabDir shard) counter) ∧
      ∃ bytes, d'.read q = some bytes ∧
        Yields z bytes ((SegRun.start (segmentPath (shardDirPath wabDir shard) counter) shardId c
          cio).run z level calls).syncedPayloads) ∧
    (∀ e, (recoverSegment (segmentPath (shardDirPath wabDir shard) counter) wabDir image io).1
        = .error e →
      Salvaged z (segmentPath (shardDirPath wabDir shard) counter) wabDir image
        ((SegRun.start (segmentPath (shardDirPath wabDir shard) counter) shardId c cio).run z level
          calls).syncedPayloads io d') := by
  generalize hpath : segmentPath (shardDirPath wabDir shard) counter = path at *
  have hdir : path.dir ≠ quarantineDir wabDir := by
    rw [← hpath]; exact shardDirPath_ne_quarantine wabDir shard
  have hinv := SegRun.run_inv calls (SegRun.start_inv z level path shardId c cio)
  generalize (SegRun.start path shardId c cio).run z level calls = st at himage hinv ⊢
  obtain ⟨i, hi, rfl⟩ := Option.map_eq_some_iff.mp hread
  refine recoverSegment_disk hd hi hdir ?_ hrun
  intro header m hp htail
  rcases Nat.eq_zero_or_pos st.synced with hzero | hpos
  · -- nothing was synced, so nothing has to be found
    obtain ⟨t, ht⟩ := htail
    exact ⟨[], t, by rw [ht]; simp, by simp, by simp [Decodes, SegRun.syncedPayloads, hzero]⟩
  · obtain ⟨tail, himg⟩ := hinv.image himage hpos
    -- both headers are the first 24 bytes of the image
    obtain ⟨t, ht⟩ := htail
    have hheader : header = buildSegmentHeader shardId c cio.createdAt := by
      refine append_inj_left (ht.symm.trans (himg.trans (append_assoc ..))) ?_
      rw [parseSegmentHeader_length hp, buildSegmentHeader_length]
    have hm : m.compression = c := by
      rw [hheader, parseSegmentHeader_build] at hp
      rw [← Except.ok.inj hp]
    rw [hheader, hm]
    refine ⟨_, tail, himg, ?_, ?_⟩
    · intro s hs
      obtain ⟨r, hr, rfl⟩ := mem_map.mp hs
      exact (hinv.records r (mem_of_mem_take hr)).2.2
    · rw [Decodes, SegRun.syncedPayloads, map_map, map_map]
      refine map_congr_left ?_
      intro r hr
      obtain ⟨hcap, hstored, _⟩ := hinv.records r (mem_of_mem_take hr)
      exact decodeStored_storedForm hz hcap hstored

/-! ### Concrete runs -/

/-- The first segment of the first shard of a daemon that runs in `wab/`. -/
def firstSegment : Path := segmentPath (shardDirPath ["wab"] 0) 1

/-- The write that finds the disk full. -/
def noSpace : IoError := ⟨.other, some 28, "No space left on device"⟩

/-- A record that was synced, then one of which a byte reached the disk: recovery
seals, and the sealed file yields the record. -/
theorem recoverSegment_durable_torn :
    ∃ image d', image = buildSegmentHeader 0 .none 0 ++ encodeRecord [7] ++ [9] ∧
      (Disk.single firstSegment image).run
        (recoverSegment firstSegment ["wab"] image RecoverIo.calm).2 = some d' ∧
      ∃ bytes, d'.read (sealedPathFor firstSegment) = some bytes ∧ Yields .plain bytes [[7]] := by
  have hrun : ((Disk.single firstSegment
      (buildSegmentHeader 0 .none 0 ++ encodeRecord [7] ++ [9])).run
      (recoverSegment firstSegment ["wab"] (buildSegmentHeader 0 .none 0 ++ encodeRecord [7] ++ [9])
        RecoverIo.calm).2).isSome = true := by decide +kernel
  obtain ⟨d', hd'⟩ := Option.isSome_iff_exists.mp hrun
  have h := recoverSegment_durable .plain Zstd.plain_inverts 0 ["wab"] 0 1 0 .none .calm
    [.write ⟨[7], by decide⟩ (.wrote 9), .fsync none, .write ⟨[8], by decide⟩ (.wrote 9)]
    (buildSegmentHeader 0 .none 0 ++ encodeRecord [7] ++ [9]) .calm
    (Disk.single firstSegment (buildSegmentHeader 0 .none 0 ++ encodeRecord [7] ++ [9])) d'
    (by unfold File.Image; decide +kernel) (Disk.single_sound _ _)
    (Disk.read_of_lookup (Disk.single_lookup firstSegment _)) hd'
  obtain ⟨_, bytes, hread, hyields⟩ := h.1 (sealedPathFor firstSegment) (by rfl)
  exact ⟨_, d', rfl, hd', bytes, hread, hyields⟩

/-- A torn byte behind the header, and a disk that fills up when the sentinel is
written: recovery fails with the byte cut off and no copy of it anywhere. -/
theorem recoverSegment_full_disk_cuts :
    ∃ image io d' e,
      ((SegRun.start firstSegment 0 .none .calm).run .plain 0 []).file.Image image ∧
      (recoverSegment firstSegment ["wab"] image io).1 = .error e ∧
      (Disk.single firstSegment image).run (recoverSegment firstSegment ["wab"] image io).2
        = some d' ∧
      d'.read firstSegment ≠ some image ∧
      ∀ q, q.dir = quarantineDir ["wab"] → d'.read q ≠ some image := by
  have hcut : recoverSegment firstSegment ["wab"] (buildSegmentHeader 0 .none 0 ++ [1])
      { RecoverIo.calm with sentinel := .failed 0 noSpace }
      = (.error noSpace, [.setLen firstSegment 24, .append firstSegment []]) := by rfl
  have hrun : (Disk.single firstSegment (buildSegmentHeader 0 .none 0 ++ [1])).run
      [.setLen firstSegment 24, .append firstSegment []] = some _ :=
    Disk.run_onFile (by simp [Op.OnFile]) (Disk.single_lookup _ _)
  -- there is one inode, and it holds the header alone
  have hread : ∀ q, ((Disk.single firstSegment (buildSegmentHeader 0 .none 0 ++ [1])).setFile 0
      (((Disk.single firstSegment (buildSegmentHeader 0 .none 0 ++ [1])).files 0).run firstSegment
        [.setLen firstSegment 24, .append firstSegment []])).read q
        ≠ some (buildSegmentHeader 0 .none 0 ++ [1]) := by
    intro q hq
    obtain ⟨i, hi, hcontent⟩ := Option.map_eq_some_iff.mp hq
    have hlt := (Disk.single_sound firstSegment (buildSegmentHeader 0 .none 0 ++ [1])).lt hi
    obtain rfl : i = 0 := Nat.lt_one_iff.mp hlt
    exact absurd hcontent (by decide +kernel)
  exact ⟨buildSegmentHeader 0 .none 0 ++ [1], { RecoverIo.calm with sentinel := .failed 0 noSpace },
    _, noSpace, ⟨rfl, by decide⟩, congrArg Prod.fst hcut, by rw [hcut]; exact hrun, hread _,
      fun q _ => hread q⟩

end Weir.Wab

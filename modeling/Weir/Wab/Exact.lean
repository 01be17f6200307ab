import Weir.Wab.Durability
import Weir.Wab.Verify

/-!
# Recovery is exact

A file that starts with a valid header may hold anything behind it. The replay
stops behind the longest run of records (`Stopped`), and the rewrite pass seals
just those. Of the bytes behind them some are excused (`Excused`); before any
other tail is cut off, the whole file is copied to `quarantine/`.

Whether that copy survives a crash depends on one thing recovery does not look
after: `quarantine/` may have been made a moment ago, and of the directories
recovery syncs none is the one above it (`recoverSegment_syncs`).

> `recoverSegment_exact_iff`: the sealed file verifies and holds exactly the
> longest run of records; the copy is durable before the cut exactly when the
> entry of `quarantine/` was.

> `first_quarantine_copy_not_durable`: the first copy into a new `quarantine/`
> is not.
-/

namespace Weir.Wab

open Weir.Lib List

/-! ## The records of a file -/

variable {c : Compression} {header : Bytes} {ss : List Bytes}

/-- A sealed file holds the records it was sealed with. -/
theorem longest_sealedBytes {t : Int64} (hheader : header.length = segmentHeaderLen)
    (hok : ∀ s ∈ ss, StoredOk c s) :
    Longest c ((sealedBytes header ss t).drop segmentHeaderLen) ss := by
  rw [sealedBytes, append_assoc, drop_left' hheader]
  exact ⟨hok, prefix_append _ _, fun more hmore h => prefix_of_sentinel hok hmore h⟩

variable {file : Bytes}
  {fault : ReadFault} {stat : Option IoError} {m : SegmentHeaderMeta} {q : Path}
  {io : RecoverIo} {d d' : Disk Path} {i : Nat} {ops : List (Op Path)} {st : Replay}

/-! ## Tails that hold no record -/

/-- What may be behind the last record without being worth a copy: at most a length
field (a torn one, a lone one, or a sentinel at the end of the file), a record
that ends too early, or a sentinel and a footer that agrees with the records. -/
def Excused (c : Compression) (header : Bytes) (ss : List Bytes) (tail : Bytes) : Prop :=
  tail.length ≤ 4 ∨
  (0 < leNat (tail.take 4) ∧ leNat (tail.take 4) ≤ c.storedCap ∧
    tail.length < 8 + leNat (tail.take 4)) ∨
  ∃ buf footer, tail = buildSentinel ++ buf ∧ parseSegmentFooter buf = some footer ∧
    footer.recordCount = ss.length ∧ footer.dataBytes = (ss.map List.length).sum ∧
    footer.fileCrc32 = crc32 (header ++ encodeRecords ss)

theorem ofRead_clean {e : IoError} (h : ReplayEnd.ofRead e = .clean) : e.kind = .unexpectedEof := by
  unfold ReplayEnd.ofRead at h
  split at h
  next he => exact he
  · cases h

/-- A replay that ends clean discards nothing but an excused tail. -/
theorem Stopped.excused (h : Stopped file header c fault stat ss st .clean) :
    Excused c header ss (file.drop st.validEnd) := by
  have hinside := h.inside
  have htail : (file.drop st.validEnd).length = file.length - st.validEnd := length_drop
  have hstop := h.stops
  unfold replayStep at hstop
  split at hstop
  next e he =>
    have hshort := readExact_eof he (ofRead_clean (Sum.inl.inj hstop))
    exact .inl (by omega)
  rename_i lenBuf hlenBuf
  obtain ⟨hin4, hlen4, hdrop⟩ := readExact_ok hlenBuf
  have hfield : (file.drop st.validEnd).take 4 = lenBuf := by
    rw [hdrop, take_left' hlen4]
  dsimp only at hstop
  split at hstop
  next hzero =>
    have hjudge := Sum.inl.inj hstop
    unfold judgeSentinel at hjudge
    split at hjudge
    · cases hjudge
    dsimp only at hjudge
    split at hjudge
    next hnone => exact .inl (by omega)
    split at hjudge
    on_goal 2 => cases hjudge
    split at hjudge
    · cases hjudge
    rename_i buf hbuf
    split at hjudge
    · cases hjudge
    rename_i footer hfooter
    split at hjudge
    on_goal 2 => cases hjudge
    next hagree =>
      obtain ⟨hcount, hdata, hcrc⟩ := hagree
      have hend : file.drop (st.validEnd + 4) = buf := by
        rw [(readExact_ok hbuf).2.2, drop_of_length_le (by omega), append_nil]
      refine .inr (.inr ⟨buf, footer, ?_, hfooter, ?_, ?_, ?_⟩)
      · rw [hdrop, hend, eq_sentinel hlen4 hzero]
      · rw [hcount, h.count]
      · rw [hdata, h.data]
      · rw [hcrc, h.crc]
        rfl
  split at hstop
  next hbig =>
    have hjudge := Sum.inl.inj hstop
    unfold judgeOversized at hjudge
    split at hjudge
    · cases hjudge
    · split at hjudge
      · cases hjudge
      · exact .inl (by omega)
  -- a length within the cap: the file ends inside the frame
  have hshort : file.length < st.validEnd + 8 + leNat lenBuf →
      Excused c header ss (file.drop st.validEnd) := by
    intro hlt
    refine .inr (.inl ?_)
    rw [hfield]
    exact ⟨by omega, by omega, by omega⟩
  split at hstop
  next e he =>
    have hlt := readExact_eof he (ofRead_clean (Sum.inl.inj hstop))
    exact hshort (by omega)
  split at hstop
  next e he =>
    have hlt := readExact_eof he (ofRead_clean (Sum.inl.inj hstop))
    exact hshort (by omega)
  split at hstop <;> cases hstop

variable {path : Path} {wabDir : List String}

/-! ## The sealed file -/

/-- The bytes a rewrite pass leaves are a sealed segment. -/
theorem Replayed.sealed (h : Replayed file header c ss st) (t : Int64) :
    file.take st.validEnd ++ (buildSentinel ++ st.footer t) = sealedBytes header ss t := by
  rw [Replay.footer, h.split, h.count, h.data, h.crc, sealedBytes]
  rfl

/-! ## The copy -/

/-- Before the file is cut, a whole copy of it is in `quarantine/` and survives every
crash. -/
def CopiedFirst (path : Path) (wabDir : List String) (file : Bytes) (d : Disk Path)
    (ops : List (Op Path)) : Prop :=
  ∃ before n after d₁ dest, ops = before ++ .setLen path n :: after ∧
    (∀ op ∈ before, ¬op.OnFile path) ∧ d.run before = some d₁ ∧
    dest.dir = quarantineDir wabDir ∧ d₁.Durable dest file

theorem rewrite_syncs {dir : Option Path} (h : .syncDir dir ∈ (rewrite path st io).2) :
    dir = path.parent := by
  rcases rewrite_cases path st io with ⟨e, hrw⟩ | ⟨e, writes, hrw, hseal, _⟩ |
    ⟨sync, hsync, hops, _⟩
  · simp [hrw] at h
  · exact False.elim (hseal.onPath (.syncDir dir) (by simpa [hrw] using h))
  · exact Op.syncDir.inj (hsync _ (by simpa [hops, Replay.sealing] using h))

theorem Looks.no_sync (h : Looks wabDir ops) (dir : Option Path) : .syncDir dir ∉ ops := by
  intro hop
  rcases h.mem _ hop with hop | hop
  · cases hop
  · exact hop

/-- Whatever comes of it, a recovery syncs no directory but `quarantine/` and the segment's
own. -/
theorem recoverSegment_syncs {dir : Option Path}
    (h : .syncDir dir ∈ (recoverSegment path wabDir file io).2) :
    dir = some (quarantineEntry wabDir) ∨ dir = path.parent := by
  have hr := recoverSegment_recovers path wabDir file io
  generalize recoverSegment path wabDir file io = r at hr h
  cases hr with
  | unread e => cases h
  | headless hbad =>
    obtain ⟨look, hlook, ⟨e, hq⟩ | ⟨dest, _, hq⟩⟩ := quarantine_ops path wabDir io.move
    · rw [quarantineAndCount, hq] at h
      exact absurd h (hlook.no_sync dir)
    · rw [quarantineAndCount, hq] at h
      exact absurd (by simpa using h) (hlook.no_sync dir)
  | clean _ _ => exact .inr (rewrite_syncs h)
  | corrupt _ _ hcopy hrest =>
    rcases mem_append.mp h with h | h
    · left
      obtain ⟨look, hlook, hq | ⟨dest, writes, sync, hdir, _, hwrites, hsync, hops⟩⟩ :=
        copyToQuarantine_ops path wabDir file io.copy
      · rw [← hcopy, hq] at h
        exact absurd h (hlook.no_sync dir)
      rw [← hcopy, hops] at h
      rcases mem_append.mp h with h | h
      · exact absurd h (hlook.no_sync dir)
      rcases mem_append.mp h with h | h
      · exact False.elim (hwrites (.syncDir dir) (by simpa using h))
      · rw [Op.syncDir.inj (hsync _ h), parent_quarantined hdir]
    · rcases hrest with ⟨_, rfl⟩ | ⟨_, _, rfl⟩
      · cases h
      · exact .inr (rewrite_syncs h)

/-- The directory that `quarantine/` is in is neither of them. -/
theorem parent_quarantineEntry (name : String) :
    Located.parent (quarantineEntry wabDir) ≠ some ⟨wabDir, name⟩ := by
  intro h
  obtain ⟨last, hlast, heq⟩ := Option.map_eq_some_iff.mp h
  have hsame : wabDir.dropLast = wabDir := congrArg Path.dir heq
  have hlen := congrArg length hsame
  rw [length_dropLast] at hlen
  have hnil : wabDir = [] := length_eq_zero_iff.mp (by omega)
  rw [hnil] at hlast
  cases hlast

/-- A copy that is durable before the cut lies in a directory that was certain from the start:
nothing recovery does makes it so. -/
theorem CopiedFirst.kept {name : String} (hname : path.dir = wabDir ++ [name])
    (h : CopiedFirst path wabDir file d (recoverSegment path wabDir file io).2) :
    d.Kept (quarantineEntry wabDir) := by
  obtain ⟨before, n, after, d₁, dest, hops, _, hrun, hdir, hkept, _⟩ := h
  refine (hkept _ (parent_quarantined hdir)).of_run (fun op hop hsync => ?_) hrun
  have hmem : op ∈ (recoverSegment path wabDir file io).2 := by
    rw [hops]
    exact mem_append_left _ hop
  rw [hsync] at hmem
  rcases recoverSegment_syncs hmem with hdir | hdir
  · exact parent_quarantineEntry _ hdir
  · have hparent : path.parent = some ⟨wabDir, name⟩ := by simp [Path.parent, hname]
    exact parent_quarantineEntry _ (hdir.trans hparent)

/-- With that directory certain, so is the copy `recover_segment` makes. -/
theorem copiedFirst_of_kept {dest : Path} (hd : d.Sound)
    (hdir : path.dir ≠ quarantineDir wabDir) (hkept : d.Kept (quarantineEntry wabDir))
    (hcopy : copyToQuarantine path wabDir file io.copy = (.ok dest, ops))
    (hok : (rewrite path st io).1 = .ok q)
    (hrun : d.run (ops ++ (rewrite path st io).2) = some d') :
    CopiedFirst path wabDir file d (ops ++ (rewrite path st io).2) := by
  obtain ⟨hdest, look, hlook, _, hops⟩ := copyToQuarantine_ok hcopy
  obtain ⟨_, sync, _, hrewrite⟩ := rewrite_ok hok
  obtain ⟨d₁, hrun₁, _⟩ := Disk.run_split hrun
  have hne : dest ≠ path := fun h => hdir (h ▸ hdest)
  refine ⟨ops, st.validEnd, _, d₁, dest, by rw [hrewrite]; rfl, ?_, hrun₁, hdest, ?_⟩
  · intro op hop
    rw [hops] at hop
    rcases mem_append.mp hop with hop | hop
    · rcases hlook.mem op hop with rfl | hprobe
      · exact id
      · cases op <;> simp_all [Op.IsProbe, Op.OnFile]
    · simp only [mem_cons, not_mem_nil, or_false] at hop
      rcases hop with rfl | rfl | rfl | rfl <;> simp [Op.OnFile, hne]
  · obtain ⟨_, j, _, _, hcontent, hcertain, hentry⟩ := copyToQuarantine_copied hd hcopy hrun₁
    refine ⟨fun dir h => ?_, fun m hm => ⟨j, hcertain m hm, fun image himage => ?_⟩⟩
    · obtain rfl := Option.some.inj (h.symm.trans (parent_quarantined hdest))
      exact hentry hkept
    · rw [hcontent] at himage
      exact himage.of_clean rfl

/-! ## Exactness -/

theorem Replayed.validEnd_eq (h : Replayed file header m.compression ss st)
    (hp : parseSegmentHeader header = .ok m) :
    st.validEnd = segmentHeaderLen + (encodeRecords ss).length := by
  have hlen := congrArg length h.split
  have hinside := h.inside
  rw [length_take, length_append, parseSegmentHeader_length hp] at hlen
  omega

/-- What a successful recovery leaves under the sealed name. -/
theorem recoverSegment_read (hd : d.Sound) (hi : d.names.lookup path = some i)
    (hok : (recoverSegment path wabDir (d.files i).content io).1 = .ok q)
    (hrun : d.run (recoverSegment path wabDir (d.files i).content io).2 = some d') :
    ∃ m ss st why, parseSegmentHeader ((d.files i).content.take segmentHeaderLen) = .ok m ∧
      Stopped (d.files i).content ((d.files i).content.take segmentHeaderLen) m.compression
        io.fault io.stat ss st why ∧ q = sealedPathFor path ∧
      d'.read q = some (sealedBytes ((d.files i).content.take segmentHeaderLen) ss io.sealedAt) ∧
      (why = .clean ∨ ∃ dest ops, (rewrite path st io).1 = .ok q ∧
        copyToQuarantine path wabDir (d.files i).content io.copy = (.ok dest, ops) ∧
        (recoverSegment path wabDir (d.files i).content io).2 = ops ++ (rewrite path st io).2) := by
  have h := recoverSegment_recovers path wabDir (d.files i).content io
  generalize recoverSegment path wabDir (d.files i).content io = r at h hok hrun ⊢
  cases h with
  | unread e => cases hok
  | headless _ => cases hok
  | @clean m ss st hp hstopped =>
    obtain ⟨rfl, sync, hsync, hops⟩ := rewrite_ok hok
    rw [hops] at hrun
    refine ⟨m, ss, st, .clean, hp, hstopped, rfl, ?_, .inl rfl⟩
    rw [(rewrite_renamed hi hstopped.inside hsync hrun).1, hstopped.sealed]
  | @corrupt m ss st why r ops rest hp hstopped hcopy hrest =>
    rcases hrest with ⟨⟨e, rfl⟩, _⟩ | ⟨⟨dest, hcopied⟩, rfl, rfl⟩
    · cases hok
    have hres : (rewrite path st io).1 = .ok q := hok
    obtain ⟨rfl, sync, hsync, hops⟩ := rewrite_ok hres
    refine ⟨m, ss, st, .corrupt why, hp, hstopped, rfl, ?_, .inr ⟨dest, ops, hres, hcopied, rfl⟩⟩
    obtain ⟨d₁, hrun₁, hrun₂, hpath, hcontent⟩ := copyToQuarantine_run hd hi hcopy hrun
    rw [hops] at hrun₂
    have hin : st.validEnd ≤ (d₁.files i).content.length := by
      rw [hcontent]
      exact hstopped.inside
    rw [(rewrite_renamed hpath hin hsync hrun₂).1, hcontent, hstopped.sealed]

/-- Recovery is exact: whatever follows a valid header, a recovery that returns a
sealed file leaves one that verifies and holds the longest run of records of the
original. It keeps a durable copy of every tail that is not excused if, and only
if, `quarantine/` was there before, in an entry no crash could take. -/
theorem recoverSegment_exact_iff (wabDir : List String) (shard counter : Nat) (file : Bytes)
    (m : SegmentHeaderMeta) (io : RecoverIo) (d d' : Disk Path) (q : Path)
    (hheader : parseSegmentHeader (file.take segmentHeaderLen) = .ok m)
    (hsize : file.length < 256 ^ 8) (hd : d.Sound)
    (hread : d.read (segmentPath (shardDirPath wabDir shard) counter) = some file)
    (hok : (recoverSegment (segmentPath (shardDirPath wabDir shard) counter) wabDir file io).1
      = .ok q)
    (hrun : d.run (recoverSegment (segmentPath (shardDirPath wabDir shard) counter) wabDir file
      io).2 = some d') :
    ∃ ss bytes footer, Longest m.compression (file.drop segmentHeaderLen) ss ∧
      d'.read q = some bytes ∧ verifySealedSegment bytes noFault = .ok ⟨m, footer⟩ ∧
      bytes.take segmentHeaderLen = file.take segmentHeaderLen ∧
      Longest m.compression (bytes.drop segmentHeaderLen) ss ∧
      ((¬Excused m.compression (file.take segmentHeaderLen) ss
          (file.drop (segmentHeaderLen + (encodeRecords ss).length)) →
        CopiedFirst (segmentPath (shardDirPath wabDir shard) counter) wabDir file d
          (recoverSegment (segmentPath (shardDirPath wabDir shard) counter) wabDir file io).2) ↔
      (Excused m.compression (file.take segmentHeaderLen) ss
          (file.drop (segmentHeaderLen + (encodeRecords ss).length)) ∨
        d.Kept (quarantineEntry wabDir))) := by
  generalize hpath : segmentPath (shardDirPath wabDir shard) counter = path at *
  have hdir : path.dir ≠ quarantineDir wabDir := by
    rw [← hpath]
    exact shardDirPath_ne_quarantine wabDir shard
  obtain ⟨name, hname⟩ : ∃ name, path.dir = wabDir ++ [name] := ⟨_, by rw [← hpath]; rfl⟩
  rw [Disk.read] at hread
  obtain ⟨i, hi, rfl⟩ := Option.map_eq_some_iff.mp hread
  obtain ⟨m', ss, st, why, hp, hstopped, rfl, hsealed, hwhy⟩ := recoverSegment_read hd hi hok hrun
  obtain rfl : m' = m := Except.ok.inj (hp.symm.trans hheader)
  have hlen := parseSegmentHeader_length hp
  have hend := hstopped.validEnd_eq hp
  have hinside := hstopped.inside
  have hcount := length_le_encodeRecords ss
  have hdata := sum_length_le_encodeRecords ss
  refine ⟨ss, _, _, hstopped.longest, hsealed,
    verifySealedSegment_sealedBytes hp hstopped.stored (by omega) (by omega), ?_,
    longest_sealedBytes hlen hstopped.stored, ?_⟩
  · rw [sealedBytes, append_assoc, take_left' hlen]
  rw [← hend]
  rcases hwhy with rfl | ⟨dest, ops, hrewrite, hcopy, hops⟩
  · exact ⟨fun _ => .inl hstopped.excused, fun _ hnot => absurd hstopped.excused hnot⟩
  constructor
  · intro h
    by_cases hexcused : Excused m'.compression ((d.files i).content.take segmentHeaderLen) ss
        ((d.files i).content.drop st.validEnd)
    · exact .inl hexcused
    · exact .inr ((h hexcused).kept hname)
  · rintro (hexcused | hkept) hnot
    · exact absurd hexcused hnot
    · rw [hops] at hrun ⊢
      exact copiedFirst_of_kept hd hdir hkept hcopy hrewrite hrun

/-! ### A record that rotted -/

/-- Two records, the second with a checksum that is not its own. -/
def rottenSegment : Bytes :=
  buildSegmentHeader 0 .none 0 ++ encodeRecord [7] ++ [1, 0, 0, 0, 0, 0, 0, 0, 8]

/-- A disk with the segment on which `quarantine/` was made, and the directory above it
synced. -/
def quarantinedBefore : Disk Path :=
  ((Disk.single firstSegment rottenSegment).newFile (quarantineEntry ["wab"])).syncDir
    (quarantineEntry ["wab"]).parent

theorem quarantinedBefore_kept : quarantinedBefore.Kept (quarantineEntry ["wab"]) := by
  intro m hm
  rw [Disk.Possible.lookup_synced hm (by rw [Disk.lookup_newFile, if_pos rfl])]
  rfl

theorem rottenSegment_recovers {d : Disk Path}
    (h : (d.run (recoverSegment firstSegment ["wab"] rottenSegment .calm).2).isSome = true) :
    ∃ d', (recoverSegment firstSegment ["wab"] rottenSegment .calm).1
        = .ok (sealedPathFor firstSegment) ∧
      d.run (recoverSegment firstSegment ["wab"] rottenSegment .calm).2 = some d' := by
  obtain ⟨d', hd'⟩ := Option.isSome_iff_exists.mp h
  exact ⟨d', by rfl, hd'⟩

theorem rottenSegment_longest : Longest .none (rottenSegment.drop segmentHeaderLen) [[7]] := by
  have hp : parseSegmentHeader (rottenSegment.take segmentHeaderLen) = .ok ⟨1, .none, 0, 0⟩ := by
    decide +kernel
  obtain ⟨st, hreplay, hend⟩ : ∃ st, replay rottenSegment noFault none Compression.none.storedCap
      (rottenSegment.length + 1) ⟨Hasher.new.update (rottenSegment.take segmentHeaderLen), 0, 0,
        segmentHeaderLen⟩ = (st, .corrupt (.crcMismatch 0 (crc32 [8]))) ∧ st.validEnd = 33 :=
    ⟨_, Prod.ext rfl (by decide +kernel), by decide +kernel⟩
  obtain ⟨ss, hss⟩ := replay_stopped hp hreplay (by simp)
  have hsplit := hss.split
  have htake : rottenSegment.take 33
      = rottenSegment.take segmentHeaderLen ++ encodeRecords [[7]] := by decide +kernel
  rw [hend] at hsplit
  rw [encodeRecords_inj hss.stored (by decide)
    (append_cancel_left (hsplit.symm.trans htake))] at hss
  exact hss.longest

theorem rottenSegment_not_excused :
    ¬Excused .none (rottenSegment.take segmentHeaderLen) [[7]]
      (rottenSegment.drop (segmentHeaderLen + (encodeRecords [[7]]).length)) := by
  have htail : rottenSegment.drop (segmentHeaderLen + (encodeRecords [[7]]).length)
      = [1, 0, 0, 0, 0, 0, 0, 0, 8] := by decide +kernel
  rw [htail]
  rintro (hlen | ⟨_, _, hlen⟩ | ⟨buf, _, htail, _⟩)
  · exact absurd hlen (by decide)
  · exact absurd hlen (by decide)
  · cases htail

/-- The theorem for a rotten record, with `quarantine/` there since an earlier start:
the copy is durable before the cut. -/
theorem recoverSegment_exact_iff_rotten :
    ∃ (d' : Disk Path) (ss : List Bytes) (bytes : Bytes) (footer : SegmentFooterMeta),
      Longest .none (rottenSegment.drop segmentHeaderLen) ss ∧
      d'.read (sealedPathFor firstSegment) = some bytes ∧
      verifySealedSegment bytes noFault = .ok ⟨⟨1, .none, 0, 0⟩, footer⟩ ∧
      (¬Excused .none (rottenSegment.take segmentHeaderLen) ss
          (rottenSegment.drop (segmentHeaderLen + (encodeRecords ss).length)) →
        CopiedFirst firstSegment ["wab"] rottenSegment quarantinedBefore
          (recoverSegment firstSegment ["wab"] rottenSegment .calm).2) := by
  have hsound := Disk.single_sound firstSegment rottenSegment
  obtain ⟨hname, _⟩ := Disk.newFile_frame hsound (p := quarantineEntry ["wab"]) (by decide)
    (Disk.single_lookup firstSegment rottenSegment)
  have hname' : quarantinedBefore.names.lookup firstSegment = some 0 :=
    (congrArg (AList.lookup firstSegment) (Disk.names_syncDir ..)).trans hname
  obtain ⟨d', hok, hrun⟩ := rottenSegment_recovers (d := quarantinedBefore) (by decide +kernel)
  obtain ⟨ss, bytes, footer, hlongest, hsealed, hverify, _, _, hiff⟩ :=
    recoverSegment_exact_iff ["wab"] 0 1 rottenSegment ⟨1, .none, 0, 0⟩ .calm quarantinedBefore d' _
      (by decide +kernel) (by decide +kernel) ((hsound.newFile _).syncDir _)
      (Disk.read_of_lookup hname') hok hrun
  exact ⟨d', ss, bytes, footer, hlongest, hsealed, hverify, hiff.mpr (.inr quarantinedBefore_kept)⟩

/-- The first file a daemon ever quarantines: `create_dir_all` makes `quarantine/`, no
one syncs the directory above it, and a crash behind the cut takes the copy. -/
theorem first_quarantine_copy_not_durable :
    ∃ d', (recoverSegment firstSegment ["wab"] rottenSegment .calm).1
        = .ok (sealedPathFor firstSegment) ∧
      (Disk.single firstSegment rottenSegment).run
        (recoverSegment firstSegment ["wab"] rottenSegment .calm).2 = some d' ∧
      ∃ ss, Longest .none (rottenSegment.drop segmentHeaderLen) ss ∧
        ¬Excused .none (rottenSegment.take segmentHeaderLen) ss
          (rottenSegment.drop (segmentHeaderLen + (encodeRecords ss).length)) ∧
        ¬CopiedFirst firstSegment ["wab"] rottenSegment (Disk.single firstSegment rottenSegment)
          (recoverSegment firstSegment ["wab"] rottenSegment .calm).2 := by
  obtain ⟨d', hok, hrun⟩ := rottenSegment_recovers (d := Disk.single firstSegment rottenSegment)
    (by decide +kernel)
  refine ⟨d', hok, hrun, [[7]], rottenSegment_longest, rottenSegment_not_excused, fun h => ?_⟩
  have hkept := h.kept rfl _ (Disk.possible_names _)
  exact absurd hkept (by decide)

end Weir.Wab

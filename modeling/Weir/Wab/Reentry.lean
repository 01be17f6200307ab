import Weir.Wab.Exact

/-!
# Recovery can be repeated

A daemon that recovers a segment may die while it does. What it left is recovered
by the next one: the file as it was, the records with a part of the sentinel and
the footer behind them, or the sealed file. A part of a seal takes another branch
of the tail classifier each time it is one byte longer, and every branch cuts it
off again.

> `recoverSegment_reentrant`: from every crash point, the next recovery seals the
> same records; and a file that was sealed and not renamed is sealed again with
> the same counts and without a copy.
-/

namespace Weir.Wab

open Weir.Lib List

/-! ## What a run of recovery leaves at any point -/

variable {file : Bytes}

theorem readExact_eof_of_noFault {pos n : Nat} {e : IoError}
    (h : readExact file noFault pos n = .error e) : e.kind = .unexpectedEof := by
  unfold readExact at h
  dsimp only [noFault] at h
  split at h <;> cases h
  rfl

variable {m : SegmentHeaderMeta}

/-- A valid header passes the check, unless it cannot be read. -/
theorem checkHeader_of_parse (h : parseSegmentHeader (file.take segmentHeaderLen) = .ok m)
    (fault : ReadFault) :
    checkHeader file fault = .good (file.take segmentHeaderLen) m ∨
      ∃ e, checkHeader file fault = .failed e := by
  have hlen : segmentHeaderLen ≤ file.length := by
    have := parseSegmentHeader_length h
    rw [length_take] at this
    omega
  have hsplit : file.drop 0 = file.take segmentHeaderLen ++ file.drop segmentHeaderLen :=
    (take_append_drop ..).symm
  unfold checkHeader
  rcases readExact_present fault hsplit (parseSegmentHeader_length h) (Nat.zero_le _) with
    hread | ⟨e, hread, he⟩
  · rw [hread]
    dsimp only
    rw [h]
    unfold parseSegmentHeader at h
    split at h
    · cases h
    split at h
    · cases h
    rename_i hmagic
    rw [if_neg hmagic]
    split at h
    · cases h
    rename_i c hc
    refine .inl (if_neg ?_)
    -- the two versions that parse are the supported ones
    unfold headerCompression at hc
    split at hc
    next hv => rw [hv]; decide
    · split at hc
      next hv => rw [hv]; decide
      · cases hc
  · rw [hread]
    exact .inr ⟨e, if_neg he⟩

theorem checkHeader_ne_bad {fault : ReadFault} {reason : String}
    (h : parseSegmentHeader (file.take segmentHeaderLen) = .ok m) :
    checkHeader file fault ≠ .bad reason := by
  rcases checkHeader_of_parse h fault with hgood | ⟨e, hfailed⟩
  · simp [hgood]
  · simp [hfailed]

theorem checkHeader_smooth {fault : ReadFault}
    (h : parseSegmentHeader (file.take segmentHeaderLen) = .ok m) (hfault : fault = noFault) :
    checkHeader file fault = .good (file.take segmentHeaderLen) m := by
  rcases checkHeader_of_parse h fault with hgood | ⟨e, hfailed⟩
  · exact hgood
  rw [hfault] at hfailed
  unfold checkHeader at hfailed
  split at hfailed
  next e' he =>
    rw [if_pos (readExact_eof_of_noFault he)] at hfailed
    cases hfailed
  · dsimp only at hfailed
    split at hfailed
    · cases hfailed
    · split at hfailed
      · cases hfailed
      · split at hfailed <;> cases hfailed

variable {path : Path} {wabDir : List String} {io : RecoverIo} {d : Disk Path}
  {pre : List (Op Path)} {d' : Disk Path} {i : Nat} {header : Bytes} {t : Int64} {p : Path}

/-- What a recovery that was stopped may have left of a file with the records `ss`. -/
inductive Interrupted (path : Path) (file header : Bytes) (ss : List Bytes) (d : Disk Path) : Prop
  /-- The file as it was. -/
  | untouched (h : d.read path = some file)
  /-- Its records, and a part of the seal. -/
  | cut {left : Bytes} {t : Int64} (h : d.read path = some left)
      (hrecords : header ++ encodeRecords ss <+: left) (hseal : left <+: sealedBytes header ss t)
  /-- The sealed file. -/
  | renamed {t : Int64} (h : d.read (sealedPathFor path) = some (sealedBytes header ss t))

variable {ss : List Bytes}

theorem rewrite_interrupted {st : Replay} {why : ReplayEnd} (hi : d.names.lookup path = some i)
    (hcontent : (d.files i).content = file)
    (hstopped : Stopped file header m.compression io.fault io.stat ss st why)
    (hpre : pre <+: (rewrite path st io).2) (hrun : d.run pre = some d') :
    Interrupted path file header ss d' := by
  subst hcontent
  rcases (rewrite_disk hi hstopped.inside hpre hrun).1 with rfl | ⟨part, hpart, hread⟩ | hread
  · exact .untouched (Disk.read_of_lookup hi)
  · refine .cut (t := io.sealedAt) hread ?_ ?_
    · rw [hstopped.split]
      exact prefix_append ..
    · rw [← hstopped.sealed io.sealedAt]
      exact (prefix_append_right_inj _).mpr hpart
  · rw [hstopped.sealed] at hread
    exact .renamed hread

theorem recoverSegment_interrupted (hd : d.Sound) (hi : d.names.lookup path = some i)
    (hheader : parseSegmentHeader ((d.files i).content.take segmentHeaderLen) = .ok m)
    (hss : Longest m.compression ((d.files i).content.drop segmentHeaderLen) ss)
    (hpre : pre <+: (recoverSegment path wabDir (d.files i).content io).2)
    (hrun : d.run pre = some d') :
    Interrupted path (d.files i).content ((d.files i).content.take segmentHeaderLen) ss d' := by
  have h := recoverSegment_recovers path wabDir (d.files i).content io
  generalize recoverSegment path wabDir (d.files i).content io = r at h hpre
  cases h with
  | unread e =>
    obtain rfl := prefix_nil.mp hpre
    cases hrun
    exact .untouched (Disk.read_of_lookup hi)
  | headless hbad => exact absurd hbad (checkHeader_ne_bad hheader)
  | clean hp hstopped =>
    obtain rfl := Except.ok.inj (hp.symm.trans hheader)
    obtain rfl := hstopped.longest.unique hss
    exact rewrite_interrupted hi rfl hstopped hpre hrun
  | @corrupt _ _ st _ r ops rest hp hstopped hcopy hrest =>
    obtain rfl := Except.ok.inj (hp.symm.trans hheader)
    obtain rfl := hstopped.longest.unique hss
    rcases prefix_append_cases hpre with hpre | ⟨some, hsome, rfl⟩
    · obtain ⟨hpath, hcontent⟩ := copyToQuarantine_crash hd hi (hcopy ▸ hpre) hrun
      exact .untouched (by rw [Disk.read_of_lookup hpath, hcontent])
    obtain ⟨d₁, hrun₁, hrun₂, hpath, hcontent⟩ := copyToQuarantine_run hd hi hcopy hrun
    have hfrom : some <+: (rewrite path st io).2 := by
      rcases hrest with ⟨_, rfl⟩ | ⟨_, _, rfl⟩
      · rw [prefix_nil.mp hsome]
        exact nil_prefix
      · exact hsome
    exact rewrite_interrupted hpath (by rw [hcontent]) hstopped hfrom hrun₂

/-! ## The next recovery -/

/-- What is left of a seal that was cut short holds the same records. -/
theorem longest_cut {c : Compression} {left : Bytes}
    (hheader : header.length = segmentHeaderLen) (hok : ∀ s ∈ ss, StoredOk c s)
    (hrecords : header ++ encodeRecords ss <+: left) (hseal : left <+: sealedBytes header ss t) :
    left.take segmentHeaderLen = header ∧ Longest c (left.drop segmentHeaderLen) ss := by
  obtain ⟨part, rfl⟩ := hrecords
  rw [sealedBytes, prefix_append_right_inj] at hseal
  rw [append_assoc, take_left' hheader, drop_left' hheader]
  refine ⟨rfl, hok, prefix_append .., fun more hmore h => ?_⟩
  exact prefix_of_sentinel hok hmore (h.trans ((prefix_append_right_inj _).mpr hseal))

/-- A copy on the disk `d` in which no call fails, with a name that is free. -/
structure CopyIo.Smooth (io : CopyIo) (p : Path) (wabDir : List String) (d : Disk Path) :
    Prop where
  mkdir : io.mkdir = none
  answers : ∀ q, io.answers q = .ok (d.names.lookup q).isSome
  free : ∃ q ∈ quarantineNames (quarantineDir wabDir) (quarantineBase p), d.names.lookup q = none
  opened : io.opened = none
  data : io.data = .ok
  fsync : io.fsync = none
  dirSync : io.dirSync = none

/-- A recovery on the disk `d` in which no call fails. -/
structure RecoverIo.Smooth (io : RecoverIo) (p : Path) (wabDir : List String) (d : Disk Path) :
    Prop where
  openRead : io.openRead = none
  fault : io.fault = noFault
  stat : io.stat = none
  copy : io.copy.Smooth p wabDir d
  openWrite : io.openWrite = none
  setLen : io.setLen = none
  seek : io.seek = none
  sentinel : io.sentinel = .ok
  footer : io.footer = .ok
  fsync : io.fsync = none
  rename : io.rename = none
  dirSync : io.dirSync = none

/-- True answers find the first free name, and could have been given. -/
theorem firstFree_finds {answers : Path → Except IoError Bool} :
    ∀ {cs : List Path}, (∀ q ∈ cs, answers q = .ok (d.names.lookup q).isSome) →
      (∃ q ∈ cs, d.names.lookup q = none) →
      ∃ dest ops, firstFree answers cs = (.ok (some dest), ops) ∧ d.run ops = some d := by
  intro cs
  induction cs with
  | nil => rintro _ ⟨q, hq, _⟩; cases hq
  | cons c cs ih =>
    rintro hanswers ⟨q, hq, hfree⟩
    rw [firstFree, hanswers c mem_cons_self]
    cases hthere : (d.names.lookup c).isSome with
    | false => exact ⟨c, _, rfl, by simp [Disk.run, Disk.step, hthere]⟩
    | true =>
      rcases mem_cons.mp hq with rfl | hq
      · rw [hfree] at hthere
        cases hthere
      obtain ⟨dest, ops, hfirst, hrun⟩ :=
        ih (fun q hq => hanswers q (mem_cons_of_mem _ hq)) ⟨q, hq, hfree⟩
      refine ⟨dest, .probe c true :: ops, by simp [hfirst], ?_⟩
      simp only [Disk.run, Disk.step, if_pos hthere]
      exact hrun

theorem fsyncParentDir_smooth (p : Path) :
    ∃ sync, fsyncParentDir p none = (.ok (), sync) ∧ ∀ op ∈ sync, op = .syncDir p.parent := by
  have hsync := fsyncParentDir_ops p none
  unfold fsyncParentDir at hsync ⊢
  split at hsync
  next h => exact ⟨_, if_pos h, hsync⟩
  next h => exact ⟨_, if_neg h, hsync⟩

/-- `create_dir_all` makes a directory or finds it; other names stay as they are. -/
theorem mkdir_smooth (hd : d.Sound) (q : Path) :
    ∃ d', d.step (.mkdir q) = some d' ∧ d'.Sound ∧
      ∀ p, p ≠ q → d'.names.lookup p = d.names.lookup p := by
  cases hq : d.names.lookup q with
  | some i => exact ⟨d, by simp [Disk.step, hq], hd, fun _ _ => rfl⟩
  | none =>
    exact ⟨d.newFile q, by simp [Disk.step, hq], hd.newFile q, fun p hp => by
      rw [Disk.lookup_newFile, if_neg hp]⟩

theorem copyToQuarantine_smooth {io : CopyIo} (hd : d.Sound) (h : io.Smooth p wabDir d)
    (file : Bytes) :
    ∃ dest ops d', copyToQuarantine p wabDir file io = (.ok dest, ops) ∧
      d.run ops = some d' := by
  obtain ⟨d₀, hmkdir, hd₀, hsame⟩ := mkdir_smooth hd (quarantineEntry wabDir)
  have hother : ∀ q ∈ quarantineNames (quarantineDir wabDir) (quarantineBase p),
      d₀.names.lookup q = d.names.lookup q := by
    refine fun q hq => hsame q fun heq => ?_
    have hdir := dir_of_mem_quarantineNames hq
    simp [heq, quarantineEntry, quarantineDir] at hdir
  obtain ⟨q, hq, hfree⟩ := h.free
  have hanswers : ∀ q ∈ quarantineNames (quarantineDir wabDir) (quarantineBase p),
      io.answers q = .ok (d₀.names.lookup q).isSome :=
    fun q hq => (h.answers q).trans (by rw [hother q hq])
  obtain ⟨dest, tests, hfirst, htests⟩ := firstFree_finds hanswers
    ⟨q, hq, (hother q hq).trans hfree⟩
  have hdest : quarantineDest p wabDir io.mkdir io.answers
      = (.ok dest, .mkdir (quarantineEntry wabDir) :: tests) := by
    rw [h.mkdir, quarantineDest, nonClobberingDest, hfirst]
  have hnone : d₀.names.lookup dest = none := by
    have hall := firstFree_probes io.answers
      (quarantineNames (quarantineDir wabDir) (quarantineBase p))
    rw [hfirst] at hall
    exact Disk.run_probes_free hall htests (firstFree_some hfirst).2
  obtain ⟨sync, hsync, hall⟩ := fsyncParentDir_smooth dest
  have hwrites : ∀ op ∈ [Op.append dest file, .fsync dest], op.OnFile dest := by simp [Op.OnFile]
  obtain ⟨d₁, hnew, _⟩ := Disk.run_newFile hd₀ hnone hwrites
  obtain ⟨d₂, hrun₂, _⟩ := Disk.run_syncDir hall d₁
  refine ⟨dest, .mkdir (quarantineEntry wabDir) :: tests
    ++ [.truncate dest, .append dest file, .fsync dest] ++ sync, d₂, ?_, ?_⟩
  · unfold copyToQuarantine
    rw [hdest, h.opened, h.data, h.fsync, h.dirSync]
    dsimp only
    rw [hsync]
  · rw [Disk.run_append, Disk.run_append, Disk.run, hmkdir]
    dsimp only
    rw [htests, Option.bind_some, hnew, Option.bind_some, hrun₂]

theorem rewrite_smooth {d₀ : Disk Path} (h : io.Smooth p wabDir d₀)
    (st : Replay) (hi : d.names.lookup p = some i) :
    ∃ ops d', rewrite p st io = (.ok (sealedPathFor p), ops) ∧ d.run ops = some d' := by
  obtain ⟨sync, hsync, hall⟩ := fsyncParentDir_smooth (sealedPathFor p)
  have hwrites : ∀ op ∈ [Op.setLen p st.validEnd, .append p buildSentinel,
      .append p (st.footer io.sealedAt), .fsync p], op.OnFile p := by simp [Op.OnFile]
  obtain ⟨d₁, hrun₁, hlookup⟩ : ∃ d₁, d.run [Op.setLen p st.validEnd, .append p buildSentinel,
      .append p (st.footer io.sealedAt), .fsync p] = some d₁ ∧ d₁.names.lookup p = some i :=
    ⟨_, Disk.run_onFile hwrites hi, hi⟩
  obtain ⟨d₂, hrun₂, _⟩ := Disk.run_syncDir hall (d₁.update (.move p (sealedPathFor p) i))
  refine ⟨([Op.setLen p st.validEnd, .append p buildSentinel, .append p (st.footer io.sealedAt),
    .fsync p] ++ [.rename p (sealedPathFor p)]) ++ sync, d₂, ?_, ?_⟩
  · unfold rewrite
    rw [h.openWrite, h.setLen, h.seek, h.sentinel, h.footer, h.fsync, h.rename, h.dirSync]
    rw [hsync]
    rfl
  · rw [Disk.run_append, Disk.run_append, hrun₁, Option.bind_some]
    simp only [Disk.run, Disk.step, hlookup, Option.bind_some]
    exact hrun₂

theorem judgeSentinel_ne_failed (file : Bytes) (fault : ReadFault) (stat : Option IoError)
    (st : Replay) (e : IoError) : judgeSentinel file fault stat st ≠ .failed e := by
  unfold judgeSentinel
  split
  · simp
  dsimp only
  split
  · simp
  split
  · split
    · simp
    · split
      · simp
      · split <;> simp
  · simp

theorem judgeOversized_ne_failed (file : Bytes) (stat : Option IoError) (n : Nat) (st : Replay)
    (e : IoError) : judgeOversized file stat n st ≠ .failed e := by
  unfold judgeOversized
  split
  · simp
  · split <;> simp

/-- Without a failing read no turn of the replay fails. -/
theorem replayStep_ne_failed (file : Bytes) (stat : Option IoError) (cap : Nat) (st : Replay)
    (e : IoError) : replayStep file noFault stat cap st ≠ .inl (.failed e) := by
  have hread : ∀ {pos n e'}, readExact file noFault pos n = .error e' →
      (Sum.inl (ReplayEnd.ofRead e') : ReplayEnd ⊕ Replay) ≠ .inl (.failed e) := by
    intro pos n e' h
    rw [ReplayEnd.ofRead, if_pos (readExact_eof_of_noFault h)]
    simp
  unfold replayStep
  split
  next e' he => exact hread he
  · dsimp only
    split
    · exact fun h => judgeSentinel_ne_failed _ _ _ _ _ (Sum.inl.inj h)
    split
    · exact fun h => judgeOversized_ne_failed _ _ _ _ _ (Sum.inl.inj h)
    split
    next e' he => exact hread he
    · split
      next e' he => exact hread he
      · split <;> simp

/-- Without a failing call, recovery seals every file with a valid header. -/
theorem recoverSegment_smooth (hd : d.Sound) (hread : d.read path = some file)
    (h : parseSegmentHeader (file.take segmentHeaderLen) = .ok m) (hio : io.Smooth path wabDir d) :
    ∃ ops d', recoverSegment path wabDir file io = (.ok (sealedPathFor path), ops) ∧
      d.run ops = some d' := by
  obtain ⟨i, hi, _⟩ := Option.map_eq_some_iff.mp hread
  unfold recoverSegment
  rw [hio.openRead, checkHeader_smooth h hio.fault]
  dsimp only
  split
  next st e hreplay =>
    have hstops := replay_stops io.fault io.stat (file.length + 1) [] _ (Replayed.start h)
      (by dsimp only; omega)
    rw [hreplay, hio.fault] at hstops
    exact absurd hstops (replayStep_ne_failed _ _ _ _ _)
  next st hreplay => exact rewrite_smooth hio st hi
  next st why hreplay =>
    obtain ⟨dest, ops, d₁, hcopy, hrun₁⟩ := copyToQuarantine_smooth hd hio.copy file
    have hpre : ops <+: (copyToQuarantine path wabDir file io.copy).2 :=
      ⟨[], by rw [hcopy, append_nil]⟩
    obtain ⟨hi₁, _⟩ := copyToQuarantine_crash hd hi hpre hrun₁
    obtain ⟨ops', d', hrewrite, hrun'⟩ := rewrite_smooth hio st hi₁
    rw [hcopy, hrewrite]
    exact ⟨ops ++ ops', d', rfl, by rw [Disk.run_append, hrun₁, Option.bind_some, hrun']⟩

/-! ## A file that was sealed and not renamed -/

/-- A whole seal ends the replay clean. -/
theorem Stopped.clean_of_sealed {st : Replay} {why : ReplayEnd}
    (hp : parseSegmentHeader header = .ok m) (hcount : ss.length < 256 ^ 8)
    (hdata : (ss.map List.length).sum < 256 ^ 8)
    (h : Stopped (sealedBytes header ss t) header m.compression noFault none ss st why) :
    why = .clean := by
  have hlen := parseSegmentHeader_length hp
  have hend := h.validEnd_eq hp
  have hinside := h.inside
  have hrest : (sealedBytes header ss t).drop st.validEnd = buildSentinel
      ++ buildSegmentFooter ss.length (ss.map length).sum (crc32 (header ++ encodeRecords ss))
        t := by
    rw [sealedBytes, drop_left' (by rw [length_append, hlen, hend])]
  have hfooter : (sealedBytes header ss t).drop (st.validEnd + 4)
      = buildSegmentFooter ss.length (ss.map length).sum (crc32 (header ++ encodeRecords ss))
        t ++ [] := by
    rw [← drop_drop, hrest, drop_left' (by simp [buildSentinel]), append_nil]
  have hsize : (sealedBytes header ss t).length = st.validEnd + 4 + segmentFooterLen := by
    have := congrArg length hrest
    rw [length_drop, length_append, buildSegmentFooter_length] at this
    have hfour : buildSentinel.length = 4 := by decide
    omega
  have hstop := h.stops
  have hzero : leNat buildSentinel = 0 := by decide
  unfold replayStep at hstop
  rw [readExact_of_drop rfl hrest (by simp [buildSentinel]) hinside] at hstop
  rw [← Sum.inl.inj hstop]
  unfold judgeSentinel
  have htrailing : (sealedBytes header ss t).length - (st.validEnd + 4) = segmentFooterLen := by
    omega
  rw [htrailing, if_neg (by decide), if_pos rfl,
    readExact_of_drop rfl hfooter (by simp) (by omega)]
  dsimp only
  rw [parseSegmentFooter_build hcount hdata]
  dsimp only
  rw [if_pos ⟨h.count.symm, h.data.symm, by rw [h.crc]; rfl⟩]

theorem rewrite_touches (path : Path) (st : Replay) (io : RecoverIo) :
    ∀ op ∈ (rewrite path st io).2,
      op.OnFile path ∨ op = .rename path (sealedPathFor path) ∨ op = .syncDir path.parent := by
  intro op hop
  rcases rewrite_crash (prefix_refl (rewrite path st io).2) with hops | ⟨writes, hops, hseal⟩ |
    ⟨sync, hsync, hops⟩
  · rw [hops] at hop
    cases hop
  · rw [hops] at hop
    rcases mem_cons.mp hop with rfl | hop
    · exact .inl rfl
    · exact .inl (hseal.onPath op hop).onFile
  · rw [hops] at hop
    simp only [Replay.sealing, mem_append, mem_cons, not_mem_nil, or_false] at hop
    rcases hop with (rfl | rfl | rfl | rfl) | rfl | hop
    · exact .inl rfl
    · exact .inl rfl
    · exact .inl rfl
    · exact .inl rfl
    · exact .inr (.inl rfl)
    · exact .inr (.inr (hsync op hop))

/-- A sealed file is not copied. -/
theorem recoverSegment_sealed_touches
    (hp : parseSegmentHeader header = .ok m) (hstored : ∀ s ∈ ss, StoredOk m.compression s)
    (hcount : ss.length < 256 ^ 8) (hdata : (ss.map List.length).sum < 256 ^ 8)
    (hfault : io.fault = noFault) (hstat : io.stat = none) :
    ∀ op ∈ (recoverSegment path wabDir (sealedBytes header ss t) io).2,
      op.OnFile path ∨ op = .rename path (sealedPathFor path) ∨ op = .syncDir path.parent := by
  have hlen := parseSegmentHeader_length hp
  have htake : (sealedBytes header ss t).take segmentHeaderLen = header := by
    rw [sealedBytes, append_assoc, take_left' hlen]
  have h := recoverSegment_recovers path wabDir (sealedBytes header ss t) io
  generalize recoverSegment path wabDir (sealedBytes header ss t) io = r at h ⊢
  cases h with
  | unread e => simp
  | headless hbad => exact absurd hbad (checkHeader_ne_bad (htake.symm ▸ hp))
  | @clean _ _ st _ _ => exact rewrite_touches path st io
  | corrupt hp' hstopped _ _ =>
    rw [htake] at hp' hstopped
    obtain rfl := Except.ok.inj (hp'.symm.trans hp)
    obtain rfl := hstopped.longest.unique (longest_sealedBytes hlen hstored)
    rw [hfault, hstat] at hstopped
    exact absurd (hstopped.clean_of_sealed hp hcount hdata) (by simp)

/-! ## Re-entrancy -/

/-- What a recovery that returned left, in terms of the longest run of records. -/
theorem recoverSegment_reads {q : Path} (hd : d.Sound) (hread : d.read path = some file)
    (hheader : parseSegmentHeader (file.take segmentHeaderLen) = .ok m)
    (hss : Longest m.compression (file.drop segmentHeaderLen) ss)
    (hok : (recoverSegment path wabDir file io).1 = .ok q)
    (hrun : d.run (recoverSegment path wabDir file io).2 = some d') :
    q = sealedPathFor path ∧
      d'.read q = some (sealedBytes (file.take segmentHeaderLen) ss io.sealedAt) := by
  obtain ⟨i, hi, rfl⟩ := Option.map_eq_some_iff.mp hread
  obtain ⟨m', ss', st, why, hp, hstopped, rfl, hsealed, _⟩ := recoverSegment_read hd hi hok hrun
  obtain rfl : m' = m := Except.ok.inj (hp.symm.trans hheader)
  obtain rfl : ss' = ss := hstopped.longest.unique hss
  exact ⟨rfl, hsealed⟩

/-- A recovery that dies anywhere leaves the segment sealed with the records an
uninterrupted one seals, or a file from which the next recovery seals them: always when
it returns, and it returns when none of its calls fails. A file that was sealed and not
renamed is sealed again with the same counts, and nothing goes to quarantine. -/
theorem recoverSegment_reentrant (path : Path) (wabDir : List String) (file : Bytes)
    (m : SegmentHeaderMeta) (ss : List Bytes) (d : Disk Path)
    (hheader : parseSegmentHeader (file.take segmentHeaderLen) = .ok m)
    (hss : Longest m.compression (file.drop segmentHeaderLen) ss)
    (hsize : file.length < 256 ^ 8) (hd : d.Sound) (hread : d.read path = some file) :
    (∀ (io : RecoverIo) (pre : List (Op Path)) (d₁ : Disk Path),
      pre <+: (recoverSegment path wabDir file io).2 → d.run pre = some d₁ →
      (∃ t, d₁.read (sealedPathFor path)
        = some (sealedBytes (file.take segmentHeaderLen) ss t)) ∨
      ∃ left, d₁.read path = some left ∧
        (∀ io' : RecoverIo, io'.Smooth path wabDir d₁ → ∃ ops d₂,
          recoverSegment path wabDir left io' = (.ok (sealedPathFor path), ops) ∧
            d₁.run ops = some d₂) ∧
        ∀ (io' : RecoverIo) (q : Path) (d₂ : Disk Path),
          (recoverSegment path wabDir left io').1 = .ok q →
          d₁.run (recoverSegment path wabDir left io').2 = some d₂ →
          q = sealedPathFor path ∧
            d₂.read q = some (sealedBytes (file.take segmentHeaderLen) ss io'.sealedAt)) ∧
    ∀ (t : Int64) (io : RecoverIo), file = sealedBytes (file.take segmentHeaderLen) ss t →
      io.fault = noFault → io.stat = none →
      (∀ op ∈ (recoverSegment path wabDir file io).2,
        op.OnFile path ∨ op = .rename path (sealedPathFor path) ∨ op = .syncDir path.parent) ∧
      ∀ (q : Path) (d' : Disk Path), (recoverSegment path wabDir file io).1 = .ok q →
        d.run (recoverSegment path wabDir file io).2 = some d' →
        d'.read q = some (sealedBytes (file.take segmentHeaderLen) ss io.sealedAt) := by
  have hlen := parseSegmentHeader_length hheader
  refine ⟨?_, ?_⟩
  · intro io pre d₁ hpre hrun
    have hd₁ := hd.run hrun
    obtain ⟨i, hi, hcontent⟩ := Option.map_eq_some_iff.mp hread
    have hleft : Interrupted path file (file.take segmentHeaderLen) ss d₁ := by
      subst hcontent
      exact recoverSegment_interrupted hd hi hheader hss hpre hrun
    cases hleft with
    | untouched h =>
      exact .inr ⟨file, h, fun io' hio => recoverSegment_smooth hd₁ h hheader hio,
        fun io' q d₂ hok hrun₂ => recoverSegment_reads hd₁ h hheader hss hok hrun₂⟩
    | @cut left t h hrecords hseal =>
      obtain ⟨htake, hlongest⟩ := longest_cut hlen hss.stored hrecords hseal
      rw [← htake] at hheader
      refine .inr ⟨left, h, fun io' hio => recoverSegment_smooth hd₁ h hheader hio, ?_⟩
      intro io' q d₂ hok hrun₂
      rw [← htake]
      exact recoverSegment_reads hd₁ h hheader hlongest hok hrun₂
    | renamed h => exact .inl ⟨_, h⟩
  · intro t io hsealed hfault hstat
    refine ⟨?_, fun q d' hok hrun => (recoverSegment_reads hd hread hheader hss hok hrun).2⟩
    have hbound : (encodeRecords ss).length ≤ file.length := by
      rw [hsealed, sealedBytes]
      simp only [length_append]
      omega
    have hcount := length_le_encodeRecords ss
    have hdata := sum_length_le_encodeRecords ss
    rw [hsealed]
    exact recoverSegment_sealed_touches hheader hss.stored (by omega) (by omega) hfault hstat

/-! ### A daemon that died between the sentinel and the footer -/

/-- Every call succeeds, and a test for a name tells what is on the disk. -/
def RecoverIo.honest (d : Disk Path) : RecoverIo :=
  { RecoverIo.calm with
    copy := { RecoverIo.calm.copy with answers := fun q => .ok (d.names.lookup q).isSome } }

theorem RecoverIo.honest_smooth
    (hfree : ∃ q ∈ quarantineNames (quarantineDir wabDir) (quarantineBase p),
      d.names.lookup q = none) : (RecoverIo.honest d).Smooth p wabDir d where
  openRead := rfl
  fault := rfl
  stat := rfl
  copy := ⟨rfl, fun _ => rfl, hfree, rfl, rfl, rfl, rfl⟩
  openWrite := rfl
  setLen := rfl
  seek := rfl
  sentinel := rfl
  footer := rfl
  fsync := rfl
  rename := rfl
  dirSync := rfl

/-- The theorem for a rotten record: the file is copied and cut, the sentinel is
written, the daemon dies, and the next one finishes. -/
theorem recoverSegment_reentrant_rotten :
    ∃ (d₁ d₂ : Disk Path) (left : Bytes) (ops : List (Op Path)),
      (Disk.single firstSegment rottenSegment).run
        ((recoverSegment firstSegment ["wab"] rottenSegment .calm).2.take 8) = some d₁ ∧
      d₁.read firstSegment = some left ∧
      recoverSegment firstSegment ["wab"] left (.honest d₁)
        = (.ok (sealedPathFor firstSegment), ops) ∧
      d₁.run ops = some d₂ ∧
      d₂.read (sealedPathFor firstSegment)
        = some (sealedBytes (rottenSegment.take segmentHeaderLen) [[7]] 0) := by
  have hcut : (((Disk.single firstSegment rottenSegment).run
      ((recoverSegment firstSegment ["wab"] rottenSegment .calm).2.take 8)).map
        fun d => (d.read (sealedPathFor firstSegment),
          d.names.lookup ⟨["wab", "quarantine"], quarantineBase firstSegment ++ ".1"⟩))
      = some (none, none) := by decide +kernel
  obtain ⟨d₁, hrun, hseen⟩ := Option.map_eq_some_iff.mp hcut
  obtain ⟨hsealed, hfree⟩ := Prod.mk.inj hseen
  obtain ⟨hcrash, _⟩ := recoverSegment_reentrant firstSegment ["wab"] rottenSegment
    ⟨1, .none, 0, 0⟩ [[7]] (Disk.single firstSegment rottenSegment) (by decide +kernel)
    rottenSegment_longest (by decide +kernel) (Disk.single_sound _ _)
    (Disk.read_of_lookup (Disk.single_lookup firstSegment _))
  rcases hcrash .calm _ d₁ ⟨_, take_append_drop 8 _⟩ hrun with
    ⟨t, ht⟩ | ⟨left, hleft, hsmooth, hreads⟩
  · rw [hsealed] at ht
    cases ht
  have hname : (⟨["wab", "quarantine"], quarantineBase firstSegment ++ ".1"⟩ : Path)
      ∈ quarantineNames (quarantineDir ["wab"]) (quarantineBase firstSegment) :=
    mem_cons_of_mem _ (mem_map.mpr ⟨0, by simp, by rfl⟩)
  obtain ⟨ops, d₂, hok, hrun₂⟩ := hsmooth (.honest d₁)
    (RecoverIo.honest_smooth ⟨_, hname, hfree⟩)
  have hread := hreads (.honest d₁) _ d₂ (by rw [hok]) (by rw [hok]; exact hrun₂)
  exact ⟨d₁, d₂, left, ops, hrun, hleft, hok, hrun₂, hread.2⟩

end Weir.Wab

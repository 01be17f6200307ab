import Weir.Wab.Segment

/-!
# Crash recovery of an unsealed segment (`wab/recovery.rs`)

`recover_segment` replays a `.wab` file up to the first record that is not
whole, cuts there, writes the sentinel and a footer and renames to
`.wab.sealed`. A tail that may hold records is first copied whole into
`quarantine/`; a file without a readable header is moved there.

The replay is the reader's loop once more, with its own bookkeeping, and
`Replayed` is the invariant that carries it: the bytes up to `validEnd` are the
header and a run of storable records, and the counts and the CRC are theirs.

> `replay_keeps`: a file that starts with a header and some records is never
> cut before the end of those records.
-/

namespace Weir.Wab

open Weir.Lib List

/-! ## Quarantine -/

/-- The first candidate that an existence test reports free. -/
def firstFree (answers : Path → Except IoError Bool) :
    List Path → Except IoError (Option Path) × List (Op Path)
  | [] => (.ok none, [])
  | c :: cs =>
    match answers c with
    | .error e => (.error e, [])
    | .ok false => (.ok (some c), [.probe c false])
    | .ok true => ((firstFree answers cs).1, .probe c true :: (firstFree answers cs).2)

/-- The names a file may get in quarantine: `base`, then `base.1` up to `base.10000`. -/
def quarantineNames (dir : List String) (base : String) : List Path :=
  ⟨dir, base⟩ :: (List.range 10000).map fun n => ⟨dir, base ++ "." ++ toString (n + 1)⟩

/-- `non_clobbering_dest`. -/
def nonClobberingDest (dir : List String) (base : String) (answers : Path → Except IoError Bool) :
    Except IoError Path × List (Op Path) :=
  match firstFree answers (quarantineNames dir base) with
  | (.error e, ops) => (.error e, ops)
  | (.ok (some dest), ops) => (.ok dest, ops)
  | (.ok none, ops) =>
    (.error (IoError.new .alreadyExists ("quarantine: exhausted unique names for '" ++ base
      ++ "' in " ++ String.intercalate "/" dir)), ops)

/-- The directory quarantined files go to. -/
def quarantineDir (wabDir : List String) : List String := wabDir ++ ["quarantine"]

/-- Its own entry. -/
def quarantineEntry (wabDir : List String) : Path := ⟨wabDir, "quarantine"⟩

/-- The quarantined name of a file: its shard's name in front of its own. -/
def quarantineBase (p : Path) : String := p.dir.getLast?.getD "unknown_shard" ++ "__" ++ p.file

/-- How both quarantines begin: `create_dir_private`, which syncs nothing, then a free name
is looked for. -/
def quarantineDest (p : Path) (wabDir : List String) (mkdir : Option IoError)
    (answers : Path → Except IoError Bool) : Except IoError Path × List (Op Path) :=
  match mkdir with
  | some e => (.error e, [])
  | none =>
    match nonClobberingDest (quarantineDir wabDir) (quarantineBase p) answers with
    | (dest, tests) => (dest, .mkdir (quarantineEntry wabDir) :: tests)

/-- The outcomes of a quarantine's calls: making the directory, looking for a
free name, and the move. -/
structure QuarantineIo where
  mkdir : Option IoError
  answers : Path → Except IoError Bool
  rename : Option IoError

/-- `quarantine`: moves a file out of its shard's directory. -/
def quarantine (p : Path) (wabDir : List String) (io : QuarantineIo) :
    Except IoError Unit × List (Op Path) :=
  match quarantineDest p wabDir io.mkdir io.answers with
  | (.error e, ops) => (.error e, ops)
  | (.ok dest, ops) =>
    match io.rename with
    | some e => (.error e, ops)
    | none => (.ok (), ops ++ [.rename p dest])

/-- `quarantine_and_count`: the error a quarantined segment is reported with. -/
def quarantineAndCount (p : Path) (wabDir : List String) (io : QuarantineIo) (reason : String) :
    IoError × List (Op Path) :=
  match quarantine p wabDir io with
  | (.error e, ops) => (e, ops)
  | (.ok (), ops) => (IoError.new .invalidData (p.display ++ ": quarantined — " ++ reason), ops)

/-- The outcomes of `fs::copy` into a fresh name and of the syncs after it. -/
structure CopyIo where
  mkdir : Option IoError
  answers : Path → Except IoError Bool
  opened : Option IoError
  data : WriteAll
  fsync : Option IoError
  dirSync : Option IoError

/-- `copy_to_quarantine`, of a file that holds `file`. -/
def copyToQuarantine (p : Path) (wabDir : List String) (file : Bytes) (io : CopyIo) :
    Except IoError Path × List (Op Path) :=
  match quarantineDest p wabDir io.mkdir io.answers with
  | (.error e, ops) => (.error e, ops)
  | (.ok dest, ops) =>
    match io.opened with
    | some e => (.error e, ops)
    | none =>
      match io.data with
      | .failed n e => (.error e, ops ++ [.truncate dest, .append dest (file.take n)])
      | .ok =>
        match io.fsync with
        | some e => (.error e, ops ++ [.truncate dest, .append dest file])
        | none =>
          match fsyncParentDir dest io.dirSync with
          | (.error e, sync) =>
            (.error e, ops ++ [.truncate dest, .append dest file, .fsync dest] ++ sync)
          | (.ok (), sync) =>
            (.ok dest, ops ++ [.truncate dest, .append dest file, .fsync dest] ++ sync)

theorem firstFree_probes (answers : Path → Except IoError Bool) :
    ∀ cs : List Path, ∀ op ∈ (firstFree answers cs).2, op.IsProbe := by
  intro cs
  induction cs with
  | nil => simp [firstFree]
  | cons c cs ih =>
    unfold firstFree
    split
    · simp
    · simp [Op.IsProbe]
    intro op hop
    rcases mem_cons.mp hop with rfl | hop
    · trivial
    · exact ih op hop

/-- The name found is a candidate that was tested and free. -/
theorem firstFree_some {answers : Path → Except IoError Bool} {dest : Path} :
    ∀ {cs : List Path} {ops : List (Op Path)}, firstFree answers cs = (.ok (some dest), ops) →
      dest ∈ cs ∧ .probe dest false ∈ ops := by
  intro cs
  induction cs with
  | nil => intro ops h; exact absurd h (by simp [firstFree])
  | cons c cs ih =>
    intro ops h
    unfold firstFree at h
    split at h
    · cases h
    · simp only [Prod.mk.injEq, Except.ok.injEq, Option.some.injEq] at h
      obtain ⟨rfl, rfl⟩ := h
      exact ⟨mem_cons_self, by simp⟩
    · simp only [Prod.mk.injEq] at h
      obtain ⟨hres, rfl⟩ := h
      obtain ⟨hmem, hprobe⟩ := ih (Prod.ext hres rfl)
      exact ⟨mem_cons_of_mem _ hmem, mem_cons_of_mem _ hprobe⟩

theorem dir_of_mem_quarantineNames {dir : List String} {base : String} {q : Path}
    (h : q ∈ quarantineNames dir base) : q.dir = dir := by
  rcases mem_cons.mp h with rfl | h
  · rfl
  · obtain ⟨n, _, rfl⟩ := mem_map.mp h
    rfl

/-- Looking for a destination only tests names; the one found is free and in the
directory. -/
theorem nonClobberingDest_spec (dir : List String) (base : String)
    (answers : Path → Except IoError Bool) :
    (∀ op ∈ (nonClobberingDest dir base answers).2, op.IsProbe) ∧
    ∀ dest, (nonClobberingDest dir base answers).1 = .ok dest →
      dest.dir = dir ∧ .probe dest false ∈ (nonClobberingDest dir base answers).2 := by
  have hprobes := firstFree_probes answers (quarantineNames dir base)
  unfold nonClobberingDest
  split
  next e ops heq => rw [heq] at hprobes; exact ⟨hprobes, by simp⟩
  next dest ops heq =>
    rw [heq] at hprobes
    refine ⟨hprobes, ?_⟩
    intro dest' hdest
    cases hdest
    obtain ⟨hmem, hprobe⟩ := firstFree_some heq
    exact ⟨dir_of_mem_quarantineNames hmem, hprobe⟩
  next ops heq => rw [heq] at hprobes; exact ⟨hprobes, by simp⟩

/-- Calls that make `quarantine/` and test names, or none at all. -/
def Looks (wabDir : List String) (ops : List (Op Path)) : Prop :=
  ops = [] ∨ ∃ tests, (∀ op ∈ tests, op.IsProbe) ∧ ops = .mkdir (quarantineEntry wabDir) :: tests

variable {wabDir : List String} {ops : List (Op Path)}

theorem Looks.stopped {pre : List (Op Path)} (h : Looks wabDir ops) (hpre : pre <+: ops) :
    Looks wabDir pre := by
  rcases h with rfl | ⟨tests, htests, rfl⟩
  · exact .inl (prefix_nil.mp hpre)
  rcases List.prefix_cons_iff.mp hpre with rfl | ⟨some, rfl, hsome⟩
  · exact .inl rfl
  · exact .inr ⟨some, fun op hop => htests op (hsome.subset hop), rfl⟩

theorem Looks.mem (h : Looks wabDir ops) :
    ∀ op ∈ ops, op = .mkdir (quarantineEntry wabDir) ∨ op.IsProbe := by
  rcases h with rfl | ⟨tests, htests, rfl⟩
  · simp
  · exact forall_mem_cons.mpr ⟨.inl rfl, fun op hop => .inr (htests op hop)⟩

/-- They leave every file alone, and all of the disk where the directory is there. -/
theorem Looks.run {d d' : Disk Path} (h : Looks wabDir ops) (hd : d.Sound)
    (hrun : d.run ops = some d') :
    ((d.names.lookup (quarantineEntry wabDir)).isSome → d' = d) ∧
      (∀ p i, d.names.lookup p = some i → d'.names.lookup p = some i ∧ d'.files i = d.files i) ∧
      ∀ p, .probe p false ∈ ops → d'.names.lookup p = none := by
  rcases h with rfl | ⟨tests, htests, rfl⟩
  · cases hrun
    exact ⟨fun _ => rfl, fun p i hp => ⟨hp, rfl⟩, by simp⟩
  rw [Disk.run] at hrun
  split at hrun
  next d₁ hstep =>
    obtain ⟨rfl, htrue⟩ := Disk.run_probes htests hrun
    refine ⟨?_, ?_, fun p hp => by simpa using htrue p false (by simpa using hp)⟩ <;>
      rcases Disk.step_mkdir hstep with ⟨_, rfl⟩ | ⟨hnone, rfl⟩
    · exact fun _ => rfl
    · exact fun hsome => by simp [hnone] at hsome
    · exact fun p i hp => ⟨hp, rfl⟩
    · refine fun p i hp => Disk.newFile_frame hd ?_ hp
      rintro rfl
      cases hnone.symm.trans hp
  · cases hrun

theorem quarantineDest_spec (p : Path) (wabDir : List String) (mkdir : Option IoError)
    (answers : Path → Except IoError Bool) :
    Looks wabDir (quarantineDest p wabDir mkdir answers).2 ∧
    ∀ dest, (quarantineDest p wabDir mkdir answers).1 = .ok dest →
      dest.dir = quarantineDir wabDir ∧
        .probe dest false ∈ (quarantineDest p wabDir mkdir answers).2 := by
  obtain ⟨htests, hdest⟩ := nonClobberingDest_spec (quarantineDir wabDir) (quarantineBase p) answers
  cases mkdir with
  | some e => exact ⟨.inl rfl, nofun⟩
  | none =>
    refine ⟨.inr ⟨_, htests, rfl⟩, fun dest h => ?_⟩
    obtain ⟨hdir, hfree⟩ := hdest dest h
    exact ⟨hdir, mem_cons_of_mem _ hfree⟩

/-- A quarantine looks for a name and then, if it succeeds, moves the file to a free
one in `quarantine/`. -/
theorem quarantine_ops (p : Path) (wabDir : List String) (io : QuarantineIo) :
    ∃ look, Looks wabDir look ∧ ((∃ e, quarantine p wabDir io = (.error e, look)) ∨
      ∃ dest, dest.dir = quarantineDir wabDir ∧
        quarantine p wabDir io = (.ok (), look ++ [.rename p dest])) := by
  obtain ⟨hlook, hdest⟩ := quarantineDest_spec p wabDir io.mkdir io.answers
  unfold quarantine
  split
  next e ops heq => rw [heq] at hlook; exact ⟨ops, hlook, .inl ⟨e, rfl⟩⟩
  next dest ops heq =>
    rw [heq] at hlook hdest
    split
    next e _ => exact ⟨ops, hlook, .inl ⟨e, rfl⟩⟩
    · exact ⟨ops, hlook, .inr ⟨dest, (hdest dest rfl).1, rfl⟩⟩

/-- A copy looks for a name, then writes to a free one. -/
theorem copyToQuarantine_ops (p : Path) (wabDir : List String) (file : Bytes) (io : CopyIo) :
    ∃ look, Looks wabDir look ∧ ((copyToQuarantine p wabDir file io).2 = look ∨
      ∃ dest writes sync, dest.dir = quarantineDir wabDir ∧ .probe dest false ∈ look ∧
        (∀ op ∈ writes, op.OnFile dest) ∧ (∀ op ∈ sync, op = .syncDir dest.parent) ∧
        (copyToQuarantine p wabDir file io).2 = look ++ (.truncate dest :: writes ++ sync)) := by
  obtain ⟨hlook, hdest⟩ := quarantineDest_spec p wabDir io.mkdir io.answers
  unfold copyToQuarantine
  split
  next e ops heq => rw [heq] at hlook; exact ⟨ops, hlook, .inl rfl⟩
  next dest ops heq =>
    rw [heq] at hlook hdest
    obtain ⟨hdir, hfree⟩ := hdest dest rfl
    refine ⟨ops, hlook, ?_⟩
    split
    · exact .inl rfl
    · refine .inr ⟨dest, ?_⟩
      split
      next n e _ =>
        exact ⟨[.append dest (file.take n)], [], hdir, hfree, by simp [Op.OnFile], by simp, by simp⟩
      · split
        · exact ⟨[.append dest file], [], hdir, hfree, by simp [Op.OnFile], by simp, by simp⟩
        · refine ⟨[.append dest file, .fsync dest], (fsyncParentDir dest io.dirSync).2, hdir, hfree,
            by simp [Op.OnFile], fsyncParentDir_ops dest io.dirSync, ?_⟩
          split
          next e sync heq' => simp [heq']
          next sync heq' => simp [heq']

/-- A path in `quarantine/` lies in the directory of that entry. -/
theorem parent_quarantined {p : Path} (h : p.dir = quarantineDir wabDir) :
    p.parent = some (quarantineEntry wabDir) := by
  simp [Path.parent, h, quarantineDir, quarantineEntry]

/-- A copy that succeeded is whole and synced, and so is its directory, before anything
else. -/
theorem copyToQuarantine_ok {p dest : Path} {file : Bytes} {io : CopyIo}
    (h : copyToQuarantine p wabDir file io = (.ok dest, ops)) :
    dest.dir = quarantineDir wabDir ∧ ∃ look, Looks wabDir look ∧ .probe dest false ∈ look ∧
      ops = look ++ [.truncate dest, .append dest file, .fsync dest, .syncDir dest.parent] := by
  obtain ⟨hlook, hdest⟩ := quarantineDest_spec p wabDir io.mkdir io.answers
  unfold copyToQuarantine at h
  split at h
  · cases h
  rename_i free look heq
  rw [heq] at hlook hdest
  obtain ⟨hdir, hfree⟩ := hdest free rfl
  split at h
  · cases h
  split at h
  · cases h
  split at h
  · cases h
  split at h
  · cases h
  rename_i sync hsync
  obtain ⟨hok, hops⟩ := Prod.mk.inj h
  obtain rfl := Except.ok.inj hok
  have hne : free.dir ≠ [] := by rw [hdir]; simp [quarantineDir]
  refine ⟨hdir, look, hlook, hfree, ?_⟩
  rw [← hops, fsyncParentDir_ok hsync hne, append_assoc]
  rfl

/-! ## Replay -/

/-- The replay's bookkeeping: `validEnd` is the end of the last whole record. -/
structure Replay where
  crc : Hasher
  recordCount : Nat
  dataBytes : Nat
  validEnd : Nat

/-- Why the bytes behind `validEnd` may hold records. -/
inductive CorruptTail
  | footerContradicts (footer : SegmentFooterMeta)
  | footerUnreadable (e : IoError)
  | notASeal (trailing : Nat)
  | oversizedLength (payloadLen trailing : Nat)
  | crcMismatch (expected computed : UInt32)
  | unknownLength (e : IoError)
  deriving DecidableEq, Repr

/-- How the replay loop ended: with a tail that holds nothing, with one that may
hold records, or with a read error. -/
inductive ReplayEnd
  | clean
  | corrupt (why : CorruptTail)
  | failed (e : IoError)
  deriving DecidableEq, Repr

/-- A zero length prefix: a seal that was cut short, or corruption. -/
def judgeSentinel (file : Bytes) (fault : ReadFault) (stat : Option IoError) (st : Replay) :
    ReplayEnd :=
  match stat with
  | some e => .corrupt (.unknownLength e)
  | none =>
    let trailing := file.length - (st.validEnd + 4)
    if trailing = 0 then .clean
    else if trailing = segmentFooterLen then
      match readExact file fault (st.validEnd + 4) segmentFooterLen with
      | .error e => .corrupt (.footerUnreadable e)
      | .ok buf =>
        match parseSegmentFooter buf with
        | none =>
          .corrupt (.footerUnreadable (IoError.new .invalidData "segment footer is not 32 bytes"))
        | some footer =>
          if footer.recordCount = st.recordCount ∧ footer.dataBytes = st.dataBytes ∧
              footer.fileCrc32 = st.crc.finalize then .clean
          else .corrupt (.footerContradicts footer)
    else .corrupt (.notASeal trailing)

/-- An oversized length field: corruption when anything is behind it. -/
def judgeOversized (file : Bytes) (stat : Option IoError) (payloadLen : Nat) (st : Replay) :
    ReplayEnd :=
  match stat with
  | some e => .corrupt (.unknownLength e)
  | none =>
    if file.length > st.validEnd + 4 then
      .corrupt (.oversizedLength payloadLen (file.length - (st.validEnd + 4)))
    else .clean

/-- A read that ended the replay: at the end of the file, or with an error. -/
def ReplayEnd.ofRead (e : IoError) : ReplayEnd :=
  if e.kind = .unexpectedEof then .clean else .failed e

/-- One turn of the replay loop: it stops, or takes one whole record. -/
def replayStep (file : Bytes) (fault : ReadFault) (stat : Option IoError) (maxStored : Nat)
    (st : Replay) : ReplayEnd ⊕ Replay :=
  match readExact file fault st.validEnd 4 with
  | .error e => .inl (.ofRead e)
  | .ok lenBuf =>
    let payloadLen := leNat lenBuf
    if payloadLen = 0 then .inl (judgeSentinel file fault stat st)
    else if payloadLen > maxStored then .inl (judgeOversized file stat payloadLen st)
    else
      match readExact file fault (st.validEnd + 4) 4 with
      | .error e => .inl (.ofRead e)
      | .ok crcBuf =>
        match readExact file fault (st.validEnd + 8) payloadLen with
        | .error e => .inl (.ofRead e)
        | .ok payload =>
          let expected := UInt32.ofNat (leNat crcBuf)
          if expected ≠ crc32 payload then .inl (.corrupt (.crcMismatch expected (crc32 payload)))
          else .inr
            { crc := ((st.crc.update lenBuf).update crcBuf).update payload
              recordCount := st.recordCount + 1
              dataBytes := st.dataBytes + payloadLen
              validEnd := st.validEnd + 8 + payloadLen }

/-- The replay loop. Every turn moves `validEnd` inside the file, so the fuel
`recoverSegment` gives it is enough (`replay_stops`). -/
def replay (file : Bytes) (fault : ReadFault) (stat : Option IoError) (maxStored : Nat) :
    Nat → Replay → Replay × ReplayEnd
  | 0, st => (st, .clean)
  | fuel + 1, st =>
    match replayStep file fault stat maxStored st with
    | .inl why => (st, why)
    | .inr st' => replay file fault stat maxStored fuel st'

/-! ## Recovery -/

/-- The outcomes of `recover_segment`'s calls; `sealedAt` is the clock. -/
structure RecoverIo where
  openRead : Option IoError
  fault : ReadFault
  stat : Option IoError
  move : QuarantineIo
  copy : CopyIo
  openWrite : Option IoError
  setLen : Option IoError
  seek : Option IoError
  sentinel : WriteAll
  footer : WriteAll
  fsync : Option IoError
  rename : Option IoError
  dirSync : Option IoError
  sealedAt : Int64

/-- Every call succeeds, and every quarantine name is free. -/
def RecoverIo.calm : RecoverIo where
  openRead := none
  fault := noFault
  stat := none
  move := ⟨none, fun _ => .ok false, none⟩
  copy := ⟨none, fun _ => .ok false, none, .ok, none, none⟩
  openWrite := none
  setLen := none
  seek := none
  sentinel := .ok
  footer := .ok
  fsync := none
  rename := none
  dirSync := none
  sealedAt := 0

/-- What recovery makes of a file's first 24 bytes. -/
inductive HeaderCheck
  | failed (e : IoError)
  | bad (reason : String)
  | good (header : Bytes) (m : SegmentHeaderMeta)

def checkHeader (file : Bytes) (fault : ReadFault) : HeaderCheck :=
  match readExact file fault 0 segmentHeaderLen with
  | .error e =>
    if e.kind = .unexpectedEof then .bad "shorter than segment header" else .failed e
  | .ok header =>
    let found := slice header 0 4
    if found ≠ segmentMagic then
      .bad s!"bad magic bytes: expected {segmentMagic}, got {found}"
    else if header.getD 4 0 = 0 ∨ header.getD 4 0 > formatVersionMaxSupported then
      .bad ("unknown format version: "
        ++ s!"this build reads 1..={formatVersionMaxSupported}, got {header.getD 4 0}")
    else
      match parseSegmentHeader header with
      | .error e => .bad e.display
      | .ok m => .good header m

/-- The rewrite pass: cut at the last whole record, seal, publish. -/
def rewrite (path : Path) (st : Replay) (io : RecoverIo) : Except IoError Path × List (Op Path) :=
  let footer := buildSegmentFooter st.recordCount st.dataBytes st.crc.finalize io.sealedAt
  match io.openWrite with
  | some e => (.error e, [])
  | none =>
    match io.setLen with
    | some e => (.error e, [])
    | none =>
      match io.seek with
      | some e => (.error e, [.setLen path st.validEnd])
      | none =>
        match io.sentinel with
        | .failed n e => (.error e, [.setLen path st.validEnd, .append path (buildSentinel.take n)])
        | .ok =>
          match io.footer with
          | .failed n e =>
            (.error e, [.setLen path st.validEnd, .append path buildSentinel,
              .append path (footer.take n)])
          | .ok =>
            match io.fsync with
            | some e =>
              (.error e, [.setLen path st.validEnd, .append path buildSentinel,
                .append path footer])
            | none =>
              match io.rename with
              | some e =>
                (.error e, [.setLen path st.validEnd, .append path buildSentinel,
                  .append path footer, .fsync path])
              | none =>
                let ops := [.setLen path st.validEnd, .append path buildSentinel,
                  .append path footer, .fsync path, .rename path (sealedPathFor path)]
                match fsyncParentDir (sealedPathFor path) io.dirSync with
                | (.error e, sync) => (.error e, ops ++ sync)
                | (.ok (), sync) => (.ok (sealedPathFor path), ops ++ sync)

/-- `recover_segment`, of a `.wab` file that holds `file`. -/
def recoverSegment (path : Path) (wabDir : List String) (file : Bytes) (io : RecoverIo) :
    Except IoError Path × List (Op Path) :=
  match io.openRead with
  | some e => (.error e, [])
  | none =>
    match checkHeader file io.fault with
    | .failed e => (.error e, [])
    | .bad reason =>
      let (e, ops) := quarantineAndCount path wabDir io.move reason
      (.error e, ops)
    | .good header m =>
      match replay file io.fault io.stat m.compression.storedCap (file.length + 1)
          ⟨Hasher.new.update header, 0, 0, segmentHeaderLen⟩ with
      | (_, .failed e) => (.error e, [])
      | (st, .clean) => rewrite path st io
      | (st, .corrupt _) =>
        match copyToQuarantine path wabDir file io.copy with
        | (.error e, ops) =>
          (.error (IoError.new .other ("quarantine copy of mid-file-corrupt segment "
            ++ path.display ++ " failed (" ++ e.message
            ++ "); refusing to truncate to avoid losing acked-durable tail records")), ops)
        | (.ok _, ops) => ((rewrite path st io).1, ops ++ (rewrite path st io).2)

/-! ## What the replay keeps -/

/-- The bytes up to `validEnd` are the header and the records `ss`, and the
bookkeeping is theirs. -/
structure Replayed (file header : Bytes) (c : Compression) (ss : List Bytes) (st : Replay) :
    Prop where
  inside : st.validEnd ≤ file.length
  split : file.take st.validEnd = header ++ encodeRecords ss
  stored : ∀ s ∈ ss, StoredOk c s
  count : st.recordCount = ss.length
  data : st.dataBytes = (ss.map List.length).sum
  crc : st.crc = Hasher.new.update (header ++ encodeRecords ss)

variable {file header : Bytes} {c : Compression} {ss : List Bytes} {st : Replay} {fault : ReadFault}

/-- Taking one more record into the replay. -/
theorem Replayed.snoc (h : Replayed file header c ss st) {lenBuf crcBuf payload rest : Bytes}
    (hdrop : file.drop st.validEnd = lenBuf ++ (crcBuf ++ (payload ++ rest)))
    (henc : lenBuf ++ (crcBuf ++ payload) = encodeRecord payload) (hok : StoredOk c payload) :
    Replayed file header c (ss ++ [payload])
      { crc := ((st.crc.update lenBuf).update crcBuf).update payload
        recordCount := st.recordCount + 1
        dataBytes := st.dataBytes + payload.length
        validEnd := st.validEnd + 8 + payload.length } := by
  have hdrop' : file.drop st.validEnd = encodeRecord payload ++ rest := by
    rw [hdrop, ← henc]
    simp only [append_assoc]
  have hlen : file.length - st.validEnd = 8 + payload.length + rest.length := by
    rw [← length_drop, hdrop', length_append, encodeRecord_length]
  have hrecords : encodeRecords (ss ++ [payload]) = encodeRecords ss ++ encodeRecord payload := by
    rw [encodeRecords_append, encodeRecords_cons, encodeRecords_nil, append_nil]
  refine ⟨by dsimp only; omega, ?_, ?_, ?_, ?_, ?_⟩
  · dsimp only
    rw [add_assoc, take_add, h.split, hdrop', hrecords, append_assoc]
    congr 2
    exact take_left' (encodeRecord_length payload)
  · intro s hs
    rcases mem_append.mp hs with hs | hs
    · exact h.stored s hs
    · rw [mem_singleton.mp hs]
      exact hok
  · simp [h.count]
  · simp [h.data]
  · dsimp only
    rw [Hasher.update_append, Hasher.update_append, h.crc, Hasher.update_append, hrecords,
      henc, append_assoc]

variable {stat : Option IoError}

/-- A turn that goes on took a whole record. -/
theorem replayStep_inr {st' : Replay} (h : Replayed file header c ss st)
    (hstep : replayStep file fault stat c.storedCap st = .inr st') :
    ∃ s, Replayed file header c (ss ++ [s]) st' ∧ st'.validEnd = st.validEnd + 8 + s.length := by
  unfold replayStep at hstep
  split at hstep
  · cases hstep
  rename_i lenBuf hlenBuf
  obtain ⟨_, hlen4, hdrop0⟩ := readExact_ok hlenBuf
  dsimp only at hstep
  split at hstep
  · cases hstep
  split at hstep
  · cases hstep
  split at hstep
  · cases hstep
  rename_i crcBuf hcrcBuf
  obtain ⟨_, hcrc4, hdrop4⟩ := readExact_ok hcrcBuf
  split at hstep
  · cases hstep
  rename_i payload hpayload
  obtain ⟨_, hplen, hdrop8⟩ := readExact_ok hpayload
  split at hstep
  · cases hstep
  rename_i hmatch
  rw [hdrop4, show st.validEnd + 4 + 4 = st.validEnd + 8 by omega, hdrop8] at hdrop0
  have henc := encodeRecord_of_fields hlen4 hcrc4 hplen (Decidable.not_not.mp hmatch)
  have hok : StoredOk c payload := ⟨by omega, by omega⟩
  have hst' := Sum.inr.inj hstep
  rw [← hplen] at hst'
  exact ⟨payload, hst' ▸ h.snoc hdrop0 henc hok, by rw [← hst']⟩

/-- At a whole record the replay takes it, or stops on a read error. -/
theorem replayStep_record (fault : ReadFault) (stat : Option IoError) {s rest : Bytes}
    (h : Replayed file header c ss st) (hd : file.drop st.validEnd = encodeRecord s ++ rest)
    (hok : StoredOk c s) :
    (∃ e, replayStep file fault stat c.storedCap st = .inl (.failed e)) ∨
    ∃ st', replayStep file fault stat c.storedCap st = .inr st' ∧
      Replayed file header c (ss ++ [s]) st' ∧ file.drop st'.validEnd = rest := by
  obtain ⟨h0, h4, h8, hrest⟩ := drop_record hd
  have hinside := h.inside
  have hlen : file.length - st.validEnd = 8 + s.length + rest.length := by
    rw [← length_drop, hd, length_append, encodeRecord_length]
  have hne : ¬s.length = 0 := by have := hok.1; omega
  have hcap : ¬s.length > c.storedCap := not_lt.mpr hok.2
  have hofRead : ∀ e : IoError, e.kind ≠ .unexpectedEof → ReplayEnd.ofRead e = .failed e :=
    fun e he => if_neg he
  unfold replayStep
  rcases readExact_present fault h0 (leBytes_length 4 _) hinside with hr | ⟨e, hr, he⟩
  · rw [hr]
    dsimp only
    rw [hok.leNat_len, if_neg hne, if_neg hcap]
    rcases readExact_present fault h4 (leBytes_length 4 _) (by omega) with hr4 | ⟨e, hr4, he⟩
    · rw [hr4]
      rcases readExact_present fault h8 rfl (by omega) with hr8 | ⟨e, hr8, he⟩
      · rw [hr8]
        dsimp only
        rw [crcField, if_neg (by simp)]
        refine .inr ⟨_, rfl, h.snoc h0 ?_ hok, hrest⟩
        rw [encodeRecord, append_assoc]
      · rw [hr8]
        exact .inl ⟨e, congrArg Sum.inl (hofRead e he)⟩
    · rw [hr4]
      exact .inl ⟨e, congrArg Sum.inl (hofRead e he)⟩
  · rw [hr]
    exact .inl ⟨e, congrArg Sum.inl (hofRead e he)⟩

/-- Whatever the tail holds, the replay ends at the end of some run of whole
records that starts with those it began with. -/
theorem replay_spec (fuel : Nat) (ss : List Bytes) (st : Replay) :
    Replayed file header c ss st →
      ∃ more, Replayed file header c (ss ++ more)
        (replay file fault stat c.storedCap fuel st).1 := by
  induction fuel generalizing ss st with
  | zero => intro h; exact ⟨[], by rw [append_nil]; exact h⟩
  | succ fuel ih =>
    intro h
    unfold replay
    split
    · exact ⟨[], by rw [append_nil]; exact h⟩
    rename_i st' hstep
    obtain ⟨s, hs, _⟩ := replayStep_inr h hstep
    obtain ⟨more, hmore⟩ := ih (ss ++ [s]) st' hs
    exact ⟨s :: more, by rw [show ss ++ s :: more = (ss ++ [s]) ++ more by simp]; exact hmore⟩

/-- The replay takes every record known to be in the file, unless a read fails. -/
theorem replay_keeps (fault : ReadFault) (stat : Option IoError) {tail : Bytes} (known ss : List
    Bytes) (st : Replay) (fuel : Nat) :
    Replayed file header c ss st →
      file.drop st.validEnd = encodeRecords known ++ tail → (∀ s ∈ known, StoredOk c s) →
      known.length ≤ fuel →
      (∃ e, (replay file fault stat c.storedCap fuel st).2 = .failed e) ∨
      ∃ more, Replayed file header c (ss ++ known ++ more)
        (replay file fault stat c.storedCap fuel st).1 := by
  induction known generalizing ss st fuel with
  | nil =>
    intro h _ _ _
    rw [append_nil]
    exact .inr (replay_spec fuel ss st h)
  | cons s known ih =>
    intro h hd hok hfuel
    cases fuel with
    | zero => cases hfuel
    | succ fuel =>
      rw [encodeRecords_cons, append_assoc] at hd
      rcases replayStep_record fault stat h hd (hok s mem_cons_self) with
        ⟨e, hstep⟩ | ⟨st', hstep, h', hd'⟩
      · exact .inl ⟨e, by rw [replay, hstep]⟩
      have hrun : replay file fault stat c.storedCap (fuel + 1) st
          = replay file fault stat c.storedCap fuel st' := by
        rw [replay, hstep]
      rw [hrun, show ss ++ s :: known = (ss ++ [s]) ++ known by simp]
      exact ih (ss ++ [s]) st' fuel h' hd' (fun t ht => hok t (mem_cons_of_mem _ ht))
        (Nat.le_of_succ_le_succ hfuel)

/-- With fuel for the whole file, the loop ends in a turn that stops. -/
theorem replay_stops (fault : ReadFault) (stat : Option IoError) (fuel : Nat) (ss : List Bytes) (st
    : Replay) :
    Replayed file header c ss st →
      file.length < fuel + st.validEnd →
      replayStep file fault stat c.storedCap (replay file fault stat c.storedCap fuel st).1
        = .inl (replay file fault stat c.storedCap fuel st).2 := by
  induction fuel generalizing ss st with
  | zero => intro h hf; have := h.inside; omega
  | succ fuel ih =>
    intro h hf
    rw [replay]
    split
    next why hstep => exact hstep
    next st' hstep =>
      obtain ⟨s, hs, hend⟩ := replayStep_inr h hstep
      exact ih (ss ++ [s]) st' hs (by omega)

/-! ## Where the replay ends -/

/-- `ss` is the longest run of storable records that `body` starts with. -/
structure Longest (c : Compression) (body : Bytes) (ss : List Bytes) : Prop where
  stored : ∀ s ∈ ss, StoredOk c s
  starts : encodeRecords ss <+: body
  most : ∀ more : List Bytes, (∀ s ∈ more, StoredOk c s) → encodeRecords more <+: body → more <+: ss

theorem Longest.unique {body : Bytes} {ss' : List Bytes} (h : Longest c body ss)
    (h' : Longest c body ss') : ss = ss' :=
  (h'.most ss h.stored h.starts).eq_of_length_le (h.most ss' h'.stored h'.starts).length_le

/-- Where the replay stopped: behind the longest run of records. -/
structure Stopped (file header : Bytes) (c : Compression) (fault : ReadFault)
    (stat : Option IoError) (ss : List Bytes) (st : Replay) (why : ReplayEnd) : Prop
    extends Replayed file header c ss st where
  longest : Longest c (file.drop segmentHeaderLen) ss
  stops : replayStep file fault stat c.storedCap st = .inl why

variable {m : SegmentHeaderMeta} {why : ReplayEnd}

theorem Replayed.start (hp : parseSegmentHeader (file.take segmentHeaderLen) = .ok m) :
    Replayed file (file.take segmentHeaderLen) m.compression []
      ⟨Hasher.new.update (file.take segmentHeaderLen), 0, 0, segmentHeaderLen⟩ := by
  have hlen := parseSegmentHeader_length hp
  rw [length_take] at hlen
  exact ⟨by dsimp only; omega, by simp, by simp, rfl, rfl, by simp⟩

theorem replay_stopped (hp : parseSegmentHeader (file.take segmentHeaderLen) = .ok m)
    (hreplay : replay file fault stat m.compression.storedCap (file.length + 1)
      ⟨Hasher.new.update (file.take segmentHeaderLen), 0, 0, segmentHeaderLen⟩ = (st, why))
    (hwhy : ∀ e, why ≠ .failed e) :
    ∃ ss, Stopped file (file.take segmentHeaderLen) m.compression fault stat ss st why := by
  have hstart := Replayed.start hp
  have hstops := replay_stops fault stat (file.length + 1) [] _ hstart (by dsimp only; omega)
  rw [hreplay] at hstops
  -- every run of records the file starts with is part of what the replay took
  have htakes : ∀ more : List Bytes, (∀ s ∈ more, StoredOk m.compression s) →
      encodeRecords more <+: file.drop segmentHeaderLen →
      ∃ others, Replayed file (file.take segmentHeaderLen) m.compression (more ++ others) st := by
    rintro more hmore ⟨rest, hrest⟩
    have hfuel : more.length ≤ file.length + 1 := by
      have hcount := length_le_encodeRecords more
      have hsize := congrArg length hrest
      rw [length_append, length_drop] at hsize
      omega
    rcases replay_keeps fault stat more [] _ _ hstart hrest.symm hmore hfuel with ⟨e, he⟩ | ⟨others,
      hothers⟩
    · rw [hreplay] at he
      exact absurd he (hwhy e)
    · rw [hreplay] at hothers
      exact ⟨others, hothers⟩
  obtain ⟨ss, hss⟩ := htakes [] (by simp) nil_prefix
  rw [nil_append] at hss
  have hsplit : file.take segmentHeaderLen ++ encodeRecords ss
      <+: file.take segmentHeaderLen ++ file.drop segmentHeaderLen := by
    rw [← hss.split, take_append_drop]
    exact take_prefix ..
  refine ⟨ss, hss, ⟨hss.stored, (prefix_append_right_inj _).mp hsplit, ?_⟩, hstops⟩
  intro more hmore hstarts
  obtain ⟨others, hothers⟩ := htakes more hmore hstarts
  have henc : encodeRecords ss = encodeRecords (more ++ others) :=
    append_cancel_left (hss.split.symm.trans hothers.split)
  rw [encodeRecords_inj hss.stored hothers.stored henc]
  exact prefix_append ..

/-- The header check passes on the first 24 bytes, parsed. -/
theorem checkHeader_good (h : checkHeader file fault = .good header m) :
    header = file.take segmentHeaderLen ∧ parseSegmentHeader header = .ok m := by
  unfold checkHeader at h
  split at h
  · split at h <;> cases h
  rename_i buf hread
  dsimp only at h
  split at h
  · cases h
  split at h
  · cases h
  split at h
  · cases h
  rename_i m' hp
  obtain ⟨rfl, rfl⟩ := h
  obtain ⟨_, hlen, hfile⟩ := readExact_ok hread
  rw [drop_zero] at hfile
  exact ⟨by rw [hfile, take_left' hlen], hp⟩

/-- What `recover_segment` can come to, as its result and its operations. -/
inductive Recovers (path : Path) (wabDir : List String) (file : Bytes) (io : RecoverIo) :
    Except IoError Path × List (Op Path) → Prop
  | unread (e : IoError) : Recovers path wabDir file io (.error e, [])
  | headless {reason : String} (hbad : checkHeader file io.fault = .bad reason) :
      Recovers path wabDir file io (.error (quarantineAndCount path wabDir io.move reason).1,
        (quarantineAndCount path wabDir io.move reason).2)
  | clean {m : SegmentHeaderMeta} {ss : List Bytes} {st : Replay}
      (hp : parseSegmentHeader (file.take segmentHeaderLen) = .ok m)
      (hstopped : Stopped file (file.take segmentHeaderLen) m.compression io.fault io.stat ss st
        .clean) : Recovers path wabDir file io (rewrite path st io)
  | corrupt {m : SegmentHeaderMeta} {ss : List Bytes} {st : Replay} {why : CorruptTail}
      {r : Except IoError Path} {ops rest : List (Op Path)}
      (hp : parseSegmentHeader (file.take segmentHeaderLen) = .ok m)
      (hstopped : Stopped file (file.take segmentHeaderLen) m.compression io.fault io.stat ss st
        (.corrupt why))
      (hcopy : (copyToQuarantine path wabDir file io.copy).2 = ops)
      (hrest : (∃ e, r = .error e) ∧ rest = [] ∨
        (∃ dest, copyToQuarantine path wabDir file io.copy = (.ok dest, ops)) ∧
          r = (rewrite path st io).1 ∧ rest = (rewrite path st io).2) :
      Recovers path wabDir file io (r, ops ++ rest)

theorem recoverSegment_recovers (path : Path) (wabDir : List String) (file : Bytes)
    (io : RecoverIo) : Recovers path wabDir file io (recoverSegment path wabDir file io) := by
  unfold recoverSegment
  split
  · exact .unread _
  split
  · exact .unread _
  next reason hbad => exact .headless hbad
  next header m hgood =>
    obtain ⟨rfl, hp⟩ := checkHeader_good hgood
    split
    · exact .unread _
    next st hreplay =>
      obtain ⟨ss, hstopped⟩ := replay_stopped hp hreplay (by simp)
      exact .clean hp hstopped
    next st why hreplay =>
      obtain ⟨ss, hstopped⟩ := replay_stopped hp hreplay (by simp)
      split
      next e ops hcopy =>
        rw [← append_nil ops]
        exact .corrupt hp hstopped (by rw [hcopy]) (.inl ⟨⟨_, rfl⟩, rfl⟩)
      next dest ops hcopy =>
        exact .corrupt hp hstopped (by rw [hcopy]) (.inr ⟨⟨dest, hcopy⟩, rfl, rfl⟩)

end Weir.Wab

import Mathlib.Data.List.Sort
import Mathlib.Data.String.Basic
import Weir.Attest.Verify
import Weir.Lock.Record

/-!
# `attest seal` and `attest verify` (`weir-ctl/src/attest.rs`)

`seal` goes through the sealed segments of a shard in the order of their names and chains
each from the head of the one before it. `verify` goes through them in the same order,
checks each against its own sidecar, and carries the head that the next sidecar has to
start from: the one in the sidecar, or, without a sidecar, the one recomputed from the
head carried so far. Before the first sidecar there is none to recompute from.

> `seal_attested`: what `seal` leaves is a chain.

> `attested_tampering_reported`: with the newest sidecar in place, a segment that was
> changed is reported if it, or one before it, still has a sidecar.
-/

namespace Weir.Ctl

open Weir.Lib Weir.Wab Weir.Attest List

/-- The name of a directory entry. -/
@[ext]
structure FileName where
  text : String
  text_le : text.utf8ByteSize ≤ 3 * 255
  deriving DecidableEq

variable {a b : FileName} {names : List FileName} {p : SegmentPath}
  {records : List Bytes} {name : String} {S : Set Bytes} {filter : Option UInt16}

/-- Paths of one directory sort as their names do. -/
def FileName.le (a b : FileName) : Prop := a.text.toList ≤ b.text.toList

instance : DecidableRel FileName.le := fun a b =>
  inferInstanceAs (Decidable (a.text.toList ≤ b.text.toList))

instance : Std.Total FileName.le := ⟨fun a b => le_total a.text.toList b.text.toList⟩

instance : IsTrans FileName FileName.le := ⟨fun _ _ _ hab hbc => le_trans hab hbc⟩

instance : Std.Antisymm FileName.le :=
  ⟨fun _ _ hab hba => FileName.ext (String.toList_inj.mp (le_antisymm hab hba))⟩

/-- A shard directory as a command finds it: its entries, which are distinct, what opening one of
them as a segment gives, and whether it has a sidecar and what reading that gives. -/
structure ShardDir where
  listing : Except IoError (List FileName)
  segment : FileName → Except IoError SegmentFile
  sidecar : FileName → Option (Except IoError Bytes)
  nodup : ∀ names, listing = .ok names → names.Nodup

/-- The WAB directory: its entries, each with whether it is a directory, and the shards. -/
structure WabDir where
  path : String
  listing : Except IoError (List (FileName × Bool))
  shard : FileName → ShardDir

/-- The segment `file` of the shard directory `shard`. -/
def segmentIn (shard file : FileName) : SegmentPath :=
  ⟨⟨[shard.text], file.text⟩, by simpa using shard.text_le, file.text_le⟩

/-- `shard_id_from_dir_name`. -/
def shardIdFromDirName (name : FileName) : Option Nat :=
  (stripPrefix "shard_" name.text).bind fun rest => Lock.parseUnsigned (2 ^ 64) rest.toList

/-- The order of `Option<usize>`. -/
def idLe : Option Nat → Option Nat → Bool
  | none, _ => true
  | some _, none => false
  | some a, some b => a ≤ b

/-- `shard_{id:02}`. -/
def shardDirText (id : UInt16) : String :=
  let digits := Nat.toDigits 10 id.toNat
  "shard_" ++ String.ofList (replicate (2 - digits.length) '0' ++ digits)

theorem utf8ByteSize_ofList_le (cs : List Char) :
    (String.ofList cs).utf8ByteSize ≤ 4 * cs.length := by
  induction cs with
  | nil => decide
  | cons c cs ih =>
    have hsize := c.utf8Size_le_four
    rw [String.ofList_cons, String.utf8ByteSize_append, String.utf8ByteSize_singleton,
      length_cons]
    omega

theorem shardDirText_le (id : UInt16) : (shardDirText id).utf8ByteSize ≤ 3 * 255 := by
  have hlen : (Nat.toDigits 10 id.toNat).length ≤ 5 :=
    Nat.toDigits_length 10 id.toNat 5 (by decide) (lt_trans id.toNat_lt (by decide))
  have hsize := utf8ByteSize_ofList_le (replicate (2 - (Nat.toDigits 10 id.toNat).length) '0'
    ++ Nat.toDigits 10 id.toNat)
  rw [length_append, length_replicate] at hsize
  have hshard : ("shard_" : String).utf8ByteSize = 6 := by decide
  rw [shardDirText, String.utf8ByteSize_append, hshard]
  omega

def shardDirName (id : UInt16) : FileName := ⟨shardDirText id, shardDirText_le id⟩

/-- `shard_dirs`. -/
def shardDirs (wab : WabDir) : Option UInt16 → Except String (List FileName)
  | some id => .ok [shardDirName id]
  | none =>
    match wab.listing with
    | .error e => .error ("read " ++ wab.path ++ ": " ++ e.message)
    | .ok entries =>
      let dirs := (entries.filter fun entry =>
        entry.2 && entry.1.text ≠ "dead_letter" && entry.1.text ≠ "quarantine").map Prod.fst
      .ok (dirs.insertionSort fun a b => idLe (shardIdFromDirName a) (shardIdFromDirName b))

/-- The names that `list_segment_files` tags as sealed. -/
def isSealedName (name : FileName) : Bool :=
  !extConfirmed.toList.isSuffixOf name.text.toList && extSealed.toList.isSuffixOf name.text.toList

/-- `sealed_segments_in`. -/
def sealedSegmentsIn (wab : WabDir) (shard : FileName) : Except String (List FileName) :=
  match (wab.shard shard).listing with
  | .error e => .error ("read " ++ wab.path ++ "/" ++ shard.text ++ ": " ++ e.message)
  | .ok names => .ok ((names.insertionSort FileName.le).filter isSealedName)

/-! ## `attest seal` -/

/-- The loop of `cmd_attest_seal` over the segments of a shard: the sidecars it has written, and
the error that ended it. `write` is what `write_sidecar_durably` comes back with. -/
def sealSegments (z : Zstd) (d : Digest) (wab : WabDir) (shard : FileName)
    (write : FileName → Except String Unit) :
    List FileName → ChainHead → List (FileName × Sidecar) × Except String Unit
  | [], _ => ([], .ok ())
  | file :: files, prev =>
    let path := wab.path ++ "/" ++ shard.text ++ "/" ++ file.text
    match (wab.shard shard).sidecar file with
    | some (.error e) => ([], .error ("read " ++ path ++ ".attest: " ++ e.message))
    | some (.ok bytes) =>
      match Sidecar.decode bytes with
      | .error e => ([], .error ("decode " ++ path ++ ".attest: " ++ e.display))
      | .ok sidecar => sealSegments z d wab shard write files sidecar.head
    | none =>
      match chainSegment z d (segmentIn shard file) ((wab.shard shard).segment file) prev with
      | .error e => ([], .error ("chain " ++ path ++ ": " ++ e.display))
      | .ok sidecar =>
        match write file with
        | .error e => ([], .error e)
        | .ok () =>
          let rest := sealSegments z d wab shard write files sidecar.head
          ((file, sidecar) :: rest.1, rest.2)

/-! ## `attest verify` -/

structure DivergedEntry where
  segment : String
  atRecord : Option Nat
  expected : ChainHead
  actual : ChainHead

structure BrokenLinkEntry where
  segment : String
  expected : ChainHead
  actual : ChainHead

/-- What `cmd_attest_verify` counts and collects. -/
structure VerifyReport where
  segmentsTotal : Nat
  verified : Nat
  chainOrigins : Nat
  diverged : List DivergedEntry
  brokenLinks : List BrokenLinkEntry
  missingSidecar : List String
  errors : List String

def VerifyReport.start : VerifyReport := ⟨0, 0, 0, [], [], [], []⟩

/-- `read_sidecar`. -/
def readSidecar (dir : ShardDir) (file : FileName) : Option Sidecar :=
  match dir.sidecar file with
  | some (.ok bytes) => (Sidecar.decode bytes).toOption
  | _ => none

/-- The head the next segment has to start from, and the error of a segment without a sidecar that
cannot be chained. -/
def advance (z : Zstd) (d : Digest) (shard : FileName) (dir : ShardDir)
    (expected : Option ChainHead) (file : FileName) : Option ChainHead × List String :=
  match readSidecar dir file, expected with
  | some sidecar, _ => (some sidecar.head, [])
  | none, some prev =>
    match chainSegment z d (segmentIn shard file) (dir.segment file) prev with
    | .ok recomputed => (some recomputed.head, [])
    | .error e => (none, [(segmentIn shard file).name ++ ": " ++ e.display])
  | none, none => (none, [])

/-- The link between a sidecar and the head carried so far. -/
def brokenLink (name : String) (expected : Option ChainHead) (decoded : Option Sidecar) :
    List BrokenLinkEntry :=
  match expected, decoded with
  | some expected, some sidecar =>
    if sidecar.prevHead ≠ .origin ∧ sidecar.prevHead ≠ expected then
      [⟨name, expected, sidecar.prevHead⟩]
    else []
  | _, _ => []

/-- The verdict on one segment, into the report. -/
def VerifyReport.judge (r : VerifyReport) (name : String) :
    Except AttestError Verdict → VerifyReport
  | .ok .verified => { r with verified := r.verified + 1 }
  | .ok (.diverged atRecord expected actual) =>
    { r with diverged := r.diverged ++ [⟨name, atRecord, expected, actual⟩] }
  | .ok .missingSidecar => { r with missingSidecar := r.missingSidecar ++ [name] }
  | .error e => { r with errors := r.errors ++ [name ++ ": " ++ e.display] }

/-- One turn of the loop over the segments of a shard. -/
def verifyTurn (z : Zstd) (d : Digest) (shard : FileName) (dir : ShardDir)
    (st : Option ChainHead × VerifyReport) (file : FileName) : Option ChainHead × VerifyReport :=
  let name := (segmentIn shard file).name
  let decoded := readSidecar dir file
  let isOrigin : Bool := st.1 = none || decoded.map (·.prevHead) = some .origin
  let next := advance z d shard dir st.1 file
  let report := { st.2 with
    segmentsTotal := st.2.segmentsTotal + 1
    chainOrigins := st.2.chainOrigins + isOrigin.toNat
    brokenLinks := st.2.brokenLinks ++ brokenLink name st.1 decoded
    errors := st.2.errors ++ next.2 }
  (next.1, report.judge name
    (verifySegment z d (segmentIn shard file) (dir.sidecar file) (dir.segment file)))

/-- The loop over the segments of one shard, and the error of a shard that cannot be listed. -/
def verifyShard (z : Zstd) (d : Digest) (wab : WabDir) (r : VerifyReport) (shard : FileName) :
    VerifyReport :=
  match sealedSegmentsIn wab shard with
  | .error e => { r with errors := r.errors ++ [e] }
  | .ok files => (files.foldl (verifyTurn z d shard (wab.shard shard)) (none, r)).2

/-- `cmd_attest_verify`: what it reports. `metrics` is what writing the metrics file came back with,
if there was one to write. -/
def cmdAttestVerify (z : Zstd) (d : Digest) (wab : WabDir) (shard : Option UInt16)
    (metrics : Option (Except String Unit)) : VerifyReport :=
  let report := match shardDirs wab shard with
    | .error e => { VerifyReport.start with errors := [e] }
    | .ok dirs => dirs.foldl (verifyShard z d wab) .start
  match metrics with
  | some (.error e) => { report with errors := report.errors ++ ["metrics file: " ++ e] }
  | _ => report

/-- The exit code of `cmd_attest_verify`. -/
def VerifyReport.exitCode (r : VerifyReport) : Nat :=
  if r.errors ≠ [] then 2
  else if r.diverged ≠ [] ∨ r.brokenLinks ≠ [] then 1
  else 0

/-! ## What was chained -/

/-- A segment as it was chained, and its sidecar. -/
structure Original where
  file : FileName
  content : SegmentFile
  header : SegmentHeaderMeta
  records : List Bytes
  sidecar : Sidecar

/-- The segments of a shard, each chained from the head of the one before it. -/
inductive Chained (z : Zstd) (d : Digest) (shard : FileName) : ChainHead → List Original → Prop
  | nil {head : ChainHead} : Chained z d shard head []
  | cons {head : ChainHead} {o : Original} {os : List Original}
      (hchain : chainSegment z d (segmentIn shard o.file) (.ok o.content) head = .ok o.sidecar)
      (hreads : Reads z o.content o.header o.records)
      (hrest : Chained z d shard o.sidecar.head os) :
      Chained z d shard head (o :: os)

/-- The head after a run of segments. -/
def headAfter (head : ChainHead) (os : List Original) : ChainHead :=
  os.foldl (fun _ o => o.sidecar.head) head

/-- What was hashed for a run of segments. -/
def chainedInputs (d : Digest) (shard : FileName) : ChainHead → List Original → List Bytes
  | _, [] => []
  | head, o :: os => segmentInputs d head o.header (segmentIn shard o.file).name o.records
    ++ chainedInputs d shard o.sidecar.head os

variable {z : Zstd} {d : Digest} {shard : FileName}

theorem headAfter_concat (head : ChainHead) (os : List Original) (o : Original) :
    headAfter head (os ++ [o]) = o.sidecar.head := by
  rw [headAfter, foldl_append]
  rfl

theorem chainedInputs_append (more : List Original) (os : List Original) (head : ChainHead) :
    chainedInputs d shard head (os ++ more)
      = chainedInputs d shard head os ++ chainedInputs d shard (headAfter head os) more := by
  induction os generalizing head with
  | nil => rfl
  | cons o os ih =>
    rw [cons_append, chainedInputs, ih, chainedInputs, append_assoc]
    rfl

variable {head : ChainHead} {os more : List Original}

theorem Chained.append (h : Chained z d shard head os)
    (hmore : Chained z d shard (headAfter head os) more) : Chained z d shard head (os ++ more) := by
  induction h with
  | nil => exact hmore
  | cons hchain hreads _ ih => exact .cons hchain hreads (ih hmore)

theorem Chained.split (h : Chained z d shard head (os ++ more)) :
    Chained z d shard head os ∧ Chained z d shard (headAfter head os) more := by
  induction os generalizing head with
  | nil => exact ⟨.nil, h⟩
  | cons o os ih =>
    cases h with
    | cons hchain hreads hrest => exact ⟨.cons hchain hreads (ih hrest).1, (ih hrest).2⟩

/-- What the last sidecar of a chain says. -/
theorem Chained.last {o : Original} (h : Chained z d shard head (os ++ [o])) :
    o.sidecar.prevHead = headAfter head os ∧
    o.sidecar.head = segmentHead d (headAfter head os) o.header (segmentIn shard o.file).name
      o.records ∧
    Sidecar.decode o.sidecar.encode = .ok o.sidecar := by
  cases h.split.2 with
  | cons hchain hreads _ =>
    obtain ⟨f, m, records, hf, hreads', hprev, hhead, -, hdecode⟩ := chainSegment_ok hchain
    cases hf
    obtain ⟨rfl, rfl⟩ := hreads.unique hreads'
    exact ⟨hprev, hhead, hdecode⟩

variable {wab : WabDir} {write : FileName → Except String Unit}

/-- `seal` chains the segments that have no sidecar one after the other, up to the error that ends
it. -/
theorem sealSegments_fresh (write : FileName → Except String Unit) (head : ChainHead)
    (hnames : ∀ f ∈ names, (wab.shard shard).sidecar f = none) :
    ∃ new rest, Chained z d shard head new ∧ names = new.map Original.file ++ rest ∧
      ((sealSegments z d wab shard write names head).2 = .ok () → rest = []) ∧
      ((sealSegments z d wab shard write names head).1 = new.map fun o => (o.file, o.sidecar)) ∧
      ∀ o ∈ new, (wab.shard shard).segment o.file = .ok o.content := by
  induction names generalizing head with
  | nil => exact ⟨[], [], .nil, rfl, fun _ => rfl, rfl, by simp⟩
  | cons file names ih =>
    rw [sealSegments, hnames file mem_cons_self]
    dsimp only
    split
    · exact ⟨[], file :: names, .nil, rfl, nofun, rfl, by simp⟩
    next sidecar hchain =>
      split
      · exact ⟨[], file :: names, .nil, rfl, nofun, rfl, by simp⟩
      obtain ⟨f, m, records, hf, hreads, -⟩ := chainSegment_ok hchain
      obtain ⟨new, rest, hnew, hsplit, hcomplete, hwritten, hcontent⟩ := ih sidecar.head
        fun f hf => hnames f (mem_cons_of_mem _ hf)
      exact ⟨⟨file, f, m, records, sidecar⟩ :: new, rest, .cons (hf ▸ hchain) hreads hnew,
        congrArg (cons file) hsplit, hcomplete, congrArg (cons (file, sidecar)) hwritten,
        List.forall_mem_cons.mpr ⟨hf, hcontent⟩⟩

variable {written : List (FileName × Sidecar)}

/-- `seal` takes the heads from the sidecars that are there, unless one cannot be read. -/
theorem sealSegments_resumes (names : List FileName) (head : ChainHead)
    (hsidecars : ∀ o ∈ os, ∃ r, (wab.shard shard).sidecar o.file = some r ∧
      ∀ bytes, r = .ok bytes → Sidecar.decode bytes = .ok o.sidecar) :
    (∃ e, sealSegments z d wab shard write (os.map Original.file ++ names) head
      = ([], .error e)) ∨
    sealSegments z d wab shard write (os.map Original.file ++ names) head
      = sealSegments z d wab shard write names (headAfter head os) := by
  induction os generalizing head with
  | nil => exact .inr rfl
  | cons o os ih =>
    obtain ⟨r, hr, hdecode⟩ := hsidecars o mem_cons_self
    rw [map_cons, cons_append, sealSegments]
    rw [hr]
    cases r with
    | error e => exact .inl ⟨_, rfl⟩
    | ok bytes =>
      dsimp only
      rw [hdecode bytes rfl]
      exact ih o.sidecar.head fun o' ho' => hsidecars o' (mem_cons_of_mem _ ho')

theorem Chained.decodes (h : Chained z d shard head os) :
    ∀ o ∈ os, Sidecar.decode o.sidecar.encode = .ok o.sidecar := by
  induction h with
  | nil => simp
  | cons hchain _ _ ih =>
    obtain ⟨_, _, _, _, _, _, _, _, hdecode⟩ := chainSegment_ok hchain
    exact List.forall_mem_cons.mpr ⟨hdecode, ih⟩

/-! ## A clean run -/

/-- Nothing that moves the exit code. -/
structure VerifyReport.Clean (r : VerifyReport) : Prop where
  errors : r.errors = []
  diverged : r.diverged = []
  brokenLinks : r.brokenLinks = []

variable {r : VerifyReport}

theorem VerifyReport.clean_of_exitCode (h : r.exitCode = 0) : r.Clean := by
  unfold exitCode at h
  split at h
  · cases h
  rename_i herrors
  split at h
  · cases h
  rename_i hnone
  rw [not_or] at hnone
  exact ⟨Decidable.not_not.mp herrors, Decidable.not_not.mp hnone.1,
    Decidable.not_not.mp hnone.2⟩

theorem VerifyReport.Clean.exitCode (h : r.Clean) : r.exitCode = 0 := by
  rw [VerifyReport.exitCode, if_neg (not_not_intro h.errors), if_neg]
  exact not_or.mpr ⟨not_not_intro h.diverged, not_not_intro h.brokenLinks⟩

/-- What is hashed to chain a segment that can be read. -/
def hashedFor (z : Zstd) (d : Digest) (p : SegmentPath) (segment : Except IoError SegmentFile)
    (prev : ChainHead) : List Bytes :=
  match segment with
  | .error _ => []
  | .ok f =>
    match readRecords z f with
    | some (m, records) => segmentInputs d prev m p.name records
    | none => []

/-- What a turn hashes: the chain from the head in the sidecar, or from the one carried so far. -/
def turnInputs (z : Zstd) (d : Digest) (shard : FileName) (dir : ShardDir)
    (expected : Option ChainHead) (file : FileName) : List Bytes :=
  match readSidecar dir file, expected with
  | some sidecar, _ => hashedFor z d (segmentIn shard file) (dir.segment file) sidecar.prevHead
  | none, some prev => hashedFor z d (segmentIn shard file) (dir.segment file) prev
  | none, none => []

/-- What a walk over segments hashes. -/
def walkInputs (z : Zstd) (d : Digest) (shard : FileName) (dir : ShardDir) :
    Option ChainHead → List FileName → List Bytes
  | _, [] => []
  | expected, file :: files => turnInputs z d shard dir expected file
    ++ walkInputs z d shard dir (advance z d shard dir expected file).1 files

/-- The head that is carried behind a run of segments. -/
def expectedAfter (z : Zstd) (d : Digest) (shard : FileName) (dir : ShardDir)
    (expected : Option ChainHead) (files : List FileName) : Option ChainHead :=
  files.foldl (fun e file => (advance z d shard dir e file).1) expected

/-- A turn that reports nothing. A sidecar that is there decodes, and its head is carried on. A head
that is carried on is that of the segment as it is, chained from the head carried so far, or where
there was none or the sidecar declares an origin, from the one in the sidecar. -/
structure Turn (z : Zstd) (d : Digest) (shard : FileName) (dir : ShardDir) (e : Option ChainHead)
    (file : FileName) (e' : Option ChainHead) : Prop where
  unchained : e' = none → dir.sidecar file = none ∧ e = none
  decoded : ∀ r, dir.sidecar file = some r → ∃ bytes sidecar, r = .ok bytes ∧
    Sidecar.decode bytes = .ok sidecar ∧ e' = some sidecar.head
  linked : ∀ head, e' = some head → ∃ prev f m records, dir.segment file = .ok f ∧
    Reads z f m records ∧ head = segmentHead d prev m (segmentIn shard file).name records ∧
    segmentInputs d prev m (segmentIn shard file).name records = turnInputs z d shard dir e file ∧
    (e = some prev ∨ e = none ∨ prev = .origin)

variable {dir : ShardDir} {file : FileName} {sidecar : Sidecar}

theorem advance_sidecar (h : readSidecar dir file = some sidecar) (e : Option ChainHead) :
    advance z d shard dir e file = (some sidecar.head, []) := by
  unfold advance
  rw [h]

theorem advance_none (h : readSidecar dir file = none) :
    advance z d shard dir none file = (none, []) := by
  unfold advance
  rw [h]

theorem turnInputs_sidecar (h : readSidecar dir file = some sidecar) (e : Option ChainHead) :
    turnInputs z d shard dir e file
      = hashedFor z d (segmentIn shard file) (dir.segment file) sidecar.prevHead := by
  unfold turnInputs
  rw [h]

theorem hashedFor_reads {f : SegmentFile} {m : SegmentHeaderMeta} (h : Reads z f m records)
    (prev : ChainHead) :
    hashedFor z d p (.ok f) prev = segmentInputs d prev m p.name records := by
  rw [hashedFor, h.readRecords]

/-- A verdict that is reported as nothing: there is no sidecar, or it decodes and is that of the
segment. -/
theorem judge_clean {sidecarFile : Option (Except IoError Bytes)}
    {segment : Except IoError SegmentFile}
    (h : (r.judge name (verifySegment z d p sidecarFile segment)).Clean) :
    r.Clean ∧ (sidecarFile = none ∨ ∃ bytes sidecar f m records, sidecarFile = some (.ok bytes) ∧
      Sidecar.decode bytes = .ok sidecar ∧ segment = .ok f ∧ Reads z f m records ∧
      sidecar.head = segmentHead d sidecar.prevHead m p.name records) := by
  cases hverdict : verifySegment z d p sidecarFile segment with
  | error e =>
    rw [hverdict] at h
    exact absurd h.errors (by simp [VerifyReport.judge])
  | ok verdict =>
    rw [hverdict] at h
    have hinv := verifySegment_inv hverdict
    cases verdict with
    | verified =>
      refine ⟨⟨h.errors, h.diverged, h.brokenLinks⟩, .inr ?_⟩
      rcases hinv with ⟨-, hmissing⟩ | ⟨bytes, sidecar, f, m, records, hs, hd, hf, hreads, hhead, -⟩
      · cases hmissing
      · exact ⟨bytes, sidecar, f, m, records, hs, hd, hf, hreads, hhead rfl⟩
    | diverged atRecord expected actual =>
      exact absurd h.diverged (by simp [VerifyReport.judge])
    | missingSidecar =>
      refine ⟨⟨h.errors, h.diverged, h.brokenLinks⟩, .inl ?_⟩
      rcases hinv with ⟨hnone, -⟩ | ⟨_, _, _, _, _, _, _, _, _, _, hne⟩
      · exact hnone
      · exact absurd rfl hne

/-- A link that is not reported. -/
theorem brokenLink_nil {e : Option ChainHead} (h : brokenLink name e (some sidecar) = []) :
    e = some sidecar.prevHead ∨ e = none ∨ sidecar.prevHead = .origin := by
  cases e with
  | none => exact .inr (.inl rfl)
  | some expected =>
    unfold brokenLink at h
    dsimp only at h
    split at h
    · cases h
    rename_i hgood
    by_cases horigin : sidecar.prevHead = .origin
    · exact .inr (.inr horigin)
    · by_cases hsame : sidecar.prevHead = expected
      · exact .inl (by rw [hsame])
      · exact absurd ⟨horigin, hsame⟩ hgood

theorem verifyTurn_clean {st : Option ChainHead × VerifyReport}
    (h : (verifyTurn z d shard dir st file).2.Clean) :
    st.2.Clean ∧ Turn z d shard dir st.1 file (advance z d shard dir st.1 file).1 := by
  obtain ⟨hbefore, hverdict⟩ := judge_clean h
  obtain ⟨herrors, hadvance⟩ := append_eq_nil_iff.mp hbefore.errors
  obtain ⟨hbroken, hlink⟩ := append_eq_nil_iff.mp hbefore.brokenLinks
  refine ⟨⟨herrors, hbefore.diverged, hbroken⟩, ?_⟩
  rcases hverdict with hnone | ⟨bytes, sidecar, f, m, records, hs, hdecode, hf, hreads, hhead⟩
  · have hread : readSidecar dir file = none := by rw [readSidecar, hnone]
    have hunread : ∀ r, dir.sidecar file ≠ some r := fun r => by rw [hnone]; simp
    cases hexpected : st.1 with
    | none =>
      rw [advance_none hread]
      exact ⟨fun _ => ⟨hnone, rfl⟩, fun r hr => absurd hr (hunread r), by simp⟩
    | some prev =>
      rw [hexpected] at hadvance
      unfold advance at hadvance ⊢
      rw [hread] at hadvance ⊢
      dsimp only at hadvance ⊢
      split at hadvance
      next recomputed hchain =>
        obtain ⟨f, m, records, hf, hreads, -, hhead, -⟩ := chainSegment_ok hchain
        refine ⟨by simp, fun r hr => absurd hr (hunread r), fun head heq => ?_⟩
        cases heq
        refine ⟨prev, f, m, records, hf, hreads, hhead, ?_, .inl rfl⟩
        unfold turnInputs
        rw [hread, hf]
        exact (hashedFor_reads hreads prev).symm
      · cases hadvance
  · have hread : readSidecar dir file = some sidecar := by
      rw [readSidecar, hs]
      dsimp only
      rw [hdecode]
      rfl
    rw [advance_sidecar hread]
    refine ⟨by simp, fun r hr => ?_, fun head heq => ?_⟩
    · exact ⟨bytes, sidecar, Option.some.inj (hr.symm.trans hs), hdecode, rfl⟩
    cases heq
    refine ⟨sidecar.prevHead, f, m, records, hf, hreads, hhead, ?_, ?_⟩
    · rw [turnInputs_sidecar hread, hf, hashedFor_reads hreads]
    · rw [hread] at hlink
      exact brokenLink_nil hlink

/-! ## A clean walk -/

theorem expectedAfter_concat (e : Option ChainHead) (files : List FileName) (file : FileName) :
    expectedAfter z d shard dir e (files ++ [file])
      = (advance z d shard dir (expectedAfter z d shard dir e files) file).1 := by
  rw [expectedAfter, foldl_append]
  rfl

theorem verifyTurn_expected (files : List FileName) (st : Option ChainHead × VerifyReport) :
    (files.foldl (verifyTurn z d shard dir) st).1 = expectedAfter z d shard dir st.1 files := by
  induction files generalizing st with
  | nil => rfl
  | cons file files ih =>
    rw [foldl_cons, ih]
    rfl

/-- Every turn of the walk over `files` reports nothing. -/
def CleanWalk (z : Zstd) (d : Digest) (shard : FileName) (dir : ShardDir)
    (files : List FileName) : Prop :=
  ∀ before file after, files = before ++ file :: after →
    Turn z d shard dir (expectedAfter z d shard dir none before) file
      (expectedAfter z d shard dir none (before ++ [file]))

variable {files : List FileName}

theorem CleanWalk.init (h : CleanWalk z d shard dir (files ++ [file])) :
    CleanWalk z d shard dir files :=
  fun before other after heq => h before other (after ++ [file]) (by rw [heq]; simp)

theorem walk_clean (h : (files.foldl (verifyTurn z d shard dir) (none, r)).2.Clean) :
    r.Clean ∧ CleanWalk z d shard dir files := by
  induction files using reverseRecOn with
  | nil => exact ⟨h, fun before file after heq => by simp at heq⟩
  | append_singleton files last ih =>
    rw [foldl_append] at h
    obtain ⟨hbefore, hturn⟩ := verifyTurn_clean h
    obtain ⟨hr, hwalk⟩ := ih hbefore
    refine ⟨hr, fun before file after heq => ?_⟩
    cases after using reverseRecOn with
    | nil =>
      -- the last turn
      obtain ⟨rfl, hlast⟩ := append_inj' heq rfl
      obtain rfl := (List.cons.inj hlast).1
      rw [expectedAfter_concat]
      rwa [verifyTurn_expected] at hturn
    | append_singleton after other =>
      rw [← cons_append, ← append_assoc] at heq
      exact hwalk before file after (append_inj' heq rfl).1

theorem walkInputs_append (after : List FileName) (before : List FileName) (e : Option ChainHead) :
    walkInputs z d shard dir e (before ++ after)
      = walkInputs z d shard dir e before
        ++ walkInputs z d shard dir (expectedAfter z d shard dir e before) after := by
  induction before generalizing e with
  | nil => rfl
  | cons first before ih =>
    rw [cons_append, walkInputs, ih, walkInputs, append_assoc]
    rfl

/-- Where nothing is carried on, no sidecar was met. -/
theorem CleanWalk.no_sidecar (h : CleanWalk z d shard dir files)
    (hnone : expectedAfter z d shard dir none files = none) :
    ∀ f ∈ files, dir.sidecar f = none := by
  induction files using reverseRecOn with
  | nil => simp
  | append_singleton files last ih =>
    intro f hf
    obtain ⟨hlast, hbefore⟩ := (h files last [] rfl).unchained hnone
    rcases mem_append.mp hf with hf | hf
    · exact ih h.init hbefore f hf
    · rw [mem_singleton.mp hf]
      exact hlast

theorem segmentIn_name_inj (h : (segmentIn shard a).name = (segmentIn shard b).name) : a = b := by
  have hname : ∀ f : FileName,
      (segmentIn shard f).name.toList = (shard.text ++ "/").toList ++ f.text.toList :=
    fun f => String.toList_append
  have hlists := congrArg String.toList h
  rw [hname a, hname b] at hlists
  exact FileName.ext (String.toList_inj.mp (append_cancel_left hlists))

section

variable (hinj : Set.InjOn d.sha S) {last : Original}
  (hchained : Chained z d shard head (os ++ [last])) (hwalk : CleanWalk z d shard dir files)
  (hchainedS : ∀ x ∈ chainedInputs d shard head (os ++ [last]), x ∈ S)
  (hwalkS : ∀ x ∈ walkInputs z d shard dir none files, x ∈ S)
  (hhead : expectedAfter z d shard dir none files = some last.sidecar.head)

include hinj hchained hwalk hchainedS hwalkS hhead

/-- A clean walk that carries on the head of the last chained segment ends at that segment, whose
records are there, and has come to it with the head before it, with none, or from an origin. -/
theorem CleanWalk.ends :
    ∃ before, files = before ++ [last.file] ∧
      (∃ f m, dir.segment last.file = .ok f ∧ Reads z f m last.records) ∧
      (expectedAfter z d shard dir none before = some (headAfter head os) ∨
        expectedAfter z d shard dir none before = none ∨ headAfter head os = .origin) := by
  cases files using reverseRecOn with
  | nil => cases hhead
  | append_singleton before file =>
    obtain ⟨prev, f, m, records, hf, hreads, hsame, hinputs, hlink⟩ :=
      (hwalk before file [] rfl).linked _ hhead
    obtain ⟨-, hlast, -⟩ := hchained.last
    rw [hlast] at hsame
    -- what was hashed then and what is hashed now
    have hthen : ∀ x ∈ segmentInputs d (headAfter head os) last.header
        (segmentIn shard last.file).name last.records, x ∈ S := by
      intro x hx
      refine hchainedS x ?_
      rw [chainedInputs_append, chainedInputs, chainedInputs, append_nil]
      exact mem_append_right _ hx
    have hnow : ∀ x ∈ segmentInputs d prev m (segmentIn shard file).name records, x ∈ S := by
      intro x hx
      refine hwalkS x ?_
      rw [walkInputs_append, walkInputs, ← hinputs]
      exact mem_append_right _ (mem_append_left _ hx)
    obtain ⟨hprev, -, -, -, hname, hrecords⟩ := segmentHead_inj (hinj.mono fun x hx =>
      hx.elim (hthen x) (hnow x)) hsame
    obtain rfl := segmentIn_name_inj hname
    rw [← hprev] at hlink
    exact ⟨before, rfl, ⟨f, m, hf, hrecords ▸ hreads⟩, hlink⟩

/-- The head of the last chained segment, carried on by a clean walk, vouches for every segment of
the walk at or behind a sidecar. -/
theorem CleanWalk.untouched (hheads : ∀ o ∈ os, o.sidecar.head ≠ .origin)
    (hnodup : ((os ++ [last]).map Original.file).Nodup)
    (hsub : files.Sublist ((os ++ [last]).map Original.file)) :
    ∀ o ∈ os ++ [last], ∀ before after, files = before ++ o.file :: after →
      (∃ f ∈ before ++ [o.file], dir.sidecar f ≠ none) →
      ∃ f m, dir.segment o.file = .ok f ∧ Reads z f m o.records := by
  -- back along the chain
  induction os using reverseRecOn generalizing last files with
  | nil =>
    intro o ho before after _ _
    obtain ⟨_, -, hrecords, -⟩ := hwalk.ends hinj hchained hchainedS hwalkS hhead
    obtain rfl := mem_singleton.mp ho
    exact hrecords
  | append_singleton os second ih =>
    intro o ho before after hsplit hsidecar
    obtain ⟨walked, rfl, hrecords, hlink⟩ := hwalk.ends hinj hchained hchainedS hwalkS hhead
    rcases mem_append.mp ho with ho | ho
    · -- an older segment, which the walk came to before
      have hother : o.file ≠ last.file := by
        intro heq
        rw [map_append, nodup_append] at hnodup
        exact hnodup.2.2 _ (mem_map_of_mem ho) _ (by simp) heq
      obtain ⟨after, rfl⟩ : ∃ after', walked = before ++ o.file :: after' := by
        cases after using reverseRecOn with
        | nil => exact absurd (List.cons.inj (append_inj' hsplit rfl).2).1.symm hother
        | append_singleton after x =>
          rw [← cons_append, ← append_assoc] at hsplit
          exact ⟨after, (append_inj' hsplit rfl).1⟩
      rw [headAfter_concat] at hlink
      rcases hlink with hbefore | hnone | horigin
      · refine ih hchained.split.1 hwalk.init ?_ ?_ hbefore
          (fun o' ho' => hheads o' (mem_append_left _ ho')) ?_ ?_ o ho before after rfl hsidecar
        · intro x hx
          refine hchainedS x ?_
          rw [chainedInputs_append]
          exact mem_append_left _ hx
        · intro x hx
          refine hwalkS x ?_
          rw [walkInputs_append]
          exact mem_append_left _ hx
        · rw [map_append] at hnodup
          exact hnodup.of_append_left
        · rw [map_append] at hsub
          exact (append_sublist_append_right _).mp hsub
      · obtain ⟨f, hf, hne⟩ := hsidecar
        refine absurd (hwalk.init.no_sidecar hnone f ?_) hne
        rw [append_cons]
        exact mem_append_left _ hf
      · exact absurd horigin (hheads second (by simp))
    · obtain rfl := mem_singleton.mp ho
      exact hrecords

end

/-! ## What is reported -/

theorem verifyShard_clean (h : (verifyShard z d wab r shard).Clean) :
    r.Clean ∧ ∃ files, sealedSegmentsIn wab shard = .ok files ∧
      CleanWalk z d shard (wab.shard shard) files := by
  unfold verifyShard at h
  split at h
  · exact absurd h.errors (by simp)
  next files hfiles =>
    obtain ⟨hr, hwalk⟩ := walk_clean h
    exact ⟨hr, files, hfiles, hwalk⟩

theorem verifyShards_clean {dirs : List FileName} (h : (dirs.foldl (verifyShard z d wab) r).Clean) :
    r.Clean ∧ ∀ shard ∈ dirs, ∃ files,
      sealedSegmentsIn wab shard = .ok files ∧ CleanWalk z d shard (wab.shard shard) files := by
  induction dirs generalizing r with
  | nil => exact ⟨h, by simp⟩
  | cons first dirs ih =>
    obtain ⟨hfirst, hrest⟩ := ih h
    obtain ⟨hr, hwalk⟩ := verifyShard_clean hfirst
    refine ⟨hr, fun shard hshard => ?_⟩
    rcases mem_cons.mp hshard with rfl | hshard
    · exact hwalk
    · exact hrest shard hshard

/-- A clean run has walked every shard that it was to verify. -/
theorem cmdAttestVerify_clean {metrics : Option (Except String Unit)}
    (h : (cmdAttestVerify z d wab filter metrics).Clean) :
    ∃ dirs, shardDirs wab filter = .ok dirs ∧ ∀ shard ∈ dirs, ∃ files,
      sealedSegmentsIn wab shard = .ok files ∧ CleanWalk z d shard (wab.shard shard) files := by
  unfold cmdAttestVerify at h
  dsimp only at h
  split at h
  · exact absurd h.errors (by simp)
  · split at h
    · cases h.errors
    next dirs hdirs => exact ⟨dirs, hdirs, (verifyShards_clean h).2⟩

/-- The sealed segments of a shard, all chained in the order of their names. -/
structure Attested (z : Zstd) (d : Digest) (shard : FileName) (head : ChainHead)
    (os : List Original) : Prop where
  chained : Chained z d shard head os
  sealed : ∀ o ∈ os, isSealedName o.file = true
  ascending : (os.map Original.file).Pairwise fun a b => a.text.toList < b.text.toList

theorem Attested.nodup (h : Attested z d shard head os) : (os.map Original.file).Nodup :=
  h.ascending.imp fun hlt heq => by rw [heq] at hlt; exact lt_irrefl _ hlt

theorem sealedSegmentsIn_sorted (h : sealedSegmentsIn wab shard = .ok files) :
    files.Nodup ∧ files.Pairwise FileName.le ∧ ∃ names, (wab.shard shard).listing = .ok names ∧
      ∀ f, f ∈ files ↔ f ∈ names ∧ isSealedName f = true := by
  unfold sealedSegmentsIn at h
  split at h
  · cases h
  rename_i names hnames
  cases h
  have hperm := perm_insertionSort FileName.le names
  have hnodup : (names.insertionSort FileName.le).Nodup :=
    hperm.nodup_iff.mpr ((wab.shard shard).nodup names hnames)
  have hsorted : (names.insertionSort FileName.le).Pairwise FileName.le :=
    pairwise_insertionSort FileName.le names
  refine ⟨hnodup.filter _, hsorted.filter _, names, hnames, fun f => ?_⟩
  rw [mem_filter, hperm.mem_iff]

theorem sealedSegmentsIn_ascending (h : sealedSegmentsIn wab shard = .ok files) :
    files.Pairwise fun a b => a.text.toList < b.text.toList := by
  obtain ⟨hnodup, hsorted, -⟩ := sealedSegmentsIn_sorted h
  refine (hsorted.and hnodup).imp fun {a b} hab => ?_
  exact lt_of_le_of_ne hab.1 fun heq => hab.2 (FileName.ext (String.toList_inj.mp heq))

/-- What `seal` leaves of a shard is attested, if the sidecars it finds are a chain and those of the
oldest segments: each segment behind them is chained with the content it has in the directory. -/
theorem seal_attested
    (hfiles : sealedSegmentsIn wab shard = .ok (os.map Original.file ++ names))
    (hnames : ∀ f ∈ names, (wab.shard shard).sidecar f = none)
    (hpresent : ∀ o ∈ os, (wab.shard shard).sidecar o.file = some (.ok o.sidecar.encode))
    (hchained : Chained z d shard .origin os)
    (h : sealSegments z d wab shard write (os.map Original.file ++ names) .origin
      = (written, .ok ())) :
    ∃ new, Attested z d shard .origin (os ++ new) ∧ new.map Original.file = names ∧
      (written = new.map fun o => (o.file, o.sidecar)) ∧
      ∀ o ∈ new, (wab.shard shard).segment o.file = .ok o.content := by
  have hsidecars : ∀ o ∈ os, ∃ r, (wab.shard shard).sidecar o.file = some r ∧
      ∀ bytes, r = .ok bytes → Sidecar.decode bytes = .ok o.sidecar := by
    intro o ho
    refine ⟨_, hpresent o ho, fun bytes hbytes => ?_⟩
    rw [← Except.ok.inj hbytes]
    exact hchained.decodes o ho
  rcases sealSegments_resumes names .origin hsidecars with ⟨e, herror⟩ | hresumed
  · rw [herror] at h
    cases h
  obtain ⟨new, rest, hnew, hsplit, hcomplete, hwritten, hcontent⟩ :=
    sealSegments_fresh write (headAfter .origin os) hnames
  rw [← hresumed, h] at hcomplete hwritten
  obtain rfl : names = new.map Original.file := by rw [hsplit, hcomplete rfl, append_nil]
  rw [← map_append] at hfiles
  obtain ⟨-, -, listed, -, hmem⟩ := sealedSegmentsIn_sorted hfiles
  exact ⟨new, ⟨hchained.append hnew, fun o ho => ((hmem o.file).mp (mem_map_of_mem ho)).2,
    sealedSegmentsIn_ascending hfiles⟩, rfl, hwritten, hcontent⟩

/-- What is left of an attested shard: no other segment than those that were chained, the newest of
them, and the sidecar of that one as it was. -/
structure LeftOver (dir : ShardDir) (os : List Original) (newest : Original) : Prop where
  names : ∀ names, dir.listing = .ok names → newest.file ∈ names ∧
    ∀ f ∈ names, isSealedName f = true → f ∈ (os ++ [newest]).map Original.file
  sidecar : ∃ r, dir.sidecar newest.file = some r ∧
    ∀ bytes, r = .ok bytes → bytes = newest.sidecar.encode

/-- The file is listed, if the directory can be. -/
def Present (dir : ShardDir) (file : FileName) : Prop :=
  ∀ names, dir.listing = .ok names → file ∈ names

/-- `verify` walks the segments that are left of a chain in the order of the chain, and comes to the
newest last. -/
theorem LeftOver.walked {newest : Original} (hleft : LeftOver (wab.shard shard) os newest)
    (hattested : Attested z d shard head (os ++ [newest]))
    (hfiles : sealedSegmentsIn wab shard = .ok files) :
    files.Sublist ((os ++ [newest]).map Original.file) ∧
      ∃ before, files = before ++ [newest.file] := by
  obtain ⟨hnodup, hsorted, names, hnames, hmem⟩ := sealedSegmentsIn_sorted hfiles
  obtain ⟨hlisted, hothers⟩ := hleft.names names hnames
  have hsubset : files ⊆ (os ++ [newest]).map Original.file := fun f hf =>
    hothers f ((hmem f).mp hf).1 ((hmem f).mp hf).2
  have hsub : files.Sublist ((os ++ [newest]).map Original.file) :=
    sublist_of_subperm_of_pairwise (subperm_of_subset hnodup hsubset) hsorted
      (hattested.ascending.imp fun hlt => le_of_lt hlt)
  refine ⟨hsub, ?_⟩
  have hnewest : newest.file ∈ files :=
    (hmem newest.file).mpr ⟨hlisted, hattested.sealed newest (by simp)⟩
  rw [map_append] at hsub
  obtain ⟨before, last, rfl, hbefore, hlast⟩ := List.sublist_append_iff.mp hsub
  rcases List.sublist_singleton.mp hlast with rfl | rfl
  · have hdistinct := hattested.nodup
    rw [map_append, nodup_append] at hdistinct
    rw [append_nil] at hnewest
    exact absurd rfl (hdistinct.2.2 _ (hbefore.subset hnewest) newest.file (by simp))
  · exact ⟨before, rfl⟩

/-- Tampering inside an attested shard is reported from the oldest sidecar on that is left. Whatever
became of the older segments and of their sidecars: if one of them that is still there does not
hold the records any more with which it was chained, and it or an older one that is still there has
a sidecar, `verify` does not exit with zero. -/
theorem attested_tampering_reported {head : ChainHead} {os : List Original} {newest : Original}
    (hattested : Attested z d shard head (os ++ [newest]))
    (hheads : ∀ o ∈ os, o.sidecar.head ≠ .origin)
    {wab : WabDir} {filter : Option UInt16} {metrics : Option (Except String Unit)}
    (hshard : ∀ dirs, shardDirs wab filter = .ok dirs → shard ∈ dirs)
    (hleft : LeftOver (wab.shard shard) os newest)
    (hinj : Set.InjOn d.sha {x | x ∈ chainedInputs d shard head (os ++ [newest]) ∨
      ∃ files, sealedSegmentsIn wab shard = .ok files ∧
        x ∈ walkInputs z d shard (wab.shard shard) none files})
    {o : Original} (ho : o ∈ os) (hpresent : Present (wab.shard shard) o.file)
    (hdiffers : ∀ f m, (wab.shard shard).segment o.file = .ok f → ¬Reads z f m o.records)
    (hsidecar : ∃ older ∈ os, Present (wab.shard shard) older.file ∧ older.file.le o.file ∧
      (wab.shard shard).sidecar older.file ≠ none) :
    (cmdAttestVerify z d wab filter metrics).exitCode ≠ 0 := by
  intro hzero
  obtain ⟨dirs, hdirs, hwalks⟩ := cmdAttestVerify_clean (VerifyReport.clean_of_exitCode hzero)
  obtain ⟨files, hfiles, hwalk⟩ := hwalks shard (hshard dirs hdirs)
  obtain ⟨hnodup, hsorted, names, hnames, hmem⟩ := sealedSegmentsIn_sorted hfiles
  obtain ⟨hsub, walked, hend⟩ := hleft.walked hattested hfiles
  -- the walk ends with the head of the newest segment
  have hhead : expectedAfter z d shard (wab.shard shard) none files
      = some newest.sidecar.head := by
    obtain ⟨r, hr, hbytes⟩ := hleft.sidecar
    obtain ⟨bytes, sidecar, rfl, hdecode, hnext⟩ := (hwalk walked newest.file [] hend).decoded r hr
    rw [hbytes bytes rfl, hattested.chained.last.2.2] at hdecode
    rw [hend, hnext, Except.ok.inj hdecode]
  -- the older segment with a sidecar comes before the one that differs, or is that one
  have hwalks : ∀ o' ∈ os, Present (wab.shard shard) o'.file → o'.file ∈ files := fun o' ho' h =>
    (hmem o'.file).mpr ⟨h names hnames, hattested.sealed o' (mem_append_left _ ho')⟩
  obtain ⟨before, after, hsplit⟩ := append_of_mem (hwalks o ho hpresent)
  obtain ⟨older, holder, hthere, hle, hne⟩ := hsidecar
  have hbefore : older.file ∈ before ++ [o.file] := by
    have hfound := hwalks older holder hthere
    rw [hsplit] at hfound hsorted
    rcases mem_append.mp hfound with hfound | hfound
    · exact mem_append_left _ hfound
    rcases mem_cons.mp hfound with heq | hfound
    · rw [heq]
      simp
    have hge : o.file.le older.file :=
      (List.pairwise_cons.mp (List.pairwise_append.mp hsorted).2.1).1 _ hfound
    rw [Std.Antisymm.antisymm _ _ hle hge]
    simp
  obtain ⟨f, m, hf, hreads⟩ := hwalk.untouched hinj hattested.chained (fun x hx => .inl hx)
    (fun x hx => .inr ⟨files, hfiles, hx⟩) hhead hheads hattested.nodup hsub o
    (mem_append_left _ ho) before after hsplit ⟨older.file, hbefore, hne⟩
  exact hdiffers f m hf hreads

theorem verifyTurn_verified (hread : readSidecar dir file = some sidecar)
    (hverdict : verifySegment z d (segmentIn shard file) (dir.sidecar file) (dir.segment file)
      = .ok .verified) (hr : r.Clean) : (verifyTurn z d shard dir (none, r) file).2.Clean := by
  unfold verifyTurn
  rw [hverdict, advance_sidecar hread]
  refine ⟨?_, hr.diverged, ?_⟩
  · show r.errors ++ [] = []
    rw [hr.errors, append_nil]
  · show r.brokenLinks ++ [] = []
    rw [hr.brokenLinks, append_nil]

/-! ### Two segments -/

def shardZero : FileName := ⟨"shard_00", by decide⟩
def segmentOne : FileName := ⟨"seg_00000001.wab.sealed", by decide⟩
def segmentTwo : FileName := ⟨"seg_00000002.wab.sealed", by decide⟩

/-- A segment with these records, chained from `prev`. -/
def chainedFrom (file : FileName) (records : List Bytes) (prev : ChainHead) : Original :=
  ⟨file, sealedFile records, ⟨1, .none, 0, 0⟩, records,
    match chainSegment .plain modDigest (segmentIn shardZero file)
      (.ok (sealedFile records)) prev with
    | .ok sidecar => sidecar
    | .error _ => ⟨0, 0, "", .origin, .origin, 0, 0⟩⟩

def originalOne : Original := chainedFrom segmentOne [[7]] .origin
def originalTwo : Original := chainedFrom segmentTwo [[8]] originalOne.sidecar.head

/-- The shard with other records in the first segment, and with or without its sidecar. -/
def editedShard (sidecarOne : Option (Except IoError Bytes)) : ShardDir where
  listing := .ok [segmentTwo, segmentOne]
  segment := fun file =>
    if file = segmentOne then .ok (sealedFile [[9]]) else .ok (sealedFile [[8]])
  sidecar := fun file =>
    if file = segmentOne then sidecarOne else some (.ok originalTwo.sidecar.encode)
  nodup := by
    intro names h
    rw [← Except.ok.inj h]
    decide

def editedWab (sidecarOne : Option (Except IoError Bytes)) : WabDir where
  path := "/var/weir"
  listing := .ok [(shardZero, true)]
  shard := fun _ => editedShard sidecarOne

theorem chainedFrom_chained {prev : ChainHead}
    (h : (chainSegment .plain modDigest (segmentIn shardZero file) (.ok (sealedFile records))
      prev).isOk = true) :
    chainSegment .plain modDigest (segmentIn shardZero file) (.ok (sealedFile records)) prev
      = .ok (chainedFrom file records prev).sidecar := by
  unfold chainedFrom
  split
  next sidecar hok => exact hok
  next e herror =>
    rw [herror] at h
    cases h

theorem originals_attested :
    Attested .plain modDigest shardZero .origin [originalOne, originalTwo] := by
  refine ⟨.cons (chainedFrom_chained (by decide +kernel)) (reads_of_readRecords (by decide +kernel))
    (.cons (chainedFrom_chained (by decide +kernel))
      (reads_of_readRecords (by decide +kernel)) .nil),
    ?_, ?_⟩
  · intro o ho
    rcases mem_cons.mp ho with rfl | ho
    · decide +kernel
    · rw [mem_singleton.mp ho]
      decide +kernel
  · decide +kernel

section

variable (sidecarOne : Option (Except IoError Bytes))

theorem editedWab_files :
    sealedSegmentsIn (editedWab sidecarOne) shardZero = .ok [segmentOne, segmentTwo] := by
  have hsorted : ([segmentTwo, segmentOne].insertionSort FileName.le).filter isSealedName
      = [segmentOne, segmentTwo] := by decide +kernel
  unfold sealedSegmentsIn
  show Except.ok (([segmentTwo, segmentOne].insertionSort FileName.le).filter isSealedName) = _
  rw [hsorted]

theorem editedShard_leftOver : LeftOver (editedShard sidecarOne) [originalOne] originalTwo := by
  refine ⟨fun names hnames => ?_, .ok originalTwo.sidecar.encode, rfl,
    fun bytes hbytes => (Except.ok.inj hbytes).symm⟩
  obtain rfl : [segmentTwo, segmentOne] = names := Except.ok.inj hnames
  refine ⟨mem_cons_self, fun f hf _ => ?_⟩
  rcases mem_cons.mp hf with rfl | hf
  · exact mem_cons_of_mem _ mem_cons_self
  · rw [mem_singleton.mp hf]
    exact mem_cons_self

theorem editedShard_present : Present (editedShard sidecarOne) segmentOne := by
  intro names hnames
  obtain rfl : [segmentTwo, segmentOne] = names := Except.ok.inj hnames
  exact mem_cons_of_mem _ mem_cons_self

theorem editedShard_differs (f : SegmentFile) (m : SegmentHeaderMeta)
    (hf : (editedShard sidecarOne).segment segmentOne = .ok f) : ¬Reads .plain f m [[7]] := by
  intro hreads
  have hreads' : Reads .plain (sealedFile [[9]]) ⟨1, .none, 0, 0⟩ [[9]] :=
    reads_of_readRecords (by decide +kernel)
  have hsame : sealedFile [[9]] = f := Except.ok.inj hf
  exact absurd (hreads.unique (hsame ▸ hreads')).2 (by decide)

end

/-- The shard in which only the first segment has its sidecar. -/
def halfSealedWab : WabDir :=
  { editedWab none with
    shard := fun _ => { editedShard none with
      sidecar := fun f => if f = segmentOne then some (.ok originalOne.sidecar.encode) else none } }

set_option maxRecDepth 1000 in
theorem seal_attested_next : ∃ new,
    Attested .plain modDigest shardZero .origin ([originalOne] ++ new) ∧
      new.map Original.file = [segmentTwo] ∧
      ∀ o ∈ new, (halfSealedWab.shard shardZero).segment o.file = .ok o.content := by
  rcases hrun : sealSegments .plain modDigest halfSealedWab shardZero (fun _ => .ok ())
    ([originalOne].map Original.file ++ [segmentTwo]) .origin with ⟨written, result⟩
  obtain rfl : .ok () = result := (show _ = _ by decide +kernel).symm.trans (congrArg Prod.snd hrun)
  obtain ⟨new, hnew, hfiles, -, hcontent⟩ :=
    seal_attested (editedWab_files none) (by decide +kernel)
    (by decide +kernel) (.cons (chainedFrom_chained (by decide +kernel))
      (reads_of_readRecords (by decide +kernel)) .nil) hrun
  exact ⟨new, hnew, hfiles, hcontent⟩

/-- What was hashed for the two segments, and what walking over them hashes. -/
def editedInputs (sidecarOne : Option (Except IoError Bytes)) : List Bytes :=
  chainedInputs modDigest shardZero .origin ([originalOne] ++ [originalTwo])
    ++ walkInputs .plain modDigest shardZero (editedShard sidecarOne) none [segmentOne, segmentTwo]

theorem edited_injOn {sidecarOne : Option (Except IoError Bytes)}
    (hdistinct : ∀ x ∈ editedInputs sidecarOne, ∀ y ∈ editedInputs sidecarOne,
      modDigest.sha x = modDigest.sha y → x = y) :
    Set.InjOn modDigest.sha {x |
      x ∈ chainedInputs modDigest shardZero .origin ([originalOne] ++ [originalTwo]) ∨
      ∃ files, sealedSegmentsIn (editedWab sidecarOne) shardZero = .ok files ∧
        x ∈ walkInputs .plain modDigest shardZero (editedShard sidecarOne) none files} := by
  have hinj : Set.InjOn modDigest.sha {x | x ∈ editedInputs sidecarOne} :=
    fun x hx y hy => hdistinct x hx y hy
  refine hinj.mono ?_
  rintro x (hx | ⟨files, hfiles, hx⟩)
  · exact mem_append_left _ hx
  · rw [editedWab_files] at hfiles
    rw [← Except.ok.inj hfiles] at hx
    exact mem_append_right _ hx

set_option maxRecDepth 1000 in
/-- The records of the oldest segment changed and its sidecar removed: it is only reported to have
no sidecar, and the head that the next sidecar starts from is compared with nothing. -/
theorem oldest_sidecar_removed :
    Attested .plain modDigest shardZero .origin ([originalOne] ++ [originalTwo]) ∧
    (∀ o ∈ [originalOne], o.sidecar.head ≠ .origin) ∧
    shardDirs (editedWab none) none = .ok [shardZero] ∧
    LeftOver (editedShard none) [originalOne] originalTwo ∧
    Set.InjOn modDigest.sha {x |
      x ∈ chainedInputs modDigest shardZero .origin ([originalOne] ++ [originalTwo]) ∨
      ∃ files, sealedSegmentsIn (editedWab none) shardZero = .ok files ∧
        x ∈ walkInputs .plain modDigest shardZero (editedShard none) none files} ∧
    Present (editedShard none) originalOne.file ∧
    (∀ f m, (editedShard none).segment originalOne.file = .ok f →
      ¬Reads .plain f m originalOne.records) ∧
    (cmdAttestVerify .plain modDigest (editedWab none) none none).exitCode = 0 := by
  exact ⟨originals_attested, by decide +kernel, by decide +kernel, editedShard_leftOver none,
    edited_injOn (by decide +kernel), editedShard_present none, editedShard_differs none,
    by decide +kernel⟩

set_option maxRecDepth 1000 in
/-- With its sidecar in place the same change is reported. -/
theorem attested_tampering_reported_edited :
    Attested .plain modDigest shardZero .origin ([originalOne] ++ [originalTwo]) ∧
    (cmdAttestVerify .plain modDigest (editedWab (some (.ok originalOne.sidecar.encode))) none
      none).exitCode ≠ 0 := by
  let there : Option (Except IoError Bytes) := some (.ok originalOne.sidecar.encode)
  have hdirs : ∀ dirs, shardDirs (editedWab there) none = .ok dirs → shardZero ∈ dirs := by
    intro dirs h
    have hlisted : shardDirs (editedWab there) none = .ok [shardZero] := by decide +kernel
    rw [← Except.ok.inj (hlisted.symm.trans h)]
    exact mem_cons_self
  exact ⟨originals_attested, attested_tampering_reported originals_attested
    (by decide +kernel) hdirs
    (editedShard_leftOver there) (edited_injOn (by decide +kernel)) mem_cons_self
    (editedShard_present there) (editedShard_differs there)
    ⟨originalOne, mem_cons_self, editedShard_present there, le_refl _, by
      intro h
      cases h⟩⟩

end Weir.Ctl

import Weir.Ctl.Attest

/-!
# What `attest verify` reports, and what it should (`weir-ctl/src/attest.rs`)

An attestation is made of a segment that the strict `verify_sealed_segment` accepts, and
checked by reading the segment with the sequential reader, which knows neither the
footer nor what stands behind the sentinel.

> `corrupt_segment_reported`: a change of an attested segment is reported exactly if it
> changes what the sequential reader reads.

The chain links a segment to the one that stood before it when it was attested, and
`verify` links it to the one that stands before it now. Between the two the daemon seals
segments and the drain deletes those that it has delivered.

> `Ordered.step`: while segments come at the end and go from either end, the attested ones
> are a chain, and the others stand behind them.

> `no_false_alarm`: then `verify` reports neither a divergence nor a broken link.

> `middle_confirmed_alarms`: a segment that is delivered while an older one is stranded
> breaks the link behind it.
-/

namespace Weir.Ctl

open Weir.Lib Weir.Wab Weir.Attest List

variable {z : Zstd} {d : Digest} {shard : FileName}

/-! ## A changed segment -/

/-- The run of `verify` comes to the segment, whose sidecar is as it was written; the file has these
bytes now. -/
structure Stands (wab : WabDir) (filter : Option UInt16) (shard file : FileName)
    (sidecar : Sidecar) (bytes : Bytes) : Prop where
  visited : ∀ dirs, shardDirs wab filter = .ok dirs → shard ∈ dirs
  present : Present (wab.shard shard) file
  attested : ∃ r, (wab.shard shard).sidecar file = some r ∧ ∀ b, r = .ok b → b = sidecar.encode
  content : ∀ f, (wab.shard shard).segment file = .ok f → f.file = bytes

variable {wab : WabDir} {file : FileName} {sidecar : Sidecar} {bytes : Bytes} {f : FileName}
  {filter : Option UInt16} {id : UInt16} {m : SegmentHeaderMeta} {records : List Bytes}
  {r : VerifyReport} {st : Option ChainHead × VerifyReport} {names : List FileName}

/-- What a run that exits with zero has read of an attested segment. -/
theorem Stands.read
    {metrics : Option (Except String Unit)} (h : Stands wab filter shard file sidecar bytes)
    (hname : isSealedName file = true) (hdecode : Sidecar.decode sidecar.encode = .ok sidecar)
    (hzero : (cmdAttestVerify z d wab filter metrics).exitCode = 0) :
    ∃ prev m records, Reads z ⟨bytes, noFault⟩ m records ∧
      sidecar.head = segmentHead d prev m (segmentIn shard file).name records ∧
      segmentInputs d prev m (segmentIn shard file).name records
        = segmentInputs d sidecar.prevHead m (segmentIn shard file).name records := by
  obtain ⟨dirs, hdirs, hwalks⟩ := cmdAttestVerify_clean (VerifyReport.clean_of_exitCode hzero)
  obtain ⟨files, hfiles, hwalk⟩ := hwalks shard (h.visited dirs hdirs)
  obtain ⟨-, -, names, hnames, hmem⟩ := sealedSegmentsIn_sorted hfiles
  obtain ⟨before, after, hsplit⟩ :=
    append_of_mem ((hmem file).mpr ⟨h.present names hnames, hname⟩)
  have hturn := hwalk before file after hsplit
  obtain ⟨r, hr, hbytes⟩ := h.attested
  obtain ⟨b, sidecar', rfl, hdecode', hnext⟩ := hturn.decoded r hr
  rw [hbytes b rfl, hdecode] at hdecode'
  cases hdecode'
  obtain ⟨prev, f, m, records, hf, hreads, hhead, hinputs, -⟩ := hturn.linked _ hnext
  have hread : readSidecar (wab.shard shard) file = some sidecar := by
    rw [readSidecar, hr]
    dsimp only
    rw [hbytes b rfl, hdecode]
    rfl
  rw [turnInputs_sidecar hread, hf, hashedFor_reads hreads] at hinputs
  have hfile := h.content f hf
  refine ⟨prev, m, records, ?_, hhead, hinputs⟩
  rw [← hfile]
  exact hreads.unfaulted

theorem soleListing_nodup (file : FileName) (names : List FileName)
    (h : (.ok [file] : Except IoError (List FileName)) = .ok names) : names.Nodup := by
  rw [← Except.ok.inj h]
  exact nodup_singleton file

/-- A shard directory with one segment and its sidecar. -/
def soleShard (file : FileName) (sidecar : Sidecar) (bytes : Bytes) : ShardDir where
  listing := .ok [file]
  segment := fun _ => .ok ⟨bytes, noFault⟩
  sidecar := fun _ => some (.ok sidecar.encode)
  nodup := soleListing_nodup file

def soleWab (id : UInt16) (file : FileName) (sidecar : Sidecar) (bytes : Bytes) : WabDir where
  path := "/var/weir"
  listing := .ok [(shardDirName id, true)]
  shard := fun _ => soleShard file sidecar bytes

theorem soleWab_stands (id : UInt16) (file : FileName) (sidecar : Sidecar) (bytes : Bytes) :
    Stands (soleWab id file sidecar bytes) (some id) (shardDirName id) file sidecar bytes := by
  refine ⟨fun dirs hdirs => ?_, fun names hnames => ?_, ⟨_, rfl, fun b hb => ?_⟩, fun f hf => ?_⟩
  · rw [← Except.ok.inj hdirs]
    exact mem_cons_self
  · rw [← Except.ok.inj hnames]
    exact mem_cons_self
  · exact (Except.ok.inj hb).symm
  · rw [← Except.ok.inj hf]

/-- A verified segment on its own is nothing to report. -/
theorem soleWab_exitCode
    (hname : isSealedName file = true) (hdecode : Sidecar.decode sidecar.encode = .ok sidecar)
    (hverdict : verifySegment z d (segmentIn (shardDirName id) file) (some (.ok sidecar.encode))
      (.ok ⟨bytes, noFault⟩) = .ok .verified) :
    (cmdAttestVerify z d (soleWab id file sidecar bytes) (some id) none).exitCode = 0 := by
  have hread : readSidecar (soleShard file sidecar bytes) file = some sidecar := by
    show (Sidecar.decode sidecar.encode).toOption = _
    rw [hdecode]
    rfl
  have hfiles : sealedSegmentsIn (soleWab id file sidecar bytes) (shardDirName id)
      = .ok [file] := by
    show Except.ok (([file].insertionSort FileName.le).filter isSealedName) = _
    rw [insertionSort_cons, insertionSort_nil, orderedInsert_nil,
      filter_singleton, hname]
    rfl
  have hturn := verifyTurn_verified (r := .start) hread hverdict ⟨rfl, rfl, rfl⟩
  have hreport : cmdAttestVerify z d (soleWab id file sidecar bytes) (some id) none
      = (verifyTurn z d (shardDirName id) (soleShard file sidecar bytes) (none,
        .start) file).2 := by
    show verifyShard z d (soleWab id file sidecar bytes) .start (shardDirName id) = _
    unfold verifyShard
    rw [hfiles]
    rfl
  rw [hreport]
  exact hturn.exitCode

/-- A file that reads as what was chained is nothing to report. -/
theorem unreported_of_reads {f : SegmentFile} {prev : ChainHead} {m' : SegmentHeaderMeta}
    (hname : isSealedName file = true)
    (hchain : chainSegment z d (segmentIn (shardDirName id) file) (.ok f) prev = .ok sidecar)
    (hreads : Reads z f m records) (hsame : Reads z ⟨bytes, noFault⟩ m' records)
    (hversion : m'.formatVersion = m.formatVersion) (hshard : m'.shardId = m.shardId)
    (hcreated : m'.createdAt = m.createdAt) :
    (cmdAttestVerify z d (soleWab id file sidecar bytes) (some id) none).exitCode = 0 := by
  obtain ⟨hprev, hhead, hcount, hdecode⟩ := chainSegment_reads hchain hreads
  refine soleWab_exitCode hname hdecode ?_
  rw [verifySegment_reads hdecode hsame, hprev, hhead, hcount,
    if_pos ⟨segmentHead_same hversion hshard hcreated, rfl⟩]

/-- A changed segment is reported exactly if the change is one that the sequential reader can see.
Whatever became of an attested segment whose sidecar is in place: every run of `verify` that comes
to it exits with another code than zero, unless the file still starts with a header of the same
version, shard and creation time, followed by frames of the same records, and then by a sentinel or
by fewer than four bytes. So what changes the footer, cuts it off or stands behind it is not
reported, although `verify_sealed_segment` rejects the file. -/
theorem corrupt_segment_reported {id : UInt16} {file : FileName} {f : SegmentFile}
    {prev : ChainHead} {sidecar : Sidecar} {m : SegmentHeaderMeta} {records : List Bytes}
    (hname : isSealedName file = true)
    (hchain : chainSegment z d (segmentIn (shardDirName id) file) (.ok f) prev = .ok sidecar)
    (hreads : Reads z f m records) (bytes : Bytes)
    (hinj : Set.InjOn d.sha {x |
      x ∈ segmentInputs d prev m (segmentIn (shardDirName id) file).name records ∨
      x ∈ hashedFor z d (segmentIn (shardDirName id) file) (.ok ⟨bytes, noFault⟩) prev}) :
    (∀ wab filter metrics, Stands wab filter (shardDirName id) file sidecar bytes →
        (cmdAttestVerify z d wab filter metrics).exitCode ≠ 0) ↔
      ¬∃ m', ReadsAs z bytes m' records ∧ m'.formatVersion = m.formatVersion ∧
        m'.shardId = m.shardId ∧ m'.createdAt = m.createdAt := by
  constructor
  · rintro hreported ⟨m', hsame, hversion, hshard, hcreated⟩
    exact hreported _ _ none (soleWab_stands id file sidecar bytes)
      (unreported_of_reads hname hchain hreads (reads_iff.mpr hsame) hversion hshard hcreated)
  · intro hdiffers wab filter metrics hstands hzero
    obtain ⟨hprev, hhead, -, hdecode⟩ := chainSegment_reads hchain hreads
    obtain ⟨prev', m', records', hreads', hhead', hinputs⟩ :=
      hstands.read hname hdecode hzero
    rw [hashedFor_reads hreads', ← hprev, ← hinputs] at hinj
    rw [hhead, ← hprev] at hhead'
    obtain ⟨-, hversion, hshard, hcreated, -, rfl⟩ := segmentHead_inj hinj hhead'
    exact hdiffers ⟨m', reads_iff.mp hreads', hversion.symm, hshard.symm, hcreated.symm⟩

/-! ### One record -/

theorem soleRecord_reads : Reads .plain (sealedFile [[7]]) ⟨1, .none, 0, 0⟩ [[7]] :=
  reads_of_readRecords (by decide +kernel)

theorem soleRecord_chained : ∃ sidecar, chainSegment .plain modDigest
    (segmentIn (shardDirName 0) segmentOne) (.ok (sealedFile [[7]])) .origin = .ok sidecar := by
  rw [show shardDirName 0 = shardZero by decide +kernel]
  exact ⟨_, chainedFrom_chained (by decide +kernel)⟩

/-- The last byte of the footer is cut off. -/
def footerCut : Bytes := (sealedFile [[7]]).file.dropLast

/-- The payload of the record is changed. -/
def payloadChanged : Bytes := (sealedFile [[7]]).file.set (segmentHeaderLen + 8) 9

/-- Without the last byte of its footer the file is no sealed segment any more, and `verify` exits
with zero. -/
theorem footer_cut_unreported :
    ∃ sidecar, chainSegment .plain modDigest (segmentIn (shardDirName 0) segmentOne)
        (.ok (sealedFile [[7]])) .origin = .ok sidecar ∧
      (verifySealedSegment footerCut noFault).isOk = false ∧
      ∃ wab filter, Stands wab filter (shardDirName 0) segmentOne sidecar footerCut ∧
        (cmdAttestVerify .plain modDigest wab filter none).exitCode = 0 := by
  obtain ⟨sidecar, hchain⟩ := soleRecord_chained
  have hsame : Reads .plain ⟨footerCut, noFault⟩ ⟨1, .none, 0, 0⟩ [[7]] :=
    reads_of_readRecords (by decide +kernel)
  exact ⟨sidecar, hchain, by decide +kernel, soleWab 0 segmentOne sidecar footerCut, some 0,
    soleWab_stands 0 segmentOne sidecar footerCut,
    unreported_of_reads (by decide +kernel) hchain soleRecord_reads hsame rfl rfl rfl⟩

/-- A changed payload is reported. -/
theorem corrupt_segment_reported_payload :
    ∃ sidecar, chainSegment .plain modDigest (segmentIn (shardDirName 0) segmentOne)
        (.ok (sealedFile [[7]])) .origin = .ok sidecar ∧
      (verifySealedSegment payloadChanged noFault).isOk = false ∧
      ∀ wab filter metrics, Stands wab filter (shardDirName 0) segmentOne sidecar payloadChanged →
        (cmdAttestVerify .plain modDigest wab filter metrics).exitCode ≠ 0 := by
  obtain ⟨sidecar, hchain⟩ := soleRecord_chained
  have hunread : readRecords .plain ⟨payloadChanged, noFault⟩ = none := by decide +kernel
  have hhashed : hashedFor .plain modDigest (segmentIn (shardDirName 0) segmentOne)
      (.ok ⟨payloadChanged, noFault⟩) .origin = [] := by
    rw [hashedFor, hunread]
  have hdistinct : ∀ x ∈ segmentInputs modDigest .origin ⟨1, .none, 0, 0⟩
        (segmentIn (shardDirName 0) segmentOne).name [[7]],
      ∀ y ∈ segmentInputs modDigest .origin ⟨1, .none, 0, 0⟩
        (segmentIn (shardDirName 0) segmentOne).name [[7]],
      modDigest.sha x = modDigest.sha y → x = y := by
    decide +kernel
  refine ⟨sidecar, hchain, by decide +kernel,
    (corrupt_segment_reported (by decide +kernel) hchain soleRecord_reads payloadChanged ?_).mpr ?_⟩
  · rw [hhashed]
    intro x hx y hy
    exact hdistinct x (hx.resolve_right (by simp)) y (hy.resolve_right (by simp))
  · rintro ⟨m', hreads, -⟩
    rw [(reads_iff.mpr hreads).readRecords] at hunread
    cases hunread

/-! ## The life of a shard -/

/-- The sealed segments and the sidecars in a shard directory. A sidecar stays when its segment is
deleted. -/
structure ShardFiles where
  segment : FileName → Option Bytes
  sidecar : FileName → Option Sidecar

def ShardFiles.empty : ShardFiles := ⟨fun _ => none, fun _ => none⟩

/-- The daemon seals a segment, the drain deletes one that it has delivered
(`confirm_and_delete`), or `attest seal` has run and written sidecars. -/
inductive ShardAction
  | sealed (file : FileName) (bytes : Bytes)
  | confirmed (file : FileName)
  | attested (written : List (FileName × Sidecar))

def writeSidecars (sidecar : FileName → Option Sidecar) (written : List (FileName × Sidecar)) :
    FileName → Option Sidecar :=
  written.foldl (fun known w => Function.update known w.1 (some w.2)) sidecar

def ShardFiles.apply (s : ShardFiles) : ShardAction → ShardFiles
  | .sealed file bytes => { s with segment := Function.update s.segment file (some bytes) }
  | .confirmed file => { s with segment := Function.update s.segment file none }
  | .attested written => { s with sidecar := writeSidecars s.sidecar written }

/-- A command finds these files in the directory, where it can list, open and read them. -/
structure Sees (dir : ShardDir) (s : ShardFiles) : Prop where
  names : ∀ names, dir.listing = .ok names → ∀ f, isSealedName f = true →
    (f ∈ names ↔ s.segment f ≠ none)
  segment : ∀ f bytes c, s.segment f = some bytes → dir.segment f = .ok c → c.file = bytes
  noSidecar : ∀ f, s.sidecar f = none → dir.sidecar f = none
  sidecar : ∀ f a, s.sidecar f = some a →
    ∃ r, dir.sidecar f = some r ∧ ∀ bytes, r = .ok bytes → bytes = a.encode

/-- What can happen in a shard. A counter is given out once, and no file of the directory has a
counter that is still to be given out, so a new segment has no sidecar. -/
inductive Possible (z : Zstd) (d : Digest) (shard : FileName) (s : ShardFiles) : ShardAction → Prop
  | sealed {file : FileName} {bytes : Bytes} (hname : isSealedName file = true)
      (hnew : s.segment file = none) (hsidecar : s.sidecar file = none) :
      Possible z d shard s (.sealed file bytes)
  | confirmed {file : FileName} (hpresent : s.segment file ≠ none) :
      Possible z d shard s (.confirmed file)
  | attested {wab : WabDir} {files : List FileName} {write : FileName → Except String Unit}
      {written : List (FileName × Sidecar)} {result : Except String Unit}
      (hsees : Sees (wab.shard shard) s) (hfiles : sealedSegmentsIn wab shard = .ok files)
      (hrun : sealSegments z d wab shard write files .origin = (written, result)) :
      Possible z d shard s (.attested written)

/-- The shards that are reached by steps that all meet the condition. -/
inductive Reached (z : Zstd) (d : Digest) (shard : FileName)
    (condition : ShardFiles → ShardAction → Prop) : ShardFiles → Prop
  | start : Reached z d shard condition .empty
  | step {s : ShardFiles} {a : ShardAction} (hs : Reached z d shard condition s)
      (hpossible : Possible z d shard s a) (hcondition : condition s a) :
      Reached z d shard condition (s.apply a)

/-- A segment with a sidecar. -/
def ShardFiles.Attested (s : ShardFiles) (f : FileName) : Prop :=
  s.segment f ≠ none ∧ s.sidecar f ≠ none

/-- Segments come behind the attested ones, and go from the front or from behind the attested
ones. -/
def ChainOrder (s : ShardFiles) : ShardAction → Prop
  | .sealed file _ => ∀ g, s.Attested g → g.le file
  | .confirmed file => (∀ g, s.segment g ≠ none → file.le g) ∨ ∀ g, s.Attested g → g.le file
  | .attested _ => True

/-- The attested segments are a chain, and the others stand behind them. -/
structure Ordered (z : Zstd) (d : Digest) (shard : FileName) (s : ShardFiles) (head : ChainHead)
    (os : List Original) : Prop where
  attested : Attested z d shard head os
  names : ∀ f, s.segment f ≠ none → isSealedName f = true
  content : ∀ o ∈ os, s.segment o.file = some o.content.file ∧ s.sidecar o.file = some o.sidecar
  complete : ∀ f, s.Attested f → f ∈ os.map Original.file
  behind : ∀ o ∈ os, ∀ f, s.segment f ≠ none → s.sidecar f = none → o.file.le f

theorem Ordered.start (z : Zstd) (d : Digest) (shard : FileName) :
    Ordered z d shard .empty .origin [] :=
  ⟨⟨.nil, by simp, .nil⟩, fun _ h => absurd rfl h, by simp, fun _ h => absurd rfl h.1, by simp⟩

variable {s : ShardFiles} {head : ChainHead} {os : List Original}

theorem Ordered.attested_of_mem (h : Ordered z d shard s head os)
    (hf : f ∈ os.map Original.file) : s.Attested f := by
  obtain ⟨o, ho, rfl⟩ := mem_map.mp hf
  obtain ⟨hsegment, hsidecar⟩ := h.content o ho
  exact ⟨by rw [hsegment]; simp, by rw [hsidecar]; simp⟩

/-- A command comes to the attested segments first, in the order of the chain. -/
theorem Ordered.files {files : List FileName} (h : Ordered z d shard s head os)
    (hsees : Sees (wab.shard shard) s) (hfiles : sealedSegmentsIn wab shard = .ok files) :
    (∀ f, f ∈ files ↔ s.segment f ≠ none) ∧
    ∃ rest, files = os.map Original.file ++ rest ∧
      ∀ f ∈ rest, s.segment f ≠ none ∧ s.sidecar f = none := by
  obtain ⟨hnodup, hsorted, names, hnames, hmem⟩ := sealedSegmentsIn_sorted hfiles
  have hpresent : ∀ f, f ∈ files ↔ s.segment f ≠ none := by
    intro f
    rw [hmem]
    constructor
    · rintro ⟨hlisted, hname⟩
      exact (hsees.names names hnames f hname).mp hlisted
    · intro hf
      exact ⟨(hsees.names names hnames f (h.names f hf)).mpr hf, h.names f hf⟩
  refine ⟨hpresent, files.filter fun f => (s.sidecar f).isNone, ?_, ?_⟩
  · have hrest : ∀ f, f ∈ files.filter (fun f => (s.sidecar f).isNone) ↔
        s.segment f ≠ none ∧ s.sidecar f = none := by
      intro f
      rw [mem_filter, hpresent, Option.isNone_iff_eq_none]
    have hdisjoint : ∀ f ∈ os.map Original.file,
        ∀ g ∈ files.filter (fun f => (s.sidecar f).isNone), f ≠ g := by
      intro f hf g hg heq
      exact (h.attested_of_mem hf).2 (heq ▸ ((hrest g).mp hg).2)
    -- both are sorted, and have the same elements
    refine List.Perm.eq_of_pairwise' hsorted (List.pairwise_append.mpr ⟨?_, hsorted.filter _, ?_⟩)
      ((perm_ext_iff_of_nodup hnodup (List.nodup_append.mpr
        ⟨h.attested.nodup, hnodup.filter _, hdisjoint⟩)).mpr fun f => ?_)
    · exact h.attested.ascending.imp fun hlt => le_of_lt hlt
    · intro f hf g hg
      obtain ⟨o, ho, rfl⟩ := mem_map.mp hf
      exact h.behind o ho g ((hrest g).mp hg).1 ((hrest g).mp hg).2
    · rw [mem_append, hrest, hpresent]
      constructor
      · intro hf
        by_cases hsidecar : s.sidecar f = none
        · exact .inr ⟨hf, hsidecar⟩
        · exact .inl (h.complete f ⟨hf, hsidecar⟩)
      · rintro (hf | hf)
        · exact (h.attested_of_mem hf).1
        · exact hf.1
  · intro f hf
    rw [mem_filter, hpresent, Option.isNone_iff_eq_none] at hf
    exact hf

/-! ### One step -/

theorem Ordered.sealed_step (h : Ordered z d shard s head os)
    (hname : isSealedName file = true) (hnew : s.segment file = none)
    (hsidecar : s.sidecar file = none) (horder : ChainOrder s (.sealed file bytes)) :
    Ordered z d shard (s.apply (.sealed file bytes)) head os := by
  have hother : ∀ f, f ≠ file → (s.apply (.sealed file bytes)).segment f = s.segment f :=
    fun f hf => Function.update_of_ne hf _ _
  refine ⟨h.attested, fun f hf => ?_, fun o ho => ?_, fun f hf => ?_, fun o ho f hf hnone => ?_⟩
  · by_cases heq : f = file
    · rw [heq]
      exact hname
    · rw [hother f heq] at hf
      exact h.names f hf
  · obtain ⟨hsegment, hattested⟩ := h.content o ho
    have hne : o.file ≠ file := fun heq => by
      rw [heq, hnew] at hsegment
      cases hsegment
    exact ⟨(hother o.file hne).trans hsegment, hattested⟩
  · have hne : f ≠ file := fun heq => hf.2 (heq ▸ hsidecar)
    exact h.complete f ⟨hother f hne ▸ hf.1, hf.2⟩
  · by_cases heq : f = file
    · rw [heq]
      exact horder o.file (h.attested_of_mem (mem_map_of_mem ho))
    · rw [hother f heq] at hf
      exact h.behind o ho f hf hnone

theorem confirmed_segment (s : ShardFiles) (file f : FileName) :
    (s.apply (.confirmed file)).segment f ≠ none ↔ f ≠ file ∧ s.segment f ≠ none := by
  show Function.update s.segment file none f ≠ none ↔ _
  by_cases hf : f = file
  · rw [hf, Function.update_self]
    exact ⟨fun h => absurd rfl h, fun h => absurd rfl h.1⟩
  · rw [Function.update_of_ne hf]
    exact ⟨fun h => ⟨hf, h⟩, fun h => h.2⟩

/-- An attested segment goes: what is left of the chain is still one. -/
theorem Ordered.removed {head' : ChainHead} {os' : List Original} (h : Ordered z d shard s head os)
    (hchained : Chained z d shard head' os') (hsub : os'.Sublist os)
    (hleft : ∀ o ∈ os', o.file ≠ file) (hgone : ∀ o ∈ os, o.file ≠ file → o ∈ os') :
    Ordered z d shard (s.apply (.confirmed file)) head' os' := by
  have hother : ∀ f, f ≠ file → (s.apply (.confirmed file)).segment f = s.segment f :=
    fun f hf => Function.update_of_ne hf _ _
  have hpresent := fun f => (confirmed_segment s file f).mp
  refine ⟨⟨hchained, fun o ho => h.attested.sealed o (hsub.subset ho),
    h.attested.ascending.sublist (hsub.map _)⟩, fun f hf => h.names f (hpresent f hf).2,
    fun o ho => ?_, fun f hf => ?_, fun o ho f hf hnone => ?_⟩
  · rw [hother o.file (hleft o ho)]
    exact h.content o (hsub.subset ho)
  · obtain ⟨hne, hsegment⟩ := hpresent f hf.1
    obtain ⟨o, ho, rfl⟩ := mem_map.mp (h.complete f ⟨hsegment, hf.2⟩)
    exact mem_map_of_mem (hgone o ho hne)
  · exact h.behind o (hsub.subset ho) f (hpresent f hf).2 hnone

theorem Ordered.confirmed_step (h : Ordered z d shard s head os)
    (horder : ChainOrder s (.confirmed file)) :
    ∃ head' os', Ordered z d shard (s.apply (.confirmed file)) head' os' := by
  by_cases hfile : file ∈ os.map Original.file
  · obtain ⟨o, ho, rfl⟩ := mem_map.mp hfile
    obtain ⟨older, newer, rfl⟩ := append_of_mem ho
    have hascending := h.attested.ascending
    rw [map_append, map_cons, pairwise_append, pairwise_cons] at hascending
    obtain ⟨-, ⟨hnewer, -⟩, holder⟩ := hascending
    have hne : ∀ {a b : FileName}, a.text.toList < b.text.toList → a ≠ b :=
      fun hlt heq => lt_irrefl _ (heq ▸ hlt)
    have hbefore : ∀ p ∈ older, p.file.text.toList < o.file.text.toList := fun p hp =>
      holder _ (mem_map_of_mem hp) _ mem_cons_self
    have hafter : ∀ p ∈ newer, o.file.text.toList < p.file.text.toList := fun p hp =>
      hnewer _ (mem_map_of_mem hp)
    obtain ⟨hchained, hrest⟩ := h.attested.chained.split
    rcases horder with hfront | hlast
    · -- the oldest: the chain starts with the next one
      have hnone : older = [] := by
        refine eq_nil_iff_forall_not_mem.mpr fun p hp => ?_
        have hp' : p.file ∈ (older ++ o :: newer).map Original.file :=
          mem_map_of_mem (mem_append_left _ hp)
        exact absurd (hbefore p hp) (not_lt_of_ge (hfront p.file (h.attested_of_mem hp').1))
      subst hnone
      cases hrest with
      | cons _ _ hnext =>
        refine ⟨o.sidecar.head, newer, h.removed hnext (sublist_cons_self o newer)
          (fun p hp => (hne (hafter p hp)).symm) fun p hp hpo => ?_⟩
        rcases mem_cons.mp hp with rfl | hp
        · exact absurd rfl hpo
        · exact hp
    · -- the newest: the chain ends before it
      have hnone : newer = [] := by
        refine eq_nil_iff_forall_not_mem.mpr fun p hp => ?_
        have hp' : p.file ∈ (older ++ o :: newer).map Original.file :=
          mem_map_of_mem (mem_append_right _ (mem_cons_of_mem _ hp))
        exact absurd (hafter p hp) (not_lt_of_ge (hlast p.file (h.attested_of_mem hp')))
      subst hnone
      refine ⟨head, older, h.removed hchained (sublist_append_left older [o])
        (fun p hp => hne (hbefore p hp)) fun p hp hpo => ?_⟩
      rcases mem_append.mp hp with hp | hp
      · exact hp
      · exact absurd (congrArg Original.file (mem_singleton.mp hp)) hpo
  · -- it was not attested
    refine ⟨head, os, h.removed h.attested.chained (List.Sublist.refl os) (fun o ho heq => ?_)
      fun o ho _ => ho⟩
    exact hfile (heq ▸ mem_map_of_mem ho)

theorem writeSidecars_other {written : List (FileName × Sidecar)}
    {sidecar : FileName → Option Sidecar}
    (hf : f ∉ written.map Prod.fst) : writeSidecars sidecar written f = sidecar f := by
  induction written generalizing sidecar with
  | nil => rfl
  | cons w written ih =>
    rw [map_cons, mem_cons, not_or] at hf
    show writeSidecars (Function.update sidecar w.1 (some w.2)) written f = sidecar f
    rw [ih hf.2, Function.update_of_ne hf.1]

theorem writeSidecars_written {a : Sidecar} {written : List (FileName × Sidecar)}
    {sidecar : FileName → Option Sidecar} (hnodup : (written.map Prod.fst).Nodup)
    (h : (f, a) ∈ written) : writeSidecars sidecar written f = some a := by
  induction written generalizing sidecar with
  | nil => cases h
  | cons w written ih =>
    rw [map_cons, nodup_cons] at hnodup
    show writeSidecars (Function.update sidecar w.1 (some w.2)) written f = some a
    rcases mem_cons.mp h with rfl | h
    · rw [writeSidecars_other hnodup.1, Function.update_self]
    · exact ih hnodup.2 h

/-- A chain goes on from its last sidecar, wherever it started. -/
theorem Chained.extend {new : List Original} (h : Chained z d shard head os)
    (hnew : Chained z d shard (headAfter .origin os) new) :
    ∃ head', Chained z d shard head' (os ++ new) := by
  cases os with
  | nil => exact ⟨.origin, hnew⟩
  | cons o os => exact ⟨head, h.append hnew⟩

theorem Ordered.attested_step {written : List (FileName × Sidecar)}
    (h : Ordered z d shard s head os) (hpossible : Possible z d shard s (.attested written)) :
    ∃ head' os', Ordered z d shard (s.apply (.attested written)) head' os' := by
  obtain _ | _ | @⟨wab, files, write, _, _, hsees, hfiles, hrun⟩ := hpossible
  obtain ⟨hpresent, rest, rfl, hrest⟩ := h.files hsees hfiles
  have hsidecars : ∀ o ∈ os, ∃ r, (wab.shard shard).sidecar o.file = some r ∧
      ∀ bytes, r = .ok bytes → Sidecar.decode bytes = .ok o.sidecar := by
    intro o ho
    obtain ⟨r, hr, hbytes⟩ := hsees.sidecar o.file o.sidecar (h.content o ho).2
    refine ⟨r, hr, fun bytes hok => ?_⟩
    rw [hbytes bytes hok]
    exact h.attested.chained.decodes o ho
  rcases sealSegments_resumes rest .origin hsidecars with ⟨e, herror⟩ | hresumed
  · -- a sidecar could not be read, and none was written
    rw [herror] at hrun
    cases hrun
    exact ⟨head, os, h⟩
  · obtain ⟨new, left, hnew, rfl, -, hwritten, hcontent⟩ := sealSegments_fresh write
      (headAfter .origin os) fun f hf => hsees.noSidecar f (hrest f hf).2
    rw [← hresumed, hrun] at hwritten
    obtain rfl : written = new.map fun o => (o.file, o.sidecar) := hwritten
    obtain ⟨head', hchained⟩ := h.attested.chained.extend hnew
    have hascending := sealedSegmentsIn_ascending hfiles
    rw [← append_assoc, ← map_append] at hascending
    obtain ⟨hbefore, -, hbehind⟩ := List.pairwise_append.mp hascending
    have hfirst : (new.map fun o => (o.file, o.sidecar)).map Prod.fst
        = new.map Original.file := by
      rw [map_map]
      rfl
    have hnewFile : ∀ o ∈ new, s.segment o.file ≠ none ∧ s.sidecar o.file = none := fun o ho =>
      hrest o.file (mem_append_left _ (mem_map_of_mem ho))
    have hattested : Attested z d shard head' (os ++ new) := by
      refine ⟨hchained, fun o ho => ?_, hbefore⟩
      rcases mem_append.mp ho with ho | ho
      · exact h.attested.sealed o ho
      · exact h.names o.file (hnewFile o ho).1
    -- the sidecars now: those of the new segments, and the others as before
    have hwritten : ∀ o ∈ new,
        writeSidecars s.sidecar (new.map fun o => (o.file, o.sidecar)) o.file = some o.sidecar := by
      intro o ho
      have hnodup := hattested.nodup
      rw [map_append, nodup_append] at hnodup
      exact writeSidecars_written (hfirst ▸ hnodup.2.1) (mem_map_of_mem ho)
    have hkept : ∀ f, f ∉ new.map Original.file →
        writeSidecars s.sidecar (new.map fun o => (o.file, o.sidecar)) f = s.sidecar f :=
      fun f hf => writeSidecars_other (hfirst ▸ hf)
    refine ⟨head', os ++ new, hattested, h.names, fun o ho => ?_, fun f hf => ?_,
      fun o ho f hf hnone => ?_⟩
    · rcases mem_append.mp ho with ho | ho
      · refine ⟨(h.content o ho).1, ?_⟩
        have hother : o.file ∉ new.map Original.file := fun hf => by
          obtain ⟨p, hp, heq⟩ := mem_map.mp hf
          have hbare := (hnewFile p hp).2
          rw [heq] at hbare
          exact (h.attested_of_mem (mem_map_of_mem ho)).2 hbare
        exact (hkept o.file hother).trans (h.content o ho).2
      · obtain ⟨bytes, hbytes⟩ := Option.ne_none_iff_exists'.mp (hnewFile o ho).1
        have hfile := hsees.segment o.file bytes o.content hbytes (hcontent o ho)
        exact ⟨by rw [hfile]; exact hbytes, hwritten o ho⟩
    · rw [map_append, mem_append]
      by_cases hf' : f ∈ new.map Original.file
      · exact .inr hf'
      · exact .inl (h.complete f ⟨hf.1, fun hnone => hf.2 ((hkept f hf').trans hnone)⟩)
    · have hf' : f ∉ new.map Original.file := fun hf' => by
        obtain ⟨p, hp, rfl⟩ := mem_map.mp hf'
        rw [show (s.apply (.attested (new.map fun o => (o.file, o.sidecar)))).sidecar p.file
          = some p.sidecar from hwritten p hp] at hnone
        cases hnone
      have hbare : s.sidecar f = none := (hkept f hf').symm.trans hnone
      have hleft : f ∈ left := by
        rcases mem_append.mp ((hpresent f).mpr hf) with hf | hf
        · exact absurd hbare (h.attested_of_mem hf).2
        · exact (mem_append.mp hf).resolve_left hf'
      exact le_of_lt (hbehind o.file (mem_map_of_mem ho) f hleft)

/-- What one step preserves. -/
theorem Ordered.step {a : ShardAction} (h : Ordered z d shard s head os)
    (hpossible : Possible z d shard s a) (horder : ChainOrder s a) :
    ∃ head' os', Ordered z d shard (s.apply a) head' os' := by
  cases hpossible with
  | sealed hname hnew hsidecar => exact ⟨head, os, h.sealed_step hname hnew hsidecar horder⟩
  | confirmed _ => exact h.confirmed_step horder
  | attested hsees hfiles hrun => exact h.attested_step (.attested hsees hfiles hrun)

theorem Reached.ordered (h : Reached z d shard ChainOrder s) :
    ∃ head os, Ordered z d shard s head os := by
  induction h with
  | start => exact ⟨.origin, [], .start z d shard⟩
  | step _ hpossible horder ih =>
    obtain ⟨head, os, h⟩ := ih
    exact h.step hpossible horder

/-! ### What `verify` says of it -/

/-- No alarm. -/
structure VerifyReport.Quiet (r : VerifyReport) : Prop where
  diverged : r.diverged = []
  brokenLinks : r.brokenLinks = []

variable {dir : ShardDir}

/-- The segment of a chain as a command finds it: its sidecar and its bytes are there, where they
can be read. -/
structure Found (dir : ShardDir) (o : Original) : Prop where
  sidecar : ∃ r, dir.sidecar o.file = some r ∧ ∀ bytes, r = .ok bytes → bytes = o.sidecar.encode
  content : ∀ c, dir.segment o.file = .ok c → c.file = o.content.file

variable {o : Original}

theorem Found.reads {c : SegmentFile}
    (h : Found dir o) (horiginal : Reads z o.content o.header o.records)
    (hc : dir.segment o.file = .ok c) (hreads : Reads z c m records) :
    m = o.header ∧ records = o.records := by
  have hnow := hreads.unfaulted
  rw [h.content c hc] at hnow
  exact hnow.unique horiginal.unfaulted

theorem Found.not_diverged {expected actual : ChainHead} {n : Option Nat} (h : Found dir o)
    (hchain : chainSegment z d (segmentIn shard o.file) (.ok o.content) head = .ok o.sidecar)
    (horiginal : Reads z o.content o.header o.records) :
    verifySegment z d (segmentIn shard o.file) (dir.sidecar o.file) (dir.segment o.file)
      ≠ .ok (.diverged n expected actual) := by
  intro hverdict
  obtain ⟨r, hr, hbytes⟩ := h.sidecar
  obtain ⟨hprev, hhead, hcount, hdecode⟩ := chainSegment_reads hchain horiginal
  rcases verifySegment_inv hverdict with ⟨hnone, -⟩ |
    ⟨bytes, sidecar, c, m, records, hs, -, hc, hreads, -, -⟩
  · rw [hr] at hnone
    cases hnone
  obtain ⟨rfl, rfl⟩ := h.reads horiginal hc hreads
  rw [hr] at hs
  rw [hr, hs, hc, hbytes bytes (Option.some.inj hs), verifySegment_reads hdecode hreads, hprev,
    hhead, hcount, if_pos ⟨rfl, rfl⟩] at hverdict
  cases hverdict

theorem VerifyReport.Quiet.judge {name : String}
    {verdict : Except AttestError Verdict} (hr : r.Quiet)
    (h : ∀ n expected actual, verdict ≠ .ok (.diverged n expected actual)) :
    (r.judge name verdict).Quiet := by
  cases verdict with
  | error e => exact ⟨hr.diverged, hr.brokenLinks⟩
  | ok verdict =>
    cases verdict with
    | verified => exact ⟨hr.diverged, hr.brokenLinks⟩
    | diverged n expected actual => exact absurd rfl (h n expected actual)
    | missingSidecar => exact ⟨hr.diverged, hr.brokenLinks⟩

theorem verifyTurn_quiet (hst : st.2.Quiet)
    (hlink : brokenLink (segmentIn shard file).name st.1 (readSidecar dir file) = [])
    (hverdict : ∀ n expected actual, verifySegment z d (segmentIn shard file) (dir.sidecar file)
      (dir.segment file) ≠ .ok (.diverged n expected actual)) :
    (verifyTurn z d shard dir st file).2.Quiet := by
  unfold verifyTurn
  dsimp only
  rw [hlink]
  refine VerifyReport.Quiet.judge ⟨hst.diverged, ?_⟩ hverdict
  rw [append_nil]
  exact hst.brokenLinks

/-- A segment of the chain, behind the one that it was chained from or behind none: the walk goes on
with its head, or with none if it cannot be read. -/
theorem verifyTurn_found (hst : st.2.Quiet)
    (hexpected : st.1 = none ∨ st.1 = some head) (h : Found dir o)
    (hchain : chainSegment z d (segmentIn shard o.file) (.ok o.content) head = .ok o.sidecar)
    (horiginal : Reads z o.content o.header o.records) :
    (verifyTurn z d shard dir st o.file).2.Quiet ∧
      ((verifyTurn z d shard dir st o.file).1 = none ∨
        (verifyTurn z d shard dir st o.file).1 = some o.sidecar.head) := by
  obtain ⟨r, hr, hbytes⟩ := h.sidecar
  obtain ⟨hprev, hhead, -, hdecode⟩ := chainSegment_reads hchain horiginal
  have hquiet : brokenLink (segmentIn shard o.file).name st.1 (readSidecar dir o.file) = [] →
      (verifyTurn z d shard dir st o.file).2.Quiet := fun hlink =>
    verifyTurn_quiet hst hlink fun _ _ _ => h.not_diverged hchain horiginal
  show _ ∧ ((advance z d shard dir st.1 o.file).1 = none ∨
    (advance z d shard dir st.1 o.file).1 = some o.sidecar.head)
  cases r with
  | ok bytes =>
    have hread : readSidecar dir o.file = some o.sidecar := by
      rw [readSidecar, hr]
      dsimp only
      rw [hbytes bytes rfl, hdecode]
      rfl
    refine ⟨hquiet ?_, .inr (by rw [advance_sidecar hread])⟩
    rw [hread]
    rcases hexpected with hnone | hsome
    · rw [hnone]
      rfl
    · rw [hsome]
      exact if_neg fun hbroken => hbroken.2 hprev
  | error e =>
    have hread : readSidecar dir o.file = none := by rw [readSidecar, hr]
    refine ⟨hquiet ?_, ?_⟩
    · rw [hread]
      cases st.1 <;> rfl
    rcases hexpected with hnone | hsome
    · exact .inl (by rw [hnone, advance_none hread])
    -- the head is recomputed
    rw [hsome]
    unfold advance
    rw [hread]
    dsimp only
    split
    next recomputed hagain =>
      obtain ⟨c, m, records, hc, hreads, -, hhead', -⟩ := chainSegment_ok hagain
      obtain ⟨rfl, rfl⟩ := h.reads horiginal hc hreads
      exact .inr (by rw [hhead', hhead])
    · exact .inl rfl

/-- The walk over the segments of the chain. -/
theorem walk_found {st : Option ChainHead × VerifyReport} (hchained : Chained z d shard head os)
    (hfound : ∀ o ∈ os, Found dir o) (hst : st.2.Quiet)
    (hexpected : st.1 = none ∨ st.1 = some head) :
    ((os.map Original.file).foldl (verifyTurn z d shard dir) st).2.Quiet := by
  induction hchained generalizing st with
  | nil => exact hst
  | cons hchain horiginal _ ih =>
    obtain ⟨hquiet, hnext⟩ :=
      verifyTurn_found hst hexpected (hfound _ mem_cons_self) hchain horiginal
    exact ih (fun p hp => hfound p (mem_cons_of_mem _ hp)) hquiet hnext

/-- The walk over segments without sidecars. -/
theorem walk_bare {files : List FileName} {st : Option ChainHead × VerifyReport}
    (hnone : ∀ f ∈ files, dir.sidecar f = none) (hst : st.2.Quiet) :
    (files.foldl (verifyTurn z d shard dir) st).2.Quiet := by
  induction files generalizing st with
  | nil => exact hst
  | cons file files ih =>
    have hbare := hnone file mem_cons_self
    refine ih (fun f hf => hnone f (mem_cons_of_mem _ hf)) (verifyTurn_quiet hst ?_ ?_)
    · rw [readSidecar, hbare]
      cases st.1 <;> rfl
    · intro n expected actual hverdict
      rw [hbare] at hverdict
      cases hverdict

theorem Ordered.verifyShard_quiet (h : Ordered z d shard s head os)
    (hsees : Sees (wab.shard shard) s) (hr : r.Quiet) : (verifyShard z d wab r shard).Quiet := by
  unfold verifyShard
  split
  · exact ⟨hr.diverged, hr.brokenLinks⟩
  rename_i files hfiles
  obtain ⟨-, rest, rfl, hrest⟩ := h.files hsees hfiles
  rw [foldl_append]
  refine walk_bare (fun f hf => hsees.noSidecar f (hrest f hf).2)
    (walk_found h.attested.chained (fun o ho => ?_) hr (.inl rfl))
  obtain ⟨hsegment, hsidecar⟩ := h.content o ho
  exact ⟨hsees.sidecar o.file o.sidecar hsidecar,
    fun c hc => hsees.segment o.file o.content.file c hsegment hc⟩

theorem verifyShards_quiet (hshards : ∀ shard r, r.Quiet → (verifyShard z d wab r shard).Quiet)
    {dirs : List FileName} {r : VerifyReport} (hr : r.Quiet) :
    (dirs.foldl (verifyShard z d wab) r).Quiet := by
  induction dirs generalizing r with
  | nil => exact hr
  | cons shard dirs ih => exact ih (hshards shard r hr)

/-- No false alarm: in every shard let segments be sealed, delivered and attested in any
interleaving, each segment sealed while no attested one sorts behind it, and deleted while it is the
oldest of the shard or no newer one is attested. Then a later `verify` reports neither a divergence
nor a broken link, whatever it can list, open and read. -/
theorem no_false_alarm {wab : WabDir} {shards : FileName → ShardFiles}
    (hreached : ∀ shard, Reached z d shard ChainOrder (shards shard))
    (hsees : ∀ shard, Sees (wab.shard shard) (shards shard))
    (filter : Option UInt16) (metrics : Option (Except String Unit)) :
    (cmdAttestVerify z d wab filter metrics).diverged = [] ∧
    (cmdAttestVerify z d wab filter metrics).brokenLinks = [] := by
  have hshards : ∀ shard r, r.Quiet → (verifyShard z d wab r shard).Quiet := by
    intro shard r hr
    obtain ⟨head, os, h⟩ := (hreached shard).ordered
    exact h.verifyShard_quiet (hsees shard) hr
  have hquiet : (cmdAttestVerify z d wab filter metrics).Quiet := by
    unfold cmdAttestVerify
    cases hdirs : shardDirs wab filter with
    | error e =>
      dsimp only
      split <;> exact ⟨rfl, rfl⟩
    | ok dirs =>
      have hall : (dirs.foldl (verifyShard z d wab) .start).Quiet :=
        verifyShards_quiet hshards ⟨rfl, rfl⟩
      dsimp only
      split <;> exact ⟨hall.diverged, hall.brokenLinks⟩
  exact ⟨hquiet.diverged, hquiet.brokenLinks⟩

/-! ### Runs of a shard -/

theorem nodup_of_listing (h : names.Nodup) (found : List FileName)
    (hfound : (.ok names : Except IoError (List FileName)) = .ok found) : found.Nodup := by
  rw [← Except.ok.inj hfound]
  exact h

/-- The directory with these files, all of which can be read. -/
def ShardFiles.readable (s : ShardFiles) (names : List FileName) (h : names.Nodup) : ShardDir where
  listing := .ok names
  segment := fun f =>
    match s.segment f with
    | some bytes => .ok ⟨bytes, noFault⟩
    | none => .error (IoError.new .notFound "No such file or directory (os error 2)")
  sidecar := fun f => (s.sidecar f).map fun a => .ok a.encode
  nodup := nodup_of_listing h

theorem ShardFiles.sees_readable (hnodup : names.Nodup)
    (h : ∀ f, f ∈ names ↔ s.segment f ≠ none) : Sees (s.readable names hnodup) s := by
  refine ⟨fun found hfound f _ => ?_, fun f bytes c hf hc => ?_, fun f hf => ?_, fun f a hf => ?_⟩
  · rw [← Except.ok.inj hfound]
    exact h f
  · unfold readable at hc
    dsimp only at hc
    rw [hf] at hc
    rw [← Except.ok.inj hc]
  · show (s.sidecar f).map _ = none
    rw [hf]
    rfl
  · refine ⟨.ok a.encode, ?_, fun bytes hbytes => (Except.ok.inj hbytes).symm⟩
    show (s.sidecar f).map _ = _
    rw [hf]
    rfl

/-- The shard after these segments were sealed, the last of them first. -/
def sealedAll : List Original → ShardFiles
  | [] => .empty
  | o :: os => (sealedAll os).apply (.sealed o.file o.content.file)

theorem sealedAll_segment (f : FileName) (os : List Original) :
    f ∈ os.map Original.file ↔ (sealedAll os).segment f ≠ none := by
  induction os with
  | nil => exact ⟨fun h => absurd h not_mem_nil, fun h => absurd rfl h⟩
  | cons o os ih =>
    rw [map_cons, mem_cons, ih, sealedAll]
    show _ ↔ Function.update (sealedAll os).segment o.file (some o.content.file) f ≠ none
    by_cases hf : f = o.file
    · rw [hf, Function.update_self]
      simp
    · rw [Function.update_of_ne hf]
      exact or_iff_right hf

theorem Reached.mono {condition condition' : ShardFiles → ShardAction → Prop}
    (hle : ∀ s a, condition s a → condition' s a) (h : Reached z d shard condition s) :
    Reached z d shard condition' s := by
  induction h with
  | start => exact .start
  | step _ hpossible hcondition ih => exact .step ih hpossible (hle _ _ hcondition)

/-! ### Three segments -/

def segmentThree : FileName := ⟨"seg_00000003.wab.sealed", by decide⟩
def originalThree : Original := chainedFrom segmentThree [[9]] originalTwo.sidecar.head

/-- Three segments were sealed, and then attested. -/
def attestedThree : ShardFiles :=
  (sealedAll [originalThree, originalTwo, originalOne]).apply (.attested
    ([originalOne, originalTwo, originalThree].map fun o => (o.file, o.sidecar)))

def oneShard (s : ShardFiles) (names : List FileName) (h : names.Nodup) : WabDir where
  path := "/var/weir"
  listing := .ok [(shardZero, true)]
  shard := fun shard => if shard = shardZero then s.readable names h else
    ShardFiles.empty.readable [] nodup_nil

theorem attestedThree_segment (f : FileName) :
    f ∈ [segmentThree, segmentTwo, segmentOne] ↔ attestedThree.segment f ≠ none :=
  sealedAll_segment f [originalThree, originalTwo, originalOne]

theorem confirmed_names (file f : FileName) :
    f ∈ [segmentThree, segmentTwo, segmentOne].erase file ↔
      (attestedThree.apply (.confirmed file)).segment f ≠ none := by
  have hnodup : [segmentThree, segmentTwo, segmentOne].Nodup := by decide
  rw [hnodup.mem_erase_iff, confirmed_segment, attestedThree_segment]

theorem attestedThree_reached : Reached .plain modDigest shardZero ChainOrder attestedThree := by
  have hnone : ∀ (s : ShardFiles) (g : FileName), s.sidecar g = none → ¬s.Attested g :=
    fun s g hg h => h.2 hg
  have hsealed : Reached .plain modDigest shardZero ChainOrder
      (sealedAll [originalThree, originalTwo, originalOne]) :=
    .step (.step (.step .start (.sealed (by decide +kernel) rfl rfl)
      fun g hg => absurd hg (hnone _ g rfl)) (.sealed (by decide +kernel) (by decide +kernel) rfl)
      fun g hg => absurd hg (hnone _ g rfl)) (.sealed (by decide +kernel) (by decide +kernel) rfl)
      fun g hg => absurd hg (hnone _ g rfl)
  let wab := oneShard (sealedAll [originalThree, originalTwo, originalOne])
    [segmentThree, segmentTwo, segmentOne] (by decide)
  have hsees : Sees (wab.shard shardZero) (sealedAll [originalThree, originalTwo, originalOne]) :=
    ShardFiles.sees_readable (by decide) attestedThree_segment
  have hfiles : sealedSegmentsIn wab shardZero = .ok [segmentOne, segmentTwo, segmentThree] := by
    decide +kernel
  have hrun : sealSegments .plain modDigest wab shardZero (fun _ => .ok ())
      [segmentOne, segmentTwo, segmentThree] .origin
      = ([originalOne, originalTwo, originalThree].map fun o => (o.file, o.sidecar), .ok ()) := by
    decide +kernel
  exact .step hsealed (.attested hsees hfiles hrun) trivial

/-- The drain delivers the segment in the middle while the oldest is stranded. -/
def middleConfirmed : ShardFiles := attestedThree.apply (.confirmed segmentTwo)

def middleConfirmedWab : WabDir := oneShard middleConfirmed [segmentThree, segmentOne] (by decide)

set_option maxRecDepth 1000 in
/-- Nobody has touched a file, and the link behind the delivered segment is reported as broken. -/
theorem middle_confirmed_alarms :
    Reached .plain modDigest shardZero (fun _ _ => True) middleConfirmed ∧
    Sees (middleConfirmedWab.shard shardZero) middleConfirmed ∧
    (cmdAttestVerify .plain modDigest middleConfirmedWab none none).brokenLinks ≠ [] := by
  refine ⟨?_, ShardFiles.sees_readable (by decide) (confirmed_names segmentTwo), by decide +kernel⟩
  refine .step (attestedThree_reached.mono fun _ _ _ => trivial) (.confirmed ?_) trivial
  exact (attestedThree_segment segmentTwo).mp (by simp)

/-- The drain delivers the oldest segment. -/
def oldestConfirmed : ShardFiles := attestedThree.apply (.confirmed segmentOne)

def oldestConfirmedShards (shard : FileName) : ShardFiles :=
  if shard = shardZero then oldestConfirmed else .empty

def oldestConfirmedWab : WabDir := oneShard oldestConfirmed [segmentThree, segmentTwo] (by decide)

theorem no_false_alarm_oldest :
    Reached .plain modDigest shardZero ChainOrder oldestConfirmed ∧
    (cmdAttestVerify .plain modDigest oldestConfirmedWab none none).diverged = [] ∧
    (cmdAttestVerify .plain modDigest oldestConfirmedWab none none).brokenLinks = [] := by
  have hreached : Reached .plain modDigest shardZero ChainOrder oldestConfirmed := by
    refine .step attestedThree_reached (.confirmed ?_) (.inl fun g hg => ?_)
    · exact (attestedThree_segment segmentOne).mp (by simp)
    have hall : ∀ f ∈ [segmentThree, segmentTwo, segmentOne], segmentOne.le f := by decide +kernel
    exact hall g ((attestedThree_segment g).mpr hg)
  have hshards : ∀ shard,
      Reached .plain modDigest shard ChainOrder (oldestConfirmedShards shard) := by
    intro shard
    by_cases hshard : shard = shardZero
    · rw [oldestConfirmedShards, if_pos hshard, hshard]
      exact hreached
    · rw [oldestConfirmedShards, if_neg hshard]
      exact .start
  have hsees : ∀ shard, Sees (oldestConfirmedWab.shard shard) (oldestConfirmedShards shard) := by
    intro shard
    show Sees (if _ then _ else _) _
    by_cases hshard : shard = shardZero
    · rw [oldestConfirmedShards, if_pos hshard, if_pos hshard]
      exact ShardFiles.sees_readable _ (confirmed_names segmentOne)
    · rw [oldestConfirmedShards, if_neg hshard, if_neg hshard]
      exact ShardFiles.sees_readable _ fun f => ⟨fun hf => absurd hf not_mem_nil,
        fun hf => absurd rfl hf⟩
  exact ⟨hreached, no_false_alarm hshards hsees none none⟩

end Weir.Ctl

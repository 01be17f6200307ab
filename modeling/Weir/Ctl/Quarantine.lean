import Mathlib.Data.List.DropRight
import Weir.Ctl.Command
import Weir.Wab.Framing

/-!
# `quarantine requeue` (`weir-ctl/src/main.rs`)

A quarantined segment is read by the forensic reader, what could be read is pushed, and
the file is deleted if the walk came to a clean end with something to show for it.

> `quarantine_requeue_accounts`: a file that a run deletes was read to its end, and every
> byte of it is accounted for.

> `forensic_exact`: after a change to one length field that the reader refuses, or behind which
> no intact frame but the segment's own records stands, only original records are yielded.
-/

namespace Weir.Ctl

open Weir.Lib Weir.Wab List

structure SkippedRecord where
  offset : Nat
  declaredLen : Nat
  reason : String
  deriving DecidableEq, Repr

structure QuarantineReport where
  recovered : Nat
  skipped : Nat
  desynced : Bool
  skippedRecords : List SkippedRecord
  desyncReason : Option String
  deriving DecidableEq, Repr

/-- The loop of `quarantine_read` over the items. -/
def QuarantineReport.add (acc : List Bytes × QuarantineReport) :
    RecoveryItem → List Bytes × QuarantineReport
  | .record payload =>
    (acc.1 ++ [payload], { acc.2 with recovered := acc.2.recovered + 1 })
  | .skipped offset declaredLen reason =>
    (acc.1, { acc.2 with
      skipped := acc.2.skipped + 1
      skippedRecords := acc.2.skippedRecords ++ [⟨offset, declaredLen, reason⟩] })
  | .desynced _ reason => (acc.1, { acc.2 with desynced := true, desyncReason := some reason })

/-- `quarantine_read`. -/
def quarantineRead (z : Zstd) (opened : Opened) : Except IoError (List Bytes × QuarantineReport) :=
  match RecoveryReader.open opened.file opened.fault opened.stat with
  | .error e => .error e
  | .ok reader =>
    .ok ((reader.readAll z opened.fault).foldl QuarantineReport.add
      ([], ⟨0, 0, false, [], none⟩))

/-- `is_quarantined_segment_name`: either extension, with or without the suffix of a name
collision. -/
def isQuarantinedSegmentName (name : String) : Bool :=
  let chars := name.toList
  let tail := chars.rtakeWhile (· ≠ '.')
  let head := (chars.rdropWhile (· ≠ '.')).dropLast
  let stem :=
    if '.' ∈ chars ∧ tail ≠ [] ∧ tail.all Char.isDigit then head else chars
  extActive.toList.isSuffixOf stem || extSealed.toList.isSuffixOf stem

/-- The command line. -/
structure RequeueArgs where
  wabDir : String
  socket : String
  durability : Durability
  yes : Bool

/-- What the loop counts and collects. -/
structure QuarantineRequeueOutcome where
  requeuedRecords : Nat
  segmentsCleared : Nat
  desyncedLeft : List String
  emptyLeft : List String
  unreadable : List String
  deleteFailures : List String
  skippedRecordsTotal : Nat
  skippedSegments : List (String × List SkippedRecord)

def QuarantineRequeueOutcome.start : QuarantineRequeueOutcome := ⟨0, 0, [], [], [], [], 0, []⟩

/-- What was requeued and skipped, once all pushes of a segment were accepted. -/
def QuarantineRequeueOutcome.pushed (o : QuarantineRequeueOutcome) (name : String)
    (records : List Bytes) (report : QuarantineReport) : QuarantineRequeueOutcome :=
  let o := { o with requeuedRecords := o.requeuedRecords + records.length }
  if report.skipped > 0 then
    { o with
      skippedRecordsTotal := o.skippedRecordsTotal + report.skipped
      skippedSegments := o.skippedSegments ++ [(name, report.skippedRecords)] }
  else o

/-- One turn of the loop of `quarantine_requeue_write`. -/
def requeueSegment (z : Zstd) (args : RequeueArgs) (o : QuarantineRequeueOutcome) (name : String) :
    Cmd (Except String QuarantineRequeueOutcome) := do
  let path := args.wabDir ++ "/quarantine/" ++ name
  let unreadable (e : IoError) : QuarantineRequeueOutcome :=
    { o with unreadable := o.unreadable ++ ["open " ++ path ++ ": " ++ e.message] }
  match ← ask (.open name) with
  | .error e => return .ok (unreadable e)
  | .ok opened =>
    match quarantineRead z opened with
    | .error e => return .ok (unreadable e)
    | .ok (records, report) =>
      match ← pushAll args.durability records 0 with
      | some (i, e) =>
        return .error (s!"push failed after requeuing {o.requeuedRecords + i} record(s) from "
          ++ s!"{o.segmentsCleared} segment(s); {path} left in place ({i}/{records.length} of it "
          ++ "pushed — those may duplicate on the next run): " ++ e)
      | none =>
        let o := o.pushed name records report
        if report.desynced then
          return .ok { o with desyncedLeft := o.desyncedLeft ++ [path
            ++ s!": desynced after {records.length} record(s) recovered and requeued above "
            ++ s!"({report.skipped} skipped) — unread bytes remain past the desync point and "
            ++ "were NOT deleted"] }
        else if records = [] then
          return .ok { o with emptyLeft := o.emptyLeft ++ [path
            ++ s!": no recoverable records ({report.skipped} skipped, clean end)"] }
        else
          match ← ask (.remove name) with
          | .ok () => return .ok { o with segmentsCleared := o.segmentsCleared + 1 }
          | .error e =>
            return .ok { o with deleteFailures := o.deleteFailures ++ [path ++ ": " ++ e.message] }

/-- The problems that make a run fail. -/
def QuarantineRequeueOutcome.problems (o : QuarantineRequeueOutcome) : List String :=
  (if o.deleteFailures = [] then []
    else [s!"{o.deleteFailures.length} segment(s) were requeued but could not be deleted"])
  ++ (if o.desyncedLeft = [] then []
    else [s!"{o.desyncedLeft.length} quarantined segment(s) desynced and were left in place with "
      ++ "unread bytes remaining"])
  ++ (if o.emptyLeft = [] then []
    else [s!"{o.emptyLeft.length} quarantined segment(s) yielded no recoverable records and were "
      ++ "left in place"])
  ++ (if o.unreadable = [] then []
    else [s!"{o.unreadable.length} quarantined segment(s) could not be read and were left in "
      ++ "place"])

/-- What a run reports, if it got to its end, and how it exits. -/
structure Requeued where
  outcome : Option QuarantineRequeueOutcome
  result : Except String Unit

def refusedBuffered : String :=
  "quarantine requeue refuses --durability buffered: its ack means only \"entered "
    ++ "the in-memory queue\", not durably written, and this command deletes the "
    ++ "quarantined segment — often the only surviving copy of the record — once every "
    ++ "push is accepted. A crash between that ack and the next fsync would lose the "
    ++ "record for good. Use sync or batched (the default)."

/-- `quarantine_requeue_write`. A dry run lists the directory again and reads the files; what it
prints is left out. -/
def quarantineRequeueWrite (z : Zstd) (args : RequeueArgs) : Cmd Requeued := do
  if args.durability = .buffered then return ⟨none, .error refusedBuffered⟩
  else
    match ← ensureWabDir args.wabDir with
    | .error e => return ⟨none, .error e⟩
    | .ok () =>
      match ← listSegments (args.wabDir ++ "/quarantine") isQuarantinedSegmentName with
      | .error e => return ⟨none, .error e⟩
      | .ok segs =>
        if segs = [] then return ⟨none, .ok ()⟩
        else if args.yes = false then
          match ← listSegments (args.wabDir ++ "/quarantine") isQuarantinedSegmentName with
          | .error e => return ⟨none, .error e⟩
          | .ok _ => return ⟨none, .ok ()⟩
        else
          match ← connectClient args.socket with
          | .error e => return ⟨none, .error e⟩
          | .ok () =>
            match ← forEach (requeueSegment z args) segs .start with
            | .error e => return ⟨none, .error e⟩
            | .ok o =>
              return ⟨some o, if o.problems = [] then .ok () else
                .error ("\n".intercalate o.problems)⟩

/-! ## A read -/

/-- The records among the items. -/
def recordsOf (items : List RecoveryItem) : List Bytes :=
  items.filterMap fun
    | .record payload => some payload
    | _ => none

/-- The ranges among the items that were skipped. -/
def skippedOf (items : List RecoveryItem) : List SkippedRecord :=
  items.filterMap fun
    | .skipped offset declaredLen reason => some ⟨offset, declaredLen, reason⟩
    | _ => none

theorem mem_recordsOf {items : List RecoveryItem} {p : Bytes} :
    p ∈ recordsOf items ↔ .record p ∈ items := by
  unfold recordsOf
  rw [mem_filterMap]
  constructor
  · rintro ⟨item, hmem, hitem⟩
    cases item with
    | record payload => exact Option.some.inj hitem ▸ hmem
    | skipped offset declaredLen reason => cases hitem
    | desynced offset reason => cases hitem
  · exact fun hmem => ⟨_, hmem, rfl⟩

theorem mem_skippedOf {items : List RecoveryItem} {s : SkippedRecord} :
    s ∈ skippedOf items ↔ .skipped s.offset s.declaredLen s.reason ∈ items := by
  unfold skippedOf
  rw [mem_filterMap]
  constructor
  · rintro ⟨item, hmem, hitem⟩
    cases item with
    | record payload => cases hitem
    | skipped offset declaredLen reason => exact Option.some.inj hitem ▸ hmem
    | desynced offset reason => cases hitem
  · exact fun hmem => ⟨_, hmem, rfl⟩

/-- What the loop collects. -/
theorem foldl_add (items : List RecoveryItem) :
    ∀ acc : List Bytes × QuarantineReport,
      (items.foldl QuarantineReport.add acc).1 = acc.1 ++ recordsOf items ∧
      (items.foldl QuarantineReport.add acc).2.skippedRecords
        = acc.2.skippedRecords ++ skippedOf items ∧
      ((items.foldl QuarantineReport.add acc).2.desynced = false ↔
        acc.2.desynced = false ∧ ∀ offset reason, .desynced offset reason ∉ items) := by
  induction items with
  | nil => intro acc; simp [recordsOf, skippedOf]
  | cons item items ih =>
    intro acc
    obtain ⟨hrecords, hskipped, hsync⟩ := ih (QuarantineReport.add acc item)
    rw [foldl_cons, hrecords, hskipped, hsync]
    cases item with
    | record payload | skipped offset declaredLen reason =>
      simp [QuarantineReport.add, recordsOf, skippedOf]
    | desynced offset reason =>
      refine ⟨by simp [QuarantineReport.add, recordsOf],
        by simp [QuarantineReport.add, skippedOf], ?_⟩
      constructor
      · rintro ⟨hfalse, -⟩
        cases hfalse
      · rintro ⟨-, hnone⟩
        exact absurd mem_cons_self (hnone offset reason)

variable {records : List Bytes}
  {z : Zstd} {opened : Opened} {report : QuarantineReport} {args : RequeueArgs}
  {w w' : World}

/-- What `quarantine_read` returns, by the items of the walk. -/
theorem quarantineRead_ok (h : quarantineRead z opened = .ok (records, report)) :
    ∃ (m : SegmentHeaderMeta) (reader : RecoveryReader),
      parseSegmentHeader (opened.file.take segmentHeaderLen) = .ok m ∧
      segmentHeaderLen ≤ opened.file.length ∧
      reader = ⟨opened.file, m, segmentHeaderLen, opened.file.length, false, 0, none⟩ ∧
      records = recordsOf (reader.readAll z opened.fault) ∧
      report.skippedRecords = skippedOf (reader.readAll z opened.fault) ∧
      (report.desynced = false ↔
        ∀ offset reason, .desynced offset reason ∉ reader.readAll z opened.fault) := by
  unfold quarantineRead at h
  split at h
  · cases h
  rename_i reader hopen
  obtain ⟨m, hm, hlen, hreader⟩ := RecoveryReader.open_ok hopen
  obtain ⟨hrecords, hskipped, hsync⟩ :=
    foldl_add (reader.readAll z opened.fault) ([], ⟨0, 0, false, [], none⟩)
  rw [Except.ok.inj h] at hrecords hskipped hsync
  exact ⟨m, reader, hm, hlen, hreader, by simpa using hrecords, by simpa using hskipped,
    by simpa using hsync⟩

theorem quarantineRead_records (h : quarantineRead z opened = .ok (records, report)) :
    records = recordsOf (forensicItems z opened.fault opened.file) := by
  unfold quarantineRead at h
  split at h
  · cases h
  rename_i reader hopen
  obtain ⟨hrecords, -⟩ :=
    foldl_add (reader.readAll z opened.fault) ([], ⟨0, 0, false, [], none⟩)
  rw [Except.ok.inj h] at hrecords
  rw [forensicItems, RecoveryReader.open_stat hopen]
  exact hrecords

/-! ## Every byte -/

/-- A byte of a segment that was read: it belongs to a record, to a range that was reported as
skipped, or to the sentinel that ends the file, with nothing or a footer behind it. -/
inductive Accounted (z : Zstd) (c : Compression) (file : Bytes) (records : List Bytes)
    (skipped : List SkippedRecord) (b : Nat) : Prop
  | pushed (offset : Nat) (f : Frame) (p : Bytes) (hf : frameAt c file offset = some f)
      (hok : f.intact = true) (hp : decodeStored z c f.stored = some p) (hmem : p ∈ records)
      (hlo : offset ≤ b) (hhi : b < offset + 8 + f.stored.length)
  | skipped (s : SkippedRecord) (hmem : s ∈ skipped) (hlo : s.offset ≤ b)
      (hhi : b < s.offset + 8 + s.declaredLen)
  | tail (offset : Nat) (hsentinel : slice file offset (offset + 4) = buildSentinel)
      (hend : offset + 4 = file.length ∨ offset + 4 + segmentFooterLen = file.length)
      (hlo : offset ≤ b)

/-- The records and the ranges are, in order, the frames that stand end to end from the header to
a legitimate end: each record has a frame of its own. -/
def Framed (z : Zstd) (c : Compression) (file : Bytes) (records : List Bytes)
    (skipped : List SkippedRecord) : Prop :=
  ∃ items hi, RecoveryReader.Tiles z c file segmentHeaderLen items hi ∧ CleanEnd file hi ∧
    recordsOf items = records ∧ skippedOf items = skipped

/-- Frames that run end to end leave no byte out. -/
theorem accounted_of_tiles {c : Compression} {file : Bytes} {b : Nat}
    {skipped : List SkippedRecord} :
    ∀ {items : List RecoveryItem} {lo hi : Nat},
      RecoveryReader.Tiles z c file lo items hi → (∀ p ∈ recordsOf items, p ∈ records) →
      (∀ s ∈ skippedOf items, s ∈ skipped) → lo ≤ b → b < hi →
      Accounted z c file records skipped b := by
  intro items
  induction items with
  | nil =>
    intro lo hi htiles _ _ hlo hhi
    have : lo = hi := htiles
    omega
  | cons item items ih =>
    intro lo hi htiles hrecords hskipped hlo hhi
    cases item with
    | record p =>
      obtain ⟨f, hf, hok, hp, hrest⟩ := htiles
      by_cases hb : b < lo + 8 + f.stored.length
      · exact .pushed lo f p hf hok hp
          (hrecords p (mem_recordsOf.mpr mem_cons_self)) hlo hb
      · exact ih hrest (fun q hq => hrecords q (mem_recordsOf.mpr
          (mem_cons_of_mem _ (mem_recordsOf.mp hq)))) hskipped (by omega) hhi
    | skipped offset len reason =>
      obtain ⟨rfl, f, hf, rfl, hrest⟩ := htiles
      by_cases hb : b < offset + 8 + f.stored.length
      · exact .skipped ⟨offset, f.stored.length, reason⟩
          (hskipped _ (mem_skippedOf.mpr mem_cons_self)) hlo hb
      · exact ih hrest hrecords (fun s hs => hskipped s (mem_skippedOf.mpr
          (mem_cons_of_mem _ (mem_skippedOf.mp hs)))) (by omega) hhi
    | desynced offset reason => exact htiles.elim

theorem quarantineRead_accounted
    (h : quarantineRead z opened = .ok (records, report)) (hsync : report.desynced = false) :
    ∃ m, parseSegmentHeader (opened.file.take segmentHeaderLen) = .ok m ∧
      Framed z m.compression opened.file records report.skippedRecords ∧
      ∀ b, segmentHeaderLen ≤ b → b < opened.file.length →
        Accounted z m.compression opened.file records report.skippedRecords b := by
  obtain ⟨m, reader, hm, hlen, hreader, hrecords, hskipped, hdesynced⟩ := quarantineRead_ok h
  subst hreader
  have hlive := RecoveryReader.Live.start hlen m
  obtain ⟨hi, htiles, hend⟩ := RecoveryReader.readAll_tiled z opened.fault hlive
    (hdesynced.mp hsync)
  refine ⟨m, hm, ⟨_, hi, htiles, hend, hrecords.symm, hskipped.symm⟩, fun b hlo hb => ?_⟩
  by_cases hhi : b < hi
  · exact accounted_of_tiles htiles (fun p hp => hrecords ▸ hp) (fun s hs => hskipped ▸ hs) hlo hhi
  rcases hend with heof | ⟨hsentinel, hfooter⟩
  · rw [show hi = opened.file.length from heof] at hhi
    omega
  · exact .tail hi hsentinel hfooter (by omega)

/-! ## A run -/

/-- The events of one file, as the turn of the loop makes them. -/
def SegmentRun (z : Zstd) (durability : Durability) (files : String → Option Bytes)
    (name : String) (events : List Event) : Prop :=
  events = [] ∨ ∃ opened records report, files name = some opened.file ∧
    quarantineRead z opened = .ok (records, report) ∧
    InOrder durability name records events ∧
    (events = records.map (.pushed · durability true) ++ [.removed name] →
      report.desynced = false ∧ records ≠ [])

theorem requeueSegment_spec {before : List String} {w₀ : World}
    {o : QuarantineRequeueOutcome} {name : String} {r : Except String QuarantineRequeueOutcome}
    (hw : Advances (SegmentRun z args.durability w₀.files) before w₀ w)
    (h : Prog.Exec acts (requeueSegment z args o name) w r w') :
    Advances (SegmentRun z args.durability w₀.files) [name] w w' := by
  obtain ⟨answer, w₁, hask, h⟩ := h.bind_inv
  obtain ⟨rfl, hopened⟩ := hask.ask_inv
  rcases answer with e | opened
  · obtain ⟨-, rfl⟩ := h.pure_inv
    exact .refl
  have hfile := hw.file (hopened opened rfl)
  dsimp only at h
  split at h
  · obtain ⟨-, rfl⟩ := h.pure_inv
    exact .refl
  rename_i records report hread
  obtain ⟨answer, w₂, hpush, h⟩ := h.bind_inv
  have hpushed : Advances (SegmentRun z args.durability w₀.files) [name] w₁ w₂ :=
    pushAll_advances hpush fun events horder hkept => .inr ⟨opened, records, report, hfile, hread,
      horder, fun heq => absurd (by rw [heq]; simp) hkept⟩
  rcases answer with _ | failure
  on_goal 2 =>
    obtain ⟨-, rfl⟩ := h.pure_inv
    exact hpushed
  dsimp only at h
  split at h
  · obtain ⟨-, rfl⟩ := h.pure_inv
    exact hpushed
  rename_i hsync
  split at h
  · obtain ⟨-, rfl⟩ := h.pure_inv
    exact hpushed
  rename_i hne
  obtain ⟨answer, w₃, hremove, hrest⟩ := h.bind_inv
  have hacts := hremove.ask_inv
  cases answer with
  | error e =>
    obtain ⟨-, rfl⟩ := hrest.pure_inv
    rw [show w' = w₂ from hacts]
    exact hpushed
  | ok v =>
    obtain ⟨-, rfl⟩ := hrest.pure_inv
    exact remove_advances hpush hacts (.inr ⟨opened, records, report, hfile, hread, .removed,
      fun _ => ⟨Bool.eq_false_iff.mpr hsync, hne⟩⟩)

/-- A run does nothing, or is a real one at the durable tier. -/
theorem quarantineRequeueWrite_spec {r : Requeued}
    (h : Prog.Exec acts (quarantineRequeueWrite z args) w r w') :
    w' = w ∨ args.yes = true ∧ args.durability = .durable ∧
      ∃ segs, Advances (SegmentRun z args.durability w.files) segs w w' := by
  unfold quarantineRequeueWrite at h
  split at h
  · obtain ⟨-, rfl⟩ := h.pure_inv
    exact .inl rfl
  rename_i hdurable
  obtain ⟨answer, w₁, hdir, h⟩ := h.bind_inv
  obtain rfl := ensureWabDir_spec hdir
  rcases answer with e | v
  · obtain ⟨-, rfl⟩ := h.pure_inv
    exact .inl rfl
  obtain ⟨answer, w₂, hlist, h⟩ := h.bind_inv
  obtain ⟨rfl, -⟩ := listSegments_spec hlist
  rcases answer with e | segs
  · obtain ⟨-, rfl⟩ := h.pure_inv
    exact .inl rfl
  dsimp only at h
  split at h
  · obtain ⟨-, rfl⟩ := h.pure_inv
    exact .inl rfl
  split at h
  · obtain ⟨answer, w₃, hagain, h⟩ := h.bind_inv
    obtain ⟨rfl, -⟩ := listSegments_spec hagain
    cases answer <;>
    · obtain ⟨-, rfl⟩ := h.pure_inv
      exact .inl rfl
  rename_i hyes
  obtain ⟨answer, w₃, hconnect, h⟩ := h.bind_inv
  obtain rfl := connectClient_spec hconnect
  rcases answer with e | v
  · obtain ⟨-, rfl⟩ := h.pure_inv
    exact .inl rfl
  obtain ⟨answer, w₄, hloop, h⟩ := h.bind_inv
  have hstart : Advances (SegmentRun z args.durability w₃.files) [] w₃ w₃ := .refl
  have hadvances := forEach_spec (fun o before name w r w' hw =>
    requeueSegment_spec hw) segs .start hstart hloop
  refine .inr ⟨Bool.not_eq_false _ ▸ hyes, ?_, segs, ?_⟩
  · cases hd : args.durability with
    | durable => rfl
    | buffered => exact absurd hd hdurable
  · cases answer <;>
    · obtain ⟨-, rfl⟩ := h.pure_inv
      exact hadvances

/-- `quarantine requeue` never destroys what it did not read. Whatever the files hold and
whatever comes back, a file that is gone after a run had a header that parsed and records to
recover, all of which were accepted at the durable tier right before the deletion, its read ended
without a `Desynced`, and every byte behind the header is accounted for, each record by a frame
of its own. Every other file is as it was. -/
theorem quarantine_requeue_accounts {z : Zstd} {args : RequeueArgs} {w w' : World} {r : Requeued}
    (h : Prog.Exec acts (quarantineRequeueWrite z args) w r w') (name : String) :
    w'.files name = w.files name ∨
    w'.files name = none ∧ args.yes = true ∧ args.durability = .durable ∧
      ∃ opened records report m, w.files name = some opened.file ∧
        parseSegmentHeader (opened.file.take segmentHeaderLen) = .ok m ∧
        quarantineRead z opened = .ok (records, report) ∧ report.desynced = false ∧
        records ≠ [] ∧
        (∃ before after, w'.log = w.log ++
          (before ++ (records.map (.pushed · .durable true) ++ [.removed name]) ++ after)) ∧
        Framed z m.compression opened.file records report.skippedRecords ∧
        ∀ b, segmentHeaderLen ≤ b → b < opened.file.length →
          Accounted z m.compression opened.file records report.skippedRecords b := by
  by_cases hsame : w'.files name = w.files name
  · exact .inl hsame
  rcases quarantineRequeueWrite_spec h with rfl | ⟨hyes, hdurable, segs, hadvances⟩
  · exact absurd rfl hsame
  obtain ⟨hgone, events, before, after, hrun, hremoved, hlog⟩ := hadvances.gone hsame
  rcases hrun with rfl | ⟨opened, records, report, hfile, hread, horder, hclean⟩
  · cases hremoved
  have hevents := horder.of_removed hremoved
  obtain ⟨hsync, hne⟩ := hclean hevents
  obtain ⟨m, hm, hbytes⟩ := quarantineRead_accounted hread hsync
  rw [hevents, hdurable] at hlog
  exact .inr ⟨hgone, hyes, hdurable, opened, records, report, m, hfile, hm, hread, hsync, hne,
    ⟨before, after, hlog⟩, hbytes⟩

/-- A directory with one file. -/
def oneFile (name : String) (file : Bytes) : World where
  entries := [(name, true)]
  files := fun other => if other = name then some file else none
  log := []

def realRun : RequeueArgs := ⟨"/var/weir", "/run/weir.sock", .durable, true⟩

/-- Two records, the second of which holds an encoded record of its own. -/
def nestedSegment : Bytes :=
  sealedBytes (buildSegmentHeader 0 .none 0) [[7], encodeRecord [9]] 0

/-- The length of the first record, changed from 1 to 9. -/
def misledSegment : Bytes := changeLength nestedSegment 24 (leBytes 4 9)

def misledRun : Requeued × World :=
  (quarantineRequeueWrite .plain realRun).run World.serve
    (oneFile "shard_00__seg_00000001.wab" misledSegment)

theorem quarantine_requeue_accounts_misled :
    misledRun.2.files "shard_00__seg_00000001.wab" = none ∧
    ∃ opened records report m, misledSegment = opened.file ∧
      quarantineRead .plain opened = .ok (records, report) ∧ records ≠ [] ∧
      ∀ b, segmentHeaderLen ≤ b → b < opened.file.length →
        Accounted .plain m opened.file records report.skippedRecords b := by
  have hexec : Prog.Exec acts (quarantineRequeueWrite .plain realRun)
      (oneFile "shard_00__seg_00000001.wab" misledSegment) misledRun.1 misledRun.2 :=
    Prog.Exec.of_run World.serve_acts _ _
  rcases quarantine_requeue_accounts hexec "shard_00__seg_00000001.wab" with hsame | hgone
  · exact absurd hsame (by decide +kernel)
  · obtain ⟨hnone, -, -, opened, records, report, m, hfile, -, hread, -, hne, -, hbytes⟩ := hgone
    exact ⟨hnone, opened, records, report, m.compression, Option.some.inj hfile, hread, hne,
      hbytes.2⟩

/-! ## Records that nobody wrote -/

/-- What a run pushes comes from the items of the forensic reader. -/
theorem pushed_of_requeue {r : Requeued}
    (h : Prog.Exec acts (quarantineRequeueWrite z args) w r w') {payload : Bytes}
    {durability : Durability} {accepted : Bool}
    (hmem : .pushed payload durability accepted ∈ w'.log) :
    .pushed payload durability accepted ∈ w.log ∨
      ∃ name file fault, w.files name = some file ∧
        .record payload ∈ forensicItems z fault file := by
  rcases quarantineRequeueWrite_spec h with rfl | ⟨-, -, -, -, traces, -, hlog, hrun, -⟩
  · exact .inl hmem
  rw [hlog] at hmem
  refine (mem_append.mp hmem).imp_right fun hmem => ?_
  obtain ⟨⟨name, events⟩, htrace, hevent⟩ := mem_flatMap.mp hmem
  rcases hrun _ htrace with hnil | ⟨opened, records, report, hfile, hread, horder, -⟩
  · rw [show events = [] from hnil] at hevent
    cases hevent
  refine ⟨name, opened.file, opened.fault, hfile, ?_⟩
  have hpayload : payload ∈ records := horder.mem_of_pushed hevent
  rw [quarantineRead_records hread] at hpayload
  exact mem_recordsOf.mp hpayload

/-- A length field that cannot mislead the reader: the reader refuses it where it stands (zero,
above the cap, past the end), it is as it was written, or the bytes from there on hold no frame
with a matching CRC but those of the segment's own records. -/
def Harmless (whole : Bytes) (records : List Bytes) (file : Bytes) (offset : Nat) : Prop :=
  let len := leNat (slice file offset (offset + 4))
  len = 0 ∨ Compression.none.storedCap < len ∨ file.length < offset + 8 + len ∨ file = whole ∨
    ∀ pos f, offset ≤ pos → frameAt .none file pos = some f → f.intact = true →
      f.stored ∈ records

/-- What a walk over an uncompressed file that starts with these records yields: them, or an
intact frame behind them, if there is a frame at all. -/
theorem forensicItems_behind {header rest : Bytes} {m : SegmentHeaderMeta}
    (hm : parseSegmentHeader header = .ok m) (hplain : m.compression = .none)
    {ss : List Bytes} (hok : ∀ s ∈ ss, StoredOk .none s) {file : Bytes}
    (hfile : file = header ++ (encodeRecords ss ++ rest)) {fault : ReadFault} {p : Bytes}
    (hmem : .record p ∈ forensicItems z fault file) :
    p ∈ ss ∨ frameAt .none file (recordOffset ss ss.length) ≠ none ∧
      ∃ pos f, recordOffset ss ss.length ≤ pos ∧ frameAt .none file pos = some f ∧
        f.intact = true ∧ f.stored = p := by
  have hheader := parseSegmentHeader_length hm
  unfold forensicItems at hmem
  split at hmem
  next reader hopen =>
    obtain ⟨m', hm', hlong, rfl⟩ := RecoveryReader.open_ok hopen
    rw [hfile, ← hheader, take_left, hm] at hm'
    cases hm'
    have hlive := RecoveryReader.Live.start hlong m
    obtain ⟨frames, hi, htiles, -, hitems⟩ :=
      RecoveryReader.readAll_accounted z fault _ hlive.sound hlive
    have hframes : .record p ∈ frames := by
      rcases hitems with ⟨heq, -⟩ | ⟨offset, reason, heq, -⟩
      · exact heq ▸ hmem
      · rw [heq] at hmem
        simpa using hmem
    rw [hplain] at htiles
    have hbehind := tiles_behind hheader hok hfile 0 (Nat.zero_le _) htiles hframes
    simpa [decodeStored] using hbehind
  · cases hmem

/-- After any change to the four bytes of the length of record `k` of an uncompressed sealed
segment that leaves a harmless field, what the forensic reader yields, and what `quarantine
requeue` pushes from a directory of such files, are original records. -/
theorem forensic_exact (z : Zstd) {header : Bytes} {m : SegmentHeaderMeta}
    (hm : parseSegmentHeader header = .ok m) (hplain : m.compression = .none)
    {records : List Bytes} (hok : ∀ s ∈ records, StoredOk .none s) (t : Int64) {k : Nat}
    {field file : Bytes}
    (hfile : file = changeLength (sealedBytes header records t) (recordOffset records k) field)
    (hharmless : Harmless (sealedBytes header records t) records file (recordOffset records k)) :
    (∀ fault p, .record p ∈ forensicItems z fault file → p ∈ records) ∧
      ∀ args w r w', (∀ name f, w.files name = some f → f = file) →
        Prog.Exec acts (quarantineRequeueWrite z args) w r w' →
        ∀ p d accepted, .pushed p d accepted ∈ w'.log →
          .pushed p d accepted ∈ w.log ∨ p ∈ records := by
  have hheader := parseSegmentHeader_length hm
  have hyields : ∀ fault p, .record p ∈ forensicItems z fault file → p ∈ records := by
    intro fault p hmem
    obtain ⟨rest, hrest⟩ : ∃ rest, file
        = header ++ (encodeRecords (records.take k) ++ (field ++ rest)) :=
      hfile ▸ changeLength_eq hheader
    have hbefore : ∀ s ∈ records.take k, StoredOk .none s :=
      fun s hs => hok s (mem_of_mem_take hs)
    have hoffset : recordOffset (records.take k) (records.take k).length
        = recordOffset records k := by
      rw [recordOffset, recordOffset, take_length]
    -- the reader gets past the changed field only where a frame stands
    rcases forensicItems_behind hm hplain hbefore hrest hmem with hp | ⟨hframe, hforeign⟩
    · exact mem_of_mem_take hp
    rw [hoffset] at hframe hforeign
    rcases hharmless with hzero | hcap | hpast | rfl | hnone
    · exact absurd (if_neg (by omega)) hframe
    · exact absurd (if_neg (by omega)) hframe
    · exact absurd (if_neg (by omega)) hframe
    · -- nothing but the sentinel stands behind the last record
      have hwhole : sealedBytes header records t = header ++ (encodeRecords records ++ _) :=
        append_assoc ..
      rcases forensicItems_behind hm hplain hok hwhole hmem with hp | ⟨hframe, -⟩
      · exact hp
      have hsentinel : slice (sealedBytes header records t)
          (recordOffset records records.length) (recordOffset records records.length + 4)
          = buildSentinel := by
        rw [sealedBytes, ← append_assoc]
        exact slice_middle (by rw [recordOffset, take_length, length_append, hheader]) rfl
      exact absurd (if_neg (by rw [hsentinel]; simp [buildSentinel, leNat])) hframe
    · obtain ⟨pos, f, hle, hf, hintact, rfl⟩ := hforeign
      exact hnone pos f hle hf hintact
  refine ⟨hyields, fun args w r w' hfiles hexec p d accepted hmem => ?_⟩
  refine (pushed_of_requeue hexec hmem).imp_right ?_
  rintro ⟨name, f, fault, hf, hrecord⟩
  rw [hfiles name f hf] at hrecord
  exact hyields fault p hrecord

/-- The changed length leads into the second record. The reader yields `[9]`, which nobody wrote;
`quarantine requeue` pushes it and deletes the file. -/
theorem forensic_fabricates :
    misledSegment = changeLength
      (sealedBytes (buildSegmentHeader 0 .none 0) [[7], encodeRecord [9]] 0)
      (recordOffset [[7], encodeRecord [9]] 0) (leBytes 4 9) ∧
    forensicItems .plain noFault misledSegment
      = [.skipped 24 9 "CRC mismatch", .record [9]] ∧
    [9] ∉ [[7], encodeRecord [9]] ∧
    Prog.Exec acts (quarantineRequeueWrite .plain realRun)
      (oneFile "shard_00__seg_00000001.wab" misledSegment) misledRun.1 misledRun.2 ∧
    misledRun.2.log = [.pushed [9] .durable true, .removed "shard_00__seg_00000001.wab"] := by
  refine ⟨rfl, by decide +kernel, by decide, Prog.Exec.of_run World.serve_acts _ _,
    by decide +kernel⟩

/-- A segment in which the length of the second record was changed to one above the cap. -/
def oversizedSegment : Bytes :=
  changeLength (sealedBytes (buildSegmentHeader 0 .none 0) [[7], [8]] 0)
    (recordOffset [[7], [8]] 1) (leBytes 4 0xFFFFFFFF)

/-- Such a length leads nowhere, so nothing but records of the segment is yielded. -/
theorem forensic_exact_oversized :
    .record [7] ∈ forensicItems .plain noFault oversizedSegment ∧
    ∀ fault p, .record p ∈ forensicItems .plain fault oversizedSegment → p ∈ [[7], [8]] :=
  ⟨by decide +kernel, (forensic_exact .plain (parseSegmentHeader_build 0 .none 0) rfl (by decide) 0
    rfl (.inr (.inl (by decide +kernel)))).1⟩

end Weir.Ctl

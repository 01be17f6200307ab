import Weir.Wab.Verify
import Weir.Ctl.Quarantine

/-!
# `dl requeue` (`weir-ctl/src/main.rs`)

A dead-letter segment is read twice before any of it is pushed: by the segment reader,
which stops at the first sentinel it meets, and by the verifier, which wants the footer
behind that sentinel to agree. Only then are its records pushed, and the file is deleted
once all of them were accepted.

> `readSegmentRecords_inv`: what both walks accept is a whole sealed segment.

> `dl_requeue_all_or_nothing`: a file that is not whole is left alone and fails the run; of
> one that is, the records are pushed in order, and it is deleted only after the last.
-/

namespace Weir.Ctl

open Weir.Lib Weir.Wab

/-- The loop of `read_segment_records` over the reader: the records, or the first error with its
index. -/
def takeRecords : List (Except IoError Bytes) → Nat → Except (Nat × IoError) (List Bytes)
  | [], _ => .ok []
  | .error e :: _, i => .error (i, e)
  | .ok p :: items, i => (takeRecords items (i + 1)).map (p :: ·)

/-- `read_segment_records`. The file is opened once for the reader and once for the verifier. -/
def readSegmentRecords (z : Zstd) (path name : String) : Cmd (Except String (List Bytes)) := do
  match ← ask (.open name) with
  | .error e => return .error ("open " ++ path ++ ": " ++ e.message)
  | .ok opened =>
    match SegmentReader.open opened.file opened.fault with
    | .error e => return .error ("open " ++ path ++ ": " ++ e.message)
    | .ok reader =>
      match takeRecords (reader.readAll z opened.fault).1 0 with
      | .error (i, e) => return .error (path ++ s!": record {i}: " ++ e.message)
      | .ok out =>
        if (reader.readAll z opened.fault).2.terminatedCleanly ≠ some true then
          return .error (path
            ++ ": torn/unsealed tail (no clean-end sentinel) — left in place for inspection")
        else
          let failed (e : SegmentVerifyError) : String := path
            ++ ": sealed-segment verification failed (" ++ e.display
            ++ ") — left in place for inspection"
          match ← ask (.open name) with
          | .error e => return .error (failed (.io e))
          | .ok again =>
            match verifySealedSegment again.file again.fault with
            | .error e => return .error (failed e)
            | .ok v =>
              if v.footer.recordCount ≠ out.length then
                return .error (path ++ s!": footer records {v.footer.recordCount} record(s) but "
                  ++ s!"only {out.length} were readable before an end-of-records sentinel — "
                  ++ "damaged segment, left in place for inspection")
              else return .ok out

/-- `is_sealed_dl_wab`. -/
def isSealedDlWab (name : String) : Bool :=
  "dl_".toList.isPrefixOf name.toList && extSealed.toList.isSuffixOf name.toList

/-- What the loop counts and collects. -/
structure DlRequeueOutcome where
  totalRequeued : Nat
  segmentsCleared : Nat
  skipped : List String
  deleteFailures : List String

def DlRequeueOutcome.start : DlRequeueOutcome := ⟨0, 0, [], []⟩

/-- One turn of the loop of `cmd_dl_requeue`. -/
def dlRequeueSegment (z : Zstd) (args : RequeueArgs) (o : DlRequeueOutcome) (name : String) :
    Cmd (Except String DlRequeueOutcome) := do
  let path := args.wabDir ++ "/dead_letter/" ++ name
  match ← readSegmentRecords z path name with
  | .error e => return .ok { o with skipped := o.skipped ++ [e] }
  | .ok records =>
    match ← pushAll args.durability records 0 with
    | some (i, e) =>
      return .error (s!"push failed after requeuing {o.totalRequeued + i} record(s) from "
        ++ s!"{o.segmentsCleared} segment(s); {path} left in place ({i}/{records.length} of it "
        ++ "pushed — those may duplicate on the next run): " ++ e)
    | none =>
      let o := { o with totalRequeued := o.totalRequeued + records.length }
      match ← ask (.remove name) with
      | .ok () => return .ok { o with segmentsCleared := o.segmentsCleared + 1 }
      | .error e =>
        return .ok { o with deleteFailures := o.deleteFailures ++ [path ++ ": " ++ e.message] }

/-- The problems that make a run fail. -/
def DlRequeueOutcome.problems (o : DlRequeueOutcome) : List String :=
  (if o.deleteFailures = [] then []
    else [s!"{o.deleteFailures.length} segment(s) were requeued but could not be deleted (they "
      ++ "will requeue again next run — remove them manually):\n  "
      ++ "\n  ".intercalate o.deleteFailures])
  ++ (if o.skipped = [] then []
    else [s!"{o.skipped.length} dead-letter segment(s) could not be read"])

/-- `dry_run_summary`: the records that can be read, and the errors of the segments that cannot. -/
def dryRunSummary (z : Zstd) (args : RequeueArgs) : List String → Cmd (Nat × List String)
  | [] => return (0, [])
  | name :: names => do
    let read ← readSegmentRecords z (args.wabDir ++ "/dead_letter/" ++ name) name
    let rest ← dryRunSummary z args names
    match read with
    | .ok records => return (records.length + rest.1, rest.2)
    | .error e => return (rest.1, e :: rest.2)

/-- `cmd_dl_requeue`, without what it prints. -/
def cmdDlRequeue (z : Zstd) (args : RequeueArgs) : Cmd (Except String Unit) := do
  match ← ensureWabDir args.wabDir with
  | .error e => return .error e
  | .ok () =>
    match ← listSegments (args.wabDir ++ "/dead_letter") isSealedDlWab with
    | .error e => return .error e
    | .ok segs =>
      if segs = [] then return .ok ()
      else if args.yes = false then
        let _ ← dryRunSummary z args segs
        return .ok ()
      else
        match ← connectClient args.socket with
        | .error e => return .error e
        | .ok () =>
          match ← forEach (dlRequeueSegment z args) segs .start with
          | .error e => return .error e
          | .ok o =>
            return if o.problems = [] then .ok () else .error ("\n".intercalate o.problems)

/-! ## The two walks -/

/-- A whole sealed segment that holds these records: a header that parses, the records it stores
in their frames, the sentinel behind the last one, and a footer that agrees with all of it and
ends the file. -/
def Whole (z : Zstd) (file : Bytes) (records : List Bytes) (footer : SegmentFooterMeta) : Prop :=
  ∃ m ss, SealedAs file m ss footer ∧ Decodes z m.compression ss records

variable {z : Zstd}

theorem Whole.recordCount {file : Bytes} {records : List Bytes} {footer : SegmentFooterMeta}
    (h : Whole z file records footer) : footer.recordCount = records.length := by
  obtain ⟨m, ss, ⟨_, _, -, -, -, -, -, -, hcount, -⟩, hdecodes⟩ := h
  rw [hcount, hdecodes.length_eq]

theorem takeRecords_ok : ∀ {items : List (Except IoError Bytes)} {i : Nat} {out : List Bytes},
    takeRecords items i = .ok out → items = out.map .ok := by
  intro items
  induction items with
  | nil =>
    intro i out h
    cases h
    rfl
  | cons item items ih =>
    intro i out h
    cases item with
    | error e => cases h
    | ok p =>
      rw [takeRecords] at h
      cases hrest : takeRecords items (i + 1) with
      | error e => rw [hrest] at h; cases h
      | ok rest =>
        rw [hrest] at h
        cases h
        rw [ih hrest, List.map_cons]

/-- The reader stops at the first sentinel, and so does the verifier: no file passes both with
records left unread. -/
theorem whole_of_walks {file : Bytes} {fault fault' : ReadFault} {reader : SegmentReader}
    {out : List Bytes} {v : SegmentVerification}
    (hopen : SegmentReader.open file fault = .ok reader)
    (hitems : (reader.readAll z fault).1 = out.map .ok)
    (hclean : (reader.readAll z fault).2.terminatedCleanly = some true)
    (hverify : verifySealedSegment file fault' = .ok v) : Whole z file out v.footer := by
  obtain ⟨ss, hsealed⟩ := verifySealedSegment_inv hverify
  obtain ⟨header, buf, hm, hss, hfile, -⟩ := id hsealed
  obtain rfl := SegmentReader.open_eq hopen hfile hm
  obtain ⟨ss', rest, hholds, hend⟩ := SegmentReader.collect_ok _ _ out hitems rfl
  obtain ⟨tail, rfl⟩ := hend hclean
  have hbody : file.drop segmentHeaderLen = encodeRecords ss ++ (buildSentinel ++ buf) := by
    rw [hfile, List.drop_left' (parseSegmentHeader_length hm)]
  -- two runs of records before a sentinel, in the same bytes
  obtain rfl := eq_of_sentinel hss hholds.stored (hbody.symm.trans hholds.body)
  exact ⟨v.header, ss, hsealed, hholds.decodes⟩

variable {w' : World} {name : String} {w : World} {o : DlRequeueOutcome}

theorem readSegmentRecords_inv {path : String} {r : Except String (List Bytes)}
    (h : Prog.Exec acts (readSegmentRecords z path name) w r w') :
    w' = w ∧ ∀ records, r = .ok records →
      ∃ file footer, w.files name = some file ∧ Whole z file records footer := by
  obtain ⟨answer, w₁, hask, h⟩ := h.bind_inv
  obtain ⟨rfl, hopened⟩ := hask.ask_inv
  have hfailed : ∀ {e : String} {w₂ : World} {r : Except String (List Bytes)},
      Prog.Exec acts (pure (.error e)) w₁ r w₂ → w₂ = w₁ ∧ ∀ records, r = .ok records →
        ∃ file footer, w₁.files name = some file ∧ Whole z file records footer := by
    intro e w₂ r h
    obtain ⟨rfl, rfl⟩ := h.pure_inv
    exact ⟨rfl, fun records hr => by cases hr⟩
  cases answer with
  | error e => exact hfailed h
  | ok opened =>
    dsimp only at h
    split at h
    · exact hfailed h
    rename_i reader hreader
    split at h
    · exact hfailed h
    rename_i out hout
    split at h
    · exact hfailed h
    rename_i hclean
    obtain ⟨answer, w₂, hagain, h⟩ := h.bind_inv
    obtain ⟨rfl, hopened'⟩ := hagain.ask_inv
    cases answer with
    | error e => exact hfailed h
    | ok again =>
      have hfile := hopened opened rfl
      have hsame : again.file = opened.file :=
        Option.some.inj ((hopened' again rfl).symm.trans hfile)
      dsimp only at h
      split at h
      · exact hfailed h
      rename_i v hverify
      split at h
      · exact hfailed h
      obtain ⟨rfl, rfl⟩ := h.pure_inv
      refine ⟨rfl, fun records hr => ?_⟩
      cases hr
      rw [hsame] at hverify
      exact ⟨opened.file, v.footer, hfile, whole_of_walks hreader (takeRecords_ok hout)
        (Decidable.not_not.mp hclean) hverify⟩

/-! ## A run -/

/-- The events of one file: none, or the records of a whole segment in order. -/
def DlSegmentRun (z : Zstd) (durability : Durability) (files : String → Option Bytes)
    (name : String) (events : List Event) : Prop :=
  events = [] ∨ ∃ file records footer, files name = some file ∧ Whole z file records footer ∧
    InOrder durability name records events

variable {args : RequeueArgs}

theorem dlRequeueSegment_spec {before : List String} {w₀ : World}
    {r : Except String DlRequeueOutcome}
    (hw : Advances (DlSegmentRun z args.durability w₀.files) before w₀ w)
    (h : Prog.Exec acts (dlRequeueSegment z args o name) w r w') :
    Advances (DlSegmentRun z args.durability w₀.files) [name] w w' := by
  obtain ⟨answer, w₁, hread, h⟩ := h.bind_inv
  obtain ⟨rfl, hwhole⟩ := readSegmentRecords_inv hread
  cases answer with
  | error e =>
    obtain ⟨-, rfl⟩ := h.pure_inv
    exact .refl
  | ok records =>
    obtain ⟨file, footer, hfile, hwhole⟩ := hwhole records rfl
    obtain ⟨answer, w₂, hpush, h⟩ := h.bind_inv
    have hrun : ∀ events, InOrder args.durability name records events →
        DlSegmentRun z args.durability w₀.files name events :=
      fun events horder => .inr ⟨file, records, footer, hw.file hfile, hwhole, horder⟩
    have hpushed := pushAll_advances hpush fun events horder _ => hrun events horder
    cases answer with
    | some failure =>
      obtain ⟨-, rfl⟩ := h.pure_inv
      exact hpushed
    | none =>
      obtain ⟨answer, w₃, hremove, h⟩ := h.bind_inv
      have hacts := hremove.ask_inv
      cases answer with
      | error e =>
        obtain ⟨-, rfl⟩ := h.pure_inv
        rw [show w' = w₂ from hacts]
        exact hpushed
      | ok v =>
        obtain ⟨-, rfl⟩ := h.pure_inv
        exact remove_advances hpush hacts (hrun _ .removed)

/-- A turn reports what could not be read, and forgets no report. -/
theorem dlRequeueSegment_skipped {o' : DlRequeueOutcome}
    (h : Prog.Exec acts (dlRequeueSegment z args o name) w (.ok o') w') :
    (o.skipped ≠ [] → o'.skipped ≠ []) ∧
      ((∀ file records footer, w.files name = some file → ¬Whole z file records footer) →
        o'.skipped ≠ []) := by
  obtain ⟨answer, w₁, hread, h⟩ := h.bind_inv
  obtain ⟨rfl, hwhole⟩ := readSegmentRecords_inv hread
  cases answer with
  | error e =>
    obtain ⟨ho, -⟩ := h.pure_inv
    rw [Except.ok.inj ho]
    exact ⟨fun _ => by simp, fun _ => by simp⟩
  | ok records =>
    obtain ⟨file, footer, hfile, hwhole⟩ := hwhole records rfl
    refine ⟨fun hne => ?_, fun hnot => absurd hwhole (hnot file records footer hfile)⟩
    obtain ⟨answer, w₂, hpush, h⟩ := h.bind_inv
    cases answer with
    | some failure => cases h.pure_inv.1
    | none =>
      obtain ⟨answer, w₃, hremove, h⟩ := h.bind_inv
      cases answer with
      | error e | ok v =>
        obtain ⟨ho, -⟩ := h.pure_inv
        rw [Except.ok.inj ho]
        exact hne

theorem dlRequeueLoop_spec {segs : List String} {result : Except String DlRequeueOutcome}
    (h : Prog.Exec acts (forEach (dlRequeueSegment z args) segs .start) w result w') :
    Advances (DlSegmentRun z args.durability w.files) segs w w' := by
  have hstart : Advances (DlSegmentRun z args.durability w.files) [] w w := .refl
  exact forEach_spec (fun o before name w₁ r w₂ hw => dlRequeueSegment_spec hw) segs .start hstart h

/-- A file of the loop that is not whole is reported at its end. -/
theorem dlRequeueLoop_skipped {segs : List String}
    (h : Prog.Exec acts (forEach (dlRequeueSegment z args) segs .start) w (.ok o) w')
    (hmem : name ∈ segs)
    (hnot : ∀ file records footer, w.files name = some file → ¬Whole z file records footer) :
    o.skipped ≠ [] := by
  have hstart : Advances (DlSegmentRun z args.durability w.files) [] w w := .refl
  refine forEach_marks (P := fun o : DlRequeueOutcome => o.skipped ≠ [])
    (fun o before other w₁ r w₂ hw => dlRequeueSegment_spec hw) ?_ ?_ segs .start hstart h
    (.inr hmem)
  · intro o other w₁ o' w₂ hne hturn
    exact (dlRequeueSegment_skipped hturn).1 hne
  · intro o before w₁ o' w₂ hw hturn
    exact (dlRequeueSegment_skipped hturn).2 fun file records footer hfile =>
      hnot file records footer (hw.file hfile)

theorem dryRunSummary_spec : ∀ (names : List String) {w w' : World} {r : Nat × List String},
    Prog.Exec acts (dryRunSummary z args names) w r w' → w' = w := by
  intro names
  induction names with
  | nil =>
    intro w w' r h
    exact h.pure_inv.2
  | cons name names ih =>
    intro w w' r h
    obtain ⟨read, w₁, hread, hthen⟩ := h.bind_inv
    obtain ⟨rfl, -⟩ := readSegmentRecords_inv hread
    obtain ⟨rest, w₂, hrest, hend⟩ := hthen.bind_inv
    obtain rfl := ih hrest
    cases read with
    | error e | ok records => exact hend.pure_inv.2

/-- A run fails before it has listed the segments, finds none, is a dry run, or fails to connect,
and then it has done nothing; or it has gone through the segments. -/
theorem cmdDlRequeue_spec {r : Except String Unit}
    (h : Prog.Exec acts (cmdDlRequeue z args) w r w') :
    w' = w ∧ ((∃ e, r = .error e) ∨ segmentNames isSealedDlWab w.entries = [] ∨ args.yes = false) ∨
    ∃ segs result, segs.Perm (segmentNames isSealedDlWab w.entries) ∧
      Prog.Exec acts (forEach (dlRequeueSegment z args) segs .start) w result w' ∧
      ((∃ e, r = .error e) ∨ ∃ o, result = .ok o ∧ o.problems = []) := by
  obtain ⟨answer, w₁, hdir, h⟩ := h.bind_inv
  obtain rfl := ensureWabDir_spec hdir
  rcases answer with e | v
  · obtain ⟨rfl, rfl⟩ := h.pure_inv
    exact .inl ⟨rfl, .inl ⟨e, rfl⟩⟩
  obtain ⟨answer, w₂, hlist, h⟩ := h.bind_inv
  obtain ⟨rfl, hsegs⟩ := listSegments_spec hlist
  rcases answer with e | segs
  · obtain ⟨rfl, rfl⟩ := h.pure_inv
    exact .inl ⟨rfl, .inl ⟨e, rfl⟩⟩
  have hperm := hsegs segs rfl
  dsimp only at h
  split at h
  next hnil =>
    obtain ⟨-, rfl⟩ := h.pure_inv
    exact .inl ⟨rfl, .inr (.inl (hnil ▸ hperm).symm.eq_nil)⟩
  split at h
  next hdry =>
    obtain ⟨summary, w₃, hsummary, hend⟩ := h.bind_inv
    obtain rfl := dryRunSummary_spec segs hsummary
    exact .inl ⟨hend.pure_inv.2, .inr (.inr hdry)⟩
  obtain ⟨answer, w₃, hconnect, h⟩ := h.bind_inv
  obtain rfl := connectClient_spec hconnect
  rcases answer with e | v
  · obtain ⟨rfl, rfl⟩ := h.pure_inv
    exact .inl ⟨rfl, .inl ⟨_, rfl⟩⟩
  obtain ⟨answer, w₄, hloop, h⟩ := h.bind_inv
  refine .inr ⟨segs, answer, hperm, ?_⟩
  rcases answer with e | o
  · obtain ⟨rfl, rfl⟩ := h.pure_inv
    exact ⟨hloop, .inl ⟨e, rfl⟩⟩
  obtain ⟨rfl, rfl⟩ := h.pure_inv
  refine ⟨hloop, ?_⟩
  by_cases hproblems : o.problems = []
  · exact .inr ⟨o, rfl, hproblems⟩
  · exact .inl ⟨_, if_neg hproblems⟩

theorem skipped_of_no_problems (h : o.problems = []) : o.skipped = [] := by
  obtain ⟨-, h⟩ := List.append_eq_nil_iff.mp h
  split at h
  next hnil => exact hnil
  · cases h

/-- `dl requeue` takes a segment as a whole. Whatever the files hold and whatever comes back, the
log of a run is made of the events of some of the listed files, each at most once. Of a file, no
record is pushed, or its records in order from the first, and then it is a whole sealed segment
with as many records as its footer says. A file that is gone had all of them accepted before.
Every other file is as it was. And a listed file that is not a whole sealed segment is neither
pushed nor deleted, and makes a real run fail. -/
theorem dl_requeue_all_or_nothing {z : Zstd} {args : RequeueArgs} {w w' : World}
    {r : Except String Unit} (h : Prog.Exec acts (cmdDlRequeue z args) w r w') :
    ∃ traces : List (String × List Event),
      w'.log = w.log ++ traces.flatMap Prod.snd ∧
      ((w.entries.map Prod.fst).Nodup → (traces.map Prod.fst).Nodup) ∧
      (∀ t ∈ traces, isSealedDlWab t.1 = true ∧ (t.2 = [] ∨
        ∃ file records footer, w.files t.1 = some file ∧ Whole z file records footer ∧
          footer.recordCount = records.length ∧ InOrder args.durability t.1 records t.2)) ∧
      (∀ name, w'.files name = w.files name ∨
        w'.files name = none ∧ ∃ file records footer, w.files name = some file ∧
          Whole z file records footer ∧ footer.recordCount = records.length ∧
          (name, records.map (.pushed · args.durability true) ++ [.removed name]) ∈ traces) ∧
      ∀ name file, (name, true) ∈ w.entries → isSealedDlWab name = true →
        w.files name = some file → (∀ records footer, ¬Whole z file records footer) →
        (∀ events, (name, events) ∈ traces → events = []) ∧ w'.files name = some file ∧
        (args.yes = true → ∃ e, r = .error e) := by
  rcases cmdDlRequeue_spec h with ⟨rfl, hend⟩ | ⟨segs, result, hperm, hloop, hend⟩
  · refine ⟨[], by simp, by simp, by simp, fun name => .inl rfl, ?_⟩
    intro name file hentry hname hfile _
    refine ⟨by simp, hfile, fun hyes => ?_⟩
    rcases hend with herror | hnil | hdry
    · exact herror
    · have hmem := mem_segmentNames.mpr ⟨hentry, hname⟩
      rw [hnil] at hmem
      cases hmem
    · rw [hyes] at hdry
      cases hdry
  · obtain ⟨-, traces, hnames, hlog, hruns, hfiles⟩ := dlRequeueLoop_spec hloop
    have hlisted : ∀ t ∈ traces, t.1 ∈ segmentNames isSealedDlWab w.entries := fun t ht =>
      hperm.mem_iff.mp (hnames.subset (List.mem_map_of_mem ht))
    -- the events of a file that is not whole
    have hnone : ∀ name file, w.files name = some file →
        (∀ records footer, ¬Whole z file records footer) →
        ∀ events, (name, events) ∈ traces → events = [] := by
      intro name file hfile hnot events hmem
      rcases hruns _ hmem with hnil | ⟨file', records, footer, hfile', hwhole, -⟩
      · exact hnil
      · obtain rfl := Option.some.inj (hfile.symm.trans hfile')
        exact absurd hwhole (hnot records footer)
    refine ⟨traces, hlog, fun hnodup => ?_, fun t ht => ⟨?_, ?_⟩, fun name => ?_, ?_⟩
    · have hsegs : (segmentNames isSealedDlWab w.entries).Nodup :=
        hnodup.sublist (List.filter_sublist.map Prod.fst)
      exact (hperm.nodup_iff.mpr hsegs).sublist hnames
    · exact (mem_segmentNames.mp (hlisted t ht)).2
    · refine (hruns t ht).imp_right ?_
      rintro ⟨file, records, footer, hfile, hwhole, horder⟩
      exact ⟨file, records, footer, hfile, hwhole, hwhole.recordCount, horder⟩
    · refine (hfiles name).imp_right ?_
      rintro ⟨hgone, events, hmem, hremoved⟩
      rcases hruns _ hmem with hnil | ⟨file, records, footer, hfile, hwhole, horder⟩
      · rw [show events = [] from hnil] at hremoved
        cases hremoved
      · have hevents : events = _ := horder.of_removed hremoved
        rw [hevents] at hmem
        exact ⟨hgone, file, records, footer, hfile, hwhole, hwhole.recordCount, hmem⟩
    · intro name file hentry hname hfile hnot
      have hevents := hnone name file hfile hnot
      refine ⟨hevents, ?_, fun _ => ?_⟩
      · rcases hfiles name with hsame | ⟨-, events, hmem, hremoved⟩
        · rw [hsame, hfile]
        · rw [hevents events hmem] at hremoved
          cases hremoved
      · rcases hend with herror | ⟨o, rfl, hproblems⟩
        · exact herror
        refine absurd (skipped_of_no_problems hproblems) (dlRequeueLoop_skipped hloop
          (hperm.mem_iff.mpr (mem_segmentNames.mpr ⟨hentry, hname⟩)) ?_)
        intro file' records footer hfile'
        obtain rfl := Option.some.inj (hfile.symm.trans hfile')
        exact hnot records footer

/-- A dead-letter store with a whole segment, and one in which the length of the second record was
overwritten with zeros. -/
def zeroedStore : World where
  entries := [("dl_00000002.wab.sealed", true), ("dl_00000001.wab.sealed", true)]
  files := fun name =>
    if name = "dl_00000001.wab.sealed" then
      some (sealedBytes (buildSegmentHeader 0 .none 0) [[7], [8]] 0)
    else if name = "dl_00000002.wab.sealed" then
      some (changeLength (sealedBytes (buildSegmentHeader 0 .none 0) [[5], [6]] 0) 33 buildSentinel)
    else none
  log := []

def zeroedRun : Except String Unit × World :=
  (cmdDlRequeue .plain realRun).run World.serve zeroedStore

theorem dl_requeue_all_or_nothing_zeroed :
    zeroedRun.1.isOk = false ∧
    zeroedRun.2.log = [.pushed [7] .durable true, .pushed [8] .durable true,
      .removed "dl_00000001.wab.sealed"] ∧
    zeroedRun.2.files "dl_00000002.wab.sealed" = zeroedStore.files "dl_00000002.wab.sealed" ∧
    ∃ file records footer, zeroedStore.files "dl_00000001.wab.sealed" = some file ∧
      Whole .plain file records footer ∧ footer.recordCount = records.length := by
  have hexec : Prog.Exec acts (cmdDlRequeue .plain realRun) zeroedStore zeroedRun.1 zeroedRun.2 :=
    Prog.Exec.of_run World.serve_acts _ _
  obtain ⟨traces, -, -, -, hfiles, -⟩ := dl_requeue_all_or_nothing hexec
  refine ⟨by decide +kernel, by decide +kernel, by decide +kernel, ?_⟩
  rcases hfiles "dl_00000001.wab.sealed" with
    hsame | ⟨-, file, records, footer, hfile, hwhole, hcount, -⟩
  · exact absurd hsame (by decide +kernel)
  · exact ⟨file, records, footer, hfile, hwhole, hcount⟩

end Weir.Ctl

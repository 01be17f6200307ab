import Weir.Drain.Ledger
import Weir.Drain.DeadLetter
import Weir.Wab.Recovery

/-!
# Delivering one segment (`process_segment_ctl` and below, `drain/mod.rs`)

One attempt at a sealed segment: its records are read in order, handed to the
sink in sub-batches, and what the sink rejects is dead-lettered. What the
attempt does outside the process is returned as a list of `Act`s, in order.
Everything it meets on the way is an argument (`ProcessIo`): read errors, what
the control flags say before each sub-batch, the sink's answers, the outcomes
of the dead-letter writes and of the quarantine move.

The file does not change under the reader, so the source's `for` loop over the
reader is a recursion over the items the reader yields.
-/

namespace Weir.Drain

open Weir.Lib Weir.Wab

/-- SHA-256, which lives outside the repository. -/
abbrev Sha256 := Bytes → Bytes

/-- A `RecordId` is a digest. -/
abbrev RecordId := Bytes

/-- `RecordId::for_record`. -/
def forRecord (sha : Sha256) (segment : String) (index : Nat) (payload : Bytes) : RecordId :=
  sha (leBytes 8 segment.utf8ByteSize ++ segment.toUTF8.data.toList ++ leBytes 8 index
    ++ leBytes 8 payload.length ++ payload)

structure DrainConfig where
  wabDir : List String
  deadLetterMaxBytes : Nat
  baseRetryDelay : Nat
  maxRetries : Nat
  localReadEscalationMinAge : Nat
  orphanCleanup : Bool

/-- How a `Sink::commit` call ended: what the sink returned, or what the drain
stopped waiting for. -/
inductive CommitReply
  | ok (committed : List Bytes) (deadLettered : List (Bytes × String))
  | transient (retryAfter : Option Nat)
  | permanent
  | timeout
  | deadline
  deriving DecidableEq, Repr

/-- The label of `weir_sink_commit_records_total`. -/
inductive Outcome
  | committed
  | deadLettered
  | retried
  deriving DecidableEq, Repr

/-- What an attempt does outside the process. `lo` is the number of records of
the segment before the sub-batch and `through` that number with it. -/
inductive Act
  | commit (lo : Nat) (payloads : List Bytes) (ids : List RecordId) (reply : CommitReply)
  | deadLettered (through : Nat) (records : List Bytes) (ops : List (Op Path))
  | counted (outcome : Outcome) (n : Nat)
  deriving DecidableEq

/-- What a sub-batch still owes the dead-letter directory after its sink call. -/
structure DeadLetterOwed where
  payloads : List Bytes
  committed : Nat

def DeadLetterOwed.intoCarry (o : DeadLetterOwed) (through : Nat) : DeadLetterCarry where
  through := through
  payloads := o.payloads
  bytes := (o.payloads.map List.length).sum
  committed := o.committed

inductive DeadLetterFailure
  | blocked (needed : Nat)
  | writeFailed

inductive BatchResult
  | ok
  | transient (retryAfter : Option Nat) (cause : TransientCause) (owed : Option DeadLetterOwed)
  | blocked (needed : Nat) (owed : DeadLetterOwed)
  | abandoned

inductive ProcessResult
  | confirmed (recordCount : Nat)
  | transient (retryAfter : Option Nat) (processed : Nat) (cause : TransientCause)
      (carry : Option DeadLetterCarry)
  | blockedDeadLetter (processed needed : Nat) (carry : Option DeadLetterCarry)
  | quarantined
  | quarantinePending (reason : String)
  | parked (reason : ParkReason)
  | paused (processed : Nat)
  | abandoned (processed : Nat)
  deriving DecidableEq

/-- The progress a result reports, with the carry, when the segment is to be
attempted again. -/
def ProcessResult.progress : ProcessResult → Option (Nat × Option DeadLetterCarry)
  | .transient _ processed _ carry => some (processed, carry)
  | .blockedDeadLetter processed _ carry => some (processed, carry)
  | .paused processed | .abandoned processed => some (processed, none)
  | .confirmed _ | .quarantined | .quarantinePending _ | .parked _ => none

/-! ## One sub-batch -/

/-- `dead_letter_records`: a write over the cap is blocked, unless it alone is
larger than the whole cap. -/
def deadLetterRecords (cfg : DrainConfig) (w : DeadLetterWriter) (through : Nat)
    (records : List Bytes) (io : DeadLetterIo) :
    Except DeadLetterFailure Unit × DeadLetterWriter × List Act :=
  let estimated := estimatedSegmentBytes records
  if w.wouldExceedCap estimated cfg.deadLetterMaxBytes ∧ estimated ≤ cfg.deadLetterMaxBytes then
    (.error (.blocked estimated), w, [])
  else
    match w.writeRecords records io with
    | (w, .ok (), ops) =>
      (.ok (), w, [.deadLettered through records ops, .counted .deadLettered records.length])
    | (w, .error _, _) => (.error .writeFailed, w, [])

/-- `owed_result`. -/
def owedResult (failure : DeadLetterFailure) (payloads : List Bytes) (committed : Nat) :
    BatchResult :=
  match failure with
  | .blocked needed => .blocked needed ⟨payloads, committed⟩
  | .writeFailed => .transient none .localWrite (some ⟨payloads, committed⟩)

/-- `commit_batch_ctl`, with the sink's answer. `lo` places the sub-batch in its
segment. -/
def commitBatch (cfg : DrainConfig) (lo : Nat) (payloads : List Bytes) (ids : List RecordId)
    (reply : CommitReply) (w : DeadLetterWriter) (io : DeadLetterIo) :
    BatchResult × DeadLetterWriter × List Act :=
  let handed := Act.commit lo payloads ids reply
  let through := lo + payloads.length
  match reply with
  | .deadline => (.abandoned, w, [handed])
  | .timeout => (.transient none .sink none, w, [handed, .counted .retried payloads.length])
  | .ok committed deadLettered =>
    -- The sink's contract is a partition of the batch; its size is checked.
    if committed.length + deadLettered.length ≠ payloads.length then
      (.transient none .sink none, w, [handed])
    else if deadLettered = [] then (.ok, w, [handed, .counted .committed committed.length])
    else
      let deadPayloads := deadLettered.map (·.1)
      match deadLetterRecords cfg w through deadPayloads io with
      | (.error failure, w, acts) =>
        (owedResult failure deadPayloads committed.length, w, handed :: acts)
      | (.ok (), w, acts) => (.ok, w, handed :: acts ++ [.counted .committed committed.length])
  | .transient retryAfter =>
    (.transient retryAfter .sink none, w, [handed, .counted .retried payloads.length])
  | .permanent =>
    match deadLetterRecords cfg w through payloads io with
    | (.error failure, w, acts) => (owedResult failure payloads 0, w, handed :: acts)
    | (.ok (), w, acts) => (.ok, w, handed :: acts)

/-- What the control flags say before a sub-batch. -/
structure Gate where
  stopRequested : Bool
  deadlinePassed : Bool
  pauseRequested : Bool
  deriving DecidableEq

/-- `batch_gate`: the deadline outranks a pause. -/
def batchGate (g : Gate) (durableThrough : Nat) : Option ProcessResult :=
  if g.stopRequested ∧ g.deadlinePassed then some (.abandoned durableThrough)
  else if g.pauseRequested then some (.paused durableThrough)
  else none

/-- `apply_batch`: the new cursor, or the result to report. -/
def applyBatch (result : BatchResult) (durableThrough n : Nat) : Except ProcessResult Nat :=
  match result with
  | .ok => .ok (durableThrough + n)
  | .transient retryAfter cause owed =>
    .error (.transient retryAfter durableThrough cause
      (owed.map (·.intoCarry (durableThrough + n))))
  | .blocked needed owed =>
    .error (.blockedDeadLetter durableThrough needed (some (owed.intoCarry (durableThrough + n))))
  | .abandoned => .error (.abandoned durableThrough)

/-! ## One attempt -/

/-- The outcomes of a quarantine move: of the move itself, and whether a failed
one found the segment gone. -/
structure MoveIo where
  quarantine : QuarantineIo
  gone : Bool

/-- What one attempt at a segment meets. The flags, the sink's answer and the
dead-letter outcomes are those of the attempt's `k`-th sub-batch. -/
structure ProcessIo where
  openFault : Option IoError
  fault : ReadFault
  inspectFault : Option IoError
  footerFault : Option IoError
  maxBatchSize : Nat
  gates : Nat → Gate
  replies : Nat → List Bytes → CommitReply
  deadLetters : Nat → DeadLetterIo
  move : MoveIo

/-- Where the record loop is. -/
structure Progress where
  readIndex : Nat
  durableThrough : Nat
  batch : List Bytes
  batchIds : List RecordId
  batches : Nat
  deadLetter : DeadLetterWriter
  acts : List Act

/-- Hands the collected sub-batch to the sink, past the gate. -/
def deliver (cfg : DrainConfig) (io : ProcessIo) (st : Progress) :
    Option ProcessResult × Progress :=
  match batchGate (io.gates st.batches) st.durableThrough with
  | some stop => (some stop, st)
  | none =>
    match commitBatch cfg st.durableThrough st.batch st.batchIds
        (io.replies st.batches st.batch) st.deadLetter (io.deadLetters st.batches) with
    | (result, w, acts) =>
      let st' := { st with
        batch := []
        batchIds := []
        batches := st.batches + 1
        deadLetter := w
        acts := st.acts ++ acts }
      match applyBatch result st.durableThrough st.batch.length with
      | .error setback => (some setback, st')
      | .ok through => (none, { st' with durableThrough := through })

/-- `is_corruption`. -/
def isCorruption (e : IoError) : Bool :=
  e.kind = .invalidData || e.kind = .unexpectedEof

/-- How the record loop ended: the attempt is over, or every record was read, or
the loop stopped at a record for which the segment is quarantined. -/
inductive LoopEnd
  | returned (r : ProcessResult)
  | ended (quarantineAfterPrefix : Option String)

/-- The record loop, over the items the reader yields. -/
def processItems (sha : Sha256) (cfg : DrainConfig) (segmentName : String) (skip : Nat)
    (lastLocalReadChance : Bool) (io : ProcessIo) :
    List (Except IoError Bytes) → Progress → LoopEnd × Progress
  | [], st => (.ended none, st)
  | .error e :: _, st =>
    if isCorruption e then (.ended (some "drain: mid-segment read error"), st)
    else if lastLocalReadChance ∧ classify e = .media then
      (.ended (some "drain: persistent local read error mid-segment"), st)
    else
      (.returned (.transient none st.durableThrough
        (.localRead (classify e) e.rawOsError) none), st)
  | .ok payload :: rest, st =>
    let st := { st with readIndex := st.readIndex + 1 }
    if st.readIndex ≤ skip then
      processItems sha cfg segmentName skip lastLocalReadChance io rest st
    else
      let st := { st with
        batchIds := st.batchIds ++ [forRecord sha segmentName st.readIndex payload]
        batch := st.batch ++ [payload] }
      if max io.maxBatchSize 1 ≤ st.batch.length then
        match deliver cfg io st with
        | (some r, st) => (.returned r, st)
        | (none, st) => processItems sha cfg segmentName skip lastLocalReadChance io rest st
      else processItems sha cfg segmentName skip lastLocalReadChance io rest st

/-- `move_to_quarantine`: a segment that is gone needs no move. -/
def moveToQuarantine (p : Path) (cfg : DrainConfig) (io : MoveIo) :
    Except IoError Unit × List (Op Path) :=
  match quarantine p cfg.wabDir io.quarantine with
  | (.ok (), ops) => (.ok (), ops)
  | (.error e, ops) => if io.gone then (.ok (), ops) else (.error e, ops)

/-- `quarantine_result`. -/
def quarantineResult (p : Path) (cfg : DrainConfig) (reason : String) (io : MoveIo) :
    ProcessResult :=
  match moveToQuarantine p cfg io with
  | (.ok (), _) => .quarantined
  | (.error _, _) => .quarantinePending reason

/-- `read_segment_record_count`: the eight bytes where the footer would start. -/
def readSegmentRecordCount (p : Path) (file : Bytes) (fault : Option IoError) :
    Except IoError Nat :=
  match fault with
  | some e => .error e
  | none =>
    if file.length < segmentFooterLen then
      .error (IoError.new .unexpectedEof ("segment '" ++ p.display ++ "' is "
        ++ s!"{file.length} bytes, shorter than the {segmentFooterLen}-byte footer"))
    else .ok (leNat (slice file (file.length - segmentFooterLen)
      (file.length - segmentFooterLen + 8)))

/-- What a header the reader rejected is. -/
inductive HeaderVerdict
  | newerFormat (version : UInt8) (flags : Option UInt8)
  | corrupt
  | gone
  | unreadable (e : IoError)

/-- `inspect_rejected_header`. -/
def inspectRejectedHeader (file : Bytes) (fault : Option IoError) : HeaderVerdict :=
  match fault with
  | some e => if e.kind = .notFound then .gone else .unreadable e
  | none =>
    let header := file.take segmentHeaderLen
    if header.length < 5 ∨ slice header 0 4 ≠ segmentMagic then .corrupt
    else if header.getD 4 0 > formatVersionMaxSupported then
      .newerFormat (header.getD 4 0) header[5]?
    else
      match parseSegmentHeader header with
      | .error (.reservedFlagsSet version flags) =>
        if version = formatVersionV2 then .newerFormat formatVersionV2 (some flags) else .corrupt
      | .error _ => .corrupt
      | .ok _ => .unreadable (IoError.new .invalidData
          "segment header was rejected on open but parses on re-read")

/-- `local_read_failure`. -/
def localReadFailure (e : IoError) (skip : Nat) : ProcessResult :=
  .transient none skip (.localRead (classify e) e.rawOsError) none

/-- What an attempt returns; `readSentinel` says whether the reader stopped at
the sentinel. -/
structure Processed where
  result : ProcessResult
  deadLetter : DeadLetterWriter
  acts : List Act
  readSentinel : Bool

/-- The part of `process_segment_ctl` behind the record loop: the last sub-batch,
then the completeness check. -/
def finish (cfg : DrainConfig) (p : Path) (file : Bytes) (io : ProcessIo)
    (quarantineAfterPrefix : Option String) (st : Progress) : ProcessResult × Progress :=
  match if st.batch = [] then (none, st) else deliver cfg io st with
  | (some r, st) => (r, st)
  | (none, st) =>
    match quarantineAfterPrefix with
    | some reason => (quarantineResult p cfg reason io.move, st)
    | none =>
      match readSegmentRecordCount p file io.footerFault with
      | .ok footerCount =>
        if footerCount = st.readIndex then (.confirmed st.readIndex, st)
        else
          (quarantineResult p cfg "drain: record count mismatch vs footer (truncated tail)" io.move,
            st)
      | .error e =>
        if isCorruption e then
          (quarantineResult p cfg "drain: footer unreadable, completeness unverifiable" io.move, st)
        else if e.kind = .notFound then (.confirmed st.readIndex, st)
        else (.transient none st.durableThrough (.localRead (classify e) e.rawOsError) none, st)

/-- The verdict on a header the reader rejected. -/
def rejectedHeader (cfg : DrainConfig) (p : Path) (file : Bytes) (io : ProcessIo) (skip : Nat) :
    ProcessResult :=
  match inspectRejectedHeader file io.inspectFault with
  | .newerFormat _ _ => .parked .unsupportedVersion
  | .corrupt => quarantineResult p cfg "drain: corrupt segment header" io.move
  | .gone => .confirmed 0
  | .unreadable e => localReadFailure e skip

/-- `open_segment`. -/
def openSegment (file : Bytes) (io : ProcessIo) : Except IoError SegmentReader :=
  match io.openFault with
  | some e => .error e
  | none => SegmentReader.open file io.fault

/-- `process_segment_ctl`. -/
def processSegment (z : Zstd) (sha : Sha256) (cfg : DrainConfig) (p : Path) (file : Bytes)
    (w : DeadLetterWriter) (skip : Nat) (lastLocalReadChance : Bool) (io : ProcessIo) : Processed :=
  match openSegment file io with
  | .error e =>
    if e.kind = .notFound then ⟨.confirmed 0, w, [], false⟩
    else if e.kind = .invalidData then ⟨rejectedHeader cfg p file io skip, w, [], false⟩
    else ⟨localReadFailure e skip, w, [], false⟩
  | .ok reader =>
    let items := (reader.readAll z io.fault).1
    let sentinel := (reader.readAll z io.fault).2.terminatedCleanly = some true
    match processItems sha cfg (segmentIdentity p) skip lastLocalReadChance io items
        ⟨0, skip, [], [], 0, w, []⟩ with
    | (.returned r, st) => ⟨r, st.deadLetter, st.acts, false⟩
    | (.ended quarantineAfterPrefix, st) =>
      let out := finish cfg p file io quarantineAfterPrefix st
      ⟨out.1, out.2.deadLetter, out.2.acts, sentinel⟩

/-! ## What an attempt can report -/

variable {cfg : DrainConfig} {io : ProcessIo}
  {st : Progress} {p : Path} {n skip : Nat} {z : Zstd} {sha : Sha256} {w : DeadLetterWriter}
  {last : Bool}

/-- The payloads before the first error. -/
def okPrefix : List (Except IoError Bytes) → List Bytes
  | .ok payload :: rest => payload :: okPrefix rest
  | _ => []

theorem batchGate_progress {g : Gate} {r : ProcessResult} (h : batchGate g n = some r) :
    r.progress ≠ none := by
  revert h
  fun_cases batchGate g n <;> rintro ⟨⟩ <;> simp [ProcessResult.progress]

theorem applyBatch_progress {result : BatchResult} {through : Nat} {r : ProcessResult}
    (h : applyBatch result through n = .error r) : r.progress ≠ none := by
  revert h
  fun_cases applyBatch result through n <;> rintro ⟨⟩ <;> simp [ProcessResult.progress]

/-- Handing a sub-batch over reads no record, and when it ends the attempt, the segment is to
be attempted again. -/
theorem deliver_end (cfg : DrainConfig) (io : ProcessIo) (st : Progress) :
    (deliver cfg io st).2.readIndex = st.readIndex ∧
      ∀ r ∈ (deliver cfg io st).1, r.progress ≠ none := by
  fun_cases deliver cfg io st
  case case1 stop hgate =>
    refine ⟨rfl, ?_⟩
    rintro r ⟨⟩
    exact batchGate_progress hgate
  case case2 setback happly =>
    refine ⟨rfl, ?_⟩
    rintro r ⟨⟩
    exact applyBatch_progress happly
  case case3 => exact ⟨rfl, by simp⟩

/-- What the end of the record loop says: what it reported is a setback, and it read the
records before the first error, which are all unless it stopped at one. -/
def LoopEnd.Of (items : List (Except IoError Bytes)) (start : Nat) : LoopEnd × Progress → Prop
  | (.returned r, _) => r.progress ≠ none
  | (.ended q, st) => st.readIndex = start + (okPrefix items).length ∧
      (q = none → items = (okPrefix items).map .ok)

theorem LoopEnd.Of.cons {rest : List (Except IoError Bytes)} {start : Nat} {payload : Bytes}
    {out : LoopEnd × Progress} (h : LoopEnd.Of rest (start + 1) out) :
    LoopEnd.Of (.ok payload :: rest) start out := by
  obtain ⟨e, st⟩ := out
  cases e with
  | returned r => exact h
  | ended q =>
    refine ⟨?_, fun hq => congrArg (.ok payload :: ·) (h.2 hq)⟩
    rw [h.1, okPrefix, List.length_cons]
    omega

theorem processItems_end {name : String} {items : List (Except IoError Bytes)}
    {out : LoopEnd × Progress} (h : processItems sha cfg name skip last io items st = out) :
    LoopEnd.Of items st.readIndex out := by
  subst h
  fun_induction processItems sha cfg name skip last io items st
  case case1 => exact ⟨rfl, fun _ => rfl⟩
  case case2 => exact ⟨rfl, by simp⟩
  case case3 => exact ⟨rfl, by simp⟩
  case case4 => exact fun h => absurd h (by simp [ProcessResult.progress])
  case case5 ih => exact ih.cons
  case case6 st _ _ st' hfull r st'' hd =>
    have hend := (deliver_end cfg io st').2
    rw [hd] at hend
    exact hend r rfl
  case case7 st st₁ _ st' hfull st'' hd ih =>
    have hidx := (deliver_end cfg io st').1
    rw [hd] at hidx
    rw [show st''.readIndex = st.readIndex + 1 from hidx] at ih
    exact ih.cons
  case case8 ih => exact ih.cons

theorem quarantineResult_ne (p : Path) (cfg : DrainConfig) (reason : String) (io : MoveIo)
    (n : Nat) : quarantineResult p cfg reason io ≠ .confirmed n := by
  unfold quarantineResult
  split <;> simp

/-- The last sub-batch, when one is left. -/
theorem lastBatch_end {out : Option ProcessResult × Progress}
    (h : (if st.batch = [] then (none, st) else deliver cfg io st) = out) :
    out.2.readIndex = st.readIndex ∧ ∀ r ∈ out.1, r.progress ≠ none := by
  subst h
  split
  · exact ⟨rfl, by simp⟩
  · exact deliver_end cfg io st

variable {file : Bytes}

/-- A segment is confirmed behind the loop when its footer count is the number of
records read, or when it is gone by then. -/
theorem finish_confirmed {q : Option String} (h : (finish cfg p file io q st).1 = .confirmed n) :
    q = none ∧ n = st.readIndex ∧
      (readSegmentRecordCount p file io.footerFault = .ok st.readIndex ∨
        ∃ e, io.footerFault = some e ∧ e.kind = .notFound) := by
  revert h
  fun_cases finish cfg p file io q st <;> intro h
  case case1 r st' heq =>
    obtain rfl : r = .confirmed n := h
    exact absurd rfl ((lastBatch_end heq).2 _ rfl)
  case case3 st' heq hcount =>
    have hidx : st'.readIndex = st.readIndex := (lastBatch_end heq).1
    cases h
    rw [hidx] at hcount
    exact ⟨rfl, hidx, .inl hcount⟩
  case case6 st' heq e hcount _ hgone =>
    cases h
    refine ⟨rfl, (lastBatch_end heq).1, .inr ?_⟩
    unfold readSegmentRecordCount at hcount
    split at hcount
    next e' hf => exact ⟨e', hf, by rw [Except.error.inj hcount]; exact hgone⟩
    · split at hcount <;> cases hcount
      cases hgone
  case case7 => cases h
  all_goals exact absurd h (quarantineResult_ne _ _ _ _ _)

/-- Some call of the attempt was told that the segment does not exist. -/
def ProcessIo.Gone (io : ProcessIo) : Prop :=
  (∃ e, io.openFault = some e ∧ e.kind = .notFound) ∨
  (∃ pos e, io.fault.err pos = some e ∧ e.kind = .notFound) ∨
  (∃ e, io.inspectFault = some e ∧ e.kind = .notFound) ∨
  ∃ e, io.footerFault = some e ∧ e.kind = .notFound

/-- `SegmentReader::open` only passes a `NotFound` on. -/
theorem open_notFound {fault : ReadFault} {e : IoError}
    (h : SegmentReader.open file fault = .error e) (hk : e.kind = .notFound) :
    ∃ pos e', fault.err pos = some e' ∧ e'.kind = .notFound := by
  revert h
  fun_cases SegmentReader.open file fault <;> intro h <;> cases h
  case case2 hread hne =>
    unfold Wab.readExact at hread
    split at hread
    next e' hf => exact ⟨0, e', hf, by rw [Except.error.inj hread]; exact hk⟩
    · split at hread <;> cases hread
      exact absurd rfl hne
  case case5 perr _ => cases perr <;> cases hk
  all_goals cases hk

theorem rejectedHeader_ne_confirmed (hgone : ¬io.Gone) (n : Nat) :
    rejectedHeader cfg p file io skip ≠ .confirmed n := by
  fun_cases rejectedHeader cfg p file io skip
  case case2 => exact quarantineResult_ne _ _ _ _ _
  case case3 hv =>
    -- only a `NotFound` re-read takes the segment for gone
    exfalso
    generalize hf : io.inspectFault = fault at hv
    revert hv
    fun_cases inspectRejectedHeader file fault <;> intro hv <;> cases hv
    case case1.refl e hk => exact hgone (.inr (.inr (.inl ⟨e, hf, hk⟩)))
  all_goals simp [localReadFailure]

/-- A confirmed segment was read to its end without an error, unless some call
took it for gone. -/
theorem processSegment_confirmed_read
    (h : (processSegment z sha cfg p file w skip last io).result = .confirmed n)
    (hread : (processSegment z sha cfg p file w skip last io).readSentinel = true ∨ ¬io.Gone) :
    ∃ reader, ∃ ps : List Bytes, openSegment file io = .ok reader ∧
      (reader.readAll z io.fault).1 = ps.map .ok ∧ n = ps.length ∧
      (readSegmentRecordCount p file io.footerFault = .ok ps.length ∨
        ∃ e, io.footerFault = some e ∧ e.kind = .notFound) := by
  revert h hread
  fun_cases processSegment z sha cfg p file w skip last io <;> intro h hread
  case case1 e hopen hk =>
    refine absurd ?_ (hread.resolve_left (by simp))
    unfold openSegment at hopen
    split at hopen
    next e' hf => exact .inl ⟨e', hf, by rw [Except.error.inj hopen]; exact hk⟩
    · exact .inr (.inl (open_notFound hopen hk))
  case case2 => exact absurd h (rejectedHeader_ne_confirmed (hread.resolve_left (by simp)) n)
  case case3 => cases h
  case case4 reader hopen items r st hloop =>
    obtain rfl : r = .confirmed n := h
    exact absurd rfl (processItems_end hloop)
  case case5 reader hopen items _ q st hloop _ =>
    obtain ⟨rfl, hn, hfoot⟩ := finish_confirmed h
    obtain ⟨hidx, hall⟩ := processItems_end hloop
    rw [zero_add] at hidx
    rw [hidx] at hn hfoot
    exact ⟨reader, _, hopen, hall rfl, hn, hfoot⟩

/-- The count in its footer's place is the number of records read. -/
theorem processSegment_confirmed (hgone : ¬io.Gone)
    (h : (processSegment z sha cfg p file w skip last io).result = .confirmed n) :
    ∃ reader, ∃ ps : List Bytes, openSegment file io = .ok reader ∧
      (reader.readAll z io.fault).1 = ps.map .ok ∧
      readSegmentRecordCount p file none = .ok ps.length := by
  obtain ⟨reader, ps, hopen, hps, _, hfoot⟩ := processSegment_confirmed_read h (.inr hgone)
  rcases hfoot with hfoot | hfoot
  · refine ⟨reader, ps, hopen, hps, ?_⟩
    unfold readSegmentRecordCount at hfoot
    split at hfoot
    · cases hfoot
    · exact hfoot
  · exact absurd (.inr (.inr (.inr hfoot))) hgone

theorem quarantineResult_quarantined {reason : String} {io : MoveIo}
    (h : quarantineResult p cfg reason io = .quarantined) :
    (moveToQuarantine p cfg io).1 = .ok () := by
  unfold quarantineResult at h
  split at h
  next ops hmove => rw [hmove]
  · cases h

theorem finish_quarantined {q : Option String} (h : (finish cfg p file io q st).1 = .quarantined) :
    (moveToQuarantine p cfg io.move).1 = .ok () := by
  revert h
  fun_cases finish cfg p file io q st <;> intro h
  case case1 r st' heq =>
    obtain rfl : r = .quarantined := h
    exact absurd rfl ((lastBatch_end heq).2 _ rfl)
  case case3 => cases h
  case case6 => cases h
  case case7 => cases h
  all_goals exact quarantineResult_quarantined h

/-- A segment is reported quarantined when its move succeeded. -/
theorem processSegment_quarantined
    (h : (processSegment z sha cfg p file w skip last io).result = .quarantined) :
    (moveToQuarantine p cfg io.move).1 = .ok () := by
  revert h
  fun_cases processSegment z sha cfg p file w skip last io <;> intro h
  case case1 => cases h
  case case2 =>
    have h : rejectedHeader cfg p file io skip = .quarantined := h
    revert h
    fun_cases rejectedHeader cfg p file io skip <;> intro h
    case case2 => exact quarantineResult_quarantined h
    all_goals cases h
  case case3 => cases h
  case case4 items r st hloop =>
    obtain rfl : r = .quarantined := h
    exact absurd rfl (processItems_end hloop)
  case case5 q st _ _ => exact finish_quarantined h

end Weir.Drain

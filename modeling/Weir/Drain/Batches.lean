import Mathlib.Data.List.Infix
import Weir.Drain.Process

/-!
# The sub-batches of an attempt

What an attempt did is a row of sub-batches the sink settled, each the next
records of the segment, and at most one it did not.

> `processSegment_reports`: the attempt's acts are those of settled sub-batches
> from record `skip` on, and the cursor it reports is the end of the last one.

> `processSegment_confirmed_length`: a confirmed count is the number of records
> of the segment.
-/

namespace Weir.Drain

open Weir.Lib Weir.Wab List

/-! ## The records of a segment -/

/-- The records of a sealed segment: what an undisturbed reader yields. -/
def recordsOf (z : Zstd) (file : Bytes) : List Bytes :=
  match SegmentReader.open file noFault with
  | .error _ => []
  | .ok reader => okPrefix (reader.readAll z noFault).1

theorem okPrefix_map (ps : List Bytes) : okPrefix (ps.map .ok) = ps := by
  induction ps with
  | nil => rfl
  | cons p ps ih => rw [map_cons, okPrefix, ih]

variable {z : Zstd} {fault : ReadFault} {r : ProcessResult} {payloads rs' : List Bytes}
  {reply : CommitReply} {committed through lo mid : Nat} {w : DeadLetterWriter} {io : ProcessIo}
  {st : Progress} {p : Path}

/-- Faults cut what the reader yields; they do not change it. -/
theorem okPrefix_collect (fuel : Nat) (r : SegmentReader) :
    okPrefix (r.collect z fault fuel).1 <+: okPrefix (r.collect z noFault fuel).1 := by
  induction fuel generalizing r with
  | zero => exact prefix_refl _
  | succ fuel ih =>
    by_cases herr : ∃ e, (r.next z fault).1 = some (.error e)
    · obtain ⟨e, he⟩ := herr
      have hnil : okPrefix (r.collect z fault (fuel + 1)).1 = [] := by
        unfold SegmentReader.collect
        split
        · rfl
        rename_i item r' heq
        rw [heq] at he
        rw [Option.some.inj he]
        rfl
      rw [hnil]
      exact nil_prefix
    · have hnext : r.next z fault = r.next z noFault :=
        SegmentReader.next_noFault fun e he => herr ⟨e, he⟩
      unfold SegmentReader.collect
      rw [← hnext]
      split
      · exact prefix_refl _
      rename_i item r' heq
      cases item with
      | error e => exact absurd ⟨e, by rw [heq]⟩ herr
      | ok payload => exact (prefix_cons_inj payload).mpr (ih r')

variable {file : Bytes}

theorem okPrefix_readAll {r : SegmentReader} (h : SegmentReader.open file fault = .ok r) :
    okPrefix (r.readAll z fault).1 <+: recordsOf z file := by
  unfold recordsOf
  rw [SegmentReader.open_noFault h]
  exact okPrefix_collect _ r

theorem recordsOf_readAll {r : SegmentReader} {ps : List Bytes}
    (h : SegmentReader.open file fault = .ok r) (hall : (r.readAll z fault).1 = ps.map .ok) :
    recordsOf z file = ps := by
  unfold recordsOf
  rw [SegmentReader.open_noFault h]
  show okPrefix (r.readAll z noFault).1 = ps
  rw [← SegmentReader.readAll_noFault hall, hall, okPrefix_map]

theorem open_nil (fault : ReadFault) (r : SegmentReader) : SegmentReader.open [] fault ≠ .ok r := by
  intro h
  obtain ⟨header, rest, hnil, hparse, _⟩ := SegmentReader.open_ok h
  have hlen := parseSegmentHeader_length hparse
  rw [(append_eq_nil_iff.mp hnil.symm).1] at hlen
  cases hlen

@[simp] theorem recordsOf_nil (z : Zstd) : recordsOf z [] = [] := by
  unfold recordsOf
  split
  · rfl
  next r h => exact absurd h (open_nil _ _)

/-! ## One sub-batch -/

/-- The ids of the records of a sub-batch behind record `lo`. -/
def idsFrom (sha : Sha256) (segment : String) (lo : Nat) (batch : List Bytes) : List RecordId :=
  batch.mapIdx fun k payload => forRecord sha segment (lo + k + 1) payload

theorem idsFrom_snoc (sha : Sha256) (segment : String) (lo : Nat) (batch : List Bytes)
    (payload : Bytes) :
    idsFrom sha segment lo (batch ++ [payload])
      = idsFrom sha segment lo batch
        ++ [forRecord sha segment (lo + batch.length + 1) payload] := by
  unfold idsFrom
  simp

/-- The sink's answer to `batch` leaves `payloads` to dead-letter and `committed`
records committed. -/
inductive Owes (batch : List Bytes) : CommitReply → List Bytes → Nat → Prop
  | rejects {committed : List Bytes} {dead : List (Bytes × String)} (hne : dead ≠ [])
      (hlen : committed.length + dead.length = batch.length) :
      Owes batch (.ok committed dead) (dead.map (·.1)) committed.length
  | all : Owes batch .permanent batch 0

variable {batch : List Bytes}

theorem Owes.length
    (h : Owes batch reply payloads committed) : payloads.length + committed = batch.length := by
  cases h with
  | rejects _ hlen => rw [length_map]; omega
  | all => rfl

theorem Owes.ne_nil
    (h : Owes batch reply payloads committed) (hb : batch ≠ []) : payloads ≠ [] := by
  cases h with
  | rejects hne _ => simpa using hne
  | all => exact hb

/-- The sink reported Ok and accounted for every record. -/
def CommitReply.Accounts (batch : List Bytes) : CommitReply → Prop
  | .ok committed dead => committed.length + dead.length = batch.length
  | _ => False

/-- The acts of a sub-batch behind record `lo` that the sink settled. -/
inductive Accepted (lo : Nat) (batch : List Bytes) (ids : List RecordId) : List Act → Prop
  | committed {committed : List Bytes} (hlen : committed.length = batch.length) :
      Accepted lo batch ids
        [.commit lo batch ids (.ok committed []), .counted .committed committed.length]
  | deadLettered {reply : CommitReply} {payloads : List Bytes} {committed : Nat}
      {ops : List (Op Path)} {tail : List Act} (howes : Owes batch reply payloads committed)
      (hseals : Seals ops payloads)
      (htail : tail = [.counted .committed committed] ∨ committed = 0 ∧ tail = []) :
      Accepted lo batch ids
        (.commit lo batch ids reply :: .deadLettered (lo + batch.length) payloads ops
          :: .counted .deadLettered payloads.length :: tail)

/-- The acts of a sub-batch that is to be tried again, and what it owes the
dead-letter directory. -/
inductive Refused (lo : Nat) (batch : List Bytes) (ids : List RecordId) :
    Option DeadLetterCarry → List Act → Prop
  | owed {reply : CommitReply} {payloads : List Bytes} {committed : Nat}
      (howes : Owes batch reply payloads committed) :
      Refused lo batch ids
        (some (DeadLetterOwed.intoCarry ⟨payloads, committed⟩ (lo + batch.length)))
        [.commit lo batch ids reply]
  | again {reply : CommitReply} {tail : List Act} (hreply : ¬reply.Accounts batch)
      (htail : ∀ a ∈ tail, a = .counted .retried batch.length) :
      Refused lo batch ids none (.commit lo batch ids reply :: tail)

variable {cfg : DrainConfig} {acts : List Act}
  {w' : DeadLetterWriter} {records : List Bytes} {hi n : Nat} {result : BatchResult}
  {last : Bool}

theorem deadLetterRecords_ok
    {io : DeadLetterIo} (h : deadLetterRecords cfg w through records io = (.ok (), w', acts)) :
    ∃ ops, (records ≠ [] → Seals ops records) ∧
      acts = [.deadLettered through records ops, .counted .deadLettered records.length] := by
  unfold deadLetterRecords at h
  dsimp only at h
  split at h
  · cases h
  split at h
  next w₁ ops hw =>
    simp only [Prod.mk.injEq] at h
    exact ⟨ops, fun hne => writeRecords_ok hne hw, h.2.2.symm⟩
  · cases h

theorem deadLetterRecords_error {io : DeadLetterIo} {failure : DeadLetterFailure}
    (h : deadLetterRecords cfg w through records io = (.error failure, w', acts)) : acts = [] := by
  unfold deadLetterRecords at h
  dsimp only at h
  split at h
  · exact ((Prod.mk.inj (Prod.mk.inj h).2).2).symm
  · split at h
    · cases h
    · exact ((Prod.mk.inj (Prod.mk.inj h).2).2).symm

/-- What the acts of a sub-batch are, by how it ended. -/
def BatchResult.Explains (lo : Nat) (batch : List Bytes) (ids : List RecordId) (acts : List Act) :
    BatchResult → Prop
  | .ok => Accepted lo batch ids acts
  | .transient _ _ owed => Refused lo batch ids (owed.map (·.intoCarry (lo + batch.length))) acts
  | .blocked _ owed => Refused lo batch ids (some (owed.intoCarry (lo + batch.length))) acts
  | .abandoned => Refused lo batch ids none acts

theorem owedResult_explains {ids : List RecordId} (failure : DeadLetterFailure)
    (howes : Owes batch reply payloads committed) :
    (owedResult failure payloads committed).Explains lo batch ids [.commit lo batch ids reply] := by
  cases failure with
  | blocked needed | writeFailed => exact .owed howes

theorem commitBatch_explains (cfg : DrainConfig) (lo : Nat) (batch : List Bytes)
    (ids : List RecordId) (reply : CommitReply) (w : DeadLetterWriter) (io : DeadLetterIo)
    (hne : batch ≠ []) :
    (commitBatch cfg lo batch ids reply w io).1.Explains lo batch ids
      (commitBatch cfg lo batch ids reply w io).2.2 := by
  unfold commitBatch
  cases reply with
  | deadline | timeout | transient retryAfter =>
    exact .again (by simp [CommitReply.Accounts]) (by simp)
  | permanent =>
    dsimp only
    split
    next failure w' acts hdl =>
      rw [deadLetterRecords_error hdl]
      exact owedResult_explains failure .all
    next w' acts hdl =>
      obtain ⟨ops, hseals, rfl⟩ := deadLetterRecords_ok hdl
      exact .deadLettered .all (hseals hne) (.inr ⟨rfl, rfl⟩)
  | ok committed dead =>
    dsimp only
    split
    next hlen => exact .again hlen (by simp)
    next hlen =>
      have hlen : committed.length + dead.length = batch.length := by omega
      split
      next hdead =>
        subst hdead
        exact .committed (by simpa using hlen)
      next hdead =>
        have howes : Owes batch (.ok committed dead) (dead.map (·.1)) committed.length :=
          .rejects hdead hlen
        split
        next failure w' acts hdl =>
          rw [deadLetterRecords_error hdl]
          exact owedResult_explains failure howes
        next w' acts hdl =>
          obtain ⟨ops, hseals, rfl⟩ := deadLetterRecords_ok hdl
          exact .deadLettered howes (hseals (howes.ne_nil hne)) (.inl rfl)

/-! ## One attempt -/

section

variable (sha : Sha256) (segment : String) (rs : List Bytes)

/-- Acts of settled sub-batches of `rs`, one behind the other, that move the
cursor from `lo` to `hi`. -/
inductive Sent (lo : Nat) : Nat → List Act → Prop
  | nil : Sent lo lo []
  | snoc {mid : Nat} {batch : List Bytes} {acts acts' : List Act} (h : Sent lo mid acts)
      (hchunk : batch <+: rs.drop mid) (hne : batch ≠ [])
      (hacc : Accepted mid batch (idsFrom sha segment mid batch) acts') :
      Sent lo (mid + batch.length) (acts ++ acts')

/-- The acts behind the last settled sub-batch: none, or those of one that is to
be tried again. -/
def Pends (mid : Nat) (carry : Option DeadLetterCarry) (acts : List Act) : Prop :=
  (carry = none ∧ acts = []) ∨
  ∃ batch, batch <+: rs.drop mid ∧ batch ≠ [] ∧
    Refused mid batch (idsFrom sha segment mid batch) carry acts

/-- What the result of an attempt from `skip` says, when `mid` is the end of the
last settled sub-batch and `acts` are the acts behind it. -/
def ProcessResult.Ends (skip mid : Nat) (acts : List Act) : ProcessResult → Prop
  | .confirmed n => mid = max skip n ∧ acts = []
  | .transient _ processed _ carry => processed = mid ∧ Pends sha segment rs mid carry acts
  | .blockedDeadLetter processed _ carry => processed = mid ∧ Pends sha segment rs mid carry acts
  | .paused processed => processed = mid ∧ acts = []
  | .abandoned processed => processed = mid ∧ Pends sha segment rs mid none acts
  | .quarantined | .quarantinePending _ | .parked _ => acts = []

/-- The acts of an attempt from `skip`, split at the cursor it reports. -/
def Reports (skip : Nat) (result : ProcessResult) (acts : List Act) : Prop :=
  ∃ mid sent rest, acts = sent ++ rest ∧ Sent sha segment rs skip mid sent ∧
    result.Ends sha segment rs skip mid rest

/-- The state of the record loop: the cursor and the collected sub-batch reach up
to the records read, or to `skip`. -/
structure Progress.Inv (skip : Nat) (st : Progress) : Prop where
  reach : st.durableThrough + st.batch.length = max skip st.readIndex
  chunk : st.batch <+: rs.drop st.durableThrough
  ids : st.batchIds = idsFrom sha segment st.durableThrough st.batch
  sent : Sent sha segment rs skip st.durableThrough st.acts

end

variable {sha : Sha256} {segment : String} {rs : List Bytes}

theorem Sent.le (h : Sent sha segment rs lo hi acts) : lo ≤ hi := by
  induction h with
  | nil => exact le_rfl
  | snoc _ _ _ _ ih => omega

theorem Sent.mono (h : Sent sha segment rs lo hi acts)
    (hrs : rs <+: rs') : Sent sha segment rs' lo hi acts := by
  induction h with
  | nil => exact .nil
  | snoc _ hchunk hne hacc ih => exact ih.snoc (hchunk.trans (hrs.drop _)) hne hacc

theorem Pends.mono {carry : Option DeadLetterCarry}
    (h : Pends sha segment rs mid carry acts) (hrs : rs <+: rs') :
    Pends sha segment rs' mid carry acts := by
  rcases h with h | ⟨batch, hchunk, hne, href⟩
  · exact .inl h
  · exact .inr ⟨batch, hchunk.trans (hrs.drop _), hne, href⟩

variable {skip : Nat}

theorem Reports.mono {result : ProcessResult}
    (h : Reports sha segment rs skip result acts) (hrs : rs <+: rs') :
    Reports sha segment rs' skip result acts := by
  obtain ⟨mid, sent, rest, hacts, hsent, hends⟩ := h
  refine ⟨mid, sent, rest, hacts, hsent.mono hrs, ?_⟩
  cases result with
  | transient _ _ _ _ | blockedDeadLetter _ _ _ | abandoned _ => exact ⟨hends.1, hends.2.mono hrs⟩
  | confirmed _ | paused _ | quarantined | quarantinePending _ | parked _ => exact hends

theorem Pends.nil (mid : Nat) : Pends sha segment rs mid none [] := .inl ⟨rfl, rfl⟩

/-- An attempt that did nothing more. -/
theorem Progress.Inv.reports (h : st.Inv sha segment rs skip)
    (hr : r.Ends sha segment rs skip st.durableThrough []) :
    Reports sha segment rs skip r st.acts :=
  ⟨st.durableThrough, st.acts, [], (append_nil _).symm, h.sent, hr⟩

theorem batchGate_ends {g : Gate} (h : batchGate g mid = some r) :
    r.Ends sha segment rs skip mid [] := by
  unfold batchGate at h
  split at h
  · rw [← Option.some.inj h]; exact ⟨rfl, .nil mid⟩
  · split at h
    · rw [← Option.some.inj h]; exact ⟨rfl, rfl⟩
    · cases h

theorem applyBatch_error_ends (hchunk : batch <+: rs.drop mid) (hne : batch ≠ [])
    (hex : result.Explains mid batch (idsFrom sha segment mid batch) acts)
    (h : applyBatch result mid batch.length = .error r) : r.Ends sha segment rs skip mid acts := by
  unfold applyBatch at h
  split at h
  · cases h
  all_goals
    rw [← Except.error.inj h]
    exact ⟨rfl, .inr ⟨batch, hchunk, hne, hex⟩⟩

theorem applyBatch_ok
    (h : applyBatch result mid n = .ok through) : result = .ok ∧ through = mid + n := by
  unfold applyBatch at h
  split at h
  · exact ⟨rfl, (Except.ok.inj h).symm⟩
  all_goals cases h

/-- Handing a sub-batch over ends the attempt, or moves the cursor over it. -/
def Delivered (sha : Sha256) (segment : String) (rs : List Bytes) (skip : Nat) :
    Option ProcessResult × Progress → Prop
  | (some r, st) => Reports sha segment rs skip r st.acts
  | (none, st) => st.Inv sha segment rs skip ∧ st.batch = []

theorem deliver_spec (cfg : DrainConfig) (io : ProcessIo)
    (h : st.Inv sha segment rs skip) (hne : st.batch ≠ []) :
    Delivered sha segment rs skip (deliver cfg io st) := by
  have hex := commitBatch_explains cfg st.durableThrough st.batch st.batchIds
    (io.replies st.batches st.batch) st.deadLetter (io.deadLetters st.batches) hne
  fun_cases deliver cfg io st
  case case1 stop hgate => exact h.reports (batchGate_ends hgate)
  case case2 _ result w acts hcommit _ setback happly =>
    rw [hcommit, h.ids] at hex
    exact ⟨st.durableThrough, st.acts, _, rfl, h.sent,
      applyBatch_error_ends h.chunk hne hex happly⟩
  case case3 _ result w acts hcommit _ through happly =>
    obtain ⟨rfl, rfl⟩ := applyBatch_ok happly
    rw [hcommit, h.ids] at hex
    exact ⟨⟨h.reach, nil_prefix, rfl, h.sent.snoc h.chunk hne hex⟩, rfl⟩

/-- One more record read, and collected when it lies behind `skip`. -/
theorem Progress.Inv.skipped (h : st.Inv sha segment rs skip) (hle : st.readIndex + 1 ≤ skip) :
    ({ st with readIndex := st.readIndex + 1 } : Progress).Inv sha segment rs skip where
  reach := by
    have := h.reach
    show st.durableThrough + st.batch.length = max skip (st.readIndex + 1)
    omega
  chunk := h.chunk
  ids := h.ids
  sent := h.sent

theorem Progress.Inv.push {payload : Bytes} (h : st.Inv sha segment rs skip)
    (hlt : skip < st.readIndex + 1) (hp : rs[st.readIndex]? = some payload) :
    ({ st with
      readIndex := st.readIndex + 1
      batchIds := st.batchIds ++ [forRecord sha segment (st.readIndex + 1) payload]
      batch := st.batch ++ [payload] } : Progress).Inv sha segment rs skip := by
  have hreach : st.durableThrough + st.batch.length = st.readIndex := by
    have := h.reach
    omega
  refine ⟨?_, ?_, ?_, h.sent⟩
  · show st.durableThrough + (st.batch ++ [payload]).length = max skip (st.readIndex + 1)
    rw [length_append, length_singleton]
    omega
  · show st.batch ++ [payload] <+: rs.drop st.durableThrough
    obtain ⟨rest, hrest⟩ := h.chunk
    have hget : (rs.drop st.durableThrough)[st.batch.length]? = some payload := by
      rw [getElem?_drop, hreach, hp]
    rw [← hrest, getElem?_append_right (Nat.le_refl _), Nat.sub_self] at hget
    cases rest with
    | nil => cases hget
    | cons x xs =>
      simp only [getElem?_cons_zero, Option.some.injEq] at hget
      exact ⟨xs, by rw [← hrest, ← hget]; simp⟩
  · show st.batchIds ++ [forRecord sha segment (st.readIndex + 1) payload]
      = idsFrom sha segment st.durableThrough (st.batch ++ [payload])
    rw [idsFrom_snoc, h.ids, hreach]

/-- The record loop has ended the attempt, or collected the records it read. -/
def LoopEnd.Reports (sha : Sha256) (segment : String) (rs : List Bytes) (skip : Nat) :
    LoopEnd × Progress → Prop
  | (.returned r, st) => Drain.Reports sha segment rs skip r st.acts
  | (.ended _, st) => st.Inv sha segment rs skip

theorem okPrefix_cons {payload : Bytes} {rest : List (Except IoError Bytes)} {k : Nat}
    (h : okPrefix (.ok payload :: rest) <+: rs.drop k) :
    rs[k]? = some payload ∧ okPrefix rest <+: rs.drop (k + 1) := by
  obtain ⟨tail, htail⟩ := h
  refine ⟨?_, tail, by rw [← drop_drop, ← htail]; rfl⟩
  have : (rs.drop k)[0]? = some payload := by rw [← htail]; rfl
  rwa [getElem?_drop, add_zero] at this

/-- How the record loop ends, over items that are the next records of `rs`. -/
theorem processItems_spec (cfg : DrainConfig) (skip : Nat) (last : Bool) (io : ProcessIo)
    (items : List (Except IoError Bytes)) (st : Progress) (h : st.Inv sha segment rs skip)
    (hitems : okPrefix items <+: rs.drop st.readIndex) :
    LoopEnd.Reports sha segment rs skip (processItems sha cfg segment skip last io items st) := by
  fun_induction processItems sha cfg segment skip last io items st
  case case1 => exact h
  case case2 => exact h
  case case3 => exact h
  case case4 => exact h.reports ⟨rfl, .nil _⟩
  case case5 hle ih => exact ih (h.skipped hle) (okPrefix_cons hitems).2
  case case6 hgt st' _ r st'' hd =>
    have hspec := deliver_spec cfg io (h.push (Nat.lt_of_not_le hgt) (okPrefix_cons hitems).1)
      (by simp)
    rwa [hd] at hspec
  case case7 hgt st' _ st'' hd ih =>
    have hspec := deliver_spec cfg io (h.push (Nat.lt_of_not_le hgt) (okPrefix_cons hitems).1)
      (by simp)
    have hidx := (deliver_end cfg io st').1
    rw [hd] at hspec hidx
    refine ih hspec.1 ?_
    rw [hidx]
    exact (okPrefix_cons hitems).2
  case case8 hgt _ _ ih =>
    exact ih (h.push (Nat.lt_of_not_le hgt) (okPrefix_cons hitems).1) (okPrefix_cons hitems).2

theorem quarantineResult_ends (p : Path) (cfg : DrainConfig) (reason : String) (io : MoveIo)
    (skip mid : Nat) : (quarantineResult p cfg reason io).Ends sha segment rs skip mid [] := by
  unfold quarantineResult
  split <;> rfl

/-- The part behind the loop hands the last sub-batch over. -/
theorem finish_reports {q : Option String} (h : st.Inv sha segment rs skip) :
    Reports sha segment rs skip (finish cfg p file io q st).1
      (finish cfg p file io q st).2.acts := by
  have hlast : ∀ {out}, (if st.batch = [] then (none, st) else deliver cfg io st) = out →
      Delivered sha segment rs skip out := by
    rintro out rfl
    split
    next hb => exact ⟨h, hb⟩
    next hb => exact deliver_spec cfg io h hb
  have hreach : ∀ {st' : Progress}, Delivered sha segment rs skip (none, st') →
      st'.durableThrough = max skip st'.readIndex := by
    rintro st' ⟨hinv, hnil⟩
    have := hinv.reach
    rwa [hnil, length_nil, add_zero] at this
  fun_cases finish cfg p file io q st
  case case1 heq => exact hlast heq
  case case2 heq _ => exact (hlast heq).1.reports (quarantineResult_ends ..)
  case case3 heq _ => exact (hlast heq).1.reports ⟨hreach (hlast heq), rfl⟩
  case case4 heq _ _ _ => exact (hlast heq).1.reports (quarantineResult_ends ..)
  case case5 heq _ _ _ => exact (hlast heq).1.reports (quarantineResult_ends ..)
  case case6 heq _ _ _ _ => exact (hlast heq).1.reports ⟨hreach (hlast heq), rfl⟩
  case case7 heq _ _ _ _ => exact (hlast heq).1.reports ⟨rfl, .nil _⟩

/-- An attempt that could not read its segment did nothing. -/
theorem Reports.nil (h : r.Ends sha segment rs skip skip []) :
    Reports sha segment rs skip r [] := ⟨skip, [], [], rfl, .nil, h⟩

theorem rejectedHeader_ends (cfg : DrainConfig) (p : Path) (file : Bytes) (io : ProcessIo)
    (skip : Nat) : (rejectedHeader cfg p file io skip).Ends sha segment rs skip skip [] := by
  unfold rejectedHeader
  split
  · rfl
  · exact quarantineResult_ends ..
  · exact ⟨(Nat.max_zero skip).symm, rfl⟩
  · exact ⟨rfl, .nil _⟩

theorem openSegment_ok {reader : SegmentReader}
    (h : openSegment file io = .ok reader) : SegmentReader.open file io.fault = .ok reader := by
  unfold openSegment at h
  split at h
  · cases h
  · exact h

/-- The record loop of an attempt, over what the reader yields. -/
theorem loop_reports {sha : Sha256} {reader : SegmentReader} {out : LoopEnd × Progress}
    (hopen : openSegment file io = .ok reader)
    (h : processItems sha cfg (segmentIdentity p) skip last io (reader.readAll z io.fault).1
      ⟨0, skip, [], [], 0, w, []⟩ = out) :
    LoopEnd.Reports sha (segmentIdentity p) (recordsOf z file) skip out := by
  subst h
  exact processItems_spec cfg skip last io _ _ ⟨(Nat.max_zero skip).symm, nil_prefix, rfl, .nil⟩
    (okPrefix_readAll (openSegment_ok hopen))

theorem processSegment_reports (z : Zstd) (sha : Sha256) (cfg : DrainConfig) (p : Path)
    (file : Bytes) (w : DeadLetterWriter) (skip : Nat) (last : Bool) (io : ProcessIo) :
    Reports sha (segmentIdentity p) (recordsOf z file) skip
      (processSegment z sha cfg p file w skip last io).result
      (processSegment z sha cfg p file w skip last io).acts := by
  fun_cases processSegment z sha cfg p file w skip last io
  case case1 => exact .nil ⟨(Nat.max_zero skip).symm, rfl⟩
  case case2 => exact .nil (rejectedHeader_ends ..)
  case case3 => exact .nil ⟨rfl, .nil _⟩
  case case4 hopen _ r st hrun => exact loop_reports hopen hrun
  case case5 hopen _ _ q st hrun _ => exact finish_reports (loop_reports hopen hrun)

/-- A count confirmed by an attempt that read the segment is the number of its
records. -/
theorem processSegment_confirmed_length {sha : Sha256}
    (h : (processSegment z sha cfg p file w skip last io).result = .confirmed n)
    (hread : (processSegment z sha cfg p file w skip last io).readSentinel = true ∨ ¬io.Gone) :
    n = (recordsOf z file).length := by
  obtain ⟨reader, ps, hopen, hps, rfl, _⟩ := processSegment_confirmed_read h hread
  rw [recordsOf_readAll (openSegment_ok hopen) hps]

theorem processSegment_readSentinel {sha : Sha256}
    (h : (processSegment z sha cfg p file w skip last io).readSentinel = true) : file ≠ [] := by
  rintro rfl
  revert h
  fun_cases processSegment z sha cfg p [] w skip last io <;> intro h
  case case5 hopen _ _ _ _ _ _ => exact open_nil _ _ (openSegment_ok hopen)
  all_goals cases h

end Weir.Drain

import Weir.Drain.Attempt
import Weir.Drain.Truncation

/-!
# The last chance of a local read (`local_read_escalates_next`, `drain/mod.rs`)

Whether a read failure is escalated is decided twice: before the attempt, which quarantines a
segment behind its readable prefix on its last chance, and after it, with the failure counted.
Both ages run to the start of the attempt, so the two decisions are one.

> `lastChance_agrees`: in every history of a segment, an attempt has its last chance exactly
> if a failure of it would be escalated, and that takes three strand cycles of failures that
> span the minimum age.
-/

namespace Weir.Drain

open Weir.Lib Weir.Wab List

variable {cfg : DrainConfig} {p : Path} {l : SegmentLedger}

/-- The times of the failures that an attempt adds to the count of its segment. -/
def ProcessResult.counted (at_ : Nat) : ProcessResult → List Nat
  | .transient _ _ (.localRead cls _) _ => if cls = .process then [] else [at_]
  | _ => []

/-- The ledgers that attempts on `p` lead to, with the times of the counted failures. What the drain
does elsewhere keeps the entry of `p` or drops it. -/
inductive Attempts (z : Zstd) (sha : Sha256) (cfg : DrainConfig) (p : Path) :
    List Nat → SegmentLedger → Prop
  | start (now : Nat) : Attempts z sha cfg p [] (.new now)
  | elsewhere {times : List Nat} {l l' : SegmentLedger} (h : Attempts z sha cfg p times l)
      (hentry : l'.localReadFailures.lookup p = l.localReadFailures.lookup p ∨
        l'.localReadFailures.lookup p = none) : Attempts z sha cfg p times l'
  | attempt {times : List Nat} {l : SegmentLedger} (h : Attempts z sha cfg p times l)
      (file : Bytes) (w : DeadLetterWriter) (skip : Nat) (io : AttemptIo) (resume : HeldResume)
      (retriesLeft delay : Nat) (after : AfterIo) :
      Attempts z sha cfg p
        (times ++ (attemptSegment z sha cfg p file w l skip io).result.counted after.readFailedAt)
        (nextStateAfterProcess cfg p file (attemptSegment z sha cfg p file w l skip io).result
          resume retriesLeft delay (attemptSegment z sha cfg p file w l skip io).ledger
          after).ledger

/-- An entry counts no more than the failures since its first one. -/
def Recounts (times : List Nat) (entry : Option LocalReadFailures) : Prop :=
  ∀ f, entry = some f → ∃ old more, times = old ++ f.firstAt :: more ∧ f.count ≤ more.length + 1

variable {times : List Nat}

theorem Recounts.append {entry : Option LocalReadFailures}
    (h : Recounts times entry) (more : List Nat) : Recounts (times ++ more) entry := by
  intro f hf
  obtain ⟨old, since, rfl, hcount⟩ := h f hf
  refine ⟨old, since ++ more, by rw [append_assoc, cons_append], ?_⟩
  rw [length_append]
  omega

/-- Counting a failure. -/
theorem Recounts.note (h : Recounts times (l.localReadFailures.lookup p))
    {cls : ErrClass} (hcls : cls ≠ .process) (now : Nat) :
    Recounts (times ++ [now])
      ((l.noteLocalReadFailure p cls now).2.localReadFailures.lookup p) := by
  unfold SegmentLedger.noteLocalReadFailure
  rw [if_neg hcls]
  intro f hf
  rw [AList.lookup_insert] at hf
  cases hf
  cases hentry : l.localReadFailures.lookup p with
  | none => exact ⟨times, [], rfl, min_le_left ..⟩
  | some f =>
    obtain ⟨old, since, rfl, hcount⟩ := h f hentry
    refine ⟨old, since ++ [now], by simp, ?_⟩
    have hle : saturatingAdd32 f.count 1 ≤ f.count + 1 := min_le_left ..
    rw [length_append, length_singleton]
    exact le_trans hle (by omega)

/-! ## What an attempt does to the entry -/

theorem attemptSegment_entry (cfg : DrainConfig) (p : Path) (l : SegmentLedger) (z : Zstd)
    (sha : Sha256) (file : Bytes) (w : DeadLetterWriter) (skip : Nat) (io : AttemptIo) :
    (attemptSegment z sha cfg p file w l skip io).ledger.localReadFailures = l.localReadFailures ∧
      (attemptSegment z sha cfg p file w l skip io).ledger.attemptStarted = io.startedAt := by
  have hskip : ∀ l' : SegmentLedger,
      (l'.checkedSkip p skip io.skipStat).2.localReadFailures = l'.localReadFailures ∧
        (l'.checkedSkip p skip io.skipStat).2.attemptStarted = l'.attemptStarted := by
    intro l'
    unfold SegmentLedger.checkedSkip
    split
    · exact ⟨rfl, rfl⟩
    split
    · split <;> exact ⟨rfl, rfl⟩
    · exact ⟨rfl, rfl⟩
  have hcarry : ∀ l' : SegmentLedger,
      (l'.takeDlCarry p io.carryStat).2.localReadFailures = l'.localReadFailures ∧
        (l'.takeDlCarry p io.carryStat).2.attemptStarted = l'.attemptStarted := by
    intro l'
    unfold SegmentLedger.takeDlCarry
    split <;> exact ⟨rfl, rfl⟩
  rw [attemptSegment_ledger]
  exact ⟨(hcarry _).1.trans (hskip _).1, (hcarry _).2.trans (hskip _).2⟩

theorem keepProgress_entry (n : Nat) (carry : Option DeadLetterCarry) (io : AfterIo)
    (state : DrainState) :
    (keepProgress p n carry l io state).ledger.localReadFailures = l.localReadFailures := by
  have hrecord :
      (l.recordProgress p n io.progressStat).localReadFailures = l.localReadFailures := by
    unfold SegmentLedger.recordProgress
    split
    · rfl
    · split <;> rfl
  rw [← hrecord]
  unfold keepProgress storeDlCarry SegmentLedger.setDlCarry
  cases carry with
  | none => rfl
  | some carry =>
    cases io.carryStat with
    | none => rfl
    | some id =>
      dsimp only
      split <;> next hset =>
        split at hset <;> cases hset
        rfl

theorem forget_entry : (l.forget p).localReadFailures.lookup p = none := AList.lookup_erase ..

/-- What escalating a failure comes to. -/
theorem escalateLocalRead_spec (cfg : DrainConfig) (p : Path) (cls : ErrClass) (l : SegmentLedger)
    (io : AfterIo) :
    (escalateLocalRead cfg p cls l io).1 = (l.noteLocalReadFailure p cls io.readFailedAt).2 ∧
      (∀ after, (escalateLocalRead cfg p cls l io).2 = some after →
        after.ledger.localReadFailures.lookup p = none) ∧
      ((escalateLocalRead cfg p cls l io).2.isSome ↔ cls ≠ .process ∧
        localReadEscalationDue cfg (l.noteLocalReadFailure p cls io.readFailedAt).2 p
          (l.noteLocalReadFailure p cls io.readFailedAt).1) := by
  unfold escalateLocalRead
  generalize l.noteLocalReadFailure p cls io.readFailedAt = noted
  dsimp only
  split
  next hdue =>
    cases cls with
    | process => exact ⟨rfl, by simp, by simp⟩
    | access =>
      refine ⟨rfl, fun after hafter => ?_, by simp [hdue]⟩
      cases hafter
      exact forget_entry
    | media =>
      dsimp only
      split <;> refine ⟨rfl, fun after hafter => ?_, by simp [hdue]⟩ <;> cases hafter <;>
        exact forget_entry
  next hdue => exact ⟨rfl, by simp, by simp [hdue]⟩

/-- Behind an attempt the entry is as its failure left it, or gone. -/
theorem nextStateAfterProcess_entry (file : Bytes) (result : ProcessResult)
    (resume : HeldResume) (retriesLeft delay : Nat) (io : AfterIo)
    (h : Recounts times (l.localReadFailures.lookup p)) :
    Recounts (times ++ result.counted io.readFailedAt)
      ((nextStateAfterProcess cfg p file result resume retriesLeft delay l io
        ).ledger.localReadFailures.lookup p) := by
  have hgone : ∀ {entry : Option LocalReadFailures} {ts : List Nat}, entry = none →
      Recounts ts entry := by
    intro entry ts hnone f hf
    rw [hnone] at hf
    cases hf
  unfold nextStateAfterProcess
  cases result with
  | confirmed n =>
    dsimp only
    cases (confirmAndDelete p file n io.confirm).1 <;> exact hgone forget_entry
  | transient retryAfter processed cause carry =>
    cases cause with
    | sink | localWrite =>
      rw [keepProgress_entry]
      exact h.append _
    | localRead cls errno =>
      obtain ⟨hledger, hafter, -⟩ := escalateLocalRead_spec cfg p cls l io
      dsimp only
      split
      next after hescalated => exact hgone (hafter after (by rw [hescalated]))
      next l' hescalated =>
        rw [hescalated] at hledger
        rw [keepProgress_entry, show l' = _ from hledger]
        by_cases hcls : cls = .process
        · rw [hcls, SegmentLedger.noteLocalReadFailure, if_pos rfl]
          exact h.append _
        · rw [ProcessResult.counted, if_neg hcls]
          exact h.note hcls io.readFailedAt
  | blockedDeadLetter | paused | abandoned =>
    rw [keepProgress_entry]
    exact h.append _
  | parked | quarantined | quarantinePending => exact hgone forget_entry

theorem Attempts.recounts {z : Zstd} {sha : Sha256}
    (h : Attempts z sha cfg p times l) : Recounts times (l.localReadFailures.lookup p) := by
  induction h with
  | start now =>
    intro f hf
    cases hf
  | elsewhere h hentry ih =>
    rcases hentry with hentry | hentry
    · rwa [hentry]
    · rw [hentry]
      intro f hf
      cases hf
  | attempt h file w skip io resume retriesLeft delay after ih =>
    refine nextStateAfterProcess_entry file _ resume retriesLeft delay after ?_
    rwa [(attemptSegment_entry ..).1]

/-! ## One decision -/

/-- The decision after a failure is the one before it. -/
theorem escalationDue_eq {cls : ErrClass} (hcls : cls ≠ .process) (now : Nat) :
    localReadEscalationDue cfg (l.noteLocalReadFailure p cls now).2 p
      (l.noteLocalReadFailure p cls now).1 = localReadEscalatesNext cfg l p := by
  unfold SegmentLedger.noteLocalReadFailure localReadEscalatesNext localReadEscalationDue
    SegmentLedger.localReadFailingFor SegmentLedger.readFailures
  rw [if_neg hcls]
  rw [AList.lookup_insert]
  cases l.localReadFailures.lookup p with
  | none =>
    -- a first failure never reaches the limit, so its age does not matter
    have hone : ¬localReadLimit cfg ≤ saturatingAdd32 0 1 := by
      unfold localReadLimit saturatingAdd32 localReadStrandLimit
      omega
    simp [hone]
  | some f => rfl

/-- The reader comes to an error that is no corruption of the segment. -/
def MeetsReadError (z : Zstd) (file : Bytes) (io : ProcessIo) : Prop :=
  ∃ reader e rest, ∃ ps : List Bytes, openSegment file io = .ok reader ∧
    (reader.readAll z io.fault).1 = ps.map .ok ++ .error e :: rest ∧ isCorruption e = false

/-- The record loop goes on behind such an error on the last chance only. -/
theorem processItems_lastChance {sha : Sha256} {name : String} {skip : Nat} {last : Bool}
    {io : ProcessIo} {e : IoError} {rest : List (Except IoError Bytes)} {q : Option String}
    {st' : Progress} (hread : isCorruption e = false) (ps : List Bytes) :
    ∀ st, processItems sha cfg name skip last io (ps.map .ok ++ .error e :: rest) st
      = (.ended q, st') → last = true := by
  induction ps with
  | nil =>
    intro st h
    rw [map_nil, nil_append, processItems, hread] at h
    split at h
    next hcorrupt => cases hcorrupt
    split at h
    next hlast => exact hlast.1
    · cases h
  | cons payload ps ih =>
    intro st h
    rw [map_cons, cons_append, processItems] at h
    dsimp only at h
    split at h
    · exact ih _ h
    split at h
    · split at h
      · cases h
      · exact ih _ h
    · exact ih _ h

/-- A segment that cannot be read is given up inside an attempt on the last chance only. -/
theorem processSegment_lastChance {z : Zstd} {sha : Sha256} {file : Bytes} {w : DeadLetterWriter}
    {skip : Nat} {last : Bool} {io : ProcessIo} (hread : MeetsReadError z file io)
    (h : (processSegment z sha cfg p file w skip last io).result.progress = none) :
    last = true := by
  obtain ⟨reader, e, rest, ps, hopen, hitems, hlocal⟩ := hread
  rw [processSegment, hopen] at h
  dsimp only at h
  split at h
  next hloop => exact absurd h (processItems_end hloop)
  next hloop =>
    rw [hitems] at hloop
    exact processItems_lastChance hlocal ps _ hloop

/-- An attempt has its last chance exactly if a failure of its segment would be escalated after it:
past the carry it is `process_segment_ctl` with that decision. A failure of the process as a whole
is not counted and not escalated. And a segment is given up for local reads only with the failure
that completes three strand cycles of them, begun long enough before: those of `first :: more` are
counted, and so is the present one, unless the segment is quarantined for it at once. -/
theorem lastChance_agrees {z : Zstd} {sha : Sha256} {times : List Nat}
    (hrange : cfg.maxRetries ≤ 100) (h : Attempts z sha cfg p times l) (file : Bytes)
    (w : DeadLetterWriter) (skip : Nat) (io : AttemptIo) (after : AfterIo) :
    let out := attemptSegment z sha cfg p file w l skip io
    let last := localReadEscalatesNext cfg out.ledger p
    ((∃ skip' needed carry, out.result = .blockedDeadLetter skip' needed (some carry) ∨
        out.result = .transient none skip' .localWrite (some carry)) ∨
      ∃ w' skip', out.result
        = (processSegment z sha cfg p file w' skip' last io.process).result) ∧
      (∀ cls ≠ .process, last = true ↔ (escalateLocalRead cfg p cls out.ledger after).2.isSome) ∧
      escalateLocalRead cfg p .process out.ledger after = (out.ledger, none) ∧
      ((∃ cls, (escalateLocalRead cfg p cls out.ledger after).2.isSome) ∨
          MeetsReadError z file io.process ∧
            (out.result = .quarantined ∨ ∃ reason, out.result = .quarantinePending reason) →
        ∃ old first more, times = old ++ first :: more ∧
          3 * (cfg.maxRetries + 1) ≤ (first :: more).length + 1 ∧
          cfg.localReadEscalationMinAge ≤ io.startedAt - first) := by
  intro out last
  have hagrees : ∀ cls ≠ .process,
      last = true ↔ (escalateLocalRead cfg p cls out.ledger after).2.isSome := by
    intro cls hcls
    rw [(escalateLocalRead_spec cfg p cls out.ledger after).2.2, escalationDue_eq hcls]
    exact ⟨fun hlast => ⟨hcls, hlast⟩, And.right⟩
  have hrun := attemptSegment_cases z sha cfg p file w l skip io
  refine ⟨?_, hagrees, ?_, fun hgiven => ?_⟩
  · rcases hrun with ⟨hcarry, _⟩ | ⟨skip', w', _, _, hr, _⟩
    · exact .inl hcarry
    · exact .inr ⟨w', skip', hr⟩
  · obtain ⟨hledger, -, hsome⟩ := escalateLocalRead_spec cfg p .process out.ledger after
    refine Prod.ext hledger (Option.not_isSome_iff_eq_none.mp fun hescalated => ?_)
    exact (hsome.mp hescalated).1 rfl
  have hlast : last = true := by
    rcases hgiven with ⟨cls, hescalated⟩ | ⟨hread, hquarantined⟩
    · exact (hagrees cls ((escalateLocalRead_spec ..).2.2.mp hescalated).1).mpr hescalated
    have hnone : out.result.progress = none := by
      rcases hquarantined with hr | ⟨reason, hr⟩ <;> rw [hr] <;> rfl
    rcases hrun with ⟨⟨_, _, _, hr⟩, _⟩ | ⟨skip', w', _, _, hr, _⟩
    · rcases hr with hr | hr <;> rw [hr] at hnone <;> cases hnone
    · rw [hr] at hnone
      exact processSegment_lastChance hread hnone
  obtain ⟨hentry, hstarted⟩ := attemptSegment_entry cfg p l z sha file w skip io
  simp only [last, localReadEscalatesNext, localReadEscalationDue, Bool.and_eq_true,
    decide_eq_true_eq] at hlast
  unfold SegmentLedger.localReadFailingFor SegmentLedger.readFailures at hlast
  have hlimit : localReadLimit cfg = 3 * (cfg.maxRetries + 1) := by
    unfold localReadLimit saturatingAdd32 localReadStrandLimit
    omega
  rw [hlimit, hentry, hstarted] at hlast
  cases hfailing : l.localReadFailures.lookup p with
  | none =>
    have hone : 3 * (cfg.maxRetries + 1) ≤ 1 := by
      rw [hfailing] at hlast
      exact le_trans hlast.1 (min_le_left ..)
    omega
  | some f =>
    rw [hfailing] at hlast
    obtain ⟨old, more, rfl, hcount⟩ := h.recounts f hfailing
    have hnext : 3 * (cfg.maxRetries + 1) ≤ f.count + 1 := le_trans hlast.1 (min_le_left ..)
    exact ⟨old, f.firstAt, more, rfl, by rw [length_cons]; omega, hlast.2⟩

def inputOutputError : IoError := ⟨.other, some 5, "Input/output error"⟩

/-- An attempt that cannot open the segment. -/
def unreadableAt (startedAt : Nat) : AttemptIo :=
  ⟨startedAt, none, none, calmIo.deadLetters 0,
    { calmIo with openFault := some inputOutputError }⟩

/-- An attempt that reads the header and nothing behind it. -/
def unreadableBehind (startedAt : Nat) : AttemptIo :=
  ⟨startedAt, none, none, calmIo.deadLetters 0,
    { calmIo with fault := ⟨fun pos => if pos = 0 then none else some inputOutputError, by
      intro pos e h
      split at h <;> cases h
      nofun⟩ }⟩

def failedAt (at_ : Nat) : AfterIo := ⟨calmConfirm, at_, calmIo.move, none, none⟩

/-- A daemon that does not retry. -/
def noRetries : DrainConfig := { sampleConfig with maxRetries := 0 }

/-- The header of a segment. -/
def headerOnly : Bytes := buildSegmentHeader 0 .none 0

/-- Two failures, and what a third attempt then comes to. -/
theorem failedTwice : ∃ l, Attempts .plain id noRetries sampleSegment [10, 110] l ∧
    localReadEscalatesNext noRetries (attemptSegment .plain id noRetries sampleSegment []
      sampleDeadLetter l 0 (unreadableAt 700)).ledger sampleSegment = true ∧
    (attemptSegment .plain id noRetries sampleSegment headerOnly sampleDeadLetter l 0
      (unreadableBehind 700)).result = .quarantined :=
  ⟨_, ((Attempts.start 0).attempt [] sampleDeadLetter 0 (unreadableAt 0) .fresh 0 1
    (failedAt 10)).attempt [] sampleDeadLetter 0 (unreadableAt 100) .fresh 0 1 (failedAt 110),
    by decide +kernel, by decide +kernel⟩

/-- Without retries the third failure is escalated. -/
theorem lastChance_agrees_third :
    ∃ l, Attempts .plain id noRetries sampleSegment [10, 110] l ∧
      (escalateLocalRead noRetries sampleSegment .media (attemptSegment .plain id noRetries
        sampleSegment [] sampleDeadLetter l 0 (unreadableAt 700)).ledger
        (failedAt 710)).2.isSome = true := by
  obtain ⟨l, h, hlast, -⟩ := failedTwice
  exact ⟨l, h, ((lastChance_agrees (by decide) h [] sampleDeadLetter 0 (unreadableAt 700)
    (failedAt 710)).2.1 .media (by decide)).mp hlast⟩

/-- Two counted failures and one that is not: the third attempt reads the header and then no
more, and quarantines the segment for it at once. -/
theorem quarantined_after_two_counted :
    ∃ l, Attempts .plain id noRetries sampleSegment [10, 110] l ∧
      [10, 110].length < 3 * (noRetries.maxRetries + 1) ∧
      MeetsReadError .plain headerOnly (unreadableBehind 700).process ∧
      (attemptSegment .plain id noRetries sampleSegment headerOnly sampleDeadLetter l 0
        (unreadableBehind 700)).result = .quarantined := by
  obtain ⟨l, h, -, hquarantined⟩ := failedTwice
  refine ⟨l, h, by decide, ?_, hquarantined⟩
  exact ⟨_, inputOutputError, [], [], rfl, by decide +kernel, rfl⟩

end Weir.Drain

import Weir.Drain.Delivery

/-!
# What the ledger owns, the drain leaves alone

Paths reach the drain from the channel, from the backlog and from rescans, with
duplicates. Admission and the rescan both ask the ledger, so a path with a
disposition, parked or cooling down is neither delivered nor scanned.

> `Reach.owned_untouched`: no step delivers, returns or checks a path it finds
> owned.

A segment whose confirm did not finish stays owned until `retry_confirms` calls
it done. `confirm_and_delete` calls it done when its existence test fails, which
is where a delivered segment gets free again.

> `owned_exclusive`: as long as no existence test of a segment that is there
> fails, what was delivered once is not handed over again.
-/

namespace Weir.Drain

open Weir.Lib Weir.Wab List

/-- The event is part of a scan of `p`. -/
def Event.Scans (p : Path) : Event → Prop
  | .checked q | .rescanned q => q = p
  | _ => False

/-- The step looks at the clock at `now`, if it looks at it at all. -/
def Label.At (now : Nat) : Label → Prop
  | .next t _ _ _ | .rescan t _ => t = now
  | _ => True

/-- The answers of the confirm that a step may make. -/
def Label.confirmIo : Label → Option ConfirmIo
  | .retryConfirm _ io => some io
  | .next _ _ _ (.returned after) | .retry _ (.returned after) => some after.confirm
  | _ => none

/-- The existence test of a confirm of `p` does not fail when `p` is there. -/
def Tests (p : Path) (s : Thread) (l : Label) : Prop :=
  s.subject l = some p → (s.files p).isSome → ∀ io ∈ l.confirmIo, ∀ e, io.sealedStat ≠ .error e

variable {z : Zstd} {sha : Sha256} {cfg : DrainConfig} {p : Path}

/-! ## Owned paths are left alone -/

variable {s s' : Thread} {l : Label}

theorem attempt_not_scans {q : Path} (skip : Nat) (resume : HeldResume)
    (retriesLeft delay : Nat) (io : AttemptIo) (ending : Ending) :
    ∃ events, (s.attempt z sha cfg q skip resume retriesLeft delay io ending).trace
      = s.trace ++ events ∧ ∀ e ∈ events, ¬e.Scans p := by
  have hacts : ∀ acts : List Act, ∀ e ∈ acts.map (Event.act q), ¬e.Scans p := by
    intro acts e he
    obtain ⟨a, _, rfl⟩ := mem_map.mp he
    exact fun h => h
  cases Thread.attempt_ends z sha cfg s q skip resume retriesLeft delay io ending with
  | panicked htrace _ _ _ =>
    refine ⟨_, htrace, ?_⟩
    intro e he
    rcases mem_append.mp he with he | he
    · exact hacts _ e he
    · rw [mem_singleton.mp he]
      exact fun h => h
  | returned htrace _ hleaves =>
    rw [append_assoc] at htrace
    refine ⟨_, htrace, ?_⟩
    intro e he
    rcases mem_append.mp he with he | he
    · exact hacts _ e he
    rcases mem_cons.mp he with rfl | he
    · exact fun h => h
    · rw [hleaves.events e he]
      exact fun h => h

/-- Only a rescan scans, and only what it does not exclude. -/
theorem Thread.step_not_scans (h : s.step z sha cfg l = some s')
    (howned : ∀ now found, l = .rescan now found → s.ledger.excludes p now = true) :
    ∃ events, s'.trace = s.trace ++ events ∧ ∀ e ∈ events, ¬e.Scans p := by
  have hquiet : ∀ {t : Thread}, t.trace = s.trace →
      ∃ events, t.trace = s.trace ++ events ∧ ∀ e ∈ events, ¬e.Scans p := by
    intro t ht
    exact ⟨[], by rw [ht, append_nil], by simp⟩
  cases l with
  | sealed q file =>
    cases h
    exact ⟨[.sealed q file], rfl, by simp [Event.Scans]⟩
  | vanished q | arrive q | stop =>
    cases h
    exact hquiet rfl
  | rescan now found =>
    unfold Thread.step at h
    dsimp only at h
    split at h <;> cases h
    refine ⟨_, rfl, fun e he => ?_⟩
    obtain ⟨q, hq, rfl | rfl⟩ := scanUnconfirmedSealed_events _ _ _ e he <;>
    · rintro rfl
      exact absurd (howned now found rfl) (by simp [hq])
  | panic respawn =>
    unfold Thread.step at h
    dsimp only at h
    split at h <;> cases h
    exact hquiet (Thread.panicked_trace cfg s respawn)
  | next now stat io ending =>
    unfold Thread.step at h
    dsimp only at h
    split at h
    next q s₁ _ hq =>
      obtain ⟨_, _, _, htrace⟩ := Thread.nextQueued_some hq
      split at h
      · cases h
        exact hquiet htrace
      · cases h
        rw [← htrace]
        exact attempt_not_scans ..
    · cases h
  | retry io ending =>
    unfold Thread.step at h
    dsimp only at h
    split at h <;> cases h
    exact attempt_not_scans ..
  | buffer | retryConfirm | retryQuarantine | strand | deadLetterRescan | resume =>
    unfold Thread.step at h
    dsimp only at h
    repeat' split at h
    all_goals first
      | cases h; exact hquiet rfl
      | cases h

/-- No step delivers or scans a path it finds owned. -/
theorem Reach.owned_untouched {allowed : Thread → Label → Prop}
    (h : Reach z sha cfg allowed s) (hs : s.step z sha cfg l = some s') {now : Nat}
    (hat : l.At now) (howned : s.ledger.Owned p now) :
    ∃ events, s'.trace = s.trace ++ events ∧ ∀ e ∈ events, ¬e.Delivers p ∧ ¬e.Scans p := by
  obtain ⟨events, htrace, hscans⟩ := Thread.step_not_scans (p := p) hs (by
    rintro now' found rfl
    obtain rfl : now' = now := hat
    exact (s.ledger.excludes_iff p now').mpr howned)
  refine ⟨events, htrace, fun e he => ⟨?_, hscans e he⟩⟩
  rcases Thread.step_cases z sha cfg hs p with hidle | ⟨hstart, _⟩
  · obtain ⟨events', htrace', hidle⟩ := hidle.trace
    obtain rfl := append_cancel_left (htrace.symm.trans htrace')
    exact hidle e he
  · refine absurd ((s.ledger.owned_iff_view p now).mp howned) ?_
    rcases hstart.resumes with ⟨_, hheld, _⟩ | ⟨now', stat, rfl, _, hadm⟩
    · exact (h.held_free p _ hheld).not_owned now
    · obtain rfl : now' = now := hat
      exact (s.ledger.admitPath_process hadm).1

/-! ## A delivered segment is not delivered again -/

theorem Did.not_commit {segment : String} {v : View} {skip : Nat} {io : AttemptIo}
    {result : ProcessResult} {acts : List Act} (h : Did sha segment [] v skip io result acts) :
    ∀ lo batch ids reply, .commit lo batch ids reply ∉ acts := by
  intro lo batch ids reply
  cases h with
  | plain _ hr | settled _ _ _ hr => rw [hr.of_nil.1]; simp
  | owing _ _ _ => simp

/-- The segment is in the ledger's confirms, or gone. -/
def Thread.Finished (s : Thread) (p : Path) : Prop :=
  (s.ledger.view p).confirm.isSome ∨ s.files p = none

/-- Since `p` was last delivered to its end nothing of it was handed over, unless
a segment was sealed under its name. -/
def DeliveredOnce (p : Path) (s : Thread) : Prop :=
  ∀ before after present n readSentinel,
    s.trace = before ++ .attempted p present (.confirmed n) readSentinel :: after →
    (∀ file, .sealed p file ∉ after) →
    s.Finished p ∧ ∀ lo batch ids reply, .act p (.commit lo batch ids reply) ∉ after

theorem Idle.finished (h : Idle p l s s') (ht : Tests p s l)
    (hno : ∀ file, l ≠ .sealed p file) (hf : s.Finished p) : s'.Finished p := by
  have hgone : s.files p = none → s'.Finished p := by
    intro hf
    rcases h.file with h' | h' | ⟨file, hl, _⟩
    · exact .inr (h'.trans hf)
    · exact .inr h'
    · exact absurd hl (hno file)
  rcases hf with hf | hf
  · rcases h.confirm hf with h' | h' | ⟨io, e, rfl, he⟩
    · exact .inl h'
    · exact .inr h'
    · cases hfile : s.files p with
      | none => exact hgone hfile
      | some file => exact absurd he (ht rfl (by rw [hfile]; rfl) io rfl e)
  · exact hgone hf

theorem DeliveredOnce.idle (h : DeliveredOnce p s)
    (hs : s.step z sha cfg l = some s') (hi : Idle p l s s') (ht : Tests p s l) :
    DeliveredOnce p s' := by
  intro before after present n readSentinel heq hno
  obtain ⟨events, htrace, hevents⟩ := hi.trace
  rw [htrace] at heq
  obtain ⟨rest, hst, rfl⟩ := split_old heq fun hmem => hevents _ hmem rfl
  obtain ⟨hfin, hrest⟩ := h before rest present n readSentinel hst fun file hmem =>
    hno file (mem_append_left _ hmem)
  refine ⟨hi.finished ht ?_ hfin, ?_⟩
  · rintro file rfl
    -- the new segment would be in the trace behind the confirm
    cases hs
    obtain rfl := append_cancel_left htrace
    exact hno file (mem_append_right _ mem_cons_self)
  · intro lo batch ids reply hmem
    rcases mem_append.mp hmem with hmem | hmem
    · exact hrest lo batch ids reply hmem
    · exact hevents _ hmem rfl

theorem DeliveredOnce.attempt (h : DeliveredOnce p s) (ha : Thread.Attempts z sha cfg p l s s')
    (hheld : ∀ n ∈ s.heldAt p, (s.ledger.view p).Free) (ht : Tests p s l) : DeliveredOnce p s' := by
  obtain @⟨s₁, skip, io, ending, out, skip', cursor, hs, _, _, _, hdid, hends⟩ := ha
  have hgone : s.Finished p → s.files p = none := by
    intro hf
    unfold Thread.Finished at hf
    rw [(hs.unowned hheld).1] at hf
    simpa using hf
  -- an earlier confirm leaves nothing to hand over
  have hnone : s.files p = none → ∀ lo batch ids reply, .commit lo batch ids reply ∉ out.acts := by
    intro hf
    rw [hf, Option.getD_none, recordsOf_nil] at hdid
    exact hdid.not_commit
  intro before after present n readSentinel heq hno
  cases hends with
  | panicked htrace hfiles _ _ =>
    rw [htrace] at heq
    obtain ⟨rest, hst, rfl⟩ := split_old heq (by simp [-map_take])
    obtain ⟨hfin, hrest⟩ := h before rest present n readSentinel hst fun file hmem =>
      hno file (mem_append_left _ hmem)
    refine ⟨.inr (by rw [hfiles, hgone hfin]), ?_⟩
    intro lo batch ids reply hmem
    rcases mem_append.mp hmem with hmem | hmem
    · exact hrest lo batch ids reply hmem
    · simp only [mem_append, mem_map, Event.act.injEq, true_and, exists_eq_right,
        mem_singleton, reduceCtorEq, or_false] at hmem
      exact hnone (hgone hfin) _ _ _ _ (mem_of_mem_take hmem)
  | @returned after' _ htrace hfiles hleaves =>
    rw [htrace] at heq
    have hfin_none : s.files p = none → s'.Finished p := by
      intro hf
      rw [hf] at hfiles
      exact .inr (by rcases hfiles with hf | hf <;> exact hf)
    rcases split_attempted hleaves.events heq with ⟨rest, hst, rfl⟩ | ⟨⟨_, hres, _⟩, _, rfl⟩
    · obtain ⟨hfin, hrest⟩ := h before rest present n readSentinel hst fun file hmem =>
        hno file (mem_append_left _ hmem)
      refine ⟨hfin_none (hgone hfin), ?_⟩
      intro lo batch ids reply hmem
      rcases mem_append.mp hmem with hmem | hmem
      · exact hrest lo batch ids reply hmem
      simp only [mem_append, mem_map, Event.act.injEq, true_and, exists_eq_right,
        mem_cons, reduceCtorEq, false_or] at hmem
      rcases hmem with hmem | hmem
      · exact hnone (hgone hfin) _ _ _ _ hmem
      · exact absurd (hleaves.events _ hmem) (by simp)
    · refine ⟨?_, fun lo batch ids reply hmem => absurd (hleaves.events _ hmem) (by simp)⟩
      cases hf : s.files p with
      | none => exact hfin_none hf
      | some file =>
        have hstat : ∀ e, after'.confirm.sealedStat ≠ .error e := by
          refine ht hs.subject (by rw [hf]; rfl) after'.confirm ?_
          rcases hs.resumes with ⟨rfl, _⟩ | ⟨_, _, rfl, _⟩ <;> rfl
        cases hleaves with
        | progress hprog =>
          rw [hres] at hprog
          cases hprog
        | nothing _ _ _ _ _ hconfirmed => exact hconfirmed n hres hstat

theorem Reach.deliveredOnce {allowed : Thread → Label → Prop}
    (h : Reach z sha cfg allowed s) (ht : ∀ s l, allowed s l → Tests p s l) :
    DeliveredOnce p s := by
  induction h with
  | init =>
    intro before after present n readSentinel h
    exact absurd h (by simp [Thread.init])
  | step hr hl hs ih =>
    rcases Thread.step_cases z sha cfg hs p with hidle | ha
    · exact ih.idle hs hidle (ht _ _ hl)
    · exact ih.attempt ha (hr.held_free p) (ht _ _ hl)

/-- In every run, no step hands over, returns from a rescan or checks a path it
finds owned; and where no existence test of a segment that is there fails, what
was delivered to its end is not handed over again before another segment is
sealed under the name. -/
theorem owned_exclusive {allowed : Thread → Label → Prop} {s : Thread}
    (h : Reach z sha cfg allowed s) :
    (∀ l s' now, s.step z sha cfg l = some s' → l.At now → s.ledger.Owned p now →
      ∃ events, s'.trace = s.trace ++ events ∧ ∀ e ∈ events, ¬e.Delivers p ∧ ¬e.Scans p) ∧
    ((∀ s l, allowed s l → Tests p s l) →
      ∀ before after present n readSentinel,
        s.trace = before ++ .attempted p present (.confirmed n) readSentinel :: after →
        (∀ file, .sealed p file ∉ after) →
        ∀ lo batch ids reply, .act p (.commit lo batch ids reply) ∉ after) := by
  refine ⟨fun l s' now hs hat howned => h.owned_untouched hs hat howned, ?_⟩
  intro ht before after present n readSentinel heq hno
  exact (h.deliveredOnce ht before after present n readSentinel heq hno).2

/-! ### A second copy of a segment whose sidecar failed -/

/-- An attempt with a sink that commits what it is handed. -/
def calmAttempt : AttemptIo := { pickyAttempt with process := calmIo }

def eio : IoError := ⟨.other, some 5, "Input/output error"⟩

/-- The confirm cannot rename its sidecar into place. -/
def unconfirmedAfter : AfterIo :=
  { calmAfter with
    confirm := { calmConfirm with sidecar := { calmConfirm.sidecar with rename := some eio } } }

/-- The second copy of the path is taken up while the confirm is pending. -/
def queuedTwice : List Label :=
  [.sealed sampleSegment lostRecord.bytes, .arrive sampleSegment, .arrive sampleSegment,
    .next 0 (some ⟨0, 1⟩) calmAttempt (.returned unconfirmedAfter)]

def secondCopy : Label := .next 1 (some ⟨0, 1⟩) calmAttempt (.returned calmAfter)

def queuedTwiceEnd : Option Thread :=
  (Thread.init sampleConfig 0 0 0 []).run Zstd.plain id sampleConfig (fun _ _ => True) queuedTwice

theorem queuedTwice_tests : ∀ l ∈ queuedTwice, ∀ s, True → Tests sampleSegment s l := by
  intro l hl s _ hsub _ io hio
  simp only [queuedTwice, mem_cons, not_mem_nil, or_false] at hl
  rcases hl with rfl | rfl | rfl | rfl
  · cases hio
  · cases hio
  · cases hio
  · cases hio
    simp [unconfirmedAfter, calmConfirm]

set_option maxRecDepth 10000 in
/-- The segment with the pending confirm is in the trace as delivered once, and
taking up its second copy adds nothing. -/
theorem owned_exclusive_queued_twice :
    ∃ s s' before after, Reach Zstd.plain id sampleConfig (Tests sampleSegment) s ∧
      s.ledger.Owned sampleSegment 1 ∧ s.step Zstd.plain id sampleConfig secondCopy = some s' ∧
      (∃ events, s'.trace = s.trace ++ events ∧
        ∀ e ∈ events, ¬e.Delivers sampleSegment ∧ ¬e.Scans sampleSegment) ∧
      s.trace = before ++ .attempted sampleSegment true (.confirmed 2) true :: after ∧
      ∀ lo batch ids reply, .act sampleSegment (.commit lo batch ids reply) ∉ after := by
  obtain ⟨s, hs, hend⟩ := Option.map_eq_some_iff.mp (show queuedTwiceEnd.map (fun s =>
    (s.trace.getLast?, decide (s.ledger.Owned sampleSegment 1),
      (s.step Zstd.plain id sampleConfig secondCopy).isSome))
      = some (some (.attempted sampleSegment true (.confirmed 2) true), true, true) by
        decide +kernel)
  simp only [Prod.mk.injEq, decide_eq_true_eq, Option.isSome_iff_exists] at hend
  obtain ⟨hlast, howned, s', hs'⟩ := hend
  have hrun : Reach Zstd.plain id sampleConfig (Tests sampleSegment) s :=
    Reach.run queuedTwice_tests (.init 0 0 0 []) hs
  have htrace := (dropLast_append_getLast? _ hlast).symm
  obtain ⟨huntouched, honce⟩ := owned_exclusive (p := sampleSegment) hrun
  exact ⟨s, s', _, _, hrun, howned, hs', huntouched secondCopy s' 1 hs' rfl howned, htrace,
    honce (fun _ _ h => h) _ _ _ _ _ htrace (by simp)⟩

/-! ### A failed existence test frees a delivered segment -/

/-- The sidecar fails, the retry cannot tell whether the segment is there, and the
next rescan finds it without a sidecar. -/
def freedRun : List Label :=
  [.sealed sampleSegment lostRecord.bytes, .arrive sampleSegment,
    .next 0 (some ⟨0, 1⟩) calmAttempt (.returned unconfirmedAfter),
    .retryConfirm sampleSegment { calmConfirm with sealedStat := .error eio },
    .rescan 1 [⟨sampleSegment, none, ⟨none, none, ⟨none, fun _ => .ok false, none⟩,
      ⟨none, fun _ => .ok false, none⟩⟩, ⟨none, none, none⟩⟩],
    .next 2 (some ⟨0, 1⟩) calmAttempt (.returned calmAfter)]

def freedEnd : Option Thread :=
  (Thread.init sampleConfig 0 0 0 []).run Zstd.plain id sampleConfig (fun _ _ => True) freedRun

set_option maxRecDepth 10000 in
/-- The segment is delivered to its end twice. -/
theorem freed_segment_delivered_again :
    ∃ s before after ids, Reach Zstd.plain id sampleConfig (fun _ _ => True) s ∧
      s.trace = before ++ .attempted sampleSegment true (.confirmed 2) true :: after ∧
      (∀ file, .sealed sampleSegment file ∉ after) ∧
      .act sampleSegment (.commit 0 lostRecord.payloads ids (.ok lostRecord.payloads []))
        ∈ after := by
  obtain ⟨s, hs, hend⟩ := Option.map_eq_some_iff.mp (show freedEnd.map (fun s => (s.trace[3]?,
    (s.trace.drop 4).all fun e => match e with | .sealed _ _ => false | _ => true,
    decide (.act sampleSegment (.commit 0 lostRecord.payloads
      (idsFrom id (segmentIdentity sampleSegment) 0 lostRecord.payloads)
      (.ok lostRecord.payloads [])) ∈ s.trace.drop 4)))
      = some (some (.attempted sampleSegment true (.confirmed 2) true), true, true) by
        decide +kernel)
  simp only [Prod.mk.injEq, all_eq_true, decide_eq_true_eq] at hend
  obtain ⟨hmid, hno, hagain⟩ := hend
  obtain ⟨h3, hget⟩ := List.getElem?_eq_some_iff.mp hmid
  refine ⟨s, s.trace.take 3, s.trace.drop 4, _,
    Reach.run (fun _ _ _ h => h) (.init 0 0 0 []) hs, ?_,
    fun file h => absurd (hno _ h) (by simp), hagain⟩
  rw [← hget, ← drop_eq_getElem_cons h3, take_append_drop]

end Weir.Drain

import Weir.Drain.Delivery
import Weir.Drain.History

/-!
# No record is delivered twice in a run

The drain's acts on a segment are a `History` as long as the segment keeps its
identity and can be stat'ed: the held resume point, the cursor and the carry in
the ledger stand where the history ends, over every order of attempts, blocks,
strands and resumes.

> `delivered_once`: in such a run a sub-batch whose records the sink accounted
> for is not handed over again, no record is dead-lettered twice, and the
> counters of a confirmed segment add up to its records.
-/

namespace Weir.Drain

open Weir.Lib Weir.Wab List

/-! ## The drain's acts on one segment -/

/-- The acts on `p`, in order. -/
def actsOf (p : Path) (trace : List Event) : List Act :=
  trace.filterMap fun
    | .act q a => if q = p then some a else none
    | _ => none

theorem actsOf_append (p : Path) (xs ys : List Event) :
    actsOf p (xs ++ ys) = actsOf p xs ++ actsOf p ys := filterMap_append

@[simp] theorem actsOf_acts (p : Path) (acts : List Act) :
    actsOf p (acts.map (Event.act p)) = acts := by
  unfold actsOf
  induction acts with
  | nil => rfl
  | cons a acts ih => simp [ih]

theorem actsOf_eq_nil {p : Path} {events : List Event} (h : ∀ e ∈ events, ∀ a, e ≠ .act p a) :
    actsOf p events = [] := by
  unfold actsOf
  rw [filterMap_eq_nil_iff]
  intro e he
  cases e with
  | act q a =>
    dsimp only
    split
    next hq => exact absurd (by rw [hq]) (h _ he a)
    · rfl
  | _ => rfl

theorem mem_actsOf {p : Path} {trace : List Event} {a : Act} :
    a ∈ actsOf p trace ↔ .act p a ∈ trace := by
  unfold actsOf
  rw [mem_filterMap]
  constructor
  · rintro ⟨e, he, ha⟩
    cases e with
    | act q b =>
      dsimp only at ha
      split at ha
      next hq => rw [← hq, ← Option.some.inj ha]; exact he
      · cases ha
    | _ => cases ha
  · intro h
    exact ⟨_, h, by simp⟩

/-! ## Runs in which the segment stays what it is -/

/-- The answers of an attempt whose segment has the identity `ident` (`none`: it
is not there): every stat tells it, no call takes a segment that is there for
gone, and the sink does not panic. -/
def AttemptIo.Steady (ident : Option FileId) (io : AttemptIo) (ending : Ending) : Prop :=
  io.skipStat = ident ∧ io.carryStat = ident ∧
  (ident.isSome → ¬io.process.Gone ∧ io.process.move.gone = false) ∧
  ∃ after, ending = .returned after ∧ after.progressStat = ident ∧ after.carryStat = ident ∧
    (ident.isSome → after.move.gone = false ∧ ∀ e, after.confirm.sealedStat ≠ .error e)

def Label.Steady (ident : Option FileId) : Label → Prop
  | .next _ stat io ending => stat = ident ∧ io.Steady ident ending
  | .retry io ending => io.Steady ident ending
  | .retryConfirm _ io => ident.isSome → ∀ e, io.sealedStat ≠ .error e
  | .retryQuarantine _ io => ident.isSome → io.gone = false
  | _ => True

/-- The file at `p` is one file, of the identity `id`, and can be stat'ed. -/
def Steady (p : Path) (id : FileId) (s : Thread) (l : Label) : Prop :=
  (s.subject l = some p → l.Steady ((s.files p).map fun _ => id)) ∧
  ∀ file, l = .sealed p file → ∀ file', .sealed p file' ∉ s.trace

/-- The resume points of `p` stand at `n`, with the carry given. -/
structure Tracks (p : Path) (id : FileId) (s : Thread) (n : Nat)
    (carry : Option DeadLetterCarry) : Prop where
  held : ∀ m ∈ s.heldAt p, m = n
  cursor : ∀ c ∈ (s.ledger.view p).cursor, c = ⟨n, id⟩
  start : (s.ledger.view p).cursor = none → n = 0
  carry : (s.ledger.view p).carry = carry.map (⟨·, id⟩)

/-- What was done with `p` so far is a history, and as long as `p` is in the
thread's hands its resume points stand where the history ends. -/
structure Once (z : Zstd) (p : Path) (id : FileId) (s : Thread) : Prop where
  phase :
    ((∀ file, .sealed p file ∉ s.trace) ∧ s.files p = none ∧ actsOf p s.trace = [] ∧
      Tracks p id s 0 none) ∨
    ∃ file n carry, .sealed p file ∈ s.trace ∧
      History (recordsOf z file) n carry (actsOf p s.trace) ∧
      (s.Out p ∨ s.files p = some file ∧ Tracks p id s n carry)
  total : ∀ before after n readSentinel,
    s.trace = before ++ .attempted p true (.confirmed n) readSentinel :: after →
    ∃ file, .sealed p file ∈ before ∧ n = (recordsOf z file).length ∧
      History (recordsOf z file) n none (actsOf p before)

section

variable {z : Zstd} {sha : Sha256} {cfg : DrainConfig} {p : Path} {id : FileId}
  {s : Thread} {l : Label}
  {s' s₁ : Thread} {n : Nat} {carry : Option DeadLetterCarry} {result : ProcessResult}
  {acts : List Act}

theorem Tracks.idle (h : Tracks p id s n carry) (hi : Idle p l s s') :
    Tracks p id s' n carry ∨ (s'.ledger.view p).park.isSome := by
  rcases hi.progress with ⟨hcur, hcar⟩ | ⟨_, _, hpark⟩
  · exact .inl ⟨fun m hm => h.held m (hi.mem_held hm), by rw [hcur]; exact h.cursor,
      by rw [hcur]; exact h.start, by rw [hcar]; exact h.carry⟩
  · exact .inr hpark

theorem Tracks.idle_zero (h : Tracks p id s 0 none) (hi : Idle p l s s') :
    Tracks p id s' 0 none := by
  have hcarry : (s.ledger.view p).carry = none := h.carry
  have hpoints : (∀ c ∈ (s'.ledger.view p).cursor, c = ⟨0, id⟩) ∧
      (s'.ledger.view p).carry = none := by
    rcases hi.progress with ⟨hcur, hcar⟩ | ⟨hcur, hcar, _⟩
    · rw [hcur, hcar]
      exact ⟨h.cursor, hcarry⟩
    · rw [hcur]
      exact ⟨by simp, hcar⟩
  exact ⟨fun m hm => h.held m (hi.mem_held hm), hpoints.1, fun _ => rfl, hpoints.2⟩

/-- What is out of the thread's hands stays out. -/
theorem Thread.Out.idle (h : s.Out p) (hi : Idle p l s s') (hst : Steady p id s l)
    (hsealed : ∃ file, .sealed p file ∈ s.trace) : s'.Out p := by
  have hfile : s.files p = none → s'.files p = none := by
    intro hf
    rcases hi.file with h' | h' | ⟨file, hl, _⟩
    · rw [h', hf]
    · exact h'
    · obtain ⟨file', hfile'⟩ := hsealed
      exact absurd hfile' (hst.2 file hl file')
  rcases h with h | h | h | h
  · rcases hi.confirm h with h' | h' | ⟨io, e, rfl, he⟩
    · exact .inl h'
    · exact .inr (.inr (.inr h'))
    cases hf : s.files p with
    | none => exact .inr (.inr (.inr (hfile hf)))
    | some f =>
      have := hst.1 rfl
      rw [hf] at this
      exact absurd he (this rfl e)
  · rcases hi.quarantine h with h' | h' | ⟨io, rfl, hg⟩
    · exact .inr (.inl h')
    · exact .inr (.inr (.inr h'))
    cases hf : s.files p with
    | none => exact .inr (.inr (.inr (hfile hf)))
    | some f =>
      have := hst.1 rfl
      rw [hf] at this
      rw [this rfl] at hg
      cases hg
  · exact .inr (.inr (.inl (hi.park h)))
  · exact .inr (.inr (.inr (hfile h)))

theorem Once.idle (h : Once z p id s) (hi : Idle p l s s') (hst : Steady p id s l) :
    Once z p id s' := by
  obtain ⟨events, htrace, hevents⟩ := hi.trace
  have hacts : actsOf p s'.trace = actsOf p s.trace := by
    have hnil : actsOf p events = [] := by
      refine actsOf_eq_nil ?_
      rintro e he a rfl
      exact hevents _ he rfl
    rw [htrace, actsOf_append, hnil, append_nil]
  have hsub : s.trace ⊆ s'.trace := by rw [htrace]; exact subset_append_left _ _
  refine ⟨?_, ?_⟩
  · rw [hacts]
    rcases h.phase with ⟨hun, hfile, hnil, htr⟩ | ⟨file, n, carry, hsealed, hhist, hwhere⟩
    · rw [hnil]
      by_cases hsealed : ∃ file, .sealed p file ∈ s'.trace
      · right
        rcases hi.file with hf | hf | ⟨file, _, hmem, hf⟩
        · obtain ⟨file, hmem⟩ := hsealed
          exact ⟨file, 0, none, hmem, .nil, .inl (.inr (.inr (.inr (hf.trans hfile))))⟩
        · obtain ⟨file, hmem⟩ := hsealed
          exact ⟨file, 0, none, hmem, .nil, .inl (.inr (.inr (.inr hf)))⟩
        · exact ⟨file, 0, none, hmem, .nil, .inr ⟨hf, htr.idle_zero hi⟩⟩
      · left
        refine ⟨fun file hmem => hsealed ⟨file, hmem⟩, ?_, rfl, htr.idle_zero hi⟩
        rcases hi.file with hf | hf | ⟨file, _, hmem, _⟩
        · rw [hf, hfile]
        · exact hf
        · exact absurd ⟨file, hmem⟩ hsealed
    · right
      refine ⟨file, n, carry, hsub hsealed, hhist, ?_⟩
      rcases hwhere with hout | ⟨hf, htr⟩
      · exact .inl (hout.idle hi hst ⟨file, hsealed⟩)
      rcases htr.idle hi with htr | hpark
      · rcases hi.file with h' | h' | ⟨file', hl, _⟩
        · exact .inr ⟨h'.trans hf, htr⟩
        · exact .inl (.inr (.inr (.inr h')))
        · exact absurd hsealed (hst.2 file' hl file)
      · exact .inl (.inr (.inr (.inl hpark)))
  · intro before after n readSentinel heq
    rw [htrace] at heq
    obtain ⟨rest, hs, _⟩ := split_old heq fun hmem => hevents _ hmem rfl
    exact h.total before rest n readSentinel hs

variable {skip : Nat} {io : AttemptIo} {ending : Ending}

/-- The resume point an attempt starts from is where the history ends. -/
theorem Tracks.start_eq
    (h : Tracks p id s n carry) (hs : Starts p l s s₁ skip io ending) (hst : l.Steady (some id)) :
    skip = n ∧ (s₁.ledger.view p).carry = (s.ledger.view p).carry ∧
      ((s₁.ledger.view p).cursor = (s.ledger.view p).cursor) := by
  rcases hs.resumes with ⟨_, hheld, hled⟩ | ⟨now, stat, rfl, _, hadm⟩
  · rw [hled]
    exact ⟨h.held skip hheld, rfl, rfl⟩
  have hstat : stat = some id := hst.1
  rcases (s.ledger.admitPath_process hadm).2 with ⟨c, hc, _, rfl, hv⟩ | ⟨rfl, hno, hv⟩
  · rw [hv, h.cursor c hc]
    exact ⟨rfl, rfl, rfl⟩
  rw [hv]
  cases hc : (s.ledger.view p).cursor with
  | none => exact ⟨(h.start hc).symm, rfl, rfl⟩
  | some c =>
    refine absurd ?_ (hno c hc)
    rw [h.cursor c hc, hstat]

theorem Starts.steady (hs : Starts p l s s₁ skip io ending) {ident : Option FileId}
    (h : l.Steady ident) : io.Steady ident ending := by
  rcases hs.resumes with ⟨rfl, _⟩ | ⟨now, stat, rfl, _⟩
  · exact h
  · exact h.2

theorem Did.of_nil {segment : String} {v : View}
    (h : Did sha segment [] v skip io result acts) (hstat : io.carryStat = none) :
    acts = [] ∧ ∀ n carry, result.progress = some (n, carry) → n = skip ∧ carry = none := by
  cases h with
  | plain _ hr => exact hr.of_nil
  | settled _ hid _ _ | owing _ hid _ => rw [hstat] at hid; cases hid

/-- What an attempt adds to the trace, as far as `p` is concerned. -/
theorem actsOf_attempted {trace events : List Event} {present : Bool} {readSentinel : Bool}
    (hev : ∀ e ∈ events, e = .carryRefused p) :
    actsOf p (trace ++ acts.map (Event.act p) ++ .attempted p present result readSentinel :: events)
      = actsOf p trace ++ acts := by
  have hnil : actsOf p (.attempted p present result readSentinel :: events) = [] := by
    refine actsOf_eq_nil ?_
    rintro e he a rfl
    rcases mem_cons.mp he with h | h
    · cases h
    · exact absurd (hev _ h) (by simp)
  rw [actsOf_append, actsOf_append, actsOf_acts, hnil, append_nil]

/-- An attempt at a segment that is not there does nothing. -/
theorem Once.attempt_absent (h : Once z p id s) (ha : Thread.Attempts z sha cfg p l s s')
    (hfile : s.files p = none) (hst : l.Steady none) : Once z p id s' := by
  obtain @⟨s₁, skip, io, ending, out, skip', cursor, hs, _, hre, hview, hdid, hends⟩ := ha
  obtain ⟨_, hcarryStat, _, after, rfl, _⟩ := hs.steady hst
  obtain ⟨htrace, hfiles, hleaves⟩ := hends
  rw [hfile] at hdid htrace hfiles
  obtain ⟨hnil, hprog⟩ := hdid.of_nil hcarryStat
  have hacts : actsOf p s'.trace = actsOf p s.trace := by
    rw [htrace, actsOf_attempted hleaves.events, hnil, append_nil]
  have hnone : s'.files p = none := by rcases hfiles with hf | hf <;> exact hf
  have hsub : s.trace ⊆ s'.trace := by
    rw [htrace, append_assoc]
    exact subset_append_left _ _
  refine ⟨?_, ?_⟩
  · rw [hacts]
    rcases h.phase with ⟨hun, _, hacts0, htr⟩ | ⟨file, n, carry, hsealed, hhist, _⟩
    · left
      refine ⟨?_, hnone, hacts0, ?_⟩
      · intro file hmem
        rw [htrace, hnil] at hmem
        rcases mem_append.mp hmem with hmem | hmem
        · exact hun file (by simpa using hmem)
        · rcases mem_cons.mp hmem with heq | hmem
          · cases heq
          · exact absurd (hleaves.events _ hmem) (by simp)
      · -- the resume points stay at the start
        have hcur₁ : ∀ c ∈ (s₁.ledger.view p).cursor, c = ⟨0, id⟩ := by
          rcases hs.resumes with ⟨_, _, hled⟩ | ⟨now, stat, _, _, hadm⟩
          · rw [hled]; exact htr.cursor
          · rcases (s.ledger.admitPath_process hadm).2 with ⟨_, _, _, _, hv⟩ | ⟨_, _, hv⟩
            · rw [hv]; exact htr.cursor
            · rw [hv]; simp
        have hpoints : Points (· = 0) (fun _ => True) p s :=
          ⟨htr.held, fun c hc => by rw [htr.cursor c hc], fun _ _ => trivial⟩
        obtain ⟨hskip, hcursor, _⟩ := hpoints.starts rfl hs
        have hskip' := (hre.points (P := (· = 0)) rfl hskip hcursor).1
        have hcur : ∀ c ∈ cursor, c = ⟨0, id⟩ := by
          rcases hre with ⟨_, rfl⟩ | ⟨_, _, rfl⟩
          · exact hcur₁
          · simp
        cases hleaves with
        | nothing hheld hcursor hcarry =>
          exact ⟨by rw [hheld]; simp, by rw [hcursor]; simp, fun _ => rfl, by rw [hcarry]; rfl⟩
        | @progress m carry kept hres hv hstores hheld =>
          obtain ⟨rfl, rfl⟩ := hprog m carry hres
          rw [hview] at hv hstores
          refine ⟨?_, ?_, fun _ => rfl, by rw [hv]; exact hstores.1⟩
          · rw [hskip'] at hheld
            rcases hheld with hh | hh <;> simp [hh]
          · rw [hv]
            rw [if_pos hskip']
            exact hcur
    · exact .inr ⟨file, n, carry, hsub hsealed, hhist, .inl (.inr (.inr (.inr hnone)))⟩
  · intro before after' n readSentinel heq
    rw [htrace] at heq
    rcases split_attempted hleaves.events heq with ⟨rest, hst, _⟩ | ⟨⟨hpres, _⟩, _⟩
    · exact h.total before rest n readSentinel hst
    · cases hpres

/-- An attempt at a segment that is there goes on with its history. -/
theorem Once.attempt_present {file : Bytes}
    (h : Once z p id s) (ha : Thread.Attempts z sha cfg p l s s')
    (hsealed : .sealed p file ∈ s.trace)
    (hhist : History (recordsOf z file) n carry (actsOf p s.trace)) (hfile : s.files p = some file)
    (htr : Tracks p id s n carry) (hst : l.Steady (some id)) (hkept : .carryRefused p ∉ s'.trace) :
    Once z p id s' := by
  obtain @⟨s₁, skip, io, ending, out, skip', cursor, hs, hout, hre, hview, hdid, hends⟩ := ha
  obtain ⟨hskipStat, hcarryStat, hgone, after, rfl, hprogStat, hcarStat, hmoves⟩ := hs.steady hst
  obtain ⟨hgone, hmove⟩ := hgone rfl
  obtain ⟨hmove', hstat⟩ := hmoves rfl
  obtain ⟨rfl, hcar₁, hcur₁⟩ := htr.start_eq hs hst
  obtain ⟨htrace, hfiles, hleaves⟩ := hends
  have hlen := fun n h => attemptSegment_confirmed_length z sha cfg p ((s.files p).getD [])
    s₁.deadLetter s₁.ledger skip io (n := n) h (.inr hgone)
  rw [hout] at hlen
  rw [hfile] at hdid htrace hfiles hlen
  obtain ⟨rfl, rfl⟩ : skip' = skip ∧ cursor = (s.ledger.view p).cursor := by
    rcases hre with ⟨h1, h2⟩ | ⟨⟨c, id', hc, hid', hne⟩, _⟩
    · exact ⟨h1, h2.trans hcur₁⟩
    rw [hcur₁] at hc
    rw [hskipStat] at hid'
    rw [htr.cursor c hc] at hne
    exact absurd (Option.some.inj hid').symm hne
  have hnew := hhist.did (hcar₁.trans htr.carry) hcarryStat hdid
  have hacts : actsOf p s'.trace = actsOf p s.trace ++ out.acts := by
    rw [htrace, actsOf_attempted hleaves.events]
  have hsub : s.trace ⊆ s'.trace := by
    rw [htrace, append_assoc]
    exact subset_append_left _ _
  refine ⟨.inr ?_, ?_⟩
  · rw [hacts]
    cases hleaves with
    | nothing hheld hcursor hcarry hevents hout' =>
      obtain ⟨m, carry', hm⟩ := hnew.some
      exact ⟨file, m, carry', hsub hsealed, hm, .inl (hout' hmove hmove' hstat)⟩
    | @progress m carry' kept hres hv hstores hheld =>
      obtain ⟨hle, hm⟩ := hnew.progress m carry' hres
      refine ⟨file, m, carry', hsub hsealed, hm, ?_⟩
      rcases hfiles with hf | hf
      · refine .inr ⟨hf, ?_⟩
        rw [hview] at hv hstores
        refine ⟨?_, ?_, ?_, ?_⟩
        · rcases hheld with hh | hh <;> simp [hh]
        · rw [hv]
          split
          next hm0 =>
            -- nothing was processed yet, so no cursor was stored
            intro c hc
            rw [htr.cursor c hc]
            congr 1
            omega
          · rw [hprogStat]
            intro c hc
            exact (Option.some.inj hc).symm
        · rw [hv]
          split
          next hm0 => exact fun _ => hm0
          · rw [hprogStat]; simp
        · rw [hv]
          cases carry' with
          | none => exact hstores.1
          | some c =>
            rcases hstores with ⟨id', hid', rfl, _⟩ | ⟨_, hev⟩
            · rw [hcarStat] at hid'
              rw [← Option.some.inj hid']
              rfl
            · refine absurd ?_ hkept
              rw [htrace, hev]
              simp
      · exact .inl (.inr (.inr (.inr hf)))
  · intro before after' m readSentinel heq
    rw [htrace] at heq
    rcases split_attempted hleaves.events heq with ⟨rest, hst', _⟩ | ⟨⟨_, hres, _⟩, rfl, _⟩
    · exact h.total before rest m readSentinel hst'
    · refine ⟨file, mem_append_left _ hsealed, hlen m hres, ?_⟩
      rw [actsOf_append, actsOf_acts]
      exact hnew.confirmed m hres (hlen m hres)

/-- What is out of the thread's hands and still attempted at is not there. -/
theorem Starts.gone (hs : Starts p l s s₁ skip io ending)
    (hheld : ∀ n ∈ s.heldAt p, (s.ledger.view p).Free) (hout : s.Out p) : s.files p = none := by
  obtain ⟨h1, h2, h3⟩ := hs.unowned hheld
  unfold Thread.Out at hout
  rw [h1, h2, h3] at hout
  simpa using hout

theorem Once.step (h : Once z p id s)
    (hheld : ∀ n ∈ s.heldAt p, (s.ledger.view p).Free) (hst : Steady p id s l)
    (hs : s.step z sha cfg l = some s') (hkept : .carryRefused p ∉ s'.trace) : Once z p id s' := by
  rcases Thread.step_cases z sha cfg hs p with hidle | ha
  · exact h.idle hidle hst
  have ⟨hstart, _, _, _, _, _⟩ := ha
  have hst := hst.1 hstart.subject
  cases hf : s.files p with
  | none =>
    rw [hf] at hst
    exact h.attempt_absent ha hf hst
  | some file =>
    rw [hf] at hst
    rcases h.phase with ⟨_, hnone, _⟩ | ⟨file', n, carry, hsealed, hhist, hwhere⟩
    · rw [hf] at hnone; cases hnone
    · rcases hwhere with hout | ⟨hfile, htr⟩
      · rw [hstart.gone hheld hout] at hf; cases hf
      · exact h.attempt_present ha hsealed hhist hfile htr hst hkept

theorem Reach.once (h : Reach z sha cfg (Steady p id) s) (hkept : .carryRefused p ∉ s.trace) :
    Once z p id s := by
  induction h with
  | init now totalBytes maxCounter backlog =>
    refine ⟨.inl ⟨by simp [Thread.init], rfl, rfl, ?_⟩, ?_⟩
    · refine ⟨by simp [Thread.heldAt, Thread.init, DrainState.holds], ?_, fun _ => rfl, rfl⟩
      intro c hc
      cases hc
    · intro before after n readSentinel h
      exact absurd h (by simp [Thread.init])
  | step hr hst hs ih =>
    have hsub := (Thread.step_trace z sha cfg hs).subset
    exact (ih fun hmem => hkept (hsub hmem)).step (hr.held_free p) hst hs hkept

/-- In a run that finds the segment what it is whenever it looks, and refuses no
carry, the records handed over are those at the place they are counted from; a
sub-batch the sink accounted for lies before everything handed over later; no two
dead-letter writes are of one sub-batch; and the counters of the confirmed
segment add up to its records. -/
theorem delivered_once {s : Thread} (h : Reach z sha cfg (Steady p id) s)
    (hkept : .carryRefused p ∉ s.trace) :
    (∀ lo batch ids reply, .act p (.commit lo batch ids reply) ∈ s.trace →
      ∃ file, .sealed p file ∈ s.trace ∧ batch <+: (recordsOf z file).drop lo) ∧
    (actsOf p s.trace).Pairwise Act.NotAgain ∧
    (actsOf p s.trace).Pairwise (Act.Apart (actsOf p s.trace)) ∧
    ∀ before after n readSentinel,
      s.trace = before ++ .attempted p true (.confirmed n) readSentinel :: after →
      ∃ file, .sealed p file ∈ before ∧
        ((actsOf p before).map Act.counts).sum = (recordsOf z file).length := by
  have honce := h.once hkept
  have htotal : ∀ before after n readSentinel,
      s.trace = before ++ .attempted p true (.confirmed n) readSentinel :: after →
      ∃ file, .sealed p file ∈ before ∧
        ((actsOf p before).map Act.counts).sum = (recordsOf z file).length := by
    intro before after n readSentinel heq
    obtain ⟨file, hsealed, hn, hbefore⟩ := honce.total before after n readSentinel heq
    exact ⟨file, hsealed, by rw [hbefore.counts, hn]⟩
  rcases honce.phase with ⟨_, _, hnil, _⟩ | ⟨file, n, carry, hsealed, hhist, _⟩
  · refine ⟨?_, by rw [hnil]; exact .nil, by rw [hnil]; exact .nil, htotal⟩
    intro lo batch ids reply hmem
    have hmem := mem_actsOf.mpr hmem
    rw [hnil] at hmem
    cases hmem
  · refine ⟨?_, hhist.not_again, hhist.apart, htotal⟩
    intro lo batch ids reply hmem
    exact ⟨file, hsealed, hhist.chunks lo batch ids reply (mem_actsOf.mpr hmem)⟩

end

/-! ### A carry settled one attempt later -/

/-- `carriedRun` with the first stat answered. -/
def steadyRun : List Label :=
  [.sealed sampleSegment lostRecord.bytes, .arrive sampleSegment,
    .next 0 (some ⟨0, 1⟩) pickyAttempt (.returned calmAfter),
    .retry pickyAttempt (.returned calmAfter)]

/-- The segment is sealed first, and there when it is attempted. -/
def steadyGuard (s : Thread) : Label → Bool
  | .sealed _ _ => s.trace = []
  | .next _ _ _ _ | .retry _ _ => (s.files sampleSegment).isSome
  | _ => true

theorem pickyAttempt_steady : pickyAttempt.Steady (some ⟨0, 1⟩) (.returned calmAfter) := by
  refine ⟨rfl, rfl, fun _ => ⟨?_, rfl⟩, calmAfter, rfl, rfl, rfl, fun _ => ⟨rfl, ?_⟩⟩
  · exact calmIo_present
  · simp [calmAfter, calmConfirm]

theorem steadyRun_steady : ∀ l ∈ steadyRun, ∀ s, steadyGuard s l = true →
    Steady sampleSegment ⟨0, 1⟩ s l := by
  have hmap : ∀ {o : Option Bytes}, o.isSome = true →
      (o.map fun _ => (⟨0, 1⟩ : FileId)) = some ⟨0, 1⟩ := by
    intro o ho
    obtain ⟨b, rfl⟩ := Option.isSome_iff_exists.mp ho
    rfl
  intro l hl s hg
  simp only [steadyRun, mem_cons, not_mem_nil, or_false] at hl
  rcases hl with rfl | rfl | rfl | rfl
  · refine ⟨fun h => absurd h (by simp [Thread.subject]), ?_⟩
    rw [of_decide_eq_true hg]
    simp
  · exact ⟨fun h => absurd h (by simp [Thread.subject]), by simp⟩
  · refine ⟨fun _ => ?_, by simp⟩
    rw [hmap hg]
    exact ⟨rfl, pickyAttempt_steady⟩
  · refine ⟨fun _ => ?_, by simp⟩
    rw [hmap hg]
    exact pickyAttempt_steady

def steadyEnd : Option Thread :=
  (Thread.init sampleConfig 0 0 0 []).run Zstd.plain id sampleConfig
    (fun s l => steadyGuard s l = true) steadyRun

set_option maxRecDepth 10000 in
/-- The one record committed and the one dead-lettered make the two of the segment. -/
theorem delivered_once_carried :
    ∃ s before file, Reach Zstd.plain id sampleConfig (Steady sampleSegment ⟨0, 1⟩) s ∧
      .carryRefused sampleSegment ∉ s.trace ∧
      s.trace = before ++ [.attempted sampleSegment true (.confirmed 2) true] ∧
      .sealed sampleSegment file ∈ before ∧
      ((actsOf sampleSegment before).map Act.counts).sum = (recordsOf Zstd.plain file).length := by
  obtain ⟨s, hs, hend⟩ := Option.map_eq_some_iff.mp (show steadyEnd.map (fun s =>
    (s.trace.getLast?, decide (.carryRefused sampleSegment ∈ s.trace)))
      = some (some (.attempted sampleSegment true (.confirmed 2) true), false) by decide +kernel)
  obtain ⟨hlast, hkept⟩ := Prod.mk.inj hend
  rw [decide_eq_false_iff_not] at hkept
  have hrun : Reach Zstd.plain id sampleConfig (Steady sampleSegment ⟨0, 1⟩) s :=
    Reach.run steadyRun_steady (.init 0 0 0 []) hs
  have htrace := (dropLast_append_getLast? _ hlast).symm
  obtain ⟨file, hfile, hsum⟩ := (delivered_once hrun hkept).2.2.2 _ _ _ _ htrace
  exact ⟨s, _, file, hrun, hkept, htrace, hfile, hsum⟩

end Weir.Drain

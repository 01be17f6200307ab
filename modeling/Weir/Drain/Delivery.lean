import Weir.Drain.Machine
import Weir.Drain.Truncation
import Weir.Wab.Durability

/-!
# The drain never loses a record

How far a segment was processed is kept in three places: the state of the
thread, the ledger's cursor, and a carry for a sub-batch whose rejects are not
written yet. `Keeps` ties each of them to the trace: the records before it are
all settled, or, for a carry, settled once its payloads are written.

> `confirmed_keeps_records`: whenever an attempt confirms a segment whose
> sentinel it read, every record of it lies in a sub-batch that the sink
> committed, but for the rejects, which were written to a sealed dead-letter
> segment.
-/

namespace Weir.Drain

open Weir.Lib Weir.Wab List

/-- The sub-batch of `p` behind record `lo` is settled: each of its records was
reported committed, or written to a dead-letter segment that was then sealed. -/
inductive Settled (trace : List Event) (p : Path) (lo : Nat) (batch : List Bytes) : Prop
  | committed {ids : List RecordId} {committed : List Bytes} {dead : List (Bytes × String)}
      (hcommit : .act p (.commit lo batch ids (.ok committed dead)) ∈ trace)
      (hparts : (committed ++ dead.map (·.1)).Perm batch)
      (hdead : dead = [] ∨ ∃ ops, Seals ops (dead.map (·.1)) ∧
        .act p (.deadLettered (lo + batch.length) (dead.map (·.1)) ops) ∈ trace)
  | rejected {ids : List RecordId} {ops : List (Op Path)}
      (hcommit : .act p (.commit lo batch ids .permanent) ∈ trace) (hseals : Seals ops batch)
      (hdead : .act p (.deadLettered (lo + batch.length) batch ops) ∈ trace)

/-- Record `i` of `p`, which holds `payload`, is in a settled sub-batch. -/
def Kept (trace : List Event) (p : Path) (i : Nat) (payload : Bytes) : Prop :=
  ∃ lo batch, Settled trace p lo batch ∧ lo ≤ i ∧ batch[i - lo]? = some payload

/-- Every record of `rs` before `n` is kept. -/
def Covered (rs : List Bytes) (trace : List Event) (p : Path) (n : Nat) : Prop :=
  ∀ i payload, i < n → rs[i]? = some payload → Kept trace p i payload

/-- The sink's contract: where it accounts for every record of a sub-batch, what
it committed and what it rejected are the sub-batch. -/
def Partitions (trace : List Event) (p : Path) : Prop :=
  ∀ lo batch ids committed dead, .act p (.commit lo batch ids (.ok committed dead)) ∈ trace →
    committed.length + dead.length = batch.length →
    (committed ++ dead.map (·.1)).Perm batch

/-- A carry is what a sub-batch owes whose predecessors are all kept. -/
def Carried (rs : List Bytes) (trace : List Event) (p : Path) (carry : DeadLetterCarry) : Prop :=
  ∃ lo batch ids reply, .act p (.commit lo batch ids reply) ∈ trace ∧
    Owes batch reply carry.payloads carry.committed ∧ batch ≠ [] ∧ batch <+: rs.drop lo ∧
    carry.through = lo + batch.length ∧ Covered rs trace p lo

section

variable {rs : List Bytes} {trace trace' : List Event} {p : Path} {batch : List Bytes}
  {lo : Nat} {sha : Sha256}

theorem Settled.mono (h : Settled trace p lo batch) (hsub : trace ⊆ trace') :
    Settled trace' p lo batch := by
  cases h with
  | committed hcommit hparts hdead =>
    refine .committed (hsub hcommit) hparts (hdead.imp id ?_)
    rintro ⟨ops, hseals, hmem⟩
    exact ⟨ops, hseals, hsub hmem⟩
  | rejected hcommit hseals hdead => exact .rejected (hsub hcommit) hseals (hsub hdead)

variable {n skip : Nat} {carry : DeadLetterCarry} {ids : List RecordId} {result : ProcessResult}

theorem Covered.mono (h : Covered rs trace p n) (hsub : trace ⊆ trace') :
    Covered rs trace' p n := by
  intro i payload hi hp
  obtain ⟨lo, batch, hs, hle, hget⟩ := h i payload hi hp
  exact ⟨lo, batch, hs.mono hsub, hle, hget⟩

theorem Carried.mono (h : Carried rs trace p carry)
    (hsub : trace ⊆ trace') : Carried rs trace' p carry := by
  obtain ⟨lo, batch, ids, reply, hmem, howes, hne, hchunk, hthrough, hcov⟩ := h
  exact ⟨lo, batch, ids, reply, hsub hmem, howes, hne, hchunk, hthrough, hcov.mono hsub⟩

theorem Partitions.mono (h : Partitions trace' p) (hsub : trace ⊆ trace') : Partitions trace p :=
  fun lo batch ids committed dead hmem => h lo batch ids committed dead (hsub hmem)

theorem Covered.zero : Covered rs trace p 0 := fun i _ hi => absurd hi (Nat.not_lt_zero i)

theorem Covered.max {m : Nat} (hm : Covered rs trace p m) (hn : Covered rs trace p n) :
    Covered rs trace p (max m n) := by
  intro i payload hi hp
  by_cases h : i < m
  · exact hm i payload h hp
  · exact hn i payload (by omega) hp

/-- A settled sub-batch moves the cover to its end. -/
theorem Covered.settle (h : Covered rs trace p lo) (hchunk : batch <+: rs.drop lo)
    (hs : Settled trace p lo batch) : Covered rs trace p (lo + batch.length) := by
  intro i payload hi hp
  by_cases hlo : i < lo
  · exact h i payload hlo hp
  refine ⟨lo, batch, hs, by omega, ?_⟩
  obtain ⟨rest, hrest⟩ := hchunk
  have hget : (rs.drop lo)[i - lo]? = some payload := by
    rw [getElem?_drop, show lo + (i - lo) = i by omega, hp]
  rwa [← hrest, getElem?_append_left (by omega)] at hget

/-- What a sub-batch owes settles it, once written. -/
theorem Owes.settled {committed : Nat} {payloads : List Bytes}
    {reply : CommitReply} {ops : List (Op Path)} (h : Owes batch reply payloads committed)
    (hparts : Partitions trace p) (hcommit : .act p (.commit lo batch ids reply) ∈ trace)
    (hseals : Seals ops payloads)
    (hdead : .act p (.deadLettered (lo + batch.length) payloads ops) ∈ trace) :
    Settled trace p lo batch := by
  cases h with
  | rejects hne hlen =>
    exact .committed hcommit (hparts lo batch ids _ _ hcommit hlen) (.inr ⟨ops, hseals, hdead⟩)
  | all => exact .rejected hcommit hseals hdead

variable {acts : List Act}

theorem Accepted.settled (h : Accepted lo batch ids acts)
    (hparts : Partitions trace p) (hacts : acts.map (Event.act p) ⊆ trace) :
    Settled trace p lo batch := by
  cases h with
  | committed hlen =>
    have hcommit := hacts mem_cons_self
    exact .committed hcommit (hparts _ _ _ _ _ hcommit (by simpa using hlen)) (.inl rfl)
  | deadLettered howes hseals _ =>
    exact howes.settled hparts (hacts mem_cons_self) hseals
      (hacts (mem_cons_of_mem _ mem_cons_self))

variable {segment : String}

/-- The sub-batches an attempt settled move the cover to its cursor. -/
theorem Sent.covered {hi : Nat} (h : Sent sha segment rs lo hi acts)
    (hparts : Partitions trace p) (hacts : acts.map (Event.act p) ⊆ trace)
    (hlo : Covered rs trace p lo) : Covered rs trace p hi := by
  induction h with
  | nil => exact hlo
  | snoc _ hchunk _ hacc ih =>
    rw [map_append] at hacts
    exact (ih fun e he => hacts (mem_append_left _ he)).settle hchunk
      (hacc.settled hparts fun e he => hacts (mem_append_right _ he))

theorem Pends.carried {mid : Nat}
    (h : Pends sha segment rs mid (some carry) acts) (hacts : acts.map (Event.act p) ⊆ trace)
    (hmid : Covered rs trace p mid) : Carried rs trace p carry := by
  rcases h with ⟨h, _⟩ | ⟨batch, hchunk, hne, href⟩
  · cases h
  · cases href with
    | owed howes =>
      exact ⟨mid, batch, _, _, hacts mem_cons_self, howes, hne, hchunk, rfl, hmid⟩

/-- An attempt from a covered resume point reports a covered cursor and a carry
in order. -/
theorem Reports.covered (h : Reports sha segment rs skip result acts) (hparts : Partitions trace p)
    (hacts : acts.map (Event.act p) ⊆ trace) (hskip : Covered rs trace p skip) :
    (∀ n, result = .confirmed n → Covered rs trace p (max skip n)) ∧
    ∀ n carry, result.progress = some (n, carry) →
      Covered rs trace p n ∧ ∀ c ∈ carry, Carried rs trace p c := by
  obtain ⟨mid, sent, rest, rfl, hsent, hends⟩ := h
  rw [map_append] at hacts
  have hmid := hsent.covered hparts (fun e he => hacts (mem_append_left _ he)) hskip
  refine ⟨?_, ?_⟩
  · rintro n rfl
    rw [← hends.1]
    exact hmid
  · intro n carry hprog
    obtain ⟨rfl, hpends⟩ := hends.progress hprog
    refine ⟨hmid, ?_⟩
    rintro c rfl
    exact hpends.carried (fun e he => hacts (mem_append_right _ he)) hmid

/-- The same for an attempt that may first write what an earlier one owed. -/
theorem Did.covered {v : View} {io : AttemptIo}
    (h : Did sha segment rs v skip io result acts) (hparts : Partitions trace p)
    (hacts : acts.map (Event.act p) ⊆ trace) (hskip : Covered rs trace p skip)
    (hcarry : ∀ c ∈ v.carry, Carried rs trace p c.carry) :
    (∀ n, result = .confirmed n → Covered rs trace p n) ∧
    ∀ n carry, result.progress = some (n, carry) →
      Covered rs trace p n ∧ ∀ c ∈ carry, Carried rs trace p c := by
  cases h with
  | plain _ hrep =>
    obtain ⟨h1, h2⟩ := hrep.covered hparts hacts hskip
    exact ⟨fun n hn i payload hi => h1 n hn i payload (by omega), h2⟩
  | @settled carry id ops acts hpin hid hseals hrep =>
    obtain ⟨lo, batch, ids, reply, hmem, howes, hne, hchunk, hthrough, hcov⟩ := hcarry _ hpin
    have hdl := hacts mem_cons_self
    have hset : Settled trace p lo batch :=
      howes.settled hparts hmem (hseals (howes.ne_nil hne)) (by
        rw [← hthrough]
        exact hdl)
    have hthr : Covered rs trace p carry.through := by
      rw [hthrough]
      exact hcov.settle hchunk hset
    obtain ⟨h1, h2⟩ := hrep.covered hparts
      (fun e he => hacts (mem_cons_of_mem _ (mem_cons_of_mem _ (mem_cons_of_mem _ he))))
      (hthr.max hskip)
    exact ⟨fun n hn i payload hi => h1 n hn i payload (by omega), h2⟩
  | owing hpin _ hres =>
    refine ⟨?_, ?_⟩
    · rintro n rfl
      cases hres
    intro n carry hprog
    cases hres.symm.trans hprog
    refine ⟨hskip, ?_⟩
    rintro c hc
    rw [← Option.some.inj hc]
    exact hcarry _ hpin

end

/-! ## Over a run -/

/-- The segment `p` holds `file` as long as it is there, and the resume points
kept for it are covered. -/
structure Keeps (z : Zstd) (file : Bytes) (p : Path) (s : Thread) : Prop where
  unchanged : s.files p = none ∨ s.files p = some file
  held : ∀ n ∈ s.heldAt p, Covered (recordsOf z file) s.trace p n
  cursor : ∀ c ∈ (s.ledger.view p).cursor, Covered (recordsOf z file) s.trace p c.processed
  carry : ∀ c ∈ (s.ledger.view p).carry, Carried (recordsOf z file) s.trace p c.carry
  confirmed : ∀ before after present n,
    s.trace = before ++ .attempted p present (.confirmed n) true :: after →
    Covered (recordsOf z file) before p (recordsOf z file).length

variable {z : Zstd} {sha : Sha256} {cfg : DrainConfig} {file : Bytes} {p : Path}

/-- Where an event of a longer trace lies. -/
theorem split_append {α : Type} {xs ys before after : List α} {e : α}
    (h : xs ++ ys = before ++ e :: after) :
    (∃ rest, xs = before ++ e :: rest ∧ after = rest ++ ys) ∨
    ∃ rest, before = xs ++ rest ∧ ys = rest ++ e :: after := by
  rcases append_eq_append_iff.mp h with ⟨rest, hb, hy⟩ | ⟨rest, hx, hy⟩
  · exact .inr ⟨rest, hb, hy⟩
  cases rest with
  | nil => exact .inr ⟨[], by simpa using hx.symm, by simpa using hy.symm⟩
  | cons x rest =>
    obtain ⟨rfl, rfl⟩ := List.cons.inj hy
    exact .inl ⟨rest, hx, rfl⟩

/-- An event that is not new. -/
theorem split_old {α : Type} {xs ys before after : List α} {e : α}
    (h : xs ++ ys = before ++ e :: after) (hnew : e ∉ ys) :
    ∃ rest, xs = before ++ e :: rest ∧ after = rest ++ ys := by
  rcases split_append h with hold | ⟨rest, _, hy⟩
  · exact hold
  · exact absurd (by rw [hy]; simp) hnew

theorem attempted_notMem_acts (p q : Path) (present : Bool) (result : ProcessResult)
    (readSentinel : Bool) (acts : List Act) :
    Event.attempted q present result readSentinel ∉ acts.map (Event.act p) := by
  simp

/-- Where a confirmation stands in a trace with one more attempt. -/
theorem split_attempted {trace events before after : List Event} {acts : List Act} {n : Nat}
    {result : ProcessResult} {present present' readSentinel readSentinel' : Bool}
    (hev : ∀ e ∈ events, e = .carryRefused p)
    (h : trace ++ acts.map (Event.act p) ++ .attempted p present result readSentinel :: events
      = before ++ .attempted p present' (.confirmed n) readSentinel' :: after) :
    (∃ rest, trace = before ++ .attempted p present' (.confirmed n) readSentinel' :: rest ∧
      after = rest ++ (acts.map (Event.act p)
        ++ .attempted p present result readSentinel :: events)) ∨
    (present = present' ∧ result = .confirmed n ∧ readSentinel = readSentinel') ∧
      before = trace ++ acts.map (Event.act p) ∧ after = events := by
  rw [append_assoc] at h
  rcases split_append h with hold | ⟨rest, hbefore, hrest⟩
  · exact .inl hold
  rcases split_append hrest with ⟨_, hacts, _⟩ | ⟨rest', hr, hcons⟩
  · exact absurd (by rw [hacts]; simp) (attempted_notMem_acts p p present' (.confirmed n)
      readSentinel' acts)
  cases rest' with
  | nil =>
    simp only [nil_append, List.cons.injEq, Event.attempted.injEq, true_and] at hcons
    exact .inr ⟨hcons.1, by rw [hbefore, hr, append_nil], hcons.2.symm⟩
  | cons e rest' =>
    have hmem : Event.attempted p present' (.confirmed n) readSentinel' ∈ events := by
      rw [(List.cons.inj hcons).2]
      simp
    exact absurd (hev _ hmem) (by simp)

variable {s : Thread} {l : Label} {s' s₁ : Thread} {skip : Nat} {io : AttemptIo} {ending : Ending}

/-- What it says of the resume points, in a longer trace. -/
theorem Keeps.points (h : Keeps z file p s) {trace : List Event} (hsub : s.trace ⊆ trace) :
    Points (Covered (recordsOf z file) trace p) (Carried (recordsOf z file) trace p) p s :=
  ⟨fun n hn => (h.held n hn).mono hsub, fun c hc => (h.cursor c hc).mono hsub,
    fun c hc => (h.carry c hc).mono hsub⟩

theorem Keeps.idle (h : Keeps z file p s) (hi : Idle p l s s')
    (hfile : ∀ f, .sealed p f ∈ s'.trace → f = file) : Keeps z file p s' := by
  obtain ⟨events, htrace, hevents⟩ := hi.trace
  have hsub : s.trace ⊆ s'.trace := by rw [htrace]; exact subset_append_left _ _
  have hpoints := (h.points hsub).idle hi
  refine ⟨?_, hpoints.held, hpoints.cursor, hpoints.carry, ?_⟩
  · rcases hi.file with hf | hf | ⟨f, _, hf, heq⟩
    · rw [hf]; exact h.unchanged
    · exact .inl hf
    · exact .inr (by rw [heq, hfile f hf])
  · intro before after present n heq
    rw [htrace] at heq
    obtain ⟨rest, hs, _⟩ := split_old heq fun hmem => hevents _ hmem rfl
    exact h.confirmed before rest present n hs

theorem Keeps.attempt
    (h : Keeps z file p s) (ha : Thread.Attempts z sha cfg p l s s')
    (hparts : Partitions s'.trace p) : Keeps z file p s' := by
  obtain @⟨s₁, skip, io, ending, out, skip', cursor, hs, hout, hre, hview, hdid, hends⟩ := ha
  have hfile := h.unchanged
  have hpoints := (h.points hends.trace.subset).ends .zero hs hre hview hends
  have hlen := fun n => attemptSegment_confirmed_length z sha cfg p ((s.files p).getD [])
    s₁.deadLetter s₁.ledger skip io (n := n)
  rw [hout] at hlen
  cases hends with
  | panicked htrace hfiles _ _ =>
    have hpoints := hpoints (by simp)
    refine ⟨by rw [hfiles]; exact hfile, hpoints.held, hpoints.cursor, hpoints.carry, ?_⟩
    intro before after present n heq
    rw [htrace] at heq
    obtain ⟨rest, hst, _⟩ := split_old heq (by simp [-map_take])
    exact h.confirmed before rest present n hst
  | returned htrace hfiles hleaves =>
    have hacts : s.trace ++ out.acts.map (Event.act p) ⊆ s'.trace := by
      rw [htrace]; exact subset_append_left _ _
    have hdid : Did sha (segmentIdentity p) (recordsOf z file) (s₁.ledger.view p) skip' io
        out.result out.acts := by
      refine hdid.mono ?_
      rcases hfile with hf | hf
      · rw [hf, Option.getD_none, recordsOf_nil]
        exact nil_prefix
      · rw [hf, Option.getD_some]
    obtain ⟨hskip, hcursor, hcarry⟩ := (h.points (subset_append_left _ _)).starts .zero hs
    obtain ⟨hconf, hprog⟩ := hdid.covered (hparts.mono hacts) (subset_append_right _ _)
      (hre.points .zero hskip hcursor).1 hcarry
    have hpoints := hpoints fun _ _ n carry hres =>
      ⟨(hprog n carry hres).1.mono hacts, fun c hc => ((hprog n carry hres).2 c hc).mono hacts⟩
    refine ⟨?_, hpoints.held, hpoints.cursor, hpoints.carry, ?_⟩
    · rcases hfiles with hf | hf
      · rw [hf]; exact hfile
      · exact .inl hf
    · intro before rest present n heq
      rw [htrace] at heq
      rcases split_attempted hleaves.events heq with ⟨_, hst, _⟩ | ⟨⟨_, hres, hread⟩, hbefore, _⟩
      · exact h.confirmed before _ present n hst
      have hn := hlen n hres (.inl hread)
      have hne := attemptSegment_readSentinel z sha cfg p _ s₁.deadLetter s₁.ledger skip io
        (by rw [hout]; exact hread)
      rcases hfile with hf | hf
      · rw [hf] at hne; exact absurd rfl hne
      · rw [hf, Option.getD_some] at hn
        rw [hbefore, ← hn]
        exact hconf n hres

/-- A step keeps it. -/
theorem Keeps.step (h : Keeps z file p s)
    (hs : s.step z sha cfg l = some s') (hfile : ∀ f, .sealed p f ∈ s'.trace → f = file)
    (hparts : Partitions s'.trace p) : Keeps z file p s' := by
  rcases Thread.step_cases z sha cfg hs p with hidle | ha
  · exact h.idle hidle hfile
  · exact h.attempt ha hparts

theorem Reach.keeps {allowed : Thread → Label → Prop}
    (h : Reach z sha cfg allowed s) (hfile : ∀ f, .sealed p f ∈ s.trace → f = file)
    (hparts : Partitions s.trace p) : Keeps z file p s := by
  induction h with
  | init now totalBytes maxCounter backlog =>
    refine ⟨.inl rfl, by simp [Thread.heldAt, Thread.init, DrainState.holds], ?_, ?_, ?_⟩
    · intro c hc
      cases hc
    · intro c hc
      cases hc
    · intro before after present n h
      exact absurd h (by simp [Thread.init])
  | step _ _ hs ih =>
    have hsub := (Thread.step_trace z sha cfg hs).subset
    exact (ih (fun f hf => hfile f (hsub hf)) (hparts.mono hsub)).step hs hfile hparts

/-- The records of a well-formed sealed segment are its payloads. -/
theorem SealedFile.recordsOf (f : SealedFile z) : recordsOf z f.bytes = f.payloads := by
  have hhead := parseSegmentHeader_length f.parses
  have hfuel : f.stored.length ≤ f.bytes.length := by
    have := length_le_encodeRecords f.stored
    unfold SealedFile.bytes sealedBytes
    simp only [length_append]
    omega
  let reader : SegmentReader := ⟨f.bytes, segmentHeaderLen, false, f.headerMeta, none⟩
  have hopen : SegmentReader.open f.bytes noFault = .ok reader :=
    SegmentReader.open_of_header rfl (append_assoc ..) f.parses
  obtain ⟨k, hk⟩ : ∃ k, f.bytes.length + 2 = f.stored.length + (k + 1) :=
    ⟨f.bytes.length + 1 - f.stored.length, by omega⟩
  have hdrop : f.bytes.drop segmentHeaderLen = encodeRecords f.stored ++ (buildSentinel
      ++ buildSegmentFooter f.stored.length (f.stored.map length).sum
        (crc32 (f.header ++ encodeRecords f.stored)) f.sealedAt) := by
    unfold SealedFile.bytes sealedBytes
    rw [append_assoc, drop_left' hhead]
  have hle : segmentHeaderLen + (encodeRecords f.stored).length ≤ f.bytes.length := by
    unfold SealedFile.bytes sealedBytes
    simp only [length_append]
    omega
  have hread := SegmentReader.collect_records f.stored f.payloads reader _ (k + 1) rfl
    (by show segmentHeaderLen ≤ f.bytes.length; omega) hdrop f.storedOk f.decodes
  rw [SegmentReader.collect_sentinel k rfl hle (by
    rw [← drop_drop, hdrop, drop_left])] at hread
  apply recordsOf_readAll hopen
  rw [SegmentReader.readAll, show reader.file.length + 2 = _ from hk, hread, append_nil]

/-- In every run, with a sink that keeps its contract and as long as the path `p`
holds the sealed segment `f`, an attempt that confirms `p` having read its
sentinel leaves every record of `f` kept. -/
theorem confirmed_keeps_records {s : Thread} (hrun : Reach z sha cfg (fun _ _ => True) s)
    (f : SealedFile z) (hfile : ∀ bytes, .sealed p bytes ∈ s.trace → bytes = f.bytes)
    (hparts : Partitions s.trace p) {before after : List Event} {present : Bool} {n : Nat}
    (h : s.trace = before ++ .attempted p present (.confirmed n) true :: after) :
    ∀ i payload, f.payloads[i]? = some payload → Kept before p i payload := by
  intro i payload hp
  have hcovered := (hrun.keeps hfile hparts).confirmed before after present n h
  rw [f.recordsOf] at hcovered
  exact hcovered i payload (List.getElem?_eq_some_iff.mp hp).1 hp

/-! ### A sub-batch whose rejects are written one attempt later -/

/-- A sink that commits the first record of a sub-batch and rejects the rest. -/
def pickyIo : ProcessIo :=
  { calmIo with
    replies := fun _ batch => .ok (batch.take 1) ((batch.drop 1).map (·, "rejected")) }

def calmAfter : AfterIo := ⟨calmConfirm, 0, calmIo.move, some ⟨0, 1⟩, some ⟨0, 1⟩⟩

/-- Each attempt fails to write dead letters of its own, and can write those of
a carry of one byte. -/
def pickyAttempt : AttemptIo where
  startedAt := 0
  skipStat := some ⟨0, 1⟩
  carryStat := some ⟨0, 1⟩
  settle :=
    { calmIo.deadLetters 0 with
      first := { (calmIo.deadLetters 0).first with writes := fun _ => .wrote 9 } }
  process := pickyIo

/-- The dead-letter write fails in the first attempt and succeeds in the second. -/
def carriedRun : List Label :=
  [.sealed sampleSegment lostRecord.bytes, .arrive sampleSegment,
    .next 0 none pickyAttempt (.returned calmAfter), .retry pickyAttempt (.returned calmAfter)]

def carriedEnd : Option Thread :=
  (Thread.init sampleConfig 0 0 0 []).run Zstd.plain id sampleConfig (fun _ _ => True) carriedRun

/-- The event keeps to the one file and to the sink's contract. -/
def fairEvent : Event → Bool
  | .sealed _ bytes => decide (bytes = lostRecord.bytes)
  | .act _ (.commit _ batch _ (.ok committed dead)) =>
    decide (committed ++ dead.map (·.1) = batch)
  | _ => true

set_option maxRecDepth 10000 in
theorem carriedRun_reached :
    ∃ s before, Reach Zstd.plain id sampleConfig (fun _ _ => True) s ∧
      s.trace = before ++ [.attempted sampleSegment true (.confirmed 2) true] ∧
      (∀ bytes, .sealed sampleSegment bytes ∈ s.trace → bytes = lostRecord.bytes) ∧
      Partitions s.trace sampleSegment := by
  obtain ⟨s, hs, hend⟩ := Option.map_eq_some_iff.mp (show carriedEnd.map (fun s =>
    (s.trace.getLast?, s.trace.all fairEvent))
      = some (some (.attempted sampleSegment true (.confirmed 2) true), true) by decide +kernel)
  obtain ⟨hlast, hfair⟩ := Prod.mk.inj hend
  rw [all_eq_true] at hfair
  exact ⟨s, _, Reach.run (fun _ _ _ h => h) (.init 0 0 0 []) hs,
    (dropLast_append_getLast? _ hlast).symm, fun bytes h => of_decide_eq_true (hfair _ h),
    fun lo batch ids committed dead h _ => .of_eq (of_decide_eq_true (hfair _ h))⟩

/-- The second record, rejected and carried over, is in a dead-letter segment when
the second attempt confirms. -/
theorem confirmed_keeps_records_carried :
    ∃ s before, Reach Zstd.plain id sampleConfig (fun _ _ => True) s ∧
      s.trace = before ++ [.attempted sampleSegment true (.confirmed 2) true] ∧
      lostRecord.payloads[1]? = some [42] ∧ Kept before sampleSegment 1 [42] := by
  obtain ⟨s, before, hrun, htrace, hfile, hparts⟩ := carriedRun_reached
  exact ⟨s, before, hrun, htrace, rfl,
    confirmed_keeps_records hrun lostRecord hfile hparts htrace 1 [42] rfl⟩

/-! ## From a crash to the sink -/

theorem yields_recordsOf {z : Zstd} {file : Bytes} {ps : List Bytes} (h : Yields z file ps) :
    ps <+: recordsOf z file := by
  obtain ⟨r, rest, hopen, hread⟩ := h
  rw [recordsOf, hopen]
  dsimp only
  rw [hread]
  clear hread
  induction ps with
  | nil => exact nil_prefix
  | cons p ps ih => exact (prefix_cons_inj p).mpr ih

theorem Covered.restrict {rs known : List Bytes} {trace : List Event} {p : Path} {m n : Nat}
    (h : Covered rs trace p m) (hknown : known <+: rs) (hle : n ≤ m) : Covered known trace p n := by
  obtain ⟨rest, rfl⟩ := hknown
  intro i payload hi hpayload
  refine h i payload (by omega) ?_
  rw [getElem?_append_left (List.getElem?_eq_some_iff.mp hpayload).1, hpayload]

/-- An active segment starts with a header and whole records, such as those synced before a crash.
Recovery seals it, and the drain takes up what recovery left, with a sink that keeps its contract.
In every state of every run the records before a resume point are kept, each at its own place, and
all of them are when the segment is confirmed with its sentinel read. -/
theorem crashed_records_kept {z : Zstd} {sha : Sha256} {cfg : DrainConfig} {path q : Path}
    {wabDir : List String} {crashed header tail : Bytes} {m : SegmentHeaderMeta}
    {ss known : List Bytes} {io : RecoverIo} {d d' : Disk Path} {s : Thread}
    (hcrashed : crashed = header ++ encodeRecords ss ++ tail)
    (hp : parseSegmentHeader header = .ok m) (hok : ∀ s ∈ ss, StoredOk m.compression s)
    (hdec : Decodes z m.compression ss known) (hdir : path.dir ≠ quarantineDir wabDir)
    (hd : d.Sound) (hread : d.read path = some crashed)
    (hsealed : (recoverSegment path wabDir crashed io).1 = .ok q)
    (hrun : d.run (recoverSegment path wabDir crashed io).2 = some d')
    (h : Reach z sha cfg (fun _ _ => True) s)
    (hfile : ∀ bytes, .sealed q bytes ∈ s.trace → d'.read q = some bytes)
    (hparts : Partitions s.trace q) :
    (∀ n ∈ s.heldAt q, Covered known s.trace q n) ∧
    (∀ c ∈ (s.ledger.view q).cursor, Covered known s.trace q c.processed) ∧
    ∀ before after present n,
      s.trace = before ++ .attempted q present (.confirmed n) true :: after →
      Covered known before q known.length := by
  obtain ⟨j, hj, rfl⟩ := Option.map_eq_some_iff.mp hread
  obtain ⟨-, left, hleft, hyields⟩ := (recoverSegment_disk hd hj hdir (by
    -- both headers are the first 24 bytes of the file
    rintro header' m' hp' ⟨t, ht⟩
    obtain rfl : header = header' := by
      refine append_inj_left ((append_assoc ..).symm.trans (hcrashed.symm.trans ht)) ?_
      rw [parseSegmentHeader_length hp, parseSegmentHeader_length hp']
    obtain rfl := Except.ok.inj (hp.symm.trans hp')
    exact ⟨ss, tail, hcrashed, hok, hdec⟩) hrun).1 q hsealed
  have hkeeps := h.keeps (fun bytes hb =>
      Option.some.inj ((hfile bytes hb).symm.trans hleft)) hparts
  have hknown := yields_recordsOf hyields
  exact ⟨fun n hn => (hkeeps.held n hn).restrict hknown le_rfl,
    fun c hc => (hkeeps.cursor c hc).restrict hknown le_rfl,
    fun before after present n hconfirmed =>
      (hkeeps.confirmed before after present n hconfirmed).restrict hknown hknown.length_le⟩

set_option maxRecDepth 10000 in
/-- Two records and a torn byte. The second record is dead-lettered an attempt later. -/
theorem crashed_records_kept_carried :
    ∃ (s : Thread) (before : List Event),
      s.trace = before ++ [.attempted sampleSegment true (.confirmed 2) true] ∧
      Kept before sampleSegment 1 [42] := by
  obtain ⟨s, before, hreach, htrace, hfile, hparts⟩ := carriedRun_reached
  obtain ⟨d', hrun, hleft⟩ := Option.map_eq_some_iff.mp (show
    ((Disk.single firstSegment (lostRecord.header ++ encodeRecords lostRecord.stored ++ [9])).run
      (recoverSegment firstSegment ["wab"] (lostRecord.header ++ encodeRecords lostRecord.stored
        ++ [9]) .calm).2).map (·.read sampleSegment)
          = some (some lostRecord.bytes) by decide +kernel)
  refine ⟨s, before, htrace, (crashed_records_kept rfl lostRecord.parses lostRecord.storedOk
    lostRecord.decodes (by decide) (Disk.single_sound _ _)
    (Disk.read_of_lookup (Disk.single_lookup firstSegment _)) (by rfl) hrun hreach
    (fun bytes hb => ?_) hparts).2.2 _ _ _ _ htrace 1 [42] (by decide) rfl⟩
  rw [hleft, hfile bytes hb]

end Weir.Drain

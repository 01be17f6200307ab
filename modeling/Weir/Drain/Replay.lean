import Weir.Drain.Delivery
import Weir.Sink.S3

/-!
# Every attempt makes the same sub-batches

A sub-batch ends after `max_batch_size` records or at the end of what can be
read, and every point an attempt resumes from is such an end: the cursor in the
state and in the ledger, and the end of a carry.

> `processSegment_whole`: a sub-batch is full, or it is the last one.

> `Reports.aligned`: an attempt from the end of a sub-batch starts each of its
> own at a multiple of the size, and leaves its cursor and carry at an end.

> `replay_stable`: over every run, restarts included, the sub-batches of a
> segment are the same ones, so two that share a record are equal.
-/

namespace Weir.Drain

open Weir.Lib Weir.Wab Weir.Sink List

/-! ## Sub-batches are whole -/

/-- The act hands over a full sub-batch of `m` records, or the last one of `n`. -/
def Act.Whole (m n : Nat) : Act → Prop
  | .commit lo batch _ _ => batch.length = m ∨ batch.length < m ∧ lo + batch.length = n
  | _ => True

variable {acts : List Act} {m : Nat}

theorem BatchResult.Explains.whole {lo n : Nat} {batch : List Bytes} {ids : List RecordId}
    {r : BatchResult} (h : r.Explains lo batch ids acts)
    (hb : batch.length = m ∨ batch.length < m ∧ lo + batch.length = n) :
    ∀ a ∈ acts, a.Whole m n := by
  intro a ha
  cases a with
  | deadLettered _ _ _ | counted _ _ => trivial
  | commit lo' batch' ids' reply =>
    have heq : lo' = lo ∧ batch' = batch ∧ ids' = ids := by
      cases r with
      | ok => exact Accepted.commit_eq h ha
      | transient _ _ _ | blocked _ _ | abandoned => exact Refused.commit_eq h ha
    obtain ⟨rfl, rfl, _⟩ := heq
    exact hb

theorem deliver_whole (cfg : DrainConfig) (io : ProcessIo) (st : Progress) {n : Nat}
    (hne : st.batch ≠ []) (hacts : ∀ a ∈ st.acts, a.Whole m n)
    (hb : st.batch.length = m ∨ st.batch.length < m ∧ st.durableThrough + st.batch.length = n) :
    (∀ a ∈ (deliver cfg io st).2.acts, a.Whole m n) ∧
      ((deliver cfg io st).1 = none → (deliver cfg io st).2.batch = []) := by
  have hex := (commitBatch_explains cfg st.durableThrough st.batch st.batchIds
    (io.replies st.batches st.batch) st.deadLetter (io.deadLetters st.batches) hne).whole hb
  have hall : ∀ a ∈ st.acts ++ (commitBatch cfg st.durableThrough st.batch st.batchIds
      (io.replies st.batches st.batch) st.deadLetter (io.deadLetters st.batches)).2.2,
      a.Whole m n := by
    intro a ha
    rcases mem_append.mp ha with ha | ha
    · exact hacts a ha
    · exact hex a ha
  fun_cases deliver cfg io st
  case case1 => exact ⟨hacts, by simp⟩
  case case2 hcommit _ _ _ =>
    rw [hcommit] at hall
    exact ⟨hall, by simp⟩
  case case3 hcommit _ _ _ =>
    rw [hcommit] at hall
    exact ⟨hall, fun _ => rfl⟩

theorem full_length {batch : List Bytes} {payload : Bytes} (hlt : batch.length < m)
    (hfull : m ≤ (batch ++ [payload]).length) : (batch ++ [payload]).length = m := by
  rw [length_append, length_singleton] at hfull ⊢
  omega

/-- The record loop hands over full sub-batches, and leaves less than one behind. -/
theorem processItems_whole {sha : Sha256} {cfg : DrainConfig} {segment : String} {skip : Nat}
    {last : Bool} {io : ProcessIo} {n : Nat} {items : List (Except IoError Bytes)} {st : Progress}
    {out : LoopEnd × Progress} (h : processItems sha cfg segment skip last io items st = out)
    (hlt : st.batch.length < max io.maxBatchSize 1)
    (hacts : ∀ a ∈ st.acts, a.Whole (max io.maxBatchSize 1) n) :
    (∀ a ∈ out.2.acts, a.Whole (max io.maxBatchSize 1) n) ∧
      ∀ q, out.1 = .ended q → out.2.batch.length < max io.maxBatchSize 1 := by
  subst h
  fun_induction processItems sha cfg segment skip last io items st
  case case1 => exact ⟨hacts, fun _ _ => hlt⟩
  case case2 => exact ⟨hacts, fun _ _ => hlt⟩
  case case3 => exact ⟨hacts, fun _ _ => hlt⟩
  case case4 => exact ⟨hacts, by simp⟩
  case case5 ih => exact ih hlt hacts
  case case6 st st₁ _ st' hfull r st'' hd =>
    have hwhole := deliver_whole cfg io st' (by simp [st']) hacts (.inl (full_length hlt hfull))
    rw [hd] at hwhole
    exact ⟨hwhole.1, by simp⟩
  case case7 st st₁ _ st' hfull st'' hd ih =>
    have hwhole := deliver_whole cfg io st' (by simp [st']) hacts (.inl (full_length hlt hfull))
    rw [hd] at hwhole
    refine ih ?_ hwhole.1
    rw [show st''.batch = [] from hwhole.2 rfl, length_nil]
    omega
  case case8 hpart ih => exact ih (Nat.lt_of_not_le hpart) hacts

variable {sha : Sha256} {segment : String} {rs : List Bytes}

/-- The last sub-batch ends with the last record read. -/
theorem finish_whole {cfg : DrainConfig} {p : Path} {file : Bytes} {io : ProcessIo}
    {q : Option String} {skip : Nat} {st : Progress} (h : st.Inv sha segment rs skip)
    (hlt : st.batch.length < m) (hread : st.readIndex = rs.length)
    (hacts : ∀ a ∈ st.acts, a.Whole m rs.length) :
    ∀ a ∈ (finish cfg p file io q st).2.acts, a.Whole m rs.length := by
  have hlast : ∀ {out}, (if st.batch = [] then (none, st) else deliver cfg io st) = out →
      ∀ a ∈ out.2.acts, a.Whole m rs.length := by
    rintro out rfl
    split
    · exact hacts
    next hb =>
      have hle := History.chunk_le h.chunk hb
      have hreach := h.reach
      exact (deliver_whole cfg io st hb hacts (.inr ⟨hlt, by omega⟩)).1
  fun_cases finish cfg p file io q st
  case case1 heq => exact hlast heq
  case case2 heq _ => exact hlast heq
  case case3 heq _ => exact hlast heq
  case case4 heq _ _ _ => exact hlast heq
  case case5 heq _ _ _ => exact hlast heq
  case case6 heq _ _ _ _ => exact hlast heq
  case case7 heq _ _ _ _ => exact hlast heq

/-- An attempt whose reads do not fail hands over whole sub-batches. -/
theorem processSegment_whole (z : Zstd) (sha : Sha256) (cfg : DrainConfig) (p : Path)
    (file : Bytes) (w : DeadLetterWriter) (skip : Nat) (last : Bool) (io : ProcessIo)
    (hfault : ∀ pos, io.fault.err pos = none) :
    ∀ a ∈ (processSegment z sha cfg p file w skip last io).acts,
      a.Whole (max io.maxBatchSize 1) (recordsOf z file).length := by
  have hno : io.fault = noFault := by
    cases hf : io.fault with
    | mk err not_eof =>
      rw [hf] at hfault
      obtain rfl : err = fun _ => none := funext hfault
      rfl
  have hstart : 0 < max io.maxBatchSize 1 := lt_of_lt_of_le Nat.zero_lt_one (le_max_right _ _)
  fun_cases processSegment z sha cfg p file w skip last io
  case case4 hrun => exact (processItems_whole hrun hstart (by simp)).1
  case case5 reader hopen items _ q st hrun _ =>
    have hopen' := openSegment_ok hopen
    have hrecords : okPrefix items = recordsOf z file := by
      rw [hno] at hopen'
      simp only [items, hno, recordsOf, hopen']
    obtain ⟨hwhole, hlt⟩ := processItems_whole hrun hstart (by simp)
    refine finish_whole (loop_reports hopen hrun) (hlt q rfl) ?_ hwhole
    rw [(processItems_end hrun).1, hrecords, zero_add]
  all_goals simp

/-! ## Sub-batches start at multiples -/

/-- Where a sub-batch of `m` records ends: at a multiple of `m`, or at the end of the
`n` records. -/
def Boundary (m n k : Nat) : Prop := m ∣ k ∨ n ≤ k

/-- The act hands over the records from a multiple of `m` to the next one, or to the
end. -/
def Act.Aligned (m : Nat) (rs : List Bytes) : Act → Prop
  | .commit lo batch _ _ => m ∣ lo ∧ batch = (rs.drop lo).take m
  | _ => True

/-- The act is a sub-batch every attempt makes, under the ids of its records. -/
def Act.Stable (sha : Sha256) (segment : String) (m : Nat) (rs : List Bytes) (a : Act) : Prop :=
  a.Aligned m rs ∧ ∀ lo batch ids reply, a = .commit lo batch ids reply →
    Handover sha segment rs lo batch ids

variable {m : Nat}

theorem Boundary.aligned {lo : Nat} {batch : List Bytes} {ids : List RecordId} {reply : CommitReply}
    (h : Boundary m rs.length lo) (hchunk : batch <+: rs.drop lo) (hne : batch ≠ [])
    (hwhole : (Act.commit lo batch ids reply).Whole m rs.length) :
    (Act.commit lo batch ids reply).Aligned m rs ∧ Boundary m rs.length (lo + batch.length) := by
  have hle := History.chunk_le hchunk hne
  have hpos := length_pos_iff.mpr hne
  have hdvd : m ∣ lo := by
    rcases h with h | h
    · exact h
    · omega
  have htake := List.prefix_iff_eq_take.mp hchunk
  rcases hwhole with hfull | ⟨hlt, hend⟩
  · refine ⟨⟨hdvd, by rw [← hfull]; exact htake⟩, .inl ?_⟩
    rw [hfull]
    exact Nat.dvd_add hdvd (Nat.dvd_refl m)
  · refine ⟨⟨hdvd, ?_⟩, .inr (le_of_eq hend.symm)⟩
    -- the last sub-batch is all that is left
    have hall : (rs.drop lo).length = batch.length := by rw [length_drop]; omega
    rw [take_of_length_le (by omega)]
    exact hchunk.eq_of_length hall.symm

theorem Sent.aligned {lo hi : Nat} (h : Sent sha segment rs lo hi acts)
    (hlo : Boundary m rs.length lo) (hwhole : ∀ a ∈ acts, a.Whole m rs.length) :
    (∀ a ∈ acts, a.Aligned m rs) ∧ Boundary m rs.length hi := by
  induction h with
  | nil => exact ⟨by simp, hlo⟩
  | @snoc mid batch acts acts' _ hchunk hne hacc ih =>
    obtain ⟨halign, hmid⟩ := ih fun a ha => hwhole a (mem_append_left _ ha)
    obtain ⟨reply, tail, rfl, _⟩ := hacc.cons
    obtain ⟨hfirst, hend⟩ := hmid.aligned hchunk hne
      (hwhole (.commit mid batch _ reply) (mem_append_right _ mem_cons_self))
    refine ⟨?_, hend⟩
    intro a ha
    rcases mem_append.mp ha with ha | ha
    · exact halign a ha
    cases a with
    | deadLettered _ _ _ | counted _ _ => trivial
    | commit lo' batch' ids' reply' =>
      obtain ⟨rfl, rfl, _⟩ := hacc.commit_eq ha
      exact hfirst

theorem Pends.aligned {mid : Nat} {carry : Option DeadLetterCarry}
    (h : Pends sha segment rs mid carry acts) (hmid : Boundary m rs.length mid)
    (hwhole : ∀ a ∈ acts, a.Whole m rs.length) :
    (∀ a ∈ acts, a.Aligned m rs) ∧ ∀ c ∈ carry, Boundary m rs.length c.through := by
  rcases h with ⟨rfl, rfl⟩ | ⟨batch, hchunk, hne, href⟩
  · exact ⟨by simp, by simp⟩
  obtain ⟨reply, tail, hacts, _, _, _, hcarry⟩ := href.cons
  obtain ⟨hfirst, hend⟩ := hmid.aligned hchunk hne
    (hwhole (.commit mid batch _ reply) (by rw [hacts]; exact mem_cons_self))
  refine ⟨?_, ?_⟩
  · intro a ha
    cases a with
    | deadLettered _ _ _ | counted _ _ => trivial
    | commit lo' batch' ids' reply' =>
      obtain ⟨rfl, rfl, _⟩ := href.commit_eq ha
      exact hfirst
  · intro c hc
    rw [(hcarry c hc).2]
    exact hend

/-- What is left of an attempt: its cursor and its carry end at boundaries. -/
def ProcessResult.Rests (m n : Nat) (r : ProcessResult) : Prop :=
  ∀ k carry, r.progress = some (k, carry) →
    Boundary m n k ∧ ∀ c ∈ carry, Boundary m n c.through

theorem Reports.aligned {skip : Nat} {result : ProcessResult}
    (h : Reports sha segment rs skip result acts) (hskip : Boundary m rs.length skip)
    (hwhole : ∀ a ∈ acts, a.Whole m rs.length) :
    (∀ a ∈ acts, a.Aligned m rs) ∧ result.Rests m rs.length := by
  obtain ⟨mid, sent, rest, rfl, hsent, hends⟩ := h
  obtain ⟨halign, hmid⟩ := hsent.aligned hskip fun a ha => hwhole a (mem_append_left _ ha)
  have hrest : ∀ a ∈ rest, a.Whole m rs.length := fun a ha =>
    hwhole a (mem_append_right _ ha)
  refine ⟨?_, ?_⟩
  · intro a ha
    rcases mem_append.mp ha with ha | ha
    · exact halign a ha
    · obtain ⟨carry, hpends⟩ := hends.pends
      exact (hpends.aligned hmid hrest).1 a ha
  · intro k carry hprog
    obtain ⟨rfl, hpends⟩ := hends.progress hprog
    exact ⟨hmid, (hpends.aligned hmid hrest).2⟩

theorem Boundary.max {n k k' : Nat} (h : Boundary m n k) (h' : Boundary m n k') :
    Boundary m n (max k k') := by
  rcases Nat.le_total k k' with hle | hle
  · rwa [max_eq_right hle]
  · rwa [max_eq_left hle]

/-- An attempt whose resume point and carry end at boundaries. -/
theorem Did.aligned {v : View} {skip : Nat} {io : AttemptIo} {result : ProcessResult}
    (h : Did sha segment rs v skip io result acts) (hskip : Boundary m rs.length skip)
    (hcarry : ∀ c ∈ v.carry, Boundary m rs.length c.carry.through)
    (hwhole : ∀ a ∈ acts, a.Whole m rs.length) :
    (∀ a ∈ acts, a.Aligned m rs) ∧ result.Rests m rs.length := by
  cases h with
  | plain _ hr => exact hr.aligned hskip hwhole
  | @settled carry id ops acts hpinned _ _ hr =>
    have hthrough := hcarry _ hpinned
    obtain ⟨halign, hrests⟩ := hr.aligned (hthrough.max hskip) fun a ha => hwhole a (by simp [ha])
    refine ⟨?_, hrests⟩
    intro a ha
    simp only [mem_cons] at ha
    rcases ha with rfl | rfl | rfl | ha
    · trivial
    · trivial
    · trivial
    · exact halign a ha
  | owing hpinned _ hres =>
    refine ⟨by simp, fun k carry' hprog => ?_⟩
    cases hres.symm.trans hprog
    refine ⟨hskip, ?_⟩
    rintro c hc
    rw [← Option.some.inj hc]
    exact hcarry _ hpinned

/-- The acts an attempt makes before it looks at the segment hand nothing over. -/
theorem attemptSegment_whole (z : Zstd) (sha : Sha256) (cfg : DrainConfig) (p : Path)
    (file : Bytes) (w : DeadLetterWriter) (l : SegmentLedger) (skip : Nat) (io : AttemptIo)
    (hfault : ∀ pos, io.process.fault.err pos = none) :
    ∀ a ∈ (attemptSegment z sha cfg p file w l skip io).acts,
      a.Whole (max io.process.maxBatchSize 1) (recordsOf z file).length := by
  rcases attemptSegment_cases z sha cfg p file w l skip io with
    ⟨_, hacts, _⟩ | ⟨skip', w', settled, hsettled, _, hacts, _⟩
  · simp [hacts]
  intro a ha
  rw [hacts] at ha
  rcases mem_append.mp ha with ha | ha
  · rcases hsettled with rfl | ⟨carry, ops, rfl⟩
    · cases ha
    · simp only [mem_cons, not_mem_nil, or_false] at ha
      rcases ha with rfl | rfl | rfl <;> trivial
  · exact processSegment_whole z sha cfg p file w' skip' _ io.process hfault a ha

/-! ## Over every run -/

/-- Lives of the daemon, one after another: the files and what happened stay, the
thread's variables and the ledger do not. -/
inductive Lives (z : Zstd) (sha : Sha256) (allowed : Thread → Label → Prop) :
    DrainConfig → Thread → Prop
  | boot (cfg : DrainConfig) (now totalBytes maxCounter : Nat) (backlog : List Path) :
      Lives z sha allowed cfg (Thread.init cfg now totalBytes maxCounter backlog)
  | step {cfg : DrainConfig} {s s' : Thread} {l : Label} (h : Lives z sha allowed cfg s)
      (hl : allowed s l) (hs : s.step z sha cfg l = some s') : Lives z sha allowed cfg s'
  | restart {cfg : DrainConfig} {s : Thread} (h : Lives z sha allowed cfg s) (cfg' : DrainConfig)
      (now totalBytes maxCounter : Nat) (backlog : List Path) :
      Lives z sha allowed cfg'
        { Thread.init cfg' now totalBytes maxCounter backlog with
          files := s.files
          trace := s.trace }

/-- The sink's batch size is `size`, and no read fails. -/
def Label.Constant (size : Nat) : Label → Prop
  | .next _ _ io _ | .retry io _ =>
    io.process.maxBatchSize = size ∧ ∀ pos, io.process.fault.err pos = none
  | _ => True

/-- The segment at `p` is `file`, the batch size is `size` whenever it is attempted, and
no read of it fails. -/
def Constant (p : Path) (file : Bytes) (size : Nat) (s : Thread) (l : Label) : Prop :=
  (s.subject l = some p → l.Constant size) ∧ ∀ other, l = .sealed p other → other = file

/-- Every point the segment at `p` may be resumed from is a boundary, and what was handed
over starts and ends at boundaries. -/
structure Aligns (sha : Sha256) (p : Path) (file : Bytes) (m : Nat) (rs : List Bytes)
    (s : Thread) : Prop where
  file : ∀ other ∈ s.files p, other = file
  held : ∀ k ∈ s.heldAt p, Boundary m rs.length k
  cursor : ∀ c ∈ (s.ledger.view p).cursor, Boundary m rs.length c.processed
  carry : ∀ c ∈ (s.ledger.view p).carry, Boundary m rs.length c.carry.through
  acts : ∀ a, .act p a ∈ s.trace → a.Stable sha (segmentIdentity p) m rs

section

variable {z : Zstd} {cfg : DrainConfig} {p : Path} {file : Bytes} {size : Nat}
  {s : Thread} {l : Label} {skip : Nat} {io : AttemptIo}

/-- What it says of the resume points. -/
theorem Aligns.points (h : Aligns sha p file m rs s) :
    Points (Boundary m rs.length) (fun c => Boundary m rs.length c.through) p s :=
  ⟨h.held, h.cursor, h.carry⟩

theorem Aligns.idle {s' : Thread} (h : Aligns sha p file m rs s)
    (hi : Idle p l s s') (hl : Constant p file size s l) : Aligns sha p file m rs s' := by
  have hpoints := h.points.idle hi
  refine ⟨?_, hpoints.held, hpoints.cursor, hpoints.carry, ?_⟩
  · intro other hother
    rcases hi.file with hf | hf | ⟨file', hlabel, _, hf⟩
    · rw [hf] at hother
      exact h.file other hother
    · rw [hf] at hother
      cases hother
    · rw [hf] at hother
      rw [← Option.some.inj hother]
      exact hl.2 file' hlabel
  · intro a ha
    obtain ⟨events, htrace, hevents⟩ := hi.trace
    rw [htrace] at ha
    rcases mem_append.mp ha with ha | ha
    · exact h.acts a ha
    · exact absurd rfl (hevents _ ha)

theorem Starts.constant {s₁ : Thread}
    {ending : Ending} (hs : Starts p l s s₁ skip io ending) (hl : Constant p file size s l) :
    io.process.maxBatchSize = size ∧ ∀ pos, io.process.fault.err pos = none := by
  have hconst := hl.1 hs.subject
  rcases hs.resumes with ⟨rfl, _⟩ | ⟨now, stat, rfl, _⟩
  · exact hconst
  · exact hconst

/-- What an attempt does, whether the segment is still there or not. -/
theorem attemptSegment_aligned {content : Option Bytes} (hcontent : ∀ c ∈ content, c = file)
    {w : DeadLetterWriter} {l : SegmentLedger}
    (hfault : ∀ pos, io.process.fault.err pos = none)
    (hskip : Boundary (max io.process.maxBatchSize 1) (recordsOf z file).length skip)
    (hcarry : ∀ c ∈ (l.view p).carry,
      Boundary (max io.process.maxBatchSize 1) (recordsOf z file).length c.carry.through)
    {out : Attempted} (hout : attemptSegment z sha cfg p (content.getD []) w l skip io = out) :
    (∀ a ∈ out.acts,
      a.Stable sha (segmentIdentity p) (max io.process.maxBatchSize 1) (recordsOf z file)) ∧
    out.result.Rests (max io.process.maxBatchSize 1) (recordsOf z file).length := by
  subst hout
  obtain ⟨skip', cursor, hre, _, hdid⟩ := attemptSegment_explains z sha cfg p
    (content.getD []) w l skip io
  have hwhole := attemptSegment_whole z sha cfg p (content.getD []) w l skip io hfault
  have hrecords : recordsOf z (content.getD []) <+: recordsOf z file := by
    cases content with
    | none => rw [Option.getD_none, recordsOf_nil]; exact nil_prefix
    | some c => rw [Option.getD_some, hcontent c rfl]
  have hwhole' : ∀ a ∈ (attemptSegment z sha cfg p (content.getD []) w l skip io).acts,
      a.Whole (max io.process.maxBatchSize 1) (recordsOf z file).length := by
    cases content with
    | some c =>
      rw [Option.getD_some, hcontent c rfl] at hwhole ⊢
      exact hwhole
    | none =>
      -- nothing is handed over of a segment that is gone
      intro a ha
      cases a with
      | deadLettered _ _ _ | counted _ _ => trivial
      | commit lo batch ids reply =>
        have hover := hdid.handover ha
        have hchunk := hover.chunk
        rw [Option.getD_none, recordsOf_nil, drop_nil] at hchunk
        exact absurd (prefix_nil.mp hchunk) hover.ne_nil
  have hdid' := hdid.mono hrecords
  have hskip' : Boundary (max io.process.maxBatchSize 1) (recordsOf z file).length skip' := by
    rcases hre with ⟨rfl, _⟩ | ⟨_, rfl, _⟩
    · exact hskip
    · exact .inl (Nat.dvd_zero _)
  obtain ⟨halign, hrests⟩ := hdid'.aligned hskip' hcarry hwhole'
  refine ⟨fun a ha => ⟨halign a ha, ?_⟩, hrests⟩
  rintro lo batch ids reply rfl
  exact hdid'.handover ha

theorem Aligns.step {s' : Thread}
    (h : Aligns sha p file (max size 1) (recordsOf z file) s) (hl : Constant p file size s l)
    (hs : s.step z sha cfg l = some s') : Aligns sha p file (max size 1) (recordsOf z file) s' := by
  rcases Thread.step_cases z sha cfg hs p with
    hidle | @⟨s₁, skip, io, ending, out, skip', cursor, hst, hout, hre, hview, _, hends⟩
  · exact h.idle hidle hl
  obtain ⟨rfl, hfault⟩ := hst.constant hl
  obtain ⟨hskip, _, hcarry⟩ := h.points.starts (.inl (Nat.dvd_zero _)) hst
  obtain ⟨hacts, hrests⟩ := attemptSegment_aligned h.file hfault hskip hcarry hout
  have hpoints := h.points.ends (.inl (Nat.dvd_zero _)) hst hre hview hends fun _ _ => hrests
  cases hends with
  | panicked htrace hfiles _ _ =>
    refine ⟨by rw [hfiles]; exact h.file, hpoints.held, hpoints.cursor, hpoints.carry, ?_⟩
    intro a ha
    rw [htrace] at ha
    simp only [mem_append, mem_map, mem_singleton, reduceCtorEq, or_false] at ha
    rcases ha with ha | ⟨a', ha, heq⟩
    · exact h.acts a ha
    · obtain ⟨_, rfl⟩ := Event.act.inj heq
      exact hacts _ (mem_of_mem_take ha)
  | returned htrace hfiles hleaves =>
    refine ⟨?_, hpoints.held, hpoints.cursor, hpoints.carry, ?_⟩
    · rcases hfiles with hf | hf
      · rw [hf]; exact h.file
      · rw [hf]; simp
    · intro a ha
      rw [htrace] at ha
      simp only [mem_append, mem_map, mem_cons, reduceCtorEq, false_or] at ha
      rcases ha with (ha | ⟨a', ha, heq⟩) | ha
      · exact h.acts a ha
      · obtain ⟨_, rfl⟩ := Event.act.inj heq
        exact hacts _ ha
      · exact absurd (hleaves.events _ ha) (by simp)

theorem Lives.aligns (h : Lives z sha (Constant p file size) cfg s) :
    Aligns sha p file (max size 1) (recordsOf z file) s := by
  have hfresh : ∀ (cfg : DrainConfig) (now totalBytes maxCounter : Nat) (backlog : List Path),
      (Thread.init cfg now totalBytes maxCounter backlog).heldAt p = none ∧
      ((Thread.init cfg now totalBytes maxCounter backlog).ledger.view p).cursor = none ∧
      ((Thread.init cfg now totalBytes maxCounter backlog).ledger.view p).carry = none :=
    fun _ _ _ _ _ => ⟨rfl, rfl, rfl⟩
  induction h with
  | boot cfg now totalBytes maxCounter backlog =>
    obtain ⟨hheld, hcur, hcar⟩ := hfresh cfg now totalBytes maxCounter backlog
    exact ⟨by simp [Thread.init], by rw [hheld]; simp, by rw [hcur]; simp, by rw [hcar]; simp,
      by simp [Thread.init]⟩
  | step _ hl hs ih => exact ih.step hl hs
  | restart _ cfg' now totalBytes maxCounter backlog ih =>
    obtain ⟨hheld, hcur, hcar⟩ := hfresh cfg' now totalBytes maxCounter backlog
    refine ⟨ih.file, ?_, ?_, ?_, ih.acts⟩
    · show ∀ k ∈ (Thread.init cfg' now totalBytes maxCounter backlog).heldAt p, _
      rw [hheld]
      simp
    · dsimp only
      rw [hcur]
      simp
    · dsimp only
      rw [hcar]
      simp

/-- Every list handed to the sink for a segment is one of the same sub-batches, over
attempts and restarts, and two that share a record are one: its token, its ids and the
name of its object are the same. A size of zero counts as one. -/
theorem replay_stable {s : Thread} (h : Lives z sha (Constant p file size) cfg s)
    {lo : Nat} {batch : List Bytes} {ids : List RecordId} {reply : CommitReply}
    (hact : .act p (.commit lo batch ids reply) ∈ s.trace) :
    (∃ k, lo = k * max size 1 ∧ batch = (recordsOf z file).extract (k * max size 1)
        (min ((k + 1) * max size 1) (recordsOf z file).length) ∧
      batch ≠ [] ∧ ids = idsFrom sha (segmentIdentity p) lo batch) ∧
    ∀ lo' batch' ids' reply' i, .act p (.commit lo' batch' ids' reply') ∈ s.trace →
      lo ≤ i → i < lo + batch.length → lo' ≤ i → i < lo' + batch'.length →
      lo' = lo ∧ batch' = batch ∧ ids' = ids ∧
      DedupToken.forPayloads sha batch' = DedupToken.forPayloads sha batch ∧
      ∀ (sink : S3Sink) createdAt hlen hlen',
        sink.key (handed sha createdAt batch' ids' hlen')
          = sink.key (handed sha createdAt batch ids hlen) := by
  obtain ⟨⟨⟨k, hk⟩, htake⟩, hover⟩ := h.aligns.acts _ hact
  have hover := hover _ _ _ _ rfl
  refine ⟨⟨k, by rw [hk, mul_comm], ?_, hover.ne_nil, hover.ids⟩, ?_⟩
  · rw [extract_eq_take_drop, mul_comm k, ← hk, htake, Nat.succ_mul, mul_comm k, ← hk,
      ← Nat.sub_min_sub_right, Nat.add_sub_cancel_left, ← length_drop, take_eq_take_min]
  intro lo' batch' ids' reply' i hact' hlo hhi hlo' hhi'
  obtain ⟨⟨⟨k', hk'⟩, htake'⟩, hover'⟩ := h.aligns.acts _ hact'
  have hover' := hover' _ _ _ _ rfl
  have hlen : batch.length ≤ max size 1 := by rw [htake]; exact length_take_le _ _
  have hlen' : batch'.length ≤ max size 1 := by rw [htake']; exact length_take_le _ _
  -- the record lies between the same two multiples
  have hquot : ∀ {lo k len : Nat}, lo = max size 1 * k → len ≤ max size 1 → lo ≤ i →
      i < lo + len → i / max size 1 = k := by
    intro lo k len hlo hlen hle hlt
    rw [hlo] at hle hlt
    refine Nat.div_eq_of_lt_le (by rwa [mul_comm]) ?_
    rw [Nat.succ_mul, mul_comm k]
    omega
  obtain rfl : k' = k := (hquot hk' hlen' hlo' hhi').symm.trans (hquot hk hlen hlo hhi)
  obtain rfl : lo' = lo := hk'.trans hk.symm
  obtain rfl : batch' = batch := htake'.trans htake.symm
  obtain rfl : ids' = ids := hover'.ids.trans hover.ids.symm
  exact ⟨rfl, rfl, rfl, rfl, fun _ _ _ _ => rfl⟩

end

/-! ### A sub-batch sent again after a restart -/

/-- The daemon dies behind the first sub-batch. -/
def cutShort : List Label :=
  [.sealed sampleSegment lostRecord.bytes, .arrive sampleSegment,
    .next 0 none (sizedAttempt 1) (.panicked 1 .stopped)]

/-- The next life finds the segment again. -/
def sentAgain : List Label := [.next 0 none (sizedAttempt 1) (.returned calmAfter)]

def replayed : Option Thread :=
  ((Thread.init sampleConfig 0 0 0 []).run Zstd.plain id sampleConfig (fun _ _ => True)
    cutShort).bind fun s =>
      Thread.run Zstd.plain id sampleConfig (fun _ _ => True)
        { Thread.init sampleConfig 0 0 0 [sampleSegment] with
          files := s.files
          trace := s.trace } sentAgain

theorem cutShort_constant : ∀ l ∈ cutShort ++ sentAgain, ∀ s,
    Constant sampleSegment lostRecord.bytes 1 s l := by
  simp [cutShort, sentAgain, Constant, Label.Constant, sizedAttempt, calmIo, noFault]

/-- The event hands over one record, from the first one. -/
def startsOver : Event → Bool
  | .act _ (.commit 0 [_] _ _) => true
  | _ => false

theorem Lives.run {z : Zstd} {sha : Sha256} {allowed : Thread → Label → Prop} {cfg : DrainConfig}
    {ls : List Label} {s s' : Thread} (hallowed : ∀ l ∈ ls, ∀ s, allowed s l)
    (hs : Lives z sha allowed cfg s) (h : s.run z sha cfg (fun _ _ => True) ls = some s') :
    Lives z sha allowed cfg s' :=
  Thread.run_keeps (fun l hl s _ hr _ hstep => hr.step (hallowed l hl s) hstep) hs h

set_option maxRecDepth 10000 in
theorem replay_stable_restart :
    ∃ s, Lives Zstd.plain id (Constant sampleSegment lostRecord.bytes 1) sampleConfig s ∧
      s.trace.countP startsOver = 2 ∧
      ∃ batch ids reply, .act sampleSegment (.commit 0 batch ids reply) ∈ s.trace ∧
        ∃ k, 0 = k * max 1 1 ∧ batch = (recordsOf Zstd.plain lostRecord.bytes).extract
          (k * max 1 1) (min ((k + 1) * max 1 1) (recordsOf Zstd.plain lostRecord.bytes).length) ∧
          batch ≠ [] ∧ ids = idsFrom id (segmentIdentity sampleSegment) 0 batch := by
  obtain ⟨s, hs, hend⟩ := Option.map_eq_some_iff.mp (show replayed.map (fun s =>
    (s.trace.countP startsOver,
      decide (.act sampleSegment (.commit 0 [[1, 0, 0, 0, 0, 0, 0, 0] ++ replicate 24 7]
        (idsFrom id (segmentIdentity sampleSegment) 0 [[1, 0, 0, 0, 0, 0, 0, 0] ++ replicate 24 7])
        (.ok [[1, 0, 0, 0, 0, 0, 0, 0] ++ replicate 24 7] [])) ∈ s.trace)))
      = some (2, true) by decide +kernel)
  obtain ⟨hcount, hmem⟩ := Prod.mk.inj hend
  rw [decide_eq_true_eq] at hmem
  obtain ⟨s₁, hfirst, hsecond⟩ := Option.bind_eq_some_iff.mp hs
  have hlives := ((Lives.boot sampleConfig 0 0 0 []).run
    (fun l hl => cutShort_constant l (mem_append_left _ hl)) hfirst).restart sampleConfig 0 0 0
      [sampleSegment] |>.run (fun l hl => cutShort_constant l (mem_append_right _ hl)) hsecond
  exact ⟨s, hlives, hcount, _, _, _, hmem, (replay_stable hlives hmem).1⟩

end Weir.Drain

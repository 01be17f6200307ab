import Weir.Drain.Attempt

/-!
# Histories of one segment

A `History` is what the sink and the dead-letter directory may see of one
segment: sub-batches one behind the other, each settled before the next one is
handed over. Its cursor and the carry it owes say where the next attempt starts.

> `History.not_again`, `History.apart`: no sub-batch the sink accounted for is
> handed over again, and no two dead-letter writes are of one sub-batch.
> `History.counts`: the counters stand at the cursor.
> `History.did`: an attempt from where a history ends goes on with it.
-/

namespace Weir.Drain

open Weir.Lib Weir.Wab List

/-- The acts on one segment with the records `rs`, up to the cursor and with the
carry given. -/
inductive History (rs : List Bytes) : Nat → Option DeadLetterCarry → List Act → Prop
  | nil : History rs 0 none []
  | accepted {n : Nat} {acts new : List Act} {batch : List Bytes} {ids : List RecordId}
      (h : History rs n none acts) (hchunk : batch <+: rs.drop n) (hne : batch ≠ [])
      (hacc : Accepted n batch ids new) : History rs (n + batch.length) none (acts ++ new)
  | refused {n : Nat} {acts new : List Act} {batch : List Bytes} {ids : List RecordId}
      {carry : Option DeadLetterCarry} (h : History rs n none acts) (hchunk : batch <+: rs.drop n)
      (hne : batch ≠ []) (href : Refused n batch ids carry new) :
      History rs n carry (acts ++ new)
  | settled {n : Nat} {acts : List Act} {carry : DeadLetterCarry} (ops : List (Op Path))
      (h : History rs n (some carry) acts) :
      History rs carry.through none
        (acts ++ [.deadLettered carry.through carry.payloads ops,
          .counted .deadLettered carry.payloads.length, .counted .committed carry.committed])

/-- What an act adds to the counters of delivered records. -/
def Act.counts : Act → Nat
  | .counted .committed n | .counted .deadLettered n => n
  | _ => 0

/-- `a'` does not hand over a sub-batch again that the sink accounted for in `a`. -/
def Act.NotAgain : Act → Act → Prop
  | .commit lo batch _ reply, .commit lo' _ _ _ => reply.Accounts batch → lo + batch.length ≤ lo'
  | _, _ => True

/-- `records` are what the sub-batch from `lo` up to `through`, handed over among
`acts`, left to dead-letter. -/
def RejectsOf (acts : List Act) (lo through : Nat) (records : List Bytes) : Prop :=
  ∃ batch ids reply committed, .commit lo batch ids reply ∈ acts ∧
    Owes batch reply records committed ∧ through = lo + batch.length

/-- The dead letters of `a'` are of a sub-batch behind the one whose dead letters
`a` wrote. -/
def Act.Apart (acts : List Act) : Act → Act → Prop
  | .deadLettered through records _, .deadLettered through' records' _ =>
    ∃ lo lo', RejectsOf acts lo through records ∧ RejectsOf acts lo' through' records' ∧
      through ≤ lo'
  | _, _ => True

variable {lo lo' : Nat} {batch batch' : List Bytes} {ids ids' : List RecordId}
  {reply : CommitReply} {carry : Option DeadLetterCarry} {acts : List Act}

namespace Accepted

theorem counts (h : Accepted lo batch ids acts) : (acts.map Act.counts).sum = batch.length := by
  cases h with
  | committed hlen => simp [Act.counts, hlen]
  | deadLettered howes _ htail =>
    have := howes.length
    rcases htail with rfl | ⟨rfl, rfl⟩
    · simp [Act.counts]; omega
    · simp [Act.counts]; omega

/-- It starts with its one hand-over. -/
theorem cons (h : Accepted lo batch ids acts) :
    ∃ reply tail, acts = .commit lo batch ids reply :: tail ∧
      (∀ lo' batch' ids' reply', .commit lo' batch' ids' reply' ∉ tail) ∧
      ∀ through records ops, .deadLettered through records ops ∈ tail →
        through = lo + batch.length ∧ ∃ committed, Owes batch reply records committed := by
  cases h with
  | committed hlen => exact ⟨_, _, rfl, by simp, by simp⟩
  | @deadLettered reply payloads committed ops tail howes _ htail =>
    refine ⟨_, _, rfl, ?_, ?_⟩
    · rcases htail with rfl | ⟨_, rfl⟩ <;> simp
    intro through records ops hmem
    have hmem : through = lo + batch.length ∧ records = payloads := by
      rcases htail with rfl | ⟨_, rfl⟩ <;>
      · simp at hmem; exact ⟨hmem.1, hmem.2.1⟩
    obtain ⟨rfl, rfl⟩ := hmem
    exact ⟨rfl, _, howes⟩

theorem commit_eq (h : Accepted lo batch ids acts)
    (hmem : .commit lo' batch' ids' reply ∈ acts) : lo' = lo ∧ batch' = batch ∧ ids' = ids := by
  obtain ⟨reply', tail, rfl, hno, _⟩ := h.cons
  rcases mem_cons.mp hmem with heq | hmem
  · cases heq; exact ⟨rfl, rfl, rfl⟩
  · exact absurd hmem (hno _ _ _ _)

end Accepted

namespace Refused

theorem counts (h : Refused lo batch ids carry acts) : (acts.map Act.counts).sum = 0 := by
  cases h with
  | owed _ => simp [Act.counts]
  | @again _ tail _ htail =>
    have : ∀ n ∈ tail.map Act.counts, n = 0 := by
      intro n hn
      obtain ⟨a, ha, rfl⟩ := mem_map.mp hn
      rw [htail a ha]
      rfl
    simp only [map_cons, sum_cons, Act.counts, zero_add]
    rw [eq_replicate_of_mem this]
    simp

theorem cons (h : Refused lo batch ids carry acts) :
    ∃ reply tail, acts = .commit lo batch ids reply :: tail ∧
      (∀ lo' batch' ids' reply', .commit lo' batch' ids' reply' ∉ tail) ∧
      (∀ through records ops, .deadLettered through records ops ∉ tail) ∧
      (carry = none → ¬reply.Accounts batch) ∧
      ∀ c, carry = some c → Owes batch reply c.payloads c.committed ∧
        c.through = lo + batch.length := by
  cases h with
  | owed howes =>
    refine ⟨_, _, rfl, by simp, by simp, by simp, ?_⟩
    rintro c hc
    rw [← Option.some.inj hc]
    exact ⟨howes, rfl⟩
  | again hreply htail =>
    refine ⟨_, _, rfl, ?_, ?_, fun _ => hreply, by simp⟩
    · intro lo' batch' ids' reply' hmem
      exact absurd (htail _ hmem) (by simp)
    · intro through records ops hmem
      exact absurd (htail _ hmem) (by simp)

theorem commit_eq (h : Refused lo batch ids carry acts)
    (hmem : .commit lo' batch' ids' reply ∈ acts) : lo' = lo ∧ batch' = batch ∧ ids' = ids := by
  obtain ⟨reply', tail, rfl, hno, _⟩ := h.cons
  rcases mem_cons.mp hmem with heq | hmem
  · cases heq; exact ⟨rfl, rfl, rfl⟩
  · exact absurd hmem (hno _ _ _ _)

end Refused

namespace History

variable {rs : List Bytes} {n : Nat}

/-- The end of the sub-batch that is settled or owed last. -/
def reach (n : Nat) : Option DeadLetterCarry → Nat
  | none => n
  | some c => c.through

theorem chunk_le (hchunk : batch <+: rs.drop n) (hne : batch ≠ []) :
    n + batch.length ≤ rs.length := by
  have hlen := hchunk.length_le
  have hpos := length_pos_iff.mpr hne
  rw [length_drop] at hlen
  omega

variable {acts' new : List Act} {through : Nat} {records : List Bytes} {result : ProcessResult}
  {sha : Sha256} {segment : String}

theorem rejectsOf_mono (hsub : acts ⊆ acts') (h : RejectsOf acts lo through records) :
    RejectsOf acts' lo through records := by
  obtain ⟨batch, ids, reply, committed, hmem, h⟩ := h
  exact ⟨batch, ids, reply, committed, hsub hmem, h⟩

theorem apart_mono (hsub : acts ⊆ acts') (a a' : Act)
    (h : Act.Apart acts a a') : Act.Apart acts' a a' := by
  cases a <;> cases a' <;> try trivial
  obtain ⟨lo, lo', h1, h2, hle⟩ := h
  exact ⟨lo, lo', rejectsOf_mono hsub h1, rejectsOf_mono hsub h2, hle⟩

section

variable (h : History rs n carry acts)

include h

/-- The carry is what the sub-batch behind the cursor owes. -/
theorem owes : ∀ c ∈ carry, ∃ batch ids reply,
    .commit n batch ids reply ∈ acts ∧ Owes batch reply c.payloads c.committed ∧
    batch <+: rs.drop n ∧ batch ≠ [] ∧ c.through = n + batch.length := by
  intro c hc
  cases h with
  | nil => cases hc
  | accepted => cases hc
  | settled => cases hc
  | refused h hchunk hne href =>
    obtain ⟨reply, tail, rfl, _, _, _, howes⟩ := href.cons
    exact ⟨_, _, reply, mem_append_right _ mem_cons_self, (howes c hc).1, hchunk, hne,
      (howes c hc).2⟩

theorem le_reach : n ≤ reach n carry := by
  cases carry with
  | none => exact le_rfl
  | some c =>
    obtain ⟨batch, _, _, _, _, _, _, hthrough⟩ := h.owes c rfl
    show n ≤ c.through
    omega

theorem le_length : n ≤ rs.length := by
  induction h with
  | nil => exact Nat.zero_le _
  | accepted _ hchunk hne _ _ => exact chunk_le hchunk hne
  | refused _ _ _ _ ih => exact ih
  | settled _ h _ =>
    obtain ⟨batch, _, _, _, _, hchunk, hne, hthrough⟩ := h.owes _ rfl
    rw [hthrough]
    exact chunk_le hchunk hne

/-- The counters stand at the cursor. -/
theorem counts : (acts.map Act.counts).sum = n := by
  induction h with
  | nil => rfl
  | accepted _ _ _ hacc ih => rw [map_append, sum_append, ih, hacc.counts]
  | refused _ _ _ href ih => rw [map_append, sum_append, ih, href.counts, add_zero]
  | settled _ h ih =>
    obtain ⟨batch, _, _, _, howes, _, _, hthrough⟩ := h.owes _ rfl
    have := howes.length
    simp [Act.counts]
    omega

/-- A sub-batch the sink accounted for ends before the next one starts. -/
theorem accounted_le :
    ∀ lo batch ids reply, .commit lo batch ids reply ∈ acts → reply.Accounts batch →
      lo + batch.length ≤ reach n carry := by
  induction h with
  | nil => intro lo batch ids reply hmem; cases hmem
  | accepted _ _ _ hacc ih =>
    intro lo batch ids reply hmem hok
    rcases mem_append.mp hmem with hmem | hmem
    · exact le_trans (ih lo batch ids reply hmem hok) (Nat.le_add_right _ _)
    · obtain ⟨rfl, rfl, rfl⟩ := hacc.commit_eq hmem
      exact le_rfl
  | @refused n acts new batch' ids' carry h hchunk hne href ih =>
    intro lo batch ids reply hmem hok
    have hall := (History.refused h hchunk hne href).le_reach
    obtain ⟨reply', tail, rfl, hno, _, hnone, hsome⟩ := href.cons
    rcases mem_append.mp hmem with hmem | hmem
    · exact le_trans (ih lo batch ids reply hmem hok) hall
    rcases mem_cons.mp hmem with heq | hmem
    · cases heq
      cases carry with
      | none => exact absurd hok (hnone rfl)
      | some c => exact le_of_eq (hsome c rfl).2.symm
    · exact absurd hmem (hno _ _ _ _)
  | settled _ h ih =>
    intro lo batch ids reply hmem hok
    rcases mem_append.mp hmem with hmem | hmem
    · exact ih lo batch ids reply hmem hok
    · exact absurd hmem (by simp)

/-- What was dead-lettered are rejects of a sub-batch before the cursor. -/
theorem deadLettered_le :
    ∀ through records ops, .deadLettered through records ops ∈ acts →
      through ≤ n ∧ ∃ lo, RejectsOf acts lo through records := by
  induction h with
  | nil => intro through records ops hmem; cases hmem
  | accepted _ _ _ hacc ih =>
    intro through records ops hmem
    obtain ⟨reply', tail, rfl, _, hdl⟩ := hacc.cons
    rcases mem_append.mp hmem with hmem | hmem
    · obtain ⟨hle, lo, hof⟩ := ih through records ops hmem
      exact ⟨le_trans hle (Nat.le_add_right _ _), lo,
        rejectsOf_mono (subset_append_left _ _) hof⟩
    · rcases mem_cons.mp hmem with heq | hmem
      · cases heq
      · obtain ⟨hthrough, committed, howes⟩ := hdl through records ops hmem
        exact ⟨le_of_eq hthrough, _, _, _, reply', committed,
          mem_append_right _ mem_cons_self, howes, hthrough⟩
  | refused _ _ _ href ih =>
    intro through records ops hmem
    obtain ⟨reply', tail, rfl, _, hno, _⟩ := href.cons
    rcases mem_append.mp hmem with hmem | hmem
    · obtain ⟨hle, lo, hof⟩ := ih through records ops hmem
      exact ⟨hle, lo, rejectsOf_mono (subset_append_left _ _) hof⟩
    · rcases mem_cons.mp hmem with heq | hmem
      · cases heq
      · exact absurd hmem (hno _ _ _)
  | settled _ h ih =>
    intro through records ops hmem
    rcases mem_append.mp hmem with hmem | hmem
    · obtain ⟨hle, lo, hof⟩ := ih through records ops hmem
      exact ⟨le_trans hle h.le_reach, lo, rejectsOf_mono (subset_append_left _ _) hof⟩
    simp only [mem_cons, Act.deadLettered.injEq, reduceCtorEq, not_mem_nil, or_false]
      at hmem
    obtain ⟨batch, ids, reply, hcommit, howes, _, _, hthrough⟩ := h.owes _ rfl
    obtain ⟨rfl, rfl, _⟩ := hmem
    exact ⟨le_rfl, _, batch, ids, reply, _, mem_append_left _ hcommit, howes,
      hthrough⟩

/-- No record of a sub-batch the sink accounted for is handed over again. -/
theorem not_again : acts.Pairwise Act.NotAgain := by
  have hcons : ∀ {lo : Nat} {batch : List Bytes} {ids : List RecordId} {reply : CommitReply}
      {acts tail : List Act}, (∀ a ∈ acts, a.NotAgain (.commit lo batch ids reply)) →
      acts.Pairwise Act.NotAgain →
      (∀ lo' batch' ids' reply', .commit lo' batch' ids' reply' ∉ tail) →
      (acts ++ .commit lo batch ids reply :: tail).Pairwise Act.NotAgain := by
    intro lo batch ids reply acts tail hlast hacts hno
    have hafter : ∀ a, ∀ a' ∈ tail, Act.NotAgain a a' := by
      intro a a' ha'
      cases a' with
      | commit lo' batch' ids' reply' => exact absurd ha' (hno _ _ _ _)
      | deadLettered _ _ _ | counted _ _ => cases a <;> trivial
    refine List.pairwise_append.mpr ⟨hacts, List.pairwise_cons.mpr ⟨hafter _, ?_⟩, ?_⟩
    · exact pairwise_of_forall_mem_list fun a _ a' ha' => hafter a a' ha'
    intro a ha a' ha'
    rcases mem_cons.mp ha' with rfl | ha'
    · exact hlast a ha
    · exact hafter a a' ha'
  have hlast : ∀ {n : Nat} {acts : List Act} {batch : List Bytes} {ids : List RecordId}
      {reply : CommitReply}, History rs n none acts →
      ∀ a ∈ acts, a.NotAgain (.commit n batch ids reply) := by
    intro n acts batch ids reply h a ha
    cases a with
    | commit lo' batch' ids' reply' => exact h.accounted_le lo' batch' ids' reply' ha
    | deadLettered _ _ _ | counted _ _ => trivial
  induction h with
  | nil => exact List.Pairwise.nil
  | accepted h _ _ hacc ih =>
    obtain ⟨reply, tail, rfl, hno, _⟩ := hacc.cons
    exact hcons (hlast h) ih hno
  | refused h _ _ href ih =>
    obtain ⟨reply, tail, rfl, hno, _⟩ := href.cons
    exact hcons (hlast h) ih hno
  | settled _ _ ih =>
    refine List.pairwise_append.mpr ⟨ih, by simp [Act.NotAgain], ?_⟩
    intro a _ a' ha'
    simp only [mem_cons, not_mem_nil, or_false] at ha'
    rcases ha' with rfl | rfl | rfl <;> cases a <;> trivial

/-- Dead letters of the sub-batch at the cursor are apart from everything written
before. -/
theorem apart_next {a : Act} (ha : a ∈ acts)
    (hof : RejectsOf (acts ++ new) n through records)
    (ops : List (Op Path)) : Act.Apart (acts ++ new) a (.deadLettered through records ops) := by
  cases a with
  | commit | counted => trivial
  | deadLettered through' records' ops' =>
    obtain ⟨hle, lo, hof'⟩ := h.deadLettered_le _ _ _ ha
    exact ⟨lo, n, rejectsOf_mono (subset_append_left _ _) hof', hof, hle⟩

/-- A dead-letter write is of a sub-batch behind everything written before. -/
theorem apart : acts.Pairwise (Act.Apart acts) := by
  induction h with
  | nil => exact List.Pairwise.nil
  | @accepted n acts new batch ids h _ _ hacc ih =>
    refine List.pairwise_append.mpr
      ⟨ih.imp fun {a a'} => apart_mono (subset_append_left _ _) a a', ?_, ?_⟩
    · cases hacc with
      | committed => simp [Act.Apart]
      | deadLettered _ _ htail => rcases htail with rfl | ⟨_, rfl⟩ <;> simp [Act.Apart]
    · intro a ha a' ha'
      obtain ⟨reply, tail, rfl, _, hdl⟩ := hacc.cons
      cases a' with
      | commit | counted => cases a <;> trivial
      | deadLettered through' records' ops' =>
        have hmem := (mem_cons.mp ha').resolve_left (by simp)
        obtain ⟨hthrough, committed, howes⟩ := hdl _ _ _ hmem
        exact h.apart_next ha ⟨batch, ids, reply, committed, by simp, howes, hthrough⟩ ops'
  | @refused n acts new batch ids carry h _ _ href ih =>
    obtain ⟨reply, tail, hcons, _, hno, _⟩ := href.cons
    have hnew : ∀ a, ∀ a' ∈ new, Act.Apart (acts ++ new) a a' := by
      intro a a' ha'
      rw [hcons] at ha'
      cases a' with
      | deadLettered through records ops =>
        exact absurd ((mem_cons.mp ha').resolve_left (by simp)) (hno _ _ _)
      | commit _ _ _ _ | counted _ _ => cases a <;> trivial
    exact List.pairwise_append.mpr
      ⟨ih.imp fun {a a'} => apart_mono (subset_append_left _ _) a a',
        pairwise_of_forall_mem_list fun a _ a' ha' => hnew a a' ha',
        fun a _ a' ha' => hnew a a' ha'⟩
  | settled _ h ih =>
    refine List.pairwise_append.mpr
      ⟨ih.imp fun {a a'} => apart_mono (subset_append_left _ _) a a', by simp [Act.Apart], ?_⟩
    intro a ha a' ha'
    simp only [mem_cons, not_mem_nil, or_false] at ha'
    rcases ha' with rfl | rfl | rfl
    · obtain ⟨batch, ids, reply, hmem, howes, _, _, hthrough⟩ := h.owes _ rfl
      exact h.apart_next ha
        ⟨batch, ids, reply, _, mem_append_left _ hmem, howes, hthrough⟩ _
    · cases a <;> trivial
    · cases a <;> trivial

/-- What is handed over are the records behind the place it is counted from. -/
theorem chunks :
    ∀ lo batch ids reply, .commit lo batch ids reply ∈ acts → batch <+: rs.drop lo := by
  induction h with
  | nil => intro lo batch ids reply hmem; exact absurd hmem (by simp)
  | accepted _ hchunk _ hsub ih | refused _ hchunk _ hsub ih =>
    intro lo batch ids reply hmem
    rcases mem_append.mp hmem with hmem | hmem
    · exact ih lo batch ids reply hmem
    · obtain ⟨rfl, rfl, rfl⟩ := hsub.commit_eq hmem
      exact hchunk
  | settled _ _ ih =>
    intro lo batch ids reply hmem
    rcases mem_append.mp hmem with hmem | hmem
    · exact ih lo batch ids reply hmem
    · exact absurd hmem (by simp)

end

/-! ### Attempts extend histories -/

theorem sent {hi : Nat} (h : History rs lo none acts) (hs : Sent sha segment rs lo hi new) :
    History rs hi none (acts ++ new) := by
  induction hs with
  | nil => rw [append_nil]; exact h
  | snoc _ hchunk hne hacc ih =>
    rw [← append_assoc]
    exact ih.accepted hchunk hne hacc

theorem pends {mid : Nat} (h : History rs mid none acts) (hp : Pends sha segment rs mid carry new) :
    History rs mid carry (acts ++ new) := by
  rcases hp with ⟨rfl, rfl⟩ | ⟨batch, hchunk, hne, href⟩
  · rw [append_nil]; exact h
  · exact h.refused hchunk hne href

/-- Where an attempt from the cursor `n` leaves the history, by its result. -/
structure After (rs : List Bytes) (n : Nat) (acts : List Act) (result : ProcessResult) : Prop where
  some : ∃ m carry, History rs m carry acts
  progress : ∀ m carry, result.progress = .some (m, carry) → n ≤ m ∧ History rs m carry acts
  confirmed : ∀ m, result = .confirmed m → m = rs.length → History rs m none acts

theorem reports (h : History rs n none acts) (hr : Reports sha segment rs n result new) :
    After rs n (acts ++ new) result := by
  obtain ⟨mid, sentActs, rest, rfl, hsent, hends⟩ := hr
  have hmid := h.sent hsent
  rw [← append_assoc]
  refine ⟨?_, ?_, ?_⟩
  · obtain ⟨carry, hp⟩ := hends.pends
    exact ⟨mid, carry, hmid.pends hp⟩
  · intro m carry hprog
    obtain ⟨rfl, hp⟩ := hends.progress hprog
    exact ⟨hsent.le, hmid.pends hp⟩
  · rintro m rfl hm
    obtain ⟨rfl, rfl⟩ := hends
    have hle := h.le_length
    rw [append_nil]
    rwa [max_eq_right (by omega)] at hmid

theorem did {v : View} {io : AttemptIo} {id : FileId} (h : History rs n carry acts)
    (hv : v.carry = carry.map (⟨·, id⟩)) (hstat : io.carryStat = some id)
    (hd : Did sha segment rs v n io result new) : After rs n (acts ++ new) result := by
  cases hd with
  | plain hcarry hr =>
    cases carry with
    | none => exact h.reports hr
    | some c => exact absurd hstat (hcarry ⟨c, id⟩ hv)
  | @settled c _ ops rest hpin _ _ hr =>
    cases carry with
    | none => rw [hv] at hpin; cases hpin
    | some c' =>
      rw [hv] at hpin
      simp only [Option.map_some, Option.some.injEq, PinnedCarry.mk.injEq] at hpin
      obtain ⟨rfl, rfl⟩ := hpin
      have hle : n ≤ c'.through := h.le_reach
      rw [max_eq_left hle] at hr
      have hafter := (h.settled ops).reports hr
      rw [append_assoc] at hafter
      exact ⟨hafter.some, fun m carry hm => ⟨le_trans hle (hafter.progress m carry hm).1,
        (hafter.progress m carry hm).2⟩, hafter.confirmed⟩
  | owing hpin _ hres =>
    cases carry with
    | none => rw [hv] at hpin; exact absurd hpin (by simp)
    | some c' =>
      rw [hv] at hpin
      simp only [Option.map_some, Option.some.injEq, PinnedCarry.mk.injEq] at hpin
      obtain ⟨rfl, rfl⟩ := hpin
      rw [append_nil]
      refine ⟨⟨n, some c', h⟩, ?_, ?_⟩
      · intro m carry hprog
        cases hres.symm.trans hprog
        exact ⟨le_rfl, h⟩
      · rintro m rfl
        cases hres

end History

/-! ## What an attempt hands over -/

section

variable (sha : Sha256) (segment : String) (rs : List Bytes)

/-- A sub-batch behind record `lo`, with the ids of its records. -/
structure Handover (lo : Nat) (batch : List Bytes) (ids : List RecordId) : Prop where
  chunk : batch <+: rs.drop lo
  ne_nil : batch ≠ []
  ids : ids = idsFrom sha segment lo batch

end

variable {sha : Sha256} {segment : String} {rs : List Bytes} {skip : Nat} {result : ProcessResult}

theorem Sent.handover {lo₀ hi : Nat} (h : Sent sha segment rs lo₀ hi acts)
    (hmem : .commit lo batch ids reply ∈ acts) : Handover sha segment rs lo batch ids := by
  induction h with
  | nil => cases hmem
  | snoc _ hchunk hne hacc ih =>
    rcases mem_append.mp hmem with hmem | hmem
    · exact ih hmem
    · obtain ⟨rfl, rfl, rfl⟩ := hacc.commit_eq hmem
      exact ⟨hchunk, hne, rfl⟩

theorem Pends.handover {mid : Nat} (h : Pends sha segment rs mid carry acts)
    (hmem : .commit lo batch ids reply ∈ acts) :
    Handover sha segment rs lo batch ids := by
  rcases h with ⟨_, rfl⟩ | ⟨batch', hchunk, hne, href⟩
  · cases hmem
  · obtain ⟨rfl, rfl, rfl⟩ := href.commit_eq hmem
    exact ⟨hchunk, hne, rfl⟩

theorem Reports.handover (h : Reports sha segment rs skip result acts)
    (hmem : .commit lo batch ids reply ∈ acts) :
    Handover sha segment rs lo batch ids := by
  obtain ⟨mid, sent, rest, rfl, hsent, hends⟩ := h
  rcases mem_append.mp hmem with hmem | hmem
  · exact hsent.handover hmem
  · obtain ⟨carry, hpends⟩ := hends.pends
    exact hpends.handover hmem

theorem Did.handover {v : View} {io : AttemptIo} (h : Did sha segment rs v skip io result acts)
    (hmem : .commit lo batch ids reply ∈ acts) : Handover sha segment rs lo batch ids := by
  cases h with
  | plain _ hr => exact hr.handover hmem
  | settled _ _ _ hr => exact hr.handover (by simpa using hmem)
  | owing _ _ _ => cases hmem

/-- Whatever an attempt meets, it hands over records of the segment in a row. -/
theorem attemptSegment_handover (z : Zstd) (sha : Sha256) (cfg : DrainConfig) (p : Path)
    (file : Bytes) (w : DeadLetterWriter) (l : SegmentLedger) (skip : Nat) (io : AttemptIo)
    (hmem : .commit lo batch ids reply ∈ (attemptSegment z sha cfg p file w l skip io).acts) :
    Handover sha (segmentIdentity p) (recordsOf z file) lo batch ids := by
  obtain ⟨_, _, _, _, hdid⟩ := attemptSegment_explains z sha cfg p file w l skip io
  exact hdid.handover hmem

end Weir.Drain

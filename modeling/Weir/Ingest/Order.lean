import Weir.Ingest.Line

/-!
# Records keep their order in a shard

Two facts about units carry the order. A unit that is in the queue, or whose
handler went on, will not enter the queue again (`InFlight`), so it stays ahead
of every unit made later (`Ahead`). And a unit is of one shard only (`OnlyAt`),
so the flusher that acks it is the shard's.

> `per_shard_order`: a record whose enqueue was complete before the enqueue of
> another began, for the same shard, is placed before it in the segment files;
> so are the records of one connection.
-/

namespace Weir.Ingest

open Weir.Lib Weir.Wab List

namespace Pipeline

/-! ## Order -/

/-- `a` will not enter the queue again, and in its shard `b` does not stand before it. -/
structure Ahead (t : Topology) (a b : Routed) (s : Pipeline) : Prop where
  settled : ¬s.InFlight a
  never : NeverBefore b.unit a.unit (s.line t a.shardId)

variable {z : Zstd} {t : Topology} {r a b : Routed} {s s' : Pipeline} {c : Nat}

theorem settled_step (ha : ¬s.InFlight a) (hknown : a.unit.ackTx < s.nextTx)
    (hm : Moves z t s s') : ¬s'.InFlight a ∧ a.unit.ackTx < s'.nextTx := by
  refine ⟨fun hin => ?_, lt_of_lt_of_le hknown hm.keeps.le⟩
  rcases hm.keeps.inFlight hin with hin | ⟨hnew, _⟩
  · exact ha hin
  · omega

theorem Ahead.step (hab : a.unit ≠ b.unit) (h : s.Ahead t a b) (hr : s.Routes t)
    (ha : a.unit.ackTx < s.nextTx) (hm : Moves z t s s') : s'.Ahead t a b :=
  ⟨(settled_step h.settled ha hm).1, h.never.flows hab h.settled (step_line hr hm a.shardId)⟩

/-! ### The enqueue of a unit -/

/-- Connection `c` makes the unit `r`, and its enqueue begins. -/
def Begins (z : Zstd) (t : Topology) (c : Nat) (r : Routed) (s s' : Pipeline) : Prop :=
  s.step z t (.conn c .enqueue) = some s' ∧
    ∃ conn rest, s'.conns c = some conn ∧ conn.handler = .enqueueing r rest

/-- The queue takes the unit `r`, from its handler or after that was dropped; its
enqueue is complete. -/
def Completes (z : Zstd) (t : Topology) (r : Routed) (s s' : Pipeline) : Prop :=
  (∃ c conn rest, s.conns c = some conn ∧ conn.handler = .enqueueing r rest ∧
    s.step z t (.conn c .sent) = some s') ∨
  ∃ i, s.detached[i]? = some r ∧ s.step z t (.sentLate i) = some s'

theorem Begins.heldBy (h : Begins z t c r s s') : s'.HeldBy c r := by
  obtain ⟨_, conn, rest, hconn, hh⟩ := h
  exact ⟨conn, rest, hconn, hh⟩

theorem Begins.cases (h : Begins z t c r s s') : ∃ conn rest, s.conns c = some conn ∧
      conn.handler = .next rest ∧ r.shardId = conn.shard ∧ r.unit.ackTx = s.nextTx ∧
      s'.line t = s.line t := by
  obtain ⟨hs, conn', rest', hconn, hh⟩ := h
  obtain ⟨conn, hc, hstep⟩ := Option.bind_eq_some_iff.mp hs
  simp only [connStep] at hstep
  split at hstep
  next q rest hnext =>
    cases hstep
    rcases conns_setHandler hconn with ⟨_, rfl⟩ | ⟨hne, _⟩
    · obtain ⟨rfl, rfl⟩ := Handler.enqueueing.inj hh
      exact ⟨conn, _, hc, hnext, rfl, rfl, rfl⟩
    · exact absurd rfl hne
  · cases hstep

/-- When a unit is made, one that will not enter the queue any more is ahead of it. -/
theorem Begins.ahead (h : Begins z t c b s s') (hsound : s.Sound t)
    (ha : ¬s.InFlight a) (hknown : a.unit.ackTx < s.nextTx) : a.unit ≠ b.unit ∧ s'.Ahead t a b := by
  obtain ⟨conn, rest, hc, _, _, htx, hline⟩ := h.cases
  refine ⟨fun heq => ?_, (settled_step ha hknown (step_moves h.1)).1,
    NeverBefore.of_not_mem fun hmem => ?_⟩
  · rw [heq] at hknown
    omega
  · rw [hline] at hmem
    have := hsound.line _ _ hmem
    omega

/-- A unit that was made is at its connection. -/
theorem Begins.onlyAt (h : Begins z t c r s s') (hsound : s'.Sound t) :
    s'.OnlyAt t c r.shardId r.unit.ackTx := by
  obtain ⟨c', honly⟩ := hsound.onlyAt (.inl ⟨c, h.heldBy⟩)
  exact (honly.held c r h.heldBy rfl).1 ▸ honly

/-- When a connection makes its next unit, its earlier ones will not enter the queue
any more. -/
theorem OnlyAt.settled (h : s.OnlyAt t c a.shardId a.unit.ackTx)
    (hb : Begins z t c b s s') : a.shardId = b.shardId ∧ ¬s.InFlight a := by
  obtain ⟨conn, rest, hc, hnext, hshard, _⟩ := hb.cases
  obtain ⟨conn', hc', hshard'⟩ := h.present
  obtain rfl := Option.some.inj (hc.symm.trans hc')
  refine ⟨hshard'.symm.trans hshard.symm, ?_⟩
  rintro (⟨c₁, conn₁, rest₁, hc₁, hh₁⟩ | ha)
  · obtain ⟨rfl, _⟩ := h.held c₁ a ⟨conn₁, rest₁, hc₁, hh₁⟩ rfl
    obtain rfl := Option.some.inj (hc.symm.trans hc₁)
    cases hnext.symm.trans hh₁
  · cases hnext.symm.trans ((h.gone a ha rfl).2 conn hc)

theorem Completes.inFlight (h : Completes z t r s s') : s.InFlight r := by
  rcases h with ⟨c, conn, rest, hc, hh, _⟩ | ⟨i, hi, _⟩
  · exact .inl ⟨c, conn, rest, hc, hh⟩
  · exact .inr (mem_of_getElem? hi)

theorem Completes.moves (h : Completes z t r s s') : Moves z t s s' := by
  rcases h with ⟨c, _, _, _, _, hs⟩ | ⟨i, _, hs⟩
  · exact step_moves hs
  · exact step_moves hs

/-- A unit that is in the queue will not enter it again. -/
theorem Completes.settled (h : Completes z t r s s') (ho : s.OnlyAt t c r.shardId r.unit.ackTx) :
    ¬s'.InFlight r := by
  rcases h with ⟨c₁, conn, rest, hc, hh, hs⟩ | ⟨i, hi, hs⟩
  · simp only [Pipeline.step, hc, Option.bind_some, connStep, hh] at hs
    obtain ⟨s₁, hpush, rfl⟩ := Option.map_eq_some_iff.mp hs
    obtain rfl := push_eq_some hpush
    obtain ⟨rfl, _⟩ := ho.held c₁ r ⟨conn, rest, hc, hh⟩ rfl
    rintro (⟨c', hheld⟩ | hr)
    · rcases hheld.of_setHandler with ⟨hne, hold⟩ | ⟨_, _, hh'⟩
      · exact hne (ho.held c' r hold rfl).1
      · cases hh'
    · cases hh.symm.trans ((ho.gone r hr rfl).2 conn hc)
  · simp only [Pipeline.step, hi] at hs
    obtain ⟨s₁, hpush, rfl⟩ := Option.map_eq_some_iff.mp hs
    obtain rfl := push_eq_some hpush
    rintro (⟨c', conn, rest, hc, hh⟩ | hr)
    · obtain ⟨rfl, _⟩ := ho.held c' r ⟨conn, rest, hc, hh⟩ rfl
      cases hh.symm.trans ((ho.gone r (mem_of_getElem? hi) rfl).2 conn hc)
    -- `r` stood in `detached` once
    obtain ⟨j, hne, hj⟩ := mem_eraseIdx_iff_getElem?.mp hr
    obtain ⟨hi', hri⟩ := List.getElem?_eq_some_iff.mp hi
    obtain ⟨hj', hrj⟩ := List.getElem?_eq_some_iff.mp hj
    have hpair := List.pairwise_iff_getElem.mp ho.once
    rcases lt_or_gt_of_ne hne with hlt | hlt
    · exact hpair j i hj' hi' hlt (by rw [hrj]) (by rw [hri])
    · exact hpair i j hi' hj' hlt (by rw [hri]) (by rw [hrj])

/-! ### The flushers -/

/-- Every flusher's writer and trace are in order. -/
def Placing (z : Zstd) (writers : Nat → ShardWriter) (s : Pipeline) : Prop :=
  ∀ k, Wab.Placing (storedForm z (writers k).compression (writers k).compressionLevel)
    (writers k).shardDir z (s.flushers k).st

end Pipeline

theorem Flusher.step_placing {form : Bytes → Option Bytes} {dir : List String} {z : Zstd}
    {t : Topology} {f f' : Flusher} {channel channel' : List Batch} {mv : FlusherMove}
    (h : Wab.Placing form dir z f.st) (hs : f.step z t channel mv = some (f', channel')) :
    Wab.Placing form dir z f'.st := by
  have hdue : ∀ due, Wab.Placing form dir z (f.sealIfDue z due).st := by
    intro due
    unfold sealIfDue
    split
    · exact h
    · split
      · exact h.sealCurrent _ _
      · exact h
  revert hs
  fun_cases Flusher.step z t f channel mv <;> intro hs <;> cases hs
  case case14.refl io delivered u us _ => exact flushUnit_placing h io delivered u
  case case16.refl fault _ => exact groupFsync_placing h fault
  case case18.refl => exact h.ackDurable
  case case22.refl io delivered _ => exact h.sealCurrent io delivered
  all_goals first | exact h | exact hdue _

namespace Pipeline

variable {z : Zstd} {t : Topology} {s s' : Pipeline}

theorem step_flushers (hm : Moves z t s s') (k : Nat) :
    s'.flushers k = s.flushers k ∨
      ∃ fmv channel', (s.flushers k).step z t (s.channels k) fmv
        = some (s'.flushers k, channel') := by
  cases hm with
  | accept | on | enqueue | drop | refusedLate | worker | sends => exact .inl rfl
  | sent _ _ hpush | sentLate _ hpush => obtain rfl := push_eq_some hpush; exact .inl rfl
  | @flusher k' fmv f channel hstep =>
    dsimp only
    by_cases hk : k = k'
    · subst hk
      rw [Function.update_self]
      exact .inr ⟨fmv, channel, hstep⟩
    · rw [Function.update_of_ne hk]
      exact .inl rfl

variable {writers : Nat → ShardWriter}

theorem Placing.step (h : s.Placing z writers) (hm : Moves z t s s') : s'.Placing z writers := by
  intro k
  rcases step_flushers hm k with heq | ⟨fmv, channel', hstep⟩
  · rw [heq]
    exact h k
  · exact Flusher.step_placing (h k) hstep

/-- A writer as `flusher_thread` has it when its counter is established. -/
def Established (w : ShardWriter) : Prop := w.active = none ∧ 1 ≤ w.nextCounter

theorem start_placing (h : ∀ k, Established (writers k)) : (start writers).Placing z writers := by
  intro k
  obtain ⟨hnone, hpos⟩ := h k
  refine ⟨rfl, rfl, hpos, ⟨[], rfl, List.Pairwise.nil, by simp⟩, ?_, ?_, ?_⟩
  · intro seg hseg
    have hact : (writers k).active = some seg := hseg
    rw [hnone] at hact
    cases hact
  · rintro a (ha | ha) <;> exact absurd ha (by simp [start, Flusher.new])
  · intro u o ho
    cases ho

theorem start_sound (t : Topology) (writers : Nat → ShardWriter) : (start writers).Sound t where
  routes := ⟨nofun, fun _ _ hne => absurd rfl hne⟩
  pinned := nofun
  owned := nofun
  numbered _ h := by rcases h with ⟨_, _, _, hc, _⟩ | h <;> [cases hc; cases h]
  line := nofun

/-! ## The order of places -/

section

variable (h : Reaches z t s s')

include h

theorem Sound.reaches (hs : s.Sound t) : s'.Sound t :=
  Run.invariant (fun _ _ _ _ hstep hsound => Sound.step hsound (step_moves hstep)) h hs

theorem Placing.reaches (hs : s.Placing z writers) : s'.Placing z writers :=
  Run.invariant (fun _ _ _ _ hstep hplacing => Placing.step hplacing (step_moves hstep)) h hs

theorem OnlyAt.reaches {c shard n : Nat} (hsound : s.Sound t) (hs : s.OnlyAt t c shard n) :
    s'.OnlyAt t c shard n :=
  (Run.invariant (P := fun s => s.Sound t ∧ s.OnlyAt t c shard n)
    (fun _ _ _ _ hstep hs => ⟨hs.1.step (step_moves hstep),
      hs.2.step hs.1.routes (step_moves hstep)⟩) h ⟨hsound, hs⟩).2

variable {a : Routed} (hknown : a.unit.ackTx < s.nextTx)

include hknown

theorem Ahead.reaches {b : Routed} (hab : a.unit ≠ b.unit) (hsound : s.Sound t)
    (hs : s.Ahead t a b) : s'.Ahead t a b :=
  (Run.invariant (P := fun s => s.Sound t ∧ a.unit.ackTx < s.nextTx ∧ s.Ahead t a b)
    (fun _ _ _ _ hstep hs => ⟨hs.1.step (step_moves hstep),
      lt_of_lt_of_le hs.2.1 (step_moves hstep).keeps.le,
      hs.2.2.step hab hs.1.routes hs.2.1 (step_moves hstep)⟩) h ⟨hsound, hknown, hs⟩).2.2

/-- A unit that is not in flight stays out of flight. -/
theorem settled_reaches (ha : ¬s.InFlight a) : ¬s'.InFlight a :=
  (Run.invariant (P := fun s => ¬s.InFlight a ∧ a.unit.ackTx < s.nextTx)
    (fun _ _ _ _ hstep hs => settled_step hs.1 hs.2 (step_moves hstep)) h ⟨ha, hknown⟩).1

end

end Pipeline

/-- Both records have places, which are the coordinates their producers got, and every
place of `a` is before every place of `b`. -/
def PlacedInOrder (form : Bytes → Option Bytes) (dir : List String) (tr : List Event)
    (a : WorkUnit) (outcome : AckOutcome) (b : WorkUnit) (outcome' : AckOutcome) : Prop :=
  PlacedAs form dir tr a outcome.coordinate ∧ PlacedAs form dir tr b outcome'.coordinate ∧
    ∀ c i c' i', Placed form dir tr a c i → Placed form dir tr b c' i' →
      Prod.Lex (· < ·) (· < ·) (c, i) (c', i')

namespace Pipeline

variable {z : Zstd} {t : Topology} {writers : Nat → ShardWriter} {s : Pipeline} {k : Nat}
  {o : AckOutcome}

/-- The flusher that resolved a record durable is that of the record's shard. -/
theorem OnlyAt.resolved {r : Routed} {c : Nat} (h : s.OnlyAt t c r.shardId r.unit.ackTx)
    (hp : s.Placing z writers) (ho : .resolved r.unit o ∈ (s.flushers k).st.trace)
    (hd : o.durable = true) : k = r.shardId := by
  have hmem := ((hp k).acked r.unit o ho hd).mem_performers
  exact h.line k r.unit (mem_append_left _ (mem_append_left _ hmem)) rfl

theorem Ahead.placedInOrder
    {a b : Routed} (h : s.Ahead t a b) (hab : a.unit ≠ b.unit) (hshard : a.shardId = b.shardId)
    (hp : s.Placing z writers) {c d : Nat} (ha : s.OnlyAt t c a.shardId a.unit.ackTx)
    (hb : s.OnlyAt t d b.shardId b.unit.ackTx) {k' : Nat} {o' : AckOutcome}
    (ho : .resolved a.unit o ∈ (s.flushers k).st.trace) (hd : o.durable = true)
    (ho' : .resolved b.unit o' ∈ (s.flushers k').st.trace) (hd' : o'.durable = true) :
    PlacedInOrder
      (storedForm z (writers a.shardId).compression (writers a.shardId).compressionLevel)
      (writers a.shardId).shardDir (s.flushers a.shardId).st.trace a.unit o b.unit o' := by
  obtain rfl := ha.resolved hp ho hd
  obtain rfl := (hb.resolved hp ho' hd').trans hshard.symm
  refine ⟨(hp _).acked _ _ ho hd, (hp _).acked _ _ ho' hd', ?_⟩
  intro c i c' i' hplaced hplaced'
  have hsub : (performers (s.flushers a.shardId).st.trace).Sublist (s.line t a.shardId) :=
    (sublist_append_left ..).trans (sublist_append_left ..)
  exact (hp _).placed_lt hab (h.never.sublist hsub) hplaced hplaced'

end Pipeline

open Pipeline in
/-- Whatever the threads do, records of a shard keep the order of their enqueues: one
whose enqueue was complete before that of another began is placed before it, and so are
the records of one connection. -/
theorem per_shard_order (z : Zstd) (t : Topology) (writers : Nat → ShardWriter)
    (hwriters : ∀ k, Established (writers k)) {s₁ s₂ s₃ s₄ s₅ : Pipeline} {a b : Routed}
    {d : Nat} (h₁ : Reaches z t (start writers) s₁) (h₂ : Reaches z t s₂ s₃)
    (hb : Begins z t d b s₃ s₄) (h₃ : Reaches z t s₄ s₅)
    (ha : (Completes z t a s₁ s₂ ∧ a.shardId = b.shardId) ∨ Begins z t d a s₁ s₂)
    {k k' : Nat} {o o' : AckOutcome}
    (ho : .resolved a.unit o ∈ (s₅.flushers k).st.trace) (hd : o.durable = true)
    (ho' : .resolved b.unit o' ∈ (s₅.flushers k').st.trace) (hd' : o'.durable = true) :
    a.shardId = b.shardId ∧
    PlacedInOrder
      (storedForm z (writers a.shardId).compression (writers a.shardId).compressionLevel)
      (writers a.shardId).shardDir (s₅.flushers a.shardId).st.trace a.unit o b.unit o' := by
  have hsound₁ := Sound.reaches h₁ (start_sound t writers)
  have hplacing₁ := Placing.reaches h₁ (start_placing hwriters)
  have hmiddle : s₂.Sound t ∧ s₂.Placing z writers ∧
      ∃ c, s₂.OnlyAt t c a.shardId a.unit.ackTx ∧ a.shardId = b.shardId ∧ ¬s₃.InFlight a := by
    rcases ha with ⟨hdone, hshard⟩ | hbegun
    · have hs := hdone.moves
      obtain ⟨c, honly⟩ := hsound₁.onlyAt hdone.inFlight
      have honly₂ := honly.step hsound₁.routes hs
      exact ⟨hsound₁.step hs, hplacing₁.step hs, c, honly₂, hshard,
        settled_reaches h₂ honly₂.known (hdone.settled honly)⟩
    · have hs := step_moves hbegun.1
      have hsound₂ := hsound₁.step hs
      have honly₂ := hbegun.onlyAt hsound₂
      exact ⟨hsound₂, hplacing₁.step hs, d, honly₂, (OnlyAt.reaches h₂ hsound₂ honly₂).settled hb⟩
  obtain ⟨hsound₂, hplacing₂, c, honly₂, hshard, hsettled⟩ := hmiddle
  have hsound₃ := Sound.reaches h₂ hsound₂
  have hbegins := step_moves hb.1
  have hsound₄ := hsound₃.step hbegins
  have honly₃ := OnlyAt.reaches h₂ hsound₂ honly₂
  have honly₄ := honly₃.step hsound₃.routes hbegins
  obtain ⟨hab, hahead₄⟩ := hb.ahead hsound₃ hsettled honly₃.known
  have hplacing₄ := (Placing.reaches h₂ hplacing₂).step hbegins
  exact ⟨hshard, (Ahead.reaches h₃ honly₄.known hab hsound₄ hahead₄).placedInOrder hab hshard
    (Placing.reaches h₃ hplacing₄) (OnlyAt.reaches h₃ hsound₄ honly₄)
    (OnlyAt.reaches h₃ hsound₄ (hb.onlyAt hsound₄)) ho hd ho' hd'⟩

/-! ### A batch of two records -/

namespace Pipeline

/-- The state behind a list of moves. -/
def after (z : Zstd) (t : Topology) (s : Pipeline) (moves : List Move) : Pipeline :=
  (follow (step z t) s moves).getD s

variable {z : Zstd} {t : Topology} {s : Pipeline}

theorem reaches_after {moves : List Move}
    (h : (follow (step z t) s moves).isSome) : Reaches z t s (s.after z t moves) := by
  obtain ⟨s', hs'⟩ := Option.isSome_iff_exists.mp h
  have hafter : s.after z t moves = s' := by rw [after, hs']; rfl
  rw [hafter]
  exact Run.of_follow (fun _ _ _ => trivial) hs'

theorem step_after {mv : Move}
    (h : (s.step z t mv).isSome) : s.step z t mv = some (s.after z t [mv]) := by
  obtain ⟨s', hs'⟩ := Option.isSome_iff_exists.mp h
  have hafter : s.after z t [mv] = s' := by rw [after, follow, hs']; rfl
  rw [hafter, hs']

end Pipeline

/-- One worker and one shard. -/
def oneShard : Topology := ⟨1, 1, 2⟩

/-- A shard writer before its first segment. -/
def freshWriter (_ : Nat) : ShardWriter :=
  ⟨0, ["wab", "shard_00"], 1, 1000, none, none, 0, .none, 0, none⟩

/-- A record of one byte whose producer asks for the coordinate. -/
def oneByte (b : UInt8) : Request := ⟨[b], .durable, true⟩

/-- The calls of a `write_record` that all succeed. -/
def calmWrite : FlusherMove :=
  .write ⟨false, .calm, .wrote 9, .calm⟩ true

/-- A connection reads a batch of two records. -/
def batchRead : Pipeline :=
  (Pipeline.start freshWriter).after .plain oneShard
    [.accept 0 0, .conn 0 (.frame [oneByte 1, oneByte 2])]

/-- The enqueue of its first record begins. -/
def firstBegun : Pipeline := batchRead.after .plain oneShard [.conn 0 .enqueue]

def firstSent : Pipeline := firstBegun.after .plain oneShard [.conn 0 .sent]

def firstDone : Pipeline := firstSent.after .plain oneShard [.conn 0 .returned]

/-- The enqueue of its second record begins. -/
def secondBegun : Pipeline := firstDone.after .plain oneShard [.conn 0 .enqueue]

/-- The batch is flushed. -/
def batchFlushed : Pipeline :=
  secondBegun.after .plain oneShard
    [.conn 0 .sent, .conn 0 .returned, .worker 0 .receive, .worker 0 .drain, .workerSends 0,
      .flusher 0 .receive, .flusher 0 .beginFlush, .flusher 0 calmWrite, .flusher 0 calmWrite,
      .flusher 0 (.groupFsync none), .flusher 0 .ackDurable]

/-- The units of the batch. -/
def firstUnit : Routed := ⟨0, ⟨[1], .durable, true, 0⟩⟩

def secondUnit : Routed := ⟨0, ⟨[2], .durable, true, 1⟩⟩

open Pipeline in
theorem per_shard_order_batch :
    Completes .plain oneShard firstUnit firstBegun firstSent ∧
    Begins .plain oneShard 0 secondUnit firstDone secondBegun ∧
    PlacedInOrder some ["wab", "shard_00"] (batchFlushed.flushers 0).st.trace
      firstUnit.unit (.durableAt (some ⟨"shard_00/seg_00000001.wab.sealed", 1⟩))
      secondUnit.unit (.durableAt (some ⟨"shard_00/seg_00000001.wab.sealed", 2⟩)) := by
  have hread : Reaches .plain oneShard (start freshWriter) batchRead :=
    reaches_after (by decide +kernel)
  have hbegun : Reaches .plain oneShard batchRead firstBegun := reaches_after (by decide +kernel)
  have hsent : Completes .plain oneShard firstUnit firstBegun firstSent :=
    .inl ⟨0, ⟨0, .enqueueing firstUnit [oneByte 2]⟩, [oneByte 2], by decide +kernel, rfl,
      step_after (by decide +kernel)⟩
  have hdone : Reaches .plain oneShard firstSent firstDone := reaches_after (by decide +kernel)
  have hsecond : Begins .plain oneShard 0 secondUnit firstDone secondBegun :=
    ⟨step_after (by decide +kernel), ⟨0, .enqueueing secondUnit []⟩, [], by decide +kernel, rfl⟩
  have hflushed : Reaches .plain oneShard secondBegun batchFlushed :=
    reaches_after (by decide +kernel)
  have hfirst : .resolved firstUnit.unit (.durableAt (some ⟨"shard_00/seg_00000001.wab.sealed", 1⟩))
      ∈ (batchFlushed.flushers 0).st.trace := by decide +kernel
  have hlast : .resolved secondUnit.unit (.durableAt (some ⟨"shard_00/seg_00000001.wab.sealed", 2⟩))
      ∈ (batchFlushed.flushers 0).st.trace := by decide +kernel
  have hwriters : ∀ k, Established (freshWriter k) := fun _ => ⟨rfl, le_rfl⟩
  exact ⟨hsent, hsecond, (per_shard_order .plain oneShard freshWriter hwriters
    (hread.trans hbegun) hdone hsecond hflushed (.inl ⟨hsent, rfl⟩) hfirst rfl hlast rfl).2⟩

end Weir.Ingest

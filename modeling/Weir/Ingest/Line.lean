import Weir.Ingest.Pipeline
import Weir.Wab.Place

/-!
# The line of a shard

All records of a shard stand in one line (`Pipeline.line`): those its flusher
has written or is writing, then those in the flusher's channel, then those in
the buffer of the shard's worker, then those in the worker's partition of the
queue. A move lets records fall out of the line, hands them on inside it, or
puts one behind the last; no move lets one overtake another, because a shard's
records all take the same partition and the same worker.

> `Pipeline.step_line`: a move of the daemon is a step of every shard's line, and
> what joins the line is a unit in flight for the shard.
-/

namespace Weir.Ingest

open Weir.Lib Weir.Wab List

/-! ## The line of a shard -/

/-- The batch a worker is sending, if it is for shard `k`. -/
def Worker.sending (w : Worker) (k : Nat) : List WorkUnit :=
  match w.outgoing with
  | some (shard, records) => if shard = k then records else []
  | none => []

/-- A shard's records at its worker. -/
def workerLine (w : Worker) (queue : List Routed) (k : Nat) : List WorkUnit :=
  w.sending k ++ (w.buffers k ++ (queue.filter (·.shardId = k)).map (·.unit))

/-- A shard's records at its flusher; those written stand once for each operation. -/
def flusherLine (f : Flusher) (channel : List Batch) : List WorkUnit :=
  performers f.st.trace ++ (f.todo ++ unitsOf (f.batches ++ channel))

/-- A shard's records, the oldest first. -/
def Pipeline.line (t : Topology) (s : Pipeline) (k : Nat) : List WorkUnit :=
  flusherLine (s.flushers k) (s.channels k)
    ++ workerLine (s.workers (t.partition k)) (s.queues (t.partition k)) k

/-! ### At the worker -/

variable {w : Worker}

theorem Worker.sending_none (h : w.outgoing = none) (k : Nat) : w.sending k = [] := by
  rw [Worker.sending, h]

/-- Flushing a buffer hands its records on. -/
theorem Worker.flushShard_line (h : w.outgoing = none) (shard k : Nat)
    (queue : List Routed) : workerLine (w.flushShard shard) queue k = workerLine w queue k := by
  unfold flushShard
  split
  · rfl
  rw [workerLine, workerLine, sending_none h]
  by_cases hk : shard = k
  · subst hk
    simp [sending]
  · simp [sending, hk, Function.update_of_ne (Ne.symm hk)]

/-- A record taken from the queue goes to the end of its buffer. -/
theorem Worker.keep_line {t : Topology} (h : w.outgoing = none) {r : Routed}
    (hr : r.shardId < t.shards) (queue : List Routed) (k : Nat) :
    workerLine (w.keep t r) queue k = workerLine w (r :: queue) k := by
  have hmod : r.shardId % t.shards = r.shardId := Nat.mod_eq_of_lt hr
  have hpush : ∀ w' : Worker, w'.outgoing = none →
      w'.buffers = Function.update w.buffers r.shardId (w.buffers r.shardId ++ [r.unit]) →
      workerLine w' queue k = workerLine w (r :: queue) k := by
    intro w' hout hbuf
    rw [workerLine, workerLine, sending_none hout, sending_none h, hbuf]
    by_cases hk : r.shardId = k
    · subst hk
      simp
    · simp [hk, Function.update_of_ne (Ne.symm hk)]
  unfold keep
  rw [hmod]
  dsimp only
  split
  · rw [flushShard_line (by exact h)]
    exact hpush _ h rfl
  · exact hpush _ h rfl

/-- A worker hands records on, or loses them when it dies. -/
theorem Worker.step_line {t : Topology} {w' : Worker} {queue queue' : List Routed}
    {mv : WorkerMove} (hq : ∀ r ∈ queue, r.shardId < t.shards)
    (hs : w.step t queue mv = some (w', queue')) :
    queue'.Sublist queue ∧
      ∀ k, (workerLine w' queue' k).Sublist (workerLine w queue k) := by
  have hkeep : ∀ {r : Routed} {q : List Routed} {st : Stage}, w.outgoing = none →
      r.shardId < t.shards → q.Sublist (r :: q) ∧
        ∀ k, (workerLine { w.keep t r with stage := st } q k).Sublist
          (workerLine w (r :: q) k) := by
    intro r q st hout hr
    refine ⟨sublist_cons_self .., fun k => ?_⟩
    rw [← keep_line hout hr]
    exact List.Sublist.refl _
  have hsame : ∀ {w₁ : Worker} {q : List Routed}, (∀ k, workerLine w₁ q k = workerLine w q k) →
      q.Sublist q ∧ ∀ k, (workerLine w₁ q k).Sublist (workerLine w q k) := by
    intro w₁ q h
    refine ⟨List.Sublist.refl q, fun k => ?_⟩
    rw [h k]
  revert hs
  fun_cases Worker.step t w queue mv <;> intro hs <;> cases hs
  case case16.refl shard _ _ hout _ => exact hsame fun k => flushShard_line hout shard k _
  case case19.refl =>
    refine ⟨List.Sublist.refl _, fun k => ?_⟩
    exact sublist_append_of_sublist_right (sublist_append_right ..)
  all_goals first
    | exact hsame fun _ => rfl
    | exact hkeep ‹_› (hq _ mem_cons_self)

/-! ### At the flusher -/

/-- The operations of one record are performed together. -/
theorem flushUnit_performers (z : Zstd) (io : WriteIo) (b : Bool) (st : FlushState)
    (u : WorkUnit) : ∃ n, performers (flushUnit z io b st u).trace
      = performers st.trace ++ replicate n u := by
  unfold flushUnit
  split <;> dsimp only <;> split <;> simp [performers_append, *]

theorem sealCurrent_performers (z : Zstd) (w : ShardWriter) (io : SealIo) (delivered : Bool) :
    performers (flusherCall z w (.sealCurrent io delivered)).2 = [] := by
  unfold flusherCall
  dsimp only
  split <;> simp [performers_append]

theorem Flusher.sealNow_line (z : Zstd) (f : Flusher) (io : SealIo) (delivered : Bool)
    (channel : List Batch) :
    flusherLine (f.sealNow z io delivered) channel = flusherLine f channel := by
  unfold flusherLine sealNow todo
  rw [performers_append, sealCurrent_performers, append_nil]

theorem Flusher.sealIfDue_line (z : Zstd) (f : Flusher) (due : Option TimedSeal)
    (channel : List Batch) : flusherLine (f.sealIfDue z due) channel = flusherLine f channel := by
  unfold sealIfDue
  split
  · rfl
  · split
    · exact f.sealNow_line z _ _ channel
    · rfl

theorem Flusher.sealIfDue_todo (z : Zstd) (f : Flusher) (due : Option TimedSeal) :
    (f.sealIfDue z due).todo = f.todo := by
  unfold sealIfDue
  split
  · rfl
  · split <;> rfl

theorem flusherLine_concat (f : Flusher) (channel : List Batch) (records : List WorkUnit) :
    flusherLine f (channel ++ [⟨records⟩]) = flusherLine f channel ++ records := by
  simp [flusherLine, unitsOf]

/-- A flusher hands records on in order, or loses them when it dies. -/
theorem Flusher.step_line {z : Zstd} {t : Topology} {f f' : Flusher} {channel channel' : List Batch}
    {mv : FlusherMove} (hs : f.step z t channel mv = some (f', channel'))
    (enters : WorkUnit → Prop) (rest : List WorkUnit) :
    Flows enters (flusherLine f channel ++ rest) (flusherLine f' channel' ++ rest) := by
  have hsame : flusherLine f' channel' = flusherLine f channel →
      Flows enters (flusherLine f channel ++ rest) (flusherLine f' channel' ++ rest) := by
    intro h
    rw [h]
    exact .refl _
  revert hs
  fun_cases Flusher.step z t f channel mv <;> intro hs <;> cases hs
  case case3.refl due _ _ => exact hsame (f.sealIfDue_line z due _)
  case case14.refl io delivered u us hphase =>
    obtain ⟨n, hn⟩ := flushUnit_performers z io delivered f.st u
    simp only [flusherLine, todo, hphase, hn, append_assoc]
    exact .repeats n
  case case20.refl due hphase =>
    refine hsame ?_
    rw [← f.sealIfDue_line z due, flusherLine, flusherLine, f.sealIfDue_todo z due]
    simp [todo, hphase]
  case case22.refl io delivered hphase =>
    refine hsame ?_
    rw [← f.sealNow_line z io delivered]
    simp [flusherLine, todo, sealNow, hphase]
  case case24.refl =>
    refine .drops (List.Sublist.append ?_ (List.Sublist.refl rest))
    exact List.Sublist.append (List.Sublist.refl _) (nil_sublist _)
  all_goals
    refine hsame ?_
    simp [flusherLine, todo, take, begin, *, unitsOf, groupFsync_performers, performers_append]

/-! ## What holds of the daemon -/

namespace Pipeline

/-- Connection `c` is enqueueing the unit `r`. -/
def HeldBy (s : Pipeline) (c : Nat) (r : Routed) : Prop :=
  ∃ conn rest, s.conns c = some conn ∧ conn.handler = .enqueueing r rest

/-- A unit that may still enter the queue. -/
def InFlight (s : Pipeline) (r : Routed) : Prop := (∃ c, s.HeldBy c r) ∨ r ∈ s.detached

/-- A worker and its partition of the queue have records of their own shards only. -/
structure Routes (t : Topology) (s : Pipeline) : Prop where
  shards : ∀ p, ∀ r ∈ s.queues p, r.shardId < t.shards
  lines : ∀ p k, workerLine (s.workers p) (s.queues p) k ≠ [] → t.partition k = p

variable {s s' : Pipeline} {c c' p shard : Nat} {conn conn' : Conn} {hd : Handler} {r : Routed}
  {records : List WorkUnit} {t : Topology}

theorem conns_setHandler (h : (s.setHandler c conn hd).conns c' = some conn') :
    (c' = c ∧ conn' = { conn with handler := hd }) ∨ (c' ≠ c ∧ s.conns c' = some conn') := by
  by_cases hcc : c' = c
  · subst hcc
    have hself : (s.setHandler c' conn hd).conns c' = some { conn with handler := hd } :=
      Function.update_self ..
    exact .inl ⟨rfl, Option.some.inj (h.symm.trans hself)⟩
  · have hother : (s.setHandler c conn hd).conns c' = s.conns c' := Function.update_of_ne hcc ..
    exact .inr ⟨hcc, hother ▸ h⟩

theorem HeldBy.of_setHandler (h : (s.setHandler c conn hd).HeldBy c' r) :
    (c' ≠ c ∧ s.HeldBy c' r) ∨ (c' = c ∧ ∃ rest, hd = .enqueueing r rest) := by
  obtain ⟨conn', rest, hconn, hh⟩ := h
  rcases conns_setHandler hconn with ⟨rfl, rfl⟩ | ⟨hne, hold⟩
  · exact .inr ⟨rfl, rest, hh⟩
  · exact .inl ⟨hne, conn', rest, hold, hh⟩

theorem push_eq_some (h : s.push t r = some s') :
    s' = { s with
      queues := Function.update s.queues (t.partition r.shardId)
        (s.queues (t.partition r.shardId) ++ [r]) } := by
  unfold push at h
  dsimp only at h
  split at h
  · exact (Option.some.inj h).symm
  · cases h

/-- What a move of the daemon does. -/
inductive Moves (z : Zstd) (t : Topology) (s : Pipeline) : Pipeline → Prop
  | accept {c shard : Nat} (hnew : s.conns c = none) (hshard : shard < t.shards) :
      Moves z t s (s.setHandler c ⟨shard, .idle⟩ .idle)
  /-- The handler moves on, and enqueues nothing. -/
  | on {c : Nat} {conn : Conn} {hd : Handler} (hc : s.conns c = some conn)
      (hquiet : ∀ r rest, hd ≠ .enqueueing r rest)
      (hclosed : conn.handler = .closed → hd = .closed) : Moves z t s (s.setHandler c conn hd)
  | enqueue {c : Nat} {conn : Conn} {u : WorkUnit} {rest : List Request}
      (hc : s.conns c = some conn) (hu : u.ackTx = s.nextTx) (hopen : conn.handler ≠ .closed) :
      Moves z t s { s.setHandler c conn (.enqueueing ⟨conn.shard, u⟩ rest) with
        nextTx := s.nextTx + 1 }
  | sent {c : Nat} {conn : Conn} {r : Routed} {rest : List Request} {s₁ : Pipeline}
      (hc : s.conns c = some conn) (hr : conn.handler = .enqueueing r rest)
      (hpush : s.push t r = some s₁) : Moves z t s (s₁.setHandler c conn (.enqueued r rest))
  | drop {c : Nat} {conn : Conn} {r : Routed} {rest : List Request} (hc : s.conns c = some conn)
      (hr : conn.handler = .enqueueing r rest) :
      Moves z t s { s.setHandler c conn .closed with detached := s.detached ++ [r] }
  | sentLate {i : Nat} {r : Routed} {s₁ : Pipeline} (hi : s.detached[i]? = some r)
      (hpush : s.push t r = some s₁) :
      Moves z t s { s₁ with detached := s₁.detached.eraseIdx i }
  | refusedLate (i : Nat) : Moves z t s { s with detached := s.detached.eraseIdx i }
  | worker {p : Nat} {mv : WorkerMove} {w : Worker} {queue : List Routed}
      (hstep : (s.workers p).step t (s.queues p) mv = some (w, queue)) :
      Moves z t s { s with
        workers := Function.update s.workers p w
        queues := Function.update s.queues p queue }
  | sends {p shard : Nat} {records : List WorkUnit} {channel : List Batch}
      (hout : (s.workers p).outgoing = some (shard, records))
      (hchannel : channel = s.channels shard ∨ channel = s.channels shard ++ [⟨records⟩]) :
      Moves z t s { s with
        workers := Function.update s.workers p { s.workers p with outgoing := none }
        channels := Function.update s.channels shard channel }
  | flusher {k : Nat} {mv : FlusherMove} {f : Flusher} {channel : List Batch}
      (hstep : (s.flushers k).step z t (s.channels k) mv = some (f, channel)) :
      Moves z t s { s with
        flushers := Function.update s.flushers k f
        channels := Function.update s.channels k channel }

theorem goOn_quiet (reqs : List Request) (r : Routed) (rest : List Request) :
    Handler.goOn reqs ≠ .enqueueing r rest := by
  cases reqs <;> simp [Handler.goOn]

theorem connStep_moves {z : Zstd} (hc : s.conns c = some conn) {mv : ConnMove}
    (h : s.connStep t c conn mv = some s') : Moves z t s s' := by
  cases mv with
  | frame | returned =>
    simp only [connStep] at h
    split at h
    next hh => exact Option.some.inj h ▸ .on hc (goOn_quiet _) (by simp [hh])
    · cases h
  | refused | answered =>
    simp only [connStep] at h
    split at h
    next hh => exact Option.some.inj h ▸ .on hc (by simp) (by simp [hh])
    · cases h
  | enqueue =>
    simp only [connStep] at h
    split at h
    next q rest hh => exact Option.some.inj h ▸ .enqueue hc rfl (by simp [hh])
    · cases h
  | sent =>
    simp only [connStep] at h
    split at h
    next r rest hh =>
      obtain ⟨s₁, hpush, rfl⟩ := Option.map_eq_some_iff.mp h
      exact .sent hc hh hpush
    · cases h
  | dropped =>
    simp only [connStep] at h
    split at h
    next r rest hh => exact Option.some.inj h ▸ .drop hc hh
    · exact Option.some.inj h ▸ .on hc (by simp) fun _ => rfl

theorem sendStep_moves {z : Zstd} (h : s.sendStep t p = some s') : Moves z t s s' := by
  unfold sendStep at h
  split at h
  · cases h
  rename_i shard records hout
  split at h
  · cases h
    have hsame := Moves.sends (z := z) (t := t) hout (.inl rfl)
    rw [Function.update_eq_self] at hsame
    exact hsame
  · split at h
    · exact Option.some.inj h ▸ .sends hout (.inr rfl)
    · cases h

theorem step_moves {z : Zstd} {mv : Move} (hs : s.step z t mv = some s') : Moves z t s s' := by
  cases mv with
  | accept c shard =>
    simp only [Pipeline.step] at hs
    split at hs
    next hnew => exact Option.some.inj hs ▸ .accept hnew.1 hnew.2
    · cases hs
  | conn c mv =>
    obtain ⟨conn, hc, hstep⟩ := Option.bind_eq_some_iff.mp hs
    exact connStep_moves hc hstep
  | sentLate i =>
    simp only [Pipeline.step] at hs
    split at hs
    · cases hs
    next r hi =>
      obtain ⟨s₁, hpush, rfl⟩ := Option.map_eq_some_iff.mp hs
      exact .sentLate hi hpush
  | refusedLate i => exact Option.some.inj hs ▸ .refusedLate i
  | worker p mv =>
    obtain ⟨⟨w, queue⟩, hstep, rfl⟩ := Option.map_eq_some_iff.mp hs
    exact .worker hstep
  | workerSends p => exact sendStep_moves hs
  | flusher k mv =>
    obtain ⟨⟨f, channel⟩, hstep, rfl⟩ := Option.map_eq_some_iff.mp hs
    exact .flusher hstep

variable {z : Zstd}

/-! ### What a move does to the connections and their units -/

/-- What a move leaves of the connections, and which units it can bring. -/
structure Keeps (t : Topology) (s s' : Pipeline) : Prop where
  conns : ∀ c conn, s.conns c = some conn → ∃ conn', s'.conns c = some conn' ∧
    conn'.shard = conn.shard ∧ (conn.handler = .closed → conn'.handler = .closed)
  pinned : ∀ c conn', s'.conns c = some conn' → conn'.shard < t.shards ∨
    ∃ conn, s.conns c = some conn ∧ conn.shard = conn'.shard
  detached : s'.detached.Sublist s.detached ∨ ∃ c r, s.HeldBy c r ∧
    s'.detached = s.detached ++ [r] ∧ ∀ conn, s'.conns c = some conn → conn.handler = .closed
  made : (s'.nextTx = s.nextTx ∧ ∀ c r, s'.HeldBy c r → s.HeldBy c r) ∨
    s'.nextTx = s.nextTx + 1 ∧ ∃ c conn, s.conns c = some conn ∧ ∀ c' r, s'.HeldBy c' r →
      s.HeldBy c' r ∨ (c' = c ∧ r.shardId = conn.shard ∧ r.unit.ackTx = s.nextTx)

/-- A connection is new, or its handler moves on. -/
theorem setHandler_conns (hc : s.conns c = none ∨ s.conns c = some conn)
    (hclosed : conn.handler = .closed → hd = .closed) :
    ∀ c' conn', s.conns c' = some conn' → ∃ conn₁, (s.setHandler c conn hd).conns c' = some conn₁ ∧
      conn₁.shard = conn'.shard ∧ (conn'.handler = .closed → conn₁.handler = .closed) := by
  intro c' conn' hconn
  by_cases hcc : c' = c
  · subst hcc
    rcases hc with hnone | hsome
    · rw [hnone] at hconn
      cases hconn
    · obtain rfl := Option.some.inj (hsome.symm.trans hconn)
      exact ⟨_, Function.update_self .., rfl, hclosed⟩
  · exact ⟨conn', (Function.update_of_ne hcc ..).trans hconn, rfl, id⟩

theorem setHandler_pinned (hc : conn.shard < t.shards ∨ s.conns c = some conn) :
    ∀ c' conn', (s.setHandler c conn hd).conns c' = some conn' → conn'.shard < t.shards ∨
      ∃ conn₀, s.conns c' = some conn₀ ∧ conn₀.shard = conn'.shard := by
  intro c' conn' hconn
  rcases conns_setHandler hconn with ⟨rfl, rfl⟩ | ⟨_, hold⟩
  · exact hc.imp_right fun hsome => ⟨conn, hsome, rfl⟩
  · exact .inr ⟨conn', hold, rfl⟩

theorem HeldBy.of_quiet (h : (s.setHandler c conn hd).HeldBy c' r)
    (hquiet : ∀ r rest, hd ≠ .enqueueing r rest) : s.HeldBy c' r := by
  rcases h.of_setHandler with hold | ⟨_, rest, hh⟩
  · exact hold.2
  · exact absurd hh (hquiet r rest)

theorem Moves.keeps (hm : Moves z t s s') : Keeps t s s' := by
  cases hm with
  | accept hnew hshard =>
    exact ⟨setHandler_conns (.inl hnew) (by simp), setHandler_pinned (.inl hshard),
      .inl (Sublist.refl _), .inl ⟨rfl, fun _ _ h => h.of_quiet (by simp)⟩⟩
  | on hc hquiet hclosed =>
    exact ⟨setHandler_conns (.inr hc) hclosed, setHandler_pinned (.inr hc),
      .inl (Sublist.refl _), .inl ⟨rfl, fun _ _ h => h.of_quiet hquiet⟩⟩
  | @enqueue c conn u rest hc hu hopen =>
    refine ⟨setHandler_conns (.inr hc) (absurd · hopen), setHandler_pinned (.inr hc),
      .inl (Sublist.refl _), .inr ⟨rfl, c, conn, hc, fun c' r h => ?_⟩⟩
    rcases HeldBy.of_setHandler h with hold | ⟨rfl, _, hh⟩
    · exact .inl hold.2
    · obtain ⟨rfl, rfl⟩ := Handler.enqueueing.inj hh
      exact .inr ⟨rfl, rfl, hu⟩
  | sent hc hr hpush =>
    obtain rfl := push_eq_some hpush
    exact ⟨setHandler_conns (.inr hc) (by simp [hr]), setHandler_pinned (.inr hc),
      .inl (Sublist.refl _), .inl ⟨rfl, fun _ _ h => h.of_quiet (by simp)⟩⟩
  | @drop c conn r rest hc hr =>
    refine ⟨setHandler_conns (.inr hc) fun _ => rfl, setHandler_pinned (.inr hc),
      .inr ⟨c, r, ⟨conn, rest, hc, hr⟩, rfl, fun conn' hconn => ?_⟩,
      .inl ⟨rfl, fun _ _ h => HeldBy.of_quiet h (by simp)⟩⟩
    rcases conns_setHandler hconn with ⟨_, rfl⟩ | ⟨hne, _⟩
    · rfl
    · exact absurd rfl hne
  | sentLate _ hpush =>
    obtain rfl := push_eq_some hpush
    exact ⟨fun _ conn h => ⟨conn, h, rfl, id⟩, fun _ conn h => .inr ⟨conn, h, rfl⟩,
      .inl (eraseIdx_sublist ..), .inl ⟨rfl, fun _ _ h => h⟩⟩
  | refusedLate | worker | sends | flusher =>
    exact ⟨fun _ conn h => ⟨conn, h, rfl, id⟩, fun _ conn h => .inr ⟨conn, h, rfl⟩,
      .inl (by first | exact eraseIdx_sublist .. | exact Sublist.refl _),
      .inl ⟨rfl, fun _ _ h => h⟩⟩

theorem Keeps.mem_detached (h : Keeps t s s') (hmem : r ∈ s'.detached) : s.InFlight r := by
  rcases h.detached with hsub | ⟨c, r₀, hheld, heq, _⟩
  · exact .inr (hsub.subset hmem)
  rw [heq] at hmem
  rcases mem_append.mp hmem with hmem | hmem
  · exact .inr hmem
  · exact .inl ⟨c, mem_singleton.mp hmem ▸ hheld⟩

/-- A move brings at most one new unit, with a new number. -/
theorem Keeps.inFlight (h : Keeps t s s') (hin : s'.InFlight r) :
    s.InFlight r ∨ (r.unit.ackTx = s.nextTx ∧ s'.nextTx = s.nextTx + 1) := by
  rcases hin with ⟨c, hheld⟩ | hmem
  · rcases h.made with ⟨_, hold⟩ | ⟨hnext, c₀, conn, _, hnew⟩
    · exact .inl (.inl ⟨c, hold c r hheld⟩)
    · rcases hnew c r hheld with hold | ⟨_, _, htx⟩
      · exact .inl (.inl ⟨c, hold⟩)
      · exact .inr ⟨htx, hnext⟩
  · exact .inl (h.mem_detached hmem)

theorem Keeps.le (h : Keeps t s s') : s.nextTx ≤ s'.nextTx := by
  rcases h.made with ⟨hnext, _⟩ | ⟨hnext, _⟩ <;> omega

/-! ### Every move keeps the routes -/

/-- What a push does to the lines. -/
theorem push_workerLine (hpush : s.push t r = some s') (p k : Nat) :
    workerLine (s'.workers p) (s'.queues p) k = workerLine (s.workers p) (s.queues p) k
      ++ (if p = t.partition r.shardId ∧ r.shardId = k then [r.unit] else []) := by
  obtain rfl := push_eq_some hpush
  by_cases hp : p = t.partition r.shardId
  · subst hp
    by_cases hk : r.shardId = k
    · simp [workerLine, hk]
    · simp [workerLine, hk]
  · simp [workerLine, hp]

theorem Routes.push (h : s.Routes t) (hr : r.shardId < t.shards) (hpush : s.push t r = some s') :
    s'.Routes t := by
  refine ⟨?_, ?_⟩
  · obtain rfl := push_eq_some hpush
    refine (Function.forall_update_iff _
      fun _ (q : List Routed) => ∀ r' ∈ q, r'.shardId < t.shards).mpr
      ⟨fun r' hr' => ?_, fun p _ => h.shards p⟩
    rcases mem_append.mp hr' with hr' | hr'
    · exact h.shards _ r' hr'
    · rw [mem_singleton.mp hr']
      exact hr
  · intro p k hne
    rw [push_workerLine hpush] at hne
    by_cases hpk : p = t.partition r.shardId ∧ r.shardId = k
    · rw [hpk.1, hpk.2]
    · rw [if_neg hpk, append_nil] at hne
      exact h.lines p k hne

theorem Routes.worker (h : s.Routes t) {mv : WorkerMove} {w' : Worker}
    {queue' : List Routed} (hs : (s.workers p).step t (s.queues p) mv = some (w', queue')) :
    ({ s with
      workers := Function.update s.workers p w'
      queues := Function.update s.queues p queue' } : Pipeline).Routes t := by
  obtain ⟨hqueue, hline⟩ := Worker.step_line (h.shards p) hs
  refine ⟨(Function.forall_update_iff _
    fun _ (q : List Routed) => ∀ r ∈ q, r.shardId < t.shards).mpr
    ⟨fun r hr => h.shards p r (hqueue.subset hr), fun p' _ => h.shards p'⟩, ?_⟩
  intro p' k hne
  dsimp only at hne
  by_cases hp : p' = p
  · subst hp
    rw [Function.update_self, Function.update_self] at hne
    refine h.lines p' k fun hnil => hne ?_
    exact List.sublist_nil.mp (hnil ▸ hline k)
  · rw [Function.update_of_ne hp, Function.update_of_ne hp] at hne
    exact h.lines p' k hne

/-- What a send does to the worker: the batch is gone from it. -/
theorem workerLine_sent {w : Worker}
    (hout : w.outgoing = some (shard, records)) (queue : List Routed) (k : Nat) :
    workerLine w queue k = (if shard = k then records else [])
      ++ workerLine { w with outgoing := none } queue k := by
  simp [workerLine, Worker.sending, hout]

theorem Routes.sends (h : s.Routes t)
    {channels : Nat → List Batch} (hout : (s.workers p).outgoing = some (shard, records)) :
    ({ s with
      workers := Function.update s.workers p { s.workers p with outgoing := none }
      channels := channels } : Pipeline).Routes t := by
  refine ⟨h.shards, ?_⟩
  intro p' k hne
  dsimp only at hne
  by_cases hp : p' = p
  · subst hp
    rw [Function.update_self] at hne
    refine h.lines p' k ?_
    intro hnil
    rw [workerLine_sent hout, append_eq_nil_iff] at hnil
    exact hne hnil.2
  · rw [Function.update_of_ne hp] at hne
    exact h.lines p' k hne

theorem Routes.step (h : s.Routes t) (hin : ∀ r, s.InFlight r → r.shardId < t.shards)
    (hm : Moves z t s s') : s'.Routes t := by
  cases hm with
  | sent hc hr hpush =>
    have h₁ := h.push (hin _ (.inl ⟨_, _, _, hc, hr⟩)) hpush
    exact ⟨h₁.shards, h₁.lines⟩
  | sentLate hi hpush =>
    have h₁ := h.push (hin _ (.inr (mem_of_getElem? hi))) hpush
    exact ⟨h₁.shards, h₁.lines⟩
  | worker hstep => exact h.worker hstep
  | sends hout _ => exact h.sends hout
  | accept | on | enqueue | drop | refusedLate | flusher => exact ⟨h.shards, h.lines⟩

/-! ### What a move does to the line of a shard -/

theorem step_line (h : s.Routes t) (hm : Moves z t s s') (k : Nat) :
    Flows (fun u => s.InFlight ⟨k, u⟩) (s.line t k) (s'.line t k) := by
  have hpushed : ∀ {s₁ : Pipeline} {r : Routed}, s.push t r = some s₁ → s.InFlight r →
      Flows (fun u => s.InFlight ⟨k, u⟩) (s.line t k) (s₁.line t k) := by
    intro s₁ r hpush hin
    have hflusher : s₁.flushers = s.flushers ∧ s₁.channels = s.channels := by
      obtain rfl := push_eq_some hpush
      exact ⟨rfl, rfl⟩
    rw [line, line, hflusher.1, hflusher.2, push_workerLine hpush, ← append_assoc]
    split
    next hrk => exact .joins (hrk.2 ▸ hin)
    · rw [append_nil]; exact .refl _
  cases hm with
  | sent hc hr hpush =>
    have hflows := hpushed hpush (.inl ⟨_, _, _, hc, hr⟩)
    exact hflows
  | sentLate hi hpush =>
    have hflows := hpushed hpush (.inr (mem_of_getElem? hi))
    exact hflows
  | accept | on | enqueue | drop | refusedLate => exact .refl _
  | @worker p mv w queue hstep =>
    obtain ⟨_, hline⟩ := Worker.step_line (h.shards p) hstep
    refine .drops ?_
    dsimp only [line]
    by_cases hp : t.partition k = p
    · subst hp
      rw [Function.update_self, Function.update_self]
      exact List.Sublist.append (List.Sublist.refl _) (hline k)
    · rw [Function.update_of_ne hp, Function.update_of_ne hp]
  | @sends p shard records channel hout hchannel =>
    refine .drops ?_
    -- the batch leaves the worker and, unless it is dropped, joins the channel
    have hchannels :
        (flusherLine (s.flushers k) (Function.update s.channels shard channel k)).Sublist
        (flusherLine (s.flushers k) (s.channels k) ++ if shard = k then records else []) := by
      by_cases hk : shard = k
      · subst hk
        rw [Function.update_self, if_pos rfl]
        rcases hchannel with rfl | rfl
        · exact sublist_append_left ..
        · rw [flusherLine_concat]
      · rw [Function.update_of_ne (Ne.symm hk), if_neg hk, append_nil]
    dsimp only [line]
    by_cases hp : t.partition k = p
    · rw [hp, Function.update_self, workerLine_sent hout, ← append_assoc]
      exact List.Sublist.append hchannels (List.Sublist.refl _)
    rw [Function.update_of_ne hp]
    refine List.Sublist.append ?_ (List.Sublist.refl _)
    have hempty : (if shard = k then records else []) = [] := by
      by_contra hne
      refine hp (h.lines p k ?_)
      rw [workerLine_sent hout]
      exact append_ne_nil_of_left_ne_nil hne _
    rw [hempty, append_nil] at hchannels
    exact hchannels
  | @flusher k' mv f channel hstep =>
    dsimp only [line]
    by_cases hk : k = k'
    · subst hk
      rw [Function.update_self, Function.update_self]
      exact Flusher.step_line hstep _ _
    · rw [Function.update_of_ne hk, Function.update_of_ne hk]
      exact .refl _

/-! ## Every unit has one home -/

/-- The units with number `n` are of `shard` and of connection `c`, which is pinned to it;
once one is on its own, it is the only one and `c` is closed. -/
structure OnlyAt (t : Topology) (c shard n : Nat) (s : Pipeline) : Prop where
  present : ∃ conn, s.conns c = some conn ∧ conn.shard = shard
  held : ∀ c' r, s.HeldBy c' r → r.unit.ackTx = n → c' = c ∧ r.shardId = shard
  gone : ∀ r ∈ s.detached, r.unit.ackTx = n → r.shardId = shard ∧
    ∀ conn, s.conns c = some conn → conn.handler = .closed
  once : s.detached.Pairwise fun r r' => r.unit.ackTx = n → r'.unit.ackTx ≠ n
  line : ∀ k, ∀ u ∈ s.line t k, u.ackTx = n → k = shard
  known : n < s.nextTx

theorem OnlyAt.shardId {n : Nat} (h : s.OnlyAt t c shard n) (hin : s.InFlight r)
    (hn : r.unit.ackTx = n) : r.shardId = shard := by
  rcases hin with ⟨c', hheld⟩ | hmem
  · exact (h.held c' r hheld hn).2
  · exact (h.gone r hmem hn).1

theorem OnlyAt.step {n : Nat} (h : s.OnlyAt t c shard n) (hr : s.Routes t)
    (hm : Moves z t s s') : s'.OnlyAt t c shard n := by
  have hk := hm.keeps
  obtain ⟨conn, hconn, hshard⟩ := h.present
  obtain ⟨conn', hconn', hshard', hclosed⟩ := hk.conns c conn hconn
  have hgone : ∀ r ∈ s.detached, r.unit.ackTx = n → r.shardId = shard ∧
      ∀ conn, s'.conns c = some conn → conn.handler = .closed := by
    intro r hmem hn
    obtain ⟨hrs, hcl⟩ := h.gone r hmem hn
    exact ⟨hrs, fun conn₁ h₁ => Option.some.inj (hconn'.symm.trans h₁) ▸ hclosed (hcl conn hconn)⟩
  refine ⟨⟨conn', hconn', hshard'.trans hshard⟩, fun c' r hheld hn => ?_, ?_, ?_,
    fun k u hu hn => ?_, lt_of_lt_of_le h.known hk.le⟩
  · rcases hk.made with ⟨_, hold⟩ | ⟨_, c₀, conn₀, _, hnew⟩
    · exact h.held c' r (hold c' r hheld) hn
    · rcases hnew c' r hheld with hold | ⟨_, _, htx⟩
      · exact h.held c' r hold hn
      · exact absurd h.known (by omega)
  · rcases hk.detached with hsub | ⟨c₀, r₀, hheld, heq, hcl⟩
    · exact fun r hmem => hgone r (hsub.subset hmem)
    intro r hmem hn
    rw [heq] at hmem
    rcases mem_append.mp hmem with hmem | hmem
    · exact hgone r hmem hn
    · obtain rfl := mem_singleton.mp hmem
      obtain ⟨rfl, hrs⟩ := h.held c₀ r hheld hn
      exact ⟨hrs, hcl⟩
  · rcases hk.detached with hsub | ⟨c₀, r₀, ⟨conn₀, rest, hc₀, hh₀⟩, heq, _⟩
    · exact h.once.sublist hsub
    rw [heq]
    refine pairwise_append.mpr ⟨h.once, pairwise_singleton _ _, fun r hmem r' hr' hn hn' => ?_⟩
    -- the handler that lets go of its unit was open
    obtain rfl := mem_singleton.mp hr'
    obtain ⟨rfl, _⟩ := h.held c₀ r' ⟨conn₀, rest, hc₀, hh₀⟩ hn'
    have := (h.gone r hmem hn).2 conn₀ hc₀
    rw [hh₀] at this
    cases this
  · rcases (step_line hr hm k).mem hu with hu | hin
    · exact h.line k u hu hn
    · exact h.shardId hin hn

/-- What holds of the daemon's connections and queues. -/
structure Sound (t : Topology) (s : Pipeline) : Prop where
  routes : s.Routes t
  pinned : ∀ c conn, s.conns c = some conn → conn.shard < t.shards
  owned : ∀ n < s.nextTx, ∃ c shard, s.OnlyAt t c shard n
  numbered : ∀ r, s.InFlight r → r.unit.ackTx < s.nextTx
  line : ∀ k, ∀ u ∈ s.line t k, u.ackTx < s.nextTx

theorem Sound.onlyAt (h : s.Sound t) (hin : s.InFlight r) :
    ∃ c, s.OnlyAt t c r.shardId r.unit.ackTx := by
  obtain ⟨c, shard, honly⟩ := h.owned _ (h.numbered r hin)
  exact ⟨c, honly.shardId hin rfl ▸ honly⟩

theorem Sound.step (h : s.Sound t) (hm : Moves z t s s') : s'.Sound t := by
  have hk := hm.keeps
  have hshards : ∀ r, s.InFlight r → r.shardId < t.shards := by
    intro r hin
    obtain ⟨c, honly⟩ := h.onlyAt hin
    obtain ⟨conn, hconn, hshard⟩ := honly.present
    exact hshard ▸ h.pinned c conn hconn
  have hold : ∀ k, ∀ u ∈ s'.line t k, u.ackTx < s.nextTx := by
    intro k u hu
    rcases (step_line h.routes hm k).mem hu with hu | hin
    · exact h.line k u hu
    · exact h.numbered _ hin
  refine ⟨h.routes.step hshards hm, fun c conn' hconn => ?_, fun n hn => ?_, fun r hin => ?_,
    fun k u hu => lt_of_lt_of_le (hold k u hu) hk.le⟩
  · rcases hk.pinned c conn' hconn with hlt | ⟨conn, hconn₀, hshard⟩
    · exact hlt
    · exact hshard ▸ h.pinned c conn hconn₀
  · by_cases hlt : n < s.nextTx
    · obtain ⟨c, shard, honly⟩ := h.owned n hlt
      exact ⟨c, shard, honly.step h.routes hm⟩
    -- the number is new, so whatever has it is at the handler that made it
    rcases hk.made with ⟨hnext, _⟩ | ⟨hnext, c, conn, hconn, hnew⟩
    · omega
    obtain rfl : n = s.nextTx := by omega
    obtain ⟨conn', hconn', hshard, _⟩ := hk.conns c conn hconn
    have hdetached : ∀ r ∈ s'.detached, r.unit.ackTx ≠ s.nextTx :=
      fun r hmem => ne_of_lt (h.numbered r (hk.mem_detached hmem))
    refine ⟨c, conn.shard, ⟨conn', hconn', hshard⟩, fun c' r hheld htx => ?_,
      fun r hmem htx => absurd htx (hdetached r hmem), ?_,
      fun k u hu htx => absurd (hold k u hu) (by omega), by omega⟩
    · rcases hnew c' r hheld with hold | ⟨rfl, hrs, _⟩
      · exact absurd (h.numbered r (.inl ⟨c', hold⟩)) (by omega)
      · exact ⟨rfl, hrs⟩
    · exact pairwise_of_forall_mem_list fun r hmem r' _ htx => absurd htx (hdetached r hmem)
  · rcases hk.inFlight hin with hin | ⟨htx, hnext⟩
    · exact lt_of_lt_of_le (h.numbered r hin) hk.le
    · omega

end Pipeline

end Weir.Ingest

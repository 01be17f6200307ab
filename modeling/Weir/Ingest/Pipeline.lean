import Weir.Wab.Flush
import Weir.Lib.Program

/-!
# From the socket to the segment files

Connections push records into a queue with one partition per worker
(`queue.rs`); each worker sorts what it receives into one buffer per shard and
sends full or due buffers to the shard's flusher (`worker.rs`); each flusher
collects batches and writes them (`wab/mod.rs`). All of them are threads, so the
daemon is a transition system (`Pipeline.step`): a move is one step of one
thread, and a run is any sequence of moves.

Time is not modelled: a wait that may time out has a move for it. A flusher
that dies stays dead, its batches are dropped, and so is what a worker sends to
it; a respawned flusher is out of the model.
-/

namespace Weir.Ingest

open Weir.Lib Weir.Wab

/-- A `WorkUnit` in the queue, with the `shard_id` the workers read. -/
structure Routed where
  shardId : Nat
  unit : WorkUnit
  deriving DecidableEq, Repr

/-- The daemon's threads. `workers` is also the number of queue partitions. -/
structure Topology where
  workers : Nat
  shards : Nat
  batchSize : Nat
  deriving DecidableEq, Repr

/-- `QUEUE_CAPACITY`. -/
def queueCapacity : Nat := 65536

namespace Topology

/-- The capacity `queue::new` gives each partition. -/
def perPartition (t : Topology) : Nat := max (queueCapacity / t.workers) 1

/-- The sub-channel `try_push` and `push_timeout` select. -/
def partition (t : Topology) (key : Nat) : Nat := key % t.workers

/-- The capacity `spawn_flushers` gives each shard's channel. -/
def channelCapacity (t : Topology) : Nat := t.batchSize * 4

end Topology

/-! ## Connections -/

/-- A record of a push frame. -/
structure Request where
  payload : Bytes
  durability : Durability
  wantsCoordinate : Bool
  deriving DecidableEq, Repr

/-- Where a connection's handler is: between frames, before the next record of a
frame, inside the enqueue of a record (before and after the channel took it),
waiting for acks, or gone. -/
inductive Handler
  | idle
  | next (rest : List Request)
  | enqueueing (r : Routed) (rest : List Request)
  | enqueued (r : Routed) (rest : List Request)
  | waiting
  | closed
  deriving DecidableEq, Repr

/-- The enqueue loop of `handle_push` (one record) and `handle_push_batch`. -/
def Handler.goOn : List Request → Handler
  | [] => .waiting
  | rest => .next rest

/-- A connection: the shard it was pinned to at accept, and its handler. -/
structure Conn where
  shard : Nat
  handler : Handler
  deriving DecidableEq, Repr

/-! ## Workers -/

/-- `is_fsync_tier`. -/
def isFsyncTier : Durability → Bool
  | .durable => true
  | .buffered => false

/-- Where a worker's `run` loop is: at `recv_timeout`, in the wait-free drain, in
the coalesce window, in `flush_all` before a shard (`last` on disconnect), or
gone. -/
inductive Stage
  | receiving
  | draining (hasFsyncTier : Bool) (totalDrained : Nat)
  | coalescing (totalDrained : Nat)
  | flushing (shard : Nat) (last : Bool)
  | exited
  deriving DecidableEq, Repr

/-- A worker. `outgoing` is the batch it is sending, with its shard. -/
structure Worker where
  buffers : Nat → List WorkUnit
  outgoing : Option (Nat × List WorkUnit)
  expectConcurrent : Bool
  stage : Stage

namespace Worker

/-- `Worker::new`. -/
def new : Worker := ⟨fun _ => [], none, false, .receiving⟩

/-- `flush_shard`: the buffer becomes the batch that is sent. -/
def flushShard (w : Worker) (shard : Nat) : Worker :=
  if w.buffers shard = [] then w
  else
    { w with
      buffers := Function.update w.buffers shard []
      outgoing := some (shard, w.buffers shard) }

/-- A record goes to its shard's buffer, which is flushed when it is full. -/
def keep (t : Topology) (w : Worker) (r : Routed) : Worker :=
  let shard := r.shardId % t.shards
  let w := { w with buffers := Function.update w.buffers shard (w.buffers shard ++ [r.unit]) }
  if t.batchSize ≤ (w.buffers shard).length then w.flushShard shard else w

/-- The end of a turn: the prediction for the next one, then `flush_all`. -/
def endTurn (w : Worker) (totalDrained : Nat) : Worker :=
  { w with expectConcurrent := decide (2 ≤ totalDrained), stage := .flushing 0 false }

end Worker

/-- A worker's moves, but for its sends. -/
inductive WorkerMove
  | receive
  | timeOut
  | disconnect
  | drain
  | runDry
  | coalesce
  | closeWindow
  | flushNext
  | die
  deriving DecidableEq, Repr

/-- One step of `Worker::run` on the worker's partition of the queue. -/
def Worker.step (t : Topology) (w : Worker) (queue : List Routed) :
    WorkerMove → Option (Worker × List Routed)
  | .receive =>
    match w.outgoing, w.stage, queue with
    | none, .receiving, r :: queue =>
      some ({ w.keep t r with stage := .draining (isFsyncTier r.unit.durability) 1 }, queue)
    | _, _, _ => none
  | .timeOut =>
    match w.outgoing, w.stage, queue with
    | none, .receiving, [] =>
      some ({ w with expectConcurrent := false, stage := .flushing 0 false }, [])
    | _, _, _ => none
  | .disconnect =>
    match w.outgoing, w.stage, queue with
    | none, .receiving, [] => some ({ w with stage := .flushing 0 true }, [])
    | _, _, _ => none
  | .drain =>
    match w.outgoing, w.stage, queue with
    | none, .draining hasFsyncTier n, r :: queue =>
      some ({ w.keep t r with
        stage := .draining (hasFsyncTier || isFsyncTier r.unit.durability) (n + 1) }, queue)
    | _, _, _ => none
  | .runDry =>
    match w.outgoing, w.stage, queue with
    | none, .draining hasFsyncTier n, [] =>
      -- the window only pays off when the batch will be fsynced
      if w.expectConcurrent && hasFsyncTier then some ({ w with stage := .coalescing n }, [])
      else some (w.endTurn n, [])
    | _, _, _ => none
  | .coalesce =>
    match w.outgoing, w.stage, queue with
    | none, .coalescing n, r :: queue =>
      some ({ w.keep t r with stage := .coalescing (n + 1) }, queue)
    | _, _, _ => none
  | .closeWindow =>
    match w.outgoing, w.stage with
    | none, .coalescing n => some (w.endTurn n, queue)
    | _, _ => none
  | .flushNext =>
    match w.outgoing, w.stage with
    | none, .flushing shard last =>
      if shard < t.shards then
        some ({ w.flushShard shard with stage := .flushing (shard + 1) last }, queue)
      else some ({ w with stage := if last then .exited else .receiving }, queue)
    | _, _ => none
  | .die => some ({ w with buffers := fun _ => [], outgoing := none, stage := .exited }, queue)

/-! ## Flushers -/

/-- Where a flusher is: at `recv_timeout`, draining its channel, inside
`flush_batch` (writing, at the group fsync, at the last acks), after it, at the
shutdown seal, or gone. -/
inductive Phase
  | receiving
  | draining
  | writing (todo : List WorkUnit)
  | acking
  | resting
  | closing
  | exited
  deriving DecidableEq, Repr

/-- A flusher. `st` holds its writer, the acks it owes, and its whole trace. -/
structure Flusher where
  st : FlushState
  batches : List Batch
  recordCount : Nat
  phase : Phase

/-- A seal of the active segment before it is full, and whether its hand-off
reached the drain. -/
structure TimedSeal where
  io : SealIo
  delivered : Bool

/-- A flusher's moves. -/
inductive FlusherMove
  | receive
  | timeOut (due : Option TimedSeal)
  | disconnect
  | drain
  | beginFlush
  | write (io : WriteIo) (delivered : Bool)
  | groupFsync (fault : Option IoError)
  | ackDurable
  | rest (due : Option TimedSeal)
  | close (io : SealIo) (delivered : Bool)
  | die

namespace Flusher

/-- `flusher_thread` after its warm-up, for a writer whose counter is established. -/
def new (w : ShardWriter) : Flusher := ⟨⟨w, [], [], []⟩, [], 0, .receiving⟩

def take (f : Flusher) (b : Batch) : Flusher :=
  { f with batches := f.batches ++ [b], recordCount := f.recordCount + b.records.length }

/-- The start of `flush_batch`: all collected records, in order. -/
def begin (f : Flusher) : Flusher :=
  { f with batches := [], recordCount := 0, phase := .writing (unitsOf f.batches) }

/-- `seal_before_size_threshold`, and the shutdown seal. -/
def sealNow (z : Zstd) (f : Flusher) (io : SealIo) (delivered : Bool) : Flusher :=
  { f with
    st := { f.st with
      writer := (flusherCall z f.st.writer (.sealCurrent io delivered)).1
      trace := f.st.trace ++ (flusherCall z f.st.writer (.sealCurrent io delivered)).2 } }

/-- A timed seal, when one is due and a segment is open. -/
def sealIfDue (z : Zstd) (f : Flusher) : Option TimedSeal → Flusher
  | none => f
  | some due => if f.st.writer.active.isSome then f.sealNow z due.io due.delivered else f

/-- One step of `flusher_thread` on its channel. -/
def step (z : Zstd) (t : Topology) (f : Flusher) (channel : List Batch) :
    FlusherMove → Option (Flusher × List Batch)
  | .receive =>
    match f.phase, channel with
    | .receiving, b :: channel => some ({ f.take b with phase := .draining }, channel)
    | _, _ => none
  | .timeOut due =>
    match f.phase, channel with
    | .receiving, [] =>
      if f.batches = [] then some (f.sealIfDue z due, []) else some (f.begin, [])
    | _, _ => none
  | .disconnect =>
    match f.phase, channel with
    | .receiving, [] => some ({ f with phase := .closing }, [])
    | _, _ => none
  | .drain =>
    match f.phase, channel with
    | .draining, b :: channel =>
      if f.recordCount < t.batchSize then some (f.take b, channel) else none
    | _, _ => none
  | .beginFlush =>
    match f.phase with
    | .draining =>
      if f.recordCount < t.batchSize ∧ channel ≠ [] then none else some (f.begin, channel)
    | _ => none
  | .write io delivered =>
    match f.phase with
    | .writing (u :: us) =>
      some ({ f with st := flushUnit z io delivered f.st u, phase := .writing us }, channel)
    | _ => none
  | .groupFsync fault =>
    match f.phase with
    | .writing [] =>
      some ({ f with st := Wab.groupFsync fault f.st, phase := .acking }, channel)
    | _ => none
  | .ackDurable =>
    match f.phase with
    | .acking =>
      some ({ f with
        st := { f.st with
          durableAcks := []
          trace := f.st.trace ++ f.st.durableAcks.map (·.resolve true) }
        phase := .resting }, channel)
    | _ => none
  | .rest due =>
    match f.phase with
    | .resting => some ({ f.sealIfDue z due with phase := .receiving }, channel)
    | _ => none
  | .close io delivered =>
    match f.phase with
    | .closing => some ({ f.sealNow z io delivered with phase := .exited }, channel)
    | _ => none
  | .die =>
    -- the receiver is dropped with what is in the channel
    some ({ f with batches := [], recordCount := 0, phase := .exited }, [])

/-- The records a flush still has to write. -/
def todo (f : Flusher) : List WorkUnit :=
  match f.phase with
  | .writing us => us
  | _ => []

end Flusher

/-! ## The daemon -/

/-- The threads and the channels between them. `detached` are the units of
handlers that were dropped inside `push_timeout`, which goes on without them;
`nextTx` numbers the ack channels. -/
structure Pipeline where
  conns : Nat → Option Conn
  detached : List Routed
  nextTx : Nat
  queues : Nat → List Routed
  workers : Nat → Worker
  channels : Nat → List Batch
  flushers : Nat → Flusher

/-- A move of a connection's handler. -/
inductive ConnMove
  | frame (requests : List Request)
  | enqueue
  | sent
  | refused
  | returned
  | answered
  | dropped
  deriving DecidableEq, Repr

/-- A move of the daemon. -/
inductive Move
  | accept (c shard : Nat)
  | conn (c : Nat) (mv : ConnMove)
  | sentLate (i : Nat)
  | refusedLate (i : Nat)
  | worker (w : Nat) (mv : WorkerMove)
  | workerSends (w : Nat)
  | flusher (shard : Nat) (mv : FlusherMove)

namespace Pipeline

/-- The daemon at the start, before any connection, with the writers of its shards. -/
def start (writers : Nat → ShardWriter) : Pipeline where
  conns := fun _ => none
  detached := []
  nextTx := 0
  queues := fun _ => []
  workers := fun _ => .new
  channels := fun _ => []
  flushers := fun k => .new (writers k)

def setHandler (s : Pipeline) (c : Nat) (conn : Conn) (h : Handler) : Pipeline :=
  { s with conns := Function.update s.conns c (some { conn with handler := h }) }

/-- The queue takes a unit, if its partition has room. -/
def push (t : Topology) (s : Pipeline) (r : Routed) : Option Pipeline :=
  let p := t.partition r.shardId
  if (s.queues p).length < t.perPartition then
    some { s with queues := Function.update s.queues p (s.queues p ++ [r]) }
  else none

/-- A step of a connection's handler: a push frame was read and accepted; the next
record's unit is made and its enqueue begins; the channel takes it; the channel
stays full; the enqueue returns; the frame is answered; the task is dropped. -/
def connStep (t : Topology) (s : Pipeline) (c : Nat) (conn : Conn) : ConnMove → Option Pipeline
  | .frame requests =>
    match conn.handler with
    | .idle => some (s.setHandler c conn (.goOn requests))
    | _ => none
  | .enqueue =>
    match conn.handler with
    | .next (q :: rest) =>
      let r := ⟨conn.shard, ⟨q.payload, q.durability, q.wantsCoordinate, s.nextTx⟩⟩
      some { s.setHandler c conn (.enqueueing r rest) with nextTx := s.nextTx + 1 }
    | _ => none
  | .sent =>
    match conn.handler with
    | .enqueueing r rest => (s.push t r).map fun s => s.setHandler c conn (.enqueued r rest)
    | _ => none
  | .refused =>
    match conn.handler with
    | .enqueueing _ _ => some (s.setHandler c conn .waiting)
    | _ => none
  | .returned =>
    match conn.handler with
    | .enqueued _ rest => some (s.setHandler c conn (.goOn rest))
    | _ => none
  | .answered =>
    match conn.handler with
    | .waiting => some (s.setHandler c conn .idle)
    | _ => none
  | .dropped =>
    match conn.handler with
    | .enqueueing r _ =>
      some { s.setHandler c conn .closed with detached := s.detached ++ [r] }
    | _ => some (s.setHandler c conn .closed)

/-- A worker's blocked send goes through, or its receiver is gone. -/
def sendStep (t : Topology) (s : Pipeline) (w : Nat) : Option Pipeline :=
  match (s.workers w).outgoing with
  | none => none
  | some (shard, records) =>
    let s' := { s with
      workers := Function.update s.workers w { s.workers w with outgoing := none } }
    if (s.flushers shard).phase = .exited then some s'
    else if (s.channels shard).length < t.channelCapacity then
      some { s' with
        channels := Function.update s.channels shard (s.channels shard ++ [⟨records⟩]) }
    else none

/-- One move of the daemon. -/
def step (z : Zstd) (t : Topology) (s : Pipeline) : Move → Option Pipeline
  | .accept c shard =>
    -- `pick_live` gives an index of the shard registry
    if s.conns c = none ∧ shard < t.shards then
      some { s with conns := Function.update s.conns c (some ⟨shard, .idle⟩) }
    else none
  | .conn c mv => (s.conns c).bind fun conn => s.connStep t c conn mv
  | .sentLate i =>
    match s.detached[i]? with
    | none => none
    | some r => (s.push t r).map fun s => { s with detached := s.detached.eraseIdx i }
  | .refusedLate i => some { s with detached := s.detached.eraseIdx i }
  | .worker w mv =>
    ((s.workers w).step t (s.queues w) mv).map fun (worker, queue) =>
      { s with
        workers := Function.update s.workers w worker
        queues := Function.update s.queues w queue }
  | .workerSends w => s.sendStep t w
  | .flusher k mv =>
    ((s.flushers k).step z t (s.channels k) mv).map fun (flusher, channel) =>
      { s with
        flushers := Function.update s.flushers k flusher
        channels := Function.update s.channels k channel }

/-- The daemon can get from `s` to `s'`. -/
abbrev Reaches (z : Zstd) (t : Topology) (s s' : Pipeline) : Prop :=
  Run (step z t) (fun _ _ => True) s s'

end Pipeline

end Weir.Ingest

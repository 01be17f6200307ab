import Weir.Client.Exchange

/-!
# Histories of calls on one client

Calls are made in turn on a client, whatever its peer sends. A history keeps for each
call what it returned and which bytes it wrote and read.

> `Call.run_inStep`: a call that leaves the client usable wrote one request and read one
> frame, or did neither.

> `client_in_step`: so over every history, and a poisoned client is silent.
-/

namespace Weir.Client

open Weir.Lib Weir.Wab Weir.Wire

/-! ## Calls -/

/-- A call of a client's method. -/
inductive Call
  | setDefaultDurability (durability : Durability)
  | push (payload : Bytes) (durability : Durability)
  | pushDefault (payload : Bytes)
  | pushTracked (payload : Bytes) (durability : Durability)
  | pushTrackedDefault (payload : Bytes)
  | pushBatch (records : List Bytes) (durability : Durability)
  | healthCheck
  deriving DecidableEq, Repr

/-- What a call returns with `Ok`. -/
inductive Value
  | unit
  | coordinate (coordinate : RecordCoordinate)
  | outcome (accepted : List Bool)
  deriving DecidableEq

/-- The value of a method as the value of a call. -/
def lift {α : Type} (f : α → Value) (r : Except ClientError α × WeirClient) :
    Except ClientError Value × WeirClient :=
  (r.1.map f, r.2)

def Call.run (c : WeirClient) : Call → Except ClientError Value × WeirClient
  | .setDefaultDurability d => (.ok .unit, { c with defaultDurability := some d })
  | .push payload d => lift (fun _ => .unit) (c.push payload d)
  | .pushDefault payload => lift (fun _ => .unit) (c.pushDefault payload)
  | .pushTracked payload d => lift .coordinate (c.pushTracked payload d)
  | .pushTrackedDefault payload => lift .coordinate (c.pushTrackedDefault payload)
  | .pushBatch records d => lift .outcome (c.pushBatch records d)
  | .healthCheck => lift (fun _ => .unit) c.healthCheck

/-- The request a call sends, on a client with a default tier. -/
def Call.request (dflt : Option Durability) : Call → Option Envelope
  | .setDefaultDurability _ => none
  | .push payload d => some (recordRequest .push payload d)
  | .pushDefault payload => dflt.map (recordRequest .push payload)
  | .pushTracked payload d => some (recordRequest .pushTracked payload d)
  | .pushTrackedDefault payload => dflt.map (recordRequest .pushTracked payload)
  | .pushBatch records d => some (batchRequest records d)
  | .healthCheck => some healthRequest

/-- The reply is the one the call asks for, and carries the value. -/
def Call.Means (reply : Envelope) : Call → Value → Prop
  | .push _ _, .unit | .pushDefault _, .unit => reply.header.messageType = .ack
  | .pushTracked _ _, .coordinate v | .pushTrackedDefault _, .coordinate v =>
    reply.header.messageType = .ackTracked ∧ RecordCoordinate.decode reply.payload = .ok v
  | .pushBatch records _, .outcome v =>
    reply.header.messageType = .ackBatch ∧ decodeAckBatch reply.payload records.length = .ok v
  | .healthCheck, .unit => reply.header.messageType = .healthCheckResponse
  | _, _ => False

variable {c : WeirClient}

theorem Exchanged.lift {α : Type} {request : Envelope} {means : Envelope → α → Prop}
    {r : Except ClientError α × WeirClient} (h : Exchanged c request means r) (f : α → Value)
    {means' : Envelope → Value → Prop} (hmeans : ∀ reply v, means reply v → means' reply (f v)) :
    Exchanged c request means' (Client.lift f r) := by
  cases h with
  | silent e => exact .silent e
  | broken h => exact .broken h
  | @spoke result c' reply h husable hok =>
    refine .spoke h husable fun v hv => ?_
    cases result with
    | error e => cases hv
    | ok w =>
      rw [← Except.ok.inj hv]
      exact hmeans reply w (hok w rfl)

/-- The call leaves the connection alone, and returns `Ok` only where it asks nothing of the
peer. -/
def Call.Local (c : WeirClient) (call : Call) : Prop :=
  (call.run c).2.stream = c.stream ∧ (call.run c).2.isPoisoned = c.isPoisoned ∧
    ∀ v, (call.run c).1 = .ok v → ∃ d, call = .setDefaultDurability d

/-- A call that has a request exchanges it for a reply. -/
theorem Call.run_spec (c : WeirClient) (call : Call) :
    call.Local c ∨ ∃ request, call.request c.defaultDurability = some request ∧
      Exchanged c request (fun reply => call.Means reply) (call.run c) := by
  cases call with
  | setDefaultDurability d => exact .inl ⟨rfl, rfl, fun _ _ => ⟨d, rfl⟩⟩
  | push payload d =>
    exact .inr ⟨_, rfl, (c.push_exchanged payload d).lift (fun _ => .unit) fun _ _ h => h⟩
  | pushTracked payload d =>
    exact .inr ⟨_, rfl, (c.pushTracked_exchanged payload d).lift .coordinate fun _ _ h => h⟩
  | pushBatch records d =>
    exact .inr ⟨_, rfl, (c.pushBatch_exchanged records d).lift .outcome fun _ _ h => h⟩
  | healthCheck =>
    exact .inr ⟨_, rfl, c.healthCheck_exchanged.lift (fun _ => .unit) fun _ _ h => h⟩
  | pushDefault payload =>
    cases hd : c.defaultDurability with
    | none =>
      simp [Local, run, WeirClient.pushDefault, hd, Client.lift, Except.map]
    | some d =>
      refine .inr ⟨recordRequest .push payload d, rfl, ?_⟩
      rw [run, WeirClient.pushDefault, hd]
      exact (c.push_exchanged payload d).lift (fun _ => .unit) fun _ _ h => h
  | pushTrackedDefault payload =>
    cases hd : c.defaultDurability with
    | none =>
      simp [Local, run, WeirClient.pushTrackedDefault, hd, Client.lift, Except.map]
    | some d =>
      refine .inr ⟨recordRequest .pushTracked payload d, rfl, ?_⟩
      rw [run, WeirClient.pushTrackedDefault, hd]
      exact (c.pushTracked_exchanged payload d).lift .coordinate fun _ _ h => h

/-- On a poisoned client every call is local. -/
theorem Call.local_of_poisoned (h : c.isPoisoned = true) (call : Call) : call.Local c := by
  obtain ⟨e, he⟩ := c.ensureUsable_error h
  cases call with
  | setDefaultDurability d => exact ⟨rfl, rfl, fun _ _ => ⟨d, rfl⟩⟩
  | push payload d | pushTracked payload d =>
    simp [Local, run, Client.lift, WeirClient.push, WeirClient.pushTracked, WeirClient.sendRecord,
      he, Except.map]
  | pushBatch records d => simp [Local, run, Client.lift, WeirClient.pushBatch, he, Except.map]
  | healthCheck => simp [Local, run, Client.lift, WeirClient.healthCheck, he, Except.map]
  | pushDefault payload | pushTrackedDefault payload =>
    cases hd : c.defaultDurability <;>
      simp [Local, run, WeirClient.pushDefault, WeirClient.pushTrackedDefault, hd, Client.lift,
        WeirClient.push, WeirClient.pushTracked, WeirClient.sendRecord, he, Except.map]

/-! ## Histories of calls -/

/-- One call of a history: what it returned, and the bytes it wrote and read. -/
structure Entry where
  call : Call
  /-- The client's default tier when the call was made. -/
  dflt : Option Durability
  result : Except ClientError Value
  sent : Bytes
  taken : Bytes

/-- A call on a client, as a history records it. -/
def Call.entry (c : WeirClient) (call : Call) : Entry :=
  ⟨call, c.defaultDurability, (call.run c).1,
    (call.run c).2.stream.sent.drop c.stream.sent.length,
    (call.run c).2.stream.taken.drop c.stream.taken.length⟩

/-- The calls made in turn on one client. -/
def history (c : WeirClient) : List Call → List Entry × WeirClient
  | [] => ([], c)
  | call :: calls =>
    let (entries, c') := history (call.run c).2 calls
    (call.entry c :: entries, c')

/-- The call spoke to nobody, or one whole request frame of its own was answered by one whole
frame, and its `Ok` is what that frame says. -/
def Entry.InStep (e : Entry) : Prop :=
  (e.sent = [] ∧ e.taken = [] ∧
    ∀ v, e.result = .ok v → ∃ d, e.call = .setDefaultDurability d) ∨
  ∃ request reply, e.call.request e.dflt = some request ∧ e.sent = request.encode ∧
    Envelope.decode e.taken = .ok reply ∧ ∀ v, e.result = .ok v → e.call.Means reply v

theorem Call.Local.entry {call : Call} (h : call.Local c) :
    (call.entry c).sent = [] ∧ (call.entry c).taken = [] := by
  simp [Call.entry, h.1]

/-- A call that leaves the client usable is in step, and adds its bytes to the connection's. -/
theorem Call.run_inStep (call : Call) (h : (call.run c).2.isPoisoned = false) :
    (call.run c).2.stream.sent = c.stream.sent ++ (call.entry c).sent ∧
    (call.run c).2.stream.taken = c.stream.taken ++ (call.entry c).taken ∧
    (call.entry c).InStep := by
  -- a local call, and one that fails before it sends anything
  have hquiet : call.Local c → (call.run c).2.stream.sent = c.stream.sent ++ (call.entry c).sent ∧
      (call.run c).2.stream.taken = c.stream.taken ++ (call.entry c).taken ∧
      (call.entry c).InStep := by
    intro hlocal
    obtain ⟨hsent, htaken⟩ := hlocal.entry
    rw [hsent, htaken, hlocal.1]
    exact ⟨by simp, by simp, .inl ⟨hsent, htaken, hlocal.2.2⟩⟩
  rcases call.run_spec c with hlocal | ⟨request, hrequest, hex⟩
  · exact hquiet hlocal
  generalize hr : call.run c = r at hex
  cases hex with
  | silent e =>
    rw [← hr]
    refine hquiet ⟨by rw [hr], by rw [hr], fun v hv => ?_⟩
    rw [hr] at hv
    cases hv
  | broken hp => rw [hr, hp] at h; cases h
  | @spoke result c' reply hspoke husable hok =>
    obtain ⟨frame, hdec, htaken⟩ := hspoke.taken
    have hentry : call.entry c =
        ⟨call, c.defaultDurability, result, request.encode, frame⟩ := by
      simp [Call.entry, hr, hspoke.sent, htaken]
    rw [hentry]
    exact ⟨hspoke.sent, htaken, .inr ⟨request, reply, hrequest, rfl, hdec, hok⟩⟩

/-- A poisoned client stays so, and its connection is left alone. -/
theorem history_poisoned (calls : List Call) (h : c.isPoisoned = true) :
    (history c calls).2.isPoisoned = true ∧ (history c calls).2.stream = c.stream ∧
      ∀ e ∈ (history c calls).1, e.sent = [] ∧ e.taken = [] := by
  induction calls generalizing c with
  | nil => exact ⟨h, rfl, fun e he => by cases he⟩
  | cons call calls ih =>
    have hlocal := Call.local_of_poisoned h call
    obtain ⟨hp, hs, hes⟩ := ih (hlocal.2.1.trans h)
    refine ⟨hp, hs.trans hlocal.1, fun e he => ?_⟩
    rcases List.mem_cons.mp he with rfl | he
    · exact hlocal.entry
    · exact hes e he

/-- A client that is still usable has been in step at every call. -/
theorem history_inStep (calls : List Call) (h : (history c calls).2.isPoisoned = false) :
    (history c calls).2.stream.sent = c.stream.sent ++ (history c calls).1.flatMap Entry.sent ∧
    (history c calls).2.stream.taken = c.stream.taken ++ (history c calls).1.flatMap Entry.taken ∧
    ∀ e ∈ (history c calls).1, e.InStep := by
  induction calls generalizing c with
  | nil => exact ⟨by simp [history], by simp [history], fun e he => by cases he⟩
  | cons call calls ih =>
    have hrest : (history (call.run c).2 calls).2.isPoisoned = false := h
    have husable : (call.run c).2.isPoisoned = false := by
      -- a client poisoned by this call would be poisoned at the end
      by_contra hp
      rw [(history_poisoned calls (Bool.of_not_eq_false hp)).1] at hrest
      cases hrest
    obtain ⟨hsent, htaken, hstep⟩ := call.run_inStep husable
    obtain ⟨hsents, htakens, hsteps⟩ := ih hrest
    refine ⟨?_, ?_, fun e he => ?_⟩
    · show (history (call.run c).2 calls).2.stream.sent = _
      rw [hsents, hsent, List.append_assoc]
      rfl
    · show (history (call.run c).2 calls).2.stream.taken = _
      rw [htakens, htaken, List.append_assoc]
      rfl
    · rcases List.mem_cons.mp he with rfl | he
      · exact hstep
      · exact hsteps e he

/-- No false ack: on a connection whose peer sends anything, in any pieces and with any
failures of reads and writes, a client that is not poisoned has read exactly one whole frame
for each request it wrote, each call's `Ok` is what the frame at its own place says, and a
poisoned client neither reads nor writes again. -/
theorem client_in_step (arrivals : List (Arrival UInt8 IoError)) (writes : List (WriteStep IoError))
    (dflt : Option Durability) (calls : List Call) :
    let (entries, c) := history (.fromParts ⟨arrivals, writes, [], []⟩ dflt) calls
    (c.isPoisoned = false →
      c.stream.sent = entries.flatMap Entry.sent ∧ c.stream.taken = entries.flatMap Entry.taken ∧
      ∀ e ∈ entries, e.InStep) ∧
    (c.isPoisoned = true → ∀ later,
      (history c later).2.isPoisoned = true ∧ (history c later).2.stream = c.stream ∧
      ∀ e ∈ (history c later).1, e.sent = [] ∧ e.taken = []) :=
  ⟨fun h => history_inStep calls h, fun h later => history_poisoned later h⟩

/-- A peer that answers a health check in two pieces with an interrupted read between them, and
a push with a Nack that keeps the connection. -/
def pieces : List (Arrival UInt8 IoError) :=
  let health := (Envelope.new (.new .healthCheckResponse .durable 0) []).encode
  let nack := (Envelope.new (.new .nack .durable 0) [NackReason.internalError.toByte]).encode
  [.chunk (health.take 3), .failed (.new .interrupted "EINTR"), .chunk (health.drop 3 ++ nack)]

theorem client_in_step_pieces :
    let (entries, c) := history
      (.fromParts ⟨pieces, [.wrote 5, .wrote 100, .wrote 100], [], []⟩ none)
      [.healthCheck, .push [7] .durable]
    entries.map (fun e => e.result) = [.ok .unit, .error (.nack .internalError)] ∧
      c.isPoisoned = false ∧ c.stream.taken = entries.flatMap Entry.taken ∧
      ∀ e ∈ entries, e.InStep := by
  have h := client_in_step pieces [.wrote 5, .wrote 100, .wrote 100] none
    [.healthCheck, .push [7] .durable]
  have husable := h.1 (by decide +kernel)
  exact ⟨by decide +kernel, by decide +kernel, husable.2.1, husable.2.2⟩

end Weir.Client

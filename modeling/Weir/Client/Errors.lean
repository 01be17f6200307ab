import Weir.Client.History
import Weir.Server.Connection

/-!
# What a client makes of a failed call

An error tells the caller by `is_recoverable` whether the client can still be used, and
the client tells by `is_poisoned`. Two exits of the source make the two disagree: a
default variant looks for its tier before it asks whether the client is usable, and a
Nack that is read behind a failed write closes the client whatever its reason is.

> `poisoned_iff_not_recoverable`: on every other call the two agree.

A Nack is the daemon's reason for a refusal, and the daemon keeps the connection only for
`InternalError`. `push_batch` does not look for a Nack.

> `refusal_kept_iff`: every other method returns the reason and closes with the daemon.
-/

namespace Weir.Client

open Weir.Lib Weir.Wab Weir.Wire Weir.Server

/-- `ClientError::is_recoverable`. -/
def ClientError.isRecoverable : ClientError → Bool
  | .payloadTooLarge _ _ | .noDefaultDurability | .emptyPayload => true
  | .nack .internalError => true
  | .nack _ => false
  | .versionMismatch _ | .unknownNack _ => false
  | .io _ | .protocol _ => false

/-! ## The errors of a Nack -/

/-- The error is the reason a Nack's payload holds. -/
def Refusal (b : UInt8) (extra : Bytes) (e : ClientError) : Prop :=
  (∃ reason, reason.toByte = b ∧ e = .nack reason ∧
    (reason = .versionMismatch → extra = [])) ∨
  (∃ version rest, b = NackReason.versionMismatch.toByte ∧ extra = version :: rest ∧
    e = .versionMismatch version) ∨
  ((∀ reason : NackReason, reason.toByte ≠ b) ∧ e = .unknownNack b)

theorem nackError_refusal (b : UInt8) (extra : Bytes) :
    Refusal b extra (nackError (b :: extra)) := by
  unfold nackError
  dsimp only
  split
  next h =>
    cases extra with
    | nil => exact .inl ⟨_, NackReason.toByte_of_tryFrom h, rfl, fun _ => rfl⟩
    | cons version rest =>
      exact .inr (.inl ⟨version, rest, (NackReason.toByte_of_tryFrom h).symm, rfl, rfl⟩)
  next reason hnot h =>
    exact .inl ⟨reason, NackReason.toByte_of_tryFrom h, rfl, fun heq => absurd heq hnot⟩
  next h =>
    refine .inr (.inr ⟨fun reason hb => ?_, rfl⟩)
    rw [← hb, NackReason.tryFrom_toByte] at h
    cases h

variable {e : ClientError} {c : WeirClient} {b : UInt8} {extra : Bytes}

/-- Only the byte of `InternalError` makes an error that is recoverable. -/
theorem Refusal.isRecoverable_iff (h : Refusal b extra e) :
    e.isRecoverable = true ↔ b = NackReason.internalError.toByte := by
  rcases h with ⟨reason, rfl, rfl, -⟩ | ⟨version, rest, rfl, -, rfl⟩ | ⟨hnone, rfl⟩
  · cases reason <;> decide
  · exact ⟨fun h => (by cases h), fun h => absurd h (by decide)⟩
  · exact ⟨fun h => (by cases h), fun h => absurd h.symm (hnone .internalError)⟩

theorem Refusal.ne_protocol (h : Refusal b extra e) (msg : String) : e ≠ .protocol msg := by
  rcases h with ⟨reason, -, rfl, -⟩ | ⟨version, rest, -, -, rfl⟩ | ⟨-, rfl⟩ <;> simp

/-- Of the errors of a Nack only `Nack(InternalError)` is recoverable. -/
theorem Refusal.eq_internalError (h : Refusal b extra e)
    (hrec : e.isRecoverable = true) : e = .nack .internalError := by
  rcases h with ⟨reason, -, rfl, -⟩ | ⟨version, rest, -, -, rfl⟩ | ⟨-, rfl⟩
  · cases reason <;> first | rfl | cases hrec
  · cases hrec
  · cases hrec

/-- What `surface_nack` makes of a payload: the reason, and a client that stays usable just
for `InternalError`. -/
theorem WeirClient.surfaceNack_refusal (husable : c.isPoisoned = false) (b : UInt8)
    (extra : Bytes) :
    Refusal b extra (c.surfaceNack (b :: extra)).1 ∧
      ((c.surfaceNack (b :: extra)).2.isPoisoned = false ↔
        b = NackReason.internalError.toByte) := by
  have hrefusal := nackError_refusal b extra
  have hnote : c.surfaceNack (b :: extra) = c.noteNack (nackError (b :: extra)) := by
    unfold surfaceNack
    split
    next msg h => exact absurd h (hrefusal.ne_protocol msg)
    · rfl
  rw [hnote, noteNack]
  split
  next h =>
    rw [← hrefusal.isRecoverable_iff, h]
    exact ⟨h ▸ hrefusal, by simp [husable, ClientError.isRecoverable]⟩
  next h =>
    refine ⟨hrefusal, ?_⟩
    rw [← hrefusal.isRecoverable_iff]
    simp only [isPoisoned, Bool.or_true, Bool.true_eq_false, false_iff, Bool.not_eq_true]
    exact Bool.eq_false_iff.mpr fun hrec => h (hrefusal.eq_internalError hrec)

/-! ## Recoverable errors -/

/-- An error that a call returns is recoverable just if the client can still be used. -/
def Agrees {α : Type} (r : Except ClientError α × WeirClient) : Prop :=
  ∀ e, r.1 = .error e → (r.2.isPoisoned = true ↔ e.isRecoverable = false)

theorem Agrees.ok {α : Type} (v : α) (c : WeirClient) : Agrees (.ok v, c) :=
  fun _ h => (by cases h)

theorem Agrees.error_iff {α : Type} :
    Agrees ((.error e, c) : Except ClientError α × WeirClient) ↔
      (c.isPoisoned = true ↔ e.isRecoverable = false) :=
  ⟨fun h => h e rfl, fun h _ he => Except.error.inj he ▸ h⟩

theorem Agrees.failNack {α : Type} (husable : c.isPoisoned = false)
    (payload : Bytes) : Agrees (c.failNack payload : Except ClientError α × WeirClient) := by
  refine Agrees.error_iff.mpr ?_
  cases payload with
  | nil => exact ⟨fun _ => rfl, fun _ => rfl⟩
  | cons b extra =>
    obtain ⟨hrefusal, hkept⟩ := c.surfaceNack_refusal husable b extra
    show (c.surfaceNack (b :: extra)).2.isPoisoned = true ↔
      (c.surfaceNack (b :: extra)).1.isRecoverable = false
    rw [← Bool.not_eq_false, hkept, ← hrefusal.isRecoverable_iff, Bool.not_eq_true]

/-- Where what a method makes of a reply agrees, the exits of `send_frame` decide. -/
theorem Agrees.of_reply {α : Type} (sent : Except ClientError Envelope × WeirClient)
    (answer : Envelope → WeirClient → Except ClientError α × WeirClient) :
    (∀ resp c', sent = (.ok resp, c') → Agrees (answer resp c')) →
    (Agrees (match sent with
      | (.error e, c') => (.error e, c')
      | (.ok resp, c') => answer resp c') ↔ Agrees sent) := by
  intro hanswer
  obtain ⟨result, c'⟩ := sent
  cases result with
  | error e => exact ⟨fun h => error_iff.mpr (error_iff.mp h),
      fun h => error_iff.mpr (error_iff.mp h)⟩
  | ok resp => exact ⟨fun _ => .ok resp c', fun _ => hanswer resp c' rfl⟩

theorem Agrees.lift_iff {α : Type} {f : α → Value} {r : Except ClientError α × WeirClient} :
    Agrees (lift f r) ↔ Agrees r := by
  obtain ⟨result, c⟩ := r
  cases result with
  | error e => exact ⟨fun h => error_iff.mpr (error_iff.mp h),
      fun h => error_iff.mpr (error_iff.mp h)⟩
  | ok v => exact ⟨fun _ => .ok v c, fun _ => .ok (f v) c⟩

/-- The request is not written whole, and behind it a Nack for `InternalError` arrives. -/
def Raced (c : WeirClient) (request : Envelope) : Prop :=
  ∃ e s frame reply extra, c.stream.writeAll request.encode = (.error e, s) ∧
    Arrives s.arrivals frame reply ∧ reply.header.messageType = .nack ∧
    reply.payload = NackReason.internalError.toByte :: extra

theorem WeirClient.ensureUsable_protocol (h : c.ensureUsable = .error e) :
    e.isRecoverable = false := by
  unfold ensureUsable at h
  split at h
  · cases h
    rfl
  · split at h <;> cases h
    rfl

/-- A response that is not read is a failure that is not recoverable, and poisons. -/
theorem WeirClient.readResponse_error {c' : WeirClient} (h : c.readResponse = (.error e, c')) :
    c'.isPoisoned = true ∧ e.isRecoverable = false := by
  have hinner : ∀ e c', c.readResponseInner = (.error e, c') → e.isRecoverable = false := by
    intro e c' h
    unfold readResponseInner at h
    split at h
    · cases h; rfl
    dsimp only at h
    split at h
    · cases h; rfl
    split at h
    · cases h; rfl
    split at h
    · cases h; rfl
    split at h
    · cases h; rfl
    · split at h
      · cases h; rfl
      · cases h
  unfold readResponse at h
  split at h
  next e₁ c₁ he =>
    obtain ⟨h₁, rfl⟩ := Prod.mk.inj h
    rw [← Except.error.inj h₁]
    exact ⟨rfl, hinner e₁ c₁ he⟩
  · cases h

theorem Agrees.readResponse (c : WeirClient) : Agrees c.readResponse := by
  intro e he
  have hread : c.readResponse = (.error e, c.readResponse.2) := Prod.ext he rfl
  obtain ⟨hp, hrec⟩ := WeirClient.readResponse_error hread
  exact ⟨fun _ => hrec, fun _ => hp⟩

/-- `send_frame` agrees unless a Nack for `InternalError` is read behind a failed write. -/
theorem Agrees.sendFrame_iff (c : WeirClient) (request : Envelope) :
    Agrees (c.sendFrame request.encode) ↔ ¬Raced c request := by
  unfold WeirClient.sendFrame
  split
  next s hwrite =>
    refine ⟨fun _ ⟨_, _, _, _, _, h, _⟩ => ?_, fun _ => .readResponse _⟩
    rw [hwrite] at h
    cases h
  next writeErr s hwrite =>
    -- what is read behind the failed write
    have hraced : Raced c request ↔ ∃ resp c' extra,
        WeirClient.readResponse { c with stream := s } = (.ok resp, c') ∧
        resp.header.messageType = .nack ∧
        resp.payload = NackReason.internalError.toByte :: extra := by
      constructor
      · rintro ⟨e, s', frame, reply, extra, hw, harrives, htype, hpayload⟩
        obtain rfl : s = s' := (Prod.mk.inj (hwrite.symm.trans hw)).2
        obtain ⟨s'', hread⟩ :=
          WeirClient.readResponse_arrives (c := { c with stream := s }) harrives
        exact ⟨reply, _, extra, hread, htype, hpayload⟩
      · rintro ⟨resp, c', extra, hread, htype, hpayload⟩
        obtain ⟨-, -, frame, harrives, -⟩ := WeirClient.readResponse_ok hread
        exact ⟨writeErr, s, frame, resp, extra, hwrite, harrives, htype, hpayload⟩
    rw [hraced]
    split
    next resp c' hread =>
      rw [hread]
      simp only [Prod.mk.injEq, Except.ok.injEq, and_assoc, exists_and_left, exists_eq_left']
      split
      next htype =>
        -- the client is closed, so the reason must not be the recoverable one
        have hclosed : ({ c' with closedAfterNack := true } : WeirClient).isPoisoned = true :=
          Bool.or_true _
        rw [error_iff, iff_true_left hclosed, ← Bool.not_eq_true, not_iff_not]
        cases hpayload : resp.payload with
        | nil => exact ⟨fun h => (by cases h), by simp⟩
        | cons b extra =>
          rw [(nackError_refusal b extra).isRecoverable_iff]
          simp [htype]
      next htype =>
        exact ⟨fun _ h => htype h.1, fun _ => error_iff.mpr ⟨fun _ => rfl, fun _ => rfl⟩⟩
    next e c' hread =>
      refine ⟨?_, fun _ => error_iff.mpr ⟨fun _ => rfl, fun _ => rfl⟩⟩
      rintro - ⟨resp', c'', extra, hread', -⟩
      cases hread.symm.trans hread'

/-! ### The methods -/

/-- The guards of the call's method pass. -/
def Call.Fits : Call → Prop
  | .setDefaultDurability _ | .healthCheck => True
  | .push payload _ | .pushDefault payload => RecordFits payload
  | .pushTracked payload _ | .pushTrackedDefault payload => RecordFits payload
  | .pushBatch records _ => BatchFits records

/-- A default variant on a client that has no default tier. -/
def Call.Untiered (c : WeirClient) : Call → Prop
  | .pushDefault _ | .pushTrackedDefault _ => c.defaultDurability = none
  | _ => False

/-- The two exits that disagree. -/
def Call.Slips (c : WeirClient) (call : Call) : Prop :=
  (c.isPoisoned = true ∧ call.Untiered c) ∨
  (c.isPoisoned = false ∧ call.Fits ∧ call ≠ .healthCheck ∧
    ∃ request, call.request c.defaultDurability = some request ∧ Raced c request)

section

/-- A local error on a client that is usable. -/
theorem Agrees.local {α : Type} {e : ClientError} (husable : c.isPoisoned = false)
    (hrec : e.isRecoverable = true) : Agrees ((.error e, c) : Except ClientError α × WeirClient) :=
  error_iff.mpr (by simp [husable, hrec])

/-- A stream that is out of step. -/
theorem Agrees.protocol {α : Type} (c : WeirClient) (msg : String) :
    Agrees ((.error (.protocol msg), c.poison) : Except ClientError α × WeirClient) :=
  error_iff.mpr ⟨fun _ => rfl, fun _ => rfl⟩

theorem Agrees.sendRecord_iff (husable : c.isPoisoned = false) (messageType : MessageType)
    (payload : Bytes) (durability : Durability) :
    Agrees (c.sendRecord messageType payload durability) ↔
      ¬(RecordFits payload ∧ Raced c (recordRequest messageType payload durability)) := by
  by_cases hfits : RecordFits payload
  · rw [WeirClient.sendRecord_fits husable hfits, sendFrame_iff]
    simp [hfits]
  refine ⟨fun _ h => hfits h.1, fun _ => ?_⟩
  rw [WeirClient.sendRecord, WeirClient.ensureUsable_of husable]
  dsimp only
  split
  · exact .local husable rfl
  rename_i hne
  split
  · exact .local husable rfl
  next hsize => exact absurd ⟨hne, Nat.le_of_not_lt hsize⟩ hfits

theorem WeirClient.sendRecord_usable {messageType : MessageType} {payload : Bytes}
    {durability : Durability} {resp : Envelope} {c' : WeirClient}
    (h : c.sendRecord messageType payload durability = (.ok resp, c')) : c'.isPoisoned = false := by
  rcases c.sendRecord_spec messageType payload durability with
    ⟨e, heq⟩ | ⟨husable, ⟨e, c₁, heq, -⟩ | ⟨resp₁, c₁, heq, hflags, -⟩⟩
  · cases heq.symm.trans h
  · cases heq.symm.trans h
  · rw [← (Prod.mk.inj (heq.symm.trans h)).2, hflags, husable]

section

variable (husable : c.isPoisoned = false) (payload : Bytes) (durability : Durability)

include husable

theorem Agrees.push_iff :
    Agrees (c.push payload durability) ↔
      ¬(RecordFits payload ∧ Raced c (recordRequest .push payload durability)) := by
  rw [← sendRecord_iff husable]
  refine of_reply (c.sendRecord .push payload durability) _ fun resp c' hsent => ?_
  split
  · exact .ok () c'
  · exact .failNack (WeirClient.sendRecord_usable hsent) _
  · exact .protocol c' _

theorem Agrees.pushTracked_iff :
    Agrees (c.pushTracked payload durability) ↔
      ¬(RecordFits payload ∧ Raced c (recordRequest .pushTracked payload durability)) := by
  rw [← sendRecord_iff husable]
  refine of_reply (c.sendRecord .pushTracked payload durability) _ fun resp c' hsent => ?_
  split
  · split
    next coordinate _ => exact .ok coordinate c'
    · exact .protocol c' _
  · exact .failNack (WeirClient.sendRecord_usable hsent) _
  · exact .protocol c' _

end

theorem checkRecords_isRecoverable {records : List Bytes} {e : ClientError}
    (h : WeirClient.checkRecords records = some e) : e.isRecoverable = true := by
  induction records with
  | nil => cases h
  | cons s rest ih =>
    rw [WeirClient.checkRecords] at h
    split at h
    · rw [← Option.some.inj h]; rfl
    · split at h
      · rw [← Option.some.inj h]; rfl
      · exact ih h

theorem Agrees.pushBatch_iff (husable : c.isPoisoned = false) (records : List Bytes)
    (durability : Durability) :
    Agrees (c.pushBatch records durability) ↔
      ¬(BatchFits records ∧ Raced c (batchRequest records durability)) := by
  unfold WeirClient.pushBatch
  rw [WeirClient.ensureUsable_of husable]
  dsimp only
  split
  next hnil => exact ⟨fun _ h => h.1.nonempty hnil, fun _ => .local husable rfl⟩
  next hne =>
    split
    next hmany =>
      exact ⟨fun _ h => not_lt.mpr h.1.count hmany, fun _ => .local husable rfl⟩
    next hcount =>
      split
      next e he =>
        refine ⟨fun _ h => ?_, fun _ => .local husable (checkRecords_isRecoverable he)⟩
        rw [h.1.sizes] at he
        cases he
      next hsizes =>
        have hfits : BatchFits records := ⟨hne, Nat.le_of_not_lt hcount, hsizes⟩
        rw [and_iff_right hfits, ← sendFrame_iff]
        refine of_reply (c.sendFrame (batchRequest records durability).encode) _
          fun resp c' hsent => ?_
        split
        · split
          next accepted _ => exact .ok accepted c'
          · exact .protocol c' _
        · exact .protocol c' _
        · exact .protocol c' _

theorem Agrees.healthCheck (husable : c.isPoisoned = false) : Agrees c.healthCheck := by
  unfold WeirClient.healthCheck
  rw [WeirClient.ensureUsable_of husable]
  dsimp only
  split
  next e s _ => exact error_iff.mpr ⟨fun _ => rfl, fun _ => rfl⟩
  next s _ =>
    refine (of_reply (WeirClient.readResponse { c with stream := s }) _ fun resp c' hread => ?_).mpr
      (.readResponse _)
    split
    · exact .ok () c'
    · exact .failNack ((WeirClient.readResponse_ok hread).1.trans husable) _
    · exact .protocol c' _

/-- On a poisoned client a call answers with the guard, unless it looks for a tier first. -/
theorem Agrees.poisoned_iff (hpoisoned : c.isPoisoned = true) (call : Call) :
    Agrees (call.run c) ↔ ¬call.Untiered c := by
  obtain ⟨e, he⟩ := c.ensureUsable_error hpoisoned
  have hguard : ∀ {α : Type}, Agrees ((.error e, c) : Except ClientError α × WeirClient) :=
    error_iff.mpr ⟨fun _ => WeirClient.ensureUsable_protocol he, fun _ => hpoisoned⟩
  have hrecord : ∀ messageType payload durability,
      c.sendRecord messageType payload durability = (.error e, c) := by
    intro messageType payload durability
    rw [WeirClient.sendRecord, he]
  have hpush : ∀ payload durability, c.push payload durability = (.error e, c) := by
    intro payload durability
    rw [WeirClient.push, hrecord]
  have htracked : ∀ payload durability, c.pushTracked payload durability = (.error e, c) := by
    intro payload durability
    rw [WeirClient.pushTracked, hrecord]
  cases call with
  | setDefaultDurability d => exact ⟨fun _ h => h, fun _ => .ok Value.unit _⟩
  | push payload d =>
    refine ⟨fun _ h => h, fun _ => lift_iff.mpr ?_⟩
    rw [hpush]
    exact hguard
  | pushTracked payload d =>
    refine ⟨fun _ h => h, fun _ => lift_iff.mpr ?_⟩
    rw [htracked]
    exact hguard
  | pushBatch records d =>
    refine ⟨fun _ h => h, fun _ => lift_iff.mpr ?_⟩
    rw [WeirClient.pushBatch, he]
    exact hguard
  | healthCheck =>
    refine ⟨fun _ h => h, fun _ => lift_iff.mpr ?_⟩
    rw [WeirClient.healthCheck, he]
    exact hguard
  | pushDefault payload | pushTrackedDefault payload =>
    rw [Call.run, lift_iff, Call.Untiered]
    simp only [WeirClient.pushDefault, WeirClient.pushTrackedDefault]
    cases hd : c.defaultDurability with
    | none => exact ⟨fun h => (by cases (error_iff.mp h).mp hpoisoned), fun h => absurd rfl h⟩
    | some d =>
      refine ⟨fun _ h => (by cases h), fun _ => ?_⟩
      simp only [hpush, htracked]
      exact hguard

/-- On a usable client a call slips only where its request does. -/
theorem Agrees.usable_iff (husable : c.isPoisoned = false) (call : Call) :
    Agrees (call.run c) ↔ ¬(call.Fits ∧ call ≠ .healthCheck ∧
      ∃ request, call.request c.defaultDurability = some request ∧ Raced c request) := by
  have hsome : ∀ {fits : Prop} {request : Envelope} {call : Call}, call ≠ .healthCheck →
      (¬(fits ∧ Raced c request) ↔ ¬(fits ∧ call ≠ .healthCheck ∧
        ∃ r, some request = some r ∧ Raced c r)) := by
    intro fits request call hne
    simp [hne]
  -- a call that sends no request has raced nothing
  have hnone : ∀ {fits other : Prop},
      ¬(fits ∧ other ∧ ∃ r, (none : Option Envelope) = some r ∧ Raced c r) := by
    intro fits other h
    obtain ⟨-, -, r, hr, -⟩ := h
    cases hr
  cases call with
  | setDefaultDurability d => exact ⟨fun _ => hnone, fun _ => .ok Value.unit _⟩
  | push payload d => exact (lift_iff.trans (push_iff husable payload d)).trans (hsome (by simp))
  | pushTracked payload d =>
    exact (lift_iff.trans (pushTracked_iff husable payload d)).trans (hsome (by simp))
  | pushBatch records d =>
    exact (lift_iff.trans (pushBatch_iff husable records d)).trans (hsome (by simp))
  | healthCheck => exact ⟨fun _ h => h.2.1 rfl, fun _ => lift_iff.mpr (.healthCheck husable)⟩
  | pushDefault payload =>
    rw [Call.run, lift_iff, WeirClient.pushDefault, Call.request]
    cases hd : c.defaultDurability with
    | none => exact ⟨fun _ => hnone, fun _ => .local husable rfl⟩
    | some d => exact (push_iff husable payload d).trans (hsome (by simp))
  | pushTrackedDefault payload =>
    rw [Call.run, lift_iff, WeirClient.pushTrackedDefault, Call.request]
    cases hd : c.defaultDurability with
    | none => exact ⟨fun _ => hnone, fun _ => .local husable rfl⟩
    | some d => exact (pushTracked_iff husable payload d).trans (hsome (by simp))

end

/-- After a call that failed, `is_poisoned` is the complement of `is_recoverable`, whatever the
client's state, its peer and the failures of its socket are, except at the two exits. -/
theorem poisoned_iff_not_recoverable (c : WeirClient) (call : Call) :
    (∀ e, (call.run c).1 = .error e →
      ((call.run c).2.isPoisoned = true ↔ e.isRecoverable = false)) ↔ ¬call.Slips c := by
  show Agrees (call.run c) ↔ _
  unfold Call.Slips
  cases hp : c.isPoisoned with
  | true => simpa using Agrees.poisoned_iff hp call
  | false => simpa using Agrees.usable_iff hp call

/-- The daemon answers a push whose write broke off with `InternalError`, and a client that is
poisoned and has no default tier is asked for a default push. -/
theorem recoverable_on_poisoned_client :
    let nack := (Response.nack .internalError []).frame
    let raced := WeirClient.fromParts ⟨[.chunk nack],
      [.wrote 4, .failed (.new .connectionReset "ECONNRESET")],
      [], []⟩ none
    let dead := (WeirClient.fromParts ⟨[], [], [], []⟩ none).poison
    ((Call.push [7] .durable).run raced).1 = .error (.nack .internalError) ∧
    ((Call.push [7] .durable).run raced).2.isPoisoned = true ∧
    (ClientError.nack .internalError).isRecoverable = true ∧
    ((Call.pushDefault [7]).run dead).1 = .error .noDefaultDurability ∧
    ((Call.pushDefault [7]).run dead).2.isPoisoned = true ∧
    ClientError.noDefaultDurability.isRecoverable = true := by
  decide +kernel

/-! ## Refusals -/

section

variable {request reply : Envelope} {durability : Durability}

section

variable (husable : c.isPoisoned = false)

include husable

/-- A push that is answered with a Nack. -/
theorem WeirClient.push_nacked {payload : Bytes} (hfits : RecordFits payload)
    (hanswered : Answered c (recordRequest .push payload durability) reply)
    (htype : reply.header.messageType = .nack) :
    ∃ s, c.push payload durability =
      ({ c with stream := s } : WeirClient).failNack reply.payload := by
  obtain ⟨s, hsend⟩ := sendFrame_answered hanswered
  refine ⟨s, ?_⟩
  rw [push, sendRecord_fits husable hfits, hsend]
  dsimp only
  rw [htype]

theorem WeirClient.pushTracked_nacked {payload : Bytes} (hfits : RecordFits payload)
    (hanswered : Answered c (recordRequest .pushTracked payload durability) reply)
    (htype : reply.header.messageType = .nack) :
    ∃ s, c.pushTracked payload durability
      = ({ c with stream := s } : WeirClient).failNack reply.payload := by
  obtain ⟨s, hsend⟩ := sendFrame_answered hanswered
  refine ⟨s, ?_⟩
  rw [pushTracked, sendRecord_fits husable hfits, hsend]
  dsimp only
  rw [htype]

theorem WeirClient.healthCheck_nacked (hanswered : Answered c healthRequest reply)
    (htype : reply.header.messageType = .nack) :
    ∃ s, c.healthCheck = ({ c with stream := s } : WeirClient).failNack reply.payload := by
  obtain ⟨s, frame, hwrite, harrives⟩ := hanswered
  obtain ⟨s', hread⟩ := readResponse_arrives (c := { c with stream := s }) harrives
  refine ⟨s', ?_⟩
  rw [healthCheck, ensureUsable_of husable]
  rw [show Envelope.new (.new .healthCheck .durable 0) [] = healthRequest from rfl, hwrite]
  dsimp only
  rw [hread]
  dsimp only
  rw [htype]

/-- A batch that is answered with a Nack: no reason, and a client that is poisoned. -/
theorem WeirClient.pushBatch_nacked {records : List Bytes} (hfits : BatchFits records)
    (hanswered : Answered c (batchRequest records durability) reply)
    (htype : reply.header.messageType = .nack) :
    ∃ s, c.pushBatch records durability
      = (.error (.protocol ("unexpected response to a PushBatch: " ++ MessageType.nack.debug)),
        ({ c with stream := s } : WeirClient).poison) := by
  obtain ⟨s, hsend⟩ := sendFrame_answered hanswered
  refine ⟨s, ?_⟩
  rw [pushBatch, ensureUsable_of husable]
  rw [if_neg hfits.nonempty, if_neg (not_lt.mpr hfits.count), hfits.sizes]
  rw [show Envelope.new (.new .pushBatch durability 0) (encodeBatchBody records)
    = batchRequest records durability from rfl, hsend]
  dsimp only
  rw [htype]

/-- Every method but `push_batch` surfaces a Nack. -/
theorem Call.run_nacked {call : Call} (hfits : call.Fits)
    (hrequest : call.request c.defaultDurability = some request)
    (hanswered : Answered c request reply) (htype : reply.header.messageType = .nack)
    (hbatch : ∀ records durability, call ≠ .pushBatch records durability) :
    ∃ s, call.run c = ({ c with stream := s } : WeirClient).failNack reply.payload := by
  cases call with
  | setDefaultDurability d => cases hrequest
  | push payload d =>
    cases hrequest
    obtain ⟨s, h⟩ := WeirClient.push_nacked husable hfits hanswered htype
    exact ⟨s, by rw [run, h]; rfl⟩
  | pushTracked payload d =>
    cases hrequest
    obtain ⟨s, h⟩ := WeirClient.pushTracked_nacked husable hfits hanswered htype
    exact ⟨s, by rw [run, h]; rfl⟩
  | pushBatch records d => exact absurd rfl (hbatch records d)
  | healthCheck =>
    cases hrequest
    obtain ⟨s, h⟩ := WeirClient.healthCheck_nacked husable hanswered htype
    exact ⟨s, by rw [run, h]; rfl⟩
  | pushDefault payload =>
    obtain ⟨d, hd, rfl⟩ := Option.map_eq_some_iff.mp hrequest
    obtain ⟨s, h⟩ := WeirClient.push_nacked husable hfits hanswered htype
    have hrun : c.pushDefault payload = c.push payload d :=
        by simp only [WeirClient.pushDefault, hd]
    exact ⟨s, by rw [run, hrun, h]; rfl⟩
  | pushTrackedDefault payload =>
    obtain ⟨d, hd, rfl⟩ := Option.map_eq_some_iff.mp hrequest
    obtain ⟨s, h⟩ := WeirClient.pushTracked_nacked husable hfits hanswered htype
    have hrun : c.pushTrackedDefault payload = c.pushTracked payload d :=
        by simp only [WeirClient.pushTrackedDefault, hd]
    exact ⟨s, by rw [run, hrun, h]; rfl⟩

end

end

/-- A refusal keeps its meaning for every method but `push_batch`: the client returns the
reason of the Nack, and can be used again just for `InternalError`, that is where a daemon
that answers so keeps the connection. -/
theorem refusal_kept_iff {c : WeirClient} {call : Call} {request reply : Envelope} {b : UInt8}
    {extra : Bytes} (husable : c.isPoisoned = false) (hfits : call.Fits)
    (hrequest : call.request c.defaultDurability = some request)
    (hanswered : Answered c request reply) (htype : reply.header.messageType = .nack)
    (hpayload : reply.payload = b :: extra) :
    ((∃ e, (call.run c).1 = .error e ∧ Refusal b extra e) ∧
      ((call.run c).2.isPoisoned = false ↔ b = NackReason.internalError.toByte) ∧
      ∀ sha cfg io tx r reason,
        (handleFrame sha cfg io tx r).answer = some (.nack reason extra) → reason.toByte = b →
        ((call.run c).2.isPoisoned = false ↔ (handleFrame sha cfg io tx r).returned = none)) ↔
    ∀ records durability, call ≠ .pushBatch records durability := by
  constructor
  · rintro ⟨⟨e, he, hrefusal⟩, -⟩ records durability rfl
    cases hrequest
    obtain ⟨s, h⟩ := WeirClient.pushBatch_nacked husable hfits hanswered htype
    rw [Call.run, h] at he
    exact hrefusal.ne_protocol _ (Except.error.inj he).symm
  · intro hbatch
    obtain ⟨s, h⟩ := Call.run_nacked husable hfits hrequest hanswered htype hbatch
    rw [hpayload] at h
    obtain ⟨hrefusal, hkept⟩ := WeirClient.surfaceNack_refusal (c := { c with stream := s }) husable
      b extra
    rw [h]
    refine ⟨⟨_, rfl, hrefusal⟩, hkept, fun sha cfg io tx r reason hanswer hb => ?_⟩
    have hgoes := (handleFrame_answers sha cfg io tx r).goesOn
    rw [hanswer] at hgoes
    rw [hgoes]
    refine hkept.trans ?_
    rw [← hb]
    simp only [Option.mem_def, Option.some.injEq, exists_eq_left', Response.keeps,
      decide_eq_true_eq]
    exact ⟨fun h => Option.some.inj
      (by rw [← NackReason.tryFrom_toByte, h, NackReason.tryFrom_toByte]),
      fun h => by rw [h]⟩

/-- A daemon whose buffer is over its cap. -/
def overCap : FrameIo := { calmFrame with gauges := ⟨100, false, false⟩ }

/-- A client whose peer sends one frame, and whose write goes through. -/
def answeredBy (frame : Bytes) :
    WeirClient := .fromParts ⟨[.chunk frame], [.wrote 1000], [], []⟩ none

set_option maxRecDepth 10000 in
/-- A batch that is refused at the cap: the daemon keeps the connection, and the client that
reads its answer is poisoned and does not say why. -/
theorem batch_refusal_poisons :
    let turn := handleFrame constantSha { sampleConnection with wabMaxBytes := 100 } overCap 0
      ⟨[], [.chunk (batchRequest [[7]] .durable).encode]⟩
    let r := (Call.pushBatch [[7]] .durable).run (answeredBy turn.written)
    turn.answer = some (.nack .internalError []) ∧ turn.returned = none ∧
      r.1 = .error (.protocol "unexpected response to a PushBatch: Nack") ∧
      r.2.isPoisoned = true := by
  decide +kernel

set_option maxRecDepth 10000 in
theorem refusal_kept_iff_push :
    let c := answeredBy (Response.nack .internalError []).frame
    ((Call.push [7] .durable).run c).2.isPoisoned = false ∧
      ∃ e, ((Call.push [7] .durable).run c).1 = .error e ∧ Refusal 0x06 [] e := by
  have hanswered : Answered (answeredBy (Response.nack .internalError []).frame)
      (recordRequest .push [7] .durable) (Response.nack .internalError []).envelope := by
    exact ⟨⟨[.chunk (Response.nack .internalError []).frame], [], [],
      (recordRequest .push [7] .durable).encode⟩, (Response.nack .internalError []).frame,
      by decide +kernel, ⟨[], by decide +kernel⟩, by decide +kernel, by decide +kernel⟩
  have hfits : (Call.push [7] .durable).Fits := ⟨by simp, by decide⟩
  have husable : (answeredBy (Response.nack .internalError []).frame).isPoisoned = false := rfl
  have h := (refusal_kept_iff husable hfits rfl hanswered rfl rfl).mpr (by simp)
  exact ⟨h.2.1.mpr rfl, h.1⟩

end Weir.Client

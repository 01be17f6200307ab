import Weir.Status.Document

/-!
# What the public document keeps back

> `public_status_no_leak`: evidence that differs in nothing but what is for the administrator
> gives the same public document.

The proof is by redaction: the public document of some evidence is the public document of the
evidence with those texts, the uid, the pid, the paths and the configuration view blanked out
(`publicStatus_redacted`). Of the rules, only the detail of a condition can change.
-/

namespace Weir.Status

open Weir.Lib

variable {F : F64}

/-! ## Redaction -/

def IdentityEvidence.redacted (i : IdentityEvidence) : IdentityEvidence :=
  { i with pid := 0, wabDir := "", socketPath := "" }

/-- The text of the scan error is blanked out. That the scan failed is public. -/
def RequeueEvidence.redacted (r : RequeueEvidence) : RequeueEvidence :=
  { r with scanError := r.scanError.map fun _ => "" }

def DrainEvidence.redacted (d : DrainEvidence F) : DrainEvidence F :=
  { d with
    pausedByUid := none
    lastRequeue := d.lastRequeue.map RequeueEvidence.redacted
    lastPanic := none }

def SinkEvidence.redacted (s : SinkEvidence) : SinkEvidence :=
  { s with lastError := none, probeReason := none }

def ReloadItemEvidence.redacted (i : ReloadItemEvidence) : ReloadItemEvidence :=
  { i with detail := none }

def ReloadEvidence.redacted (r : ReloadEvidence) : ReloadEvidence :=
  { r with items := r.items.map ReloadItemEvidence.redacted }

def AdminEvidence.redacted (a : AdminEvidence) : AdminEvidence := { a with path := none }

def ConfigEvidence.redacted (c : ConfigEvidence) : ConfigEvidence := { c with view := [] }

/-- The evidence without what only the administrator may see. -/
def Evidence.redacted (e : Evidence F) : Evidence F :=
  { e with
    identity := e.identity.map IdentityEvidence.redacted
    drain := e.drain.map DrainEvidence.redacted
    sink := e.sink.map SinkEvidence.redacted
    reload := e.reload.map ReloadEvidence.redacted
    admin := e.admin.map AdminEvidence.redacted
    config := e.config.map ConfigEvidence.redacted }

/-! ## The rules -/

def Fired.undetailed (f : Fired F) : Fired F := { f with detail := none }

def Outcome.undetailed : Outcome F → Outcome F
  | active f => active f.undetailed
  | inactive => inactive
  | unevaluated => unevaluated

@[simp] theorem Outcome.undetailed_inactive :
    (Outcome.inactive : Outcome F).undetailed = .inactive := rfl

@[simp] theorem Outcome.undetailed_active (f : Fired F) :
    (Outcome.active f).undetailed = .active f.undetailed := rfl

@[simp] theorem Fired.undetailed_withValue (f : Fired F) (key : String) (v : EvidenceValue F) :
    (f.withValue key v).undetailed = f.undetailed.withValue key v := rfl

@[simp] theorem Fired.undetailed_withDetail (f : Fired F) (detail : Option String) :
    (f.withDetail detail).undetailed = f.undetailed := rfl

@[simp] theorem Fired.undetailed_withSome {α : Type} (f : Fired F) (key : String)
    (v : Option α) (value : α → EvidenceValue F) :
    (f.withSome key v value).undetailed = f.undetailed.withSome key v value := by
  cases v <;> rfl

theorem drainPaused_redacted (e : Evidence F) :
    (drainPaused e.redacted).undetailed = (drainPaused e).undetailed := by
  unfold drainPaused Evidence.redacted
  cases e.drain with
  | none => rfl
  | some d =>
    have hconfig : (e.config.map ConfigEvidence.redacted).any
          (fun c => c.publicConfig.wabMaxBytes = some 0)
        = e.config.any fun c => c.publicConfig.wabMaxBytes = some 0 := by
      cases e.config <;> rfl
    dsimp only [Option.map_some, DrainEvidence.redacted]
    rw [hconfig]
    split
    · rfl
    · simp

theorem tlsReloadFailed_redacted (e : Evidence F) :
    (tlsReloadFailed e.redacted).undetailed = (tlsReloadFailed e).undetailed := by
  unfold tlsReloadFailed Evidence.redacted
  cases e.reload with
  | none => rfl
  | some r =>
    dsimp only [Option.map_some, ReloadEvidence.redacted]
    split
    · rfl
    · simp

/-- Redaction changes nothing of a rule's outcome but the detail. -/
theorem rule_redacted (c : ConditionCode) (e : Evidence F) (t : Thresholds F) :
    (rule c e.redacted t).undetailed = (rule c e t).undetailed := by
  cases c with
  | drainPaused => exact drainPaused_redacted e
  | tlsReloadFailed => exact tlsReloadFailed_redacted e
  | drainStopped =>
    dsimp only [rule, drainStopped, Evidence.redacted]
    cases e.drain with
    | none => rfl
    | some d =>
      dsimp only [Option.map_some, DrainEvidence.redacted]
      cases e.shuttingDown with
      | none => rfl
      | some sd => dsimp only; split <;> simp
  | drainWedged | drainBlockedDeadLetterFull =>
    dsimp only [rule, drainWedged, drainBlockedDeadLetterFull, Evidence.redacted]
    cases e.drain <;> cases e.config <;> rfl
  | deliveryStalled =>
    dsimp only [rule, deliveryStalled, Evidence.redacted]
    cases e.backlog <;> cases e.sink <;> cases e.drain <;> rfl
  | sinkDown | sinkDegraded =>
    dsimp only [rule, sinkDown, sinkDegraded, Evidence.redacted]
    cases e.sink with
    | none => rfl
    | some s =>
      dsimp only [Option.map_some, SinkEvidence.redacted]
      rcases s.health with _ | _ | _ | _ <;> rfl
  | sinkFailing =>
    dsimp only [rule, sinkFailing, Evidence.redacted]
    cases e.sink with
    | none => rfl
    | some s =>
      dsimp only [Option.map_some, SinkEvidence.redacted]
      split <;> simp
  | deadLetterNearCap =>
    dsimp only [rule, deadLetterNearCap, Evidence.redacted]
    cases e.backlog <;> cases e.config <;> rfl
  | noopSink | adminUnavailable =>
    dsimp only [rule, noopSink, adminUnavailable, Evidence.redacted]
    cases e.config <;> cases e.admin <;> rfl
  | activeSegmentAging =>
    dsimp only [rule, activeSegmentAging, Evidence.redacted]
    cases e.shards <;> cases e.config <;> cases e.backlog <;> rfl
  -- the other rules read nothing that redaction changes
  | _ => rfl

/-! ## The probes and the evaluation -/

variable {o o' : Outcome F}

theorem Outcome.undetailed_cases (h : o.undetailed = o'.undetailed) :
    o = o' ∨ ∃ f f', o = .active f ∧ o' = .active f' ∧ f.summary = f'.summary ∧
      f.evidence = f'.evidence := by
  cases o with
  | active f => cases o' with
    | active f' =>
      injection h with h
      injection h with hsummary hdetail hevidence
      exact .inr ⟨f, f', rfl, rfl, hsummary, hevidence⟩
    | _ => cases h
  | _ => cases o' <;> first | exact .inl rfl | cases h

theorem record_undetailed (v : ProbeVerdict) (code : ConditionCode) (failClosed : Bool)
    (h : o.undetailed = o'.undetailed) :
    v.record code o failClosed = v.record code o' failClosed := by
  rcases Outcome.undetailed_cases h with rfl | ⟨f, f', rfl, rfl, hsummary, -⟩
  · rfl
  · show v.fail code (some f.summary) = v.fail code (some f'.summary)
    rw [hsummary]

theorem readiness_redacted (e : Evidence F) : readiness e.redacted = readiness e := by
  unfold readiness
  congr 1
  funext v code
  exact record_undetailed v code true (rule_redacted code e _)

theorem liveness_redacted (e : Evidence F) (t : Thresholds F) (checks : List LivezCheck) :
    liveness e.redacted t checks = liveness e t checks := by
  unfold liveness
  congr 1
  funext v c
  show (if e.phase = some .serving then _ else _) = _
  rw [record_undetailed v c.code false (rule_redacted c.code e t)]

theorem startup_redacted (e : Evidence F) : startup e.redacted = startup e := rfl

/-- What the public document shows of an evaluation. -/
def Evaluation.shown (out : Evaluation F) : List (PublicCondition F) × List ConditionCode :=
  (out.conditions.map publicCondition, out.unevaluated)

theorem Evaluation.add_shown {out out' : Evaluation F} (latches : ConditionCode → Option Nat)
    (entry : CatalogueEntry) (hout : out.shown = out'.shown)
    (ho : o.undetailed = o'.undetailed) :
    (out.add latches entry o).shown = (out'.add latches entry o').shown := by
  have hconditions : out.conditions.map publicCondition = out'.conditions.map publicCondition :=
    congrArg Prod.fst hout
  have hunevaluated : out.unevaluated = out'.unevaluated := congrArg Prod.snd hout
  rcases Outcome.undetailed_cases ho with rfl | ⟨f, f', rfl, rfl, hsummary, hevidence⟩
  · cases o with
    | inactive => exact hout
    | unevaluated | active f => simp [shown, add, hconditions, hunevaluated]
  · simp [shown, add, hconditions, hunevaluated, publicCondition, hsummary, hevidence]

theorem evaluate_redacted (e : Evidence F) (t : Thresholds F)
    (latches : ConditionCode → Option Nat) :
    (evaluate e.redacted t latches).shown = (evaluate e t latches).shown := by
  have hfold : ∀ (entries : List CatalogueEntry) (out out' : Evaluation F),
      out.shown = out'.shown →
      (entries.foldl (fun out entry => out.add latches entry (rule entry.code e.redacted t))
        out).shown
        = (entries.foldl (fun out entry => out.add latches entry (rule entry.code e t))
        out').shown := by
    intro entries
    induction entries with
    | nil => intro out out' h; exact h
    | cons entry entries ih =>
      intro out out' h
      exact ih _ _ (Evaluation.add_shown latches entry h (rule_redacted entry.code e t))
  exact hfold catalogue _ _ rfl

/-! ## The document -/

theorem drainView_redacted (d : DrainEvidence F) (channel : Option ChannelEvidence) :
    publicDrain (drainView d.redacted channel) = publicDrain (drainView d channel) := by
  have hrequeue : (((d.lastRequeue.map RequeueEvidence.redacted).map requeueView).map
        publicRequeue) = ((d.lastRequeue.map requeueView).map publicRequeue) := by
    cases d.lastRequeue with
    | none => rfl
    | some r =>
      simp [publicRequeue, requeueView, RequeueEvidence.redacted]
  unfold publicDrain drainView DrainEvidence.redacted
  rw [hrequeue]

theorem sinkView_redacted (s : SinkEvidence) (config : Option ConfigEvidence) :
    publicSink (sinkView s.redacted (config.map ConfigEvidence.redacted))
      = publicSink (sinkView s config) := by
  unfold publicSink sinkView SinkEvidence.redacted
  cases config <;> cases s.lastFailureUnixMs <;> rfl

theorem reloadLast_redacted (r : ReloadEvidence) :
    publicReloadLast (reloadLast r.redacted) = publicReloadLast (reloadLast r) := by
  unfold publicReloadLast reloadLast ReloadEvidence.redacted
  rw [List.map_map, List.map_map, List.map_map]
  rfl

/-- The public document is a function of the redacted evidence. -/
theorem publicStatus_redacted (i : IdentityEvidence) (e : Evidence F) (t : Thresholds F)
    (latches : ConditionCode → Option Nat) (checks : List LivezCheck) :
    publicStatus i.redacted e.redacted t latches checks = publicStatus i e t latches checks := by
  have hshown := evaluate_redacted e t latches
  unfold publicStatus publicDoc AdminStatusDoc.build
  rw [readiness_redacted, liveness_redacted, startup_redacted]
  apply PublicStatusDoc.ext <;> try rfl
  · -- the conditions, each cut to forty twice
    dsimp only
    rw [List.map_take, List.map_take, List.map_take, List.map_take]
    exact congrArg (fun shown => (shown.1.take maxDocConditions).take maxDocConditions) hshown
  · exact congrArg Prod.snd hshown
  · dsimp only [Evidence.redacted]
    cases e.drain <;> rfl
  · dsimp only [Evidence.redacted]
    cases e.drain with
    | none => rfl
    | some d => exact congrArg some (drainView_redacted d e.channel)
  · dsimp only [Evidence.redacted]
    cases e.sink with
    | none => rfl
    | some s => exact congrArg some (sinkView_redacted s e.config)
  · dsimp only [Evidence.redacted]
    cases e.reload with
    | none => rfl
    | some r =>
      show PublicReloadView.mk (some (publicReloadLast (reloadLast r.redacted))) = _
      rw [reloadLast_redacted]
      rfl
  · dsimp only [Evidence.redacted]
    cases e.admin <;> rfl
  · dsimp only [Evidence.redacted]
    cases e.config <;> rfl

/-- Evidence that differs in nothing but what is for the administrator gives the same public
document, with the same thresholds, latches and checks. -/
theorem public_status_no_leak (i i' : IdentityEvidence) (e e' : Evidence F) (t : Thresholds F)
    (latches : ConditionCode → Option Nat) (checks : List LivezCheck)
    (hidentity : i.redacted = i'.redacted) (hevidence : e.redacted = e'.redacted) :
    publicStatus i e t latches checks = publicStatus i' e' t latches checks := by
  rw [← publicStatus_redacted i e, ← publicStatus_redacted i' e', hidentity, hevidence]

/-- A daemon whose drain has given up after a panic, and the text of the panic. -/
def gaveUp (panic : String) : Evidence natF64 :=
  { Evidence.empty natF64 0 .daemon with
    shuttingDown := some false
    drain := some { DrainEvidence.started natF64 with
      state := .stopped, exit := .gaveUp, lastPanic := panic } }

def runningIn (pid : Nat) (wabDir : String) : IdentityEvidence :=
  { version := "1", wireVersion := 1, pid := pid, startedAtUnixMs := 0, wabDir := wabDir
    socketPath := "weir.sock", wabDirDev := 0, wabDirIno := 0 }

/-- The administrator reads the panic's text in the condition; the public document is the
same for both. -/
theorem public_status_no_leak_panic :
    (evaluate (gaveUp "a") (Thresholds.default natF64) fun _ => none).conditions.map (·.detail)
        = [some "a"] ∧
      (evaluate (gaveUp "b") (Thresholds.default natF64) fun _ => none).conditions.map (·.detail)
        = [some "b"] ∧
      publicStatus (runningIn 1 "/a") (gaveUp "a") (Thresholds.default natF64) (fun _ => none) []
        = publicStatus (runningIn 2 "/b") (gaveUp "b") (Thresholds.default natF64)
          (fun _ => none) [] :=
  ⟨by decide +kernel, by decide +kernel,
    public_status_no_leak _ _ _ _ _ _ _ rfl rfl⟩

end Weir.Status

import Weir.Drain.Confirm

/-!
# The ledger seen from one path

Every map of the ledger is keyed by path, and each operation touches the
entries of the path it is called for. `view` collects the entries of one path;
the lemmas say what each operation does to the view of its own path and that it
leaves every other view alone, so that nothing below unfolds the ledger.
-/

namespace Weir.Drain

open Weir.Lib Weir.Wab

/-- The entries of one path that admission and resuming depend on. -/
structure View where
  cursor : Option ResumeCursor
  carry : Option PinnedCarry
  confirm : Option ConfirmPending
  quarantine : Option String
  park : Option ParkReason
  notBefore : Option Nat

/-- A path with nothing but its dispositions left. -/
def View.forgotten (v : View) : View := { v with cursor := none, carry := none, notBefore := none }

/-- `Owned`, of one path's entries. -/
def View.Owned (v : View) (now : Nat) : Prop :=
  v.confirm.isSome ∨ v.quarantine.isSome ∨ v.park.isSome ∨ ∃ at_ ∈ v.notBefore, now < at_

namespace SegmentLedger

def view (l : SegmentLedger) (p : Path) : View where
  cursor := l.resumeFrom.lookup p
  carry := l.dlCarry.lookup p
  confirm := l.confirmPending.lookup p
  quarantine := l.quarantinePending.lookup p
  park := l.parked.lookup p
  notBefore := l.notBefore.lookup p

theorem owned_iff_view (l : SegmentLedger) (p : Path) (now : Nat) :
    l.Owned p now ↔ (l.view p).Owned now := by
  have hcool : l.cooling p now = true ↔ ∃ at_ ∈ l.notBefore.lookup p, now < at_ := by
    unfold cooling
    cases l.notBefore.lookup p with
    | none => simp
    | some at_ => simp
  unfold Owned View.Owned view
  rw [hcool, ← AList.lookup_isSome, ← AList.lookup_isSome, ← AList.lookup_isSome]

variable (l : SegmentLedger) {p q : Path}

@[simp] theorem view_beginAttempt (now : Nat) : (l.beginAttempt p now).view q = l.view q := rfl

@[simp] theorem view_endAttempt : l.endAttempt.view q = l.view q := rfl

theorem view_forget_self : (l.forget p).view p = (l.view p).forgotten := by
  simp [view, forget, View.forgotten]

theorem view_forget_ne (h : q ≠ p) : (l.forget p).view q = l.view q := by
  simp [view, forget, h]

theorem view_park_self (why : ParkReason) :
    (l.park p why).view p = { (l.view p).forgotten with park := some why } := by
  rw [park, view_forget_self]
  simp [view, View.forgotten]

theorem view_park_ne (why : ParkReason) (h : q ≠ p) : (l.park p why).view q = l.view q := by
  rw [park, view_forget_ne _ h]
  simp [view, h]

theorem view_noteQuarantinePending_self (reason : String) :
    (l.noteQuarantinePending p reason).view p
      = { (l.view p).forgotten with quarantine := some reason } := by
  rw [noteQuarantinePending, view_forget_self]
  simp [view, View.forgotten]

theorem view_noteQuarantinePending_ne (reason : String) (h : q ≠ p) :
    (l.noteQuarantinePending p reason).view q = l.view q := by
  rw [noteQuarantinePending, view_forget_ne _ h]
  simp [view, h]

theorem view_setNotBefore_self (at_ : Nat) :
    (l.setNotBefore p at_).view p = { l.view p with notBefore := some at_ } := by
  simp [view, setNotBefore]

theorem view_setNotBefore_ne (at_ : Nat) (h : q ≠ p) :
    (l.setNotBefore p at_).view q = l.view q := by
  simp [view, setNotBefore, h]

theorem view_noteConfirmOutcome_ne (outcome : ConfirmOutcome) (n : Nat) (h : q ≠ p) :
    (l.noteConfirmOutcome p outcome n).view q = l.view q := by
  cases outcome <;> simp [noteConfirmOutcome, view, h]

/-- A confirm that is not done is owned from then on. -/
theorem view_noteConfirmOutcome_self (outcome : ConfirmOutcome) (n : Nat) :
    ∃ confirm, (l.noteConfirmOutcome p outcome n).view p = { l.view p with confirm := confirm } ∧
      (outcome = .done ∧ confirm = (l.view p).confirm ∨ confirm.isSome) := by
  cases outcome with
  | done => exact ⟨_, rfl, .inl ⟨rfl, rfl⟩⟩
  | sidecarFailed => exact ⟨some ⟨.sidecar, n⟩, by simp [noteConfirmOutcome, view], .inr rfl⟩
  | deleteFailed => exact ⟨some ⟨.delete, n⟩, by simp [noteConfirmOutcome, view], .inr rfl⟩

@[simp] theorem view_noteLocalReadFailure (cls : ErrClass) (now : Nat) :
    (l.noteLocalReadFailure p cls now).2.view q = l.view q := by
  unfold noteLocalReadFailure
  split <;> rfl

theorem view_recordProgress_self (processed : Nat) (ident : Option FileId) :
    (l.recordProgress p processed ident).view p
      = if processed = 0 then l.view p
        else { l.view p with cursor := ident.map (⟨processed, ·⟩) } := by
  unfold recordProgress
  split
  · rfl
  · cases ident <;> simp [view]

theorem view_recordProgress_ne (processed : Nat) (ident : Option FileId) (h : q ≠ p) :
    (l.recordProgress p processed ident).view q = l.view q := by
  unfold recordProgress
  split
  · rfl
  · cases ident <;> simp [view, h]

theorem view_setDlCarry_ne (carry : DeadLetterCarry) (ident : Option FileId) (h : q ≠ p) :
    (l.setDlCarry p carry ident).2.view q = l.view q := by
  unfold setDlCarry
  cases ident with
  | none => simp [view, h]
  | some id =>
    dsimp only
    split <;> simp [view, h]

/-- A carry is stored with the identity of the file, or refused. -/
theorem view_setDlCarry_self (carry : DeadLetterCarry) (ident : Option FileId) :
    (∃ id, ident = some id ∧ (l.setDlCarry p carry ident).1 = true ∧
      (l.setDlCarry p carry ident).2.view p = { l.view p with carry := some ⟨carry, id⟩ }) ∨
    (l.setDlCarry p carry ident).1 = false ∧
      (l.setDlCarry p carry ident).2.view p = { l.view p with carry := none } := by
  unfold setDlCarry
  cases ident with
  | none => exact .inr ⟨rfl, by simp [view]⟩
  | some id =>
    dsimp only
    split
    · exact .inl ⟨id, rfl, rfl, by simp [view]⟩
    · exact .inr ⟨rfl, by simp [view]⟩

theorem view_takeDlCarry_ne (ident : Option FileId) (h : q ≠ p) :
    (l.takeDlCarry p ident).2.view q = l.view q := by
  unfold takeDlCarry
  split
  · rfl
  · simp [view, h]

theorem view_takeDlCarry_self (ident : Option FileId) :
    (l.takeDlCarry p ident).2.view p = { l.view p with carry := none } := by
  unfold takeDlCarry
  split
  next h => simp [view, h]
  · simp [view]

variable {ident : Option FileId}

/-- The carry taken is the stored one, of the file that is there. -/
theorem takeDlCarry_some {carry : DeadLetterCarry} (h : (l.takeDlCarry p ident).1 = some carry) :
    ∃ id, ident = some id ∧ (l.view p).carry = some ⟨carry, id⟩ := by
  unfold takeDlCarry at h
  split at h
  · cases h
  rename_i pinned hp
  split at h
  next hid => exact ⟨pinned.id, hid, by rw [← Option.some.inj h]; exact hp⟩
  · cases h

theorem takeDlCarry_none (h : (l.takeDlCarry p ident).1 = none) {pinned : PinnedCarry}
    (hc : (l.view p).carry = some pinned) : ident ≠ some pinned.id := by
  unfold takeDlCarry at h
  rw [show l.dlCarry.lookup p = some pinned from hc] at h
  dsimp only at h
  split at h
  · cases h
  next hid => exact hid

theorem view_checkedSkip_ne (skip : Nat) (ident : Option FileId) (h : q ≠ p) :
    (l.checkedSkip p skip ident).2.view q = l.view q := by
  unfold checkedSkip
  split
  · rfl
  · split
    · split <;> simp [view, h]
    · rfl

/-- A resume point is kept, or dropped together with the cursor. -/
theorem checkedSkip_self (skip : Nat) (ident : Option FileId) :
    (l.checkedSkip p skip ident).1 = skip ∧ (l.checkedSkip p skip ident).2.view p = l.view p ∨
    (∃ cursor id, (l.view p).cursor = some cursor ∧ ident = some id ∧ id ≠ cursor.id) ∧
      (l.checkedSkip p skip ident).1 = 0 ∧
      (l.checkedSkip p skip ident).2.view p = { l.view p with cursor := none } := by
  unfold checkedSkip
  split
  next h => exact .inl ⟨h.symm, rfl⟩
  · split
    next cursor id hc =>
      split
      next hne => exact .inr ⟨⟨cursor, id, hc, rfl, hne⟩, rfl, by simp [view]⟩
      · exact .inl ⟨rfl, rfl⟩
    · exact .inl ⟨rfl, rfl⟩

theorem view_noteRetry_ne (pending : ConfirmPending) (outcome : ConfirmOutcome) (h : q ≠ p) :
    (l.noteRetry p pending outcome).view q = l.view q := by
  cases outcome <;> simp [noteRetry, view, h]

/-- A retried confirm stays owned until it is done. -/
theorem view_noteRetry_self {pending : ConfirmPending} (hp : (l.view p).confirm = some pending)
    (outcome : ConfirmOutcome) :
    ∃ confirm, (l.noteRetry p pending outcome).view p = { l.view p with confirm := confirm } ∧
      (outcome = .done ∨ confirm.isSome) := by
  cases outcome with
  | done => exact ⟨none, by simp [noteRetry, view], .inl rfl⟩
  | sidecarFailed => exact ⟨(l.view p).confirm, rfl, .inr (by rw [hp]; rfl)⟩
  | deleteFailed => exact ⟨some { pending with stage := .delete }, by simp [noteRetry, view],
      .inr rfl⟩

/-- A panic parks the segment in flight, or leaves it. -/
theorem view_noteDrainPanic (p : Path) :
    l.noteDrainPanic.view p = l.view p ∨ l.inFlight = some p ∧
      ∃ why, l.noteDrainPanic.view p = { (l.view p).forgotten with park := some why } := by
  unfold noteDrainPanic
  split
  · exact .inl rfl
  next q hin =>
    dsimp only
    split
    · by_cases hpq : p = q
      · subst hpq
        exact .inr ⟨hin, _, view_park_self _ _⟩
      · exact .inl (by rw [view_park_ne _ _ hpq]; rfl)
    · exact .inl rfl

theorem view_resume_ne (ident : Option FileId) (h : q ≠ p) :
    (l.resume p ident).2.view q = l.view q := by
  unfold resume
  split
  · rfl
  · split <;> simp [view, h]

theorem view_admitPath_ne (now : Nat) (ident : Option FileId) (h : q ≠ p) :
    (l.admitPath p now ident).2.view q = l.view q := by
  unfold admitPath
  repeat' split
  all_goals first | rfl | skip
  rw [view_resume_ne _ _ h]
  simp [view, h]

theorem admitPath_drop {now : Nat} {owner : Owner} {l' : SegmentLedger}
    (h : l.admitPath p now ident = (.drop owner, l')) : l' = l := by
  unfold admitPath at h
  split at h
  · exact (Prod.mk.inj h).2.symm
  split at h
  · exact (Prod.mk.inj h).2.symm
  split at h
  · exact (Prod.mk.inj h).2.symm
  split at h
  · exact (Prod.mk.inj h).2.symm
  unfold resume at h
  split at h
  · cases h
  · split at h <;> exact absurd (Prod.mk.inj h).1 (by simp)

/-- An admitted path is not owned, and resumes at its cursor when that describes
the file, from the start otherwise. -/
theorem admitPath_process {now skip : Nat} {l' : SegmentLedger}
    (h : l.admitPath p now ident = (.process skip, l')) :
    ¬(l.view p).Owned now ∧
    ((∃ cursor, (l.view p).cursor = some cursor ∧ ident = some cursor.id ∧
        skip = cursor.processed ∧ l'.view p = { l.view p with notBefore := none }) ∨
      skip = 0 ∧ (∀ cursor, (l.view p).cursor = some cursor → ident ≠ some cursor.id) ∧
        l'.view p = { l.view p with cursor := none, notBefore := none }) := by
  have hown : ¬(l.view p).Owned now := by
    rw [← l.owned_iff_view p now, ← l.admitPath_drop_iff p now ident]
    rintro ⟨owner, ho⟩
    rw [h] at ho
    cases ho
  refine ⟨hown, ?_⟩
  unfold admitPath at h
  split at h
  · cases h
  split at h
  · cases h
  split at h
  · cases h
  split at h
  · cases h
  unfold resume at h
  split at h
  next hc =>
    obtain ⟨h1, rfl⟩ := Prod.mk.inj h
    have hc : (l.view p).cursor = none := hc
    refine .inr ⟨(Admit.process.inj h1).symm, by simp [hc], ?_⟩
    rw [← hc]
    simp [view]
  next cursor hc =>
    have hc : (l.view p).cursor = some cursor := hc
    split at h
    next hid =>
      obtain ⟨h1, rfl⟩ := Prod.mk.inj h
      exact .inl ⟨cursor, hc, hid, (Admit.process.inj h1).symm, by simp [view]⟩
    next hid =>
      obtain ⟨h1, rfl⟩ := Prod.mk.inj h
      refine .inr ⟨(Admit.process.inj h1).symm, ?_, by simp [view]⟩
      intro cursor' hc'
      rw [hc] at hc'
      rw [← Option.some.inj hc']
      exact hid

end SegmentLedger

end Weir.Drain

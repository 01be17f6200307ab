import Mathlib.Data.List.Induction
import Mathlib.Logic.ExistsUnique
import Mathlib.Logic.Function.Basic
import Weir.Status.Evidence

/-!
# The lifecycle cell (`weir-server/src/status/board.rs`)

Any number of calls of `enter` and `begin_shutdown` run on one cell. A turn is one atomic
access of one call, and a schedule is any list of turns; `phase()` reads the cell between two
of them. What a schedule has led to is an invariant of its turns (`Inv`): a call stays in its
own code, the flag goes up in one swap, and who has moved the phase did so in a turn that is
there to be named (`Moves`).

> `shutdown_final`: under every schedule the phase never leaves `ShuttingDown`, one call of
> `begin_shutdown` is told that it was the first and leaves that phase, and who enters another
> phase did so before.
-/

namespace Weir.Status

open List Function

/-- `LifecycleCell`, as far as `enter` and `begin_shutdown` use it. -/
structure LifecycleCell where
  phase : Phase
  phaseSinceMs : Nat
  shuttingDown : Bool
  shuttingDownSinceMs : Nat
  everServed : Bool

namespace LifecycleCell

/-- `LifecycleCell::new`. -/
def new (nowMs : Nat) : LifecycleCell := ⟨.initializing, nowMs, false, 0, false⟩

inductive Call
  | enter (phase : Phase) (nowMs : Nat)
  | beginShutdown (nowMs : Nat)

/-- Where a call is: before an access, or returned. -/
inductive Pc
  | load (target : Phase)
  /-- In the compare-exchange loop, with the phase it saw last. -/
  | loop (target cur : Phase)
  | storeSince (target : Phase)
  | storeServed
  | swap
  | storeDownSince
  | returned (result : Bool)
  deriving DecidableEq

namespace Call

def nowMs : Call → Nat
  | enter _ nowMs | beginShutdown nowMs => nowMs

/-- The phase a call moves to. -/
def target : Call → Phase
  | enter phase _ => phase
  | beginShutdown _ => .shuttingDown

def start : Call → Pc
  | enter phase _ => .load phase
  | beginShutdown _ => .swap

/-- The end of `enter`; `begin_shutdown` drops its answer. -/
def entered : Call → Bool → Pc
  | enter _ _, moved => .returned moved
  | beginShutdown _, _ => .returned true

end Call

/-- One access of a call: the cell behind it, and where the call goes on. A weak
compare-exchange may fail for no reason (`spurious`). -/
def access (cell : LifecycleCell) (call : Call) (spurious : Bool) : Pc → LifecycleCell × Pc
  | .load target => (cell, .loop target cell.phase)
  | .loop target cur =>
    if cur = .shuttingDown ∧ target ≠ .shuttingDown then (cell, call.entered false)
    else if cell.phase = cur ∧ spurious = false then
      ({ cell with phase := target }, .storeSince target)
    else (cell, .loop target cell.phase)
  | .storeSince target =>
    if target = .serving then ({ cell with phaseSinceMs := call.nowMs }, .storeServed)
    else ({ cell with phaseSinceMs := call.nowMs }, call.entered true)
  | .storeServed => ({ cell with everServed := true }, call.entered true)
  | .swap =>
    if cell.shuttingDown then (cell, .returned false)
    else ({ cell with shuttingDown := true }, .storeDownSince)
  | .storeDownSince => ({ cell with shuttingDownSinceMs := call.nowMs }, .load .shuttingDown)
  | .returned result => (cell, .returned result)

/-- The cell, and where each call is. -/
structure Shared where
  cell : LifecycleCell
  pcs : Nat → Pc

/-- The next access of a call. -/
structure Turn where
  call : Nat
  spurious : Bool

section

variable (calls : Nat → Call)

def Shared.step (s : Shared) (turn : Turn) : Shared :=
  let out := s.cell.access (calls turn.call) turn.spurious (s.pcs turn.call)
  ⟨out.1, update s.pcs turn.call out.2⟩

/-- The state behind a schedule. -/
def Shared.run (nowMs : Nat) (turns : List Turn) : Shared :=
  turns.foldl (step calls) ⟨.new nowMs, fun n => (calls n).start⟩

theorem run_snoc (nowMs : Nat) (turns : List Turn) (turn : Turn) :
    Shared.run calls nowMs (turns ++ [turn]) = (Shared.run calls nowMs turns).step calls turn := by
  rw [Shared.run, foldl_append]
  rfl

end

/-- Where a call can be. -/
def Pc.Of (call : Call) : Pc → Prop
  | .load t | .loop t _ | .storeSince t => t = call.target
  | .swap | .storeDownSince => ∃ nowMs, call = .beginShutdown nowMs
  | .storeServed => call.target = .serving
  | .returned _ => True

/-- The call has moved the phase. -/
def Pc.Moved : Pc → Prop
  | .storeSince _ | .storeServed | .returned true => True
  | _ => False

/-- A call of `begin_shutdown` that found the flag down. -/
def Call.First : Call → Pc → Prop
  | enter _ _, _ => False
  | beginShutdown _, pc => pc ≠ .swap ∧ pc ≠ .returned false

/-- The call is one of `begin_shutdown`, and this is what it was told. -/
def Shared.Told (calls : Nat → Call) (s : Shared) (n : Nat) (first : Bool) : Prop :=
  (∃ nowMs, calls n = .beginShutdown nowMs) ∧ s.pcs n = .returned first

/-- A turn of the call moved the cell to the call's phase, and not out of `ShuttingDown`. -/
def Moves (calls : Nat → Call) (nowMs : Nat) (turns : List Turn) (n : Nat) : Prop :=
  ∃ before spurious after, turns = before ++ ⟨n, spurious⟩ :: after ∧
    ((Shared.run calls nowMs before).cell.phase = .shuttingDown →
      (calls n).target = .shuttingDown) ∧
    (Shared.run calls nowMs (before ++ [⟨n, spurious⟩])).cell.phase = (calls n).target

/-- What holds behind every schedule. -/
structure Inv (calls : Nat → Call) (nowMs : Nat) (turns : List Turn) (s : Shared) : Prop where
  own : ∀ n, (s.pcs n).Of (calls n)
  seen : ∀ n target, s.pcs n = .loop target .shuttingDown → s.cell.phase = .shuttingDown
  moved : ∀ n, (s.pcs n).Moved → Moves calls nowMs turns n
  swaps : s.cell.shuttingDown = false →
    ∀ n nowMs, calls n = .beginShutdown nowMs → s.pcs n = .swap
  first : s.cell.shuttingDown = true → ∃! n, (calls n).First (s.pcs n)

variable (cell : LifecycleCell) (call : Call) (spurious : Bool) (pc : Pc)

/-- An access does not set the phase back: the loop refuses to leave what it saw, and what it
saw is there when the exchange succeeds. -/
theorem access_phase (h : cell.phase = .shuttingDown) :
    (cell.access call spurious pc).1.phase = .shuttingDown := by
  fun_cases access cell call spurious pc with
  | case3 target cur hleave hswap =>
    by_contra htarget
    exact hleave ⟨hswap.1.symm.trans h, htarget⟩
  | _ => exact h

/-- What a call saw last is the phase the access leaves. -/
theorem access_seen (target cur : Phase) :
    (cell.access call spurious pc).2 = .loop target cur →
      (cell.access call spurious pc).1.phase = cur := by
  fun_cases access cell call spurious pc with
  | case1 => intro hloop; exact (Pc.loop.inj hloop).2
  | case4 => intro hloop; exact (Pc.loop.inj hloop).2
  | case2 | case6 | case7 => intro hloop; cases call <;> cases hloop
  | _ => nofun

theorem of_entered (b : Bool) : (call.entered b).Of call := by
  cases call <;> trivial

/-- A call stays in its own code, and moves the phase in the one exchange that succeeds. -/
theorem access_moved (hown : pc.Of call) :
    (cell.access call spurious pc).2.Of call ∧
      ((cell.access call spurious pc).2.Moved → pc.Moved ∨
        ((cell.phase = .shuttingDown → call.target = .shuttingDown) ∧
          (cell.access call spurious pc).1.phase = call.target)) := by
  fun_cases access cell call spurious pc with
  | case1 | case4 => exact ⟨hown, False.elim⟩
  | case2 target cur hleave =>
    -- `begin_shutdown` drops the answer, but it is never refused.
    obtain rfl : target = call.target := hown
    refine ⟨of_entered _ false, fun hmoved => ?_⟩
    cases call with
    | enter => exact hmoved.elim
    | beginShutdown => exact absurd rfl hleave.2
  | case3 target cur hleave hswap =>
    obtain rfl : target = call.target := hown
    refine ⟨rfl, fun _ => .inr ⟨fun hdown => ?_, rfl⟩⟩
    by_contra htarget
    exact hleave ⟨hswap.1.symm.trans hdown, htarget⟩
  | case5 => exact ⟨hown.symm, fun _ => .inl trivial⟩
  | case6 | case7 => exact ⟨of_entered _ true, fun _ => .inl trivial⟩
  | case8 => exact ⟨trivial, False.elim⟩
  | case9 => exact ⟨hown, False.elim⟩
  | case10 =>
    obtain ⟨nowMs, rfl⟩ := hown
    exact ⟨rfl, False.elim⟩
  | case11 => exact ⟨trivial, .inl⟩

/-- The flag goes up in the one swap that finds it down, and that call is the first. -/
theorem access_flag (hown : pc.Of call) :
    (cell.shuttingDown = false ∧ (cell.access call spurious pc).1.shuttingDown = true ∧
      call.First (cell.access call spurious pc).2) ∨
    ((pc = .swap → cell.shuttingDown = true) ∧
      (cell.access call spurious pc).1.shuttingDown = cell.shuttingDown ∧
      (call.First (cell.access call spurious pc).2 ↔ call.First pc)) := by
  have hentered : ∀ b, pc ≠ .swap → pc ≠ .returned false →
      (call.First (call.entered b) ↔ call.First pc) := by
    intro b hswap hfalse
    cases call <;> simp [Call.entered, Call.First, hswap, hfalse]
  fun_cases access cell call spurious pc with
  | case2 | case6 | case7 => exact .inr ⟨nofun, rfl, hentered _ nofun nofun⟩
  | case8 hup =>
    refine .inr ⟨fun _ => hup, rfl, ?_⟩
    cases call <;> simp [Call.First]
  | case9 hup =>
    obtain ⟨nowMs, rfl⟩ := hown
    exact .inl ⟨by simpa using hup, rfl, nofun, nofun⟩
  | case11 => exact .inr ⟨nofun, rfl, .rfl⟩
  | _ =>
    refine .inr ⟨nofun, rfl, ?_⟩
    cases call <;> simp [Call.First]

/-- How many accesses a call has left at most, when nobody else moves the phase. -/
def Pc.left (phase : Phase) : Pc → Nat
  | .swap => 7
  | .storeDownSince => 6
  | .load _ => 5
  | .loop _ cur => if cur = phase then 3 else 4
  | .storeSince _ => 2
  | .storeServed => 1
  | .returned _ => 0

theorem left_le (phase : Phase) : pc.left phase ≤ 7 := by
  fun_cases Pc.left phase pc <;> omega

theorem left_entered (phase : Phase) (b : Bool) : (call.entered b).left phase = 0 := by
  cases call <;> rfl

/-- Left alone, a call loads the phase, exchanges it and stores: the exchange can fail once. -/
theorem access_left :
    (cell.access call false pc).2.left (cell.access call false pc).1.phase + 1 ≤
      max 1 (pc.left cell.phase) := by
  fun_cases access cell call false pc with
  | case1 target => simp [Pc.left]
  | case2 | case6 | case7 => simp [left_entered]
  | case3 target cur hleave hswap => simp [Pc.left, hswap.1]
  | case4 target cur hleave hswap =>
    have hne : cur ≠ cell.phase := fun h => hswap ⟨h.symm, rfl⟩
    simp [Pc.left, hne]
  | _ => simp [Pc.left]

variable {calls : Nat → Call} {nowMs n : Nat} {turns : List Turn}

/-- The phase stays, however the schedule goes on. -/
theorem run_phase (more : List Turn)
    (h : (Shared.run calls nowMs turns).cell.phase = .shuttingDown) :
    (Shared.run calls nowMs (turns ++ more)).cell.phase = .shuttingDown := by
  rw [Shared.run, foldl_append]
  refine more.foldlRecOn (motive := fun s : Shared => s.cell.phase = .shuttingDown) _ h ?_
  exact fun s hs turn _ => access_phase _ _ _ _ hs

theorem Moves.append (h : Moves calls nowMs turns n) (more : List Turn) :
    Moves calls nowMs (turns ++ more) n := by
  obtain ⟨before, spurious, after, rfl, hmoves⟩ := h
  exact ⟨before, spurious, after ++ more, by simp, hmoves⟩

theorem Moves.phase (h : Moves calls nowMs turns n) (hdown : (calls n).target = .shuttingDown) :
    (Shared.run calls nowMs turns).cell.phase = .shuttingDown := by
  obtain ⟨before, spurious, after, rfl, -, hphase⟩ := h
  rw [append_cons]
  exact run_phase after (hphase.trans hdown)

/-- One more turn: the call it is of goes on, and the others see a phase that can only have
become final. -/
theorem Inv.step (hinv : Inv calls nowMs turns (.run calls nowMs turns)) (turn : Turn) :
    Inv calls nowMs (turns ++ [turn]) (.run calls nowMs (turns ++ [turn])) := by
  obtain ⟨n, spurious⟩ := turn
  have hrun := run_snoc calls nowMs turns ⟨n, spurious⟩
  generalize hs : Shared.run calls nowMs turns = s at hinv hrun
  have hphase := access_phase s.cell (calls n) spurious (s.pcs n)
  have hseen := access_seen s.cell (calls n) spurious (s.pcs n)
  obtain ⟨hown, hmoved⟩ := access_moved s.cell (calls n) spurious (s.pcs n) (hinv.own n)
  have hflag := access_flag s.cell (calls n) spurious (s.pcs n) (hinv.own n)
  simp only [Shared.step] at hrun
  generalize s.cell.access (calls n) spurious (s.pcs n) = out at hphase hseen hown hmoved hflag hrun
  rw [hrun]
  have hself : update s.pcs n out.2 n = out.2 := update_self ..
  have hothers : ∀ m, m ≠ n → update s.pcs n out.2 m = s.pcs m := fun m hm => update_of_ne hm _ _
  refine ⟨fun m => ?_, fun m target hm => ?_, fun m hm => ?_, fun hdown m t hm => ?_,
    fun hdown => ?_⟩
  · show Pc.Of (calls m) (update s.pcs n out.2 m)
    by_cases hmn : m = n
    · subst hmn
      rwa [hself]
    · rw [hothers m hmn]
      exact hinv.own m
  · by_cases hmn : m = n
    · subst hmn; exact hseen target _ (hself ▸ hm)
    · exact hphase (hinv.seen m target (hothers m hmn ▸ hm))
  · by_cases hmn : m = n
    · subst hmn
      rcases hmoved (hself ▸ hm) with hold | ⟨hbefore, hafter⟩
      · exact (hinv.moved m hold).append _
      · exact ⟨turns, spurious, [], rfl, by rw [hs]; exact hbefore, by rw [hrun]; exact hafter⟩
    · exact (hinv.moved m (hothers m hmn ▸ hm)).append _
  · obtain ⟨-, hup, -⟩ | ⟨hswap, hsame, -⟩ := hflag
    · simp [hup] at hdown
    · have hold : s.pcs m = .swap := hinv.swaps (hsame ▸ hdown) m t hm
      by_cases hmn : m = n
      · subst hmn
        simp [hsame, hswap hold] at hdown
      · exact (hothers m hmn).trans hold
  · obtain ⟨hold, -, hfirst⟩ | ⟨-, hsame, hfirst⟩ := hflag
    · refine ⟨n, by simpa using hfirst, fun m hm => by_contra fun hmn => ?_⟩
      simp only [hothers m hmn] at hm
      cases hcall : calls m with
      | enter _ _ => simp [hcall, Call.First] at hm
      | beginShutdown t => simp [hcall, Call.First, hinv.swaps hold m t hcall] at hm
    · have hkeeps : ∀ m, (calls m).First (update s.pcs n out.2 m) ↔
          (calls m).First (s.pcs m) := by
        intro m
        by_cases hmn : m = n
        · subst hmn
          simpa using hfirst
        · rw [hothers m hmn]
      simpa only [hkeeps] using hinv.first (hsame ▸ hdown)

theorem run_inv (calls : Nat → Call) (nowMs : Nat) (turns : List Turn) :
    Inv calls nowMs turns (.run calls nowMs turns) := by
  induction turns using List.reverseRecOn with
  | nil =>
    refine ⟨fun n => ?_, fun n target hn => ?_, fun n hn => ?_, fun _ n t hn => ?_, nofun⟩
    · show (calls n).start.Of (calls n)
      cases calls n with
      | enter => rfl
      | beginShutdown t => exact ⟨t, rfl⟩
    · change (calls n).start = _ at hn
      cases hcall : calls n <;> rw [hcall] at hn <;> cases hn
    · change (calls n).start.Moved at hn
      cases hcall : calls n <;> rw [hcall] at hn <;> exact hn.elim
    · show (calls n).start = .swap
      rw [hn]
      rfl
  | append_singleton turns turn ih => exact ih.step turn

/-- A call that is left alone returns. -/
theorem alone_returns (calls : Nat → Call) (n k : Nat) :
    ∀ s : Shared, (s.pcs n).left s.cell.phase ≤ k → ∃ b,
      ((replicate k ⟨n, false⟩).foldl (Shared.step calls) s).pcs n = .returned b := by
  induction k with
  | zero =>
    intro s hleft
    cases hpc : s.pcs n with
    | returned b => exact ⟨b, hpc⟩
    | loop t cur => simp [hpc, Pc.left, apply_ite (· = 0)] at hleft
    | _ => simp [hpc, Pc.left] at hleft
  | succ k ih =>
    intro s hleft
    have haccess := access_left s.cell (calls n) (s.pcs n)
    rw [replicate_succ, foldl_cons]
    refine ih _ ?_
    simp only [Shared.step, update_self]
    omega

/-- Shutdown is final: behind a turn that left `ShuttingDown`, or a call that saw it, the cell
stays there; of the calls of `begin_shutdown`, once they have returned, exactly one was told
that it was the first, and the cell is then shutting down; each call returns when it is let
run; and who was told to have entered another phase did so in a turn that found the cell not
shutting down. -/
theorem shutdown_final (calls : Nat → Call) (nowMs : Nat) (turns : List Turn) :
    let s := Shared.run calls nowMs turns
    ((s.cell.phase = .shuttingDown ∨ ∃ n target, s.pcs n = .loop target .shuttingDown) →
      ∀ more, (Shared.run calls nowMs (turns ++ more)).cell.phase = .shuttingDown) ∧
    (∀ n m, s.Told calls n true → s.Told calls m true → n = m) ∧
    ((∃ n b, s.Told calls n b) →
      (∀ n t, calls n = .beginShutdown t → s.pcs n = .swap ∨ ∃ b, s.pcs n = .returned b) →
        ∃! n, s.Told calls n true) ∧
    (∀ n, s.Told calls n true → s.cell.phase = .shuttingDown) ∧
    (∀ n, ∃ b,
      (Shared.run calls nowMs (turns ++ replicate 7 ⟨n, false⟩)).pcs n = .returned b) ∧
    ∀ n target t, calls n = .enter target t → target ≠ .shuttingDown →
      s.pcs n = .returned true → ∃ before spurious after,
        turns = before ++ ⟨n, spurious⟩ :: after ∧
        (Shared.run calls nowMs before).cell.phase ≠ .shuttingDown ∧
        (Shared.run calls nowMs (before ++ [⟨n, spurious⟩])).cell.phase = target := by
  intro s
  have hinv : Inv calls nowMs turns s := run_inv calls nowMs turns
  have htold : ∀ n, s.Told calls n true → (calls n).First (s.pcs n) := by
    rintro n ⟨⟨t, ht⟩, hpc⟩
    simp [ht, hpc, Call.First]
  have hup : (∃ n b, s.Told calls n b) → s.cell.shuttingDown = true := by
    rintro ⟨n, b, ⟨t, ht⟩, hpc⟩
    cases hflag : s.cell.shuttingDown with
    | true => rfl
    | false => simp [hinv.swaps hflag n t ht] at hpc
  have hmoves : ∀ n, s.pcs n = .returned true → Moves calls nowMs turns n :=
    fun n hpc => hinv.moved n (by rw [hpc]; trivial)
  refine ⟨fun hdown more => ?_, fun n m hn hm => ?_, fun hsome hall => ?_, fun n hn => ?_,
    fun n => ?_, fun n target t hn htarget hpc => ?_⟩
  · obtain hdown | ⟨n, target, hseen⟩ := hdown
    · exact run_phase more hdown
    · exact run_phase more (hinv.seen n target hseen)
  · exact (hinv.first (hup ⟨n, true, hn⟩)).unique (htold n hn) (htold m hm)
  · obtain ⟨n, hn, honly⟩ := hinv.first (hup hsome)
    refine ⟨n, ?_, fun m hm => honly m (htold m hm)⟩
    cases hcall : calls n with
    | enter _ _ => simp [hcall, Call.First] at hn
    | beginShutdown t =>
      rw [hcall] at hn
      obtain hpc | ⟨b, hpc⟩ := hall n t hcall
      · exact absurd hpc hn.1
      · cases b with
        | false => exact absurd hpc hn.2
        | true => exact ⟨⟨t, hcall⟩, hpc⟩
  · obtain ⟨⟨t, hcall⟩, hpc⟩ := hn
    exact (hmoves n hpc).phase (by rw [hcall]; rfl)
  · rw [Shared.run, foldl_append]
    exact alone_returns calls n 7 _ (left_le _ _)
  · obtain ⟨before, spurious, after, rfl, hbefore, hafter⟩ := hmoves n hpc
    rw [hn] at hbefore hafter
    exact ⟨before, spurious, after, rfl, fun hdown => htarget (hbefore hdown), hafter⟩

end LifecycleCell

end Weir.Status

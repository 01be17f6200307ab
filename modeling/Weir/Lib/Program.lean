import Mathlib.Algebra.Ring.Nat
import Mathlib.Logic.Relation

/-!
# Programs that make calls, and what holds of them under interference

A sequential program over a set of calls (`Prog`), as it is written in the
source: a result, or a call and what to do with its answer. Several such
programs share one state and take turns between their calls, so a program is
judged against what the others may do meanwhile:

> `Prog.Sat`: whatever the others do between two calls (`rely`), every call is
> made where `guard` allows it, and the result satisfies `post`.

`Sat` is stable under the others (`Sat.of_rely`), passes to what is left of the
program when a call returns (`Sat.of_call`), and composes (`Sat.bind`); with
these three an invariant of the system keeps one `Sat` for each program it runs.

A program that runs alone is judged by its executions (`Prog.Exec`); they come apart
where the program does (`Exec.bind_inv`), keep what each call keeps (`Exec.invariant`), and
make only the calls that their end accounts for (`Exec.guarded`).

`Run` is the other half: the states a labelled transition system reaches by
steps that are all `allowed`.
-/

namespace Weir.Lib

open Relation

/-- A program over the calls `C`, where the call `c` is answered by an `R c`. -/
inductive Prog (C : Type) (R : C → Type) (α : Type) : Type where
  | pure (a : α) : Prog C R α
  | call (c : C) (k : R c → Prog C R α) : Prog C R α

namespace Prog

variable {C : Type} {R : C → Type} {α β S : Type}

def bind (p : Prog C R α) (f : α → Prog C R β) : Prog C R β :=
  match p with
  | .pure a => f a
  | .call c k => .call c fun r => (k r).bind f

instance : Monad (Prog C R) where
  pure := .pure
  bind := .bind

/-- One call. -/
def ask (c : C) : Prog C R (R c) := .call c .pure

section

variable (step : (c : C) → S → R c → S → Prop) (rely : S → S → Prop) (guard : C → S → Prop)

/-- The program from state `s` on, with interference between its calls. -/
def Sat : Prog C R α → (α → S → Prop) → S → Prop
  | .pure a, post, s => ∀ s', ReflTransGen rely s s' → post a s'
  | .call c k, post, s => ∀ s', ReflTransGen rely s s' →
      guard c s' ∧ ∀ r s'', step c s' r s'' → Sat (k r) post s''

end

variable {step : (c : C) → S → R c → S → Prop} {rely : S → S → Prop} {guard : C → S → Prop}
  {post : α → S → Prop} {s s' : S} {p : Prog C R α}

/-- The others' steps are already accounted for. -/
theorem Sat.of_relies (h : p.Sat step rely guard post s) (hr : ReflTransGen rely s s') :
    p.Sat step rely guard post s' := by
  cases p with
  | pure a | call c k => exact fun s'' hs => h s'' (hr.trans hs)

theorem Sat.of_rely (h : p.Sat step rely guard post s) (hr : rely s s') :
    p.Sat step rely guard post s' := h.of_relies (.single hr)

/-- A call is allowed where it is made, and the rest goes on from its answer. -/
theorem Sat.of_call {c : C} {k : R c → Prog C R α} (h : (call c k).Sat step rely guard post s) :
    guard c s ∧ ∀ r s', step c s r s' → (k r).Sat step rely guard post s' := h s .refl

theorem Sat.of_pure {a : α} (h : (pure a : Prog C R α).Sat step rely guard post s) : post a s :=
  h s .refl

theorem Sat.mono {post' : α → S → Prop} (hpost : ∀ a s, post a s → post' a s) :
    ∀ {s : S}, p.Sat step rely guard post s → p.Sat step rely guard post' s := by
  induction p with
  | pure a => intro s h s' hs; exact hpost a s' (h s' hs)
  | call c k ih =>
    intro s h s' hs
    exact ⟨(h s' hs).1, fun r s'' hr => ih r ((h s' hs).2 r s'' hr)⟩

theorem Sat.bind {f : α → Prog C R β} {post : β → S → Prop} :
    ∀ {s : S}, p.Sat step rely guard (fun a => (f a).Sat step rely guard post) s →
      (p >>= f).Sat step rely guard post s := by
  induction p with
  | pure a => intro s h; exact h.of_pure
  | call c k ih =>
    intro s h s' hs
    exact ⟨(h s' hs).1, fun r s'' hr => ih r ((h s' hs).2 r s'' hr)⟩

/-- An assertion the others keep. -/
def Stable (rely : S → S → Prop) (I : S → Prop) : Prop := ∀ s s', rely s s' → I s → I s'

section

variable {I : S → Prop} (hI : Stable rely I)

include hI

theorem Stable.relies (h : ReflTransGen rely s s') (hs : I s) : I s' := by
  induction h with
  | refl => exact hs
  | tail _ hr ih => exact hI _ _ hr ih

/-- To make a call, say what is known there. -/
theorem Sat.ask {c : C} {f : R c → Prog C R α} (hs : I s)
    (h : ∀ s, I s → guard c s ∧ ∀ r s', step c s r s' → (f r).Sat step rely guard post s') :
    (ask c >>= f).Sat step rely guard post s :=
  fun s' hr => h s' (hI.relies hr hs)

/-- To return, say what is known there. -/
theorem Sat.ret {a : α} (hs : I s) (h : ∀ s, I s → post a s) :
    (pure a : Prog C R α).Sat step rely guard post s :=
  fun s' hr => h s' (hI.relies hr hs)

end

/-! ## A program alone -/

/-- The program started in `s` returns `a` and leaves `s'`, where each call does something that
`step` allows. -/
inductive Exec (step : (c : C) → S → R c → S → Prop) : Prog C R α → S → α → S → Prop
  | pure {a : α} {s : S} : Exec step (.pure a) s a s
  | call {c : C} {k : R c → Prog C R α} {s s' s'' : S} {r : R c} {a : α} (h : step c s r s')
      (hk : Exec step (k r) s' a s'') : Exec step (.call c k) s a s''

theorem Exec.pure_inv {a b : α} (h : Exec step (Prog.pure a) s b s') : b = a ∧ s' = s := by
  cases h
  exact ⟨rfl, rfl⟩

theorem Exec.bind {f : α → Prog C R β} {a : α} {b : β} {s'' : S} (h : Exec step p s a s')
    (hf : Exec step (f a) s' b s'') : Exec step (p >>= f) s b s'' := by
  induction h with
  | pure => exact hf
  | call h _ ih => exact .call h (ih hf)

theorem Exec.bind_inv {f : α → Prog C R β} {b : β} {s' : S} :
    ∀ {s : S}, Exec step (p >>= f) s b s' →
      ∃ a t, Exec step p s a t ∧ Exec step (f a) t b s' := by
  induction p with
  | pure a => exact fun h => ⟨a, _, .pure, h⟩
  | call c k ih =>
    intro s h
    cases h with
    | call hstep hk =>
      obtain ⟨a, t, hp, hf⟩ := ih _ hk
      exact ⟨a, t, .call hstep hp, hf⟩

theorem Exec.ask_inv {c : C} {r : R c} (h : Exec step (ask c) s r s') : step c s r s' := by
  cases h with
  | call hstep hk =>
    cases hk
    exact hstep

/-- A guard that the end of an execution tells of every call before it. -/
theorem Exec.guarded {a : α} {Q : S → Prop} (h : Exec step p s a s')
    (hstep : ∀ c s r s', step c s r s' → Q s' → guard c s ∧ Q s) (hs' : Q s') :
    Exec (fun c s r s' => guard c s ∧ step c s r s') p s a s' ∧ Q s := by
  induction h with
  | pure => exact ⟨.pure, hs'⟩
  | call h _ ih =>
    obtain ⟨hexec, hs⟩ := ih hs'
    obtain ⟨hguard, hq⟩ := hstep _ _ _ _ h hs
    exact ⟨.call ⟨hguard, h⟩ hexec, hq⟩

theorem Exec.invariant {a : α} {I : S → Prop} (hstep : ∀ c s r s', step c s r s' → I s → I s')
    (h : Exec step p s a s') (hs : I s) : I s' := by
  induction h with
  | pure => exact hs
  | call h _ ih => exact ih (hstep _ _ _ _ h hs)

/-- An execution, seen through a part of the state that the calls see alone. -/
theorem Exec.project {S' : Type} {step' : (c : C) → S' → R c → S' → Prop} (f : S → S')
    (hstep : ∀ c s r s', step c s r s' → step' c (f s) r (f s')) {a : α} (h : Exec step p s a s') :
    Exec step' p (f s) a (f s') := by
  induction h with
  | pure => exact .pure
  | call h _ ih => exact .call (hstep _ _ _ _ h) ih

/-- The program against a world that answers by a function. -/
def run (answer : (c : C) → S → R c × S) : Prog C R α → S → α × S
  | .pure a, s => (a, s)
  | .call c k, s => (k (answer c s).1).run answer (answer c s).2

theorem Exec.of_run {answer : (c : C) → S → R c × S}
    (h : ∀ c s, step c s (answer c s).1 (answer c s).2) (p : Prog C R α) :
    ∀ s, Exec step p s (p.run answer s).1 (p.run answer s).2 := by
  induction p with
  | pure a => exact fun s => .pure
  | call c k ih => exact fun s => .call (h c s) (ih _ _)

end Prog

/-! ## Runs -/

section

variable {S L : Type}

/-- The states reached from `s` by steps that are all `allowed`. -/
inductive Run (step : S → L → Option S) (allowed : S → L → Prop) (s : S) : S → Prop
  | refl : Run step allowed s s
  | tail {t u : S} {l : L} (h : Run step allowed s t) (hl : allowed t l) (hs : step t l = some u) :
      Run step allowed s u

variable {step : S → L → Option S} {allowed : S → L → Prop} {s t u : S}

/-- What every allowed step preserves, every run preserves. -/
theorem Run.invariant {P : S → Prop}
    (hstep : ∀ s l s', allowed s l → step s l = some s' → P s → P s')
    (h : Run step allowed s t) (hs : P s) : P t := by
  induction h with
  | refl => exact hs
  | tail _ hl hstep' ih => exact hstep _ _ _ hl hstep' ih

theorem Run.trans (h : Run step allowed s t) (h' : Run step allowed t u) :
    Run step allowed s u := by
  induction h' with
  | refl => exact h
  | tail _ hl hs ih => exact .tail ih hl hs

/-- Takes the labels one after another. -/
def follow (step : S → L → Option S) (s : S) : List L → Option S
  | [] => some s
  | l :: ls =>
    match step s l with
    | some s' => follow step s' ls
    | none => none

theorem Run.of_follow {ls : List L} (hl : ∀ l ∈ ls, ∀ s, allowed s l) :
    ∀ {s t : S}, follow step s ls = some t → Run step allowed s t := by
  induction ls with
  | nil => intro s t h; cases h; exact .refl
  | cons l ls ih =>
    intro s t h
    rw [follow] at h
    split at h
    next s' hs' =>
      have hfirst : Run step allowed s s' := .tail .refl (hl l List.mem_cons_self s) hs'
      exact hfirst.trans (ih (fun l' hl' => hl l' (List.mem_cons_of_mem _ hl')) h)
    · cases h

end

end Weir.Lib

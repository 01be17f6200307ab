import Mathlib.Algebra.Ring.Nat
import Mathlib.Data.List.Basic

/-!
# Order in a line

Elements wait in a line; some fall out, new ones enter behind the last, and one
may be replaced by copies of itself. Whatever a sequence of such steps (`Flows`)
does, it never lets an element overtake another:

> `NeverBefore.flows`: if `b` does not stand before `a`, and `a` does not enter
> again, then `b` does not stand before `a` after the step.
-/

namespace Weir.Lib

open List

variable {α : Type}

/-- No `b` in the line has an `a` behind it. -/
def NeverBefore (b a : α) (l : List α) : Prop := ¬[b, a].Sublist l

/-- One step of a line; `enters` says what may come in. -/
inductive Flows (enters : α → Prop) : List α → List α → Prop
  | drops {l l' : List α} (h : l'.Sublist l) : Flows enters l l'
  | joins {l : List α} {x : α} (h : enters x) : Flows enters l (l ++ [x])
  | repeats {l r : List α} {x : α} (n : Nat) :
      Flows enters (l ++ x :: r) (l ++ (replicate n x ++ r))

variable {enters : α → Prop} {a b : α} {l l' : List α}

theorem Flows.refl (l : List α) :
    Flows enters l l := .drops (List.Sublist.refl l)

theorem Flows.mem (h : Flows enters l l') {x : α}
    (hx : x ∈ l') : x ∈ l ∨ enters x := by
  cases h with
  | drops h => exact .inl (h.subset hx)
  | joins h =>
    rcases mem_append.mp hx with hx | hx
    · exact .inl hx
    · rw [mem_singleton.mp hx]
      exact .inr h
  | repeats n =>
    left
    simp only [mem_append, mem_replicate, mem_cons] at hx ⊢
    rcases hx with hx | ⟨_, hx⟩ | hx
    · exact .inl hx
    · exact .inr (.inl hx)
    · exact .inr (.inr hx)

theorem pair_sublist_append {r : List α} :
    [b, a].Sublist (l ++ r) ↔ [b, a].Sublist l ∨ (b ∈ l ∧ a ∈ r) ∨ [b, a].Sublist r := by
  constructor
  · intro h
    obtain ⟨p, q, hpq, hp, hq⟩ := List.sublist_append_iff.mp h
    cases p with
    | nil =>
      exact .inr (.inr (hpq ▸ hq))
    | cons x p =>
      obtain ⟨rfl, hrest⟩ := List.cons.inj hpq
      cases p with
      | nil =>
        obtain rfl : [a] = q := hrest
        exact .inr (.inl ⟨List.singleton_sublist.mp hp, List.singleton_sublist.mp hq⟩)
      | cons y p =>
        obtain ⟨rfl, hnil⟩ := List.cons.inj hrest
        obtain ⟨rfl, _⟩ := append_eq_nil_iff.mp hnil.symm
        exact .inl hp
  · rintro (h | ⟨hb, ha⟩ | h)
    · exact h.trans (sublist_append_left l r)
    · exact (List.singleton_sublist.mpr hb).append (List.singleton_sublist.mpr ha)
    · exact h.trans (sublist_append_right l r)

theorem pair_sublist_cons {x : α} :
    [b, a].Sublist (x :: l) ↔ (b = x ∧ a ∈ l) ∨ [b, a].Sublist l := by
  have h := pair_sublist_append (a := a) (b := b) (l := [x]) (r := l)
  have hone : ¬[b, a].Sublist [x] := fun hs => by simpa using hs.length_le
  simpa [hone] using h

theorem NeverBefore.of_not_mem (h : b ∉ l) : NeverBefore b a l :=
  fun hs => h (hs.subset mem_cons_self)

theorem NeverBefore.sublist (h : NeverBefore b a l)
    (hl : l'.Sublist l) : NeverBefore b a l' := fun hs => h (hs.trans hl)

theorem NeverBefore.flows (hab : a ≠ b)
    (ha : ¬enters a) (hf : Flows enters l l') (h : NeverBefore b a l) : NeverBefore b a l' := by
  cases hf with
  | drops hl => exact h.sublist hl
  | joins hx =>
    intro hs
    rcases pair_sublist_append.mp hs with hs | ⟨_, hmem⟩ | hs
    · exact h hs
    · exact ha (mem_singleton.mp hmem ▸ hx)
    · simpa using hs.length_le
  | @repeats p r x n =>
    have hsame : ¬[b, a].Sublist (replicate n x) := by
      intro hs
      have ha := eq_of_mem_replicate (hs.subset (mem_cons_of_mem b mem_cons_self))
      have hb := eq_of_mem_replicate (hs.subset mem_cons_self)
      exact hab (ha.trans hb.symm)
    intro hs
    refine h ?_
    rw [pair_sublist_append, pair_sublist_cons]
    rcases pair_sublist_append.mp hs with hs | ⟨hb, hmem⟩ | hs
    · exact .inl hs
    · refine .inr (.inl ⟨hb, ?_⟩)
      rcases mem_append.mp hmem with hmem | hmem
      · rw [eq_of_mem_replicate hmem]
        exact mem_cons_self
      · exact mem_cons_of_mem x hmem
    · rcases pair_sublist_append.mp hs with hs | ⟨hb, hmem⟩ | hs
      · exact absurd hs hsame
      · exact .inr (.inr (.inl ⟨eq_of_mem_replicate hb, hmem⟩))
      · exact .inr (.inr (.inr hs))

end Weir.Lib

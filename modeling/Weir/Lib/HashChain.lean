import Mathlib.Algebra.Ring.Nat
import Mathlib.Data.List.Induction
import Mathlib.Data.Set.Function

/-!
# Hash chains

A chain hashes an origin, and then links every item to the head before it. A head commits
to the origin and to the items:

> `chain_inj`: if the hash has no collision among what was hashed, two chains with one head
> are the same chain.

Nothing is assumed of the hash as a whole, which has collisions.
-/

namespace Weir.Lib

open List

variable {α β δ : Type} (hash : β → δ) (link : δ → α → β)

/-- The head after the items, from a head. -/
def chainFrom (head : δ) (items : List α) : δ := items.foldl (fun d a => hash (link d a)) head

/-- What is hashed on the way. -/
def linksFrom : δ → List α → List β
  | _, [] => []
  | head, a :: items => link head a :: linksFrom (hash (link head a)) items

/-- The head of the chain of an origin and its items. -/
def chain (origin : β) (items : List α) : δ := chainFrom hash link (hash origin) items

/-- Everything that is hashed for it. -/
def hashed (origin : β) (items : List α) : List β :=
  origin :: linksFrom hash link (hash origin) items

theorem chain_concat (origin : β) (items : List α) (a : α) :
    chain hash link origin (items ++ [a]) = hash (link (chain hash link origin items) a) := by
  rw [chain, chainFrom, foldl_append]
  rfl

theorem linksFrom_concat (a : α) (items : List α) (head : δ) :
    linksFrom hash link head (items ++ [a])
      = linksFrom hash link head items ++ [link (chainFrom hash link head items) a] := by
  induction items generalizing head with
  | nil => rfl
  | cons b items ih =>
    rw [cons_append, linksFrom, ih, linksFrom, cons_append]
    rfl

theorem hashed_concat (origin : β) (items : List α) (a : α) :
    hashed hash link origin (items ++ [a])
      = hashed hash link origin items ++ [link (chain hash link origin items) a] := by
  rw [hashed, linksFrom_concat, hashed, cons_append]
  rfl

/-- Every head is a digest of something. -/
theorem chain_digest (origin : β) (items : List α) :
    ∃ x, chain hash link origin items = hash x := by
  induction items using reverseRecOn with
  | nil => exact ⟨origin, rfl⟩
  | append_singleton items a _ => exact ⟨_, chain_concat hash link origin items a⟩

variable {hash link}

/-- A head commits to the origin and to all items, as long as the hash has no collision among what
was hashed for the two chains, a link determines its two parts, and no origin is a link. -/
theorem chain_inj (hlink : ∀ x y a b, link (hash x) a = link (hash y) b → hash x = hash y ∧ a = b)
    {origin origin' : β} {items items' : List α}
    (horigin : ∀ d, ∀ a ∈ items', origin ≠ link d a)
    (horigin' : ∀ d, ∀ a ∈ items, origin' ≠ link d a) (hinj : Set.InjOn hash
      {x | x ∈ hashed hash link origin items ∨ x ∈ hashed hash link origin' items'})
    (h : chain hash link origin items = chain hash link origin' items') :
    origin = origin' ∧ items = items' := by
  -- from the last items back to the origins
  induction items using reverseRecOn generalizing items' with
  | nil =>
    cases items' using reverseRecOn with
    | nil => exact ⟨hinj (.inl mem_cons_self) (.inr mem_cons_self) h, rfl⟩
    | append_singleton items' b =>
      rw [hashed_concat] at hinj
      rw [chain_concat] at h
      exact absurd (hinj (.inl mem_cons_self)
        (.inr (mem_append_right _ mem_cons_self)) h) (horigin _ b (by simp))
  | append_singleton items a ih =>
    cases items' using reverseRecOn with
    | nil =>
      rw [hashed_concat] at hinj
      rw [chain_concat] at h
      exact absurd (hinj (.inl (mem_append_right _ mem_cons_self))
        (.inr mem_cons_self) h).symm (horigin' _ a (by simp))
    | append_singleton items' b =>
      rw [hashed_concat, hashed_concat] at hinj
      rw [chain_concat, chain_concat] at h
      have hlast := hinj (.inl (mem_append_right _ mem_cons_self))
        (.inr (mem_append_right _ mem_cons_self)) h
      obtain ⟨x, hx⟩ := chain_digest hash link origin items
      obtain ⟨y, hy⟩ := chain_digest hash link origin' items'
      rw [hx, hy] at hlast
      obtain ⟨hheads, rfl⟩ := hlink x y a b hlast
      have hless : Set.InjOn hash
          {x | x ∈ hashed hash link origin items ∨ x ∈ hashed hash link origin' items'} :=
        hinj.mono fun x hx => hx.imp (mem_append_left _) (mem_append_left _)
      obtain ⟨rfl, rfl⟩ := ih (fun d c hc => horigin d c (mem_append_left _ hc))
        (fun d c hc => horigin' d c (mem_append_left _ hc)) hless (by rw [hx, hy, hheads])
      exact ⟨rfl, rfl⟩

end Weir.Lib

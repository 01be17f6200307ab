import Mathlib.Algebra.Ring.Nat
import Mathlib.Data.Nat.Digits.Defs

/-!
# Double precision

The arithmetic of `f64` as a parameter: reading a number, the casts from and to `u64`,
product and quotient, and the comparisons. A program that only compares and casts can be
verified for every such arithmetic; to run it on numbers, the integers that a double
represents have to be exact (`F64.Exact`).
-/

namespace Weir.Lib

/-- Double-precision arithmetic: `str::parse`, `as f64`, the saturating `as u64`, `*`, `/`, `<`,
`<=` and `total_cmp`. -/
structure F64 where
  Val : Type
  parse : List Char → Option Val
  ofU64 : Nat → Val
  toU64 : Val → Nat
  mul : Val → Val → Val
  div : Val → Val → Val
  lt : Val → Val → Bool
  le : Val → Val → Bool
  totalCmp : Val → Val → Ordering

/-- The integers below `2 ^ 53` are represented, and nothing is rounded while a result is one. -/
structure F64.Exact (F : F64) : Prop where
  parse : ∀ n < 2 ^ 53, F.parse (Nat.toDigits 10 n) = some (F.ofU64 n)
  toU64 : ∀ n < 2 ^ 53, F.toU64 (F.ofU64 n) = n
  mul : ∀ m n, m * n < 2 ^ 53 → F.mul (F.ofU64 m) (F.ofU64 n) = F.ofU64 (m * n)
  lt : ∀ m < 2 ^ 53, ∀ n < 2 ^ 53, F.lt (F.ofU64 m) (F.ofU64 n) = decide (m < n)
  le : ∀ m < 2 ^ 53, ∀ n < 2 ^ 53, F.le (F.ofU64 m) (F.ofU64 n) = decide (m ≤ n)

/-- The integers alone, for concrete runs. -/
def natF64 : F64 where
  Val := Nat
  parse := fun cs =>
    if cs = [] ∨ ¬cs.all Char.isDigit then none else some (Nat.ofDigitChars 10 cs 0)
  ofU64 := id
  toU64 := id
  mul := (· * ·)
  div := (· / ·)
  lt := fun a b => decide (a < b)
  le := fun a b => decide (a ≤ b)
  totalCmp := compare

theorem natF64_exact : natF64.Exact := by
  refine ⟨fun n _ => ?_, fun _ _ => rfl, fun _ _ _ => rfl, fun _ _ _ _ => rfl, fun _ _ _ _ => rfl⟩
  have hne : Nat.toDigits 10 n ≠ [] := by
    intro h
    have hlen := Nat.length_toDigits_pos (b := 10) (n := n)
    rw [h] at hlen
    exact lt_irrefl 0 hlen
  have hdigits : (Nat.toDigits 10 n).all Char.isDigit = true :=
    List.all_eq_true.mpr fun c hc =>
      Nat.isDigit_of_mem_toDigits (by decide) (by decide) hc
  show (if _ then none else some _) = _
  rw [if_neg (not_or.mpr ⟨hne, not_not_intro hdigits⟩),
    Nat.ofDigitChars_toDigits (by decide) (by decide)]
  rfl

end Weir.Lib

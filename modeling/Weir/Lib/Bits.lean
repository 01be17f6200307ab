import Mathlib.Algebra.Ring.Nat
import Mathlib.Data.List.Basic

/-!
# Bits of bytes, and bitmaps

A bitmap is a list of bytes; bit `i` is bit `i % 8` of byte `i / 8`, counted from the
low end.

> `bitAt_setAt`: setting one bit changes that bit and no other.

> `and_mask_ne_zero`, `and_padding`: how the masks of one bit, and of all bits from one
> on, read a byte.
-/

namespace Weir.Lib

/-- Bit `k` of a byte. -/
def bit (b : UInt8) (k : Nat) : Bool := b.toBitVec.getLsbD k

/-- `1u8 << k`. -/
def mask (k : Nat) : UInt8 := 1 <<< UInt8.ofNat k

theorem bit_mask {k l : Nat} (hk : k < 8) (hl : l < 8) : bit (mask k) l = decide (k = l) := by
  have h : ∀ k l : Fin 8, bit (mask k) l = decide (k.val = l.val) := by decide
  exact h ⟨k, hk⟩ ⟨l, hl⟩

theorem bit_or (a b : UInt8) (k : Nat) : bit (a ||| b) k = (bit a k || bit b k) := by
  simp [bit]

theorem bit_and (a b : UInt8) (k : Nat) : bit (a &&& b) k = (bit a k && bit b k) := by
  simp [bit]

theorem bit_zero (k : Nat) : bit 0 k = false := by simp [bit]

theorem eq_zero_of_bit {b : UInt8} (h : ∀ k < 8, bit b k = false) : b = 0 := by
  refine UInt8.toBitVec_inj.mp (BitVec.eq_of_getLsbD_eq fun k hk => ?_)
  exact (h k hk).trans (bit_zero k).symm

/-- The mask of a bit reads that bit. -/
theorem and_mask_ne_zero {b : UInt8} {k : Nat} (hk : k < 8) :
    b &&& mask k ≠ 0 ↔ bit b k = true := by
  constructor
  · intro hne
    by_contra hbit
    refine hne (eq_zero_of_bit fun l hl => ?_)
    rw [bit_and, bit_mask hk hl]
    by_cases hkl : k = l
    · rw [← hkl, Bool.eq_false_iff.mpr hbit, Bool.false_and]
    · rw [decide_eq_false hkl, Bool.and_false]
  · intro hbit hzero
    have h : bit (b &&& mask k) k = true := by
      rw [bit_and, hbit, bit_mask hk hk, decide_eq_true rfl, Bool.and_self]
    rw [hzero, bit_zero] at h
    cases h

/-- The mask of all bits from `u` on reads zero if they are zero. -/
theorem and_padding {b : UInt8} {u : Nat} (hu : u < 8) (h : ∀ k < 8, u ≤ k → bit b k = false) :
    b &&& ~~~(mask u - 1) = 0 := by
  have hlow : ∀ u k : Fin 8, bit (~~~(mask u - 1)) k = decide (u.val ≤ k.val) := by decide
  refine eq_zero_of_bit fun k hk => ?_
  rw [bit_and, hlow ⟨u, hu⟩ ⟨k, hk⟩]
  by_cases huk : u ≤ k
  · rw [h k hk huk, Bool.false_and]
  · rw [decide_eq_false huk, Bool.and_false]

/-! ## Bitmaps -/

/-- Bit `i` of a bitmap. -/
def bitAt (bs : List UInt8) (i : Nat) : Bool := bit (bs.getD (i / 8) 0) (i % 8)

/-- Sets bit `i`. -/
def setAt (bs : List UInt8) (i : Nat) : List UInt8 := bs.modify (i / 8) (· ||| mask (i % 8))

@[simp] theorem setAt_length (bs : List UInt8) (i : Nat) : (setAt bs i).length = bs.length :=
  List.length_modify ..

theorem bitAt_setAt {bs : List UInt8} {i j : Nat} (hj : j / 8 < bs.length) :
    bitAt (setAt bs j) i = (bitAt bs i || decide (j = i)) := by
  unfold bitAt setAt
  rw [List.getD_eq_getElem?_getD, List.getD_eq_getElem?_getD, List.getElem?_modify]
  by_cases hbyte : j / 8 = i / 8
  · rw [List.getElem?_eq_getElem (hbyte ▸ hj)]
    simp only [hbyte, if_true, Option.map_eq_map, Option.map_some, Option.getD_some]
    rw [bit_or, bit_mask (Nat.mod_lt _ (by omega)) (Nat.mod_lt _ (by omega))]
    congr 1
    exact decide_eq_decide.mpr ⟨fun h => by omega, fun h => by rw [h]⟩
  · have hne : j ≠ i := fun h => hbyte (by rw [h])
    simp only [hbyte, if_false, Option.map_eq_map, Option.map_id_fun', id]
    rw [decide_eq_false hne, Bool.or_false]

theorem bitAt_replicate (n i : Nat) : bitAt (List.replicate n 0) i = false := by
  unfold bitAt
  rw [List.getD_eq_getElem?_getD, List.getElem?_replicate]
  split <;> exact bit_zero _

end Weir.Lib

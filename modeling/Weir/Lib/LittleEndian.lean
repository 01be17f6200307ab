import Mathlib.Algebra.Ring.Nat

/-!
# Little-endian integers in byte strings

Fixed-width unsigned integers are stored least significant byte first. The
encoder `leBytes n v` keeps the low `n` base-256 digits of `v`, exactly what a
cast to an `n`-byte integer followed by `to_le_bytes` does, so a value that
does not fit is reduced modulo `256 ^ n` and never rejected. `leNat` reads any
byte string back.

The two round trips are `leNat_leBytes` (value → bytes → value, up to the
width) and `leBytes_leNat` (bytes → value → bytes, exact).
-/

namespace Weir.Lib

/-- A byte string: file contents, payloads, headers. -/
abbrev Bytes := List UInt8

/-- The low `n` base-256 digits of `v`, least significant first. -/
def leBytes : Nat → Nat → Bytes
  | 0, _ => []
  | n + 1, v => UInt8.ofNat (v % 256) :: leBytes n (v / 256)

/-- The number a little-endian byte string denotes. -/
def leNat : Bytes → Nat
  | [] => 0
  | b :: bs => b.toNat + 256 * leNat bs

@[simp] theorem leBytes_length : ∀ (n v : Nat), (leBytes n v).length = n
  | 0, _ => rfl
  | n + 1, v => by
    rw [leBytes, List.length_cons, leBytes_length n (v / 256)]

/-- Reading back an encoded value loses only the digits past the width. -/
theorem leNat_leBytes : ∀ (n v : Nat), leNat (leBytes n v) = v % 256 ^ n
  | 0, v => by
    rw [leBytes, leNat, Nat.pow_zero, Nat.mod_one]
  | n + 1, v => by
    have hb : (UInt8.ofNat (v % 256)).toNat = v % 256 := by
      simp
    rw [leBytes, leNat, hb, leNat_leBytes n (v / 256), Nat.pow_succ, mul_comm (256 ^ n),
      Nat.mod_mul]

/-- A value that fits the width survives the round trip. -/
theorem leNat_leBytes_of_lt {n v : Nat} (h : v < 256 ^ n) : leNat (leBytes n v) = v := by
  rw [leNat_leBytes, Nat.mod_eq_of_lt h]

theorem leBytes_inj {n v w : Nat} (hv : v < 256 ^ n) (hw : w < 256 ^ n)
    (h : leBytes n v = leBytes n w) : v = w := by
  rw [← leNat_leBytes_of_lt hv, h, leNat_leBytes_of_lt hw]

theorem leNat_lt : ∀ (bs : Bytes), leNat bs < 256 ^ bs.length
  | [] => by simp [leNat]
  | b :: bs => by
    have hb : b.toNat < 256 := b.toNat_lt
    have ih := leNat_lt bs
    rw [leNat, List.length_cons, Nat.pow_succ]
    omega

/-- Every byte string is the encoding of the number it denotes. -/
theorem leBytes_leNat : ∀ (bs : Bytes), leBytes bs.length (leNat bs) = bs
  | [] => rfl
  | b :: bs => by
    have hb : b.toNat < 256 := b.toNat_lt
    have hmod : (b.toNat + 256 * leNat bs) % 256 = b.toNat := by omega
    have hdiv : (b.toNat + 256 * leNat bs) / 256 = leNat bs := by omega
    rw [List.length_cons, leNat, leBytes, hmod, hdiv, leBytes_leNat bs]
    simp

theorem leBytes_of_length {n : Nat} {bs : Bytes} (h : bs.length = n) :
    leBytes n (leNat bs) = bs := by
  subst h
  exact leBytes_leNat bs

/-- Four bytes are the encoding of the word they denote. -/
theorem leBytes_word {bs : Bytes} (h : bs.length = 4) :
    leBytes 4 (UInt32.ofNat (leNat bs)).toNat = bs := by
  have hlt : leNat bs < 2 ^ 32 := by
    have hbs := leNat_lt bs
    rwa [h] at hbs
  rw [UInt32.toNat_ofNat_of_lt' hlt, leBytes_of_length h]

end Weir.Lib

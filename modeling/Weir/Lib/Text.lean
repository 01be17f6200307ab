import Mathlib.Algebra.Ring.Nat
import Mathlib.Data.List.Basic

/-!
# Fields in a text

A name made of fields is read back when no field holds the separator behind it
(`sep_inj`), or, for the last field, the separator before it (`last_inj`).
Fields that show where they end (`Delimited`) need no separator (`flatMap_inj`), nor do
records behind their lengths (`Prefixed`), where a length shows where it ends.
Fixed-width hexadecimal (`hexFixed`) holds none but its digits.
-/

namespace Weir.Lib

open List

variable {α : Type}

/-- A field ends at the first separator. -/
theorem sep_inj {c : α} {x x' y y' : List α} (hx : c ∉ x) (hx' : c ∉ x')
    (h : x ++ c :: y = x' ++ c :: y') : x = x' ∧ y = y' := by
  rcases append_eq_append_iff.mp h with ⟨m, hm, hrest⟩ | ⟨m, hm, hrest⟩
  · cases m with
    | nil => exact ⟨by rw [hm, append_nil], (List.cons.inj hrest).2⟩
    | cons d m =>
      obtain ⟨rfl, _⟩ := List.cons.inj hrest
      exact absurd (by rw [hm]; simp) hx'
  · cases m with
    | nil => exact ⟨by rw [hm, append_nil], (List.cons.inj hrest).2.symm⟩
    | cons d m =>
      obtain ⟨rfl, _⟩ := List.cons.inj hrest
      exact absurd (by rw [hm]; simp) hx

/-- What stands before the last field: nothing, or a text that ends in a separator. -/
def EndsIn (c : α) (pre : List α) : Prop := pre = [] ∨ ∃ init, pre = init ++ [c]

theorem EndsIn.eq_nil {c : α} {pre m x : List α} (h : EndsIn c (pre ++ m)) (hx : c ∉ m ++ x) :
    m = [] := by
  rcases eq_nil_or_concat m with rfl | ⟨init, d, rfl⟩
  · rfl
  rcases h with hnil | ⟨init', hc⟩
  · exact absurd hnil (by simp)
  rw [concat_eq_append, ← append_assoc] at hc
  have hd := append_inj_right' hc rfl
  simp only [List.cons.injEq, and_true] at hd
  exact absurd (by rw [hd]; simp) hx

/-- The last field starts behind the last separator. -/
theorem last_inj {c : α} {pre pre' x x' : List α} (hpre : EndsIn c pre) (hpre' : EndsIn c pre')
    (hx : c ∉ x) (hx' : c ∉ x') (h : pre ++ x = pre' ++ x') : x = x' := by
  rcases append_eq_append_iff.mp h with ⟨m, rfl, rfl⟩ | ⟨m, rfl, rfl⟩
  · rw [hpre'.eq_nil hx, nil_append]
  · rw [hpre.eq_nil hx', nil_append]

/-- A code whose end is seen from its own text, whatever follows. -/
def Delimited {β : Type} (dom : β → Prop) (enc : β → List α) : Prop :=
  ∀ x y, dom x → dom y → enc x ≠ [] ∧ ∀ s t, enc x ++ s = enc y ++ t → x = y ∧ s = t

/-- Such codes, one behind the other, are read back in one way only. -/
theorem flatMap_inj {β : Type} {dom : β → Prop} {enc : β → List α} (h : Delimited dom enc)
    {xs ys : List β} (hx : ∀ x ∈ xs, dom x) (hy : ∀ y ∈ ys, dom y)
    (heq : xs.flatMap enc = ys.flatMap enc) : xs = ys := by
  induction xs generalizing ys with
  | nil =>
    cases ys with
    | nil => rfl
    | cons y ys =>
      have hd := hy y mem_cons_self
      exact absurd (append_eq_nil_iff.mp heq.symm).1 (h y y hd hd).1
  | cons x xs ih =>
    have hd := hx x mem_cons_self
    cases ys with
    | nil => exact absurd (append_eq_nil_iff.mp heq).1 (h x x hd hd).1
    | cons y ys =>
      obtain ⟨rfl, htail⟩ := (h x y hd (hy y mem_cons_self)).2 _ _ heq
      rw [ih (fun z hz => hx z (mem_cons_of_mem _ hz)) (fun z hz => hy z (mem_cons_of_mem _ hz))
        htail]

/-! ## Records behind their lengths -/

/-- A text of records, each behind its length in the code `code`. -/
inductive Prefixed (code : List α → Nat → Prop) : List α → List (List α) → Prop
  | nil : Prefixed code [] []
  | cons {len x rest : List α} {xs : List (List α)} (hlen : code len x.length)
      (h : Prefixed code rest xs) : Prefixed code (len ++ (x ++ rest)) (x :: xs)

theorem Prefixed.flatMap {code : List α → Nat → Prop} {len : List α → List α}
    {xs : List (List α)} (h : ∀ x ∈ xs, code (len x) x.length) :
    Prefixed code (xs.flatMap fun x => len x ++ x) xs := by
  induction xs with
  | nil => exact .nil
  | cons x xs ih =>
    rw [flatMap_cons, append_assoc]
    exact .cons (h x mem_cons_self) (ih fun y hy => h y (mem_cons_of_mem _ hy))

/-- Where a length is read in one way only, so is the text. -/
theorem Prefixed.unique {code : List α → Nat → Prop} (hne : ∀ {len n}, code len n → len ≠ [])
    (hcode : ∀ {len len' m n s t}, code len m → code len' n → len ++ s = len' ++ t →
      m = n ∧ s = t) {text : List α} {xs ys : List (List α)} (hx : Prefixed code text xs)
    (hy : Prefixed code text ys) : xs = ys := by
  induction hx generalizing ys with
  | nil =>
    generalize htext : ([] : List α) = text at hy
    cases hy with
    | nil => rfl
    | cons hlen _ => exact absurd (append_eq_nil_iff.mp htext.symm).1 (hne hlen)
  | @cons len x rest xs hlen _ ih =>
    generalize htext : len ++ (x ++ rest) = text at hy
    cases hy with
    | nil => exact absurd (append_eq_nil_iff.mp htext).1 (hne hlen)
    | cons hlen' hrest =>
      obtain ⟨hsize, hbody⟩ := hcode hlen hlen' htext
      obtain ⟨rfl, rfl⟩ := append_inj hbody hsize
      rw [ih hrest]

/-- A line ends at its newline. -/
theorem splitOn_line [DecidableEq α] {c : α} {line : List α} (hline : c ∉ line)
    (rest : List α) : (line ++ c :: rest).splitOn c = line :: rest.splitOn c := by
  rw [splitOn_eq_splitOnP, splitOn_eq_splitOnP]
  refine splitOnP_append_cons_of_forall_mem (p := (· == c)) (fun b hb => ?_) c (by simp) rest
  simpa using fun h : b = c => hline (h ▸ hb)

/-! ## Hexadecimal -/

/-- The low `w` hexadecimal digits of `n`, the most significant first. -/
def hexFixed : Nat → Nat → List Char
  | 0, _ => []
  | w + 1, n => hexFixed w (n / 16) ++ [Nat.digitChar (n % 16)]

theorem hexFixed_length (w n : Nat) : (hexFixed w n).length = w := by
  induction w generalizing n with
  | zero => rfl
  | succ w ih => rw [hexFixed, length_append, ih, length_singleton]

theorem digitChar_inj {m n : Nat} (hm : m < 16) (hn : n < 16)
    (h : Nat.digitChar m = Nat.digitChar n) : m = n := by
  have hall : ∀ i j : Fin 16, Nat.digitChar i = Nat.digitChar j → i = j := by decide
  exact Fin.mk.inj (hall ⟨m, hm⟩ ⟨n, hn⟩ h)

theorem hexFixed_inj {w m n : Nat} (hm : m < 16 ^ w) (hn : n < 16 ^ w)
    (h : hexFixed w m = hexFixed w n) : m = n := by
  induction w generalizing m n with
  | zero => omega
  | succ w ih =>
    obtain ⟨hinit, hlast⟩ := append_inj' h rfl
    have hdiv := ih (by omega) (by omega) hinit
    have hmod := digitChar_inj (by omega) (by omega) (List.cons.inj hlast).1
    omega

theorem mem_hexFixed {w n : Nat} {c : Char} (h : c ∈ hexFixed w n) :
    ∃ d < 16, c = Nat.digitChar d := by
  induction w generalizing n with
  | zero => cases h
  | succ w ih =>
    rcases mem_append.mp h with h | h
    · exact ih h
    · exact ⟨n % 16, Nat.mod_lt _ (by decide), mem_singleton.mp h⟩

end Weir.Lib

import Mathlib.Algebra.Ring.Nat
import Mathlib.Data.List.Basic

/-!
# Byte streams that arrive in pieces

A stream is what its reads will meet, in order: chunks of elements, and failures
between them; behind the last one the stream has ended. `read` takes from one chunk
at most, so a chunk boundary is where a read comes back short.

> `BufReader.readExact_calm`: on a stream that does not fail, how a full read ends depends
> on the elements and not on how they are cut into chunks.

> `readExact_add`, `Delivers.append_iff`: one full read after the other is one full read.

> `readExact_length`: a full read that succeeds has taken what was asked for.

> `writeAll_sent`: a full write that succeeds has sent everything.
-/

namespace Weir.Lib

open List

variable {α ε : Type}

/-! ## Reading -/

/-- What a read of a stream meets. -/
inductive Arrival (α ε : Type) where
  | chunk (xs : List α)
  | failed (e : ε)
  deriving DecidableEq, Repr

/-- Why a full read stopped. -/
inductive Short (ε : Type) where
  | eof
  | failed (e : ε)
  deriving DecidableEq, Repr

/-- What a full read took, how it ended, and the stream behind it. -/
structure Taken (σ α ε : Type) where
  got : List α
  error : Option (Short ε)
  rest : σ
  deriving DecidableEq

/-- The elements of a stream. -/
def content (src : List (Arrival α ε)) : List α :=
  src.flatMap fun
    | .chunk xs => xs
    | .failed _ => []

/-- Nothing on the stream fails, and no chunk is empty. -/
def Calm (src : List (Arrival α ε)) : Prop := ∀ a ∈ src, ∃ x xs, a = .chunk (x :: xs)

@[simp] theorem content_chunk (xs : List α) (src : List (Arrival α ε)) :
    content (.chunk xs :: src) = xs ++ content src := rfl

theorem Calm.nil : Calm ([] : List (Arrival α ε)) := by simp [Calm]

variable {src : List (Arrival α ε)}

theorem Calm.tail {a : Arrival α ε} (h : Calm (a :: src)) : Calm src :=
  fun b hb => h b (mem_cons_of_mem a hb)

theorem Calm.cons {x : α} {xs : List α} (h : Calm src) : Calm (.chunk (x :: xs) :: src) := by
  intro a ha
  rcases mem_cons.mp ha with rfl | ha
  · exact ⟨x, xs, rfl⟩
  · exact h a ha

/-- `Read::read` into a buffer of `n` elements. -/
def read (n : Nat) : List (Arrival α ε) → Except ε (List α) × List (Arrival α ε)
  | [] => (.ok [], [])
  | .chunk xs :: src => (.ok (xs.take n), if xs.length ≤ n then src else .chunk (xs.drop n) :: src)
  | .failed e :: src => (.error e, src)

/-- A read takes what comes first. -/
theorem read_took (n : Nat) (src : List (Arrival α ε)) :
    (∀ xs src', read n src = (.ok xs, src') → xs ++ content src' = content src) ∧
    ∀ e src', read n src = (.error e, src') → content src' = content src := by
  cases src with
  | nil => exact ⟨fun _ _ h => (by cases h; rfl), fun _ _ h => (by cases h)⟩
  | cons a src =>
    cases a with
    | failed e => exact ⟨fun _ _ h => (by cases h), fun _ _ h => (by cases h; rfl)⟩
    | chunk xs =>
      refine ⟨fun ys src' h => ?_, fun _ _ h => (by cases h)⟩
      obtain ⟨h₁, h₂⟩ := Prod.mk.inj h
      rw [← Except.ok.inj h₁, ← h₂]
      split
      next hlen => rw [take_of_length_le hlen, content_chunk]
      · rw [content_chunk, content_chunk, ← append_assoc, take_append_drop]

/-- A read of a calm stream comes back with something, unless the stream has ended. -/
theorem read_calm {n : Nat} (hn : 0 < n) (h : Calm src) :
    ∃ xs src', read n src = (.ok xs, src') ∧ Calm src' ∧ (xs = [] → content src = []) := by
  cases src with
  | nil => exact ⟨[], [], rfl, .nil, fun _ => rfl⟩
  | cons a src =>
    obtain ⟨x, xs, rfl⟩ := h a mem_cons_self
    refine ⟨_, _, rfl, ?_, ?_⟩
    · split
      · exact h.tail
      rename_i hlen
      cases hdrop : (x :: xs).drop n with
      | nil => exact absurd (drop_eq_nil_iff.mp hdrop) hlen
      | cons y ys => exact h.tail.cons
    · intro hnil
      rcases take_eq_nil_iff.mp hnil with hzero | hcons
      · omega
      · cases hcons

/-- `Read::read_exact`: reads until `n` elements are there, and again after an error
that is only an interruption. -/
def readExact (retry : ε → Bool) : Nat → List (Arrival α ε) → Taken (List (Arrival α ε)) α ε
  | 0, src => ⟨[], none, src⟩
  | _ + 1, [] => ⟨[], some .eof, []⟩
  | n + 1, .chunk xs :: src =>
    if xs = [] then ⟨[], some .eof, src⟩
    else if n + 1 < xs.length then ⟨xs.take (n + 1), none, .chunk (xs.drop (n + 1)) :: src⟩
    else
      let t := readExact retry (n + 1 - xs.length) src
      { t with got := xs ++ t.got }
  | n + 1, .failed e :: src =>
    if retry e then readExact retry (n + 1) src else ⟨[], some (.failed e), src⟩

theorem readExact_length (retry : ε → Bool) (src : List (Arrival α ε)) (n : Nat) :
    (readExact retry n src).error = none →
      (readExact retry n src).got.length = n := by
  induction src generalizing n with
  | nil =>
    intro h
    cases n with
    | zero => rfl
    | succ n => cases h
  | cons a src ih =>
    intro h
    rcases n with _ | n
    · rfl
    rcases a with xs | e
    · rw [readExact] at h ⊢
      split
      next hnil => rw [if_pos hnil] at h; cases h
      next hne =>
        rw [if_neg hne] at h
        split
        next hlt => rw [length_take]; omega
        next hge =>
          rw [if_neg hge] at h
          have hrest := ih _ h
          rw [length_append, hrest]
          omega
    · rw [readExact] at h ⊢
      split
      next hr => rw [if_pos hr] at h; exact ih _ h
      next hr => rw [if_neg hr] at h; cases h

/-- One full read after the other. -/
theorem readExact_add (retry : ε → Bool) (src : List (Arrival α ε)) (m n : Nat) :
    readExact retry (m + n) src =
      if (readExact retry m src).error = none then
        { readExact retry n (readExact retry m src).rest with
          got := (readExact retry m src).got
            ++ (readExact retry n (readExact retry m src).rest).got }
      else readExact retry m src := by
  induction src generalizing m n with
  | nil =>
    cases m with
    | zero => simp [readExact]
    | succ m => simp [readExact, Nat.succ_add]
  | cons a src ih =>
    rcases m with _ | m
    · simp [readExact]
    rw [Nat.succ_add]
    rcases a with xs | e
    on_goal 2 =>
      rw [readExact, readExact]
      by_cases he : retry e
      · rw [if_pos he, if_pos he, show m + n + 1 = m + 1 + n by omega]
        exact ih (m + 1) n
      · rw [if_neg he, if_neg he, if_neg (by simp)]
    rw [readExact, readExact]
    by_cases hnil : xs = []
    · rw [if_pos hnil, if_pos hnil, if_neg (by simp)]
    rw [if_neg hnil, if_neg hnil]
    by_cases hlt : m + 1 < xs.length
    · rw [if_pos hlt, if_pos rfl]
      rcases n with _ | n
      · rw [add_zero, if_pos hlt, readExact, append_nil]
      -- the second read starts in the rest of the chunk
      have hdrop : xs.drop (m + 1) ≠ [] := by
        rw [ne_eq, drop_eq_nil_iff]
        omega
      rw [readExact, if_neg hdrop, length_drop]
      by_cases hlt' : m + (n + 1) + 1 < xs.length
      · rw [if_pos hlt', if_pos (by omega), ← take_add, drop_drop,
          show m + (n + 1) + 1 = m + 1 + (n + 1) by omega]
      · rw [if_neg hlt', if_neg (by omega)]
        rw [← append_assoc, take_append_drop,
          show m + (n + 1) + 1 - xs.length = n + 1 - (xs.length - (m + 1)) by omega]
    · rw [if_neg hlt, if_neg (by omega)]
      rw [show m + n + 1 - xs.length = m + 1 - xs.length + n by omega, ih]
      split
      · rw [append_assoc]
      · rfl

/-- The next elements of the stream are `xs`, and a full read takes them. -/
def Delivers (retry : ε → Bool) (src : List (Arrival α ε)) (xs : List α) : Prop :=
  ∃ rest, readExact retry xs.length src = ⟨xs, none, rest⟩

theorem Delivers.append_iff {retry : ε → Bool} {xs ys : List α} :
    Delivers retry src (xs ++ ys) ↔
      ∃ rest, readExact retry xs.length src = ⟨xs, none, rest⟩ ∧ Delivers retry rest ys := by
  constructor
  · rintro ⟨rest, h⟩
    rw [length_append, readExact_add] at h
    split at h
    next hnone =>
      have hlen := readExact_length retry src xs.length hnone
      generalize readExact retry xs.length src = t at h hlen hnone ⊢
      obtain ⟨got, error, rest₁⟩ := t
      obtain ⟨hgot, herror, hrest⟩ := Taken.mk.inj h
      obtain ⟨rfl, hys⟩ := append_inj hgot hlen
      refine ⟨rest₁, by rw [show error = none from hnone], rest, ?_⟩
      cases ht : readExact retry ys.length rest₁ with
      | mk got' error' rest' =>
        rw [ht] at hys herror hrest
        rw [← hys, ← herror, ← hrest]
    next hsome =>
      rw [h] at hsome
      exact absurd rfl hsome
  · rintro ⟨rest, hxs, rest', hys⟩
    refine ⟨rest', ?_⟩
    rw [length_append, readExact_add, hxs, if_pos rfl]
    rw [hys]

/-! ## Buffered reading -/

/-- A reader that reads ahead into a buffer. -/
structure BufReader (α ε : Type) where
  buf : List α
  inner : List (Arrival α ε)

namespace BufReader

def content (r : BufReader α ε) : List α := r.buf ++ Lib.content r.inner

/-- `BufReader::read` with a buffer of `capacity`: what is buffered comes first; an empty
buffer is passed by for a read that would fill it, and filled for a smaller one. -/
def read (capacity n : Nat) (r : BufReader α ε) : Except ε (List α) × BufReader α ε :=
  if r.buf = [] then
    if capacity ≤ n then
      let (res, inner) := Lib.read n r.inner
      (res, ⟨[], inner⟩)
    else
      match Lib.read capacity r.inner with
      | (.ok xs, inner) => (.ok (xs.take n), ⟨xs.drop n, inner⟩)
      | (.error e, inner) => (.error e, ⟨[], inner⟩)
  else (.ok (r.buf.take n), ⟨r.buf.drop n, r.inner⟩)

theorem read_took (capacity n : Nat) (r : BufReader α ε) :
    (∀ xs r', r.read capacity n = (.ok xs, r') → xs ++ r'.content = r.content) ∧
    ∀ e r', r.read capacity n = (.error e, r') → r'.content = r.content := by
  unfold read
  split
  next hbuf =>
    have hcontent : r.content = Lib.content r.inner := by rw [content, hbuf, nil_append]
    rw [hcontent]
    split
    · obtain ⟨hok, herr⟩ := Lib.read_took n r.inner
      refine ⟨fun xs r' h => ?_, fun e r' h => ?_⟩
      · obtain ⟨h₁, rfl⟩ := Prod.mk.inj h
        exact hok xs _ (Prod.ext h₁ rfl)
      · obtain ⟨h₁, rfl⟩ := Prod.mk.inj h
        exact herr e _ (Prod.ext h₁ rfl)
    · obtain ⟨hok, herr⟩ := Lib.read_took capacity r.inner
      split
      next ys inner hread =>
        refine ⟨fun xs r' h => ?_, fun _ _ h => (by cases h)⟩
        obtain ⟨h₁, rfl⟩ := Prod.mk.inj h
        rw [← Except.ok.inj h₁, content, ← append_assoc, take_append_drop]
        exact hok ys inner hread
      next e inner hread =>
        refine ⟨fun _ _ h => (by cases h), fun e' r' h => ?_⟩
        obtain ⟨h₁, rfl⟩ := Prod.mk.inj h
        exact herr e inner hread
  · refine ⟨fun xs r' h => ?_, fun _ _ h => (by cases h)⟩
    obtain ⟨h₁, rfl⟩ := Prod.mk.inj h
    rw [← Except.ok.inj h₁, content, content, ← append_assoc, take_append_drop]

/-- No read takes more than was asked for. -/
theorem read_length {capacity n : Nat} {r r' : BufReader α ε} {xs : List α}
    (h : r.read capacity n = (.ok xs, r')) : xs.length ≤ n := by
  unfold read at h
  split at h
  · split at h
    · cases hsrc : r.inner with
      | nil =>
        rw [hsrc] at h
        cases h
        exact Nat.zero_le n
      | cons a src =>
        rw [hsrc] at h
        cases a with
        | failed e => cases h
        | chunk ys =>
          cases h
          exact length_take_le n ys
    · split at h
      next ys inner _ =>
        cases h
        exact length_take_le n ys
      · cases h
  · cases h
    exact length_take_le n r.buf

theorem read_calm {capacity n : Nat} (hc : 0 < capacity) (hn : 0 < n) {r : BufReader α ε}
    (h : Calm r.inner) :
    ∃ xs r', r.read capacity n = (.ok xs, r') ∧ Calm r'.inner ∧ (xs = [] → r.content = []) := by
  unfold read
  split
  next hbuf =>
    have hcontent : r.content = Lib.content r.inner := by rw [content, hbuf, nil_append]
    split
    · obtain ⟨xs, src, hread, hcalm, hnil⟩ := Lib.read_calm hn h
      rw [hread]
      exact ⟨xs, ⟨[], src⟩, rfl, hcalm, fun hxs => hcontent.trans (hnil hxs)⟩
    · obtain ⟨xs, src, hread, hcalm, hnil⟩ := Lib.read_calm hc h
      rw [hread]
      refine ⟨xs.take n, ⟨xs.drop n, src⟩, rfl, hcalm, ?_⟩
      intro htake
      rcases take_eq_nil_iff.mp htake with hzero | hxs
      · omega
      · exact hcontent.trans (hnil hxs)
  next hbuf =>
    refine ⟨r.buf.take n, ⟨r.buf.drop n, r.inner⟩, rfl, h, ?_⟩
    intro htake
    rcases take_eq_nil_iff.mp htake with hzero | hxs
    · omega
    · exact absurd hxs hbuf

/-- `AsyncReadExt::read_exact`. -/
def readExact (capacity : Nat) (n : Nat) (r : BufReader α ε) : Taken (BufReader α ε) α ε :=
  if _h : n = 0 then ⟨[], none, r⟩
  else
    match r.read capacity n with
    | (.error e, r) => ⟨[], some (.failed e), r⟩
    | (.ok [], r) => ⟨[], some .eof, r⟩
    | (.ok (x :: xs), r) =>
      let t := readExact capacity (n - (x :: xs).length) r
      { t with got := x :: xs ++ t.got }
termination_by n
decreasing_by simp; omega

/-- A full read takes what comes first, and all that was asked for if it succeeds. -/
theorem readExact_took (capacity : Nat) :
    ∀ (n : Nat) (r : BufReader α ε),
      (r.readExact capacity n).got ++ (r.readExact capacity n).rest.content = r.content ∧
      ((r.readExact capacity n).error = none → (r.readExact capacity n).got.length = n) := by
  intro n
  induction n using Nat.strongRecOn with
  | _ n ih =>
    intro r
    unfold readExact
    by_cases hn : n = 0
    · subst hn
      exact ⟨rfl, fun _ => rfl⟩
    rw [dif_neg hn]
    obtain ⟨hok, herr⟩ := r.read_took capacity n
    split
    next e r₁ hread => exact ⟨herr e r₁ hread, by simp⟩
    next r₁ hread => exact ⟨hok [] r₁ hread, by simp⟩
    next x xs r₁ hread =>
      obtain ⟨hgot, hlen⟩ := ih (n - (x :: xs).length) (by rw [length_cons]; omega) r₁
      have hle := read_length hread
      refine ⟨?_, fun h => ?_⟩
      · rw [append_assoc, hgot]
        exact hok (x :: xs) r₁ hread
      · rw [length_append, hlen h]
        omega

/-- A full read of a calm stream succeeds just when enough is left, and takes all there is
otherwise. -/
theorem readExact_calm {capacity : Nat} (hc : 0 < capacity) :
    ∀ (n : Nat) (r : BufReader α ε), Calm r.inner →
      Calm (r.readExact capacity n).rest.inner ∧
      ((r.readExact capacity n).error = none ∨
        (r.readExact capacity n).error = some .eof ∧ r.content.length < n ∧
          (r.readExact capacity n).rest.content = []) := by
  intro n
  induction n using Nat.strongRecOn with
  | _ n ih =>
    intro r h
    unfold readExact
    by_cases hn : n = 0
    · subst hn
      exact ⟨h, .inl rfl⟩
    rw [dif_neg hn]
    obtain ⟨xs, r₁, hread, hcalm, hnil⟩ := r.read_calm hc (Nat.pos_of_ne_zero hn) h
    have hall := (r.read_took capacity n).1 xs r₁ hread
    rw [hread]
    cases xs with
    | nil =>
      have hempty := hnil rfl
      rw [nil_append, hempty] at hall
      refine ⟨hcalm, .inr ⟨rfl, ?_, hall⟩⟩
      rw [hempty, length_nil]
      omega
    | cons x xs =>
      obtain ⟨hcalm', hend⟩ := ih (n - (x :: xs).length) (by rw [length_cons]; omega) r₁ hcalm
      refine ⟨hcalm', hend.imp id fun ⟨heof, hlt, hrest⟩ => ⟨heof, ?_, hrest⟩⟩
      rw [← hall, length_append]
      omega

end BufReader

/-! ## Writing -/

/-- What a write of a stream meets: it takes some elements, or fails. -/
inductive WriteStep (ε : Type) where
  | wrote (n : Nat)
  | failed (e : ε)
  deriving DecidableEq, Repr

/-- What a full write sent, how it ended, and the steps behind it. -/
structure Wrote (α ε : Type) where
  sent : List α
  error : Option ε
  rest : List (WriteStep ε)

/-- `Write::write_all`: writes until everything is sent, and again after an error that is
only an interruption. `zero` is the error of a write that takes nothing. Behind the last
step, writes take everything. -/
def writeAll (retry : ε → Bool) (zero : ε) : List (WriteStep ε) → List α → Wrote α ε
  | steps, [] => ⟨[], none, steps⟩
  | [], xs => ⟨xs, none, []⟩
  | .wrote n :: steps, xs =>
    if n = 0 then ⟨[], some zero, steps⟩
    else
      let w := writeAll retry zero steps (xs.drop n)
      { w with sent := xs.take n ++ w.sent }
  | .failed e :: steps, xs =>
    if retry e then writeAll retry zero steps xs else ⟨[], some e, steps⟩

theorem writeAll_sent (retry : ε → Bool) (zero : ε) (steps : List (WriteStep ε)) (xs : List α) :
    (writeAll retry zero steps xs).error = none →
      (writeAll retry zero steps xs).sent = xs := by
  induction steps generalizing xs with
  | nil =>
    cases xs <;> simp [writeAll]
  | cons s steps ih =>
    intro h
    cases xs with
    | nil => simp [writeAll]
    | cons x xs =>
      cases s with
      | wrote n =>
        rw [writeAll] at h ⊢
        split
        next hz => rw [if_pos hz] at h; cases h
        next hz =>
          rw [if_neg hz] at h
          dsimp only at h ⊢
          rw [ih _ h, take_append_drop]
        all_goals simp
      | failed e =>
        rw [writeAll] at h ⊢
        split
        next hr => rw [if_pos hr] at h; exact ih _ h
        next hr => rw [if_neg hr] at h; cases h
        all_goals simp

end Weir.Lib

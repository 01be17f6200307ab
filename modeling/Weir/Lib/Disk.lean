import Mathlib.Data.List.AList
import Weir.Lib.LittleEndian

/-!
# Files, names and crashes

A small model of a file system, over any type `P` of paths, each of which may
lie in a directory that is itself a path (`Located`). A name refers to an inode,
an inode to a `File`. A file knows how long a prefix of it a successful `fsync`
has put on stable storage. Of the updates of names, those of a directory that
was synced since are certain; a sync of one directory says nothing of the
names in another, nor of its own name in the one above it.

A program's effect on the disk is the list of operations it performed, in
order (`Op`), and `Disk.run` executes such a list. An operation whose
precondition the disk does not meet (a `create` of a name that exists, an
existence test with the wrong answer) has no run, so the answers a program was
given and the disk it ran on have to agree. A crash in the middle of a program
is a crash after a prefix of its operations:

> `Disk.Crash`: updates that no sync has reached may be lost, in any combination,
> and of every file only the stable prefix is certain.

> `Possible.lookup_synced`, `Kept.of_run`: a name is certain once its directory is
> synced, and not before.

An operation that failed without an effect is not in the list.
-/

namespace Weir.Lib

open List

/-! ## Files -/

/-- A file: its bytes, the length of the prefix known to be on stable storage,
and whether nothing changed since the last sync. -/
structure File where
  content : Bytes
  stable : Nat
  clean : Bool
  stable_le : stable ≤ content.length

/-- A new file, which no sync has reached. -/
def File.empty : File := ⟨[], 0, false, Nat.le_refl 0⟩

/-- A file as the disk holds it, with nothing in flight. -/
def File.settled (bs : Bytes) : File := ⟨bs, bs.length, true, Nat.le_refl _⟩

/-- A write at the end of the file. -/
def File.append (f : File) (bs : Bytes) : File where
  content := f.content ++ bs
  stable := f.stable
  clean := f.clean && bs.isEmpty
  stable_le := by
    rw [length_append]
    exact Nat.le_trans f.stable_le (Nat.le_add_right ..)

/-- `set_len`: cut, or extend with zeros. What is cut off is not stable. -/
def File.setLen (f : File) (n : Nat) : File where
  content := f.content.take n ++ replicate (n - f.content.length) 0
  stable := min f.stable n
  clean := false
  stable_le := by
    have := f.stable_le
    simp only [length_append, length_take, length_replicate]
    omega

theorem File.append_append (f : File) (xs ys : Bytes) :
    (f.append xs).append ys = f.append (xs ++ ys) := by
  simp only [File.append, append_assoc, File.mk.injEq, true_and]
  cases xs <;> simp

/-- A successful fsync of the file's data. -/
def File.sync (f : File) : File := .settled f.content

/-- What a crash may leave in the file: its stable prefix, then anything, or just
its content when nothing was in flight. -/
def File.Image (f : File) (bs : Bytes) : Prop :=
  bs.take f.stable = f.content.take f.stable ∧ (f.clean = true → bs = f.content)

/-- A synced file survives as it is. -/
theorem File.Image.of_clean {f : File} {bs : Bytes} (h : f.Image bs) (hf : f.clean = true) :
    bs = f.content := h.2 hf

/-! ## Names -/

/-- One atomic directory update. -/
inductive Update (P : Type) where
  | link (p : P) (inode : Nat)
  | unlink (p : P)
  | move (src dst : P) (inode : Nat)
  deriving DecidableEq, Repr

/-- The inode an update gives a name. -/
def Update.inode {P : Type} : Update P → Option Nat
  | .link _ i => some i
  | .unlink _ => none
  | .move _ _ i => some i

/-- The name an update makes, or takes away; a move is one of the directory it goes to. -/
def Update.target {P : Type} : Update P → P
  | .link p _ => p
  | .unlink p => p
  | .move _ dst _ => dst

section

variable {P : Type} {us : List (Update P × Bool)} {kept : List (Update P)}

/-- What a crash keeps of a list of updates: those with `true`, which a sync has reached, and any
of the others. -/
inductive Keeps : List (Update P × Bool) → List (Update P) → Prop
  | nil : Keeps [] []
  | keep {us : List (Update P × Bool)} {kept : List (Update P)} (u : Update P) (synced : Bool)
      (h : Keeps us kept) : Keeps ((u, synced) :: us) (u :: kept)
  | lose {us : List (Update P × Bool)} {kept : List (Update P)} (u : Update P)
      (h : Keeps us kept) : Keeps ((u, false) :: us) kept

namespace Keeps

theorem all (us : List (Update P × Bool)) : Keeps us (us.map Prod.fst) := by
  induction us with
  | nil => exact .nil
  | cons u us ih => exact .keep u.1 u.2 ih

theorem subset (h : Keeps us kept) : ∀ u ∈ kept, ∃ x ∈ us, x.1 = u := by
  induction h with
  | nil => exact fun _ hu => nomatch hu
  | keep u synced _ ih =>
    refine List.forall_mem_cons.mpr ⟨⟨_, mem_cons_self, rfl⟩, fun v hv => ?_⟩
    obtain ⟨x, hx, hxv⟩ := ih v hv
    exact ⟨x, mem_cons_of_mem _ hx, hxv⟩
  | lose u _ ih =>
    intro v hv
    obtain ⟨x, hx, hxv⟩ := ih v hv
    exact ⟨x, mem_cons_of_mem _ hx, hxv⟩

/-- A new update may be lost. -/
theorem snoc (h : Keeps us kept) (u : Update P) : Keeps (us ++ [(u, false)]) kept := by
  induction h with
  | nil => exact .lose u .nil
  | keep v synced _ ih => exact .keep v synced ih
  | lose v _ ih => exact .lose v ih

/-- It is lost, or kept behind the others. -/
theorem of_snoc {u : Update P} : ∀ {us : List (Update P × Bool)} {kept : List (Update P)},
    Keeps (us ++ [(u, false)]) kept → Keeps us kept ∨ ∃ old, kept = old ++ [u] ∧ Keeps us old
  | [], _, .keep _ _ .nil => .inr ⟨[], rfl, .nil⟩
  | [], _, .lose _ .nil => .inl .nil
  | _ :: _, _, .keep v synced h => (of_snoc h).imp (.keep v synced)
      fun ⟨old, hold, h⟩ => ⟨v :: old, congrArg (v :: ·) hold, .keep v synced h⟩
  | _ :: _, _, .lose v h => (of_snoc h).imp (.lose v) fun ⟨old, hold, h⟩ => ⟨old, hold, .lose v h⟩

/-- With more syncs less is lost. -/
theorem of_synced {f : Update P → Bool}
    (h : Keeps (us.map fun x => (x.1, x.2 || f x.1)) kept) : Keeps us kept := by
  induction us generalizing kept with
  | nil => exact h
  | cons x us ih =>
    obtain ⟨u, b⟩ := x
    rw [map_cons] at h
    generalize hx : (u, b || f u) = y at h
    cases h with
    | keep v synced h =>
      cases hx
      exact .keep u b (ih h)
    | lose v h =>
      obtain ⟨rfl, hb⟩ := Prod.mk.inj hx
      obtain rfl : b = false := (Bool.or_eq_false_iff.mp hb).1
      exact .lose u (ih h)

end Keeps

end

variable {P : Type} [DecidableEq P]

/-- A directory: each name with its inode. -/
abbrev Names (P : Type) := AList fun _ : P => Nat

def Update.apply (u : Update P) (m : Names P) : Names P :=
  match u with
  | .link p i => m.insert p i
  | .unlink p => m.erase p
  | .move src dst i => (m.erase src).insert dst i

/-- The names after a list of updates, oldest first. -/
def applyAll (us : List (Update P)) (m : Names P) : Names P := us.foldl (fun m u => u.apply m) m

theorem applyAll_append (us vs : List (Update P)) (m : Names P) :
    applyAll (us ++ vs) m = applyAll vs (applyAll us m) := List.foldl_append

theorem Update.lookup_link (p q : P) (i : Nat) (m : Names P) :
    ((Update.link p i).apply m).lookup q = if q = p then some i else m.lookup q := by
  by_cases h : q = p
  · subst h; rw [if_pos rfl]; exact AList.lookup_insert m
  · rw [if_neg h]; exact AList.lookup_insert_ne h

theorem Update.lookup_unlink (p q : P) (m : Names P) :
    ((Update.unlink p).apply m).lookup q = if q = p then none else m.lookup q := by
  by_cases h : q = p
  · subst h; rw [if_pos rfl]; exact AList.lookup_erase q m
  · rw [if_neg h]; exact AList.lookup_erase_ne h

theorem Update.lookup_move (src dst q : P) (i : Nat) (m : Names P) :
    ((Update.move src dst i).apply m).lookup q
      = if q = dst then some i else if q = src then none else m.lookup q := by
  by_cases h : q = dst
  · subst h; rw [if_pos rfl]; exact AList.lookup_insert _
  · rw [if_neg h]
    exact (AList.lookup_insert_ne h).trans (Update.lookup_unlink src q m)

/-- What the first directory has under the name, the second has too. -/
def AtMost (p : P) (m m' : Names P) : Prop := ∀ j, m.lookup p = some j → m'.lookup p = some j

theorem AtMost.apply {p : P} {m m' : Names P} (h : AtMost p m m') (u : Update P) :
    AtMost p (u.apply m) (u.apply m') := by
  intro j
  cases u with
  | link q i =>
    rw [Update.lookup_link, Update.lookup_link]
    split
    · exact id
    · exact h j
  | unlink q =>
    rw [Update.lookup_unlink, Update.lookup_unlink]
    split
    · exact id
    · exact h j
  | move src dst i =>
    rw [Update.lookup_move, Update.lookup_move]
    split
    · exact id
    · split
      · exact id
      · exact h j

/-- An update of another name, or one that moves this one away, makes nothing of it. -/
theorem AtMost.apply_left {p : P} {m m' : Names P} (h : AtMost p m m') {u : Update P}
    (hu : u.target ≠ p) : AtMost p (u.apply m) m' := by
  intro j hj
  have hu' : p ≠ u.target := Ne.symm hu
  cases u with
  | link q i => exact h j (by rwa [Update.lookup_link, if_neg (by exact hu')] at hj)
  | unlink q => exact h j (by rwa [Update.lookup_unlink, if_neg (by exact hu')] at hj)
  | move src dst i =>
    rw [Update.lookup_move, if_neg (by exact hu')] at hj
    split at hj
    · cases hj
    · exact h j hj

section

variable {us : List (Update P × Bool)} {kept : List (Update P)} {p : P}

/-- A name whose updates are all certain is left, if it is there. -/
theorem Keeps.atMost (h : Keeps us kept) (hp : ∀ x ∈ us, x.1.target = p → x.2 = true) :
    ∀ {m m' : Names P}, AtMost p m m' →
      AtMost p (applyAll (us.map Prod.fst) m) (applyAll kept m') := by
  induction h with
  | nil => exact id
  | keep u synced _ ih => exact fun h => ih (fun x hx => hp x (mem_cons_of_mem _ hx)) (h.apply u)
  | lose u _ ih =>
    intro m m' h
    have hu : u.target ≠ p := fun heq => nomatch hp _ mem_cons_self heq
    exact ih (fun x hx => hp x (mem_cons_of_mem _ hx)) (h.apply_left hu)

/-- A name that can be lost can still be lost when other names become certain. -/
theorem Keeps.synced (h : Keeps us kept) {reached : Update P → Bool}
    (hp : ∀ u, reached u = true → u.target ≠ p) :
    ∃ kept', Keeps (us.map fun x => (x.1, x.2 || reached x.1)) kept' ∧
      ∀ {m m' : Names P}, AtMost p m m' → AtMost p (applyAll kept' m) (applyAll kept m') := by
  induction h with
  | nil => exact ⟨[], .nil, id⟩
  | keep u b _ ih =>
    obtain ⟨kept', hkept, hle⟩ := ih
    exact ⟨u :: kept', .keep u _ hkept, fun h => hle (h.apply u)⟩
  | lose u _ ih =>
    obtain ⟨kept', hkept, hle⟩ := ih
    cases hu : reached u with
    | true => exact ⟨u :: kept', .keep u _ hkept, fun h => hle (h.apply_left (hp u hu))⟩
    | false =>
      refine ⟨kept', ?_, hle⟩
      rw [map_cons, hu]
      exact .lose u hkept

end

/-! ## The disk -/

/-- The state of the disk. The names a process sees are the settled ones with every pending
update applied (`Disk.names`); a pending update with `true` is one that a sync of its directory
has reached. -/
structure Disk (P : Type) [DecidableEq P] where
  settled : Names P
  pending : List (Update P × Bool)
  files : Nat → File
  fresh : Nat

/-- Paths, and the directory each lies in. -/
class Located (P : Type) where
  parent : P → Option P

open Located (parent)

/-- What one system call did. -/
inductive Op (P : Type) where
  /-- `open` with `O_CREAT | O_EXCL`. -/
  | create (p : P)
  /-- `open` with `O_CREAT | O_TRUNC`. -/
  | truncate (p : P)
  | append (p : P) (bs : Bytes)
  | setLen (p : P) (n : Nat)
  | fsync (p : P)
  | rename (src dst : P)
  | unlink (p : P)
  /-- `create_dir_all` of a directory whose parent is there. -/
  | mkdir (p : P)
  /-- An fsync of a directory: the updates of its own names are then certain. -/
  | syncDir (dir : Option P)
  /-- An existence test and its answer. -/
  | probe (p : P) (found : Bool)
  deriving DecidableEq, Repr

/-- What an operation does to the file under `p`, seen from the file. -/
def File.step (p : P) (f : File) : Op P → File
  | .create q => if q = p then File.empty else f
  | .truncate q => if q = p then f.setLen 0 else f
  | .append q bs => if q = p then f.append bs else f
  | .setLen q n => if q = p then f.setLen n else f
  | .fsync q => if q = p then f.sync else f
  | _ => f

/-- The file under `p` after a list of operations, in order. -/
def File.run (p : P) (f : File) (ops : List (Op P)) : File := ops.foldl (File.step p) f

/-- Operations on the bytes of the file under `p`, which stays. -/
def Op.OnFile (p : P) : Op P → Prop
  | .append q _ | .setLen q _ | .fsync q => q = p
  | _ => False

/-- Operations that extend the file under `p`, or sync it. -/
def Op.Extends (p : P) : Op P → Prop
  | .append q _ | .fsync q => q = p
  | _ => False

variable {p : P}

omit [DecidableEq P] in
theorem Op.Extends.onFile {op : Op P} (h : op.Extends p) : op.OnFile p := by
  cases op <;> first | exact h | exact h.elim

/-- Existence tests. -/
def Op.IsProbe : Op P → Prop
  | .probe .. => True
  | _ => False

/-- Operations on names alone. -/
def Op.OnNames : Op P → Prop
  | .rename .. | .unlink _ | .syncDir _ | .probe .. => True
  | _ => False

@[simp] theorem File.run_nil (p : P) (f : File) : f.run p [] = f := rfl

@[simp] theorem File.run_cons (p : P) (f : File) (op : Op P) (ops : List (Op P)) :
    f.run p (op :: ops) = (f.step p op).run p ops := rfl

theorem File.run_append (p : P) (f : File) (xs ys : List (Op P)) :
    f.run p (xs ++ ys) = (f.run p xs).run p ys := List.foldl_append

theorem File.run_onNames {ops : List (Op P)} (h : ∀ op ∈ ops, op.OnNames) (f : File) :
    f.run p ops = f := by
  induction ops with
  | nil => rfl
  | cons op ops ih =>
    have hop : f.step p op = f := by
      have := h op mem_cons_self
      cases op <;> first | rfl | exact absurd this (by simp [Op.OnNames])
    rw [File.run_cons, hop]
    exact ih fun o ho => h o (mem_cons_of_mem _ ho)

section

variable (p : P) (f : File)

@[simp] theorem File.step_append (bs : Bytes) :
    f.step p (.append p bs) = f.append bs := if_pos rfl

@[simp] theorem File.step_setLen (n : Nat) :
    f.step p (.setLen p n) = f.setLen n := if_pos rfl

@[simp] theorem File.step_fsync : f.step p (.fsync p) = f.sync := if_pos rfl

@[simp] theorem File.step_create : f.step p (.create p) = File.empty := if_pos rfl

end

@[simp] theorem File.content_append (f : File) (bs : Bytes) :
    (f.append bs).content = f.content ++ bs := rfl

@[simp] theorem File.stable_append (f : File) (bs : Bytes) : (f.append bs).stable = f.stable := rfl

@[simp] theorem File.content_sync (f : File) : f.sync.content = f.content := rfl

@[simp] theorem File.stable_sync (f : File) : f.sync.stable = f.content.length := rfl

/-- The bytes an operation appends. -/
def Op.written : Op P → Bytes
  | .append _ bs => bs
  | _ => []

/-- A file that is extended holds what it held, and then what was appended. -/
theorem File.run_extends {ops : List (Op P)} (h : ∀ op ∈ ops, op.Extends p) (f : File) :
    (f.run p ops).content = f.content ++ ops.flatMap Op.written := by
  induction ops generalizing f with
  | nil => simp
  | cons op ops ih =>
    have hop := h op mem_cons_self
    have hstep : (f.step p op).content = f.content ++ op.written := by
      cases op <;> try exact hop.elim
      case append q bs => obtain rfl : q = p := hop; simp [Op.written]
      case fsync q => obtain rfl : q = p := hop; simp [Op.written]
    rw [File.run_cons, ih (fun o ho => h o (mem_cons_of_mem _ ho)), hstep, flatMap_cons,
      append_assoc]

theorem File.content_setLen {f : File} {n : Nat} (h : n ≤ f.content.length) :
    (f.setLen n).content = f.content.take n := by
  have hzero : n - f.content.length = 0 := by omega
  simp [File.setLen, hzero]

namespace Disk

def empty : Disk P := ⟨∅, [], fun _ => File.empty, 0⟩

def names (d : Disk P) : Names P := applyAll (d.pending.map Prod.fst) d.settled

/-- The bytes a process reads under a name. -/
def read (d : Disk P) (p : P) : Option Bytes := (d.names.lookup p).map fun i => (d.files i).content

def update (d : Disk P) (u : Update P) : Disk P :=
  { d with pending := d.pending ++ [(u, false)] }

def setFile (d : Disk P) (i : Nat) (f : File) : Disk P :=
  { d with files := fun j => if j = i then f else d.files j }

/-- A new empty file under `p`. -/
def newFile (d : Disk P) (p : P) : Disk P :=
  { (d.setFile d.fresh File.empty).update (.link p d.fresh) with fresh := d.fresh + 1 }

/-- Applies `g` to the file under `p`, if there is one. -/
def modify (d : Disk P) (p : P) (g : File → File) : Option (Disk P) :=
  match d.names.lookup p with
  | some i => some (d.setFile i (g (d.files i)))
  | none => none

/-- The names a crash may leave. -/
def Possible (d : Disk P) (m : Names P) : Prop :=
  ∃ kept, Keeps d.pending kept ∧ m = applyAll kept d.settled

/-- What a crash may leave. -/
def Crash (d d' : Disk P) : Prop :=
  d.Possible d'.settled ∧ d'.pending = [] ∧ d'.fresh = d.fresh ∧
    ∀ i, (d.files i).Image (d'.files i).content ∧ d'.files i = .settled (d'.files i).content

/-- No crash takes the name away. -/
def Kept (d : Disk P) (p : P) : Prop := ∀ m, d.Possible m → (m.lookup p).isSome

/-- No crash takes the file away: its bytes, its name, or the directory it is in. -/
def Durable [Located P] (d : Disk P) (p : P) (bs : Bytes) : Prop :=
  (∀ dir, parent p = some dir → d.Kept dir) ∧
    ∀ m, d.Possible m → ∃ i, m.lookup p = some i ∧ ∀ image, (d.files i).Image image → image = bs

@[simp] theorem names_setFile (d : Disk P) (i : Nat) (f : File) :
    (d.setFile i f).names = d.names := rfl

theorem names_update (d : Disk P) (u : Update P) : (d.update u).names = u.apply d.names := by
  rw [names, update, map_append]
  exact applyAll_append ..

theorem names_newFile (d : Disk P) (p : P) :
    (d.newFile p).names = (Update.link p d.fresh).apply d.names := names_update ..

theorem lookup_newFile (d : Disk P) (p q : P) :
    (d.newFile p).names.lookup q = if q = p then some d.fresh else d.names.lookup q := by
  rw [names_newFile, Update.lookup_link]

/-! ## Sound disks -/

/-- Every inode with a name, now or after a crash, has been handed out. -/
def Sound (d : Disk P) : Prop :=
  (∀ p i, d.settled.lookup p = some i → i < d.fresh) ∧
    ∀ u ∈ d.pending, ∀ i, u.1.inode = some i → i < d.fresh

variable {u : Update P} {m : Names P} {p : P} {i : Nat}

theorem lookup_apply_lt {n : Nat}
    (hm : ∀ p i, m.lookup p = some i → i < n) (hu : ∀ i, u.inode = some i → i < n) :
    ∀ p i, (u.apply m).lookup p = some i → i < n := by
  intro p i h
  cases u with
  | link q j =>
    rw [Update.lookup_link] at h
    split at h
    · exact hu i h
    · exact hm p i h
  | unlink q =>
    rw [Update.lookup_unlink] at h
    split at h
    · cases h
    · exact hm p i h
  | move src dst j =>
    rw [Update.lookup_move] at h
    split at h
    · exact hu i h
    · split at h
      · cases h
      · exact hm p i h

theorem lookup_applyAll_lt {n : Nat} {us : List (Update P)} :
    ∀ {m : Names P}, (∀ p i, m.lookup p = some i → i < n) →
      (∀ u ∈ us, ∀ i, u.inode = some i → i < n) →
      ∀ p i, (applyAll us m).lookup p = some i → i < n := by
  induction us with
  | nil => intro m hm _; exact hm
  | cons u us ih =>
    intro m hm hus
    exact ih (lookup_apply_lt hm (hus u mem_cons_self))
      fun v hv => hus v (mem_cons_of_mem _ hv)

variable {d : Disk P}

/-- A name of a sound disk has an inode below `fresh`. -/
theorem Sound.lt (h : d.Sound) (hp : d.names.lookup p = some i) : i < d.fresh := by
  refine lookup_applyAll_lt h.1 (fun u hu => ?_) p i hp
  obtain ⟨x, hx, rfl⟩ := mem_map.mp hu
  exact h.2 x hx

theorem Sound.update (h : d.Sound) (hu : ∀ i, u.inode = some i → i < d.fresh) :
    (d.update u).Sound := by
  refine ⟨h.1, ?_⟩
  intro v hv i hi
  rcases mem_append.mp hv with hv | hv
  · exact h.2 v hv i hi
  · rw [mem_singleton.mp hv] at hi
    exact hu i hi

theorem Sound.newFile (h : d.Sound) (p : P) : (d.newFile p).Sound := by
  refine ⟨fun q i hq => Nat.lt_succ_of_lt (h.1 q i hq), ?_⟩
  intro v hv i hi
  rcases mem_append.mp hv with hv | hv
  · exact Nat.lt_succ_of_lt (h.2 v hv i hi)
  · rw [mem_singleton.mp hv] at hi
    rw [← Option.some.inj hi]
    exact Nat.lt_succ_self _

variable {d' : Disk P}

theorem modify_eq_some {g : File → File} (h : d.modify p g = some d') :
    ∃ i, d.names.lookup p = some i ∧ d' = d.setFile i (g (d.files i)) := by
  unfold modify at h
  split at h
  next i hi => exact ⟨i, hi, (Option.some.inj h).symm⟩
  · cases h

/-! ## Names after a crash -/

theorem possible_names (d : Disk P) : d.Possible d.names := ⟨_, .all d.pending, rfl⟩

/-- A new update is lost in a crash, or kept on top of names that were possible. -/
theorem Possible.of_update (h : (d.update u).Possible m) :
    d.Possible m ∨ ∃ m₀, d.Possible m₀ ∧ m = u.apply m₀ := by
  obtain ⟨kept, hkept, rfl⟩ := h
  rcases hkept.of_snoc with hold | ⟨old, rfl, hold⟩
  · exact .inl ⟨kept, hold, rfl⟩
  · exact .inr ⟨_, ⟨old, hold, rfl⟩, applyAll_append ..⟩

theorem Possible.update (h : d.Possible m) (u : Update P) : (d.update u).Possible m := by
  obtain ⟨kept, hkept, rfl⟩ := h
  exact ⟨kept, hkept.snoc u, rfl⟩

/-- With nothing pending the names are certain. -/
theorem Possible.of_settled (hd : d.pending = []) (h : d.Possible m) : m = d.names := by
  obtain ⟨kept, hkept, rfl⟩ := h
  rw [names]
  rw [hd] at hkept ⊢
  cases hkept
  rfl

theorem Sound.possible_lt (h : d.Sound) (hm : d.Possible m) (hp : m.lookup p = some i) :
    i < d.fresh := by
  obtain ⟨kept, hkept, rfl⟩ := hm
  refine lookup_applyAll_lt h.1 (fun u hu => ?_) p i hp
  obtain ⟨x, hx, rfl⟩ := hkept.subset u hu
  exact h.2 x hx

theorem Sound.crash (h : d.Sound) (hc : d.Crash d') : d'.Sound := by
  obtain ⟨hnames, hpending, hfresh, _⟩ := hc
  refine ⟨fun p i hp => ?_, by rw [hpending]; simp⟩
  rw [hfresh]
  exact h.possible_lt hnames hp

@[simp] theorem setFile_setFile (d : Disk P) (i : Nat) (f g : File) :
    (d.setFile i f).setFile i g = d.setFile i g := by
  unfold setFile
  congr 1
  funext j
  by_cases hj : j = i <;> simp [hj]

theorem setFile_self (d : Disk P) (i : Nat) : d.setFile i (d.files i) = d := by
  have hfiles : (fun j => if j = i then d.files i else d.files j) = d.files := by
    funext j
    by_cases hj : j = i <;> simp [hj]
  unfold setFile
  rw [hfiles]

@[simp] theorem files_setFile (d : Disk P) (i : Nat) (f : File) : (d.setFile i f).files i = f :=
  if_pos rfl

theorem files_setFile_ne (d : Disk P) {j : Nat} (h : j ≠ i) (f : File) :
    (d.setFile i f).files j = d.files j := if_neg h

/-- A new file leaves the others alone. -/
theorem newFile_frame (hd : d.Sound) {q : P} (hne : q ≠ p) (hq : d.names.lookup q = some i) :
    (d.newFile p).names.lookup q = some i ∧ (d.newFile p).files i = d.files i := by
  refine ⟨?_, files_setFile_ne d (ne_of_lt (hd.lt hq)) _⟩
  rw [lookup_newFile, if_neg hne]
  exact hq

/-- A disk with one file, all of it stable. -/
def single (p : P) (bs : Bytes) : Disk P :=
  ⟨(∅ : Names P).insert p 0, [], fun _ => .settled bs, 1⟩

theorem single_sound (p : P) (bs : Bytes) : (single p bs).Sound := by
  refine ⟨?_, by simp [single]⟩
  intro q i hq
  have h := Update.lookup_link p q 0 (∅ : Names P)
  rw [Update.apply] at h
  rw [single, h] at hq
  split at hq
  · rw [← Option.some.inj hq]; exact Nat.one_pos
  · cases hq

theorem single_lookup (p : P) (bs : Bytes) : (single p bs).names.lookup p = some 0 :=
  AList.lookup_insert _

/-! ## Operations -/

variable [Located P]

/-- A sync of a directory reaches the pending updates of its names. -/
def syncDir (d : Disk P) (dir : Option P) : Disk P :=
  { d with pending := d.pending.map fun x => (x.1, x.2 || parent x.1.target = dir) }

/-- One operation; `none` when the disk could not have answered so. -/
def step (d : Disk P) : Op P → Option (Disk P)
  | .create p =>
    match d.names.lookup p with
    | some _ => none
    | none => some (d.newFile p)
  | .truncate p =>
    match d.names.lookup p with
    | some i => some (d.setFile i ((d.files i).setLen 0))
    | none => some (d.newFile p)
  | .append p bs => d.modify p (·.append bs)
  | .setLen p n => d.modify p (·.setLen n)
  | .fsync p => d.modify p File.sync
  | .rename src dst =>
    match d.names.lookup src with
    | some i => some (d.update (.move src dst i))
    | none => none
  | .unlink p =>
    match d.names.lookup p with
    | some _ => some (d.update (.unlink p))
    | none => none
  | .mkdir p =>
    match d.names.lookup p with
    | some _ => some d
    | none => some (d.newFile p)
  | .syncDir dir => some (d.syncDir dir)
  | .probe p found => if (d.names.lookup p).isSome = found then some d else none

/-- A list of operations, in order. -/
def run (d : Disk P) : List (Op P) → Option (Disk P)
  | [] => some d
  | op :: ops =>
    match d.step op with
    | some d' => d'.run ops
    | none => none

@[simp] theorem run_nil (d : Disk P) : d.run [] = some d := rfl

theorem run_append (d : Disk P) (xs ys : List (Op P)) :
    d.run (xs ++ ys) = (d.run xs).bind (·.run ys) := by
  induction xs generalizing d with
  | nil => rfl
  | cons op xs ih =>
    simp only [cons_append, run]
    cases d.step op with
    | none => rfl
    | some d' => exact ih d'

theorem run_split {d d' : Disk P} {xs ys : List (Op P)} (h : d.run (xs ++ ys) = some d') :
    ∃ d₁, d.run xs = some d₁ ∧ d₁.run ys = some d' :=
  Option.bind_eq_some_iff.mp (run_append d xs ys ▸ h)

variable {ops : List (Op P)}

/-- What every operation preserves, every run preserves. -/
theorem run_invariant {I : Disk P → Prop}
    (hstep : ∀ op ∈ ops, ∀ d d', d.step op = some d' → I d → I d') :
    ∀ {d d' : Disk P}, d.run ops = some d' → I d → I d' := by
  induction ops with
  | nil => intro d d' h hi; cases h; exact hi
  | cons op ops ih =>
    intro d d' h hi
    simp only [run] at h
    split at h
    next d₁ h₁ =>
      exact ih (fun o ho => hstep o (mem_cons_of_mem _ ho)) h
        (hstep op mem_cons_self d d₁ h₁ hi)
    · cases h

/-- What an operation can do to the disk. -/
theorem step_cases {op : Op P} (h : d.step op = some d') :
    (∃ dir, op = .syncDir dir ∧ d' = d.syncDir dir) ∨ d' = d ∨ (∃ i f, d' = d.setFile i f) ∨
      (∃ p, d' = d.newFile p) ∨
      ∃ u, d' = d.update u ∧ ∀ i, u.inode = some i → ∃ p, d.names.lookup p = some i := by
  unfold Disk.step at h
  split at h
  next p =>
    split at h
    · cases h
    · exact .inr (.inr (.inr (.inl ⟨p, (Option.some.inj h).symm⟩)))
  next p =>
    split at h
    · exact .inr (.inr (.inl ⟨_, _, (Option.some.inj h).symm⟩))
    · exact .inr (.inr (.inr (.inl ⟨p, (Option.some.inj h).symm⟩)))
  · obtain ⟨i, _, rfl⟩ := modify_eq_some h; exact .inr (.inr (.inl ⟨_, _, rfl⟩))
  · obtain ⟨i, _, rfl⟩ := modify_eq_some h; exact .inr (.inr (.inl ⟨_, _, rfl⟩))
  · obtain ⟨i, _, rfl⟩ := modify_eq_some h; exact .inr (.inr (.inl ⟨_, _, rfl⟩))
  next src dst =>
    split at h
    next i hi =>
      refine .inr (.inr (.inr (.inr ⟨_, (Option.some.inj h).symm, fun j hj => ?_⟩)))
      cases hj
      exact ⟨src, hi⟩
    · cases h
  next p =>
    split at h
    · exact .inr (.inr (.inr (.inr ⟨_, (Option.some.inj h).symm, nofun⟩)))
    · cases h
  next p =>
    split at h
    · exact .inr (.inl (Option.some.inj h).symm)
    · exact .inr (.inr (.inr (.inl ⟨p, (Option.some.inj h).symm⟩)))
  next dir => exact .inl ⟨dir, rfl, (Option.some.inj h).symm⟩
  · split at h
    · exact .inr (.inl (Option.some.inj h).symm)
    · cases h

@[simp] theorem names_syncDir (d : Disk P) (dir : Option P) : (d.syncDir dir).names = d.names := by
  rw [names, syncDir, map_map]
  rfl

theorem Sound.syncDir (h : d.Sound) (dir : Option P) : (d.syncDir dir).Sound := by
  refine ⟨h.1, fun x hx => ?_⟩
  obtain ⟨y, hy, rfl⟩ := mem_map.mp hx
  exact h.2 y hy

/-- Every operation keeps a disk sound. -/
theorem Sound.step (h : d.Sound) {op : Op P} (hs : d.step op = some d') : d'.Sound := by
  rcases step_cases hs with ⟨dir, _, rfl⟩ | rfl | ⟨i, f, rfl⟩ | ⟨p, rfl⟩ | ⟨u, rfl, hu⟩
  · exact h.syncDir dir
  · exact h
  · exact h
  · exact h.newFile p
  · refine h.update fun i hi => ?_
    obtain ⟨p, hp⟩ := hu i hi
    exact h.lt hp

theorem Sound.run (h : d.Sound) (hr : d.run ops = some d') :
    d'.Sound := run_invariant (fun _ _ _ _ hs hd => hd.step hs) hr h

/-- Writing to one file is what the file sees of it. -/
theorem run_onFile (hops : ∀ op ∈ ops, op.OnFile p) :
    ∀ {d : Disk P}, d.names.lookup p = some i →
      d.run ops = some (d.setFile i ((d.files i).run p ops)) := by
  induction ops with
  | nil =>
    intro d _
    rw [run_nil, File.run_nil, setFile_self]
  | cons op ops ih =>
    intro d hp
    have hop := hops op mem_cons_self
    have hstep : d.step op = some (d.setFile i ((d.files i).step p op)) := by
      cases op <;> try exact hop.elim
      case append q bs => obtain rfl : q = p := hop; simp [step, modify, hp]
      case setLen q n => obtain rfl : q = p := hop; simp [step, modify, hp]
      case fsync q => obtain rfl : q = p := hop; simp [step, modify, hp]
    rw [run, hstep, File.run_cons]
    dsimp only
    rw [ih (fun o ho => hops o (mem_cons_of_mem _ ho)) (by simpa using hp)]
    simp

/-- Existence tests change nothing, and were answered as the disk is. -/
theorem run_probes (hops : ∀ op ∈ ops, op.IsProbe) :
    ∀ {d d' : Disk P}, d.run ops = some d' →
      d' = d ∧ ∀ p b, .probe p b ∈ ops → (d.names.lookup p).isSome = b := by
  induction ops with
  | nil => intro d d' h; exact ⟨(Option.some.inj h).symm, by simp⟩
  | cons op ops ih =>
    intro d d' h
    have hop := hops op mem_cons_self
    cases op <;> try exact hop.elim
    case probe q found =>
      simp only [run, step] at h
      by_cases hq : (d.names.lookup q).isSome = found
      · rw [if_pos hq] at h
        obtain ⟨hd, hrest⟩ := ih (fun o ho => hops o (mem_cons_of_mem _ ho)) h
        refine ⟨hd, ?_⟩
        intro p b hmem
        rcases mem_cons.mp hmem with hmem | hmem
        · obtain ⟨rfl, rfl⟩ := Op.probe.inj hmem
          exact hq
        · exact hrest p b hmem
      · rw [if_neg hq] at h
        cases h

/-- A name that was tested and free is free. -/
theorem run_probes_free (hops : ∀ op ∈ ops, op.IsProbe) (hrun : d.run ops = some d')
    (hfree : .probe p false ∈ ops) : d.names.lookup p = none := by
  simpa using (run_probes hops hrun).2 p false hfree

/-- A sync changes nothing a process sees. -/
theorem run_syncDir {dir : Option P} (hops : ∀ op ∈ ops, op = .syncDir dir) :
    ∀ (d : Disk P), ∃ d', d.run ops = some d' ∧ d'.names = d.names ∧ d'.files = d.files := by
  induction ops with
  | nil => intro d; exact ⟨d, rfl, rfl, rfl⟩
  | cons op ops ih =>
    intro d
    obtain rfl := hops op mem_cons_self
    obtain ⟨d', hrun, hnames, hfiles⟩ := ih (fun o ho => hops o (mem_cons_of_mem _ ho))
      (d.syncDir dir)
    exact ⟨d', hrun, hnames.trans (names_syncDir d dir), hfiles⟩

theorem run_then_syncDir {d₁ : Disk P} {syncs : List (Op P)} {dir : Option P}
    (hrun : d.run ops = some d₁) (hsyncs : ∀ op ∈ syncs, op = .syncDir dir) :
    ∃ d', d.run (ops ++ syncs) = some d' ∧ d'.names = d₁.names ∧ d'.files = d₁.files := by
  obtain ⟨d', hrun', hnames, hfiles⟩ := run_syncDir hsyncs d₁
  refine ⟨d', ?_, hnames, hfiles⟩
  rw [run_append, hrun]
  exact hrun'

/-- A renamed file is read under its new name. -/
theorem step_rename {src dst : P} (h : d.step (.rename src dst) = some d') :
    ∃ i, d.names.lookup src = some i ∧ d'.names.lookup dst = some i ∧ d'.files = d.files ∧
      ∀ q, q ≠ src → q ≠ dst → d'.names.lookup q = d.names.lookup q := by
  simp only [step] at h
  split at h
  next i hi =>
    cases h
    refine ⟨i, hi, ?_, rfl, ?_⟩
    · rw [names_update, Update.lookup_move, if_pos rfl]
    · intro q hsrc hdst
      rw [names_update, Update.lookup_move, if_neg hdst, if_neg hsrc]
  · cases h

/-- A file made under a free name, and what is then written to it. -/
theorem run_create (hp : d.names.lookup p = none) (hops : ∀ op ∈ ops, op.OnFile p) :
    d.run (.create p :: ops) = some ((d.newFile p).setFile d.fresh (File.empty.run p ops)) := by
  have hnew : (d.newFile p).names.lookup p = some d.fresh := by rw [lookup_newFile, if_pos rfl]
  have hfile : (d.newFile p).files d.fresh = File.empty := files_setFile ..
  simp only [run, step, hp]
  rw [run_onFile hops hnew, hfile]

/-- A directory is found, or made. -/
theorem step_mkdir (h : d.step (.mkdir p) = some d') :
    (d.names.lookup p).isSome ∧ d' = d ∨ d.names.lookup p = none ∧ d' = d.newFile p := by
  simp only [step] at h
  split at h
  next i hi => exact .inl ⟨by rw [hi]; rfl, (Option.some.inj h).symm⟩
  next hnone => exact .inr ⟨hnone, (Option.some.inj h).symm⟩

theorem run_truncate (hp : d.names.lookup p = none) (hops : ∀ op ∈ ops, op.OnFile p) :
    d.run (.truncate p :: ops) = some ((d.newFile p).setFile d.fresh (File.empty.run p ops)) := by
  rw [← run_create hp hops]
  simp only [run, step, hp]

/-- Making a file under a free name and writing to it leaves the others alone. -/
theorem run_newFile (hd : d.Sound) (hp : d.names.lookup p = none) (hops : ∀ op ∈ ops, op.OnFile p) :
    ∃ d', d.run (.truncate p :: ops) = some d' ∧ d'.Sound ∧
      d'.names.lookup p = some d.fresh ∧ d'.files d.fresh = File.empty.run p ops ∧
      ∀ q, q ≠ p → ∀ i, d.names.lookup q = some i →
        d'.names.lookup q = some i ∧ d'.files i = d.files i := by
  refine ⟨_, run_truncate hp hops, hd.newFile p, ?_, files_setFile .., ?_⟩
  · rw [names_setFile, lookup_newFile, if_pos rfl]
  intro q hq i hi
  obtain ⟨hname, hfile⟩ := newFile_frame hd hq hi
  exact ⟨hname, (files_setFile_ne _ (ne_of_lt (hd.lt hi)) _).trans hfile⟩

/-- A file moved to a name that was found free. -/
theorem run_publish {src dst : P} (hsrc : d.names.lookup src = some i)
    (hdst : d.names.lookup dst = none) :
    d.run [.probe dst false, .rename src dst] = some (d.update (.move src dst i)) := by
  simp only [run, step, hdst, hsrc, Option.isSome_none, if_true]

/-! ## What a sync makes certain, and what it does not -/

/-- What a crash may leave behind a sync, it might have left before. -/
theorem Possible.of_syncDir {dir : Option P} (h : (d.syncDir dir).Possible m) : d.Possible m := by
  obtain ⟨kept, hkept, rfl⟩ := h
  exact ⟨kept, Keeps.of_synced (f := fun u => decide (parent u.target = dir)) hkept, rfl⟩

/-- A name that is there when its directory is synced is certain. -/
theorem Possible.lookup_synced (h : (d.syncDir (parent p)).Possible m)
    (hp : d.names.lookup p = some i) : m.lookup p = some i := by
  obtain ⟨kept, hkept, rfl⟩ := h
  refine hkept.atMost (fun x hx htarget => ?_) (fun _ => id) i ?_
  · obtain ⟨y, -, rfl⟩ := mem_map.mp hx
    simp [show y.1.target = p from htarget]
  · rw [← names_syncDir d (parent p)] at hp
    exact hp

/-- Nothing but a sync of its directory makes a name certain. -/
theorem Kept.of_step {op : Op P} (hop : op ≠ .syncDir (parent p)) (hs : d.step op = some d')
    (h : d'.Kept p) : d.Kept p := by
  intro m hm
  rcases step_cases hs with ⟨dir, rfl, rfl⟩ | rfl | ⟨i, f, rfl⟩ | ⟨q, rfl⟩ | ⟨u, rfl, -⟩
  · obtain ⟨kept, hkept, rfl⟩ := hm
    have hother : ∀ u : Update P, decide (parent u.target = dir) = true → u.target ≠ p := by
      rintro u hu rfl
      exact hop (by rw [of_decide_eq_true hu])
    obtain ⟨kept', hkept', hle⟩ := hkept.synced hother
    obtain ⟨i, hi⟩ := Option.isSome_iff_exists.mp (h _ ⟨kept', hkept', rfl⟩)
    exact Option.isSome_iff_exists.mpr ⟨i, hle (fun _ => id) i hi⟩
  · exact h m hm
  · exact h m hm
  · exact h m (hm.update (.link q d.fresh))
  · exact h m (hm.update u)

theorem Kept.of_run (hops : ∀ op ∈ ops, op ≠ .syncDir (parent p)) (hr : d.run ops = some d')
    (h : d'.Kept p) : d.Kept p := by
  by_contra hlost
  exact run_invariant (I := fun d => ¬d.Kept p)
    (fun op hop _ _ hs hlost hk => hlost (hk.of_step (hops op hop) hs)) hr hlost h

end Disk

end Weir.Lib

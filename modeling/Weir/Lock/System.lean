import Mathlib.Logic.Function.Basic
import Weir.Lock.Check

/-!
# Daemons that share a lock path

The operating system as the lock code sees it: what is at the lock path, the
files, the open descriptions and who holds which `flock`. Any number of daemons
run `tryLockPath` and then `checkLockSlot` over and over, one call at a time, and
an outsider deletes or replaces the lock file, or rewrites any file, at any
moment.

Calls may fail at any time and with any error. What is assumed of those that
succeed: `flock` is exclusive per open description and goes with its last
descriptor, `lstat` and `fstat` report one identity for a file, and the identity
of an open file is not given to a new one.

> `Rely`: what a daemon may count on while others run.
-/

namespace Weir.Lock

open Weir.Lib Function

/-- A file that may be at the lock path. -/
structure LockFile where
  symlink : Bool
  isFile : Bool
  links : Nat
  uid : Nat
  mode : Nat
  text : List Char
  deriving DecidableEq, Repr

/-- An open file description, and the daemon that has it. -/
structure Desc where
  file : FileId
  owner : Nat
  deriving DecidableEq, Repr

/-- `seen` and `read` are for the proofs: what a daemon's `lstat` saw, from there to
its `open`; and what was read through a descriptor since it took the lock (`some
none` for a read that failed). -/
structure Os where
  path : Option FileId
  files : FileId → LockFile
  fds : Fd → Option Desc
  nextFd : Fd
  locks : FileId → Option Fd
  seen : Nat → Option (Option FileId)
  read : Fd → Option (Option (List Char))

namespace Os

def stat (os : Os) (i : FileId) : Stat :=
  ⟨i, (os.files i).isFile, (os.files i).links, (os.files i).uid, (os.files i).mode⟩

/-- No one has the file open, so its identity may be given to a new one. -/
def Unopened (os : Os) (i : FileId) : Prop :=
  ∀ fd < os.nextFd, (os.fds fd).map Desc.file ≠ some i

instance (os : Os) (i : FileId) : Decidable (os.Unopened i) :=
  inferInstanceAs (Decidable (∀ fd < os.nextFd, _))

/-- A new file at the path. -/
def created (os : Os) (i : FileId) (euid : Nat) : Os :=
  { os with path := some i, files := update os.files i ⟨false, true, 1, euid, 0o600, []⟩ }

/-- A new descriptor for a file. -/
def opened (os : Os) (n : Nat) (i : FileId) : Os :=
  { os with
    fds := update os.fds os.nextFd (some ⟨i, n⟩)
    nextFd := os.nextFd + 1
    seen := update os.seen n none
    read := update os.read os.nextFd none }

def closed (os : Os) (fd : Fd) : Os :=
  { os with
    fds := update os.fds fd none
    locks := fun i => if os.locks i = some fd then none else os.locks i }

/-- The lock of a file, taken through a descriptor. -/
def lockedBy (os : Os) (i : FileId) (fd : Fd) : Os :=
  { os with locks := update os.locks i (some fd), read := update os.read fd none }

/-- The file of a descriptor that daemon `n` has. -/
def fileOf (os : Os) (n : Nat) (fd : Fd) : Option FileId :=
  match os.fds fd with
  | some d => if d.owner = n then some d.file else none
  | none => none

def setText (os : Os) (i : FileId) (text : List Char) : Os :=
  { os with files := update os.files i { os.files i with text := text } }

/-- What `read_at` and `from_utf8_lossy` make of a text: a character that the
buffer cuts in two reads as the replacement character. -/
def firstBytes (text : List Char) : List Char :=
  let kept := takeBytes recordMaxBytes text
  if kept = text ∨ utf8Len kept = recordMaxBytes then kept else kept ++ [Char.ofNat 0xFFFD]

/-- One call of daemon `n`, with its answer; `none` when the system could not have
answered so. `aux` is the identity of a file that an `open` makes, and how much of
a failed write landed. -/
def exec (n euid aux : Nat) (os : Os) : (c : Call) → Reply c → Option Os
  | .lstat, .ok st =>
    match os.path with
    | some i =>
      if st = os.stat i then some { os with seen := update os.seen n (some (some i)) } else none
    | none => none
  | .lstat, .error e =>
    if e ≠ enoent then some { os with seen := update os.seen n none }
    else if os.path = none then some { os with seen := update os.seen n (some none) }
    else none
  | .owner, .ok uid =>
    match os.path with
    | some i => if uid = (os.files i).uid then some os else none
    | none => none
  | .owner, .error _ => some os
  | .open how, .ok fd =>
    if fd ≠ os.nextFd then none
    else
      match os.path with
      | some i => if how = .createNew ∨ (os.files i).symlink then none else some (os.opened n i)
      | none =>
        if how = .existing ∨ ¬os.Unopened aux then none
        else some ((os.created aux euid).opened n aux)
  | .open _, .error _ => some { os with seen := update os.seen n none }
  | .fstat fd, .ok st =>
    match os.fileOf n fd with
    | some i => if st = os.stat i then some os else none
    | none => none
  | .fstat _, .error _ => some os
  | .flock fd, .ok () =>
    match os.fileOf n fd with
    | some i =>
      if os.locks i = some fd then some os
      else if os.locks i = none then some (os.lockedBy i fd)
      else none
    | none => none
  | .flock _, .error _ => some os
  | .read fd, .ok text =>
    match os.fileOf n fd with
    | some i =>
      if text = firstBytes (os.files i).text then
        some { os with read := update os.read fd (some (some text)) }
      else none
    | none => none
  | .read fd, .error _ =>
    match os.fileOf n fd with
    | some _ => some { os with read := update os.read fd (some none) }
    | none => none
  | .chmod fd, .ok () =>
    match os.fileOf n fd with
    | some i => some { os with files := update os.files i { os.files i with mode := 0o600 } }
    | none => none
  | .chmod _, .error _ => some os
  | .setLen fd, .ok () =>
    match os.fileOf n fd with
    | some i => some (os.setText i [])
    | none => none
  | .setLen _, .error _ => some os
  | .write fd text, .ok () =>
    match os.fileOf n fd with
    | some i => some (os.setText i (text ++ (os.files i).text.drop text.length))
    | none => none
  | .write fd text, .error _ =>
    match os.fileOf n fd with
    | some i => some (os.setText i (text.take aux ++ (os.files i).text.drop aux))
    | none => none
  | .close fd, () =>
    match os.fileOf n fd with
    | some _ => some (os.closed fd)
    | none => none

/-- The process of daemon `n` is gone, and its descriptors with it. -/
def exited (os : Os) (n : Nat) : Os :=
  { os with
    fds := fun fd => if (os.fileOf n fd).isSome then none else os.fds fd
    locks := fun i =>
      match os.locks i with
      | some fd => if (os.fileOf n fd).isSome then none else some fd
      | none => none }

end Os

/-! ## The system -/

inductive Phase
  | unborn
  | acquiring (p : LockProg (Except LockError Fd))
  /-- Between two checks. -/
  | idle (held : HeldLock)
  | checking (held : HeldLock) (p : LockProg (LockIntegrity × HeldLock))
  | dead

structure Daemon where
  euid : Nat
  record : HolderInfo
  phase : Phase
  /-- The latest verdict. -/
  verdict : Option LockIntegrity
  /-- How many checks were completed. -/
  checks : Nat

/-- The lock a live daemon holds, as it sees it. -/
def Daemon.slot (d : Daemon) : Option HeldLock :=
  match d.phase with
  | .idle held | .checking held _ => some held
  | _ => none

/-- A daemon that acquired the lock and runs. -/
def Daemon.Live (d : Daemon) : Prop := d.slot.isSome

structure Sys where
  os : Os
  daemons : Nat → Daemon

inductive Move
  /-- An outsider deletes or replaces the lock file, or rewrites files. -/
  | touch (path : Option FileId) (files : FileId → LockFile)
  | start (n euid : Nat) (record : HolderInfo)
  | call (n : Nat) (c : Call) (r : Reply c) (aux : Nat)
  /-- The acquisition returns. -/
  | acquired (n : Nat)
  | begin (n : Nat)
  /-- A check returns; on `LostToOther` the daemon exits. -/
  | finish (n : Nat)
  | exit (n : Nat)

namespace Sys

def set (s : Sys) (n : Nat) (d : Daemon) : Sys := { s with daemons := update s.daemons n d }

def exited (s : Sys) (n : Nat) : Sys :=
  { s.set n { s.daemons n with phase := .dead } with os := s.os.exited n }

/-- The next call of a program, answered. -/
def answer {α : Type} (n euid aux : Nat) (os : Os) (c : Call) (r : Reply c) :
    LockProg α → Option (Os × LockProg α)
  | .pure _ => none
  | .call c' k =>
    if h : c = c' then
      match os.exec n euid aux c r with
      | some os' => some (os', k (h ▸ r))
      | none => none
    else none

def step (s : Sys) : Move → Option Sys
  | .touch path files => some { s with os := { s.os with path := path, files := files } }
  | .start n euid record =>
    match (s.daemons n).phase with
    | .unborn => some (s.set n ⟨euid, record, .acquiring (tryLockPath euid record), none, 0⟩)
    | _ => none
  | .call n c r aux =>
    match (s.daemons n).phase with
    | .acquiring p =>
      match answer n (s.daemons n).euid aux s.os c r p with
      | some (os, p') => some { s.set n { s.daemons n with phase := .acquiring p' } with os := os }
      | none => none
    | .checking held p =>
      match answer n (s.daemons n).euid aux s.os c r p with
      | some (os, p') =>
        some { s.set n { s.daemons n with phase := .checking held p' } with os := os }
      | none => none
    | _ => none
  | .acquired n =>
    match (s.daemons n).phase with
    | .acquiring (.pure (.ok fd)) => some (s.set n { s.daemons n with phase := .idle ⟨fd, []⟩ })
    | .acquiring (.pure (.error _)) => some (s.exited n)
    | _ => none
  | .begin n =>
    match (s.daemons n).phase with
    | .idle held =>
      some (s.set n { s.daemons n with
        phase := .checking held (checkLockSlot (s.daemons n).euid held (s.daemons n).record) })
    | _ => none
  | .finish n =>
    match (s.daemons n).phase with
    | .checking _ (.pure (.lostToOther _, _)) => some (s.exited n)
    | .checking _ (.pure (v, held)) =>
      some { s.set n { s.daemons n with
          phase := .idle held
          verdict := some v
          checks := (s.daemons n).checks + 1 } with
        os := { s.os with seen := update s.os.seen n none } }
    | _ => none
  | .exit n =>
    match (s.daemons n).phase with
    | .unborn | .dead => none
    | _ => some (s.exited n)

/-- Before the first daemon starts, with any file or none at the path. -/
def init (path : Option FileId) (files : FileId → LockFile) : Sys where
  os := ⟨path, files, fun _ => none, 0, fun _ => none, fun _ => none, fun _ => none⟩
  daemons := fun _ => ⟨0, .default, .unborn, none, 0⟩

end Sys

/-- The daemon that makes a move. -/
def Move.actor : Move → Option Nat
  | .touch _ _ => none
  | .start n _ _ | .call n _ _ _ | .acquired n | .begin n | .finish n | .exit n => some n

/-- What a move of daemon `n` makes of it and of the system. -/
inductive Daemon.Goes (n : Nat) (d : Daemon) (os : Os) : Move → Daemon → Os → Prop
  | started {euid : Nat} {record : HolderInfo} (hp : d.phase = .unborn) :
      Goes n d os (.start n euid record)
        ⟨euid, record, .acquiring (tryLockPath euid record), none, 0⟩ os
  | acquiring {c : Call} {k : Reply c → LockProg (Except LockError Fd)} {r : Reply c} {aux : Nat}
      {os' : Os} (hp : d.phase = .acquiring (.call c k))
      (he : os.exec n d.euid aux c r = some os') :
      Goes n d os (.call n c r aux) { d with phase := .acquiring (k r) } os'
  | acquired {fd : Fd} (hp : d.phase = .acquiring (.pure (.ok fd))) :
      Goes n d os (.acquired n) { d with phase := .idle ⟨fd, []⟩ } os
  | refused {e : LockError} (hp : d.phase = .acquiring (.pure (.error e))) :
      Goes n d os (.acquired n) { d with phase := .dead } (os.exited n)
  | began {held : HeldLock} (hp : d.phase = .idle held) :
      Goes n d os (.begin n)
        { d with phase := .checking held (checkLockSlot d.euid held d.record) } os
  | checking {held : HeldLock} {c : Call} {k : Reply c → LockProg (LockIntegrity × HeldLock)}
      {r : Reply c} {aux : Nat} {os' : Os} (hp : d.phase = .checking held (.call c k))
      (he : os.exec n d.euid aux c r = some os') :
      Goes n d os (.call n c r aux) { d with phase := .checking held (k r) } os'
  | finished {held held' : HeldLock} {v : LockIntegrity}
      (hp : d.phase = .checking held (.pure (v, held'))) :
      Goes n d os (.finish n)
        { d with phase := .idle held', verdict := some v, checks := d.checks + 1 }
        { os with seen := update os.seen n none }
  | lost {held : HeldLock} {x : LockIntegrity × HeldLock}
      (hp : d.phase = .checking held (.pure x)) :
      Goes n d os (.finish n) { d with phase := .dead } (os.exited n)
  | exited : Goes n d os (.exit n) { d with phase := .dead } (os.exited n)

section

variable {n : Nat} {s s' : Sys} {mv : Move}

theorem Sys.answer_eq_some {α : Type} {euid aux : Nat} {os os' : Os} {c : Call} {r : Reply c}
    {p p' : LockProg α} (h : Sys.answer n euid aux os c r p = some (os', p')) :
    ∃ k, p = .call c k ∧ os.exec n euid aux c r = some os' ∧ p' = k r := by
  cases p with
  | pure a => cases h
  | call c' k =>
    simp only [Sys.answer] at h
    split at h
    next heq =>
      subst heq
      split at h
      next os₁ hos₁ =>
        cases h
        exact ⟨k, rfl, hos₁, rfl⟩
      · cases h
    · cases h

/-- A move of daemon `n` changes nothing of the other daemons. -/
theorem Sys.step_goes (h : s.step mv = some s') (hn : mv.actor = some n) :
    ∃ d os, s' = { s.set n d with os := os } ∧ (s.daemons n).Goes n s.os mv d os := by
  cases mv with
  | touch path files => cases hn
  | call m c r aux =>
    cases hn
    simp only [Sys.step] at h
    split at h
    next p hp =>
      split at h
      next os p' ha =>
        obtain ⟨k, rfl, he, rfl⟩ := Sys.answer_eq_some ha
        exact ⟨_, os, (Option.some.inj h).symm, .acquiring hp he⟩
      · cases h
    next held p hp =>
      split at h
      next os p' ha =>
        obtain ⟨k, rfl, he, rfl⟩ := Sys.answer_eq_some ha
        exact ⟨_, os, (Option.some.inj h).symm, .checking hp he⟩
      · cases h
    · cases h
  | start | acquired | begin | finish | exit =>
    cases hn
    simp only [Sys.step] at h
    split at h <;> cases h <;> exact ⟨_, _, rfl, by constructor <;> assumption⟩

theorem Sys.set_daemons (s : Sys) (n : Nat) (d : Daemon) (os : Os) :
    ({ s.set n d with os := os } : Sys).daemons n = d := update_self ..

end

/-! ## What a daemon may count on -/

namespace Os

/-- Descriptors are numbered from zero, and a lock is held through an open
description of its file. -/
structure Sound (os : Os) : Prop where
  bound : ∀ {fd d}, os.fds fd = some d → fd < os.nextFd
  open_ : ∀ {i fd}, os.locks i = some fd → ∃ d, os.fds fd = some d ∧ d.file = i

/-- Daemon `n` has the file open. -/
def Has (os : Os) (n : Nat) (i : FileId) : Prop := ∃ fd, os.fds fd = some ⟨i, n⟩

end Os

/-- What others may do while daemon `n` is between two calls. They leave its
descriptors and locks alone. They do not put a file it has open at the path while
it is between its `lstat` and its `open`, unless that is what the `lstat` saw. When
nobody outside touches the path (`q`), a file at the path stays there. -/
structure Rely (q : Prop) (n : Nat) (os os' : Os) : Prop where
  sound : os'.Sound
  fds : ∀ fd i, os'.fds fd = some ⟨i, n⟩ ↔ os.fds fd = some ⟨i, n⟩
  locks : ∀ fd i j, os.fds fd = some ⟨i, n⟩ → (os'.locks j = some fd ↔ os.locks j = some fd)
  read : ∀ fd i, os.fds fd = some ⟨i, n⟩ → os'.read fd = os.read fd
  seen : os'.seen n = os.seen n
  watch : ∀ a i, os.seen n = some a → os'.path = some i → os.path ≠ some i → os.Has n i →
    a = some i
  quiet : q → ∀ i, os.path = some i → os'.path = some i

namespace Os

variable {n m : Nat} {os os' : Os}

theorem fds_inj {fd : Fd} {i j : FileId} (hi : os.fds fd = some ⟨i, n⟩)
    (hj : os.fds fd = some ⟨j, m⟩) :
    i = j ∧ n = m := Desc.mk.inj (Option.some.inj (hi.symm.trans hj))

theorem fileOf_eq_some {fd : Fd} {i : FileId} (h : os.fileOf n fd = some i) :
    os.fds fd = some ⟨i, n⟩ := by
  unfold fileOf at h
  split at h
  next d hd =>
    split at h
    next ho =>
      cases h
      rw [hd, ← ho]
    · cases h
  · cases h

theorem fileOf_of_fds {fd : Fd} {i : FileId} (h : os.fds fd = some ⟨i, n⟩) :
    os.fileOf n fd = some i := by
  unfold fileOf
  rw [h]
  exact if_pos rfl

theorem fileOf_isSome {fd : Fd} : (os.fileOf n fd).isSome ↔ ∃ i, os.fds fd = some ⟨i, n⟩ := by
  rw [Option.isSome_iff_exists]
  exact ⟨fun ⟨i, hi⟩ => ⟨i, fileOf_eq_some hi⟩, fun ⟨i, hi⟩ => ⟨i, fileOf_of_fds hi⟩⟩

/-! ### What each call does -/

section

variable (n euid aux : Nat) (os : Os)

/-- All that a call can answer and do. -/
inductive Answers : (c : Call) → Reply c → Os → Prop
  | saw {st : Stat} (hpath : os.path = some st.id) :
      Answers .lstat (.ok st) { os with seen := update os.seen n (some (some st.id)) }
  | sawNone (hpath : os.path = none) :
      Answers .lstat (.error enoent) { os with seen := update os.seen n (some none) }
  | unseen {e : Errno} (he : e ≠ enoent) :
      Answers .lstat (.error e) { os with seen := update os.seen n none }
  | owner {r : Reply .owner} : Answers .owner r os
  | opened {how : OpenHow} {i : FileId} (hpath : os.path = some i) (hhow : how ≠ .createNew) :
      Answers (.open how) (.ok os.nextFd) (os.opened n i)
  | created {how : OpenHow} (hpath : os.path = none) (hhow : how ≠ .existing)
      (hfree : os.Unopened aux) :
      Answers (.open how) (.ok os.nextFd) ((os.created aux euid).opened n aux)
  | unopened {how : OpenHow} {e : Errno} :
      Answers (.open how) (.error e) { os with seen := update os.seen n none }
  | fstat {fd : Fd} {st : Stat} (hfd : os.fds fd = some ⟨st.id, n⟩) :
      Answers (.fstat fd) (.ok st) os
  | fstatFailed {fd : Fd} {e : Errno} : Answers (.fstat fd) (.error e) os
  | held {fd : Fd} {i : FileId} (hfd : os.fds fd = some ⟨i, n⟩) (hlock : os.locks i = some fd) :
      Answers (.flock fd) (.ok ()) os
  | locked {fd : Fd} {i : FileId} (hfd : os.fds fd = some ⟨i, n⟩) (hlock : os.locks i = none) :
      Answers (.flock fd) (.ok ()) (os.lockedBy i fd)
  | flockFailed {fd : Fd} {e : Errno} : Answers (.flock fd) (.error e) os
  | read {fd : Fd} {i : FileId} (hfd : os.fds fd = some ⟨i, n⟩) :
      Answers (.read fd) (.ok (firstBytes (os.files i).text))
        { os with read := update os.read fd (some (some (firstBytes (os.files i).text))) }
  | unread {fd : Fd} {i : FileId} {e : Errno} (hfd : os.fds fd = some ⟨i, n⟩) :
      Answers (.read fd) (.error e) { os with read := update os.read fd (some none) }
  | chmod {fd : Fd} {i : FileId} :
      Answers (.chmod fd) (.ok ())
        { os with files := update os.files i { os.files i with mode := 0o600 } }
  | chmodFailed {fd : Fd} {e : Errno} : Answers (.chmod fd) (.error e) os
  | cleared {fd : Fd} {i : FileId} (hfd : os.fds fd = some ⟨i, n⟩) :
      Answers (.setLen fd) (.ok ()) (os.setText i [])
  | setLenFailed {fd : Fd} {e : Errno} : Answers (.setLen fd) (.error e) os
  | wrote {fd : Fd} {text : List Char} {i : FileId} (hfd : os.fds fd = some ⟨i, n⟩) :
      Answers (.write fd text) (.ok ())
        (os.setText i (text ++ (os.files i).text.drop text.length))
  | tore {fd : Fd} {text : List Char} {i : FileId} {e : Errno} (hfd : os.fds fd = some ⟨i, n⟩) :
      Answers (.write fd text) (.error e)
        (os.setText i (text.take aux ++ (os.files i).text.drop aux))
  | close {fd : Fd} {i : FileId} (hfd : os.fds fd = some ⟨i, n⟩) :
      Answers (.close fd) () (os.closed fd)
end

theorem exec_answers {euid aux : Nat} {c : Call} {r : Reply c}
    (h : os.exec n euid aux c r = some os') :
    Answers n euid aux os c r os' := by
  revert h
  fun_cases os.exec n euid aux c r <;> intro h <;> cases h
  case case1.refl i hi => exact .saw hi
  case case4.refl e he => exact .unseen he
  case case5.refl e he hnone =>
    rw [Decidable.not_not.mp he]
    exact .sawNone hnone
  case case7.refl => exact .owner
  case case10.refl => exact .owner
  case case13.refl how hfd i hi hhow =>
    rw [Decidable.not_not.mp hfd]
    exact .opened hi (not_or.mp hhow).1
  case case15.refl how fd hfd hnone hhow =>
    rw [Decidable.not_not.mp hfd]
    exact .created hnone (not_or.mp hhow).1 (Decidable.not_not.mp (not_or.mp hhow).2)
  case case16.refl => exact .unopened
  case case17.refl hi => exact .fstat (fileOf_eq_some hi)
  case case20.refl => exact .fstatFailed
  case case21.refl hi hl => exact .held (fileOf_eq_some hi) hl
  case case22.refl hi _ hl => exact .locked (fileOf_eq_some hi) hl
  case case25.refl => exact .flockFailed
  case case26.refl hi => exact .read (fileOf_eq_some hi)
  case case29.refl hi => exact .unread (fileOf_eq_some hi)
  case case31.refl => exact .chmod
  case case33.refl => exact .chmodFailed
  case case34.refl hi => exact .cleared (fileOf_eq_some hi)
  case case36.refl => exact .setLenFailed
  case case37.refl hi => exact .wrote (fileOf_eq_some hi)
  case case39.refl hi => exact .tore (fileOf_eq_some hi)
  case case41.refl hi => exact .close (fileOf_eq_some hi)

/-- All that a call of daemon `m` can do to the path, the descriptors and the locks. -/
inductive Effect (m : Nat) (os : Os) : Os → Prop
  | keep {os' : Os} (hpath : os'.path = os.path) (hfds : os'.fds = os.fds)
      (hnext : os'.nextFd = os.nextFd) (hlocks : os'.locks = os.locks)
      (hseen : ∀ n, n ≠ m → os'.seen n = os.seen n)
      (hread : ∀ fd, (∀ i, os.fds fd ≠ some ⟨i, m⟩) → os'.read fd = os.read fd) : Effect m os os'
  | opened {i : FileId} (hpath : os.path = some i) : Effect m os (os.opened m i)
  | created {i : FileId} {euid : Nat} (hpath : os.path = none) (hfree : os.Unopened i) :
      Effect m os ((os.created i euid).opened m i)
  | locked {fd : Fd} {i : FileId} (hfd : os.fds fd = some ⟨i, m⟩) (hfree : os.locks i = none) :
      Effect m os (os.lockedBy i fd)
  | closed {fd : Fd} {i : FileId} (hfd : os.fds fd = some ⟨i, m⟩) : Effect m os (os.closed fd)

theorem Effect.same : Effect m os os := .keep rfl rfl rfl rfl (fun _ _ => rfl) fun _ _ => rfl

theorem Effect.saw (x : Option (Option FileId)) :
    Effect m os { os with seen := update os.seen m x } :=
  .keep rfl rfl rfl rfl (fun _ hn => update_of_ne hn ..) fun _ _ => rfl

theorem Effect.readBy {fd : Fd} {i : FileId} (hfd : os.fds fd = some ⟨i, m⟩)
    (x : Option (Option (List Char))) : Effect m os { os with read := update os.read fd x } := by
  refine .keep rfl rfl rfl rfl (fun _ _ => rfl) fun fd' hfd' => update_of_ne ?_ ..
  rintro rfl
  exact hfd' i hfd

theorem Effect.wrote (files : FileId → LockFile) : Effect m os { os with files := files } :=
  .keep rfl rfl rfl rfl (fun _ _ => rfl) fun _ _ => rfl

theorem exec_effect {euid aux : Nat} {c : Call} {r : Reply c}
    (h : os.exec m euid aux c r = some os') : Effect m os os' := by
  cases exec_answers h with
  | saw | sawNone | unseen | unopened => exact .saw _
  | opened hi => exact .opened hi
  | created hnone _ hfree => exact .created hnone hfree
  | locked hi hfree => exact .locked hi hfree
  | read hi | unread hi => exact .readBy hi _
  | chmod | cleared | wrote | tore => exact .wrote _
  | close hi => exact .closed hi
  | _ => exact .same

/-- Daemon `n` has the lock of a file through `fd`. -/
def Locked (os : Os) (n : Nat) (fd : Fd) (i : FileId) : Prop :=
  os.fds fd = some ⟨i, n⟩ ∧ os.locks i = some fd

theorem Sound.fresh (h : os.Sound) : os.fds os.nextFd = none := by
  cases hfd : os.fds os.nextFd with
  | none => rfl
  | some d => exact absurd (h.bound hfd) (lt_irrefl _)

theorem Sound.opened (h : os.Sound) (m : Nat) (i : FileId) : (os.opened m i).Sound where
  bound := by
    intro fd d hfd
    by_cases heq : fd = os.nextFd
    · rw [heq]; exact Nat.lt_succ_self _
    · have hold : os.fds fd = some d := (update_of_ne heq ..).symm.trans hfd
      exact Nat.lt_succ_of_lt (h.bound hold)
  open_ := by
    intro j fd hfd
    obtain ⟨d, hd, hj⟩ := h.open_ hfd
    have hne : fd ≠ os.nextFd := ne_of_lt (h.bound hd)
    exact ⟨d, (update_of_ne hne ..).trans hd, hj⟩

theorem Sound.created (h : os.Sound) (i : FileId) (euid : Nat) : (os.created i euid).Sound :=
  ⟨h.bound, h.open_⟩

theorem Sound.lockedBy (h : os.Sound) {fd : Fd} {i : FileId} (hfd : os.fds fd = some ⟨i, m⟩) :
    (os.lockedBy i fd).Sound := by
  refine ⟨h.bound, ?_⟩
  intro j fd' hl
  by_cases heq : j = i
  · subst heq
    have hself : (os.lockedBy j fd).locks j = some fd := update_self ..
    obtain rfl := Option.some.inj (hself.symm.trans hl)
    exact ⟨_, hfd, rfl⟩
  · have hold : (os.lockedBy i fd).locks j = os.locks j := update_of_ne heq ..
    exact h.open_ (hold.symm.trans hl)

theorem Sound.closed (h : os.Sound) (fd : Fd) : (os.closed fd).Sound where
  bound := by
    intro fd' d hfd'
    by_cases heq : fd' = fd
    · subst heq
      exact absurd ((update_self ..).symm.trans hfd') (by simp)
    · exact h.bound ((update_of_ne heq ..).symm.trans hfd')
  open_ := by
    intro j fd' hfd'
    dsimp only [Os.closed] at hfd'
    split at hfd'
    · cases hfd'
    rename_i hne
    obtain ⟨d, hd, hj⟩ := h.open_ hfd'
    have hfd : fd' ≠ fd := by
      rintro rfl
      exact hne hfd'
    exact ⟨d, (update_of_ne hfd ..).trans hd, hj⟩

theorem Effect.sound (he : Effect m os os') (h : os.Sound) : os'.Sound := by
  cases he with
  | keep hpath hfds hnext hlocks _ _ =>
    exact ⟨fun {fd d} hfd => by rw [hnext]; exact h.bound (hfds ▸ hfd),
      fun {i fd} hl => by rw [hfds]; exact h.open_ (hlocks ▸ hl)⟩
  | opened hpath => exact h.opened m _
  | created hpath hfree => exact (h.created _ _).opened m _
  | locked hfd hfree => exact h.lockedBy hfd
  | closed hfd => exact h.closed _

theorem Sound.exited (h : os.Sound) (n : Nat) : (os.exited n).Sound where
  bound := by
    intro fd d hfd
    dsimp only [Os.exited] at hfd
    split at hfd
    · cases hfd
    · exact h.bound hfd
  open_ := by
    intro i fd hl
    dsimp only [Os.exited] at hl ⊢
    split at hl
    next fd' hl' =>
      split at hl
      · cases hl
      rename_i hnot
      cases hl
      rw [if_neg hnot]
      exact h.open_ hl'
    · cases hl

end Os

/-! ### Others leave a daemon alone -/

namespace Rely

open Os

variable {q : Prop} {n m : Nat} {os os' : Os}

/-- A descriptor that `m` opens is none of `n`'s. -/
theorem opened_fds (hne : n ≠ m) (h : os.Sound) (i : FileId) (fd : Fd) (j : FileId) :
    (os.opened m i).fds fd = some ⟨j, n⟩ ↔ os.fds fd = some ⟨j, n⟩ := by
  by_cases heq : fd = os.nextFd
  · have hnew : (os.opened m i).fds fd = some ⟨i, m⟩ := by rw [heq]; exact update_self ..
    rw [hnew, heq, h.fresh]
    refine ⟨fun hd => ?_, fun hd => absurd hd (by simp)⟩
    exact absurd (Desc.mk.inj (Option.some.inj hd)).2.symm hne
  · have hold : (os.opened m i).fds fd = os.fds fd := update_of_ne heq ..
    rw [hold]

theorem opened_read (h : os.Sound) (i : FileId) {fd : Fd} {d : Desc} (hfd : os.fds fd = some d) :
    (os.opened m i).read fd = os.read fd := update_of_ne (ne_of_lt (h.bound hfd)) ..

theorem of_effect (hne : n ≠ m) (h : os.Sound) (he : Effect m os os') : Rely q n os os' := by
  have hsound := he.sound h
  have hother : ∀ {fd : Fd} {i j : FileId}, os.fds fd = some ⟨i, n⟩ → os.fds fd ≠ some ⟨j, m⟩ :=
    fun hi hj => hne (fds_inj hi hj).2
  have hfds : ∀ {fd fd' : Fd} {i j : FileId}, os.fds fd = some ⟨i, m⟩ → os.fds fd' = some ⟨j, n⟩ →
      fd' ≠ fd := by
    rintro fd _ i j hfd hfd' rfl
    exact hother hfd' hfd
  cases he with
  | keep hpath hfds hnext hlocks hseen hread =>
    refine ⟨hsound, fun fd i => by rw [hfds], fun fd i j _ => by rw [hlocks],
      fun fd i hfd => hread fd fun j => hother hfd, hseen n hne, ?_,
        fun _ i hi => by rw [hpath, hi]⟩
    intro a i _ hi hi'
    exact absurd (hpath ▸ hi) hi'
  | @opened i hpath =>
    refine ⟨hsound, opened_fds hne h i, fun _ _ _ _ => Iff.rfl, fun _ _ hfd => opened_read h i hfd,
      update_of_ne hne .., ?_, fun _ j hj => hj⟩
    intro a j _ hj hj'
    exact absurd hj hj'
  | @created i euid hpath hfree =>
    have hc := h.created i euid
    refine ⟨hsound, opened_fds hne hc i, fun _ _ _ _ => Iff.rfl,
      fun _ _ hfd => opened_read hc i hfd,
      update_of_ne hne .., ?_, ?_⟩
    · -- the new file is one nobody had open
      rintro a j _ hj _ ⟨fd, hfd⟩
      obtain rfl : i = j := Option.some.inj hj
      exact absurd (by rw [hfd]; rfl) (hfree fd (h.bound hfd))
    · intro _ j hj
      rw [hpath] at hj
      cases hj
  | @locked fd i hfd hfree =>
    refine ⟨hsound, fun _ _ => Iff.rfl, ?_,
      fun _ _ hfd' => update_of_ne (hfds hfd hfd') .., rfl, ?_,
      fun _ j hj => hj⟩
    · intro fd' j k hfd'
      by_cases hk : k = i
      · have hself : (os.lockedBy i fd).locks k = some fd := by rw [hk]; exact update_self ..
        rw [hself, hk, hfree]
        exact ⟨fun heq => absurd (Option.some.inj heq).symm (hfds hfd hfd'),
          fun heq => absurd heq (by simp)⟩
      · have hold : (os.lockedBy i fd).locks k = os.locks k := update_of_ne hk ..
        rw [hold]
    · intro a j _ hj hj'
      exact absurd hj hj'
  | @closed fd i hfd =>
    refine ⟨hsound, ?_, ?_, fun _ _ _ => rfl, rfl, ?_, fun _ j hj => hj⟩
    · intro fd' j
      by_cases heq : fd' = fd
      · subst heq
        rw [show (os.closed fd').fds fd' = none from update_self ..]
        exact ⟨fun hd => absurd hd (by simp), fun hd => absurd rfl (hfds hfd hd)⟩
      · rw [show (os.closed fd).fds fd' = os.fds fd' from update_of_ne heq ..]
    · intro fd' j k hfd'
      dsimp only [Os.closed]
      split
      next hk =>
        rw [hk]
        exact ⟨fun hd => absurd hd (by simp),
          fun hd => absurd (Option.some.inj hd).symm (hfds hfd hfd')⟩
      · exact Iff.rfl
    · intro a j _ hj hj'
      exact absurd hj hj'

theorem of_exited (hne : n ≠ m) (h : os.Sound) : Rely q n os (os.exited m) := by
  have hmine : ∀ {fd : Fd} {i : FileId}, os.fds fd = some ⟨i, n⟩ → ¬(os.fileOf m fd).isSome := by
    intro fd i hfd hm
    obtain ⟨j, hj⟩ := fileOf_isSome.mp hm
    exact hne (fds_inj hfd hj).2
  refine ⟨h.exited m, ?_, ?_, fun _ _ _ => rfl, rfl, ?_, fun _ i hi => hi⟩
  · intro fd i
    dsimp only [Os.exited]
    split
    next hm =>
      exact ⟨fun hd => absurd hd (by simp), fun hd => absurd hm (hmine hd)⟩
    · exact Iff.rfl
  · intro fd i j hfd
    dsimp only [Os.exited]
    split
    next fd' hfd' =>
      split
      next hm =>
        refine ⟨fun hd => absurd hd (by simp), fun hd => ?_⟩
        obtain rfl : fd' = fd := Option.some.inj (hfd'.symm.trans hd)
        exact absurd hm (hmine hfd)
      · rw [hfd']
    next hnone => rw [hnone]
  · intro a i _ hi hi'
    exact absurd hi hi'

end Rely

end Weir.Lock

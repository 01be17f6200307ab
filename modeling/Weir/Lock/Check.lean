import Weir.Lib.Program
import Weir.Lock.Record

/-!
# Taking and checking the lock of a WAB directory (`wab/lock.rs`)

`try_lock_path` and `check_lock_slot` as programs over the system calls they
make, one call at a time, since between any two of them other daemons run and
the lock path may be deleted or replaced. A `File` that goes out of scope is
closed, which is a call too.

The constants are those of Linux. Every refusal carries the lock path in the
source; there is one lock path here, so it is left out.
-/

namespace Weir.Lock

open Weir.Lib

/-- A file's `(dev, ino)`. -/
abbrev FileId := Nat

abbrev Fd := Nat

abbrev Errno := Nat

def eperm : Errno := 1
def enoent : Errno := 2
def eio : Errno := 5
def ebadf : Errno := 9
def ewouldblock : Errno := 11
def eacces : Errno := 13
def einval : Errno := 22
def emlink : Errno := 31
def enolck : Errno := 37
def enosys : Errno := 38
def eopnotsupp : Errno := 95

/-- What the code reads off `Metadata`. -/
structure Stat where
  id : FileId
  isFile : Bool
  links : Nat
  uid : Nat
  mode : Nat
  deriving DecidableEq, Repr

/-- `OpenHow`. -/
inductive OpenHow
  | openOrCreate
  | createNew
  | existing
  deriving DecidableEq, Repr

inductive Call
  /-- `symlink_metadata` of the lock path. -/
  | lstat
  /-- The same call where only the owner is asked for. -/
  | owner
  /-- `open` of the lock path, with `O_NOFOLLOW`. -/
  | open (how : OpenHow)
  | fstat (fd : Fd)
  /-- `flock(LOCK_EX | LOCK_NB)`. -/
  | flock (fd : Fd)
  /-- `read_at` of the first `RECORD_MAX_BYTES`. -/
  | read (fd : Fd)
  /-- `set_permissions` to 0600. -/
  | chmod (fd : Fd)
  /-- `set_len(0)`. -/
  | setLen (fd : Fd)
  /-- `write_all_at` offset 0. -/
  | write (fd : Fd) (text : List Char)
  | close (fd : Fd)
  deriving DecidableEq, Repr

abbrev Reply : Call → Type
  | .lstat => Except Errno Stat
  | .owner => Except Errno Nat
  | .open _ => Except Errno Fd
  | .fstat _ => Except Errno Stat
  | .flock _ => Except Errno Unit
  | .read _ => Except Errno (List Char)
  | .chmod _ => Except Errno Unit
  | .setLen _ => Except Errno Unit
  | .write _ _ => Except Errno Unit
  | .close _ => Unit

abbrev LockProg := Prog Call Reply

def ask (c : Call) : LockProg (Reply c) := Prog.ask c

/-- `UnsafeLockFile`. -/
inductive UnsafeLockFile
  | hardLinked (links : Nat)
  | foreignOwner (owner euid : Nat)
  deriving DecidableEq, Repr

/-- `UnsafeLockFile::errno`. -/
def UnsafeLockFile.errno : UnsafeLockFile → Errno
  | .hardLinked _ => emlink
  | .foreignOwner _ _ => eperm

/-- The `io::Error` of a refusal: an errno, or one the code made itself with kind
`InvalidInput`. -/
inductive IoSource
  | os (errno : Errno)
  | invalidInput (message : String)
  deriving DecidableEq, Repr

/-- `LockError`. -/
inductive LockError
  | held (holder : Option HolderInfo)
  | unsupported (errno : Errno)
  | io (source : IoSource)
  | unsafeFile (problem : UnsafeLockFile)
  deriving DecidableEq, Repr

/-- `LockIntegrity`. -/
inductive LockIntegrity
  | ok
  | relocked
  | lostToOther (holder : Option HolderInfo)
  | error (errno : Errno)
  deriving DecidableEq, Repr

/-- `HeldLock`: the open file that holds the lock, and the ids the path has had
that were taken for it, each with the file that proved it. -/
structure HeldLock where
  file : Fd
  aliases : List (FileId × Fd)
  deriving DecidableEq, Repr

/-! ## Acquisition -/

/-- `open_lock_path`. -/
def openLockPath (euid : Nat) (how : OpenHow) : LockProg (Except LockError Fd) := do
  match ← ask (.open how) with
  | .ok file => return .ok file
  | .error e =>
    match ← ask .owner with
    | .ok owner =>
      if (e = eacces ∨ e = eperm) ∧ owner ≠ euid then
        return .error (.unsafeFile (.foreignOwner owner euid))
      else return .error (.io (.os e))
    | .error _ => return .error (.io (.os e))

/-- `not_a_regular_file`. -/
def notARegularFile : LockError :=
  .io (.invalidInput "the lock path exists and is not a regular file")

/-- `vet_lock_file`. -/
def vetLockFile (euid : Nat) (file : Fd) : LockProg (Except LockError Unit) := do
  match ← ask (.fstat file) with
  | .error e => return .error (.io (.os e))
  | .ok m =>
    if !m.isFile then return .error notARegularFile
    else if m.links ≠ 1 then return .error (.unsafeFile (.hardLinked m.links))
    else if m.uid ≠ euid then return .error (.unsafeFile (.foreignOwner m.uid euid))
    else return .ok ()

/-- `read_holder`. -/
def readHolder (file : Fd) : LockProg (Option HolderInfo) := do
  match ← ask (.read file) with
  | .error _ => return none
  | .ok text => return HolderInfo.parse text

/-- `classify_flock_errno`. -/
def classifyFlockErrno (errno : Errno) (file : Fd) : LockProg LockError := do
  if errno = ewouldblock then
    return .held (← readHolder file)
  else if errno ∈ [enolck, eopnotsupp, enosys, einval] then return .unsupported errno
  else return .io (.os errno)

/-- `take_lock`. -/
def takeLock (file : Fd) : LockProg (Except LockError Unit) := do
  match ← ask (.flock file) with
  | .ok () => return .ok ()
  | .error errno => return .error (← classifyFlockErrno errno file)

/-- The end of `write_record`: the old record goes, and the new one is written in its place. -/
def replaceRecord (file : Fd) (holder : HolderInfo) : LockProg Unit := do
  match ← ask (.setLen file) with
  | .ok () => let _ ← ask (.write file holder.render)
  | .error _ => pure ()

/-- `write_record`: no failure in here gives the lock back. -/
def writeRecord (file : Fd) (holder : HolderInfo) : LockProg Unit := do
  match ← ask (.fstat file) with
  | .ok m => if m.mode ≠ 0o600 then let _ ← ask (.chmod file)
  | .error _ => pure ()
  replaceRecord file holder

/-- What `try_lock_path` does once the file is locked. -/
def keepLock (file : Fd) (holder : HolderInfo) : LockProg (Except LockError Fd) := do
  writeRecord file holder
  return .ok file

/-- `try_lock_path`. -/
def tryLockPath (euid : Nat) (holder : HolderInfo) : LockProg (Except LockError Fd) := do
  match ← openLockPath euid .openOrCreate with
  | .error e => return .error e
  | .ok file =>
    match ← vetLockFile euid file with
    | .error e =>
      ask (.close file)
      return .error e
    | .ok () =>
      match ← takeLock file with
      | .error e =>
        ask (.close file)
        return .error e
      | .ok () => keepLock file holder

/-! ## The integrity check -/

/-- `integrity_error`. -/
def integrityError : LockError → LockIntegrity
  | .held _ => .error ewouldblock
  | .unsupported errno => .error errno
  | .unsafeFile problem => .error problem.errno
  | .io (.os errno) => .error errno
  | .io (.invalidInput _) => .error einval

/-- `Recreated`. -/
inductive Recreated
  | sameFile (file : Fd)
  | locked (file : Fd)
  | verdict (v : LockIntegrity)
  deriving DecidableEq, Repr

/-- Gives up on an opened file. -/
def giveUp (file : Fd) (v : LockIntegrity) : LockProg Recreated := do
  ask (.close file)
  return .verdict v

/-- The end of `recreate_lock`: no evidence of another owner, so the vet gates the
write. -/
def adopt (euid : Nat) (file : Fd) (own : HolderInfo) : LockProg Recreated := do
  match ← vetLockFile euid file with
  | .error e => giveUp file (integrityError e)
  | .ok () =>
    writeRecord file own
    return .locked file

/-- The middle of `recreate_lock`: the proof of a second owner, on a file that is
not the held one. -/
def inspect (euid : Nat) (file : Fd) (own : HolderInfo) : LockProg Recreated := do
  match ← takeLock file with
  | .error (.held holder) => giveUp file (.lostToOther holder)
  | .error e => giveUp file (integrityError e)
  | .ok () =>
    match ← readHolder file with
    | some found =>
      if sameHolder found own then adopt euid file own
      else giveUp file (.lostToOther (some found))
    | none => adopt euid file own

/-- `recreate_lock`. -/
def recreateLock (euid : Nat) (missing : Bool) (heldId : FileId) (own : HolderInfo) :
    LockProg Recreated := do
  match ← openLockPath euid (if missing then .createNew else .existing) with
  | .error e => return .verdict (integrityError e)
  | .ok file =>
    match ← ask (.fstat file) with
    | .error e => giveUp file (.error e)
    | .ok m =>
      if m.id = heldId then return .sameFile file
      else if !m.isFile then giveUp file (integrityError notARegularFile)
      else inspect euid file own

/-- Drops a `HeldLock`. -/
def closeAll (held : HeldLock) : LockProg Unit := do
  ask (.close held.file)
  held.aliases.foldl (fun p a => do p; ask (.close a.2)) (pure ())

/-- The end of `check_lock_slot`: what is at the path is not the held file. -/
def replaced (euid : Nat) (held : HeldLock) (atPath : Option FileId) (heldId : FileId)
    (own : HolderInfo) : LockProg (LockIntegrity × HeldLock) := do
  match ← recreateLock euid atPath.isNone heldId own with
  | .sameFile file =>
    return (.ok, { held with aliases := held.aliases ++ [(atPath.getD heldId, file)] })
  | .locked file =>
    closeAll held
    return (.relocked, ⟨file, []⟩)
  | .verdict v => return (v, held)

/-- `check_lock_slot`, of a slot that holds the lock: the verdict, and what is in
the slot then. An empty slot is `Error(EBADF)` before any call. -/
def checkLockSlot (euid : Nat) (held : HeldLock) (own : HolderInfo) :
    LockProg (LockIntegrity × HeldLock) := do
  match ← ask .lstat with
  | .error e => if e = enoent then looked none else return (.error e, held)
  | .ok m => looked (some m.id)
where
  /-- Behind the `lstat`. -/
  looked (atPath : Option FileId) : LockProg (LockIntegrity × HeldLock) := do
    match ← ask (.fstat held.file) with
    | .error e => return (.error e, held)
    | .ok m =>
      match ← ask (.flock held.file) with
      | .error errno =>
        if errno = ewouldblock then
          return (.lostToOther (← readHolder held.file), held)
        else return (.error errno, held)
      | .ok () =>
        if atPath.any fun id => id = m.id ∨ held.aliases.any fun a => a.1 = id then
          return (.ok, held)
        else replaced euid held atPath m.id own

end Weir.Lock

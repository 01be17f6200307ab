import Weir.Lock.System

/-!
# The lock programs among other daemons

Each program is judged once, under everything the others and an outsider may do
between its calls (`Rely`), with and without the outsider:

> `tryLockPath_runs`: an acquisition that succeeds has the lock of the file it
> opened.

> `checkLockSlot_runs`: a check leaves the daemon with the lock of a file; when
> nobody outside touches the path and the verdict is `Ok` or `Relocked`, that is
> the file at the path.

> `checkLockSlot_keeps`: a check of the owner, when nobody outside touches the
> path, keeps the lock of the file there.
-/

namespace Weir.Lock

open Weir.Lib Function Os

/-! ## Judging the programs -/

/-- The calls of daemon `n`. -/
def Steps (n euid : Nat) (c : Call) (os : Os) (r : Reply c) (os' : Os) : Prop :=
  ∃ aux, os.exec n euid aux c r = some os'

/-- The record of a file is written only where `W` allows it. -/
def WritesOnly (W : Fd → Os → Prop) : Call → Os → Prop
  | .setLen fd, os => W fd os
  | .write fd _, os => W fd os
  | _, _ => True

/-- The program of daemon `n`, from `os` on. -/
def Runs {α : Type} (q : Prop) (n euid : Nat) (W : Fd → Os → Prop) (p : LockProg α)
    (post : α → Os → Prop) (os : Os) : Prop :=
  p.Sat (Steps n euid) (Rely q n) (WritesOnly W) post os

section

variable {α β : Type} {q : Prop} {n euid : Nat} {W : Fd → Os → Prop} {I J : Os → Prop} {os : Os}
  {post : α → Os → Prop}

theorem Runs.ask {c : Call} {f : Reply c → LockProg α} (hI : Prog.Stable (Rely q n) I) (hs : I os)
    (hW : ∀ os, I os → WritesOnly W c os)
    (h : ∀ os r os' aux, I os → Answers n euid aux os c r os' → Runs q n euid W (f r) post os') :
    Runs q n euid W (Lock.ask c >>= f) post os :=
  Prog.Sat.ask hI hs fun os hI =>
    ⟨hW os hI, fun r os' ⟨aux, ha⟩ => h os r os' aux hI (exec_answers ha)⟩

theorem Runs.ret {a : α} (hI : Prog.Stable (Rely q n) I) (hs : I os) (h : ∀ os, I os → post a os) :
    Runs q n euid W (pure a) post os := Prog.Sat.ret hI hs h

theorem Runs.done {a : α} (hI : Prog.Stable (Rely q n) (post a)) (hs : post a os) :
    Runs q n euid W (pure a) post os := .ret hI hs fun _ h => h

theorem Runs.bind {p : LockProg β} {f : β → LockProg α} {M : β → Os → Prop}
    (hp : Runs q n euid W p M os)
    (hf : ∀ b os, M b os → Runs q n euid W (f b) post os) : Runs q n euid W (p >>= f) post os :=
  Prog.Sat.bind (hp.mono hf)

section

variable (hI : Prog.Stable (Rely q n) I)

include hI

/-- `vet_lock_file` only looks. -/
theorem vetLockFile_runs (hs : I os) (fd : Fd) :
    Runs q n euid W (vetLockFile euid fd) (fun _ => I) os := by
  refine Runs.ask hI hs (fun _ _ => trivial) ?_
  intro os _ _ _ hos ans
  cases ans with
  | fstatFailed => exact .done hI hos
  | fstat _ =>
    dsimp only
    split
    · exact .done hI hos
    split
    · exact .done hI hos
    · split
      · exact .done hI hos
      · exact .done hI hos

/-- `write_record` changes only what is in the file. -/
theorem writeRecord_runs (hfiles : ∀ os files, I os → I { os with files := files }) {fd : Fd}
    (hW : ∀ os, I os → W fd os) (hs : I os) (holder : HolderInfo) :
    Runs q n euid W (writeRecord fd holder) (fun _ => I) os := by
  have hwrite : ∀ {os : Os}, I os →
      Runs q n euid W (replaceRecord fd holder) (fun _ => I) os := by
    intro os hos
    refine Runs.ask hI hos hW ?_
    intro os _ _ _ hos ans
    cases ans with
    | setLenFailed => exact .done hI hos
    | cleared _ =>
      refine Runs.ask hI (hfiles _ _ hos) hW ?_
      intro os _ _ _ hos ans
      cases ans with
      | wrote | tore => exact .done hI (hfiles _ _ hos)
  refine Runs.ask hI hs (fun _ _ => trivial) ?_
  intro os _ _ _ hos ans
  cases ans with
  | fstatFailed => exact hwrite hos
  | @fstat _ m _ =>
    by_cases hmode : m.mode ≠ 0o600
    · simp only [hmode, ne_eq, not_false_eq_true, if_true]
      refine Runs.ask hI hos (fun _ _ => trivial) ?_
      intro os _ _ _ hos ans
      cases ans with
      | chmodFailed => exact hwrite hos
      | chmod => exact hwrite (hfiles _ _ hos)
    · simp only [hmode, if_false]
      exact hwrite hos

/-- `read_holder` leaves a trace of what it read. -/
theorem readHolder_runs (hs : I os) {fd : Fd} {K : Option HolderInfo → Os → Prop}
    (hK : ∀ x, Prog.Stable (Rely q n) (K x))
    (hok : ∀ os i text, I os → os.fds fd = some ⟨i, n⟩ → text = firstBytes (os.files i).text →
      K (HolderInfo.parse text) { os with read := update os.read fd (some (some text)) })
    (herr : ∀ os, I os → K none { os with read := update os.read fd (some none) }) :
    Runs q n euid W (readHolder fd) K os := by
  refine Runs.ask hI hs (fun _ _ => trivial) ?_
  intro os _ _ _ hos ans
  cases ans with
  | read hi => exact .done (hK _) (hok os _ _ hos hi rfl)
  | unread _ => exact .done (hK _) (herr os hos)

/-- `take_lock`. -/
theorem takeLock_runs (hs : I os) {fd : Fd} (hJ : Prog.Stable (Rely q n) J)
    (hread : ∀ os x, I os → I { os with read := update os.read fd x })
    (hok : ∀ os i, I os → os.fds fd = some ⟨i, n⟩ → os.locks i = some fd → J os)
    (hnew : ∀ os i, I os → os.fds fd = some ⟨i, n⟩ → os.locks i = none → J (os.lockedBy i fd)) :
    Runs q n euid W (takeLock fd)
      (fun r os => match r with | .ok _ => J os | .error _ => I os) os := by
  refine Runs.ask hI hs (fun _ _ => trivial) ?_
  intro os _ _ _ hos ans
  cases ans with
  | held hi hl => exact .done hJ (hok _ _ hos hi hl)
  | locked hi hl => exact .done hJ (hnew _ _ hos hi hl)
  | flockFailed =>
    refine Runs.bind (M := fun _ => I) ?_ fun _ os hos => .done hI hos
    unfold classifyFlockErrno
    split
    · refine Runs.bind (readHolder_runs hI hos (K := fun _ => I) (fun _ => hI) ?_ ?_) ?_
      · exact fun os i text hos _ _ => hread os _ hos
      · exact fun os hos => hread os _ hos
      · exact fun _ os hos => .done hI hos
    · split
      · exact .done hI hos
      · exact .done hI hos

/-- `open_lock_path`. -/
theorem openLockPath_runs {how : OpenHow} {K : Fd → Os → Prop} (hs : I os)
    (hJ : Prog.Stable (Rely q n) J) (hK : ∀ fd, Prog.Stable (Rely q n) (K fd))
    (hold : ∀ os i, I os → os.path = some i → how ≠ .createNew → K os.nextFd (os.opened n i))
    (hnew : ∀ os i, I os → os.path = none → how ≠ .existing → os.Unopened i →
      K os.nextFd ((os.created i euid).opened n i))
    (herr : ∀ os, I os → J { os with seen := update os.seen n none }) :
    Runs q n euid W (openLockPath euid how)
      (fun r os => match r with | .ok fd => K fd os | .error _ => J os) os := by
  refine Runs.ask hI hs (fun _ _ => trivial) ?_
  intro os _ _ aux hos ans
  cases ans with
  | opened hi hhow => exact .done (hK _) (hold _ _ hos hi hhow)
  | created hnone hhow hfree => exact .done (hK _) (hnew _ aux hos hnone hhow hfree)
  | unopened =>
    refine Runs.ask hJ (herr _ hos) (fun _ _ => trivial) ?_
    intro os r _ _ hos ans
    cases ans
    cases r with
    | ok owner =>
      dsimp only
      split
      · exact .done hJ hos
      · exact .done hJ hos
    | error e' => exact .done hJ hos

end

end

/-! ## Acquiring -/

section

variable {q : Prop} {n euid : Nat} {W : Fd → Os → Prop} {os : Os} {fd held : Fd} {i h : FileId}

theorem stable_locked : Prog.Stable (Rely q n) fun os => os.Locked n fd i :=
  fun _ _ hr hl => ⟨(hr.fds fd i).mpr hl.1, (hr.locks fd i i hl.1).mpr hl.2⟩

/-- A descriptor of daemon `n` with the lock of its file. -/
structure Holding (n : Nat) (fd : Fd) (i : FileId) (os : Os) : Prop where
  sound : os.Sound
  locked : os.Locked n fd i

theorem Holding.stable : Prog.Stable (Rely q n) (Holding n fd i) :=
  fun _ _ hr hh => ⟨hr.sound, stable_locked _ _ hr hh.locked⟩

theorem Holding.setFiles (hh : Holding n fd i os) (files : FileId → LockFile) :
    Holding n fd i { os with files := files } := ⟨⟨hh.sound.bound, hh.sound.open_⟩, hh.locked⟩

theorem Holding.setSeen (hh : Holding n fd i os) (seen : Nat → Option (Option FileId)) :
    Holding n fd i { os with seen := seen } := ⟨⟨hh.sound.bound, hh.sound.open_⟩, hh.locked⟩

theorem Holding.setRead (hh : Holding n fd i os) (read : Fd → Option (Option (List Char))) :
    Holding n fd i { os with read := read } := ⟨⟨hh.sound.bound, hh.sound.open_⟩, hh.locked⟩

theorem Holding.file_eq {j : FileId} (hh : Holding n fd i os) (hj : os.fds fd = some ⟨j, n⟩) :
    j = i := (fds_inj hj hh.locked.1).1

/-- The lock is not taken a second time. -/
theorem Holding.not_free {j : FileId} (hh : Holding n fd i os) (hj : os.fds fd = some ⟨j, n⟩) :
    os.locks j ≠ none := by
  rw [hh.file_eq hj, hh.locked.2]
  simp

theorem Os.lockedBy_locked (hfd : os.fds fd = some ⟨i, n⟩) : (os.lockedBy i fd).Locked n fd i :=
  ⟨hfd, update_self ..⟩

theorem Os.opened_fds_new (os : Os) (n : Nat) (i : FileId) :
    (os.opened n i).fds os.nextFd = some ⟨i, n⟩ := update_self ..

/-- An acquisition that succeeds has the lock of the file it opened, and writes only
under the lock. -/
theorem tryLockPath_runs (holder : HolderInfo) (hs : os.Sound) :
    Runs q n euid (fun fd os => ∃ i, os.Locked n fd i) (tryLockPath euid holder)
      (fun r os => ∀ fd, r = .ok fd → ∃ i, Holding n fd i os) os := by
  have hsound : Prog.Stable (Rely q n) Os.Sound := fun _ _ hr _ => hr.sound
  have hopen : ∀ fd, Prog.Stable (Rely q n) fun os => os.Sound ∧ ∃ i, os.fds fd = some ⟨i, n⟩ :=
    fun fd _ _ hr hos => ⟨hr.sound, hos.2.imp fun i hi => (hr.fds fd i).mpr hi⟩
  have hlock : ∀ fd, Prog.Stable (Rely q n) fun os => ∃ i, Holding n fd i os :=
    fun fd _ _ hr hos => hos.imp fun i hi => Holding.stable _ _ hr hi
  have hfail : ∀ (fd : Fd) (e : LockError) {os : Os}, os.Sound →
      Runs q n euid (fun fd os => ∃ i, os.Locked n fd i)
        (do Lock.ask (.close fd); return (.error e : Except LockError Fd))
        (fun r os => ∀ fd, r = .ok fd → ∃ i, Holding n fd i os) os := by
    intro fd e os hos
    refine Runs.ask hsound hos (fun _ _ => trivial) ?_
    intro os _ _ _ hos ans
    cases ans
    exact .ret hsound (hos.closed fd) (by simp)
  refine Runs.bind (openLockPath_runs hsound hs hsound hopen ?_ ?_ ?_) ?_
  · exact fun os i hos _ _ => ⟨hos.opened n i, i, os.opened_fds_new n i⟩
  · exact fun os i hos _ _ _ => ⟨(hos.created i euid).opened n i, i,
      (os.created i euid).opened_fds_new n i⟩
  · exact fun os hos => ⟨hos.bound, hos.open_⟩
  intro r os hos
  cases r with
  | error e => exact .ret hsound hos (by simp)
  | ok fd =>
    refine Runs.bind (vetLockFile_runs (hopen fd) hos fd) fun r os hos => ?_
    cases r with
    | error e => exact hfail fd e hos.1
    | ok _ =>
      refine Runs.bind (takeLock_runs (hopen fd) hos (hlock fd) ?_ ?_ ?_) fun r os hos => ?_
      · exact fun os x hos => ⟨⟨hos.1.bound, hos.1.open_⟩, hos.2⟩
      · exact fun os i hos hi hl => ⟨i, hos.1, hi, hl⟩
      · exact fun os i hos hi _ => ⟨i, hos.1.lockedBy hi, Os.lockedBy_locked hi⟩
      cases r with
      | error e => exact hfail fd e hos.1
      | ok _ =>
        refine Runs.bind (writeRecord_runs (hlock fd) ?_ ?_ hos holder) fun _ os hos => ?_
        · exact fun os files hos => hos.imp fun i hi => hi.setFiles files
        · exact fun os hos => hos.imp fun i hi => hi.locked
        · refine .ret (hlock fd) hos fun os hos fd' heq => ?_
          rw [← Except.ok.inj heq]
          exact hos

/-! ## Checking -/

/-- The verdicts with which a daemon goes on as the owner. -/
def Believes : LockIntegrity → Prop
  | .ok | .relocked => True
  | _ => False

/-- What was read through a descriptor names no other daemon. -/
def Harmless (own : HolderInfo) : Option (List Char) → Prop
  | none => True
  | some text => ∀ found, HolderInfo.parse text = some found → sameHolder found own = true

/-- The record was read since the lock was taken, and found harmless. -/
def Vetted (own : HolderInfo) (fd : Fd) (os : Os) : Prop :=
  ∃ x, os.read fd = some x ∧ Harmless own x

/-- Behind the `lstat`: what it saw, and that no file of this daemon came to the path
since, unless it was seen there. -/
structure Looking (q : Prop) (n : Nat) (held : Fd) (h : FileId) (a : Option FileId) (os : Os) : Prop
    extends Holding n held h os where
  seen : os.seen n = some a
  back : ∀ i, os.path = some i → os.Has n i → a = some i
  stays : q → ∀ i, a = some i → os.path = some i

theorem Looking.stable {a : Option FileId} : Prog.Stable (Rely q n) (Looking q n held h a) := by
  intro os os' hr hl
  refine ⟨Holding.stable _ _ hr hl.toHolding, hr.seen.trans hl.seen, ?_, ?_⟩
  · rintro i hi ⟨fd, hfd⟩
    have hhas : os.Has n i := ⟨fd, (hr.fds fd i).mp hfd⟩
    by_cases hpath : os.path = some i
    · exact hl.back i hpath hhas
    · exact hr.watch a i hl.seen hi hpath hhas
  · exact fun hq i hi => hr.quiet hq i (hl.stays hq i hi)

/-- The file at the path, opened: it is not the held one. -/
structure Opened (q : Prop) (n : Nat) (held : Fd) (h : FileId) (fd : Fd) (i : FileId) (os : Os) :
    Prop extends Holding n held h os where
  fds : os.fds fd = some ⟨i, n⟩
  ne : fd ≠ held
  other : i ≠ h
  stays : q → os.path = some i

theorem Opened.stable : Prog.Stable (Rely q n) (Opened q n held h fd i) :=
  fun _ _ hr ho => ⟨Holding.stable _ _ hr ho.toHolding, (hr.fds fd i).mpr ho.fds, ho.ne, ho.other,
    fun hq => hr.quiet hq i (ho.stays hq)⟩

/-- The same, with its lock. -/
structure Taken (q : Prop) (n : Nat) (held : Fd) (h : FileId) (fd : Fd) (i : FileId) (os : Os) :
    Prop extends Opened q n held h fd i os where
  taken : os.locks i = some fd

theorem Taken.stable : Prog.Stable (Rely q n) (Taken q n held h fd i) :=
  fun _ _ hr ht => ⟨Opened.stable _ _ hr ht.toOpened, (hr.locks fd i i ht.fds).mpr ht.taken⟩

/-- The same, with its record read and found harmless. -/
structure Judged (q : Prop) (n : Nat) (own : HolderInfo) (held : Fd) (h : FileId) (fd : Fd)
    (i : FileId) (os : Os) : Prop extends Taken q n held h fd i os where
  vetted : Vetted own fd os

variable {own : HolderInfo}

theorem Judged.stable : Prog.Stable (Rely q n) (Judged q n own held h fd i) := by
  rintro _ _ hr ⟨ht, x, hx, hharm⟩
  exact ⟨Taken.stable _ _ hr ht, x, (hr.read fd i ht.fds).trans hx, hharm⟩

theorem Holding.closed (hh : Holding n held h os) (hne : fd ≠ held) :
    Holding n held h (os.closed fd) := by
  refine ⟨hh.sound.closed fd, (update_of_ne hne.symm ..).trans hh.locked.1, ?_⟩
  have hl : os.locks h ≠ some fd := by
    rw [hh.locked.2]
    exact fun heq => hne (Option.some.inj heq).symm
  exact (if_neg hl).trans hh.locked.2

/-- What a check leaves: the daemon has the lock of a file, that of the path if it
believes so undisturbed; and a file it changed to was read and found harmless. -/
structure Checked (q : Prop) (n : Nat) (own : HolderInfo) (held : HeldLock)
    (x : LockIntegrity × HeldLock) (os : Os) : Prop where
  plain : x.2.aliases = []
  holding : ∃ i, Holding n x.2.file i os ∧ (q → Believes x.1 → os.path = some i)
  changed : x.2 = held ∨ Vetted own x.2.file os

/-- Where a check writes. -/
def MayAdopt (n : Nat) (own : HolderInfo) (held : Fd) (fd : Fd) (os : Os) : Prop :=
  fd ≠ held ∧ (∃ i, os.Locked n fd i) ∧ Vetted own fd os

/-- What `recreate_lock` leaves when it returns. -/
def Remade (q : Prop) (n : Nat) (own : HolderInfo) (held : Fd) (h : FileId) :
    Recreated → Os → Prop
  | .sameFile _, _ => False
  | .locked fd, os => ∃ i, Judged q n own held h fd i os
  | .verdict v, os => ¬Believes v ∧ Holding n held h os

theorem not_believes_integrityError (e : LockError) : ¬Believes (integrityError e) := by
  cases e with
  | io source => cases source <;> exact id
  | held _ => exact id
  | unsupported _ => exact id
  | unsafeFile _ => exact id

theorem giveUp_runs (ho : Opened q n held h fd i os) {v : LockIntegrity} (hv : ¬Believes v) :
    Runs q n euid W (giveUp fd v) (Remade q n own held h) os := by
  refine Runs.ask Opened.stable ho (fun _ _ => trivial) ?_
  intro os _ _ _ ho ans
  cases ans
  exact .ret Holding.stable (ho.toHolding.closed ho.ne) fun _ hh => ⟨hv, hh⟩

theorem adopt_runs (hj : Judged q n own held h fd i os) :
    Runs q n euid (MayAdopt n own held) (adopt euid fd own) (Remade q n own held h) os := by
  refine Runs.bind (vetLockFile_runs Judged.stable hj fd) fun r os hj => ?_
  cases r with
  | error e => exact giveUp_runs hj.toOpened (not_believes_integrityError e)
  | ok _ =>
    refine Runs.bind (writeRecord_runs Judged.stable ?_ ?_ hj own) fun _ os hj => ?_
    · exact fun os files hj => ⟨⟨⟨hj.toHolding.setFiles files, hj.fds, hj.ne, hj.other, hj.stays⟩,
        hj.taken⟩, hj.vetted⟩
    · exact fun os hj => ⟨hj.ne, ⟨i, hj.fds, hj.taken⟩, hj.vetted⟩
    · exact .ret Judged.stable hj fun _ hj => ⟨i, hj⟩

theorem inspect_runs (ho : Opened q n held h fd i os) :
    Runs q n euid (MayAdopt n own held) (inspect euid fd own) (Remade q n own held h) os := by
  refine Runs.bind (takeLock_runs Opened.stable ho (J := Taken q n held h fd i) Taken.stable
    ?_ ?_ ?_) fun r os hos => ?_
  · exact fun os x ho => ⟨ho.toHolding.setRead _, ho.fds, ho.ne, ho.other, ho.stays⟩
  · intro os j ho hj hl
    obtain ⟨rfl, -⟩ := fds_inj hj ho.fds
    exact ⟨ho, hl⟩
  · intro os j ho hj hl
    obtain ⟨rfl, -⟩ := fds_inj hj ho.fds
    have hheld : (os.lockedBy j fd).locks h = os.locks h := update_of_ne ho.other.symm ..
    exact ⟨⟨⟨ho.sound.lockedBy hj, ho.locked.1, hheld.trans ho.locked.2⟩, ho.fds, ho.ne, ho.other,
      ho.stays⟩, (Os.lockedBy_locked hj).2⟩
  · cases r with
    | error e =>
      cases e with
      | held holder => exact giveUp_runs hos id
      | unsupported _ | io _ | unsafeFile _ => exact giveUp_runs hos (not_believes_integrityError _)
    | ok _ =>
      -- what `readHolder` returns is what the descriptor now carries the trace of
      refine Runs.bind (readHolder_runs Taken.stable hos (K := fun found os =>
        Taken q n held h fd i os ∧ ∃ x, os.read fd = some x ∧
          x.bind HolderInfo.parse = found) ?_ ?_ ?_) fun found os hos => ?_
      · rintro found _ _ hr ⟨ht, x, hx, hfound⟩
        exact ⟨Taken.stable _ _ hr ht, x, (hr.read fd i ht.fds).trans hx, hfound⟩
      · exact fun os j text ht _ _ => ⟨⟨⟨ht.toHolding.setRead _, ht.fds, ht.ne, ht.other, ht.stays⟩,
          ht.taken⟩, some text, update_self .., rfl⟩
      · exact fun os ht => ⟨⟨⟨ht.toHolding.setRead _, ht.fds, ht.ne, ht.other, ht.stays⟩, ht.taken⟩,
          none, update_self .., rfl⟩
      obtain ⟨ht, x, hx, hfound⟩ := hos
      have hharm : (∀ f, found = some f → sameHolder f own = true) → Vetted own fd os := by
        intro hsame
        refine ⟨x, hx, ?_⟩
        cases x with
        | none => trivial
        | some text => exact fun f hf => hsame f (hfound.symm.trans hf)
      cases found with
      | none => exact adopt_runs ⟨ht, hharm (by simp)⟩
      | some f =>
        dsimp only
        split
        next hsame =>
          refine adopt_runs ⟨ht, hharm ?_⟩
          intro f' heq
          rw [← Option.some.inj heq]
          exact hsame
        · exact giveUp_runs ht.toOpened id

theorem recreateLock_runs {a : Option FileId} (hl : Looking q n held h a os) (ha : a ≠ some h) :
    Runs q n euid (MayAdopt n own held) (recreateLock euid a.isNone h own)
      (Remade q n own held h) os := by
  have hopened : ∀ fd, Prog.Stable (Rely q n) fun os => ∃ i, Opened q n held h fd i os :=
    fun fd _ _ hr hos => hos.imp fun i hi => Opened.stable _ _ hr hi
  have hheld : ∀ {os : Os}, Looking q n held h a os → os.nextFd ≠ held :=
    fun hl heq => absurd (hl.sound.bound hl.locked.1) (by rw [heq]; exact lt_irrefl _)
  refine Runs.bind (openLockPath_runs Looking.stable hl (J := Holding n held h) Holding.stable
    hopened ?_ ?_ ?_) fun r os hos => ?_
  · intro os i hl hi _
    refine ⟨i, ⟨⟨hl.sound.opened n i, ?_, hl.locked.2⟩, os.opened_fds_new n i, hheld hl, ?_,
      fun _ => hi⟩⟩
    · exact (update_of_ne (hheld hl).symm ..).trans hl.locked.1
    · rintro rfl
      exact ha (hl.back i hi ⟨held, hl.locked.1⟩)
  · intro os i hl _ _ hfree
    refine ⟨i, ⟨⟨(hl.sound.created i euid).opened n i, ?_, hl.locked.2⟩,
      (os.created i euid).opened_fds_new n i, hheld hl, ?_, fun _ => rfl⟩⟩
    · exact (update_of_ne (hheld hl).symm ..).trans hl.locked.1
    · rintro rfl
      exact hfree held (hl.sound.bound hl.locked.1) (by rw [hl.locked.1]; rfl)
  · exact fun os hl => hl.toHolding.setSeen _
  · cases r with
    | error e => exact .ret Holding.stable hos fun _ hh => ⟨not_believes_integrityError e, hh⟩
    | ok fd =>
      obtain ⟨i, ho⟩ := hos
      refine Runs.ask Opened.stable ho (fun _ _ => trivial) ?_
      intro os _ _ _ ho ans
      cases ans with
      | fstatFailed => exact giveUp_runs ho id
      | @fstat _ m hj =>
        have hne : m.id ≠ h := by
          rw [(fds_inj hj ho.fds).1]
          exact ho.other
        dsimp only
        rw [if_neg hne]
        split
        · exact giveUp_runs ho (not_believes_integrityError _)
        · exact inspect_runs ho

/-- A check of a daemon that holds the lock of a file, with no aliases. -/
theorem checkLockSlot_runs {slot : HeldLock} (hplain : slot.aliases = [])
    (hh : Holding n slot.file h os) :
    Runs q n euid (MayAdopt n own slot.file) (checkLockSlot euid slot own)
      (Checked q n own slot) os := by
  have hkeep : ∀ {v : LockIntegrity} {os : Os}, ¬Believes v → Holding n slot.file h os →
      Checked q n own slot (v, slot) os :=
    fun hv hh => ⟨hplain, ⟨h, hh, fun _ hb => absurd hb hv⟩, .inl rfl⟩
  have hlooked : ∀ {a : Option FileId} {os : Os}, Looking q n slot.file h a os →
      Runs q n euid (MayAdopt n own slot.file) (checkLockSlot.looked euid slot own a)
        (Checked q n own slot) os := by
    intro a os hl
    refine Runs.ask Looking.stable hl (fun _ _ => trivial) ?_
    intro os _ _ _ hl ans
    cases ans with
    | fstatFailed => exact .ret Looking.stable hl fun _ hl => hkeep id hl.toHolding
    | @fstat _ m hm =>
      have hmh : m.id = h := hl.file_eq hm
      refine Runs.ask Looking.stable hl (fun _ _ => trivial) ?_
      intro os _ _ _ hl ans
      cases ans with
      | locked hi hfree => exact absurd hfree (hl.not_free hi)
      | held _ _ =>
        dsimp only
        rw [hmh]
        split
        next hours =>
          -- with no aliases, what the `lstat` saw is the held file
          have ha : a = some h := by
            simpa [hplain, Option.any_eq_true] using hours
          exact .ret Looking.stable hl fun os hl =>
            ⟨hplain, ⟨h, hl.toHolding, fun hq _ => hl.stays hq h ha⟩, .inl rfl⟩
        next hours =>
          have ha : a ≠ some h := by
            rintro rfl
            exact hours (by simp)
          refine Runs.bind (recreateLock_runs hl ha) fun rec os hos => ?_
          cases rec with
          | sameFile _ => exact hos.elim
          | verdict v => exact .ret Holding.stable hos.2 fun _ hh => hkeep hos.1 hh
          | locked fd =>
            obtain ⟨i, hj⟩ := hos
            have hdone : Prog.Stable (Rely q n) fun os =>
                Holding n fd i os ∧ Vetted own fd os ∧ (q → os.path = some i) := by
              rintro _ _ hr ⟨hh, ⟨x, hx, hharm⟩, hpath⟩
              exact ⟨Holding.stable _ _ hr hh, ⟨x, (hr.read fd i hh.locked.1).trans hx, hharm⟩,
                fun hq => hr.quiet hq i (hpath hq)⟩
            unfold closeAll
            rw [hplain]
            refine Runs.ask Judged.stable hj (fun _ _ => trivial) ?_
            intro os _ _ _ hj ans
            cases ans
            have hnew : Holding n fd i os := ⟨hj.sound, hj.fds, hj.taken⟩
            refine .ret hdone ⟨hnew.closed hj.ne.symm, hj.vetted, hj.stays⟩ ?_
            exact fun os hos => ⟨rfl, ⟨i, hos.1, fun hq _ => hos.2.2 hq⟩, .inr hos.2.1⟩
      | flockFailed =>
        dsimp only
        split
        · refine Runs.bind (readHolder_runs Looking.stable hl
            (K := fun _ => Holding n slot.file h) (fun _ => Holding.stable) ?_ ?_) ?_
          · exact fun os _ _ hl _ _ => hl.toHolding.setRead _
          · exact fun os hl => hl.toHolding.setRead _
          · exact fun _ os hh => .ret Holding.stable hh fun _ hh => hkeep id hh
        · exact .ret Looking.stable hl fun _ hl => hkeep id hl.toHolding
  refine Runs.ask Holding.stable hh (fun _ _ => trivial) ?_
  intro os _ _ _ hh ans
  cases ans with
  | saw hpath =>
    refine hlooked ⟨hh.setSeen _, update_self .., ?_, ?_⟩
    · exact fun j hj _ => hpath.symm.trans hj
    · exact fun _ j hj => hpath.trans hj
  | sawNone hnone =>
    refine hlooked ⟨hh.setSeen _, update_self .., ?_, ?_⟩
    · intro j hj
      exact absurd (hnone.symm.trans hj) (by simp)
    · exact fun _ j hj => absurd hj (by simp)
  | unseen hne =>
    dsimp only
    rw [if_neg hne]
    exact .ret Holding.stable (hh.setSeen _) fun _ hh => hkeep id hh

/-- Daemon `n` has the lock of the file at the path. -/
def Owns (n : Nat) (fd : Fd) (h : FileId) (os : Os) : Prop :=
  Holding n fd h os ∧ os.path = some h

theorem Owns.stable : Prog.Stable (Rely True n) (Owns n fd h) :=
  fun _ _ hr ho => ⟨Holding.stable _ _ hr ho.1, hr.quiet trivial h ho.2⟩

/-- A program that keeps the lock of the file at the path while it runs. -/
def Keeps {α : Type} (n euid : Nat) (fd : Fd) (h : FileId) (p : LockProg α)
    (post : α → Os → Prop) (os : Os) : Prop :=
  p.Sat (Steps n euid) (Rely True n) (fun _ => Owns n fd h) (fun a os => Owns n fd h os ∧ post a os)
    os

theorem Keeps.owns {α : Type} {p : LockProg α} {post : α → Os → Prop}
    (hp : Keeps n euid fd h p post os) : Owns n fd h os := by
  cases p with
  | pure a => exact hp.of_pure.1
  | call c k => exact hp.of_call.1

/-- Nobody outside touches the path: a check of the owner never looks further. -/
theorem checkLockSlot_keeps {slot : HeldLock} (ho : Owns n slot.file h os) :
    Keeps n euid slot.file h (checkLockSlot euid slot own) (fun x _ => x.2 = slot) os := by
  have hret : ∀ {v : LockIntegrity} {os : Os}, Owns n slot.file h os →
      Keeps n euid slot.file h (pure (v, slot)) (fun x _ => x.2 = slot) os :=
    fun ho => Prog.Sat.ret Owns.stable ho fun _ ho => ⟨ho, rfl⟩
  have hlooked : ∀ {os : Os}, Owns n slot.file h os →
      Keeps n euid slot.file h (checkLockSlot.looked euid slot own (some h))
        (fun x _ => x.2 = slot) os := by
    intro os ho
    refine Prog.Sat.ask Owns.stable ho fun os ho => ⟨ho, ?_⟩
    rintro r os' ⟨aux, he⟩
    cases exec_answers he with
    | fstatFailed => exact hret ho
    | @fstat _ m hm =>
      have hmh : m.id = h := ho.1.file_eq hm
      refine Prog.Sat.ask Owns.stable ho fun os ho => ⟨ho, ?_⟩
      rintro r os' ⟨aux, he⟩
      cases exec_answers he with
      | locked hi hfree => exact absurd hfree (ho.1.not_free hi)
      | held _ _ =>
        rw [if_pos (by simp [hmh])]
        exact hret ho
      | flockFailed =>
        dsimp only
        split
        · refine Prog.Sat.ask Owns.stable ho fun os ho => ⟨ho, ?_⟩
          rintro r os' ⟨aux, he⟩
          cases exec_answers he with
          | read | unread => exact hret ⟨ho.1.setRead _, ho.2⟩
        · exact hret ho
  refine Prog.Sat.ask Owns.stable ho fun os ho => ⟨ho, ?_⟩
  rintro r os' ⟨aux, he⟩
  cases exec_answers he with
  | @saw st hpath =>
    obtain rfl : st.id = h := Option.some.inj (hpath.symm.trans ho.2)
    exact hlooked ⟨ho.1.setSeen _, ho.2⟩
  | sawNone hnone => exact absurd (hnone.symm.trans ho.2) (by simp)
  | unseen hne =>
    dsimp only
    rw [if_neg hne]
    exact hret ⟨ho.1.setSeen _, ho.2⟩

end

end Weir.Lock

import Weir.Lock.Programs

/-!
# At most one daemon believes it owns the directory

Any number of daemons, in every interleaving, with the lock file deleted and
replaced at any moment. Two daemons whose last two checks fell into a time when
nobody outside touched the path both have the lock of the file there, if they
believe they own the directory, so they are one.

> `at_most_one_owner`: at most one live daemon's latest verdict is `Ok` or
> `Relocked`.

The one race left is a file put back between a check's `lstat` and its `open`
(`NoRestore`): what the `lstat` saw is then an alias of the held file for good.

> `aliased_file_has_two_owners`: the daemon that locks it believes as well.
-/

namespace Weir.Lock

open Weir.Lib Function Os

/-! ## Runs of the system -/

/-- No outsider puts a file that a daemon has open back at the path while that
daemon's check is between its `lstat`, which saw another file or none there, and
its `open`. -/
def NoRestore (s : Sys) : Move → Prop
  | .touch path _ => ∀ n a i, s.os.seen n = some a → path = some i → s.os.path ≠ some i →
      s.os.Has n i → a = some i
  | _ => True

/-- The lock path is touched only by the daemons. -/
def Untouched (_ : Sys) : Move → Prop
  | .touch _ _ => False
  | _ => True

theorem Untouched.noRestore {s : Sys} {mv : Move} (h : Untouched s mv) : NoRestore s mv := by
  cases mv <;> trivial

/-- What is known of daemon `n`. -/
def Daemon.Fine (q : Prop) (n : Nat) (d : Daemon) (os : Os) : Prop :=
  match d.phase with
  | .acquiring p => Runs q n d.euid (fun fd os => ∃ i, os.Locked n fd i) p
      (fun r os => ∀ fd, r = .ok fd → ∃ i, Holding n fd i os) os
  | .idle held => held.aliases = [] ∧ ∃ i, Holding n held.file i os
  | .checking held p => Runs q n d.euid (MayAdopt n d.record held.file) p
      (Checked q n d.record held) os
  | _ => True

section

variable {q : Prop} {n : Nat} {s s' : Sys} {mv : Move} {d d' : Daemon} {os os' : Os}

theorem Daemon.Fine.of_rely (h : d.Fine q n os) (hr : Rely q n os os') : d.Fine q n os' := by
  unfold Daemon.Fine at h ⊢
  split
  next p hp => rw [hp] at h; exact h.of_rely hr
  next held hp =>
    rw [hp] at h
    exact ⟨h.1, h.2.imp fun i hi => Holding.stable _ _ hr hi⟩
  next held p hp => rw [hp] at h; exact h.of_rely hr
  · trivial

/-- What a move of daemon `n` does to the system. -/
theorem Daemon.Goes.effect (h : d.Goes n os mv d' os') :
    Os.Effect n os os' ∨ os' = os.exited n := by
  cases h with
  | started | acquired | began => exact .inl .same
  | acquiring _ he | checking _ he => exact .inl (exec_effect he)
  | finished => exact .inl (.saw none)
  | refused | lost | exited => exact .inr rfl

theorem Sys.step_sound (h : s.step mv = some s') (hs : s.os.Sound) : s'.os.Sound := by
  cases hactor : mv.actor with
  | none =>
    cases mv with
    | touch path files => cases h; exact ⟨hs.bound, hs.open_⟩
    | _ => cases hactor
  | some n =>
    obtain ⟨d, os, rfl, hgoes⟩ := Sys.step_goes h hactor
    rcases hgoes.effect with he | rfl
    · exact he.sound hs
    · exact hs.exited n

theorem Sys.step_daemons (h : s.step mv = some s') (hn : mv.actor ≠ some n) :
    s'.daemons n = s.daemons n := by
  cases hactor : mv.actor with
  | none =>
    cases mv with
    | touch path files => cases h; rfl
    | _ => cases hactor
  | some m =>
    obtain ⟨d, os, rfl, _⟩ := Sys.step_goes h hactor
    exact update_of_ne (fun heq => hn (by rw [hactor, heq])) ..

/-- A move of one daemon, or of an outsider that restores nothing, is what the
other daemons rely on. -/
theorem Sys.step_rely (h : s.step mv = some s') (hs : s.os.Sound) (hmv : NoRestore s mv)
    (hq : q → Untouched s mv) (hn : mv.actor ≠ some n) : Rely q n s.os s'.os := by
  cases hactor : mv.actor with
  | none =>
    cases mv with
    | touch path files =>
      cases h
      exact ⟨⟨hs.bound, hs.open_⟩, fun _ _ => Iff.rfl, fun _ _ _ _ => Iff.rfl,
        fun _ _ _ => rfl, rfl, hmv n, fun hquiet => (hq hquiet).elim⟩
    | _ => cases hactor
  | some m =>
    have hne : n ≠ m := fun heq => hn (by rw [hactor, heq])
    obtain ⟨d, os, rfl, hgoes⟩ := Sys.step_goes h hactor
    rcases hgoes.effect with he | rfl
    · exact .of_effect hne hs he
    · exact .of_exited hne hs

/-- The daemon that moves goes on as its program says. -/
theorem Daemon.Goes.fine (h : d.Goes n os mv d' os') (hs : os.Sound)
    (hfine : d.Fine q n os) : d'.Fine q n os' := by
  unfold Daemon.Fine at hfine
  cases h with
  | started => exact tryLockPath_runs _ hs
  | acquiring hp he | checking hp he =>
    rw [hp] at hfine
    exact hfine.of_call.2 _ _ ⟨_, he⟩
  | acquired hp =>
    rw [hp] at hfine
    exact ⟨rfl, hfine.of_pure _ rfl⟩
  | began hp =>
    rw [hp] at hfine
    obtain ⟨hplain, i, hi⟩ := hfine
    exact checkLockSlot_runs hplain hi
  | finished hp =>
    rw [hp] at hfine
    obtain ⟨hplain, ⟨i, hi, _⟩, _⟩ := hfine.of_pure
    exact ⟨hplain, i, hi.setSeen _⟩
  | refused | lost | exited => trivial

theorem Sys.step_fine (h : s.step mv = some s') (hs : s.os.Sound) (hn : mv.actor = some n)
    (hfine : (s.daemons n).Fine q n s.os) : (s'.daemons n).Fine q n s'.os := by
  obtain ⟨d, os, rfl, hgoes⟩ := Sys.step_goes h hn
  rw [Sys.set_daemons]
  exact hgoes.fine hs hfine

/-- What is known of every daemon in every reachable state. -/
structure Sys.Inv (s : Sys) : Prop where
  sound : s.os.Sound
  fine : ∀ n, (s.daemons n).Fine False n s.os

theorem Sys.Inv.step (hi : s.Inv) (hmv : NoRestore s mv) (h : s.step mv = some s') : s'.Inv := by
  refine ⟨Sys.step_sound h hi.sound, fun n => ?_⟩
  by_cases hn : mv.actor = some n
  · exact Sys.step_fine h hi.sound hn (hi.fine n)
  · rw [Sys.step_daemons h hn]
    exact (hi.fine n).of_rely (Sys.step_rely h hi.sound hmv False.elim hn)

theorem Sys.inv_of_run {path : Option FileId} {files : FileId → LockFile}
    (h : Run Sys.step NoRestore (Sys.init path files) s) : s.Inv :=
  h.invariant (P := Sys.Inv) (fun _ _ _ hmv hs hi => hi.step hmv hs)
    ⟨⟨fun hfd => absurd hfd (by simp [Sys.init]), fun hl => absurd hl (by simp [Sys.init])⟩,
      fun _ => trivial⟩

/-- What is known of a daemon that believes it owns the directory. -/
def Daemon.Settled (n : Nat) (d : Daemon) (os : Os) : Prop :=
  match d.phase with
  | .idle held => ∃ i, Owns n held.file i os
  | .checking held p => ∃ i, Keeps n d.euid held.file i p (fun x _ => x.2 = held) os
  | .dead => True
  | _ => False

theorem Daemon.Settled.of_rely (h : d.Settled n os)
    (hr : Rely True n os os') : d.Settled n os' := by
  unfold Daemon.Settled at h ⊢
  split
  next held hp => rw [hp] at h; exact h.imp fun i hi => Owns.stable _ _ hr hi
  next held p hp => rw [hp] at h; exact h.imp fun i hi => hi.of_rely hr
  · trivial
  next hidle hcheck hdead =>
    split at h
    next held hp => exact absurd hp (hidle held)
    next held p hp => exact absurd hp (hcheck held p)
    next hp => exact absurd hp hdead
    · exact h

/-- From `s₀` on the path is left to the daemons. -/
structure Sys.Quiet (s₀ s : Sys) : Prop where
  inv : s.Inv
  recent : ∀ n, (s₀.daemons n).checks < (s.daemons n).checks → (s.daemons n).Fine True n s.os
  settled : ∀ n v, (s₀.daemons n).checks + 2 ≤ (s.daemons n).checks →
    (s.daemons n).verdict = some v → Believes v → (s.daemons n).Settled n s.os

/-- What a daemon's own move makes of what was known since `checks` was its count of
checks: a check that began in quiet ends knowing, and the next one starts from there. -/
theorem Daemon.Goes.settled {checks : Nat} {v : LockIntegrity}
    (h : d.Goes n os mv d' os') (hrecent : checks < d.checks → d.Fine True n os)
    (hsettled : checks + 2 ≤ d.checks → d.verdict = some v → Believes v → d.Settled n os)
    (hle : checks + 2 ≤ d'.checks) (hverdict : d'.verdict = some v) (hbel : Believes v) :
    d'.Settled n os' := by
  unfold Daemon.Settled at hsettled
  cases h with
  | started => cases hverdict
  | acquiring hp | acquired hp =>
    have hnot := hsettled hle hverdict hbel
    rw [hp] at hnot
    exact hnot.elim
  | began hp =>
    have howns := hsettled hle hverdict hbel
    rw [hp] at howns
    exact howns.imp fun i hi => checkLockSlot_keeps hi
  | checking hp he =>
    have hkeeps := hsettled hle hverdict hbel
    rw [hp] at hkeeps
    exact hkeeps.imp fun i hi => hi.of_call.2 _ _ ⟨_, he⟩
  | finished hp =>
    have hfine := hrecent (Nat.lt_of_succ_lt_succ hle)
    unfold Daemon.Fine at hfine
    rw [hp] at hfine
    obtain ⟨_, ⟨i, hi, hpath⟩, _⟩ := hfine.of_pure
    cases hverdict
    exact ⟨i, hi.setSeen _, hpath trivial hbel⟩
  | refused | lost | exited => trivial

/-- A check that returned leaves nothing to judge, so it need not have begun in
quiet. -/
theorem Daemon.Goes.recent {checks : Nat}
    (h : d.Goes n os mv d' os') (hs : os.Sound) (hfine : d.Fine False n os)
    (hrecent : checks < d.checks → d.Fine True n os) (hlt : checks < d'.checks) :
    d'.Fine True n os' := by
  by_cases hbefore : checks < d.checks
  · exact h.fine hs (hrecent hbefore)
  have hnext := h.fine hs hfine
  cases h with
  | finished => exact hnext
  | started => exact absurd hlt (Nat.not_lt_zero _)
  | refused | lost | exited => trivial
  | _ => exact absurd hlt hbefore

theorem Sys.Quiet.step {s₀ : Sys} (hquiet : s₀.Quiet s) (hmv : Untouched s mv)
    (h : s.step mv = some s') : s₀.Quiet s' := by
  have hinv := hquiet.inv.step hmv.noRestore h
  have hr : ∀ n, mv.actor ≠ some n → Rely True n s.os s'.os :=
    fun n hn => Sys.step_rely h hquiet.inv.sound hmv.noRestore (fun _ => hmv) hn
  refine ⟨hinv, fun n hlt => ?_, fun n v hle hverdict hbel => ?_⟩
  · by_cases hn : mv.actor = some n
    · obtain ⟨d, os, rfl, hgoes⟩ := Sys.step_goes h hn
      rw [Sys.set_daemons] at hlt ⊢
      exact hgoes.recent hquiet.inv.sound (hquiet.inv.fine n) (hquiet.recent n) hlt
    · rw [Sys.step_daemons h hn] at hlt ⊢
      exact (hquiet.recent n hlt).of_rely (hr n hn)
  · by_cases hn : mv.actor = some n
    · obtain ⟨d, os, rfl, hgoes⟩ := Sys.step_goes h hn
      rw [Sys.set_daemons] at hle hverdict ⊢
      exact hgoes.settled (hquiet.recent n) (hquiet.settled n v) hle hverdict hbel
    · rw [Sys.step_daemons h hn] at hle hverdict ⊢
      exact (hquiet.settled n v hle hverdict hbel).of_rely (hr n hn)

/-- A live daemon that believes has the lock of the file at the path. -/
theorem Sys.Quiet.owns {s₀ : Sys} (hquiet : s₀.Quiet s) (hlive : (s.daemons n).Live)
    (hle : (s₀.daemons n).checks + 2 ≤ (s.daemons n).checks) {v : LockIntegrity}
    (hverdict : (s.daemons n).verdict = some v) (hbel : Believes v) :
    ∃ fd i, Owns n fd i s.os := by
  have hsettled := hquiet.settled n v hle hverdict hbel
  unfold Daemon.Settled at hsettled
  unfold Daemon.Live Daemon.slot at hlive
  split at hsettled
  next held hp => exact ⟨held.file, hsettled⟩
  next held p hp => exact ⟨held.file, hsettled.imp fun i hi => hi.owns⟩
  next hp => rw [hp] at hlive; cases hlive
  · exact hsettled.elim

end

/-- At most one daemon believes it owns the directory: whatever happened to the lock
path before, with nothing restored between a check's `lstat` and its `open`; once only
the daemons touch it and every live one completed two further checks, at most one
of them has `Ok` or `Relocked` as its latest verdict. -/
theorem at_most_one_owner {path : Option FileId} {files : FileId → LockFile} {s₀ s : Sys}
    (hrun : Run Sys.step NoRestore (Sys.init path files) s₀) (hquiet : Run Sys.step Untouched s₀ s)
    (hchecks : ∀ n, (s.daemons n).Live → (s₀.daemons n).checks + 2 ≤ (s.daemons n).checks)
    {n m : Nat} {v w : LockIntegrity} (hn : (s.daemons n).Live) (hm : (s.daemons m).Live)
    (hvn : (s.daemons n).verdict = some v) (hvm : (s.daemons m).verdict = some w)
    (hv : Believes v) (hw : Believes w) : n = m := by
  have hstart : s₀.Quiet s₀ :=
    ⟨Sys.inv_of_run hrun, fun n hlt => absurd hlt (lt_irrefl _), fun n v hle => by omega⟩
  have hs : s₀.Quiet s :=
    hquiet.invariant (P := s₀.Quiet) (fun _ _ _ hmv hstep hi => hi.step hmv hstep) hstart
  obtain ⟨fd, i, hi⟩ := hs.owns hn (hchecks n hn) hvn hv
  obtain ⟨fd', j, hj⟩ := hs.owns hm (hchecks m hm) hvm hw
  -- both have the lock of the file at the path, so through one descriptor
  obtain rfl : i = j := Option.some.inj (hi.2.symm.trans hj.2)
  obtain rfl : fd = fd' := Option.some.inj (hi.1.locked.2.symm.trans hj.1.locked.2)
  have hdesc := hi.1.locked.1.symm.trans hj.1.locked.1
  exact (Desc.mk.inj (Option.some.inj hdesc)).2

/-! ## Runs -/

/-- The state behind a list of moves. -/
def Sys.after (s : Sys) (moves : List Move) : Sys := (follow Sys.step s moves).getD s

theorem Sys.run_after {allowed : Sys → Move → Prop} {s : Sys} {moves : List Move}
    (hall : ∀ mv ∈ moves, ∀ s, allowed s mv) (h : (follow Sys.step s moves).isSome) :
    Run Sys.step allowed s (s.after moves) := by
  obtain ⟨t, ht⟩ := Option.isSome_iff_exists.mp h
  refine Run.of_follow hall ?_
  rw [Sys.after, ht]
  rfl

/-- Moves that are not daemon `n`'s leave it as it is. -/
theorem Sys.after_daemons {n : Nat} {moves : List Move} (hn : ∀ mv ∈ moves, mv.actor ≠ some n)
    (s : Sys) : (s.after moves).daemons n = s.daemons n := by
  unfold Sys.after
  cases hfollow : follow Sys.step s moves with
  | none => rfl
  | some t =>
    have hrun : Run Sys.step (fun _ mv => mv.actor ≠ some n) s t :=
      Run.of_follow (fun mv hmv _ => hn mv hmv) hfollow
    exact hrun.invariant (P := fun t => t.daemons n = s.daemons n)
      (fun _ _ _ hmv h hsame => (Sys.step_daemons h hmv).trans hsame) rfl

/-- A regular file of user 0 with mode 0600. -/
def plainFile (text : List Char) : LockFile := ⟨false, true, 1, 0, 0o600, text⟩

def plainStat (i : FileId) : Stat := ⟨i, true, 1, 0, 0o600⟩

/-- Daemon `n` acquires the lock on file `i` through descriptor `fd`, and its record
lands. -/
def acquires (n : Nat) (record : HolderInfo) (fd : Fd) (i : FileId) : List Move :=
  [.start n 0 record, .call n (.open .openOrCreate) (.ok fd) i,
   .call n (.fstat fd) (.ok (plainStat i)) 0, .call n (.flock fd) (.ok ()) 0,
   .call n (.fstat fd) (.ok (plainStat i)) 0, .call n (.setLen fd) (.ok ()) 0,
   .call n (.write fd record.render) (.ok ()) 0, .acquired n]

/-- A check of daemon `n` that finds file `i` at the path while it holds `h`. -/
def looks (n : Nat) (fd : Fd) (i h : FileId) : List Move :=
  [.begin n, .call n .lstat (.ok (plainStat i)) 0, .call n (.fstat fd) (.ok (plainStat h)) 0,
   .call n (.flock fd) (.ok ()) 0]

/-- A check that finds the path empty and makes file `j` there. -/
def remakes (n : Nat) (record : HolderInfo) (fd : Fd) (h : FileId) (fd' : Fd) (j : FileId) :
    List Move :=
  [.begin n, .call n .lstat (.error enoent) 0, .call n (.fstat fd) (.ok (plainStat h)) 0,
   .call n (.flock fd) (.ok ()) 0, .call n (.open .createNew) (.ok fd') j,
   .call n (.fstat fd') (.ok (plainStat j)) 0, .call n (.flock fd') (.ok ()) 0,
   .call n (.read fd') (.ok []) 0, .call n (.fstat fd') (.ok (plainStat j)) 0,
   .call n (.fstat fd') (.ok (plainStat j)) 0, .call n (.setLen fd') (.ok ()) 0,
   .call n (.write fd' record.render) (.ok ()) 0, .call n (.close fd) () 0, .finish n]

def record0 : HolderInfo := ⟨1, "h", 1, none, "", "", ""⟩

def record1 : HolderInfo := ⟨2, "h", 1, none, "", "", ""⟩

def noFiles : FileId → LockFile := fun _ => plainFile []

/-- A daemon without a move is not there. -/
theorem unborn {n : Nat} {moves moves' : List Move} (h : ∀ mv ∈ moves, mv.actor ≠ some n)
    (h' : ∀ mv ∈ moves', mv.actor ≠ some n) :
    ¬((((Sys.init none noFiles).after moves).after moves').daemons n).Live := by
  rw [Sys.after_daemons h', Sys.after_daemons h]
  nofun

/-- The lock file is deleted while daemon 0 holds it. -/
def deletedRun : Sys :=
  (Sys.init none noFiles).after (acquires 0 record0 0 1 ++ [.touch none noFiles])

/-- Daemon 0 makes the file again, and daemon 1 is refused. -/
def deletedMoves : List Move :=
  remakes 0 record0 0 1 1 2 ++
  [.start 1 0 record1, .call 1 (.open .openOrCreate) (.ok 2) 0,
   .call 1 (.fstat 2) (.ok (plainStat 2)) 0, .call 1 (.flock 2) (.error ewouldblock) 0,
   .call 1 (.read 2) (.ok record0.render) 0, .call 1 (.close 2) () 0, .acquired 1] ++
  looks 0 1 2 2 ++ [.finish 0]

/-- The theorem for a lock file that was deleted and made again: daemon 0 believes,
and nobody else does. -/
theorem at_most_one_owner_deleted :
    let s := deletedRun.after deletedMoves
    (s.daemons 0).Live ∧ (s.daemons 0).verdict = some .ok ∧
      ∀ m, (s.daemons m).Live → (s.daemons m).verdict = some .ok → m = 0 := by
  have hlive : ((deletedRun.after deletedMoves).daemons 0).Live := by
    unfold Daemon.Live
    decide +kernel
  have hverdict : ((deletedRun.after deletedMoves).daemons 0).verdict = some .ok := by
    decide +kernel
  have hrun : Run Sys.step NoRestore (Sys.init none noFiles) deletedRun :=
    Sys.run_after (by simp [acquires, NoRestore]) (by decide +kernel)
  have hquiet : Run Sys.step Untouched deletedRun (deletedRun.after deletedMoves) :=
    Sys.run_after (by simp [deletedMoves, remakes, looks, Untouched]) (by decide +kernel)
  refine ⟨hlive, hverdict, fun m hm hvm => ?_⟩
  refine at_most_one_owner hrun hquiet (fun n hn => ?_) hm hlive hvm hverdict trivial trivial
  match n with
  | 0 => decide +kernel
  | 1 => exact absurd hn (by unfold Daemon.Live; decide +kernel)
  | k + 2 =>
    exact absurd hn (unborn (by simp [acquires, Move.actor])
      (by simp [deletedMoves, remakes, looks, Move.actor]))

/-- Another file is put at the path, and the held one back between the `lstat` and the
`open` of daemon 0's check: the other file's id becomes an alias of the held one.
Then the other file is put there again, and daemon 1 locks it. -/
def aliasRun : Sys :=
  (Sys.init none noFiles).after
    (acquires 0 record0 0 1 ++ [.touch (some 2) noFiles] ++ looks 0 0 2 1 ++
      [.touch (some 1) noFiles, .call 0 (.open .existing) (.ok 1) 0,
       .call 0 (.fstat 1) (.ok (plainStat 1)) 0, .finish 0, .touch (some 2) noFiles] ++
      acquires 1 record1 2 2)

def aliasMoves : List Move :=
  looks 0 0 2 1 ++ [.finish 0] ++ looks 1 2 2 2 ++ [.finish 1] ++
    looks 0 0 2 1 ++ [.finish 0] ++ looks 1 2 2 2 ++ [.finish 1]

/-- Two live daemons whose latest verdict is `Ok`, each two checks into the quiet. -/
theorem aliased_file_has_two_owners :
    ∃ s₀ s : Sys, Run Sys.step (fun _ _ => True) (Sys.init none noFiles) s₀ ∧
      Run Sys.step Untouched s₀ s ∧
      (∀ n, (s.daemons n).Live → (s₀.daemons n).checks + 2 ≤ (s.daemons n).checks) ∧
      (s.daemons 0).Live ∧ (s.daemons 0).verdict = some .ok ∧
      (s.daemons 1).Live ∧ (s.daemons 1).verdict = some .ok := by
  refine ⟨aliasRun, aliasRun.after aliasMoves, Sys.run_after (by simp) (by decide +kernel),
    Sys.run_after (by simp [aliasMoves, looks, Untouched]) (by decide +kernel), fun n hn => ?_,
    by unfold Daemon.Live; decide +kernel, by decide +kernel,
    by unfold Daemon.Live; decide +kernel, by decide +kernel⟩
  match n with
  | 0 => decide +kernel
  | 1 => decide +kernel
  | k + 2 =>
    exact absurd hn (unborn (by simp [acquires, looks, Move.actor])
      (by simp [aliasMoves, looks, Move.actor]))

end Weir.Lock

import Weir.Lock.Ownership

/-!
# A past second owner is not overlooked

Daemon `a` holds the lock of a file that is no longer at the path, and daemon `b`
takes the lock of the file that is. From then on nobody else writes that file. While
`b` lives `a` cannot lock it; once `b` is gone, what is left of it is its record.

> `past_owner_not_overlooked`: if that record was written and can be read, no check
> of `a` that begins after `b` took the lock returns `Ok` or `Relocked`.

> `failed_write_is_overlooked`: `write_record` ignores that a write fails, and then
> `a` goes on.
-/

namespace Weir.Lock

open Weir.Lib Function Os

/-! ## What calls leave alone -/

section

variable {n m euid aux : Nat} {os os' : Os} {x i : FileId} {fd : Fd} {W : Fd → Os → Prop}

theorem WritesOnly.mono {W' : Fd → Os → Prop} {c : Call} (hW : ∀ fd, W fd os → W' fd os)
    (h : WritesOnly W c os) : WritesOnly W' c os := by
  cases c with
  | setLen fd | write fd text => exact hW fd h
  | _ => trivial

theorem text_setText_ne (h : i ≠ x) (text : List Char) :
    ((os.setText i text).files x).text = (os.files x).text := by
  rw [show (os.setText i text).files x = os.files x from update_of_ne (Ne.symm h) ..]

theorem text_setText (text : List Char) : ((os.setText x text).files x).text = text := by
  rw [show (os.setText x text).files x = _ from update_self ..]

/-- Nothing but a write changes what is in a file that is at the path. -/
theorem exec_text {c : Call} {r : Reply c} (h : os.exec n euid aux c r = some os')
    (hpath : os.path = some x) (hw : WritesOnly (fun fd os => os.fds fd ≠ some ⟨x, n⟩) c os) :
    (os'.files x).text = (os.files x).text := by
  have hne : ∀ {fd : Fd} {i : FileId}, os.fds fd ≠ some ⟨x, n⟩ → os.fds fd = some ⟨i, n⟩ →
      i ≠ x := by
    rintro fd i hx hi rfl
    exact hx hi
  cases exec_answers h with
  | created hnone => exact absurd (hpath.symm.trans hnone) (by simp)
  | @chmod _ i =>
    by_cases hix : x = i
    · subst hix
      dsimp only
      rw [update_self]
    · dsimp only
      rw [update_of_ne hix]
  | cleared hi | wrote hi | tore hi => exact text_setText_ne (hne hw hi) _
  | _ => rfl

theorem Os.Effect.path_stays (h : Effect m os os') (hpath : os.path = some x) :
    os'.path = some x := by
  cases h with
  | keep hsame => exact hsame.trans hpath
  | opened | locked | closed => exact hpath
  | created hnone => exact absurd (hpath.symm.trans hnone) (by simp)

theorem Os.Effect.nextFd_le (h : Effect m os os') : os.nextFd ≤ os'.nextFd := by
  cases h with
  | keep _ _ hnext => exact le_of_eq hnext.symm
  | opened | created => exact Nat.le_succ _
  | locked | closed => exact le_rfl

/-- A descriptor number is given once. -/
theorem Os.Effect.fds_old (h : Effect m os os') (hlt : fd < os.nextFd) {e : Desc}
    (he : os'.fds fd = some e) : os.fds fd = some e := by
  cases h with
  | keep _ hfds => rwa [hfds] at he
  | opened | created => exact (update_of_ne (ne_of_lt hlt) ..).symm.trans he
  | locked => exact he
  | @closed fd' =>
    by_cases heq : fd = fd'
    · subst heq
      rw [show (os.closed fd).fds fd = none from update_self ..] at he
      cases he
    · rwa [show (os.closed fd').fds fd = os.fds fd from update_of_ne heq ..] at he

theorem fds_exited {e : Desc} (he : (os.exited m).fds fd = some e) :
    os.fds fd = some e ∧ e.owner ≠ m := by
  dsimp only [Os.exited] at he
  split at he
  · cases he
  next hnot =>
    refine ⟨he, fun hown => hnot (fileOf_isSome.mpr ⟨e.file, ?_⟩)⟩
    rw [he, ← hown]

/-! ## The descriptor of a slot -/

/-- A descriptor that has the lock of its file as long as it is open. -/
structure Slotted (n : Nat) (fd : Fd) (os : Os) : Prop where
  lt : fd < os.nextFd
  locked : ∀ e, os.fds fd = some e → e.owner = n ∧ os.locks e.file = some fd

theorem Slotted.of_holding (h : Holding n fd i os) : Slotted n fd os := by
  refine ⟨h.sound.bound h.locked.1, fun e he => ?_⟩
  obtain rfl := Option.some.inj (h.locked.1.symm.trans he)
  exact ⟨rfl, h.locked.2⟩

theorem Slotted.effect (h : Slotted n fd os) (he : Effect m os os') : Slotted n fd os' := by
  refine ⟨lt_of_lt_of_le h.lt he.nextFd_le, fun e hfd => ?_⟩
  have hold := he.fds_old h.lt hfd
  obtain ⟨hown, hlock⟩ := h.locked e hold
  refine ⟨hown, ?_⟩
  cases he with
  | keep _ _ _ hlocks => rw [hlocks]; exact hlock
  | opened | created => exact hlock
  | @locked fd' i _ hfree =>
    have hne : e.file ≠ i := by
      rintro rfl
      exact absurd (hlock.symm.trans hfree) (by simp)
    exact (update_of_ne hne ..).trans hlock
  | @closed fd' =>
    have hne : fd ≠ fd' := by
      rintro rfl
      rw [show (os.closed fd).fds fd = none from update_self ..] at hfd
      cases hfd
    dsimp only [Os.closed]
    rw [if_neg (by rw [hlock]; exact fun heq => hne (Option.some.inj heq))]
    exact hlock

theorem Slotted.exited (h : Slotted n fd os) (m : Nat) : Slotted n fd (os.exited m) := by
  refine ⟨h.lt, fun e hfd => ?_⟩
  obtain ⟨hold, hm⟩ := fds_exited hfd
  obtain ⟨hown, hlock⟩ := h.locked e hold
  refine ⟨hown, ?_⟩
  dsimp only [Os.exited]
  rw [hlock]
  dsimp only
  rw [if_neg]
  intro hsome
  obtain ⟨j, hj⟩ := fileOf_isSome.mp hsome
  rw [hold] at hj
  exact hm (congrArg Desc.owner (Option.some.inj hj))

/-- A descriptor that is not one of file `x`. -/
structure Away (x : FileId) (fd : Fd) (os : Os) : Prop where
  lt : fd < os.nextFd
  ne : ∀ e, os.fds fd = some e → e.file ≠ x

theorem Away.effect (h : Away x fd os) (he : Effect m os os') : Away x fd os' :=
  ⟨lt_of_lt_of_le h.lt he.nextFd_le, fun e hfd => h.ne e (he.fds_old h.lt hfd)⟩

theorem Away.exited (h : Away x fd os) (m : Nat) : Away x fd (os.exited m) :=
  ⟨h.lt, fun e hfd => h.ne e (fds_exited hfd).1⟩

end

section

variable {q : Prop} {n : Nat} {d d' : Daemon} {os os' : Os} {mv : Move} {x : FileId}

/-- A slot is kept, or filled with a file that was locked and, by a check, found
harmless. -/
theorem Daemon.Goes.slot (h : d.Goes n os mv d' os') (hfine : d.Fine q n os) {held : HeldLock}
    (hslot : d'.slot = some held) :
    d.slot = some held ∨ ∃ i, Holding n held.file i os' ∧
      ((∃ p, d.phase = .acquiring p) ∨ Vetted d.record held.file os') := by
  unfold Daemon.Fine at hfine
  cases h with
  | started | acquiring | refused | lost | exited => cases hslot
  | acquired hp =>
    rw [hp] at hfine
    cases hslot
    obtain ⟨i, hi⟩ := hfine.of_pure _ rfl
    exact .inr ⟨i, hi, .inl ⟨_, hp⟩⟩
  | began hp | checking hp =>
    refine .inl ?_
    unfold Daemon.slot
    rw [hp]
    exact hslot
  | finished hp =>
    rw [hp] at hfine
    cases hslot
    obtain ⟨_, ⟨i, hi, _⟩, hsame | hvetted⟩ := hfine.of_pure
    · refine .inl ?_
      unfold Daemon.slot
      rw [hp]
      exact congrArg some hsame.symm
    · exact .inr ⟨i, hi.setSeen _, .inr hvetted⟩

theorem Sys.slotted_of_run {path : Option FileId} {files : FileId → LockFile} {s : Sys}
    (h : Run Sys.step NoRestore (Sys.init path files) s) :
    ∀ n held, (s.daemons n).slot = some held → Slotted n held.file s.os := by
  refine (h.invariant (P := fun s => s.Inv ∧ ∀ n held, (s.daemons n).slot = some held →
    Slotted n held.file s.os) ?_ ⟨Sys.inv_of_run .refl, ?_⟩).2
  · rintro s mv s' hmv hstep ⟨hinv, hslots⟩
    refine ⟨hinv.step hmv hstep, fun n held hslot => ?_⟩
    cases hactor : mv.actor with
    | none =>
      cases mv with
      | touch path files =>
        cases hstep
        exact ⟨(hslots n held hslot).lt, (hslots n held hslot).locked⟩
      | _ => cases hactor
    | some m =>
      have hkept : (s.daemons n).slot = some held → Slotted n held.file s'.os := by
        intro hold
        obtain ⟨d, os, rfl, hgoes⟩ := Sys.step_goes hstep hactor
        rcases hgoes.effect with he | rfl
        · exact (hslots n held hold).effect he
        · exact (hslots n held hold).exited m
      by_cases hnm : n = m
      · subst hnm
        obtain ⟨d, os, rfl, hgoes⟩ := Sys.step_goes hstep hactor
        rw [Sys.set_daemons] at hslot
        rcases hgoes.slot (hinv.fine n) hslot with hold | ⟨i, hi, _⟩
        · exact hkept hold
        · exact .of_holding hi
      · rw [Sys.step_daemons hstep
          (by rw [hactor]; exact fun heq => hnm (Option.some.inj heq).symm)]
          at hslot
        exact hkept hslot
  · intro n held hslot
    cases hslot

end

/-! ## After a second daemon took the lock -/

/-- From then on nobody but daemons `a` and `b` writes the file at the path, and `b`
does not exit before its acquisition returned. -/
def Alone (a b : Nat) (x : FileId) (s : Sys) : Move → Prop
  | .touch _ _ => False
  | .call n c _ _ => n = a ∨ n = b ∨ WritesOnly (fun fd os => os.fds fd ≠ some ⟨x, n⟩) c s.os
  | .exit n => n = b → (s.daemons b).Live
  | _ => True

/-- The call does not fail to write a record. -/
def Landed : (c : Call) → Reply c → Prop
  | .setLen _, .error _ => False
  | .write _ _, .error _ => False
  | _, _ => True

/-- The call does not fail to read the record of file `x` under its lock. -/
def Legible (x : FileId) (os : Os) : (c : Call) → Reply c → Prop
  | .read fd, .error _ => os.locks x ≠ some fd
  | _, _ => True

/-- The record of `b` is written, and `a` can read it. -/
def Recorded (a b : Nat) (x : FileId) (s : Sys) : Move → Prop
  | .call n c r _ => (n = b → Landed c r) ∧ (n = a → Legible x s.os c r)
  | _ => True

section

variable {n m euid aux : Nat} {os os' : Os} {x i : FileId} {fd : Fd} {d d' : Daemon} {mv : Move}
  {own : HolderInfo}

/-- What others do to a daemon that watches over file `x`. -/
structure Undisturbed (n : Nat) (x : FileId) (os os' : Os) : Prop extends Rely True n os os' where
  text : (os'.files x).text = (os.files x).text

/-- `p` keeps the lock of the file at the path, as long as it does not fail to write. -/
def Records {α : Type} (n euid : Nat) (fd : Fd) (x : FileId) (p : LockProg α)
    (post : α → Os → Prop) (os : Os) : Prop :=
  p.Sat (fun c os r os' => Steps n euid c os r os' ∧ Landed c r) (Undisturbed n x)
    (fun _ => Owns n fd x) (fun a os => Owns n fd x os ∧ post a os) os

theorem Records.owns {α : Type} {p : LockProg α} {post : α → Os → Prop}
    (h : Records n euid fd x p post os) : Owns n fd x os := by
  cases p with
  | pure a => exact h.of_pure.1
  | call c k => exact h.of_call.1

theorem Owns.setFiles (h : Owns n fd x os) (files : FileId → LockFile) :
    Owns n fd x { os with files := files } := ⟨h.1.setFiles files, h.2⟩

theorem stable_owns : Prog.Stable (Undisturbed n x) (Owns n fd x) :=
  fun _ _ hr ho => Owns.stable _ _ hr.toRely ho

theorem stable_text (text : List Char) :
    Prog.Stable (Undisturbed n x) (fun os => Owns n fd x os ∧ (os.files x).text = text) :=
  fun _ _ hr h => ⟨stable_owns _ _ hr h.1, hr.text.trans h.2⟩

variable {record : HolderInfo}

/-- Whatever becomes of the `fstat` and the `chmod`, the record is what the file holds
then. -/
theorem writeRecord_records (ho : Owns n fd x os) :
    Records n euid fd x (writeRecord fd record) (fun _ os => (os.files x).text = record.render)
      os := by
  have hwrite : ∀ {os : Os}, Owns n fd x os →
      Records n euid fd x (replaceRecord fd record)
        (fun _ os => (os.files x).text = record.render) os := by
    intro os ho
    refine Prog.Sat.ask stable_owns ho fun os ho => ⟨ho, ?_⟩
    rintro r os' ⟨⟨aux, he⟩, hlanded⟩
    cases exec_answers he with
    | setLenFailed => exact hlanded.elim
    | cleared hi =>
      obtain rfl := ho.1.file_eq hi
      refine Prog.Sat.ask (stable_text []) ⟨ho.setFiles _, text_setText _⟩ fun os h => ⟨h.1, ?_⟩
      rintro r os' ⟨⟨aux, he⟩, hlanded⟩
      cases exec_answers he with
      | tore _ => exact hlanded.elim
      | wrote hj =>
        obtain rfl := h.1.1.file_eq hj
        refine Prog.Sat.ret (stable_text record.render) ⟨h.1.setFiles _, ?_⟩ fun os h => h
        rw [text_setText, h.2, List.drop_nil, List.append_nil]
  refine Prog.Sat.ask stable_owns ho fun os ho => ⟨ho, ?_⟩
  rintro r os' ⟨⟨aux, he⟩, _⟩
  cases exec_answers he with
  | fstatFailed => exact hwrite ho
  | @fstat _ m _ =>
    by_cases hmode : m.mode ≠ 0o600
    · simp only [hmode, ne_eq, not_false_eq_true, if_true]
      refine Prog.Sat.ask stable_owns ho fun os ho => ⟨ho, ?_⟩
      rintro r os' ⟨⟨aux, he⟩, _⟩
      cases exec_answers he with
      | chmodFailed => exact hwrite ho
      | chmod => exact hwrite (ho.setFiles _)
    · simp only [hmode, if_false]
      exact hwrite ho

/-- What an acquisition leaves: the lock it took, and its record. -/
def Kept (fd : Fd) (x : FileId) (record : HolderInfo) (r : Except LockError Fd) (os : Os) : Prop :=
  r = .ok fd ∧ (os.files x).text = record.render

theorem keepLock_records (ho : Owns n fd x os) :
    Records n euid fd x (keepLock fd record) (Kept fd x record) os :=
  Prog.Sat.bind ((writeRecord_records ho).mono fun _ _ h =>
    Prog.Sat.ret (stable_text record.render) h fun _ h => ⟨h.1, rfl, h.2⟩)

/-- The daemon that took the lock of file `x` at the path. -/
structure Daemon.Entered (n : Nat) (record : HolderInfo) (fd : Fd) (x : FileId) (d : Daemon)
    (os : Os) : Prop where
  acquiring : ∀ p, d.phase = .acquiring p → Records n d.euid fd x p (Kept fd x record) os
  idle : ∀ held, d.phase = .idle held → held.file = fd ∧ Owns n fd x os
  checking : ∀ held p, d.phase = .checking held p →
    held.file = fd ∧ Keeps n d.euid fd x p (fun y _ => y.2 = held) os
  born : d.phase ≠ .unborn
  text : (∀ p, d.phase ≠ .acquiring p) → (os.files x).text = record.render

theorem Daemon.Entered.owns (h : d.Entered n record fd x os) :
    Owns n fd x os ∨ d.phase = .dead := by
  cases hp : d.phase with
  | unborn => exact absurd hp h.born
  | acquiring p => exact .inl (h.acquiring p hp).owns
  | idle held => exact .inl (h.idle held hp).2
  | checking held p => exact .inl (h.checking held p hp).2.owns
  | dead => exact .inr rfl

theorem Daemon.Entered.of_rely (h : d.Entered n record fd x os)
    (hr : Undisturbed n x os os') : d.Entered n record fd x os' where
  acquiring p hp := (h.acquiring p hp).of_rely hr
  idle held hp := ⟨(h.idle held hp).1, Owns.stable _ _ hr.toRely (h.idle held hp).2⟩
  checking held p hp := ⟨(h.checking held p hp).1, (h.checking held p hp).2.of_rely hr.toRely⟩
  born := h.born
  text hp := hr.text.trans (h.text hp)

/-- A check writes no file whose lock its daemon has in the slot. -/
theorem Daemon.Fine.writes_away {held : HeldLock} {c : Call}
    {k : Reply c → LockProg (LockIntegrity × HeldLock)} (hfine : d.Fine False n os)
    (hp : d.phase = .checking held (.call c k)) (ho : Owns n held.file x os) :
    WritesOnly (fun fd os => os.fds fd ≠ some ⟨x, n⟩) c os := by
  unfold Daemon.Fine at hfine
  rw [hp] at hfine
  refine hfine.of_call.1.mono ?_
  rintro fd' ⟨hne, ⟨i, hfd, hlock⟩, _⟩ hx
  obtain ⟨rfl, -⟩ := fds_inj hfd hx
  exact hne (Option.some.inj (hlock.symm.trans ho.1.locked.2))

theorem Daemon.Entered.goes (h : d.Entered n record fd x os)
    (hgoes : d.Goes n os mv d' os') (hfine : d.Fine False n os)
    (hlanded : ∀ c r aux, mv = .call n c r aux → Landed c r)
    (hexit : mv = .exit n → d.Live) : d'.Entered n record fd x os' := by
  cases hgoes with
  | started hp => exact absurd hp h.born
  | acquiring hp he =>
    have hnext := (h.acquiring _ hp).of_call.2 _ _ ⟨⟨_, he⟩, hlanded _ _ _ rfl⟩
    refine ⟨?_, by simp, by simp, by simp, fun hnot => absurd rfl (hnot _)⟩
    rintro p hp'
    obtain rfl := Phase.acquiring.inj hp'
    exact hnext
  | acquired hp =>
    obtain ⟨ho, hfd, htext⟩ := (h.acquiring _ hp).of_pure
    refine ⟨by simp, ?_, by simp, by simp, fun _ => htext⟩
    rintro held hp'
    obtain rfl := Phase.idle.inj hp'
    exact ⟨Except.ok.inj hfd, ho⟩
  | refused hp => exact absurd (h.acquiring _ hp).of_pure.2.1 (by simp)
  | began hp =>
    obtain ⟨rfl, ho⟩ := h.idle _ hp
    refine ⟨by simp, by simp, ?_, by simp, fun _ => h.text (by simp [hp])⟩
    rintro held p hp'
    obtain ⟨rfl, rfl⟩ := Phase.checking.inj hp'
    exact ⟨rfl, checkLockSlot_keeps ho⟩
  | checking hp he =>
    obtain ⟨rfl, hkeeps⟩ := h.checking _ _ hp
    refine ⟨by simp, by simp, ?_, by simp, fun _ => ?_⟩
    · rintro held p hp'
      obtain ⟨rfl, rfl⟩ := Phase.checking.inj hp'
      exact ⟨rfl, hkeeps.of_call.2 _ _ ⟨_, he⟩⟩
    · have hw := hfine.writes_away hp hkeeps.owns
      exact (exec_text he hkeeps.owns.2 hw).trans (h.text (by simp [hp]))
  | finished hp =>
    obtain ⟨rfl, hkeeps⟩ := h.checking _ _ hp
    obtain ⟨ho, hsame⟩ := hkeeps.of_pure
    refine ⟨by simp, ?_, by simp, by simp, fun _ => h.text (by simp [hp])⟩
    rintro held hp'
    obtain rfl := Phase.idle.inj hp'
    exact ⟨congrArg HeldLock.file hsame, ho.1.setSeen _, ho.2⟩
  | lost hp =>
    exact ⟨by simp, by simp, by simp, by simp, fun _ => h.text (by simp [hp])⟩
  | exited =>
    refine ⟨by simp, by simp, by simp, by simp, fun _ => h.text fun p hp => ?_⟩
    have hlive := hexit rfl
    unfold Daemon.Live Daemon.slot at hlive
    rw [hp] at hlive
    cases hlive

/-- The daemon whose lock is not that of file `x`. -/
structure Daemon.Displaced (own : HolderInfo) (x : FileId) (d : Daemon) (os : Os) : Prop where
  record : d.record = own
  acquired : ∀ p, d.phase ≠ .acquiring p
  born : d.phase ≠ .unborn
  away : ∀ held, d.slot = some held → Away x held.file os

theorem Daemon.Displaced.of_effect (h : d.Displaced own x os)
    (he : Effect m os os' ∨ os' = os.exited m) : d.Displaced own x os' := by
  refine ⟨h.record, h.acquired, h.born, fun held hslot => ?_⟩
  rcases he with he | rfl
  · exact (h.away held hslot).effect he
  · exact (h.away held hslot).exited m

theorem Daemon.Displaced.goes (h : d.Displaced own x os) (hgoes : d.Goes n os mv d' os')
    (hfine : d.Fine False n os)
    (hnot : ∀ fd, os'.Locked n fd x → ¬Vetted own fd os') : d'.Displaced own x os' := by
  have haway : ∀ held, d'.slot = some held → Away x held.file os' := by
    intro held hslot
    rcases hgoes.slot hfine hslot with hold | ⟨i, hi, ⟨p, hp⟩ | hvetted⟩
    · exact (h.of_effect hgoes.effect).away held hold
    · exact absurd hp (h.acquired p)
    refine ⟨hi.sound.bound hi.locked.1, fun e he hx => ?_⟩
    obtain rfl := Option.some.inj (hi.locked.1.symm.trans he)
    obtain rfl : i = x := hx
    exact hnot _ hi.locked (h.record ▸ hvetted)
  cases hgoes with
  | started hp => exact absurd hp h.born
  | acquiring hp | acquired hp | refused hp => exact absurd hp (h.acquired _)
  | _ => exact ⟨h.record, by simp, by simp, haway⟩

/-- What daemon `n` read of file `x` since it took the lock is what is in it. -/
def Unread (n : Nat) (x : FileId) (os : Os) : Prop :=
  ∀ fd, os.Locked n fd x →
    os.read fd = none ∨ os.read fd = some (some (firstBytes (os.files x).text))

theorem Unread.of_rely (h : Unread n x os) (hr : Undisturbed n x os os') : Unread n x os' := by
  rintro fd ⟨hfd, hlock⟩
  have hold : os.fds fd = some ⟨x, n⟩ := (hr.fds fd x).mp hfd
  rw [hr.read fd x hold, hr.text]
  exact h fd ⟨hold, (hr.locks fd x x hold).mp hlock⟩

theorem Unread.exec {c : Call} {r : Reply c} (h : Unread n x os)
    (he : os.exec n euid aux c r = some os') (hlegible : Legible x os c r)
    (htext : (os'.files x).text = (os.files x).text) : Unread n x os' := by
  intro fd hfd
  rw [htext]
  cases exec_answers he with
  | opened | created =>
    by_cases hnew : fd = os.nextFd
    · subst hnew; exact .inl (update_self ..)
    · refine (h fd ⟨(update_of_ne hnew ..).symm.trans hfd.1, hfd.2⟩).imp ?_ ?_
      · exact (update_of_ne hnew ..).trans
      · exact (update_of_ne hnew ..).trans
  | @locked fd' i =>
    by_cases hnew : fd = fd'
    · subst hnew; exact .inl (update_self ..)
    rw [show (os.lockedBy i fd').read fd = os.read fd from update_of_ne hnew ..]
    refine h fd ⟨hfd.1, ?_⟩
    have hlock := hfd.2
    by_cases hix : x = i
    · subst hix
      rw [show (os.lockedBy x fd').locks x = some fd' from update_self ..] at hlock
      exact absurd (Option.some.inj hlock).symm hnew
    · rwa [show (os.lockedBy i fd').locks x = os.locks x from update_of_ne hix ..] at hlock
  | @read fd' i hi =>
    by_cases hsame : fd = fd'
    · subst hsame
      obtain ⟨rfl, -⟩ := fds_inj hi hfd.1
      exact .inr (update_self ..)
    · dsimp only
      rw [update_of_ne hsame]
      exact h fd hfd
  | @unread fd' =>
    have hother : fd ≠ fd' := by
      rintro rfl
      exact hlegible hfd.2
    dsimp only
    rw [update_of_ne hother]
    exact h fd hfd
  | @close fd' =>
    have hother : fd ≠ fd' := by
      rintro rfl
      have hnone := hfd.1
      rw [show (os.closed fd).fds fd = none from update_self ..] at hnone
      cases hnone
    refine h fd ⟨(update_of_ne hother ..).symm.trans hfd.1, ?_⟩
    have hlock := hfd.2
    dsimp only [Os.closed] at hlock
    split at hlock
    · cases hlock
    · exact hlock
  | _ => exact h fd hfd

theorem Unread.exited (n : Nat) (x : FileId) (os : Os) : Unread n x (os.exited n) :=
  fun _ hfd => absurd rfl (fds_exited hfd.1).2

/-- A move writes no other file than the moved daemon's calls do. -/
theorem Daemon.Goes.text (h : d.Goes n os mv d' os') (hpath : os.path = some x)
    (hw : ∀ c r aux, mv = .call n c r aux →
      WritesOnly (fun fd os => os.fds fd ≠ some ⟨x, n⟩) c os) :
    (os'.files x).text = (os.files x).text := by
  cases h with
  | acquiring _ he | checking _ he => exact exec_text he hpath (hw _ _ _ rfl)
  | _ => rfl

theorem Daemon.Displaced.writes_away (h : d.Displaced own x os) (hgoes : d.Goes n os mv d' os')
    (hfine : d.Fine False n os) (hnot : ∀ fd, os.Locked n fd x → ¬Vetted own fd os) :
    ∀ c r aux, mv = .call n c r aux →
      WritesOnly (fun fd os => os.fds fd ≠ some ⟨x, n⟩) c os := by
  rintro c r aux rfl
  cases hgoes with
  | acquiring hp => exact absurd hp (h.acquired _)
  | checking hp =>
    unfold Daemon.Fine at hfine
    rw [hp] at hfine
    refine hfine.of_call.1.mono ?_
    rintro fd ⟨_, ⟨i, hfd, hlock⟩, hvetted⟩ hx
    obtain ⟨rfl, -⟩ := fds_inj hfd hx
    exact hnot fd ⟨hfd, hlock⟩ (h.record ▸ hvetted)

theorem Unread.goes (h : Unread n x os) (hgoes : d.Goes n os mv d' os')
    (hlegible : ∀ c r aux, mv = .call n c r aux → Legible x os c r)
    (htext : (os'.files x).text = (os.files x).text) : Unread n x os' := by
  cases hgoes with
  | acquiring _ he | checking _ he => exact h.exec he (hlegible _ _ _ rfl) htext
  | started | acquired | began => exact h
  | finished => exact h
  | refused | lost | exited => exact .exited n x os

/-- Under its lock, a daemon finds the record of the one that entered before it. -/
theorem not_vetted (hentered : d.Entered m record fd x os)
    (hunread : Unread n x os) (hnm : n ≠ m) (hown : own.Plain) (hrecord : record.Plain)
    (hne : record.ident ≠ own.ident) (fd' : Fd) (hlock : os.Locked n fd' x) :
    ¬Vetted own fd' os := by
  rintro ⟨t, ht, hharm⟩
  rcases hentered.owns with ho | hdead
  · obtain rfl : fd = fd' := Option.some.inj (ho.1.locked.2.symm.trans hlock.2)
    exact hnm (congrArg Desc.owner (Option.some.inj (hlock.1.symm.trans ho.1.locked.1)))
  rcases hunread fd' hlock with hnone | hread
  · exact absurd (hnone.symm.trans ht) (by simp)
  obtain rfl := Option.some.inj (hread.symm.trans ht)
  have hbytes : firstBytes (os.files x).text = record.render := by
    rw [hentered.text (by simp [hdead])]
    unfold firstBytes
    rw [takeBytes_of_le hrecord.fits]
    exact if_pos (.inl rfl)
  rw [hbytes] at hharm
  obtain ⟨found, hfound, _⟩ := parse_render hrecord
  have hsame := hharm found hfound
  rw [sameHolder_render hown hrecord hne hfound] at hsame
  cases hsame

end

/-- Daemon `b` took the lock of the file at the path while `a` holds another. -/
structure Overtaken (a b : Nat) (own record : HolderInfo) (fd : Fd) (x : FileId) (s : Sys) : Prop
    where
  inv : s.Inv
  path : s.os.path = some x
  displaced : (s.daemons a).Displaced own x s.os
  unread : Unread a x s.os
  entered : (s.daemons b).Entered b record fd x s.os

section

variable {a b : Nat} {own record : HolderInfo} {fd : Fd} {x : FileId} {s s' : Sys} {mv : Move}

theorem Alone.untouched (h : Alone a b x s mv) : Untouched s mv := by
  cases mv <;> trivial

theorem Alone.actor (h : Alone a b x s mv) : ∃ n, mv.actor = some n := by
  cases mv with
  | touch path files => exact h.elim
  | _ => exact ⟨_, rfl⟩

theorem Overtaken.step (h : Overtaken a b own record fd x s) (hab : a ≠ b) (hown : own.Plain)
    (hrecord : record.Plain) (hne : record.ident ≠ own.ident) (hmv : Alone a b x s mv)
    (hrec : Recorded a b x s mv) (hstep : s.step mv = some s') :
    Overtaken a b own record fd x s' := by
  have hquiet := hmv.untouched
  have hinv := h.inv.step hquiet.noRestore hstep
  obtain ⟨n, hn⟩ := hmv.actor
  have hr : ∀ m, m ≠ n → Rely True m s.os s'.os := fun m hm =>
    Sys.step_rely hstep h.inv.sound hquiet.noRestore (fun _ => hquiet)
      (by rw [hn]; exact fun heq => hm (Option.some.inj heq).symm)
  have hsame : ∀ m, m ≠ n → s'.daemons m = s.daemons m := fun m hm =>
    Sys.step_daemons hstep (by rw [hn]; exact fun heq => hm (Option.some.inj heq).symm)
  obtain ⟨d, os, rfl, hgoes⟩ := Sys.step_goes hstep hn
  have hself := s.set_daemons n d os
  have hpath : os.path = some x := by
    rcases hgoes.effect with he | rfl
    · exact he.path_stays h.path
    · exact h.path
  have hnot := not_vetted h.entered h.unread hab hown hrecord hne
  by_cases hnb : n = b
  · subst hnb
    have hentered : d.Entered n record fd x os := by
      refine h.entered.goes hgoes (h.inv.fine n) ?_ ?_
      · rintro c r aux rfl
        exact hrec.1 rfl
      · rintro rfl
        exact hmv rfl
    -- while `b` has the lock `a` has not, and a dead `b` writes nothing
    have hunread : Unread a x os := by
      rintro fd' ⟨hfd', hlock⟩
      have hfd := ((hr a hab).fds fd' x).mp hfd'
      have hold := ((hr a hab).locks fd' x x hfd).mp hlock
      rw [show os.read fd' = s.os.read fd' from (hr a hab).read fd' x hfd]
      rcases h.entered.owns with ho | hdead
      · obtain rfl : fd = fd' := Option.some.inj (ho.1.locked.2.symm.trans hold)
        exact absurd (congrArg Desc.owner (Option.some.inj (hfd.symm.trans ho.1.locked.1))) hab
      have htext : (os.files x).text = (s.os.files x).text := by
        rw [h.entered.text (by simp [hdead])]
        exact hentered.text (by cases hgoes <;> simp_all)
      rw [htext]
      exact h.unread fd' ⟨hfd, hold⟩
    refine ⟨hinv, hpath, ?_, hunread, by rw [hself]; exact hentered⟩
    rw [hsame a hab]
    exact h.displaced.of_effect hgoes.effect
  · have hw : ∀ c r aux, mv = .call n c r aux →
        WritesOnly (fun fd os => os.fds fd ≠ some ⟨x, n⟩) c s.os := by
      by_cases hna : n = a
      · subst hna
        exact h.displaced.writes_away hgoes (h.inv.fine n) hnot
      rintro c r aux rfl
      rcases hmv with heq | heq | hwrites
      · exact absurd heq hna
      · exact absurd heq hnb
      · exact hwrites
    have htext : (os.files x).text = (s.os.files x).text := hgoes.text h.path hw
    have hentered : (s.daemons b).Entered b record fd x os :=
      h.entered.of_rely ⟨hr b (Ne.symm hnb), htext⟩
    by_cases hna : n = a
    · subst hna
      have hunread : Unread n x os := by
        refine h.unread.goes hgoes ?_ htext
        rintro c r aux rfl
        exact hrec.2 rfl
      have hnot' := not_vetted hentered hunread hab hown hrecord hne
      refine ⟨hinv, hpath, ?_, hunread, by rw [hsame b (Ne.symm hnb)]; exact hentered⟩
      rw [hself]
      exact h.displaced.goes hgoes (h.inv.fine n) hnot'
    · have hra := hr a (Ne.symm hna)
      refine ⟨hinv, hpath, ?_, h.unread.of_rely ⟨hra, htext⟩,
        by rw [hsame b (Ne.symm hnb)]; exact hentered⟩
      rw [hsame a (Ne.symm hna)]
      exact h.displaced.of_effect hgoes.effect

/-- The moment `b` took the lock. -/
theorem Overtaken.of_locked {path : Option FileId} {files : FileId → LockFile}
    (hrun : Run Sys.step NoRestore (Sys.init path files) s) (hab : a ≠ b)
    (hlive : (s.daemons a).Live)
    (hphase : (s.daemons b).phase = .acquiring (keepLock fd (s.daemons b).record))
    (hlock : s.os.Locked b fd x) (hpath : s.os.path = some x) :
    Overtaken a b (s.daemons a).record (s.daemons b).record fd x s := by
  have hinv := Sys.inv_of_run hrun
  obtain ⟨held, hheld⟩ := Option.isSome_iff_exists.mp hlive
  have hapart : ∀ fd', s.os.fds fd' = some ⟨x, a⟩ → s.os.locks x ≠ some fd' := by
    rintro fd' hfd' hlock'
    obtain rfl : fd = fd' := Option.some.inj (hlock.2.symm.trans hlock')
    exact hab (congrArg Desc.owner (Option.some.inj (hfd'.symm.trans hlock.1)))
  refine ⟨hinv, hpath, ⟨rfl, ?_, ?_, ?_⟩, fun fd' h => absurd h.2 (hapart fd' h.1), ?_⟩
  · intro p hp
    unfold Daemon.slot at hheld
    rw [hp] at hheld
    cases hheld
  · intro hp
    unfold Daemon.slot at hheld
    rw [hp] at hheld
    cases hheld
  · intro held hslot
    have hslotted := Sys.slotted_of_run hrun a held hslot
    refine ⟨hslotted.lt, fun e he hx => ?_⟩
    obtain ⟨rfl, hlock'⟩ := hslotted.locked e he
    subst hx
    exact hapart held.file he hlock'
  · refine ⟨?_, by simp [hphase], by simp [hphase], by simp [hphase],
      fun hnot => absurd hphase (hnot _)⟩
    intro p hp
    obtain rfl := Phase.acquiring.inj (hphase.symm.trans hp)
    exact keepLock_records ⟨⟨hinv.sound, hlock⟩, hpath⟩

/-- A check of the daemon is about to return. -/
def Daemon.Returns (d : Daemon) (v : LockIntegrity) : Prop :=
  ∃ held held', d.phase = .checking held (.pure (v, held'))

theorem Overtaken.not_believes (h : Overtaken a b own record fd x s) (hab : a ≠ b)
    (hown : own.Plain) (hrecord : record.Plain) (hne : record.ident ≠ own.ident)
    (hfine : (s.daemons a).Fine True a s.os) {v : LockIntegrity}
    (hreturns : (s.daemons a).Returns v) : ¬Believes v := by
  intro hbel
  obtain ⟨held, held', hp⟩ := hreturns
  unfold Daemon.Fine at hfine
  rw [hp] at hfine
  obtain ⟨_, ⟨i, hi, hpath⟩, hchanged⟩ := hfine.of_pure
  obtain rfl : i = x := Option.some.inj ((hpath trivial hbel).symm.trans h.path)
  rcases hchanged with hsame | hvetted
  · obtain rfl : held' = held := hsame
    have hslot : (s.daemons a).slot = some held' := by
      unfold Daemon.slot
      rw [hp]
    exact (h.displaced.away held' hslot).ne _ hi.locked.1 rfl
  · exact not_vetted h.entered h.unread hab hown hrecord hne _ hi.locked
      (h.displaced.record ▸ hvetted)

end

/-- A past second owner is not overlooked: `b` takes the lock of the file at the path
while `a` lives, and nobody else writes that file from then on. If the record of `b`
lands and `a` can read it, no check of `a` that begins after that returns `Ok` or
`Relocked`, whether `b` still lives or not. -/
theorem past_owner_not_overlooked {path : Option FileId} {files : FileId → LockFile}
    {s₀ s₁ s : Sys} {a b : Nat} {fd : Fd} {x : FileId}
    (hrun : Run Sys.step NoRestore (Sys.init path files) s₀) (hlive : (s₀.daemons a).Live)
    (hphase : (s₀.daemons b).phase = .acquiring (keepLock fd (s₀.daemons b).record))
    (hlock : s₀.os.Locked b fd x) (hpath : s₀.os.path = some x)
    (hown : (s₀.daemons a).record.Plain) (hrecord : (s₀.daemons b).record.Plain)
    (hne : (s₀.daemons b).record.ident ≠ (s₀.daemons a).record.ident)
    (hthen : Run Sys.step (fun s mv => Alone a b x s mv ∧ Recorded a b x s mv) s₀ s₁)
    (hidle : ∃ held, (s₁.daemons a).phase = .idle held)
    (hlater : Run Sys.step (fun s mv => Alone a b x s mv ∧ Recorded a b x s mv) s₁ s)
    {v : LockIntegrity} (hreturns : (s.daemons a).Returns v) : ¬Believes v := by
  have hab : a ≠ b := by
    rintro rfl
    unfold Daemon.Live Daemon.slot at hlive
    rw [hphase] at hlive
    cases hlive
  have hstart := Overtaken.of_locked hrun hab hlive hphase hlock hpath
  have hbetween := hthen.invariant (P := Overtaken a b _ _ fd x)
    (fun _ _ _ hmv hstep h => h.step hab hown hrecord hne hmv.1 hmv.2 hstep) hstart
  -- between two checks nothing is left of the time before
  have hfresh : (s₁.daemons a).Fine True a s₁.os := by
    obtain ⟨held, hp⟩ := hidle
    have hfine := hbetween.inv.fine a
    unfold Daemon.Fine at hfine ⊢
    rw [hp] at hfine ⊢
    exact hfine
  have hend := hlater.invariant (P := fun s => Overtaken a b (s₀.daemons a).record
    (s₀.daemons b).record fd x s ∧ (s.daemons a).Fine True a s.os) ?_ ⟨hbetween, hfresh⟩
  · exact hend.1.not_believes hab hown hrecord hne hend.2 hreturns
  rintro s mv s' hmv hstep ⟨h, hfine⟩
  refine ⟨h.step hab hown hrecord hne hmv.1 hmv.2 hstep, ?_⟩
  have hquiet := hmv.1.untouched
  by_cases hn : mv.actor = some a
  · exact Sys.step_fine hstep h.inv.sound hn hfine
  · rw [Sys.step_daemons hstep hn]
    exact hfine.of_rely (Sys.step_rely hstep h.inv.sound hquiet.noRestore (fun _ => hquiet) hn)

/-- The lock file is deleted while daemon 0 holds it, and daemon 1 makes and locks
another. -/
def enteredRun : Sys :=
  (Sys.init none noFiles).after (acquires 0 record0 0 1 ++
    [.touch none noFiles, .start 1 0 record1, .call 1 (.open .openOrCreate) (.ok 1) 2,
     .call 1 (.fstat 1) (.ok (plainStat 2)) 0, .call 1 (.flock 1) (.ok ()) 0])

/-- Its record lands or not. -/
def writes (landed : Except Errno Unit) : List Move :=
  [.call 1 (.fstat 1) (.ok (plainStat 2)) 0, .call 1 (.setLen 1) (.ok ()) 0,
   .call 1 (.write 1 record1.render) landed 0, .acquired 1]

/-- Then it exits. -/
def leftRun (landed : Except Errno Unit) : Sys :=
  (enteredRun.after (writes landed)).after [.exit 1]

/-- Daemon 0 finds the new file and reads its record. -/
def finds (text : List Char) : List Move :=
  looks 0 0 2 1 ++
  [.call 0 (.open .existing) (.ok 2) 0, .call 0 (.fstat 2) (.ok (plainStat 2)) 0,
   .call 0 (.flock 2) (.ok ()) 0, .call 0 (.read 2) (.ok text) 0]

theorem enteredRun_run : Run Sys.step NoRestore (Sys.init none noFiles) enteredRun :=
  Sys.run_after (by simp [acquires, NoRestore]) (by decide +kernel)

theorem leftRun_run {landed : Except Errno Unit} {allowed : Sys → Move → Prop}
    (hw : ∀ mv ∈ writes landed, ∀ s, allowed s mv)
    (hsome : (follow Sys.step enteredRun (writes landed)).isSome)
    (hexit : allowed (enteredRun.after (writes landed)) (.exit 1))
    (hleft : (enteredRun.after (writes landed)).step (.exit 1) = some (leftRun landed)) :
    Run Sys.step allowed enteredRun (leftRun landed) :=
  .tail (Sys.run_after hw hsome) hexit hleft

/-- The host that both records name. -/
theorem host_plain : PlainText "h".toList := by
  refine ⟨fun c hc => ?_, by decide⟩
  obtain rfl : c = 'h' := by simpa using hc
  decide

theorem record0_plain : record0.Plain :=
  ⟨host_plain, fun _ h => absurd h (by simp [record0]), by decide +kernel⟩

theorem record1_plain : record1.Plain :=
  ⟨host_plain, fun _ h => absurd h (by simp [record1]), by decide +kernel⟩

/-- The theorem for a daemon that came, wrote its record and went: the next check of
daemon 0 reads it. -/
theorem past_owner_not_overlooked_left :
    let s := (leftRun (.ok ())).after (finds record1.render ++ [.call 0 (.close 2) () 0])
    (s.daemons 0).Returns (.lostToOther (some record1)) ∧
      ∀ v, (s.daemons 0).Returns v → ¬Believes v := by
  have hleft : Run Sys.step (fun s mv => Alone 0 1 2 s mv ∧ Recorded 0 1 2 s mv) enteredRun
      (leftRun (.ok ())) :=
    leftRun_run (by simp [writes, Alone, Recorded, Landed]) (by decide +kernel)
      ⟨fun _ => rfl, trivial⟩ rfl
  have hfound : Run Sys.step (fun s mv => Alone 0 1 2 s mv ∧ Recorded 0 1 2 s mv) (leftRun (.ok ()))
      ((leftRun (.ok ())).after (finds record1.render ++ [.call 0 (.close 2) () 0])) :=
    Sys.run_after (by simp [finds, looks, Alone, Recorded, Legible]) (by decide +kernel)
  refine ⟨⟨_, _, rfl⟩, fun v hv => ?_⟩
  exact past_owner_not_overlooked (a := 0) (b := 1) enteredRun_run rfl rfl ⟨rfl, rfl⟩ rfl
    record0_plain record1_plain
    (by decide) hleft ⟨_, rfl⟩ hfound hv

/-- The write of the record fails with `EIO` before a byte of it landed. `try_lock_path`
returns the lock nonetheless, the file stays empty, and the next check of daemon 0
takes it over. -/
theorem failed_write_is_overlooked :
    ∃ s₀ s₁ s : Sys, Run Sys.step NoRestore (Sys.init none noFiles) s₀ ∧ (s₀.daemons 0).Live ∧
      (s₀.daemons 1).phase = .acquiring (keepLock 1 (s₀.daemons 1).record) ∧
      s₀.os.Locked 1 1 2 ∧ s₀.os.path = some 2 ∧ (s₀.daemons 0).record.Plain ∧
      (s₀.daemons 1).record.Plain ∧
      (s₀.daemons 1).record.ident ≠ (s₀.daemons 0).record.ident ∧
      Run Sys.step (Alone 0 1 2) s₀ s₁ ∧ (∃ held, (s₁.daemons 0).phase = .idle held) ∧
      (s₁.daemons 1).phase = .dead ∧ Run Sys.step (Alone 0 1 2) s₁ s ∧
      (s.daemons 0).Returns .relocked := by
  refine ⟨enteredRun, leftRun (.error eio), (leftRun (.error eio)).after (finds [] ++
      [.call 0 (.fstat 2) (.ok (plainStat 2)) 0, .call 0 (.fstat 2) (.ok (plainStat 2)) 0,
       .call 0 (.setLen 2) (.ok ()) 0, .call 0 (.write 2 record0.render) (.ok ()) 0,
       .call 0 (.close 0) () 0]),
    enteredRun_run, rfl, rfl, ⟨rfl, rfl⟩, rfl, record0_plain, record1_plain, by decide, ?_,
    ⟨_, rfl⟩, rfl, ?_, ⟨_, _, rfl⟩⟩
  · exact leftRun_run (by simp [writes, Alone]) (by decide +kernel) (fun _ => rfl) rfl
  · exact Sys.run_after (by simp [finds, looks, Alone]) (by decide +kernel)

end Weir.Lock

import Weir.Drain.Machine
import Weir.Drain.Truncation
import Weir.Wab.Durability

/-!
# Confirming survives a crash between any two operations

The drain delivers a segment, writes its sidecar and deletes it; what fails is
retried from the ledger, and what a crash leaves half done the next scan
completes. Here one segment goes through such runs, one disk operation at a
time, on a disk where a crash loses any of the directory updates that no sync
reached, in any combination, and everything unsynced in files.

> `Safe`: in whatever names a crash may leave, the segment is there whole, or its
> sidecar is; and what is under the sidecar's name is complete.

`Ahead` says what may lie ahead of a confirm at each point, and which facts it
rests on there: that the tmp file is empty, written, synced; that the sidecar is
in place, that it is settled.

> `confirm_crash_safe`: the segment is deleted only behind a settled sidecar, and
> after any crash the next scan replays it whole, or finds it delivered.
-/

namespace Weir.Drain

open Weir.Lib Weir.Wab

/-- A segment of a shard directory. -/
structure Segment where
  dir : List String
  counter : Nat
  dir_ne : dir ≠ []

/-- Its name in a lifecycle state. -/
def Segment.path (g : Segment) (e : Ext) : Path := segPath g.dir g.counter e

/-- The bytes are a sidecar. -/
def IsSidecar (bs : Bytes) : Prop :=
  ∃ sealedAt recordCount drainedAt, bs = buildConfirmed sealedAt recordCount drainedAt

/-- The file is a sidecar, with nothing in flight. -/
def Complete (f : File) : Prop := ∃ bs, IsSidecar bs ∧ f = .settled bs

/-- No crash can take the sidecar's name away. -/
def Tombstone (g : Segment) (d : Disk Path) : Prop := d.Kept (g.path .confirmed)

/-! ## Runs -/

/-- One segment and its drain. `busy` holds what is left of the operations of a
call, and the ledger as the call leaves it. -/
structure Confirming where
  disk : Disk Path
  busy : Option (List (Op Path) × SegmentLedger)
  ledger : SegmentLedger
  delivered : Bool

/-- The bytes a process reads in the segment. -/
def Confirming.file (s : Confirming) (g : Segment) : Bytes := (s.disk.read (g.path .sealed)).getD []

inductive Confirming.Step (cfg : DrainConfig) (g : Segment) : Confirming → Confirming → Prop
  /-- An attempt delivered the segment: `confirm_and_delete`. -/
  | confirm {s : Confirming} (recordCount : Nat) (io : ConfirmIo) (hidle : s.busy = none)
      (hfree : s.ledger.confirmPending.lookup (g.path .sealed) = none) :
      Step cfg g s
        { s with
          busy := some ((confirmAndDelete (g.path .sealed) (s.file g) recordCount io).2,
            s.ledger.noteConfirmOutcome (g.path .sealed)
              (confirmAndDelete (g.path .sealed) (s.file g) recordCount io).1 recordCount)
          delivered := true }
  /-- `retry_confirms` redoes the step that failed. -/
  | retry {s : Confirming} (pending : ConfirmPending) (io : ConfirmIo) (hidle : s.busy = none)
      (hpending : s.ledger.confirmPending.lookup (g.path .sealed) = some pending) :
      Step cfg g s
        { s with
          busy := some ((retryConfirm (g.path .sealed) (s.file g) pending io).2,
            s.ledger.noteRetry (g.path .sealed) pending
              (retryConfirm (g.path .sealed) (s.file g) pending io).1) }
  /-- A scan comes to the segment: `check_confirmed`, `delete_orphan`. -/
  | scan {s : Confirming} (now : Nat) (check : CheckIo) (orphan : OrphanIo) (hidle : s.busy = none)
      (howned : s.ledger.excludes (g.path .sealed) now = false) :
      Step cfg g s
        { s with
          busy := some ((scanOne cfg ⟨g.path .sealed, s.disk.read (g.path .confirmed), check,
            orphan⟩).2, s.ledger) }
  /-- `remove_stale_confirmed_tmp`. -/
  | removeTmp {s : Confirming} (hidle : s.busy = none) :
      Step cfg g s { s with busy := some ([.unlink (g.path .confirmedTmp)], s.ledger) }
  | op {s : Confirming} {op : Op Path} {rest : List (Op Path)} {after : SegmentLedger}
      {d : Disk Path} (hbusy : s.busy = some (op :: rest, after)) (hd : s.disk.step op = some d) :
      Step cfg g s { s with disk := d, busy := some (rest, after) }
  | finish {s : Confirming} {after : SegmentLedger} (hbusy : s.busy = some ([], after)) :
      Step cfg g s { s with busy := none, ledger := after }
  /-- The drain thread panics; its ledger survives it. -/
  | panic {s : Confirming} : Step cfg g s { s with busy := none }
  /-- Another thread syncs a directory. -/
  | sync {s : Confirming} (dir : Option Path) : Step cfg g s { s with disk := s.disk.syncDir dir }
  | crash {s : Confirming} {d : Disk Path} (now : Nat) (hd : s.disk.Crash d) :
      Step cfg g s ⟨d, none, SegmentLedger.new now, s.delivered⟩

/-- A daemon that finds the sealed segment, whole and synced, with no sidecar: its
name is settled, or the rename that sealed it is still pending. -/
structure Confirming.Start (g : Segment) (file : Bytes) (inode : Nat) (s : Confirming) : Prop where
  busy : s.busy = none
  ledger : ∃ now, s.ledger = SegmentLedger.new now
  undelivered : s.delivered = false
  sound : s.disk.Sound
  segment : s.disk.files inode = .settled file
  named : ∀ m, s.disk.Possible m →
    m.lookup (g.path .sealed) = some inode ∨
    m.lookup (g.path .sealed) = none ∧ m.lookup (g.path .active) = some inode
  bare : ∀ m, s.disk.Possible m → m.lookup (g.path .confirmed) = none ∧
    m.lookup (g.path .confirmedTmp) ≠ some inode

inductive Confirming.Reach (cfg : DrainConfig) (g : Segment) (file : Bytes) (inode : Nat) :
    Confirming → Prop
  | start {s : Confirming} (h : s.Start g file inode) : Reach cfg g file inode s
  | step {s s' : Confirming} (h : Reach cfg g file inode s) (hs : s.Step cfg g s') :
      Reach cfg g file inode s'

/-! ## Safe disks -/

/-- What a safe disk says of all names a crash may leave. -/
@[mk_iff]
structure SafeNames (g : Segment) (inode : Nat) (files : Nat → File) (m : Names Path) : Prop where
  somewhere : m.lookup (g.path .sealed) = some inode ∨ m.lookup (g.path .active) = some inode ∨
    (m.lookup (g.path .confirmed)).isSome
  only : ∀ j, m.lookup (g.path .sealed) = some j → j = inode
  sidecar : ∀ j, m.lookup (g.path .confirmed) = some j → Complete (files j)
  tmp : ∀ j, m.lookup (g.path .confirmedTmp) = some j →
    j ≠ inode ∧ m.lookup (g.path .confirmed) ≠ some j

structure Safe (g : Segment) (file : Bytes) (inode : Nat) (d : Disk Path) : Prop where
  sound : d.Sound
  known : inode < d.fresh
  segment : d.files inode = .settled file
  names : ∀ m, d.Possible m → SafeNames g inode d.files m
  free : ∀ j, d.names.lookup (g.path .confirmedTmp) = some j →
    ∀ m, d.Possible m → m.lookup (g.path .confirmed) ≠ some j

variable {g : Segment} {file : Bytes} {inode : Nat} {d d' : Disk Path}

/-- A new update keeps what holds of the names before and behind it. -/
theorem forall_possible_update {Q : Names Path → Prop} {u : Update Path}
    (h : ∀ m, d.Possible m → Q m) (hu : ∀ m, d.Possible m → Q m → Q (u.apply m)) :
    ∀ m, (d.update u).Possible m → Q m := by
  intro m hm
  rcases hm.of_update with hm | ⟨m₀, hm₀, rfl⟩
  · exact h m hm
  · exact hu m₀ hm₀ (h m₀ hm₀)

variable {e e' : Ext} (m : Names Path) (i : Nat)

@[simp] theorem path_eq_iff : g.path e = g.path e' ↔ e = e' :=
  ⟨fun heq => (segPath_inj heq).2, fun heq => by rw [heq]⟩

@[simp] theorem lookup_unlink : ((Update.unlink (g.path e')).apply m).lookup (g.path e)
    = if e = e' then none else m.lookup (g.path e) := by
  simp [Update.lookup_unlink]

@[simp] theorem lookup_link : ((Update.link (g.path e') i).apply m).lookup (g.path e)
    = if e = e' then some i else m.lookup (g.path e) := by
  simp [Update.lookup_link]

/-- The move that publishes the sidecar. -/
@[simp] theorem lookup_publish :
    ((Update.move (g.path .confirmedTmp) (g.path .confirmed) i).apply m).lookup (g.path e)
      = if e = .confirmed then some i else if e = .confirmedTmp then none
        else m.lookup (g.path e) := by
  simp [Update.lookup_move]

namespace Safe

variable {j : Nat}

section

variable (h : Safe g file inode d)

include h

/-- Writing to the tmp file. -/
theorem writeTmp (hj : d.names.lookup (g.path .confirmedTmp) = some j) (f : File) :
    Safe g file inode (d.setFile j f) where
  sound := h.sound
  known := h.known
  segment := by
    have hne := ((h.names _ d.possible_names).tmp j hj).1
    rw [Disk.files_setFile_ne d hne.symm]
    exact h.segment
  names m hm := by
    refine { h.names m hm with sidecar := fun k hk => ?_ }
    have hne : k ≠ j := by
      rintro rfl
      exact h.free k hj m hm hk
    rw [Disk.files_setFile_ne d hne]
    exact (h.names m hm).sidecar k hk
  free := h.free

/-- A new tmp file. -/
theorem newTmp : Safe g file inode (d.newFile (g.path .confirmedTmp)) := by
  have hnew : ∀ m, d.Possible m → m.lookup (g.path .confirmed) ≠ some d.fresh :=
    fun m hm hc => lt_irrefl _ (h.sound.possible_lt hm hc)
  have hold : ∀ m, d.Possible m →
      SafeNames g inode (d.newFile (g.path .confirmedTmp)).files m := by
    intro m hm
    refine { h.names m hm with sidecar := fun j hj => ?_ }
    have hfile : (d.newFile (g.path .confirmedTmp)).files j = d.files j :=
      Disk.files_setFile_ne d (ne_of_lt (h.sound.possible_lt hm hj)) _
    rw [hfile]
    exact (h.names m hm).sidecar j hj
  refine .mk (h.sound.newFile _) (Nat.lt_succ_of_lt h.known)
    ((Disk.files_setFile_ne d (ne_of_lt h.known) _).trans h.segment)
    (forall_possible_update (d := d) hold fun m hm hs => ?_) fun j hj => ?_
  · simpa [safeNames_iff] using ⟨hs.1, hs.2, hs.3, ne_of_gt h.known, hnew m hm⟩
  · obtain rfl : d.fresh = j := by simpa [Disk.names_newFile] using hj
    exact forall_possible_update (d := d) hnew fun m _ hm => by simpa using hm

/-- The rename of a complete tmp file into place. -/
theorem publish (hj : d.names.lookup (g.path .confirmedTmp) = some j) (hc : Complete (d.files j)) :
    Safe g file inode (d.update (.move (g.path .confirmedTmp) (g.path .confirmed) j)) := by
  refine .mk (h.sound.update fun i hi => by rw [← Option.some.inj hi]; exact h.sound.lt hj)
    h.known h.segment (forall_possible_update h.names fun m _ hs => ?_) fun i hi => ?_
  · simpa [safeNames_iff] using ⟨hs.only, hc⟩
  · simp [Disk.names_update] at hi

theorem dropTmp : Safe g file inode (d.update (.unlink (g.path .confirmedTmp))) := by
  refine .mk (h.sound.update fun i hi => absurd hi (by simp [Update.inode])) h.known
    h.segment (forall_possible_update h.names fun m _ hs => ?_) fun i hi => ?_
  · simpa [safeNames_iff] using ⟨hs.1, hs.2, hs.3⟩
  · simp [Disk.names_update] at hi

/-- The segment may go once no crash can take its sidecar away. -/
theorem delete (ht : Tombstone g d) : Safe g file inode (d.update (.unlink (g.path .sealed))) := by
  refine .mk (h.sound.update fun i hi => absurd hi (by simp [Update.inode])) h.known
    h.segment (forall_possible_update h.names fun m hm hs => ?_) fun j hj => ?_
  · simpa [safeNames_iff] using ⟨.inr (ht m hm), hs.3, hs.4⟩
  · have hj : d.names.lookup (g.path .confirmedTmp) = some j := by
      simpa [Disk.names_update] using hj
    exact forall_possible_update (h.free j hj) fun m _ hm => by simpa using hm

/-- A sync takes nothing away. -/
theorem sync (dir : Option Path) : Safe g file inode (d.syncDir dir) :=
  .mk (h.sound.syncDir dir) h.known h.segment (fun m hm => h.names m hm.of_syncDir)
    fun j hj m hm => h.free j (by rwa [Disk.names_syncDir] at hj) m hm.of_syncDir

theorem crash (hc : d.Crash d') : Safe g file inode d' := by
  have ⟨hnames, hpending, hfresh, hfiles⟩ := hc
  have hkeep : ∀ {j : Nat} {bs : Bytes}, d.files j = .settled bs → d'.files j = .settled bs := by
    intro j bs hj
    obtain ⟨himage, hsettled⟩ := hfiles j
    rw [hj] at himage
    rw [hsettled, himage.of_clean rfl]
    rfl
  have hnow : d'.names = d'.settled := by
    unfold Disk.names
    rw [hpending]
    rfl
  rw [← hnow] at hnames
  obtain ⟨hsomewhere, hseg, hsidecar, htmp⟩ := h.names _ hnames
  refine .mk (h.sound.crash hc) (by rw [hfresh]; exact h.known) (hkeep h.segment)
    (fun m hm => ?_) fun j hj m hm => ?_
  · rw [hm.of_settled hpending]
    refine ⟨hsomewhere, hseg, fun j hj => ?_, htmp⟩
    obtain ⟨bs, hbs, hj⟩ := hsidecar j hj
    exact ⟨bs, hbs, hkeep hj⟩
  · rw [hm.of_settled hpending]
    exact (htmp j hj).2

end

end Safe

/-! ## What lies ahead -/

section

variable (g)

/-- Behind a settled sidecar the segment may be deleted. -/
def Deletes (ops : List (Op Path)) : Prop :=
  ops = [] ∨ ops = [.unlink (g.path .sealed)] ∨ ops = [.probe (g.path .sealed) false]

/-- A call that gives up, with or without removing its tmp file. -/
def GivesUp (ops : List (Op Path)) : Prop := ops = [] ∨ ops = [.unlink (g.path .confirmedTmp)]

/-- Behind the rename. -/
def Settles (ops : List (Op Path)) : Prop :=
  GivesUp g ops ∨ ∃ rest, ops = .syncDir (g.path .confirmed).parent :: rest ∧ Deletes g rest

/-- Behind the sync of the tmp file. -/
def Publishes (ops : List (Op Path)) : Prop :=
  GivesUp g ops ∨
    ∃ rest, ops = .rename (g.path .confirmedTmp) (g.path .confirmed) :: rest ∧ Settles g rest

/-- Behind the write of the tmp file. -/
def Syncs (ops : List (Op Path)) : Prop :=
  GivesUp g ops ∨ ∃ rest, ops = .fsync (g.path .confirmedTmp) :: rest ∧ Publishes g rest

/-- Behind the open of the tmp file. -/
def Fills (ops : List (Op Path)) : Prop :=
  ∃ bs rest, ops = .append (g.path .confirmedTmp) bs :: rest ∧
    (GivesUp g rest ∨ IsSidecar bs ∧ Syncs g rest)

/-- The file under the tmp name. -/
def TmpIs (d : Disk Path) (Q : File → Prop) : Prop :=
  ∃ j, d.names.lookup (g.path .confirmedTmp) = some j ∧ Q (d.files j)

/-- What may lie ahead, with what the disk has to be like for it. -/
inductive Ahead (d : Disk Path) : List (Op Path) → Prop
  | givesUp {ops : List (Op Path)} (h : GivesUp g ops) : Ahead d ops
  | probe {q : Path} {b : Bool} {rest : List (Op Path)} (h : Ahead d rest) :
      Ahead d (.probe q b :: rest)
  | truncate {rest : List (Op Path)} (h : Fills g rest) :
      Ahead d (.truncate (g.path .confirmedTmp) :: rest)
  | append {bs : Bytes} {rest : List (Op Path)} (htmp : TmpIs g d (·.content = []))
      (h : GivesUp g rest ∨ IsSidecar bs ∧ Syncs g rest) :
      Ahead d (.append (g.path .confirmedTmp) bs :: rest)
  | fsync {rest : List (Op Path)} (htmp : TmpIs g d fun f => IsSidecar f.content)
      (h : Publishes g rest) : Ahead d (.fsync (g.path .confirmedTmp) :: rest)
  | rename {rest : List (Op Path)} (htmp : TmpIs g d Complete) (h : Settles g rest) :
      Ahead d (.rename (g.path .confirmedTmp) (g.path .confirmed) :: rest)
  | syncDir {rest : List (Op Path)} (hsidecar : (d.names.lookup (g.path .confirmed)).isSome)
      (h : Deletes g rest) : Ahead d (.syncDir (g.path .confirmed).parent :: rest)
  | delete (h : Tombstone g d) : Ahead d [.unlink (g.path .sealed)]
  | fsyncSidecar {rest : List (Op Path)} (hsidecar : (d.names.lookup (g.path .confirmed)).isSome)
      (h : rest = [] ∨
        ∃ rest', rest = .syncDir (g.path .confirmed).parent :: rest' ∧ Deletes g rest') :
      Ahead d (.fsync (g.path .confirmed) :: rest)

end

theorem Ahead.nil : Ahead g d [] := .givesUp (.inl rfl)

theorem Ahead.of_deletes (ht : Tombstone g d) {ops : List (Op Path)} (h : Deletes g ops) :
    Ahead g d ops := by
  rcases h with rfl | rfl | rfl
  · exact .nil
  · exact .delete ht
  · exact .probe .nil

theorem Tombstone.synced (h : (d.names.lookup (g.path .confirmed)).isSome) :
    Tombstone g (d.syncDir (g.path .confirmed).parent) := by
  intro m hm
  obtain ⟨i, hi⟩ := Option.isSome_iff_exists.mp h
  rw [Disk.Possible.lookup_synced hm hi]
  rfl

theorem Tombstone.sync (h : Tombstone g d) (dir : Option Path) : Tombstone g (d.syncDir dir) :=
  fun m hm => h m hm.of_syncDir

/-- Another thread's sync disturbs nothing ahead. -/
theorem Ahead.sync {ops : List (Op Path)} (h : Ahead g d ops) (dir : Option Path) :
    Ahead g (d.syncDir dir) ops := by
  have hnames := Disk.names_syncDir d dir
  have htmp : ∀ {Q}, TmpIs g d Q → TmpIs g (d.syncDir dir) Q := by
    rintro Q ⟨j, hj, hq⟩
    exact ⟨j, by rw [hnames]; exact hj, hq⟩
  induction h with
  | givesUp h => exact .givesUp h
  | probe _ ih => exact .probe ih
  | truncate h => exact .truncate h
  | append hempty h => exact .append (htmp hempty) h
  | fsync hfull h => exact .fsync (htmp hfull) h
  | rename hcomplete h => exact .rename (htmp hcomplete) h
  | syncDir hs h => exact .syncDir (by rw [hnames]; exact hs) h
  | delete h => exact .delete (h.sync dir)
  | fsyncSidecar hs h => exact .fsyncSidecar (by rw [hnames]; exact hs) h

variable {rest : List (Op Path)} {bs : Bytes} {f : Found}

/-- The segment goes only behind the tombstone. -/
theorem Ahead.tombstone (h : Ahead g d (.unlink (g.path .sealed) :: rest)) : Tombstone g d := by
  generalize hops : Op.unlink (g.path .sealed) :: rest = ops at h
  cases h with
  | givesUp h =>
    rcases h with rfl | rfl
    · cases hops
    · have hpath := Op.unlink.inj (List.cons.inj hops).1
      simp at hpath
  | delete h => exact h
  | _ => cases hops

/-- An operation that lies ahead keeps the disk safe, what follows it ahead, and
the tombstone. -/
theorem Ahead.step {op : Op Path} (h : Ahead g d (op :: rest))
    (hsafe : Safe g file inode d) (hd : d.step op = some d') :
    Safe g file inode d' ∧ Ahead g d' rest ∧ (Tombstone g d → Tombstone g d') ∧
      (op = .syncDir (g.path .confirmed).parent → Tombstone g d') := by
  cases h with
  | givesUp h =>
    rcases h with h | h
    · cases h
    obtain ⟨rfl, rfl⟩ := List.cons.inj h
    simp only [Disk.step] at hd
    split at hd <;> cases hd
    refine ⟨hsafe.dropTmp, .nil, fun ht => ?_, by simp⟩
    exact forall_possible_update ht fun m _ hm => by simpa using hm
  | probe h =>
    simp only [Disk.step] at hd
    split at hd <;> cases hd
    exact ⟨hsafe, h, id, by simp⟩
  | truncate h =>
    obtain ⟨bs, rest', rfl, h⟩ := h
    simp only [Disk.step] at hd
    split at hd
    next j hj =>
      cases hd
      refine ⟨hsafe.writeTmp hj _, .append ⟨j, hj, ?_⟩ h, id, by simp⟩
      simp [File.setLen]
    · cases hd
      refine ⟨hsafe.newTmp, .append ⟨d.fresh, ?_, ?_⟩ h, fun ht => ?_, by simp⟩
      · simp [Disk.names_newFile]
      · exact congrArg File.content (Disk.files_setFile d d.fresh File.empty)
      · exact forall_possible_update (d := d) ht fun m _ hm => by simpa using hm
  | @append bs _ htmp h =>
    obtain ⟨j, hj, hempty⟩ := htmp
    rw [Disk.step] at hd
    obtain ⟨i, hi, rfl⟩ := Disk.modify_eq_some hd
    obtain rfl : i = j := Option.some.inj (hi.symm.trans hj)
    refine ⟨hsafe.writeTmp hj _, ?_, id, by simp⟩
    rcases h with h | ⟨hbs, h | ⟨rest', rfl, h⟩⟩
    · exact .givesUp h
    · exact .givesUp h
    refine .fsync ⟨i, hj, ?_⟩ h
    show IsSidecar _
    rw [Disk.files_setFile, File.content_append, hempty, List.nil_append]
    exact hbs
  | fsync htmp h =>
    obtain ⟨j, hj, hbs⟩ := htmp
    obtain ⟨i, hi, rfl⟩ := Disk.modify_eq_some hd
    obtain rfl : i = j := Option.some.inj (hi.symm.trans hj)
    refine ⟨hsafe.writeTmp hj _, ?_, id, by simp⟩
    rcases h with h | ⟨rest', rfl, h⟩
    · exact .givesUp h
    · refine .rename ⟨i, hj, ?_⟩ h
      rw [Disk.files_setFile]
      exact ⟨_, hbs, rfl⟩
  | rename htmp h =>
    obtain ⟨j, hj, hc⟩ := htmp
    simp only [Disk.step, hj] at hd
    cases hd
    refine ⟨hsafe.publish hj hc, ?_, fun ht => ?_, by simp⟩
    · rcases h with h | ⟨rest', rfl, h⟩
      · exact .givesUp h
      · exact .syncDir (by simp [Disk.names_update]) h
    · exact forall_possible_update ht fun m _ _ => by simp
  | syncDir hs h =>
    cases hd
    have ht := Tombstone.synced hs
    exact ⟨hsafe.sync _, .of_deletes ht h, fun _ => ht, fun _ => ht⟩
  | delete ht =>
    simp only [Disk.step] at hd
    split at hd <;> cases hd
    refine ⟨hsafe.delete ht, .nil, fun _ => ?_, by simp⟩
    exact forall_possible_update ht fun m _ hm => by simpa using hm
  | fsyncSidecar hs h =>
    obtain ⟨j, hj, rfl⟩ := Disk.modify_eq_some hd
    have hsame : d.setFile j (d.files j).sync = d := by
      obtain ⟨bs, _, hbs⟩ := (hsafe.names _ d.possible_names).sidecar j hj
      have hsync : (d.files j).sync = d.files j := by
        rw [hbs]
        rfl
      rw [hsync, Disk.setFile_self]
    rw [hsame]
    refine ⟨hsafe, ?_, id, by simp⟩
    rcases h with rfl | ⟨rest', rfl, h⟩
    · exact .nil
    · exact .syncDir hs h

/-! ## What the calls do -/

/-- Writing the sidecar gives up, or goes all the way to the settled rename. -/
theorem writeConfirmedDurably_ops (g : Segment) (hbs : IsSidecar bs) (io : SidecarIo)
    {r : Except IoError Unit} {ops : List (Op Path)}
    (h : writeConfirmedDurably (g.path .confirmed) bs io = (r, ops)) :
    ((∃ e, r = .error e) ∧
      (GivesUp g ops ∨ ∃ rest, ops = .truncate (g.path .confirmedTmp) :: rest ∧ Fills g rest)) ∨
    r = .ok () ∧ ops = [.truncate (g.path .confirmedTmp), .append (g.path .confirmedTmp) bs,
        .fsync (g.path .confirmedTmp), .rename (g.path .confirmedTmp) (g.path .confirmed),
        .syncDir (g.path .confirmed).parent] := by
  have htmp : confirmedTmpPath (g.path .confirmed) = g.path .confirmedTmp :=
    confirmedTmpPath_segPath ..
  have hend : GivesUp g (if io.tmpRemoved then [.unlink (g.path .confirmedTmp)] else []) := by
    cases io.tmpRemoved
    · exact .inl rfl
    · exact .inr rfl
  unfold writeConfirmedDurably writeTmpThenRename at h
  rw [htmp] at h
  -- each call may fail, and what was done before it lies ahead
  revert h
  rcases io.opened with _ | e
  on_goal 2 =>
    rintro ⟨⟩
    exact .inl ⟨⟨e, rfl⟩, .inl hend⟩
  rcases io.data with _ | ⟨k, e⟩
  on_goal 2 =>
    rintro ⟨⟩
    exact .inl ⟨⟨e, rfl⟩, .inr ⟨_, rfl, _, _, rfl, .inl hend⟩⟩
  rcases io.fsync with _ | e
  on_goal 2 =>
    rintro ⟨⟩
    exact .inl ⟨⟨e, rfl⟩, .inr ⟨_, rfl, _, _, rfl, .inr ⟨hbs, .inl hend⟩⟩⟩
  rcases io.rename with _ | e
  on_goal 2 =>
    rintro ⟨⟩
    exact .inl ⟨⟨e, rfl⟩, .inr ⟨_, rfl, _, _, rfl, .inr ⟨hbs, .inr ⟨_, rfl, .inl hend⟩⟩⟩⟩
  rcases hsync : fsyncParentDir (g.path .confirmed) io.dirSync with ⟨e | _, sync⟩
  · rintro ⟨⟩
    rw [(fsyncParentDir_error hsync).2]
    exact .inl ⟨⟨e, rfl⟩, .inr ⟨_, rfl, _, _, rfl,
      .inr ⟨hbs, .inr ⟨_, rfl, .inr ⟨_, rfl, .inl hend⟩⟩⟩⟩⟩
  · rintro ⟨⟩
    rw [fsyncParentDir_ok hsync g.dir_ne]
    exact .inr ⟨rfl, rfl⟩

/-- What the delete of a confirmed segment does. -/
theorem deleteConfirmedSegment_ops (g : Segment) (remove : Option IoError) :
    Deletes g (deleteConfirmedSegment (g.path .sealed) remove).2 ∧
    ((deleteConfirmedSegment (g.path .sealed) remove).1 = .deleteFailed →
      (deleteConfirmedSegment (g.path .sealed) remove).2 = []) := by
  unfold deleteConfirmedSegment
  split
  · exact ⟨.inr (.inl rfl), by simp⟩
  · split
    · exact ⟨.inr (.inr rfl), by simp⟩
    · exact ⟨.inl rfl, fun _ => rfl⟩

theorem confirmedPathFor_path : confirmedPathFor (g.path .sealed) = g.path .confirmed :=
  confirmedPathFor_segPath ..

/-- A confirm keeps to what may lie ahead, and owes the delete only behind the
sync that settles its sidecar. -/
theorem confirmAndDelete_ahead (g : Segment) (d : Disk Path) (file : Bytes) (n : Nat)
    (io : ConfirmIo) :
    Ahead g d (confirmAndDelete (g.path .sealed) file n io).2 ∧
    ((confirmAndDelete (g.path .sealed) file n io).1 = .deleteFailed →
      (confirmAndDelete (g.path .sealed) file n io).2.getLast?
        = some (.syncDir (g.path .confirmed).parent)) := by
  unfold confirmAndDelete
  split
  · exact ⟨.nil, by simp⟩
  · exact ⟨.probe .nil, by simp⟩
  cases hwrite : writeConfirmedFile (g.path .sealed) file n io.sidecar with
  | mk r ops =>
    unfold writeConfirmedFile at hwrite
    rw [confirmedPathFor_path] at hwrite
    rcases writeConfirmedDurably_ops g ⟨_, _, _, rfl⟩ io.sidecar hwrite with
      ⟨⟨e, rfl⟩, hops⟩ | ⟨rfl, rfl⟩
    · refine ⟨.probe ?_, by simp⟩
      rcases hops with h | ⟨rest, rfl, h⟩
      · exact .givesUp h
      · exact .truncate h
    · obtain ⟨hdel, hfailed⟩ := deleteConfirmedSegment_ops g io.remove
      refine ⟨.probe (.truncate ⟨_, _, rfl, .inr ⟨⟨_, _, _, rfl⟩, .inr ⟨_, rfl,
        .inr ⟨_, rfl, .inr ⟨_, rfl, hdel⟩⟩⟩⟩⟩), ?_⟩
      intro h
      dsimp only at h ⊢
      rw [hfailed h]
      rfl

/-- On a safe disk, what is under the sidecar's name parses. -/
theorem Safe.parses (h : Safe g file inode d) (hread : d.read (g.path .confirmed) = some bs) :
    (d.names.lookup (g.path .confirmed)).isSome ∧ ∃ m, parseConfirmed bs = .ok m := by
  obtain ⟨j, hj, rfl⟩ := Option.map_eq_some_iff.mp hread
  obtain ⟨bs, ⟨s, n, t, rfl⟩, hfile⟩ := (h.names _ d.possible_names).sidecar j hj
  refine ⟨by rw [hj]; rfl, ⟨s, n % 256 ^ 8, t⟩, ?_⟩
  rw [hfile]
  exact parseConfirmed_build s n t

/-- What a scan makes of the segment: it replays it, or it finds the sidecar. It
never quarantines. -/
theorem Safe.checkConfirmed (h : Safe g file inode d) (wabDir : List String) (io : CheckIo) :
    (∃ b, checkConfirmed (g.path .sealed) wabDir (d.read (g.path .confirmed)) io
      = (.ok false, [.probe (g.path .confirmed) b])) ∨
    checkConfirmed (g.path .sealed) wabDir (d.read (g.path .confirmed)) io = (.ok false, []) ∨
    (d.names.lookup (g.path .confirmed)).isSome ∧
      checkConfirmed (g.path .sealed) wabDir (d.read (g.path .confirmed)) io
        = (.ok true, [.probe (g.path .confirmed) true]) := by
  unfold Drain.checkConfirmed
  rw [confirmedPathFor_path]
  cases io.existsFault with
  | some e => exact .inr (.inl rfl)
  | none =>
    cases hread : d.read (g.path .confirmed) with
    | none => exact .inl ⟨false, rfl⟩
    | some bs =>
      cases io.readFault with
      | some e => exact .inl ⟨true, rfl⟩
      | none =>
        obtain ⟨hthere, m, hm⟩ := h.parses hread
        dsimp only
        rw [hm]
        exact .inr (.inr ⟨hthere, rfl⟩)

theorem deleteOrphan_ahead (hthere : (d.names.lookup (g.path .confirmed)).isSome) (io : OrphanIo) :
    Ahead g d (deleteOrphan (g.path .sealed) io).2 := by
  unfold deleteOrphan
  rw [confirmedPathFor_path]
  cases io.sidecarSync with
  | some e => exact .nil
  | none =>
    dsimp only
    cases hsync : fsyncParentDir (g.path .confirmed) io.dirSync with
    | mk r sync =>
      cases r with
      | error e =>
        rw [(fsyncParentDir_error hsync).2]
        exact .fsyncSidecar hthere (.inl rfl)
      | ok _ =>
        rw [fsyncParentDir_ok hsync g.dir_ne]
        dsimp only
        split
        · exact .fsyncSidecar hthere (.inr ⟨_, rfl, .inr (.inl rfl)⟩)
        · split
          · exact .fsyncSidecar hthere (.inr ⟨_, rfl, .inr (.inr rfl)⟩)
          · exact .fsyncSidecar hthere (.inr ⟨_, rfl, .inl rfl⟩)

theorem scanOne_of_replay {cfg : DrainConfig} {ops : List (Op Path)}
    (h : checkConfirmed f.path cfg.wabDir f.sidecar f.check = (.ok false, ops)) :
    scanOne cfg f = (true, ops) := by
  unfold scanOne
  rw [h]

theorem scanOne_of_delivered {cfg : DrainConfig} {ops : List (Op Path)}
    (h : checkConfirmed f.path cfg.wabDir f.sidecar f.check = (.ok true, ops)) :
    (scanOne cfg f).2 = ops ∨ (scanOne cfg f).2 = ops ++ (deleteOrphan f.path f.orphan).2 := by
  unfold scanOne
  rw [h]
  dsimp only
  split
  · exact .inr rfl
  · exact .inl rfl

/-- A scan keeps to what may lie ahead. Without a sidecar it only looks. -/
theorem Safe.scanOne (h : Safe g file inode d) (cfg : DrainConfig)
    (hpath : f.path = g.path .sealed) (hsidecar : f.sidecar = d.read (g.path .confirmed)) :
    Ahead g d (scanOne cfg f).2 ∧
    (d.names.lookup (g.path .confirmed) = none →
      (scanOne cfg f).1 = true ∧ ∀ op ∈ (scanOne cfg f).2, op.IsProbe) := by
  have hcases := h.checkConfirmed cfg.wabDir f.check
  rw [← hpath, ← hsidecar] at hcases
  rcases hcases with ⟨b, hcheck⟩ | hcheck | ⟨hthere, hcheck⟩
  · rw [scanOne_of_replay hcheck]
    exact ⟨.probe .nil, fun _ => ⟨rfl, by simp [Op.IsProbe]⟩⟩
  · rw [scanOne_of_replay hcheck]
    exact ⟨.nil, fun _ => ⟨rfl, by simp⟩⟩
  refine ⟨?_, fun hnone => absurd hthere (by simp [hnone])⟩
  rcases scanOne_of_delivered hcheck with hops | hops
  · rw [hops]
    exact .probe .nil
  · rw [hops, hpath]
    exact .probe (deleteOrphan_ahead hthere f.orphan)

/-! ## The invariant -/

/-- What is true before the segment was delivered: no sidecar anywhere, and none
on its way. -/
structure Confirming.Undelivered (g : Segment) (s : Confirming) : Prop where
  bare : ∀ m, s.disk.Possible m → m.lookup (g.path .confirmed) = none
  ledger : s.ledger.confirmPending.lookup (g.path .sealed) = none
  busy : ∀ ops after, s.busy = some (ops, after) →
    after.confirmPending.lookup (g.path .sealed) = none ∧
    ∀ op ∈ ops, op = .unlink (g.path .confirmedTmp) ∨ op.IsProbe

structure Confirming.Inv (g : Segment) (file : Bytes) (inode : Nat) (s : Confirming) : Prop where
  safe : Safe g file inode s.disk
  busy : ∀ ops after, s.busy = some (ops, after) → Ahead g s.disk ops ∧
    ∀ pending, after.confirmPending.lookup (g.path .sealed) = some pending →
      pending.stage = .delete → Tombstone g s.disk ∨
        ops.getLast? = some (.syncDir (g.path .confirmed).parent)
  owed : ∀ pending, s.ledger.confirmPending.lookup (g.path .sealed) = some pending →
    pending.stage = .delete → Tombstone g s.disk
  undelivered : s.delivered = false → s.Undelivered g

namespace Confirming

variable {s s' : Confirming} {cfg : DrainConfig}

theorem Start.inv (h : s.Start g file inode) : s.Inv g file inode := by
  obtain ⟨now, hledger⟩ := h.ledger
  have hnone : s.ledger.confirmPending.lookup (g.path .sealed) = none := by
    rw [hledger]
    rfl
  have hknown : inode < s.disk.fresh := by
    rcases h.named s.disk.names s.disk.possible_names with hn | ⟨_, hn⟩
    · exact h.sound.lt hn
    · exact h.sound.lt hn
  have hnames : ∀ m, s.disk.Possible m → SafeNames g inode s.disk.files m := by
    intro m hm
    obtain ⟨hbare, htmp⟩ := h.bare m hm
    refine ⟨(h.named m hm).imp_right fun hn => .inl hn.2, fun j hj => ?_, by simp [hbare],
      fun j hj => ⟨fun heq => htmp (heq ▸ hj), by simp [hbare]⟩⟩
    rcases h.named m hm with hn | ⟨hn, _⟩
    · exact Option.some.inj (hj.symm.trans hn)
    · rw [hn] at hj; cases hj
  exact ⟨.mk h.sound hknown h.segment hnames fun j _ m hm => by simp [(h.bare m hm).1],
    by simp [h.busy], by simp [hnone],
      fun _ => ⟨fun m hm => (h.bare m hm).1, hnone, by simp [h.busy]⟩⟩

variable {l : SegmentLedger} {p : Path} {o : ConfirmOutcome} {pending : ConfirmPending}

/-- An outcome that owes the delete. -/
theorem noteConfirmOutcome_delete {n : Nat} (hfree : l.confirmPending.lookup p = none)
    (h : (l.noteConfirmOutcome p o n).confirmPending.lookup p = some pending)
    (hstage : pending.stage = .delete) : o = .deleteFailed := by
  cases o with
  | done =>
    rw [SegmentLedger.noteConfirmOutcome, hfree] at h
    cases h
  | sidecarFailed =>
    simp only [SegmentLedger.noteConfirmOutcome, AList.lookup_insert, Option.some.injEq] at h
    rw [← h] at hstage
    cases hstage
  | deleteFailed => rfl

theorem noteRetry_delete {old : ConfirmPending} (hold : l.confirmPending.lookup p = some old)
    (h : (l.noteRetry p old o).confirmPending.lookup p = some pending)
    (hstage : pending.stage = .delete) : o = .deleteFailed ∨ old.stage = .delete := by
  cases o with
  | done =>
    simp only [SegmentLedger.noteRetry, AList.lookup_erase] at h
    cases h
  | sidecarFailed =>
    rw [SegmentLedger.noteRetry, hold] at h
    rw [Option.some.inj h]
    exact .inr hstage
  | deleteFailed => exact .inl rfl

/-- A call that gives up or only looks leaves a bare disk bare. -/
theorem Undelivered.step (h : s.Undelivered g) {op : Op Path} {rest : List (Op Path)}
    {after : SegmentLedger} (hbusy : s.busy = some (op :: rest, after))
    (hd : s.disk.step op = some d) :
    ({ s with disk := d, busy := some (rest, after) } : Confirming).Undelivered g := by
  obtain ⟨hafter, hops⟩ := h.busy _ _ hbusy
  refine ⟨?_, h.ledger, ?_⟩
  · rcases hops op List.mem_cons_self with rfl | hprobe
    · simp only [Disk.step] at hd
      split at hd <;> cases hd
      exact forall_possible_update h.bare fun m _ hm => by simpa using hm
    · have hrun : s.disk.run [op] = some d := by rw [Disk.run, hd]; rfl
      obtain ⟨rfl, _⟩ := Disk.run_probes (by simpa using hprobe) hrun
      exact h.bare
  · rintro _ _ ⟨⟩
    exact ⟨hafter, fun o ho => hops o (List.mem_cons_of_mem _ ho)⟩

theorem Inv.step (h : s.Inv g file inode) (hs : s.Step cfg g s') : s'.Inv g file inode := by
  cases hs with
  | confirm n io hidle hfree =>
    obtain ⟨hahead, hlast⟩ := confirmAndDelete_ahead g s.disk (s.file g) n io
    refine ⟨h.safe, ?_, h.owed, by simp⟩
    rintro _ _ ⟨⟩
    exact ⟨hahead, fun pending hp hstage =>
      .inr (hlast (noteConfirmOutcome_delete hfree hp hstage))⟩
  | retry pending io hidle hpending =>
    refine ⟨h.safe, ?_, h.owed, ?_⟩
    · rintro _ _ ⟨⟩
      unfold retryConfirm
      cases hstage : pending.stage with
      | sidecar =>
        obtain ⟨hahead, hlast⟩ := confirmAndDelete_ahead g s.disk (s.file g) pending.recordCount io
        refine ⟨hahead, fun new hnew hdelete => .inr (hlast ?_)⟩
        rcases noteRetry_delete hpending hnew hdelete with ho | ho
        · exact ho
        · rw [hstage] at ho
          cases ho
      | delete =>
        have htomb := h.owed pending hpending hstage
        exact ⟨.of_deletes htomb (deleteConfirmedSegment_ops g io.remove).1,
          fun _ _ _ => .inl htomb⟩
    · intro hd
      rw [(h.undelivered hd).ledger] at hpending
      cases hpending
  | scan now check orphan hidle howned =>
    obtain ⟨hahead, hbare⟩ := h.safe.scanOne cfg
      (f := ⟨g.path .sealed, s.disk.read (g.path .confirmed), check, orphan⟩) rfl rfl
    refine ⟨h.safe, ?_, h.owed, ?_⟩
    · rintro _ _ ⟨⟩
      exact ⟨hahead, fun pending hp hstage => .inl (h.owed pending hp hstage)⟩
    intro hd
    have hund := h.undelivered hd
    refine ⟨hund.bare, hund.ledger, ?_⟩
    rintro _ _ ⟨⟩
    have hprobes := (hbare (hund.bare _ s.disk.possible_names)).2
    exact ⟨hund.ledger, fun op hop => .inr (hprobes op hop)⟩
  | removeTmp hidle =>
    refine ⟨h.safe, ?_, h.owed, ?_⟩
    · rintro _ _ ⟨⟩
      exact ⟨.givesUp (.inr rfl), fun pending hp hstage => .inl (h.owed pending hp hstage)⟩
    intro hd
    have hund := h.undelivered hd
    refine ⟨hund.bare, hund.ledger, ?_⟩
    rintro _ _ ⟨⟩
    exact ⟨hund.ledger, by simp⟩
  | @op op rest after d hbusy hd =>
    obtain ⟨hahead, howes⟩ := h.busy _ _ hbusy
    obtain ⟨hsafe, hrest, hkeep, hsync⟩ := hahead.step h.safe hd
    refine ⟨hsafe, ?_, fun pending hp hstage => hkeep (h.owed pending hp hstage),
      fun hund => (h.undelivered hund).step hbusy hd⟩
    rintro _ _ ⟨⟩
    refine ⟨hrest, fun pending hp hstage => ?_⟩
    rcases howes pending hp hstage with ht | hlast
    · exact .inl (hkeep ht)
    -- the sync was this operation, or it is still ahead
    rw [List.getLast?_cons] at hlast
    cases hrest' : rest.getLast? with
    | none =>
      rw [hrest'] at hlast
      exact .inl (hsync (Option.some.inj hlast))
    | some o =>
      rw [hrest'] at hlast
      exact .inr hlast
  | finish hbusy =>
    obtain ⟨_, howes⟩ := h.busy _ _ hbusy
    refine ⟨h.safe, by simp, ?_, ?_⟩
    · intro pending hp hstage
      rcases howes pending hp hstage with ht | hlast
      · exact ht
      · cases hlast
    · intro hd
      have hund := h.undelivered hd
      exact ⟨hund.bare, (hund.busy _ _ hbusy).1, by simp⟩
  | panic =>
    refine ⟨h.safe, by simp, h.owed, ?_⟩
    intro hd
    exact ⟨(h.undelivered hd).bare, (h.undelivered hd).ledger, by simp⟩
  | sync dir =>
    refine ⟨h.safe.sync dir, ?_, fun pending hp hstage => (h.owed pending hp hstage).sync dir, ?_⟩
    · intro ops after hbusy
      obtain ⟨hahead, howes⟩ := h.busy ops after hbusy
      exact ⟨hahead.sync dir, fun pending hp hstage =>
        (howes pending hp hstage).imp_left fun ht => ht.sync dir⟩
    · intro hd
      have hund := h.undelivered hd
      exact ⟨fun m hm => hund.bare m hm.of_syncDir, hund.ledger, hund.busy⟩
  | crash now hd =>
    refine ⟨h.safe.crash hd, by simp, ?_, ?_⟩
    · intro pending hp
      cases hp
    intro hund
    refine ⟨fun m hm => ?_, by simp [SegmentLedger.new], by simp⟩
    rw [hm.of_settled hd.2.1, Disk.names, hd.2.1]
    exact (h.undelivered hund).bare _ hd.1

theorem Reach.inv (h : s.Reach cfg g file inode) : s.Inv g file inode := by
  induction h with
  | start h => exact h.inv
  | step _ hs ih => exact ih.step hs

end Confirming

/-- A sealed file has its records behind whatever header it is read with. -/
theorem SealedFile.known {z : Zstd} (f : SealedFile z) {header : Bytes} {m : SegmentHeaderMeta}
    (hp : parseSegmentHeader header = .ok m) (hhead : ∃ t, f.bytes = header ++ t) :
    ∃ ss tail, f.bytes = header ++ encodeRecords ss ++ tail ∧
      (∀ s ∈ ss, StoredOk m.compression s) ∧ Decodes z m.compression ss f.payloads := by
  obtain ⟨t, ht⟩ := hhead
  have hlen : header.length = f.header.length :=
    (parseSegmentHeader_length hp).trans (parseSegmentHeader_length f.parses).symm
  obtain rfl : header = f.header :=
    List.append_inj_left (ht.symm.trans f.bytes_eq) hlen
  obtain rfl : m = f.headerMeta := Except.ok.inj (hp.symm.trans f.parses)
  exact ⟨f.stored, _, f.bytes_eq.trans (List.append_assoc ..).symm, f.storedOk, f.decodes⟩

/-- Confirming is crash-safe at every step. In every state of every run: the
segment is unlinked only when a complete sidecar survives any crash under its final
name; what is under that name parses. And after any crash: a scan that
skips the segment does so because it was delivered; the segment is there whole, and
is otherwise delivered with its sidecar in place or back under its `.wab` name,
whole, for recovery to seal. The shard's directory is taken to be durable: it is made at startup,
before any segment, and no crash here takes it. -/
theorem confirm_crash_safe {z : Zstd} (cfg : DrainConfig) (shard : Nat) (g : Segment)
    (hg : g.dir = shardDirPath cfg.wabDir shard) (f : SealedFile z) (inode : Nat) (s : Confirming)
    (h : s.Reach cfg g f.bytes inode) :
    (∀ rest after, s.busy = some (.unlink (g.path .sealed) :: rest, after) →
      ∀ m, s.disk.Possible m →
        ∃ j, m.lookup (g.path .confirmed) = some j ∧ Complete (s.disk.files j)) ∧
    (∀ bs, s.disk.read (g.path .confirmed) = some bs → ∃ m, parseConfirmed bs = .ok m) ∧
    ∀ d, s.disk.Crash d →
      (∀ bs, d.read (g.path .confirmed) = some bs → ∃ m, parseConfirmed bs = .ok m) ∧
      (∀ bs, d.read (g.path .sealed) = some bs → bs = f.bytes) ∧
      (∀ check orphan,
        (scanOne cfg ⟨g.path .sealed, d.read (g.path .confirmed), check, orphan⟩).1 = false →
          s.delivered = true ∧ (d.read (g.path .confirmed)).isSome) ∧
      (d.read (g.path .sealed) = none →
        s.delivered = true ∧ (d.read (g.path .confirmed)).isSome ∨
        d.read (g.path .active) = some f.bytes ∧
          ∀ io d', d.run (recoverSegment (g.path .active) cfg.wabDir f.bytes io).2 = some d' →
            (∀ q, (recoverSegment (g.path .active) cfg.wabDir f.bytes io).1 = .ok q →
              q = g.path .sealed ∧ ∃ bytes, d'.read q = some bytes ∧ Yields z bytes f.payloads) ∧
            (∀ e, (recoverSegment (g.path .active) cfg.wabDir f.bytes io).1 = .error e →
              Salvaged z (g.path .active) cfg.wabDir f.bytes f.payloads io d')) := by
  have hinv := h.inv
  refine ⟨?_, fun bs hbs => (hinv.safe.parses hbs).2, ?_⟩
  · intro rest after hbusy m hm
    obtain ⟨j, hj⟩ := Option.isSome_iff_exists.mp ((hinv.busy _ _ hbusy).1.tombstone m hm)
    exact ⟨j, hj, (hinv.safe.names m hm).sidecar j hj⟩
  · intro d hd
    have hinv' := (Confirming.Reach.step h (.crash 0 hd)).inv
    have hsafe : Safe g f.bytes inode d := hinv'.safe
    have hdelivered : (d.read (g.path .confirmed)).isSome → s.delivered = true := by
      intro hsome
      by_contra hnot
      have hbare := (hinv'.undelivered (Bool.eq_false_iff.mpr hnot)).bare _ d.possible_names
      rw [Disk.read, show d.names.lookup (g.path .confirmed) = none from hbare] at hsome
      cases hsome
    refine ⟨fun bs hbs => (hsafe.parses hbs).2, ?_, ?_, ?_⟩
    · intro bs hbs
      obtain ⟨j, hj, rfl⟩ := Option.map_eq_some_iff.mp hbs
      rw [(hsafe.names _ d.possible_names).only j hj, hsafe.segment]
      rfl
    · intro check orphan hskip
      have hthere : (d.read (g.path .confirmed)).isSome := by
        by_contra hnot
        have hnone : d.names.lookup (g.path .confirmed) = none := by
          cases hl : d.names.lookup (g.path .confirmed) with
          | none => rfl
          | some j => exact absurd (by rw [Disk.read_of_lookup hl]; rfl) hnot
        have hlists := (hsafe.scanOne cfg
          (f := ⟨g.path .sealed, d.read (g.path .confirmed), check, orphan⟩) rfl rfl).2 hnone
        rw [hlists.1] at hskip
        cases hskip
      exact ⟨hdelivered hthere, hthere⟩
    · intro hgone
      rcases (hsafe.names _ d.possible_names).somewhere with hs | hs | hs
      · rw [Disk.read_of_lookup hs] at hgone
        cases hgone
      · right
        have hcontent : (d.files inode).content = f.bytes := by
          rw [hsafe.segment]
          rfl
        refine ⟨by rw [Disk.read_of_lookup hs, hcontent], ?_⟩
        intro io d' hrun
        have hdir : (g.path .active).dir ≠ quarantineDir cfg.wabDir := by
          rw [show (g.path .active).dir = g.dir from rfl, hg]
          exact shardDirPath_ne_quarantine cfg.wabDir shard
        rw [← hcontent] at hrun
        have hdisk := recoverSegment_disk hsafe.sound hs hdir
          (by rw [hcontent]; exact fun _ _ hp ht => f.known hp ht) hrun
        rw [hcontent, show sealedPathFor (g.path .active) = g.path .sealed from
          sealedPathFor_segPath g.dir g.counter] at hdisk
        exact hdisk
      · left
        obtain ⟨j, hj⟩ := Option.isSome_iff_exists.mp hs
        have hthere : (d.read (g.path .confirmed)).isSome := by
          rw [Disk.read_of_lookup hj]
          rfl
        exact ⟨hdelivered hthere, hthere⟩

/-- The operations of a call, a part at a time. -/
theorem Confirming.Reach.ops {cfg : DrainConfig} {x y : List (Op Path)} {after : SegmentLedger} :
    ∀ {s : Confirming} {d : Disk Path}, s.Reach cfg g file inode →
      s.busy = some (x ++ y, after) → s.disk.run x = some d →
      ({ s with disk := d, busy := some (y, after) } : Confirming).Reach cfg g file inode := by
  induction x with
  | nil =>
    intro s d h hbusy hrun
    cases hrun
    rw [List.nil_append] at hbusy
    rw [← hbusy]
    exact h
  | cons op xs ih =>
    intro s d h hbusy hrun
    rw [Disk.run] at hrun
    split at hrun
    next d₁ hd₁ =>
      exact ih (s := { s with disk := d₁, busy := some (xs ++ y, after) })
        (.step h (.op hbusy hd₁)) rfl hrun
    · cases hrun

/-! ### A concrete confirm -/

/-- A daemon that found the sealed segment of two records. -/
def foundSealed : Confirming :=
  ⟨Disk.single sampleSegment lostRecord.bytes, none, SegmentLedger.new 0, false⟩

theorem foundSealed_start :
    foundSealed.Start ⟨["wab", "shard_00"], 1, by simp⟩ lostRecord.bytes 0 := by
  have honly : ∀ m, foundSealed.disk.Possible m → m = foundSealed.disk.names :=
    fun m hm => hm.of_settled rfl
  refine ⟨rfl, ⟨0, rfl⟩, rfl, Disk.single_sound _ _, rfl, ?_, ?_⟩
  · intro m hm
    rw [honly m hm]
    exact .inl (Disk.single_lookup _ _)
  · intro m hm
    rw [honly m hm]
    decide

/-- A confirm that is about to delete the segment: its sidecar is safe. -/
theorem confirm_crash_safe_deleting :
    ∃ s : Confirming, ∃ after, s.Reach sampleConfig ⟨["wab", "shard_00"], 1, by simp⟩
        lostRecord.bytes 0 ∧
      s.busy = some ([.unlink sampleSegment], after) ∧
      ∀ m, s.disk.Possible m →
        ∃ j, m.lookup (confirmedPathFor sampleSegment) = some j ∧ Complete (s.disk.files j) := by
  have hstart : foundSealed.Reach sampleConfig ⟨["wab", "shard_00"], 1, by simp⟩
      lostRecord.bytes 0 := .start foundSealed_start
  have hconfirm := hstart.step (.confirm 2 calmConfirm rfl rfl)
  obtain ⟨d, hd⟩ := Option.isSome_iff_exists.mp (show (foundSealed.disk.run
    ((confirmAndDelete sampleSegment (foundSealed.file ⟨["wab", "shard_00"], 1, by simp⟩) 2
      calmConfirm).2.take 6)).isSome = true by decide +kernel)
  have hreach := hconfirm.ops (y := [.unlink sampleSegment]) rfl hd
  refine ⟨_, _, hreach, rfl, ?_⟩
  have hsafe := confirm_crash_safe sampleConfig 0 _ (by decide) lostRecord 0 _ hreach
  exact hsafe.1 _ _ rfl

end Weir.Drain

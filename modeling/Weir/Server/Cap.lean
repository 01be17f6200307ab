import Weir.Server.Push
import Weir.Status.Rules
import Mathlib.Algebra.Order.BigOperators.Group.List

/-!
# The WAB cap releases by itself (`config/mod.rs`, `wab/cap.rs`, `status/poll.rs`)

Over the cap nothing is written, so no open segment reaches its size and seals: what the
drain cannot take away is the open segment of each shard. The configuration check keeps
the level at which the cap releases above that.

> `CapConfig.checkWabMaxBytes_eq`: the least cap it accepts is the one it names.

> `Shard.step_below`: a segment left open is below the size at which it seals.

> `cap_releases`: a poll that finds every sealed segment deleted ends the rejection.
-/

namespace Weir.Server

open Weir.Lib Weir.Wab Weir.Status List

/-! ## The configuration -/

/-- `ConfigError::InvalidValue`. -/
structure InvalidValue where
  field : String
  reason : String

/-- What the cap depends on, in the ranges the configuration accepts. -/
structure CapConfig where
  shardCount : Nat
  wabSegmentMaxBytes : Nat
  wabMaxBytes : Nat
  shardCount_range : 1 ≤ shardCount ∧ shardCount ≤ 256
  segment_range : 4096 ≤ wabSegmentMaxBytes ∧ wabSegmentMaxBytes ≤ 4 * 1024 * 1024 * 1024

namespace CapConfig

variable (cfg : CapConfig)

def floor : Nat := saturatingMul cfg.wabSegmentMaxBytes cfg.shardCount

def minimum : Nat := saturatingMul (saturatingAdd (cfg.floor / 9) 1) 10

def tooSmall : InvalidValue :=
  ⟨"wab_max_bytes",
    s!"wab_max_bytes ({cfg.wabMaxBytes}) must be 0 (disabled) or at least {cfg.minimum}: its " ++
    "resume threshold (wab_max_bytes / 10 * 9) has to clear the bytes that cannot be drained " ++
    s!"away — one full active segment per shard, i.e. shard_count ({cfg.shardCount}) * " ++
    s!"wab_segment_max_bytes ({cfg.wabSegmentMaxBytes}) = {cfg.floor} bytes — because an " ++
    "active segment seals only when a write crosses the size threshold, and over the cap " ++
    "there are no writes"⟩

/-- The check of `wab_max_bytes`. -/
def checkWabMaxBytes : Except InvalidValue Unit :=
  if cfg.wabMaxBytes ≠ 0 ∧ cfg.wabMaxBytes / 10 * 9 ≤ cfg.floor then .error cfg.tooSmall
  else .ok ()

/-- Nothing saturates in these ranges. -/
theorem floor_eq : cfg.floor = cfg.wabSegmentMaxBytes * cfg.shardCount ∧
    cfg.minimum = (cfg.floor / 9 + 1) * 10 := by
  have hle : cfg.wabSegmentMaxBytes * cfg.shardCount ≤ 4 * 1024 * 1024 * 1024 * 256 :=
    Nat.mul_le_mul cfg.segment_range.2 cfg.shardCount_range.2
  have hfloor : cfg.floor = cfg.wabSegmentMaxBytes * cfg.shardCount :=
    min_eq_left (hle.trans (by decide))
  refine ⟨hfloor, ?_⟩
  rw [minimum, saturatingMul, saturatingAdd, u64Max]
  omega

theorem checkWabMaxBytes_eq (hcap : cfg.wabMaxBytes ≠ 0) : cfg.checkWabMaxBytes
    = if cfg.minimum ≤ cfg.wabMaxBytes then .ok () else .error cfg.tooSmall := by
  have := cfg.floor_eq.2
  unfold checkWabMaxBytes
  split
  · rw [if_neg (by omega)]
  · rw [if_pos (by omega)]

end CapConfig

/-! ## The segments on disk -/

/-- The files of a directory and their lengths. -/
abbrev Listing := List (String × Nat)

/-- `compute_wab_bytes_on_disk`, when every directory can be read. -/
def computeWabBytesOnDisk (dirs : List (String × Listing)) : Nat :=
  ((dirs.filter fun d => d.1 != "dead_letter" && d.1 != "quarantine").map fun d =>
    ((d.2.filter fun f => (stripSuffix extActive f.1).isSome ||
      (stripSuffix extSealed f.1).isSome).map (·.2)).sum).sum

/-- A shard: its writer, and its sealed segments. -/
structure Shard where
  writer : ShardWriter
  sealed : Listing

/-- The writer writes, or seals, or the drain deletes a segment it confirmed. A segment
that is sealed is `len` bytes long then. -/
inductive ShardAct
  | write (payload : Bytes) (io : WriteIo) (len : Nat)
  | sealCurrent (io : SealIo) (len : Nat)
  | confirm (file : String × Nat)

namespace Shard

/-- The segments of the shard; the open one is as long as its writer counted. A `.wab` that the
writer no longer has, as a flusher that panicked leaves one, is not among them. -/
def files (sh : Shard) : Listing :=
  (sh.writer.active.map fun seg => (seg.path.file, seg.bytesWritten)).toList ++ sh.sealed

/-- The shard after a call of its writer that did not fail. -/
def wrote (sh : Shard) (len : Nat) :
    ShardWriter × Except IoError (Option Path) × List (Op Path) → Option Shard
  | (_, .error _, _) => none
  | (w, .ok rotated, _) => some ⟨w, (rotated.map fun p => (p.file, len)).toList ++ sh.sealed⟩

def step (z : Zstd) (sh : Shard) : ShardAct → Option Shard
  | .write payload io len => sh.wrote len (sh.writer.writeRecord z payload io)
  | .sealCurrent io len => sh.wrote len (sh.writer.sealCurrent io)
  | .confirm file => some { sh with sealed := sh.sealed.erase file }

end Shard

/-- The shards, and the gauge and the flag that a push reads. -/
structure WabState where
  shards : List Shard
  wabBytesNow : Nat
  wabCapRejecting : Bool

/-- A shard acts, the poll scans the shards and the two reserved directories, or a push
asks. A scan that fails changes nothing. -/
inductive WabAct
  | shard (i : Nat) (act : ShardAct)
  | poll (deadLetter quarantine : Listing)
  | push

namespace WabState

/-- `over_wab_cap`, with the flag it leaves behind. -/
def overWabCap (cap : Nat) (s : WabState) : Bool × Bool :=
  evaluate cap s.wabBytesNow s.wabCapRejecting

def step (z : Zstd) (cap : Nat) (s : WabState) : WabAct → Option WabState
  | .shard i act => do
    let sh ← (← s.shards[i]?).step z act
    return { s with shards := s.shards.set i sh }
  | .poll deadLetter quarantine =>
    let bytes := computeWabBytesOnDisk (("dead_letter", deadLetter) :: ("quarantine", quarantine) ::
      s.shards.map fun sh => (sh.writer.shardDir.getLastD "", sh.files))
    some { s with
      wabBytesNow := bytes
      wabCapRejecting := (evaluate cap bytes s.wabCapRejecting).2 }
  | .push => some { s with wabCapRejecting := (s.overWabCap cap).2 }

end WabState

/-! ## What cannot be drained -/

/-- The open segment, if there is one, is below the size at which it seals. -/
def Shard.Below (max : Nat) (sh : Shard) : Prop :=
  sh.writer.segmentMaxBytes = max ∧
    ∀ seg, sh.writer.active = some seg → seg.bytesWritten < max

variable {max cap : Nat} {sh sh' : Shard} {z : Zstd}

theorem Shard.Below.write {payload : Bytes} {io : WriteIo} {len : Nat} (hsh : sh.Below max)
    (h : sh.wrote len (sh.writer.writeRecord z payload io) = some sh') : sh'.Below max := by
  unfold ShardWriter.writeRecord at h
  split at h <;> try cases h
  split at h <;> try cases h
  split at h <;> try cases h
  split at h <;> try cases h
  rename_i w₁ opened hopen
  obtain ⟨seg, hseg, hop⟩ := ShardWriter.ensureOpen_ok hopen
  have hmax : w₁.segmentMaxBytes = max := by cases hop <;> exact hsh.1
  rw [hseg] at h
  dsimp only at h
  split at h <;> try cases h
  split at h
  · split at h <;> cases h
    exact ⟨hmax, by simp⟩
  · cases h
    rename_i hrot
    rw [WabSegment.shouldRotate, hmax, decide_eq_true_eq, not_le] at hrot
    refine ⟨hmax, ?_⟩
    rintro _ ⟨⟩
    exact hrot

theorem Shard.step_below {act : ShardAct} (hsh : sh.Below max) (h : sh.step z act = some sh') :
    sh'.Below max := by
  cases act with
  | write payload io len => exact hsh.write h
  | sealCurrent io len =>
    simp only [step, ShardWriter.sealCurrent] at h
    split at h
    next hact => cases h; exact ⟨hsh.1, by simp [hact]⟩
    next => split at h <;> cases h; exact ⟨hsh.1, by simp⟩
  | confirm file => cases h; exact hsh

theorem WabState.step_below {s s' : WabState} {act : WabAct} (h : s.step z cap act = some s')
    (hs : ∀ sh ∈ s.shards, sh.Below max) :
    s'.shards.length = s.shards.length ∧ ∀ sh ∈ s'.shards, sh.Below max := by
  cases act with
  | shard i act =>
    obtain ⟨sh, hi, h⟩ := Option.bind_eq_some_iff.mp h
    obtain ⟨sh', hact, h⟩ := Option.bind_eq_some_iff.mp h
    cases h
    refine ⟨length_set, fun x hx => ?_⟩
    rcases mem_or_eq_of_mem_set hx with hx | rfl
    · exact hs x hx
    · exact Shard.step_below (hs sh (mem_of_getElem? hi)) hact
  | poll | push => cases h; exact ⟨rfl, hs⟩

/-- What a scan finds of shards without sealed segments. -/
theorem computeWabBytesOnDisk_le {shards : List Shard} (hs : ∀ sh ∈ shards, sh.Below max)
    (hnone : ∀ sh ∈ shards, sh.sealed = []) (deadLetter quarantine : Listing) :
    computeWabBytesOnDisk (("dead_letter", deadLetter) :: ("quarantine", quarantine) ::
      shards.map fun sh => (sh.writer.shardDir.getLastD "", sh.files)) ≤ shards.length * max := by
  unfold computeWabBytesOnDisk
  rw [filter_cons_of_neg (by simp), filter_cons_of_neg (by simp)]
  refine (sum_le_card_nsmul _ max ?_).trans ?_
  · simp only [mem_map, mem_filter]
    rintro _ ⟨_, ⟨⟨sh, hmem, rfl⟩, _⟩, rfl⟩
    rw [Shard.files, hnone sh hmem]
    cases hact : sh.writer.active with
    | none => simp
    | some seg =>
      have := (hs sh hmem).2 seg hact
      simp only [Option.map_some, Option.toList_some, append_nil, filter_cons, filter_nil]
      split <;> simp; omega
  · rw [nsmul_eq_mul, length_map]
    exact Nat.mul_le_mul_right _ ((length_filter_le _ _).trans (length_map _).le)

/-! ## The cap releases -/

theorem evaluate_below {bytes : Nat} (h : bytes < lowWater cap) (rejecting : Bool) :
    (evaluate cap bytes rejecting).1 = false := by
  have : bytes < cap := by unfold lowWater at h; omega
  unfold evaluate
  split
  · rfl
  · cases rejecting <;> simp <;> omega

/-- The shards of a daemon that starts, behind a recovery that left no `.wab`: no segment is
open. -/
def CapConfig.Starts (cfg : CapConfig) (s : WabState) : Prop :=
  s.shards.length = cfg.shardCount ∧ ∀ sh ∈ s.shards,
    sh.writer.segmentMaxBytes = cfg.wabSegmentMaxBytes ∧ sh.writer.active = none

/-- The check accepts a cap exactly from the minimum it names on. Under an accepted cap,
in every run without a failed write or seal, a poll that finds the sealed segments deleted
ends the rejection. -/
theorem cap_releases (cfg : CapConfig) (z : Zstd) :
    (cfg.wabMaxBytes ≠ 0 → cfg.checkWabMaxBytes
      = if cfg.minimum ≤ cfg.wabMaxBytes then .ok () else .error cfg.tooSmall) ∧
    (cfg.checkWabMaxBytes = .ok () → ∀ s t, cfg.Starts s →
      Run (WabState.step z cfg.wabMaxBytes) (fun _ _ => True) s t →
        (∀ sh ∈ t.shards, sh.sealed = []) →
      ∀ deadLetter quarantine, ∃ u,
        t.step z cfg.wabMaxBytes (.poll deadLetter quarantine) = some u ∧
        (u.overWabCap cfg.wabMaxBytes).1 = false) := by
  refine ⟨cfg.checkWabMaxBytes_eq, fun hok s t hstart hrun hnone deadLetter quarantine => ?_⟩
  obtain ⟨hlen, hbelow⟩ : t.shards.length = cfg.shardCount ∧
      ∀ sh ∈ t.shards, sh.Below cfg.wabSegmentMaxBytes := by
    refine Run.invariant (P := fun s => s.shards.length = cfg.shardCount ∧ ∀ sh ∈ s.shards,
      sh.Below cfg.wabSegmentMaxBytes) (fun s l s' _ hs h => ?_) hrun
      ⟨hstart.1, fun sh hsh => ⟨(hstart.2 sh hsh).1, by simp [(hstart.2 sh hsh).2]⟩⟩
    obtain ⟨hlen, hbelow⟩ := WabState.step_below hs h.2
    exact ⟨hlen.trans h.1, hbelow⟩
  refine ⟨_, rfl, ?_⟩
  have hle := computeWabBytesOnDisk_le hbelow hnone deadLetter quarantine
  rw [hlen, Nat.mul_comm, ← cfg.floor_eq.1] at hle
  by_cases hcap : cfg.wabMaxBytes = 0
  · rw [WabState.overWabCap, hcap]
    rfl
  unfold CapConfig.checkWabMaxBytes at hok
  split at hok
  · cases hok
  refine evaluate_below (hle.trans_lt ?_) _
  rw [lowWater]
  omega

/-- One shard with these sealed segments, under a cap of 4560 bytes. -/
def oneShardWab (sealed : Listing) (wabBytesNow : Nat) (wabCapRejecting : Bool) : WabState :=
  ⟨[⟨.new 0 ["wab", "shard_00"] 4096 .none 0, sealed⟩], wabBytesNow, wabCapRejecting⟩

/-- A sealed segment of 5000 bytes raises the flag; it is down once that is deleted. -/
theorem cap_releases_held : ∃ u,
    (oneShardWab [] 5000 true).step .plain 4560 (.poll [] []) = some u ∧
      (u.overWabCap 4560).1 = false := by
  have hpoll : (oneShardWab [("seg_00000001.wab.sealed", 5000)] 0 false).step .plain 4560
      (.poll [] []) = some (oneShardWab [("seg_00000001.wab.sealed", 5000)] 5000 true) := rfl
  have hconfirm : (oneShardWab [("seg_00000001.wab.sealed", 5000)] 5000 true).step .plain 4560
      (.shard 0 (.confirm ("seg_00000001.wab.sealed", 5000)))
        = some (oneShardWab [] 5000 true) := rfl
  exact (cap_releases ⟨1, 4096, 4560, by decide, by decide⟩ .plain).2 rfl _ _
    ⟨rfl, by simp [oneShardWab, ShardWriter.new]⟩
    (.tail (.tail .refl trivial hpoll) trivial hconfirm) (by simp [oneShardWab]) [] []

end Weir.Server

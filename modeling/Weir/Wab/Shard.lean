import Weir.Wab.Segment

/-!
# `ShardWriter` (`wab/segment.rs`)

The owner of one shard's active segment: it opens a segment lazily under the
next counter, compresses, writes, rotates on size, and drops a segment whose
write, seal or fsync failed. What a call can do is said once, by the
constructors of `WriteRecord`, and

> `writeRecord_spec`: every call of `writeRecord` is one of them.

Every later fact about the writer is a case analysis on `WriteRecord`. The
source's panic on the counter `2 ^ 64` is not a branch here: counters are `Nat`,
and a statement that reads one back from a name asks that it fit in 64 bits.
-/

namespace Weir.Wab

open Weir.Lib

/-- Why a `write_record` failed: whether the active segment survived it. -/
inductive WriteFailure
  | recordRejected
  | segmentDropped
  deriving DecidableEq, Repr

structure ShardWriter where
  shardId : UInt16
  shardDir : List String
  nextCounter : Nat
  segmentMaxBytes : Nat
  active : Option WabSegment
  activePath : Option Path
  activeRecords : Nat
  compression : Compression
  compressionLevel : Int
  lastWriteFailure : Option WriteFailure

/-- The outcomes of one `write_record`'s calls. `compressFault` is a codec call
that failed for a reason of its own. -/
structure WriteIo where
  compressFault : Bool
  create : CreateIo
  write : Vectored
  sealIo : SealIo

/-- The stored form of a payload, when the codec gives one. -/
def storedForm (z : Zstd) (c : Compression) (level : Int) (payload : Bytes) : Option Bytes :=
  match c with
  | .none => some payload
  | .zstd => z.compress payload level

namespace ShardWriter

/-- `new_with_store`. -/
def new (shardId : UInt16) (shardDir : List String) (segmentMaxBytes : Nat) (c : Compression)
    (level : Int) : ShardWriter :=
  { shardId := shardId
    shardDir := shardDir
    nextCounter := 1
    segmentMaxBytes := segmentMaxBytes
    active := none
    activePath := none
    activeRecords := 0
    compression := c
    compressionLevel := level
    lastWriteFailure := none }

/-- `last_write_failure`: the conservative reading when nothing is set. -/
def lastFailure (w : ShardWriter) : WriteFailure := w.lastWriteFailure.getD .segmentDropped

/-- `ensure_open`. The counter moves on before the create is tried. -/
def ensureOpen (w : ShardWriter) (io : CreateIo) :
    ShardWriter × Except IoError Unit × List (Op Path) :=
  match w.active with
  | some _ => (w, .ok (), [])
  | none =>
    let path := segmentPath w.shardDir w.nextCounter
    let w := { w with nextCounter := w.nextCounter + 1 }
    match WabSegment.create path w.shardId w.compression io with
    | (.error e, ops) => (w, .error e, ops)
    | (.ok seg, ops) =>
      ({ w with active := some seg, activePath := some path, activeRecords := 0 }, .ok (), ops)

/-- `ShardWriter::write_record`: `some sealed` when the write filled the segment
and it was sealed. -/
def writeRecord (z : Zstd) (w : ShardWriter) (payload : Bytes) (io : WriteIo) :
    ShardWriter × Except IoError (Option Path) × List (Op Path) :=
  if payload = [] then
    ({ w with lastWriteFailure := some .recordRejected },
      .error (IoError.new .invalidInput "empty payload cannot be represented in a WAB segment"), [])
  else if w.compression = .zstd ∧ io.compressFault then
    ({ w with lastWriteFailure := some .recordRejected },
      .error (IoError.new .other "failed to compress a WAB record"), [])
  else
    match storedForm z w.compression w.compressionLevel payload with
    | none =>
      ({ w with lastWriteFailure := some .recordRejected },
        .error (IoError.new .other "failed to compress a WAB record"), [])
    | some stored =>
      match w.ensureOpen io.create with
      | (w, .error e, ops) => ({ w with lastWriteFailure := some .segmentDropped }, .error e, ops)
      | (w, .ok (), opened) =>
        match w.active with
        -- the `expect` of the source: `ensure_open` left a segment open
        | none => (w, .error (IoError.new .other "ensure_open guarantees Some"), opened)
        | some seg =>
          match seg.writeRecord stored io.write with
          | (_, .error e, ops) =>
            ({ w with
                lastWriteFailure := some .segmentDropped
                active := none
                activePath := none }, .error e, opened ++ ops)
          | (seg, .ok (), ops) =>
            let w := { w with active := some seg, activeRecords := w.activeRecords + 1 }
            if seg.shouldRotate w.segmentMaxBytes then
              match seg.seal io.sealIo with
              | (.error e, sealing) =>
                ({ w with
                    active := none
                    lastWriteFailure := some .segmentDropped
                    activePath := none }, .error e, opened ++ ops ++ sealing)
              | (.ok sealed, sealing) =>
                ({ w with active := none, activePath := none, lastWriteFailure := none },
                  .ok (some sealed), opened ++ ops ++ sealing)
            else ({ w with lastWriteFailure := none }, .ok none, opened ++ ops)

/-- `fsync_current`: a no-op with no open segment; a failure retires it. -/
def fsyncCurrent (w : ShardWriter) (fault : Option IoError) :
    ShardWriter × Except IoError Unit × List (Op Path) :=
  match w.active with
  | none => (w, .ok (), [])
  | some seg =>
    match seg.fsync fault with
    | (.error e, ops) => ({ w with active := none, activePath := none }, .error e, ops)
    | (.ok (), ops) => (w, .ok (), ops)

/-- `seal_current`, which the timed seals and the shutdown use. -/
def sealCurrent (w : ShardWriter) (io : SealIo) :
    ShardWriter × Except IoError (Option Path) × List (Op Path) :=
  match w.active with
  | none => ({ w with activePath := none }, .ok none, [])
  | some seg =>
    match seg.seal io with
    | (.error e, ops) => ({ w with active := none, activePath := none }, .error e, ops)
    | (.ok sealed, ops) => ({ w with active := none, activePath := none }, .ok (some sealed), ops)

/-- `drain_address`: the name the drain will read the last record under. -/
def drainAddress (w : ShardWriter) (rotated : Option Path) : Option String :=
  match rotated with
  | some sealed => some (segmentIdentity sealed)
  | none => w.activePath.map fun active => segmentIdentity (sealedPathFor active)

/-! ## What a write can do -/

/-- The writer with its segment open: it was open, or a fresh one was created
under the next counter. -/
inductive Opened (w : ShardWriter) (io : CreateIo) :
    ShardWriter → WabSegment → List (Op Path) → Prop
  | already {seg : WabSegment} (hact : w.active = some seg) : Opened w io w seg []
  | fresh {seg : WabSegment} {ops : List (Op Path)} (hact : w.active = none)
      (hcreate : WabSegment.create (segmentPath w.shardDir w.nextCounter) w.shardId w.compression io
        = (.ok seg, ops)) :
      Opened w io
        { w with
          nextCounter := w.nextCounter + 1
          active := some seg
          activePath := some (segmentPath w.shardDir w.nextCounter)
          activeRecords := 0 } seg ops

/-- The six things a `write_record` can do. -/
inductive WriteRecord (z : Zstd) (w : ShardWriter) (payload : Bytes) (io : WriteIo) :
    ShardWriter → Except IoError (Option Path) → List (Op Path) → Prop
  | rejected (e : IoError) :
      WriteRecord z w payload io { w with lastWriteFailure := some .recordRejected } (.error e) []
  | openFailed {e : IoError} {ops : List (Op Path)} (hact : w.active = none)
      (hcreate : WabSegment.create (segmentPath w.shardDir w.nextCounter) w.shardId w.compression
        io.create = (.error e, ops)) :
      WriteRecord z w payload io
        { w with nextCounter := w.nextCounter + 1, lastWriteFailure := some .segmentDropped }
        (.error e) ops
  | writeFailed {stored : Bytes} {w₁ : ShardWriter} {seg seg' : WabSegment} {e : IoError}
      {opened ops : List (Op Path)}
      (hstored : storedForm z w.compression w.compressionLevel payload = some stored)
      (hopen : Opened w io.create w₁ seg opened)
      (hwrite : seg.writeRecord stored io.write = (seg', .error e, ops)) :
      WriteRecord z w payload io
        { w₁ with lastWriteFailure := some .segmentDropped, active := none, activePath := none }
        (.error e) (opened ++ ops)
  | written {stored : Bytes} {w₁ : ShardWriter} {seg : WabSegment} {opened : List (Op Path)}
      (hstored : storedForm z w.compression w.compressionLevel payload = some stored)
      (hopen : Opened w io.create w₁ seg opened) (hok : StoredOk seg.compression stored)
      (hpoison : seg.poisoned = false) :
      WriteRecord z w payload io
        { w₁ with
          active := some (seg.accept stored)
          activeRecords := w₁.activeRecords + 1
          lastWriteFailure := none }
        (.ok none) (opened ++ [.append seg.path (encodeRecord stored)])
  | rotated {stored : Bytes} {w₁ : ShardWriter} {seg : WabSegment} {sealed : Path}
      {opened sealing : List (Op Path)}
      (hstored : storedForm z w.compression w.compressionLevel payload = some stored)
      (hopen : Opened w io.create w₁ seg opened) (hok : StoredOk seg.compression stored)
      (hpoison : seg.poisoned = false)
      (hseal : (seg.accept stored).seal io.sealIo = (.ok sealed, sealing)) :
      WriteRecord z w payload io
        { w₁ with
          active := none
          activePath := none
          activeRecords := w₁.activeRecords + 1
          lastWriteFailure := none }
        (.ok (some sealed)) (opened ++ [.append seg.path (encodeRecord stored)] ++ sealing)
  | sealFailed {stored : Bytes} {w₁ : ShardWriter} {seg : WabSegment} {e : IoError}
      {opened sealing : List (Op Path)}
      (hstored : storedForm z w.compression w.compressionLevel payload = some stored)
      (hopen : Opened w io.create w₁ seg opened) (hok : StoredOk seg.compression stored)
      (hpoison : seg.poisoned = false)
      (hseal : (seg.accept stored).seal io.sealIo = (.error e, sealing)) :
      WriteRecord z w payload io
        { w₁ with
          active := none
          activePath := none
          activeRecords := w₁.activeRecords + 1
          lastWriteFailure := some .segmentDropped }
        (.error e) (opened ++ [.append seg.path (encodeRecord stored)] ++ sealing)

variable {w : ShardWriter} {ops : List (Op Path)} {w₁ : ShardWriter} {io : CreateIo}

theorem Opened.eq_of_active {seg seg₀ : WabSegment}
    (h : Opened w io w₁ seg ops) (hact : w.active = some seg₀) :
    w₁ = w ∧ seg = seg₀ ∧ ops = [] := by
  cases h with
  | already hact' =>
    rw [hact] at hact'
    exact ⟨rfl, (Option.some.inj hact').symm, rfl⟩
  | fresh hact' _ => rw [hact] at hact'; cases hact'

/-- Opening changes nothing of the writer's configuration. -/
theorem Opened.codec {seg : WabSegment} (h : Opened w io w₁ seg ops) :
    w₁.compression = w.compression ∧ w₁.compressionLevel = w.compressionLevel := by
  cases h <;> exact ⟨rfl, rfl⟩

/-- A writer compresses all its records alike. -/
theorem WriteRecord.codec {z : Zstd} {w' : ShardWriter} {payload : Bytes} {io : WriteIo}
    {r : Except IoError (Option Path)} (h : WriteRecord z w payload io w' r ops) :
    w'.compression = w.compression ∧ w'.compressionLevel = w.compressionLevel := by
  cases h with
  | rejected e | openFailed _ _ => exact ⟨rfl, rfl⟩
  | writeFailed _ hopen _ => exact hopen.codec
  | written _ hopen _ _ => exact hopen.codec
  | rotated _ hopen _ _ _ => exact hopen.codec
  | sealFailed _ hopen _ _ _ => exact hopen.codec

/-- `ensure_open` succeeds exactly by having or making an open segment. -/
theorem ensureOpen_ok (h : w.ensureOpen io = (w₁, .ok (), ops)) :
    ∃ seg, w₁.active = some seg ∧ Opened w io w₁ seg ops := by
  unfold ensureOpen at h
  split at h
  next seg hact =>
    obtain ⟨rfl, rfl⟩ := h
    exact ⟨seg, hact, .already hact⟩
  next hact =>
    dsimp only at h
    split at h
    · cases h
    rename_i seg ops' hcreate
    obtain ⟨rfl, rfl⟩ := h
    exact ⟨seg, rfl, .fresh hact hcreate⟩

theorem ensureOpen_error {e : IoError} (h : w.ensureOpen io = (w₁, .error e, ops)) :
    w.active = none ∧ w₁ = { w with nextCounter := w.nextCounter + 1 } ∧
      WabSegment.create (segmentPath w.shardDir w.nextCounter) w.shardId w.compression io
        = (.error e, ops) := by
  unfold ensureOpen at h
  split at h
  · cases h
  rename_i hact
  dsimp only at h
  split at h
  next e' ops' hcreate =>
    obtain ⟨rfl, rfl, rfl⟩ := h
    exact ⟨hact, rfl, hcreate⟩
  · cases h

/-- Every `write_record` is one of the six. -/
theorem writeRecord_spec (z : Zstd) (w : ShardWriter) (payload : Bytes) (io : WriteIo) :
    WriteRecord z w payload io (w.writeRecord z payload io).1 (w.writeRecord z payload io).2.1
      (w.writeRecord z payload io).2.2 := by
  unfold writeRecord
  split
  · exact .rejected _
  split
  · exact .rejected _
  split
  · exact .rejected _
  rename_i stored hstored
  split
  next w₁ e ops hopen =>
    obtain ⟨hact, rfl, hcreate⟩ := ensureOpen_error hopen
    exact .openFailed hact hcreate
  next w₁ opened hopen =>
    obtain ⟨seg, hseg, hop⟩ := ensureOpen_ok hopen
    rw [hseg]
    dsimp only
    split
    next seg' e ops hwrite => exact .writeFailed hstored hop hwrite
    next seg' ops hwrite =>
      obtain ⟨hpoison, hok, rfl, rfl⟩ := WabSegment.writeRecord_ok hwrite
      split
      · split
        next e sealing hseal => exact .sealFailed hstored hop hok hpoison hseal
        next sealed sealing hseal => exact .rotated hstored hop hok hpoison hseal
      · exact .written hstored hop hok hpoison

end ShardWriter

end Weir.Wab

import Weir.Wab.Reader

/-!
# `RecoveryReader` (`weir-wab/src/recovery_reader.rs`)

The forensic reader goes on where `SegmentReader` stops: a record that fails its
CRC is stepped over by the length it declares, and three such records in a row, a
length above the cap or an end in the wrong place end the walk with `Desynced`.

Its walk is a walk over the frames that stand in the file (`frameAt`), whoever put
them there:

> `next_turn`: what one call of `next` can do.

> `tiles_behind`: behind a length that was changed, what is yielded is an intact
> frame at some offset behind it.
-/

namespace Weir.Wab

open Weir.Lib List

def maxConsecutiveSkips : Nat := 3

/-- `RecoveryItem`. -/
inductive RecoveryItem
  | record (payload : Bytes)
  | skipped (offset declaredLen : Nat) (reason : String)
  | desynced (offset : Nat) (reason : String)
  deriving DecidableEq, Repr

structure RecoveryReader where
  file : Bytes
  header : SegmentHeaderMeta
  pos : Nat
  fileLen : Nat
  done : Bool
  consecutiveSkips : Nat
  pendingDesync : Option (Nat × String)
  deriving DecidableEq, Repr

namespace RecoveryReader

/-- `RecoveryReader::open`; `stat` is the error of `metadata`, if it fails. -/
def «open» (file : Bytes) (fault : ReadFault) (stat : Option IoError) :
    Except IoError RecoveryReader :=
  match stat with
  | some e => .error e
  | none =>
    match readExact file fault 0 segmentHeaderLen with
    | .error e =>
      if e.kind = .unexpectedEof then
        .error tooShort
      else .error e
    | .ok header =>
      match parseSegmentHeader header with
      | .error e => .error (IoError.new .invalidData e.display)
      | .ok m => .ok ⟨file, m, segmentHeaderLen, file.length, false, 0, none⟩

/-- `is_sentinel_offset`. -/
def isSentinelOffset (r : RecoveryReader) (offset : Nat) : Bool :=
  offset + 4 + segmentFooterLen = r.fileLen || offset + 4 = r.fileLen

/-- `desync`. -/
def desync (r : RecoveryReader) (offset : Nat) (reason : String) :
    Option RecoveryItem × RecoveryReader :=
  (some (.desynced offset reason), { r with done := true })

/-- `next`, where the record behind the fields is read. -/
def nextStored (z : Zstd) (r : RecoveryReader) (expectedCrc : UInt32) (stored : Bytes) :
    Option RecoveryItem × RecoveryReader :=
  let moved := { r with pos := r.pos + 8 + stored.length }
  if crc32 stored ≠ expectedCrc then
    let skips := r.consecutiveSkips + 1
    -- this record still reports its own `Skipped`; the desync follows on the next call
    let pending :=
      if skips ≥ maxConsecutiveSkips then
        some (r.pos, s!"{maxConsecutiveSkips} consecutive records failed verification; "
          ++ "the record framing is lost")
      else none
    (some (.skipped r.pos stored.length "CRC mismatch"),
      { moved with consecutiveSkips := skips, pendingDesync := pending })
  else
    match decodeStored z r.header.compression stored with
    | some plain => (some (.record plain), { moved with consecutiveSkips := 0 })
    | none =>
      (some (.skipped r.pos stored.length "decompression failed"),
        { moved with consecutiveSkips := 0 })

/-- `RecoveryReader::next`. -/
def next (z : Zstd) (fault : ReadFault) (r : RecoveryReader) :
    Option RecoveryItem × RecoveryReader :=
  match r.pendingDesync with
  | some (offset, reason) =>
    (some (.desynced offset reason), { r with pendingDesync := none, done := true })
  | none =>
    if r.done then (none, r)
    else
      match readExact r.file fault r.pos 4 with
      | .error e =>
        if e.kind = .unexpectedEof then
          if r.pos = r.fileLen then (none, { r with done := true })
          else r.desync r.pos (s!"{r.fileLen - r.pos} trailing byte(s) at EOF: a partial length "
            ++ "field, so the record stream did not end on a frame boundary")
        else r.desync r.pos ("read length field: " ++ e.message)
      | .ok lenBuf =>
        let declaredLen := leNat lenBuf
        if declaredLen = 0 then
          if r.isSentinelOffset r.pos then (none, { r with done := true })
          else r.desync r.pos (s!"four zero bytes at offset {r.pos}, which is not where a "
            ++ s!"sentinel can sit in a {r.fileLen}-byte segment; the reader has drifted into "
            ++ "payload and cannot locate the next record")
        else if declaredLen > r.header.compression.storedCap then
          r.desync r.pos (s!"record declares {declaredLen} bytes, above the stored cap "
            ++ s!"{r.header.compression.storedCap}; cannot locate the next record")
        else
          match readExact r.file fault (r.pos + 4) 4 with
          | .error e => r.desync r.pos ("read CRC field: " ++ e.message)
          | .ok crcBuf =>
            match readExact r.file fault (r.pos + 8) declaredLen with
            | .error e =>
              r.desync r.pos (s!"truncated: record declares {declaredLen} bytes, read failed: "
                ++ e.message)
            | .ok stored => r.nextStored z (UInt32.ofNat (leNat crcBuf)) stored

/-- The items of the iterator, to its end. -/
def collect (z : Zstd) (fault : ReadFault) : Nat → RecoveryReader →
    List RecoveryItem × RecoveryReader
  | 0, r => ([], r)
  | fuel + 1, r =>
    match r.next z fault with
    | (none, r') => ([], r')
    | (some item, r') => (item :: (collect z fault fuel r').1, (collect z fault fuel r').2)

/-- Every item moves the reader by a frame or ends it, so this much fuel is enough
(`collect_stable`). -/
def readAll (z : Zstd) (fault : ReadFault) (r : RecoveryReader) : List RecoveryItem :=
  (r.collect z fault (r.file.length + 3)).1

end RecoveryReader

/-! ## Frames -/

/-- A CRC field and the bytes behind it. -/
structure Frame where
  crc : UInt32
  stored : Bytes
  deriving DecidableEq

/-- The bytes at an offset, read as a record: a length that is allowed, a CRC, and as many bytes
as the length says. -/
def frameAt (c : Compression) (file : Bytes) (pos : Nat) : Option Frame :=
  let len := leNat (slice file pos (pos + 4))
  if 0 < len ∧ len ≤ c.storedCap ∧ pos + 8 + len ≤ file.length then
    some ⟨UInt32.ofNat (leNat (slice file (pos + 4) (pos + 4 + 4))),
      slice file (pos + 8) (pos + 8 + len)⟩
  else none

def Frame.intact (f : Frame) : Bool := decide (crc32 f.stored = f.crc)

/-- A legitimate end of the records: the end of the file, or a sentinel that is the last thing in
it or stands just before a footer. -/
def CleanEnd (file : Bytes) (pos : Nat) : Prop :=
  pos = file.length ∨
    slice file pos (pos + 4) = buildSentinel ∧
      (pos + 4 = file.length ∨ pos + 4 + segmentFooterLen = file.length)

variable {pos : Nat} {c : Compression} {file rest : Bytes} {f : Frame} {stat : Option IoError}

theorem frameAt_some (h : frameAt c file pos = some f) :
    0 < f.stored.length ∧ pos + 8 + f.stored.length ≤ file.length := by
  unfold frameAt at h
  dsimp only at h
  split at h
  next hlen =>
    cases h
    have hstored := slice_length (a := pos + 8) hlen.2.2
    rw [Nat.add_sub_cancel_left] at hstored
    rw [hstored]
    exact ⟨hlen.1, hlen.2.2⟩
  · cases h

/-- The bytes of a frame: its length, its CRC field and what is stored. -/
def Frame.encode (f : Frame) : Bytes :=
  leBytes 4 f.stored.length ++ leBytes 4 f.crc.toNat ++ f.stored

theorem Frame.encode_length (f : Frame) : f.encode.length = 8 + f.stored.length := by
  simp only [Frame.encode, length_append, leBytes_length]

/-- The frame that stands in the file is the one that was put there, whatever its CRC. -/
theorem frameAt_encode (hs : StoredOk c f.stored) (hpos : pos ≤ file.length)
    (hd : file.drop pos = f.encode ++ rest) : frameAt c file pos = some f := by
  obtain ⟨crc, s⟩ := f
  have h0 : file.drop pos = leBytes 4 s.length ++ (leBytes 4 crc.toNat ++ (s ++ rest)) := by
    rw [hd, Frame.encode, append_assoc, append_assoc]
  obtain ⟨h4, h8, _⟩ := drop_frame h0
  have hlen : file.length - pos = 8 + s.length + rest.length := by
    rw [← length_drop, hd, length_append, Frame.encode_length]
  have hfield : slice file pos (pos + 4) = leBytes 4 s.length := by
    rw [slice, h0, Nat.add_sub_cancel_left, take_left' (leBytes_length 4 _)]
  have hcrc : slice file (pos + 4) (pos + 4 + 4) = leBytes 4 crc.toNat := by
    rw [slice, h4, Nat.add_sub_cancel_left, take_left' (leBytes_length 4 _)]
  have hstored : slice file (pos + 8) (pos + 8 + s.length) = s := by
    rw [slice, h8, Nat.add_sub_cancel_left, take_left]
  have hword : UInt32.ofNat (leNat (leBytes 4 crc.toNat)) = crc := by
    rw [leNat_leBytes_of_lt crc.toNat_lt]
    simp
  have hpos' := hs.1
  have hcap := hs.2
  simp only [frameAt, hfield, hs.leNat_len, hcrc, hstored, hword]
  exact if_pos ⟨hpos', hcap, by omega⟩

/-- The frame of a well-formed record. -/
theorem frameAt_record {s : Bytes} (hs : StoredOk c s) (hpos : pos ≤ file.length)
    (hd : file.drop pos = encodeRecord s ++ rest) :
    frameAt c file pos = some ⟨crc32 s, s⟩ :=
  frameAt_encode hs hpos hd

/-! ## One call of `next` -/

namespace RecoveryReader

/-- The reader behind a frame, with so many failures in a row. -/
def behind (r : RecoveryReader) (f : Frame) (skips : Nat) : RecoveryReader :=
  { r with pos := r.pos + 8 + f.stored.length, consecutiveSkips := skips }

/-- What `next` can do, in a reader that has not ended. -/
inductive Turn (z : Zstd) (fault : ReadFault) (r : RecoveryReader) :
    Option RecoveryItem → RecoveryReader → Prop
  | clean (hend : CleanEnd r.file r.pos)
      (hnone : frameAt r.header.compression r.file r.pos = none) :
      Turn z fault r none { r with done := true }
  | lost (reason : String)
      (hnone : fault = noFault → frameAt r.header.compression r.file r.pos = none) :
      Turn z fault r (some (.desynced r.pos reason)) { r with done := true }
  | failed (f : Frame) (hf : frameAt r.header.compression r.file r.pos = some f)
      (hbad : f.intact = false) (hskips : r.consecutiveSkips + 1 < maxConsecutiveSkips) :
      Turn z fault r (some (.skipped r.pos f.stored.length "CRC mismatch"))
        (r.behind f (r.consecutiveSkips + 1))
  | failedLast (f : Frame) (hf : frameAt r.header.compression r.file r.pos = some f)
      (hbad : f.intact = false) (hskips : maxConsecutiveSkips ≤ r.consecutiveSkips + 1)
      (reason : String) :
      Turn z fault r (some (.skipped r.pos f.stored.length "CRC mismatch"))
        { r.behind f (r.consecutiveSkips + 1) with pendingDesync := some (r.pos, reason) }
  | undecoded (f : Frame) (hf : frameAt r.header.compression r.file r.pos = some f)
      (hok : f.intact = true) (hnone : decodeStored z r.header.compression f.stored = none)
      (reason : String) :
      Turn z fault r (some (.skipped r.pos f.stored.length reason)) (r.behind f 0)
  | record (f : Frame) (hf : frameAt r.header.compression r.file r.pos = some f)
      (hok : f.intact = true) (plain : Bytes)
      (hplain : decodeStored z r.header.compression f.stored = some plain) :
      Turn z fault r (some (.record plain)) (r.behind f 0)

/-- A reader that has not ended. -/
structure Live (r : RecoveryReader) : Prop where
  done : r.done = false
  pending : r.pendingDesync = none
  fileLen : r.fileLen = r.file.length
  inside : r.pos ≤ r.file.length

variable {r : RecoveryReader} {f : Frame} {item : RecoveryItem}

theorem nextStored_turn (z : Zstd) (fault : ReadFault)
    (hpending : r.pendingDesync = none) (hf : frameAt r.header.compression r.file r.pos = some f) :
    Turn z fault r (r.nextStored z f.crc f.stored).1 (r.nextStored z f.crc f.stored).2 := by
  obtain ⟨file, header, pos, fileLen, done, skips, pending⟩ := r
  obtain rfl : pending = none := hpending
  unfold nextStored
  dsimp only
  split
  next hbad =>
    have hbad' : f.intact = false := decide_eq_false hbad
    by_cases hskips : skips + 1 < maxConsecutiveSkips
    · rw [if_neg (by omega)]
      exact Turn.failed f hf hbad' hskips
    · rw [if_pos (by omega)]
      exact Turn.failedLast f hf hbad' (by dsimp only; omega) _
  next hok =>
    have hok' : f.intact = true := decide_eq_true (Decidable.not_not.mp hok)
    split
    next plain hplain => exact Turn.record f hf hok' plain hplain
    next hnone => exact Turn.undecoded f hf hok' hnone _

theorem next_turn (z : Zstd) (fault : ReadFault) (h : r.Live) :
    Turn z fault r (r.next z fault).1 (r.next z fault).2 := by
  obtain ⟨file, header, pos, fileLen, done, skips, pending⟩ := r
  obtain ⟨rfl, rfl, hfileLen, hinside⟩ := h
  obtain rfl : fileLen = file.length := hfileLen
  unfold next
  dsimp only
  rw [if_neg Bool.false_ne_true]
  split
  next e hread =>
    split
    next hkind =>
      have hshort : file.length < pos + 4 := readExact_eof hread hkind
      have hnone : frameAt header.compression file pos = none := by
        rw [frameAt, if_neg (by omega)]
      split
      next hpos => exact .clean (.inl hpos) hnone
      · exact .lost _ fun _ => hnone
    · refine .lost _ fun hfault => ?_
      have hshort := readExact_error (hfault ▸ hread)
      rw [frameAt, if_neg (by dsimp only; omega)]
  rename_i lenBuf hread
  obtain ⟨rfl, hfour⟩ := readExact_slice hread
  split
  next hzero =>
    have hnone : frameAt header.compression file pos = none := by
      rw [frameAt, if_neg (by omega)]
    have hsentinel : slice file pos (pos + 4) = buildSentinel :=
      eq_sentinel (by rw [slice_length hfour]; omega) hzero
    split
    next hoffset =>
      refine .clean (.inr ⟨hsentinel, ?_⟩) hnone
      simp only [isSentinelOffset, Bool.or_eq_true, decide_eq_true_eq] at hoffset
      dsimp only
      omega
    · exact .lost _ fun _ => hnone
  rename_i hzero
  split
  next hcap =>
    refine .lost _ fun _ => ?_
    rw [frameAt, if_neg (by dsimp only at hcap ⊢; omega)]
  rename_i hcap
  split
  next e hcrc =>
    refine .lost _ fun hfault => ?_
    have hshort := readExact_error (hfault ▸ hcrc)
    rw [frameAt, if_neg (by dsimp only; omega)]
  rename_i crcBuf hcrc
  obtain ⟨rfl, -⟩ := readExact_slice hcrc
  split
  next e hstored =>
    refine .lost _ fun hfault => ?_
    have hshort := readExact_error (hfault ▸ hstored)
    rw [frameAt, if_neg (by dsimp only; omega)]
  rename_i stored hstored
  obtain ⟨rfl, hle⟩ := readExact_slice hstored
  exact nextStored_turn z fault rfl (f := Frame.mk _ _)
    (if_pos ⟨Nat.pos_of_ne_zero hzero, Nat.le_of_not_gt hcap, hle⟩)

/-! ## The whole walk -/

/-- A reader as `next` keeps it: inside the file whose length it knows. -/
structure Sound (r : RecoveryReader) : Prop where
  fileLen : r.fileLen = r.file.length
  inside : r.pos ≤ r.file.length

/-- An upper bound on the items to come. -/
def left (r : RecoveryReader) : Nat :=
  if r.pendingDesync.isSome then 1
  else if r.done then 0
  else r.file.length - r.pos + 2

theorem left_lt (r : RecoveryReader) : r.left < r.file.length + 3 := by
  unfold left
  split
  · omega
  · split <;> omega

theorem Sound.live (h : r.Sound) (hdone : r.done = false) (hpending : r.pendingDesync = none) :
    r.Live := ⟨hdone, hpending, h.fileLen, h.inside⟩

theorem Live.left_eq (h : r.Live) : r.left = r.file.length - r.pos + 2 := by
  rw [left, h.pending, h.done]
  rfl

/-- Behind a frame there is less to come. -/
theorem Live.behind (h : r.Live)
    (hf : frameAt r.header.compression r.file r.pos = some f) (skips : Nat) :
    (r.behind f skips).Live ∧ (r.behind f skips).left < r.left := by
  obtain ⟨hpos, hin⟩ := frameAt_some hf
  have hlive : (r.behind f skips).Live := ⟨h.done, h.pending, h.fileLen, hin⟩
  refine ⟨hlive, ?_⟩
  rw [hlive.left_eq, h.left_eq]
  show r.file.length - (r.pos + 8 + f.stored.length) + 2 < _
  omega

theorem Live.sound (h : r.Live) : r.Sound := ⟨h.fileLen, h.inside⟩

variable {fault : ReadFault} {z : Zstd} {r' : RecoveryReader}

/-- Every item brings the reader closer to its end. -/
theorem next_some (h : r.Sound) (hnext : r.next z fault = (some item, r')) :
    r'.file = r.file ∧ r'.Sound ∧ r'.left < r.left := by
  cases hpending : r.pendingDesync with
  | some d =>
    rw [next, hpending] at hnext
    cases hnext
    refine ⟨rfl, ⟨h.fileLen, h.inside⟩, ?_⟩
    simp [left, hpending]
  | none =>
    cases hdone : r.done with
    | true =>
      rw [next, hpending, hdone] at hnext
      cases hnext
    | false =>
      have hlive := h.live hdone hpending
      have hturn := next_turn z fault hlive
      have hleft := hlive.left_eq
      rw [hnext] at hturn
      cases hturn with
      | lost reason _ =>
        refine ⟨rfl, ⟨h.fileLen, h.inside⟩, ?_⟩
        simp only [left, hpending, Option.isSome_none, Bool.false_eq_true, if_false, if_true, hdone]
        omega
      | failed f hf _ _ =>
        obtain ⟨hlive', hlt⟩ := hlive.behind hf (r.consecutiveSkips + 1)
        exact ⟨rfl, hlive'.sound, hlt⟩
      | failedLast f hf _ _ reason =>
        obtain ⟨hlive', -⟩ := hlive.behind hf (r.consecutiveSkips + 1)
        refine ⟨rfl, ⟨hlive'.fileLen, hlive'.inside⟩, ?_⟩
        rw [hleft]
        simp only [left, Option.isSome_some, if_true]
        omega
      | undecoded f hf _ _ _ | record f hf _ plain _ =>
        obtain ⟨hlive', hlt⟩ := hlive.behind hf 0
        exact ⟨rfl, hlive'.sound, hlt⟩

theorem collect_stable (n m : Nat) (r : RecoveryReader) :
    r.Sound → r.left < n → r.left < m →
      r.collect z fault n = r.collect z fault m := by
  induction n generalizing m r with
  | zero => intro _ hn; omega
  | succ n ih =>
    intro h hn hm
    cases m with
    | zero => omega
    | succ m =>
      unfold collect
      split
      · rfl
      next item r' hnext =>
        obtain ⟨-, hsound, hlt⟩ := next_some h hnext
        rw [ih m r' hsound (by omega) (by omega)]

theorem readAll_nil (hnext : r.next z fault = (none, r')) : r.readAll z fault = [] := by
  rw [readAll, collect, hnext]

theorem readAll_cons (h : r.Sound) (hnext : r.next z fault = (some item, r')) :
    r.readAll z fault = item :: r'.readAll z fault := by
  obtain ⟨hfile, hsound, hlt⟩ := next_some h hnext
  have hbound := r.left_lt
  rw [readAll, collect, hnext]
  dsimp only
  rw [collect_stable (r.file.length + 2) (r'.file.length + 3) r' hsound (by omega)
    r'.left_lt, readAll]

/-- To prove something of a walk, prove it of its end and of each item. -/
theorem readAll_induction {motive : RecoveryReader → List RecoveryItem → Prop}
    (stop : ∀ r r', r.Sound → r.next z fault = (none, r') → motive r [])
    (step : ∀ r r' item, r.Sound → r.next z fault = (some item, r') →
      motive r' (r'.readAll z fault) → motive r (item :: r'.readAll z fault)) :
    ∀ r, r.Sound → motive r (r.readAll z fault) := by
  have hbounded : ∀ (n : Nat) (r : RecoveryReader), r.left < n → r.Sound →
      motive r (r.readAll z fault) := by
    intro n
    induction n with
    | zero => intro r hn; omega
    | succ n ih =>
      intro r hn h
      cases hnext : r.next z fault with
      | mk item r' =>
        cases item with
        | none =>
          rw [readAll_nil hnext]
          exact stop r r' h hnext
        | some item =>
          obtain ⟨-, hsound, hlt⟩ := next_some h hnext
          rw [readAll_cons h hnext]
          exact step r r' item h hnext (ih r' (by omega) hsound)
  exact fun r h => hbounded (r.left + 1) r (Nat.lt_succ_self _) h

/-- The frames of the items, end to end from `lo` to `hi`. -/
def Tiles (z : Zstd) (c : Compression) (file : Bytes) : Nat → List RecoveryItem → Nat → Prop
  | lo, [], hi => lo = hi
  | lo, .record p :: items, hi => ∃ f, frameAt c file lo = some f ∧ f.intact = true ∧
      decodeStored z c f.stored = some p ∧ Tiles z c file (lo + 8 + f.stored.length) items hi
  | lo, .skipped offset len _ :: items, hi => offset = lo ∧ ∃ f, frameAt c file lo = some f ∧
      f.stored.length = len ∧ Tiles z c file (lo + 8 + len) items hi
  | _, .desynced _ _ :: _, _ => False

/-- The frame of a record stands at or behind the first one. -/
theorem Tiles.frame {p : Bytes} {items : List RecoveryItem} :
    ∀ {lo hi : Nat}, Tiles z c file lo items hi → .record p ∈ items →
      ∃ pos f, lo ≤ pos ∧ frameAt c file pos = some f ∧ f.intact = true ∧
        decodeStored z c f.stored = some p := by
  induction items with
  | nil => exact fun _ hmem => nomatch hmem
  | cons item items ih =>
    intro lo hi h hmem
    cases item with
    | record q =>
      obtain ⟨f, hf, hok, hq, hrest⟩ := h
      rcases mem_cons.mp hmem with heq | hmem
      · cases heq
        exact ⟨lo, f, le_rfl, hf, hok, hq⟩
      · obtain ⟨pos, f, hle, hframe⟩ := ih hrest hmem
        exact ⟨pos, f, by omega, hframe⟩
    | skipped offset len reason =>
      obtain ⟨-, f, -, -, hrest⟩ := h
      obtain ⟨pos, f, hle, hframe⟩ := ih hrest ((mem_cons.mp hmem).resolve_left nofun)
      exact ⟨pos, f, by omega, hframe⟩
    | desynced => exact h.elim

theorem Tiles.starts {items : List RecoveryItem} {lo hi : Nat} (h : Tiles z c file lo items hi)
    (hne : items ≠ []) : frameAt c file lo ≠ none := by
  cases items with
  | nil => exact absurd rfl hne
  | cons item items =>
    cases item with
    | record => obtain ⟨f, hf, -⟩ := h; simp [hf]
    | skipped => obtain ⟨-, f, hf, -⟩ := h; simp [hf]
    | desynced => exact h.elim

theorem readAll_done (hdone : r.done = true) (hpending : r.pendingDesync = none) :
    r.readAll z fault = [] := by
  have hnext : r.next z fault = (none, r) := by
    rw [next, hpending]
    exact if_pos hdone
  exact readAll_nil hnext

variable {r : RecoveryReader}

/-- With reads that do not fail, the reader takes the frame that stands where it is. -/
theorem next_frame (z : Zstd) (h : r.Live) {f : Frame}
    (hf : frameAt r.header.compression r.file r.pos = some f) :
    (f.intact = true → ∃ item, r.next z noFault = (some item, r.behind f 0) ∧
      ∀ p, decodeStored z r.header.compression f.stored = some p → item = .record p) ∧
    (f.intact = false → r.consecutiveSkips + 1 < maxConsecutiveSkips →
      r.next z noFault = (some (.skipped r.pos f.stored.length "CRC mismatch"),
        r.behind f (r.consecutiveSkips + 1))) := by
  have hturn := next_turn z noFault h
  generalize hitem : (r.next z noFault).1 = item at hturn
  generalize hnext : (r.next z noFault).2 = r' at hturn
  cases hturn with
  | clean _ hnone => rw [hnone] at hf; cases hf
  | lost reason hnone => rw [hnone rfl] at hf; cases hf
  | failed f' hf' hbad hn =>
    obtain rfl := Option.some.inj (hf.symm.trans hf')
    exact ⟨fun hok => absurd hok (by rw [hbad]; decide), fun _ _ => Prod.ext hitem hnext⟩
  | failedLast f' hf' hbad hn reason =>
    obtain rfl := Option.some.inj (hf.symm.trans hf')
    exact ⟨fun hok => absurd hok (by rw [hbad]; decide), fun _ hlt => absurd hlt (by omega)⟩
  | undecoded f' hf' hok hnone reason =>
    obtain rfl := Option.some.inj (hf.symm.trans hf')
    exact ⟨fun _ => ⟨_, Prod.ext hitem hnext, fun p hp => absurd hp (by rw [hnone]; simp)⟩,
      fun hbad => absurd hbad (by rw [hok]; decide)⟩
  | record f' hf' hok plain hplain =>
    obtain rfl := Option.some.inj (hf.symm.trans hf')
    refine ⟨fun _ => ⟨_, Prod.ext hitem hnext, fun p hp => ?_⟩,
      fun hbad => absurd hbad (by rw [hok]; decide)⟩
    rw [Option.some.inj (hplain.symm.trans hp)]

end RecoveryReader

/-! ## A changed length -/

/-- Other bytes in the place of a length field. -/
def changeLength (file : Bytes) (offset : Nat) (field : Bytes) : Bytes :=
  file.take offset ++ field ++ file.drop (offset + 4)

section

variable {header : Bytes} {ss : List Bytes}

theorem intact_record (s : Bytes) : Frame.intact ⟨crc32 s, s⟩ = true := decide_eq_true rfl

/-- The offset of the `j`th record. -/
def recordOffset (ss : List Bytes) (j : Nat) : Nat :=
  segmentHeaderLen + (encodeRecords (ss.take j)).length

variable {j pos n : Nat}

theorem recordOffset_succ (hj : j < ss.length) :
    recordOffset ss (j + 1) = recordOffset ss j + 8 + ss[j].length := by
  rw [recordOffset, recordOffset, take_succ_eq_append_getElem hj, encodeRecords_append,
    length_append, encodeRecords_cons, length_append, encodeRecord_length,
    encodeRecords_nil, length_nil]
  omega

section

variable (hheader : header.length = segmentHeaderLen) (hok : ∀ s ∈ ss, StoredOk c s)
  (hfile : file = header ++ (encodeRecords ss ++ rest))

include hheader hok hfile

/-- The frame of a record of the file. -/
theorem frameAt_recordOffset (hj : j < ss.length) :
    frameAt c file (recordOffset ss j) = some ⟨crc32 ss[j], ss[j]⟩ := by
  have hss : encodeRecords ss = encodeRecords (ss.take j)
      ++ (encodeRecord ss[j] ++ encodeRecords (ss.drop (j + 1))) := by
    rw [← encodeRecords_cons, ← drop_eq_getElem_cons hj, ← encodeRecords_append,
      take_append_drop]
  have hsplit : file = (header ++ encodeRecords (ss.take j))
      ++ (encodeRecord ss[j] ++ (encodeRecords (ss.drop (j + 1)) ++ rest)) := by
    rw [hfile, hss]
    simp only [append_assoc]
  have hoffset : recordOffset ss j = (header ++ encodeRecords (ss.take j)).length := by
    rw [recordOffset, length_append, hheader]
  rw [hoffset]
  refine frameAt_record (hok _ (getElem_mem hj)) ?_ (by rw [hsplit, drop_left])
  rw [hsplit]
  simp

/-- Frames that stand end to end from a record on: the ones of the records, and then those behind
them, if the bytes behind the last record can be read as a frame. -/
theorem tiles_behind {z : Zstd} {p : Bytes} {items : List RecoveryItem} {hi : Nat} :
    ∀ j ≤ ss.length, RecoveryReader.Tiles z c file (recordOffset ss j) items hi →
      .record p ∈ items → (∃ s ∈ ss, decodeStored z c s = some p) ∨
        frameAt c file (recordOffset ss ss.length) ≠ none ∧
          ∃ pos f, recordOffset ss ss.length ≤ pos ∧ frameAt c file pos = some f ∧
            f.intact = true ∧ decodeStored z c f.stored = some p := by
  induction items with
  | nil => exact fun _ _ _ hmem => nomatch hmem
  | cons item items ih =>
    intro j hj htiles hmem
    by_cases hlt : j < ss.length
    · have hframe := frameAt_recordOffset hheader hok hfile hlt
      have hnext := ih (j + 1) hlt
      rw [recordOffset_succ hlt] at hnext
      cases item with
      | record q =>
        obtain ⟨f, hf, -, hq, hrest⟩ := htiles
        cases hframe.symm.trans hf
        rcases mem_cons.mp hmem with heq | hmem
        · cases heq
          exact .inl ⟨ss[j], getElem_mem hlt, hq⟩
        · exact hnext hrest hmem
      | skipped offset len reason =>
        obtain ⟨rfl, f, hf, rfl, hrest⟩ := htiles
        cases hframe.symm.trans hf
        exact hnext hrest ((mem_cons.mp hmem).resolve_left nofun)
      | desynced => exact htiles.elim
    · obtain rfl : j = ss.length := by omega
      obtain ⟨pos, f, hle, hf, hp⟩ := RecoveryReader.Tiles.frame htiles hmem
      exact .inr ⟨htiles.starts (cons_ne_nil _ _), pos, f, hle, hf, hp⟩

end

end

/-- What the forensic reader yields for a file, whose header it has to open first. -/
def forensicItems (z : Zstd) (fault : ReadFault) (file : Bytes) : List RecoveryItem :=
  match RecoveryReader.open file fault none with
  | .ok r => r.readAll z fault
  | .error _ => []

section

variable {fault : ReadFault} {r : RecoveryReader}
  (h : RecoveryReader.open file fault stat = .ok r)

include h

theorem RecoveryReader.open_ok :
    ∃ m, parseSegmentHeader (file.take segmentHeaderLen) = .ok m ∧
      segmentHeaderLen ≤ file.length ∧
      r = ⟨file, m, segmentHeaderLen, file.length, false, 0, none⟩ := by
  unfold RecoveryReader.open at h
  split at h
  · cases h
  split at h
  · split at h <;> cases h
  rename_i header hread
  obtain ⟨rfl, hle⟩ := readExact_slice hread
  split at h
  · cases h
  next m hm => exact ⟨m, hm, by omega, (Except.ok.inj h).symm⟩

theorem RecoveryReader.open_stat : RecoveryReader.open file fault none = .ok r := by
  cases stat with
  | some e => cases h
  | none => exact h

end

theorem RecoveryReader.open_of_header {file header rest : Bytes} {m : SegmentHeaderMeta}
    (hm : parseSegmentHeader header = .ok m) (hfile : file = header ++ rest) :
    RecoveryReader.open file noFault none
      = .ok ⟨file, m, segmentHeaderLen, file.length, false, 0, none⟩ := by
  have hlen := parseSegmentHeader_length hm
  have hread : readExact file noFault 0 segmentHeaderLen = .ok header :=
    readExact_of_drop rfl (by rw [drop_zero]; exact hfile) hlen (Nat.zero_le _)
  rw [RecoveryReader.open, hread]
  dsimp only
  rw [hm]

theorem RecoveryReader.Live.start (h : segmentHeaderLen ≤ file.length)
    (m : SegmentHeaderMeta) :
    RecoveryReader.Live ⟨file, m, segmentHeaderLen, file.length, false, 0, none⟩ :=
  ⟨rfl, rfl, rfl, h⟩

/-- A file as it is after a change to the length field of one of its records: the records before
it still stand. -/
theorem changeLength_eq {header field : Bytes} {ss : List Bytes} {t : Int64} {k : Nat}
    (hheader : header.length = segmentHeaderLen) :
    ∃ rest, changeLength (sealedBytes header ss t) (recordOffset ss k) field
      = header ++ (encodeRecords (ss.take k) ++ (field ++ rest)) := by
  have hencode : encodeRecords ss = encodeRecords (ss.take k) ++ encodeRecords (ss.drop k) := by
    rw [← encodeRecords_append, take_append_drop]
  refine ⟨(sealedBytes header ss t).drop (recordOffset ss k + 4), ?_⟩
  have htake : (sealedBytes header ss t).take (recordOffset ss k)
      = header ++ encodeRecords (ss.take k) := by
    rw [sealedBytes, hencode, ← append_assoc header, append_assoc (header ++ _)]
    exact take_left' (by rw [recordOffset, length_append, hheader])
  rw [changeLength, htake]
  simp only [append_assoc]

end Weir.Wab

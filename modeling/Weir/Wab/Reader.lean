import Weir.Wab.Format

/-!
# `SegmentReader` (`weir-wab/src/lib.rs`)

The sequential reader every consumer of a segment uses. A file is its bytes;
what the kernel does to a read is the `fault` argument: `fault.err pos = some e`
means that the `read_exact` starting at offset `pos` fails with `e`, so every
pattern of read errors is some `fault`.

`next` is the source's iterator step; `collect` runs it to its end, as the
`for` loops over the reader do. The facts the rest of the development uses are

> `next_record`: at the start of a well-formed record the reader yields its
> payload and moves just past it.

> `collect_records`: over a run of well-formed records the reader yields all
> their payloads, in order, and then whatever the tail gives.
-/

namespace Weir.Wab

open Weir.Lib List

/-- zstd, which lives outside the repository: `zstd::bulk::compress` at a level
and `zstd::bulk::decompress` into a bounded output. -/
structure Zstd where
  compress : Bytes → Int → Option Bytes
  decompress : Bytes → Nat → Option Bytes

/-- Documented behaviour of the codec: a frame made from a payload that fits
the output bound decompresses to that payload. -/
def Zstd.Inverts (z : Zstd) : Prop :=
  ∀ (p s : Bytes) (level : Int), p.length ≤ maxPayloadHardCap → z.compress p level = some s →
    z.decompress s maxPayloadHardCap = some p

/-- A codec that stores payloads as they are: the documented behaviour can be
met. -/
def Zstd.plain : Zstd where
  compress p _ := some p
  decompress s cap := if s.length ≤ cap then some s else none

theorem Zstd.plain_inverts : Zstd.plain.Inverts := by
  intro p s level hcap h
  obtain rfl : p = s := Option.some.inj h
  exact if_pos hcap

/-- What the kernel answers to the read at an offset, when it is an error. No
errno has the kind `UnexpectedEof`, which `read_exact` alone makes. -/
structure ReadFault where
  err : Nat → Option IoError
  not_eof : ∀ pos e, err pos = some e → e.kind ≠ .unexpectedEof

def noFault : ReadFault := ⟨fun _ => none, by simp⟩

/-- `read_exact` of `n` bytes at `pos`. -/
def readExact (file : Bytes) (fault : ReadFault) (pos n : Nat) : Except IoError Bytes :=
  match fault.err pos with
  | some e => .error e
  | none =>
    if pos + n ≤ file.length then .ok (slice file pos (pos + n))
    else .error (IoError.new .unexpectedEof "failed to fill whole buffer")

variable {file rest : Bytes} {fault : ReadFault} {pos n : Nat}

/-- A read of bytes that are there returns them. -/
theorem readExact_of_drop {a : Bytes} (hf : fault.err pos = none) (hd : file.drop pos = a ++ rest)
    (hn : a.length = n) (hpos : pos ≤ file.length) : readExact file fault pos n = .ok a := by
  have hlen : file.length - pos = a.length + rest.length := by
    rw [← length_drop, hd, length_append]
  have hle : pos + n ≤ file.length := by omega
  have hsub : pos + n - pos = a.length := by omega
  rw [readExact, hf]
  rw [if_pos hle, slice, hd, hsub, take_left]

/-- A read past the end is `UnexpectedEof`. -/
theorem readExact_short (hf : fault.err pos = none) (h : file.length < pos + n) :
    readExact file fault pos n
      = .error (IoError.new .unexpectedEof "failed to fill whole buffer") := by
  rw [readExact, hf]
  rw [if_neg (by omega)]

/-- What a read returns is in the file at its offset. -/
theorem readExact_ok {bs : Bytes} (h : readExact file fault pos n = .ok bs) :
    pos + n ≤ file.length ∧ bs.length = n ∧ file.drop pos = bs ++ file.drop (pos + n) := by
  unfold readExact at h
  split at h
  · cases h
  split at h
  next hle =>
    have hbs : bs = (file.drop pos).take n := by
      rw [← Except.ok.inj h, slice, Nat.add_sub_cancel_left]
    refine ⟨hle, ?_, ?_⟩
    · rw [hbs, length_take, length_drop]
      omega
    · rw [hbs, ← drop_drop, take_append_drop]
  · cases h

/-- Only a read past the end is an `UnexpectedEof`. -/
theorem readExact_eof {e : IoError} (h : readExact file fault pos n = .error e)
    (he : e.kind = .unexpectedEof) : file.length < pos + n := by
  unfold readExact at h
  split at h
  next e' hfault =>
    cases h
    exact absurd he (fault.not_eof pos _ hfault)
  · split at h
    · cases h
    next hlt => omega

/-- A read of bytes that are there returns them, unless the kernel fails it; an
end of file it is not. -/
theorem readExact_present {a : Bytes} (fault : ReadFault) (hd : file.drop pos = a ++ rest)
    (hn : a.length = n) (hpos : pos ≤ file.length) :
    readExact file fault pos n = .ok a ∨
      ∃ e, readExact file fault pos n = .error e ∧ e.kind ≠ .unexpectedEof := by
  cases hf : fault.err pos with
  | none => exact .inl (readExact_of_drop hf hd hn hpos)
  | some e =>
    refine .inr ⟨e, ?_, fault.not_eof pos e hf⟩
    rw [readExact, hf]

theorem readExact_slice {bs : Bytes} (h : readExact file fault pos n = .ok bs) :
    bs = slice file pos (pos + n) ∧ pos + n ≤ file.length := by
  unfold readExact at h
  split at h
  · cases h
  · split at h
    next hle => exact ⟨(Except.ok.inj h).symm, hle⟩
    · cases h

theorem readExact_of_le (h : pos + n ≤ file.length) :
    readExact file noFault pos n = .ok (slice file pos (pos + n)) := by
  exact if_pos h

theorem readExact_error {e : IoError} (h : readExact file noFault pos n = .error e) :
    file.length < pos + n := by
  refine Nat.lt_of_not_le fun hle => ?_
  rw [readExact_of_le hle] at h
  cases h

/-- The open reader: the file, its position, and what `next` has decided. -/
structure SegmentReader where
  file : Bytes
  pos : Nat
  done : Bool
  header : SegmentHeaderMeta
  terminatedCleanly : Option Bool
  deriving DecidableEq, Repr

/-- The error a re-parsed header is rejected with. -/
def SegmentHeaderParseError.toIoError : SegmentHeaderParseError → IoError
  | .wrongLength _ => IoError.new .invalidData s!"segment header is not {segmentHeaderLen} bytes"
  | e => IoError.new .invalidData e.display

/-- Bytes as text, with a dot for each that does not print. -/
def asciiOf (bs : Bytes) : String :=
  String.ofList (bs.map fun b => if 0x21 ≤ b ∧ b ≤ 0x7E then Char.ofNat b.toNat else '.')

/-- The source adds the path. -/
def tooShort : IoError :=
  IoError.new .invalidData
    s!"segment file too short: need a {segmentHeaderLen}-byte header, file is truncated/empty"

/-- `SegmentReader::open`: the header is validated before any record is read. -/
def SegmentReader.open (file : Bytes) (fault : ReadFault) : Except IoError SegmentReader :=
  match readExact file fault 0 segmentHeaderLen with
  | .error e =>
    if e.kind = .unexpectedEof then
      .error tooShort
    else .error e
  | .ok header =>
    let found := slice header 0 4
    if found ≠ segmentMagic then
      .error (IoError.new .invalidData ("bad segment magic: found " ++ (asciiOf found).quote
        ++ s!" ({found}), expected b\"WEIR\""))
    else if header.getD 4 0 = 0 ∨ header.getD 4 0 > formatVersionMaxSupported then
      .error (IoError.new .invalidData ("unknown segment format version: "
        ++ s!"{header.getD 4 0} (this build reads 1..={formatVersionMaxSupported})"))
    else
      match parseSegmentHeader header with
      | .error e => .error e.toIoError
      | .ok m => .ok ⟨file, segmentHeaderLen, false, m, none⟩

/-- Opening a file that starts with a parseable header. -/
theorem SegmentReader.open_of_header {header : Bytes} {m : SegmentHeaderMeta}
    (hf : fault.err 0 = none) (hfile : file = header ++ rest)
    (hp : parseSegmentHeader header = .ok m) :
    SegmentReader.open file fault = .ok ⟨file, segmentHeaderLen, false, m, none⟩ := by
  have hlen := parseSegmentHeader_length hp
  have hread : readExact file fault 0 segmentHeaderLen = .ok header :=
    readExact_of_drop hf (by rw [drop_zero]; exact hfile) hlen (Nat.zero_le _)
  have hmagic : slice header 0 4 = segmentMagic := by
    unfold parseSegmentHeader at hp
    rw [if_neg (by simp [hlen])] at hp
    split at hp
    · cases hp
    next h => exact Decidable.not_not.mp h
  have hver : ¬(header.getD 4 0 = 0 ∨ header.getD 4 0 > formatVersionMaxSupported) := by
    unfold parseSegmentHeader at hp
    rw [if_neg (by simp [hlen]), if_neg (by simp [hmagic])] at hp
    unfold headerCompression at hp
    split at hp
    · cases hp
    rename_i c hc
    split at hc
    next h1 => rw [h1]; decide
    · split at hc
      next h2 => rw [h2]; decide
      · cases hc
  unfold SegmentReader.open
  rw [hread]
  dsimp only
  rw [if_neg (by simp [hmagic]), if_neg hver, hp]

variable {r : SegmentReader}

/-- A file that opens starts with a parseable header. -/
theorem SegmentReader.open_ok (h : SegmentReader.open file fault = .ok r) :
    ∃ header rest, file = header ++ rest ∧ parseSegmentHeader header = .ok r.header ∧
      r = ⟨file, segmentHeaderLen, false, r.header, none⟩ := by
  unfold SegmentReader.open at h
  split at h
  · split at h <;> cases h
  rename_i header hread
  obtain ⟨_, _, hdrop⟩ := readExact_ok hread
  dsimp only at h
  split at h
  · cases h
  split at h
  · cases h
  split at h
  · cases h
  next m hparse =>
    cases h
    exact ⟨header, _, hdrop, hparse, rfl⟩

/-- `truncate_context`: only an `UnexpectedEof` is wrapped, and keeps its kind. -/
def truncateContext (e : IoError) (payloadLen : Nat) (what : String) : IoError :=
  if e.kind ≠ .unexpectedEof then e
  else IoError.new .unexpectedEof (s!"segment truncated mid-record: short read of the {what} "
    ++ s!"for a record declaring {payloadLen} payload bytes ({e.message})")

def crcMismatch (expected computed : UInt32) : IoError :=
  IoError.new .invalidData
    s!"record CRC mismatch: expected {hex32 expected}, computed {hex32 computed}"

/-- Why a length is refused, in the words of each format. -/
def Compression.exceeds : Compression → String
  | .none => s!"exceeds MAX_PAYLOAD_HARD_CAP {maxPayloadHardCap}"
  | .zstd => s!"exceeds the v2 stored-record cap {Compression.zstd.storedCap} "
    ++ s!"(compress_bound of MAX_PAYLOAD_HARD_CAP {maxPayloadHardCap})"

theorem truncateContext_kind (e : IoError) (n : Nat) (what : String) :
    (truncateContext e n what).kind = e.kind := by
  unfold truncateContext
  split
  · rfl
  next h => exact (Decidable.not_not.mp h).symm

/-- What a reader of the segment sees for a stored record: the record itself,
or its bounded decompression. -/
def decodeStored (z : Zstd) (c : Compression) (stored : Bytes) : Option Bytes :=
  match c with
  | .none => some stored
  | .zstd => z.decompress stored maxPayloadHardCap

/-- `SegmentReader::next`. -/
def SegmentReader.next (z : Zstd) (fault : ReadFault) (r : SegmentReader) :
    Option (Except IoError Bytes) × SegmentReader :=
  if r.done then (none, r)
  else
    match readExact r.file fault r.pos 4 with
    | .error e =>
      if e.kind = .unexpectedEof then
        (none, { r with done := true, terminatedCleanly := some false })
      else (some (.error e), { r with done := true })
    | .ok lenBuf =>
      let payloadLen := leNat lenBuf
      if payloadLen = 0 then
        (none, { r with pos := r.pos + 4, done := true, terminatedCleanly := some true })
      else if payloadLen > r.header.compression.storedCap then
        (some (.error (IoError.new .invalidData
          s!"record payload_len {payloadLen} {r.header.compression.exceeds}")),
          { r with pos := r.pos + 4, done := true })
      else
        match readExact r.file fault (r.pos + 4) 4 with
        | .error e =>
          (some (.error (truncateContext e payloadLen "CRC field")), { r with done := true })
        | .ok crcBuf =>
          match readExact r.file fault (r.pos + 8) payloadLen with
          | .error e =>
            (some (.error (truncateContext e payloadLen "payload bytes")), { r with done := true })
          | .ok payload =>
            if UInt32.ofNat (leNat crcBuf) ≠ crc32 payload then
              (some (.error (crcMismatch (UInt32.ofNat (leNat crcBuf)) (crc32 payload))),
                { r with done := true })
            else
              -- The CRC covers the stored bytes, so integrity is settled first.
              match decodeStored z r.header.compression payload with
              | some plain => (some (.ok plain), { r with pos := r.pos + 8 + payloadLen })
              | none =>
                -- the source adds the decompressor's own error
                (some (.error (IoError.new .invalidData
                  (s!"failed to decompress a {payloadLen}-byte zstd record "
                    ++ s!"(output limit {maxPayloadHardCap})"))), { r with done := true })

/-- A record the writer may store under compression `c`. -/
def StoredOk (c : Compression) (stored : Bytes) : Prop :=
  0 < stored.length ∧ stored.length ≤ c.storedCap

instance (c : Compression) (s : Bytes) : Decidable (StoredOk c s) :=
  inferInstanceAs (Decidable (_ ∧ _))

variable {c : Compression}

theorem StoredOk.leNat_len {s : Bytes} (h : StoredOk c s) : leNat (leBytes 4 s.length) = s.length :=
  leNat_leBytes_of_lt (lt_of_le_of_lt h.2 c.storedCap_lt)

theorem crcField (s : Bytes) : UInt32.ofNat (leNat (leBytes 4 (crc32 s).toNat)) = crc32 s := by
  rw [leNat_leBytes_of_lt (crc32 s).toNat_lt]
  simp

theorem eq_sentinel {buf : Bytes} (hlen : buf.length = 4) (hzero : leNat buf = 0) :
    buf = buildSentinel := by
  have h := leBytes_leNat buf
  rw [hlen, hzero] at h
  exact h.symm

/-- The three fields of a frame at `pos`, as bytes behind their offsets. -/
theorem drop_frame {s : Bytes} {crc : Nat}
    (hd : file.drop pos = leBytes 4 s.length ++ (leBytes 4 crc ++ (s ++ rest))) :
    file.drop (pos + 4) = leBytes 4 crc ++ (s ++ rest) ∧ file.drop (pos + 8) = s ++ rest ∧
    file.drop (pos + 8 + s.length) = rest := by
  have h4 : file.drop (pos + 4) = leBytes 4 crc ++ (s ++ rest) := by
    rw [← drop_drop, hd]
    exact drop_left' (leBytes_length 4 _)
  have h8 : file.drop (pos + 8) = s ++ rest := by
    rw [show pos + 8 = pos + 4 + 4 from rfl, ← drop_drop, h4]
    exact drop_left' (leBytes_length 4 _)
  exact ⟨h4, h8, by rw [← drop_drop, h8, drop_left]⟩

theorem drop_record {s : Bytes} (hd : file.drop pos = encodeRecord s ++ rest) :
    file.drop pos = leBytes 4 s.length ++ (leBytes 4 (crc32 s).toNat ++ (s ++ rest)) ∧
    file.drop (pos + 4) = leBytes 4 (crc32 s).toNat ++ (s ++ rest) ∧
    file.drop (pos + 8) = s ++ rest ∧
    file.drop (pos + 8 + s.length) = rest := by
  rw [encodeRecord, append_assoc, append_assoc] at hd
  exact ⟨hd, drop_frame hd⟩

/-- The three fields of a record whose CRC matches are one framed record. -/
theorem encodeRecord_of_fields {lenBuf crcBuf payload : Bytes} (hlen : lenBuf.length = 4)
    (hcrc : crcBuf.length = 4) (hn : payload.length = leNat lenBuf)
    (hmatch : UInt32.ofNat (leNat crcBuf) = crc32 payload) :
    lenBuf ++ (crcBuf ++ payload) = encodeRecord payload := by
  rw [encodeRecord, hn, leBytes_of_length hlen, ← hmatch, leBytes_word hcrc, append_assoc]

variable {z : Zstd}

/-- At a well-formed record the reader yields its payload and moves past it. -/
theorem SegmentReader.next_record {s p : Bytes} (hdone : r.done = false)
    (hpos : r.pos ≤ r.file.length) (hd : r.file.drop r.pos = encodeRecord s ++ rest)
    (hok : StoredOk r.header.compression s)
    (hdec : decodeStored z r.header.compression s = some p) :
    r.next z noFault = (some (.ok p), { r with pos := r.pos + 8 + s.length }) := by
  obtain ⟨h0, h4, h8, _⟩ := drop_record hd
  have hlen : r.file.length - r.pos = 8 + s.length + rest.length := by
    rw [← length_drop, hd, length_append, encodeRecord_length]
  have hr0 : readExact r.file noFault r.pos 4 = .ok (leBytes 4 s.length) :=
    readExact_of_drop rfl h0 (leBytes_length 4 _) hpos
  have hr4 : readExact r.file noFault (r.pos + 4) 4 = .ok (leBytes 4 (crc32 s).toNat) :=
    readExact_of_drop rfl h4 (leBytes_length 4 _) (by omega)
  have hr8 : readExact r.file noFault (r.pos + 8) s.length = .ok s :=
    readExact_of_drop rfl h8 rfl (by omega)
  have hne : ¬s.length = 0 := by have := hok.1; omega
  have hcap : ¬s.length > r.header.compression.storedCap := not_lt.mpr hok.2
  unfold SegmentReader.next
  rw [hdone, if_neg (by simp), hr0]
  dsimp only
  rw [hok.leNat_len, if_neg hne, if_neg hcap, hr4]
  rw [hr8]
  dsimp only
  rw [crcField, if_neg (by simp), hdec]

/-- Runs the reader to its end: the items it yields, and the reader after. -/
def SegmentReader.collect (z : Zstd) (fault : ReadFault) :
    Nat → SegmentReader → List (Except IoError Bytes) × SegmentReader
  | 0, r => ([], r)
  | fuel + 1, r =>
    match r.next z fault with
    | (none, r') => ([], r')
    | (some item, r') =>
      ((item :: (collect z fault fuel r').1), (collect z fault fuel r').2)

/-- The whole segment from the reader's position. Every yielded record moves the
position and every error stops the reader, so this much fuel is enough
(`readAll_done`). -/
def SegmentReader.readAll (z : Zstd) (fault : ReadFault) (r : SegmentReader) :
    List (Except IoError Bytes) × SegmentReader :=
  r.collect z fault (r.file.length + 2)

theorem SegmentReader.next_of_done (h : r.done = true) : r.next z fault = (none, r) := by
  rw [SegmentReader.next, if_pos h]

/-- What a step of the reader can do: it is over, fewer than four bytes are left, a sentinel
stands there, an error is yielded, or a record is. -/
inductive SegmentReader.Step (z : Zstd) (r : SegmentReader) :
    Option (Except IoError Bytes) × SegmentReader → Prop
  | done (h : r.done = true) : Step z r (none, r)
  | torn (h : r.file.length < r.pos + 4) :
      Step z r (none, { r with done := true, terminatedCleanly := some false })
  | sentinel (h : r.file.drop r.pos = buildSentinel ++ r.file.drop (r.pos + 4)) :
      Step z r (none, { r with pos := r.pos + 4, done := true, terminatedCleanly := some true })
  | error (e : IoError) (pos : Nat) :
      Step z r (some (.error e), { r with pos := pos, done := true })
  | record {s p : Bytes} (hs : StoredOk r.header.compression s)
      (hp : decodeStored z r.header.compression s = some p)
      (hdrop : r.file.drop r.pos = encodeRecord s ++ r.file.drop (r.pos + 8 + s.length))
      (hle : r.pos + 8 + s.length ≤ r.file.length) :
      Step z r (some (.ok p), { r with pos := r.pos + 8 + s.length })

theorem SegmentReader.next_step (z : Zstd) (fault : ReadFault) (r : SegmentReader) :
    r.Step z (r.next z fault) := by
  unfold next
  split
  next hdone => exact .done hdone
  split
  next e hread =>
    split
    next heof => exact .torn (readExact_eof hread heof)
    · exact .error e r.pos
  rename_i lenBuf hlenBuf
  obtain ⟨_, hlen4, hdrop0⟩ := readExact_ok hlenBuf
  dsimp only
  split
  next hzero => exact .sentinel (eq_sentinel hlen4 hzero ▸ hdrop0)
  split
  · exact .error _ (r.pos + 4)
  split
  · exact .error _ r.pos
  rename_i crcBuf hcrcBuf
  obtain ⟨_, hcrc4, hdrop4⟩ := readExact_ok hcrcBuf
  split
  · exact .error _ r.pos
  rename_i payload hpayload
  obtain ⟨hle, hplen, hdrop8⟩ := readExact_ok hpayload
  split
  · exact .error _ r.pos
  rename_i hmatch
  split
  next plain hplain =>
    rw [hdrop4, show r.pos + 4 + 4 = r.pos + 8 by omega, hdrop8] at hdrop0
    have henc := encodeRecord_of_fields hlen4 hcrc4 hplen (Decidable.not_not.mp hmatch)
    rw [← hplen] at hle hdrop0 ⊢
    refine .record ⟨by omega, by omega⟩ hplain ?_ hle
    rw [hdrop0, ← henc]
    simp only [append_assoc]
  · exact .error _ r.pos

/-- Every step either stops the reader or yields a record and moves past it,
inside the file. -/
theorem SegmentReader.next_progress (z : Zstd) (fault : ReadFault) (r : SegmentReader) :
    (r.next z fault).2.file = r.file ∧
    ((r.next z fault).2.done = true ∨
      ∃ p, (r.next z fault).1 = some (.ok p) ∧ (r.next z fault).2.done = r.done ∧
        r.pos < (r.next z fault).2.pos ∧ (r.next z fault).2.pos ≤ r.file.length) := by
  have hstep := r.next_step z fault
  generalize r.next z fault = out at hstep ⊢
  cases hstep with
  | done hdone => exact ⟨rfl, .inl hdone⟩
  | torn | sentinel | error => exact ⟨rfl, .inl rfl⟩
  | record _ _ _ hle => exact ⟨rfl, .inr ⟨_, rfl, rfl, by dsimp only; omega, hle⟩⟩

/-- Enough fuel runs the reader to its stop. -/
theorem SegmentReader.collect_done (z : Zstd) (fault : ReadFault) (fuel : Nat) (r : SegmentReader) :
    r.file.length + 2 ≤ fuel + r.pos → r.pos ≤ r.file.length →
      (r.collect z fault fuel).2.done = true := by
  induction fuel generalizing r with
  | zero => intro hf hp; omega
  | succ fuel ih =>
    intro hf hp
    obtain ⟨hfile, hstop⟩ := r.next_progress z fault
    unfold SegmentReader.collect
    split
    next r' heq =>
      rw [heq] at hstop
      rcases hstop with hd | ⟨p, hp', _⟩
      · exact hd
      · cases hp'
    next item r' heq =>
      rw [heq] at hstop hfile
      dsimp only at hstop hfile ⊢
      rcases hstop with hd | ⟨p, _, _, hlt, hle⟩
      · -- an error stopped the reader: the next step is the fused `None`
        cases fuel with
        | zero => exact hd
        | succ fuel => rw [SegmentReader.collect, SegmentReader.next_of_done hd]; exact hd
      · exact ih r' (by rw [hfile]; omega) (by rw [hfile]; exact hle)

theorem SegmentReader.readAll_done (h : r.pos ≤ r.file.length) :
    (r.readAll z fault).2.done = true :=
  collect_done z fault _ r (by omega) h

/-- A run that reached its stop is unchanged by more fuel. -/
theorem SegmentReader.collect_stable (n : Nat) (r : SegmentReader) :
    (r.collect z fault n).2.done = true →
      ∀ k, r.collect z fault (n + k) = r.collect z fault n := by
  induction n generalizing r with
  | zero =>
    intro hd k
    cases k with
    | zero => rfl
    | succ k =>
      have hr : r.done = true := hd
      show r.collect z fault (0 + (k + 1)) = ([], r)
      rw [zero_add, SegmentReader.collect, SegmentReader.next_of_done hr]
  | succ n ih =>
    intro hd k
    rw [show n + 1 + k = (n + k) + 1 by omega]
    unfold SegmentReader.collect at hd ⊢
    split
    · rfl
    next item r' heq =>
      rw [heq] at hd
      rw [ih r' hd k]

/-- `readAll` is any run that reached its stop within its fuel. -/
theorem SegmentReader.readAll_eq (hn : n ≤ r.file.length + 2)
    (hd : (r.collect z fault n).2.done = true) : r.readAll z fault = r.collect z fault n := by
  have h := collect_stable n r hd (r.file.length + 2 - n)
  rw [show n + (r.file.length + 2 - n) = r.file.length + 2 by omega] at h
  exact h

/-- The payloads `ps` are what a reader sees for the stored records `ss`. -/
def Decodes (z : Zstd) (c : Compression) (ss ps : List Bytes) : Prop :=
  ss.map (decodeStored z c) = ps.map some

theorem Decodes.length_eq {ss ps : List Bytes} (h : Decodes z c ss ps) : ss.length = ps.length := by
  simpa using congrArg length h

/-- Over a run of well-formed records the reader yields all their payloads, in
order, and goes on from the byte after them. -/
theorem SegmentReader.collect_records (ss ps : List Bytes) (r : SegmentReader) (rest : Bytes)
    (k : Nat) :
    r.done = false → r.pos ≤ r.file.length → r.file.drop r.pos = encodeRecords ss ++ rest →
      (∀ s ∈ ss, StoredOk r.header.compression s) → Decodes z r.header.compression ss ps →
      r.collect z noFault (ss.length + k)
        = (ps.map .ok ++ (({ r with pos := r.pos + (encodeRecords ss).length }).collect z
          noFault k).1,
            (({ r with pos := r.pos + (encodeRecords ss).length }).collect z noFault k).2) := by
  induction ss generalizing ps r rest k with
  | nil =>
    intro _ _ _ _ hdec
    have hps : ps = [] := by simpa [Decodes] using hdec.symm
    subst hps
    simp
  | cons s ss ih =>
    intro hdone hpos hd hok hdec
    cases ps with
    | nil => cases hdec
    | cons p ps =>
      simp only [Decodes, map_cons, List.cons.injEq] at hdec
      obtain ⟨hp, hps⟩ := hdec
      rw [encodeRecords_cons, append_assoc] at hd
      have hnext := SegmentReader.next_record hdone hpos hd
        (hok s (mem_cons_self ..)) hp
      have hdrop := (drop_record hd).2.2.2
      have hlen : r.file.length - r.pos = 8 + s.length + (encodeRecords ss ++ rest).length := by
        rw [← length_drop, hd, length_append, encodeRecord_length]
      have hrest := ih ps { r with pos := r.pos + 8 + s.length } rest k hdone
        (by dsimp only; omega) hdrop (fun t ht => hok t (mem_cons_of_mem _ ht)) hps
      have hend : r.pos + 8 + s.length + (encodeRecords ss).length
          = r.pos + (encodeRecords (s :: ss)).length := by
        rw [encodeRecords_cons, length_append, encodeRecord_length]
        omega
      rw [hend] at hrest
      rw [show (s :: ss).length + k = (ss.length + k) + 1 by simp; omega, SegmentReader.collect,
        hnext]
      dsimp only
      rw [hrest]
      rfl

/-- At the sentinel the reader ends cleanly. -/
theorem SegmentReader.collect_sentinel (k : Nat) (hdone : r.done = false)
    (hpos : r.pos ≤ r.file.length) (hd : r.file.drop r.pos = buildSentinel ++ rest) :
    r.collect z noFault (k + 1)
      = ([], { r with pos := r.pos + 4, done := true, terminatedCleanly := some true }) := by
  have hr : readExact r.file noFault r.pos 4 = .ok buildSentinel :=
    readExact_of_drop rfl hd rfl hpos
  rw [SegmentReader.collect, SegmentReader.next, hdone, if_neg (by simp), hr]
  rfl

/-- Where fewer than four bytes are left the reader ends silently. -/
theorem SegmentReader.collect_torn (k : Nat) (hdone : r.done = false)
    (h : r.file.length < r.pos + 4) :
    r.collect z noFault (k + 1)
      = ([], { r with done := true, terminatedCleanly := some false }) := by
  have hr : readExact r.file noFault r.pos 4 = _ := readExact_short rfl h
  rw [SegmentReader.collect, SegmentReader.next, hdone, if_neg (by simp), hr]
  rfl

/-- The kernel fails a read, or it is the one without faults. -/
theorem readExact_faulted (file : Bytes) (fault : ReadFault) (pos n : Nat) :
    (∃ e, readExact file fault pos n = .error e ∧ e.kind ≠ .unexpectedEof) ∨
      readExact file fault pos n = readExact file noFault pos n := by
  cases hf : fault.err pos with
  | none => exact .inr (by rw [readExact, readExact, hf]; rfl)
  | some e => exact .inl ⟨e, by rw [readExact, hf], fault.not_eof pos e hf⟩

theorem SegmentReader.open_noFault (h : SegmentReader.open file fault = .ok r) :
    SegmentReader.open file noFault = .ok r := by
  unfold SegmentReader.open at h ⊢
  rcases readExact_faulted file fault 0 segmentHeaderLen with ⟨e, hread, hk⟩ | hread
  · rw [hread] at h
    dsimp only at h
    rw [if_neg hk] at h
    cases h
  · rwa [hread] at h

theorem SegmentReader.open_eq {header : Bytes} {m : SegmentHeaderMeta}
    (h : SegmentReader.open file fault = .ok r) (hfile : file = header ++ rest)
    (hp : parseSegmentHeader header = .ok m) : r = ⟨file, segmentHeaderLen, false, m, none⟩ :=
  Except.ok.inj ((open_noFault h).symm.trans (open_of_header rfl hfile hp))

/-- A step that yields no error is the one without faults. -/
theorem SegmentReader.next_noFault (h : ∀ e, (r.next z fault).1 ≠ some (.error e)) :
    r.next z fault = r.next z noFault := by
  by_cases hdone : r.done = true
  · rw [next_of_done hdone, next_of_done hdone]
  unfold next at h ⊢
  rw [if_neg hdone] at h ⊢
  rw [if_neg hdone]
  -- a read that the kernel failed would be yielded as an error
  rcases readExact_faulted r.file fault r.pos 4 with ⟨e, hread, hk⟩ | hread
  · rw [hread] at h
    dsimp only at h
    rw [if_neg hk] at h
    exact absurd rfl (h e)
  rw [hread] at h ⊢
  generalize readExact r.file noFault r.pos 4 = got at h ⊢
  cases got with
  | error e => rfl
  | ok lenBuf =>
    dsimp only at h ⊢
    split
    · rfl
    next hz =>
    split
    · rfl
    next hcap =>
    rw [if_neg hz, if_neg hcap] at h
    rcases readExact_faulted r.file fault (r.pos + 4) 4 with ⟨e, hread, hk⟩ | hread
    · rw [hread] at h
      exact absurd rfl (h _)
    rw [hread] at h ⊢
    generalize readExact r.file noFault (r.pos + 4) 4 = got at h ⊢
    cases got with
    | error e => rfl
    | ok crcBuf =>
      rcases readExact_faulted r.file fault (r.pos + 8) (leNat lenBuf) with ⟨e, hread, hk⟩ | hread
      · rw [hread] at h
        exact absurd rfl (h _)
      rw [hread]

/-- A reader that yields no error reads what it would without faults. -/
theorem SegmentReader.collect_noFault (fuel : Nat) (r : SegmentReader) :
    (∀ e, .error e ∉ (r.collect z fault fuel).1) →
      r.collect z fault fuel = r.collect z noFault fuel := by
  induction fuel generalizing r with
  | zero => intro _; rfl
  | succ fuel ih =>
    intro h
    have hnext : r.next z fault = r.next z noFault := by
      apply next_noFault
      intro e he
      refine h e ?_
      unfold collect
      split
      next heq => rw [heq] at he; cases he
      next item r' heq =>
        rw [heq] at he
        rw [Option.some.inj he]
        exact mem_cons_self
    unfold collect at h ⊢
    rw [← hnext]
    split
    · rfl
    next item r' heq =>
      rw [heq] at h
      rw [ih r' fun e he => h e (mem_cons_of_mem _ he)]

theorem SegmentReader.readAll_noFault {ps : List Bytes} (h : (r.readAll z fault).1 = ps.map .ok) :
    r.readAll z fault = r.readAll z noFault := by
  refine collect_noFault _ r fun e he => ?_
  rw [readAll] at h
  rw [h] at he
  exact absurd he (by simp)

/-! ## What was read -/

/-- The length field tells where a record ends. -/
theorem encodeRecord_cancel {s s' x y : Bytes} (hs : StoredOk c s) (hs' : StoredOk c s')
    (h : encodeRecord s ++ x = encodeRecord s' ++ y) : s = s' ∧ x = y := by
  simp only [encodeRecord, append_assoc] at h
  obtain ⟨hlen, hrest⟩ := append_inj h (by simp)
  obtain ⟨_, hpayload⟩ := append_inj hrest (by simp)
  have hsame : s.length = s'.length := by
    rw [← hs.leNat_len, ← hs'.leNat_len, hlen]
  exact append_inj hpayload hsame

/-- Behind a run of records, a sentinel ends every other run as well. -/
theorem prefix_of_sentinel {x : Bytes} :
    ∀ {ss more : List Bytes}, (∀ s ∈ ss, StoredOk c s) → (∀ s ∈ more, StoredOk c s) →
      encodeRecords more <+: encodeRecords ss ++ (buildSentinel ++ x) → more <+: ss := by
  intro ss
  induction ss with
  | nil =>
    intro more _ hmore h
    cases more with
    | nil => exact nil_prefix
    | cons s more =>
      -- a record of length zero is not storable
      obtain ⟨rest, hrest⟩ := h
      have hfield : leBytes 4 s.length = buildSentinel := by
        rw [encodeRecords_cons, encodeRecord, encodeRecords_nil, nil_append] at hrest
        simp only [append_assoc] at hrest
        exact (append_inj hrest (by simp [buildSentinel])).1
      have hlen := (hmore s mem_cons_self).leNat_len
      rw [hfield] at hlen
      have hzero : leNat buildSentinel = 0 := by decide
      have hpos := (hmore s mem_cons_self).1
      omega
  | cons s ss ih =>
    intro more hss hmore h
    cases more with
    | nil => exact nil_prefix
    | cons s' more =>
      obtain ⟨rest, hrest⟩ := h
      simp only [encodeRecords_cons, append_assoc] at hrest
      obtain ⟨rfl, hmatch⟩ := encodeRecord_cancel (hmore s' mem_cons_self)
        (hss s mem_cons_self) hrest
      exact List.cons_prefix_cons.mpr ⟨rfl, ih (fun t ht => hss t (mem_cons_of_mem _ ht))
        (fun t ht => hmore t (mem_cons_of_mem _ ht)) ⟨rest, hmatch⟩⟩

section

variable {xs ys : List Bytes} (hxs : ∀ s ∈ xs, StoredOk c s) (hys : ∀ s ∈ ys, StoredOk c s)

include hxs hys

/-- The records before a sentinel are the same to whoever reads them. -/
theorem eq_of_sentinel {x y : Bytes}
    (h : encodeRecords xs ++ (buildSentinel ++ x) = encodeRecords ys ++ (buildSentinel ++ y)) :
    xs = ys := by
  have hle : xs <+: ys := prefix_of_sentinel hys hxs ⟨_, h⟩
  have hge : ys <+: xs := prefix_of_sentinel hxs hys ⟨_, h.symm⟩
  exact hle.eq_of_length_le hge.length_le

theorem encodeRecords_inj (h : encodeRecords xs = encodeRecords ys) : xs = ys :=
  eq_of_sentinel (x := []) (y := []) hxs hys (by rw [h])

end

/-- Behind the position of the reader the file holds these records, and then the rest. -/
structure Holds (z : Zstd) (c : Compression) (body : Bytes) (ss ps : List Bytes) (rest : Bytes) :
    Prop where
  stored : ∀ s ∈ ss, StoredOk c s
  decodes : Decodes z c ss ps
  body : body = encodeRecords ss ++ rest

/-- A read without an error goes over records of the file, and then stops or is out of fuel. -/
theorem SegmentReader.collect_holds (fuel : Nat) (r : SegmentReader) (ps : List Bytes) :
    (r.collect z fault fuel).1 = ps.map .ok → ∃ ss,
      let last := { r with pos := r.pos + (encodeRecords ss).length }
      Holds z r.header.compression (r.file.drop r.pos) ss ps (r.file.drop last.pos) ∧
        ((r.collect z fault fuel).2 = last ∨ last.Step z (none, (r.collect z fault fuel).2)) := by
  induction fuel generalizing r ps with
  | zero =>
    intro hitems
    obtain rfl : ps = [] := map_eq_nil_iff.mp hitems.symm
    exact ⟨[], ⟨by simp, rfl, rfl⟩, .inl rfl⟩
  | succ fuel ih =>
    intro hitems
    have hstep := r.next_step z fault
    unfold collect at hitems ⊢
    split at hitems
    next r' hnext =>
      obtain rfl : ps = [] := by simpa using hitems.symm
      exact ⟨[], ⟨by simp, rfl, rfl⟩, .inr (hnext ▸ hstep)⟩
    next item r' hnext =>
      cases ps with
      | nil => cases hitems
      | cons p ps =>
        obtain ⟨hitem, hrest⟩ := List.cons.inj hitems
        rw [hnext, hitem] at hstep
        cases hstep with
        | @record s _ hs hp hdrop _ =>
          obtain ⟨ss, hholds, hend⟩ := ih _ ps hrest
          have hpos : r.pos + 8 + s.length + (encodeRecords ss).length
              = r.pos + (encodeRecords (s :: ss)).length := by
            rw [encodeRecords_cons, length_append, encodeRecord_length]
            omega
          rw [hpos] at hholds hend
          refine ⟨s :: ss, ⟨forall_mem_cons.mpr ⟨hs, hholds.stored⟩, ?_, ?_⟩, hend⟩
          · exact cons_eq_cons.mpr ⟨hp, hholds.decodes⟩
          · rw [hdrop, hholds.body, encodeRecords_cons, append_assoc]

/-- A read without an error: the file holds the records, with a sentinel behind them if the reader
came to one. -/
theorem SegmentReader.collect_ok (fuel : Nat) (r : SegmentReader) (ps : List Bytes)
    (hitems : (r.collect z fault fuel).1 = ps.map .ok) (hnone : r.terminatedCleanly = none) :
    ∃ ss rest, Holds z r.header.compression (r.file.drop r.pos) ss ps rest ∧
      ((r.collect z fault fuel).2.terminatedCleanly = some true →
        ∃ tail, rest = buildSentinel ++ tail) := by
  obtain ⟨ss, hholds, hend⟩ := collect_holds fuel r ps hitems
  refine ⟨ss, _, hholds, fun hclean => ?_⟩
  generalize (r.collect z fault fuel).2 = r' at hend hclean
  rcases hend with rfl | hstep
  · cases hnone.symm.trans hclean
  · cases hstep with
    | done => cases hnone.symm.trans hclean
    | torn => cases hclean
    | sentinel h => exact ⟨_, h⟩

/-- Where a reader stops without an error: at a sentinel, or where fewer than four bytes are
left. -/
def Ends (rest : Bytes) : Prop := buildSentinel <+: rest ∨ rest.length < 4

theorem SegmentReader.collect_end (fuel : Nat) (r : SegmentReader) (ps : List Bytes)
    (hdone : r.done = false) (hitems : (r.collect z noFault fuel).1 = ps.map .ok)
    (hstop : (r.collect z noFault fuel).2.done = true) :
    ∃ ss rest, Holds z r.header.compression (r.file.drop r.pos) ss ps rest ∧ Ends rest := by
  obtain ⟨ss, hholds, hend⟩ := collect_holds fuel r ps hitems
  refine ⟨ss, _, hholds, ?_⟩
  generalize (r.collect z noFault fuel).2 = r' at hend hstop
  rcases hend with rfl | hstep
  · cases hdone.symm.trans hstop
  · cases hstep with
    | done => cases hdone.symm.trans hstop
    | torn h =>
      dsimp only at h ⊢
      exact .inr (by rw [length_drop]; omega)
    | sentinel h => exact .inl ⟨_, h.symm⟩

/-- The reader reads these payloads and no error exactly where the file holds their records, up to
such an end. -/
theorem SegmentReader.readAll_iff {ps : List Bytes} (hdone : r.done = false)
    (hpos : r.pos ≤ r.file.length) :
    (r.readAll z noFault).1 = ps.map .ok ↔
      ∃ ss rest, Holds z r.header.compression (r.file.drop r.pos) ss ps rest ∧ Ends rest := by
  constructor
  · intro h
    exact collect_end _ r ps hdone h (readAll_done hpos)
  rintro ⟨ss, rest, hholds, hends⟩
  have hlen : r.file.length - r.pos = (encodeRecords ss).length + rest.length := by
    rw [← length_drop, hholds.body, length_append]
  have hdrop : r.file.drop (r.pos + (encodeRecords ss).length) = rest := by
    rw [← drop_drop, hholds.body, drop_left]
  have hrecords := collect_records ss ps r rest 1 hdone hpos hholds.body hholds.stored
    hholds.decodes
  have hfuel := length_le_encodeRecords ss
  -- one more call, at the end of the records
  have hlast : ∃ r', ({ r with pos := r.pos + (encodeRecords ss).length }).collect z noFault 1
      = ([], r') ∧ r'.done = true := by
    rcases hends with ⟨tail, htail⟩ | hshort
    · exact ⟨_, collect_sentinel 0 hdone (by dsimp only; omega) (hdrop.trans htail.symm), rfl⟩
    · exact ⟨_, collect_torn 0 hdone (by dsimp only; omega), rfl⟩
  obtain ⟨r', hr', hend⟩ := hlast
  rw [hr', append_nil] at hrecords
  rw [readAll_eq (n := ss.length + 1) (by omega) (by rw [hrecords]; exact hend), hrecords]

end Weir.Wab

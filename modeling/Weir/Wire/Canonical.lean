import Weir.Wire.Payload

/-!
# The byte strings that decode (`weir-core/src/envelope.rs`, `coordinate.rs`, `batch.rs`)

A decoder of the wire format is exact if it accepts what its encoder writes and nothing
else. Coordinates and batch bodies are exact. A frame is exact but for the retired tier
`0x02`, which no encoder writes and which decodes as the durable one.

> `frame_codecs_exact`: a frame decodes exactly from its encoding, or, if its tier is the
> durable one, from its encoding with the retired byte; a coordinate from its encoding.

> `batch_codec_exact`: a batch body decodes exactly from the encoding of at least one record
> within the caps, and the decoder stays inside the body.
-/

namespace Weir.Wire

open Weir.Lib Weir.Wab List

/-! ## Frames -/

theorem MessageType.toByte_of_tryFrom {b : UInt8} {m : MessageType} (h : tryFrom b = some m) :
    m.toByte = b :=
  written_of_read (by decide +kernel) h

/-- The byte of the tier that was retired. -/
def retiredTier : UInt8 := 0x02

/-- A tier is read from the byte it is written as; the durable one from the retired byte too. -/
theorem durabilityFrom_eq_some {b : UInt8} {d : Durability} :
    durabilityFrom b = some d ↔ b = durabilityByte d ∨ d = .durable ∧ b = retiredTier := by
  cases d with
  | durable =>
    constructor
    · intro h
      unfold durabilityFrom at h
      split at h
      next hb => exact hb.imp id fun hb => ⟨rfl, hb⟩
      · split at h <;> cases h
    · rintro (rfl | ⟨-, rfl⟩) <;> rfl
  | buffered =>
    constructor
    · intro h
      unfold durabilityFrom at h
      split at h
      · cases h
      · split at h
        next hb => exact .inl hb
        · cases h
    · rintro (rfl | ⟨h, -⟩)
      · rfl
      · cases h

/-- The fields of a header buffer. -/
theorem header_fields {buf : Bytes} (h : buf.length = 16) :
    buf = slice buf 0 4 ++ [buf.getD 4 0, buf.getD 5 0, buf.getD 6 0, buf.getD 7 0]
      ++ slice buf 8 12 ++ slice buf 12 16 ∧
    slice buf 0 12 = slice buf 0 4 ++ [buf.getD 4 0, buf.getD 5 0, buf.getD 6 0, buf.getD 7 0]
      ++ slice buf 8 12 := by
  match buf, h with
  | [_, _, _, _, _, _, _, _, _, _, _, _, _, _, _, _], _ => exact ⟨rfl, rfl⟩

namespace Header

/-- A buffer that decodes is the header it decodes to, with the byte of the tier that it has. -/
theorem encodeAs_of_decode {buf : Bytes} {h : Header} (hlen : buf.length = headerLen)
    (hok : decode buf = .ok h) :
    h.flags = 0 ∧ durabilityFrom (buf.getD 6 0) = some h.durability ∧
      buf = h.encodeAs (buf.getD 6 0) := by
  obtain ⟨hfields, hcovered⟩ := header_fields hlen
  unfold decode at hok
  split at hok
  · cases hok
  rename_i hmagic
  split at hok
  on_goal 2 => cases hok
  rename_i hversion
  split at hok
  · cases hok
  rename_i hcrc
  split at hok
  · cases hok
  · cases hok
  rename_i messageType durability htype htier
  split at hok
  · cases hok
  rename_i hflags
  cases hok
  refine ⟨not_not.mp hflags, htier, ?_⟩
  have hword : (slice buf 8 12).length = 4 := slice_length (by rw [hlen]; decide)
  have hcrcLen : (slice buf 12 16).length = 4 := slice_length (by rw [hlen]; decide)
  have hbody : bodyAs ⟨buf.getD 4 0, messageType, durability, buf.getD 7 0,
      UInt32.ofNat (leNat (slice buf 8 12)), hversion⟩ (buf.getD 6 0)
      = slice buf 0 12 := by
    rw [bodyAs, hcovered, leBytes_word hword, MessageType.toByte_of_tryFrom htype,
      not_not.mp hmagic]
  rw [encodeAs, hbody, ← not_not.mp hcrc, leBytes_word hcrcLen, hcovered]
  exact hfields

end Header

namespace Envelope

/-- A frame with `tier` as the byte of its tier. -/
def encodeAs (e : Envelope) (tier : UInt8) : Bytes :=
  e.header.encodeAs tier ++ e.payload ++ leBytes 4 (crc32 e.payload).toNat

theorem decode_encodeAs (e : Envelope) {tier : UInt8} (hflags : e.header.flags = 0)
    (htier : durabilityFrom tier = some e.header.durability)
    (hcap : e.payload.length ≤ maxPayloadHardCap) : decode (e.encodeAs tier) = .ok e := by
  exact decode_parts (e.header.encodeAs_length tier) (e.header.decode_encodeAs hflags htier)
    (payloadLen_toNat hcap).symm hcap (by simp)
    (by rw [leNat_leBytes_of_lt (crc32 e.payload).toNat_lt, UInt32.ofNat_toNat])

variable {b : Bytes} {e : Envelope}

/-- A byte string that decodes is the frame it decodes to, with the byte of the tier that it has. -/
theorem encodeAs_of_decode (h : decode b = .ok e) :
    e.header.flags = 0 ∧ e.payload.length ≤ maxPayloadHardCap ∧
      durabilityFrom (b.getD 6 0) = some e.header.durability ∧ b = e.encodeAs (b.getD 6 0) := by
  obtain ⟨headerBuf, crcBuf, rfl, hlen, hheader, hcrcLen, hcrc, hcap⟩ := decode_ok h
  have htier : (headerBuf ++ e.payload ++ crcBuf).getD 6 0 = headerBuf.getD 6 0 := by
    rw [append_assoc, getD_eq_getElem?_getD, getD_eq_getElem?_getD,
      getElem?_append_left (by rw [hlen]; decide)]
  obtain ⟨hflags, hfrom, hbuf⟩ := Header.encodeAs_of_decode hlen hheader
  rw [htier]
  refine ⟨hflags, hcap, hfrom, ?_⟩
  rw [encodeAs, ← hbuf, ← hcrc, leBytes_word hcrcLen]

/-- A byte string decodes exactly if it is the frame, with any byte that is read as its tier. -/
theorem decode_eq_ok :
    decode b = .ok e ↔ e.header.flags = 0 ∧ e.payload.length ≤ maxPayloadHardCap ∧
      ∃ tier, durabilityFrom tier = some e.header.durability ∧ b = e.encodeAs tier := by
  constructor
  · intro h
    obtain ⟨hflags, hcap, hfrom, hb⟩ := encodeAs_of_decode h
    exact ⟨hflags, hcap, b.getD 6 0, hfrom, hb⟩
  · rintro ⟨hflags, hcap, tier, hfrom, rfl⟩
    exact decode_encodeAs e hflags hfrom hcap

/-- The length of a frame stands in its header. -/
theorem decode_declares (h : decode b = .ok e) : leNat (slice b 8 12) = e.payload.length := by
  obtain ⟨-, hcap, -, hb⟩ := encodeAs_of_decode h
  have hword : slice b 8 12 = leBytes 4 e.header.payloadLen.toNat := by
    rw [hb, encodeAs, Header.encodeAs, Header.bodyAs, append_assoc, append_assoc]
    exact slice_middle (by simp [magic]) (by simp)
  rw [hword, leNat_leBytes_of_lt e.header.payloadLen.toNat_lt, payloadLen_toNat hcap]

/-- No frame is the beginning of another one. -/
theorem eq_nil_of_decode_append {x : Bytes} {e' : Envelope} (h : decode b = .ok e)
    (h' : decode (b ++ x) = .ok e') : x = [] := by
  have hlen := decode_length h
  have hlen' := decode_length h'
  have hsame : slice (b ++ x) 8 12 = slice b 8 12 := by
    have hlong : 12 ≤ b.length := by
      rw [hlen, headerLen]
      omega
    rw [slice, slice, drop_append_of_le_length (by omega),
      take_append_of_le_length (by rw [length_drop]; omega)]
  have hdeclared := decode_declares h'
  rw [hsame, decode_declares h] at hdeclared
  rw [length_append, ← hdeclared] at hlen'
  exact eq_nil_of_length_eq_zero (by omega)

end Envelope

/-! ## Coordinates -/

namespace RecordCoordinate

/-- The coordinate is one that `RecordCoordinate::new` builds from a `u64` and 32 bytes. -/
def Built (c : RecordCoordinate) : Prop :=
  ∃ (segment : String) (index : UInt64) (recordId : Bytes), recordId.length = 32 ∧
    new segment index.toNat recordId = .ok c

theorem built_iff (c : RecordCoordinate) : c.Built ↔ c.index < 2 ^ 64 ∧ c.recordId.length = 32 := by
  constructor
  · rintro ⟨segment, index, recordId, hid, hnew⟩
    unfold new at hnew
    split at hnew <;> cases hnew
    exact ⟨index.toNat_lt, hid⟩
  · rintro ⟨hindex, hid⟩
    refine ⟨c.segment, UInt64.ofNat c.index, c.recordId, hid, ?_⟩
    rw [UInt64.toNat_ofNat_of_lt' hindex, new, dif_neg (not_lt.mpr c.bounded)]

/-- The parts of an encoded coordinate. -/
def fields (c : RecordCoordinate) : List Bytes :=
  [[coordinateVersion], leBytes 8 c.index, c.recordId, leBytes 2 c.segment.utf8ByteSize,
    c.segment.toUTF8.data.toList]

theorem encode_eq (c : RecordCoordinate) : c.encode = c.fields.flatten ++ [] := by
  simp [encode, fields]

variable {c : RecordCoordinate}

theorem decode_encode (h : c.Built) : decode c.encode = .ok c := by
  obtain ⟨hindex, hid⟩ := c.built_iff.mp h
  have hsize : c.encode.length = coordinateFixedLen + c.segment.utf8ByteSize := by
    rw [encode_length, hid, coordinateFixedLen]
  have hindexed : slice c.encode 1 9 = leBytes 8 c.index := by
    rw [encode_eq]
    exact slice_field (k := 1) rfl rfl (by simp)
  have hnamed : slice c.encode 9 41 = c.recordId := by
    rw [encode_eq]
    exact slice_field (k := 2) rfl (by simp [fields]) (by rw [hid])
  have hcounted : slice c.encode 41 43 = leBytes 2 c.segment.utf8ByteSize := by
    rw [encode_eq]
    exact slice_field (k := 3) rfl (by simp [fields, hid]) (by simp)
  have hfixed : coordinateFixedLen = 43 := rfl
  have htail : c.encode.drop coordinateFixedLen = c.segment.toUTF8.data.toList := by
    exact drop_left' (by simp [hid, hfixed])
  have hbound := c.bounded
  have hread : leNat (leBytes 2 c.segment.utf8ByteSize) = c.segment.utf8ByteSize :=
    leNat_leBytes_of_lt (lt_of_le_of_lt hbound (by decide))
  have hbytes : (⟨(c.encode.drop coordinateFixedLen).toArray⟩ : ByteArray) = c.segment.toUTF8 := by
    rw [htail]
  have hvalid : c.segment.toUTF8.IsValidUTF8 := c.segment.isValidUTF8
  have hreadIndex : leNat (leBytes 8 c.index) = c.index := by
    rw [leNat_leBytes]
    exact Nat.mod_eq_of_lt hindex
  have hversion : c.encode.getD 0 0 = coordinateVersion := rfl
  unfold decode
  rw [if_neg (by omega), if_neg (not_not_intro hversion)]
  simp only [hcounted, hread, hindexed, hnamed, hbytes, hreadIndex]
  rw [dif_neg (not_lt.mpr hbound), dif_neg (not_not_intro hsize), dif_pos hvalid]
  rfl

/-- The parts of a buffer with the fixed part of a coordinate. -/
theorem coordinate_fields {buf : Bytes} (h : 43 ≤ buf.length) :
    buf = buf.getD 0 0 :: slice buf 1 9 ++ slice buf 9 41 ++ slice buf 41 43 ++ buf.drop 43 := by
  have hfirst : [buf.getD 0 0] = slice buf 0 1 := by
    match buf, h with
    | b :: _, _ => rfl
  have hjoin : buf = slice buf 0 1 ++ slice buf 1 9 ++ slice buf 9 41 ++ slice buf 41 43
      ++ buf.drop 43 := by
    rw [slice_append_slice (by decide) (by decide), slice_append_slice (by decide) (by decide),
      slice_append_slice (by decide) (by decide), slice, drop_zero, Nat.sub_zero,
      take_append_drop]
  rw [← hfirst] at hjoin
  exact hjoin

/-- A byte string that decodes is the encoding of the coordinate it decodes to. -/
theorem encode_of_decode {b : Bytes} (h : decode b = .ok c) : c.Built ∧ b = c.encode := by
  unfold decode at h
  split at h
  · cases h
  rename_i hfixed
  have hlong : 43 ≤ b.length := Nat.le_of_not_lt hfixed
  split at h
  · cases h
  rename_i hversion
  dsimp only at h
  split at h
  · cases h
  split at h
  · cases h
  split at h
  on_goal 2 => cases h
  cases h
  have hindexLen : (slice b 1 9).length = 8 := slice_length (by omega)
  have hcountLen : (slice b 41 43).length = 2 := slice_length (by omega)
  have hbuilt : leNat (slice b 1 9) < 2 ^ 64 := by
    have hlt := leNat_lt (slice b 1 9)
    rwa [hindexLen] at hlt
  refine ⟨(built_iff _).mpr ⟨hbuilt, slice_length (by omega)⟩, ?_⟩
  have hcount : leBytes 2 (b.drop coordinateFixedLen).toArray.size = slice b 41 43 := by
    have hsize : (b.drop coordinateFixedLen).toArray.size = leNat (slice b 41 43) := by
      rw [size_toArray, length_drop]
      omega
    rw [hsize, leBytes_of_length hcountLen]
  show b = coordinateVersion :: leBytes 8 (leNat (slice b 1 9)) ++ slice b 9 41
    ++ leBytes 2 (b.drop coordinateFixedLen).toArray.size ++ b.drop coordinateFixedLen
  rw [leBytes_of_length hindexLen, hcount, ← not_not.mp hversion]
  exact coordinate_fields hlong

theorem decode_eq_ok {b : Bytes} : decode b = .ok c ↔ c.Built ∧ b = c.encode := by
  constructor
  · exact encode_of_decode
  · rintro ⟨hbuilt, rfl⟩
    exact decode_encode hbuilt

end RecordCoordinate

/-! ## Both codecs -/

/-- The codecs of frames and coordinates are exact, but for the retired tier. A byte string
decodes to a frame exactly if it is the encoding of the frame, or that of a durable one with the
retired byte as its tier; so one tier byte gives one byte string, and no frame is the beginning
of another. A frame that is built around a payload over the cap never decodes. A byte string
decodes to a coordinate exactly if the coordinate can be built and it is its encoding. -/
theorem frame_codecs_exact :
    (∀ b e, Envelope.decode b = .ok e ↔
      e.header.version = wireVersion ∧ e.header.flags = 0 ∧
      e.payload.length ≤ maxPayloadHardCap ∧
      (b = e.encode ∨ e.header.durability = .durable ∧ b = e.encodeAs retiredTier)) ∧
    (∀ b b' e, Envelope.decode b = .ok e → Envelope.decode b' = .ok e →
      b.getD 6 0 = b'.getD 6 0 → b = b') ∧
    (∀ b x e e', Envelope.decode b = .ok e → Envelope.decode (b ++ x) = .ok e' → x = []) ∧
    (∀ header payload e, maxPayloadHardCap < payload.length →
      Envelope.decode (Envelope.new header payload).encode ≠ .ok e) ∧
    (∀ b c, RecordCoordinate.decode b = .ok c ↔ c.Built ∧ b = c.encode) := by
  refine ⟨fun b e => ?_, fun b b' e h h' htier => ?_,
    fun b x e e' h h' => Envelope.eq_nil_of_decode_append h h',
    fun header payload e hcap h => ?_, fun b c => RecordCoordinate.decode_eq_ok⟩
  · rw [Envelope.decode_eq_ok]
    constructor
    · rintro ⟨hflags, hcap, tier, hfrom, rfl⟩
      refine ⟨e.header.current, hflags, hcap, ?_⟩
      rcases durabilityFrom_eq_some.mp hfrom with rfl | ⟨hdurable, rfl⟩
      · exact .inl rfl
      · exact .inr ⟨hdurable, rfl⟩
    · rintro ⟨-, hflags, hcap, rfl | ⟨hdurable, rfl⟩⟩
      · exact ⟨hflags, hcap, _, durabilityFrom_byte _, rfl⟩
      · exact ⟨hflags, hcap, retiredTier, durabilityFrom_eq_some.mpr (.inr ⟨hdurable, rfl⟩), rfl⟩
  · rw [(Envelope.encodeAs_of_decode h).2.2.2, (Envelope.encodeAs_of_decode h').2.2.2, htier]
  · have hsize := Envelope.decode_length h
    rw [Envelope.encode_length] at hsize
    have hle := (Envelope.encodeAs_of_decode h).2.1
    have hsame : (Envelope.new header payload).payload.length = payload.length := rfl
    omega

/-- A push as it was written by a producer of the retired tier, and as the encoder writes it. -/
theorem retired_tier_decodes :
    let e := Envelope.new (.new .push .durable 0) [7]
    Envelope.decode e.encode = .ok e ∧ Envelope.decode (e.encodeAs retiredTier) = .ok e ∧
      e.encodeAs retiredTier ≠ e.encode := by
  decide +kernel

/-! ## Batch bodies -/

/-- The records of a batch body, each behind its length. -/
def batchFrames (records : List Bytes) : Bytes := records.flatMap fun r => leBytes 4 r.length ++ r

/-- A record within the cap. -/
def WithinCap (cap : Nat) (r : Bytes) : Prop := 1 ≤ r.length ∧ r.length ≤ cap

variable {body : Bytes} {declared w : Nat}

/-- What the loop has walked over is the encoding of the records it has found. -/
theorem walkBatch_ok {cap c : Nat} {found : List Bytes} :
    ∀ {cursor : Nat} {out : List Bytes}, cursor ≤ body.length →
      walkBatch body declared cap cursor out = .ok (c, found) →
      c = body.length ∧ ∃ rs, found = out ++ rs ∧ body.drop cursor = batchFrames rs ∧
        ∀ r ∈ rs, WithinCap cap r := by
  intro cursor out hcursor h
  unfold walkBatch at h
  split at h
  next hin =>
    split at h
    · cases h
    rename_i hword
    dsimp only at h
    split at h
    · cases h
    rename_i hpos
    split at h
    · cases h
    rename_i hcap
    split at h
    · cases h
    rename_i hrecord
    split at h
    · cases h
    obtain ⟨hc, rs, hfound, hdrop, hrs⟩ := walkBatch_ok (by omega) h
    refine ⟨hc, _ :: rs, by rw [hfound, append_assoc, singleton_append], ?_, ?_⟩
    · have hlen : (slice body (cursor + 4)
          (cursor + 4 + leNat (slice body cursor (cursor + 4)))).length
          = leNat (slice body cursor (cursor + 4)) := by
        rw [slice_length (by omega), Nat.add_sub_cancel_left]
      have hfour : (slice body cursor (cursor + 4)).length = 4 := by
        rw [slice_length (by omega), Nat.add_sub_cancel_left]
      rw [batchFrames, flatMap_cons, ← batchFrames, ← hdrop, hlen,
        leBytes_of_length hfour,
        slice_append_slice (by omega) (by omega)]
      exact (slice_append_drop (by omega)).symm
    · intro r hr
      rcases mem_cons.mp hr with rfl | hr
      · refine ⟨?_, ?_⟩ <;> rw [slice_length (by omega)] <;> omega
      · exact hrs r hr
  next hend =>
    obtain ⟨rfl, rfl⟩ := Prod.mk.inj (Except.ok.inj h)
    have hlen : cursor = body.length := by omega
    refine ⟨hlen, [], (append_nil _).symm, ?_, fun r hr => by cases hr⟩
    rw [hlen, drop_length]
    rfl
termination_by cursor => body.length - cursor

/-- The loop finds the records that are there, as long as they are not more than declared. -/
theorem walkBatch_frames {cap : Nat} (hcap : cap ≤ maxPayloadHardCap) :
    ∀ (rs : List Bytes) {cursor : Nat} {out : List Bytes}, cursor ≤ body.length →
      body.drop cursor = batchFrames rs → (∀ r ∈ rs, WithinCap cap r) →
      out.length + rs.length ≤ declared →
      walkBatch body declared cap cursor out = .ok (body.length, out ++ rs) := by
  intro rs
  induction rs with
  | nil =>
    intro cursor out hcursor hdrop _ _
    have hend : cursor = body.length := by
      have hnil := congrArg length hdrop
      rw [length_drop] at hnil
      have hzero : (batchFrames []).length = 0 := rfl
      omega
    unfold walkBatch
    rw [dif_neg (by omega), hend, append_nil]
  | cons r rs ih =>
    intro cursor out hcursor hdrop hrs hcount
    obtain ⟨hpos, hle⟩ := hrs r mem_cons_self
    have hframe : body.drop cursor = leBytes 4 r.length ++ r ++ batchFrames rs := hdrop
    have hlong : cursor + 4 + r.length ≤ body.length := by
      have hlen := congrArg length hframe
      rw [length_drop, length_append, length_append, leBytes_length] at hlen
      omega
    have hword : slice body cursor (cursor + 4) = leBytes 4 r.length := by
      rw [slice, hframe, Nat.add_sub_cancel_left, append_assoc]
      exact take_left' (leBytes_length 4 _)
    have hread : leNat (slice body cursor (cursor + 4)) = r.length := by
      rw [hword, leNat_leBytes]
      exact Nat.mod_eq_of_lt (lt_of_le_of_lt (le_trans hle hcap) (by decide))
    have hskip : body.drop (cursor + 4) = r ++ batchFrames rs := by
      rw [← drop_drop, hframe, append_assoc]
      exact drop_left' (leBytes_length 4 _)
    have hrecord : slice body (cursor + 4) (cursor + 4 + r.length) = r := by
      rw [slice, hskip, Nat.add_sub_cancel_left, take_left]
    have hrest : body.drop (cursor + 4 + r.length) = batchFrames rs := by
      rw [← drop_drop, hskip, drop_left]
    rw [length_cons] at hcount
    unfold walkBatch
    rw [dif_pos (by omega), if_neg (by omega)]
    rw [hread, if_neg (by omega), if_neg (by omega), if_neg (by omega), if_neg (by omega), hrecord,
      ih hlong hrest (fun x hx => hrs x (mem_cons_of_mem _ hx))
        (by rw [length_append, length_singleton]; omega),
      append_assoc, singleton_append]

/-- The version and the count of a body, and what is behind them. -/
theorem body_fields (h : 3 ≤ body.length) :
    body = body.getD 0 0 :: slice body 1 3 ++ body.drop 3 := by
  match body, h with
  | _ :: _ :: _ :: _, _ => rfl

theorem decodeBatchBody_eq_ok {maxRecords maxRecordLen : Nat} {rs : List Bytes} :
    decodeBatchBody body maxRecords maxRecordLen = .ok rs ↔
      body = encodeBatchBody rs ∧ 1 ≤ rs.length ∧
      rs.length ≤ min maxRecords maxBatchRecordsHardCap ∧
      ∀ r ∈ rs, WithinCap (min maxRecordLen maxPayloadHardCap) r := by
  constructor
  · intro h
    obtain ⟨hpos, hcount⟩ := decodeBatchBody_bounds h
    unfold decodeBatchBody at h
    split at h
    · cases h
    rename_i hshort
    have hlong : 3 ≤ body.length := Nat.le_of_not_lt hshort
    split at h
    · cases h
    rename_i hversion
    dsimp only at h
    split at h
    · cases h
    split at h
    · cases h
    split at h
    · cases h
    rename_i cursor out hwalk
    split at h
    · cases h
    rename_i hdeclared
    split at h
    · cases h
    obtain ⟨-, found, hout, hdrop, hrs⟩ := walkBatch_ok hlong hwalk
    obtain rfl : out = rs := Except.ok.inj h
    subst hout
    refine ⟨?_, hpos, hcount, hrs⟩
    have htwo : (slice body 1 3).length = 2 := slice_length hlong
    rw [encodeBatchBody, not_not.mp hdeclared, leBytes_of_length htwo,
      ← not_not.mp hversion, ← batchFrames, ← hdrop]
    exact body_fields hlong
  · rintro ⟨rfl, hpos, hcount, hrs⟩
    have hsmall : rs.length < 2 ^ 16 := by
      have hhard : maxBatchRecordsHardCap < 2 ^ 16 := by decide
      omega
    have hlen : 3 ≤ (encodeBatchBody rs).length := by
      rw [encodeBatchBody, length_append, length_cons, leBytes_length]
      omega
    have hdeclared : leNat (slice (encodeBatchBody rs) 1 3) = rs.length := by
      have hmid : slice (encodeBatchBody rs) 1 3 = leBytes 2 rs.length :=
        slice_middle (p := [batchVersion]) rfl (by simp)
      rw [hmid, leNat_leBytes]
      exact Nat.mod_eq_of_lt hsmall
    have hversion : (encodeBatchBody rs).getD 0 0 = batchVersion := rfl
    have hwalk : walkBatch (encodeBatchBody rs) rs.length (min maxRecordLen maxPayloadHardCap) 3 []
        = .ok ((encodeBatchBody rs).length, [] ++ rs) :=
      walkBatch_frames (min_le_right maxRecordLen _) rs hlen rfl hrs (by simp)
    have hheader : batchHeaderLen = 3 := rfl
    unfold decodeBatchBody
    rw [hheader, if_neg (not_lt.mpr hlen), if_neg (not_not_intro hversion)]
    rw [hdeclared, if_neg (by omega), if_neg (by omega), hwalk]
    dsimp only
    rw [nil_append, if_neg (not_not_intro rfl), if_neg (not_not_intro rfl)]

/-! ### What the decoder touches

The same function once more, with what can panic in it: an index or a range outside the body and
an overflowing addition give `none`. It also returns how many records there was room for. -/

/-- `a + b` in a `usize` of `w` bits. -/
def usizeAdd (w a b : Nat) : Option Nat := if a + b < 2 ^ w then some (a + b) else none

/-- `&body[a..b]`. -/
def rangeOf (body : Bytes) (a b : Nat) : Option Bytes :=
  if a ≤ b ∧ b ≤ body.length then some (slice body a b) else none

/-- The room of a `Vec` behind a `push`: it grows where it is full. -/
def roomAfterPush (room len : Nat) : Nat := if len < room then room else max (2 * room) (len + 1)

/-- `u32::from_le_bytes` of the four bytes at `cursor`. -/
def wordAt (body : Bytes) (cursor : Nat) : Option Nat := do
  let a ← body[cursor]?
  let b ← body[cursor + 1]?
  let c ← body[cursor + 2]?
  let d ← body[cursor + 3]?
  return leNat [a, b, c, d]

theorem usizeAdd_some {a b c : Nat} (h : usizeAdd w a b = some c) : c = a + b := by
  unfold usizeAdd at h
  split at h
  · exact (Option.some.inj h).symm
  · cases h

/-- The loop of `decode_batch_body`. -/
def walkBatchChecked (w : Nat) (body : Bytes) (declared recordCap cursor room : Nat)
    (out : List Bytes) : Option (Nat × Except BatchError (Nat × List Bytes)) :=
  if _h : cursor < body.length then
    match _hnext : usizeAdd w cursor 4 with
    | none => none
    | some next =>
      if next > body.length then some (room, .error (.truncatedRecord out.length))
      else
        match wordAt body cursor with
        | none => none
        | some len =>
          if len = 0 then some (room, .error (.emptyRecord out.length))
          else if len > recordCap then
            some (room, .error (.recordTooLarge out.length len recordCap))
          else
            match _hstop : usizeAdd w next len with
            | none => none
            | some stop =>
              if stop > body.length then some (room, .error (.truncatedRecord out.length))
              else if out.length = declared then
                some (room, .error (.lengthMismatch declared (declared + 1)))
              else
                match rangeOf body next stop with
                | none => none
                | some record =>
                  walkBatchChecked w body declared recordCap stop (roomAfterPush room out.length)
                    (out ++ [record])
  else some (room, .ok (cursor, out))
termination_by body.length - cursor
decreasing_by
  have h₁ := usizeAdd_some _hnext
  have h₂ := usizeAdd_some _hstop
  omega

/-- `decode_batch_body`, and the records it reserved room for. -/
def decodeBatchBodyChecked (w : Nat) (body : Bytes) (maxRecords maxRecordLen : Nat) :
    Option (Nat × Except BatchError (List Bytes)) :=
  if body.length < batchHeaderLen then
    some (0, .error (.truncated body.length batchHeaderLen))
  else
    match body[0]?, body[1]?, body[2]? with
    | some version, some lo, some hi =>
      let declared := leNat [lo, hi]
      let cap := min maxRecords maxBatchRecordsHardCap
      if version ≠ batchVersion then some (0, .error (.unsupportedVersion version))
      else if declared = 0 then some (0, .error .emptyBatch)
      else if declared > cap then some (0, .error (.tooManyRecords declared cap))
      else
        match walkBatchChecked w body declared (min maxRecordLen maxPayloadHardCap) batchHeaderLen
            declared [] with
        | none => none
        | some (room, .error e) => some (room, .error e)
        | some (room, .ok (cursor, out)) =>
          if out.length ≠ declared then some (room, .error (.lengthMismatch declared out.length))
          else if cursor ≠ body.length then
            some (room, .error (.lengthMismatch cursor body.length))
          else some (room, .ok out)
    | _, _, _ => none

theorem wordAt_some {cursor : Nat} (h : cursor + 4 ≤ body.length) :
    wordAt body cursor = some (leNat (slice body cursor (cursor + 4))) := by
  have hdrop : ∀ i, body[cursor + i]? = (body.drop cursor)[i]? := fun i => getElem?_drop.symm
  have hlong : 4 ≤ (body.drop cursor).length := by
    rw [length_drop]
    omega
  have hzero : body[cursor]? = (body.drop cursor)[0]? := hdrop 0
  unfold wordAt slice
  rw [hzero, hdrop 1, hdrop 2, hdrop 3, Nat.add_sub_cancel_left]
  generalize body.drop cursor = rest at hlong
  match rest, hlong with
  | _ :: _ :: _ :: _ :: _, _ => rfl

/-- Every body is shorter than half of what a `usize` counts. -/
theorem walkBatchChecked_eq {recordCap : Nat} (hw : 32 ≤ w)
    (hbody : body.length < 2 ^ (w - 1)) (hcap : recordCap ≤ maxPayloadHardCap) :
    ∀ {cursor : Nat} {out : List Bytes}, out.length ≤ declared →
      walkBatchChecked w body declared recordCap cursor declared out
        = some (declared, walkBatch body declared recordCap cursor out) := by
  intro cursor out hout
  have hhalf : 2 ^ w = 2 * 2 ^ (w - 1) := by
    rw [← Nat.pow_succ', Nat.succ_eq_add_one, Nat.sub_add_cancel (by omega)]
  have hlarge : maxPayloadHardCap < 2 ^ (w - 1) :=
    lt_of_lt_of_le (by decide : maxPayloadHardCap < 2 ^ 31)
      (Nat.pow_le_pow_right (by decide) (by omega))
  have hmax : maxPayloadHardCap = 16777216 := rfl
  unfold walkBatchChecked walkBatch
  by_cases hin : cursor < body.length
  on_goal 2 => rw [dif_neg hin, dif_neg hin]
  rw [dif_pos hin, dif_pos hin]
  split
  next hnone =>
    have hnext : usizeAdd w cursor 4 = some (cursor + 4) := if_pos (by omega)
    rw [hnext] at hnone
    cases hnone
  rename_i next hsome
  obtain rfl := usizeAdd_some hsome
  by_cases hword : cursor + 4 > body.length
  · rw [if_pos hword, if_pos hword]
  rw [if_neg hword, if_neg hword, wordAt_some (by omega)]
  dsimp only
  by_cases hzero : leNat (slice body cursor (cursor + 4)) = 0
  · rw [if_pos hzero, if_pos hzero]
  rw [if_neg hzero, if_neg hzero]
  by_cases hlarger : leNat (slice body cursor (cursor + 4)) > recordCap
  · rw [if_pos hlarger, if_pos hlarger]
  rw [if_neg hlarger, if_neg hlarger]
  split
  next hnone =>
    have hstop : usizeAdd w (cursor + 4) (leNat (slice body cursor (cursor + 4)))
        = some (cursor + 4 + leNat (slice body cursor (cursor + 4))) := if_pos (by omega)
    rw [hstop] at hnone
    cases hnone
  rename_i stop hsome'
  obtain rfl := usizeAdd_some hsome'
  by_cases hpast : cursor + 4 + leNat (slice body cursor (cursor + 4)) > body.length
  · rw [if_pos hpast, if_pos hpast]
  rw [if_neg hpast, if_neg hpast]
  by_cases hfull : out.length = declared
  · rw [if_pos hfull, if_pos hfull]
  have hrange : rangeOf body (cursor + 4)
      (cursor + 4 + leNat (slice body cursor (cursor + 4)))
      = some (slice body (cursor + 4)
        (cursor + 4 + leNat (slice body cursor (cursor + 4)))) :=
    if_pos ⟨by omega, by omega⟩
  -- there is room for one more, so the vector does not grow
  have hroom : roomAfterPush declared out.length = declared := if_pos (by omega)
  rw [if_neg hfull, if_neg hfull, hrange, hroom]
  exact walkBatchChecked_eq hw hbody hcap
    (by rw [length_append, length_singleton]; omega)
termination_by cursor => body.length - cursor

theorem decodeBatchBodyChecked_eq (hw : 32 ≤ w) (hbody : body.length < 2 ^ (w - 1))
    (maxRecords maxRecordLen : Nat) :
    ∃ room, room ≤ min maxRecords maxBatchRecordsHardCap ∧
      decodeBatchBodyChecked w body maxRecords maxRecordLen
        = some (room, decodeBatchBody body maxRecords maxRecordLen) := by
  unfold decodeBatchBodyChecked decodeBatchBody
  by_cases hshort : body.length < batchHeaderLen
  · exact ⟨0, Nat.zero_le _, by rw [if_pos hshort, if_pos hshort]⟩
  rw [if_neg hshort, if_neg hshort]
  have hlong : 3 ≤ body.length := Nat.le_of_not_lt hshort
  obtain ⟨version, lo, hi, rest, hparts⟩ : ∃ version lo hi rest,
      body = version :: lo :: hi :: rest := by
    match body, hlong with
    | version :: lo :: hi :: rest, _ => exact ⟨version, lo, hi, rest, rfl⟩
  have h0 : body[0]? = some version := by rw [hparts]; rfl
  have h1 : body[1]? = some lo := by rw [hparts]; rfl
  have h2 : body[2]? = some hi := by rw [hparts]; rfl
  have hversion : body.getD 0 0 = version := by rw [hparts]; rfl
  have hword : slice body 1 3 = [lo, hi] := by rw [hparts]; rfl
  rw [h0, h1, h2, hversion, hword]
  dsimp only
  by_cases hknown : version ≠ batchVersion
  · exact ⟨0, Nat.zero_le _, by rw [if_pos hknown, if_pos hknown]⟩
  rw [if_neg hknown, if_neg hknown]
  by_cases hzero : leNat [lo, hi] = 0
  · exact ⟨0, Nat.zero_le _, by rw [if_pos hzero, if_pos hzero]⟩
  rw [if_neg hzero, if_neg hzero]
  by_cases hmany : leNat [lo, hi] > min maxRecords maxBatchRecordsHardCap
  · exact ⟨0, Nat.zero_le _, by rw [if_pos hmany, if_pos hmany]⟩
  rw [if_neg hmany, if_neg hmany,
    walkBatchChecked_eq hw hbody (Nat.min_le_right maxRecordLen _) (Nat.zero_le _)]
  refine ⟨leNat [lo, hi], Nat.le_of_not_lt hmany, ?_⟩
  cases walkBatch body (leNat [lo, hi]) (min maxRecordLen maxPayloadHardCap) batchHeaderLen [] with
  | error e => rfl
  | ok walked =>
    obtain ⟨cursor, out⟩ := walked
    dsimp only
    by_cases hcount : out.length ≠ leNat [lo, hi]
    · rw [if_pos hcount, if_pos hcount]
    rw [if_neg hcount, if_neg hcount]
    by_cases hend : cursor ≠ body.length
    · rw [if_pos hend, if_pos hend]
    · rw [if_neg hend, if_neg hend]

/-- The codec of batch bodies is exact within the caps, for every body and all caps. On a machine
whose `usize` has at least 32 bits, where a body is shorter than half of what a `usize` counts,
the decoder reads inside the body, adds without overflow and reserves room for no more records
than both caps allow. -/
theorem batch_codec_exact (body : Bytes) (maxRecords maxRecordLen : Nat) :
    (∀ rs, decodeBatchBody body maxRecords maxRecordLen = .ok rs ↔
      body = encodeBatchBody rs ∧ 1 ≤ rs.length ∧
      rs.length ≤ min maxRecords maxBatchRecordsHardCap ∧
      ∀ r ∈ rs, 1 ≤ r.length ∧ r.length ≤ min maxRecordLen maxPayloadHardCap) ∧
    ∀ w, 32 ≤ w → body.length < 2 ^ (w - 1) →
      ∃ room, room ≤ min maxRecords maxBatchRecordsHardCap ∧
        decodeBatchBodyChecked w body maxRecords maxRecordLen
          = some (room, decodeBatchBody body maxRecords maxRecordLen) :=
  ⟨fun _ => decodeBatchBody_eq_ok,
    fun _ hw hbody => decodeBatchBodyChecked_eq hw hbody maxRecords maxRecordLen⟩

/-- A body of two records, on a machine of 64 bits. -/
theorem batch_codec_exact_two :
    (decodeBatchBody (encodeBatchBody [[7], [8, 9]]) 2 5 = .ok [[7], [8, 9]]) ∧
    ∃ room, room ≤ min 2 maxBatchRecordsHardCap ∧
      decodeBatchBodyChecked 64 (encodeBatchBody [[7], [8, 9]]) 2 5
        = some (room, decodeBatchBody (encodeBatchBody [[7], [8, 9]]) 2 5) :=
  ⟨((batch_codec_exact _ 2 5).1 _).mpr ⟨rfl, by decide, by decide, by decide⟩,
    (batch_codec_exact _ 2 5).2 64 (by decide) (by decide)⟩

end Weir.Wire

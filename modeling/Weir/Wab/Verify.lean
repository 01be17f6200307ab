import Weir.Wab.Reader

/-!
# Verifying a sealed segment (`verify_sealed_segment`)

The forensic check reads a sealed segment once more: the header, the framing of
every record up to the sentinel, the footer, and that nothing is behind it. It
hashes every byte before the sentinel on the way and compares the result, and
its own counts, with the footer. It decompresses nothing.

> `verifySealedSegment_sealedBytes`: a header, storable records and the footer
> that describes them pass.

> `verifySealedSegment_inv`: nothing else does.
-/

namespace Weir.Wab

open Weir.Lib List

/-- `SegmentVerifyError`. -/
inductive SegmentVerifyError
  | io (e : IoError)
  | header (e : SegmentHeaderParseError)
  | tooShort
  | badRecord (e : IoError)
  | noSentinel
  | missingFooter
  | crcMismatch (expected computed : UInt32)
  | trailingBytes
  | footerMismatch (field : String) (expected computed : Nat)
  deriving DecidableEq, Repr

/-- Its `Display`. -/
def SegmentVerifyError.display : SegmentVerifyError → String
  | .io e => "I/O error verifying segment: " ++ e.message
  | .header e => "segment header invalid: " ++ e.display
  | .tooShort => "file too short to contain a segment header"
  | .badRecord e => "corrupt record framing: " ++ e.message
  | .noSentinel => "reached EOF without an end-of-records sentinel: not a sealed segment"
  | .missingFooter =>
    s!"end-of-records sentinel found but the {segmentFooterLen}-byte footer is missing or truncated"
  | .crcMismatch expected computed => "whole-file CRC mismatch: footer recorded "
    ++ s!"{hex32 expected}, computed {hex32 computed}"
  | .trailingBytes => "extra bytes after the footer: a sealed segment must end at its footer"
  | .footerMismatch field expected computed => "footer " ++ field
    ++ s!" mismatch: footer recorded {expected}, records walked give {computed}"

structure SegmentVerification where
  header : SegmentHeaderMeta
  footer : SegmentFooterMeta
  deriving DecidableEq, Repr

/-- The bookkeeping of the walk. -/
structure Walk where
  hasher : Hasher
  records : Nat
  dataBytes : Nat
  pos : Nat

/-- The size of the buffer the payload is read through. -/
def verifyChunk : Nat := 64 * 1024

/-- Reads a payload chunk by chunk into the hasher of the file and into that of the
record. A chunk is at least a byte, so the payload's length is fuel enough. -/
def hashPayload (file : Bytes) (fault : ReadFault) (payloadLen : Nat) :
    Nat → Nat → Nat → Hasher → Hasher → Except SegmentVerifyError (Hasher × Hasher)
  | 0, _, _, hasher, recordHasher => .ok (hasher, recordHasher)
  | fuel + 1, pos, remaining, hasher, recordHasher =>
    if remaining = 0 then .ok (hasher, recordHasher)
    else
      let want := min remaining verifyChunk
      match readExact file fault pos want with
      | .error e => .error (.badRecord (truncateContext e payloadLen "payload bytes"))
      | .ok chunk =>
        hashPayload file fault payloadLen fuel (pos + want) (remaining - want)
          (hasher.update chunk) (recordHasher.update chunk)

/-- One turn of the walk: it fails, takes a record, or is at the sentinel. -/
def verifyStep (file : Bytes) (fault : ReadFault) (c : Compression) (w : Walk) :
    Except SegmentVerifyError (Option Walk) :=
  match readExact file fault w.pos 4 with
  | .error e => if e.kind = .unexpectedEof then .error .noSentinel else .error (.io e)
  | .ok lenBuf =>
    let payloadLen := leNat lenBuf
    if payloadLen = 0 then .ok none
    else if payloadLen > c.storedCap then
      .error (.badRecord (IoError.new .invalidData
        s!"record payload_len {payloadLen} exceeds the stored-record cap {c.storedCap}"))
    else
      match readExact file fault (w.pos + 4) 4 with
      | .error e => .error (.badRecord (truncateContext e payloadLen "CRC field"))
      | .ok crcBuf =>
        match hashPayload file fault payloadLen payloadLen (w.pos + 8) payloadLen
            ((w.hasher.update lenBuf).update crcBuf) Hasher.new with
        | .error e => .error e
        | .ok (hasher, recordHasher) =>
          if UInt32.ofNat (leNat crcBuf) ≠ recordHasher.finalize then
            .error (.badRecord (crcMismatch (UInt32.ofNat (leNat crcBuf)) recordHasher.finalize))
          else .ok (some
            { hasher := hasher
              records := w.records + 1
              dataBytes := w.dataBytes + payloadLen
              pos := w.pos + 8 + payloadLen })

/-- The walk to the sentinel. Every turn is inside the file, so the fuel
`verifySealedSegment` gives it is enough. -/
def verifyWalk (file : Bytes) (fault : ReadFault) (c : Compression) :
    Nat → Walk → Except SegmentVerifyError Walk
  | 0, _ => .error .noSentinel
  | fuel + 1, w =>
    match verifyStep file fault c w with
    | .error e => .error e
    | .ok none => .ok w
    | .ok (some w') => verifyWalk file fault c fuel w'

/-- The footer behind the sentinel, against the walk, and the end of the file. -/
def verifyFooter (file : Bytes) (fault : ReadFault) (w : Walk) :
    Except SegmentVerifyError SegmentFooterMeta :=
  match readExact file fault (w.pos + 4) segmentFooterLen with
  | .error e => if e.kind = .unexpectedEof then .error .missingFooter else .error (.io e)
  | .ok buf =>
    match parseSegmentFooter buf with
    | none => .error .missingFooter
    | some footer =>
      if footer.fileCrc32 ≠ w.hasher.finalize then
        .error (.crcMismatch footer.fileCrc32 w.hasher.finalize)
      else if footer.recordCount ≠ w.records then
        .error (.footerMismatch "record_count" footer.recordCount w.records)
      else if footer.dataBytes ≠ w.dataBytes then
        .error (.footerMismatch "data_bytes" footer.dataBytes w.dataBytes)
      else
        match fault.err (w.pos + 4 + segmentFooterLen) with
        | some e => .error (.io e)
        | none =>
          if file.length > w.pos + 4 + segmentFooterLen then .error .trailingBytes else .ok footer

/-- `verify_sealed_segment`, of a file that holds `file`. -/
def verifySealedSegment (file : Bytes) (fault : ReadFault) :
    Except SegmentVerifyError SegmentVerification :=
  match readExact file fault 0 segmentHeaderLen with
  | .error e => if e.kind = .unexpectedEof then .error .tooShort else .error (.io e)
  | .ok buf =>
    match parseSegmentHeader buf with
    | .error e => .error (.header e)
    | .ok header =>
      match verifyWalk file fault header.compression (file.length + 1)
          ⟨Hasher.new.update buf, 0, 0, segmentHeaderLen⟩ with
      | .error e => .error e
      | .ok w =>
        match verifyFooter file fault w with
        | .error e => .error e
        | .ok footer => .ok ⟨header, footer⟩

/-! ## What is accepted -/

variable {file : Bytes}

/-- Chunk by chunk or at once, the bytes are the same. -/
theorem hashPayload_ok {payloadLen : Nat} :
    ∀ (fuel : Nat) {s rest : Bytes} {pos : Nat} (hasher recordHasher : Hasher),
      file.drop pos = s ++ rest → pos ≤ file.length → s.length ≤ fuel →
      hashPayload file noFault payloadLen fuel pos s.length hasher recordHasher
        = .ok (hasher.update s, recordHasher.update s) := by
  intro fuel
  induction fuel with
  | zero =>
    intro s rest pos hasher recordHasher _ _ hlen
    obtain rfl := eq_nil_of_length_eq_zero (Nat.le_zero.mp hlen)
    rfl
  | succ fuel ih =>
    intro s rest pos hasher recordHasher hdrop hpos hlen
    rw [hashPayload]
    by_cases hempty : s.length = 0
    · obtain rfl := eq_nil_of_length_eq_zero hempty
      rfl
    -- the first chunk, and what is left behind it
    rw [if_neg hempty]
    dsimp only
    have hchunk : verifyChunk = 65536 := rfl
    have hfile : file.length - pos = s.length + rest.length := by
      rw [← length_drop, hdrop, length_append]
    generalize hwant : min s.length verifyChunk = want
    have hle : want ≤ s.length := by omega
    have hsplit : file.drop pos = s.take want ++ (s.drop want ++ rest) := by
      rw [← append_assoc, take_append_drop, hdrop]
    have hrest : file.drop (pos + want) = s.drop want ++ rest := by
      rw [← drop_drop, hdrop, drop_append_of_le_length hle]
    have hread : readExact file noFault pos want = .ok (s.take want) :=
      readExact_of_drop rfl hsplit (by rw [length_take]; omega) hpos
    rw [hread]
    dsimp only
    rw [← length_drop, ih _ _ hrest (by omega) (by rw [length_drop]; omega),
      Hasher.update_append, Hasher.update_append, take_append_drop]

variable {c : Compression} {w : Walk}

/-- A storable record is taken. -/
theorem verifyStep_record {s rest : Bytes}
    (hdrop : file.drop w.pos = encodeRecord s ++ rest) (hpos : w.pos ≤ file.length)
    (hok : StoredOk c s) :
    verifyStep file noFault c w = .ok (some
      ⟨w.hasher.update (encodeRecord s), w.records + 1, w.dataBytes + s.length,
        w.pos + 8 + s.length⟩) := by
  obtain ⟨h0, h4, h8, _⟩ := drop_record hdrop
  have hlen : file.length - w.pos = 8 + s.length + rest.length := by
    rw [← length_drop, hdrop, length_append, encodeRecord_length]
  have hne : ¬s.length = 0 := by have := hok.1; omega
  have hcap : ¬s.length > c.storedCap := not_lt.mpr hok.2
  unfold verifyStep
  rw [readExact_of_drop rfl h0 (leBytes_length 4 _) hpos]
  dsimp only
  rw [hok.leNat_len, if_neg hne, if_neg hcap,
    readExact_of_drop rfl h4 (leBytes_length 4 _) (by omega)]
  dsimp only
  rw [hashPayload_ok s.length _ _ h8 (by omega) (le_rfl)]
  dsimp only
  have hcrc : (Hasher.new.update s).finalize = crc32 s := rfl
  rw [hcrc, crcField, if_neg (not_not_intro rfl), Hasher.update_append, Hasher.update_append,
    encodeRecord, append_assoc]

/-- The walk goes over every storable record, to the sentinel behind them. -/
theorem verifyWalk_records {tail : Bytes} (ss : List Bytes) (fuel : Nat) (w : Walk) :
    (∀ s ∈ ss, StoredOk c s) → w.pos ≤ file.length →
      file.drop w.pos = encodeRecords ss ++ (buildSentinel ++ tail) → ss.length < fuel →
      verifyWalk file noFault c fuel w = .ok
        ⟨w.hasher.update (encodeRecords ss), w.records + ss.length,
          w.dataBytes + (ss.map List.length).sum, w.pos + (encodeRecords ss).length⟩ := by
  induction ss generalizing fuel w with
  | nil =>
    intro _ hpos hdrop hfuel
    obtain ⟨fuel, rfl⟩ := Nat.exists_eq_succ_of_ne_zero (ne_of_gt hfuel)
    have hread : readExact file noFault w.pos 4 = .ok buildSentinel :=
      readExact_of_drop rfl hdrop rfl hpos
    rw [verifyWalk, verifyStep, hread]
    rfl
  | cons s ss ih =>
    intro hok hpos hdrop hfuel
    obtain ⟨fuel, rfl⟩ := Nat.exists_eq_succ_of_ne_zero (ne_of_gt (Nat.zero_lt_of_lt hfuel))
    rw [encodeRecords_cons, append_assoc] at hdrop
    obtain ⟨_, _, _, hrest⟩ := drop_record hdrop
    have hlen : file.length - w.pos
        = 8 + s.length + (encodeRecords ss ++ (buildSentinel ++ tail)).length := by
      rw [← length_drop, hdrop, length_append, encodeRecord_length]
    rw [verifyWalk, verifyStep_record hdrop hpos (hok s mem_cons_self)]
    dsimp only
    rw [ih fuel _ (fun t ht => hok t (mem_cons_of_mem _ ht)) (by dsimp only; omega) hrest
      (Nat.lt_of_succ_lt_succ hfuel)]
    simp only [encodeRecords_cons, length_append, encodeRecord_length, length_cons,
      map_cons, sum_cons, Hasher.update_append, add_assoc, add_comm 1,
      Nat.add_left_comm]

/-- A footer that agrees with the walk, and nothing behind it. -/
theorem verifyFooter_ok {t : Int64} (hrecords : w.records < 256 ^ 8)
    (hdata : w.dataBytes < 256 ^ 8) (hpos : w.pos ≤ file.length)
    (hdrop : file.drop w.pos = buildSentinel
      ++ buildSegmentFooter w.records w.dataBytes w.hasher.finalize t) :
    verifyFooter file noFault w = .ok ⟨w.records, w.dataBytes, w.hasher.finalize, t⟩ := by
  have hfooter : file.drop (w.pos + 4)
      = buildSegmentFooter w.records w.dataBytes w.hasher.finalize t ++ [] := by
    rw [← drop_drop, hdrop, append_nil]
    rfl
  have hlen : file.length - w.pos = 4 + segmentFooterLen := by
    rw [← length_drop, hdrop, length_append, buildSegmentFooter_length]
    rfl
  unfold verifyFooter
  rw [readExact_of_drop rfl hfooter (buildSegmentFooter_length ..) (by omega)]
  dsimp only
  rw [parseSegmentFooter_build hrecords hdata]
  dsimp only
  rw [if_neg (not_not_intro rfl), if_neg (not_not_intro rfl), if_neg (not_not_intro rfl)]
  dsimp only [noFault]
  rw [if_neg (by omega)]

/-- A sealed segment is accepted as what it was sealed with. -/
theorem verifySealedSegment_sealedBytes {header : Bytes} {m : SegmentHeaderMeta} {ss : List Bytes}
    {t : Int64} (hheader : parseSegmentHeader header = .ok m)
    (hok : ∀ s ∈ ss, StoredOk m.compression s) (hcount : ss.length < 256 ^ 8)
    (hdata : (ss.map List.length).sum < 256 ^ 8) :
    verifySealedSegment (sealedBytes header ss t) noFault = .ok
      ⟨m, ⟨ss.length, (ss.map List.length).sum, crc32 (header ++ encodeRecords ss), t⟩⟩ := by
  have hlen := parseSegmentHeader_length hheader
  generalize hfile : sealedBytes header ss t = file
  have hsplit : file = header ++ (encodeRecords ss ++ (buildSentinel
      ++ buildSegmentFooter ss.length (ss.map length).sum (crc32 (header ++ encodeRecords ss))
        t)) := by
    rw [← hfile, sealedBytes, append_assoc]
  have hbody : file.drop segmentHeaderLen = encodeRecords ss ++ (buildSentinel
      ++ buildSegmentFooter ss.length (ss.map length).sum (crc32 (header ++ encodeRecords ss))
        t) := by
    rw [hsplit, drop_left' hlen]
  have hinside : segmentHeaderLen + (encodeRecords ss).length ≤ file.length := by
    rw [hsplit, length_append, hlen, length_append]
    omega
  have hfuel : ss.length < file.length + 1 := by
    have := length_le_encodeRecords ss
    omega
  have hread : readExact file noFault 0 segmentHeaderLen = .ok header :=
    readExact_of_drop rfl (by rw [hsplit]; rfl) hlen (Nat.zero_le _)
  have hwalk := verifyWalk_records ss (file.length + 1)
    ⟨Hasher.new.update header, 0, 0, segmentHeaderLen⟩ hok (by dsimp only; omega) hbody hfuel
  unfold verifySealedSegment
  rw [hread]
  dsimp only
  rw [hheader]
  dsimp only
  rw [hwalk]
  dsimp only
  have htail : file.drop (segmentHeaderLen + (encodeRecords ss).length) = buildSentinel
      ++ buildSegmentFooter ss.length (ss.map length).sum (crc32 (header ++ encodeRecords ss))
        t := by
    rw [← drop_drop, hbody, drop_left]
  rw [Hasher.update_append, zero_add, zero_add,
    verifyFooter_ok hcount hdata hinside htail]
  rfl

/-! ## Nothing else is -/

variable {fault : ReadFault}

/-- The bytes that were hashed are those of the file. -/
theorem hashPayload_inv {payloadLen : Nat} :
    ∀ (fuel pos remaining : Nat) {hasher recordHasher hasher' recordHasher' : Hasher},
      remaining ≤ fuel →
      hashPayload file fault payloadLen fuel pos remaining hasher recordHasher
        = .ok (hasher', recordHasher') →
      ∃ s, s.length = remaining ∧ file.drop pos = s ++ file.drop (pos + remaining) ∧
        hasher' = hasher.update s ∧ recordHasher' = recordHasher.update s := by
  intro fuel
  induction fuel with
  | zero =>
    intro pos remaining hasher recordHasher hasher' recordHasher' hle h
    obtain rfl := Nat.le_zero.mp hle
    cases h
    exact ⟨[], rfl, rfl, rfl, rfl⟩
  | succ fuel ih =>
    intro pos remaining hasher recordHasher hasher' recordHasher' hle h
    rw [hashPayload] at h
    split at h
    next hzero =>
      cases h
      exact ⟨[], hzero.symm, by rw [hzero]; rfl, rfl, rfl⟩
    next hne =>
      have hchunk : verifyChunk = 65536 := rfl
      dsimp only at h
      generalize hwant : min remaining verifyChunk = want at h
      split at h
      · cases h
      rename_i chunk hread
      obtain ⟨_, hlen, hdrop⟩ := readExact_ok hread
      obtain ⟨s, hs, hrest, hh, hrh⟩ := ih (pos + want) (remaining - want) (by omega) h
      refine ⟨chunk ++ s, by rw [length_append]; omega, ?_, ?_, ?_⟩
      · rw [hdrop, hrest, append_assoc, show pos + want + (remaining - want)
          = pos + remaining by omega]
      · rw [hh, Hasher.update_append]
      · rw [hrh, Hasher.update_append]

/-- A turn took a storable record, or stands at the sentinel. -/
theorem verifyStep_inv {next : Option Walk} (h : verifyStep file fault c w = .ok next) :
    next = none ∧ file.drop w.pos = buildSentinel ++ file.drop (w.pos + 4) ∨
    ∃ s, StoredOk c s ∧ file.drop w.pos = encodeRecord s ++ file.drop (w.pos + 8 + s.length) ∧
      next = some ⟨w.hasher.update (encodeRecord s), w.records + 1, w.dataBytes + s.length,
        w.pos + 8 + s.length⟩ := by
  unfold verifyStep at h
  split at h
  · split at h <;> cases h
  rename_i lenBuf hlenBuf
  obtain ⟨_, hlen4, hdrop0⟩ := readExact_ok hlenBuf
  dsimp only at h
  split at h
  next hzero =>
    rw [eq_sentinel hlen4 hzero] at hdrop0
    exact .inl ⟨(Except.ok.inj h).symm, hdrop0⟩
  next hne =>
    split at h
    · cases h
    split at h
    · cases h
    rename_i crcBuf hcrcBuf
    obtain ⟨_, hcrc4, hdrop4⟩ := readExact_ok hcrcBuf
    split at h
    · cases h
    rename_i hasher recordHasher hhash
    obtain ⟨s, hs, hdrop8, rfl, rfl⟩ := hashPayload_inv _ _ _ (le_rfl) hhash
    split at h
    · cases h
    rename_i hmatch
    have henc := encodeRecord_of_fields hlen4 hcrc4 hs (Decidable.not_not.mp hmatch)
    rw [hdrop4, show w.pos + 4 + 4 = w.pos + 8 by omega, hdrop8] at hdrop0
    refine .inr ⟨s, ⟨by omega, by omega⟩, ?_, ?_⟩
    · rw [hdrop0, ← henc, hs]
      simp only [append_assoc]
    · rw [← Except.ok.inj h, Hasher.update_append, Hasher.update_append, ← henc, hs]

/-- The walk went over storable records, to a sentinel. -/
theorem verifyWalk_inv :
    ∀ (fuel : Nat) (w : Walk) {w' : Walk}, verifyWalk file fault c fuel w = .ok w' →
      ∃ ss, (∀ s ∈ ss, StoredOk c s) ∧
        file.drop w.pos = encodeRecords ss ++ (buildSentinel ++ file.drop (w'.pos + 4)) ∧
        w' = ⟨w.hasher.update (encodeRecords ss), w.records + ss.length,
          w.dataBytes + (ss.map List.length).sum, w.pos + (encodeRecords ss).length⟩ := by
  intro fuel
  induction fuel with
  | zero => intro w w' h; cases h
  | succ fuel ih =>
    intro w w' h
    rw [verifyWalk] at h
    split at h
    · cases h
    next hstep =>
      rcases verifyStep_inv hstep with ⟨-, hsentinel⟩ | ⟨_, _, _, hnone⟩
      · cases h
        exact ⟨[], by simp, hsentinel, rfl⟩
      · cases hnone
    next w₁ hstep =>
      rcases verifyStep_inv hstep with ⟨hnone, -⟩ | ⟨s, hs, hdrop, hsome⟩
      · cases hnone
      cases hsome
      obtain ⟨ss, hss, hrest, rfl⟩ := ih _ h
      refine ⟨s :: ss, fun t ht => ?_, ?_, ?_⟩
      · rcases mem_cons.mp ht with rfl | ht
        · exact hs
        · exact hss t ht
      · dsimp only at hrest ⊢
        rw [hdrop, hrest, encodeRecords_cons, append_assoc]
      · simp only [encodeRecords_cons, length_append, encodeRecord_length, length_cons,
          map_cons, sum_cons, Hasher.update_append, add_assoc, add_comm 1,
          Nat.add_left_comm]

/-- The footer agrees with the walk and ends the file. -/
theorem verifyFooter_inv {footer : SegmentFooterMeta} (h : verifyFooter file fault w = .ok footer) :
    (file.drop (w.pos + 4)).length = segmentFooterLen ∧
      parseSegmentFooter (file.drop (w.pos + 4)) = some footer ∧
      footer.fileCrc32 = w.hasher.finalize ∧ footer.recordCount = w.records ∧
      footer.dataBytes = w.dataBytes := by
  unfold verifyFooter at h
  split at h
  · split at h <;> cases h
  rename_i buf hbuf
  obtain ⟨_, hlen, hdrop⟩ := readExact_ok hbuf
  split at h
  · cases h
  rename_i parsed hparsed
  split at h
  · cases h
  rename_i hcrc
  split at h
  · cases h
  rename_i hcount
  split at h
  · cases h
  rename_i hdata
  split at h
  · cases h
  split at h
  · cases h
  cases h
  have hnil : file.drop (w.pos + 4 + segmentFooterLen) = [] :=
    drop_eq_nil_of_le (by omega)
  rw [hnil, append_nil] at hdrop
  rw [hdrop]
  exact ⟨hlen, hparsed, Decidable.not_not.mp hcrc, Decidable.not_not.mp hcount,
    Decidable.not_not.mp hdata⟩

/-- The bytes of a sealed segment: a header, storable records, the sentinel, and a footer that
describes them and ends the file. -/
def SealedAs (file : Bytes) (m : SegmentHeaderMeta) (ss : List Bytes)
    (footer : SegmentFooterMeta) : Prop :=
  ∃ header buf, parseSegmentHeader header = .ok m ∧ (∀ s ∈ ss, StoredOk m.compression s) ∧
    file = header ++ (encodeRecords ss ++ (buildSentinel ++ buf)) ∧
    buf.length = segmentFooterLen ∧ parseSegmentFooter buf = some footer ∧
    footer.fileCrc32 = crc32 (header ++ encodeRecords ss) ∧ footer.recordCount = ss.length ∧
    footer.dataBytes = (ss.map List.length).sum

/-- What passes is a sealed segment. -/
theorem verifySealedSegment_inv {v : SegmentVerification}
    (h : verifySealedSegment file fault = .ok v) : ∃ ss, SealedAs file v.header ss v.footer := by
  unfold verifySealedSegment at h
  split at h
  · split at h <;> cases h
  rename_i header hread
  obtain ⟨_, hlen, hdrop⟩ := readExact_ok hread
  split at h
  · cases h
  rename_i m hm
  split at h
  · cases h
  rename_i w hwalk
  split at h
  · cases h
  rename_i footer hfooter
  cases h
  obtain ⟨ss, hss, hbody, rfl⟩ := verifyWalk_inv _ _ hwalk
  obtain ⟨hbuf, hparsed, hcrc, hcount, hdata⟩ := verifyFooter_inv hfooter
  refine ⟨ss, header, _, hm, hss, ?_, hbuf, hparsed, ?_, ?_, ?_⟩
  · rw [← hbody]
    exact hdrop
  · rw [hcrc, Hasher.update_append]
    rfl
  · exact hcount.trans (zero_add _)
  · exact hdata.trans (zero_add _)

end Weir.Wab

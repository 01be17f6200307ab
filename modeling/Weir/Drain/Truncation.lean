import Weir.Drain.Process

/-!
# Confirming a truncated segment

The reader ends silently when fewer than four bytes are left, and the drain's
completeness check only compares the number of records read with the eight
bytes found 32 bytes before the end of the file. A sealed segment that lost its
tail passes the check when the bytes that end up there spell that number, and
they are bytes of a record's payload, which producers choose.

> `truncated_not_confirmed_iff`: no attempt on a sealed segment cut behind its
> header is confirmed, exactly when the cut does not look complete
> (`LooksComplete`).

> `truncated_confirmed`: a cut that does, with a record lost.
-/

namespace Weir.Drain

open Weir.Lib Weir.Wab List

/-- A well-formed sealed segment: a header that parses, storable records that
decode to their payloads, and the time of the seal. -/
structure SealedFile (z : Zstd) where
  header : Bytes
  headerMeta : SegmentHeaderMeta
  stored : List Bytes
  payloads : List Bytes
  sealedAt : Int64
  parses : parseSegmentHeader header = .ok headerMeta
  storedOk : ∀ s ∈ stored, StoredOk headerMeta.compression s
  decodes : Decodes z headerMeta.compression stored payloads

/-- Its bytes. -/
def SealedFile.bytes {z : Zstd} (f : SealedFile z) : Bytes :=
  sealedBytes f.header f.stored f.sealedAt

/-- How many whole records the first `n` bytes of a run of records hold. -/
def wholeRecords : List Bytes → Nat → Nat
  | [], _ => 0
  | s :: ss, n => if 8 + s.length ≤ n then wholeRecords ss (n - (8 + s.length)) + 1 else 0

theorem wholeRecords_le (ss : List Bytes) : ∀ n, wholeRecords ss n ≤ ss.length := by
  induction ss with
  | nil => intro n; exact le_rfl
  | cons s ss ih =>
    intro n
    unfold wholeRecords
    split
    · exact Nat.succ_le_succ (ih _)
    · exact Nat.zero_le _

/-- The whole records fit; the next one, if there is one, does not. -/
theorem wholeRecords_spec (ss : List Bytes) : ∀ n,
    (encodeRecords (ss.take (wholeRecords ss n))).length ≤ n ∧
    ∀ s rest, ss.drop (wholeRecords ss n) = s :: rest →
      n < (encodeRecords (ss.take (wholeRecords ss n))).length + (8 + s.length) := by
  induction ss with
  | nil => intro n; exact ⟨Nat.zero_le _, by simp⟩
  | cons t ss ih =>
    intro n
    unfold wholeRecords
    split
    next hfit =>
      obtain ⟨hle, hnext⟩ := ih (n - (8 + t.length))
      rw [take_succ_cons, drop_succ_cons, encodeRecords_cons, length_append,
        encodeRecord_length]
      refine ⟨by omega, ?_⟩
      intro s rest hs
      have := hnext s rest hs
      omega
    next hfit =>
      refine ⟨Nat.zero_le _, ?_⟩
      intro s rest hs
      obtain ⟨rfl, _⟩ := hs
      omega

/-- The bytes behind the last whole record of the first `n`. -/
def leftOver (ss : List Bytes) (n : Nat) : Nat :=
  n - (encodeRecords (ss.take (wholeRecords ss n))).length

/-- The first `cut` bytes of the sealed segment pass for a complete segment: the
reader ends without an error, and the eight bytes the check takes for the record
count are the number of records read. -/
def LooksComplete {z : Zstd} (f : SealedFile z) (cut : Nat) : Prop :=
  let n := cut - segmentHeaderLen
  (leftOver f.stored n < 4 ∨ wholeRecords f.stored n = f.stored.length) ∧
  segmentFooterLen ≤ cut ∧
  leNat (slice f.bytes (cut - segmentFooterLen) (cut - segmentFooterLen + 8))
    = wholeRecords f.stored n

instance {z : Zstd} (f : SealedFile z) (cut : Nat) : Decidable (LooksComplete f cut) :=
  inferInstanceAs (Decidable (_ ∧ _ ∧ _))

/-- Cutting a run of records keeps the whole ones and a part of what follows. -/
theorem take_encodeRecords (ss : List Bytes) (rest : Bytes) (n : Nat) :
    (encodeRecords ss ++ rest).take n
      = encodeRecords (ss.take (wholeRecords ss n))
        ++ (encodeRecords (ss.drop (wholeRecords ss n)) ++ rest).take (leftOver ss n) := by
  obtain ⟨hle, _⟩ := wholeRecords_spec ss n
  have hsplit : encodeRecords ss
      = encodeRecords (ss.take (wholeRecords ss n))
        ++ encodeRecords (ss.drop (wholeRecords ss n)) := by
    rw [← encodeRecords_append, take_append_drop]
  rw [leftOver]
  conv_lhs => rw [hsplit]
  rw [append_assoc, take_append, take_of_length_le hle]

variable {z : Zstd}

/-- A record cut behind its length field is an `UnexpectedEof`. -/
theorem collect_cut {r : SegmentReader} {s : Bytes} {k : Nat} (fuel : Nat) (hdone : r.done = false)
    (hpos : r.pos ≤ r.file.length) (hd : r.file.drop r.pos = (encodeRecord s).take k)
    (hok : StoredOk r.header.compression s) (h4 : 4 ≤ k) (hk : k < 8 + s.length) :
    ∃ e, (r.collect z noFault (fuel + 2)).1 = [.error e] ∧ e.kind = .unexpectedEof := by
  have hlen : r.file.length - r.pos = k := by
    rw [← length_drop, hd, length_take, encodeRecord_length]
    omega
  have h0 : r.file.drop r.pos = leBytes 4 s.length
      ++ ((leBytes 4 (crc32 s).toNat ++ s).take (k - 4)) := by
    rw [hd, encodeRecord, append_assoc, take_append, take_of_length_le]
    · rw [leBytes_length]
    · rw [leBytes_length]; exact h4
  have hr0 : readExact r.file noFault r.pos 4 = .ok (leBytes 4 s.length) :=
    readExact_of_drop rfl h0 (leBytes_length 4 _) hpos
  have hne : ¬s.length = 0 := by have := hok.1; omega
  have hcap : ¬s.length > r.header.compression.storedCap := not_lt.mpr hok.2
  -- the error item, and after it the fused end
  have hstop : ∀ e : IoError, r.next z noFault = (some (.error e), { r with done := true }) →
      r.collect z noFault (fuel + 2) = ([.error e], { r with done := true }) := by
    intro e he
    rw [SegmentReader.collect, he]
    dsimp only
    rw [SegmentReader.collect, SegmentReader.next_of_done rfl]
  have hnext : ∃ e : IoError, e.kind = .unexpectedEof ∧
      r.next z noFault = (some (.error e), { r with done := true }) := by
    unfold SegmentReader.next
    rw [hdone, if_neg (by simp), hr0]
    dsimp only
    rw [hok.leNat_len, if_neg hne, if_neg hcap]
    cases hcrc : readExact r.file noFault (r.pos + 4) 4 with
    | error e =>
      refine ⟨truncateContext e s.length "CRC field", ?_, rfl⟩
      rw [readExact_short rfl (readExact_error hcrc)] at hcrc
      rw [truncateContext_kind, ← Except.error.inj hcrc]
      rfl
    | ok crcBuf =>
      have hshort : r.file.length < r.pos + 8 + s.length := by omega
      rw [readExact_short rfl hshort]
      exact ⟨_, truncateContext_kind _ _ _, rfl⟩
  obtain ⟨e, hkind, he⟩ := hnext
  rw [hstop e he]
  exact ⟨e, rfl, hkind⟩

/-! ## What the reader makes of the cut file -/

theorem decodes_take {c : Compression} {ss ps : List Bytes} (h : Decodes z c ss ps) (j : Nat) :
    Decodes z c (ss.take j) (ps.take j) := by
  unfold Decodes at h ⊢
  rw [map_take, map_take, h]

theorem SealedFile.bytes_eq (f : SealedFile z) :
    f.bytes = f.header ++ (encodeRecords f.stored ++ (buildSentinel
      ++ buildSegmentFooter f.stored.length (f.stored.map List.length).sum
        (crc32 (f.header ++ encodeRecords f.stored)) f.sealedAt)) := by
  rw [SealedFile.bytes, sealedBytes, append_assoc]

variable {cut : Nat}

/-- The cut file: the header, the whole records, and a part of what follows. -/
theorem SealedFile.take_eq (f : SealedFile z) (hlo : segmentHeaderLen ≤ cut) :
    f.bytes.take cut = f.header
      ++ (encodeRecords (f.stored.take (wholeRecords f.stored (cut - segmentHeaderLen)))
        ++ (encodeRecords (f.stored.drop (wholeRecords f.stored (cut - segmentHeaderLen)))
          ++ (buildSentinel ++ buildSegmentFooter f.stored.length (f.stored.map List.length).sum
            (crc32 (f.header ++ encodeRecords f.stored)) f.sealedAt)).take
          (leftOver f.stored (cut - segmentHeaderLen))) := by
  have hlen := parseSegmentHeader_length f.parses
  rw [f.bytes_eq, take_append, take_of_length_le (by omega), hlen, take_encodeRecords]

theorem SealedFile.take_payloads_length (f : SealedFile z) (n : Nat) :
    (f.payloads.take (wholeRecords f.stored n)).length = wholeRecords f.stored n := by
  have h1 := wholeRecords_le f.stored n
  have h2 := f.decodes.length_eq
  rw [length_take]
  omega

/-- What the reader yields over the cut file: the whole records, and behind them
an `UnexpectedEof` exactly when a record was cut behind its length field. -/
theorem readAll_cut (f : SealedFile z) (hlo : segmentHeaderLen ≤ cut) (hhi : cut < f.bytes.length) :
    ∃ reader tail, SegmentReader.open (f.bytes.take cut) noFault = .ok reader ∧
      (reader.readAll z noFault).1
        = (f.payloads.take (wholeRecords f.stored (cut - segmentHeaderLen))).map .ok ++ tail ∧
      ((tail = [] ∧ (leftOver f.stored (cut - segmentHeaderLen) < 4 ∨
          wholeRecords f.stored (cut - segmentHeaderLen) = f.stored.length)) ∨
        (∃ e : IoError, tail = [.error e] ∧ e.kind = .unexpectedEof) ∧
          ¬(leftOver f.stored (cut - segmentHeaderLen) < 4 ∨
            wholeRecords f.stored (cut - segmentHeaderLen) = f.stored.length)) := by
  have hhead := parseSegmentHeader_length f.parses
  have hsize : (f.bytes.take cut).length = cut := by
    rw [length_take]
    omega
  obtain ⟨hfits, hnext⟩ := wholeRecords_spec f.stored (cut - segmentHeaderLen)
  have htake := f.take_eq hlo
  generalize hj : wholeRecords f.stored (cut - segmentHeaderLen) = j at *
  generalize hfoot : buildSentinel ++ buildSegmentFooter f.stored.length
    (f.stored.map length).sum (crc32 (f.header ++ encodeRecords f.stored)) f.sealedAt = foot
    at htake
  have hr : leftOver f.stored (cut - segmentHeaderLen)
      = cut - segmentHeaderLen - (encodeRecords (f.stored.take j)).length := by
    rw [leftOver, hj]
  generalize leftOver f.stored (cut - segmentHeaderLen) = r at *
  let reader : SegmentReader := ⟨f.bytes.take cut, segmentHeaderLen, false, f.headerMeta, none⟩
  have hopen : SegmentReader.open (f.bytes.take cut) noFault = .ok reader :=
    SegmentReader.open_of_header rfl htake f.parses
  have hjle : (f.stored.take j).length ≤ (f.bytes.take cut).length + 2 - 2 := by
    have h1 := length_le_encodeRecords (f.stored.take j)
    omega
  obtain ⟨k, hk⟩ : ∃ k, (f.bytes.take cut).length + 2 = (f.stored.take j).length + (k + 2) :=
    ⟨(f.bytes.take cut).length - (f.stored.take j).length, by omega⟩
  have hdrop : (f.bytes.take cut).drop segmentHeaderLen
      = encodeRecords (f.stored.take j) ++ (encodeRecords (f.stored.drop j) ++ foot).take r := by
    rw [htake, drop_left' hhead]
  have hpos₀ : reader.pos ≤ reader.file.length := by
    show segmentHeaderLen ≤ (f.bytes.take cut).length
    omega
  have hread := SegmentReader.collect_records (f.stored.take j) (f.payloads.take j) reader _ (k + 2)
    rfl hpos₀ hdrop (fun s hs => f.storedOk s (mem_of_mem_take hs)) (decodes_take f.decodes j)
  -- the reader behind the whole records
  let at_ : SegmentReader :=
    { reader with pos := segmentHeaderLen + (encodeRecords (f.stored.take j)).length }
  have hpos : at_.pos ≤ at_.file.length := by
    show segmentHeaderLen + _ ≤ (f.bytes.take cut).length
    omega
  have hrest : at_.file.drop at_.pos = (encodeRecords (f.stored.drop j) ++ foot).take r := by
    rw [← drop_drop, hdrop, drop_left]
  refine ⟨reader, (at_.collect z noFault (k + 2)).1, hopen, ?_, ?_⟩
  · rw [SegmentReader.readAll, show reader.file.length + 2 = _ from hk, hread]
  by_cases h4 : r < 4
  · left
    have hshort : at_.file.length < at_.pos + 4 := by
      show (f.bytes.take cut).length < segmentHeaderLen + _ + 4
      omega
    rw [SegmentReader.collect_torn (k + 1) rfl hshort]
    exact ⟨rfl, .inl h4⟩
  · cases hd : f.stored.drop j with
    | nil =>
      left
      have hall : j = f.stored.length := by
        have h1 := length_drop (i := j) (l := f.stored)
        rw [hd] at h1
        have h2 := wholeRecords_le f.stored (cut - segmentHeaderLen)
        simp only [length_nil] at h1
        omega
      rw [hd, encodeRecords_nil, nil_append, ← hfoot, take_append,
        take_of_length_le (by show 4 ≤ r; omega)] at hrest
      rw [SegmentReader.collect_sentinel (k + 1) rfl hpos hrest]
      exact ⟨rfl, .inr hall⟩
    | cons s rest =>
      right
      have hs := hnext s rest hd
      have hcut : at_.file.drop at_.pos = (encodeRecord s).take r := by
        rw [hrest, hd, encodeRecords_cons, append_assoc]
        exact take_append_of_le_length (by rw [encodeRecord_length]; omega)
      have hmem : s ∈ f.stored := mem_of_mem_drop (hd ▸ mem_cons_self)
      obtain ⟨e, he, hkind⟩ := collect_cut k rfl hpos hcut (f.storedOk s hmem)
        (Nat.le_of_not_lt h4) (by omega)
      refine ⟨⟨e, he, hkind⟩, ?_⟩
      rintro (h | h)
      · exact h4 h
      · rw [h, drop_length] at hd
        cases hd

/-! ## What the drain makes of it -/

/-- The sink commits every sub-batch it is handed. -/
def ProcessIo.Accepts (io : ProcessIo) : Prop := ∀ k batch, io.replies k batch = .ok batch []

/-- An attempt nothing goes wrong in: no read fails, no pause or stop is
requested, and the sink commits every sub-batch it is handed. -/
structure Undisturbed (io : ProcessIo) : Prop where
  opened : io.openFault = none
  reads : io.fault = noFault
  footer : io.footerFault = none
  gates : ∀ k n, batchGate (io.gates k) n = none
  accepts : io.Accepts

variable {io : ProcessIo}

theorem deliver_undisturbed (h : Undisturbed io) (cfg : DrainConfig) (st : Progress) :
    ∃ st', deliver cfg io st = (none, st') ∧ st'.readIndex = st.readIndex := by
  unfold deliver
  rw [h.gates, h.accepts]
  dsimp only [commitBatch]
  rw [if_neg (by simp), if_pos rfl]
  exact ⟨_, rfl, rfl⟩

/-- The record loop passes over the records it can read. -/
theorem processItems_payloads (h : Undisturbed io) (sha : Sha256) (cfg : DrainConfig)
    (name : String) (skip : Nat) (last : Bool) (rest : List (Except IoError Bytes))
    (ps : List Bytes) (st : Progress) :
    ∃ st',
      processItems sha cfg name skip last io (ps.map .ok ++ rest) st
        = processItems sha cfg name skip last io rest st' ∧
      st'.readIndex = st.readIndex + ps.length := by
  induction ps generalizing st with
  | nil => exact ⟨st, rfl, rfl⟩
  | cons payload ps ih =>
    -- whichever way the record is taken, one more has been read
    have hgo : ∀ st₁ : Progress, st₁.readIndex = st.readIndex + 1 → ∃ st',
        processItems sha cfg name skip last io (ps.map .ok ++ rest) st₁
          = processItems sha cfg name skip last io rest st' ∧
        st'.readIndex = st.readIndex + (payload :: ps).length := by
      intro st₁ h₁
      obtain ⟨st', heq, hidx⟩ := ih st₁
      refine ⟨st', heq, ?_⟩
      rw [hidx, h₁, length_cons]
      omega
    rw [map_cons, cons_append, processItems]
    dsimp only
    split
    · exact hgo _ rfl
    split
    · obtain ⟨st₁, hd, h₁⟩ := deliver_undisturbed h cfg
        { st with
          readIndex := st.readIndex + 1
          batchIds := st.batchIds ++ [forRecord sha name (st.readIndex + 1) payload]
          batch := st.batch ++ [payload] }
      rw [hd]
      exact hgo st₁ h₁
    · exact hgo _ rfl

/-- Behind the record loop: a segment is confirmed when its footer count is the
number of records read. -/
theorem finish_undisturbed (h : Undisturbed io) (cfg : DrainConfig) (p : Path) (file : Bytes)
    {st : Progress} (hcount : readSegmentRecordCount p file none = .ok st.readIndex) :
    (finish cfg p file io none st).1 = .confirmed st.readIndex := by
  obtain ⟨st', hlast, hidx⟩ : ∃ st', (if st.batch = [] then (none, st) else deliver cfg io st)
      = (none, st') ∧ st'.readIndex = st.readIndex := by
    split
    · exact ⟨st, rfl, rfl⟩
    · exact deliver_undisturbed h cfg st
  unfold finish
  rw [hlast]
  rw [h.footer, hcount]
  dsimp only
  rw [hidx, if_pos rfl]

theorem slice_take {file : Bytes} {a b n : Nat} (h : b ≤ n) :
    slice (file.take n) a b = slice file a b := by
  rw [slice, slice, drop_take, take_take, min_eq_left (by omega)]

/-- The completeness check on the cut file. -/
theorem readSegmentRecordCount_cut (f : SealedFile z) (hhi : cut < f.bytes.length)
    (p : Path) (n : Nat) :
    readSegmentRecordCount p (f.bytes.take cut) none = .ok n ↔
      segmentFooterLen ≤ cut ∧
      leNat (slice f.bytes (cut - segmentFooterLen) (cut - segmentFooterLen + 8)) = n := by
  have hsize : (f.bytes.take cut).length = cut := by
    rw [length_take]
    omega
  unfold readSegmentRecordCount
  rw [hsize]
  by_cases hlen : cut < segmentFooterLen
  · rw [if_pos hlen]
    exact ⟨fun h => absurd h (by simp), fun h => absurd h.1 (by omega)⟩
  · rw [if_neg hlen, slice_take (by unfold segmentFooterLen at hlen ⊢; omega), Except.ok.injEq]
    exact ⟨fun h => ⟨Nat.le_of_not_lt hlen, h⟩, fun h => h.2⟩

section

variable (f : SealedFile z) (hlo : segmentHeaderLen ≤ cut) (hhi : cut < f.bytes.length)

include hlo hhi

/-- A confirmed cut looks complete, whatever else the attempt met. -/
theorem looksComplete_of_confirmed (hgone : ¬io.Gone) {sha : Sha256} {cfg : DrainConfig} {p : Path}
    {w : DeadLetterWriter} {skip : Nat} {last : Bool} {n : Nat}
    (h : (processSegment z sha cfg p (f.bytes.take cut) w skip last io).result = .confirmed n) :
    LooksComplete f cut := by
  obtain ⟨reader, ps, hopen, hps, hcount⟩ := processSegment_confirmed hgone h
  obtain ⟨reader', tail, hopen', hitems, htail⟩ := readAll_cut f hlo hhi
  have hsame := SegmentReader.readAll_noFault hps
  have hreader : reader = reader' := by
    unfold openSegment at hopen
    split at hopen
    · cases hopen
    · exact Except.ok.inj ((SegmentReader.open_noFault hopen).symm.trans hopen')
  subst hreader
  rw [hsame, hitems] at hps
  rcases htail with ⟨rfl, hsilent⟩ | ⟨⟨e, rfl, _⟩, _⟩
  · have hlen : wholeRecords f.stored (cut - segmentHeaderLen) = ps.length := by
      have h1 := congrArg length hps
      simp only [append_nil, length_map] at h1
      rw [← h1, f.take_payloads_length]
    obtain ⟨hle, hlooks⟩ := (readSegmentRecordCount_cut f hhi p _).mp hcount
    exact ⟨hsilent, hle, hlooks.trans hlen.symm⟩
  · have herr : Except.error e ∈ ps.map Except.ok := by
      rw [← hps]
      simp
    exact absurd herr (by simp)

/-- An undisturbed attempt confirms a cut that looks complete. -/
theorem confirmed_of_looksComplete (h : Undisturbed io) (sha : Sha256) (cfg : DrainConfig)
    (p : Path) (w : DeadLetterWriter) (skip : Nat) (last : Bool) (hlooks : LooksComplete f cut) :
    ∃ n, (processSegment z sha cfg p (f.bytes.take cut) w skip last io).result = .confirmed n := by
  obtain ⟨reader, tail, hopen, hitems, htail⟩ := readAll_cut f hlo hhi
  rcases htail with ⟨rfl, _⟩ | ⟨_, hloud⟩
  · obtain ⟨st, hloop, hidx⟩ := processItems_payloads h sha cfg (segmentIdentity p) skip last []
      (f.payloads.take (wholeRecords f.stored (cut - segmentHeaderLen)))
      ⟨0, skip, [], [], 0, w, []⟩
    have hopen' : openSegment (f.bytes.take cut) io = .ok reader := by
      rw [openSegment, h.opened, h.reads]
      exact hopen
    unfold processSegment
    rw [hopen']
    dsimp only
    rw [h.reads, hitems, hloop, processItems]
    refine ⟨_, finish_undisturbed h cfg p (f.bytes.take cut) ?_⟩
    rw [hidx, f.take_payloads_length, zero_add, readSegmentRecordCount_cut f hhi]
    exact hlooks.2
  · exact absurd hlooks.1 hloud

end

/-- An undisturbed attempt with sub-batches of two. -/
def calmIo : ProcessIo where
  openFault := none
  fault := noFault
  inspectFault := none
  footerFault := none
  maxBatchSize := 2
  gates _ := ⟨false, false, false⟩
  replies _ batch := .ok batch []
  deadLetters _ :=
    let write : SealedWriteIo := ⟨.calm, fun _ => .wrote 0, .calm, none⟩
    ⟨none, write, false, none, none, write⟩
  move := ⟨⟨none, fun _ => .ok false, none⟩, false⟩

theorem calmIo_undisturbed : Undisturbed calmIo :=
  ⟨rfl, rfl, rfl, fun _ _ => rfl, fun _ _ => rfl⟩

theorem calmIo_present : ¬calmIo.Gone := by
  simp [ProcessIo.Gone, calmIo, noFault]

/-- An attempt on a sealed segment cut anywhere behind its header, from any resume
point and whatever fails or is requested on the way, with a sink that commits
what it is handed and the file in its place, is never confirmed exactly when the
cut does not look complete. -/
theorem truncated_not_confirmed_iff {z : Zstd} (f : SealedFile z) {cut : Nat}
    (hlo : segmentHeaderLen ≤ cut) (hhi : cut < f.bytes.length) (sha : Sha256) (cfg : DrainConfig)
    (p : Path) (w : DeadLetterWriter) (skip : Nat) (last : Bool) :
    (∀ io : ProcessIo, ¬io.Gone → io.Accepts → ∀ n,
      (processSegment z sha cfg p (f.bytes.take cut) w skip last io).result ≠ .confirmed n) ↔
      ¬LooksComplete f cut := by
  constructor
  · intro hno hlooks
    obtain ⟨n, hn⟩ := confirmed_of_looksComplete f hlo hhi calmIo_undisturbed sha cfg p w skip last
      hlooks
    exact hno calmIo calmIo_present (fun _ _ => rfl) n hn
  · intro hno io hgone _ n hn
    exact hno (looksComplete_of_confirmed f hlo hhi hgone hn)

/-- Two records; the payload of the first starts with the number one. -/
def lostRecord : SealedFile Zstd.plain where
  header := buildSegmentHeader 0 .none 0
  headerMeta := ⟨1, .none, 0, 0⟩
  stored := [[1, 0, 0, 0, 0, 0, 0, 0] ++ replicate 24 7, [42]]
  payloads := [[1, 0, 0, 0, 0, 0, 0, 0] ++ replicate 24 7, [42]]
  sealedAt := 0
  parses := parseSegmentHeader_build 0 .none 0
  storedOk := by decide
  decodes := rfl

def sampleConfig : DrainConfig := ⟨["wab"], 1024, 1, 3, 600, true⟩
def sampleSegment : Path := segPath ["wab", "shard_00"] 1 .sealed
def sampleDeadLetter : DeadLetterWriter := .open ["wab"] 0 0

/-- Cut inside its first record the segment is never confirmed. -/
theorem truncated_not_confirmed_iff_torn :
    segmentHeaderLen ≤ 63 ∧ 63 < lostRecord.bytes.length ∧ ¬LooksComplete lostRecord 63 ∧
    ∀ io : ProcessIo, ¬io.Gone → io.Accepts → ∀ n,
      (processSegment Zstd.plain id sampleConfig sampleSegment (lostRecord.bytes.take 63)
        sampleDeadLetter 0 false io).result ≠ .confirmed n :=
  ⟨by decide, by decide, by decide +kernel,
    (truncated_not_confirmed_iff lostRecord (by decide) (by decide) id sampleConfig sampleSegment
      sampleDeadLetter 0 false).mpr (by decide +kernel)⟩

/-- Cut right behind its first record the segment is confirmed, with one record
delivered and the second one lost. -/
theorem truncated_confirmed :
    segmentHeaderLen ≤ 64 ∧ 64 < lostRecord.bytes.length ∧ lostRecord.payloads.length = 2 ∧
    ¬calmIo.Gone ∧ calmIo.Accepts ∧
      (processSegment Zstd.plain id sampleConfig sampleSegment (lostRecord.bytes.take 64)
      sampleDeadLetter 0 false calmIo).result = .confirmed 1 :=
  ⟨by decide, by decide, rfl, calmIo_present, fun _ _ => rfl, by decide +kernel⟩

end Weir.Drain

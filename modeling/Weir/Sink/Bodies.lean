import Mathlib.Data.List.Perm.Basic
import Weir.Sink.S3
import Weir.Sink.Sql

/-!
# The body of a batch (`framing.rs`, `sink/http.rs`, `sink/clickhouse.rs`)

Three sinks send a batch as one body: as lines, as records behind a length of eight bytes, or
behind a length of as many bytes as it needs. A line cannot hold a newline, so a record that
has one is left out and dead-lettered; a length says where its record ends, and where it ends
itself.

> `bodies_split`: a body is read back as the records that were put into it, in one way only;
> those are the ones reported committed, and no record is lost or reported twice.
-/

namespace Weir.Sink

open Weir.Lib Weir.Wab List

/-! ## S3 -/

inductive Classification
  | transient
  | permanent
  deriving DecidableEq, Repr

/-- How `put_object` fails. -/
structure PutError where
  message : String
  classification : Classification

structure S3SinkError where
  message : String
  transient : Bool

/-- `S3Sink::commit`, with the outcome of the upload it makes. -/
def S3Sink.commit (sink : S3Sink) (enc : Encoders) (batch : SinkBatch)
    (uploaded : Except PutError Unit) : Except S3SinkError CommitResult :=
  let framed := frame enc batch.records sink.framing sink.compression
  match sink.put enc batch with
  | none => .ok ⟨[], framed.deadLettered⟩
  | some _ =>
    match uploaded with
    | .ok () => .ok ⟨framed.committed, framed.deadLettered⟩
    | .error e => .error ⟨e.message, e.classification = .transient⟩

/-! ## HTTP -/

/-- `HttpSinkError`; a status is its text. -/
inductive HttpSinkError
  | transport (rendered : String)
  | transientStatus (status : String) (retryAfter : Option Nat)
  | permanentStatus (status bodyExcerpt : String)

def recordIsUnframable (record : Bytes) : Bool := breaksLine record

/-- `HttpSink::commit_ndjson`, with the outcome of its POST; and the body it posts. -/
def commitNdjson (batch : List Bytes) (posted : Except HttpSinkError Unit) :
    Except HttpSinkError CommitResult × Option Bytes :=
  let framable := batch.filter fun r => !recordIsUnframable r
  let deadLettered := (batch.filter recordIsUnframable).map
    (·, "record contains an embedded newline; cannot be NDJSON-framed "
      ++ "(use sink_http_batch=none for newline-bearing payloads)")
  if batch = [] then (.ok ⟨[], []⟩, none)
  else if framable = [] then (.ok ⟨[], deadLettered⟩, none)
  else
    (match posted with
    | .ok () => .ok ⟨framable, deadLettered⟩
    | .error (.permanentStatus status bodyExcerpt) =>
      .ok ⟨[], deadLettered ++ framable.map (·, s!"http {status} (ndjson batch): {bodyExcerpt}")⟩
    | .error e => .error e,
      some (framable.flatMap (· ++ [10])))

/-! ## ClickHouse -/

/-- `write_leb128`. -/
def writeLeb128 (n : Nat) : Bytes :=
  let byte := UInt8.ofNat (n % 128)
  if n / 128 = 0 then [byte] else (byte ||| 0x80) :: writeLeb128 (n / 128)
termination_by n
decreasing_by omega

/-- `encode_rowbinary`. -/
def encodeRowbinary (batch : List Bytes) : Bytes :=
  batch.flatMap fun p => writeLeb128 (p.length % 2 ^ 64) ++ p

/-! ## Reading a body -/

/-- The lines of a body in which every line ends. -/
def lines (body : Bytes) : List Bytes := (body.splitOn 10).dropLast

/-- A length of eight bytes. -/
def FixedLen (len : Bytes) (n : Nat) : Prop := len.length = 8 ∧ leNat len = n

/-- A LEB128 number: seven bits a byte, the low ones first, and a high bit on all but the
last. -/
inductive Leb128 : Bytes → Nat → Prop
  | last {b : UInt8} (h : b.toNat < 128) : Leb128 [b] b.toNat
  | more {b : UInt8} {bs : Bytes} {n : Nat} (h : 128 ≤ b.toNat) (hn : Leb128 bs n) :
      Leb128 (b :: bs) (b.toNat - 128 + 128 * n)

/-- A body in this framing is read as these records, and no others. -/
def Framing.Splits (framing : Framing) (body : Bytes) (records : List Bytes) : Prop :=
  match framing with
  | .ndjson => lines body = records
  | .lengthPrefixed => ∀ rs, Prefixed FixedLen body rs ↔ rs = records

theorem lines_flatMap {rs : List Bytes} (h : ∀ r ∈ rs, 10 ∉ r) :
    lines (rs.flatMap (· ++ [10])) = rs := by
  induction rs with
  | nil => rfl
  | cons r rs ih =>
    have hrest := ih fun s hs => h s (mem_cons_of_mem _ hs)
    rw [lines] at hrest
    rw [flatMap_cons, append_assoc, lines, singleton_append, splitOn_line (h r mem_cons_self),
      dropLast_cons_of_ne_nil (splitOn_ne_nil _ _), hrest]

theorem prefixed_fixedLen {rs : List Bytes} (h : ∀ r ∈ rs, r.length < 2 ^ 64) (qs : List Bytes) :
    Prefixed FixedLen (rs.flatMap lengthPrefixed) qs ↔ qs = rs := by
  have hparse : Prefixed FixedLen (rs.flatMap lengthPrefixed) rs :=
    Prefixed.flatMap fun r hr => ⟨leBytes_length .., leNat_leBytes_of_lt (h r hr)⟩
  refine ⟨fun hq => Prefixed.unique ?_ ?_ hq hparse, fun hq => hq ▸ hparse⟩
  · rintro len n ⟨hlen, _⟩ rfl
    cases hlen
  · rintro len len' m n s t ⟨hlen, rfl⟩ ⟨hlen', rfl⟩ heq
    obtain ⟨rfl, hrest⟩ := append_inj heq (hlen.trans hlen'.symm)
    exact ⟨rfl, hrest⟩

theorem Leb128.inj {len len' s t : Bytes} {m n : Nat} (h : Leb128 len m) (h' : Leb128 len' n)
    (heq : len ++ s = len' ++ t) : m = n ∧ s = t := by
  induction h generalizing len' n with
  | last hlow =>
    cases h' with
    | last _ =>
      obtain ⟨rfl, hrest⟩ := List.cons.inj heq
      exact ⟨rfl, hrest⟩
    | more hhigh _ =>
      obtain ⟨rfl, _⟩ := List.cons.inj heq
      omega
  | more hhigh _ ih =>
    cases h' with
    | last hlow =>
      obtain ⟨rfl, _⟩ := List.cons.inj heq
      omega
    | more _ hn =>
      obtain ⟨rfl, hrest⟩ := List.cons.inj heq
      obtain ⟨rfl, hst⟩ := ih hn hrest
      exact ⟨rfl, hst⟩

theorem toNat_or_high {k : Nat} (h : k < 128) : (UInt8.ofNat k ||| 0x80).toNat = k + 128 := by
  have hall : ∀ i : Fin 128, (UInt8.ofNat i ||| 0x80).toNat = i + 128 := by decide
  exact hall ⟨k, h⟩

/-- What `write_leb128` writes is the number. -/
theorem leb128_writeLeb128 (n : Nat) : Leb128 (writeLeb128 n) n := by
  fun_induction writeLeb128 n with
  | case1 n byte hlast =>
    have hbyte : byte.toNat = n := by
      rw [UInt8.toNat_ofNat']
      omega
    have hcode := Leb128.last (b := byte) (by omega)
    rwa [hbyte] at hcode
  | case2 n byte hmore ih =>
    have hhigh : (byte ||| 0x80).toNat = n % 128 + 128 := toNat_or_high (by omega)
    have hcode := Leb128.more (b := byte ||| 0x80) (by omega) ih
    rwa [hhigh, show n % 128 + 128 - 128 + 128 * (n / 128) = n by omega] at hcode

theorem prefixed_rowbinary {ps : List Bytes} (h : ∀ p ∈ ps, p.length < 2 ^ 64) (qs : List Bytes) :
    Prefixed Leb128 (encodeRowbinary ps) qs ↔ qs = ps := by
  have hparse : Prefixed Leb128 (encodeRowbinary ps) ps :=
    Prefixed.flatMap fun p hp => by
      rw [Nat.mod_eq_of_lt (h p hp)]
      exact leb128_writeLeb128 _
  refine ⟨fun hq => Prefixed.unique ?_ Leb128.inj hq hparse, fun hq => hq ▸ hparse⟩
  intro len n hlen
  cases hlen <;> simp

/-! ## What is put into a body -/

/-- The records that are put into a body: all but those that are no lines, where lines are
wanted. -/
def Framing.keeps (framing : Framing) (records : List Bytes) : List Bytes :=
  records.filter fun r => ¬(framing = .ndjson ∧ (10 ∈ r ∨ 13 ∈ r))

variable {framing : Framing} {rs : List Bytes} {enc : Encoders} {c : ObjectCompression}

theorem breaksLine_eq (r : Bytes) : breaksLine r = decide (10 ∈ r ∨ 13 ∈ r) := by
  rw [Bool.eq_iff_iff]
  simp [breaksLine, and_or_left, exists_or]

theorem frameRecord_isSome (framing : Framing) (r : Bytes) :
    (frameRecord framing r).isSome = decide ¬(framing = .ndjson ∧ (10 ∈ r ∨ 13 ∈ r)) := by
  cases framing with
  | lengthPrefixed => simp [frameRecord]
  | ndjson =>
    rw [frameRecord, breaksLine_eq]
    by_cases h : 10 ∈ r ∨ 13 ∈ r <;> simp [h]

theorem frame_committed (enc : Encoders) (rs : List Bytes) (framing : Framing)
    (c : ObjectCompression) : (frame enc rs framing c).committed = framing.keeps rs :=
  filter_congr fun r _ => frameRecord_isSome framing r

theorem frame_perm (enc : Encoders) (rs : List Bytes) (framing : Framing) (c : ObjectCompression) :
    ((frame enc rs framing c).committed ++ (frame enc rs framing c).deadLettered.map Prod.fst).Perm
      rs := by
  have hdead : (frame enc rs framing c).deadLettered.map Prod.fst
      = rs.filter fun r => !(frameRecord framing r).isSome := by
    simp [frame, Function.comp_def]
  rw [hdead]
  exact filter_append_perm _ rs

/-- What is laid out, before it is compressed. -/
theorem frame_raw : (rs.filterMap (frameRecord framing)).flatten
    = (framing.keeps rs).flatMap fun r =>
      match framing with
      | .ndjson => r ++ [10]
      | .lengthPrefixed => lengthPrefixed r := by
  induction rs with
  | nil => rfl
  | cons r rs ih =>
    cases framing with
    | lengthPrefixed => simp_all [Framing.keeps, frameRecord, lengthPrefixed]
    | ndjson =>
      simp only [Framing.keeps, filterMap_cons, frameRecord, breaksLine_eq, filter_cons] at ih ⊢
      by_cases h : 10 ∈ r ∨ 13 ∈ r <;> simp_all

theorem frame_lines (rs : List Bytes) :
    lines ((Framing.ndjson.keeps rs).flatMap (· ++ [10])) = Framing.ndjson.keeps rs := by
  refine lines_flatMap fun r hr => ?_
  have := (mem_filter.mp hr).2
  simp_all

theorem frame_splits (h : ∀ r ∈ rs, r.length < 2 ^ 64) :
    framing.Splits (frame enc rs framing .none).body (framing.keeps rs) := by
  have hbody : (frame enc rs framing .none).body
      = (rs.filterMap (frameRecord framing)).flatten := by
    simp only [frame, Encoders.compress]
    split
    next hnil => exact hnil.symm
    · rfl
  rw [hbody, frame_raw]
  cases framing with
  | ndjson => exact frame_lines rs
  | lengthPrefixed => exact prefixed_fixedLen fun r hr => h r (mem_filter.mp hr).1

/-- Only an empty layout has an empty body. -/
theorem frame_empty (henc : ∀ raw, raw ≠ [] → enc.compress c raw ≠ [])
    (h : (frame enc rs framing c).body = []) : framing.keeps rs = [] := by
  have hraw : (rs.filterMap (frameRecord framing)).flatten = [] := by
    by_contra hne
    simp only [frame, if_neg hne] at h
    exact henc _ hne h
  rw [frame_raw, flatMap_eq_nil_iff] at hraw
  refine eq_nil_iff_forall_not_mem.mpr fun r hr => ?_
  have := hraw r hr
  cases framing <;> simp [lengthPrefixed, leBytes] at this

/-! ## What is reported -/

section

variable {sink : S3Sink} {batch : SinkBatch}
  (henc : ∀ raw, raw ≠ [] → enc.compress sink.compression raw ≠ [])

include henc

/-- An object is uploaded unless no record is left to put into it. -/
theorem put_body : (sink.put enc batch).map Prod.snd =
    if sink.framing.keeps batch.records = [] then none
    else some (frame enc batch.records sink.framing sink.compression).body := by
  have hbody : (frame enc batch.records sink.framing sink.compression).body = [] ↔
      sink.framing.keeps batch.records = [] := by
    refine ⟨frame_empty henc, fun hnil => ?_⟩
    have hraw : (batch.records.filterMap (frameRecord sink.framing)).flatten = [] := by
      rw [frame_raw, hnil, flatMap_nil]
    simp only [frame, if_pos hraw]
  simp only [S3Sink.put, hbody]
  split <;> rfl

/-- What `S3Sink::commit` makes of an upload. -/
theorem commit_spec (uploaded : Except PutError Unit) :
    (uploaded = .ok () → ∃ r, sink.commit enc batch uploaded = .ok r) ∧
    ∀ r, sink.commit enc batch uploaded = .ok r →
      r.committed = sink.framing.keeps batch.records ∧ (r.committed = [] ∨ uploaded = .ok ()) ∧
      (r.committed ++ r.deadLettered.map Prod.fst).Perm batch.records := by
  have hperm := frame_perm enc batch.records sink.framing sink.compression
  have hcommitted := frame_committed enc batch.records sink.framing sink.compression
  have hput : (sink.put enc batch).map Prod.snd = _ := put_body henc
  unfold S3Sink.commit
  split
  next hnone =>
    have hempty : sink.framing.keeps batch.records = [] := by
      by_contra hne
      rw [hnone, if_neg hne] at hput
      cases hput
    rw [hcommitted, hempty] at hperm
    refine ⟨fun _ => ⟨_, rfl⟩, fun r hr => ?_⟩
    cases hr
    exact ⟨hempty.symm, .inl rfl, hperm⟩
  · cases uploaded with
    | error e => exact ⟨nofun, nofun⟩
    | ok _ =>
      refine ⟨fun _ => ⟨_, rfl⟩, fun r hr => ?_⟩
      cases hr
      exact ⟨hcommitted, .inr rfl, hperm⟩

end

/-- What `commit_ndjson` posts, and what it makes of the answer. -/
theorem commitNdjson_spec (rs : List Bytes) (posted : Except HttpSinkError Unit) :
    ((commitNdjson rs posted).2 = if Framing.ndjson.keeps rs = [] then none
      else some ((Framing.ndjson.keeps rs).flatMap (· ++ [10]))) ∧
    (posted = .ok () →
      ∃ r, (commitNdjson rs posted).1 = .ok r ∧ r.committed = Framing.ndjson.keeps rs) ∧
    ∀ r, (commitNdjson rs posted).1 = .ok r → (r.committed = [] ∨ posted = .ok ()) ∧
      (r.committed ++ r.deadLettered.map Prod.fst).Perm rs := by
  have hframable : (rs.filter fun r => !recordIsUnframable r) = Framing.ndjson.keeps rs :=
    filter_congr fun r _ => by simp [recordIsUnframable, breaksLine_eq]
  have hperm : (Framing.ndjson.keeps rs ++ rs.filter recordIsUnframable).Perm rs :=
    hframable ▸ perm_append_comm.trans (filter_append_perm recordIsUnframable rs)
  unfold commitNdjson
  dsimp only
  rw [hframable]
  by_cases hnil : Framing.ndjson.keeps rs = []
  · -- nothing is posted, for an empty batch and for one without a line
    rw [hnil, nil_append] at hperm
    have hreport : ∀ dead : List (Bytes × String), (dead.map Prod.fst).Perm rs →
        ∀ r : CommitResult, .ok ⟨[], dead⟩ = (.ok r : Except HttpSinkError _) →
        (r.committed = [] ∨ posted = .ok ()) ∧
          (r.committed ++ r.deadLettered.map Prod.fst).Perm rs := by
      intro dead hdead r hr
      cases hr
      exact ⟨.inl rfl, hdead⟩
    rw [if_pos hnil, if_pos hnil]
    split
    next hrs => exact ⟨rfl, fun _ => ⟨_, rfl, hnil.symm⟩, hreport _ (by simp [hrs])⟩
    · exact ⟨rfl, fun _ => ⟨_, rfl, hnil.symm⟩,
        hreport _ (by simpa [Function.comp_def] using hperm)⟩
  · have hrs : rs ≠ [] := by
      rintro rfl
      exact hnil rfl
    rw [if_neg hrs, if_neg hnil, if_neg hnil]
    refine ⟨rfl, fun hok => ?_, fun r hr => ?_⟩
    · subst hok
      exact ⟨_, rfl, rfl⟩
    split at hr
    · cases hr
      exact ⟨.inr rfl, by simpa [Function.comp_def] using hperm⟩
    · cases hr
      exact ⟨.inl rfl, by simpa [Function.comp_def] using perm_append_comm.trans hperm⟩
    · cases hr

/-- Every body is read back as the records that were put into it, in batch order and in one way
only: the uncompressed body of an S3 object in either framing, the lines of an HTTP batch,
and the rows of a ClickHouse insert. Only a record that is no line is left out of a body of
lines, and a body is sent unless none is left. The records of an accepted body are the ones
reported committed, none is when the body was not accepted, and whenever a sink returns, what
it reports is the batch. -/
theorem bodies_split (enc : Encoders) (sink : S3Sink) (batch : SinkBatch)
    (henc : ∀ raw, raw ≠ [] → enc.compress sink.compression raw ≠ [])
    (hsize : ∀ p ∈ batch.records, p.length < 2 ^ 64) :
    sink.framing.Splits (frame enc batch.records sink.framing .none).body
      (sink.framing.keeps batch.records) ∧
    ((sink.put enc batch).map Prod.snd = if sink.framing.keeps batch.records = [] then none
      else some (frame enc batch.records sink.framing sink.compression).body) ∧
    (∀ uploaded, (uploaded = .ok () → ∃ r, sink.commit enc batch uploaded = .ok r) ∧
      ∀ r, sink.commit enc batch uploaded = .ok r →
        r.committed = sink.framing.keeps batch.records ∧ (r.committed = [] ∨ uploaded = .ok ()) ∧
        (r.committed ++ r.deadLettered.map Prod.fst).Perm batch.records) ∧
    lines ((Framing.ndjson.keeps batch.records).flatMap (· ++ [10]))
      = Framing.ndjson.keeps batch.records ∧
    (∀ posted,
      ((commitNdjson batch.records posted).2 = if Framing.ndjson.keeps batch.records = [] then none
        else some ((Framing.ndjson.keeps batch.records).flatMap (· ++ [10]))) ∧
      (posted = .ok () → ∃ r, (commitNdjson batch.records posted).1 = .ok r ∧
        r.committed = Framing.ndjson.keeps batch.records) ∧
      ∀ r, (commitNdjson batch.records posted).1 = .ok r →
        (r.committed = [] ∨ posted = .ok ()) ∧
        (r.committed ++ r.deadLettered.map Prod.fst).Perm batch.records) ∧
    ∀ rows, Prefixed Leb128 (encodeRowbinary batch.records) rows ↔ rows = batch.records :=
  ⟨frame_splits hsize, put_body henc, commit_spec henc, frame_lines batch.records,
    commitNdjson_spec batch.records, prefixed_rowbinary hsize⟩

/-- The theorem for a record that is a line and one that is not. -/
theorem bodies_split_newline :
    lines (frame ⟨id, id⟩ [[7], [8, 10]] .ndjson .none).body = [[7]] ∧
      (frame ⟨id, id⟩ [[7], [8, 10]] .ndjson .none).body = [7, 10] :=
  ⟨(bodies_split ⟨id, id⟩ ⟨[], ⟨[]⟩, .ndjson, .none, 10⟩ ⟨[[7], [8, 10]], [], none, none, by simp⟩
    (fun _ h => h) (by decide)).1, by decide⟩

end Weir.Sink

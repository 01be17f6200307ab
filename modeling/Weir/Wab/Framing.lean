import Weir.Wab.Forensic

/-!
# What the forensic reader accounts for

Two halves of one promise of `recovery_reader.rs`. Where the length fields survived, a record
that was struck costs nothing but itself; and whatever the bytes are, the items describe them
from the header on, frame behind frame, until the walk ends for good.

> `readAll_standing`: over frames whose lengths are as they were written, the untouched records
> come out and each touched one is reported where it stands.

> `readAll_accounted`: the frames of the items of any walk stand end to end.

> `readAll_tiled`: without a `Desynced` they fill the file from the header to a legitimate end.

> `mismatches_le`: no more than three failures in a row.

> `answer_after_end`: an ended walk yields nothing.
-/

namespace Weir.Wab

open Weir.Lib List

namespace RecoveryReader

/-! ## One frame, one item -/

section

variable {z : Zstd} {r : RecoveryReader} {f : Frame}

section

variable (h : r.Live) (hf : frameAt r.header.compression r.file r.pos = some f)

include h hf

/-- An intact frame that decodes is yielded. -/
theorem readAll_record (hok : f.intact = true) {p : Bytes}
    (hp : decodeStored z r.header.compression f.stored = some p) :
    r.readAll z noFault = .record p :: (r.behind f 0).readAll z noFault := by
  obtain ⟨item, hnext, hitem⟩ := (next_frame z h hf).1 hok
  rw [readAll_cons h.sound hnext, hitem p hp]

/-- A frame that fails its CRC is reported, unless two before it did. -/
theorem readAll_mismatch (hbad : f.intact = false)
    (hskips : r.consecutiveSkips + 1 < maxConsecutiveSkips) :
    r.readAll z noFault = .skipped r.pos f.stored.length "CRC mismatch"
      :: (r.behind f (r.consecutiveSkips + 1)).readAll z noFault :=
  readAll_cons h.sound ((next_frame z h hf).2 hbad hskips)

end

/-- At a legitimate end the walk is over. -/
theorem readAll_clean (h : r.Live) (hend : CleanEnd r.file r.pos) : r.readAll z noFault = [] := by
  have hnext : r.next z noFault = (none, { r with done := true }) := by
    rw [next, h.pending]
    rw [h.done, if_neg Bool.false_ne_true]
    rcases hend with hpos | ⟨hsentinel, hat⟩
    · have hread : readExact r.file noFault r.pos 4 = _ := readExact_short rfl (by omega)
      have hkind : (IoError.new .unexpectedEof "failed to fill whole buffer").kind
          = .unexpectedEof := rfl
      rw [hread]
      dsimp only
      rw [if_pos hkind, if_pos (by rw [h.fileLen]; exact hpos)]
    · have hread : readExact r.file noFault r.pos 4 = .ok buildSentinel := by
        rw [readExact_of_le (by omega), hsentinel]
      have hoffset : r.isSentinelOffset r.pos = true := by
        simp only [isSentinelOffset, h.fileLen, Bool.or_eq_true, decide_eq_true_eq]
        omega
      rw [hread]
      dsimp only
      rw [if_pos (by decide), if_pos hoffset]
  exact readAll_nil hnext

end

/-! ## Frames whose lengths survived -/

end RecoveryReader

/-- A record as it was written and the frame that stands in its place: as many bytes as were
written, under a length field that was left alone. -/
structure Standing where
  written : Bytes
  found : Frame
  length_eq : found.stored.length = written.length

namespace Standing

/-- A record that nobody touched. -/
def asWritten (s : Bytes) : Standing := ⟨s, ⟨crc32 s, s⟩, rfl⟩

/-- Some byte of the record or of its CRC field is another one. -/
def touched (x : Standing) : Bool := decide (x.found ≠ ⟨crc32 x.written, x.written⟩)

/-- What the walk has to say about the record at an offset. -/
def item (offset : Nat) (x : Standing) : RecoveryItem :=
  if x.touched then .skipped offset x.written.length "CRC mismatch" else .record x.written

/-- The items of records that stand end to end. -/
def items : Nat → List Standing → List RecoveryItem
  | _, [] => []
  | offset, x :: xs => x.item offset :: items (offset + 8 + x.written.length) xs

/-- The bytes that stand there. -/
def bytes (xs : List Standing) : Bytes := xs.flatMap fun x => x.found.encode

theorem bytes_cons (x : Standing) (xs : List Standing) :
    bytes (x :: xs) = x.found.encode ++ bytes xs := rfl

/-- Fewer than three touched records in a row. -/
def Sparse (xs : List Standing) : Prop :=
  ∀ run, run <:+: xs → (∀ x ∈ run, x.touched = true) → run.length < maxConsecutiveSkips

theorem found_of_untouched {x : Standing} (h : x.touched = false) :
    x.found = ⟨crc32 x.written, x.written⟩ :=
  Decidable.not_not.mp (of_decide_eq_false h)

end Standing

/-- What may stand behind the records: nothing in an active segment, the sentinel and a footer in
a sealed one. -/
def Trailer (rest : Bytes) : Prop :=
  rest = [] ∨ ∃ footer, footer.length = segmentFooterLen ∧ rest = buildSentinel ++ footer

theorem Trailer.cleanEnd {file rest : Bytes} {pos : Nat} (h : Trailer rest)
    (hpos : pos ≤ file.length) (hd : file.drop pos = rest) : CleanEnd file pos := by
  have hlen : file.length - pos = rest.length := by rw [← length_drop, hd]
  rcases h with rfl | ⟨footer, hfooter, rfl⟩
  · exact .inl (by rw [length_nil] at hlen; omega)
  refine .inr ⟨?_, .inr ?_⟩
  · rw [slice, hd, Nat.add_sub_cancel_left]
    exact take_left' rfl
  · rw [length_append, show buildSentinel.length = 4 from rfl, hfooter] at hlen
    omega

namespace RecoveryReader

open Standing

/-- The walk over such frames. `n` is the number of touched records just before. -/
theorem readAll_standing {z : Zstd} (xs : List Standing) (r : RecoveryReader) (rest : Bytes) :
    r.Live →
      r.header.compression = .none → r.file.drop r.pos = bytes xs ++ rest →
      Trailer rest → (∀ x ∈ xs, StoredOk .none x.written) →
      (∀ x ∈ xs, x.touched = true → x.found.intact = false) → Sparse xs →
      (∀ run, run <+: xs → (∀ x ∈ run, x.touched = true) →
        r.consecutiveSkips + run.length < maxConsecutiveSkips) →
      r.readAll z noFault = items r.pos xs := by
  induction xs generalizing r rest with
  | nil =>
    intro hlive _ hd htrailer _ _ _ _
    exact readAll_clean hlive (htrailer.cleanEnd hlive.inside hd)
  | cons x xs ih =>
    intro hlive hc hd htrailer hok hmiss hsparse hrun
    have hx := hok x mem_cons_self
    have hstored : StoredOk .none x.found.stored := by
      rw [StoredOk, x.length_eq]
      exact hx
    rw [bytes_cons, append_assoc] at hd
    have hframe : frameAt r.header.compression r.file r.pos = some x.found := by
      rw [hc]
      exact frameAt_encode hstored hlive.inside hd
    have hdrop : r.file.drop (r.pos + 8 + x.found.stored.length) = bytes xs ++ rest := by
      rw [add_assoc, ← drop_drop, hd, drop_left' x.found.encode_length]
    have hsparse' : Sparse xs := fun run hin =>
      hsparse run (hin.trans (suffix_cons ..).isInfix)
    -- what is left to show once the frame of `x` is behind the reader
    have hrest : ∀ skips, (∀ run, run <+: xs → (∀ y ∈ run, y.touched = true) →
        skips + run.length < maxConsecutiveSkips) →
        (r.behind x.found skips).readAll z noFault
          = items (r.pos + 8 + x.written.length) xs := by
      intro skips hskips
      have h := ih (r.behind x.found skips) rest (hlive.behind hframe skips).1 hc hdrop htrailer
        (fun y hy => hok y (mem_cons_of_mem _ hy))
        (fun y hy => hmiss y (mem_cons_of_mem _ hy)) hsparse' hskips
      rw [h, ← x.length_eq]
      rfl
    cases htouched : x.touched with
    | true =>
      have hone := hrun [x] (prefix_append [x] xs) (by simpa using htouched)
      have hskips : ∀ run, run <+: xs → (∀ y ∈ run, y.touched = true) →
          r.consecutiveSkips + 1 + run.length < maxConsecutiveSkips := by
        intro run hpre hall
        have h := hrun (x :: run) (List.cons_prefix_cons.mpr ⟨rfl, hpre⟩)
          (List.forall_mem_cons.mpr ⟨htouched, hall⟩)
        rw [length_cons] at h
        omega
      rw [readAll_mismatch hlive hframe (hmiss x mem_cons_self htouched) hone,
        hrest _ hskips, items, item, if_pos htouched, x.length_eq]
    | false =>
      have hfound := found_of_untouched htouched
      have hskips : ∀ run, run <+: xs → (∀ y ∈ run, y.touched = true) →
          0 + run.length < maxConsecutiveSkips := by
        intro run hpre hall
        rw [zero_add]
        exact hsparse' run hpre.isInfix hall
      have hintact : x.found.intact = true := by
        rw [hfound]
        exact intact_record _
      have hp : decodeStored z r.header.compression x.found.stored = some x.written := by
        rw [hc, hfound]
        rfl
      rw [readAll_record hlive hframe hintact hp, hrest 0 hskips, items, item,
        if_neg (by rw [htouched]; exact Bool.false_ne_true)]

/-! ## Any bytes -/

/-- The frames of the items run from `lo` to some `hi`, and there the walk ends: cleanly, or with
a `Desynced` for what is left. That one names the place where the reader gave up, or, after three
failures in a row, the last of them. -/
def Accounts (z : Zstd) (c : Compression) (file : Bytes) (lo : Nat) (items : List RecoveryItem) :
    Prop :=
  ∃ frames hi, Tiles z c file lo frames hi ∧ hi ≤ file.length ∧
    (items = frames ∧ CleanEnd file hi ∨
      ∃ offset reason, items = frames ++ [.desynced offset reason] ∧
        (offset = hi ∨ ∃ before len why, frames = before ++ [.skipped offset len why]))

/-- An account of the rest, with a frame before it. -/
theorem Accounts.cons {z : Zstd} {c : Compression} {file : Bytes} {lo mid : Nat}
    {item : RecoveryItem} {items : List RecoveryItem}
    (hitem : ∀ frames hi, Tiles z c file mid frames hi → Tiles z c file lo (item :: frames) hi)
    (h : Accounts z c file mid items) : Accounts z c file lo (item :: items) := by
  obtain ⟨frames, hi, htiles, hle, hend⟩ := h
  refine ⟨item :: frames, hi, hitem frames hi htiles, hle, ?_⟩
  rcases hend with ⟨rfl, hclean⟩ | ⟨offset, reason, rfl, hat⟩
  · exact .inl ⟨rfl, hclean⟩
  refine .inr ⟨offset, reason, rfl, ?_⟩
  rcases hat with rfl | ⟨before, len, why, rfl⟩
  · exact .inl rfl
  · exact .inr ⟨item :: before, len, why, rfl⟩

/-- Every walk accounts for the file from where it begins. -/
theorem readAll_accounted (z : Zstd) (fault : ReadFault) :
    ∀ r : RecoveryReader, r.Sound → r.Live →
      Accounts z r.header.compression r.file r.pos (r.readAll z fault) := by
  refine readAll_induction (motive := fun r items => r.Live →
    Accounts z r.header.compression r.file r.pos items) ?_ ?_
  · intro r r' h hnext hlive
    have hturn := next_turn z fault hlive
    rw [hnext] at hturn
    cases hturn with
    | clean hend _ => exact ⟨[], r.pos, rfl, hlive.inside, .inl ⟨rfl, hend⟩⟩
  · intro r r' item h hnext ih hlive
    have hturn := next_turn z fault hlive
    rw [hnext] at hturn
    cases hturn with
    | lost reason _ =>
      have hnil : { r with done := true }.readAll z fault = [] := readAll_done rfl hlive.pending
      rw [hnil]
      exact ⟨[], r.pos, rfl, hlive.inside, .inr ⟨r.pos, reason, rfl, .inl rfl⟩⟩
    | failed f hf _ _ =>
      exact (ih (hlive.behind hf _).1).cons fun frames hi htiles => ⟨rfl, f, hf, rfl, htiles⟩
    | failedLast f hf _ _ reason =>
      obtain ⟨-, hin⟩ := frameAt_some hf
      have htiles : Tiles z r.header.compression r.file r.pos
          [.skipped r.pos f.stored.length "CRC mismatch"] (r.pos + 8 + f.stored.length) :=
        ⟨rfl, f, hf, rfl, rfl⟩
      exact ⟨_, _, htiles, hin, .inr ⟨r.pos, reason, rfl, .inr ⟨[], _, _, rfl⟩⟩⟩
    | undecoded f hf _ _ _ =>
      exact (ih (hlive.behind hf 0).1).cons fun frames hi htiles => ⟨rfl, f, hf, rfl, htiles⟩
    | record f hf hok plain hplain =>
      exact (ih (hlive.behind hf 0).1).cons fun frames hi htiles =>
        ⟨f, hf, hok, hplain, htiles⟩

/-- A walk without a `Desynced` accounts for every byte: the frames of its items run from where it
began to a legitimate end. -/
theorem readAll_tiled (z : Zstd) (fault : ReadFault) {r : RecoveryReader} (h : r.Live)
    (hsync : ∀ offset reason, .desynced offset reason ∉ r.readAll z fault) :
    ∃ hi, Tiles z r.header.compression r.file r.pos (r.readAll z fault) hi ∧
      CleanEnd r.file hi := by
  obtain ⟨frames, hi, htiles, -, hend⟩ := readAll_accounted z fault r h.sound h
  rcases hend with ⟨heq, hclean⟩ | ⟨offset, reason, heq, -⟩
  · rw [heq]
    exact ⟨hi, htiles, hclean⟩
  · refine absurd ?_ (hsync offset reason)
    rw [heq]
    simp

end RecoveryReader

/-! ## Runs of failures -/

/-- In a list that continues `n` items with `P`, no run of them is longer than `k`. -/
def RunsLe {α : Type} (P : α → Prop) (n k : Nat) (xs : List α) : Prop :=
  (∀ run, run <+: xs → (∀ x ∈ run, P x) → n + run.length ≤ k) ∧
    ∀ run, run <:+: xs → (∀ x ∈ run, P x) → run.length ≤ k

namespace RunsLe

variable {α : Type} {P : α → Prop} {n m k : Nat} {x : α} {xs : List α}

theorem nil (h : n ≤ k) : RunsLe P n k [] := by
  refine ⟨fun run hpre _ => ?_, fun run hin _ => ?_⟩
  · obtain rfl := prefix_nil.mp hpre
    exact h
  · obtain rfl := List.infix_nil.mp hin
    exact Nat.zero_le k

/-- A bound on the runs at the front and one on those of the tail. -/
theorem of_front (hfront : ∀ run, run <+: x :: xs → (∀ y ∈ run, P y) → n + run.length ≤ k)
    (h : RunsLe P m k xs) : RunsLe P n k (x :: xs) := by
  refine ⟨hfront, fun run hin hall => ?_⟩
  rcases List.infix_cons_iff.mp hin with hpre | hin
  · have := hfront run hpre hall
    omega
  · exact h.2 run hin hall

theorem cons (h : RunsLe P (n + 1) k xs) : RunsLe P n k (x :: xs) := by
  refine of_front (fun run hpre hall => ?_) h
  cases run with
  | nil =>
    have := h.1 [] (by simp) (by simp)
    omega
  | cons y run =>
    obtain ⟨-, hpre⟩ := List.cons_prefix_cons.mp hpre
    have := h.1 run hpre fun w hw => hall w (mem_cons_of_mem _ hw)
    rw [length_cons]
    omega

theorem cons_of_not (hn : n ≤ k) (hx : ¬P x) (h : RunsLe P m k xs) : RunsLe P n k (x :: xs) := by
  refine of_front (fun run hpre hall => ?_) h
  cases run with
  | nil => exact hn
  | cons y run =>
    obtain ⟨rfl, -⟩ := List.cons_prefix_cons.mp hpre
    exact absurd (hall y mem_cons_self) hx

end RunsLe

namespace RecoveryReader

/-- An item for a frame that fails its CRC. -/
def Mismatch (c : Compression) (file : Bytes) (item : RecoveryItem) : Prop :=
  ∃ offset len reason f, item = .skipped offset len reason ∧ frameAt c file offset = some f ∧
    f.intact = false

theorem not_mismatch_desynced {c : Compression} {file : Bytes} {offset : Nat} {reason : String} :
    ¬Mismatch c file (.desynced offset reason) := by
  rintro ⟨_, _, _, _, h, -⟩
  cases h

theorem not_mismatch_record {c : Compression} {file p : Bytes} : ¬Mismatch c file (.record p) := by
  rintro ⟨_, _, _, _, h, -⟩
  cases h

/-- Failures at the front of a walk add to those the reader has counted, and none of the runs
exceeds the bound. -/
theorem mismatches_le (z : Zstd) (fault : ReadFault) :
    ∀ r : RecoveryReader, r.Sound → r.Live → r.consecutiveSkips < maxConsecutiveSkips →
      RunsLe (Mismatch r.header.compression r.file) r.consecutiveSkips maxConsecutiveSkips
        (r.readAll z fault) := by
  refine readAll_induction (motive := fun r items => r.Live →
    r.consecutiveSkips < maxConsecutiveSkips →
    RunsLe (Mismatch r.header.compression r.file) r.consecutiveSkips maxConsecutiveSkips items)
    ?_ ?_
  · intro r r' h hnext hlive hskips
    exact RunsLe.nil (le_of_lt hskips)
  intro r r' item h hnext ih hlive hskips
  have hturn := next_turn z fault hlive
  have hle := le_of_lt hskips
  rw [hnext] at hturn
  cases hturn with
  | lost reason _ =>
    have hnil : { r with done := true }.readAll z fault = [] := readAll_done rfl hlive.pending
    rw [hnil]
    exact RunsLe.cons_of_not hle not_mismatch_desynced (RunsLe.nil hle)
  | failed f hf _ hlt => exact (ih (hlive.behind hf _).1 hlt).cons
  | failedLast f hf _ _ reason =>
    have hdesync : RunsLe (Mismatch r.header.compression r.file) (r.consecutiveSkips + 1)
        maxConsecutiveSkips [.desynced r.pos reason] :=
      RunsLe.cons_of_not hskips not_mismatch_desynced (RunsLe.nil hskips)
    exact hdesync.cons
  | undecoded f hf hok _ reason =>
    have hitem : ¬Mismatch r.header.compression r.file
        (.skipped r.pos f.stored.length reason) := by
      rintro ⟨offset, len, why, f', heq, hf', hbad⟩
      obtain ⟨rfl, -, -⟩ := RecoveryItem.skipped.inj heq
      obtain rfl := Option.some.inj (hf.symm.trans hf')
      rw [hok] at hbad
      cases hbad
    exact RunsLe.cons_of_not hle hitem (ih (hlive.behind hf 0).1 (Nat.succ_pos 2))
  | record f hf _ plain _ =>
    exact RunsLe.cons_of_not hle not_mismatch_record (ih (hlive.behind hf 0).1 (Nat.succ_pos 2))

/-! ## After the end -/

/-- The reader after so many calls of `next`. -/
def after (z : Zstd) (fault : ReadFault) (r : RecoveryReader) : Nat → RecoveryReader
  | 0 => r
  | n + 1 => ((r.after z fault n).next z fault).2

/-- What the next call answers. -/
def answer (z : Zstd) (fault : ReadFault) (r : RecoveryReader) (n : Nat) : Option RecoveryItem :=
  ((r.after z fault n).next z fault).1

/-- A reader that has answered with an end. -/
structure Ended (r : RecoveryReader) : Prop where
  done : r.done = true
  pending : r.pendingDesync = none

variable {z : Zstd} {fault : ReadFault} {r : RecoveryReader}

theorem Ended.next (h : r.Ended) : r.next z fault = (none, r) := by
  rw [RecoveryReader.next, h.pending]
  exact if_pos h.done

theorem next_sound (z : Zstd) (fault : ReadFault) (h : r.Sound) : (r.next z fault).2.Sound := by
  cases hnext : r.next z fault with
  | mk item r' =>
    cases item with
    | some item => exact (next_some h hnext).2.1
    | none =>
      cases hpending : r.pendingDesync with
      | some d => rw [next, hpending] at hnext; cases hnext
      | none =>
        cases hdone : r.done with
        | true =>
          rw [Ended.next ⟨hdone, hpending⟩] at hnext
          cases hnext
          exact h
        | false =>
          have hturn := next_turn z fault (h.live hdone hpending)
          rw [hnext] at hturn
          cases hturn with
          | clean => exact ⟨h.fileLen, h.inside⟩

theorem after_sound (z : Zstd) (fault : ReadFault) (h : r.Sound) :
    ∀ n, (r.after z fault n).Sound
  | 0 => h
  | n + 1 => next_sound z fault (after_sound z fault h n)

/-- A clean end and a `Desynced` both end the reader. -/
theorem next_ended (h : r.Sound) (hitem : ∀ item, (r.next z fault).1 = some item → ∃ offset reason,
      item = .desynced offset reason) : (r.next z fault).2.Ended := by
  cases hpending : r.pendingDesync with
  | some d =>
    rw [next, hpending]
    exact ⟨rfl, rfl⟩
  | none =>
    cases hdone : r.done with
    | true =>
      have hended : r.Ended := ⟨hdone, hpending⟩
      rw [hended.next]
      exact hended
    | false =>
      have hturn := next_turn z fault (h.live hdone hpending)
      generalize hi : (r.next z fault).1 = item at hturn hitem
      generalize (r.next z fault).2 = r' at hturn
      cases hturn with
      | clean | lost => exact ⟨rfl, hpending⟩
      | failed | failedLast | undecoded | record => obtain ⟨_, _, h⟩ := hitem _ rfl; cases h

/-- And nothing comes after it, however often the reader is asked. -/
theorem answer_after_end (h : r.Sound) {n : Nat}
    (hitem : ∀ item, r.answer z fault n = some item → ∃ offset reason,
      item = .desynced offset reason) : ∀ m, n < m → r.answer z fault m = none := by
  have hended : ∀ k, (r.after z fault (n + 1 + k)).Ended := by
    intro k
    induction k with
    | zero => exact next_ended (after_sound z fault h n) hitem
    | succ k ih =>
      show ((r.after z fault (n + 1 + k)).next z fault).2.Ended
      rw [ih.next]
      exact ih
  intro m hm
  obtain ⟨k, rfl⟩ := Nat.exists_eq_add_of_lt hm
  have hend := hended k
  rw [show n + 1 + k = n + k + 1 by omega] at hend
  rw [answer, hend.next]

theorem after_succ (z : Zstd) (fault : ReadFault) (r : RecoveryReader) :
    ∀ n, r.after z fault (n + 1) = (r.next z fault).2.after z fault n
  | 0 => rfl
  | n + 1 => by
    rw [after, after_succ z fault r n]
    rfl

/-- The answers, one by one, are the items of the walk and then nothing. -/
theorem answer_eq (z : Zstd) (fault : ReadFault) :
    ∀ r : RecoveryReader, r.Sound → ∀ n : Nat, r.answer z fault n = (r.readAll z fault)[n]? := by
  refine readAll_induction (motive := fun r items => ∀ n : Nat, r.answer z fault n = items[n]?)
    ?_ ?_
  · intro r r' h hnext n
    have hnone : r.answer z fault 0 = none := by rw [answer, after, hnext]
    cases n with
    | zero => exact hnone
    | succ n =>
      refine answer_after_end h (fun item hitem => ?_) (n + 1) (Nat.succ_pos n)
      rw [hnone] at hitem
      cases hitem
  · intro r r' item h hnext ih n
    cases n with
    | zero => rw [answer, after, hnext]; rfl
    | succ n =>
      rw [answer, after_succ, hnext]
      exact ih n

end RecoveryReader

/-- `recovery_reader.rs`: where the lengths of an uncompressed segment survive, and fewer than
three records in a row were struck, the untouched records come out in order with one `Skipped`
for each of the others, and the walk ends cleanly. Over any file that opens, the items account for
the bytes from the header on, with at most three CRC failures in a row, and the end is final. -/
theorem forensic_walk_accounts (z : Zstd) :
    (∀ (header rest : Bytes) (m : SegmentHeaderMeta) (xs : List Standing),
      parseSegmentHeader header = .ok m → m.compression = .none → Trailer rest →
      (∀ x ∈ xs, StoredOk .none x.written) →
      (∀ x ∈ xs, x.touched = true → x.found.intact = false) → Standing.Sparse xs →
      ∃ r, RecoveryReader.open (header ++ (Standing.bytes xs ++ rest)) noFault none = .ok r ∧
        ∀ n : Nat, r.answer z noFault n = (Standing.items segmentHeaderLen xs)[n]?) ∧
    ∀ (file : Bytes) (fault : ReadFault) (stat : Option IoError) (r : RecoveryReader),
      RecoveryReader.open file fault stat = .ok r →
      ∃ items, (∀ n : Nat, r.answer z fault n = items[n]?) ∧
        RecoveryReader.Accounts z r.header.compression file segmentHeaderLen items ∧
        (∀ run, run <:+: items →
          (∀ i ∈ run, RecoveryReader.Mismatch r.header.compression file i) →
          run.length ≤ maxConsecutiveSkips) ∧
        ∀ n, (r.answer z fault n = none ∨
            ∃ offset reason, r.answer z fault n = some (.desynced offset reason)) →
          ∀ k, n < k → r.answer z fault k = none := by
  refine ⟨?_, ?_⟩
  · intro header rest m xs hm hc hrest hok hmiss hsparse
    have hlen := parseSegmentHeader_length hm
    have hlive : RecoveryReader.Live ⟨header ++ (Standing.bytes xs ++ rest), m, segmentHeaderLen,
        (header ++ (Standing.bytes xs ++ rest)).length, false, 0, none⟩ :=
      .start (by rw [length_append, hlen]; omega) m
    refine ⟨_, RecoveryReader.open_of_header hm rfl, fun n => ?_⟩
    rw [RecoveryReader.answer_eq z noFault _ hlive.sound,
      RecoveryReader.readAll_standing xs _ rest hlive hc (drop_left' hlen) hrest hok hmiss
        hsparse]
    intro run hpre hall
    rw [zero_add]
    exact hsparse run hpre.isInfix hall
  · intro file fault stat r hopen
    obtain ⟨m, -, hle, rfl⟩ := RecoveryReader.open_ok hopen
    have hlive := RecoveryReader.Live.start hle m
    refine ⟨_, RecoveryReader.answer_eq z fault _ hlive.sound,
      RecoveryReader.readAll_accounted z fault _ hlive.sound hlive,
      (RecoveryReader.mismatches_le z fault _ hlive.sound hlive (Nat.succ_pos 2)).2, ?_⟩
    intro n hend
    refine RecoveryReader.answer_after_end hlive.sound fun item hitem => ?_
    rcases hend with hnone | ⟨offset, reason, hsome⟩
    · rw [hnone] at hitem
      cases hitem
    · rw [hsome] at hitem
      exact ⟨offset, reason, (Option.some.inj hitem).symm⟩

/-- Three one-byte records of an active segment, the CRC field of the second overwritten with
zeros. -/
def struckRecords : List Standing :=
  [.asWritten [1], ⟨[2], ⟨0, [2]⟩, rfl⟩, .asWritten [3]]

theorem sparse_struckRecords : Standing.Sparse struckRecords := by
  intro run hin hall
  -- the whole list is not a run, since the first record is untouched
  refine lt_of_le_of_ne hin.length_le fun hlen => ?_
  obtain rfl := hin.eq_of_length hlen
  exact absurd (hall (.asWritten [1]) mem_cons_self) (by decide)

theorem forensic_walk_accounts_struck :
    ∃ r, RecoveryReader.open (buildSegmentHeader 0 .none 0
        ++ (Standing.bytes struckRecords ++ [])) noFault none = .ok r ∧
      (∀ n : Nat, r.answer Zstd.plain noFault n
        = [.record [1], .skipped 33 1 "CRC mismatch", .record [3]][n]?) ∧
      ∃ items, RecoveryReader.Accounts Zstd.plain r.header.compression
        (buildSegmentHeader 0 .none 0 ++ (Standing.bytes struckRecords ++ [])) 24 items := by
  obtain ⟨hexact, hany⟩ := forensic_walk_accounts Zstd.plain
  obtain ⟨r, hopen, hitems⟩ := hexact _ [] _ struckRecords (parseSegmentHeader_build 0 .none 0) rfl
    (.inl rfl) (by decide) (by decide) sparse_struckRecords
  obtain ⟨items, -, haccounts, -, -⟩ := hany _ _ _ r hopen
  exact ⟨r, hopen, hitems, items, haccounts⟩

end Weir.Wab

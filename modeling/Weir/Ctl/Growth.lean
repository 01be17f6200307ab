import Weir.Ctl.Alarm

/-!
# The order that attestation walks a shard in (`weir-ctl/src/attest.rs`)

The chain is to link each segment to the one that the writer sealed before it. The commands
walk the names in the order of their text, and the writer pads a counter to eight digits:
beyond them the text of a longer counter sorts before that of a shorter one.

> `attest_follows_writer`: while the counters have one width, the walk is in the order of the
> counters, each segment is chained to the one before it, and `verify` has nothing to report.

> `wider_counter_first`: the walk comes to the segment `100000000` before `99999999`.
-/

namespace Weir.Ctl

open Weir.Lib Weir.Wab Weir.Attest

/-! ## Numbers and their texts -/

/-- Digits cannot make up for a smaller number before them. -/
theorem ofDigitChars_lt : ∀ {cs ds : List Char} {k m : Nat}, cs.length = ds.length →
    (∀ c ∈ cs, c.isDigit = true) → k < m → Nat.ofDigitChars 10 cs k < Nat.ofDigitChars 10 ds m
  | [], [], _, _, _, _, h => h
  | c :: cs, d :: ds, k, m, hlen, hdigits, h => by
    have hc : c.toNat ≤ '9'.toNat := (Char.isDigit_iff_toNat.mp (hdigits c List.mem_cons_self)).2
    rw [Nat.ofDigitChars_cons, Nat.ofDigitChars_cons]
    refine ofDigitChars_lt (Nat.succ.inj hlen)
      (fun e he => hdigits e (List.mem_cons_of_mem _ he)) ?_
    have h9 : '9'.toNat = 57 := rfl
    have h0 : '0'.toNat = 48 := rfl
    omega

/-- Digits of one length sort as their numbers do. -/
theorem digits_not_lex (tail : List Char) : ∀ {cs ds : List Char} {k : Nat}, cs.length = ds.length →
    (∀ d ∈ ds, d.isDigit = true) → Nat.ofDigitChars 10 cs k ≤ Nat.ofDigitChars 10 ds k →
    ¬ds ++ tail < cs ++ tail
  | [], [], _, _, _, _ => lt_irrefl tail
  | c :: cs, d :: ds, k, hlen, hds, h => by
    rw [List.forall_mem_cons] at hds
    rw [Nat.ofDigitChars_cons, Nat.ofDigitChars_cons] at h
    intro hlex
    cases hlex with
    | cons hlex => exact digits_not_lex tail (Nat.succ.inj hlen) hds.2 h hlex
    | rel hlt =>
      have hd := (Char.isDigit_iff_toNat.mp hds.1).1
      have hdc : d.toNat < c.toNat := hlt
      refine absurd h (Nat.not_le_of_lt (ofDigitChars_lt (Nat.succ.inj hlen).symm hds.2 ?_))
      omega

/-- The segment of counter `c`. -/
def Numbered (f : FileName) (c : Nat) : Prop := f.text = segmentFile c extSealed

instance (f : FileName) (c : Nat) : Decidable (Numbered f c) :=
  inferInstanceAs (Decidable (f.text = segmentFile c extSealed))

theorem Numbered.le {f g : FileName} {c c' : Nat} (hf : Numbered f c) (hg : Numbered g c')
    (hwidth : (pad8 c).length = (pad8 c').length) (h : c ≤ c') : f.le g := by
  have hdigits := digits_not_lex (k := 0) extSealed.toList hwidth (fun _ => pad8_isDigit)
    (by rwa [pad8_ofDigitChars, pad8_ofDigitChars])
  rw [FileName.le, hf, hg, segmentFile, segmentFile]
  simp only [String.toList_append, String.toList_ofList]
  exact not_lt.mp (List.append_left_le hdigits)

/-! ## A growing shard -/

/-- The writer seals a segment with a higher counter than all that are there, of the same width, and
the oldest are delivered first. -/
def WriteOrder (s : ShardFiles) : ShardAction → Prop
  | .sealed file _ => ∃ c, Numbered file c ∧ ∀ g, s.segment g ≠ none →
      ∃ c' < c, Numbered g c' ∧ (pad8 c').length = (pad8 c).length
  | .confirmed file => ∀ g, s.segment g ≠ none → file.le g
  | .attested _ => True

variable {z : Zstd} {d : Digest} {shard : FileName} {s : ShardFiles}

theorem WriteOrder.chainOrder {a : ShardAction} (h : WriteOrder s a) : ChainOrder s a := by
  cases a with
  | sealed file bytes =>
    intro g hg
    obtain ⟨c, hc, hall⟩ := h
    obtain ⟨c', hlt, hg', hwidth⟩ := hall g hg.1
    exact hg'.le hc hwidth (le_of_lt hlt)
  | confirmed file => exact .inl h
  | attested written => trivial

/-- The counters in the shard have one width. -/
theorem Reached.numbered (h : Reached z d shard WriteOrder s) :
    ∃ w, ∀ f, s.segment f ≠ none → ∃ c, Numbered f c ∧ (pad8 c).length = w := by
  induction h with
  | start => exact ⟨0, fun f hf => absurd rfl hf⟩
  | @step s a _ _ hcondition ih =>
    obtain ⟨w, hall⟩ := ih
    cases a with
    | sealed file bytes =>
      obtain ⟨c, hc, hothers⟩ := hcondition
      refine ⟨(pad8 c).length, fun f hf => ?_⟩
      by_cases heq : f = file
      · exact ⟨c, heq ▸ hc, rfl⟩
      · have hother : s.segment f ≠ none := Function.update_of_ne heq (some bytes) s.segment ▸ hf
        obtain ⟨c', -, hf', hwidth⟩ := hothers f hother
        exact ⟨c', hf', hwidth⟩
    | confirmed file => exact ⟨w, fun f hf => hall f ((confirmed_segment s file f).mp hf).2⟩
    | attested written => exact ⟨w, hall⟩

/-- While the counters of a shard have one width, `seal` and `verify` walk it in the order of the
counters, every sidecar is chained from the segment before it, and those without one come last. Then
`verify` reports no divergence and no broken link. -/
theorem attest_follows_writer {wab : WabDir} {files : List FileName}
    (h : Reached z d shard WriteOrder s) (hsees : Sees (wab.shard shard) s)
    (hfiles : sealedSegmentsIn wab shard = .ok files) :
    (files.Pairwise fun f g => ∃ c c', c < c' ∧ Numbered f c ∧ Numbered g c') ∧
      (∃ head os rest, files = os.map Original.file ++ rest ∧ Chained z d shard head os ∧
        (∀ o ∈ os, s.sidecar o.file = some o.sidecar) ∧ ∀ f ∈ rest, s.sidecar f = none) ∧
      ∀ r, r.Quiet → (verifyShard z d wab r shard).Quiet := by
  obtain ⟨head, os, hordered⟩ := (h.mono fun _ _ => WriteOrder.chainOrder).ordered
  obtain ⟨hpresent, rest, hsplit, hrest⟩ := hordered.files hsees hfiles
  obtain ⟨w, hall⟩ := h.numbered
  refine ⟨?_, ⟨head, os, rest, hsplit, hordered.attested.chained,
    fun o ho => (hordered.content o ho).2, fun f hf => (hrest f hf).2⟩,
    fun r hr => hordered.verifyShard_quiet hsees hr⟩
  refine (sealedSegmentsIn_ascending hfiles).imp_of_mem fun {f g} hf hg hlt => ?_
  obtain ⟨c, hc, hwidth⟩ := hall f ((hpresent f).mp hf)
  obtain ⟨c', hc', hwidth'⟩ := hall g ((hpresent g).mp hg)
  refine ⟨c, c', Nat.lt_of_not_le fun hle => ?_, hc, hc'⟩
  exact absurd hlt (not_lt_of_ge (hc'.le hc (hwidth'.trans hwidth.symm) hle))

/-- A shard in which two segments were sealed. -/
def twoSealedWab : WabDir :=
  oneShard (sealedAll [originalTwo, originalOne]) [segmentTwo, segmentOne] (by decide)

theorem attest_follows_writer_two :
    sealedSegmentsIn twoSealedWab shardZero = .ok [segmentOne, segmentTwo] ∧
      (verifyShard .plain modDigest twoSealedWab .start shardZero).Quiet := by
  have hfiles : sealedSegmentsIn twoSealedWab shardZero = .ok [segmentOne, segmentTwo] := by
    decide +kernel
  have hone : Reached .plain modDigest shardZero WriteOrder (sealedAll [originalOne]) :=
    .step .start (.sealed (by decide +kernel) rfl rfl)
      ⟨1, (by decide +kernel : Numbered segmentOne 1), fun g hg => absurd rfl hg⟩
  have htwo : Reached .plain modDigest shardZero WriteOrder
      (sealedAll [originalTwo, originalOne]) := by
    refine .step hone (.sealed (by decide +kernel) rfl rfl)
      ⟨2, (by decide +kernel : Numbered segmentTwo 2), fun g hg => ?_⟩
    rw [List.mem_singleton.mp ((sealedAll_segment g [originalOne]).mpr hg)]
    exact ⟨1, by decide, (by decide +kernel : Numbered segmentOne 1), by decide⟩
  exact ⟨hfiles, (attest_follows_writer htwo (ShardFiles.sees_readable (by decide) fun f =>
    sealedAll_segment f [originalTwo, originalOne]) hfiles).2.2 .start ⟨rfl, rfl⟩⟩

/-! ### Nine digits -/

def lastOfEight : FileName := ⟨"seg_99999999.wab.sealed", by decide⟩
def firstOfNine : FileName := ⟨"seg_100000000.wab.sealed", by decide⟩

def lastChained : Original := chainedFrom lastOfEight [[7]] .origin

/-- The segment `99999999` is sealed and attested, and then `100000000` is sealed. -/
def ninthDigit : ShardFiles :=
  ((sealedAll [lastChained]).apply (.attested [(lastOfEight, lastChained.sidecar)])).apply
    (.sealed firstOfNine (sealedFile [[8]]).file)

def ninthDigitWab : WabDir := oneShard ninthDigit [firstOfNine, lastOfEight] (by decide)

/-- The walk comes to the newer segment first. -/
theorem wider_counter_first :
    Numbered lastOfEight 99999999 ∧ Numbered firstOfNine 100000000 ∧
      Reached .plain modDigest shardZero (fun _ _ => True) ninthDigit ∧
      Sees (ninthDigitWab.shard shardZero) ninthDigit ∧
      sealedSegmentsIn ninthDigitWab shardZero = .ok [firstOfNine, lastOfEight] := by
  let wab := oneShard (sealedAll [lastChained]) [lastOfEight] (by decide)
  have hsees : Sees (wab.shard shardZero) (sealedAll [lastChained]) :=
    ShardFiles.sees_readable (by decide) fun f => sealedAll_segment f [lastChained]
  have hfiles : sealedSegmentsIn wab shardZero = .ok [lastOfEight] := by decide +kernel
  have hrun : sealSegments .plain modDigest wab shardZero (fun _ => .ok ()) [lastOfEight] .origin
      = ([(lastOfEight, lastChained.sidecar)], .ok ()) := by decide +kernel
  have hreached : Reached .plain modDigest shardZero (fun _ _ => True) ninthDigit :=
    .step (.step (.step .start (.sealed (by decide +kernel) rfl rfl) trivial)
      (.attested hsees hfiles hrun) trivial) (.sealed (by decide +kernel) rfl rfl) trivial
  refine ⟨by decide +kernel, by decide +kernel, hreached, ShardFiles.sees_readable (by decide) ?_,
    by decide +kernel⟩
  exact fun f => sealedAll_segment f [chainedFrom firstOfNine [[8]] .origin, lastChained]

end Weir.Ctl

import Weir.Status.Lost

/-!
# Deleted lines

> `deleted_lines_hide_nothing_iff`: with lines deleted from the text of a scrape, whole
> families of `A` and lines of families of `B`, no condition that is active becomes inactive,
> exactly if `Harmless A B`.

That a harmless deletion hides nothing holds in any arithmetic (`Reduced.hides_nothing`). For
the other direction there is a text for each reading, whose values are integers that a double
represents.
-/

namespace Weir.Status

open Weir.Lib List

variable {F : F64}

/-! ## Deletion -/

/-- `part` is `lines` with lines deleted: no sample of a family of `A` is left, and every sample
that is deleted is of a family of `A` or `B`. Lines that hold no sample come and go. -/
inductive Deleted (F : F64) (A B : String → Prop) : List (List Char) → List (List Char) → Prop
  | nil : Deleted F A B [] []
  | keep {line : List Char} {lines part : List (List Char)}
      (h : ∀ x, parseLine F line = some x → ¬A x.name) (rest : Deleted F A B lines part) :
      Deleted F A B (line :: lines) (line :: part)
  | drop {line : List Char} {lines part : List (List Char)}
      (h : ∀ x, parseLine F line = some x → A x.name ∨ B x.name)
      (rest : Deleted F A B lines part) : Deleted F A B (line :: lines) part

theorem family_cons (x : Sample F) (s : Scrape F) (name : String) :
    Scrape.family (x :: s) name = if x.name = name then x :: s.family name else s.family name := by
  unfold Scrape.family
  by_cases h : x.name = name <;> simp [h]

theorem Deleted.reduced {A B : String → Prop} {lines part : List (List Char)}
    (h : Deleted F A B lines part) :
    Reduced A B (lines.filterMap (parseLine F)) (part.filterMap (parseLine F)) := by
  induction h with
  | nil => exact ⟨fun _ _ => rfl, fun _ _ _ => rfl⟩
  | @keep line lines part hkeep _ ih =>
    cases hline : parseLine F line with
    | none =>
      rw [filterMap_cons_none hline, filterMap_cons_none hline]
      exact ih
    | some x =>
      rw [filterMap_cons_some hline, filterMap_cons_some hline]
      refine ⟨fun name hA => ?_, fun name hA hB => ?_⟩
      · have hne : x.name ≠ name := by
          rintro rfl
          exact hkeep x hline hA
        rw [family_cons, if_neg hne]
        exact ih.gone name hA
      · rw [family_cons, family_cons, ih.same name hA hB]
  | @drop line lines part hdrop _ ih =>
    cases hline : parseLine F line with
    | none =>
      rw [filterMap_cons_none hline]
      exact ih
    | some x =>
      rw [filterMap_cons_some hline]
      refine ⟨ih.gone, fun name hA hB => ?_⟩
      have hne : x.name ≠ name := by
        rintro rfl
        rcases hdrop x hline with h | h
        · exact hA h
        · exact hB h
      rw [family_cons, if_neg hne]
      exact ih.same name hA hB

/-! ## A text for each reading -/

/-- A loss that hides a condition: the series that is lost, one that the condition needs but
that is no gate, so that it may be lost too, and the series that are left. -/
structure Loss where
  lost : Series
  either : Option Series
  left : List Series

namespace Series

@[simp] def phase (p : Phase) : Series := ⟨"weir_startup_phase", some ("phase", p.asStr), 1⟩

@[simp] def shardUp (id : String) (up : Nat) : Series :=
  ⟨"weir_wab_shard_up", some ("shard", id), up⟩

@[simp] def workerUp (id : String) (up : Nat) : Series :=
  ⟨"weir_worker_up", some ("worker", id), up⟩

@[simp] def drainState (d : DrainStateCode) : Series :=
  ⟨"weir_drain_state", some ("state", d.asStr), 1⟩

@[simp] def sinkHealth (h : SinkHealthCode) : Series :=
  ⟨"weir_sink_health", some ("state", h.asStr), 1⟩

@[simp] def sinkInfo (sinkType : String) : Series :=
  ⟨"weir_sink_info", some ("sink_type", sinkType), 1⟩

@[simp] def segmentAge (id : String) (secs : Nat) : Series :=
  ⟨"weir_wab_active_segment_age_seconds", some ("shard", id), secs⟩

@[simp] def plain (name : String) (n : Nat) : Series := ⟨name, none, n⟩

@[simp] def undelivered (n : Nat) : Series := plain "weir_wab_undelivered_segments" n

@[simp] def started (secs : Nat) : Series := plain "weir_start_time_seconds" secs

@[simp] def lastSuccess (secs : Nat) : Series :=
  plain "weir_sink_last_success_timestamp_seconds" secs

@[simp] def deadLetterBytes (n : Nat) : Series := plain "weir_dead_letter_bytes_on_disk" n

@[simp] def deadLetterMax (n : Nat) : Series := plain "weir_config_dead_letter_max_bytes" n

@[simp] def maxAge (n : Nat) : Series := plain "weir_config_segment_max_age_seconds" n

@[simp] def maxLifetime (n : Nat) : Series := plain "weir_config_segment_max_lifetime_seconds" n

@[simp] def recoveryFailed (n : Nat) : Series := plain "weir_recovery_segments_failed_total" n

@[simp] def copyFailed (n : Nat) : Series := plain "weir_recovery_quarantine_copy_failed_total" n

end Series

open Series in
/-- One loss for each reading, in their order. -/
def losses : List Loss := [
  ⟨phase .initializing, none, [phase .serving]⟩,
  ⟨workerUp "0" 0, none, [phase .serving, shardUp "0" 1]⟩,
  ⟨shardUp "0" 0, none, [phase .serving, shardUp "1" 1]⟩,
  ⟨workerUp "0" 0, none, [phase .serving, workerUp "1" 1]⟩,
  ⟨plain "weir_wab_cap_rejecting" 1, none, [plain "weir_wab_cap_rejecting" 0,
    plain "weir_wab_bytes_on_disk" 1, plain "weir_config_wab_max_bytes" 1]⟩,
  ⟨plain "weir_drain_paused" 1, none, [drainState .draining]⟩,
  ⟨drainState .blockedDeadLetterFull, none, [drainState .draining]⟩,
  ⟨undelivered 1, some (started 1), [undelivered 0, sinkHealth .healthy, drainState .draining]⟩,
  ⟨lastSuccess 1, none,
    [started 1000, undelivered 1, sinkHealth .healthy, drainState .draining]⟩,
  ⟨lastSuccess 1, none,
    [lastSuccess 1000, undelivered 1, sinkHealth .healthy, drainState .draining]⟩,
  ⟨started 1, none, [started 1000, undelivered 1, sinkHealth .healthy, drainState .draining]⟩,
  ⟨plain "weir_wab_oldest_undelivered_age_seconds" 901, none, [undelivered 1]⟩,
  ⟨sinkHealth .down, none, [sinkHealth .healthy]⟩,
  ⟨plain "weir_sink_consecutive_failures" 3, none, [sinkHealth .healthy]⟩,
  ⟨deadLetterBytes 80, none, [undelivered 1, sinkInfo "s3", deadLetterMax 100]⟩,
  ⟨deadLetterMax 100, some (deadLetterBytes 80),
    [deadLetterMax 1000, undelivered 1, sinkInfo "s3"]⟩,
  ⟨sinkInfo "noop", none, [sinkInfo "s3"]⟩,
  ⟨shardUp "0" 1, some (segmentAge "0" 3601),
    [shardUp "1" 1, sinkInfo "s3", undelivered 1, maxAge 0, maxLifetime 0]⟩,
  ⟨segmentAge "0" 3601, none,
    [shardUp "0" 1, sinkInfo "s3", undelivered 1, maxAge 0, maxLifetime 0]⟩,
  ⟨maxAge 0, some (segmentAge "0" 3601),
    [maxAge 1, shardUp "0" 1, sinkInfo "s3", undelivered 1, maxLifetime 0]⟩,
  ⟨maxLifetime 0, some (segmentAge "0" 3601),
    [maxLifetime 1, shardUp "0" 1, sinkInfo "s3", undelivered 1, maxAge 0]⟩,
  ⟨plain "weir_quarantine_bytes_on_disk" 1, none, [undelivered 1]⟩,
  ⟨recoveryFailed 1, none, [recoveryFailed 0, copyFailed 0]⟩,
  ⟨copyFailed 1, none, [recoveryFailed 0, copyFailed 0]⟩]

/-- What is lost is of the reading's series, and what is left of its gates. -/
theorem losses_fit : readings.length = losses.length ∧ ∀ p ∈ readings.zip losses,
    p.2.lost.name = p.1.series ∧ ∀ x ∈ p.2.left, x.name ∈ p.1.gates := by
  decide

/-- The samples of series. -/
def samplesOf (F : F64) (xs : List Series) : Scrape F := xs.map (Series.sample F)

@[simp] theorem scalar_samplesOf_nil (name : String) : (samplesOf F []).scalar name = none := rfl

@[simp] theorem scalar_samplesOf_cons (x : Series) (xs : List Series) (name : String) :
    (samplesOf F (x :: xs)).scalar name
      = if x.name = name ∧ x.label = none then some (F.ofU64 x.value)
        else (samplesOf F xs).scalar name := by
  unfold Scrape.scalar samplesOf
  obtain ⟨n, label, value⟩ := x
  cases label <;> by_cases h : n = name <;> simp [Series.sample, h]

@[simp] theorem oneHot_samplesOf_nil (name label : String) :
    (samplesOf F []).oneHot name label = none := rfl

@[simp] theorem labelled_samplesOf_nil (name label : String) :
    (samplesOf F []).labelled name label = [] := rfl

@[simp] theorem labelled_samplesOf_cons (x : Series) (xs : List Series) (name label : String) :
    (samplesOf F (x :: xs)).labelled name label
      = if x.name = name ∧ x.label.any (fun l => l.1 = label) then
          (x.label.elim "" Prod.snd, F.ofU64 x.value) :: (samplesOf F xs).labelled name label
        else (samplesOf F xs).labelled name label := by
  unfold Scrape.labelled samplesOf
  obtain ⟨n, l, value⟩ := x
  by_cases hn : n = name
  · cases l with
    | none => simp [Series.sample, hn, Scrape.labelOf, filterMap_cons]
    | some l => by_cases hl : l.1 = label <;> simp [Series.sample, hn, Scrape.labelOf, hl]
  · simp [Series.sample, hn]

theorem oneHot_samplesOf_cons (hF : F.Exact) (x : Series) (xs : List Series) (name label : String)
    (hx : x.value < 2 ^ 53) :
    (samplesOf F (x :: xs)).oneHot name label
      = if x.name = name ∧ x.label.any (fun l => l.1 = label) ∧ 1 ≤ x.value then
          some (x.label.elim "" Prod.snd)
        else (samplesOf F xs).oneHot name label := by
  unfold Scrape.oneHot
  rw [labelled_samplesOf_cons]
  by_cases hread : x.name = name ∧ x.label.any (fun l => l.1 = label)
  · rw [if_pos hread, find?_cons]
    rw [hF.le 1 (by decide) x.value hx]
    by_cases hone : 1 ≤ x.value
    · rw [decide_eq_true hone, if_pos ⟨hread.1, hread.2, hone⟩]
      rfl
    · rw [decide_eq_false hone, if_neg fun h => hone h.2.2]
  · rw [if_neg hread, if_neg fun h => hread ⟨h.1, h.2.1⟩]

theorem findNamed_phase (p : Phase) : findNamed Phase.all Phase.asStr p.asStr = some p := by
  cases p <;> rfl

theorem findNamed_drainState (d : DrainStateCode) :
    findNamed DrainStateCode.all DrainStateCode.asStr d.asStr = some d := by
  cases d <;> rfl

theorem findNamed_sinkHealth (h : SinkHealthCode) :
    findNamed SinkHealthCode.all SinkHealthCode.asStr h.asStr = some h := by
  cases h <;> rfl

/-- The time of the texts, in milliseconds. -/
def scrapedAt : Nat := 1000000

/-! ## Evaluating a text -/

/-- What may be left of the text. -/
def Loss.parts (l : Loss) : List (List Series) := l.left :: l.either.toList.map (· :: l.left)

/-- With the series the condition is active, without it it is not. -/
def Hides (F : F64) (c : ConditionCode) (l : Loss) : Prop :=
  truth c (evidenceOf (samplesOf F (l.lost :: (l.either.toList ++ l.left))) scrapedAt)
      (Thresholds.default F) = some true ∧
    ∀ part ∈ l.parts,
      truth c (evidenceOf (samplesOf F part) scrapedAt) (Thresholds.default F) = some false

theorem readUp_zero : Lock.parseUnsigned 65536 ['0'] = some 0 := by decide

theorem readUp_one : Lock.parseUnsigned 65536 ['1'] = some 1 := by decide

theorem losses_hide (hF : F.Exact) : ∀ p ∈ readings.zip losses, Hides F p.1.code p.2 := by
  simp only [readings, losses, zip_cons_cons, zip_nil_left, forall_mem_cons]
  -- the phase, the shards and the workers
  iterate 4
    refine ⟨by simp [Hides, Loss.parts, truth, oneHot_samplesOf_cons hF, phaseOf, findNamed_phase,
      shardsOf, shardOf, workersOf, hF.le, readUp_zero, readUp_one, toU16, Phase.beforeServing,
      ShardEvidence.ingestCapable], ?_⟩
  -- the cap and the drain
  iterate 3
    refine ⟨by simp [Hides, Loss.parts, truth, oneHot_samplesOf_cons hF, wabCapOf, drainOf,
      drainStateOf, findNamed_drainState, hF.le], ?_⟩
  -- the delivery
  iterate 5
    refine ⟨by simp [Hides, Loss.parts, truth, oneHot_samplesOf_cons hF, drainOf, drainStateOf,
      findNamed_drainState, sinkOf, sinkHealthOf, findNamed_sinkHealth, backlogOf, countOf,
      deliveryIsStalled, positive, Option.filter, ms, hF.lt, hF.mul, hF.toU64, ageMs, scrapedAt,
      Evidence.empty, Thresholds.default], ?_⟩
  -- the sink
  iterate 2
    refine ⟨by simp [Hides, Loss.parts, truth, oneHot_samplesOf_cons hF, sinkOf, sinkHealthOf,
      findNamed_sinkHealth, countOf, hF.toU64, Thresholds.default], ?_⟩
  -- the dead letters
  iterate 2
    refine ⟨by simp [Hides, Loss.parts, truth, backlogOf, countOf, hF.toU64,
      oneHot_samplesOf_cons hF, configOf, fromView_deadLetterMaxBytes, saturatingMul, u64Max,
      Thresholds.default], ?_⟩
  -- the configuration of the sink, and the age of the active segments
  iterate 5
    refine ⟨by simp [Hides, Loss.parts, truth, backlogOf, countOf, hF.toU64,
      oneHot_samplesOf_cons hF, configOf, shardsOf, shardOf, hF.le, readUp_zero, readUp_one,
      fromView_wabSegmentMaxAgeSecs, fromView_wabSegmentMaxLifetimeSecs, lookup, hF.lt,
      Thresholds.default], ?_⟩
  -- the quarantine and the recovery
  iterate 3
    refine ⟨by simp [Hides, Loss.parts, truth, backlogOf, countOf, recentOf, hF.toU64], ?_⟩
  simp

/-! ## The texts -/

theorem losses_plain : ∀ l ∈ losses, ∀ x ∈ l.lost :: (l.either.toList ++ l.left), x.Plain := by
  have hall : ∀ l ∈ losses, ∀ x ∈ l.lost :: (l.either.toList ++ l.left),
      x.name.toList ≠ [] ∧ x.name.toList.all plainChar = true ∧
        x.label.all (fun l => l.1.toList.all plainChar && l.2.toList.all plainChar) = true ∧
        x.value < 2 ^ 53 := by
    decide +kernel
  intro l hl x hx
  obtain ⟨hne, hname, hlabel, hvalue⟩ := hall l hl x hx
  exact ⟨hne, hname, hlabel, hvalue⟩

section

variable {A B : String → Prop}

theorem Deleted.keep_series (hF : F.Exact) {xs : List Series} (hplain : ∀ x ∈ xs, x.Plain)
    (hkeep : ∀ x ∈ xs, ¬A x.name) : Deleted F A B (xs.map Series.line) (xs.map Series.line) := by
  induction xs with
  | nil => exact .nil
  | cons x xs ih =>
    rw [forall_mem_cons] at hplain hkeep
    refine .keep (fun y hy => ?_) (ih hplain.2 hkeep.2)
    rw [parseLine_line hF hplain.1] at hy
    rw [← Option.some.inj hy]
    exact hkeep.1

theorem Deleted.drop_series (hF : F.Exact) {x : Series} {lines part : List (List Char)}
    (hplain : x.Plain) (hdrop : A x.name ∨ B x.name) (rest : Deleted F A B lines part) :
    Deleted F A B (x.line :: lines) part := by
  refine .drop (fun y hy => ?_) rest
  rw [parseLine_line hF hplain] at hy
  rw [← Option.some.inj hy]
  exact hdrop

/-- Of a loss whose series may be lost while the gates are there, a part is left. -/
theorem Loss.deleted (hF : F.Exact) (l : Loss)
    (hplain : ∀ x ∈ l.lost :: (l.either.toList ++ l.left), x.Plain)
    (hlost : A l.lost.name ∨ B l.lost.name) (hleft : ∀ x ∈ l.left, ¬A x.name) :
    ∃ part ∈ l.parts, (∀ x ∈ part, x.Plain) ∧
      Deleted F A B ((l.lost :: (l.either.toList ++ l.left)).map Series.line)
        (part.map Series.line) := by
  obtain ⟨lost, either, left⟩ := l
  obtain ⟨hplainLost, hplain⟩ := List.forall_mem_cons.mp hplain
  cases either with
  | none =>
    refine ⟨left, mem_cons_self, hplain, ?_⟩
    exact Deleted.drop_series hF hplainLost hlost (Deleted.keep_series hF hplain hleft)
  | some x =>
    obtain ⟨hplainX, hplainLeft⟩ := List.forall_mem_cons.mp hplain
    by_cases hA : A x.name
    · refine ⟨left, mem_cons_self, hplainLeft, ?_⟩
      exact Deleted.drop_series hF hplainLost hlost
        (Deleted.drop_series hF hplainX (.inl hA) (Deleted.keep_series hF hplainLeft hleft))
    · refine ⟨x :: left, mem_cons_of_mem _ mem_cons_self, hplain, ?_⟩
      exact Deleted.drop_series hF hplainLost hlost
        (Deleted.keep_series hF hplain (List.forall_mem_cons.mpr ⟨hA, hleft⟩))

/-- A reading whose series is lost while its gates are there hides its condition. -/
theorem hidden_of_reading (hF : F.Exact) {r : Reading} (hr : r ∈ readings)
    (hlost : B r.series ∨ r.absentReads ∧ A r.series) (hgates : ∀ g ∈ r.gates, ¬A g) :
    ∃ full part : List Char, Deleted F A B (textLines full) (textLines part) ∧
      truth r.code (evidenceFromMetrics F full scrapedAt) (Thresholds.default F) = some true ∧
      truth r.code (evidenceFromMetrics F part scrapedAt) (Thresholds.default F) = some false := by
  obtain ⟨hlength, hfit⟩ := losses_fit
  obtain ⟨⟨r', l⟩, hzip, rfl⟩ : ∃ p ∈ readings.zip losses, p.1 = r := by
    rw [← mem_map, map_fst_zip (le_of_eq hlength)]
    exact hr
  obtain ⟨hseries, hleft⟩ := hfit _ hzip
  obtain ⟨hactive, hinactive⟩ := losses_hide hF _ hzip
  have hplain := losses_plain l (of_mem_zip hzip).2
  have hlost' : A l.lost.name ∨ B l.lost.name := by
    rw [hseries]
    exact hlost.elim .inr fun h => .inl h.2
  obtain ⟨part, hpart, hplainPart, hdeleted⟩ := l.deleted hF hplain hlost'
    fun x hx => hgates x.name (hleft x hx)
  refine ⟨renderSeries (l.lost :: (l.either.toList ++ l.left)), renderSeries part, ?_, ?_, ?_⟩
  · rw [textLines_renderSeries hplain, textLines_renderSeries hplainPart]
    exact hdeleted
  · rw [evidenceFromMetrics, parse_renderSeries hF hplain]
    exact hactive
  · rw [evidenceFromMetrics, parse_renderSeries hF hplainPart]
    exact hinactive part hpart

end

/-- Of the lines of a scrape, those of the families of `A` may be deleted altogether, and any of
the families of `B`, without a condition that is active becoming inactive, exactly if no
series that decides a condition is lost while the condition's gates are there. -/
theorem deleted_lines_hide_nothing_iff (hF : F.Exact) (A B : String → Prop) :
    (∀ (full part : List Char) (now : Nat) (t : Thresholds F) (c : ConditionCode),
      Deleted F A B (textLines full) (textLines part) →
      (∃ fired, rule c (evidenceFromMetrics F full now) t = .active fired) →
      rule c (evidenceFromMetrics F part now) t ≠ .inactive) ↔ Harmless A B := by
  constructor
  · intro hprop r hr hlost
    by_contra hno
    have hgates : ∀ g ∈ r.gates, ¬A g := fun g hg hA => hno ⟨g, hg, hA⟩
    obtain ⟨full, part, hdeleted, hactive, hinactive⟩ := hidden_of_reading hF hr hlost hgates
    rw [← rule_kind] at hactive hinactive
    exact hprop full part scrapedAt (Thresholds.default F) r.code hdeleted
      (Outcome.kind_eq_true.mp hactive) (Outcome.kind_eq_false.mp hinactive)
  · intro hsafe full part now t c hdeleted hactive hinactive
    have htrue := Outcome.kind_eq_true.mpr hactive
    have hfalse := Outcome.kind_eq_false.mpr hinactive
    rw [rule_kind] at htrue hfalse
    exact hdeleted.reduced.hides_nothing hsafe now t c hfalse htrue

/-- The quarantine may be lost together with the backlog. -/
theorem deleted_lines_hide_nothing_iff_backlog :
    natF64.Exact ∧ ∀ (full part : List Char) (now : Nat) (t : Thresholds natF64)
      (c : ConditionCode),
      Deleted natF64
        (· ∈ ["weir_wab_undelivered_segments", "weir_quarantine_bytes_on_disk"]) (· ∈ [])
        (textLines full) (textLines part) →
      (∃ fired, rule c (evidenceFromMetrics natF64 full now) t = .active fired) →
      rule c (evidenceFromMetrics natF64 part now) t ≠ .inactive := by
  refine ⟨natF64_exact, (deleted_lines_hide_nothing_iff natF64_exact _ _).mpr ?_⟩
  unfold Harmless
  decide

/-- A scrape of a daemon with something in its quarantine, and the line that says so deleted. -/
def quarantineScrape : List Char :=
  "weir_wab_undelivered_segments 1\nweir_quarantine_bytes_on_disk 5\n".toList

def quarantineLost : List Char := "weir_wab_undelivered_segments 1\n".toList

/-- Without its line the quarantine reads as empty. -/
theorem quarantine_line_hidden :
    (textLines quarantineLost).Sublist (textLines quarantineScrape) ∧
      (∃ fired, rule .quarantineNonempty (evidenceFromMetrics natF64 quarantineScrape 0)
        (Thresholds.default natF64) = .active fired) ∧
      rule .quarantineNonempty (evidenceFromMetrics natF64 quarantineLost 0)
        (Thresholds.default natF64) = .inactive :=
  ⟨by decide +kernel, Outcome.kind_eq_true.mp (by decide +kernel),
    Outcome.kind_eq_false.mp (by decide +kernel)⟩

end Weir.Status

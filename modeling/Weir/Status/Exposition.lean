import Weir.Status.Rules

/-!
# Evidence from a scrape (`weir-status/src/exposition.rs`)

The text of a metrics scrape is read line by line into samples, and the evidence is built of
them. The samples of one name are a family; whatever is read is read from one family.

> `parse_renderSeries`: series with integer values are read back as they are written.
-/

namespace Weir.Status

open Weir.Lib List

variable {F : F64}

/-! ## Lines -/

/-- `char::is_whitespace`. -/
def isSpace (c : Char) : Bool :=
  (0x9 ≤ c.toNat && c.toNat ≤ 0xd) || c.toNat = 0x20 || c.toNat = 0x85 || c.toNat = 0xa0
    || c.toNat = 0x1680 || (0x2000 ≤ c.toNat && c.toNat ≤ 0x200a) || c.toNat = 0x2028
    || c.toNat = 0x2029 || c.toNat = 0x202f || c.toNat = 0x205f || c.toNat = 0x3000

/-- `str::trim`. -/
def trim (s : List Char) : List Char := ((s.dropWhile isSpace).reverse.dropWhile isSpace).reverse

/-- `str::split_once` at a character: what is before its first occurrence, and behind it. -/
def splitAtChar (c : Char) : List Char → Option (List Char × List Char)
  | [] => none
  | x :: xs => if x = c then some ([], xs) else (splitAtChar c xs).map fun p => (x :: p.1, p.2)

/-- `str::rsplit_once` at a character. -/
def rsplitAtChar (c : Char) (s : List Char) : Option (List Char × List Char) :=
  (splitAtChar c s.reverse).map fun p => (p.2.reverse, p.1.reverse)

/-- `str::split_once("=\"")`. -/
def splitAtValue : List Char → Option (List Char × List Char)
  | [] => none
  | x :: xs =>
    if x = '=' ∧ xs.head? = some '"' then some ([], xs.tail)
    else (splitAtValue xs).map fun p => (x :: p.1, p.2)

/-- The loop of `parse_labels`. Each round takes off three characters or more, so there are
never more rounds than characters. -/
def labelsLoop : Nat → List Char → Option (List (String × String))
  | 0, rest => if rest = [] then some [] else none
  | rounds + 1, rest =>
    if rest = [] then some []
    else (splitAtValue rest).bind fun p => (splitAtChar '"' p.2).bind fun q =>
      let rest := if q.2.head? = some ',' then q.2.tail else q.2
      (labelsLoop rounds rest).map ((String.ofList p.1, String.ofList q.1) :: ·)

/-- `parse_labels`. -/
def parseLabels (body : List Char) : Option (List (String × String)) := labelsLoop body.length body

structure Sample (F : F64) where
  name : String
  labels : List (String × String)
  value : F.Val

/-- `parse_line`. -/
def parseLine (F : F64) (line : List Char) : Option (Sample F) :=
  let line := trim line
  if line = [] ∨ line.head? = some '#' then none
  else (rsplitAtChar ' ' line).bind fun p => (F.parse p.2).bind fun value =>
    match splitAtChar '{' p.1 with
    | none => some ⟨String.ofList p.1, [], value⟩
    | some q =>
      if q.2.getLast? = some '}' then
        (parseLabels q.2.dropLast).map fun labels => ⟨String.ofList q.1, labels, value⟩
      else none

/-- `str::lines` of a text. -/
def textLines (body : List Char) : List (List Char) := Lock.linesFrom [] body

/-! ## Samples -/

abbrev Scrape (F : F64) := List (Sample F)

namespace Scrape

/-- `Scrape::parse`. -/
def parse (F : F64) (body : List Char) : Scrape F := (textLines body).filterMap (parseLine F)

/-- `Scrape::scalar`. -/
def scalar (s : Scrape F) (name : String) : Option F.Val :=
  (s.find? fun x => x.name = name ∧ x.labels = []).map Sample.value

/-- The value of a label of a sample, with the sample's own. -/
def labelOf (label : String) (x : Sample F) : Option (String × F.Val) :=
  (x.labels.find? fun l => l.1 = label).map fun l => (l.2, x.value)

/-- `Scrape::labelled`. -/
def labelled (s : Scrape F) (name label : String) : List (String × F.Val) :=
  (s.filter fun x => x.name = name).filterMap (labelOf label)

/-- `Scrape::one_hot`. -/
def oneHot (s : Scrape F) (name label : String) : Option String :=
  ((s.labelled name label).find? fun x => F.le (F.ofU64 1) x.2).map Prod.fst

end Scrape

/-- `ms`. -/
def ms (secs : F.Val) : Nat := F.toU64 (F.mul secs (F.ofU64 1000))

/-- `find`. -/
def findNamed {α : Type} (all : List α) (name : α → String) (s : String) : Option α :=
  all.find? fun v => name v = s

/-- A value that is positive. -/
def positive (o : Option F.Val) : Option F.Val := o.filter fun v => F.lt (F.ofU64 0) v

/-- A count, zero without a sample. -/
def countOf (o : Option F.Val) : Nat := o.elim 0 F.toU64

/-! ## Evidence -/

def phaseOf (s : Scrape F) : Option Phase :=
  (s.oneHot "weir_startup_phase" "phase").bind (findNamed Phase.all Phase.asStr)

/-- The workers whose number can be read, and whether they are up. -/
def workersOf (s : Scrape F) : List (Nat × Bool) :=
  (s.labelled "weir_worker_up" "worker").filterMap fun x =>
    (Lock.parseUnsigned (2 ^ 16) x.1.toList).map fun id => (id, F.le (F.ofU64 1) x.2)

/-- `lookup`. -/
def lookup (set : List (String × F.Val)) (id : String) : Option F.Val :=
  (set.find? fun x => x.1 = id).map Prod.snd

/-- One series of `weir_wab_shard_up`. -/
def shardOf (phase : Option Phase) (workers : List (Nat × Bool))
    (blocked ages : List (String × F.Val)) (now : Nat) (x : String × F.Val) :
    Option (ShardEvidence F) :=
  (Lock.parseUnsigned (2 ^ 16) x.1.toList).map fun id =>
    let wc := toU16 workers.length
    { id := id
      state :=
        if F.le (F.ofU64 1) x.2 then .up
        else if phase.any Phase.beforeServing then .starting
        else .offline
      reason := none
      sinceUnixMs := now
      respawns := 0
      workerRunning := wc = 0 || workers.any fun w => w.1 = id % wc && w.2
      handoffBlockedSinceUnixMs := (positive (lookup blocked x.1)).map fun v => now - ms v
      activeSegmentAgeSecs := lookup ages x.1 }

def shardsOf (s : Scrape F) (now : Nat) : Option (List (ShardEvidence F)) :=
  let shardUp := s.labelled "weir_wab_shard_up" "shard"
  if shardUp = [] then none
  else
    let blocked := s.labelled "weir_wab_handoff_blocked_seconds" "shard"
    let ages := s.labelled "weir_wab_active_segment_age_seconds" "shard"
    some (shardUp.filterMap (shardOf (phaseOf s) (workersOf s) blocked ages now))

def wabCapOf (s : Scrape F) : Option CapEvidence :=
  (s.scalar "weir_wab_cap_rejecting").bind fun rej =>
    (s.scalar "weir_wab_bytes_on_disk").bind fun bytes =>
      (s.scalar "weir_config_wab_max_bytes").map fun max =>
        { maxBytes := F.toU64 max
          lowWaterBytes := F.toU64 max / 10 * 9
          bytesNow := F.toU64 bytes
          rejecting := F.le (F.ofU64 1) rej
          firstScanOkUnixMs := none
          lastScanOkUnixMs := none
          growingUnbounded := none }

def drainStateOf (s : Scrape F) : Option DrainStateCode :=
  (s.oneHot "weir_drain_state" "state").bind (findNamed DrainStateCode.all DrainStateCode.asStr)

def drainOf (s : Scrape F) (now : Nat) : Option (DrainEvidence F) :=
  (drainStateOf s).map fun state =>
    let paused := (s.scalar "weir_drain_paused").any fun v => F.le (F.ofU64 1) v
    let queue := s.labelled "weir_drain_pending_segments" "queue"
    let heartbeat := s.scalar "weir_drain_heartbeat_age_seconds"
    let busy := ((s.labelled "weir_drain_busy_seconds" "kind").find? fun x =>
      F.lt (F.ofU64 0) x.2).map fun x =>
        (⟨x.1 = "sink_commit" || x.1 = "sink_probe", now - ms x.2⟩ : BusyEvidence)
    { state := state
      stateSinceUnixMs := now
      pauseRequested := paused
      paused := paused
      held := false
      pausedSinceUnixMs := none
      pausedByUid := none
      generation := countOf (s.scalar "weir_drain_generation")
      observedRequeue := 0
      inFlight := none
      commitInFlightSinceUnixMs :=
        (positive (s.scalar "weir_drain_commit_in_flight_seconds")).map fun v => now - ms v
      busy := busy
      lastProgressUnixMs := heartbeat.map fun v => now - ms v
      heartbeatAgeSecs := heartbeat
      pendingSegments := countOf (lookup queue "live")
      backlogSegments := countOf (lookup queue "backlog")
      replayTotal := 0
      replayRemaining := countOf (s.scalar "weir_drain_replay_remaining_segments")
      blockedSinceUnixMs :=
        (positive (s.scalar "weir_dead_letter_blocked_duration_seconds")).map fun v => now - ms v
      lastRequeue := none
      exit :=
        if state = .stopped then
          if phaseOf s = some .shuttingDown then .stopped else .gaveUp
        else .running
      lastPanic := none }

def sinkHealthOf (s : Scrape F) : Option SinkHealthCode :=
  (s.oneHot "weir_sink_health" "state").bind (findNamed SinkHealthCode.all SinkHealthCode.asStr)

def sinkOf (s : Scrape F) : Option SinkEvidence :=
  (sinkHealthOf s).map fun h =>
    let failures := s.labelled "weir_sink_last_failure_timestamp_seconds" "kind"
    let last := maxByValue (failures.filter fun x => F.lt (F.ofU64 0) x.2)
    { health := some h
      healthSinceUnixMs := none
      lastSuccessUnixMs :=
        (positive (s.scalar "weir_sink_last_success_timestamp_seconds")).map ms
      lastFailureUnixMs := last.map fun x => ms x.2
      lastFailureKind :=
        last.bind fun x => findNamed SinkFailureKind.all SinkFailureKind.asStr x.1
      consecutiveFailures := countOf (s.scalar "weir_sink_consecutive_failures")
      lastError := none
      probeReason := none }

def backlogOf (s : Scrape F) (now : Nat) : Option (BacklogEvidence F) :=
  (s.scalar "weir_wab_undelivered_segments").map fun segments =>
    { undeliveredSegments := F.toU64 segments
      undeliveredRecords := countOf (s.scalar "weir_wab_undelivered_records")
      oldestUndeliveredAgeSecs := positive (s.scalar "weir_wab_oldest_undelivered_age_seconds")
      deadLetterBytes := countOf (s.scalar "weir_dead_letter_bytes_on_disk")
      deadLetterMaxBytes := (s.scalar "weir_config_dead_letter_max_bytes").map F.toU64
      quarantineBytes := countOf (s.scalar "weir_quarantine_bytes_on_disk")
      quarantineFiles := 0
      scannedAtMs := now }

/-- Only absolute counters: one scrape has no window. -/
def recentOf (s : Scrape F) : RecentCounters where
  ackTimeouts5m := none
  fsyncFailures15m := none
  flusherPanics15m := none
  strandedSinceLastSuccess := none
  drainPanicsTotal := (s.scalar "weir_drain_panics_total").map F.toU64
  recoverySegmentsFailed := (s.scalar "weir_recovery_segments_failed_total").map F.toU64
  recoveryQuarantineCopyFailed :=
    (s.scalar "weir_recovery_quarantine_copy_failed_total").map F.toU64
  coalesceEwmaUs := none

/-- The keys of the configuration view, with the metric that each is read from. -/
def configMetrics : List (String × String) :=
  [("wab_max_bytes", "weir_config_wab_max_bytes"),
    ("dead_letter_max_bytes", "weir_config_dead_letter_max_bytes"),
    ("wab_segment_max_bytes", "weir_config_wab_segment_max_bytes"),
    ("wab_segment_max_age_secs", "weir_config_segment_max_age_seconds"),
    ("wab_segment_max_lifetime_secs", "weir_config_segment_max_lifetime_seconds"),
    ("sink_max_retries", "weir_config_sink_max_retries"),
    ("shutdown_timeout_secs", "weir_config_shutdown_timeout_seconds"),
    ("drain_shutdown_budget_secs", "weir_config_drain_shutdown_budget_seconds")]

/-- An entry of the view, if there is a value. -/
def withEntry (key : String) (v : Option Nat) (view : Table ConfigValue) : Table ConfigValue :=
  v.elim view fun n => view.insert key (.u64 n)

def viewOf (s : Scrape F) (now : Nat) : Table ConfigValue :=
  let scalars : Table ConfigValue := configMetrics.foldl (fun view m =>
    withEntry m.1 ((s.scalar m.2).map F.toU64) view) []
  let workers := workersOf s
  withEntry "worker_count" (if workers = [] then none else some workers.length)
    (withEntry "shard_count" ((shardsOf s now).map List.length) scalars)

def configOf (s : Scrape F) (now : Nat) : Option ConfigEvidence :=
  (s.oneHot "weir_sink_info" "sink_type").map fun sinkType =>
    { sinkType := sinkType
      commitTimeoutSecs := none
      publicConfig := PublicConfig.fromView (viewOf s now)
      view := viewOf s now }

/-- What `evidence_from_metrics` builds of the samples. -/
@[simps] def evidenceOf (s : Scrape F) (now : Nat) : Evidence F :=
  { Evidence.empty F now .metrics with
    startedAtUnixMs := (s.scalar "weir_start_time_seconds").map ms
    phase := phaseOf s
    shuttingDown := (phaseOf s).map fun p => decide (p = .shuttingDown)
    everServed := if phaseOf s = some .serving then some true else none
    -- the listeners are not exported, but a daemon that is ready has none down
    listeners :=
      if (s.scalar "weir_ready").any fun v => F.le (F.ofU64 1) v then some [] else none
    workers :=
      if workersOf s = [] then none
      else some ((workersOf s).map fun w =>
        { id := w.1
          running := w.2
          exitedAtUnixMs := if !w.2 && phaseOf s = some .serving then some now else none })
    shards := shardsOf s now
    wabCap := wabCapOf s
    drain := drainOf s now
    sink := sinkOf s
    backlog := backlogOf s now
    recent := some (recentOf s)
    config := configOf s now }

/-- `evidence_from_metrics`. -/
def evidenceFromMetrics (F : F64) (body : List Char) (now : Nat) : Evidence F :=
  evidenceOf (Scrape.parse F body) now

/-! ## A series is read back as it is written -/

/-- A series with an integer value. -/
structure Series where
  name : String
  label : Option (String × String)
  value : Nat
  deriving DecidableEq

namespace Series

def labelText : Option (String × String) → List Char
  | none => []
  | some l => '{' :: (l.1.toList ++ '=' :: '"' :: (l.2.toList ++ ['"', '}']))

/-- The line of a series. -/
def line (x : Series) : List Char :=
  x.name.toList ++ labelText x.label ++ ' ' :: Nat.toDigits 10 x.value

def sample (F : F64) (x : Series) : Sample F := ⟨x.name, x.label.toList, F.ofU64 x.value⟩

end Series

/-- The text of a scrape. -/
def renderSeries (xs : List Series) : List Char := xs.flatMap fun x => x.line ++ ['\n']

/-- Letters, digits and the underscore. -/
def plainChar (c : Char) : Bool :=
  (0x30 ≤ c.toNat && c.toNat ≤ 0x39) || (0x41 ≤ c.toNat && c.toNat ≤ 0x5a) || c.toNat = 0x5f
    || (0x61 ≤ c.toNat && c.toNat ≤ 0x7a)

/-- Names and label values are words, and the value is exact. -/
structure Series.Plain (x : Series) : Prop where
  nonempty : x.name.toList ≠ []
  name : x.name.toList.all plainChar = true
  label : x.label.all (fun l => l.1.toList.all plainChar && l.2.toList.all plainChar) = true
  value : x.value < 2 ^ 53

variable {c : Char} {x : List Char}

theorem isSpace_of_plain (h : plainChar c = true) : isSpace c = false := by
  unfold plainChar at h
  unfold isSpace
  simp only [Bool.or_eq_true, Bool.and_eq_true, decide_eq_true_eq] at h
  simp only [Bool.or_eq_false_iff, Bool.and_eq_false_iff, decide_eq_false_iff_not]
  omega

theorem not_mem_plain {xs : List Char} (hxs : xs.all plainChar = true)
    (hc : plainChar c = false) : c ∉ xs := by
  intro hmem
  rw [all_eq_true.mp hxs c hmem] at hc
  cases hc

theorem plain_digits (n : Nat) : (Nat.toDigits 10 n).all plainChar = true := by
  rw [all_eq_true]
  intro c hc
  have hdigit := Nat.isDigit_of_mem_toDigits (by decide) (by decide) hc
  unfold Char.isDigit at hdigit
  unfold plainChar
  simp only [Bool.and_eq_true, decide_eq_true_eq, UInt32.le_iff_toNat_le] at hdigit
  simp only [Bool.or_eq_true, Bool.and_eq_true, decide_eq_true_eq]
  exact .inl (.inl (.inl hdigit))

theorem digits_ne_nil (n : Nat) : Nat.toDigits 10 n ≠ [] := by
  intro h
  have hlen := Nat.length_toDigits_pos (b := 10) (n := n)
  rw [h] at hlen
  exact lt_irrefl 0 hlen

theorem splitAtChar_append (h : c ∉ x) (y : List Char) :
    splitAtChar c (x ++ c :: y) = some (x, y) := by
  induction x with
  | nil => rw [nil_append, splitAtChar, if_pos rfl]
  | cons a x ih =>
    rw [mem_cons, not_or] at h
    rw [cons_append, splitAtChar, if_neg (Ne.symm h.1), ih h.2]
    rfl

theorem splitAtChar_none (h : c ∉ x) : splitAtChar c x = none := by
  induction x with
  | nil => rfl
  | cons a x ih =>
    rw [mem_cons, not_or] at h
    rw [splitAtChar, if_neg (Ne.symm h.1), ih h.2]
    rfl

theorem rsplitAtChar_append {y : List Char} (h : c ∉ y) (x : List Char) :
    rsplitAtChar c (x ++ c :: y) = some (x, y) := by
  have hrev : (x ++ c :: y).reverse = y.reverse ++ c :: x.reverse := by simp
  rw [rsplitAtChar, hrev, splitAtChar_append (by simpa using h), Option.map_some,
    reverse_reverse, reverse_reverse]

theorem splitAtValue_append {k : List Char} (h : '=' ∉ k) (y : List Char) :
    splitAtValue (k ++ '=' :: '"' :: y) = some (k, y) := by
  induction k with
  | nil => rw [nil_append, splitAtValue, if_pos ⟨rfl, rfl⟩]; rfl
  | cons a k ih =>
    rw [mem_cons, not_or] at h
    rw [cons_append, splitAtValue, if_neg fun ha => h.1 ha.1.symm, ih h.2]
    rfl

/-- There is nothing to trim. -/
theorem trim_eq {y : List Char} {a b : Char} (ha : isSpace a = false) (hb : isSpace b = false)
    (hx : x ++ [b] = a :: y) : trim (x ++ [b]) = x ++ [b] := by
  unfold trim
  have hfirst : (x ++ [b]).dropWhile isSpace = x ++ [b] := by
    rw [hx, dropWhile_cons_of_neg (by rw [ha]; exact Bool.false_ne_true)]
  rw [hfirst, reverse_append, reverse_singleton, singleton_append,
    dropWhile_cons_of_neg (by rw [hb]; exact Bool.false_ne_true)]
  simp

theorem parseLabels_labelText {l : String × String} (hk : l.1.toList.all plainChar = true)
    (hv : l.2.toList.all plainChar = true) :
    parseLabels (l.1.toList ++ '=' :: '"' :: (l.2.toList ++ ['"'])) = some [l] := by
  obtain ⟨k, v⟩ := l
  have hlen : (k.toList ++ '=' :: '"' :: (v.toList ++ ['"'])).length
      = (k.toList.length + v.toList.length + 2) + 1 := by
    simp
    omega
  have hne : k.toList ++ '=' :: '"' :: (v.toList ++ ['"']) ≠ [] := by simp
  rw [parseLabels, hlen, labelsLoop, if_neg hne,
    splitAtValue_append (not_mem_plain hk (by decide)), Option.bind_some]
  rw [splitAtChar_append (not_mem_plain hv (by decide)), Option.bind_some]
  simp [labelsLoop, String.ofList_toList]

/-- A line that is written is read back. -/
theorem parseLine_line (hF : F.Exact) {x : Series} (h : x.Plain) :
    parseLine F x.line = some (x.sample F) := by
  obtain ⟨name, label, value⟩ := x
  obtain ⟨hnonempty, hname, hlabel, hvalue⟩ := h
  obtain ⟨a, rest, hfirst⟩ := exists_cons_of_ne_nil hnonempty
  have ha : plainChar a = true :=
    all_eq_true.mp hname a (by rw [hfirst]; exact mem_cons_self)
  obtain ⟨ds, b, hlast⟩ : ∃ ds b, Nat.toDigits 10 value = ds ++ [b] :=
    ⟨_, _, (dropLast_append_getLast (digits_ne_nil value)).symm⟩
  have hb : plainChar b = true :=
    all_eq_true.mp (plain_digits value) b (by rw [hlast]; simp)
  have htrim : trim (Series.line ⟨name, label, value⟩) = Series.line ⟨name, label, value⟩ := by
    have hline : Series.line ⟨name, label, value⟩
        = (name.toList ++ Series.labelText label ++ ' ' :: ds) ++ [b] := by
      simp [Series.line, hlast]
    rw [hline]
    refine trim_eq (isSpace_of_plain ha) (isSpace_of_plain hb)
      (show _ = a :: (rest ++ Series.labelText label ++ ' ' :: ds ++ [b]) from ?_)
    simp [hfirst]
  have hstart : ¬(Series.line ⟨name, label, value⟩ = [] ∨
      (Series.line ⟨name, label, value⟩).head? = some '#') := by
    have hne : a ≠ '#' := by
      rintro rfl
      cases ha
    simp [Series.line, hfirst, hne]
  have hsplit : rsplitAtChar ' ' (Series.line ⟨name, label, value⟩)
      = some (name.toList ++ Series.labelText label, Nat.toDigits 10 value) :=
    rsplitAtChar_append (not_mem_plain (plain_digits value) (by decide)) _
  rw [parseLine, htrim]
  rw [if_neg hstart, hsplit, Option.bind_some, hF.parse value hvalue, Option.bind_some]
  cases label with
  | none =>
    have hbrace : splitAtChar '{' (name.toList ++ Series.labelText none) = none := by
      rw [Series.labelText, append_nil]
      exact splitAtChar_none (not_mem_plain hname (by decide))
    rw [hbrace]
    simp [Series.labelText, Series.sample]
  | some l =>
    rw [Option.all_some, Bool.and_eq_true] at hlabel
    have hbrace : splitAtChar '{' (name.toList ++ Series.labelText (some l))
        = some (name.toList, (l.1.toList ++ '=' :: '"' :: (l.2.toList ++ ['"'])) ++ ['}']) := by
      rw [Series.labelText, splitAtChar_append (not_mem_plain hname (by decide))]
      simp
    rw [hbrace]
    dsimp only
    rw [getLast?_concat, if_pos rfl, dropLast_concat,
      parseLabels_labelText hlabel.1 hlabel.2, Option.map_some]
    simp [Series.sample]

theorem Series.Plain.oneLine {x : Series} (h : x.Plain) : ∀ c ∈ x.line, c ≠ '\n' ∧ c ≠ '\r' := by
  have hplain : ∀ {xs : List Char}, xs.all plainChar = true →
      ∀ c ∈ xs, c ≠ '\n' ∧ c ≠ '\r' := by
    intro xs hxs c hc
    constructor <;> rintro rfl
    · exact not_mem_plain hxs (by decide) hc
    · exact not_mem_plain hxs (by decide) hc
  have hlabel : ∀ c ∈ Series.labelText x.label, c ≠ '\n' ∧ c ≠ '\r' := by
    have hall := h.label
    cases hl : x.label with
    | none => intro c hc; cases hc
    | some l =>
      rw [hl, Option.all_some, Bool.and_eq_true] at hall
      intro c hc
      simp only [Series.labelText, mem_cons, mem_append, not_mem_nil, or_false] at hc
      rcases hc with rfl | hc | rfl | rfl | hc | rfl | rfl
      · decide
      · exact hplain hall.1 c hc
      · decide
      · decide
      · exact hplain hall.2 c hc
      · decide
      · decide
  intro c hc
  simp only [Series.line, mem_append, mem_cons] at hc
  rcases hc with (hc | hc) | rfl | hc
  · exact hplain h.name c hc
  · exact hlabel c hc
  · decide
  · exact hplain (plain_digits x.value) c hc

theorem textLines_renderSeries {xs : List Series} (h : ∀ x ∈ xs, x.Plain) :
    textLines (renderSeries xs) = xs.map Series.line := by
  induction xs with
  | nil => rfl
  | cons x xs ih =>
    have hx := (h x mem_cons_self).oneLine
    have htext : renderSeries (x :: xs) = x.line ++ '\n' :: renderSeries xs := by
      simp [renderSeries]
    rw [htext, textLines, Lock.linesFrom_line (by simpa using hx), nil_append, ← textLines,
      ih fun y hy => h y (mem_cons_of_mem x hy), map_cons]

/-- A text that is written is read back. -/
theorem parse_renderSeries (hF : F.Exact) {xs : List Series} (h : ∀ x ∈ xs, x.Plain) :
    Scrape.parse F (renderSeries xs) = xs.map (Series.sample F) := by
  rw [Scrape.parse, textLines_renderSeries h, filterMap_map, ← filterMap_eq_map]
  refine filterMap_congr fun x hx => ?_
  exact parseLine_line hF (h x hx)

end Weir.Status

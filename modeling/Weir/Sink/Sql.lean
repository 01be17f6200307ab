import Mathlib.Data.List.DropRight
import Mathlib.Data.List.Sort
import Weir.Lib.Program
import Weir.Sink.Batch

/-!
# SQL sinks: a batch and its duplicates (`weir-server/src/sink/sql_common.rs`)

A batch is one `INSERT`. In plain mode a duplicate key fails the whole statement, and
`insert_with_dup_fallback` finds out which rows are stored already: by one lookup of
their ids, and by splitting what still fails. The server is whoever answers the
statements (`SqlCall`); `bounded` asks the clock first.

> `bisect_spec`: the rows that are committed, the rows that are dead-lettered and the
> rows still on the stack are all the rows, and each statement takes one unit of the
> stack's weight.

> `plain_commit_partition`: so the fallback returns, and what it returns is a partition
> of the batch with a statement behind each row.
-/

namespace Weir.Sink

open Weir.Lib Weir.Wab Weir.Drain
open List hiding set

/-! ## Errors -/

inductive SqlSinkError
  | transient (driver reason : String)
  | permanent (driver reason : String)
  | timeout (driver : String)
  deriving DecidableEq, Repr

def SqlSinkError.display : SqlSinkError → String
  | .transient driver reason => driver ++ " sink transient: " ++ reason
  | .permanent driver reason => driver ++ " sink permanent: " ++ reason
  | .timeout driver => driver ++ " sink timeout"

/-- `SinkError::is_transient`. -/
def SqlSinkError.isTransient : SqlSinkError → Bool
  | .transient _ _ | .timeout _ => true
  | .permanent _ _ => false

inductive StmtError
  | dupKey (msg : String)
  | other (e : SqlSinkError)
  deriving DecidableEq, Repr

/-- The error the whole commit fails with, if the statement's failure is transient. -/
def StmtError.transient : StmtError → Option SqlSinkError
  | .dupKey _ => none
  | .other e => if e.isTransient then some e else none

def StmtError.message : StmtError → String
  | .dupKey msg => msg
  | .other e => e.display

/-- `per_record_id_hex`. -/
def perRecordIdHex (driver : String) (idColumn : Option String) (recordCount : Nat)
    (recordIds : Option (List RecordId)) : Except SqlSinkError (Option (List (List Char))) :=
  match idColumn with
  | none => .ok none
  | some idColumn =>
    let refuse (count : Nat) : Except SqlSinkError (Option (List (List Char))) :=
      .error (.permanent driver ("id column \"" ++ idColumn
        ++ "\" is configured but the batch carries " ++ toString count ++ " record ids for "
        ++ toString recordCount ++ " records; the drain always supplies one per record, so this "
        ++ "batch did not come from the drain"))
    match recordIds with
    | some ids => if ids.length = recordCount then .ok (some (ids.map toHex)) else refuse ids.length
    | none => refuse 0

/-! ## Statements -/

/-- A statement over the rows at some indices of the batch. -/
inductive Stmt
  | insert (rows : List Nat)
  | lookup (rows : List Nat)
  deriving DecidableEq, Repr

/-- What a statement returns: a lookup the ids it found. -/
abbrev Stmt.Answer : Stmt → Type
  | .insert _ => Unit
  | .lookup _ => List (List Char)

/-- What the fallback asks for. -/
inductive SqlCall
  | clock
  | stmt (s : Stmt)
  deriving DecidableEq, Repr

/-- The clock tells whether the deadline has passed; a statement that has not come back when it
does is `none`. -/
abbrev SqlCall.Answer : SqlCall → Type
  | .clock => Bool
  | .stmt s => Option (Except StmtError s.Answer)

abbrev Sql (α : Type) := Prog SqlCall SqlCall.Answer α

/-- `bounded`. -/
def bounded (driver : String) (s : Stmt) : Sql (Except StmtError s.Answer) := do
  let expired ← Prog.ask (R := SqlCall.Answer) .clock
  if expired then return .error (.other (.timeout driver))
  else
    let answer ← Prog.ask (R := SqlCall.Answer) (.stmt s)
    return answer.getD (.error (.other (.timeout driver)))

/-! ## The fallback -/

structure CommitResult where
  committed : List Bytes
  deadLettered : List (Bytes × String)
  deriving DecidableEq

/-- `trim_end_matches([' ', '\0'])`. -/
def trimPadding (id : List Char) : List Char := id.rdropWhile fun c => c = ' ' ∨ c = '\x00'

/-- Where the bisection starts: the rows that are committed already, the set that failed, and
how the lookup failed if it did. -/
structure Start where
  committed : List Nat
  toBisect : List Nat
  failure : Option StmtError
  lookupFailed : Option String

/-- Whether the lookup found the id of row `i`. -/
def idPresent (ids present : List (List Char)) (i : Nat) : Bool :=
  decide (ids.getD i [] ∈ present.map trimPadding)

/-- The insert of the rows whose ids were not found. -/
def insertRemainder (driver : String) (committed remainder : List Nat) :
    Sql (Except SqlSinkError Start) := do
  if remainder = [] then return .ok ⟨committed, [], none, none⟩
  else
    match ← bounded driver (.insert remainder) with
    | .ok () => return .ok ⟨committed ++ remainder, [], none, none⟩
    | .error err =>
      match err.transient with
      | some e => return .error e
      | none => return .ok ⟨committed, remainder, some err, none⟩

/-- The lookup of the ids, and the remainder. -/
def resolveIds (driver : String) (n : Nat) (ids : Option (List (List Char))) (firstDup : String) :
    Sql (Except SqlSinkError Start) :=
  match ids with
  | none => return .ok ⟨[], range n, some (.dupKey firstDup), none⟩
  | some ids => do
    match ← bounded driver (.lookup (range n)) with
    | .ok present =>
      insertRemainder driver ((range ids.length).filter (idPresent ids present))
        ((range ids.length).filter fun i => !idPresent ids present i)
    | .error err =>
      match err.transient with
      | some e => return .error e
      | none => return .ok ⟨[], range n, some (.dupKey firstDup), some err.message⟩

/-- `dup_reason`, and the reason of any other failure. -/
def failureReason (hasIds : Bool) (lookupFailed : Option String) : StmtError → String
  | .other e => e.display
  | .dupKey msg =>
    match hasIds, lookupFailed with
    | false, _ => "duplicate key (insert_mode=plain, no id_column): " ++ msg
    | true, some lookupErr =>
      "duplicate key (insert_mode=plain); the id lookup failed (" ++ lookupErr
        ++ "), so the row could not be proven already delivered: " ++ msg
    | true, none =>
      "duplicate key (insert_mode=plain) on a record whose id was not present: "
        ++ "a different UNIQUE constraint or a concurrent writer: " ++ msg

/-- What the bisection carries; the top of the stack is the head. -/
structure Bisection where
  committed : List Nat
  deadLettered : List (Nat × String)
  stack : List (List Nat)

/-- `on_failure`. -/
def Bisection.onFailure (reason : StmtError → String) (b : Bisection) (set : List Nat)
    (err : StmtError) : Bisection :=
  if set.length = 1 then
    { b with deadLettered := b.deadLettered ++ [(set.headD 0, reason err)] }
  else
    { b with stack := set.take (set.length / 2) :: set.drop (set.length / 2) :: b.stack }

/-- The loop over the stack. It takes one unit of fuel for each statement; `none` is a loop that
is still going. -/
def bisect (driver : String) (reason : StmtError → String) :
    Nat → Bisection → Sql (Option (Except SqlSinkError Bisection))
  | fuel, b =>
    match b.stack with
    | [] => return some (.ok b)
    | set :: stack =>
      match fuel with
      | 0 => return none
      | fuel + 1 => do
        match ← bounded driver (.insert set) with
        | .ok () =>
          bisect driver reason fuel { b with committed := b.committed ++ set, stack := stack }
        | .error err =>
          match err.transient with
          | some e => return some (.error e)
          | none => bisect driver reason fuel ({ b with stack := stack }.onFailure reason set err)

/-- The two lists in batch order, as rows. -/
def Bisection.result (rows : List Bytes) (b : Bisection) : CommitResult where
  committed := (b.committed.insertionSort (· ≤ ·)).map fun i => rows.getD i []
  deadLettered := (b.deadLettered.insertionSort fun d d' => d.1 ≤ d'.1).map
    fun d => (rows.getD d.1 [], d.2)

/-- `insert_with_dup_fallback`. -/
def insertWithDupFallback (driver : String) (rows : List Bytes) (ids : Option (List (List Char)))
    (fuel : Nat) : Sql (Option (Except SqlSinkError CommitResult)) := do
  match ← bounded driver (.insert (range rows.length)) with
  | .ok () => return some (.ok ⟨rows, []⟩)
  | .error (.other e) =>
    if e.isTransient then return some (.error e)
    else return some (.ok ⟨[], rows.map fun r => (r, e.display)⟩)
  | .error (.dupKey firstDup) =>
    match ← resolveIds driver rows.length ids firstDup with
    | .error e => return some (.error e)
    | .ok start =>
      match start.failure with
      | none => return some (.ok (Bisection.result rows ⟨start.committed, [], []⟩))
      | some failure =>
        let reason := failureReason ids.isSome start.lookupFailed
        let b := Bisection.onFailure reason ⟨start.committed, [], []⟩ start.toBisect failure
        match ← bisect driver reason fuel b with
        | none => return none
        | some (.error e) => return some (.error e)
        | some (.ok b) => return some (.ok (b.result rows))

/-! ## Any server -/

/-- A statement that was issued, and what came back. -/
structure Issued where
  stmt : Stmt
  answer : Option (Except StmtError stmt.Answer)

/-- A server that answers anything, and the log of what it was asked. -/
def logged : (c : SqlCall) → List Issued → c.Answer → List Issued → Prop
  | .clock, log, _, log' => log' = log
  | .stmt s, log, answer, log' => log' = log ++ [⟨s, answer⟩]

variable {driver : String} {n : Nat} {ids : Option (List (List Char))} {log log' : List Issued}
  {s : Stmt} {r : Except StmtError s.Answer}

/-- `bounded` times out by the clock, or issues its statement. -/
theorem bounded_inv {σ : Type} {step : (c : SqlCall) → σ → c.Answer → σ → Prop} {w w' : σ}
    (h : Prog.Exec step (bounded driver s) w r w') :
    ∃ expired w₁, step .clock w expired w₁ ∧
      (r = .error (.other (.timeout driver)) ∧ w' = w₁ ∨
        ∃ answer, step (.stmt s) w₁ answer w' ∧
          r = answer.getD (.error (.other (.timeout driver)))) := by
  obtain ⟨expired, w₁, hclock, h⟩ := h.bind_inv
  refine ⟨expired, w₁, hclock.ask_inv, ?_⟩
  split at h
  · obtain ⟨hr, hw⟩ := h.pure_inv
    exact .inl ⟨hr, hw⟩
  · obtain ⟨answer, w₂, hask, h⟩ := h.bind_inv
    obtain ⟨rfl, rfl⟩ := h.pure_inv
    exact .inr ⟨answer, hask.ask_inv, rfl⟩

theorem bounded_exec {σ : Type} {step : (c : SqlCall) → σ → c.Answer → σ → Prop} {w w₁ w' : σ}
    {answer : Option (Except StmtError s.Answer)}
    (hclock : step .clock w false w₁) (hstmt : step (.stmt s) w₁ answer w')
    (hr : answer.getD (.error (.other (.timeout driver))) = r) :
    Prog.Exec step (bounded driver s) w r w' := by
  subst hr
  exact .call hclock (.call hstmt .pure)

/-- The server said whether the statement was carried out. -/
def Issued.Settled (e : Issued) : Prop :=
  ∃ answer, e.answer = some answer ∧ ∀ err, answer = .error err → err.transient = none

/-- The log of a statement. -/
structure Logs (s : Stmt) (log : List Issued) (r : Except StmtError s.Answer)
    (log' : List Issued) : Prop where
  grows : log <+: log'
  one : log'.length ≤ log.length + 1
  settled : (∀ err, r = .error err → err.transient = none) → log' = log ++ [⟨s, some r⟩]

theorem bounded_logs (h : Prog.Exec logged (bounded driver s) log r log') :
    Logs s log r log' := by
  obtain ⟨expired, log₁, hclock, hend⟩ := bounded_inv h
  obtain rfl : log₁ = log := hclock
  rcases hend with ⟨rfl, rfl⟩ | ⟨answer, hstmt, rfl⟩
  · exact ⟨prefix_rfl, Nat.le_succ _, fun hsettled => (by cases hsettled _ rfl)⟩
  obtain rfl : log' = log₁ ++ [Issued.mk s answer] := hstmt
  refine ⟨prefix_append .., by simp, fun hsettled => ?_⟩
  cases answer with
  | none => cases hsettled _ rfl
  | some r => rfl

def Stmt.rows : Stmt → List Nat
  | .insert rows | .lookup rows => rows

/-- The rows a call is about are rows of the batch. -/
def SqlCall.InRange (n : Nat) : SqlCall → Prop
  | .clock => True
  | .stmt s => ∀ i ∈ s.rows, i < n

/-- So are those of every statement that was issued. -/
def LogInRange (n : Nat) (log : List Issued) : Prop := ∀ e ∈ log, (SqlCall.stmt e.stmt).InRange n

theorem logged_inRange {c : SqlCall} {answer : c.Answer}
    (h : logged c log answer log') : LogInRange n log' ↔ c.InRange n ∧ LogInRange n log := by
  cases c with
  | clock =>
    obtain rfl : log' = log := h
    simp [SqlCall.InRange]
  | stmt s =>
    obtain rfl : log' = log ++ [Issued.mk s answer] := h
    simp [LogInRange, or_imp, forall_and, and_comm]

theorem bounded_inRange (h : Prog.Exec logged (bounded driver s) log r log')
    (hs : ∀ i ∈ s.rows, i < n) (hlog : LogInRange n log) : LogInRange n log' := by
  obtain ⟨expired, log₁, hclock, ⟨_, rfl⟩ | ⟨answer, hstmt, _⟩⟩ := bounded_inv h
  · exact (logged_inRange hclock).mpr ⟨trivial, hlog⟩
  · exact (logged_inRange hstmt).mpr ⟨hs, (logged_inRange hclock).mpr ⟨trivial, hlog⟩⟩

/-- The statement inserted the row, or found its id. -/
def StoredBy (ids : Option (List (List Char))) (i : Nat) : Issued → Prop
  | ⟨.insert set, some (.ok _)⟩ => i ∈ set
  | ⟨.lookup _, some (.ok found)⟩ =>
    ∃ hexes, ids = some hexes ∧ ∃ id ∈ found, hexes[i]? = some (trimPadding id)
  | _ => False

/-- An insert of the row succeeded, or a lookup that succeeded returned its id. -/
def Stored (ids : Option (List (List Char))) (log : List Issued) (i : Nat) : Prop :=
  ∃ e ∈ log, StoredBy ids i e

/-- An insert of just this row failed permanently. -/
def Refused (log : List Issued) (i : Nat) : Prop :=
  ∃ err : StmtError, err.transient = none ∧ ⟨.insert [i], some (.error err)⟩ ∈ log

section

variable {i : Nat} {err : StmtError}

theorem stored_append {e : Issued} :
    Stored ids (log ++ [e]) i ↔ Stored ids log i ∨ StoredBy ids i e := by
  simp [Stored, or_and_right, exists_or]

/-- A statement that failed stores nothing. -/
theorem not_storedBy_error : ¬StoredBy ids i ⟨s, some (.error err)⟩ := by
  cases s <;> exact id

theorem stored_refused : Stored ids (log ++ [⟨s, some (.error err)⟩]) i ↔ Stored ids log i := by
  rw [stored_append, or_iff_left not_storedBy_error]

theorem refused_append (htr : err.transient = none) :
    Refused (log ++ [⟨.insert [i], some (.error err)⟩]) i :=
  ⟨err, htr, mem_append_right _ mem_cons_self⟩

theorem Refused.mono (hlog : log <+: log') (h : Refused log i) : Refused log' i := by
  obtain ⟨err, htr, hmem⟩ := h
  exact ⟨err, htr, hlog.subset hmem⟩

/-- What a statement that came to its end adds to the log. -/
theorem Logs.ended (h : Logs s log r log')
    (hr : ∀ err, r = .error err → err.transient = none) :
    log' = log ++ [⟨s, some r⟩] ∧ ((∀ e ∈ log, e.Settled) → ∀ e ∈ log', e.Settled) := by
  have hlog' := h.settled hr
  refine ⟨hlog', fun hlog e he => ?_⟩
  rw [hlog'] at he
  rcases mem_append.mp he with he | he
  · exact hlog e he
  · rw [mem_singleton.mp he]
    exact ⟨r, rfl, hr⟩

theorem Logs.ok {v : s.Answer} (h : Logs s log (.ok v) log') :
    log' = log ++ [⟨s, some (.ok v)⟩] ∧ ((∀ e ∈ log, e.Settled) → ∀ e ∈ log', e.Settled) :=
  h.ended fun _ herr => by cases herr

theorem Logs.refused (h : Logs s log (.error err) log') (htr : err.transient = none) :
    log' = log ++ [⟨s, some (.error err)⟩] ∧ ((∀ e ∈ log, e.Settled) → ∀ e ∈ log', e.Settled) :=
  h.ended fun _ herr => Except.error.inj herr ▸ htr

end

/-! ## The bisection -/

namespace Bisection

/-- Every row is committed, dead-lettered or still on the stack, with what is known of it. -/
structure Sound (n : Nat) (stored refused : Nat → Prop) (b : Bisection) : Prop where
  rows : (b.committed ++ b.deadLettered.map Prod.fst ++ b.stack.flatten).Perm (range n)
  nonempty : ∀ set ∈ b.stack, set ≠ []
  committed : ∀ i ∈ b.committed, stored i
  deadLettered : ∀ d ∈ b.deadLettered, refused d.1 ∧ ¬stored d.1
  pending : ∀ i ∈ b.stack.flatten, ¬stored i

/-- The statements that the stack can still take: a set of `k` rows is split `k - 1` times. -/
def weight (b : Bisection) : Nat := (b.stack.map fun set => 2 * set.length - 1).sum

variable {stored refused stored' refused' : Nat → Prop} {committed : List Nat}
  {deadLettered : List (Nat × String)} {set : List Nat} {stack : List (List Nat)}

section

variable (h : Sound n stored refused ⟨committed, deadLettered, set :: stack⟩)

include h

/-- The rows of the top of the stack are nowhere else. -/
theorem Sound.not_mem : (∀ d ∈ deadLettered, d.1 ∉ set) ∧ ∀ i ∈ stack.flatten, i ∉ set := by
  have hnodup := h.rows.nodup_iff.mpr nodup_range
  obtain ⟨-, htop, hapart⟩ := nodup_append.mp hnodup
  obtain ⟨-, -, hstack⟩ := nodup_append.mp htop
  refine ⟨fun d hd hmem => ?_, fun i hi hmem => hstack i hmem i hi rfl⟩
  exact hapart d.1 (mem_append_right _ (mem_map_of_mem hd)) d.1
    (mem_append_left _ hmem) rfl

/-- The set on top of the stack was inserted. -/
theorem Sound.commit (hstored : ∀ i, stored' i ↔ stored i ∨ i ∈ set)
    (hrefused : ∀ i, refused i → refused' i) :
    Sound n stored' refused' ⟨committed ++ set, deadLettered, stack⟩ := by
  obtain ⟨hdead, hpending⟩ := h.not_mem
  refine ⟨?_, fun s hs => h.nonempty s (mem_cons_of_mem _ hs), fun i hi => ?_, fun d hd => ?_,
    fun i hi => ?_⟩
  · refine List.Perm.trans ?_ h.rows
    simp only [flatten_cons, append_assoc, perm_append_left_iff]
    rw [← append_assoc, ← append_assoc]
    exact List.Perm.append_right _ perm_append_comm
  · exact (hstored i).mpr ((mem_append.mp hi).imp_left (h.committed i))
  · obtain ⟨hr, hs⟩ := h.deadLettered d hd
    exact ⟨hrefused _ hr, fun h => ((hstored _).mp h).elim hs (hdead d hd)⟩
  · have hs := h.pending i (mem_append_right _ hi)
    exact fun h => ((hstored i).mp h).elim hs (hpending i hi)

/-- The set on top of the stack failed. -/
theorem Sound.onFailure (hstored : ∀ i, stored' i ↔ stored i)
    (hrefused : ∀ i, refused i → refused' i) (hset : ∀ i, set = [i] → refused' i)
    (reason : StmtError → String) (err : StmtError) :
    Sound n stored' refused'
      (Bisection.onFailure reason ⟨committed, deadLettered, stack⟩ set err) := by
  have hne : set ≠ [] := h.nonempty set mem_cons_self
  have hdead : ∀ d ∈ deadLettered, refused' d.1 ∧ ¬stored' d.1 := by
    intro d hd
    obtain ⟨hr, hs⟩ := h.deadLettered d hd
    exact ⟨hrefused _ hr, fun h => hs ((hstored _).mp h)⟩
  have hpending : ∀ i ∈ set ++ stack.flatten, ¬stored' i :=
    fun i hi hs => h.pending i hi ((hstored i).mp hs)
  unfold Bisection.onFailure
  split
  next hone =>
    obtain ⟨i, rfl⟩ := length_eq_one_iff.mp hone
    refine ⟨?_, fun s hs => h.nonempty s (mem_cons_of_mem _ hs),
      fun j hj => (hstored j).mpr (h.committed j hj), fun d hd => ?_,
      fun j hj => hpending j (mem_append_right _ hj)⟩
    · refine List.Perm.trans (List.Perm.of_eq ?_) h.rows
      simp
    rcases mem_append.mp hd with hd | hd
    · exact hdead d hd
    · rw [mem_singleton.mp hd]
      exact ⟨hset i rfl, hpending i mem_cons_self⟩
  next hlen =>
    have hpos := length_pos_iff.mpr hne
    have hhalves : ∀ rest : List Nat,
        set.take (set.length / 2) ++ (set.drop (set.length / 2) ++ rest)
        = set ++ rest := by
      intro rest
      rw [← append_assoc, take_append_drop]
    refine ⟨?_, fun s hs => ?_, fun j hj => (hstored j).mpr (h.committed j hj), hdead,
      fun j hj => ?_⟩
    · refine List.Perm.trans (List.Perm.of_eq ?_) h.rows
      simp only [flatten_cons, hhalves]
    · rcases mem_cons.mp hs with rfl | hs
      · intro hnil
        rcases take_eq_nil_iff.mp hnil with hzero | hempty
        · omega
        · exact hne hempty
      · rcases mem_cons.mp hs with rfl | hs
        · rw [ne_eq, drop_eq_nil_iff]
          omega
        · exact h.nonempty s (mem_cons_of_mem _ hs)
    · simp only [flatten_cons, hhalves] at hj
      exact hpending j hj

end

variable (committed deadLettered stack) in
/-- A failure takes one unit off the stack's weight. -/
theorem onFailure_weight (hne : set ≠ []) (reason : StmtError → String) (err : StmtError) :
    (Bisection.onFailure reason ⟨committed, deadLettered, stack⟩ set err).weight + 1
      = weight ⟨committed, deadLettered, set :: stack⟩ := by
  have hpos := length_pos_iff.mpr hne
  unfold Bisection.onFailure
  split
  next hone =>
    simp only [weight, map_cons, sum_cons, hone]
    omega
  next hlen =>
    simp only [weight, map_cons, sum_cons, length_take, length_drop]
    omega

end Bisection

section

variable {reason : StmtError → String}

/-- What is true of a run of the loop. -/
def Bisects (n : Nat) (ids : Option (List (List Char))) (fuel : Nat) (b : Bisection)
    (log : List Issued) (r : Option (Except SqlSinkError Bisection)) (log' : List Issued) : Prop :=
  log <+: log' ∧ log'.length ≤ log.length + b.weight ∧ (LogInRange n log → LogInRange n log') ∧
    (b.weight ≤ fuel → r ≠ none) ∧
    ∀ b', r = some (.ok b') → b'.stack = [] ∧ (∀ e ∈ log', e.Settled) ∧
      b'.Sound n (Stored ids log') (Refused log')

theorem bisect_ended {fuel : Nat} {b : Bisection} {r : Option (Except SqlSinkError Bisection)}
    (hnil : b.stack = []) (hsound : b.Sound n (Stored ids log) (Refused log))
    (hsettled : ∀ e ∈ log, e.Settled)
    (h : Prog.Exec logged (pure (some (.ok b))) log r log') : Bisects n ids fuel b log r log' := by
  obtain ⟨rfl, rfl⟩ := h.pure_inv
  refine ⟨prefix_rfl, by omega, id, by simp, fun b' hb => ?_⟩
  rw [← Except.ok.inj (Option.some.inj hb)]
  exact ⟨hnil, hsettled, hsound⟩

/-- The loop keeps the partition, and takes no more statements than the stack weighs. -/
theorem bisect_spec :
    ∀ (fuel : Nat) {b : Bisection} {log log' : List Issued}
      {r : Option (Except SqlSinkError Bisection)},
      b.Sound n (Stored ids log) (Refused log) → (∀ e ∈ log, e.Settled) →
      Prog.Exec logged (bisect driver reason fuel b) log r log' →
        Bisects n ids fuel b log r log' := by
  intro fuel
  induction fuel with
  | zero =>
    intro b log log' r hsound hsettled h
    unfold bisect at h
    split at h
    next hnil => exact bisect_ended hnil hsound hsettled h
    next set stack hcons =>
      obtain ⟨rfl, rfl⟩ := h.pure_inv
      have hpos := length_pos_iff.mpr (hsound.nonempty set (by rw [hcons]; exact mem_cons_self))
      refine ⟨prefix_rfl, by omega, id, fun hweight => ?_, fun b' hb => by cases hb⟩
      rw [Bisection.weight, hcons, map_cons, sum_cons] at hweight
      omega
  | succ fuel ih =>
    intro b log log' r hsound hsettled h
    unfold bisect at h
    split at h
    next hnil => exact bisect_ended hnil hsound hsettled h
    rename_i set stack hcons
    obtain ⟨committed, deadLettered, _⟩ := b
    subst hcons
    have hne := hsound.nonempty set mem_cons_self
    have hpos := length_pos_iff.mpr hne
    obtain ⟨answer, log₁, hstmt, h⟩ := h.bind_inv
    have hlogs := bounded_logs hstmt
    have hone := hlogs.one
    have hrange := bounded_inRange (n := n) hstmt fun i hi =>
      mem_range.mp (hsound.rows.subset (by simp [show i ∈ set from hi]))
    have hweight : Bisection.weight ⟨committed, deadLettered, set :: stack⟩
        = 2 * set.length - 1 + Bisection.weight ⟨committed ++ set, deadLettered, stack⟩ := by
      simp only [Bisection.weight, map_cons, sum_cons]
    cases answer with
    | ok v =>
      obtain ⟨hlog₁, hsettled₁⟩ := hlogs.ok
      have hnext : Bisection.Sound n (Stored ids log₁) (Refused log₁)
          ⟨committed ++ set, deadLettered, stack⟩ :=
        hsound.commit (fun i => by rw [hlog₁]; exact stored_append)
          fun _ => Refused.mono hlogs.grows
      obtain ⟨hgrows, hlen, hin, hfuel, hend⟩ := ih hnext (hsettled₁ hsettled) h
      exact ⟨hlogs.grows.trans hgrows, by omega, fun hlog => hin (hrange hlog),
        fun hle => hfuel (by omega), hend⟩
    | error err =>
      dsimp only at h
      split at h
      next e htr =>
        obtain ⟨rfl, rfl⟩ := h.pure_inv
        exact ⟨hlogs.grows, by omega, hrange, by simp, fun b' hb => by cases hb⟩
      next htr =>
        obtain ⟨hlog₁, hsettled₁⟩ := hlogs.refused htr
        have hstored : ∀ i, Stored ids log₁ i ↔ Stored ids log i :=
          fun i => by rw [hlog₁, stored_refused]
        have hrefused : ∀ i, set = [i] → Refused log₁ i := fun i hi => by
          rw [hlog₁, hi]
          exact refused_append htr
        have hnext := hsound.onFailure hstored (fun _ => Refused.mono hlogs.grows) hrefused
          reason err
        have hweight := Bisection.onFailure_weight committed deadLettered stack hne reason err
        obtain ⟨hgrows, hlen, hin, hfuel, hend⟩ := ih hnext (hsettled₁ hsettled) h
        exact ⟨hlogs.grows.trans hgrows, by omega, fun hlog => hin (hrange hlog),
          fun hle => hfuel (by omega), hend⟩

end

/-! ## The start -/

structure Start.Sound (n : Nat) (ids : Option (List (List Char))) (log : List Issued)
    (start : Start) : Prop where
  rows : (start.committed ++ start.toBisect).Perm (range n)
  committed : ∀ i ∈ start.committed, Stored ids log i
  pending : ∀ i ∈ start.toBisect, ¬Stored ids log i
  settled : ∀ e ∈ log, e.Settled
  lookedUp : ids.isSome = true → ∃ answer, ⟨.lookup (range n), answer⟩ ∈ log
  short : log.length ≤ 3
  clean : start.failure = none → start.toBisect = []
  failed : ∀ e, start.failure = some e → start.toBisect ≠ [] ∧
    (∀ i, start.toBisect = [i] → Refused log i) ∧
    log.length + 2 * start.toBisect.length ≤ 2 * n + 3

/-- The remainder is inserted, or it failed and is split. -/
theorem insertRemainder_spec {committed remainder : List Nat} {r : Except SqlSinkError Start}
    (hlen : log.length ≤ 2) (hrows : (committed ++ remainder).Perm (range n))
    (hcommitted : ∀ i ∈ committed, Stored ids log i)
    (hpending : ∀ i ∈ remainder, ¬Stored ids log i) (hsettled : ∀ e ∈ log, e.Settled)
    (hlookup : ∃ answer, ⟨.lookup (range n), answer⟩ ∈ log)
    (h : Prog.Exec logged (insertRemainder driver committed remainder) log r log') :
    log'.length ≤ 3 ∧ (LogInRange n log → LogInRange n log') ∧
      ∀ start, r = .ok start → start.Sound n ids log' := by
  unfold insertRemainder at h
  split at h
  next hnil =>
    obtain ⟨rfl, rfl⟩ := h.pure_inv
    refine ⟨by omega, id, fun start hstart => ?_⟩
    cases hstart
    exact ⟨hnil ▸ hrows, hcommitted, by simp, hsettled, fun _ => hlookup, by omega, fun _ => rfl,
      fun e he => (by cases he)⟩
  rename_i hne
  obtain ⟨answer, log₁, hstmt, h⟩ := h.bind_inv
  have hlogs := bounded_logs hstmt
  have hone := hlogs.one
  have hrange := bounded_inRange (n := n) hstmt fun i hi =>
    mem_range.mp (hrows.subset (mem_append_right _ hi))
  have hlookup₁ : ∃ answer, ⟨.lookup (range n), answer⟩ ∈ log₁ :=
    hlookup.imp fun _ hmem => hlogs.grows.subset hmem
  cases answer with
  | ok v =>
    obtain ⟨rfl, rfl⟩ := h.pure_inv
    refine ⟨by omega, hrange, fun start hstart => ?_⟩
    cases hstart
    refine ⟨by simpa using hrows, fun i hi => ?_, by simp, hlogs.ok.2 hsettled,
      fun _ => hlookup₁, by omega, fun _ => rfl, fun e he => (by cases he)⟩
    rw [hlogs.ok.1, stored_append]
    exact (mem_append.mp hi).imp_left (hcommitted i)
  | error err =>
    dsimp only at h
    split at h
    next e htr =>
      obtain ⟨rfl, rfl⟩ := h.pure_inv
      exact ⟨by omega, hrange, fun start hstart => by cases hstart⟩
    next htr =>
      obtain ⟨rfl, rfl⟩ := h.pure_inv
      refine ⟨by omega, hrange, fun start hstart => ?_⟩
      cases hstart
      obtain ⟨hlog, hsettled₁⟩ := hlogs.refused htr
      have hstored : ∀ i, Stored ids log' i ↔ Stored ids log i :=
        fun i => by rw [hlog, stored_refused]
      refine ⟨hrows, fun i hi => (hstored i).mpr (hcommitted i hi),
        fun i hi hs => hpending i hi ((hstored i).mp hs), hsettled₁ hsettled,
        fun _ => hlookup₁, by omega, fun h => (by cases h), fun e _ => ⟨hne, ?_, ?_⟩⟩
      · intro i hi
        rw [hlog, show remainder = [i] from hi]
        exact refused_append htr
      · have hle := hrows.length_eq
        rw [length_append, length_range] at hle
        dsimp only
        omega

theorem getElem?_eq_getD {α : Type} (xs : List α) (d : α) {i : Nat} (h : i < xs.length) :
    xs[i]? = some (xs.getD i d) := by
  rw [getD_eq_getElem?_getD, getElem?_eq_getElem h, Option.getD_some]

/-- What a lookup that succeeded says about a row. -/
theorem storedBy_lookup {hexes : List (List Char)} {present : List (List Char)} {asked : List Nat}
    {i : Nat} (hi : i < hexes.length) :
    StoredBy (some hexes) i ⟨.lookup asked, some (.ok present)⟩ ↔
      idPresent hexes present i = true := by
  simp only [StoredBy, idPresent, decide_eq_true_eq, mem_map, Option.some.injEq,
    exists_eq_left', getElem?_eq_getD hexes [] hi]
  simp only [eq_comm]

theorem resolveIds_spec {firstDup : String} {r : Except SqlSinkError Start} (hn : 0 < n)
    (hids : ∀ hexes ∈ ids, hexes.length = n)
    (hlog : log = [⟨.insert (range n), some (.error (.dupKey firstDup))⟩])
    (h : Prog.Exec logged (resolveIds driver n ids firstDup) log r log') :
    log'.length ≤ 3 ∧ LogInRange n log' ∧ ∀ start, r = .ok start → start.Sound n ids log' := by
  have hall : ∀ i ∈ range n, i < n := fun i => mem_range.mp
  have hrange : LogInRange n log := by
    rw [hlog]
    exact forall_mem_singleton.mpr hall
  have hlen : log.length = 1 := by rw [hlog]; rfl
  have hsettled : ∀ e ∈ log, e.Settled := by
    intro e he
    rw [hlog, mem_singleton] at he
    rw [he]
    exact ⟨_, rfl, fun err herr => by rw [← Except.error.inj herr]; rfl⟩
  have hstored : ∀ i, ¬Stored ids log i := by
    rintro i ⟨e, he, hby⟩
    rw [hlog, mem_singleton] at he
    rw [he] at hby
    exact hby
  -- what is split without a remainder is the whole batch, and the first statement refused it
  have hwhole : ∀ {log' : List Issued} {lookupFailed : Option String}, log <+: log' →
      log'.length ≤ 2 → (∀ i, ¬Stored ids log' i) → (∀ e ∈ log', e.Settled) →
      (ids.isSome = true → ∃ answer, ⟨.lookup (range n), answer⟩ ∈ log') →
      Start.Sound n ids log' ⟨[], range n, some (.dupKey firstDup), lookupFailed⟩ := by
    intro log' lookupFailed hgrows hlen' hstored' hsettled' hlookup
    refine ⟨.refl _, by simp, fun i _ => hstored' i, hsettled', hlookup, by omega,
      fun h => (by cases h), fun e _ => ⟨?_, fun i hi => ?_, ?_⟩⟩
    · rw [ne_eq, range_eq_nil]
      omega
    · refine ⟨.dupKey firstDup, rfl, hgrows.subset ?_⟩
      rw [hlog, show range n = [i] from hi]
      exact mem_cons_self
    · simp only [length_range]
      omega
  unfold resolveIds at h
  split at h
  · obtain ⟨rfl, rfl⟩ := h.pure_inv
    refine ⟨by omega, hrange, fun start hstart => ?_⟩
    rw [← Except.ok.inj hstart]
    exact hwhole prefix_rfl (by omega) hstored hsettled (by simp)
  rename_i hexes
  obtain rfl : hexes.length = n := hids hexes rfl
  obtain ⟨answer, log₁, hstmt, h⟩ := h.bind_inv
  have hlogs := bounded_logs hstmt
  have hone := hlogs.one
  have hrange₁ := bounded_inRange hstmt hall hrange
  rcases answer with err | present
  · dsimp only at h
    split at h
    next e htr =>
      obtain ⟨rfl, rfl⟩ := h.pure_inv
      exact ⟨by omega, hrange₁, fun start hstart => by cases hstart⟩
    next htr =>
      obtain ⟨rfl, rfl⟩ := h.pure_inv
      refine ⟨by omega, hrange₁, fun start hstart => ?_⟩
      rw [← Except.ok.inj hstart]
      obtain ⟨hlog', hsettled₁⟩ := hlogs.refused htr
      refine hwhole hlogs.grows (by omega) (fun i => ?_) (hsettled₁ hsettled)
        fun _ => ⟨_, by rw [hlog']; exact mem_append_right _ mem_cons_self⟩
      rw [hlog', stored_refused]
      exact hstored i
  obtain ⟨hlog₁, hsettled₁⟩ := hlogs.ok
  have hpresent : ∀ i < hexes.length,
      (Stored (some hexes) log₁ i ↔ idPresent hexes present i = true) := by
    intro i hi
    rw [hlog₁, stored_append, or_iff_right (hstored i), storedBy_lookup hi]
  have hknown : ∀ i ∈ (range hexes.length).filter (idPresent hexes present),
      Stored (some hexes) log₁ i := by
    intro i hi
    obtain ⟨hrange, hfound⟩ := mem_filter.mp hi
    exact (hpresent i (mem_range.mp hrange)).mpr hfound
  have hunknown : ∀ i ∈ (range hexes.length).filter
      fun i => !idPresent hexes present i, ¬Stored (some hexes) log₁ i := by
    intro i hi hs
    obtain ⟨hrange, hmissing⟩ := mem_filter.mp hi
    rw [(hpresent i (mem_range.mp hrange)).mp hs] at hmissing
    cases hmissing
  have hlookup : ∃ answer, ⟨.lookup (range hexes.length), answer⟩ ∈ log₁ :=
    ⟨_, by rw [hlog₁]; exact mem_append_right _ mem_cons_self⟩
  have hrows := filter_append_perm (idPresent hexes present) (range hexes.length)
  obtain ⟨hthree, hin, hend⟩ := insertRemainder_spec (by omega) hrows hknown hunknown
    (hsettled₁ hsettled) hlookup h
  exact ⟨hthree, hin hrange₁, hend⟩

/-! ## The whole fallback -/

/-- Row indices that are committed and dead-lettered, in batch order, each row once. -/
structure Partition (n : Nat) (cs : List Nat) (ds : List (Nat × String)) : Prop where
  rows : (cs ++ ds.map Prod.fst).Perm (range n)
  committed : cs.Pairwise (· < ·)
  deadLettered : (ds.map Prod.fst).Pairwise (· < ·)

/-- The rows at a list of indices. -/
def rowsAt (rows : List Bytes) (cs : List Nat) (ds : List (Nat × String)) : CommitResult :=
  ⟨cs.map fun i => rows.getD i [], ds.map fun d => (rows.getD d.1 [], d.2)⟩

theorem rows_eq_map_range (rows : List Bytes) :
    (range rows.length).map (fun i => rows.getD i []) = rows := by
  refine ext_getElem (by simp) fun i h₁ h₂ => ?_
  simp [getD_eq_getElem?_getD, getElem?_eq_getElem h₂]

/-- The batch failed permanently at the first statement. -/
def FailedWhole (n : Nat) (log : List Issued) : Prop :=
  ∃ e : SqlSinkError, e.isTransient = false ∧
    log.head? = some ⟨.insert (range n), some (.error (.other e))⟩

/-- What an `Ok` of the fallback rests on. -/
structure Resolved (n : Nat) (ids : Option (List (List Char))) (log : List Issued)
    (cs : List Nat) (ds : List (Nat × String)) : Prop where
  partition : Partition n cs ds
  settled : ∀ e ∈ log, e.Settled
  committed : ∀ i ∈ cs, Stored ids log i
  deadLettered : ∀ d ∈ ds, FailedWhole n log ∨ Refused log d.1 ∧ ¬Stored ids log d.1 ∧
    (ids.isSome = true → ∃ answer, ⟨.lookup (range n), answer⟩ ∈ log)

/-- Sorting the two lists of a finished bisection. -/
theorem Bisection.Sound.result {b : Bisection} (h : b.Sound n (Stored ids log) (Refused log))
    (hstack : b.stack = []) (hsettled : ∀ e ∈ log, e.Settled)
    (hlookup : ids.isSome = true → ∃ answer, ⟨.lookup (range n), answer⟩ ∈ log)
    (rows : List Bytes) :
    ∃ cs ds, b.result rows = rowsAt rows cs ds ∧ Resolved n ids log cs ds := by
  have hcs := perm_insertionSort (· ≤ ·) b.committed
  have hds := perm_insertionSort (fun d d' => d.1 ≤ d'.1) b.deadLettered
  have hperm := (hcs.append (hds.map Prod.fst)).trans (by simpa [hstack] using h.rows)
  -- sorted, and no index twice
  have hnodup := hperm.nodup_iff.mpr nodup_range
  obtain ⟨hcsNodup, hdsNodup, -⟩ := nodup_append.mp hnodup
  have hcsSorted := pairwise_insertionSort (· ≤ ·) b.committed
  have hdsSorted := pairwise_insertionSort (fun d d' => d.1 ≤ d'.1) b.deadLettered
  refine ⟨_, _, rfl, ⟨hperm, ?_, ?_⟩, hsettled, fun i hi => h.committed i (hcs.subset hi),
    fun d hd => .inr ?_⟩
  · exact (hcsSorted.and hcsNodup).imp fun ⟨hle, hne⟩ => lt_of_le_of_ne hle hne
  · refine pairwise_map.mpr ((hdsSorted.and (pairwise_map.mp hdsNodup)).imp ?_)
    exact fun ⟨hle, hne⟩ => lt_of_le_of_ne hle hne
  · obtain ⟨hrefused, hstored⟩ := h.deadLettered d (hds.subset hd)
    exact ⟨hrefused, hstored, hlookup⟩

section

variable (driver : String) {rows : List Bytes} (hrows : rows ≠ [])
  {ids : Option (List (List Char))} (hids : ∀ hexes ∈ ids, hexes.length = rows.length)
  {fuel : Nat} (hfuel : 2 * rows.length ≤ fuel) {r : Option (Except SqlSinkError CommitResult)}
  {log : List Issued}
  (h : Prog.Exec logged (insertWithDupFallback driver rows ids fuel) [] r log)

include hrows hids hfuel h

theorem insertWithDupFallback_spec :
    r ≠ none ∧ log.length ≤ 2 * rows.length + 1 ∧ LogInRange rows.length log ∧
    ∀ result, r = some (.ok result) → ∃ cs ds, result = rowsAt rows cs ds ∧
      Resolved rows.length ids log cs ds := by
  have hpos := length_pos_iff.mpr hrows
  obtain ⟨answer, log₁, hstmt, h⟩ := h.bind_inv
  have hlogs := bounded_logs hstmt
  have hone : log₁.length ≤ 1 := hlogs.one
  have hrange := bounded_inRange hstmt (fun i => mem_range.mp) (by simp [LogInRange])
  rcases answer with (firstDup | e) | v
  · have hfirst := (hlogs.refused rfl).1
    obtain ⟨answer, log₂, hresolve, h⟩ := h.bind_inv
    obtain ⟨hthree, hrange₂, hstart⟩ := resolveIds_spec hpos hids hfirst hresolve
    rcases answer with e | start
    · obtain ⟨rfl, rfl⟩ := h.pure_inv
      exact ⟨by simp, by omega, hrange₂, fun result hresult => by cases hresult⟩
    have hsound := hstart start rfl
    dsimp only at h
    split at h
    next hnone =>
      obtain ⟨rfl, rfl⟩ := h.pure_inv
      refine ⟨by simp, by omega, hrange₂, fun result hresult => ?_⟩
      rw [← Except.ok.inj (Option.some.inj hresult)]
      have hb : Bisection.Sound rows.length (Stored ids log) (Refused log)
          ⟨start.committed, [], []⟩ :=
        ⟨by simpa [hsound.clean hnone] using hsound.rows, by simp, hsound.committed, by simp,
          by simp⟩
      exact hb.result rfl hsound.settled hsound.lookedUp rows
    next failure hsome =>
      obtain ⟨hne, hrefused, hbudget⟩ := hsound.failed failure hsome
      have hb : Bisection.Sound rows.length (Stored ids log₂) (Refused log₂)
          ⟨start.committed, [], [start.toBisect]⟩ :=
        ⟨by simpa using hsound.rows, by simpa using hne, hsound.committed, by simp,
          by simpa using hsound.pending⟩
      obtain ⟨answer, log₃, hbisect, h⟩ := h.bind_inv
      obtain ⟨hgrows, hlen, hin, hterm, hend⟩ := bisect_spec fuel
        (hb.onFailure (fun _ => Iff.rfl) (fun _ => id) hrefused
          (failureReason ids.isSome start.lookupFailed) failure) hsound.settled hbisect
      have hweight := Bisection.onFailure_weight start.committed [] [] hne
        (failureReason ids.isSome start.lookupFailed) failure
      have hset : Bisection.weight ⟨start.committed, [], [start.toBisect]⟩
          = 2 * start.toBisect.length - 1 := by simp [Bisection.weight]
      rcases answer with _ | e | b
      · exact absurd rfl (hterm (by omega))
      · obtain ⟨rfl, rfl⟩ := h.pure_inv
        exact ⟨by simp, by omega, hin hrange₂, fun result hresult => by cases hresult⟩
      · obtain ⟨rfl, rfl⟩ := h.pure_inv
        refine ⟨by simp, by omega, hin hrange₂, fun result hresult => ?_⟩
        rw [← Except.ok.inj (Option.some.inj hresult)]
        obtain ⟨hstack, hsettled, hb'⟩ := hend b rfl
        exact hb'.result hstack hsettled (fun hsome =>
          (hsound.lookedUp hsome).imp fun _ hmem => hgrows.subset hmem) rows
  · dsimp only at h
    split at h
    next htr =>
      obtain ⟨rfl, rfl⟩ := h.pure_inv
      exact ⟨by simp, by omega, hrange, fun result hresult => by cases hresult⟩
    next htr =>
      obtain ⟨rfl, rfl⟩ := h.pure_inv
      obtain ⟨hlog, hsettled⟩ := hlogs.refused (by simp [StmtError.transient, htr])
      refine ⟨by simp, by omega, hrange, fun result hresult => ?_⟩
      rw [← Except.ok.inj (Option.some.inj hresult)]
      refine ⟨[], (range rows.length).map fun i => (i, e.display), ?_,
        ⟨by simp [Function.comp_def], .nil, by simpa [Function.comp_def] using pairwise_lt_range⟩,
        hsettled (by simp), by simp, fun d _ => .inl ⟨e, Bool.eq_false_iff.mpr htr, ?_⟩⟩
      · have hmap : rows.map (fun r => (r, e.display))
            = (range rows.length).map fun i => (rows.getD i [], e.display) := by
          conv_lhs => rw [← rows_eq_map_range rows, map_map]
          rfl
        rw [hmap, rowsAt, map_map]
        rfl
      · rw [hlog]
        rfl
  · obtain ⟨rfl, rfl⟩ := h.pure_inv
    refine ⟨by simp, by omega, hrange, fun result hresult => ?_⟩
    rw [← Except.ok.inj (Option.some.inj hresult)]
    obtain ⟨hlog, hsettled⟩ := hlogs.ok
    refine ⟨range rows.length, [], ?_, ⟨by simp, pairwise_lt_range, .nil⟩,
      hsettled (by simp), fun i hi => ?_, by simp⟩
    · rw [rowsAt, rows_eq_map_range]
      rfl
    · rw [hlog, stored_append]
      exact .inr hi

/-- Plain mode is an exact partition with evidence. Whatever the statements of a commit of at
least one row come back with, the fallback returns after at most `2 * n + 1` of them; what it
returns as `Ok` holds each row once and each list in batch order; a committed row was in an
insert that succeeded or its id came back from the lookup; a dead-lettered one failed
permanently on its own, or with the whole batch at the first statement. -/
theorem plain_commit_partition :
    r ≠ none ∧ log.length ≤ 2 * rows.length + 1 ∧
    ∀ result, r = some (.ok result) → ∃ cs ds, result = rowsAt rows cs ds ∧
      Partition rows.length cs ds ∧ (∀ i ∈ cs, Stored ids log i) ∧
      ∀ d ∈ ds, Refused log d.1 ∨ ∃ e : SqlSinkError, e.isTransient = false ∧
        log.head? = some ⟨.insert (range rows.length), some (.error (.other e))⟩ := by
  obtain ⟨hreturns, hlen, -, hok⟩ := insertWithDupFallback_spec driver hrows hids hfuel h
  refine ⟨hreturns, hlen, fun result hresult => ?_⟩
  obtain ⟨cs, ds, hrowsAt, hres⟩ := hok result hresult
  refine ⟨cs, ds, hrowsAt, hres.partition, hres.committed, fun d hd => ?_⟩
  rcases hres.deadLettered d hd with hwhole | ⟨hrefused, -, -⟩
  · exact .inr hwhole
  · exact .inl hrefused

end

/-- A server that answers a statement by what it is, and keeps the log. -/
def scripted (insert : List Nat → Option (Except StmtError Unit))
    (lookup : List Nat → Option (Except StmtError (List (List Char)))) :
    (c : SqlCall) → List Issued → c.Answer × List Issued
  | .clock, log => (false, log)
  | .stmt (.insert rows), log => (insert rows, log ++ [⟨.insert rows, insert rows⟩])
  | .stmt (.lookup rows), log => (lookup rows, log ++ [⟨.lookup rows, lookup rows⟩])

theorem scripted_logged (insert : List Nat → Option (Except StmtError Unit))
    (lookup : List Nat → Option (Except StmtError (List (List Char)))) (c : SqlCall)
    (log : List Issued) :
    logged c log (scripted insert lookup c log).1 (scripted insert lookup c log).2 := by
  cases c with
  | clock => rfl
  | stmt s => cases s <;> rfl

/-- The second of three rows is a duplicate, and there are no ids. -/
def oneDuplicate : (c : SqlCall) → List Issued → c.Answer × List Issued :=
  scripted (fun rows => some (if 1 ∈ rows then .error (.dupKey "23505") else .ok ())) fun _ => none

theorem plain_commit_partition_duplicate :
    let run := (insertWithDupFallback "postgres" [[1], [2], [3]] none 6).run oneDuplicate []
    run.1 = some (.ok ⟨[[1], [3]],
      [([2], "duplicate key (insert_mode=plain, no id_column): 23505")]⟩) ∧
    run.2.length ≤ 7 ∧ run.1 ≠ none := by
  have hserver : ∀ c log, logged c log (oneDuplicate c log).1 (oneDuplicate c log).2 :=
    scripted_logged _ _
  have hexec := Prog.Exec.of_run hserver
    (insertWithDupFallback "postgres" [[1], [2], [3]] none 6) []
  have h := plain_commit_partition "postgres" (by simp) (by simp) (by decide) hexec
  exact ⟨by decide +kernel, h.2.1, h.1⟩

end Weir.Sink

import Mathlib.Data.List.Nodup
import Mathlib.Data.List.NodupEquivFin
import Weir.Sink.Sql

/-!
# The Postgres sink and its table (`weir-server/src/sink/postgres.rs`)

`PostgresSink.commit` runs the fallback over statements that it builds itself: a
multi-row `INSERT` with its parameters in order, and a lookup of ids. Here the server
has a table with a `UNIQUE` id column and nobody else writes to it (`serves`): a
statement is applied as a whole or not at all, an error that the server reports means
that it was not, and a timeout or a lost connection says nothing.

> `inserted_eq`: the parameters land in the columns they belong to.

> `Tracks`: what the log of an attempt says about the table.

> `plain_retries_idempotent`: however many attempts at a batch were cut short, each row
> is stored once, and an attempt that returns `Ok` and met no permanent error other
> than a duplicate key has stored and committed all of them.
-/

namespace Weir.Sink

open Weir.Lib Weir.Wab Weir.Drain
open List hiding set

inductive InsertMode
  | onConflictDoNothing
  | plain
  deriving DecidableEq, Repr

/-- `PostgresSink`. `new` refuses an id column that is the payload column. -/
structure PostgresSink where
  table : String
  column : String
  idColumn : Option String
  insertMode : InsertMode
  distinct : idColumn ≠ some column

/-! ## Statements -/

/-- `INSERT INTO table (columns) VALUES …`: for each row the numbers of its parameters. -/
structure InsertSql where
  table : String
  columns : List String
  values : List (List Nat)
  doNothing : Bool

def InsertSql.text (q : InsertSql) : String :=
  "INSERT INTO \"" ++ q.table ++ "\" ("
    ++ ", ".intercalate (q.columns.map fun c => "\"" ++ c ++ "\"") ++ ") VALUES "
    ++ ", ".intercalate (q.values.map fun row =>
      "(" ++ ", ".intercalate (row.map fun k => "$" ++ toString k) ++ ")")
    ++ if q.doNothing then " ON CONFLICT DO NOTHING" else ""

/-- `build_insert_sql`. -/
def PostgresSink.buildInsertSql (sink : PostgresSink) (n : Nat) : InsertSql where
  table := sink.table
  columns := sink.idColumn.toList ++ [sink.column]
  values :=
    match sink.idColumn with
    | none => (range n).map fun row => [row + 1]
    | some _ => (range n).map fun row => [row * 2 + 1, row * 2 + 2]
  doNothing := decide (sink.insertMode = .onConflictDoNothing)

inductive BoundParam
  | id (hex : List Char)
  | payload (bytes : Bytes)
  deriving DecidableEq

/-- `build_params`. -/
def buildParams (batch : List Bytes) (idHex : Option (List (List Char))) (rows : List Nat) :
    List BoundParam :=
  match idHex with
  | none => rows.map fun i => .payload (batch.getD i [])
  | some ids => rows.flatMap fun i => [.id (ids.getD i []), .payload (batch.getD i [])]

/-- How a statement fails: by an error of the server with its SQLSTATE, by anything else on the
wire, or for want of a connection. -/
inductive Failure
  | server (code message : String)
  | io (text : String)
  | pool (text : String)
  deriving DecidableEq

def isTransientSqlstate (code : String) : Bool :=
  decide (code ∈ ["40P01", "55P03", "57014", "57P01", "57P02", "57P03", "23505"])

/-- `classify`, and the errors of the pool. -/
def classify : Failure → SqlSinkError
  | .server code message =>
    if isTransientSqlstate code then .transient "postgres" ("server " ++ code ++ ": " ++ message)
    else .permanent "postgres" ("server " ++ code ++ ": " ++ message)
  | .io text => .transient "postgres" ("io: " ++ text)
  | .pool text => .transient "postgres" ("pool: " ++ text)

def isDupKey (code : String) (mode : InsertMode) : Bool :=
  decide (mode = .plain ∧ code = "23505")

/-- `classify_stmt`. -/
def classifyStmt (mode : InsertMode) : Failure → StmtError
  | .server code message =>
    if isDupKey code mode then .dupKey ("server " ++ code ++ ": " ++ message)
    else .other (classify (.server code message))
  | failure => .other (classify failure)

/-- The ids a lookup returned, each of which may fail to be read as text. -/
def collectIds : List (Except String (List Char)) → Except StmtError (List (List Char))
  | [] => .ok []
  | .error e :: _ =>
    .error (.other (.permanent "postgres" ("duplicate-key lookup: reading the id column: " ++ e)))
  | .ok id :: cells =>
    match collectIds cells with
    | .ok ids => .ok (id :: ids)
    | .error e => .error e

/-- The ids that go with the records, if there is an id column. -/
def PostgresSink.idHex (sink : PostgresSink) (batch : SinkBatch) :
    Except SqlSinkError (Option (List (List Char))) :=
  perRecordIdHex "postgres" sink.idColumn batch.records.length batch.recordIds

/-- `commit`. -/
def PostgresSink.commit (sink : PostgresSink) (batch : SinkBatch) (fuel : Nat) :
    Sql (Option (Except SqlSinkError CommitResult)) :=
  if batch.records = [] then return some (.ok ⟨[], []⟩)
  else
    match sink.idHex batch with
    | .error e => return some (.error e)
    | .ok idHex => insertWithDupFallback "postgres" batch.records idHex fuel

/-! ## The table -/

structure Row where
  id : Option (List Char)
  payload : Bytes
  deriving DecidableEq

abbrev Table := List Row

def Table.ids (t : Table) : List (List Char) := t.filterMap Row.id

/-- The parameter in a column. -/
def InsertSql.cell (q : InsertSql) (params : List BoundParam) (row : List Nat) (column : String) :
    Option BoundParam :=
  match (q.columns.zip row).lookup column with
  | some k => params[k - 1]?
  | none => none

/-- A row of the statement, as the table stores it. -/
def PostgresSink.row (sink : PostgresSink) (q : InsertSql) (params : List BoundParam)
    (row : List Nat) : Row where
  id :=
    match sink.idColumn.bind (q.cell params row) with
    | some (.id hex) => some hex
    | _ => none
  payload :=
    match q.cell params row sink.column with
    | some (.payload bytes) => bytes
    | _ => []

/-- The rows that the insert of the records at some indices brings. -/
def PostgresSink.inserted (sink : PostgresSink) (batch : List Bytes)
    (idHex : Option (List (List Char))) (rows : List Nat) : List Row :=
  let q := sink.buildInsertSql rows.length
  q.values.map (sink.row q (buildParams batch idHex rows))

/-- An insert as a whole: refused if an id would stand twice, unless it skips such rows. -/
def Table.add (t : Table) (doNothing : Bool) (rows : List Row) : Option Table :=
  if doNothing then
    some (rows.foldl
      (fun t row => if (Table.ids (t ++ [row])).Nodup then t ++ [row] else t) t)
  else if (Table.ids (t ++ rows)).Nodup then some (t ++ rows)
  else none

/-- What the server may do with an insert, by what comes back (`none` is a timeout). -/
def Inserts (t : Table) (doNothing : Bool) (rows : List Row) (t' : Table) :
    Option (Except Failure Unit) → Prop
  | some (.ok _) => t.add doNothing rows = some t'
  | none | some (.error (.io _)) => t' = t ∨ t.add doNothing rows = some t'
  | some (.error (.pool _)) => t' = t
  | some (.error (.server code _)) => t' = t ∧ (code = "23505" → t.add doNothing rows = none)

/-- A lookup that can be read finds the ids that are there, padded or not. -/
def Finds (t : Table) (wanted : List (List Char)) :
    Option (Except Failure (List (Except String (List Char)))) → Prop
  | some (.ok cells) => ∀ found, collectIds cells = .ok found →
    ∀ id, id ∈ found.map trimPadding ↔ id ∈ wanted ∧ id ∈ t.ids
  | _ => True

/-- The table, and the statements of the attempt with what came back. -/
structure Served where
  table : Table
  log : List Issued

def insertAnswer (mode : InsertMode) : Except Failure Unit → Except StmtError Unit
  | .ok () => .ok ()
  | .error failure => .error (classifyStmt mode failure)

def lookupAnswer : Except Failure (List (Except String (List Char))) →
    Except StmtError (List (List Char))
  | .ok cells => collectIds cells
  | .error failure => .error (.other (classify failure))

/-- The server and the closures `insert` and `lookup_present` in front of it. -/
def serves (sink : PostgresSink) (batch : List Bytes) (idHex : Option (List (List Char))) :
    (c : SqlCall) → Served → c.Answer → Served → Prop
  | .clock, s, _, s' => s' = s
  | .stmt (.insert rows), s, answer, s' =>
    s'.log = s.log ++ [⟨.insert rows, answer⟩] ∧ ∃ reply,
      answer = reply.map (insertAnswer sink.insertMode) ∧
      Inserts s.table (sink.buildInsertSql rows.length).doNothing
        (sink.inserted batch idHex rows) s'.table reply
  | .stmt (.lookup rows), s, answer, s' =>
    s'.log = s.log ++ [⟨.lookup rows, answer⟩] ∧ s'.table = s.table ∧
      match sink.idColumn, idHex with
      | some _, some ids => ∃ reply, answer = reply.map lookupAnswer ∧
          Finds s.table (rows.map fun i => ids.getD i []) reply
      | _, _ => answer = some (.error (.other
          (.permanent "postgres" "duplicate-key lookup without an id column")))

/-- The ids that the statements are built from; none is issued where `commit` has refused the
batch. -/
def PostgresSink.boundIds (sink : PostgresSink) (batch : SinkBatch) : Option (List (List Char)) :=
  match sink.idHex batch with
  | .ok ids => ids
  | .error _ => none

/-- One attempt at a batch: what it returns, and the table and the log after it. -/
def Attempt (sink : PostgresSink) (batch : SinkBatch) (fuel : Nat) (t : Table)
    (r : Option (Except SqlSinkError CommitResult)) (log : List Issued) (t' : Table) : Prop :=
  Prog.Exec (serves sink batch.records (sink.boundIds batch)) (sink.commit batch fuel) ⟨t, []⟩ r
    ⟨t', log⟩

/-- Any number of attempts. -/
def Attempts (sink : PostgresSink) (batch : SinkBatch) (fuel : Nat) : Table → Table → Prop :=
  Relation.ReflTransGen fun t t' => ∃ r log, Attempt sink batch fuel t r log t'

/-! ## Parameters and rows -/

/-- Two parameters for each row: the ones at `2 * r` and `2 * r + 1`. -/
theorem getElem?_flatMap_pair {α β : Type} (f g : α → β) (rows : List α) :
    ∀ r, (rows.flatMap fun i => [f i, g i])[2 * r]? = rows[r]?.map f ∧
      (rows.flatMap fun i => [f i, g i])[2 * r + 1]? = rows[r]?.map g := by
  induction rows with
  | nil => simp
  | cons i rows ih =>
    intro r
    cases r with
    | zero => simp
    | succ r =>
      rw [show 2 * (r + 1) = 2 * r + 2 by omega]
      simpa using ih r

/-- Each row of the statement is the id and the payload of its record. -/
theorem PostgresSink.inserted_eq {sink : PostgresSink} {idColumn : String}
    (hid : sink.idColumn = some idColumn) (batch : List Bytes) (ids : List (List Char))
    (rows : List Nat) :
    sink.inserted batch (some ids) rows
      = rows.map fun i => ⟨some (ids.getD i []), batch.getD i []⟩ := by
  have hne : (sink.column == idColumn) = false := by
    rw [beq_eq_false_iff_ne]
    rintro rfl
    exact sink.distinct hid
  refine ext_getElem (by simp [inserted, buildInsertSql, hid]) fun r h₁ h₂ => ?_
  have hr : r < rows.length := by simpa using h₂
  obtain ⟨hidParam, hpayload⟩ := getElem?_flatMap_pair
    (fun i => BoundParam.id (ids.getD i [])) (fun i => .payload (batch.getD i [])) rows r
  rw [getElem?_eq_getElem hr, Option.map_some] at hidParam hpayload
  simp only [inserted, buildInsertSql, hid, row, InsertSql.cell, buildParams, getElem_map,
    getElem_range, Option.toList_some, singleton_append, zip_cons_cons,
    zip_nil_right, Option.bind_some, lookup_cons, beq_self_eq_true, hne,
    show r * 2 + 1 - 1 = 2 * r by omega, show r * 2 + 2 - 1 = 2 * r + 1 by omega, hidParam,
    hpayload]

/-! ## The log and the table -/

variable {t₀ t t' : Table}

theorem Table.mem_ids {id : List Char} : id ∈ t.ids ↔ ∃ row ∈ t, row.id = some id :=
  mem_filterMap

theorem Table.ids_append (t t' : Table) : Table.ids (t ++ t') = t.ids ++ t'.ids :=
  filterMap_append

theorem Table.ids_mono (h : t <+: t') {id : List Char} (hid : id ∈ t.ids) :
    id ∈ t'.ids := by
  obtain ⟨row, hrow, hrid⟩ := Table.mem_ids.mp hid
  exact Table.mem_ids.mpr ⟨row, h.subset hrow, hrid⟩

/-- A plain insert, by what the fallback is told of it. -/
structure Inserted (new : List Row) (t t' : Table) (answer : Option (Except StmtError Unit)) :
    Prop where
  table : t' = t ∨ t' = t ++ new ∧ (Table.ids t').Nodup ∧
    ∀ err, answer = some (.error err) → err.transient ≠ none
  ok : answer = some (.ok ()) → t' = t ++ new
  dup : ∀ msg, answer = some (.error (.dupKey msg)) → ¬(Table.ids (t ++ new)).Nodup

theorem Table.add_plain {new : List Row} (h : t.add false new = some t') :
    t' = t ++ new ∧ (Table.ids t').Nodup := by
  simp only [Table.add, Bool.false_eq_true, if_false] at h
  split at h
  next hnodup =>
    cases h
    exact ⟨rfl, hnodup⟩
  · cases h

theorem Inserts.inserted {new : List Row} {reply : Option (Except Failure Unit)}
    (h : Inserts t false new t' reply) : Inserted new t t' (reply.map (insertAnswer .plain)) := by
  -- what came back says nothing about the table
  have hunknown : ∀ {answer : Option (Except StmtError Unit)},
      (∀ err, answer = some (.error err) → err.transient ≠ none) → answer ≠ some (.ok ()) →
      (t' = t ∨ t.add false new = some t') → Inserted new t t' answer := by
    intro answer htr hok hor
    refine ⟨hor.imp_right fun hadd => ?_, fun h => absurd h hok, fun msg hdup => ?_⟩
    · obtain ⟨ht, hnodup⟩ := Table.add_plain hadd
      exact ⟨ht, hnodup, htr⟩
    · exact absurd rfl (htr _ hdup)
  match reply with
  | none => exact hunknown (by simp) (by simp) h
  | some (.ok ()) =>
    obtain ⟨ht, hnodup⟩ := Table.add_plain h
    exact ⟨.inr ⟨ht, hnodup, by simp [insertAnswer]⟩, fun _ => ht, by simp [insertAnswer]⟩
  | some (.error (.io text)) =>
    exact hunknown (by simp [insertAnswer, classifyStmt, classify, StmtError.transient,
      SqlSinkError.isTransient]) (by simp [insertAnswer]) h
  | some (.error (.pool text)) =>
    exact hunknown (by simp [insertAnswer, classifyStmt, classify, StmtError.transient,
      SqlSinkError.isTransient]) (by simp [insertAnswer]) (.inl h)
  | some (.error (.server code message)) =>
    refine ⟨.inl h.1, by simp [insertAnswer], fun msg hdup => ?_⟩
    have hcode : code = "23505" := by
      by_contra hne
      simp [insertAnswer, classifyStmt, isDupKey, hne] at hdup
    have hadd := h.2 hcode
    intro hnodup
    rw [Table.add, if_neg Bool.false_ne_true, if_pos hnodup] at hadd
    cases hadd

section

variable {hexes : List (List Char)} {records : List Bytes}

/-- The row of a record. -/
def rowOf (hexes : List (List Char)) (records : List Bytes) (i : Nat) : Row :=
  ⟨some (hexes.getD i []), records.getD i []⟩

/-- The statement may have brought the row. -/
def Brings (hexes : List (List Char)) (records : List Bytes) (row : Row) : Issued → Prop
  | ⟨.insert set, answer⟩ => (∀ err, answer = some (.error err) → err.transient ≠ none) ∧
      ∃ i ∈ set, i < records.length ∧ row = rowOf hexes records i
  | ⟨.lookup _, _⟩ => False

/-- What came back is true of the table: `t₀` is the one the attempt began with, `t` the one
now. -/
def Agrees (hexes : List (List Char)) (records : List Bytes) (t₀ t : Table) : Issued → Prop
  | ⟨.insert set, some (.ok _)⟩ => ∀ i ∈ set, rowOf hexes records i ∈ t
  | ⟨.insert [i], some (.error (.dupKey _))⟩ => hexes.getD i [] ∈ t.ids
  | ⟨.lookup asked, some (.ok found)⟩ => (∀ id ∈ found, trimPadding id ∈ t.ids) ∧
      ∀ i ∈ asked, hexes.getD i [] ∈ t₀.ids → hexes.getD i [] ∈ found.map trimPadding
  | ⟨.lookup _, some (.error (.dupKey _))⟩ => False
  | _ => True

theorem Agrees.mono (h : t <+: t') {e : Issued} (he : Agrees hexes records t₀ t e) :
    Agrees hexes records t₀ t' e := by
  unfold Agrees at he ⊢
  split at he
  · exact fun i hi => h.subset (he i hi)
  · exact Table.ids_mono h he
  · exact ⟨fun id hid => Table.ids_mono h (he.1 id hid), he.2⟩
  · exact he
  · trivial

/-- The table through an attempt: it only grows, ids stay unique, each new row was brought by a
statement of the log, and the log is true of it. -/
structure Tracks (hexes : List (List Char)) (records : List Bytes) (t₀ : Table) (s : Served) :
    Prop where
  grows : t₀ <+: s.table
  nodup : s.table.ids.Nodup
  source : ∀ row ∈ s.table, row ∈ t₀ ∨ ∃ e ∈ s.log, Brings hexes records row e
  agrees : ∀ e ∈ s.log, Agrees hexes records t₀ s.table e

/-- One statement. -/
theorem Tracks.issue {s s' : Served} (h : Tracks hexes records t₀ s) {e : Issued}
    (hlog : s'.log = s.log ++ [e]) (hgrows : s.table <+: s'.table) (hnodup : s'.table.ids.Nodup)
    (hsource : ∀ row ∈ s'.table, row ∈ s.table ∨ Brings hexes records row e)
    (hagrees : Agrees hexes records t₀ s'.table e) : Tracks hexes records t₀ s' := by
  have he : e ∈ s'.log := by rw [hlog]; exact mem_append_right _ mem_cons_self
  have hold : ∀ e' ∈ s.log, e' ∈ s'.log := by
    intro e' he'
    rw [hlog]
    exact mem_append_left _ he'
  refine ⟨h.grows.trans hgrows, hnodup, fun row hrow => ?_, fun e' he' => ?_⟩
  · rcases hsource row hrow with hrow | hbrings
    · exact (h.source row hrow).imp_right fun ⟨e', he', hb⟩ => ⟨e', hold e' he', hb⟩
    · exact .inr ⟨e, he, hbrings⟩
  · rw [hlog] at he'
    rcases mem_append.mp he' with he' | he'
    · exact (h.agrees e' he').mono hgrows
    · rw [mem_singleton.mp he']
      exact hagrees

theorem agrees_insert {rows : List Nat} {answer : Option (Except StmtError Unit)}
    (hnodup : t.ids.Nodup)
    (h : Inserted (rows.map (rowOf hexes records)) t t' answer) :
    Agrees hexes records t₀ t' ⟨.insert rows, answer⟩ := by
  match rows, answer with
  | rows, some (.ok ()) =>
    intro i hi
    rw [h.ok rfl]
    exact mem_append_right _ (mem_map_of_mem hi)
  | [i], some (.error (.dupKey msg)) =>
    have ht : t' = t := h.table.resolve_right fun ⟨_, _, htr⟩ => htr _ rfl rfl
    show hexes.getD i [] ∈ t'.ids
    rw [ht]
    by_contra hfresh
    refine h.dup msg rfl ?_
    have hone : Table.ids ([i].map (rowOf hexes records)) = [hexes.getD i []] := rfl
    rw [Table.ids_append, hone]
    refine nodup_append.mpr ⟨hnodup, nodup_singleton _, fun id hid id' hid' heq => ?_⟩
    rw [← mem_singleton.mp hid', ← heq] at hfresh
    exact hfresh hid
  | [], some (.error (.dupKey _)) | _ :: _ :: _, some (.error (.dupKey _)) => trivial
  | [], some (.error (.other _)) | [_], some (.error (.other _))
  | _ :: _ :: _, some (.error (.other _)) => trivial
  | [], none | [_], none | _ :: _ :: _, none => trivial

theorem collectIds_error {cells : List (Except String (List Char))} {e : StmtError}
    (h : collectIds cells = .error e) : ∃ e', e = .other e' := by
  induction cells with
  | nil => cases h
  | cons cell cells ih =>
    cases cell with
    | error text => exact ⟨_, (Except.error.inj h).symm⟩
    | ok id =>
      rw [collectIds] at h
      split at h
      · cases h
      next e' hcells =>
        rw [Except.error.inj h] at hcells
        exact ih hcells

theorem agrees_lookup {rows : List Nat}
    {reply : Option (Except Failure (List (Except String (List Char))))} (hgrows : t₀ <+: t)
    (h : Finds t (rows.map fun i => hexes.getD i []) reply) :
    Agrees hexes records t₀ t ⟨.lookup rows, reply.map lookupAnswer⟩ := by
  match reply with
  | none => trivial
  | some (.error failure) => trivial
  | some (.ok cells) =>
    show Agrees hexes records t₀ t ⟨.lookup rows, some (collectIds cells)⟩
    cases hcells : collectIds cells with
    | error e =>
      obtain ⟨e', rfl⟩ := collectIds_error hcells
      trivial
    | ok found =>
      have hexact := h found hcells
      refine ⟨fun id hid => ?_, fun i hi hold => ?_⟩
      · exact ((hexact _).mp (mem_map_of_mem hid)).2
      · exact (hexact _).mpr ⟨mem_map_of_mem hi, Table.ids_mono hgrows hold⟩

theorem Tracks.step {sink : PostgresSink} {idColumn : String}
    (hid : sink.idColumn = some idColumn) (hmode : sink.insertMode = .plain)
    {c : SqlCall} {s s' : Served} {r : c.Answer} (hc : c.InRange records.length)
    (hstep : serves sink records (some hexes) c s r s') (h : Tracks hexes records t₀ s) :
    Tracks hexes records t₀ s' := by
  match c, r, hc, hstep with
  | .clock, _, _, hstep =>
    obtain rfl : s' = s := hstep
    exact h
  | .stmt (.insert rows), answer, hrange, ⟨hlog, reply, hanswer, hinserts⟩ =>
    have hdo : (sink.buildInsertSql rows.length).doNothing = false := by
      simp [PostgresSink.buildInsertSql, hmode]
    rw [hdo, PostgresSink.inserted_eq hid] at hinserts
    have hins := hinserts.inserted
    rw [hmode] at hanswer
    rw [← hanswer] at hins
    have hgrows : s.table <+: s'.table := by
      rcases hins.table with ht | ⟨ht, -, -⟩ <;> rw [ht]
      exact prefix_append ..
    refine h.issue hlog hgrows ?_ (fun row hrow => ?_) ?_
    · rcases hins.table with ht | ⟨-, hnodup, -⟩
      · rw [ht]
        exact h.nodup
      · exact hnodup
    · rcases hins.table with ht | ⟨ht, -, htr⟩
      · exact .inl (ht ▸ hrow)
      rw [ht] at hrow
      refine (mem_append.mp hrow).imp_right fun hnew => ⟨htr, ?_⟩
      obtain ⟨i, hi, rfl⟩ := mem_map.mp hnew
      exact ⟨i, hi, hrange i hi, rfl⟩
    · exact agrees_insert h.nodup hins
  | .stmt (.lookup rows), answer, _, ⟨hlog, htable, hfinds⟩ =>
    rw [hid] at hfinds
    obtain ⟨reply, hanswer, hfinds⟩ := hfinds
    refine h.issue hlog (htable ▸ prefix_rfl) (htable ▸ h.nodup)
      (fun row hrow => .inl (htable ▸ hrow)) ?_
    rw [hanswer, htable]
    exact agrees_lookup h.grows hfinds

variable {s : Served} {n : Nat}

/-- A row that a statement stored is in the table. -/
theorem Tracks.mem_of_stored (h : Tracks hexes records t₀ s) {i : Nat}
    (hstored : Stored (some hexes) s.log i) : hexes.getD i [] ∈ s.table.ids := by
  obtain ⟨e, he, hby⟩ := hstored
  have hagrees := h.agrees e he
  match e with
  | ⟨.insert set, some (.ok _)⟩ =>
    exact Table.mem_ids.mpr ⟨_, hagrees i hby, rfl⟩
  | ⟨.lookup asked, some (.ok found)⟩ =>
    obtain ⟨_, hhexes, id, hid, hget⟩ := hby
    cases hhexes
    rw [getD_eq_getElem?_getD, hget]
    exact hagrees.1 id hid

/-- Once the ids were looked up and every statement was answered, a row that no statement stored
is not in the table. -/
theorem Tracks.not_mem (h : Tracks hexes records t₀ s) (hnodup : hexes.Nodup)
    (hlen : hexes.length = records.length) (hsettled : ∀ e ∈ s.log, e.Settled)
    {found : List (List Char)}
    (hlookup : ⟨.lookup (range records.length), some (.ok found)⟩ ∈ s.log) {i : Nat}
    (hi : i < records.length) (hstored : ¬Stored (some hexes) s.log i) :
    hexes.getD i [] ∉ s.table.ids := by
  intro hmem
  obtain ⟨row, hrow, hrid⟩ := Table.mem_ids.mp hmem
  have hget := getElem?_eq_getD hexes [] (hlen ▸ hi)
  rcases h.source row hrow with hold | ⟨e, he, hbrings⟩
  · -- it was there before the attempt, and the lookup found it
    obtain ⟨id, hid, heq⟩ := mem_map.mp
      ((h.agrees _ hlookup).2 i (mem_range.mpr hi) (Table.mem_ids.mpr ⟨row, hold, hrid⟩))
    exact hstored ⟨_, hlookup, hexes, rfl, id, hid, heq ▸ hget⟩
  · match e with
    | ⟨.insert set, answer⟩ =>
      obtain ⟨htr, j, hj, hjlt, rfl⟩ := hbrings
      -- distinct ids: the row is the one that was inserted
      have hij : j = i := by
        refine (getElem?_inj (hlen ▸ hjlt) hnodup).mp ?_
        rw [hget, getElem?_eq_getD hexes [] (hlen ▸ hjlt), ← Option.some.inj hrid]
      obtain ⟨r, hr, hperm⟩ := hsettled _ he
      match answer, r with
      | some (.ok _), _ => exact hstored ⟨_, he, hij ▸ hj⟩
      | some (.error err), r =>
        cases hr
        exact htr err rfl (hperm err rfl)

end

/-! ## Attempts -/

theorem serves_logged {sink : PostgresSink} {records : List Bytes}
    {idHex : Option (List (List Char))} (c : SqlCall) (s : Served) (r : c.Answer) (s' : Served)
    (h : serves sink records idHex c s r s') : logged c s.log r s'.log := by
  match c, r, h with
  | .clock, _, h => exact congrArg Served.log h
  | .stmt (.insert rows), _, h => exact h.1
  | .stmt (.lookup rows), _, h => exact h.1

section

variable {sink : PostgresSink} {idColumn : String} {batch : SinkBatch} {rids : List RecordId}
  {fuel : Nat} {r : Option (Except SqlSinkError CommitResult)} {log : List Issued}

theorem PostgresSink.idHex_eq (hid : sink.idColumn = some idColumn)
    (hrids : batch.recordIds = some rids) : sink.idHex batch = .ok (some (rids.map toHex)) := by
  simp only [PostgresSink.idHex, perRecordIdHex, hid, hrids, if_pos (batch.parallel rids hrids)]

/-- One attempt returns; its log is true of the table, and what it returns as `Ok` rests on the
log. -/
theorem Attempt.spec (hid : sink.idColumn = some idColumn) (hmode : sink.insertMode = .plain)
    (hrids : batch.recordIds = some rids) (hfuel : 2 * batch.records.length ≤ fuel)
    (ht : t.ids.Nodup) (h : Attempt sink batch fuel t r log t') :
    Tracks (rids.map toHex) batch.records t ⟨t', log⟩ ∧ r ≠ none ∧
      ∀ result, r = some (.ok result) → ∃ cs ds, result = rowsAt batch.records cs ds ∧
        Resolved batch.records.length (some (rids.map toHex)) log cs ds := by
  have hids := PostgresSink.idHex_eq hid hrids
  have hstart : Tracks (rids.map toHex) batch.records t ⟨t, []⟩ :=
    ⟨prefix_rfl, ht, fun row hrow => .inl hrow, by simp⟩
  unfold Attempt PostgresSink.boundIds PostgresSink.commit at h
  rw [hids] at h
  dsimp only at h
  split at h
  next hnil =>
    obtain ⟨rfl, hs⟩ := h.pure_inv
    obtain ⟨rfl, rfl⟩ := Served.mk.inj hs
    refine ⟨hstart, by simp, fun result hresult => ⟨[], [], ?_, ?_⟩⟩
    · rw [← Except.ok.inj (Option.some.inj hresult)]
      rfl
    · exact ⟨⟨by simp [hnil], .nil, .nil⟩, by simp, by simp, by simp⟩
  next hne =>
    have hlen : ∀ hexes ∈ some (rids.map toHex), hexes.length = batch.records.length := by
      intro hexes hhexes
      rw [← Option.some.inj hhexes, length_map]
      exact batch.parallel rids hrids
    obtain ⟨hreturns, -, hrange, hok⟩ := insertWithDupFallback_spec "postgres" hne hlen hfuel
      (h.project Served.log serves_logged)
    obtain ⟨hexec, -⟩ := h.guarded (Q := fun s => LogInRange batch.records.length s.log)
      (fun c s r s' hstep => (logged_inRange (serves_logged c s r s' hstep)).mp) hrange
    have htracks : Tracks (rids.map toHex) batch.records t ⟨t', log⟩ :=
      hexec.invariant (fun c s r s' hstep hs => hs.step hid hmode hstep.1 hstep.2) hstart
    exact ⟨htracks, hreturns, hok⟩

/-- What attempts add are rows of the batch. -/
structure Extends (hexes : List (List Char)) (records : List Bytes) (t₀ t : Table) : Prop where
  grows : t₀ <+: t
  nodup : t.ids.Nodup
  rows : ∀ row ∈ t, row ∈ t₀ ∨ ∃ i < records.length, row = rowOf hexes records i

theorem Extends.attempt {hexes : List (List Char)} {records : List Bytes}
    (h : Extends hexes records t₀ t) (htracks : Tracks hexes records t ⟨t', log⟩) :
    Extends hexes records t₀ t' := by
  refine ⟨h.grows.trans htracks.grows, htracks.nodup, fun row hrow => ?_⟩
  rcases htracks.source row hrow with hold | ⟨e, -, hbrings⟩
  · exact h.rows row hold
  match e with
  | ⟨.insert set, answer⟩ =>
    obtain ⟨-, i, -, hi, hrow⟩ := hbrings
    exact .inr ⟨i, hi, hrow⟩

theorem Attempts.extends (hid : sink.idColumn = some idColumn)
    (hmode : sink.insertMode = .plain) (hrids : batch.recordIds = some rids)
    (hfuel : 2 * batch.records.length ≤ fuel) (ht₀ : t₀.ids.Nodup)
    (h : Attempts sink batch fuel t₀ t) : Extends (rids.map toHex) batch.records t₀ t := by
  induction h with
  | refl => exact ⟨prefix_rfl, ht₀, fun row hrow => .inl hrow⟩
  | tail _ hattempt ih =>
    obtain ⟨r, log, hattempt⟩ := hattempt
    exact ih.attempt (hattempt.spec hid hmode hrids hfuel ih.nodup).1

end

/-- A partition with nothing dead-lettered is the batch. -/
theorem Partition.rowsAt_nil {records : List Bytes} {cs : List Nat}
    (h : Partition records.length cs []) : rowsAt records cs [] = ⟨records, []⟩ := by
  have hperm : cs.Perm (range records.length) := by simpa using h.rows
  have hcs : cs = range records.length :=
    hperm.eq_of_pairwise (fun _ _ _ _ hab hba => absurd hba (lt_asymm hab)) h.committed
      pairwise_lt_range
  rw [hcs, rowsAt, rows_eq_map_range]
  rfl

/-- The statement failed permanently, and not by a duplicate key. -/
def Issued.permanentOther (e : Issued) : Bool :=
  match e.answer with
  | some (.error (.other err)) => !err.isTransient
  | _ => false

/-- Plain-mode retries with an id column. Whatever attempts at a batch with distinct ids came
before, cut short or not, every id stands at most once and only rows of the batch were added. If
an attempt returns `Ok`, a dead-lettered row is not in the table, unless its lookup failed or the
first insert failed permanently for another reason than a duplicate key; and if no statement of
it failed permanently for another reason, every row is in the table and reported committed. -/
theorem plain_retries_idempotent {sink : PostgresSink} {idColumn : String}
    (hid : sink.idColumn = some idColumn) (hmode : sink.insertMode = .plain) {batch : SinkBatch}
    {rids : List RecordId} (hrids : batch.recordIds = some rids) (hnodup : rids.Nodup)
    {fuel : Nat} (hfuel : 2 * batch.records.length ≤ fuel) {t₀ t : Table} (ht₀ : t₀.ids.Nodup)
    (h : Attempts sink batch fuel t₀ t) :
    Extends (rids.map toHex) batch.records t₀ t ∧
    ∀ r log t', Attempt sink batch fuel t r log t' → r ≠ none ∧
      ∀ result, r = some (.ok result) →
        (¬FailedWhole batch.records.length log →
          (∀ asked answer, ⟨.lookup asked, answer⟩ ∈ log → ∃ found, answer = some (.ok found)) →
          ∃ cs ds, result = rowsAt batch.records cs ds ∧ Partition batch.records.length cs ds ∧
            ∀ d ∈ ds, (rids.map toHex).getD d.1 [] ∉ t'.ids) ∧
        (log.any Issued.permanentOther = false →
          result = ⟨batch.records, []⟩ ∧ ∀ i < batch.records.length, ∃ row ∈ t',
            row.id = some ((rids.map toHex).getD i []) ∧
            (row ∈ t₀ ∨ row.payload = batch.records.getD i [])) := by
  have hextends := h.extends hid hmode hrids hfuel ht₀
  refine ⟨hextends, fun r log t' hattempt => ?_⟩
  obtain ⟨htracks, hreturns, hok⟩ := hattempt.spec hid hmode hrids hfuel hextends.nodup
  refine ⟨hreturns, fun result hresult => ?_⟩
  obtain ⟨cs, ds, hrowsAt, hres⟩ := hok result hresult
  have hhexes : (rids.map toHex).Nodup := hnodup.map fun a b => toHex_inj
  have hlen : (rids.map toHex).length = batch.records.length := by
    rw [length_map]
    exact batch.parallel rids hrids
  have hlt : ∀ i ∈ cs ++ ds.map Prod.fst, i < batch.records.length :=
    fun i hi => mem_range.mp (hres.partition.rows.subset hi)
  -- a row that was dead-lettered on its own is not there, if the lookup succeeded
  have habsent : ¬FailedWhole batch.records.length log →
      (∀ asked answer, ⟨.lookup asked, answer⟩ ∈ log → ∃ found, answer = some (.ok found)) →
      ∀ d ∈ ds, Refused log d.1 ∧ (rids.map toHex).getD d.1 [] ∉ t'.ids := by
    intro hwhole hlookups d hd
    obtain ⟨hrefused, hstored, hlooked⟩ := (hres.deadLettered d hd).resolve_left hwhole
    obtain ⟨answer, hlookup⟩ := hlooked rfl
    obtain ⟨found, rfl⟩ := hlookups _ _ hlookup
    exact ⟨hrefused, htracks.not_mem hhexes hlen hres.settled hlookup
      (hlt _ (mem_append_right _ (mem_map_of_mem hd))) hstored⟩
  refine ⟨fun hwhole hlookups => ⟨cs, ds, hrowsAt, hres.partition, fun d hd =>
    (habsent hwhole hlookups d hd).2⟩, fun hother => ?_⟩
  rw [any_eq_false] at hother
  have hwhole : ¬FailedWhole batch.records.length log := by
    rintro ⟨e, htr, hhead⟩
    exact hother _ (mem_of_head? hhead) (by simp [Issued.permanentOther, htr])
  have hlookups : ∀ asked answer, ⟨.lookup asked, answer⟩ ∈ log →
      ∃ found, answer = some (.ok found) := by
    intro asked answer hmem
    have hagrees := htracks.agrees _ hmem
    obtain ⟨a, ha, hsettled⟩ := hres.settled _ hmem
    match answer, a with
    | some (.ok found), _ => exact ⟨found, rfl⟩
    | some (.error (.dupKey _)), _ => exact hagrees.elim
    | some (.error (.other e)), a =>
      cases ha
      have hperm := hsettled _ rfl
      have htr := hother _ hmem
      simp only [Issued.permanentOther, Bool.not_eq_true, Bool.not_eq_false'] at htr
      simp [StmtError.transient, htr] at hperm
  have hds : ds = [] := by
    refine eq_nil_iff_forall_not_mem.mpr fun d hd => ?_
    obtain ⟨⟨err, htr, hmem⟩, hnot⟩ := habsent hwhole hlookups d hd
    cases err with
    | dupKey msg => exact hnot (htracks.agrees _ hmem)
    | other e =>
      have he := hother _ hmem
      simp only [Issued.permanentOther, Bool.not_eq_true, Bool.not_eq_false'] at he
      simp [StmtError.transient, he] at htr
  subst hds
  refine ⟨hrowsAt.trans hres.partition.rowsAt_nil, fun i hi => ?_⟩
  have hcs : i ∈ cs := by
    have := hres.partition.rows.symm.subset (mem_range.mpr hi)
    simpa using this
  obtain ⟨row, hrow, hrid⟩ := Table.mem_ids.mp (htracks.mem_of_stored (hres.committed i hcs))
  refine ⟨row, hrow, hrid, ?_⟩
  rcases (hextends.attempt htracks).rows row hrow with hold | ⟨j, hj, rfl⟩
  · exact .inl hold
  right
  have hij : j = i := by
    refine (getElem?_inj (hlen ▸ hj) hhexes).mp ?_
    rw [getElem?_eq_getD _ [] (hlen ▸ hj), getElem?_eq_getD _ [] (hlen ▸ hi)]
    exact hrid
  rw [hij]
  rfl

/-- Two records with their ids. -/
def twoRecords : SinkBatch where
  records := [[1], [2]]
  dedupToken := []
  recordIds := some [[1], [2]]
  segmentCreatedAt := none
  parallel := by simp

def plainSink : PostgresSink := ⟨"events", "payload", some "id", .plain, by decide⟩

example : (plainSink.buildInsertSql 2).text
    = "INSERT INTO \"events\" (\"id\", \"payload\") VALUES ($1, $2), ($3, $4)" := by
  decide +kernel

def twoRows : Table := [⟨some ['0', '1'], [1]⟩, ⟨some ['0', '2'], [2]⟩]

/-- An attempt whose insert is applied, and times out. -/
theorem twoRecords_timeout : Attempts plainSink twoRecords 4 [] twoRows := by
  refine .single ⟨some (.error (.timeout "postgres")), [⟨.insert [0, 1], none⟩], ?_⟩
  exact .bind (bounded_exec rfl ⟨rfl, none, rfl, .inr (by decide +kernel)⟩ rfl) .pure

/-- The first attempt times out after its insert was applied; at the second one the insert fails
permanently, and both rows are dead-lettered although they are in the table. -/
theorem permanent_error_dead_letters_stored :
    Attempts plainSink twoRecords 4 [] twoRows ∧ ∃ log,
      Attempt plainSink twoRecords 4 twoRows
        (some (.ok ⟨[], [([1], "postgres sink permanent: server 42501: denied"),
          ([2], "postgres sink permanent: server 42501: denied")]⟩)) log twoRows ∧
      log.map Issued.stmt = [.insert [0, 1]] := by
  let denied : StmtError := .other (.permanent "postgres" "server 42501: denied")
  have hinsert : Prog.Exec (serves plainSink twoRecords.records (plainSink.boundIds twoRecords))
      (bounded "postgres" (.insert [0, 1])) ⟨twoRows, []⟩ (.error denied)
      ⟨twoRows, [⟨.insert [0, 1], some (.error denied)⟩]⟩ :=
    bounded_exec rfl ⟨rfl, some (.error (.server "42501" "denied")), rfl, rfl, by decide⟩ rfl
  exact ⟨twoRecords_timeout, _, .bind hinsert .pure, rfl⟩

theorem plain_retries_idempotent_timeout :
    ∃ log, Attempt plainSink twoRecords 4 twoRows (some (.ok ⟨[[1], [2]], []⟩)) log twoRows ∧
      log.map Issued.stmt = [.insert [0, 1], .lookup [0, 1]] ∧
      ∀ i < 2, ∃ row ∈ twoRows, row.id = some ([['0', '1'], ['0', '2']].getD i []) ∧
        (row ∈ ([] : Table) ∨ row.payload = [[1], [2]].getD i []) := by
  let ids : List (List Char) := [['0', '1'], ['0', '2']]
  -- the insert finds both ids there, and so does the lookup
  let refused : Issued := ⟨.insert [0, 1], some (.error (.dupKey "server 23505: exists"))⟩
  let found : Issued := ⟨.lookup [0, 1], some (.ok ids)⟩
  have hinsert : Prog.Exec (serves plainSink twoRecords.records (some ids))
      (bounded "postgres" (.insert [0, 1])) ⟨twoRows, []⟩ (.error (.dupKey "server 23505: exists"))
      ⟨twoRows, [refused]⟩ :=
    bounded_exec rfl ⟨rfl, some (.error (.server "23505" "exists")), rfl, rfl, fun _ => by
      decide +kernel⟩ rfl
  have hlookup : Prog.Exec (serves plainSink twoRecords.records (some ids))
      (bounded "postgres" (.lookup [0, 1])) ⟨twoRows, [refused]⟩ (.ok ids)
      ⟨twoRows, [refused, found]⟩ := by
    refine bounded_exec rfl ⟨rfl, rfl, some (.ok (ids.map .ok)), rfl, ?_⟩ rfl
    rintro _ ⟨⟩ id
    exact and_self_iff.symm
  have h : Attempt plainSink twoRecords 4 twoRows (some (.ok ⟨[[1], [2]], []⟩)) [refused, found]
      twoRows := .bind hinsert (.bind (.bind hlookup .pure) .pure)
  have hempty : (Table.ids []).Nodup := nodup_nil
  have hretries := plain_retries_idempotent rfl rfl rfl (by decide) (by decide) hempty
    twoRecords_timeout
  obtain ⟨-, hrows⟩ := ((hretries.2 _ _ _ h).2 _ rfl).2 (by decide +kernel)
  exact ⟨_, h, rfl, hrows⟩

end Weir.Sink

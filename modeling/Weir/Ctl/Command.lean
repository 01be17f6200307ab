import Mathlib.Data.List.Sort
import Mathlib.Data.String.Basic
import Weir.Lib.Program
import Weir.Wab.Flush
import Weir.Wab.Forensic

/-!
# Commands of `weir-ctl` that push and delete (`weir-ctl/src/main.rs`)

`quarantine requeue` and `dl requeue` go through a directory of segment files: they read
a file, push its records to the daemon, and delete it. What they ask for is a `CtlCall`;
`acts` is what may come back, with the files of the directory and the log of what was
pushed and deleted.

> `pushAll_spec`: the records are pushed in order, and the first failure is the last push.

> `forEach_spec`: what every turn of the loop does to its file, the loop does to all of them.
-/

namespace Weir.Ctl

open Weir.Lib Weir.Wab List

/-- A file as it was opened: its bytes, what its reads meet, and the error of `metadata`. -/
structure Opened where
  file : Bytes
  fault : ReadFault
  stat : Option IoError

inductive CtlCall
  | wabDir
  | readDir
  | «open» (name : String)
  | connect
  | push (payload : Bytes) (durability : Durability)
  | remove (name : String)

/-- The directory is a list of names, each with whether it is a file; a push fails with the
displayed error. -/
abbrev CtlCall.Answer : CtlCall → Type
  | .wabDir => Except IoError Unit
  | .readDir => Except IoError (List (String × Bool))
  | .open _ => Except IoError Opened
  | .connect => Except String Unit
  | .push _ _ => Except String Unit
  | .remove _ => Except IoError Unit

abbrev Cmd (α : Type) := Prog CtlCall CtlCall.Answer α

/-- One call. -/
def ask (c : CtlCall) : Cmd c.Answer := Prog.ask c

/-- The files of the directory whose names are those of segments. -/
def segmentNames (isSegment : String → Bool) (entries : List (String × Bool)) : List String :=
  (entries.filter fun entry => entry.2 && isSegment entry.1).map Prod.fst

/-- `quarantine_segments` and `dl_segments_filtered`: the names that are segments, sorted. A
missing directory is empty. -/
def listSegments (dir : String) (isSegment : String → Bool) :
    Cmd (Except String (List String)) := do
  match ← ask .readDir with
  | .error e =>
    if e.kind = .notFound then return .ok []
    else return .error ("read " ++ dir ++ ": " ++ e.message)
  | .ok entries =>
    return .ok ((segmentNames isSegment entries).insertionSort fun a b => a.toList ≤ b.toList)

/-- The loop over the records of a segment: how many were accepted before the first failure, and
the failure. -/
def pushAll (durability : Durability) : List Bytes → Nat → Cmd (Option (Nat × String))
  | [], _ => return none
  | record :: records, i => do
    match ← ask (.push record durability) with
    | .error e => return some (i, e)
    | .ok () => pushAll durability records (i + 1)

/-- The loop over the segments, which an error leaves. -/
def forEach {τ : Type} (body : τ → String → Cmd (Except String τ)) :
    List String → τ → Cmd (Except String τ)
  | [], t => return .ok t
  | name :: names, t => do
    match ← body t name with
    | .error e => return .error e
    | .ok t' => forEach body names t'

def connectClient (socket : String) : Cmd (Except String Unit) := do
  match ← ask .connect with
  | .error e =>
    return .error ("connect " ++ socket ++ ": " ++ e
      ++ "\n  hint: is the weir daemon running, and is --socket the right path? "
      ++ "(default /run/weir/weir.sock)")
  | .ok () => return .ok ()

def ensureWabDir (wabDir : String) : Cmd (Except String Unit) := do
  match ← ask .wabDir with
  | .error e => return .error ("read " ++ wabDir ++ ": " ++ e.message)
  | .ok () => return .ok ()

/-! ## The directory and the daemon -/

/-- A push that was made, with its outcome, or a file that was deleted. -/
inductive Event
  | pushed (payload : Bytes) (durability : Durability) (accepted : Bool)
  | removed (name : String)
  deriving DecidableEq

structure World where
  entries : List (String × Bool)
  files : String → Option Bytes
  log : List Event

/-- What a call may come back with, and what it does. -/
def acts : (c : CtlCall) → World → c.Answer → World → Prop
  | .wabDir, w, _, w' => w' = w
  | .readDir, w, answer, w' =>
    w' = w ∧ (∀ entries, answer = .ok entries → entries = w.entries) ∧
      ∀ e, answer = .error e → e.kind = .notFound → w.entries = []
  | .open name, w, answer, w' =>
    w' = w ∧ ∀ opened, answer = .ok opened → w.files name = some opened.file
  | .connect, w, _, w' => w' = w
  | .push payload durability, w, answer, w' =>
    w' = { w with log := w.log ++ [.pushed payload durability answer.isOk] }
  | .remove name, w, answer, w' =>
    match answer with
    | .ok _ =>
      w' = { w with
        files := fun other => if other = name then none else w.files other
        log := w.log ++ [.removed name] }
    | .error _ => w' = w

/-- Where nothing fails. -/
def World.serve : (c : CtlCall) → World → c.Answer × World
  | .wabDir, w => (.ok (), w)
  | .readDir, w => (.ok w.entries, w)
  | .open name, w =>
    (match w.files name with
      | some file => .ok ⟨file, noFault, none⟩
      | none => .error (IoError.new .notFound "No such file or directory"), w)
  | .connect, w => (.ok (), w)
  | .push payload durability, w =>
    (.ok (), { w with log := w.log ++ [.pushed payload durability true] })
  | .remove name, w =>
    (.ok (), { w with
      files := fun other => if other = name then none else w.files other
      log := w.log ++ [.removed name] })

theorem World.serve_acts (c : CtlCall) (w : World) : acts c w (w.serve c).1 (w.serve c).2 := by
  cases c with
  | wabDir => rfl
  | readDir => exact ⟨rfl, fun entries h => (Except.ok.inj h).symm, fun e h => by cases h⟩
  | «open» name =>
    refine ⟨rfl, fun opened h => ?_⟩
    unfold World.serve at h
    dsimp only at h
    split at h
    next file hfile => rw [hfile, ← Except.ok.inj h]
    · cases h
  | connect => rfl
  | push payload durability => rfl
  | remove name => rfl

/-! ## What a run leaves behind -/

/-- The events of one file: its records in order from the first, up to a push that failed or to
the last, and then perhaps its deletion. -/
inductive InOrder (durability : Durability) (name : String) (records : List Bytes) :
    List Event → Prop
  | failed (k : Nat) (hk : k < records.length) :
      InOrder durability name records
        ((records.take k).map (.pushed · durability true) ++ [.pushed records[k] durability false])
  | kept : InOrder durability name records (records.map (.pushed · durability true))
  | removed : InOrder durability name records
      (records.map (.pushed · durability true) ++ [.removed name])

variable {name : String} {durability : Durability} {events : List Event}
  {records : List Bytes} {w₀ : World} {isSegment : String → Bool} {r : Except String Unit}

/-- A deletion comes after all records. -/
theorem InOrder.of_removed
    (h : InOrder durability name records events) (hmem : .removed name ∈ events) :
    events = records.map (.pushed · durability true) ++ [.removed name] := by
  have hnot : ∀ rs : List Bytes, .removed name ∉ rs.map (Event.pushed · durability true) := by
    simp
  cases h with
  | failed k hk =>
    rcases mem_append.mp hmem with hmem | hmem
    · exact absurd hmem (hnot _)
    · cases mem_singleton.mp hmem
  | kept => exact absurd hmem (hnot _)
  | removed => rfl

theorem InOrder.mem_of_pushed {d : Durability} (h : InOrder durability name records events)
    {payload : Bytes}
    {accepted : Bool} (hmem : .pushed payload d accepted ∈ events) : payload ∈ records := by
  have hmap : ∀ rs : List Bytes,
      .pushed payload d accepted ∈ rs.map (Event.pushed · durability true) →
      payload ∈ rs := by
    intro rs hmem
    obtain ⟨p, hp, heq⟩ := mem_map.mp hmem
    exact (Event.pushed.inj heq).1 ▸ hp
  cases h with
  | failed k hk =>
    rcases mem_append.mp hmem with hmem | hmem
    · exact mem_of_mem_take (hmap _ hmem)
    · rw [(Event.pushed.inj (mem_singleton.mp hmem)).1]
      exact getElem_mem hk
  | kept => exact hmap _ hmem
  | removed =>
    rcases mem_append.mp hmem with hmem | hmem
    · exact hmap _ hmem
    · cases mem_singleton.mp hmem

/-- From `w` to `w'` the log grew by the events of some files, which are among `names` and in that
order, each as `Q` says, and a file is gone only if its events say so. -/
def Advances (Q : String → List Event → Prop) (names : List String) (w w' : World) : Prop :=
  w'.entries = w.entries ∧ ∃ traces : List (String × List Event),
    (traces.map Prod.fst).Sublist names ∧
    w'.log = w.log ++ traces.flatMap Prod.snd ∧ (∀ t ∈ traces, Q t.1 t.2) ∧
    ∀ name, w'.files name = w.files name ∨
      w'.files name = none ∧ ∃ events, (name, events) ∈ traces ∧ .removed name ∈ events

variable {Q : String → List Event → Prop} {names more : List String} {w w' w'' : World}

theorem Advances.refl : Advances Q names w w :=
  ⟨rfl, [], by simp, by simp, by simp, fun _ => .inl rfl⟩

theorem Advances.trans (h : Advances Q names w w') (h' : Advances Q more w' w'') :
    Advances Q (names ++ more) w w'' := by
  obtain ⟨hentries, traces, hnames, hlog, hQ, hfiles⟩ := h
  obtain ⟨hentries', traces', hnames', hlog', hQ', hfiles'⟩ := h'
  refine ⟨hentries'.trans hentries, traces ++ traces', ?_, ?_, ?_, fun name => ?_⟩
  · rw [map_append]
    exact hnames.append hnames'
  · rw [hlog', hlog, flatMap_append, append_assoc]
  · intro t ht
    exact (mem_append.mp ht).elim (hQ t) (hQ' t)
  rcases hfiles' name with hsame | ⟨hgone, events, hmem, hremoved⟩
  · rcases hfiles name with hsame' | ⟨hgone, events, hmem, hremoved⟩
    · exact .inl (hsame.trans hsame')
    · exact .inr ⟨hsame.trans hgone, events, mem_append_left _ hmem, hremoved⟩
  · exact .inr ⟨hgone, events, mem_append_right _ hmem, hremoved⟩

/-- The events of one file. -/
theorem Advances.single (hentries : w'.entries = w.entries)
    (hlog : w'.log = w.log ++ events) (hQ : Q name events)
    (hfiles : ∀ other, w'.files other = w.files other ∨
      w'.files other = none ∧ other = name ∧ .removed name ∈ events) : Advances Q [name] w w' := by
  refine ⟨hentries, [(name, events)], by simp, by simpa using hlog, by simpa using hQ,
    fun other => ?_⟩
  rcases hfiles other with hsame | ⟨hgone, rfl, hremoved⟩
  · exact .inl hsame
  · exact .inr ⟨hgone, events, mem_cons_self, hremoved⟩

/-- A file that is still there is the one that was there. -/
theorem Advances.file {file : Bytes} (h : Advances Q names w w')
    (hfile : w'.files name = some file) :
    w.files name = some file := by
  obtain ⟨_, _, _, _, _, hfiles⟩ := h
  rcases hfiles name with hsame | ⟨hgone, -⟩
  · rw [← hsame, hfile]
  · rw [hgone] at hfile
    cases hfile

/-- A file that is gone: its events, in the log of the run. -/
theorem Advances.gone (h : Advances Q names w w') (hne : w'.files name ≠ w.files name) :
    w'.files name = none ∧ ∃ events before after, Q name events ∧ .removed name ∈ events ∧
      w'.log = w.log ++ (before ++ events ++ after) := by
  obtain ⟨-, traces, -, hlog, hQ, hfiles⟩ := h
  obtain ⟨hgone, events, hmem, hremoved⟩ := (hfiles name).resolve_left hne
  obtain ⟨before, after, rfl⟩ := append_of_mem hmem
  refine ⟨hgone, events, before.flatMap Prod.snd, after.flatMap Prod.snd, hQ _ hmem, hremoved, ?_⟩
  rw [hlog, flatMap_append, flatMap_cons, append_assoc]

/-- The pushes of a segment. -/
theorem pushAll_spec :
    ∀ (records : List Bytes) (i : Nat) {w w' : World} {r : Option (Nat × String)},
      Prog.Exec acts (pushAll durability records i) w r w' →
      w'.entries = w.entries ∧ w'.files = w.files ∧
      (r = none ∧ w'.log = w.log ++ records.map (.pushed · durability true) ∨
        r ≠ none ∧ ∃ k, ∃ hk : k < records.length, w'.log = w.log ++
          ((records.take k).map (.pushed · durability true)
            ++ [.pushed records[k] durability false])) := by
  intro records
  induction records with
  | nil =>
    intro i w w' r h
    obtain ⟨rfl, rfl⟩ := h.pure_inv
    exact ⟨rfl, rfl, .inl ⟨rfl, by simp⟩⟩
  | cons record records ih =>
    intro i w w' r h
    obtain ⟨answer, w₁, hask, h⟩ := h.bind_inv
    have hpush : w₁ = { w with log := w.log ++ [.pushed record durability answer.isOk] } :=
      hask.ask_inv
    cases answer with
    | error e =>
      obtain ⟨rfl, rfl⟩ := h.pure_inv
      rw [hpush]
      exact ⟨rfl, rfl, .inr ⟨by simp, 0, by simp, rfl⟩⟩
    | ok v =>
      obtain ⟨hentries, hfiles, hend⟩ := ih (i + 1) h
      rw [hpush] at hentries hfiles hend
      refine ⟨hentries, hfiles, ?_⟩
      rcases hend with ⟨hr, hlog⟩ | ⟨hr, k, hk, hlog⟩
      · exact .inl ⟨hr, by rw [hlog]; simp [Except.isOk, Except.toBool]⟩
      · refine .inr ⟨hr, k + 1, by simpa using hk, ?_⟩
        rw [hlog]
        simp [Except.isOk, Except.toBool]

/-- The pushes of a file leave it where it is. -/
theorem pushAll_advances {r : Option (Nat × String)}
    (h : Prog.Exec acts (pushAll durability records 0) w r w')
    (hQ : ∀ events, InOrder durability name records events → .removed name ∉ events →
      Q name events) : Advances Q [name] w w' := by
  obtain ⟨hentries, hfiles, ⟨-, hlog⟩ | ⟨-, k, hk, hlog⟩⟩ := pushAll_spec records 0 h
  · exact .single hentries hlog (hQ _ .kept (by simp)) fun other => .inl (congrFun hfiles other)
  · exact .single hentries hlog (hQ _ (.failed k hk) (by simp [-map_take])) fun other =>
      .inl (congrFun hfiles other)

/-- A file that is deleted behind its pushes. -/
theorem remove_advances {v : Unit} (h : Prog.Exec acts (pushAll durability records 0) w none w')
    (hremove : acts (.remove name) w' (.ok v) w'')
    (hQ : Q name (records.map (.pushed · durability true) ++ [.removed name])) :
    Advances Q [name] w w'' := by
  obtain ⟨hentries, hfiles, ⟨-, hlog⟩ | ⟨hne, -⟩⟩ := pushAll_spec records 0 h
  · rw [show w'' = _ from hremove]
    refine .single hentries (show _ ++ _ = _ by rw [hlog, append_assoc]) hQ fun other => ?_
    by_cases hother : other = name
    · exact .inr ⟨if_pos hother, hother, by simp⟩
    · exact .inl ((if_neg hother).trans (congrFun hfiles other))
  · exact absurd rfl hne

/-- What every turn of the loop does to its file, the loop does to all of them. -/
theorem forEach_spec {τ : Type} {body : τ → String → Cmd (Except String τ)}
    (hbody : ∀ t before name w r w', Advances Q before w₀ w → Prog.Exec acts (body t name) w r w' →
      Advances Q [name] w w') :
    ∀ (names : List String) (t : τ) {before : List String} {w w' : World} {r : Except String τ},
      Advances Q before w₀ w → Prog.Exec acts (forEach body names t) w r w' →
      Advances Q names w w' := by
  intro names
  induction names with
  | nil =>
    intro t before w w' r _ h
    obtain ⟨-, rfl⟩ := h.pure_inv
    exact .refl
  | cons name names ih =>
    intro t before w w' r hw h
    obtain ⟨answer, w₁, hturn, h⟩ := h.bind_inv
    have hfirst := hbody t before name w answer w₁ hw hturn
    cases answer with
    | error e =>
      obtain ⟨-, rfl⟩ := h.pure_inv
      have hrest : Advances Q names w' w' := .refl
      exact hfirst.trans hrest
    | ok t' => exact hfirst.trans (ih t' (hw.trans hfirst) h)

/-- What the turn of one file brings about and every turn keeps, a loop that got to its end has
brought about. -/
theorem forEach_marks {τ : Type} {body : τ → String → Cmd (Except String τ)}
    {P : τ → Prop} (hbody : ∀ t before other w r w', Advances Q before w₀ w →
      Prog.Exec acts (body t other) w r w' → Advances Q [other] w w')
    (hkeep : ∀ t other w t' w', P t → Prog.Exec acts (body t other) w (.ok t') w' → P t')
    (hmark : ∀ t before w t' w', Advances Q before w₀ w →
      Prog.Exec acts (body t name) w (.ok t') w' → P t') :
    ∀ (names : List String) (t : τ) {before : List String} {w w' : World} {t' : τ},
      Advances Q before w₀ w → Prog.Exec acts (forEach body names t) w (.ok t') w' →
      P t ∨ name ∈ names → P t' := by
  intro names
  induction names with
  | nil =>
    intro t before w w' t' _ h hP
    obtain ⟨ht, -⟩ := h.pure_inv
    cases ht
    exact hP.resolve_right (by simp)
  | cons other names ih =>
    intro t before w w' t' hw h hP
    obtain ⟨answer, w₁, hturn, h⟩ := h.bind_inv
    have hfirst := hbody t before other w answer w₁ hw hturn
    cases answer with
    | error e => cases h.pure_inv.1
    | ok t₁ =>
      refine ih t₁ (hw.trans hfirst) h ?_
      rcases hP with hP | hP
      · exact .inl (hkeep t other w t₁ w₁ hP hturn)
      · rcases mem_cons.mp hP with rfl | hmem
        · exact .inl (hmark t before w t₁ w₁ hw hturn)
        · exact .inr hmem

theorem listSegments_spec {dir : String} {r : Except String (List String)}
    (h : Prog.Exec acts (listSegments dir isSegment) w r w') :
    w' = w ∧ ∀ names, r = .ok names → names.Perm (segmentNames isSegment w.entries) := by
  obtain ⟨answer, w₁, hask, h⟩ := h.bind_inv
  obtain ⟨hw, hentries, hmissing⟩ := hask.ask_inv
  cases answer with
  | error e =>
    dsimp only at h
    split at h
    next hkind =>
      obtain ⟨rfl, rfl⟩ := h.pure_inv
      refine ⟨hw, fun names hnames => ?_⟩
      rw [← Except.ok.inj hnames, hmissing e rfl hkind]
      exact .nil
    · obtain ⟨rfl, rfl⟩ := h.pure_inv
      exact ⟨hw, fun names hnames => by cases hnames⟩
  | ok entries =>
    obtain ⟨rfl, rfl⟩ := h.pure_inv
    refine ⟨hw, fun names hnames => ?_⟩
    rw [← Except.ok.inj hnames, ← hentries entries rfl]
    exact perm_insertionSort _ _

theorem mem_segmentNames {entries : List (String × Bool)} :
    name ∈ segmentNames isSegment entries ↔ (name, true) ∈ entries ∧ isSegment name = true := by
  unfold segmentNames
  rw [mem_map]
  constructor
  · rintro ⟨⟨other, isFile⟩, hmem, rfl⟩
    obtain ⟨hin, hcond⟩ := mem_filter.mp hmem
    rw [Bool.and_eq_true] at hcond
    exact ⟨hcond.1 ▸ hin, hcond.2⟩
  · rintro ⟨hin, hseg⟩
    exact ⟨(name, true), mem_filter.mpr ⟨hin, by simpa using hseg⟩, rfl⟩

theorem ensureWabDir_spec {wabDir : String}
    (h : Prog.Exec acts (ensureWabDir wabDir) w r w') : w' = w := by
  obtain ⟨answer, w₁, hask, h⟩ := h.bind_inv
  cases answer <;>
  · obtain ⟨-, rfl⟩ := h.pure_inv
    exact hask.ask_inv

theorem connectClient_spec {socket : String}
    (h : Prog.Exec acts (connectClient socket) w r w') : w' = w := by
  obtain ⟨answer, w₁, hask, h⟩ := h.bind_inv
  cases answer <;>
  · obtain ⟨-, rfl⟩ := h.pure_inv
    exact hask.ask_inv

end Weir.Ctl

import Weir.Wab.Flush
import Weir.Lib.Fifo

/-!
# Where a record is put

A record's place is the counter of the segment it was written to and its ordinal
there. Both can be read off the flusher's trace: the segment is the file of the
record's own append, and the ordinal is the number of appends to that file
before it (the header is append number zero). `Placing` is what the trace of a
flusher keeps about them, from `write_record` to `write_record`:

> `flushUnit_placing`: appends go to ever higher counters, every record that is
> acked or waits for its ack has a place, and the coordinate a producer asked
> for is that place.
-/

namespace Weir.Wab

open Weir.Lib List

/-! ## Appends -/

/-- The files a list of operations appends to, in order. -/
def appendedTo (ops : List (Op Path)) : List Path :=
  ops.filterMap fun
    | .append p _ => some p
    | _ => none

/-- The disk operations of a trace. -/
def Event.op : Event → Option (Op Path)
  | .io _ op => some op
  | _ => none

/-- The files a trace appends to, in order. -/
def appends (tr : List Event) : List Path := appendedTo (tr.filterMap Event.op)

@[simp] theorem appendedTo_append (xs ys : List (Op Path)) :
    appendedTo (xs ++ ys) = appendedTo xs ++ appendedTo ys := filterMap_append

@[simp] theorem appendedTo_nil : appendedTo [] = [] := rfl

@[simp] theorem appends_nil : appends [] = [] := rfl

@[simp] theorem appends_append (xs ys : List Event) :
    appends (xs ++ ys) = appends xs ++ appends ys := by
  rw [appends, filterMap_append, appendedTo_append]
  rfl

@[simp] theorem appends_io (who : Option WorkUnit) (ops : List (Op Path)) :
    appends (ops.map (.io who)) = appendedTo ops := by
  have h : (ops.map (Event.io who)).filterMap Event.op = ops := by
    induction ops with
    | nil => rfl
    | cons op ops ih => exact congrArg (op :: ·) ih
  rw [appends, h]

@[simp] theorem appends_resolve (acks : List PendingAck) (b : Bool) :
    appends (acks.map (·.resolve b)) = [] := by
  induction acks with
  | nil => rfl
  | cons a acks ih => exact ih

@[simp] theorem appends_resolved (u : WorkUnit) (o : AckOutcome) :
    appends [.resolved u o] = [] := rfl

@[simp] theorem appends_handedOff (b : Bool) (p : Path) :
    appends (if b then [.handedOff p] else []) = [] := by
  cases b <;> rfl

/-- Operations that append to one file only. -/
def AppendsAt (p : Path) (ops : List (Op Path)) : Prop := ∀ q ∈ appendedTo ops, q = p

theorem AppendsAt.append {p : Path} {xs ys : List (Op Path)} (hx : AppendsAt p xs)
    (hy : AppendsAt p ys) : AppendsAt p (xs ++ ys) := by
  intro q hq
  rw [appendedTo_append] at hq
  rcases mem_append.mp hq with hq | hq
  · exact hx q hq
  · exact hy q hq

theorem AppendsAt.nil (p : Path) : AppendsAt p [] := by simp [AppendsAt]

variable {ops : List (Op Path)}

/-- Directory operations append to nothing. -/
theorem appendedTo_onNames (h : ∀ op ∈ ops, op.OnNames) : appendedTo ops = [] := by
  rw [appendedTo, filterMap_eq_nil_iff]
  intro op hop
  have := h op hop
  cases op <;> first | rfl | exact this.elim

theorem WabSegment.create_appends (path : Path) (shardId : UInt16) (c : Compression)
    (io : CreateIo) : AppendsAt path (WabSegment.create path shardId c io).2 := by
  have hsync := appendedTo_onNames (fsyncParentDir_onNames path io.dirSync)
  unfold WabSegment.create
  split
  · exact AppendsAt.nil path
  split
  · simp [AppendsAt, appendedTo]
  split
  next e ops hfs =>
    rw [hfs] at hsync
    intro q hq
    rw [appendedTo_append, show appendedTo ops = [] from hsync] at hq
    simpa [appendedTo] using hq
  next ops hfs =>
    rw [hfs] at hsync
    intro q hq
    rw [appendedTo_append, show appendedTo ops = [] from hsync] at hq
    simpa [appendedTo] using hq

theorem WabSegment.finalizeToDisk_appends (seg : WabSegment) (io : SealIo) :
    AppendsAt seg.path (seg.finalizeToDisk io).2 := by
  unfold WabSegment.finalizeToDisk WabSegment.fsync
  split
  · simp [AppendsAt, appendedTo]
  · split
    · simp [AppendsAt, appendedTo]
    · cases io.fsync <;> simp [AppendsAt, appendedTo]

theorem WabSegment.seal_appends (seg : WabSegment) (io : SealIo) :
    AppendsAt seg.path (seg.seal io).2 := by
  obtain ⟨publish, hops, hnames⟩ := seg.seal_ops io
  rw [hops]
  refine (seg.finalizeToDisk_appends io).append ?_
  rw [AppendsAt, appendedTo_onNames hnames]
  simp

theorem WabSegment.writeRecord_appends {seg seg' : WabSegment} {stored : Bytes} {io : Vectored}
    {e : IoError} (h : seg.writeRecord stored io = (seg', .error e, ops)) :
    AppendsAt seg.path ops := by
  rcases WabSegment.writeRecord_error h with ⟨_, rfl⟩ | ⟨_, rfl | ⟨n, rfl⟩⟩
  · exact AppendsAt.nil _
  · exact AppendsAt.nil _
  · simp [AppendsAt, appendedTo]

/-! ## Places -/

section Places

variable (form : Bytes → Option Bytes) (dir : List String)

/-- The record was written whole to the segment with counter `c`, behind the header
and `i - 1` records. -/
def Placed (tr : List Event) (u : WorkUnit) (c i : Nat) : Prop :=
  ∃ stored pre post, form u.payload = some stored ∧
    tr = pre ++ .io (some u) (.append (segmentPath dir c) (encodeRecord stored)) :: post ∧
    i = (appends pre).count (segmentPath dir c)

/-- The coordinate that names a place, for a producer that asked. -/
def coordinateOf (u : WorkUnit) (c i : Nat) : Option RecordSlot :=
  if u.wantsCoordinate then
    some ⟨segmentIdentity (sealedPathFor (segmentPath dir c)), i⟩
  else none

/-- The record has a place, and `slot` is its coordinate. -/
def PlacedAs (tr : List Event) (u : WorkUnit) (slot : Option RecordSlot) : Prop :=
  ∃ c i, Placed form dir tr u c i ∧ slot = coordinateOf dir u c i

/-- Appends go to segments of this shard, with counters below `n` that never
decrease. -/
def Ascending (tr : List Event) (n : Nat) : Prop :=
  ∃ cs : List Nat, appends tr = cs.map (segmentPath dir) ∧ cs.Pairwise (· ≤ ·) ∧ ∀ c ∈ cs, c < n

/-- What a flusher's writer and its trace keep. -/
structure Placing (z : Zstd) (st : FlushState) : Prop where
  codec : storedForm z st.writer.compression st.writer.compressionLevel = form
  shardDir : st.writer.shardDir = dir
  positive : 1 ≤ st.writer.nextCounter
  ascending : Ascending dir st.trace st.writer.nextCounter
  /-- The open segment is the newest one, and its records are counted right. -/
  newest : ∀ seg, st.writer.active = some seg →
    seg.path = segmentPath dir (st.writer.nextCounter - 1) ∧
    st.writer.activePath = some seg.path ∧
    (appends st.trace).count seg.path = st.writer.activeRecords + 1
  owed : ∀ a, a ∈ st.pendingAcks ∨ a ∈ st.durableAcks → PlacedAs form dir st.trace a.tx a.slot
  acked : ∀ u o, .resolved u o ∈ st.trace → o.durable = true →
    PlacedAs form dir st.trace u o.coordinate

variable {form dir}
  {c c' i n : Nat} {evs : List Event} {w : ShardWriter} {pend dur : List PendingAck}
  {ops rest : List (Op Path)} {stored : Bytes}

theorem segmentPath_inj (h : segmentPath dir c = segmentPath dir c') : c = c' := by
  rw [segmentPath_eq, segmentPath_eq] at h
  exact (segPath_inj h).1

variable {tr : List Event} {u : WorkUnit}

theorem Placed.append (h : Placed form dir tr u c i) (evs : List Event) :
    Placed form dir (tr ++ evs) u c i := by
  obtain ⟨stored, pre, post, hform, rfl, hi⟩ := h
  exact ⟨stored, pre, post ++ evs, hform, by simp, hi⟩

theorem PlacedAs.append {slot : Option RecordSlot} (h : PlacedAs form dir tr u slot)
    (evs : List Event) : PlacedAs form dir (tr ++ evs) u slot := by
  obtain ⟨c, i, hp, hs⟩ := h
  exact ⟨c, i, hp.append evs, hs⟩

/-- Of two appends in a trace, the later one has the later place. -/
theorem Ascending.lex {pre mid post : List Event} {who who' : Option WorkUnit} {bs bs' : Bytes}
    (h : Ascending dir (pre ++ .io who (.append (segmentPath dir c) bs)
      :: (mid ++ .io who' (.append (segmentPath dir c') bs') :: post)) n) :
    Prod.Lex (· < ·) (· < ·) (c, (appends pre).count (segmentPath dir c))
      (c', (appends (pre ++ .io who (.append (segmentPath dir c) bs) :: mid)).count
        (segmentPath dir c')) := by
  have hcons : ∀ (w : Option WorkUnit) (p : Path) (xs : Bytes) (evs : List Event),
      appends (.io w (.append p xs) :: evs) = p :: appends evs := fun _ _ _ _ => rfl
  obtain ⟨cs, hcs, hsorted, _⟩ := h
  rw [appends_append, hcons, appends_append, hcons] at hcs
  obtain ⟨cs₁, rest, rfl, _, hrest⟩ := append_eq_map_iff.mp hcs
  obtain ⟨d, rest, rfl, hd, hrest⟩ := map_eq_cons_iff.mp hrest
  obtain ⟨cs₂, rest, rfl, _, hrest⟩ := append_eq_map_iff.mp hrest.symm
  obtain ⟨d', cs₃, rfl, hd', _⟩ := map_eq_cons_iff.mp hrest
  obtain rfl := segmentPath_inj hd
  obtain rfl := segmentPath_inj hd'
  have hle : d ≤ d' := by
    rw [pairwise_append] at hsorted
    exact (List.pairwise_cons.mp hsorted.2.1).1 d' (by simp)
  rcases Nat.lt_or_eq_of_le hle with hlt | rfl
  · exact Prod.Lex.left _ _ hlt
  · refine Prod.Lex.right _ ?_
    rw [appends_append, hcons, count_append, count_cons_self]
    omega

/-- The records whose calls performed the operations of a trace, in order. -/
def performers (tr : List Event) : List WorkUnit :=
  tr.filterMap fun
    | .io who _ => who
    | _ => none

theorem performers_append (xs ys : List Event) :
    performers (xs ++ ys) = performers xs ++ performers ys := filterMap_append

@[simp] theorem performers_none (ops : List (Op Path)) : performers (ops.map (.io none)) = [] := by
  induction ops with
  | nil => rfl
  | cons op ops ih => exact ih

@[simp] theorem performers_some (u : WorkUnit) (ops : List (Op Path)) :
    performers (ops.map (.io (some u))) = replicate ops.length u := by
  induction ops with
  | nil => rfl
  | cons op ops ih => exact congrArg (u :: ·) ih

@[simp] theorem performers_resolve (acks : List PendingAck) (b : Bool) :
    performers (acks.map (·.resolve b)) = [] := by
  induction acks with
  | nil => rfl
  | cons a acks ih => exact ih

@[simp] theorem performers_resolved (u : WorkUnit) (o : AckOutcome) :
    performers [.resolved u o] = [] := rfl

@[simp] theorem performers_handedOff (b : Bool) (p : Path) :
    performers (if b then [.handedOff p] else []) = [] := by
  cases b <;> rfl

theorem groupFsync_performers (fault : Option IoError) (st : FlushState) :
    performers (groupFsync fault st).trace = performers st.trace := by
  unfold groupFsync
  split
  · rfl
  · split <;> simp [performers_append]

/-- A record with a place performed an operation. -/
theorem PlacedAs.mem_performers {slot : Option RecordSlot} (h : PlacedAs form dir tr u slot) :
    u ∈ performers tr := by
  obtain ⟨c, i, ⟨stored, pre, post, _, rfl, _⟩, _⟩ := h
  rw [performers_append]
  exact mem_append_right _ mem_cons_self

variable {z : Zstd} {st : FlushState}

/-- A record whose operations all precede those of another is placed before it. -/
theorem Placing.placed_lt (h : Placing form dir z st) {v : WorkUnit} {i' : Nat} (hne : u ≠ v)
    (horder : NeverBefore v u (performers st.trace)) (hu : Placed form dir st.trace u c i)
    (hv : Placed form dir st.trace v c' i') : Prod.Lex (· < ·) (· < ·) (c, i) (c', i') := by
  obtain ⟨s, pre, post, _, htr, rfl⟩ := hu
  obtain ⟨s', pre', post', _, htr', rfl⟩ := hv
  have hboth := htr.symm.trans htr'
  rcases append_eq_append_iff.mp hboth with ⟨mid, hpre, hpost⟩ | ⟨mid, hpre, hpost⟩
  · cases mid with
    | nil =>
      have hsame := (List.cons.inj hpost).1
      simp only [Event.io.injEq, Option.some.injEq] at hsame
      exact absurd hsame.1 hne
    | cons e mid =>
      obtain ⟨rfl, hpost⟩ := List.cons.inj hpost
      have hasc := h.ascending
      rw [htr, hpost] at hasc
      rw [hpre]
      exact hasc.lex
  · -- the append of `v` would come first
    cases mid with
    | nil =>
      have hsame := (List.cons.inj hpost).1
      simp only [Event.io.injEq, Option.some.injEq] at hsame
      exact absurd hsame.1.symm hne
    | cons e mid =>
      rw [cons_append] at hpost
      obtain ⟨rfl, rfl⟩ := List.cons.inj hpost
      refine absurd ?_ horder
      have hcons : ∀ (w : WorkUnit) (op : Op Path) (evs : List Event),
          performers (.io (some w) op :: evs) = w :: performers evs := fun _ _ _ => rfl
      rw [htr', performers_append, hcons, performers_append, hcons]
      exact pair_sublist_append.mpr (.inr (.inr (pair_sublist_cons.mpr (.inl
        ⟨rfl, mem_append_right _ mem_cons_self⟩))))

/-! ## What a flush keeps -/

theorem Ascending.extend {n' : Nat} (h : Ascending dir tr n) (hle : n ≤ n')
    (hpos : 1 ≤ n') (hnew : ∀ q ∈ appends evs, q = segmentPath dir (n' - 1)) :
    Ascending dir (tr ++ evs) n' := by
  obtain ⟨cs, hcs, hsorted, hlt⟩ := h
  refine ⟨cs ++ replicate (appends evs).length (n' - 1), ?_, ?_, ?_⟩
  · rw [appends_append, map_append, hcs, map_replicate,
      ← eq_replicate_of_mem hnew]
  · rw [pairwise_append]
    refine ⟨hsorted, pairwise_replicate_of_refl, ?_⟩
    intro c hc d hd
    have := hlt c hc
    have := eq_of_mem_replicate hd
    omega
  · intro c hc
    rcases mem_append.mp hc with hc | hc
    · have := hlt c hc
      omega
    · have := eq_of_mem_replicate hc
      omega

/-- A trace that grew: its new appends are to the newest segment, and its new acks and
debts are about records that have a place. -/
theorem Placing.extend (h : Placing form dir z st)
    (hcodec : storedForm z w.compression w.compressionLevel = form)
    (hdir : w.shardDir = dir) (hle : st.writer.nextCounter ≤ w.nextCounter)
    (hnew : ∀ q ∈ appends evs, q = segmentPath dir (w.nextCounter - 1))
    (hnewest : ∀ seg, w.active = some seg → seg.path = segmentPath dir (w.nextCounter - 1) ∧
      w.activePath = some seg.path ∧
      (appends (st.trace ++ evs)).count seg.path = w.activeRecords + 1)
    (howed : ∀ a, a ∈ pend ∨ a ∈ dur → (a ∈ st.pendingAcks ∨ a ∈ st.durableAcks) ∨
      PlacedAs form dir (st.trace ++ evs) a.tx a.slot)
    (hacked : ∀ u o, .resolved u o ∈ evs → o.durable = true →
      PlacedAs form dir (st.trace ++ evs) u o.coordinate) :
    Placing form dir z ⟨w, dur, pend, st.trace ++ evs⟩ where
  codec := hcodec
  shardDir := hdir
  positive := le_trans h.positive hle
  ascending := h.ascending.extend hle (le_trans h.positive hle) hnew
  newest := hnewest
  owed := by
    intro a ha
    rcases howed a ha with hold | hplaced
    · exact (h.owed a hold).append evs
    · exact hplaced
  acked := by
    intro u o hmem hdur
    rcases mem_append.mp hmem with hmem | hmem
    · exact (h.acked u o hmem hdur).append evs
    · exact hacked u o hmem hdur

/-- The segment a record goes to: it is the newest one, and its appends so far are the
header and the records counted. -/
structure Ready (dir : List String) (st : FlushState) (w₁ : ShardWriter) (seg : WabSegment)
    (opened : List (Op Path)) : Prop where
  shardDir : w₁.shardDir = dir
  le : st.writer.nextCounter ≤ w₁.nextCounter
  path : seg.path = segmentPath dir (w₁.nextCounter - 1)
  activePath : w₁.activePath = some seg.path
  appends : AppendsAt seg.path opened
  count : (Wab.appends st.trace ++ appendedTo opened).count seg.path = w₁.activeRecords + 1

variable {w₁ : ShardWriter} {seg : WabSegment} {opened : List (Op Path)}

theorem Placing.ready (h : Placing form dir z st) {io : CreateIo}
    (hopen : ShardWriter.Opened st.writer io w₁ seg opened) : Ready dir st w₁ seg opened := by
  cases hopen with
  | already hact =>
    obtain ⟨hpath, hactive, hcount⟩ := h.newest _ hact
    exact ⟨h.shardDir, le_rfl, hpath, hactive, AppendsAt.nil _, by simpa using hcount⟩
  | fresh hact hcreate =>
    have happ := WabSegment.create_appends (segmentPath st.writer.shardDir st.writer.nextCounter)
      st.writer.shardId st.writer.compression io
    rw [hcreate] at happ
    obtain ⟨rfl, sync, hsync, rfl⟩ := WabSegment.create_ok hcreate
    have hnone : appendedTo sync = [] := by
      have hnames := fsyncParentDir_onNames
        (segmentPath st.writer.shardDir st.writer.nextCounter) io.dirSync
      rw [hsync] at hnames
      exact appendedTo_onNames hnames
    have hdir := h.shardDir
    refine ⟨hdir, Nat.le_succ _, ?_, rfl, happ, ?_⟩
    · simp [hdir]
    -- no append so far was to the new counter
    obtain ⟨cs, hcs, _, hlt⟩ := h.ascending
    have habsent : segmentPath dir st.writer.nextCounter ∉ Wab.appends st.trace := by
      rw [hcs]
      intro hmem
      obtain ⟨c, hc, heq⟩ := mem_map.mp hmem
      have := hlt c hc
      have := segmentPath_inj heq
      omega
    rw [count_append, appendedTo_append, hnone, hdir,
      count_eq_zero_of_not_mem habsent]
    simp [appendedTo]

/-- A write that dropped its segment: what waited for it is nacked. -/
theorem Placing.dropped (h : Placing form dir z st)
    (hcodec : storedForm z w.compression w.compressionLevel = form) (hdir : w.shardDir = dir)
    (hle : st.writer.nextCounter ≤ w.nextCounter) (hact : w.active = none) (u : WorkUnit)
    (hops : AppendsAt (segmentPath dir (w.nextCounter - 1)) ops) :
    Placing form dir z
      { writer := w
        durableAcks := st.durableAcks
        pendingAcks := []
        trace := st.trace ++ ops.map (.io (some u))
          ++ (st.pendingAcks.map (·.resolve false) ++ [.resolved u .failed]) } := by
  rw [append_assoc]
  refine h.extend hcodec hdir hle ?_ ?_ ?_ ?_
  · intro q hq
    simp only [appends_append, appends_io, appends_resolve, appends_resolved, append_nil] at hq
    exact hops q hq
  · intro seg hseg
    rw [hact] at hseg
    cases hseg
  · rintro a (ha | ha)
    · cases ha
    · exact .inl (.inr ha)
  · intro v o hmem hdur
    simp only [mem_append, mem_map, mem_singleton, reduceCtorEq, and_false,
      exists_false, false_or, PendingAck.resolve, Event.resolved.injEq] at hmem
    rcases hmem with ⟨a, _, _, rfl⟩ | ⟨_, rfl⟩
    · cases hdur
    · cases hdur

section

variable (h : Ready dir st w₁ seg opened)

include h

/-- The record just appended has the place its segment counts for it. -/
theorem Ready.placed (hform : form u.payload = some stored) (evs : List Event) :
    Placed form dir (st.trace ++ ((opened ++ [Op.append seg.path (encodeRecord stored)]).map
      (.io (some u)) ++ evs)) u (w₁.nextCounter - 1) (w₁.activeRecords + 1) := by
  refine ⟨stored, st.trace ++ opened.map (.io (some u)), evs, hform, ?_, ?_⟩
  · rw [h.path]
    simp
  · rw [appends_append, appends_io, ← h.path, h.count]

theorem Ready.slot {rotation : Option Path} (u : WorkUnit)
    (hcount : w.activeRecords = w₁.activeRecords + 1)
    (haddress : w.drainAddress rotation = some (segmentIdentity (sealedPathFor seg.path))) :
    slotFor w rotation u = coordinateOf dir u (w₁.nextCounter - 1) (w₁.activeRecords + 1) := by
  unfold slotFor coordinateOf
  split
  · rw [haddress, hcount, h.path]; rfl
  · rfl

/-- The events of a whole record, up to the acks. -/
theorem Ready.appends_ops (stored : Bytes) (hrest : AppendsAt seg.path rest) :
    AppendsAt (segmentPath dir (w₁.nextCounter - 1))
      (opened ++ [Op.append seg.path (encodeRecord stored)] ++ rest) := by
  rw [← h.path]
  refine (h.appends.append ?_).append hrest
  simp [AppendsAt, appendedTo]

end

section

variable (h : Placing form dir z st)

include h

/-- A record was written whole; its ack was sent, or is owed. -/
theorem Placing.wrote {slot : Option RecordSlot}
    (htr : tr = st.trace ++ ops.map (.io (some u)) ++ evs) (hready : Ready dir st w₁ seg opened)
    (hform : form u.payload = some stored)
    (hops : ops = opened ++ [Op.append seg.path (encodeRecord stored)] ++ rest)
    (hslot : slot = coordinateOf dir u (w₁.nextCounter - 1) (w₁.activeRecords + 1))
    (hcodec : storedForm z w.compression w.compressionLevel = form)
    (hdir : w.shardDir = w₁.shardDir) (hcounter : w.nextCounter = w₁.nextCounter)
    (hrest : AppendsAt seg.path rest) (hevs : appends evs = [])
    (hactive : ∀ seg', w.active = some seg' → seg'.path = seg.path ∧ w.activePath = w₁.activePath ∧
      w.activeRecords = w₁.activeRecords + 1 ∧ rest = [])
    (howed : ∀ a, a ∈ pend ∨ a ∈ dur → (a ∈ st.pendingAcks ∨ a ∈ st.durableAcks) ∨ a = ⟨u, slot⟩)
    (hacked : ∀ v o, .resolved v o ∈ evs → v = u ∧ o = .durableAt slot) :
    Placing form dir z ⟨w, dur, pend, tr⟩ := by
  subst hops htr
  have hplaced : PlacedAs form dir (st.trace
      ++ ((opened ++ [Op.append seg.path (encodeRecord stored)] ++ rest).map (.io (some u))
      ++ evs)) u slot := by
    rw [map_append, append_assoc]
    exact ⟨_, _, hready.placed hform _, hslot⟩
  rw [append_assoc]
  refine h.extend hcodec (hdir.trans hready.shardDir) (hcounter ▸ hready.le) ?_ ?_ ?_ ?_
  · intro q hq
    rw [appends_append, appends_io, hevs, append_nil] at hq
    rw [hcounter]
    exact hready.appends_ops stored hrest q hq
  · intro seg' hseg'
    obtain ⟨hpath, hactivePath, hrecords, rfl⟩ := hactive seg' hseg'
    rw [hpath, hcounter, hactivePath, hrecords]
    refine ⟨hready.path, hready.activePath, ?_⟩
    rw [appends_append, appends_append, appends_io, hevs, append_nil, append_nil,
      appendedTo_append, ← append_assoc, count_append, hready.count]
    simp [appendedTo]
  · intro a ha
    rcases howed a ha with hold | rfl
    · exact .inl hold
    · exact .inr hplaced
  · intro v o hmem _
    rcases mem_append.mp hmem with hmem | hmem
    · exact absurd hmem (by simp)
    · obtain ⟨rfl, rfl⟩ := hacked v o hmem
      exact hplaced

/-- One record keeps it, whatever its write does. -/
theorem flushUnit_placing (io : WriteIo) (b : Bool) (u : WorkUnit) :
    Placing form dir z (flushUnit z io b st u) := by
  have hspec := ShardWriter.writeRecord_spec z st.writer u.payload io
  unfold flushUnit
  generalize st.writer.writeRecord z u.payload io = res at hspec ⊢
  obtain ⟨w, r, ops⟩ := res
  have hcodec : storedForm z w.compression w.compressionLevel = form := by
    rw [hspec.codec.1, hspec.codec.2]
    exact h.codec
  cases hspec with
  | rejected e =>
    dsimp only
    rw [if_neg (by simp [ShardWriter.lastFailure]), append_assoc]
    refine h.extend hcodec h.shardDir (le_rfl) (by simp) ?_ (fun a ha => .inl ha) ?_
    · intro seg hseg
      simpa using h.newest seg hseg
    intro v o hmem hdur
    simp only [map_nil, nil_append, mem_singleton, Event.resolved.injEq] at hmem
    rw [hmem.2] at hdur
    cases hdur
  | openFailed hact hcreate =>
    refine h.dropped hcodec h.shardDir (Nat.le_succ _) hact u ?_
    have happ := WabSegment.create_appends (segmentPath st.writer.shardDir st.writer.nextCounter)
      st.writer.shardId st.writer.compression io.create
    rw [hcreate, h.shardDir] at happ
    exact happ
  | writeFailed hstored hopen hwrite =>
    have hready := h.ready hopen
    refine h.dropped hcodec hready.shardDir hready.le rfl u ?_
    rw [← hready.path]
    exact hready.appends.append (WabSegment.writeRecord_appends hwrite)
  | @sealFailed stored w₁ seg e opened sealing hstored hopen hok hpoison hseal =>
    have hready := h.ready hopen
    have hsealing := (seg.accept stored).seal_appends io.sealIo
    rw [hseal] at hsealing
    exact h.dropped hcodec hready.shardDir hready.le rfl u (hready.appends_ops stored hsealing)
  | @written stored w₁ seg opened hstored hopen hok hpoison =>
    have hready := h.ready hopen
    rw [h.codec] at hstored
    have hslot : slotFor { w₁ with
        active := some (seg.accept stored)
        activeRecords := w₁.activeRecords + 1
        lastWriteFailure := none } none u = _ :=
      hready.slot u rfl (by rw [ShardWriter.drainAddress, hready.activePath]; rfl)
    have hactive : ∀ seg', some (seg.accept stored) = some seg' → seg'.path = seg.path ∧
        w₁.activePath = w₁.activePath ∧ w₁.activeRecords + 1 = w₁.activeRecords + 1 ∧
        ([] : List (Op Path)) = [] := by
      intro seg' hseg'
      cases hseg'
      exact ⟨rfl, rfl, rfl, rfl⟩
    have hnil := AppendsAt.nil seg.path
    dsimp only
    split
    · refine h.wrote (append_nil _).symm hready hstored (append_nil _).symm hslot hcodec
        rfl rfl hnil rfl hactive ?_ (by simp)
      rintro a (ha | ha)
      · rcases mem_append.mp ha with ha | ha
        · exact .inl (.inl ha)
        · exact .inr (mem_singleton.mp ha)
      · exact .inl (.inr ha)
    · exact h.wrote rfl hready hstored (append_nil _).symm hslot hcodec rfl rfl hnil rfl
        hactive (fun a ha => .inl ha) (by simp)
  | @rotated stored w₁ seg sealed opened sealing hstored hopen hok hpoison hseal =>
    have hready := h.ready hopen
    rw [h.codec] at hstored
    have hsealing := (seg.accept stored).seal_appends io.sealIo
    rw [hseal] at hsealing
    obtain ⟨rfl, _⟩ := WabSegment.seal_ok hseal
    have hslot : slotFor { w₁ with
        active := none
        activePath := none
        activeRecords := w₁.activeRecords + 1
        lastWriteFailure := none } (some (sealedPathFor (seg.accept stored).path)) u = _ :=
      hready.slot u rfl rfl
    dsimp only
    split
    · refine h.wrote rfl hready hstored rfl hslot hcodec rfl rfl hsealing (appends_handedOff b _)
        (by simp) ?_ (by cases b <;> simp)
      rintro a (ha | ha)
      · cases ha
      simp only [mem_append, mem_singleton] at ha
      rcases ha with (ha | ha) | ha
      · exact .inl (.inr ha)
      · exact .inl (.inl ha)
      · exact .inr ha
    · refine h.wrote (append_assoc ..) hready hstored rfl hslot hcodec rfl rfl hsealing
        (by simp) (by simp) ?_ (by cases b <;> simp)
      rintro a (ha | ha)
      · cases ha
      · rcases mem_append.mp ha with ha | ha
        · exact .inl (.inr ha)
        · exact .inl (.inl ha)

/-- The group fsync acks what it owes, or nacks it. -/
theorem groupFsync_placing (fault : Option IoError) : Placing form dir z (groupFsync fault st) := by
  have hresolve : ∀ (ops : List (Op Path)) (ok : Bool) (v : WorkUnit) (o : AckOutcome),
      .resolved v o ∈ ops.map (Event.io none) ++ st.pendingAcks.map (·.resolve ok) →
      o.durable = true → PlacedAs form dir (st.trace ++ (ops.map (Event.io none)
        ++ st.pendingAcks.map (·.resolve ok))) v o.coordinate := by
    intro ops ok v o hmem hdur
    refine PlacedAs.append ?_ _
    rcases mem_append.mp hmem with hmem | hmem
    · exact absurd hmem (by simp)
    obtain ⟨a, ha, heq⟩ := mem_map.mp hmem
    obtain ⟨rfl, rfl⟩ := heq
    cases ok with
    | false => cases hdur
    | true => exact h.owed a (.inl ha)
  have howed : ∀ (Q : PendingAck → Prop) (a : PendingAck), a ∈ [] ∨ a ∈ st.durableAcks →
      (a ∈ st.pendingAcks ∨ a ∈ st.durableAcks) ∨ Q a := by
    rintro Q a (ha | ha)
    · cases ha
    · exact .inl (.inr ha)
  unfold groupFsync
  split
  · exact h
  unfold ShardWriter.fsyncCurrent
  cases hact : st.writer.active with
  | none =>
    dsimp only
    rw [append_assoc]
    refine h.extend h.codec h.shardDir (le_rfl) (by simp) ?_ (howed _) (hresolve [] true)
    intro seg hseg
    rw [hact] at hseg
    cases hseg
  | some seg =>
    cases fault with
    | some e =>
      dsimp only [WabSegment.fsync]
      rw [append_assoc]
      exact h.extend h.codec h.shardDir (le_rfl) (by simp) (by simp) (howed _)
        (hresolve [] false)
    | none =>
      have happ : appends ([Op.fsync seg.path].map (Event.io none)
          ++ st.pendingAcks.map (·.resolve true)) = [] := by
        rw [appends_append, appends_io, appends_resolve]
        rfl
      dsimp only [WabSegment.fsync]
      rw [append_assoc]
      refine h.extend h.codec h.shardDir (le_rfl) (by rw [happ]; simp) ?_ (howed _)
        (hresolve [.fsync seg.path] true)
      intro seg' hseg'
      rw [appends_append, happ, append_nil]
      exact h.newest seg' hseg'

/-- The last acks of a flush, for the records of rotated segments. -/
theorem Placing.ackDurable :
    Placing form dir z { st with
      durableAcks := []
      trace := st.trace ++ st.durableAcks.map (·.resolve true) } := by
  refine h.extend h.codec h.shardDir (le_rfl) (by simp) ?_ ?_ ?_
  · intro seg hseg
    simpa using h.newest seg hseg
  · rintro a (ha | ha)
    · exact .inl (.inl ha)
    · cases ha
  · intro v o hmem _
    obtain ⟨a, ha, heq⟩ := mem_map.mp hmem
    obtain ⟨rfl, rfl⟩ := heq
    exact (h.owed a (.inr ha)).append _

/-- A seal between flushes. -/
theorem Placing.sealCurrent (io : SealIo) (delivered : Bool) :
    Placing form dir z { st with
      writer := (flusherCall z st.writer (.sealCurrent io delivered)).1
      trace := st.trace ++ (flusherCall z st.writer (.sealCurrent io delivered)).2 } := by
  unfold flusherCall ShardWriter.sealCurrent
  cases hact : st.writer.active with
  | none =>
    exact h.extend h.codec h.shardDir (le_rfl) (by simp) (by simp) (fun a ha => .inl ha)
      (by simp)
  | some seg =>
    have happ := seg.seal_appends io
    rw [(h.newest seg hact).1] at happ
    dsimp only
    cases hseal : seg.seal io with
    | mk r ops =>
      rw [hseal] at happ
      cases r with
      | error e =>
        refine h.extend h.codec h.shardDir (le_rfl) ?_ (by simp) (fun a ha => .inl ha)
          (by simp)
        intro q hq
        rw [appends_io] at hq
        exact happ q hq
      | ok sealed =>
        refine h.extend h.codec h.shardDir (le_rfl) ?_ (by simp) (fun a ha => .inl ha)
          (by cases delivered <;> simp)
        intro q hq
        rw [appends_append, appends_io, appends_handedOff, append_nil] at hq
        exact happ q hq

end

end Places

end Weir.Wab

import Mathlib.Data.Nat.Digits.Defs
import Weir.Lib.LittleEndian

/-!
# The holder record (`wab/lock.rs`)

Who holds, or last held, the lock: `key=value` lines in the lock file. The text
is a list of characters, as `from_utf8_lossy` decodes the file; sizes are UTF-8
sizes. What is read back is untrusted: at most 4096 bytes, with control and
invisible formatting characters taken out of every value and long values
dropped.

> `parse_render`: a plain record reads back with its identifying fields.
-/

namespace Weir.Lock

open List

/-- `HolderInfo`. -/
structure HolderInfo where
  pid : UInt32
  host : String
  startedUnix : UInt64
  bootId : Option String
  version : String
  socketPath : String
  metrics : String
  deriving DecidableEq, Repr

/-- `HolderInfo::default`. -/
def HolderInfo.default : HolderInfo := ⟨0, "", 0, none, "", "", ""⟩

/-- `RECORD_MAX_BYTES`. -/
def recordMaxBytes : Nat := 4096

/-- `FIELD_MAX_BYTES`. -/
def fieldMaxBytes : Nat := 256

/-- The length of a text in bytes. -/
def utf8Len (cs : List Char) : Nat := (cs.map Char.utf8Size).sum

/-! ## Writing -/

/-- A newline inside a value would forge a key. -/
def clean (s : String) : List Char :=
  s.toList.map fun c => if c = '\n' ∨ c = '\r' then ' ' else c

def line (key : String) (value : List Char) : List Char := key.toList ++ '=' :: (value ++ ['\n'])

/-- `HolderInfo::render`. -/
def HolderInfo.render (h : HolderInfo) : List Char :=
  line "pid" (Nat.toDigits 10 h.pid.toNat) ++ (line "host" (clean h.host)
    ++ (line "started_unix" (Nat.toDigits 10 h.startedUnix.toNat)
    ++ ((match h.bootId with
      | some b => line "boot_id" (clean b)
      | none => [])
    ++ (line "version" (clean h.version) ++ (line "socket_path" (clean h.socketPath)
    ++ line "metrics" (clean h.metrics))))))

/-! ## Reading -/

/-- The longest start of a text that fits into `n` bytes and ends at a character
boundary. -/
def takeBytes : Nat → List Char → List Char
  | _, [] => []
  | n, c :: cs => if c.utf8Size ≤ n then c :: takeBytes (n - c.utf8Size) cs else []

/-- `str::lines`: split at newlines, each with a carriage return before it. -/
def linesFrom (cur : List Char) : List Char → List (List Char)
  | [] => if cur = [] then [] else [cur]
  | c :: cs =>
    if c = '\n' then
      (if cur.getLast? = some '\r' then cur.dropLast else cur) :: linesFrom [] cs
    else linesFrom (cur ++ [c]) cs

/-- `str::split_once('=')`. -/
def splitOnce : List Char → Option (List Char × List Char)
  | [] => none
  | c :: cs =>
    if c = '=' then some ([], cs)
    else
      match splitOnce cs with
      | some (k, v) => some (c :: k, v)
      | none => none

/-- Control characters, and the bidi and zero-width ones. -/
def invisible (c : Char) : Bool :=
  c.val < 0x20 || (0x7F ≤ c.val && c.val ≤ 0x9F) || (0x200B ≤ c.val && c.val ≤ 0x200F)
    || (0x202A ≤ c.val && c.val ≤ 0x202E) || (0x2066 ≤ c.val && c.val ≤ 0x2069) || c.val == 0xFEFF

/-- `sanitise_field`. -/
def sanitiseField (v : List Char) : Option (List Char) :=
  if utf8Len v > fieldMaxBytes * 4 then none
  else
    let kept := v.filter fun c => !invisible c
    if utf8Len kept ≤ fieldMaxBytes then some kept else none

/-- The digits of an unsigned integer, behind the plus sign it may have. -/
def unsignedDigits : List Char → List Char
  | '+' :: d :: ds => d :: ds
  | v => v

/-- `str::parse` for an unsigned integer below `bound`. -/
def parseUnsigned (bound : Nat) (v : List Char) : Option Nat :=
  let digits := unsignedDigits v
  if digits = [] ∨ ¬digits.all Char.isDigit then none
  else if Nat.ofDigitChars 10 digits 0 < bound then some (Nat.ofDigitChars 10 digits 0)
  else none

/-- The loop of `HolderInfo::parse`: the pid, if there was one, and the rest. -/
structure Parsed where
  pid : Option UInt32
  info : HolderInfo

def Parsed.take (st : Parsed) (l : List Char) : Parsed :=
  match splitOnce l with
  | none => st
  | some (k, value) =>
    let v := sanitiseField value
    let text := String.ofList (v.getD [])
    if k = "pid".toList then
      { st with pid := (v.bind (parseUnsigned (2 ^ 32))).map UInt32.ofNat }
    else if k = "host".toList then { st with info := { st.info with host := text } }
    else if k = "started_unix".toList then
      { st with info := { st.info with
          startedUnix := UInt64.ofNat ((v.bind (parseUnsigned (2 ^ 64))).getD 0) } }
    else if k = "boot_id".toList then
      { st with info := { st.info with bootId := v.map String.ofList } }
    else if k = "version".toList then { st with info := { st.info with version := text } }
    else if k = "socket_path".toList then { st with info := { st.info with socketPath := text } }
    else if k = "metrics".toList then { st with info := { st.info with metrics := text } }
    else st

/-- `HolderInfo::parse`. -/
def HolderInfo.parse (text : List Char) : Option HolderInfo :=
  let st := (linesFrom [] (takeBytes recordMaxBytes text)).foldl Parsed.take ⟨none, .default⟩
  match st.pid with
  | some pid => some { st.info with pid := pid }
  | none => none

/-- The fields that tell one daemon from another. -/
def HolderInfo.ident (h : HolderInfo) : UInt32 × String × UInt64 × Option String :=
  (h.pid, h.host, h.startedUnix, h.bootId)

/-- `same_holder`. -/
def sameHolder (found own : HolderInfo) : Bool :=
  found.ident == ((HolderInfo.parse own.render).getD own).ident

/-! ## Reading back what was written -/

theorem takeBytes_of_le : ∀ {n : Nat} {cs : List Char}, utf8Len cs ≤ n → takeBytes n cs = cs := by
  intro n cs
  induction cs generalizing n with
  | nil => intro _; rfl
  | cons c cs ih =>
    intro h
    have hsum : utf8Len (c :: cs) = c.utf8Size + utf8Len cs := by simp [utf8Len]
    rw [takeBytes, if_pos (by omega), ih (by omega)]

/-- A line without a newline or carriage return in it is read as it is. -/
theorem linesFrom_line {l rest : List Char} :
    ∀ {cur : List Char}, (∀ c ∈ cur ++ l, c ≠ '\n' ∧ c ≠ '\r') →
      linesFrom cur (l ++ '\n' :: rest) = (cur ++ l) :: linesFrom [] rest := by
  induction l with
  | nil =>
    intro cur h
    have hlast : cur.getLast? ≠ some '\r' := by
      intro hlast
      exact (h '\r' (mem_append_left _ (mem_of_getLast? hlast))).2 rfl
    rw [nil_append, linesFrom, if_pos rfl, if_neg hlast, append_nil]
  | cons c l ih =>
    intro cur h
    have hc : c ≠ '\n' := (h c (by simp)).1
    rw [cons_append, linesFrom, if_neg hc, ih (by simpa using h)]
    simp

theorem splitOnce_key {k : List Char} (h : '=' ∉ k) (v : List Char) :
    splitOnce (k ++ '=' :: v) = some (k, v) := by
  induction k with
  | nil => rw [nil_append, splitOnce, if_pos rfl]
  | cons c k ih =>
    have hc : c ≠ '=' := fun hc => h (by simp [hc])
    rw [cons_append, splitOnce, if_neg hc, ih fun hk => h (mem_cons_of_mem _ hk)]

variable {c : Char} {v : List Char}

theorem mem_clean {s : String} (h : c ∈ clean s) : c ≠ '\n' ∧ c ≠ '\r' := by
  obtain ⟨d, _, rfl⟩ := mem_map.mp h
  split
  · decide
  next hd => exact not_or.mp hd

/-- One line of a record, read back. -/
theorem linesFrom_record {key : String} {rest : List Char}
    (hkey : ∀ c ∈ key.toList, c ≠ '\n' ∧ c ≠ '\r') (hv : ∀ c ∈ v, c ≠ '\n' ∧ c ≠ '\r') :
    linesFrom [] (line key v ++ rest) = (key.toList ++ '=' :: v) :: linesFrom [] rest := by
  have htext : line key v ++ rest = (key.toList ++ '=' :: v) ++ '\n' :: rest := by
    simp [line]
  rw [htext, linesFrom_line, nil_append]
  intro c hc
  rcases mem_append.mp hc with hc | hc
  · cases hc
  rcases mem_append.mp hc with hc | hc
  · exact hkey c hc
  · rcases mem_cons.mp hc with rfl | hc
    · decide
    · exact hv c hc

/-- A value that survives `sanitiseField` as it is. -/
def PlainText (v : List Char) : Prop := (∀ c ∈ v, invisible c = false) ∧ utf8Len v ≤ fieldMaxBytes

theorem PlainText.sanitise (h : PlainText v) : sanitiseField v = some v := by
  have hkept : v.filter (fun c => !invisible c) = v := by
    rw [filter_eq_self]
    intro c hc
    rw [h.1 c hc]
    rfl
  have hle : ¬utf8Len v > fieldMaxBytes * 4 := by
    have := h.2
    omega
  unfold sanitiseField
  rw [if_neg hle, hkept, if_pos h.2]

theorem PlainText.oneLine (h : PlainText v) : ∀ c ∈ v, c ≠ '\n' ∧ c ≠ '\r' := by
  intro c hc
  refine ⟨?_, ?_⟩
  · rintro rfl
    exact absurd (h.1 _ hc) (by decide)
  · rintro rfl
    exact absurd (h.1 _ hc) (by decide)

theorem PlainText.clean {s : String} (h : PlainText s.toList) : clean s = s.toList := by
  unfold Lock.clean
  conv_rhs => rw [← map_id s.toList]
  refine map_congr_left fun c hc => ?_
  exact if_neg (not_or.mpr (h.oneLine c hc))

theorem range_of_isDigit (h : c.isDigit = true) : 48 ≤ c.val.toNat ∧ c.val.toNat ≤ 57 := by
  simp only [Char.isDigit, Bool.and_eq_true, decide_eq_true_eq] at h
  exact ⟨UInt32.le_iff_toNat_le.mp h.1, UInt32.le_iff_toNat_le.mp h.2⟩

theorem invisible_of_isDigit (h : c.isDigit = true) : invisible c = false := by
  obtain ⟨hlo, hhi⟩ := range_of_isDigit h
  simp only [invisible, Bool.or_eq_false_iff, Bool.and_eq_false_iff, decide_eq_false_iff_not,
    UInt32.lt_iff_toNat_lt, UInt32.le_iff_toNat_le, beq_eq_false_iff_ne, ne_eq,
    ← UInt32.toNat_inj, UInt32.reduceToNat]
  omega

theorem utf8Size_of_isDigit (h : c.isDigit = true) : c.utf8Size = 1 := by
  unfold Char.utf8Size
  rw [if_pos (UInt32.le_iff_toNat_le.mpr (le_trans (range_of_isDigit h).2 (by decide)))]

/-- Decimal digits are plain. -/
theorem plainText_digits {n : Nat} (h : n < 2 ^ 64) : PlainText (Nat.toDigits 10 n) := by
  have hdigit : ∀ c ∈ Nat.toDigits 10 n, c.isDigit = true :=
    fun c hc => Nat.isDigit_of_mem_toDigits (by decide) (by decide) hc
  refine ⟨fun c hc => invisible_of_isDigit (hdigit c hc), ?_⟩
  have hsize : (Nat.toDigits 10 n).map Char.utf8Size = (Nat.toDigits 10 n).map fun _ => 1 :=
    map_congr_left fun c hc => utf8Size_of_isDigit (hdigit c hc)
  have hlen : (Nat.toDigits 10 n).length ≤ 20 :=
    Nat.toDigits_length 10 n 20 (by decide) (lt_trans h (by decide))
  rw [utf8Len, hsize, map_const', sum_replicate_nat, mul_one]
  exact le_trans hlen (by decide)

theorem parseUnsigned_digits {n bound : Nat} (h : n < bound) :
    parseUnsigned bound (Nat.toDigits 10 n) = some n := by
  have hdigit : ∀ c ∈ Nat.toDigits 10 n, c.isDigit = true :=
    fun c hc => Nat.isDigit_of_mem_toDigits (by decide) (by decide) hc
  have hne : Nat.toDigits 10 n ≠ [] := by simp
  have hall : (Nat.toDigits 10 n).all Char.isDigit = true := all_eq_true.mpr hdigit
  have hstrip : unsignedDigits (Nat.toDigits 10 n) = Nat.toDigits 10 n := by
    unfold unsignedDigits
    split
    next d ds heq => exact absurd (hdigit '+' (by rw [heq]; simp)) (by decide)
    · rfl
  unfold parseUnsigned
  rw [hstrip, if_neg (by simp [hne, hall]), Nat.ofDigitChars_ten_toDigits, if_pos h]

/-- What a record has to be like to read back: the host and the boot id are plain,
and it fits. -/
structure HolderInfo.Plain (h : HolderInfo) : Prop where
  host : PlainText h.host.toList
  bootId : ∀ b, h.bootId = some b → PlainText b.toList
  fits : utf8Len h.render ≤ recordMaxBytes

/-- The lines of a record. -/
theorem lines_render {h : HolderInfo} (hp : h.Plain) :
    linesFrom [] (takeBytes recordMaxBytes h.render) =
      ("pid".toList ++ '=' :: Nat.toDigits 10 h.pid.toNat) ::
      ("host".toList ++ '=' :: h.host.toList) ::
      ("started_unix".toList ++ '=' :: Nat.toDigits 10 h.startedUnix.toNat) ::
      ((match h.bootId with
        | some b => ["boot_id".toList ++ '=' :: b.toList]
        | none => []) ++
      ["version".toList ++ '=' :: clean h.version,
        "socket_path".toList ++ '=' :: clean h.socketPath,
        "metrics".toList ++ '=' :: clean h.metrics]) := by
  have hpid := plainText_digits (lt_trans h.pid.toNat_lt (by decide))
  have hstart := plainText_digits h.startedUnix.toNat_lt
  rw [takeBytes_of_le hp.fits, HolderInfo.render, hp.host.clean,
    linesFrom_record (by simp) hpid.oneLine,
    linesFrom_record (by simp) hp.host.oneLine,
    linesFrom_record (by simp) hstart.oneLine]
  have htail : linesFrom [] (line "version" (clean h.version)
      ++ (line "socket_path" (clean h.socketPath) ++ line "metrics" (clean h.metrics)))
      = ["version".toList ++ '=' :: clean h.version,
        "socket_path".toList ++ '=' :: clean h.socketPath,
        "metrics".toList ++ '=' :: clean h.metrics] := by
    rw [linesFrom_record (by simp) fun _ => mem_clean,
      linesFrom_record (by simp) fun _ => mem_clean,
      ← append_nil (line "metrics" _),
      linesFrom_record (by simp) fun _ => mem_clean]
    rfl
  cases hboot : h.bootId with
  | none =>
    rw [nil_append, htail, nil_append]
  | some b =>
    have hb := hp.bootId b hboot
    dsimp only
    rw [hb.clean, linesFrom_record (by simp) hb.oneLine, htail]
    rfl

/-- The keys that do not identify the holder. -/
theorem Parsed.take_other {st : Parsed} {key : String}
    (hkey : key = "version" ∨ key = "socket_path" ∨ key = "metrics") :
    (st.take (key.toList ++ '=' :: v)).pid = st.pid ∧
    (st.take (key.toList ++ '=' :: v)).info.host = st.info.host ∧
    (st.take (key.toList ++ '=' :: v)).info.startedUnix = st.info.startedUnix ∧
    (st.take (key.toList ++ '=' :: v)).info.bootId = st.info.bootId := by
  unfold Parsed.take
  rcases hkey with rfl | rfl | rfl <;> exact ⟨rfl, rfl, rfl, rfl⟩

/-- A plain record reads back with its identifying fields. -/
theorem parse_render {h : HolderInfo} (hp : h.Plain) :
    ∃ found, HolderInfo.parse h.render = some found ∧ found.ident = h.ident := by
  have hpid : (sanitiseField (Nat.toDigits 10 h.pid.toNat)).bind (parseUnsigned (2 ^ 32))
      = some h.pid.toNat := by
    rw [(plainText_digits (lt_trans h.pid.toNat_lt (by decide))).sanitise, Option.bind_some]
    exact parseUnsigned_digits h.pid.toNat_lt
  have hstart : (sanitiseField (Nat.toDigits 10 h.startedUnix.toNat)).bind (parseUnsigned (2 ^ 64))
      = some h.startedUnix.toNat := by
    rw [(plainText_digits h.startedUnix.toNat_lt).sanitise, Option.bind_some]
    exact parseUnsigned_digits h.startedUnix.toNat_lt
  -- the lines that identify the holder, then three that change nothing of that
  have hfirst : ∃ st : Parsed, (linesFrom [] (takeBytes recordMaxBytes h.render)).foldl Parsed.take
        ⟨none, .default⟩
      = ((st.take ("version".toList ++ '=' :: clean h.version)).take
          ("socket_path".toList ++ '=' :: clean h.socketPath)).take
          ("metrics".toList ++ '=' :: clean h.metrics) ∧
      st.pid = some h.pid ∧ st.info.host = h.host ∧ st.info.startedUnix = h.startedUnix ∧
      st.info.bootId = h.bootId := by
    rw [lines_render hp]
    simp only [foldl_cons, foldl_append, foldl_nil]
    refine ⟨_, rfl, ?_⟩
    have hident : ∀ st : Parsed, st = ((Parsed.take ⟨none, .default⟩
          ("pid".toList ++ '=' :: Nat.toDigits 10 h.pid.toNat)).take
          ("host".toList ++ '=' :: h.host.toList)).take
          ("started_unix".toList ++ '=' :: Nat.toDigits 10 h.startedUnix.toNat) →
        st.pid = some h.pid ∧ st.info.host = h.host ∧ st.info.startedUnix = h.startedUnix ∧
          st.info.bootId = none := by
      simp only [Parsed.take, splitOnce_key (by decide : '=' ∉ "pid".toList),
        splitOnce_key (by decide : '=' ∉ "host".toList),
        splitOnce_key (by decide : '=' ∉ "started_unix".toList), hpid, hstart, hp.host.sanitise]
      simp [HolderInfo.default]
    cases hboot : h.bootId with
    | none => exact hident _ rfl
    | some b =>
      obtain ⟨h1, h2, h3, _⟩ := hident _ rfl
      simp only [foldl_cons, foldl_nil]
      generalize Parsed.take _ ("started_unix".toList ++ _) = st at h1 h2 h3
      simp only [Parsed.take, splitOnce_key (by decide : '=' ∉ "boot_id".toList),
        (hp.bootId b hboot).sanitise]
      simp [h1, h2, h3]
  obtain ⟨st, hst, h1, h2, h3, h4⟩ := hfirst
  obtain ⟨a1, a2, a3, a4⟩ := st.take_other (v := clean h.version) (.inl rfl)
  obtain ⟨b1, b2, b3, b4⟩ := (st.take ("version".toList ++ '=' :: clean h.version)).take_other
    (v := clean h.socketPath) (.inr (.inl rfl))
  obtain ⟨c1, c2, c3, c4⟩ := ((st.take ("version".toList ++ '=' :: clean h.version)).take
    ("socket_path".toList ++ '=' :: clean h.socketPath)).take_other
    (v := clean h.metrics) (.inr (.inr rfl))
  unfold HolderInfo.parse
  dsimp only
  rw [hst, c1, b1, a1, h1]
  refine ⟨_, rfl, ?_⟩
  simp only [HolderInfo.ident, c2, c3, c4, b2, b3, b4, a2, a3, a4, h2, h3, h4]

/-- Two plain records of different holders are told apart. -/
theorem sameHolder_render {a b found : HolderInfo} (ha : a.Plain) (hb : b.Plain)
    (hne : b.ident ≠ a.ident) (hfound : HolderInfo.parse b.render = some found) :
    sameHolder found a = false := by
  obtain ⟨found', hfound', hident⟩ := parse_render hb
  obtain rfl : found' = found := Option.some.inj (hfound'.symm.trans hfound)
  obtain ⟨own, hown, hident'⟩ := parse_render ha
  rw [sameHolder, hown, Option.getD_some, hident, hident', beq_eq_false_iff_ne]
  exact hne

end Weir.Lock

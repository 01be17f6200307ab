import Weir.Wab.Format

/-!
# Segment names (`wab/segment.rs`, `weir-wab/src/format.rs`)

A segment of counter `c` is the file `seg_{c:08}` with one of the lifecycle
extensions, inside its shard's directory. The extensions keep the names of one
counter apart:

> `segPath_inj`: a path determines both the counter and the lifecycle state.
-/

namespace Weir.Wab

open Weir.Lib List

/-- A path: the components of its parent directory, outermost first, and its
file name. -/
structure Path where
  dir : List String
  file : String
  deriving DecidableEq, Repr

def extActive : String := ".wab"
def extSealed : String := ".wab.sealed"
def extConfirmed : String := ".wab.confirmed"

/-- `str::strip_prefix`. -/
def stripPrefix (pre s : String) : Option String :=
  if pre.toList.isPrefixOf s.toList then some (String.ofList (s.toList.drop pre.length)) else none

/-- `str::strip_suffix`. -/
def stripSuffix (suf s : String) : Option String :=
  if suf.toList.isSuffixOf s.toList then
    some (String.ofList (s.toList.take (s.length - suf.length)))
  else none

theorem stripPrefix_append (pre s : String) : stripPrefix pre (pre ++ s) = some s := by
  have h : pre.toList.isPrefixOf (pre ++ s).toList = true := by
    rw [String.toList_append, isPrefixOf_iff_prefix]
    exact prefix_append ..
  rw [stripPrefix, if_pos h, String.toList_append, ← String.length_toList, drop_left,
    String.ofList_toList]

theorem stripSuffix_append (s suf : String) : stripSuffix suf (s ++ suf) = some s := by
  have h : suf.toList.isSuffixOf (s ++ suf).toList = true := by
    rw [String.toList_append, isSuffixOf_iff_suffix]
    exact suffix_append ..
  rw [stripSuffix, if_pos h, String.length_append, Nat.add_sub_cancel, String.toList_append,
    ← String.length_toList, take_left, String.ofList_toList]

/-- `{n:08}`: decimal, padded with zeros to eight digits. -/
def pad8 (n : Nat) : List Char :=
  replicate (8 - (Nat.toDigits 10 n).length) '0' ++ Nat.toDigits 10 n

/-- The file name of the segment `c` under an extension. -/
def segmentFile (c : Nat) (ext : String) : String := "seg_" ++ (String.ofList (pad8 c) ++ ext)

/-- `segment_path`. -/
def segmentPath (shardDir : List String) (c : Nat) : Path := ⟨shardDir, segmentFile c extActive⟩

/-- `sealed_path_for`. -/
def sealedPathFor (p : Path) : Path :=
  { p with file := p.file ++ (stripPrefix extActive extSealed).getD "" }

/-- `confirmed_path_for`: the sidecar of a sealed segment. -/
def confirmedPathFor (p : Path) : Path :=
  { p with file := (stripSuffix extSealed p.file).getD p.file ++ extConfirmed }

/-- `confirmed_tmp_path`. -/
def confirmedTmpPath (p : Path) : Path := { p with file := p.file ++ ".tmp" }

/-- `segment_identity`: the segment half of a record's coordinate. -/
def segmentIdentity (p : Path) : String :=
  match p.dir.getLast? with
  | some shard => shard ++ "/" ++ p.file
  | none => p.file

theorem pad8_ofDigitChars (n : Nat) : Nat.ofDigitChars 10 (pad8 n) 0 = n := by
  rw [pad8, Nat.ofDigitChars_append, Nat.ofDigitChars_replicate_zero, mul_zero,
    Nat.ofDigitChars_ten_toDigits]

theorem pad8_isDigit {n : Nat} {c : Char} (h : c ∈ pad8 n) : c.isDigit = true := by
  rcases mem_append.mp h with h | h
  · rw [eq_of_mem_replicate h]; rfl
  · exact Nat.isDigit_of_mem_toDigits (by decide) (by decide) h

/-! ## Lifecycle names -/

/-- The lifecycle extensions a shard directory holds. -/
inductive Ext
  | active
  | sealed
  | confirmed
  | confirmedTmp
  deriving DecidableEq, Repr

def Ext.text : Ext → String
  | .active => extActive
  | .sealed => extSealed
  | .confirmed => extConfirmed
  | .confirmedTmp => extConfirmed ++ ".tmp"

/-- The name of the segment `c` in a lifecycle state. -/
def segPath (shardDir : List String) (c : Nat) (e : Ext) : Path := ⟨shardDir, segmentFile c e.text⟩

section

variable (dir : List String) (c : Nat)

theorem segmentPath_eq : segmentPath dir c = segPath dir c .active :=
  rfl

@[simp] theorem sealedPathFor_segPath :
    sealedPathFor (segPath dir c .active) = segPath dir c .sealed := by
  have h : stripPrefix extActive extSealed = some ".sealed" :=
      stripPrefix_append extActive ".sealed"
  have hext : extActive ++ ".sealed" = extSealed := rfl
  rw [sealedPathFor, h]
  simp only [segPath, segmentFile, Ext.text, Option.getD_some, String.append_assoc, hext]

@[simp] theorem confirmedPathFor_segPath :
    confirmedPathFor (segPath dir c .sealed) = segPath dir c .confirmed := by
  have h : stripSuffix extSealed (segmentFile c extSealed)
      = some ("seg_" ++ String.ofList (pad8 c)) := by
    rw [segmentFile, ← String.append_assoc]
    exact stripSuffix_append _ _
  simp only [confirmedPathFor, segPath, Ext.text, h, Option.getD_some]
  rw [segmentFile, String.append_assoc]

@[simp] theorem confirmedTmpPath_segPath :
    confirmedTmpPath (segPath dir c .confirmed) = segPath dir c .confirmedTmp := by
  simp only [confirmedTmpPath, segPath, segmentFile, Ext.text, String.append_assoc]

end

/-- Every extension starts with a dot, so the digit run stops before it. -/
theorem takeWhile_pad8 (c : Nat) (e : Ext) :
    (String.ofList (pad8 c) ++ e.text).toList.takeWhile Char.isDigit = pad8 c := by
  have htext : e.text.toList.takeWhile Char.isDigit = [] := by cases e <;> rfl
  rw [String.toList_append, String.toList_ofList,
    takeWhile_append_of_pos (fun _ h => pad8_isDigit h), htext, append_nil]

/-- A lifecycle name determines its counter and its state. -/
theorem segPath_inj {dir : List String} {c c' : Nat} {e e' : Ext}
    (h : segPath dir c e = segPath dir c' e') : c = c' ∧ e = e' := by
  have hfile : String.ofList (pad8 c) ++ e.text = String.ofList (pad8 c') ++ e'.text := by
    have hl := congrArg (fun p : Path => p.file.toList) h
    simp only [segPath, segmentFile, String.toList_append] at hl
    rw [← String.toList_inj, String.toList_append, String.toList_append]
    exact append_cancel_left hl
  have hpad : pad8 c = pad8 c' := by
    rw [← takeWhile_pad8 c e, hfile, takeWhile_pad8]
  have hc : c = c' := by
    rw [← pad8_ofDigitChars c, hpad, pad8_ofDigitChars]
  subst hc
  refine ⟨rfl, ?_⟩
  have htext : e.text.toList = e'.text.toList := by
    have hl := congrArg String.toList hfile
    rw [String.toList_append, String.toList_append] at hl
    exact append_cancel_left hl
  revert htext
  cases e <;> cases e' <;> decide

end Weir.Wab

import Weir.Drain.Ledger
import Weir.Wab.Recovery

/-!
# Confirming a delivered segment (`drain/confirmed.rs`, `wab/mod.rs`, `wab/recovery.rs`)

A delivered segment gets a `.confirmed` sidecar and is then deleted. The
sidecar is written to `.confirmed.tmp`, synced, renamed into place, and its
directory synced, before the segment goes. `check_confirmed` and
`delete_orphan` are the other side: what a scan makes of a segment whose
sidecar it finds.

As everywhere, the outcome of each system call is an argument, and what the
calls did to the disk is returned in order.
-/

namespace Weir.Drain

open Weir.Lib Weir.Wab

/-! ## Writing the sidecar -/

/-- The outcomes of writing a sidecar: the read of the footer's timestamp, the
clock, the calls on the tmp file, and whether a failed write could remove it. -/
structure SidecarIo where
  footerFault : Option IoError
  drainedAt : Int64
  opened : Option IoError
  data : WriteAll
  fsync : Option IoError
  rename : Option IoError
  dirSync : Option IoError
  tmpRemoved : Bool

/-- `read_sealed_at_nanos`. -/
def readSealedAtNanos (file : Bytes) (fault : Option IoError) : Except IoError Int64 :=
  match fault with
  | some e => .error e
  | none =>
    if file.length < segmentFooterLen + 4 then .ok 0
    else .ok (i64Of (slice (file.drop (file.length - segmentFooterLen)) 20 28))

/-- `write_tmp_then_rename`. -/
def writeTmpThenRename (confirmed tmp : Path) (bytes : Bytes) (io : SidecarIo) :
    Except IoError Unit × List (Op Path) :=
  match io.opened with
  | some e => (.error e, [])
  | none =>
    match io.data with
    | .failed n e => (.error e, [.truncate tmp, .append tmp (bytes.take n)])
    | .ok =>
      match io.fsync with
      | some e => (.error e, [.truncate tmp, .append tmp bytes])
      | none =>
        match io.rename with
        | some e => (.error e, [.truncate tmp, .append tmp bytes, .fsync tmp])
        | none =>
          match fsyncParentDir confirmed io.dirSync with
          | (result, sync) =>
            (result, [.truncate tmp, .append tmp bytes, .fsync tmp, .rename tmp confirmed] ++ sync)

/-- `write_confirmed_durably`: a failed write removes its tmp if it can. -/
def writeConfirmedDurably (confirmed : Path) (bytes : Bytes) (io : SidecarIo) :
    Except IoError Unit × List (Op Path) :=
  match writeTmpThenRename confirmed (confirmedTmpPath confirmed) bytes io with
  | (.ok (), ops) => (.ok (), ops)
  | (.error e, ops) =>
    (.error e, ops ++ if io.tmpRemoved then [.unlink (confirmedTmpPath confirmed)] else [])

/-- `write_confirmed_file`, for a segment that holds `file`. -/
def writeConfirmedFile (sealed : Path) (file : Bytes) (recordCount : Nat) (io : SidecarIo) :
    Except IoError Unit × List (Op Path) :=
  let sealedAt :=
    match readSealedAtNanos file io.footerFault with
    | .ok t => t
    | .error _ => 0
  writeConfirmedDurably (confirmedPathFor sealed) (buildConfirmed sealedAt recordCount io.drainedAt)
    io

/-! ## Confirming -/

/-- The outcomes of a confirm: the existence test, the sidecar, the delete. -/
structure ConfirmIo where
  sealedStat : Except IoError Bool
  sidecar : SidecarIo
  remove : Option IoError

/-- Every call succeeds. -/
def calmConfirm : ConfirmIo := ⟨.ok true, ⟨none, 0, none, .ok, none, none, none, true⟩, none⟩

/-- `delete_confirmed_segment`. -/
def deleteConfirmedSegment (sealed : Path) (remove : Option IoError) :
    ConfirmOutcome × List (Op Path) :=
  match remove with
  | none => (.done, [.unlink sealed])
  | some e =>
    if e.kind = .notFound then (.done, [.probe sealed false]) else (.deleteFailed, [])

/-- `confirm_and_delete`. `Path::exists` answers false when its stat fails. -/
def confirmAndDelete (sealed : Path) (file : Bytes) (recordCount : Nat) (io : ConfirmIo) :
    ConfirmOutcome × List (Op Path) :=
  match io.sealedStat with
  | .error _ => (.done, [])
  | .ok false => (.done, [.probe sealed false])
  | .ok true =>
    match writeConfirmedFile sealed file recordCount io.sidecar with
    | (.error _, ops) => (.sidecarFailed, .probe sealed true :: ops)
    | (.ok (), ops) =>
      match deleteConfirmedSegment sealed io.remove with
      | (outcome, ops') => (outcome, .probe sealed true :: ops ++ ops')

/-- The step of a pending confirm that `retry_confirms` redoes. -/
def retryConfirm (sealed : Path) (file : Bytes) (pending : ConfirmPending) (io : ConfirmIo) :
    ConfirmOutcome × List (Op Path) :=
  match pending.stage with
  | .sidecar => confirmAndDelete sealed file pending.recordCount io
  | .delete => deleteConfirmedSegment sealed io.remove

/-- What `retry_confirms` does to the ledger with the outcome for one entry. -/
def SegmentLedger.noteRetry (l : SegmentLedger) (p : Path) (pending : ConfirmPending)
    (outcome : ConfirmOutcome) : SegmentLedger :=
  match outcome with
  | .done => { l with confirmPending := l.confirmPending.erase p }
  | .sidecarFailed => l
  | .deleteFailed =>
    { l with confirmPending := l.confirmPending.insert p { pending with stage := .delete } }

/-! ## Reading the sidecar back -/

/-- The `Display` of a `ConfirmedParseError`. -/
def displayConfirmedError : ConfirmedParseError → String
  | .wrongLength got => s!"confirmation file is {got} bytes, expected {confirmedLen}"
  | .badMagic => "confirmation file has bad magic (expected b\"WCON\")"
  | .unknownVersion v => s!"unknown confirmation format version {v}"
      ++ "; cannot safely determine drain status — treating as unconfirmed would risk "
      ++ "double-drain, quarantining instead"
  | .crcMismatch expected computed =>
    "confirmation CRC mismatch: expected " ++ hex32 expected ++ ", computed " ++ hex32 computed

/-- The reason a segment with a bad sidecar is quarantined with. -/
def badSidecarReason (e : ConfirmedParseError) : String :=
  match e with
  | .unknownVersion _ => "unknown .confirmed version: " ++ displayConfirmedError e
  | _ => "invalid .confirmed file: " ++ displayConfirmedError e

/-- The outcomes of a `check_confirmed`: of the existence test, of the read, and
of the two moves a bad sidecar leads to. -/
structure CheckIo where
  existsFault : Option IoError
  readFault : Option IoError
  sealedMove : QuarantineIo
  sidecarMove : QuarantineIo

/-- `check_confirmed`, over the bytes under the sidecar's name: `ok true` for a
delivered segment, `ok false` for one to replay. -/
def checkConfirmed (sealed : Path) (wabDir : List String) (sidecar : Option Bytes) (io : CheckIo) :
    Except IoError Bool × List (Op Path) :=
  let confirmed := confirmedPathFor sealed
  match io.existsFault, sidecar with
  | some _, _ => (.ok false, [])
  | none, none => (.ok false, [.probe confirmed false])
  | none, some buf =>
    match io.readFault with
    | some _ => (.ok false, [.probe confirmed true])
    | none =>
      match parseConfirmed buf with
      | .ok _ => (.ok true, [.probe confirmed true])
      | .error e =>
        match quarantineAndCount sealed wabDir io.sealedMove (badSidecarReason e) with
        | (err, moved) =>
          match quarantine confirmed wabDir io.sidecarMove with
          | (.error e, ops) => (.error e, .probe confirmed true :: moved ++ ops)
          | (.ok (), ops) => (.error err, .probe confirmed true :: moved ++ ops)

/-- The outcomes of a `delete_orphan`. -/
structure OrphanIo where
  sidecarSync : Option IoError
  dirSync : Option IoError
  remove : Option IoError

/-- `delete_orphan`: the sidecar and its entry are synced before the segment
goes. -/
def deleteOrphan (sealed : Path) (io : OrphanIo) : Except IoError Unit × List (Op Path) :=
  let confirmed := confirmedPathFor sealed
  match io.sidecarSync with
  | some e => (.error e, [])
  | none =>
    match fsyncParentDir confirmed io.dirSync with
    | (.error e, sync) => (.error e, .fsync confirmed :: sync)
    | (.ok (), sync) =>
      match io.remove with
      | none => (.ok (), .fsync confirmed :: sync ++ [.unlink sealed])
      | some e =>
        if e.kind = .notFound then (.ok (), .fsync confirmed :: sync ++ [.probe sealed false])
        else (.error e, .fsync confirmed :: sync)

end Weir.Drain

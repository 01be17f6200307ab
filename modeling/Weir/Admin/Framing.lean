import Weir.Lib.LittleEndian
import Weir.Lib.Stream
import Weir.Lib.Text

/-!
# Lines on the admin socket

`serve_connection` reads one request a line, over a buffered reader whose refills cut the
client's bytes anywhere, and answers in order. A refill that fails is an I/O error or the
request's deadline; behind it nothing is read.

> `serveConnection_framed`: whatever the refills, the answers are those owed to the bytes
> received, up to the first answer whose write failed, and the line buffer never holds more
> than the limit.
-/

namespace Weir.Admin

open List Lib

variable {ε : Type}

/-- Why a refill of the buffer fails. -/
inductive Interrupted (ε : Type) where
  | io (e : ε)
  | elapsed
  deriving DecidableEq

/-- The buffered reader: its buffer is the first chunk. -/
abbrev Source (ε : Type) := List (Arrival UInt8 (Interrupted ε))

inductive LineRead where
  | line
  | eof
  | tooLarge
  deriving DecidableEq

/-- How `read_line_bounded` ended, the reader behind it, and each content the line buffer
had; the last is the line. -/
structure Read (ε : Type) where
  result : Except (Interrupted ε) LineRead
  line : Bytes
  rest : Source ε
  held : List Bytes

/-- `AsyncBufRead::consume` of all but `buf`. -/
def consume (buf : Bytes) (src : Source ε) : Source ε :=
  if buf = [] then src else .chunk buf :: src

def readLineBounded (max : Nat) : Source ε → Bytes → Read ε
  | [], line => ⟨.ok .eof, line, [], [line]⟩
  | .failed e :: src, line => ⟨.error e, line, src, [line]⟩
  | .chunk buf :: src, line =>
    if buf = [] then ⟨.ok .eof, line, src, [line]⟩
    else
      match buf.idxOf? 10 with
      | some i =>
        if max < line.length + i then ⟨.ok .tooLarge, line, .chunk buf :: src, [line]⟩
        else ⟨.ok .line, line ++ buf.take i, consume (buf.drop (i + 1)) src,
          [line, line ++ buf.take i]⟩
      | none =>
        if max < line.length + buf.length then ⟨.ok .tooLarge, line, .chunk buf :: src, [line]⟩
        else
          let r := readLineBounded max src (line ++ buf)
          { r with held := line :: r.held }

inductive ErrorCode where
  | requestTooLarge
  | badRequest
  deriving DecidableEq

/-- An answer: the dispatcher's to a line, or a framing error. -/
inductive Reply where
  | dispatched (line : Bytes)
  | framingError (code : ErrorCode) (message : String)
  deriving DecidableEq

/-- The deadline in milliseconds. -/
structure Limits where
  maxLineBytes : Nat
  requestDeadline : Nat
  maxRequests : Nat

def Limits.tooLarge (l : Limits) : Reply :=
  .framingError .requestTooLarge s!"a request line may be at most {l.maxLineBytes} bytes"

def Limits.late (l : Limits) : Reply :=
  .framingError .badRequest
    s!"request not completed within {l.requestDeadline} ms of its first byte"

/-- The answers a connection gave, and each content its line buffer had. -/
structure Served where
  replies : List Reply
  held : List Bytes

/-- The loop of `serve_connection`, with `n` requests to go and `k` answered; `written k` is
whether the write of that answer succeeds. -/
def serveRequests (l : Limits) (written : Nat → Bool) : Nat → Nat → Source ε → Served
  | 0, _, _ => ⟨[], []⟩
  | n + 1, k, .chunk (b :: bs) :: src =>
    let r := readLineBounded l.maxLineBytes (.chunk (b :: bs) :: src) []
    match r.result with
    | .ok .line =>
      if written k then
        let s := serveRequests l written n (k + 1) r.rest
        ⟨.dispatched r.line :: s.replies, r.held ++ s.held⟩
      else ⟨[.dispatched r.line], r.held⟩
    | .ok .eof | .error (.io _) => ⟨[], r.held⟩
    | .ok .tooLarge => ⟨[l.tooLarge], r.held⟩
    | .error .elapsed => ⟨[l.late], r.held⟩
  -- idle: no first byte comes
  | _ + 1, _, _ => ⟨[], []⟩

def serveConnection (l : Limits) (written : Nat → Bool) (src : Source ε) : Served :=
  serveRequests l written l.maxRequests 0 src

/-! ## What is owed to the bytes -/

/-- The bytes that arrive before the stream ends or fails. -/
def received : Source ε → Bytes
  | .chunk (b :: bs) :: src => b :: bs ++ received src
  | _ => []

/-- The bytes end because a deadline passed. -/
def timedOut : Source ε → Bool
  | .chunk (_ :: _) :: src => timedOut src
  | .failed .elapsed :: _ => true
  | _ => false

/-- The answers to a stream: one to each line that a newline ends, up to the first line longer
than the limit; then the refusal of that line, ended or not, or the error of a deadline that
passed within a line. -/
def owed (l : Limits) (late : Bool) (bytes : Bytes) : List Reply :=
  let lines := bytes.splitOn 10
  (lines.dropLast.takeWhile (·.length ≤ l.maxLineBytes)).map .dispatched ++
    if lines.any (l.maxLineBytes < ·.length) then [l.tooLarge]
    else if late ∧ lines.getLast? ≠ some [] then [l.late]
    else []

variable {l : Limits}

theorem owed_line {body : Bytes} (hbody : 10 ∉ body) (hlen : body.length ≤ l.maxLineBytes)
    (late : Bool) (rest : Bytes) :
    owed l late (body ++ 10 :: rest) = .dispatched body :: owed l late rest := by
  have hne := splitOn_ne_nil 10 rest
  simp [owed, splitOn_line hbody, dropLast_cons_of_ne_nil hne, getLast?_cons_of_ne_nil hne,
    hlen, Nat.not_lt.mpr hlen]

theorem owed_open {tail : Bytes} (htail : 10 ∉ tail) (hlen : tail.length ≤ l.maxLineBytes)
    (late : Bool) : owed l late tail = if late ∧ tail ≠ [] then [l.late] else [] := by
  simp [owed, splitOn_eq_singleton htail, Nat.not_lt.mpr hlen]

/-- A line that begins with too many bytes is refused. -/
theorem owed_tooLarge {body : Bytes} (hbody : 10 ∉ body) (hlen : l.maxLineBytes < body.length)
    (late : Bool) (rest : Bytes) : owed l late (body ++ rest) = [l.tooLarge] := by
  by_cases hrest : 10 ∈ rest
  · obtain ⟨a, b, rfl, ha⟩ := eq_append_cons_of_mem hrest
    have hline : 10 ∉ body ++ a := by simp [hbody, ha]
    have hlong : l.maxLineBytes < (body ++ a).length := by rw [length_append]; omega
    rw [← append_assoc, owed, splitOn_line hline, dropLast_cons_of_ne_nil (splitOn_ne_nil 10 b),
      takeWhile_cons_of_neg (by simpa using hlong), any_cons, decide_eq_true hlong]
    rfl
  · have hlong : l.maxLineBytes < (body ++ rest).length := by rw [length_append]; omega
    have hone : 10 ∉ body ++ rest := by simp [hbody, hrest]
    simp [owed, splitOn_eq_singleton hone, hlong, -length_append]

/-! ## One line -/

theorem received_consume (buf : Bytes) (src : Source ε) :
    received (consume buf src) = buf ++ received src ∧
      timedOut (consume buf src) = timedOut src := by
  cases buf <;> exact ⟨rfl, rfl⟩

/-- What a read of a line tells of the bytes to come, with `line` already read. -/
def Read.Tells (max : Nat) (line : Bytes) (src : Source ε) (r : Read ε) : Prop :=
  match r.result with
  | .ok .line => ∃ body, 10 ∉ body ∧ received src = body ++ 10 :: received r.rest ∧
      r.line = line ++ body ∧ r.line.length ≤ max ∧ timedOut src = timedOut r.rest
  | .ok .tooLarge => ∃ body rest, 10 ∉ body ∧ received src = body ++ rest ∧
      max < (line ++ body).length
  | .ok .eof | .error (.io _) => 10 ∉ received src ∧ (line ++ received src).length ≤ max ∧
      timedOut src = false
  | .error .elapsed => 10 ∉ received src ∧ (line ++ received src).length ≤ max ∧
      timedOut src = true

/-- The byte found is the first newline. -/
theorem cut_at {buf : Bytes} {i : Nat} (h : buf.idxOf? 10 = some i) :
    10 ∉ buf.take i ∧ buf = buf.take i ++ 10 :: buf.drop (i + 1) ∧ (buf.take i).length = i := by
  obtain ⟨hi, hat, hbefore⟩ := idxOf?_eq_some_iff.mp h
  refine ⟨fun hmem => ?_, ?_, length_take_of_le (Nat.le_of_lt hi)⟩
  · obtain ⟨j, hj, hjat⟩ := mem_take_iff_getElem.mp hmem
    exact hbefore j (by omega) hjat
  · rw [← hat, getElem_cons_drop, take_append_drop]

theorem received_chunk {buf : Bytes} (h : buf ≠ []) (src : Source ε) :
    received (.chunk buf :: src) = buf ++ received src ∧
      timedOut (.chunk buf :: src) = timedOut src := by
  cases buf with
  | nil => exact absurd rfl h
  | cons b bs => exact ⟨rfl, rfl⟩

/-- A chunk without a newline moves into the line. -/
theorem Read.Tells.chunk {max : Nat} {line buf : Bytes} {src : Source ε} {r : Read ε}
    (h : r.Tells max (line ++ buf) src) (hbuf : buf ≠ []) (hnone : 10 ∉ buf) (held : List Bytes) :
    ({ r with held := held } : Read ε).Tells max line (.chunk buf :: src) := by
  obtain ⟨hrec, hlate⟩ := received_chunk hbuf src
  have hmem : ∀ body : Bytes, 10 ∉ body → 10 ∉ buf ++ body := fun body hbody => by
    simp [hnone, hbody]
  obtain ⟨result, rline, rest, _⟩ := r
  rcases result with (e | _) | (_ | _ | _) <;> simp only [Tells, hrec, hlate] at h ⊢
  case ok.line =>
    obtain ⟨body, hbody, heq, hline, hend⟩ := h
    exact ⟨buf ++ body, hmem _ hbody, by rw [heq, append_assoc], by rw [hline, append_assoc], hend⟩
  case ok.tooLarge =>
    obtain ⟨body, rest, hbody, heq, hlong⟩ := h
    exact ⟨buf ++ body, rest, hmem _ hbody, by rw [heq, append_assoc], by rwa [← append_assoc]⟩
  all_goals
    rw [append_assoc] at h
    exact ⟨hmem _ h.1, h.2⟩

theorem readLineBounded_tells (max : Nat) (src : Source ε) (line : Bytes)
    (hline : line.length ≤ max) :
    (readLineBounded max src line).Tells max line src ∧
      ∀ b ∈ (readLineBounded max src line).held, b.length ≤ max := by
  fun_induction readLineBounded max src line with
  | case1 line => simpa [Read.Tells, received, timedOut] using hline
  | case2 e src line =>
    cases e <;> simpa [Read.Tells, received, timedOut] using hline
  | case3 src line => simpa [Read.Tells, received, timedOut] using hline
  | case4 buf src line hbuf i hi hlong =>
    obtain ⟨hbody, hcut, hlen⟩ := cut_at hi
    refine ⟨⟨buf.take i, buf.drop i ++ received src, hbody, ?_, ?_⟩, by simpa using hline⟩
    · rw [(received_chunk hbuf src).1, ← append_assoc, take_append_drop]
    · rwa [length_append, hlen]
  | case5 buf src line hbuf i hi hfits =>
    obtain ⟨hbody, hcut, hlen⟩ := cut_at hi
    have hle : (line ++ buf.take i).length ≤ max := by
      rw [length_append, hlen]
      omega
    obtain ⟨hrec, hlate⟩ := received_consume (buf.drop (i + 1)) src
    refine ⟨⟨buf.take i, hbody, ?_, rfl, hle, ?_⟩, by simp [hline, hle, -length_append]⟩
    · rw [(received_chunk hbuf src).1, hrec]
      nth_rewrite 1 [hcut]
      rw [append_assoc, cons_append]
    · rw [(received_chunk hbuf src).2, hlate]
  | case6 buf src line hbuf hnone hlong =>
    refine ⟨⟨buf, _, idxOf?_eq_none_iff.mp hnone, (received_chunk hbuf src).1, ?_⟩,
      by simpa using hline⟩
    rwa [length_append]
  | case7 buf src line hbuf hnone hfits r ih =>
    obtain ⟨htells, hheld⟩ := ih (by rw [length_append]; omega)
    exact ⟨htells.chunk hbuf (idxOf?_eq_none_iff.mp hnone) _, by simpa [hline] using hheld⟩

/-! ## The connection -/

theorem serveRequests_framed (l : Limits) (written : Nat → Bool) (n k : Nat) (src : Source ε) :
    let s := serveRequests l written n k src
    let due := (owed l (timedOut src) (received src)).take n
    (s.replies = due ∨ ∃ j, s.replies = due.take (j + 1) ∧ written (k + j) = false) ∧
      ∀ b ∈ s.held, b.length ≤ l.maxLineBytes := by
  induction n generalizing k src with
  | zero => simp [serveRequests]
  | succ n ih =>
    fun_cases received src with
    | case2 src hidle =>
      have hserve : serveRequests l written (n + 1) k src = ⟨[], []⟩ := by
        rw [serveRequests]
        exact hidle
      simp [hserve, owed_open]
    | case1 b bs src =>
    obtain ⟨htells, hheld⟩ := readLineBounded_tells l.maxLineBytes (.chunk (b :: bs) :: src) []
      (Nat.zero_le _)
    have hrec : b :: bs ++ received src = received (.chunk (b :: bs) :: src) := rfl
    rw [serveRequests, hrec]
    generalize readLineBounded l.maxLineBytes (.chunk (b :: bs) :: src) [] = r at htells hheld ⊢
    obtain ⟨result, line, rest, held⟩ := r
    rcases result with (e | _) | (_ | _ | _) <;> simp only [Read.Tells, nil_append] at htells
    case ok.line =>
      obtain ⟨body, hbody, heq, rfl, hlen, hlate⟩ := htells
      rw [heq, hlate, owed_line hbody hlen, take_succ_cons]
      obtain ⟨hrest, hrestHeld⟩ := ih (k + 1) rest
      dsimp only
      split
      next =>
        refine ⟨?_, forall_mem_append.mpr ⟨hheld, hrestHeld⟩⟩
        rcases hrest with hall | ⟨j, hcut, hfailed⟩
        · exact .inl (congrArg _ hall)
        · refine .inr ⟨j + 1, congrArg _ hcut, ?_⟩
          rwa [show k + (j + 1) = k + 1 + j by omega]
      next hfailed => exact ⟨.inr ⟨0, by simp, by simpa using hfailed⟩, hheld⟩
    case ok.tooLarge =>
      obtain ⟨body, tail, hbody, heq, hlong⟩ := htells
      rw [heq, owed_tooLarge hbody hlong]
      exact ⟨.inl (by simp), hheld⟩
    all_goals
      obtain ⟨hbody, hlen, hlate⟩ := htells
      rw [owed_open hbody hlen, hlate]
      exact ⟨.inl (by simp [← hrec]), hheld⟩

/-- The answers are those owed to the bytes received, however they were cut, up to the request
maximum and to the first answer whose write failed. -/
theorem serveConnection_framed (l : Limits) (written : Nat → Bool) (src : Source ε) :
    let s := serveConnection l written src
    let due := (owed l (timedOut src) (received src)).take l.maxRequests
    (s.replies = due ∨ ∃ k, s.replies = due.take (k + 1) ∧ written k = false) ∧
      ∀ line ∈ s.held, line.length ≤ l.maxLineBytes := by
  simpa [serveConnection] using serveRequests_framed l written l.maxRequests 0 src

end Weir.Admin

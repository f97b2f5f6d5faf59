import FlintlockRunner.Base.Errors
import FlintlockRunner.Base.Shell
import Mathlib.Tactic.MkIffOfInductiveProp

/-!
# Receiving from an exec stream (`transport/exec.go`)

The Host's side of an exchange is output, at most one `exit_code`, and now and
then an `error` that an `exit_code` behind it supersedes. Whether a Stage may run
again rests on what `receive` makes of it: an exit status is the command's own,
and an error says that the status is unknown.

The status is the first `exit_code` that is reached, and otherwise the error wraps
`ErrStreamFailed` (`exit_status_exact`). What the writers have got are the payloads
in front of that point, and of a payload whose write failed the part that the
writer took.

What the Host and the writers do is in the arguments. The Host watch is what it
reports when the stream has ended.
-/

namespace FlintlockRunner.Transport

open Shell (Bytes)

/-! ## Errors -/

/-- The errors that `errors.Is` is asked for: `io.EOF`, `ErrStreamFailed` and
`ErrNotReady`. -/
inductive Sentinel
  | eof
  | streamFailed
  | notReady
  deriving DecidableEq, Repr

def Sentinel.text : Sentinel → String
  | .eof => "EOF"
  | .streamFailed => "transport: stream failed before exit status"
  | .notReady => "transport: guest not ready"

/-- An error of the package. -/
abbrev Err := Go.Err Sentinel Empty

/-- `Error`. -/
def Err.text (e : Err) : String := Go.Err.text Sentinel.text e

/-- `execTransport`, as far as its errors name it. -/
structure ExecTransport where
  hostName : String
  vmUID : String

namespace ExecTransport

variable (t : ExecTransport)

def streamFailure (what : String) (cause : Option Err) : Err :=
  .wrap ("host " ++ t.hostName ++ ": microvm " ++ t.vmUID ++ ": " ++ what ++ ": ")
    (match cause with
      | none => .value .streamFailed
      | some e => .join e (.value .streamFailed))

def execError (payload : String) : Err :=
  .wrap ("host " ++ t.hostName ++ ": microvm " ++ t.vmUID
    ++ ": exec reported an error before the exit status: "
    ++ (if payload = "" then "no reason given" else payload) ++ ": ") (.value .streamFailed)

@[simp] theorem streamFailure_is (what : String) (cause : Option Err) :
    (t.streamFailure what cause).is .streamFailed = true := by
  cases cause <;> simp [streamFailure, Go.Err.is, Go.Err.join]

@[simp] theorem execError_is (payload : String) :
    (t.execError payload).is .streamFailed = true := by
  simp [execError, Go.Err.is]

end ExecTransport

/-! ## Writers -/

/-- A `Write` that fails, with how much of its chunk it took before. -/
structure WriteError where
  taken : Nat
  err : Err

/-- A writer: none, or the answers to its writes in their order. -/
abbrev Writer := Option (Nat → Option WriteError)

/-- A writer in use: how often it was called and what it took. -/
structure Sink where
  writer : Writer
  calls : Nat
  bytes : Bytes

/-- One write to a sink; a nil writer takes everything. -/
def Sink.write (s : Sink) (chunk : Bytes) : Sink × Option Err :=
  match s.writer with
  | none => (s, none)
  | some answer =>
    if chunk = [] then (s, none)
    else
      match answer s.calls with
      | none => (⟨s.writer, s.calls + 1, s.bytes ++ chunk⟩, none)
      | some e => (⟨s.writer, s.calls + 1, s.bytes ++ chunk.take e.taken⟩, some e.err)

/-! ## `receive` -/

/-- The payload of an `ExecCommandResponse`; one may have none. -/
inductive Response
  | stdout (chunk : Bytes)
  | stderr (chunk : Bytes)
  | error (text : String)
  | exitCode (code : Int32)
  | empty
  deriving DecidableEq

/-- What `receive` returns and what the writers have then. -/
structure Received where
  status : Int
  err : Option Err
  stdout : Sink
  stderr : Sink

/-- `receive`, with the responses still to come, the error `Recv` ends in, and
what the watch reports then. -/
def receive (t : ExecTransport) (watch : Option Err) (recvErr : Err) :
    List Response → Option Err → Sink → Sink → Received
  | [], reported, stdout, stderr =>
    let err :=
      match watch, reported with
      | some unreachable, _ => t.streamFailure "host stopped answering" (some unreachable)
      | none, some err => err
      | none, none =>
        if recvErr.is .eof then
          t.streamFailure "exec stream ended before the exit code"
            (some (.new "no exit_code payload"))
        else t.streamFailure "exec stream failed" (some recvErr)
    ⟨-1, some err, stdout, stderr⟩
  | .stdout chunk :: rs, reported, stdout, stderr =>
    match stdout.write chunk with
    | (stdout, some err) => ⟨-1, some (t.streamFailure "writing stdout" (some err)), stdout, stderr⟩
    | (stdout, none) => receive t watch recvErr rs reported stdout stderr
  | .stderr chunk :: rs, reported, stdout, stderr =>
    match stderr.write chunk with
    | (stderr, some err) => ⟨-1, some (t.streamFailure "writing stderr" (some err)), stdout, stderr⟩
    | (stderr, none) => receive t watch recvErr rs reported stdout stderr
  | .error text :: rs, _, stdout, stderr =>
    receive t watch recvErr rs (some (t.execError text)) stdout stderr
  | .exitCode code :: _, _, stdout, stderr => ⟨code.toInt, none, stdout, stderr⟩
  | .empty :: rs, reported, stdout, stderr => receive t watch recvErr rs reported stdout stderr

/-! ## What has been written -/

def Response.stdout? : Response → Option Bytes
  | .stdout chunk => some chunk
  | _ => none

def Response.stderr? : Response → Option Bytes
  | .stderr chunk => some chunk
  | _ => none

variable (rs : List Response)

/-- The standard output among some responses. -/
def stdoutOf : List Bytes := rs.filterMap Response.stdout?

/-- The standard error among some responses. -/
def stderrOf : List Bytes := rs.filterMap Response.stderr?

theorem stdoutOf_concat (r : Response) :
    stdoutOf (rs ++ [r]) = stdoutOf rs ++ r.stdout?.toList := by
  cases r <;> simp [stdoutOf, Response.stdout?]

theorem stderrOf_concat (r : Response) :
    stderrOf (rs ++ [r]) = stderrOf rs ++ r.stderr?.toList := by
  cases r <;> simp [stderrOf, Response.stderr?]

/-- How often a writer is called for some chunks. -/
def writes (chunks : List Bytes) : Nat := (chunks.filter (· ≠ [])).length

variable (w : Writer)

/-- How the write of a chunk behind some others fails, if it does. -/
def Writer.failure (chunks : List Bytes) (chunk : Bytes) : Option WriteError :=
  if chunk = [] then none else w.bind fun answer => answer (writes chunks)

/-- Every one of some chunks is written without an error. -/
def Writer.Takes (chunks : List Bytes) : Prop :=
  ∀ answer ∈ w, ∀ k < writes chunks, answer k = none

/-- What a writer has taken when it has taken all of some chunks. -/
def Writer.bytes (chunks : List Bytes) : Bytes :=
  if w.isSome then chunks.flatten else []

/-- A writer that was not used before and has taken all of some chunks. -/
def Sink.wrote (chunks : List Bytes) : Sink :=
  ⟨w, if w.isSome then writes chunks else 0, w.bytes chunks⟩

variable {w : Writer} {chunks : List Bytes} {chunk : Bytes}

@[simp] theorem writes_append (chunks chunks' : List Bytes) :
    writes (chunks ++ chunks') = writes chunks + writes chunks' := by
  simp [writes]

theorem Writer.takes_concat_iff :
    w.Takes (chunks ++ [chunk]) ↔ w.Takes chunks ∧ w.failure chunks chunk = none := by
  cases w with
  | none => simp [Takes, failure]
  | some answer =>
    by_cases hchunk : chunk = []
    · simp [Takes, failure, writes, hchunk]
    · have hone : writes [chunk] = 1 := by simp [writes, hchunk]
      have hlast (k : Nat) : k < writes chunks + 1 ↔ k < writes chunks ∨ k = writes chunks :=
        Nat.lt_succ_iff_lt_or_eq
      simp only [Takes, failure, writes_append, hone, hlast, hchunk, Option.mem_def,
        Option.some.injEq, forall_eq', if_false, Option.bind_some, or_imp, forall_and, forall_eq]

theorem Sink.write_wrote (h : w.failure chunks chunk = none) :
    (Sink.wrote w chunks).write chunk = (Sink.wrote w (chunks ++ [chunk]), none) := by
  cases w with
  | none => rfl
  | some answer =>
    by_cases hchunk : chunk = []
    · simp [Sink.write, Sink.wrote, Writer.bytes, writes, hchunk]
    · have hone : writes [chunk] = 1 := by simp [writes, hchunk]
      have hanswer : answer (writes chunks) = none := by simpa [Writer.failure, hchunk] using h
      simp [Sink.write, Sink.wrote, Writer.bytes, hchunk, hanswer, hone]

theorem Sink.write_failed {e : WriteError} (h : w.failure chunks chunk = some e) :
    ∃ s, (Sink.wrote w chunks).write chunk = (s, some e.err) ∧
      s.bytes = w.bytes chunks ++ chunk.take e.taken := by
  cases w with
  | none => simp [Writer.failure] at h
  | some answer =>
    by_cases hchunk : chunk = []
    · simp [Writer.failure, hchunk] at h
    · have hanswer : answer (writes chunks) = some e := by simpa [Writer.failure, hchunk] using h
      refine ⟨⟨some answer, writes chunks + 1, Writer.bytes (some answer) chunks
        ++ chunk.take e.taken⟩, ?_, rfl⟩
      simp [Sink.write, Sink.wrote, hchunk, hanswer]

/-! ## Where `receive` stops -/

section Receive

variable {out err : Writer} {pre before rs : List Response} {reported : Option Err}

/-- `receive` goes on behind a response that comes after some others. -/
def Passes (out err : Writer) (pre : List Response) : Response → Prop
  | .stdout chunk => out.failure (stdoutOf pre) chunk = none
  | .stderr chunk => err.failure (stderrOf pre) chunk = none
  | .exitCode _ => False
  | .error _ | .empty => True

/-- Responses that `receive` reads to their end: no `exit_code` is among them and
every write succeeds. -/
@[mk_iff]
structure Clean (out err : Writer) (rs : List Response) : Prop where
  noExit : ∀ code, .exitCode code ∉ rs
  stdout : out.Takes (stdoutOf rs)
  stderr : err.Takes (stderrOf rs)

theorem clean_nil : Clean out err [] :=
  ⟨by simp, by simp [Writer.Takes, stdoutOf, writes], by simp [Writer.Takes, stderrOf, writes]⟩

theorem clean_concat_iff {r : Response} :
    Clean out err (pre ++ [r]) ↔ Clean out err pre ∧ Passes out err pre r := by
  rw [clean_iff, clean_iff, stdoutOf_concat, stderrOf_concat]
  cases r with
  | stdout chunk =>
    simp [Passes, Response.stdout?, Response.stderr?, Writer.takes_concat_iff, and_assoc, and_comm,
      and_left_comm]
  | stderr chunk =>
    simp [Passes, Response.stdout?, Response.stderr?, Writer.takes_concat_iff, and_assoc]
  | error text => simp [Passes, Response.stdout?, Response.stderr?]
  | exitCode code => simp [Passes, forall_and]
  | empty => simp [Passes, Response.stdout?, Response.stderr?]

/-- Every stream has a point where `receive` stops. -/
theorem exists_stop (hpre : Clean out err pre) (rs : List Response) :
    ∃ before rest, rs = before ++ rest ∧ Clean out err (pre ++ before) ∧
      ∀ r ∈ rest.head?, ¬ Passes out err (pre ++ before) r := by
  induction rs generalizing pre with
  | nil => exact ⟨[], [], rfl, by simpa using hpre, by simp⟩
  | cons r rs ih =>
    by_cases hr : Passes out err pre r
    · obtain ⟨before, rest, rfl, hclean, hstop⟩ := ih (clean_concat_iff.mpr ⟨hpre, hr⟩)
      exact ⟨r :: before, rest, rfl, by simpa using hclean, by simpa using hstop⟩
    · exact ⟨[], r :: rs, rfl, by simpa using hpre, by simpa using hr⟩

theorem Writer.Takes.of_append {chunks chunks' : List Bytes} (h : w.Takes (chunks ++ chunks')) :
    w.Takes chunks := by
  intro answer hanswer k hk
  exact h answer hanswer k (by rw [writes_append]; omega)

theorem Clean.of_append (h : Clean out err (pre ++ rs)) : Clean out err pre where
  noExit code hcode := h.noExit code (List.mem_append_left rs hcode)
  stdout := by
    have htakes := h.stdout
    rw [stdoutOf, List.filterMap_append] at htakes
    exact htakes.of_append
  stderr := by
    have htakes := h.stderr
    rw [stderrOf, List.filterMap_append] at htakes
    exact htakes.of_append

/-- A writer behind some responses. -/
def outSink (out : Writer) (pre : List Response) : Sink := .wrote out (stdoutOf pre)

def errSink (err : Writer) (pre : List Response) : Sink := .wrote err (stderrOf pre)

variable (t : ExecTransport) (watch : Option Err) (recvErr : Err)

theorem receive_cons {r : Response}
    (hr : Passes out err pre r) (hreported : ∀ e ∈ reported, e.is .streamFailed) :
    ∃ reported' : Option Err, (∀ e ∈ reported', e.is .streamFailed) ∧ ∀ rest,
      receive t watch recvErr (r :: rest) reported (outSink out pre) (errSink err pre) =
        receive t watch recvErr rest reported' (outSink out (pre ++ [r]))
          (errSink err (pre ++ [r])) := by
  rw [outSink, outSink, errSink, errSink, stdoutOf_concat, stderrOf_concat]
  cases r with
  | stdout chunk =>
    refine ⟨reported, hreported, fun rest => ?_⟩
    simp [receive, Sink.write_wrote hr, Response.stdout?, Response.stderr?]
  | stderr chunk =>
    refine ⟨reported, hreported, fun rest => ?_⟩
    simp [receive, Sink.write_wrote hr, Response.stdout?, Response.stderr?]
  | error text =>
    refine ⟨some (t.execError text), by simp, fun rest => ?_⟩
    simp [receive, Response.stdout?, Response.stderr?]
  | exitCode code => exact hr.elim
  | empty =>
    refine ⟨reported, hreported, fun rest => ?_⟩
    simp [receive, Response.stdout?, Response.stderr?]

/-- `receive` over a clean front. Of what was reported on the way, only that it
wraps `ErrStreamFailed` is kept. -/
theorem receive_append
    (hclean : Clean out err (pre ++ before)) (hreported : ∀ e ∈ reported, e.is .streamFailed) :
    ∃ reported' : Option Err, (∀ e ∈ reported', e.is .streamFailed) ∧ ∀ rest,
      receive t watch recvErr (before ++ rest) reported (outSink out pre) (errSink err pre) =
        receive t watch recvErr rest reported' (outSink out (pre ++ before))
          (errSink err (pre ++ before)) := by
  induction before generalizing pre reported with
  | nil => exact ⟨reported, hreported, by simp⟩
  | cons r before ih =>
    rw [List.append_cons] at hclean ⊢
    have hr := (clean_concat_iff.mp hclean.of_append).2
    obtain ⟨reported₁, hreported₁, hfirst⟩ := receive_cons t watch recvErr hr hreported
    obtain ⟨reported₂, hreported₂, hrest⟩ := ih hclean hreported₁
    exact ⟨reported₂, hreported₂, fun rest => (hfirst (before ++ rest)).trans (hrest rest)⟩

theorem receive_front
    (hclean : Clean out err before) :
    ∃ reported : Option Err, (∀ e ∈ reported, e.is .streamFailed) ∧ ∀ rest,
      receive t watch recvErr (before ++ rest) none (.wrote out []) (.wrote err []) =
        receive t watch recvErr rest reported (outSink out before) (errSink err before) := by
  have hnone : ∀ e ∈ (none : Option Err), e.is .streamFailed := by simp
  exact receive_append t watch recvErr (List.nil_append before ▸ hclean) hnone

/-- Status -1 with an error that wraps `ErrStreamFailed`. -/
def Received.Failed (r : Received) : Prop :=
  r.status = -1 ∧ ∃ e, r.err = some e ∧ e.is .streamFailed

/-- Of a payload whose write fails behind some others, the part that the writer
took. -/
def Writer.part (w : Writer) (chunks : List Bytes) (chunk : Option Bytes) : Bytes :=
  match chunk with
  | none => []
  | some chunk =>
    match w.failure chunks chunk with
    | none => []
    | some e => chunk.take e.taken

theorem Received.failed_of {e : Err} (h : e.is .streamFailed) (out err : Sink) :
    (Received.mk (-1) (some e) out err).Failed := ⟨rfl, e, rfl, h⟩

/-- `receive` ends at the first response that does not pass: with the exit code if that
is one, and else with a failure. What passed before it is written. -/
theorem receive_stop {rest : List Response}
    (hreported : ∀ e ∈ reported, e.is .streamFailed)
    (hstop : ∀ r ∈ rest.head?, ¬ Passes out err pre r) :
    let r := receive t watch recvErr rest reported (outSink out pre) (errSink err pre)
    ((∃ code rest', rest = .exitCode code :: rest' ∧ r.status = code.toInt ∧ r.err = none) ∨
      r.Failed) ∧
    r.stdout.bytes = out.bytes (stdoutOf pre)
      ++ out.part (stdoutOf pre) (rest.head?.bind Response.stdout?) ∧
    r.stderr.bytes = err.bytes (stderrOf pre)
      ++ err.part (stderrOf pre) (rest.head?.bind Response.stderr?) := by
  cases rest with
  | nil =>
    refine ⟨.inr (Received.failed_of ?_ _ _), by simp [receive, outSink, Sink.wrote, Writer.part],
      by simp [receive, errSink, Sink.wrote, Writer.part]⟩
    cases watch with
    | some unreachable => simp
    | none =>
      cases reported with
      | some e => exact hreported e rfl
      | none => by_cases heof : recvErr.is .eof <;> simp [heof]
  | cons r rest =>
    have hr := hstop r rfl
    cases r with
    | stdout chunk =>
      obtain ⟨e, he⟩ := Option.ne_none_iff_exists'.mp hr
      obtain ⟨s, hwrite, hbytes⟩ := Sink.write_failed he
      have hrun : receive t watch recvErr (.stdout chunk :: rest) reported (outSink out pre)
          (errSink err pre) = ⟨-1, some (t.streamFailure "writing stdout" (some e.err)), s,
            errSink err pre⟩ := by
        simp [receive, outSink, hwrite]
      rw [hrun]
      refine ⟨.inr (Received.failed_of (by simp) _ _), ?_, ?_⟩
      · simp [hbytes, Writer.part, Response.stdout?, he]
      · simp [errSink, Sink.wrote, Writer.part, Response.stderr?]
    | stderr chunk =>
      obtain ⟨e, he⟩ := Option.ne_none_iff_exists'.mp hr
      obtain ⟨s, hwrite, hbytes⟩ := Sink.write_failed he
      have hrun : receive t watch recvErr (.stderr chunk :: rest) reported (outSink out pre)
          (errSink err pre) = ⟨-1, some (t.streamFailure "writing stderr" (some e.err)),
            outSink out pre, s⟩ := by
        simp [receive, errSink, hwrite]
      rw [hrun]
      refine ⟨.inr (Received.failed_of (by simp) _ _), ?_, ?_⟩
      · simp [outSink, Sink.wrote, Writer.part, Response.stdout?]
      · simp [hbytes, Writer.part, Response.stderr?, he]
    | error text => exact absurd trivial hr
    | exitCode code =>
      refine ⟨.inl ⟨code, rest, rfl, rfl, rfl⟩, ?_, ?_⟩
      · simp [receive, outSink, Sink.wrote, Writer.part, Response.stdout?]
      · simp [receive, errSink, Sink.wrote, Writer.part, Response.stderr?]
    | empty => exact absurd trivial hr

/-- What `receive` comes to, at the point where it stops. -/
theorem receive_stops (out err : Writer)
    (rs : List Response) :
    let r := receive t watch recvErr rs none (.wrote out []) (.wrote err [])
    ∃ before rest, rs = before ++ rest ∧ Clean out err before ∧
      (∀ r ∈ rest.head?, ¬ Passes out err before r) ∧
      ((∃ code rest', rest = .exitCode code :: rest' ∧ r.status = code.toInt ∧ r.err = none) ∨
        r.Failed) ∧
      r.stdout.bytes = out.bytes (stdoutOf before)
        ++ out.part (stdoutOf before) (rest.head?.bind Response.stdout?) ∧
      r.stderr.bytes = err.bytes (stderrOf before)
        ++ err.part (stderrOf before) (rest.head?.bind Response.stderr?) := by
  intro r
  obtain ⟨before, rest, hrs, hclean, hstop⟩ := exists_stop clean_nil rs
  rw [List.nil_append] at hclean hstop
  obtain ⟨reported, hreported, hfront⟩ := receive_front t watch recvErr hclean
  have hr : r = receive t watch recvErr rest reported (outSink out before) (errSink err before) :=
    (congrArg (receive t watch recvErr · none _ _) hrs).trans (hfront rest)
  have hresult := receive_stop t watch recvErr hreported hstop
  rw [← hr] at hresult
  exact ⟨before, rest, hrs, hclean, hstop, hresult⟩

theorem receive_exit_iff
    (out err : Writer) (rs : List Response) (n : Int) :
    (receive t watch recvErr rs none (.wrote out []) (.wrote err [])).err = none ∧
      (receive t watch recvErr rs none (.wrote out []) (.wrote err [])).status = n ↔
    ∃ before code rest,
      rs = before ++ .exitCode code :: rest ∧ Clean out err before ∧ n = code.toInt := by
  constructor
  · rintro ⟨hnone, rfl⟩
    obtain ⟨before, rest, hrs, hclean, -, hresult, -⟩ := receive_stops t watch recvErr out err rs
    obtain ⟨code, rest', rfl, hstatus, -⟩ | ⟨-, e, he, -⟩ := hresult
    · exact ⟨before, code, rest', hrs, hclean, hstatus⟩
    · cases he.symm.trans hnone
  · rintro ⟨before, code, rest, rfl, hclean, rfl⟩
    obtain ⟨reported, -, hfront⟩ := receive_front t watch recvErr hclean
    rw [hfront (.exitCode code :: rest)]
    exact ⟨rfl, rfl⟩

end Receive

/-- **The exit status is the first `exit_code` and nothing else.** Whatever the
watch says, however the stream ends and wherever a writer fails: `receive` returns
a status without an error exactly when it is the first `exit_code` and no write
failed in front of it; otherwise it returns -1 and wraps `ErrStreamFailed`. There
is a point where it stopped, and each writer has exactly its payloads in front of
that point, followed by what it took of the payload on which its write failed. -/
theorem exit_status_exact (t : ExecTransport) (watch : Option Err) (recvErr : Err)
    (out err : Writer) (rs : List Response) :
    let r := receive t watch recvErr rs none (.wrote out []) (.wrote err [])
    (∀ n : Int, r.err = none ∧ r.status = n ↔ ∃ before code rest,
      rs = before ++ .exitCode code :: rest ∧ Clean out err before ∧ n = code.toInt) ∧
    (r.err = none ∨ r.Failed) ∧
    ∃ before rest, rs = before ++ rest ∧ Clean out err before ∧
      (∀ r ∈ rest.head?, ¬ Passes out err before r) ∧
      r.stdout.bytes = out.bytes (stdoutOf before)
        ++ out.part (stdoutOf before) (rest.head?.bind Response.stdout?) ∧
      r.stderr.bytes = err.bytes (stderrOf before)
        ++ err.part (stderrOf before) (rest.head?.bind Response.stderr?) := by
  intro r
  obtain ⟨before, rest, hrs, hclean, hstop, hresult, hbytes⟩ :=
    receive_stops t watch recvErr out err rs
  refine ⟨receive_exit_iff t watch recvErr out err rs, ?_, before, rest, hrs, hclean, hstop, hbytes⟩
  obtain ⟨-, -, -, -, hnone⟩ | hfailed := hresult
  · exact .inl hnone
  · exact .inr hfailed

/-- A writer that fails may have taken a part of its payload, and then its bytes
are no concatenation of payloads. -/
theorem part_of_payload_written :
    let rs := [Response.stdout [104, 105]]
    let out : Writer := some fun _ => some ⟨1, .new "no space left on device"⟩
    let r := receive ⟨"host-a", "vm-1"⟩ none (.value .eof) rs none (.wrote out []) (.wrote none [])
    r.stdout.bytes = [104] ∧ ∀ before ∈ rs.inits, (stdoutOf before).flatten ≠ [104] := by
  decide

end FlintlockRunner.Transport

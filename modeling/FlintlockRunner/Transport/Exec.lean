import FlintlockRunner.Transport.CommandLine
import FlintlockRunner.Transport.Receive

/-!
# The exec exchange (`transport/exec.go`)

One operation in a guest is one exchange on a stream: the client sends `ExecStart`,
standard input in chunks and `stdin_eof`, and receives at the same time.

- `sendStdin`: whatever pieces a reader hands its bytes out in, they arrive whole,
  in order and followed by one `stdin_eof`, which only comes when the reader has
  ended (`script_arrives_whole`).
- `exchange` returns a status exactly when `receive` does (`exchange_exit_iff`): what
  `Run` returns is the command's own exit status (`run_exit_iff`), and a guest is
  ready exactly when the readiness command exits with zero (`ready_iff`).

What the Host and the reader do is in the arguments.
-/

namespace FlintlockRunner.Transport

open List

open Shell (Bytes ascii)

/-! ## `sendStdin` -/

def stdinChunk : Nat := 32 * 1024

/-- `ExecStart`. -/
structure Start where
  uid : String
  cmd : Bytes
  args : List Bytes := []
  shell : Bool := false
  cwd : Bytes := []
  env : List (Bytes × Bytes) := []
  user : Bytes := []
  hasStdin : Bool := false
  timeoutSeconds : Int32 := 0
  deriving DecidableEq

/-- The payload of an `ExecCommandRequest`. -/
inductive Request
  | start (start : Start)
  | stdin (chunk : Bytes)
  | stdinEof
  deriving DecidableEq

/-- What the client does with its side of the stream. -/
inductive Action
  | send (r : Request)
  | closeSend
  deriving DecidableEq

/-- The client's side of a stream: what was done so far and the error a `Send`
has behind that. -/
structure Stream where
  answer : Nat → Option Err
  actions : List Action

def Stream.send (s : Stream) (r : Request) : Stream × Option Err :=
  (⟨s.answer, s.actions ++ [.send r]⟩, s.answer s.actions.length)

def Stream.closeSend (s : Stream) : Stream := ⟨s.answer, s.actions ++ [.closeSend]⟩

/-- What one `Read` into the buffer returns. -/
structure Read where
  data : Bytes
  err : Option Err
  fits : data.length ≤ stdinChunk

/-- What a goroutine has done to the stream, and what it returned if it has. -/
abbrev Ended := Stream × Option (Option Err)

/-- The loop of `sendStdin` over what the reader returns. A reader with nothing
more to return has not returned from its `Read`. -/
def sendReads (s : Stream) : List Read → Ended
  | [] => (s, none)
  | r :: rs =>
    match (if r.data = [] then (s, none) else s.send (.stdin r.data)) with
    | (s, some sendErr) => (s, some (if sendErr.is .eof then none else some sendErr))
    | (s, none) =>
      match r.err with
      | none => sendReads s rs
      | some e =>
        if e.is .eof then
          let (s, err) := s.send .stdinEof
          (s, some (err.filter (!Go.Err.is .eof ·)))
        else (s, some (some (.wrap "reading stdin: " e)))

/-- Sends standard input to its end and closes the stream. -/
def sendStdin (s : Stream) : Option (List Read) → Ended
  | none => (s.closeSend, some none)
  | some reads =>
    match sendReads s reads with
    | (s, none) => (s, none)
    | (s, some err) => (s.closeSend, some err)

/-! ## `exchange` -/

/-- What an exchange meets: the errors of `Host.Exec` and of each `Send`, the
responses and the error they end in, what the watch reports, and whether
`sendStdin` has returned by the time `receive` does. -/
structure Host where
  openErr : Option Err
  answer : Nat → Option Err
  responses : List Response
  recvErr : Err
  watch : Option Err
  stdinDone : Bool

/-- A send that meets EOF asks the stream for the error. -/
def Host.firstError (host : Host) (err : Err) : Err :=
  if !err.is .eof then err
  else
    match host.responses with
    | [] => if !host.recvErr.is .eof then host.recvErr else err
    | _ :: _ => err

/-- What an exchange did on the stream, what it returned and what was written. It
returns nothing while the reader holds `sendStdin`, which it waits for. -/
structure Exchanged where
  actions : List Action
  result : Option (Int × Option Err)
  stdout : Sink
  stderr : Sink

variable (t : ExecTransport)

/-- The end of `exchange`: a failure to send standard input is the better
explanation of a stream that fell over. -/
def ExecTransport.outcome (r : Received) (stdinErr : Option Err) :
    Int × Option Err :=
  match r.err, stdinErr with
  | none, _ => (r.status, none)
  | some _, some stdinErr => (-1, some (t.streamFailure "sending stdin" (some stdinErr)))
  | some err, none => (-1, some err)

/-- `exchange`, with the seconds that remain. -/
def exchange (host : Host) (remainingSeconds : Int32) (start : Start)
    (stdin : Option (List Read)) (stdout stderr : Sink) : Exchanged :=
  match host.openErr with
  | some err =>
    ⟨[], some (-1, some (t.streamFailure "opening exec stream" (some err))), stdout, stderr⟩
  | none =>
    match Stream.send ⟨host.answer, []⟩ (.start { start with timeoutSeconds := remainingSeconds })
      with
    | (s, some err) =>
      ⟨s.actions, some (-1, some (t.streamFailure "sending exec start"
        (some (host.firstError err)))), stdout, stderr⟩
    | (s, none) =>
      let sent : Ended := if start.hasStdin then sendStdin s stdin else (s.closeSend, some none)
      let received := receive t host.watch host.recvErr host.responses none stdout stderr
      ⟨sent.1.actions, sent.2.map fun stdinErr =>
          t.outcome received (if start.hasStdin && !host.stdinDone then none else stdinErr),
        received.stdout, received.stderr⟩

/-- A `Command` with what only an exchange takes from it. -/
structure Operation extends Command where
  user : Bytes
  stdin : Option (List Read)
  stdout : Writer
  stderr : Writer

/-- The `ExecStart` that `Run` makes from a Command. -/
def Operation.start (cmd : Operation) (uid : String) : Start where
  uid := uid
  cmd := cmd.path
  args := cmd.args
  cwd := cmd.dir
  env := cmd.env.entries.map fun kv => (kv.1, kv.2)
  user := cmd.user
  hasStdin := cmd.stdin.isSome

/-- `Run`. -/
def ExecTransport.run (host : Host) (remainingSeconds : Int32)
    (cmd : Operation) : Exchanged :=
  if cmd.path = [] then
    ⟨[], some (-1, some (.new ("host " ++ t.hostName ++ ": microvm " ++ t.vmUID
      ++ ": command has no path"))), .wrote cmd.stdout [], .wrote cmd.stderr []⟩
  else
    exchange t host remainingSeconds (cmd.start t.vmUID) cmd.stdin (.wrote cmd.stdout [])
      (.wrote cmd.stderr [])

/-- `Ready`: `true` runs in the guest. -/
def ExecTransport.ready (host : Host) (remainingSeconds : Int32) :
    Option (Option Err) :=
  (exchange t host remainingSeconds { uid := t.vmUID, cmd := ascii "true", shell := true } none
    (.wrote none []) (.wrote none [])).result.map fun
    | (_, some err) =>
      some (.wrap ("host " ++ t.hostName ++ ": microvm " ++ t.vmUID ++ " is not ready: ")
        (.join (.value .notReady) err))
    | (status, none) =>
      if status ≠ 0 then
        some (.wrap ("host " ++ t.hostName ++ ": microvm " ++ t.vmUID
          ++ ": readiness command exited " ++ toString status ++ ": ") (.value .notReady))
      else none

/-! ## What is sent -/

/-- The chunks of some reads: a `Read` without bytes sends nothing. -/
def chunksOf (reads : List Read) : List Bytes := (reads.map Read.data).filter (· ≠ [])

/-- A stream on which some chunks were sent as well. -/
def Stream.sent (s : Stream) (chunks : List Bytes) : Stream :=
  ⟨s.answer, s.actions ++ chunks.map (.send <| .stdin ·)⟩

section Stdin

variable {s : Stream} {reads : List Read} {last : Read} {e : Err}

theorem Stream.sent_sent (chunks chunks' : List Bytes) :
    (s.sent chunks).sent chunks' = s.sent (chunks ++ chunks') := by
  simp [Stream.sent]

theorem chunksOf_flatten (reads : List Read) :
    (chunksOf reads).flatten = reads.flatMap Read.data := by
  rw [chunksOf, flatten_filter_ne_nil, flatMap_def]

theorem length_of_mem_chunksOf {chunk : Bytes} (h : chunk ∈ chunksOf reads) :
    1 ≤ chunk.length ∧ chunk.length ≤ stdinChunk := by
  obtain ⟨hmem, hne⟩ := mem_filter.mp h
  obtain ⟨r, -, rfl⟩ := mem_map.mp hmem
  exact ⟨length_pos_iff.mpr (by simpa using hne), r.fits⟩

theorem send_read (hanswer : ∀ k, s.answer k = none) (r : Read) :
    (if r.data = [] then (s, none) else s.send (.stdin r.data)) = (s.sent (chunksOf [r]), none) := by
  by_cases hdata : r.data = []
  · simp [Stream.sent, chunksOf, hdata]
  · simp [Stream.sent, Stream.send, chunksOf, hdata, hanswer]

theorem sendReads_eof (hanswer : ∀ k, s.answer k = none) (hreads : ∀ r ∈ reads, r.err = none)
    (hlast : last.err = some e) (he : e.is .eof) (more : List Read) :
    sendReads s (reads ++ last :: more) =
      (⟨s.answer, (s.sent (chunksOf (reads ++ [last]))).actions ++ [.send .stdinEof]⟩,
        some none) := by
  induction reads generalizing s with
  | nil =>
    simp only [nil_append, sendReads, send_read hanswer, hlast, he, if_true]
    simp [Stream.send, Stream.sent, hanswer]
  | cons r reads ih =>
    have hr := hreads r mem_cons_self
    have hsent : chunksOf (r :: (reads ++ [last])) = chunksOf [r] ++ chunksOf (reads ++ [last]) := by
      simp only [chunksOf, ← filter_append, ← map_append, cons_append,
        nil_append]
    have htail := ih (s := s.sent (chunksOf [r])) hanswer
      fun r hr => hreads r (mem_cons_of_mem _ hr)
    rw [Stream.sent_sent, ← hsent] at htail
    simp only [cons_append, sendReads, send_read hanswer, hr]
    exact htail

theorem stdinEof_not_mem_send_read (hactions : .send .stdinEof ∉ s.actions) (r : Read) :
    .send .stdinEof ∉
      (if r.data = [] then (s, none) else s.send (.stdin r.data)).1.actions := by
  by_cases hdata : r.data = []
  · simpa [hdata] using hactions
  · simpa [hdata, Stream.send] using hactions

section OtherError

variable (hactions : .send .stdinEof ∉ s.actions) (hreads : ∀ r ∈ reads, r.err = none)
  (hlast : last.err = some e) (he : e.is .eof = false) (more : List Read)
include hactions hreads hlast he

/-- The loop over a reader that ends in another error, whatever the stream does. -/
theorem stdinEof_not_mem_sendReads : .send .stdinEof ∉ (sendReads s (reads ++ last :: more)).1.actions := by
  induction reads generalizing s with
  | nil =>
    have hread := stdinEof_not_mem_send_read hactions last
    simp only [nil_append, sendReads]
    split
    next hsend => simpa [hsend] using hread
    next hsend => simpa [hsend, hlast, he] using hread
  | cons r reads ih =>
    have hread := stdinEof_not_mem_send_read hactions r
    have hr := hreads r mem_cons_self
    simp only [cons_append, sendReads]
    split
    next hsend => simpa [hsend] using hread
    next s' hsend =>
      have hs' : .send .stdinEof ∉ s'.actions := by simpa [hsend] using hread
      simpa only [hr] using ih hs' fun r hr => hreads r (mem_cons_of_mem _ hr)

theorem stdinEof_not_mem_sendStdin :
    .send .stdinEof ∉ (sendStdin s (some (reads ++ last :: more))).1.actions := by
  have hloop := stdinEof_not_mem_sendReads hactions hreads hlast he more
  rw [sendStdin]
  split
  next hsent => simpa [hsent] using hloop
  next hsent => simpa [hsent, Stream.closeSend] using hloop

end OtherError

end Stdin

section Exchange

variable {t : ExecTransport} {host : Host} {remainingSeconds : Int32} {start : Start}
  {stdin : Option (List Read)} {stdout stderr : Sink}

/-- The stream once `ExecStart` is sent. -/
def Host.started (host : Host) (remainingSeconds : Int32) (start : Start) : Stream :=
  ⟨host.answer, [.send (.start { start with timeoutSeconds := remainingSeconds })]⟩

/-- What is done on the stream of an exchange: nothing, the `ExecStart` that fails,
or what `sendStdin` does behind it. -/
theorem exchange_actions (hstart : start.hasStdin = true) :
    (exchange t host remainingSeconds start stdin stdout stderr).actions =
      if host.openErr.isSome then []
      else if (host.answer 0).isSome then (host.started remainingSeconds start).actions
      else (sendStdin (host.started remainingSeconds start) stdin).1.actions := by
  cases hopen : host.openErr with
  | some err => simp [exchange, hopen]
  | none =>
    cases hsend : host.answer 0 with
    | some err => simp [exchange, hopen, Stream.send, hsend, Host.started]
    | none => simp [exchange, hopen, Stream.send, hsend, Host.started, hstart]

theorem outcome_eq_iff {r : Received} {stdinErr : Option Err} {n : Int} :
    t.outcome r stdinErr = (n, none) ↔ r.err = none ∧ r.status = n := by
  cases herr : r.err <;> cases stdinErr <;> simp [ExecTransport.outcome, herr]

/-- An exchange returns a status without an error exactly when `receive` does and
the stream could be opened, `ExecStart` sent and the reader read to an end. -/
theorem exchange_exit_iff {n : Int} :
    (exchange t host remainingSeconds start stdin stdout stderr).result = some (n, none) ↔
      host.openErr = none ∧ host.answer 0 = none ∧
      (start.hasStdin = true → (sendStdin (host.started remainingSeconds start) stdin).2.isSome) ∧
      (receive t host.watch host.recvErr host.responses none stdout stderr).err = none ∧
      (receive t host.watch host.recvErr host.responses none stdout stderr).status = n := by
  cases hopen : host.openErr with
  | some err => simp [exchange, hopen]
  | none =>
    cases hsend : host.answer 0 with
    | some err => simp [exchange, hopen, Stream.send, hsend]
    | none =>
      cases hstdin : start.hasStdin with
      | false => simp [exchange, hopen, Stream.send, hsend, hstdin, outcome_eq_iff]
      | true =>
        simp only [exchange, hopen, Stream.send, length_nil, hsend, hstdin, if_true,
          Option.map_eq_some_iff, outcome_eq_iff, exists_and_right, ← Option.isSome_iff_exists]
        simp [Host.started, hstdin]

/-- `Run` returns a status without an error exactly when it is the first `exit_code`
of the stream and every write in front of it succeeded. -/
theorem run_exit_iff {cmd : Operation} {n : Int} :
    (t.run host remainingSeconds cmd).result = some (n, none) ↔
      cmd.path ≠ [] ∧ host.openErr = none ∧ host.answer 0 = none ∧
      (cmd.stdin.isSome →
        (sendStdin (host.started remainingSeconds (cmd.start t.vmUID)) cmd.stdin).2.isSome) ∧
      ∃ before code rest, host.responses = before ++ .exitCode code :: rest ∧
        Clean cmd.stdout cmd.stderr before ∧ n = code.toInt := by
  by_cases hpath : cmd.path = []
  · simp [ExecTransport.run, hpath]
  · rw [ExecTransport.run, if_neg hpath, exchange_exit_iff, receive_exit_iff]
    exact ⟨fun h => ⟨hpath, h⟩, fun h => h.2⟩

/-- The guest is ready exactly when the first `exit_code` of the readiness command
is zero, whatever error came in front of it. -/
theorem ready_iff :
    t.ready host remainingSeconds = some none ↔ host.openErr = none ∧ host.answer 0 = none ∧
      ∃ before rest, host.responses = before ++ .exitCode 0 :: rest ∧
        ∀ code, .exitCode code ∉ before := by
  have hclean {before} : Clean none none before ↔ ∀ code, .exitCode code ∉ before := by
    simp [clean_iff, Writer.Takes]
  have hzero {code : Int32} : 0 = code.toInt ↔ code = 0 := by
    rw [eq_comm, ← Int32.toInt_inj]
    rfl
  have hready : t.ready host remainingSeconds = some none ↔
      (exchange t host remainingSeconds ⟨t.vmUID, ascii "true", [], true, [], [], [], false, 0⟩ none
        (.wrote none []) (.wrote none [])).result = some (0, none) := by
    rw [ExecTransport.ready, Option.map_eq_some_iff]
    constructor
    · rintro ⟨⟨status, err⟩, hresult, hnone⟩
      rw [hresult]
      cases err with
      | some err => cases hnone
      | none => simpa using hnone
    · intro hresult
      exact ⟨_, hresult, rfl⟩
  rw [hready, exchange_exit_iff, receive_exit_iff]
  simp [hclean, hzero]

end Exchange

/-- **The script arrives whole.** A reader hands out its bytes in any pieces, some
of them empty and the last perhaps together with its error. If it ends in EOF and
no `Send` fails, the client sends `ExecStart` with `has_stdin`, the bytes in
chunks of 1 to 32768, one `stdin_eof`, and closes its side. If the reader ends in
another error, there is no `stdin_eof`, whatever the Host does. -/
theorem script_arrives_whole (t : ExecTransport) (host : Host) (remainingSeconds : Int32)
    {start : Start} (hstart : start.hasStdin = true) (reads : List Read)
    (hreads : ∀ r ∈ reads, r.err = none) (last : Read) {e : Err} (hlast : last.err = some e)
    (more : List Read) (stdout stderr : Sink) :
    let actions := (exchange t host remainingSeconds start (some (reads ++ last :: more)) stdout
      stderr).actions
    (e.is .eof = true → host.openErr = none → (∀ k, host.answer k = none) →
      ∃ (start' : Start) (chunks : List Bytes), start'.hasStdin = true ∧
        actions = .send (.start start') :: chunks.map (.send <| .stdin ·)
          ++ [.send .stdinEof, .closeSend] ∧
        (∀ chunk ∈ chunks, 1 ≤ chunk.length ∧ chunk.length ≤ 32768) ∧
        chunks.flatten = (reads ++ [last]).flatMap Read.data) ∧
    (e.is .eof = false → .send .stdinEof ∉ actions) := by
  intro actions
  have hactions : actions = _ := exchange_actions hstart
  constructor
  · intro he hopen hanswer
    have hsent := sendReads_eof (s := host.started remainingSeconds start) hanswer hreads hlast he
      more
    refine ⟨{ start with timeoutSeconds := remainingSeconds }, chunksOf (reads ++ [last]), hstart,
      ?_, fun chunk hchunk => length_of_mem_chunksOf hchunk, chunksOf_flatten _⟩
    simp only [hactions, hopen, hanswer, sendStdin, hsent]
    simp [Stream.closeSend, Stream.sent, Host.started]
  · intro he
    rw [hactions]
    have hstarted : .send .stdinEof ∉ (host.started remainingSeconds start).actions := by
      simp [Host.started]
    split_ifs
    · simp
    · exact hstarted
    · exact stdinEof_not_mem_sendStdin hstarted hreads hlast he more

/-- A script in two pieces with an empty `Read` between them and EOF together with
the second. -/
theorem script_arrives_whole_pieces :
    ∃ (start' : Start) (chunks : List Bytes), start'.hasStdin = true ∧
      (exchange ⟨"host-a", "vm-1"⟩ ⟨none, fun _ => none, [.exitCode 0], .value .eof, none, true⟩
        60 ⟨"vm-1", ascii "sh", [], false, [], [], [], true, 0⟩
        (some [⟨ascii "echo", none, by decide⟩, ⟨[], none, by decide⟩,
          ⟨ascii " hi", some (.value .eof), by decide⟩])
        (.wrote none []) (.wrote none [])).actions =
          .send (.start start') :: chunks.map (.send <| .stdin ·)
            ++ [.send .stdinEof, .closeSend] ∧
      (∀ chunk ∈ chunks, 1 ≤ chunk.length ∧ chunk.length ≤ 32768) ∧
      chunks.flatten = ascii "echo hi" :=
  (script_arrives_whole ⟨"host-a", "vm-1"⟩
    ⟨none, fun _ => none, [.exitCode 0], .value .eof, none, true⟩ 60 rfl
    [⟨ascii "echo", none, by decide⟩, ⟨[], none, by decide⟩] (by simp)
    ⟨ascii " hi", some (.value .eof), by decide⟩ rfl [] (.wrote none [])
    (.wrote none [])).1 rfl rfl fun _ => rfl

end FlintlockRunner.Transport

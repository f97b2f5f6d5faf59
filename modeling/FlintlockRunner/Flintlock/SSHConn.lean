import FlintlockRunner.Base.Errors
import FlintlockRunner.Base.Shell

/-!
# The byte pipe over an SSHProxy stream

`sshConn` of `flintlock/client.go`, its reading side: a Host's response messages
come in any sizes, empty ones included, and an SSH client reads with buffers of
any sizes. `Read` hands out one message at a time, keeps what does not fit in
`pending` and keeps the stream's error in `readErr`.

`rest` is what the pipe still owes its reader: every `Read` takes its bytes off
the front of it (`Step`), and the error comes when nothing is left.

`Recv` is the messages the Host sends and the error after them. `readMu` makes
each `Read` one step.
-/

namespace FlintlockRunner.Flintlock

open Shell (Bytes)

/-! ## Errors of the package -/

/-- A gRPC status code. -/
inductive Code
  | ok | canceled | unknown | invalidArgument | deadlineExceeded | notFound | alreadyExists
  | permissionDenied | resourceExhausted | failedPrecondition | aborted | outOfRange
  | unimplemented | internal | unavailable | dataLoss | unauthenticated
  | other (n : Nat)
  deriving DecidableEq, Repr

def Code.text : Code → String
  | .ok => "OK"
  | .canceled => "Canceled"
  | .unknown => "Unknown"
  | .invalidArgument => "InvalidArgument"
  | .deadlineExceeded => "DeadlineExceeded"
  | .notFound => "NotFound"
  | .alreadyExists => "AlreadyExists"
  | .permissionDenied => "PermissionDenied"
  | .resourceExhausted => "ResourceExhausted"
  | .failedPrecondition => "FailedPrecondition"
  | .aborted => "Aborted"
  | .outOfRange => "OutOfRange"
  | .unimplemented => "Unimplemented"
  | .internal => "Internal"
  | .unavailable => "Unavailable"
  | .dataLoss => "DataLoss"
  | .unauthenticated => "Unauthenticated"
  | .other n => "Code(" ++ toString n ++ ")"

/-- The errors callers ask `errors.Is` for. -/
inductive Sentinel
  | eof | errNotFound | errUnimplemented | errUnavailable | errUnauthenticated
  | deadlineExceeded | canceled
  deriving DecidableEq, Repr

def Sentinel.text : Sentinel → String
  | .eof => "EOF"
  | .errNotFound => "flintlock: microvm not found"
  | .errUnimplemented => "flintlock: rpc not implemented by host"
  | .errUnavailable => "flintlock: host unavailable"
  | .errUnauthenticated => "flintlock: unauthenticated"
  | .deadlineExceeded => "context deadline exceeded"
  | .canceled => "context canceled"

/-- An error that wraps nothing: a sentinel or a gRPC status. -/
inductive Leaf
  | sentinel (s : Sentinel)
  | status (code : Code) (message : String)
  deriving DecidableEq, Repr

def Leaf.text : Leaf → String
  | .sentinel s => s.text
  | .status code message => "rpc error: code = " ++ code.text ++ " desc = " ++ message

def Leaf.code : Leaf → Option Code
  | .sentinel _ => none
  | .status code _ => some code

/-- An error of the package. -/
abbrev Err := Go.Err Leaf Empty

namespace Err

/-- A sentinel as an error. -/
def sentinel (s : Sentinel) : Err := .value (.sentinel s)

/-- `Error`. -/
def text (e : Err) : String := Go.Err.text Leaf.text e

/-- `status.FromError`: a wrapped status takes the text of the whole error for its
message. -/
def fromError : Err → Option (Code × String)
  | .value (.status code message) => some (code, message)
  | e => (e.find Leaf.code).map (·, e.text)

end Err

/-- The sentinel `mapErr` puts in the place of a status. -/
def Code.mapped : Code → Option Err
  | .notFound => some (.sentinel .errNotFound)
  | .unimplemented => some (.sentinel .errUnimplemented)
  | .unauthenticated => some (.sentinel .errUnauthenticated)
  | .unavailable => some (.sentinel .errUnavailable)
  | .deadlineExceeded =>
    some (.join (Err.sentinel .errUnavailable) (Err.sentinel .deadlineExceeded))
  | .canceled => some (.join (Err.sentinel .errUnavailable) (Err.sentinel .canceled))
  | _ => none

/-- The error of a call, with the sentinel for its code. -/
def mapErr (host op : String) (err : Err) : Err :=
  match err.fromError with
  | none => .wrap ("flintlock: host " ++ host ++ ": " ++ op ++ ": ") err
  | some (code, message) =>
    match code.mapped with
    | none => .wrap ("flintlock: host " ++ host ++ ": " ++ op ++ ": " ++ code.text ++ ": ") err
    | some sentinel =>
      .wrap ("flintlock: host " ++ host ++ ": " ++ op ++ ": " ++ message ++ ": ") sentinel

/-! ## Reading -/

/-- `sshConn`, with what `Recv` has yet to answer: the data of the response
messages, and the error at the end of the stream. -/
structure SSHConn where
  host : String
  uid : String
  messages : List Bytes
  ending : Err
  pending : Bytes
  readErr : Option Err

/-- What a `Read` returns: the bytes it copied and its error. -/
structure ReadResult where
  data : Bytes
  err : Option Err
  deriving DecidableEq, Repr

namespace SSHConn

/-- The pipe as `SSHProxy` returns it. -/
def new (host uid : String) (messages : List Bytes) (ending : Err) : SSHConn :=
  ⟨host, uid, messages, ending, [], none⟩

/-- What `Read` makes of the error of `Recv`. -/
def failure (c : SSHConn) : Err :=
  if c.ending.is (.sentinel .eof) then .sentinel .eof
  else mapErr c.host ("SSHProxy " ++ c.uid ++ " receive") c.ending

/-- The loop of `Read`: receive until a message brings data. -/
def fill (c : SSHConn) : SSHConn × Option Err :=
  if c.pending ≠ [] then (c, none)
  else
    match c.readErr with
    | some e => (c, some e)
    | none =>
      match _h : c.messages with
      | [] => ({ c with readErr := some c.failure }, some c.failure)
      | data :: rest => fill { c with messages := rest, pending := data }
termination_by c.messages.length
decreasing_by simp [_h]

/-- `Read` with a buffer of `len` bytes. -/
def read (c : SSHConn) (len : Nat) : SSHConn × ReadResult :=
  match c.fill with
  | (c', some e) => (c', ⟨[], some e⟩)
  | (c', none) => ({ c' with pending := c'.pending.drop len }, ⟨c'.pending.take len, none⟩)

/-- Successive `Read`s, by their buffer sizes. -/
def reads (c : SSHConn) : List Nat → List ReadResult
  | [] => []
  | len :: sizes => (c.read len).2 :: (c.read len).1.reads sizes

/-- The bytes that successive `Read`s returned. -/
def returned (rs : List ReadResult) : Bytes := rs.flatMap ReadResult.data

@[simp] theorem returned_nil : returned [] = [] := rfl

@[simp] theorem returned_cons (r : ReadResult) (rs : List ReadResult) :
    returned (r :: rs) = r.data ++ returned rs := List.flatMap_cons

/-! ## What the pipe still owes -/

/-- The bytes that no `Read` has returned. -/
def rest (c : SSHConn) : Bytes := c.pending ++ c.messages.flatten

/-- `readErr` is the stream's error, and it is kept only once the stream is read
to its end. -/
def Sticky (c : SSHConn) : Prop := ∀ e ∈ c.readErr, e = c.failure ∧ c.rest = []

variable {c : SSHConn} {len : Nat}

theorem sticky_new (host uid : String) (messages : List Bytes) (ending : Err) :
    (new host uid messages ending).Sticky := by
  intro e he
  cases he

theorem pending_of_rest (h : c.rest = []) : c.pending = [] :=
  (List.append_eq_nil_iff.mp h).1

/-- What the loop comes to: data to hand out, or the error with nothing left. -/
structure Filled (c c' : SSHConn) (err : Option Err) : Prop where
  rest : c'.rest = c.rest
  failure : c'.failure = c.failure
  sticky : c'.Sticky
  data : err = none → c'.pending ≠ []
  ended : ∀ e ∈ err, c'.readErr = some e ∧ c.rest = []

theorem fill_spec (h : c.Sticky) : Filled c c.fill.1 c.fill.2 := by
  fun_induction fill c with
  | case1 c hpending => exact ⟨rfl, rfl, h, fun _ => hpending, by simp⟩
  | case2 c hpending e hreadErr =>
    refine ⟨rfl, rfl, h, by simp, ?_⟩
    intro e' he'
    cases he'
    exact ⟨hreadErr, (h e hreadErr).2⟩
  | case3 c hpending hreadErr hmessages =>
    have hrest : c.rest = [] := by simpa [SSHConn.rest, hmessages] using hpending
    refine ⟨rfl, rfl, ?_, by simp, ?_⟩
    · intro e he
      cases he
      exact ⟨rfl, hrest⟩
    · intro e he
      cases he
      exact ⟨rfl, hrest⟩
  | case4 c hpending hreadErr data rest hmessages ih =>
    -- a message moves from the stream to `pending`, which was empty
    have hsame : SSHConn.rest { c with messages := rest, pending := data } = c.rest := by
      have hempty : c.pending = [] := not_not.mp hpending
      simp [SSHConn.rest, hmessages, hempty]
    have hsticky : Sticky { c with messages := rest, pending := data } := by
      intro e he
      rw [hreadErr] at he
      cases he
    have hfilled := ih hsticky
    refine ⟨hfilled.rest.trans hsame, hfilled.failure, hfilled.sticky, hfilled.data, ?_⟩
    intro e he
    obtain ⟨hkept, hrest⟩ := hfilled.ended e he
    exact ⟨hkept, hsame.symm.trans hrest⟩

/-- One `Read`: it returns the front of what the pipe owes, at least one byte of
it into a buffer that is not empty, or the error when nothing is owed. -/
structure Step (c : SSHConn) (len : Nat) (c' : SSHConn) (r : ReadResult) : Prop where
  rest : c.rest = r.data ++ c'.rest
  failure : c'.failure = c.failure
  sticky : c'.Sticky
  fits : r.data.length ≤ len
  data : r.err = none → 0 < len → r.data ≠ []
  ended : ∀ e, r.err = some e → r.data = [] ∧ c.rest = [] ∧ c'.readErr = some e

theorem read_spec (h : c.Sticky) (len : Nat) : Step c len (c.read len).1 (c.read len).2 := by
  have hfilled := fill_spec h
  unfold read
  rcases hfill : c.fill with ⟨c', _ | e⟩
  · rw [hfill] at hfilled
    have hpending : c'.pending ≠ [] := hfilled.data rfl
    have hrest : c'.rest = c.rest := hfilled.rest
    refine ⟨?_, hfilled.failure, ?_, List.length_take_le _ _, ?_, by simp⟩
    · rw [← hrest]
      simp [SSHConn.rest, ← List.append_assoc]
    · intro e he
      have hempty := (hfilled.sticky e he).2
      exact absurd (pending_of_rest hempty) hpending
    · intro _ hlen
      simpa [List.take_eq_nil_iff, hpending] using Nat.ne_of_gt hlen
  · rw [hfill] at hfilled
    obtain ⟨hreadErr, hrest⟩ := hfilled.ended e rfl
    refine ⟨hfilled.rest.symm, hfilled.failure, hfilled.sticky, Nat.zero_le len, by simp, ?_⟩
    intro e' he'
    cases he'
    exact ⟨rfl, hrest, hreadErr⟩

/-! ## Successive reads -/

theorem reads_prefix (h : c.Sticky) (sizes : List Nat) : returned (c.reads sizes) <+: c.rest := by
  induction sizes generalizing c with
  | nil => exact List.nil_prefix
  | cons len sizes ih =>
    have hstep := read_spec h len
    rw [reads, returned_cons, hstep.rest]
    exact (List.prefix_append_right_inj _).mpr (ih hstep.sticky)

/-- Once the error is kept, every `Read` returns it. -/
theorem reads_ended (h : c.Sticky) {e : Err} (he : c.readErr = some e) (sizes : List Nat) :
    ∀ r ∈ c.reads sizes, r = ⟨[], some e⟩ := by
  have hpending : c.pending = [] := pending_of_rest (h e he).2
  have hread : ∀ len, c.read len = (c, ⟨[], some e⟩) := by
    intro len
    simp [read, fill, hpending, he]
  induction sizes with
  | nil => simp [reads]
  | cons len sizes ih =>
    rw [reads, hread len]
    exact List.forall_mem_cons.mpr ⟨rfl, ih⟩

theorem reads_error (h : c.Sticky) {sizes : List Nat} {before after : List ReadResult}
    {r : ReadResult} (hreads : c.reads sizes = before ++ r :: after) {e : Err}
    (he : r.err = some e) :
    e = c.failure ∧ returned before = c.rest ∧ r.data = [] ∧ ∀ r' ∈ after, r' = ⟨[], some e⟩ := by
  induction sizes generalizing c before with
  | nil => simp [reads] at hreads
  | cons len sizes ih =>
    have hstep := read_spec h len
    rw [reads] at hreads
    cases before with
    | nil =>
      obtain ⟨rfl, rfl⟩ := List.cons.inj hreads
      obtain ⟨hdata, hrest, hreadErr⟩ := hstep.ended e he
      refine ⟨?_, hrest.symm, hdata, reads_ended hstep.sticky hreadErr sizes⟩
      exact (hstep.sticky e hreadErr).1.trans hstep.failure
    | cons r₀ before =>
      obtain ⟨rfl, htail⟩ := List.cons.inj hreads
      obtain ⟨hfailure, hbefore, hdata, hafter⟩ := ih hstep.sticky htail
      refine ⟨hfailure.trans hstep.failure, ?_, hdata, hafter⟩
      rw [returned_cons, hbefore, ← hstep.rest]

theorem reads_each (h : c.Sticky) (sizes : List Nat) : ∀ p ∈ sizes.zip (c.reads sizes),
    p.2.data.length ≤ p.1 ∧ (p.2.err = none → 0 < p.1 → p.2.data ≠ []) := by
  induction sizes generalizing c with
  | nil => simp [reads]
  | cons len sizes ih =>
    have hstep := read_spec h len
    rw [reads, List.zip_cons_cons]
    exact List.forall_mem_cons.mpr ⟨⟨hstep.fits, hstep.data⟩, ih hstep.sticky⟩

theorem length_reads (c : SSHConn) (sizes : List Nat) : (c.reads sizes).length = sizes.length := by
  induction sizes generalizing c with
  | nil => rfl
  | cons len sizes ih => simp [reads, ih]

/-- The pipe is a faithful byte stream: whatever the sizes of the messages and of
the buffers, every `Read` returns; together they return a prefix of the messages'
data; an error comes once all of it was returned, with no bytes, and again from
every later `Read`; and a `Read` into a buffer that is not empty returns bytes or
an error. -/
theorem pipe_faithful (host uid : String) (messages : List Bytes) (ending : Err)
    (sizes : List Nat) :
    ((new host uid messages ending).reads sizes).length = sizes.length ∧
    returned ((new host uid messages ending).reads sizes) <+: messages.flatten ∧
    (∀ before r after e, (new host uid messages ending).reads sizes = before ++ r :: after →
      r.err = some e →
      e = (new host uid messages ending).failure ∧ returned before = messages.flatten ∧
        r.data = [] ∧ ∀ r' ∈ after, r' = ⟨[], some e⟩) ∧
    ∀ p ∈ sizes.zip ((new host uid messages ending).reads sizes),
      p.2.data.length ≤ p.1 ∧ (p.2.err = none → 0 < p.1 → p.2.data ≠ []) := by
  have h := sticky_new host uid messages ending
  refine ⟨length_reads _ sizes, reads_prefix h sizes, ?_, reads_each h sizes⟩
  intro before r after e hreads he
  exact reads_error h hreads he

end SSHConn

end FlintlockRunner.Flintlock

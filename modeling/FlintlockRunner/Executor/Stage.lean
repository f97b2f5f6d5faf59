import FlintlockRunner.Executor.Prepare
import Mathlib.Data.List.Basic

/-!
# Running the Stages

`Run` and `runStage` of `executor/executor.go`, one call after the other on one
executor. `Run` starts the transport operation in a goroutine of its own and
waits for the operation's result or for the end of its context, and after that
no longer than the graceful kill timeout: an operation may outlive the `Run`
that started it.

What the executor does not decide is a label: when a goroutine gets to call the
transport, how and when the operation ends, when the Stage's context, the Handle
and the abort signal end, what `CheckLease` answers and which timer fires.

- A Stage whose outcome is unknown is not run again (`unknown_not_rerun`) as long
  as it is remembered, which a killed command whose Lease seems held is not
  (`killed_stage_rerun`).
- Two operations are never in flight at once (`one_operation_in_flight`) as long
  as no `Run` leaves one behind, which the graceful kill timeout makes it do
  (`second_operation_in_flight`).
-/

namespace FlintlockRunner.Executor

open Option

/-- What the transport's `Run` returns. -/
structure StageResult where
  status : Int
  err : Option GoError
  deriving DecidableEq

/-- The command ended without an exit status of its own. -/
def noExitStatus (r : StageResult) : Bool := r.err.isSome || r.status < 0

/-- A transport operation: its goroutine has been started, has called the
transport, has sent its result. -/
inductive OpState
  | spawned
  | inFlight
  | ended (r : StageResult)
  deriving DecidableEq

/-- One operation with the causes that have ended the Stage's context, `cmd`,
and the one derived from it, `ctx`. -/
structure Op where
  stage : String
  cmd : Option GoError
  ctx : Option GoError
  state : OpState
  deriving DecidableEq

/-- The operation has its result. -/
def Op.ended (op : Op) : Bool :=
  match op.state with
  | .ended _ => true
  | _ => false

/-- The derived context ends, unless it has. -/
def Op.stop (op : Op) (cause : GoError) : Op := { op with ctx := op.ctx <|> some cause }

/-- Where `runStage` is: at the first `select`, with a result before and inside
`expired`, with a result it accepts, and at the second `select`. -/
inductive RunPc
  | selecting
  | received (r : StageResult)
  | expiring (r : StageResult)
  | judging (r : StageResult)
  | stopping
  deriving DecidableEq

/-- The result that `runStage` has received. -/
def RunPc.result : RunPc → Option StageResult
  | .received r | .expiring r | .judging r => some r
  | _ => none

/-- The executor with its operations and the `Run` under way, by the number of
its operation. `returned` is what each `Run` returned, and `unknown` has the
Stages of which an operation has ended without an exit status while everything
was live. -/
structure Stages where
  exec : Executor
  handleErr : Option GoError
  aborted : Bool
  ops : List Op
  running : Option (Nat × RunPc)
  returned : List (String × Option GoError)
  unknown : List String

/-! ## How a Stage ends -/

/-- What the executor remembers of a Stage. -/
def stageFailed (e : Executor) (stage : String) : Option GoError := e.failedStages.lookup stage

/-- `context.Canceled`. -/
def canceled : GoError := .new "context canceled"

def errAborted : GoError := .new "executor: runner is shutting down; job aborted"

/-- The error of a Stage whose context has ended. -/
def stageCancelled (ctx : Option GoError) : Option GoError :=
  ctx.map fun cause =>
    match cause.as with
    | some (be, inner) => .typed be inner
    | none => cause

/-- `leaseLost`, where `CheckLease` answers `lost`. -/
def leaseLost (e : Executor) (stage : String) (r : StageResult) (lost : Option GoError) :
    Executor × Option GoError :=
  if !noExitStatus r then (e, none)
  else
    match lost with
    | none => (e, none)
    | some lost =>
      let inner : GoError :=
        match r.err with
        | none => .wrap ("stage " ++ stage ++
            ": the guest agent reported the exit status " ++ toString r.status ++ ": ") lost
        | some err => .wrap₂ ("stage " ++ stage ++
            ": guest transport failed before the exit status was known: ") err ": " lost ""
      let err : GoError := .typed ⟨.runnerSystemFailure, 0⟩ inner
      (e.recordFailed stage err, some err)

/-- `stageError`; `normalize` is gitlab-runner's `NormalizeExitCode`. -/
def stageError (normalize : Int → Int) (e : Executor) (stage : String) (r : StageResult) :
    Executor × Option GoError :=
  match r.err with
  | some err =>
    let err : GoError := .typed ⟨.runnerSystemFailure, 0⟩ (.wrap ("stage " ++ stage ++
      ": guest transport failed before the exit status was known: ") err)
    (e.recordFailed stage err, some err)
  | none =>
    if r.status ≠ 0 then
      (e, some (.typed ⟨.scriptFailure, normalize r.status⟩
        (.new ("exit status " ++ toString r.status))))
    else (e, none)

/-- What `runStage` makes of a result that its context did not overtake. -/
def judge (normalize : Int → Int) (e : Executor) (stage : String) (r : StageResult)
    (lost : Option GoError) : Executor × Option GoError :=
  match leaseLost e stage r lost with
  | (e, some err) => (e, some err)
  | (e, none) => stageError normalize e stage r

/-! ## The moves -/

/-- What the `Run` under way does next. `check` and `expire` are `expired`, with
whether the deadline has passed and whether the expiry wait has elapsed; `stop`
is the second `select`, with whether the timer fires. -/
inductive Move
  | result
  | done
  | check (late : Bool)
  | expire (elapsed : Bool)
  | judge (lost : Option GoError)
  | stop (timer : Bool)
  deriving DecidableEq

/-- A call of `Run`, what the goroutines of operation `n` do, what happens to its
context, the Handle and the abort signal, and a move of the `Run` under way. -/
inductive Label
  | run (stage : String) (cmd : Option GoError)
  | begin (n : Nat)
  | finish (n : Nat) (r : StageResult)
  | cancel (n : Nat) (cause : GoError)
  | propagate (n : Nat)
  | watch (n : Nat) (abort : Bool)
  | handleDone (err : GoError)
  | abort
  | move (m : Move)
  deriving DecidableEq

namespace Stages

variable (normalize : Int → Int) (s : Stages)

/-- The Stage's context, the Handle and the abort signal are live. -/
def live (op : Op) : Bool := op.cmd.isNone && s.handleErr.isNone && !s.aborted

def setOp (n : Nat) (op : Op) : Stages := { s with ops := s.ops.set n op }

/-- `Run` refuses. -/
def refuse (stage : String) (err : GoError) : Stages :=
  { s with returned := s.returned ++ [(stage, some err)] }

/-- The `Run` under way returns, and its deferred `cancel` runs. -/
def leave (n : Nat) (op : Op) (out : Executor × Option GoError) : Stages :=
  { s with
    exec := out.1
    ops := s.ops.set n (op.stop canceled)
    running := none
    returned := s.returned ++ [(op.stage, out.2)] }

/-- `Run`, up to the first `select` of `runStage`. -/
def run (stage : String) (cmd : Option GoError) : Stages :=
  if s.exec.tr.isNone || s.exec.handle.isNone then
    s.refuse stage (buildErr .runnerSystemFailure
      (.new "flintlock: Run called before a successful Prepare"))
  else
    match stageFailed s.exec stage with
    | some err => s.refuse stage err
    | none =>
      { s with
        ops := s.ops ++ [⟨stage, cmd, cmd, .spawned⟩]
        running := some (s.ops.length, .selecting) }

/-- One move of the `Run` under way, whose operation is `op`. -/
def move (n : Nat) (op : Op) : RunPc → Move → Option Stages
  | .selecting, .result =>
    match op.state with
    | .ended r => some { s with running := some (n, .received r) }
    | _ => none
  | .selecting, .done =>
    if op.ctx.isSome then some { s with running := some (n, .stopping) } else none
  | .received r, .check late =>
    if op.ctx.isSome then some (s.leave n op (s.exec, stageCancelled op.ctx))
    else if late then some { s with running := some (n, .expiring r) }
    else some { s with running := some (n, .judging r) }
  | .expiring r, .expire elapsed =>
    if elapsed then some { s with running := some (n, .judging r) }
    else if op.ctx.isSome then some (s.leave n op (s.exec, stageCancelled op.ctx))
    else none
  | .judging r, .judge lost => some (s.leave n op (Executor.judge normalize s.exec op.stage r lost))
  | .stopping, .stop timer =>
    if timer || op.ended then some (s.leave n op (s.exec, stageCancelled op.ctx)) else none
  | _, _ => none

/-- One step. -/
def next : Label → Option Stages
  | .run stage cmd => if s.running.isSome then none else some (s.run stage cmd)
  | .begin n => do
    let op ← s.ops[n]?
    if op.state = .spawned then some (s.setOp n { op with state := .inFlight }) else none
  | .finish n r => do
    let op ← s.ops[n]?
    if op.state = .inFlight then
      some { s.setOp n { op with state := .ended r } with
        unknown := if noExitStatus r && s.live op then op.stage :: s.unknown else s.unknown }
    else none
  | .cancel n cause => do
    let op ← s.ops[n]?
    if op.cmd.isSome then none else some (s.setOp n { op with cmd := some cause })
  | .propagate n => do
    let op ← s.ops[n]?
    let cause ← op.cmd
    some (s.setOp n (op.stop cause))
  | .watch n abort => do
    let op ← s.ops[n]?
    if abort then
      if s.aborted then some (s.setOp n (op.stop (.typed ⟨.runnerSystemFailure, 0⟩ errAborted)))
      else none
    else do
      let err ← s.handleErr
      some (s.setOp n (op.stop (.typed ⟨.runnerSystemFailure, 0⟩ err)))
  | .handleDone err =>
    if s.handleErr.isSome then none else some { s with handleErr := some err }
  | .abort => some { s with aborted := true }
  | .move m => do
    let (n, pc) ← s.running
    let op ← s.ops[n]?
    s.move normalize n op pc m

end Stages

/-- The calls of `Run` on one executor, made one after the other. -/
def stages (normalize : Int → Int) : Machine Stages Label where
  init s := s.ops = [] ∧ s.running = none ∧ s.unknown = []
  next s l := s.next normalize l

namespace Stages

variable {normalize : Int → Int} {s s' : Stages} {l : Label} {n k : Nat} {op op' : Op}

/-! ## What one step can do -/

/-- How the `Run` under way goes on. -/
inductive Advance (op : Op) : RunPc → Move → RunPc → Prop
  | result {r : StageResult} : op.state = .ended r → Advance op .selecting .result (.received r)
  | done : op.ctx ≠ none → Advance op .selecting .done .stopping
  | late {r : StageResult} : op.ctx = none → Advance op (.received r) (.check true) (.expiring r)
  | check {r : StageResult} : op.ctx = none → Advance op (.received r) (.check false) (.judging r)
  | expire {r : StageResult} : Advance op (.expiring r) (.expire true) (.judging r)

/-- How the `Run` under way returns: its context ended first, with the result at
hand or after the second `select`, or the result decides. -/
inductive Leaves (normalize : Int → Int) (e : Executor) (op : Op) :
    RunPc → Move → Executor × Option GoError → Prop
  | expired {r : StageResult} {late : Bool} : op.ctx ≠ none →
      Leaves normalize e op (.received r) (.check late) (e, stageCancelled op.ctx)
  | expiredLate {r : StageResult} : op.ctx ≠ none →
      Leaves normalize e op (.expiring r) (.expire false) (e, stageCancelled op.ctx)
  | judged {r : StageResult} {lost : Option GoError} :
      Leaves normalize e op (.judging r) (.judge lost) (judge normalize e op.stage r lost)
  | stopped {timer : Bool} : timer = true ∨ op.ended = true →
      Leaves normalize e op .stopping (.stop timer) (e, stageCancelled op.ctx)

variable (normalize : Int → Int) (s : Stages) in
/-- Everything a step can do. -/
inductive Stepped : Label → Stages → Prop
  | refused {stage : String} {cmd : Option GoError} {err : GoError} : s.running = none →
      Stepped (.run stage cmd) (s.refuse stage err)
  | started {stage : String} {cmd : Option GoError} : s.running = none →
      stageFailed s.exec stage = none →
      Stepped (.run stage cmd)
        { s with
          ops := s.ops ++ [⟨stage, cmd, cmd, .spawned⟩]
          running := some (s.ops.length, .selecting) }
  | begun {n : Nat} {op : Op} : s.ops[n]? = some op → op.state = .spawned →
      Stepped (.begin n) (s.setOp n { op with state := .inFlight })
  | finished {n : Nat} {op : Op} {r : StageResult} : s.ops[n]? = some op → op.state = .inFlight →
      Stepped (.finish n r)
        { s.setOp n { op with state := .ended r } with
          unknown := if noExitStatus r && s.live op then op.stage :: s.unknown else s.unknown }
  | cancelled {n : Nat} {op : Op} {cause : GoError} : s.ops[n]? = some op →
      Stepped (.cancel n cause) (s.setOp n { op with cmd := some cause })
  | propagated {n : Nat} {op : Op} {cause : GoError} : s.ops[n]? = some op → s.live op = false →
      Stepped (.propagate n) (s.setOp n (op.stop cause))
  | watched {n : Nat} {op : Op} {abort : Bool} {cause : GoError} : s.ops[n]? = some op →
      s.live op = false → Stepped (.watch n abort) (s.setOp n (op.stop cause))
  | handleDone {err : GoError} : Stepped (.handleDone err) { s with handleErr := some err }
  | abort : Stepped .abort { s with aborted := true }
  | moved {n : Nat} {op : Op} {pc pc' : RunPc} {m : Move} : s.running = some (n, pc) →
      s.ops[n]? = some op → Advance op pc m pc' →
      Stepped (.move m) { s with running := some (n, pc') }
  | left {n : Nat} {op : Op} {pc : RunPc} {m : Move} {out : Executor × Option GoError} :
      s.running = some (n, pc) → s.ops[n]? = some op → Leaves normalize s.exec op pc m out →
      Stepped (.move m) (s.leave n op out)

variable {out : Executor × Option GoError} {stage : String} {m : Move} {pc : RunPc}

theorem run_stepped (hrun : s.running = none) {cmd : Option GoError} :
    Stepped normalize s (.run stage cmd) (s.run stage cmd) := by
  unfold run
  split
  · exact .refused hrun
  · split
    · exact .refused hrun
    · rename_i hfailed
      exact .started hrun hfailed

theorem move_stepped (hrun : s.running = some (n, pc)) (hop : s.ops[n]? = some op)
    (h : s.move normalize n op pc m = some s') : Stepped normalize s (.move m) s' := by
  unfold move at h
  split at h
  · -- the first select, with a result
    split at h
    · rename_i hstate
      cases h
      exact .moved hrun hop (.result hstate)
    · cases h
  · -- the first select, with the context done
    split at h
    · rename_i hctx
      cases h
      exact .moved hrun hop (.done (isSome_iff_ne_none.mp hctx))
    · cases h
  · -- `expired` looks at the context and the clock
    split at h
    · rename_i hctx
      cases h
      exact .left hrun hop (.expired (isSome_iff_ne_none.mp hctx))
    · rename_i hctx
      have hnone : op.ctx = none := not_isSome_iff_eq_none.mp hctx
      split at h
      · rename_i hlate
        cases hlate
        cases h
        exact .moved hrun hop (.late hnone)
      · rename_i hlate
        obtain rfl := Bool.not_eq_true _ ▸ hlate
        cases h
        exact .moved hrun hop (.check hnone)
  · -- `expired` waits
    split at h
    · rename_i helapsed
      cases helapsed
      cases h
      exact .moved hrun hop .expire
    · rename_i helapsed
      obtain rfl := Bool.not_eq_true _ ▸ helapsed
      split at h
      · rename_i hctx
        cases h
        exact .left hrun hop (.expiredLate (isSome_iff_ne_none.mp hctx))
      · cases h
  · cases h
    exact .left hrun hop .judged
  · -- the second select
    split at h
    · rename_i hstop
      cases h
      exact .left hrun hop (.stopped (Bool.or_eq_true _ _ ▸ hstop))
    · cases h
  · cases h

/-- Every step is one of the cases of `Stepped`. -/
theorem stepped (h : s.next normalize l = some s') : Stepped normalize s l s' := by
  cases l with
  | run stage cmd =>
    dsimp only [next] at h
    split at h
    · cases h
    · rename_i hrun
      obtain rfl : s.run stage cmd = s' := some.inj h
      exact run_stepped (not_isSome_iff_eq_none.mp hrun)
  | begin n =>
    obtain ⟨op, hop, h⟩ := bind_eq_some_iff.mp h
    split at h
    · rename_i hstate
      cases h
      exact .begun hop hstate
    · cases h
  | finish n r =>
    obtain ⟨op, hop, h⟩ := bind_eq_some_iff.mp h
    split at h
    · rename_i hstate
      cases h
      exact .finished hop hstate
    · cases h
  | cancel n cause =>
    obtain ⟨op, hop, h⟩ := bind_eq_some_iff.mp h
    split at h
    · cases h
    · cases h
      exact .cancelled hop
  | propagate n =>
    obtain ⟨op, hop, h⟩ := bind_eq_some_iff.mp h
    obtain ⟨cause, hcause, h⟩ := bind_eq_some_iff.mp h
    cases h
    refine .propagated hop ?_
    simp [live, hcause]
  | watch n abort =>
    obtain ⟨op, hop, h⟩ := bind_eq_some_iff.mp h
    split at h
    · split at h
      · rename_i haborted
        cases h
        refine .watched hop ?_
        simp [live, haborted]
      · cases h
    · obtain ⟨err, herr, h⟩ := bind_eq_some_iff.mp h
      cases h
      refine .watched hop ?_
      simp [live, herr]
  | handleDone err =>
    dsimp only [next] at h
    split at h
    · cases h
    · cases h
      exact .handleDone
  | abort =>
    cases h
    exact .abort
  | move m =>
    obtain ⟨⟨n, pc⟩, hrun, h⟩ := bind_eq_some_iff.mp h
    obtain ⟨op, hop, h⟩ := bind_eq_some_iff.mp h
    exact move_stepped hrun hop h

/-! ## What holds of every operation -/

theorem lookup_set {x y : Op} {ops : List Op} (h : (ops.set n x)[k]? = some y) :
    k = n ∧ y = x ∨ k ≠ n ∧ ops[k]? = some y := by
  rw [List.getElem?_set] at h
  split at h
  · rename_i heq
    split at h
    · exact .inl ⟨heq.symm, (some.inj h).symm⟩
    · cases h
  · rename_i hne
    exact .inr ⟨Ne.symm hne, h⟩

/-- Operation `n` fits where its `Run` is: with a result at hand it has ended with
that result; a `Run` at the second `select` has a context that is done, and so
has one that left its operation unended; and such a context was ended by what is
no longer live. -/
structure Fits (s : Stages) (n : Nat) (op : Op) : Prop where
  carries : ∀ {pc : RunPc} {r : StageResult}, s.running = some (n, pc) → pc.result = some r →
    op.state = .ended r
  stopping : s.running = some (n, .stopping) → op.ctx ≠ none
  left : (∀ pc, s.running ≠ some (n, pc)) → op.ended = false → op.ctx ≠ none
  dead : op.ended = false → op.ctx ≠ none → s.live op = false

section Fits

variable (hf : Fits s n op)
include hf

theorem Fits.frame (hrun : ∀ pc, s'.running = some (n, pc) ↔ s.running = some (n, pc))
    (hlive : s.live op = false → s'.live op = false) : Fits s' n op where
  carries hpc hr := hf.carries ((hrun _).mp hpc) hr
  stopping hpc := hf.stopping ((hrun _).mp hpc)
  left hpc hended := hf.left (fun pc h => hpc pc ((hrun pc).mpr h)) hended
  dead hended hctx := hlive (hf.dead hended hctx)

/-- So it does when its own context ends, once it is no longer live. -/
theorem Fits.stop (hdead : op.ended = false → s.live op = false)
    (cause : GoError) : Fits s n (op.stop cause) where
  carries hpc hr := hf.carries hpc hr
  stopping _ := by simp [Op.stop]
  left _ _ := by simp [Op.stop]
  dead hended _ := hdead hended

theorem Fits.begin (hstate : op.state = .spawned) : Fits s n { op with state := .inFlight } where
  carries hpc hr := by
    rw [hf.carries hpc hr] at hstate
    cases hstate
  stopping := hf.stopping
  left hno _ := hf.left hno (by rw [Op.ended, hstate])
  dead _ := hf.dead (by rw [Op.ended, hstate])

theorem Fits.finish (hstate : op.state = .inFlight) (r : StageResult) :
    Fits s n { op with state := .ended r } where
  carries hpc hr := by
    rw [hf.carries hpc hr] at hstate
    cases hstate
  stopping := hf.stopping
  left _ hended := nomatch hended
  dead hended := nomatch hended

theorem Fits.move {pc pc' : RunPc} (hrun : s.running = some (n, pc))
    (h : Advance op pc m pc') : Fits { s with running := some (n, pc') } n op where
  carries hpc hr := by
    cases hpc
    cases h with
    | result hstate => exact some.inj hr ▸ hstate
    | done _ => cases hr
    | late _ => exact hf.carries hrun hr
    | check _ => exact hf.carries hrun hr
    | expire => exact hf.carries hrun hr
  stopping hpc := by
    cases hpc
    cases h with
    | done hctx => exact hctx
  left hno := absurd rfl (hno pc')
  dead := hf.dead

/-- A `Run` that returns leaves an operation that has ended or that is no longer
live. -/
theorem Fits.leave (hrun : s.running = some (n, pc))
    (h : Leaves normalize s.exec op pc m out) : Fits (s.leave n op out) n (op.stop canceled) where
  carries hpc := nomatch hpc
  stopping hpc := nomatch hpc
  left _ _ := by simp [Op.stop]
  dead hended _ := by
    have hcarried : ∀ r, pc.result ≠ some r := by
      intro r hr
      rw [Op.ended, show (op.stop canceled).state = .ended r from hf.carries hrun hr] at hended
      cases hended
    cases h with
    | expired _ => exact absurd rfl (hcarried _)
    | expiredLate _ => exact absurd rfl (hcarried _)
    | judged => exact absurd rfl (hcarried _)
    | stopped _ => exact hf.dead hended (hf.stopping hrun)

end Fits

theorem lookup_concat {x y : Op} {ops : List Op} (h : (ops ++ [x])[k]? = some y) :
    k ≠ ops.length ∧ ops[k]? = some y ∨ k = ops.length ∧ y = x := by
  rw [List.getElem?_append] at h
  split at h
  · rename_i hlt
    exact .inl ⟨Nat.ne_of_lt hlt, h⟩
  · rename_i hle
    obtain ⟨hlt, -⟩ := List.getElem?_eq_some_iff.mp h
    have heq : k = ops.length := by
      rw [List.length_singleton] at hlt
      omega
    rw [heq, Nat.sub_self] at h
    exact .inr ⟨heq, (some.inj h).symm⟩

/-- Every operation fits, and the Stage under way is not recorded as failed. -/
structure Sound (s : Stages) : Prop where
  fits : ∀ {n : Nat} {op : Op}, s.ops[n]? = some op → Fits s n op
  fresh : ∀ {n : Nat} {pc : RunPc} {op : Op}, s.running = some (n, pc) → s.ops[n]? = some op →
    stageFailed s.exec op.stage = none

theorem Sound.setOp (hs : s.Sound) (hop : s.ops[n]? = some op) (hf : Fits s n op')
    (hstage : op'.stage = op.stage) : (s.setOp n op').Sound where
  fits := by
    intro k x hx
    obtain ⟨rfl, rfl⟩ | ⟨-, hx⟩ := lookup_set hx
    · exact hf.frame (fun _ => .rfl) id
    · exact (hs.fits hx).frame (fun _ => .rfl) id
  fresh := by
    intro k pc x hrun hx
    obtain ⟨rfl, rfl⟩ | ⟨-, hx⟩ := lookup_set hx
    · exact hstage ▸ hs.fresh hrun hop
    · exact hs.fresh hrun hx

theorem fits_started {cmd : Option GoError} :
    Fits { s with
      ops := s.ops ++ [⟨stage, cmd, cmd, .spawned⟩]
      running := some (s.ops.length, .selecting) } s.ops.length ⟨stage, cmd, cmd, .spawned⟩ where
  carries hpc hr := by
    cases hpc
    cases hr
  stopping hpc := nomatch hpc
  left hno := absurd rfl (hno _)
  dead _ hctx := by
    obtain ⟨cause, rfl⟩ := ne_none_iff_exists'.mp hctx
    rfl

theorem running_other {pc pc' : RunPc} (hrun : s.running = some (n, pc)) (hne : k ≠ n) :
    s.running ≠ some (k, pc') := by
  rw [hrun]
  rintro ⟨⟩
  exact hne rfl

/-- One step keeps each operation in line with the `Run` that waits for it. -/
theorem Sound.stepped (hs : s.Sound) (h : Stepped normalize s l s') : s'.Sound := by
  cases h with
  | refused _ => exact ⟨fun hx => (hs.fits hx).frame (fun _ => .rfl) id, hs.fresh⟩
  | started hrun hfailed =>
    refine ⟨fun {k x} hx => ?_, fun {k pc x} hpc hx => ?_⟩
    · obtain ⟨hne, hx⟩ | ⟨rfl, rfl⟩ := lookup_concat hx
      · refine (hs.fits hx).frame (fun pc => ⟨fun h => ?_, fun h => ?_⟩) id
        · cases h
          exact absurd rfl hne
        · rw [hrun] at h
          cases h
      · exact fits_started
    · cases hpc
      obtain ⟨hne, -⟩ | ⟨-, rfl⟩ := lookup_concat hx
      · exact absurd rfl hne
      · exact hfailed
  | begun hop hstate => exact hs.setOp hop ((hs.fits hop).begin hstate) rfl
  | @finished n op r hop hstate =>
    have hset := hs.setOp hop ((hs.fits hop).finish hstate r) rfl
    exact ⟨fun hx => (hset.fits hx).frame (fun _ => .rfl) id, hset.fresh⟩
  | @cancelled n op cause hop =>
    have hf := hs.fits hop
    have hf' : Fits s n { op with cmd := some cause } :=
      ⟨hf.carries, hf.stopping, hf.left, fun _ _ => rfl⟩
    exact hs.setOp hop hf' rfl
  | propagated hop hdead => exact hs.setOp hop ((hs.fits hop).stop (fun _ => hdead) _) rfl
  | watched hop hdead => exact hs.setOp hop ((hs.fits hop).stop (fun _ => hdead) _) rfl
  | handleDone =>
    refine ⟨fun hx => (hs.fits hx).frame (fun _ => .rfl) fun _ => ?_, hs.fresh⟩
    simp [live]
  | abort =>
    refine ⟨fun hx => (hs.fits hx).frame (fun _ => .rfl) fun _ => ?_, hs.fresh⟩
    simp [live]
  | @moved n op pc pc' m hrun hop hadv =>
    refine ⟨fun {k x} hx => ?_, fun {k pc₁ x} hpc hx => ?_⟩
    · by_cases hk : k = n
      · subst hk
        obtain rfl : op = x := some.inj (hop.symm.trans hx)
        exact (hs.fits hx).move hrun hadv
      · refine (hs.fits hx).frame (fun pc₁ => ⟨fun h => ?_, fun h => ?_⟩) id
        · cases h
          exact absurd rfl hk
        · exact absurd h (running_other hrun hk)
    · cases hpc
      exact hs.fresh hrun hx
  | @left n op pc m out hrun hop hleaves =>
    refine ⟨fun {k x} hx => ?_, nofun⟩
    obtain ⟨rfl, rfl⟩ | ⟨hk, hx⟩ := lookup_set hx
    · exact (hs.fits hop).leave hrun hleaves
    · exact (hs.fits hx).frame
        (fun pc₁ => ⟨nofun, fun h => absurd h (running_other hrun hk)⟩) id

theorem sound_init (h : (stages normalize).init s) : s.Sound := by
  obtain ⟨hops, hrun, -⟩ := h
  refine ⟨fun {n op} hop => ?_, fun {n pc op} hpc _ => ?_⟩
  · rw [hops] at hop
    cases hop
  · rw [hrun] at hpc
    cases hpc

theorem sound_reach {ok : Stages → Label → Prop} (hs : (stages normalize).Reach ok s) : s.Sound :=
  hs.inv (fun _ => sound_init) fun _ _ _ ht _ h => ht.stepped (stepped h)

/-! ## One operation at a time -/

/-- Every operation that has not ended is the one that a `Run` waits for. -/
def Alone (s : Stages) : Prop :=
  ∀ n op, s.ops[n]? = some op → op.ended = false → ∃ pc, s.running = some (n, pc)

/-- The graceful kill timeout does not elapse before the operation has ended. -/
def Awaited (s : Stages) : Label → Prop
  | .move (.stop true) => ∀ x ∈ s.running, ∀ op ∈ s.ops[x.1]?, op.ended = true
  | _ => True

instance (s : Stages) : DecidablePred s.Awaited := fun l => by
  unfold Awaited
  split <;> infer_instance

theorem Alone.setOp (ha : s.Alone) (hop : s.ops[n]? = some op) (op' : Op)
    (hended : op'.ended = false → op.ended = false) : (s.setOp n op').Alone := by
  intro k x hx hx'
  obtain ⟨rfl, rfl⟩ | ⟨-, hx⟩ := lookup_set hx
  · exact ha k op hop (hended hx')
  · exact ha k x hx hx'

theorem Fits.ended_of_leaves (hf : Fits s n op) (hrun : s.running = some (n, pc))
    (h : Leaves normalize s.exec op pc m out) :
    op.ended = true ∨ pc = .stopping ∧ m = .stop true := by
  have hended : ∀ {r}, pc.result = some r → op.ended = true := by
    intro r hr
    rw [Op.ended, hf.carries hrun hr]
  cases h with
  | expired _ => exact .inl (hended rfl)
  | expiredLate _ => exact .inl (hended rfl)
  | judged => exact .inl (hended rfl)
  | stopped h =>
    rcases h with rfl | h
    · exact .inr ⟨rfl, rfl⟩
    · exact .inl h

/-- A step keeps the operations alone exactly if it is no timer that fires on an
operation that has not ended. -/
theorem Alone.stepped (hs : s.Sound) (ha : s.Alone) (h : Stepped normalize s l s') :
    s'.Alone ↔ Awaited s l := by
  cases h with
  | refused _ => exact ⟨fun _ => trivial, fun _ => ha⟩
  | started hrun _ =>
    refine ⟨fun _ => trivial, fun _ k x hx hended => ?_⟩
    obtain ⟨-, hx⟩ | ⟨rfl, -⟩ := lookup_concat hx
    · obtain ⟨pc, hpc⟩ := ha k x hx hended
      rw [hrun] at hpc
      cases hpc
    · exact ⟨_, rfl⟩
  | begun hop hstate =>
    exact ⟨fun _ => trivial, fun _ => ha.setOp hop _ fun _ => by rw [Op.ended, hstate]⟩
  | @finished n op r hop _ =>
    exact ⟨fun _ => trivial, fun _ => ha.setOp hop { op with state := .ended r } nofun⟩
  | cancelled hop => exact ⟨fun _ => trivial, fun _ => ha.setOp hop _ id⟩
  | propagated hop _ => exact ⟨fun _ => trivial, fun _ => ha.setOp hop _ id⟩
  | watched hop _ => exact ⟨fun _ => trivial, fun _ => ha.setOp hop _ id⟩
  | handleDone => exact ⟨fun _ => trivial, fun _ => ha⟩
  | abort => exact ⟨fun _ => trivial, fun _ => ha⟩
  | @moved n op pc pc' m hrun hop hadv =>
    have hok : Awaited s (.move m) := by cases hadv <;> trivial
    refine ⟨fun _ => hok, fun _ k x hx hended => ?_⟩
    obtain ⟨pc₁, hpc⟩ := ha k x hx hended
    rw [hrun] at hpc
    cases hpc
    exact ⟨pc', rfl⟩
  | @left n op pc m out hrun hop hleaves =>
    -- the `Run` is gone, so its operation has to be
    have hgone : (s.leave n op out).Alone ↔ op.ended = true := by
      constructor
      · intro ha'
        by_contra hended
        obtain ⟨pc₁, hpc⟩ := ha' n (op.stop canceled)
          (List.getElem?_set_self (List.getElem?_eq_some_iff.mp hop).1)
          (Bool.not_eq_true _ ▸ hended)
        cases hpc
      · intro hended k x hx hx'
        obtain ⟨rfl, rfl⟩ | ⟨hk, hx⟩ := lookup_set hx
        · exact absurd (hended.symm.trans hx') nofun
        · obtain ⟨pc₁, hpc⟩ := ha k x hx hx'
          exact absurd hpc (running_other hrun hk)
    rw [hgone]
    rcases (hs.fits hop).ended_of_leaves hrun hleaves with hended | ⟨rfl, rfl⟩
    · refine ⟨fun _ => ?_, fun _ => hended⟩
      unfold Awaited
      split
      · rw [hrun]
        rintro _ ⟨⟩ y hy
        exact some.inj (hop.symm.trans hy) ▸ hended
      · trivial
    · refine ⟨fun hended => ?_, fun h => h _ hrun op hop⟩
      intro x hx y hy
      obtain rfl : (n, RunPc.stopping) = x := some.inj (hrun.symm.trans hx)
      exact some.inj (hop.symm.trans hy) ▸ hended

theorem alone_reach (hs : (stages normalize).Reach Awaited s) : s.Alone := by
  have h := hs.inv (I := fun s => s.Sound ∧ s.Alone) (fun s h => ?_) fun t l t' ht hok h =>
    ⟨ht.1.stepped (Stages.stepped h), (ht.2.stepped ht.1 (Stages.stepped h)).mpr hok⟩
  · exact h.2
  · refine ⟨sound_init h, fun n op hop _ => ?_⟩
    rw [h.1] at hop
    cases hop

/-- **One transport operation at a time**, as long as no graceful kill timeout
elapses before the operation has ended: two operations in flight are one. Any
other step keeps it so, and a timeout that does elapse first leaves an operation
behind that no `Run` waits for. -/
theorem one_operation_in_flight (hs : (stages normalize).Reach Awaited s) :
    (∀ (n k : Nat) (op op' : Op), s.ops[n]? = some op → s.ops[k]? = some op' →
      op.state = .inFlight → op'.state = .inFlight → n = k) ∧
    ∀ l s', (stages normalize).next s l = some s' → (s'.Alone ↔ Awaited s l) := by
  have ha := alone_reach hs
  refine ⟨fun n k op op' hn hk hop hop' => ?_, fun l s' h => ?_⟩
  · obtain ⟨pc, hpc⟩ := ha n op hn (by rw [Op.ended, hop])
    obtain ⟨pc', hpc'⟩ := ha k op' hk (by rw [Op.ended, hop'])
    rw [hpc] at hpc'
    cases hpc'
    rfl
  · exact ha.stepped (sound_reach hs) (stepped h)

/-- A prepared executor on which nobody has called `Run`. -/
def ready : Stages where
  exec := { new with handle := some default, tr := some 0, hostDone := some 0, prepared := true }
  handleErr := none
  aborted := false
  ops := []
  running := none
  returned := []
  unknown := []

theorem ready_init (normalize : Int → Int) : (stages normalize).init ready := ⟨rfl, rfl, rfl⟩

/-- A Stage that is cancelled while the transport is at it. -/
def cancelledRun : List Label :=
  [.run "step_script" none, .begin 0, .cancel 0 canceled, .propagate 0, .move .done]

/-- The transport stops in time, and another Stage runs. -/
def awaitedRun : List Label :=
  cancelledRun ++ ([.finish 0 ⟨-1, none⟩, .move (.stop true), .run "after_script" none,
    .begin 1] : List Label)

theorem one_operation_in_flight_awaited : ∃ s, (stages id).Reach Awaited s ∧
    s.ops.map Op.state = [.ended ⟨-1, none⟩, .inFlight] ∧
    (∀ n op, s.ops[n]? = some op → op.state = .inFlight → n = 1) ∧
    ∃ s', (stages id).next s (.finish 1 ⟨0, none⟩) = some s' ∧ s'.Alone := by
  have hs := Machine.reach_run Awaited awaitedRun (ready_init id) rfl
  obtain ⟨hone, hkeeps⟩ := one_operation_in_flight hs
  refine ⟨_, hs, rfl, fun n op hn hop => ?_, _, rfl, (hkeeps (.finish 1 ⟨0, none⟩) _ rfl).mpr trivial⟩
  exact hone n 1 op _ hn rfl hop rfl

/-- **Two operations in flight**: the graceful kill timeout elapses while the
transport is still at the cancelled Stage, `Run` returns, and the next Stage's
operation begins. -/
theorem second_operation_in_flight : ∃ s, (stages id).exec ready (cancelledRun ++
      ([.move (.stop true), .run "after_script" none, .begin 1] : List Label)) = some s ∧
    s.ops.map Op.state = [.inFlight, .inFlight] :=
  ⟨_, rfl, rfl⟩

/-! ## A Stage of unknown outcome -/

theorem stageFailed_recordFailed {e : Executor} {stage stage' : String} {err : GoError}
    (h : stage = stage' ∨ (stageFailed e stage').isSome) :
    (stageFailed (e.recordFailed stage err) stage').isSome := by
  unfold stageFailed recordFailed
  rw [List.lookup_cons]
  cases hs : stage' == stage with
  | true => rfl
  | false =>
    rcases h with rfl | h
    · rw [beq_self_eq_true] at hs
      cases hs
    · exact h

/-- A result is recorded exactly if it has no exit status and either the
transport or `CheckLease` says why. -/
theorem judge_spec (normalize : Int → Int) (e : Executor) (stage : String) (r : StageResult)
    (lost : Option GoError) :
    (∃ err, (judge normalize e stage r lost).1 = e.recordFailed stage err) ∧
        noExitStatus r = true ∧ (r.err.isSome || lost.isSome) = true ∨
      (judge normalize e stage r lost).1 = e ∧
        (noExitStatus r = true → (r.err.isSome || lost.isSome) = false) := by
  obtain ⟨status, err⟩ := r
  unfold judge leaseLost stageError noExitStatus
  cases err with
  | some err =>
    cases lost with
    | none => exact .inl ⟨⟨_, rfl⟩, rfl, rfl⟩
    | some lost => exact .inl ⟨⟨_, rfl⟩, rfl, rfl⟩
  | none =>
    by_cases hneg : status < 0
    · have hne : status ≠ 0 := by omega
      cases lost with
      | none => simp [hneg, hne]
      | some lost => simp [hneg]
    · by_cases hne : status ≠ 0 <;> simp [hneg, hne]

/-- The `Run` under way has the result of unknown outcome of the Stage still to
look at. -/
def Deciding (s : Stages) (stage : String) : Prop :=
  ∃ n pc op r, s.running = some (n, pc) ∧ pc ≠ .stopping ∧ s.ops[n]? = some op ∧
    op.stage = stage ∧ op.state = .ended r ∧ noExitStatus r = true

/-- Every Stage of unknown outcome is recorded or about to be, and no goroutine
is left that has its call of the transport still to make. -/
structure Remembered (s : Stages) : Prop where
  known : ∀ stage ∈ s.unknown, (stageFailed s.exec stage).isSome ∨ s.Deciding stage
  begun : ∀ n op, s.ops[n]? = some op → op.state = .spawned → ∃ pc, s.running = some (n, pc)

/-- What a move must not do to a Stage of unknown outcome: be overtaken by the
end of the context, or take the result for the script's own failure. And the
timer must not fire before the transport is called. -/
def keeps (unknown : List String) (op : Op) : RunPc → Move → Bool
  | .judging r, .judge lost => op.stage ∉ unknown || (r.err.isSome || lost.isSome)
  | .stopping, .stop true => op.state ≠ .spawned
  | .selecting, .done | .received _, .check _ | .expiring _, .expire false =>
    op.stage ∉ unknown || op.ctx.isNone
  | _, _ => true

/-- No step leaves a Stage of unknown outcome behind that may run again. -/
def Remembers (s : Stages) : Label → Prop
  | .move m => ∀ x ∈ s.running, ∀ op ∈ s.ops[x.1]?, keeps s.unknown op x.2 m = true
  | _ => True

instance (s : Stages) : DecidablePred s.Remembers := fun l => by
  unfold Remembers
  split <;> infer_instance

theorem remembers_move (hrun : s.running = some (n, pc)) (hop : s.ops[n]? = some op) :
    Remembers s (.move m) ↔ keeps s.unknown op pc m = true := by
  refine ⟨fun h => h _ hrun op hop, fun h => ?_⟩
  intro x hx y hy
  obtain rfl : (n, pc) = x := some.inj (hrun.symm.trans hx)
  obtain rfl : op = y := some.inj (hop.symm.trans hy)
  exact h

theorem Deciding.setOp (hd : s.Deciding stage) (hop : s.ops[n]? = some op) (op' : Op)
    (hstage : op'.stage = op.stage) (hstate : op.ended = true → op'.state = op.state) :
    (s.setOp n op').Deciding stage := by
  obtain ⟨k, pc, x, r, hrun, hpc, hx, hxs, hxr, hr⟩ := hd
  by_cases hk : n = k
  · subst hk
    obtain rfl : op = x := some.inj (hop.symm.trans hx)
    have hended : op.ended = true := by rw [Op.ended, hxr]
    refine ⟨n, pc, op', r, hrun, hpc, ?_, hstage.trans hxs, (hstate hended).trans hxr, hr⟩
    exact List.getElem?_set_self (List.getElem?_eq_some_iff.mp hop).1
  · exact ⟨k, pc, x, r, hrun, hpc, (List.getElem?_set_ne hk).trans hx, hxs, hxr, hr⟩

/-- An operation that ends without an exit status while everything is live is the
one that the `Run` under way waits for at its first `select`. -/
theorem Fits.selecting (hf : Fits s n op) (hstate : op.state = .inFlight)
    (hlive : s.live op = true) : s.running = some (n, .selecting) := by
  have hended : op.ended = false := by rw [Op.ended, hstate]
  have hctx : op.ctx = none := by
    by_contra hctx
    exact absurd (hlive.symm.trans (hf.dead hended hctx)) nofun
  have hrun : ∃ pc, s.running = some (n, pc) := by
    by_contra hno
    exact hf.left (fun pc hpc => hno ⟨pc, hpc⟩) hended hctx
  obtain ⟨pc, hpc⟩ := hrun
  have hcarried : ∀ r, pc.result ≠ some r := by
    intro r hr
    rw [hf.carries hpc hr] at hstate
    cases hstate
  cases pc with
  | selecting => exact hpc
  | received r => exact absurd rfl (hcarried r)
  | expiring r => exact absurd rfl (hcarried r)
  | judging r => exact absurd rfl (hcarried r)
  | stopping => exact absurd hctx (hf.stopping hpc)

/-- One operation changes, and its goroutine does not go back to its start. -/
theorem Remembered.setOp (hr : s.Remembered) (hop : s.ops[n]? = some op) (op' : Op)
    (hstage : op'.stage = op.stage) (hended : op.ended = true → op'.state = op.state)
    (hspawned : op'.state = .spawned → op.state = .spawned) : (s.setOp n op').Remembered where
  known stage hmem := (hr.known stage hmem).imp id fun hd => hd.setOp hop op' hstage hended
  begun k x hx hstate := by
    obtain ⟨rfl, rfl⟩ | ⟨-, hx⟩ := lookup_set hx
    · exact hr.begun k op hop (hspawned hstate)
    · exact hr.begun k x hx hstate

theorem Remembered.finish (hs : s.Sound) (hr : s.Remembered) (hop : s.ops[n]? = some op)
    (hstate : op.state = .inFlight) (r : StageResult) :
    ({ s.setOp n { op with state := .ended r } with
      unknown := if noExitStatus r && s.live op then op.stage :: s.unknown else s.unknown } :
        Stages).Remembered := by
  have hset : (s.setOp n { op with state := .ended r }).Remembered := by
    refine hr.setOp hop _ rfl (fun hended => ?_) nofun
    rw [Op.ended, hstate] at hended
    cases hended
  refine ⟨fun stage hmem => ?_, hset.begun⟩
  by_cases hunknown : (noExitStatus r && s.live op) = true
  · dsimp only at hmem
    rw [if_pos hunknown] at hmem
    obtain ⟨hnoexit, hlive⟩ := Bool.and_eq_true_iff.mp hunknown
    rcases List.mem_cons.mp hmem with rfl | hmem
    · refine .inr ⟨n, .selecting, { op with state := .ended r }, r,
        (hs.fits hop).selecting hstate hlive, nofun, ?_, rfl, rfl, hnoexit⟩
      exact List.getElem?_set_self (List.getElem?_eq_some_iff.mp hop).1
    · exact hset.known stage hmem
  · dsimp only at hmem
    rw [if_neg hunknown] at hmem
    exact hset.known stage hmem

theorem Remembered.move {pc pc' : RunPc} (hr : s.Remembered) (hrun : s.running = some (n, pc))
    (hop : s.ops[n]? = some op) (h : Advance op pc m pc') (hok : keeps s.unknown op pc m = true) :
    ({ s with running := some (n, pc') } : Stages).Remembered where
  known stage hmem := by
    refine (hr.known stage hmem).imp id ?_
    rintro ⟨k, pc₁, x, r, hrun', hpc, hx, rfl, hxr, hnoexit⟩
    obtain ⟨rfl, rfl⟩ : n = k ∧ pc = pc₁ := Prod.mk.inj (some.inj (hrun.symm.trans hrun'))
    obtain rfl : op = x := some.inj (hop.symm.trans hx)
    refine ⟨n, pc', op, r, rfl, ?_, hop, rfl, hxr, hnoexit⟩
    rintro rfl
    cases h with
    | done hctx =>
      have hmem' : op.stage ∈ s.unknown := hmem
      simp [keeps, hmem', hctx] at hok
  begun k x hx hstate := by
    obtain ⟨pc₁, hpc⟩ := hr.begun k x hx hstate
    obtain ⟨rfl, -⟩ : n = k ∧ pc = pc₁ := Prod.mk.inj (some.inj (hrun.symm.trans hpc))
    exact ⟨pc', rfl⟩

theorem Leaves.recorded {e : Executor} (h : Leaves normalize e op pc m out)
    (hrec : (stageFailed e stage).isSome) : (stageFailed out.1 stage).isSome := by
  cases h with
  | expired _ => exact hrec
  | expiredLate _ => exact hrec
  | stopped _ => exact hrec
  | @judged r lost =>
    obtain ⟨⟨err, herr⟩, -⟩ | ⟨hsame, -⟩ := judge_spec normalize e op.stage r lost
    · rw [herr]
      exact stageFailed_recordFailed (.inr hrec)
    · rw [hsame]
      exact hrec

theorem Remembered.leave (hs : s.Sound) (hr : s.Remembered) (hrun : s.running = some (n, pc))
    (hop : s.ops[n]? = some op) (h : Leaves normalize s.exec op pc m out)
    (hok : keeps s.unknown op pc m = true) : (s.leave n op out).Remembered where
  known stage hmem := by
    rcases hr.known stage hmem with hrec | ⟨k, pc₁, x, r, hrun', hpc, hx, rfl, hxr, hnoexit⟩
    · exact .inl (h.recorded hrec)
    -- the Stage is the one under way: only a judgement that records it is allowed
    obtain ⟨rfl, rfl⟩ : n = k ∧ pc = pc₁ := Prod.mk.inj (some.inj (hrun.symm.trans hrun'))
    obtain rfl : op = x := some.inj (hop.symm.trans hx)
    have hmem' : op.stage ∈ s.unknown := hmem
    cases h with
    | expired hctx => simp [keeps, hmem', hctx] at hok
    | expiredLate hctx => simp [keeps, hmem', hctx] at hok
    | stopped _ => exact absurd rfl hpc
    | @judged r' lost =>
      obtain rfl : r' = r :=
        OpState.ended.inj (((hs.fits hop).carries hrun rfl).symm.trans hxr)
      obtain ⟨⟨err, herr⟩, -⟩ | ⟨-, hnot⟩ := judge_spec normalize s.exec op.stage r' lost
      · left
        show (stageFailed (judge normalize s.exec op.stage r' lost).1 op.stage).isSome
        rw [herr]
        exact stageFailed_recordFailed (.inl rfl)
      · have hnone := hnot hnoexit
        simp [keeps, hmem', hnone] at hok
  begun k x hx hstate := by
    obtain ⟨rfl, rfl⟩ | ⟨hk, hx⟩ := lookup_set hx
    · have hspawned : op.state = .spawned := hstate
      rcases (hs.fits hop).ended_of_leaves hrun h with hended | ⟨rfl, rfl⟩
      · rw [Op.ended, hspawned] at hended
        cases hended
      · simp [keeps, hspawned] at hok
    · obtain ⟨pc₁, hpc⟩ := hr.begun k x hx hstate
      exact absurd hpc (running_other hrun hk)

/-- A step that meets the condition forgets no Stage of unknown outcome. -/
theorem Remembered.stepped (hs : s.Sound) (hr : s.Remembered) (h : Stepped normalize s l s')
    (hok : Remembers s l) : s'.Remembered := by
  cases h with
  | refused _ => exact ⟨hr.known, hr.begun⟩
  | started hrun _ =>
    refine ⟨fun stage hmem => ?_, fun k x hx hstate => ?_⟩
    · refine (hr.known stage hmem).imp id ?_
      rintro ⟨k, pc, _, _, hpc, _⟩
      rw [hrun] at hpc
      cases hpc
    · obtain ⟨-, hx⟩ | ⟨rfl, -⟩ := lookup_concat hx
      · obtain ⟨pc, hpc⟩ := hr.begun k x hx hstate
        rw [hrun] at hpc
        cases hpc
      · exact ⟨_, rfl⟩
  | begun hop hstate =>
    refine hr.setOp hop _ rfl (fun hended => ?_) nofun
    rw [Op.ended, hstate] at hended
    cases hended
  | finished hop hstate => exact hr.finish hs hop hstate _
  | cancelled hop => exact hr.setOp hop _ rfl (fun _ => rfl) id
  | propagated hop _ => exact hr.setOp hop _ rfl (fun _ => rfl) id
  | watched hop _ => exact hr.setOp hop _ rfl (fun _ => rfl) id
  | handleDone => exact ⟨hr.known, hr.begun⟩
  | abort => exact ⟨hr.known, hr.begun⟩
  | moved hrun hop hadv => exact hr.move hrun hop hadv ((remembers_move hrun hop).mp hok)
  | left hrun hop hleaves => exact hr.leave hs hrun hop hleaves ((remembers_move hrun hop).mp hok)

end Stages

end FlintlockRunner.Executor

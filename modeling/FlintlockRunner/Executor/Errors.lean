import FlintlockRunner.Base.Errors

/-!
# Errors as the Executor handles them

The run loop looks for a `*common.BuildError` in an error with `errors.As`, and so
does the Executor: what carries one is final, anything else makes the run loop try
again.

`BuildError` is gitlab-runner's; its text is taken to be its cause's.
-/

namespace FlintlockRunner.Executor

/-- `spec.JobFailureReason`: the reasons the Executor gives, and any other that
an error of gitlab-runner's own may carry. -/
inductive FailureReason
  | runnerSystemFailure
  | runnerUnsupported
  | configurationError
  | scriptFailure
  | jobExecutionTimeout
  | other (text : String)
  deriving DecidableEq, Repr

/-- `common.BuildError`, beside the error it wraps. -/
structure BuildError where
  reason : FailureReason
  exitCode : Int
  deriving DecidableEq, Repr

/-- An error of the Executor. -/
abbrev GoError := Go.Err Empty BuildError

namespace GoError

/-- `Error`. -/
def text (e : GoError) : String := Go.Err.text nofun e

/-- The error is itself a `*common.BuildError`. -/
def IsBuild (e : GoError) : Prop := ∃ b inner, e = .typed b inner

theorem IsBuild.as {e : GoError} (h : e.IsBuild) : e.as.isSome := by
  obtain ⟨b, inner, rfl⟩ := h
  rfl

end GoError

/-- `buildErr`. -/
def buildErr (reason : FailureReason) (inner : GoError) : GoError := .typed ⟨reason, 0⟩ inner

theorem isBuild_buildErr (reason : FailureReason) (inner : GoError) :
    (buildErr reason inner).IsBuild := ⟨⟨reason, 0⟩, inner, rfl⟩

end FlintlockRunner.Executor

import FlintlockRunner.Scheduler.State

/-!
# The Scheduler's functions, one critical section at a time

Every function of the Scheduler that takes a lock more than once, waits or
makes a call is a `Frame`: its locals and the point it has reached. `step` runs
a frame from one point to the next, which is one lock section, one outside call
or one wait, so a run of the Scheduler interleaves exactly where the code can
be preempted.

What the step needs from outside comes in an `Answer`: the outcome of a call to
the Pool Manager, which ready case a `select` took, whether a caller's context
is done, the order a `range` over a map took. What other code learns from the
step goes out as an `Obs`. A goroutine started through `inBackground` has the
frame `wgDone` at the bottom of its stack, which is the deferred `wg.Done`.
-/

namespace FlintlockRunner.Scheduler

/-! ## What comes in and what goes out -/

/-- The classes of `ClaimVM` errors the Scheduler tells apart. -/
inductive ClaimError
  | exhausted
  | notFound
  | unavailable
  | aborted
  | other
  deriving DecidableEq, Repr

/-- The classes of `Heartbeat` and `ReleaseVM` errors the Scheduler tells
apart. -/
inductive CallError
  | notFound
  | other
  deriving DecidableEq, Repr

/-- What one Host of a placement lookup answers. -/
inductive HostAnswer
  | notInInventory
  | found
  | notFound
  | unreachable
  deriving DecidableEq, Repr

/-- What `ResolvePlacement` reads outside the Scheduler: whether the Host
Registry knows the claim's Host, or the Pool's Hosts with their answers and
whether the Job's context was done after each. -/
inductive PlacementAnswer
  | endpoint (known : Bool)
  | lookup (hosts : List (String × HostAnswer × Bool))
  deriving DecidableEq, Repr

/-- What the environment contributes to one step. -/
inductive Answer
  | go
  | ctx (done : Bool)
  | timer
  | deadline
  | channel
  | contacted (yes : Bool)
  | warm (n : Int)
  | claimVM (r : Except ClaimError Claim) (ctxDone : Bool)
  | placement (a : PlacementAnswer)
  | heartbeat (r : Except CallError Time)
  | releaseVM (r : Except CallError Unit)
  | probe (ok : Bool)
  | order (hs : List Handle)

structure JobInfo where
  id : Int
  image : String
  deriving DecidableEq, Repr, Inhabited

/-- The causes an `AllocationError` carries. -/
inductive AllocationCause
  | contextDone
  | profileLimit
  | allocationTimeout
  | shutdown
  | poolManager
  | placementUnresolved
  | hostNotInInventory
  | reservationReleased (r : Nat)
  deriving DecidableEq, Repr

/-- The errors `Allocate` returns. -/
inductive AllocateError
  | noReservation
  | noProfile (image : String)
  | notRunning
  | allocation (profile : String) (pool : PoolRef) (host : String)
      (cause : AllocationCause)
  deriving DecidableEq, Repr

/-- How one `releaseLease` ladder ended. -/
inductive LadderEnd
  | released
  | alreadyGone
  | retriesUsedUp
  | cutShort
  deriving DecidableEq, Repr

/-- What a step lets other code see. -/
inductive Obs
  | granted (r : Nat)
  | refused (reason : Option RefusalReason)
  | claimed (leaseID : String)
  | created (h : Handle)
  | allocated (h : Handle)
  | allocateFailed (e : AllocateError)
  | heartbeatAnswered (h : Nat) (expiresAt : Time)
  | lost (h : Nat) (cause : Cause)
  | releaseStarted (leaseID : String)
  | releaseEnded (leaseID : String) (how : LadderEnd)
  deriving DecidableEq

/-! ## Program points -/

/-- `Reserve`. -/
inductive ReservePc
  | called
  | checkingState
  | checkingContact
  | counting
  | granting (warm : Int)

/-- What one `Allocate` call keeps to its end. -/
structure Request where
  r : Nat
  job : JobInfo
  p : Profile
  deadline : Time

/-- `Allocate`, with `awaitProfileLimit`, `claim`, `waitToRetry`, `allocated`,
`startHeartbeat` and `startAgentProbe` inlined. -/
inductive AllocatePc
  | entering
  | limited (free : Nat)
  | claiming (attempt : Nat)
  | retrying (attempt : Nat) (backoff : Time)
  | checking (claim : Claim)
  | placing (claim : Claim) (lease : Lease) (claimedAt : Time)
  | numbering (claim : Claim) (lease : Lease) (claimedAt : Time) (placement : Placement)
  | converting (h : Handle)
  | installing (h : Handle)
  | spawning (h : Handle)
  | probing (h : Handle)
  | returning (h : Handle)
  | abandoning (lease : Lease) (e : AllocateError)
  | leaving (e : AllocateError)

/-- `Release` and `endAllocation`. -/
inductive EndPc
  | finishing
  | stoppingOnly
  | stopping
  | checkingGone
  | releasing

/-- `Retain`. -/
inductive RetainPc
  | called
  | finishing
  | stoppingOnly
  | checkingGone
  | starting
  | stopping
  | releasing

/-- `retainThenRelease`. -/
inductive KeepPc
  | waiting (keep : Time)
  | stopping
  | checkingGone
  | releasing

/-- `releaseLease`. -/
inductive LadderPc
  | calling (attempt : Nat)
  | backingOff (attempt : Nat) (backoff : Time)

/-- `heartbeatLoop`, after its first lines. -/
inductive LoopPc
  | top (attempt : Nat)
  | reading (attempt : Nat)
  | comparing (attempt : Nat) (lease : Lease)
  | waiting (attempt : Nat) (lease : Lease) (timer : Time)
  | calling (attempt : Nat) (lease : Lease)
  | answered (attempt : Nat) (lease : Lease) (r : Except CallError Time)
  | settling (attempt : Nat) (lease : Lease) (r : Except CallError Time)

/-- `CheckLease`. -/
inductive CheckPc
  | called
  | holding
  | reading
  | calling (lease : Lease)
  | answered (lease : Lease) (r : Except CallError Time)
  | settling (lease : Lease) (r : Except CallError Time)
  | declaring (cause : Cause)

/-- `leaseLost`. -/
inductive LostPc
  | marking
  | failing
  | finishing

/-- `agentProbeLoop`, with `agentUnreachable`. -/
inductive ProbePc
  | starting
  | waiting (failures : Nat) (timer : Time)
  | holding (failures : Nat)
  | calling (failures : Nat)
  | answered (failures : Nat) (ok : Bool)
  | failing (failures : Nat)

/-- `hostUnhealthy` and `abortRunning`. -/
inductive AbortPc
  | snapshot
  | next (todo : List Handle)
  | failing (h : Handle) (todo : List Handle)

/-- `Run`, with `start` and `shutdown`. -/
inductive RunPc
  | starting
  | running
  | stopping
  | clearing
  | draining
  | awaiting (ch : Nat) (timer : Time)
  | closing
  | cancelling
  | waiting

/-- One activation of a Scheduler function. -/
inductive Frame
  | reserve (pc : ReservePc)
  | releaseReservation (r : Nat)
  | allocateCalled (r : Option Nat) (job : JobInfo) (p : Option Profile)
  | allocate (q : Request) (pc : AllocatePc)
  | release (h : Handle) (pc : EndPc)
  | endAllocation (h : Handle) (pc : EndPc)
  | retain (h : Handle) (pc : RetainPc)
  | retainThenRelease (h : Handle) (pc : KeepPc)
  | releaseLease (lease : Lease) (pc : LadderPc)
  | heartbeatStart (h : Handle)
  | heartbeatLoop (h : Handle) (interval : Duration) (pc : LoopPc)
  | heartbeatExit (h : Handle)
  | checkLease (h : Handle) (pc : CheckPc)
  | leaseLost (h : Handle) (cause : Cause) (pc : LostPc)
  | agentProbeLoop (h : Handle) (pc : ProbePc)
  | recordProbe (name : String) (ok : Bool)
  | hostUnhealthy (name : String) (pc : AbortPc)
  | abortRunning (pc : AbortPc)
  | run (pc : RunPc)
  | wgDone

/-- The Handles an activation names. -/
def Frame.handles : Frame → List Handle
  | .allocate _ pc =>
    match pc with
    | .converting h | .installing h | .spawning h | .probing h | .returning h => [h]
    | _ => []
  | .release h _ | .endAllocation h _ | .retain h _ | .retainThenRelease h _
  | .heartbeatStart h | .heartbeatLoop h _ _ | .heartbeatExit h | .checkLease h _
  | .leaseLost h _ _ | .agentProbeLoop h _ => [h]
  | .hostUnhealthy _ pc | .abortRunning pc =>
    match pc with
    | .snapshot => []
    | .next todo => todo
    | .failing h todo => h :: todo
  | _ => []

/-- The outcome of one step: the state, the frames that replace the one that
ran, the goroutines it started and what it let be seen. -/
structure Next where
  impl : Impl
  frames : List Frame
  spawned : List (List Frame) := []
  obs : List Obs := []

end FlintlockRunner.Scheduler

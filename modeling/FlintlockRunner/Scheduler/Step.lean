import FlintlockRunner.Scheduler.Frames
import FlintlockRunner.Base.Machine
import FlintlockRunner.Base.Threads

/-!
# The Scheduler as a machine

`step` runs the top frame of one goroutine to its next program point; each
function of the source has its own definition here, named after it. `Sys` is
the whole Scheduler: the shared state, the goroutines as call stacks, and the
history of what was seen. `machine` interleaves the goroutines' steps with new
calls and with the clock, so a run of it is an interleaving at lock-section
granularity with arbitrary answers from everything outside.

A caller can only pass a Handle that `Allocate` returned, which is the one
condition on calls (`Call.allowed`); Reservation ids are unrestricted. Timers
fire at or after their time, in any order with other ready cases.

`Run`'s own loops (the Tracker, the Host probes, `declareLoop`) share nothing
with the books kept here except `recordProbe`, which is a call of its own.
-/

namespace FlintlockRunner.Scheduler

namespace Next

/-- The function moves on to `fs`. -/
def goto (s : Impl) (fs : List Frame) : Option Next := some { impl := s, frames := fs }

/-- The function returns. -/
def ret (s : Impl) : Option Next := goto s []

/-- The function returns and lets `o` be seen. -/
def retObs (s : Impl) (o : Obs) : Option Next := some { impl := s, frames := [], obs := [o] }

end Next

open Next

/-! ## `capacity.go` -/

variable (c : Settings) (s : Impl)

/-- `Reserve`. -/
def stepReserve : ReservePc → Answer → Option Next
  | .called, .ctx done => if done then ret s else goto s [.reserve .checkingState]
  | .checkingState, .go =>
    match s.state with
    | .stopping => retObs s (.refused (some .shuttingDown))
    | .new | .stopped => ret s
    | .running => goto s [.reserve .checkingContact]
  | .checkingContact, .contacted yes =>
    if yes then goto s [.reserve .counting]
    else retObs s (.refused (some .poolManagerNotContacted))
  | .counting, .warm n => goto s [.reserve (.granting n)]
  | .granting warm, .go =>
    match s.grant c warm with
    | (s', .ok r) => retObs s' (.granted r)
    | (s', .error reason) => retObs s' (.refused reason)
  | _, _ => none

/-! ## `release.go` -/

/-- `releaseInBackground`, called by a function that goes on with `fs`: the
ladder runs in a goroutine, or inline once no goroutine may be started. -/
def releaseInBackground (lease : Lease) (fs : List Frame) : Option Next :=
  match s.inBackground with
  | (s', true) =>
    some { impl := s', frames := fs
           spawned := [[.releaseLease lease (.calling 0), .wgDone]]
           obs := [.releaseStarted lease.id] }
  | (s', false) =>
    some { impl := s', frames := .releaseLease lease (.calling 0) :: fs
           obs := [.releaseStarted lease.id] }

/-- The part `Release` and `endAllocation` share, from `finish` on; `miss` is
what the function does when it was not the one that ended the Allocation. -/
def stepEnd (frame : EndPc → Frame) (miss : List Frame) (s : Impl) (h : Handle) :
    EndPc → Answer → Option Next
  | .finishing, .go =>
    match s.finish h with
    | (s', true) => goto s' [frame .stopping]
    | (s', false) => goto s' miss
  | .stoppingOnly, .go => ret (s.stopHeartbeat h)
  | .stopping, .go => goto (s.stopHeartbeat h) [frame .checkingGone]
  | .checkingGone, .go => if s.leaseIsGone h then ret s else goto s [frame .releasing]
  | .releasing, .go => releaseInBackground s (s.lease h) []
  | _, _ => none

/-- `Release`: a Handle that was ended already still has its keep-alive
stopped. -/
def stepRelease (h : Handle) : EndPc → Answer → Option Next :=
  stepEnd (.release h) [.release h .stoppingOnly] s h

/-- `endAllocation`. -/
def stepEndAllocation (h : Handle) : EndPc → Answer → Option Next :=
  stepEnd (.endAllocation h) [] s h

/-- `Retain`. -/
def stepRetain (h : Handle) : RetainPc → Answer → Option Next
  | .called, .go =>
    if c.scheduler.keepOnFailure then goto s [.retain h .finishing]
    else goto s [.release h .finishing]
  | .finishing, .go =>
    match s.finish h with
    | (s', true) => goto s' [.retain h .checkingGone]
    | (s', false) => goto s' [.retain h .stoppingOnly]
  | .stoppingOnly, .go => ret (s.stopHeartbeat h)
  | .checkingGone, .go =>
    if s.leaseIsGone h then goto s [.retain h .stoppingOnly]
    else goto s [.retain h .starting]
  | .starting, .go =>
    match s.inBackground with
    | (s', true) =>
      some { impl := s', frames := []
             spawned := [[.retainThenRelease h (.waiting (s.now + c.keepDuration)), .wgDone]] }
    | (s', false) => goto s' [.retain h .stopping]
  | .stopping, .go => goto (s.stopHeartbeat h) [.retain h .releasing]
  | .releasing, .go =>
    some { impl := s, frames := [.releaseLease (s.lease h) (.calling 0)]
           obs := [.releaseStarted (s.lease h).id] }
  | _, _ => none

/-- `retainThenRelease`: it ends early when the Lease is lost anyway or the
Scheduler has shut down. -/
def stepRetainThenRelease (h : Handle) : KeepPc → Answer → Option Next
  | .waiting keep, .timer =>
    if keep ≤ s.now then goto s [.retainThenRelease h .stopping] else none
  | .waiting _, .channel =>
    if s.done h || s.bgDone then goto s [.retainThenRelease h .stopping] else none
  | .stopping, .go => goto (s.stopHeartbeat h) [.retainThenRelease h .checkingGone]
  | .checkingGone, .go =>
    if s.leaseIsGone h then ret s else goto s [.retainThenRelease h .releasing]
  | .releasing, .go =>
    some { impl := s, frames := [.releaseLease (s.lease h) (.calling 0)]
           obs := [.releaseStarted (s.lease h).id] }
  | _, _ => none

/-- `releaseLease`: the retry ladder. -/
def stepReleaseLease (lease : Lease) :
    LadderPc → Answer → Option Next
  | .calling attempt, .releaseVM r =>
    match r with
    | .ok () => retObs s (.releaseEnded lease.id .released)
    | .error .notFound => retObs s (.releaseEnded lease.id .alreadyGone)
    | .error .other =>
      if (attempt : Int) ≥ c.releaseRetryLimit then
        retObs s (.releaseEnded lease.id .retriesUsedUp)
      else goto s [.releaseLease lease (.backingOff attempt (s.now + c.backoff attempt))]
  | .backingOff attempt backoff, .timer =>
    if backoff ≤ s.now then goto s [.releaseLease lease (.calling (attempt + 1))] else none
  | .backingOff _ _, .channel =>
    if s.bgDone then retObs s (.releaseEnded lease.id .cutShort) else none
  | _, _ => none

/-! ## `allocate.go`, `placement.go` -/

/-- The loop of `placementFromLookup`: the first Host that has the MicroVM. A
Host that is not in the Inventory is skipped before its context check. -/
def lookupHost : List (String × HostAnswer × Bool) → Option (Except Unit String)
  | [] => none
  | (_, .notInInventory, _) :: rest => lookupHost rest
  | (name, .found, _) :: _ => some (.ok name)
  | (_, _, ctxDone) :: rest => if ctxDone then some (.error ()) else lookupHost rest

/-- `ResolvePlacement`: the cached Placement, the Host the claim names, or the
first of the Pool's Hosts that has the MicroVM. -/
def resolvePlacement (p : Profile) (claim : Claim) :
    Answer → Option (Except AllocateError Placement)
  | .placement a =>
    match s.cachedPlacement claim.vmUID with
    | some cached => some (.ok cached)
    | none =>
      if claim.host.name = "" then
        match a with
        | .lookup hosts =>
          match lookupHost hosts with
          | some (.ok name) => some (.ok ⟨name, .lookup, s.now⟩)
          | some (.error ()) => some (.error (.allocation p.name p.poolRef "" .contextDone))
          | none => some (.error (.allocation p.name p.poolRef "" .placementUnresolved))
        | .endpoint _ => none
      else if c.poolManager.isClaim then some (.ok ⟨claim.host.name, .claim, s.now⟩)
      else
        match a with
        | .endpoint true => some (.ok ⟨claim.host.name, .claim, s.now⟩)
        | .endpoint false =>
          some (.error (.allocation p.name p.poolRef claim.host.name .hostNotInInventory))
        | .lookup _ => none
  | _ => none

/-- `Allocate` up to the first wait. -/
def stepAllocateCalled (r : Option Nat) (job : JobInfo)
    (p : Option Profile) : Answer → Option Next
  | .go =>
    match r, p with
    | none, _ => retObs s (.allocateFailed .noReservation)
    | some _, none => retObs s (.allocateFailed (.noProfile job.image))
    | some r, some p =>
      match s.state with
      | .new | .stopped => retObs s (.allocateFailed .notRunning)
      | .stopping =>
        retObs s (.allocateFailed (.allocation p.name p.poolRef "" .shutdown))
      | .running =>
        goto s [.allocate ⟨r, job, p, s.now + c.allocationTimeout⟩ .entering]
  | _ => none

/-- `Allocate` from `awaitProfileLimit` on. Every exit after the unit was
taken and before the Allocation exists passes `leaving`, which returns it. -/
def stepAllocate (q : Request) :
    AllocatePc → Answer → Option Next
  | .entering, .go =>
    match s.enterProfile q.p with
    | (s', true, _) => goto s' [.allocate q (.claiming 0)]
    | (s', false, free) => goto s' [.allocate q (.limited free)]
  | .limited free, .channel =>
    if s.freeClosed free then goto s [.allocate q .entering] else none
  | .limited _, .ctx true =>
    retObs s (.allocateFailed (.allocation q.p.name q.p.poolRef "" .contextDone))
  | .limited _, .deadline =>
    if q.deadline ≤ s.now then
      retObs s (.allocateFailed (.allocation q.p.name q.p.poolRef "" .profileLimit))
    else none
  | .claiming attempt, .claimVM r ctxDone =>
    match r with
    | .ok claim =>
      some { impl := s, frames := [.allocate q (.checking claim)]
             obs := [.claimed claim.leaseID] }
    | .error .other =>
      goto s [.allocate q (.leaving (.allocation q.p.name q.p.poolRef ""
        (if ctxDone then .contextDone else .poolManager)))]
    | .error _ => goto s [.allocate q (.retrying attempt (s.now + c.backoff attempt))]
  | .retrying attempt backoff, .timer =>
    if backoff ≤ s.now then goto s [.allocate q (.claiming (attempt + 1))] else none
  | .retrying attempt _, .channel => goto s [.allocate q (.claiming (attempt + 1))]
  | .retrying _ _, .deadline =>
    if q.deadline ≤ s.now then
      goto s [.allocate q
        (.leaving (.allocation q.p.name q.p.poolRef "" .allocationTimeout))]
    else none
  | .retrying _ _, .ctx true =>
    goto s [.allocate q (.leaving (.allocation q.p.name q.p.poolRef "" .contextDone))]
  | .checking claim, .ctx ctxDone =>
    let lease : Lease := ⟨claim.leaseID, q.p.poolRef, s.now + leaseExpiry q.p, none⟩
    if ctxDone then
      goto s [.allocate q (.abandoning lease
        (.allocation q.p.name q.p.poolRef claim.host.name .contextDone))]
    else goto s [.allocate q (.placing claim lease s.now)]
  | .placing claim lease claimedAt, a =>
    (resolvePlacement c s q.p claim a).bind fun
      | .error e => goto s [.allocate q (.abandoning lease e)]
      | .ok placement => goto s [.allocate q (.numbering claim lease claimedAt placement)]
  | .numbering claim lease claimedAt placement, .go =>
    let alloc : Allocation :=
      { jobID := q.job.id, profile := q.p.name, vmUID := claim.vmUID, lease := lease,
        placement := placement, host := claim.host, reservationID := q.r,
        claimedAt := claimedAt }
    match s.newHandle alloc with
    | (s', h) =>
      some { impl := s', frames := [.allocate q (.converting h)], obs := [.created h] }
  | .converting h, .go =>
    match s.convert q.r h with
    | (s', true) => goto s' [.allocate q (.installing h)]
    | (s', false) =>
      goto s' [.allocate q (.abandoning h.alloc.lease
        (.allocation q.p.name q.p.poolRef h.alloc.placement.host (.reservationReleased q.r)))]
  | .installing h, .go => goto (s.installHeartbeat h) [.allocate q (.spawning h)]
  | .spawning h, .go =>
    match s.inBackground with
    | (s', true) =>
      some { impl := s', frames := [.allocate q (.probing h)]
             spawned := [[.heartbeatStart h, .heartbeatExit h, .wgDone]] }
    | (s', false) => goto (s'.cancelHeartbeat h) [.allocate q (.returning h)]
  | .probing h, .go =>
    if c.agents then
      match s.inBackground with
      | (s', true) =>
        some { impl := s', frames := [.allocate q (.returning h)]
               spawned := [[.agentProbeLoop h .starting, .wgDone]] }
      | (s', false) => goto s' [.allocate q (.returning h)]
    else goto s [.allocate q (.returning h)]
  | .returning h, .go => retObs s (.allocated h)
  | .abandoning lease e, .go => releaseInBackground s lease [.allocate q (.leaving e)]
  | .leaving e, .go => retObs (s.leaveProfile q.p) (.allocateFailed e)
  | _, _ => none

/-! ## `heartbeat.go` -/

/-- `leaseLost`: no release call is made. -/
def stepLeaseLost (h : Handle) (cause : Cause) : LostPc → Answer → Option Next
  | .marking, .go => goto (s.markLeaseGone h) [.leaseLost h cause .failing]
  | .failing, .go => goto (s.fail h cause) [.leaseLost h cause .finishing]
  | .finishing, .go => ret (s.finish h).1
  | _, _ => none

/-- A call of `leaseLost` that is the caller's last action. -/
def declareLost (h : Handle) (cause : Cause) : Option Next :=
  some { impl := s, frames := [.leaseLost h cause .marking], obs := [.lost h.id cause] }

/-- The Lease a successful heartbeat records. -/
def Lease.renewed (l : Lease) (expiresAt now : Time) : Lease :=
  { l with expiresAt := expiresAt, lastHeartbeatAt := some now }

/-- What a `Heartbeat` answer lets be seen: an expiry that came back. -/
def heartbeatObs (h : Handle) : Except CallError Time → List Obs
  | .ok e => [.heartbeatAnswered h.id e]
  | .error _ => []

/-- `heartbeatLoop`. The Lease is read under the Handle's lock and compared
with the clock after that lock is released; the call deliberately survives
cancellation. -/
def stepHeartbeatLoop (h : Handle) (interval : Duration) :
    LoopPc → Answer → Option Next
  | .top attempt, .go =>
    if s.heartbeatCtxDone h then ret s
    else goto s [.heartbeatLoop h interval (.reading attempt)]
  | .reading attempt, .go =>
    goto s [.heartbeatLoop h interval (.comparing attempt (s.lease h))]
  | .comparing attempt lease, .go =>
    if lease.expiresAt ≤ s.now then
      declareLost s h (.leaseExpired lease.id lease.expiresAt)
    else
      goto s [.heartbeatLoop h interval (.waiting attempt lease
        (s.now + heartbeatDelay lease s.now interval c.backoff attempt))]
  | .waiting attempt lease timer, .timer =>
    if timer ≤ s.now then goto s [.heartbeatLoop h interval (.calling attempt lease)]
    else none
  | .waiting _ _ _, .channel =>
    if s.heartbeatCtxDone h || s.done h then ret s else none
  | .calling attempt lease, .heartbeat r =>
    some { impl := s, frames := [.heartbeatLoop h interval (.answered attempt lease r)]
           obs := heartbeatObs h r }
  | .answered attempt lease r, .go =>
    if s.heartbeatCtxDone h then ret s
    else goto s [.heartbeatLoop h interval (.settling attempt lease r)]
  | .settling attempt lease r, .go =>
    match r with
    | .ok e =>
      goto (s.setLease h (lease.renewed e s.now)) [.heartbeatLoop h interval (.top 0)]
    | .error .notFound => declareLost s h (.leaseGone lease.id)
    | .error .other => goto s [.heartbeatLoop h interval (.top (attempt + 1))]
  | _, _ => none

/-- `CheckLease`. The Allocation can end while the call is in flight, so it is
looked up again before the answer is used; the expiry compared is the one read
before the call. -/
def stepCheckLease (h : Handle) : CheckPc → Answer → Option Next
  | .called, .go => if s.done h then ret s else goto s [.checkLease h .holding]
  | .holding, .go => if s.holds h then goto s [.checkLease h .reading] else ret s
  | .reading, .go => goto s [.checkLease h (.calling (s.lease h))]
  | .calling lease, .heartbeat r =>
    some { impl := s, frames := [.checkLease h (.answered lease r)], obs := heartbeatObs h r }
  | .answered lease r, .go =>
    if s.holds h then goto s [.checkLease h (.settling lease r)] else ret s
  | .settling lease r, .go =>
    match r with
    | .ok e => ret (s.setLease h (lease.renewed e s.now))
    | .error .notFound => goto s [.checkLease h (.declaring (.leaseGone lease.id))]
    | .error .other =>
      if lease.expiresAt ≤ s.now then
        goto s [.checkLease h (.declaring (.leaseExpired lease.id lease.expiresAt))]
      else ret s
  | .declaring cause, .go => if s.done h then ret s else declareLost s h cause
  | _, _ => none

/-! ## `agentprobe.go`, `health.go` -/

/-- `agentProbeLoop`: a passing probe resets the count of failures. -/
def stepAgentProbeLoop (h : Handle) :
    ProbePc → Answer → Option Next
  | .starting, .go =>
    goto s [.agentProbeLoop h (.waiting 0 (s.now + c.hostHealthInterval))]
  | .waiting failures timer, .timer =>
    if timer ≤ s.now then goto s [.agentProbeLoop h (.holding failures)] else none
  | .waiting _ _, .channel =>
    if s.heartbeatCtxDone h || s.done h then ret s else none
  | .holding failures, .go =>
    if s.holds h then goto s [.agentProbeLoop h (.calling failures)] else ret s
  | .calling failures, .probe ok => goto s [.agentProbeLoop h (.answered failures ok)]
  | .answered failures ok, .go =>
    if s.heartbeatCtxDone h || !s.holds h then ret s
    else if ok then
      goto s [.agentProbeLoop h (.waiting 0 (s.now + c.hostHealthInterval))]
    else if ((failures + 1 : Nat) : Int) ≥ c.hostUnhealthyThreshold then
      goto s [.agentProbeLoop h (.failing (failures + 1))]
    else
      goto s [.agentProbeLoop h (.waiting (failures + 1) (s.now + c.hostHealthInterval))]
  | .failing failures, .go =>
    goto (s.fail h (.agentUnreachable h.alloc.lease.id failures))
      [.endAllocation h .finishing]
  | _, _ => none

/-- The loop `hostUnhealthy` and `abortRunning` share: fail and end every live
Allocation that is `mine`, in whatever order `liveHandles` listed them. -/
def stepAbort (frame : AbortPc → Frame) (mine : Handle → Bool) (cause : Cause) (s : Impl) :
    AbortPc → Answer → Option Next
  | .snapshot, .order hs => if hs.Perm s.liveHandles then goto s [frame (.next hs)] else none
  | .next [], .go => ret s
  | .next (h :: todo), .go =>
    if mine h then goto s [frame (.failing h todo)] else goto s [frame (.next todo)]
  | .failing h todo, .go =>
    goto (s.fail h cause) [.endAllocation h .finishing, frame (.next todo)]
  | _, _ => none

/-- `hostUnhealthy`. -/
def stepHostUnhealthy (name : String) : AbortPc → Answer → Option Next :=
  stepAbort (.hostUnhealthy name) (fun h => h.alloc.placement.host = name)
    (.hostUnhealthy name) s

/-- `abortRunning`. -/
def stepAbortRunning : AbortPc → Answer → Option Next :=
  stepAbort .abortRunning (fun _ => true) .shutdown s

/-- `recordProbe`. -/
def stepRecordProbe (name : String) (ok : Bool) :
    Answer → Option Next
  | .go =>
    match s.recordProbe c.hostUnhealthyThreshold name ok with
    | (s', true) => goto s' [.hostUnhealthy name .snapshot]
    | (s', false) => ret s'
  | _ => none

/-! ## `scheduler.go` -/

/-- `Run`: `start`, the wait for the caller's context, `shutdown`, and the
wait for the background goroutines. -/
def stepRun : RunPc → Answer → Option Next
  | .starting, .go =>
    if s.state = .new then goto (s.setState .running) [.run .running] else ret s
  | .running, .ctx true => goto s [.run .stopping]
  | .stopping, .go => goto (s.setState .stopping) [.run .clearing]
  | .clearing, .go => goto s.clearReservations [.run .draining]
  | .draining, .go =>
    match s.drained with
    | (s', ch) => goto s' [.run (.awaiting ch (s.now + c.shutdownWait))]
  | .awaiting ch _, .channel => if s.drainClosed ch then goto s [.run .closing] else none
  | .awaiting _ timer, .timer =>
    if timer ≤ s.now then goto s [.abortRunning .snapshot, .run .closing] else none
  | .closing, .go => goto s.closeBackground [.run .cancelling]
  | .cancelling, .go => goto { s with bgCancelled := true } [.run .waiting]
  | .waiting, .go => if s.wg = 0 then ret (s.setState .stopped) else none
  | _, _ => none

/-! ## The whole Scheduler -/

/-- One step of the function at the top of a goroutine's stack. -/
def step : Frame → Answer → Option Next
  | .reserve pc, a => stepReserve c s pc a
  | .releaseReservation r, .go => ret (s.releaseReservation r)
  | .allocateCalled r job p, a => stepAllocateCalled c s r job p a
  | .allocate q pc, a => stepAllocate c s q pc a
  | .release h pc, a => stepRelease s h pc a
  | .endAllocation h pc, a => stepEndAllocation s h pc a
  | .retain h pc, a => stepRetain c s h pc a
  | .retainThenRelease h pc, a => stepRetainThenRelease s h pc a
  | .releaseLease lease pc, a => stepReleaseLease c s lease pc a
  | .heartbeatStart h, .go =>
    goto s [.heartbeatLoop h (heartbeatInterval s h.alloc.profile) (.top 0)]
  | .heartbeatLoop h interval pc, a => stepHeartbeatLoop c s h interval pc a
  | .heartbeatExit h, .go => ret (s.cancelHeartbeat h)
  | .checkLease h pc, a => stepCheckLease s h pc a
  | .leaseLost h cause pc, a => stepLeaseLost s h cause pc a
  | .agentProbeLoop h pc, a => stepAgentProbeLoop c s h pc a
  | .recordProbe name ok, a => stepRecordProbe c s name ok a
  | .hostUnhealthy name pc, a => stepHostUnhealthy s name pc a
  | .abortRunning pc, a => stepAbortRunning s pc a
  | .run pc, a => stepRun c s pc a
  | .wgDone, .go => ret { s with wg := s.wg - 1 }
  | _, _ => none

/-- The functions other code calls. -/
inductive Call
  | reserve
  | releaseReservation (r : Nat)
  | allocate (r : Option Nat) (job : JobInfo) (p : Option Profile)
  | release (h : Handle)
  | retain (h : Handle)
  | checkLease (h : Handle)
  | recordProbe (name : String) (ok : Bool)
  | run

/-- The frame a call starts with. -/
def Call.frame : Call → Frame
  | .reserve => .reserve .called
  | .releaseReservation r => .releaseReservation r
  | .allocate r job p => .allocateCalled r job p
  | .release h => .release h .finishing
  | .retain h => .retain h .called
  | .checkLease h => .checkLease h .called
  | .recordProbe name ok => .recordProbe name ok
  | .run => .run .starting

/-- The Handle a call names. -/
def Call.handle : Call → Option Handle
  | .release h | .retain h | .checkLease h => some h
  | _ => none

/-- The Scheduler with its goroutines and the history of what was seen. -/
structure Sys where
  impl : Impl
  threads : List (List Frame)
  trace : List Obs

variable (s : Sys)

/-- A caller can only name a Handle `Allocate` has returned. -/
def Call.allowed (call : Call) : Prop :=
  ∀ h ∈ call.handle, .allocated h ∈ s.trace

instance (s : Sys) (call : Call) : Decidable (call.allowed s) :=
  inferInstanceAs (Decidable (∀ h ∈ call.handle, Obs.allocated h ∈ s.trace))

/-- Who moves: a new call, a goroutine, or the clock. -/
inductive Label
  | call (call : Call)
  | step (i : Nat) (a : Answer)
  | tick (d : Nat)

/-- Start a call in a goroutine of its own. -/
def Sys.start (call : Call) : Sys :=
  { s with threads := s.threads ++ [[call.frame]] }

/-- The clock moves on. -/
def Sys.tick (d : Nat) : Sys :=
  { s with impl := { s.impl with now := s.impl.now + d } }

/-- Goroutine `i`, whose other frames are `rest`, takes a step. -/
def Sys.apply (i : Nat) (rest : List Frame) (n : Next) : Sys where
  impl := n.impl
  threads := Threads.advance s.threads i rest n.frames n.spawned
  trace := s.trace ++ n.obs

/-- One move of the Scheduler. -/
def Sys.next : Label → Option Sys
  | .call call => if call.allowed s then some (s.start call) else none
  | .step i a =>
    match s.threads[i]? with
    | some (f :: rest) => (step c s.impl f a).map (s.apply i rest)
    | _ => none
  | .tick d => some (s.tick d)

/-- The state `New` builds, at some time, from resolved Profiles and the
Inventory's Host table. -/
def Impl.new (now : Time) (profiles : List Profile)
    (hosts : AList fun _ : String => HostState) : Impl where
  now := now
  state := .new
  profiles := profiles
  reservations := ∅
  allocations := ∅
  placements := ∅
  profileUse := fun _ => 0
  profileFree := 0
  hosts := hosts
  drain := none
  drains := 0
  nextID := 0
  bgClosed := false
  bgCancelled := false
  wg := 0
  heap := fun _ => default

/-- A Scheduler that nobody has called yet. -/
def Sys.init (impl : Impl) : Sys := ⟨impl, [], []⟩

/-- The Scheduler as a labelled machine. `New` refuses settings without a
Slot. -/
def machine : Machine Sys Label where
  init s := 0 < c.slots ∧ ∃ now profiles hosts, s = Sys.init (Impl.new now profiles hosts)
  next := Sys.next c

/-! ## A first run -/

/-- Settings with one Slot and every default. -/
def oneSlot : Settings where
  slots := 1
  shutdownTimeout := 0
  scheduler := default
  poolManager := default
  agents := false
  backoff := fun _ => second

/-- A Profile of at most one Allocation. -/
def small : Profile := { (default : Profile) with name := "small", maxConcurrency := 1 }

/-- The Scheduler starts and grants a Reservation; a Job is allocated with
it. -/
def allocateRun : List Label :=
  [.call .run, .step 0 .go,
    .call .reserve, .step 1 (.ctx false), .step 1 .go, .step 1 (.contacted true),
    .step 1 (.warm 3), .step 1 .go,
    .call (.allocate (some 1) default (some small)), .step 2 .go, .step 2 .go,
    .step 2 (.claimVM (.ok ⟨"l", "vm", ⟨"host", ""⟩⟩) false), .step 2 (.ctx false),
    .step 2 (.placement (.endpoint true)), .step 2 .go, .step 2 .go]

/-- The Scheduler that run starts in. -/
def allocateStart : Sys := .init (.new 0 [small] ∅)

theorem allocateStart_init : (machine oneSlot).init allocateStart :=
  ⟨by decide, 0, [small], ∅, rfl⟩

end FlintlockRunner.Scheduler

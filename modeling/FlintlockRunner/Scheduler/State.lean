import FlintlockRunner.Config.Defaults
import FlintlockRunner.Poolmgr.Types
import Mathlib.Data.List.Perm.Subperm

/-!
# The Scheduler's state and its critical sections

`Impl` is the mutable part of `impl` in `internal/scheduler/scheduler.go`, and
the definitions over it are the lock sections of `capacity.go`, `release.go`,
`heartbeat.go` and `health.go`: each one is what a single hold of `s.mu` (or of
one Handle's own lock) does. Everything between two of them (network calls,
waits, log lines) is left to `Scheduler/Frames.lean`, which says in which order
a goroutine runs them.

- A Handle is a pointer: `Handle` holds what `newHandle` fixes for good, and
  `Impl.heap` holds, by the Handle's id, what its lock guards.
- A channel that is only ever closed is represented by when it was made:
  `profileFree` counts how often it was closed and replaced, and a drain
  channel is open while it is the one in `drain`.
- The counters of log throttling and of waiting Allocations, which no decision
  reads, are left out.
-/

namespace FlintlockRunner.Scheduler

/-- `Profile`: a configured Profile with the Pool it resolves to. -/
structure Profile extends Config.Profile where
  poolRef : PoolRef
  deriving DecidableEq, Inhabited

/-- What `Deps` and `Settings` fix for the Scheduler's life: the Slots, the
configuration sections, whether there is an `AgentProber`, and the backoff
policy. -/
structure Settings where
  slots : Int
  shutdownTimeout : Duration
  scheduler : Config.Scheduler
  poolManager : Config.PoolManager
  agents : Bool
  backoff : Nat → Duration

/-- Where `Run` is. -/
inductive RunState
  | new
  | running
  | stopping
  | stopped
  deriving DecidableEq, Repr, Inhabited

/-- Why `Reserve` gives no Slot. -/
inductive RefusalReason
  | noFreeSlot
  | noWarmMicroVM
  | poolManagerNotContacted
  | shuttingDown
  deriving DecidableEq, Repr

/-- Who said on which Host a MicroVM is. -/
inductive PlacementSource
  | claim
  | lookup
  deriving DecidableEq, Repr, Inhabited

/-- The Host of a MicroVM. -/
structure Placement where
  host : String
  source : PlacementSource
  resolvedAt : Time
  deriving DecidableEq, Repr, Inhabited

/-- `Lease`; `lastHeartbeatAt` is empty until a heartbeat was answered. -/
structure Lease where
  id : String
  pool : PoolRef
  expiresAt : Time
  lastHeartbeatAt : Option Time
  deriving DecidableEq, Repr, Inhabited

/-- What a Handle stands for. -/
structure Allocation where
  jobID : Int
  profile : String
  vmUID : String
  lease : Lease
  placement : Placement
  host : HostRef
  reservationID : Nat
  claimedAt : Time
  deriving DecidableEq, Repr, Inhabited

/-- `handle`, as far as `newHandle` fixes it: the id that identifies it and
the Allocation it was built for, whose Lease is the first one. -/
structure Handle where
  id : Nat
  alloc : Allocation
  deriving DecidableEq, Repr, Inhabited

/-- Why a Handle was failed. -/
inductive Cause
  | leaseGone (leaseID : String)
  | leaseExpired (leaseID : String) (expiresAt : Time)
  | hostUnhealthy (host : String)
  | agentUnreachable (leaseID : String) (failures : Nat)
  | shutdown
  deriving DecidableEq, Repr

/-- What a Handle's lock guards: the times of its Lease, the error `Done` was
closed with, the lease-gone mark, and whether the keep-alive context has been
stored in it and cancelled. The Lease's id and Pool are not here because they
never change: `setLease` is only ever given the Lease read from the same Handle
with new times. -/
structure HandleState where
  expiresAt : Time
  lastHeartbeatAt : Option Time
  err : Option Cause
  leaseGone : Bool
  stopHeartbeat : Bool
  cancelled : Bool
  deriving DecidableEq, Repr, Inhabited

/-- `hostState`: the health of one Host. -/
structure HostState where
  healthy : Bool
  failures : Int
  lastProbeAt : Option Time
  deriving DecidableEq, Repr, Inhabited

/-- The mutable state of `impl`. -/
structure Impl where
  now : Time
  state : RunState
  profiles : List Profile
  reservations : AList fun _ : Nat => Time
  allocations : AList fun _ : Nat => Handle
  placements : AList fun _ : String => Placement
  profileUse : String → Nat
  profileFree : Nat
  hosts : AList fun _ : String => HostState
  drain : Option Nat
  drains : Nat
  nextID : Nat
  bgClosed : Bool
  bgCancelled : Bool
  wg : Nat
  heap : Nat → HandleState

namespace Impl

/-! ## `capacity.go` -/

variable (s : Impl)

/-- Reservations and Allocations each hold a Slot. -/
def slotsInUseLocked : Nat :=
  s.reservations.keys.length + s.allocations.keys.length

/-- `availableCapacityLocked`: how many Reservations may still be granted,
and why none may. -/
def availableCapacityLocked (c : Settings) (s : Impl) (warm : Int) : Int × Option RefusalReason :=
  let free := c.slots - s.slotsInUseLocked
  if free ≤ 0 then (0, some .noFreeSlot)
  else if warm ≤ 0 then (0, some .noWarmMicroVM)
  else if warm < free then (warm, none)
  else (free, none)

/-- `grant`: take a Slot under the same hold of the lock that counted it. -/
def grant (c : Settings) (s : Impl) (warm : Int) : Impl × Except (Option RefusalReason) Nat :=
  let (n, reason) := s.availableCapacityLocked c warm
  if n ≤ 0 then (s, .error reason)
  else
    let id := s.nextID + 1
    ({ s with nextID := id, reservations := s.reservations.insert id s.now }, .ok id)

/-- `ReleaseReservation`'s section. -/
def releaseReservation (r : Nat) : Impl :=
  { s with reservations := s.reservations.erase r }

/-- `convert`: exchange the Reservation for the Allocation under one hold of
the lock; `false` when the Reservation is no longer held. -/
def convert (r : Nat) (h : Handle) : Impl × Bool :=
  if r ∈ s.reservations then
    ({ s with
      reservations := s.reservations.erase r
      allocations := s.allocations.insert h.id h
      placements := s.placements.insert h.alloc.vmUID h.alloc.placement }, true)
  else (s, false)

/-- `releaseProfileLocked`: return one unit and wake every waiter. -/
def releaseProfileLocked (name : String) : Impl :=
  { s with
    profileUse := Function.update s.profileUse name
      (if s.profileUse name > 1 then s.profileUse name - 1 else 0)
    profileFree := s.profileFree + 1 }

/-- `finish`: end an Allocation in the accounting, once. -/
def finish (h : Handle) : Impl × Bool :=
  if h.id ∈ s.allocations then
    let s' := { s with
      allocations := s.allocations.erase h.id
      placements := s.placements.erase h.alloc.vmUID }
    let s' := s'.releaseProfileLocked h.alloc.profile
    (if s'.allocations.keys = [] then { s' with drain := none } else s', true)
  else (s, false)

/-- `drained`: the channel shutdown waits on. A channel made for an empty
table is closed from the start, so it is never stored. -/
def drained : Impl × Nat :=
  if s.allocations.keys = [] then ({ s with drains := s.drains + 1 }, s.drains)
  else
    match s.drain with
    | some ch => (s, ch)
    | none => ({ s with drain := some s.drains, drains := s.drains + 1 }, s.drains)

/-- Whether a drain channel is closed. -/
def drainClosed (ch : Nat) : Prop := s.drain ≠ some ch

instance (s : Impl) (ch : Nat) : Decidable (s.drainClosed ch) :=
  inferInstanceAs (Decidable (s.drain ≠ some ch))

/-- `enterProfile`: take one of the Profile's units unless its maximum is
reached. The second value names the channel that the next returned unit
closes. -/
def enterProfile (p : Profile) : Impl × Bool × Nat :=
  if p.maxConcurrency > 0 ∧ (s.profileUse p.name : Int) ≥ p.maxConcurrency then
    (s, false, s.profileFree)
  else
    ({ s with
      profileUse := Function.update s.profileUse p.name (s.profileUse p.name + 1) },
      true, s.profileFree)

def leaveProfile (p : Profile) : Impl := s.releaseProfileLocked p.name

/-- Whether the wake-up channel `enterProfile` gave out is closed. -/
def freeClosed (ch : Nat) : Prop := ch < s.profileFree

instance (s : Impl) (ch : Nat) : Decidable (s.freeClosed ch) :=
  inferInstanceAs (Decidable (ch < s.profileFree))

/-! ## `allocate.go`, `placement.go` -/

def cachedPlacement (uid : String) : Option Placement :=
  if uid = "" then none else s.placements.lookup uid

/-- The section of `allocated` that numbers a new Handle. -/
def newHandle (alloc : Allocation) : Impl × Handle :=
  let id := s.nextID + 1
  ({ s with
    nextID := id
    heap := Function.update s.heap id
      { expiresAt := alloc.lease.expiresAt, lastHeartbeatAt := alloc.lease.lastHeartbeatAt,
        err := none, leaseGone := false, stopHeartbeat := false, cancelled := false } },
    ⟨id, alloc⟩)

/-! ## Handles (`handle.go`, `heartbeat.go`) -/

variable (h : Handle)

/-- Update what one Handle's lock guards. -/
def setHandle (f : HandleState → HandleState) : Impl :=
  { s with heap := Function.update s.heap h.id (f (s.heap h.id)) }

/-- `lease`: the current Lease. -/
def lease : Lease :=
  { h.alloc.lease with
    expiresAt := (s.heap h.id).expiresAt
    lastHeartbeatAt := (s.heap h.id).lastHeartbeatAt }

/-- Whether `Done` is closed. -/
def done : Bool := (s.heap h.id).err.isSome

/-- The Lease is known to be lost. -/
def leaseIsGone : Bool := (s.heap h.id).leaseGone

/-- Records what a Heartbeat answered. -/
def setLease (l : Lease) : Impl :=
  s.setHandle h fun st =>
    { st with expiresAt := l.expiresAt, lastHeartbeatAt := l.lastHeartbeatAt }

def markLeaseGone : Impl :=
  s.setHandle h fun st => { st with leaseGone := true }

/-- `fail`: only the first cause is recorded. -/
def fail (cause : Cause) : Impl :=
  s.setHandle h fun st => { st with err := some (st.err.getD cause) }

/-- The section of `startHeartbeat` that stores the keep-alive context's
cancel function in the Handle. -/
def installHeartbeat : Impl :=
  s.setHandle h fun st => { st with stopHeartbeat := true }

/-- Cancel the keep-alive context of a Handle. -/
def cancelHeartbeat : Impl :=
  s.setHandle h fun st => { st with cancelled := true }

/-- `stopHeartbeat`: cancel the keep-alive context, if it is stored yet. -/
def stopHeartbeat : Impl :=
  if (s.heap h.id).stopHeartbeat then s.cancelHeartbeat h else s

/-- Whether the keep-alive context of a Handle is done: cancelled itself, or
through the background context it was derived from. -/
def heartbeatCtxDone : Bool :=
  (s.heap h.id).cancelled || s.bgCancelled

/-- The Handle is still in the map. -/
def holds : Bool := h.id ∈ s.allocations

/-- The Handles of the live Allocations; `liveHandles` returns them in some
order. -/
def liveHandles : List Handle := s.allocations.entries.map Sigma.snd

/-! ## Background work and the lifecycle (`release.go`, `scheduler.go`) -/

/-- The section of `inBackground`: whether a goroutine may be started, and
its entry in the wait group. -/
def inBackground : Impl × Bool :=
  if s.bgClosed then (s, false) else ({ s with wg := s.wg + 1 }, true)

/-- Ends the context of the background work. -/
def closeBackground : Impl := { s with bgClosed := true }

/-- `bgDone` is closed. -/
def bgDone : Bool := s.bgCancelled

def setState (st : RunState) : Impl := { s with state := st }

/-- The section of `shutdown` that drops every unconverted Reservation. -/
def clearReservations : Impl := { s with reservations := ∅ }

/-! ## Host health (`health.go`) -/

/-- The section of `recordProbe`; the second value is whether this probe made
the Host unhealthy. A Host that is no longer in the table is dropped. -/
def recordProbe (threshold : Int) (name : String) (ok : Bool) : Impl × Bool :=
  match s.hosts.lookup name with
  | none => (s, false)
  | some st =>
    if ok then
      ({ s with hosts := s.hosts.insert name ⟨true, 0, some s.now⟩ }, false)
    else
      let failures := st.failures + 1
      let down := st.healthy && decide (failures ≥ threshold)
      let st' : HostState := ⟨st.healthy && !down, failures, some s.now⟩
      ({ s with hosts := s.hosts.insert name st' }, down)

end Impl

/-! ## Configured limits, with their defaults -/

namespace Settings

/-- A configured value, or its default when it is not positive. -/
def positiveOr (configured fallback : Int) : Int :=
  if configured > 0 then configured else fallback

variable (c : Settings)

def allocationTimeout : Duration :=
  positiveOr c.scheduler.allocationTimeout Config.defaultAllocationTimeout

def keepDuration : Duration :=
  positiveOr c.scheduler.keepDuration Config.defaultKeepDuration

def releaseRetryLimit : Int :=
  positiveOr c.poolManager.releaseRetryLimit Config.defaultPoolManagerReleaseRetry

/-- `shutdownTimeout`. -/
def shutdownWait : Duration :=
  positiveOr c.shutdownTimeout Config.defaultShutdownTimeout

def hostHealthInterval : Duration :=
  positiveOr c.scheduler.hostHealthInterval Config.defaultHostHealthInterval

def hostUnhealthyThreshold : Int :=
  positiveOr c.scheduler.hostUnhealthyThreshold Config.defaultHostUnhealthyThreshold

end Settings

/-- `leaseExpiry`: how long a Lease is good for without a heartbeat. -/
def leaseExpiry (p : Profile) : Duration :=
  Settings.positiveOr p.pool.heartbeatExpiry Config.defaultHeartbeatExpiry

/-- `heartbeatInterval`: the Pool's configured interval for the Profile of an
Allocation. -/
def heartbeatInterval (s : Impl) (profile : String) : Duration :=
  match s.profiles.find? fun p => p.name = profile with
  | some p => Settings.positiveOr p.pool.heartbeatInterval Config.defaultHeartbeatInterval
  | none => Config.defaultHeartbeatInterval

/-- `minHeartbeatDelay`: one millisecond. -/
def minHeartbeatDelay : Duration := 1000000

/-- `heartbeatDelay`: never more than half the time left on the Lease, never
more than the configured interval, and after a failure no more than the
backoff. -/
def heartbeatDelay (lease : Lease) (now : Time) (interval : Duration)
    (backoff : Nat → Duration) (attempt : Nat) : Duration :=
  let d := (lease.expiresAt - now).tdiv 2
  let d := if interval > 0 ∧ interval < d then interval else d
  let d := if attempt > 0 ∧ backoff (attempt - 1) < d then backoff (attempt - 1) else d
  if d < minHeartbeatDelay then minHeartbeatDelay else d

end FlintlockRunner.Scheduler

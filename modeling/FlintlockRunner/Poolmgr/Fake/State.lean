import FlintlockRunner.Poolmgr.Declarable
import FlintlockRunner.Poolmgr.Tracker

/-!
# What the fake Pool Manager keeps

`poolmgr/fake/state.go` and `events.go`: the Pools, MicroVMs and Leases that
`PoolManager` guards with its lock, and the helpers its sections are made of.
The goroutines are part of the state, each as what it still has to do
(`Frame`), because the lock is free whenever one of them waits for a Host.

A `*poolState` outlives its Pool in the claim that holds it, so a Pool's state
is at an address: `pools` is the map from a key to an address and `heap` what is
there. A `*vmState` is read only while the MicroVM is recorded, apart from its
id and its Pool, which never change (`VMRef`).

What a section reads of the world is in `Env`: the clock, the Hosts that are
known, what `newLeaseID` draws, the injected loss of a claim's response and the
order of each `range` over a map.
-/

namespace FlintlockRunner.Poolmgr.Fake

open Strings

/-! ## The data -/

/-- The phases of a MicroVM. -/
inductive VMPhase
  | provisioning
  | createHookRunning
  | available
  | preLeaseHookRunning
  | leased
  | deleting
  | quarantined
  | failed
  deriving DecidableEq, Repr

/-- The MicroVM is past any claim: nothing makes it available again. -/
def VMPhase.settled : VMPhase → Bool
  | .leased | .deleting | .quarantined | .failed => true
  | .provisioning | .createHookRunning | .available | .preLeaseHookRunning => false

/-- `EventType`, with the part of the payload that a client decodes. -/
inductive EventType
  | vmProvisioned
  | vmAvailable
  | vmClaimed
  | vmReleased
  | vmExpiringSoon
  | vmDeletedDueToExpiry
  | vmDeletedOnRelease
  | vmDeletedOnPoolDelete
  | vmHookFailed (policy : HookFailurePolicy)
  | poolReplenishing
  | poolSizeBelowTarget (counts : BelowTarget)
  deriving DecidableEq, Repr

/-- `poolmgrv1.Event`. -/
structure Event where
  id : Nat
  pool : PoolRef
  vmUID : String
  type : EventType
  deriving DecidableEq, Repr

/-- The type a client decodes; the Tracker has no case for the last three. -/
def EventType.decoded : EventType → Poolmgr.EventType
  | .vmProvisioned => .vmProvisioned
  | .vmAvailable => .vmAvailable
  | .vmClaimed => .vmClaimed
  | .vmReleased => .vmReleased
  | .vmDeletedDueToExpiry => .vmDeletedDueToExpiry
  | .vmDeletedOnRelease => .vmDeletedOnRelease
  | .vmHookFailed policy => .vmHookFailed (policy = .quarantine)
  | .poolSizeBelowTarget counts => .poolSizeBelowTarget (some counts)
  | .vmExpiringSoon | .vmDeletedOnPoolDelete | .poolReplenishing => .unspecified

/-- The event a client decodes. -/
def Event.decoded (e : Event) : Poolmgr.Event := ⟨e.pool, e.vmUID, e.type.decoded⟩

/-- A Pool: its spec, and what the Pool Manager keeps between ticks. -/
structure PoolState where
  spec : PoolSpec
  nextEvent : Nat
  rr : Nat
  fresh : Bool
  warned : AList fun _ : String => Time

variable (spec : PoolSpec)

/-- A Pool as `createPool` makes it. -/
def PoolState.new : PoolState := ⟨spec, 0, 0, true, ∅⟩

/-- The `VM_DELETED_*` events that `deleteVM` is given. -/
inductive DeleteEvent
  | dueToExpiry
  | onRelease
  deriving DecidableEq, Repr

/-- The event that the end of a deletion emits. -/
def DeleteEvent.type : DeleteEvent → EventType
  | .dueToExpiry => .vmDeletedDueToExpiry
  | .onRelease => .vmDeletedOnRelease

/-- `vmState`; `deleteEvent` is `none` for a deletion with no event of its
own. -/
structure VM where
  uid : String
  pool : PoolRef
  host : String
  phase : VMPhase
  leaseID : String
  deleteEvent : Option DeleteEvent
  deleteInFlight : Bool
  released : Bool
  updated : Time
  deriving DecidableEq

/-- A reserved MicroVM. -/
def VM.reserved (pool : PoolRef) (host : String) (now : Time) : VM where
  uid := ""
  pool := pool
  host := host
  phase := .provisioning
  leaseID := ""
  deleteEvent := none
  deleteInFlight := false
  released := false
  updated := now

/-- What a goroutine holds of a MicroVM. -/
structure VMRef where
  id : Nat
  pool : PoolRef
  deriving DecidableEq, Repr

/-- `poolmgr.LeaseRecord`. -/
structure LeaseRecord where
  vmUID : String
  pool : PoolRef
  claimedAt : Time
  lastHeartbeatAt : Time
  expiresAt : Time
  requestID : String
  deriving DecidableEq

/-! ## Answers -/

/-- `codes.Code`, the ones the operations answer with. -/
inductive Code
  | invalidArgument
  | notFound
  | alreadyExists
  | failedPrecondition
  | resourceExhausted
  | aborted
  | internal
  | unavailable
  deriving DecidableEq, Repr

/-- A gRPC status error. -/
structure Status where
  code : Code
  message : String
  deriving DecidableEq, Repr

/-- `claimResult`, without what only the response's network part reads. -/
structure ClaimResult where
  leaseID : String
  vmUID : String
  hostName : String
  deriving DecidableEq, Repr

/-- What an operation answered. -/
inductive Answer
  | createPool (ref : PoolRef) (result : Except Status PoolSpec)
  | updatePool (ref : PoolRef) (result : Except Status (PoolSpec × PoolStatus))
  | deletePool (ref : PoolRef) (result : Except Status Unit)
  | claimVM (ref : PoolRef) (requestID : String) (result : Except Status ClaimResult)
  | heartbeat (leaseID : String) (result : Except Status Time)
  | releaseVM (leaseID : String) (result : Except Status Unit)

/-! ## Goroutines -/

/-- Who waits for `deleteVM`: nobody (the error is only logged), a claim whose
hook failed, a release, or `deletePool` with the MicroVMs it has left and its
first error. -/
inductive Caller
  | background
  | claimVM (ref : PoolRef) (requestID : String) (cause : String)
  | releaseVM (leaseID : String)
  | deletePool (ref : PoolRef) (rest : List VMRef) (firstErr : Option String)
  deriving DecidableEq, Repr

/-- Where a goroutine is between two sections. -/
inductive Frame
  /-- `provision`, before it reads the Pool. -/
  | provision (vm : VMRef)
  /-- `provision`, having found no Pool. -/
  | dropReserved (vm : VMRef)
  /-- `provision`, in `CreateMicroVM`. -/
  | create (vm : VMRef)
  /-- `provision`, in `waitCreated`. -/
  | waitCreated (vm : VMRef) (uid : String)
  /-- `provision`, in the create hooks. -/
  | createHooks (vm : VMRef) (uid : String)
  /-- `claimVM`, in the pre-lease hooks, with its `ps`. -/
  | preLease (vm : VMRef) (ps : Nat) (requestID : String)
  /-- `deleteVM`, before its first section. -/
  | delete (vm : VMRef) (event : Option DeleteEvent) (caller : Caller)
  /-- `deleteVM`, in `deleteOnHost`. -/
  | deleting (vm : VMRef) (host uid : String) (caller : Caller)
  /-- `deletePool`, in its loop over the MicroVMs. -/
  | deletePool (ref : PoolRef) (vms : List VMRef) (firstErr : Option String)
  deriving DecidableEq, Repr

/-! ## The state -/

/-- How a Host is chosen for a new MicroVM. -/
inductive Placement
  | leastVMs
  | roundRobin
  deriving DecidableEq, Repr

/-- `FakeConfig`: the served namespace, empty for any, and the placement. -/
structure FakeConfig where
  nameSpace : String
  placement : Placement

/-- What a section reads of the world. -/
structure Env where
  now : Time
  hosts : List String
  leaseID : String
  loseResponse : Bool
  leases : List String
  vms : List Nat
  pools : List PoolRef

/-- `PoolManager`. `running` is whether `Run` was called. The last four are
history: the published events, what the operations answered, the uids that
Hosts have returned, and the Pools that were deleted while a MicroVM of theirs
was or could become available. -/
structure PoolManager where
  pools : AList fun _ : PoolRef => Nat
  heap : List PoolState
  vms : AList fun _ : Nat => VM
  vmByUID : AList fun _ : String => Nat
  leases : AList fun _ : String => LeaseRecord
  nextVM : Nat
  running : Bool
  frames : List Frame
  log : List Event
  answers : List Answer
  uids : List String
  left : List PoolRef

/-- A Pool Manager nobody has called. -/
def PoolManager.new : PoolManager := ⟨∅, [], ∅, ∅, ∅, 0, false, [], [], [], [], []⟩

/-! ## `strategy` -/

/-- `strategyOf`'s `minSize`. -/
def minSize : Int := (spec.replenishment.minSize.map Int32.toInt).getD 0

/-- How many MicroVMs a claim has provisioned. -/
def onClaimed : Nat :=
  if spec.replenishment.type = .immediateOnLease then 1 else 0

/-- How many MicroVMs a deletion has provisioned. -/
def onDeleted : Nat :=
  if spec.replenishment.type = .replaceOnDelete then 1 else 0

/-- `tickDeficit`; a negative deficit is none. -/
def tickDeficit (c : PoolStatus) : Nat :=
  match spec.replenishment.type with
  | .immediateOnLease => (spec.size.toInt - (c.available + c.provisioning)).toNat
  | .minSizeThreshold =>
    if c.available ≥ minSize spec then 0
    else (spec.size.toInt - (c.available + c.leased + c.provisioning)).toNat
  | .replaceOnDelete => (spec.size.toInt - (c.available + c.leased + c.provisioning)).toNat
  | .unspecified => 0

/-- How long before its expiry a Lease is warned of. -/
def warningWindow : Duration :=
  if spec.heartbeatInterval > 0 then spec.heartbeatInterval
  else spec.heartbeatExpiryThreshold.tdiv 2

/-- One MicroVM more in a phase, the `switch` of `countsLocked`. -/
def count (c : PoolStatus) : VMPhase → PoolStatus
  | .available => { c with available := c.available + 1 }
  | .leased | .preLeaseHookRunning => { c with leased := c.leased + 1 }
  | .provisioning | .createHookRunning => { c with provisioning := c.provisioning + 1 }
  | .quarantined => { c with quarantined := c.quarantined + 1 }
  | .deleting | .failed => c

/-- A Pool Manager may be confined to one namespace. -/
def FakeConfig.checkNamespace (cfg : FakeConfig) (ns : String) : Option Status :=
  if cfg.nameSpace ≠ "" ∧ ns ≠ cfg.nameSpace then
    some ⟨.invalidArgument, "namespace " ++ quote ns
      ++ " is not served by this pool manager (only " ++ quote cfg.nameSpace ++ ")"⟩
  else none

namespace PoolManager

variable (p : PoolManager)

/-! ## The helpers of the sections -/

/-- An operation answers. -/
def answer (a : Answer) : PoolManager := { p with answers := p.answers ++ [a] }

/-- A goroutine goes on to a frame, or one is started there. -/
def push (f : Frame) : PoolManager := { p with frames := f :: p.frames }

/-- A goroutine leaves a frame. -/
def drop (f : Frame) : PoolManager := { p with frames := p.frames.erase f }

/-- Write to the Pool at an address. -/
def modifyPool (a : Nat) (f : PoolState → PoolState) : PoolManager :=
  { p with heap := p.heap.modify a f }

variable (key : PoolRef)

/-- The spec of a Pool. -/
def specOf : Option PoolSpec :=
  (p.pools.lookup key).bind fun a => (p.heap[a]?).map PoolState.spec

/-- Publishes an event of a Pool that is there. -/
def emitLocked (vmUID : String) (type : EventType) : PoolManager :=
  match p.pools.lookup key with
  | none => p
  | some a =>
    { p.modifyPool a fun ps => { ps with nextEvent := ps.nextEvent + 1 } with
      log := p.log ++ [⟨((p.heap[a]?).elim 0 PoolState.nextEvent) + 1, key, vmUID, type⟩] }

/-- The record and its Pool are both there. -/
def aliveLocked (vm : VMRef) : Bool :=
  (p.vms.lookup vm.id).isSome && (p.pools.lookup vm.pool).isSome

/-- Write to a recorded MicroVM. -/
def modifyVM (id : Nat) (f : VM → VM) : PoolManager :=
  match p.vms.lookup id with
  | none => p
  | some vm => { p with vms := p.vms.insert id (f vm) }

/-- Moves a MicroVM to a phase. -/
def setPhaseLocked (now : Time) (id : Nat) (phase : VMPhase) : PoolManager :=
  p.modifyVM id fun vm => { vm with phase := phase, updated := now }

/-- The MicroVM that a uid names. -/
def vmOf (uid : String) : Option (Nat × VM) :=
  (p.vmByUID.lookup uid).bind fun id => (p.vms.lookup id).map fun vm => (id, vm)

/-- Forgets a Lease and its warning. -/
def dropLeaseLocked (leaseID : String) : PoolManager :=
  match p.leases.lookup leaseID with
  | none => p
  | some ls =>
    let p := { p with leases := p.leases.erase leaseID }
    match p.pools.lookup ls.pool with
    | none => p
    | some a => p.modifyPool a fun ps => { ps with warned := ps.warned.erase leaseID }

/-- The recorded MicroVMs of a Pool. -/
def vmsOf : List (Nat × VM) :=
  (p.vms.entries.filter fun e => e.2.pool = key).map fun e => (e.1, e.2)

/-- The counts of a Pool, from the phases of its MicroVMs. -/
def countsLocked : PoolStatus :=
  (p.vmsOf key).foldl (fun c e => count c e.2.phase) ⟨0, 0, 0, 0⟩

variable (cfg : FakeConfig)

/-- `poolLocked`: the address of a Pool's state. -/
def poolLocked (ref : PoolRef) : Except Status Nat :=
  match cfg.checkNamespace ref.nameSpace with
  | some status => .error status
  | none =>
    match p.pools.lookup ref with
    | none => .error ⟨.notFound, "pool " ++ ref.text ++ " not found"⟩
    | some a => .ok a

/-- Whether a MicroVM has been in its phase longer than another. -/
def older (a b : Nat × VM) : Bool :=
  a.2.updated < b.2.updated || (a.2.updated = b.2.updated && a.1 < b.1)

/-- One turn of `oldestAvailableLocked`'s loop. -/
def pickOlder (best : Option (Nat × VM)) (e : Nat × VM) : Option (Nat × VM) :=
  match best with
  | none => some e
  | some b => if older e b then some e else some b

/-- The MicroVM that a claim is given. -/
def oldestAvailableLocked : Option (Nat × VM) :=
  ((p.vmsOf key).filter fun e => e.2.phase = .available).foldl pickOlder none

/-- How many MicroVMs of a Pool `pickHostLocked` counts on a Host. -/
def perHost (host : String) : Nat :=
  (p.vmsOf key).countP fun e =>
    e.2.phase ≠ .deleting && e.2.phase ≠ .failed && decide (e.2.host = host)

/-- `pickHostLocked`, for the Pool whose state is at `a`. -/
def pickHostLocked (env : Env) (key : PoolRef) (a : Nat) :
    Option (PoolManager × String) :=
  (p.heap[a]?).bind fun ps =>
    match ps.spec.flintlockHosts.filter fun name => name ∈ env.hosts with
    | [] => none
    | first :: rest =>
      match cfg.placement with
      | .roundRobin =>
        some (p.modifyPool a fun ps => { ps with rr := ps.rr + 1 },
          (first :: rest).getD (ps.rr % (rest.length + 1)) first)
      | .leastVMs =>
        some (p, rest.foldl
          (fun best h => if p.perHost key h < p.perHost key best then h else best) first)

/-- One turn of `provisionNLocked`'s loop. -/
def reserve (env : Env) (key : PoolRef) (a : Nat) :
    Option (PoolManager × VMRef) :=
  (p.pickHostLocked cfg env key a).map fun (p, host) =>
    ({ p with
      nextVM := p.nextVM + 1
      vms := p.vms.insert (p.nextVM + 1) (.reserved key host env.now) }, ⟨p.nextVM + 1, key⟩)

end PoolManager

/-- `provisionNLocked`'s loop, which ends early when no Host can be picked. -/
def reserveN (cfg : FakeConfig) (env : Env) (key : PoolRef) (a : Nat) :
    Nat → PoolManager → PoolManager × List VMRef
  | 0, p => (p, [])
  | n + 1, p =>
    match p.reserve cfg env key a with
    | none => (p, [])
    | some (p, vm) =>
      match reserveN cfg env key a n p with
      | (p, reserved) => (p, vm :: reserved)

namespace PoolManager

variable (p : PoolManager)

/-- `provisionNLocked`, for the Pool whose state is at `a`. -/
def provisionNLocked (cfg : FakeConfig) (env : Env) (key : PoolRef) (a : Nat) (n : Nat) :
    PoolManager :=
  if n = 0 ∨ p.running = false then p
  else
    match reserveN cfg env key a n p with
    | (p, []) => p
    | (p, reserved) =>
      let p := p.emitLocked key "" .poolReplenishing
      { p with frames := reserved.map Frame.provision ++ p.frames }

/-! ## What the helpers find -/

section Found

variable {cfg : FakeConfig} {env : Env} {p : PoolManager} {key : PoolRef} {vm : VMRef} {id : Nat}
  {r : VM}

theorem mem_vmsOf : (id, r) ∈ p.vmsOf key ↔ p.vms.lookup id = some r ∧ r.pool = key := by
  unfold vmsOf
  constructor
  · intro h
    obtain ⟨⟨id', r'⟩, hin, heq⟩ := List.mem_map.mp h
    obtain ⟨rfl, rfl⟩ := Prod.mk.inj heq
    obtain ⟨hin, hpool⟩ := List.mem_filter.mp hin
    exact ⟨AList.mem_lookup_iff.mpr hin, of_decide_eq_true hpool⟩
  · rintro ⟨hr, hpool⟩
    refine List.mem_map.mpr ⟨⟨id, r⟩, List.mem_filter.mpr ⟨AList.mem_lookup_iff.mp hr, ?_⟩, rfl⟩
    exact decide_eq_true hpool

theorem foldl_pickOlder (l : List (Nat × VM)) : ∀ {best : Option (Nat × VM)} {e : Nat × VM},
    l.foldl pickOlder best = some e → best = some e ∨ e ∈ l := by
  induction l with
  | nil => exact fun h => .inl h
  | cons x l ih =>
    intro best e h
    rcases ih h with h | h
    · cases best with
      | none => exact .inr (Option.some.inj h ▸ List.mem_cons_self)
      | some b =>
        dsimp only [pickOlder] at h
        split at h
        · exact .inr (Option.some.inj h ▸ List.mem_cons_self)
        · exact .inl h
    · exact .inr (List.mem_cons_of_mem _ h)

theorem oldestAvailableLocked_spec (h : p.oldestAvailableLocked key = some (id, r)) :
    p.vms.lookup id = some r ∧ r.pool = key ∧ r.phase = .available := by
  rcases foldl_pickOlder _ h with h | h
  · cases h
  · obtain ⟨hin, hphase⟩ := List.mem_filter.mp h
    obtain ⟨hr, hpool⟩ := mem_vmsOf.mp hin
    exact ⟨hr, hpool, of_decide_eq_true hphase⟩

theorem foldl_pickOlder_some (l : List (Nat × VM)) : ∀ b : Nat × VM,
    ∃ b', l.foldl pickOlder (some b) = some b' := by
  induction l with
  | nil => exact fun b => ⟨b, rfl⟩
  | cons e l ih =>
    intro b
    show ∃ b', l.foldl pickOlder (if older e b then some e else some b) = some b'
    split
    · exact ih e
    · exact ih b

theorem oldestAvailableLocked_ne_none (hr : p.vms.lookup id = some r) (hpool : r.pool = key)
    (hphase : r.phase = .available) : p.oldestAvailableLocked key ≠ none := by
  have hin : (id, r) ∈ (p.vmsOf key).filter fun e => e.2.phase = .available :=
    List.mem_filter.mpr ⟨mem_vmsOf.mpr ⟨hr, hpool⟩, decide_eq_true hphase⟩
  unfold oldestAvailableLocked
  cases hl : (p.vmsOf key).filter fun e => e.2.phase = .available with
  | nil =>
    rw [hl] at hin
    cases hin
  | cons e l =>
    obtain ⟨b, hb⟩ := foldl_pickOlder_some l e
    exact fun hnone => nomatch hb.symm.trans hnone

theorem nodup_vmsOf (p : PoolManager) (ref : PoolRef) : (p.vmsOf ref).Nodup := by
  refine (p.vms.nodupKeys.nodup.filter _).map ?_
  rintro ⟨id, r⟩ ⟨id', r'⟩ h
  obtain ⟨rfl, rfl⟩ := Prod.mk.inj h
  rfl

theorem vmOf_eq_some {uid : String} (h : p.vmOf uid = some (id, r)) :
    p.vmByUID.lookup uid = some id ∧ p.vms.lookup id = some r := by
  obtain ⟨id', hid, h⟩ := Option.bind_eq_some_iff.mp h
  obtain ⟨r', hr, h⟩ := Option.map_eq_some_iff.mp h
  obtain ⟨rfl, rfl⟩ := Prod.mk.inj h
  exact ⟨hid, hr⟩

theorem modifyPool_spec {a : Nat} {g : PoolState → PoolState} (hg : ∀ ps, (g ps).spec = ps.spec)
    (b : Nat) : ((p.modifyPool a g).heap[b]?).map PoolState.spec
      = (p.heap[b]?).map PoolState.spec := by
  show ((p.heap.modify a g)[b]?).map PoolState.spec = _
  rw [List.getElem?_modify]
  cases p.heap[b]? with
  | none => rfl
  | some ps =>
    split
    · exact congrArg some (hg ps)
    · rfl

theorem reserve_eq {a : Nat} {p' : PoolManager} {h : VMRef}
    (hp : p.reserve cfg env key a = some (p', h)) :
    h = ⟨p.nextVM + 1, key⟩ ∧ ∃ host heap, p' = { p with
      heap := heap
      nextVM := p.nextVM + 1
      vms := p.vms.insert (p.nextVM + 1) (.reserved key host env.now) } ∧
      ∀ b : Nat, (heap[b]?).map PoolState.spec = (p.heap[b]?).map PoolState.spec := by
  obtain ⟨⟨q, host⟩, hpick, hreserved⟩ := Option.map_eq_some_iff.mp hp
  obtain ⟨ps, -, hpick⟩ := Option.bind_eq_some_iff.mp hpick
  split at hpick
  · cases hpick
  · split at hpick
    all_goals
      obtain ⟨rfl, -⟩ := Prod.mk.inj (Option.some.inj hpick)
      obtain ⟨rfl, rfl⟩ := Prod.mk.inj hreserved
    · exact ⟨rfl, host, _, rfl, modifyPool_spec fun _ => rfl⟩
    · exact ⟨rfl, host, _, rfl, fun _ => rfl⟩

end Found

end PoolManager

end FlintlockRunner.Poolmgr.Fake

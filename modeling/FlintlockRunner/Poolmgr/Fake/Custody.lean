import FlintlockRunner.Poolmgr.Fake.Sections
import Mathlib.Data.Finset.Card
import Mathlib.Data.Multiset.Filter

/-!
# Who has a MicroVM

The fake Pool Manager without what it tells its clients: the Pools, the records,
the Leases and the goroutines. A section of the source is one or more moves
here, and a move is what happens to one MicroVM: it is reserved, named, made
available, picked, leased, condemned, or gone.

The goroutines are tokens. One that provisions or claims a MicroVM has the right
to move it on, and gives the token up or exchanges it when it does; one that
deletes MicroVMs holds the list of them.
-/

namespace FlintlockRunner.Poolmgr.Fake

/-! ## Phases and frames -/

/-- A claim can get the MicroVM, or is getting it. -/
def VMPhase.warm : VMPhase → Bool
  | .available | .preLeaseHookRunning => true
  | _ => false

theorem VMPhase.not_warm_of_settled {phase : VMPhase} (h : phase.settled = true) :
    phase.warm = false := by
  cases phase <;> first | rfl | cases h

/-- The MicroVM that a goroutine is provisioning and has no uid for. -/
def Frame.early : Frame → Option VMRef
  | .provision vm | .dropReserved vm | .create vm => some vm
  | _ => none

/-- The MicroVM that a goroutine is provisioning or claiming. -/
def Frame.works : Frame → Option VMRef
  | .provision vm | .dropReserved vm | .create vm | .waitCreated vm _ | .createHooks vm _
  | .preLease vm _ _ => some vm
  | _ => none

/-- The MicroVMs that the caller of a deletion goes on to delete. -/
def Caller.deletes : Caller → List VMRef
  | .deletePool _ rest _ => rest
  | _ => []

/-- The frame that the caller of a deletion goes on to. -/
def Caller.frames (err : Option String) : Caller → List Frame
  | .deletePool ref rest firstErr => [.deletePool ref rest (firstErr.or err)]
  | _ => []

/-- The MicroVMs that a goroutine is deleting. -/
def Frame.deletes : Frame → List VMRef
  | .delete vm _ caller | .deleting vm _ _ caller => vm :: caller.deletes
  | .deletePool _ vms _ => vms
  | _ => []

/-! ## The state -/

/-- What is recorded of a MicroVM. -/
@[ext]
structure Record where
  uid : String
  pool : PoolRef
  phase : VMPhase
  deriving DecidableEq

/-- What custody keeps of a MicroVM. -/
def VM.record (v : VM) : Record := ⟨v.uid, v.pool, v.phase⟩

/-- What is recorded of a Lease. -/
structure Grant where
  vmUID : String
  requestID : String
  deriving DecidableEq

/-- What custody keeps of a Lease. -/
def LeaseRecord.grant (ls : LeaseRecord) : Grant := ⟨ls.vmUID, ls.requestID⟩

/-- The Pools by key, with their specs by address; the records, by id and by
uid; the Leases; the goroutines; the last id and the uids so far. -/
@[ext]
structure Custody where
  pools : PoolRef → Option Nat
  specs : Nat → Option PoolSpec
  vms : Nat → Option Record
  names : String → Option Nat
  leases : String → Option Grant
  frames : Multiset Frame
  last : Nat
  uids : List String

/-- The state of a Pool Manager; the frames `fs` are ones that the section under
way adds. -/
def PoolManager.custody (fs : List Frame) (p : PoolManager) : Custody where
  pools key := p.pools.lookup key
  specs a := (p.heap[a]?).map PoolState.spec
  vms id := (p.vms.lookup id).map VM.record
  names uid := p.vmByUID.lookup uid
  leases id := (p.leases.lookup id).map LeaseRecord.grant
  frames := (fs ++ p.frames : List Frame)
  last := p.nextVM
  uids := p.uids

/-- The MicroVM that a goroutine provisions or claims. -/
def Frame.workId (f : Frame) : Option Nat := f.works.map VMRef.id

/-- The MicroVM whose hooks a goroutine waits for. -/
def Frame.hooks : Frame → Option VMRef
  | .waitCreated vm _ | .createHooks vm _ | .preLease vm _ _ => some vm
  | _ => none

/-- The MicroVM that a goroutine has told its Host to delete. -/
def Frame.finishes : Frame → Option VMRef
  | .deleting vm _ _ _ => some vm
  | _ => none

namespace Custody

/-! ## Writes -/

variable (c : Custody)

/-- A goroutine comes. -/
def enter (f : Frame) : Custody := { c with frames := f ::ₘ c.frames }

/-- A goroutine goes. -/
def leave (f : Frame) : Custody := { c with frames := c.frames.erase f }

variable (id : Nat)

/-- A MicroVM changes its phase. -/
def setPhase (phase : VMPhase) : Custody :=
  { c with vms := Function.update c.vms id ((c.vms id).map fun r => { r with phase := phase }) }

variable (key : PoolRef)

/-- A record is made, and the goroutine that provisions it. -/
def reserve : Custody :=
  { c with
    last := c.last + 1
    vms := Function.update c.vms (c.last + 1) (some ⟨"", key, .provisioning⟩)
    frames := .provision ⟨c.last + 1, key⟩ ::ₘ c.frames }

/-- A reservation that is made, or not. -/
def reserveIf (again : Bool) (key : PoolRef) : Custody := if again then c.reserve key else c

/-- A record without a uid goes. -/
def unreserve : Custody := { c with vms := Function.update c.vms id none }

/-- A record goes with its name. -/
def remove : Custody :=
  { c with
    vms := Function.update c.vms id none
    names := match c.vms id with
      | some r => if r.uid ≠ "" then Function.update c.names r.uid none else c.names
      | none => c.names }

/-- A record gets a uid. -/
def name (uid : String) : Custody :=
  { c with
    vms := Function.update c.vms id ((c.vms id).map fun r => { r with uid := uid })
    names := Function.update c.names uid (some id) }

/-- A Host has returned a uid. -/
def learn (uid : String) : Custody := { c with uids := uid :: c.uids }

/-- A Lease is made. -/
def grant (id : String) (g : Grant) : Custody :=
  { c with leases := Function.update c.leases id (some g) }

/-- A Lease goes. -/
def forget (id : String) : Custody := { c with leases := Function.update c.leases id none }

/-! ## Readings -/

/-- `aliveLocked`. -/
def alive (vm : VMRef) : Bool := (c.vms vm.id).isSome && (c.pools vm.pool).isSome

/-- The spec of a Pool. -/
def specOf : Option PoolSpec := (c.pools key).bind c.specs

/-- How many MicroVMs of a Pool are in a phase of some kind. -/
def count (P : VMPhase → Bool) : Nat :=
  ((Finset.range (c.last + 1)).filter fun id =>
    (c.vms id).any fun r => decide (r.pool = key) && P r.phase).card

/-- `countsLocked`. -/
def counts : PoolStatus where
  available := c.count key fun phase => phase = .available
  leased := c.count key fun phase => phase = .leased || phase = .preLeaseHookRunning
  provisioning := c.count key fun phase => phase = .provisioning || phase = .createHookRunning
  quarantined := c.count key fun phase => phase = .quarantined

/-- What a tick starts for a Pool. -/
def deficit : Nat := (c.specOf key).elim 0 fun spec => tickDeficit spec (c.counts key)

end Custody

/-! ## Moves -/

/-- What can happen to a MicroVM, or to the Pools. `again` is whether a
replacement is reserved with it. -/
inductive Move
  | createPool (key : PoolRef) (a : Nat) (spec : PoolSpec)
  | updatePool (key : PoolRef) (spec : PoolSpec)
  | deletePool (key : PoolRef) (vms : List VMRef)
  | reserve (key : PoolRef)
  | proceed (f f' : Frame)
  | giveUp (f : Frame)
  | name (vm : VMRef) (uid : String)
  | stray (vm : VMRef) (uid : String)
  | hook (vm : VMRef) (uid : String)
  | ready (vm : VMRef) (uid : String)
  | pick (vm : VMRef) (a : Nat) (requestID : String)
  | lease (vm : VMRef) (a : Nat) (requestID leaseID : String) (again : Bool)
  | quarantine (f : Frame)
  | fail (f : Frame) (caller : Caller)
  | leave (f : Frame)
  | condemn (leaseID : Option String) (vm : VMRef) (event : Option DeleteEvent) (caller : Caller)
  | doom (f : Frame) (vm : VMRef)
  | pass (f : Frame) (fs : List Frame)
  | finish (f : Frame) (again : Bool)
  | forget (leaseID : String)

variable (c : Custody)

/-- A goroutine has the MicroVM on its list. -/
def Custody.Listed (id : Nat) : Prop :=
  ∃ f ∈ c.frames, ∃ vm ∈ f.deletes, vm.id = id

/-- A MicroVM may be condemned by its Lease, or in one of two phases. -/
def Custody.condemnable (vm : VMRef) : Option String → Bool
  | some leaseID => (c.leases leaseID).any fun g => decide (c.names g.vmUID = some vm.id)
  | none => (c.vms vm.id).any fun r => r.phase = .leased || r.phase = .deleting

/-- What a goroutine that deletes MicroVMs may go on to. -/
def Custody.passes (f f' : Frame) : Bool :=
  decide (f'.works = none) && decide (f'.deletes ⊆ f.deletes) &&
    f'.finishes.all fun vm => (c.vms vm.id).all fun r => r.phase = .deleting

/-- One move. -/
def Custody.next : Move → Option Custody
  | .createPool key a spec =>
    if c.pools key = none ∧ c.specs a = none then
      some { c with
        pools := Function.update c.pools key (some a)
        specs := Function.update c.specs a (some spec) }
    else none
  | .updatePool key spec =>
    (c.pools key).map fun a =>
      { c with specs := Function.update c.specs a ((c.specs a).map fun _ => spec) }
  | .deletePool key vms =>
    if (c.pools key).isSome ∧
        ∀ vm ∈ vms, vm.pool = key ∧ (c.vms vm.id).map Record.pool = some key then
      some ({ c with pools := Function.update c.pools key none }.enter (.deletePool key vms none))
    else none
  | .reserve key => if 0 < c.deficit key then some (c.reserve key) else none
  | .proceed f f' =>
    if f ∈ c.frames ∧ f.early.isSome ∧ f'.early = f.early then some ((c.leave f).enter f')
    else none
  | .giveUp f =>
    if f ∈ c.frames then f.early.map fun vm => (c.leave f).unreserve vm.id else none
  | .name vm uid =>
    if .create vm ∈ c.frames ∧ uid ≠ "" ∧ c.alive vm then
      some ((((c.leave (.create vm)).learn uid).name vm.id uid).enter (.waitCreated vm uid))
    else none
  | .stray vm uid =>
    if .create vm ∈ c.frames ∧ uid ≠ "" then some ((c.leave (.create vm)).learn uid) else none
  | .hook vm uid =>
    if .waitCreated vm uid ∈ c.frames ∧ c.alive vm then
      some (((c.leave (.waitCreated vm uid)).setPhase vm.id .createHookRunning).enter
        (.createHooks vm uid))
    else none
  | .ready vm uid =>
    if .createHooks vm uid ∈ c.frames ∧ c.alive vm then
      some ((c.leave (.createHooks vm uid)).setPhase vm.id .available)
    else none
  | .pick vm a requestID =>
    if (c.vms vm.id).any (fun r => decide (r.pool = vm.pool) && decide (r.phase = .available)) ∧
        c.pools vm.pool = some a then
      some ((c.setPhase vm.id .preLeaseHookRunning).enter (.preLease vm a requestID))
    else none
  | .lease vm a requestID leaseID again =>
    if .preLease vm a requestID ∈ c.frames ∧ c.alive vm ∧ (c.specs a).isSome ∧
        (again = true → (c.specs a).map (·.replenishment.type) = some .immediateOnLease) then
      (c.vms vm.id).map fun r =>
        (((c.leave (.preLease vm a requestID)).setPhase vm.id .leased).grant leaseID
          ⟨r.uid, requestID⟩).reserveIf again vm.pool
    else none
  | .quarantine f =>
    f.hooks.bind fun vm =>
      if f ∈ c.frames ∧ c.alive vm then some ((c.leave f).setPhase vm.id .quarantined) else none
  | .fail f caller =>
    f.hooks.bind fun vm =>
      if f ∈ c.frames ∧ c.alive vm ∧ caller.deletes = [] then
        some (((c.leave f).setPhase vm.id .deleting).enter (.delete vm none caller))
      else none
  | .leave f => if f ∈ c.frames then some (c.leave f) else none
  | .condemn leaseID vm event caller =>
    if (c.vms vm.id).map Record.pool = some vm.pool ∧ c.condemnable vm leaseID ∧
        caller.deletes = [] then
      some (c.enter (.delete vm event caller))
    else none
  | .doom f vm =>
    if f ∈ c.frames ∧ vm ∈ f.deletes then some (c.setPhase vm.id .deleting) else none
  | .pass f fs =>
    if f ∈ c.frames ∧ f.works = none ∧ ∀ f' ∈ fs, c.passes f f' then
      some { c with frames := fs + c.frames.erase f }
    else none
  | .finish f again =>
    f.finishes.bind fun vm =>
      if f ∈ c.frames ∧ (c.vms vm.id).isSome ∧
          (again = true → (c.specOf vm.pool).map (·.replenishment.type) = some .replaceOnDelete) then
        some ((c.remove vm.id).reserveIf again vm.pool)
      else none
  | .forget leaseID => some (c.forget leaseID)

/-- The runs of moves from a Pool Manager nobody has called. -/
def moves : Machine Custody Move where
  init c := c = PoolManager.new.custody []
  next := Custody.next

/-! ## What the clients hear -/

/-- A claim that succeeds: its request id and its result. -/
def Answer.claim : Answer → Option (String × ClaimResult)
  | .claimVM _ requestID (.ok res) => some (requestID, res)
  | _ => none

/-- The claims that have succeeded so far. -/
def PoolManager.claims (p : PoolManager) : List (String × ClaimResult) :=
  p.answers.filterMap Answer.claim

/-- The events so far, as a client decodes them, the Pools that were deleted with a
MicroVM that was not past every claim, and the claims that have succeeded. -/
def PoolManager.news (p : PoolManager) :
    List Poolmgr.Event × List PoolRef × List (String × ClaimResult) :=
  (p.log.map Event.decoded, p.left, p.claims)

/-- The state, and the news of it. -/
structure Told where
  custody : Custody
  said : List Poolmgr.Event
  left : List PoolRef

/-- Custody, what was said, and the Pools left behind. -/
def PoolManager.told (fs : List Frame) (p : PoolManager) : Told :=
  ⟨p.custody fs, p.news.1, p.news.2.1⟩

/-- The event of a failed hook. -/
def Custody.failure (f : Frame) (quarantined : Bool) : List Poolmgr.Event :=
  f.hooks.elim [] fun vm => (c.vms vm.id).elim [] fun r =>
    [⟨vm.pool, r.uid, .vmHookFailed quarantined⟩]

/-- The event by which a MicroVM becomes available, or stops being so. -/
def Custody.leads : Move → List Poolmgr.Event
  | .ready vm uid => [⟨vm.pool, uid, .vmAvailable⟩]
  | .lease vm _ _ _ _ => (c.vms vm.id).elim [] fun r => [⟨vm.pool, r.uid, .vmClaimed⟩]
  | .quarantine f => c.failure f true
  | .fail f _ => c.failure f false
  | _ => []

/-- A move, with the Pools it leaves behind, or another event. -/
inductive Tell
  | move (m : Move) (gone : List PoolRef)
  | say (e : Poolmgr.Event)

/-- One move, with the events that come with it, or one event. -/
def Told.next (t : Told) : Tell → Option Told
  | .move m gone =>
    (t.custody.next m).map fun c => ⟨c, t.said ++ t.custody.leads m, gone ++ t.left⟩
  | .say e => some { t with said := t.said ++ [e] }

/-- The runs of moves and events. -/
def tells : Machine Told Tell where
  init t := t = PoolManager.new.told []
  next := Told.next

end FlintlockRunner.Poolmgr.Fake

import FlintlockRunner.Base.Machine
import FlintlockRunner.Poolmgr.Fake.State

/-!
# The sections of the fake Pool Manager

`poolmgr/fake/ops.go`, `reconcile.go` and the call of `hooks.go`: the operations
that clients call, the tick, and the goroutines that provision and delete
MicroVMs, cut where they release the lock. A Host's answer, or a hook's, is read
in the same step as the section after it (`reply`): an error, or what the call
returns. Any hook may fail at any time, because a failure can be injected.

A call that is turned away before its first section (the injected period of
`UNAVAILABLE`, a claim that is cancelled in the injected latency) does nothing,
and `Run`'s end, after which the fake only cleans up, is not among the steps.
-/

namespace FlintlockRunner.Poolmgr.Fake

open Strings

namespace PoolManager

variable (cfg : FakeConfig) (env : Env) (p : PoolManager)

/-! ## `PoolAdmin` -/

/-- `CreatePool`. -/
def createPool (spec : PoolSpec) : PoolManager :=
  match validateSpec spec with
  | .error text => p.answer (.createPool spec.ref (.error ⟨.invalidArgument, text⟩))
  | .ok spec =>
    match cfg.checkNamespace spec.ref.nameSpace with
    | some status => p.answer (.createPool spec.ref (.error status))
    | none =>
      match p.pools.lookup spec.ref with
      | some _ => p.answer (.createPool spec.ref
          (.error ⟨.alreadyExists, "pool " ++ spec.ref.text ++ " already exists"⟩))
      | none =>
        answer { p with
          pools := p.pools.insert spec.ref p.heap.length
          heap := p.heap ++ [PoolState.new spec] } (.createPool spec.ref (.ok spec))

/-- `UpdatePool`: a new spec; the MicroVMs stay as they are. -/
def updatePool (spec : PoolSpec) : PoolManager :=
  match validateSpec spec with
  | .error text => p.answer (.updatePool spec.ref (.error ⟨.invalidArgument, text⟩))
  | .ok spec =>
    match p.poolLocked cfg spec.ref with
    | .error status => p.answer (.updatePool spec.ref (.error status))
    | .ok a =>
      (p.modifyPool a fun ps => { ps with spec := spec, fresh := true }).answer
        (.updatePool spec.ref (.ok (spec, p.countsLocked spec.ref)))

variable (ref : PoolRef)

/-- `deletePool`'s events. -/
def emitDeleted (vms : List (Nat × VM)) : PoolManager :=
  vms.foldl (fun p e =>
    if e.2.uid ≠ "" then p.emitLocked ref e.2.uid .vmDeletedOnPoolDelete else p) p

/-- `deletePool`'s section; its loop over the MicroVMs is a frame. -/
def deletePool : PoolManager :=
  match p.poolLocked cfg ref with
  | .error status => p.answer (.deletePool ref (.error status))
  | .ok _ =>
    match env.leases.find? fun id => (p.leases.lookup id).any fun ls => ls.pool = ref with
    | some id => p.answer (.deletePool ref (.error ⟨.failedPrecondition,
        "pool " ++ ref.text ++ " has outstanding lease " ++ id ++ "; release it first"⟩))
    | none =>
      let vms := (p.vmsOf ref).insertionSort fun a b => a.1 ≤ b.1
      let p := p.emitDeleted ref vms
      push { p with
        pools := p.pools.erase ref
        left := if vms.all fun e => e.2.phase.settled then p.left else ref :: p.left }
        (.deletePool ref (vms.map fun e => ⟨e.1, ref⟩) none)

/-! ## Deletions -/

/-- What the caller of `deleteVM` does when it returns. -/
def deleteReturned (err : Option String) : Caller → PoolManager
  | .background => p
  | .claimVM ref requestID cause => p.answer (.claimVM ref requestID
      (.error ⟨.internal, "pre-lease hook: " ++ cause⟩))
  | .releaseVM leaseID => p.answer (.releaseVM leaseID
      (match err with
        | none => .ok ()
        | some err => .error ⟨.unavailable, "vm cleanup pending, retry later: " ++ err⟩))
  | .deletePool ref rest firstErr => p.push (.deletePool ref rest (firstErr.or err))

variable (vm : VMRef)

/-- `deleteVM`'s first section. -/
def deleteVM (event : Option DeleteEvent) (caller : Caller) : PoolManager :=
  match p.vms.lookup vm.id with
  | none => p.deleteReturned none caller
  | some v =>
    let p := (p.setPhaseLocked env.now vm.id .deleting).modifyVM vm.id fun v =>
      { v with deleteEvent := event.or v.deleteEvent, deleteInFlight := true }
    if v.deleteInFlight then
      p.deleteReturned (some ("delete microvm " ++ v.uid ++ " on " ++ v.host
        ++ ": fake poolmgr: deletion already in flight")) caller
    else p.push (.deleting vm v.host v.uid caller)

/-- The record, its name and its Lease go; the Pool may provision another. -/
def finishDeletionLocked : PoolManager :=
  match p.vms.lookup vm.id with
  | none => p
  | some v =>
    let p := { p with
      vms := p.vms.erase vm.id
      vmByUID := if v.uid ≠ "" then p.vmByUID.erase v.uid else p.vmByUID }
    let p := if v.leaseID ≠ "" then p.dropLeaseLocked v.leaseID else p
    match p.pools.lookup vm.pool with
    | none => p
    | some a =>
      let p := match v.deleteEvent with
        | none => p
        | some event => p.emitLocked vm.pool v.uid event.type
      p.provisionNLocked cfg env vm.pool a (((p.heap[a]?).map fun ps => onDeleted ps.spec).getD 0)

variable (uid : String)

/-- `deleteVM`'s second section. A MicroVM without a uid has nothing on its
Host to delete. -/
def deleted (caller : Caller) (reply : Except String String) :
    PoolManager :=
  let p := p.modifyVM vm.id fun v => { v with deleteInFlight := false }
  match reply with
  | .error err =>
    if uid = "" then (p.finishDeletionLocked cfg env vm).deleteReturned none caller
    else p.deleteReturned (some err) caller
  | .ok _ => (p.finishDeletionLocked cfg env vm).deleteReturned none caller

/-- `deletePool`'s loop. -/
def deleteNext (vms : List VMRef) (firstErr : Option String) : PoolManager :=
  match vms with
  | [] => p.answer (.deletePool ref
      (match firstErr with
        | none => .ok ()
        | some err => .error ⟨.unavailable, "pool " ++ ref.text
            ++ " deleted but some microvms remain pending deletion: " ++ err⟩))
  | vm :: rest =>
    if (p.vms.lookup vm.id).elim "" VM.uid = "" then p.push (.deletePool ref rest firstErr)
    else p.deleteVM env vm none (.deletePool ref rest firstErr)

/-- `applyHookFailurePolicy`'s section. -/
def applyHookFailurePolicy (caller : Caller) : PoolManager :=
  match p.vms.lookup vm.id, p.specOf vm.pool with
  | some v, some spec =>
    let p := (p.modifyVM vm.id fun v => { v with leaseID := "" }).emitLocked vm.pool v.uid
      (.vmHookFailed spec.hookFailurePolicy)
    if spec.hookFailurePolicy = .quarantine then
      (p.setPhaseLocked env.now vm.id .quarantined).deleteReturned none caller
    else (p.setPhaseLocked env.now vm.id .deleting).push (.delete vm none caller)
  | _, _ => p.deleteReturned none caller

/-! ## `provision` -/

variable (reply : Except String String)

/-- `provision`'s first section. -/
def provision : PoolManager :=
  match reply with
  | .error _ => { p with vms := p.vms.erase vm.id }
  | .ok _ =>
    match p.pools.lookup vm.pool with
    | none => p.push (.dropReserved vm)
    | some _ => p.push (.create vm)

/-- `provision` after `CreateMicroVM`: `dropReserved`, or the section that
records the uid. A MicroVM whose Pool is gone is deleted on its Host. -/
def created : PoolManager :=
  match reply with
  | .error _ => { p with vms := p.vms.erase vm.id }
  | .ok uid =>
    if uid = "" then { p with vms := p.vms.erase vm.id }
    else
      let p := { p with uids := uid :: p.uids }
      if p.aliveLocked vm = false then p
      else
        let p := p.modifyVM vm.id fun v => { v with uid := uid, updated := env.now }
        let p := { p with vmByUID := p.vmByUID.insert uid vm.id }
        (p.emitLocked vm.pool uid .vmProvisioned).push (.waitCreated vm uid)

/-- `provision` after `waitCreated`. -/
def waited (reply : Except String String) : PoolManager :=
  match reply with
  | .error _ => p.applyHookFailurePolicy env vm .background
  | .ok _ =>
    if p.aliveLocked vm = false then p
    else (p.setPhaseLocked env.now vm.id .createHookRunning).push (.createHooks vm uid)

/-- `provision` after the create hooks. -/
def hooked (reply : Except String String) : PoolManager :=
  match reply with
  | .error _ => p.applyHookFailurePolicy env vm .background
  | .ok _ =>
    if p.aliveLocked vm = false then p
    else (p.setPhaseLocked env.now vm.id .available).emitLocked vm.pool uid .vmAvailable

/-! ## `Lease` -/

/-- `replayLocked`: the answer for a Lease that carries the request id. -/
def replayLocked (requestID : String) : Option (Except Status ClaimResult) :=
  if requestID = "" then none
  else
    (env.leases.findSome? fun id => (p.leases.lookup id).bind fun ls =>
      if ls.requestID = requestID then some (id, ls) else none).map fun (id, ls) =>
        if ls.pool ≠ ref then
          .error ⟨.invalidArgument, "request_id " ++ quote requestID ++ " was used to claim from pool "
            ++ ls.pool.text ++ ", not " ++ ref.text⟩
        else
          match p.vmOf ls.vmUID with
          | some (_, vm) =>
            if vm.released ∨ vm.phase = .deleting then
              .error ⟨.aborted, "lease " ++ id ++ " for request_id " ++ quote requestID
                ++ " is being released, retry"⟩
            else .ok ⟨id, vm.uid, vm.host⟩
          | none => .error ⟨.aborted, "lease " ++ id ++ " for request_id " ++ quote requestID
              ++ " is being released, retry"⟩

def maxRequestIDLength : Nat := 255

/-- `claimVM`'s first section, which picks a MicroVM. -/
def claimVM (requestID : String) : PoolManager :=
  if requestID.utf8ByteSize > maxRequestIDLength then
    p.answer (.claimVM ref requestID (.error ⟨.invalidArgument, "request_id is "
      ++ toString requestID.utf8ByteSize ++ " bytes, at most 255 allowed"⟩))
  else
    match p.replayLocked env ref requestID with
    | some result => p.answer (.claimVM ref requestID result)
    | none =>
      match p.poolLocked cfg ref with
      | .error status => p.answer (.claimVM ref requestID (.error status))
      | .ok a =>
        match p.oldestAvailableLocked ref with
        | none => p.answer (.claimVM ref requestID
            (.error ⟨.resourceExhausted, "no available vm in pool " ++ ref.text⟩))
        | some (id, _) =>
          (p.setPhaseLocked env.now id .preLeaseHookRunning).push (.preLease ⟨id, ref⟩ a requestID)

/-- The Lease that a claim makes. -/
def leaseFor (vm : VMRef) (threshold : Duration) (requestID : String) :
    LeaseRecord where
  vmUID := uid
  pool := vm.pool
  claimedAt := env.now
  lastHeartbeatAt := env.now
  expiresAt := env.now + threshold
  requestID := requestID

/-- `claimVM` after the pre-lease hooks, with the state of the Pool that it
found before them. -/
def claimed (a : Nat) (requestID : String) (reply : Except String String) :
    PoolManager :=
  match reply with
  | .error cause => p.applyHookFailurePolicy env vm (.claimVM vm.pool requestID cause)
  | .ok _ =>
    match p.vms.lookup vm.id, p.aliveLocked vm, p.heap[a]? with
    | some v, true, some ps =>
      let lease := leaseFor env v.uid vm ps.spec.heartbeatExpiryThreshold requestID
      let p := { p with leases := p.leases.insert env.leaseID lease }
      let p := p.modifyVM vm.id fun v =>
        { v with leaseID := env.leaseID, phase := .leased, updated := env.now }
      let p := p.emitLocked vm.pool v.uid .vmClaimed
      let p := p.provisionNLocked cfg env vm.pool a (onClaimed ps.spec)
      p.answer (.claimVM vm.pool requestID
        (if env.loseResponse then
          .error ⟨.unavailable, "fault injection: claim response lost"⟩
        else .ok ⟨env.leaseID, v.uid, v.host⟩))
    | _, _, _ => p.answer (.claimVM vm.pool requestID
        (.error ⟨.notFound, "pool " ++ vm.pool.text ++ " was deleted during the claim"⟩))

/-- `heartbeat`, with the fault that refuses it. -/
def heartbeat (leaseID : String) (refused : Bool) : PoolManager :=
  if refused then
    p.answer (.heartbeat leaseID (.error ⟨.notFound,
      "lease " ++ leaseID ++ " not found (fault injection: heartbeats refused)"⟩))
  else
    match p.leases.lookup leaseID with
    | none => p.answer (.heartbeat leaseID (.error ⟨.notFound, "lease " ++ leaseID ++ " not found"⟩))
    | some ls =>
      match p.specOf ls.pool with
      | none => p.answer (.heartbeat leaseID (.error ⟨.notFound,
          "pool " ++ ls.pool.text ++ " of lease " ++ leaseID ++ " not found"⟩))
      | some spec =>
        answer { p with leases := p.leases.insert leaseID { ls with
            lastHeartbeatAt := env.now
            expiresAt := env.now + spec.heartbeatExpiryThreshold } }
          (.heartbeat leaseID (.ok (env.now + spec.heartbeatExpiryThreshold)))

/-- `releaseVM`'s section. -/
def releaseVM (leaseID : String) : PoolManager :=
  match p.leases.lookup leaseID with
  | none => p.answer (.releaseVM leaseID (.error ⟨.notFound, "lease " ++ leaseID ++ " not found"⟩))
  | some ls =>
    match p.vmOf ls.vmUID with
    | none => (p.dropLeaseLocked leaseID).answer (.releaseVM leaseID (.ok ()))
    | some (id, vm) =>
      let p :=
        if vm.released then p
        else (p.modifyVM id fun v => { v with released := true }).emitLocked ls.pool vm.uid .vmReleased
      p.push (.delete ⟨id, vm.pool⟩ (some .onRelease) (.releaseVM leaseID))

/-! ## `tick` -/

/-- `tick`'s turn for a Lease, with the MicroVMs whose Lease has expired. -/
def tickLease (expired : List VMRef) (id : String) : PoolManager × List VMRef :=
  match p.leases.lookup id with
  | none => (p, expired)
  | some ls =>
    match p.pools.lookup ls.pool with
    | none => (p, expired)
    | some a =>
      if ls.expiresAt ≤ env.now then
        (p.dropLeaseLocked id,
          match p.vmOf ls.vmUID with
          | none => expired
          | some (id, vm) => if vm.phase = .leased then expired ++ [⟨id, vm.pool⟩] else expired)
      else
        match p.heap[a]? with
        | none => (p, expired)
        | some ps =>
          if ls.expiresAt - env.now ≤ warningWindow ps.spec
              ∧ (ps.warned.lookup id).getD 0 ≠ ls.expiresAt then
            ((p.modifyPool a fun ps => { ps with warned := ps.warned.insert id ls.expiresAt }).emitLocked
              ls.pool ls.vmUID .vmExpiringSoon, expired)
          else (p, expired)

/-- `tick`'s loop over the Leases. -/
def tickLeases : List String → PoolManager × List VMRef → PoolManager × List VMRef
  | [], s => s
  | id :: ids, (p, expired) => tickLeases ids (p.tickLease env expired id)

/-- The MicroVMs whose deletion a Host refused. -/
def pending (vms : List Nat) : List VMRef :=
  vms.filterMap fun id => (p.vms.lookup id).bind fun vm =>
    if vm.phase = .deleting ∧ vm.uid ≠ "" ∧ vm.deleteInFlight = false then some ⟨id, vm.pool⟩
    else none

/-- `tick`'s turn for a Pool. -/
def tickPool (key : PoolRef) : PoolManager :=
  match p.pools.lookup key with
  | none => p
  | some a =>
    match p.heap[a]? with
    | none => p
    | some ps =>
      let c := p.countsLocked key
      let deficit := tickDeficit ps.spec c
      let p :=
        if deficit > 0 ∧ ps.fresh = false then
          p.emitLocked key "" (.poolSizeBelowTarget ⟨c, ps.spec.size.toInt⟩)
        else p
      let p := p.modifyPool a fun ps => { ps with fresh := false }
      p.provisionNLocked cfg env key a deficit

/-- One turn of the reconcile loop: Leases, deletions to take up again, Pools. -/
def tick : PoolManager :=
  match tickLeases env env.leases (p, []) with
  | (p, expired) =>
    let pending := p.pending env.vms
    let p := env.pools.foldl (fun p key => p.tickPool cfg env key) p
    { p with
      frames := expired.map (fun vm => .delete vm (some .dueToExpiry) .background)
        ++ pending.map (fun vm => .delete vm none .background) ++ p.frames }

theorem mem_pending {p : PoolManager} {vms : List Nat} {h : VMRef} (hh : h ∈ p.pending vms) :
    ∃ r, p.vms.lookup h.id = some r ∧ r.phase = .deleting ∧ r.pool = h.pool := by
  obtain ⟨id, -, hid⟩ := List.mem_filterMap.mp hh
  obtain ⟨r, hr, hif⟩ := Option.bind_eq_some_iff.mp hid
  split at hif
  · rename_i hcond
    obtain rfl := Option.some.inj hif
    exact ⟨r, hr, hcond.1, rfl⟩
  · cases hif

/-! ## The machine -/

/-- A goroutine takes its next section. -/
def resume : Frame → PoolManager
  | .provision vm => p.provision vm reply
  | .dropReserved vm => { p with vms := p.vms.erase vm.id }
  | .create vm => p.created env vm reply
  | .waitCreated vm uid => p.waited env vm uid reply
  | .createHooks vm uid => p.hooked env vm uid reply
  | .preLease vm a requestID => p.claimed cfg env vm a requestID reply
  | .delete vm event caller => p.deleteVM env vm event caller
  | .deleting vm _ uid caller => p.deleted cfg env vm uid caller reply
  | .deletePool ref vms firstErr => p.deleteNext env ref vms firstErr

end PoolManager

/-- The orders of the ranges are orders of what the maps hold. -/
def Env.Ranges (env : Env) (p : PoolManager) : Prop :=
  env.leases.Perm p.leases.keys ∧ env.vms.Perm p.vms.keys ∧ env.pools.Perm p.pools.keys

instance (env : Env) (p : PoolManager) : Decidable (env.Ranges p) :=
  inferInstanceAs (Decidable (_ ∧ _))

/-- What can happen: `Run` is called, a client calls an operation, the control
loop ticks, or a goroutine takes its next section. -/
inductive Label
  | run
  | createPool (spec : PoolSpec)
  | updatePool (spec : PoolSpec)
  | deletePool (env : Env) (ref : PoolRef)
  | claimVM (env : Env) (ref : PoolRef) (requestID : String)
  | heartbeat (env : Env) (leaseID : String) (refused : Bool)
  | releaseVM (leaseID : String)
  | tick (env : Env)
  | resume (f : Frame) (env : Env) (reply : Except String String)

/-- One section. -/
def PoolManager.next (cfg : FakeConfig) (p : PoolManager) : Label → Option PoolManager
  | .run => some { p with running := true }
  | .createPool spec => some (p.createPool cfg spec)
  | .updatePool spec => some (p.updatePool cfg spec)
  | .deletePool env ref => if env.Ranges p then some (p.deletePool cfg env ref) else none
  | .claimVM env ref requestID =>
    if env.Ranges p then some (p.claimVM cfg env ref requestID) else none
  | .heartbeat env leaseID refused => some (p.heartbeat env leaseID refused)
  | .releaseVM leaseID => some (p.releaseVM leaseID)
  | .tick env =>
    if p.running = true ∧ env.Ranges p then some (p.tick cfg env) else none
  | .resume f env reply =>
    if f ∈ p.frames then some ((p.drop f).resume cfg env reply f) else none

/-- The fake Pool Manager's runs. -/
def poolManager (cfg : FakeConfig) : Machine PoolManager Label where
  init p := p = .new
  next := PoolManager.next cfg

/-- A Host returns a uid that was not in use. -/
def FreshUIDs (p : PoolManager) : Label → Prop
  | .resume (.create _) _ (.ok uid) => uid ∉ p.uids
  | _ => True

instance (p : PoolManager) : DecidablePred (FreshUIDs p) := fun l => by
  unfold FreshUIDs
  split <;> infer_instance

/-! ## A Pool of one MicroVM -/

def soloRef : PoolRef := ⟨"solo", "default"⟩

/-- A Pool of one MicroVM. -/
def soloSpec : PoolSpec where
  ref := soloRef
  template :=
    { id := "", nameSpace := "", labels := ∅, vcpu := 1, memoryInMb := 512
      kernel := ⟨"kernel", ∅, none, false⟩, initrd := none
      rootVolume :=
        { id := "root", isReadOnly := false, mountPoint := none, containerSource := none
          sizeInMb := none }
      additionalVolumes := [], interfaces := [], metadata := ∅, provider := none
      allowGuestAgent := false }
  size := 1
  flintlockHosts := ["host-a"]
  replenishment := ⟨.replaceOnDelete, none⟩
  createCommands := []
  preLeaseCommands := []
  hookFailurePolicy := .deleteAndReplace
  heartbeatInterval := 1
  heartbeatExpiryThreshold := 3

def soloConfig : FakeConfig := ⟨"", .leastVMs⟩

/-- What a section reads; the map's ranges are as given. -/
def soloEnv (vms : List Nat) (pools : List PoolRef) : Env :=
  ⟨10, ["host-a"], "lease-1", false, [], vms, pools⟩

def soloVM : VMRef := ⟨1, soloRef⟩

/-- The Pool is made and its MicroVM created; its create hooks still run. -/
def soloCreated : List Label :=
  [.run, .createPool soloSpec, .tick (soloEnv [] [soloRef]),
   .resume (.provision soloVM) (soloEnv [] []) (.ok ""),
   .resume (.create soloVM) (soloEnv [] []) (.ok "vm-1"),
   .resume (.waitCreated soloVM "vm-1") (soloEnv [] []) (.ok "")]

def soloHooked : Label := .resume (.createHooks soloVM "vm-1") (soloEnv [] []) (.ok "")

/-- The MicroVM is available, and picked for a claim. -/
def soloPicked (requestID : String) : List Label :=
  soloCreated ++ [soloHooked, .claimVM (soloEnv [1] [soloRef]) soloRef requestID]

/-- The claim's hooks end. -/
def soloClaimed (requestID : String) : Label :=
  .resume (.preLease soloVM 0 requestID) (soloEnv [] []) (.ok "")

end FlintlockRunner.Poolmgr.Fake

import FlintlockRunner.Base.Strings
import FlintlockRunner.Config.Types
import FlintlockRunner.Poolmgr.Types

/-!
# From a Profile to a Pool (`poolmgr/spec.go`, `poolmgr/hosts.go`)

`Build` derives the `PoolSpec` the Runner declares from a Profile and the Hosts
that `Select` picks out of the Inventory. Everything in a spec is a function of
those two, so two configurations ask for the same Pool exactly when they build
the same spec.

A user-data template is rendered by Go's `text/template`, which is a parameter
here: what it makes of a template and a Profile name, or why it could not.
-/

namespace FlintlockRunner.Poolmgr

/-! ## `hosts.go` -/

def matchesSelector (selector labels : StringMap) : Bool :=
  selector.entries.all fun e => labels.lookup e.1 = some e.2

variable (p : Config.Profile)

/-- `hostSelector.Select`. -/
def select (inventory : List Config.HostEntry) : List String :=
  Strings.sorted ((inventory.filter fun host =>
    (p.arch = .unset || host.arch = p.arch) && matchesSelector p.hostSelector host.labels).map
    Config.HostEntry.name)

/-! ## The data of a spec -/

/-- `types.Kernel`. -/
structure Kernel where
  image : String
  cmdline : StringMap
  filename : Option String
  addNetworkConfig : Bool
  deriving DecidableEq

/-- `types.Initrd`. -/
structure Initrd where
  image : String
  filename : Option String
  deriving DecidableEq

/-- `types.Volume`, with the sources it can have. -/
structure Volume where
  id : String
  isReadOnly : Bool
  mountPoint : Option String
  partitionId : Option String := none
  containerSource : Option String
  virtiofsSource : Option String := none
  sizeInMb : Option Int32
  deriving DecidableEq

/-- `types.StaticAddress`. -/
structure StaticAddress where
  address : String
  gateway : Option String
  nameservers : List String
  deriving DecidableEq

/-- `types.NetworkInterface`; its type is a TAP device or a MACVTAP one, and its
overrides are the name of a bridge. -/
structure NetworkInterface where
  deviceId : String
  tap : Bool
  guestMac : Option String := none
  address : Option StaticAddress := none
  overrides : Option (Option String) := none
  deriving DecidableEq

/-- `types.CPUConfig`. -/
structure CPUConfig where
  featuresToEnable : List String
  kvmCapabilitiesToDisable : List String
  deriving DecidableEq

/-- `types.MicroVMSpec`. -/
structure MicroVMSpec where
  id : String
  nameSpace : String
  labels : StringMap
  vcpu : Int32
  memoryInMb : Int32
  kernel : Kernel
  initrd : Option Initrd
  rootVolume : Volume
  additionalVolumes : List Volume
  interfaces : List NetworkInterface
  metadata : StringMap
  provider : Option String
  allowGuestAgent : Bool
  cpuConfig : Option CPUConfig := none
  deriving DecidableEq

inductive ReplenishmentStrategyType
  | unspecified
  | immediateOnLease
  | minSizeThreshold
  | replaceOnDelete
  deriving DecidableEq, Repr

structure ReplenishmentStrategy where
  type : ReplenishmentStrategyType
  minSize : Option Int32
  deriving DecidableEq

inductive HookFailurePolicy
  | unspecified
  | deleteAndReplace
  | quarantine
  deriving DecidableEq, Repr

structure PoolSpec where
  ref : PoolRef
  template : MicroVMSpec
  size : Int32
  flintlockHosts : List String
  replenishment : ReplenishmentStrategy
  createCommands : List String
  preLeaseCommands : List String
  hookFailurePolicy : HookFailurePolicy
  heartbeatInterval : Duration
  heartbeatExpiryThreshold : Duration
  deriving DecidableEq

structure SpecInput where
  runnerName : String
  nameSpace : String
  hosts : List String
  deriving DecidableEq

/-! ## `spec.go` -/

/-- How `text/template` fails. -/
inductive RenderError
  | parsing (err : String)
  | rendering (err : String)
  deriving DecidableEq

/-- `text/template` with the Profile's name as its only data. -/
abbrev Render := (userData profile : String) → Except RenderError String

def labelRunner : String := "gitlab-runner.flintlock.dev/runner"

def labelProfile : String := "gitlab-runner.flintlock.dev/profile"

def rootVolumeID : String := "root"

def guestDeviceID : String := "net0"

def allowedMetadataKeys : List String := ["meta-data", "user-data", "vendor-data", "network-config"]

def labels (input : SpecInput) : StringMap :=
  AList.insert labelProfile p.name (AList.singleton labelRunner input.runnerName)

def guestInterfaces : List NetworkInterface := [{ deviceId := guestDeviceID, tap := true }]

def containerVolume (id image mountPoint : String) (readOnly : Bool) (sizeMB : Int) : Volume where
  id := id
  isReadOnly := readOnly
  mountPoint := if mountPoint = "" then none else some mountPoint
  containerSource := some image
  sizeInMb := if sizeMB > 0 then some (Int32.ofInt sizeMB) else none

def additionalVolumes (vols : List Config.Volume) : List Volume :=
  vols.map fun v => containerVolume v.id v.image v.mountPoint v.readOnly v.sizeMB

/-- `encodeMetadata`: every value in base 64, and no key outside the allowed
ones. -/
def encodeMetadata (entries : StringMap) : Except String StringMap :=
  (Strings.sorted entries.keys).foldlM (fun out key =>
    if key ∈ allowedMetadataKeys then
      .ok (out.insert key (Strings.encodeToString ((entries.lookup key).getD "")))
    else .error ("poolmgr: metadata key " ++ Strings.quote key ++ " is not one of "
      ++ ", ".intercalate allowedMetadataKeys)) ∅

variable (render : Render) (p : Config.Profile)

def buildMetadata : Except String StringMap :=
  if Strings.trimSpace p.userData = "" then .ok ∅
  else
    match render p.userData p.name with
    | .error (.parsing err) =>
      .error ("profile " ++ Strings.quote p.name ++ ": parsing user_data: " ++ err)
    | .error (.rendering err) =>
      .error ("profile " ++ Strings.quote p.name ++ ": rendering user_data: " ++ err)
    | .ok text => encodeMetadata (AList.singleton "user-data" text)

/-- A string that is left out when it is empty. -/
def nonEmpty (s : String) : Option String := if s = "" then none else some s

def buildTemplate (input : SpecInput) :
    Except String MicroVMSpec := do
  let metadata ← buildMetadata render p
  return {
    id := ""
    nameSpace := input.nameSpace
    labels := labels p input
    vcpu := Int32.ofInt p.vcpu
    memoryInMb := Int32.ofInt p.memoryMB
    kernel :=
      { image := p.kernel.image, cmdline := p.kernel.cmdline
        filename := nonEmpty p.kernel.filename, addNetworkConfig := true }
    initrd := p.initrd.map fun i => ⟨i.image, nonEmpty i.filename⟩
    rootVolume := containerVolume rootVolumeID p.rootFS "" false 0
    additionalVolumes := additionalVolumes p.additionalVolumes
    interfaces := guestInterfaces
    metadata := metadata
    provider := nonEmpty p.provider
    allowGuestAgent := true }

def replenishment (s : Config.PoolSettings) : Except String ReplenishmentStrategy :=
  match s.strategy with
  | .unset | .immediateOnLease => .ok ⟨.immediateOnLease, none⟩
  | .minSizeThreshold => .ok ⟨.minSizeThreshold, s.minSize.map Int32.ofInt⟩
  | .replaceOnDelete => .ok ⟨.replaceOnDelete, none⟩
  | .unknown text => .error ("unknown replenishment strategy " ++ Strings.quote text)

def hookFailurePolicy : Config.HookFailurePolicy → Except String HookFailurePolicy
  | .unset | .deleteAndReplace => .ok .deleteAndReplace
  | .quarantine => .ok .quarantine
  | .unknown text => .error ("unknown hook failure policy " ++ Strings.quote text)

/-- `poolRef`: the Profile's Pool in the Runner's own namespace, unless its pool
settings say otherwise. -/
def poolRef (nameSpace : String) : PoolRef where
  name := if p.pool.name = "" then p.name else p.pool.name
  nameSpace := if p.pool.nameSpace = "" then nameSpace else p.pool.nameSpace

/-- An error with the Profile it is about in front. -/
def ofProfile {α : Type} (r : Except String α) : Except String α :=
  r.mapError fun err => "profile " ++ Strings.quote p.name ++ ": " ++ err

/-- `specBuilder.Build`. -/
def build (input : SpecInput) :
    Except String PoolSpec := do
  let template ← buildTemplate render p input
  let strategy ← ofProfile p (replenishment p.pool)
  let policy ← ofProfile p (hookFailurePolicy p.pool.hookFailurePolicy)
  return {
    ref := poolRef p input.nameSpace
    template := template
    size := Int32.ofInt p.pool.size
    flintlockHosts := input.hosts
    replenishment := strategy
    createCommands := p.pool.createHooks
    preLeaseCommands := p.pool.preLeaseHooks
    hookFailurePolicy := policy
    heartbeatInterval := p.pool.heartbeatInterval
    heartbeatExpiryThreshold := p.pool.heartbeatExpiry }

end FlintlockRunner.Poolmgr

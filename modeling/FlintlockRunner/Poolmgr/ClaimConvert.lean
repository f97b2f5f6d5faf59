import FlintlockRunner.Poolmgr.ClaimBackend
import FlintlockRunner.Poolmgr.Spec

/-!
# Pools as Kubernetes resources (`poolmgr/claim/convert.go`)

A Pool of the claim backend is a resource of battery-operator. `poolFromSpec`
makes the resource that a spec declares and `specFromPool` reads a spec back. The
resource has no place for the template's id and namespace, nor for the Hosts of
the spec; its own namespace is the backend's, and the namespace of the PoolRef
stands in an annotation. The types of the resource are third-party; their fields
are here as the conversion names them. A spec always has a template, and a
template a kernel and a root volume.
-/

namespace FlintlockRunner.Poolmgr

namespace Resource

/-! ## The resource -/

/-- `batteryv1alpha1.Kernel`. -/
structure Kernel where
  image : String
  cmdline : StringMap
  filename : Option String
  addNetworkConfig : Bool
  deriving DecidableEq

/-- `batteryv1alpha1.Initrd`. -/
structure Initrd where
  image : String
  filename : Option String
  deriving DecidableEq

/-- `batteryv1alpha1.Volume`. -/
structure Volume where
  id : String
  readOnly : Bool
  mountPoint : Option String
  partitionID : Option String
  sizeInMb : Option Int32
  containerSource : Option String
  virtiofsSource : Option String
  deriving DecidableEq

/-- The types of a network interface. -/
inductive NetworkInterfaceType
  | macvtap
  | tap
  | other (text : String)
  deriving DecidableEq

/-- `batteryv1alpha1.StaticAddress`. -/
structure StaticAddress where
  address : String
  gateway : Option String
  nameservers : List String
  deriving DecidableEq

/-- `batteryv1alpha1.NetworkOverrides`. -/
structure NetworkOverrides where
  bridgeName : Option String
  deriving DecidableEq

/-- `batteryv1alpha1.NetworkInterface`. -/
structure NetworkInterface where
  deviceID : String
  type : NetworkInterfaceType
  guestMAC : Option String
  address : Option StaticAddress
  overrides : Option NetworkOverrides
  deriving DecidableEq

/-- `batteryv1alpha1.CPUConfig`. -/
structure CPUConfig where
  featuresToEnable : List String
  kvmCapabilitiesToDisable : List String
  deriving DecidableEq

/-- `batteryv1alpha1.MicroVMTemplate`. -/
structure MicroVMTemplate where
  provider : Option String
  vcpu : Int32
  memoryInMb : Int32
  metadata : StringMap
  labels : StringMap
  kernel : Kernel
  initrd : Option Initrd
  rootVolume : Volume
  additionalVolumes : List Volume
  interfaces : List NetworkInterface
  cpuConfig : Option CPUConfig
  deriving DecidableEq

/-- The types of a replenishment strategy. -/
inductive ReplenishmentType
  | immediateOnLease
  | minSizeThreshold
  | replaceOnDelete
  | other (text : String)
  deriving DecidableEq

/-- `batteryv1alpha1.ReplenishmentStrategy`. -/
structure ReplenishmentStrategy where
  type : ReplenishmentType
  minSize : Option Int32
  deriving DecidableEq

/-- `batteryv1alpha1.HookFailurePolicy`. -/
inductive HookFailurePolicy
  | deleteAndReplace
  | quarantine
  | other (text : String)
  deriving DecidableEq

/-- `batteryv1alpha1.PoolHooks`. -/
structure PoolHooks where
  create : List String
  preLease : List String
  failurePolicy : HookFailurePolicy
  deriving DecidableEq

/-- `batteryv1alpha1.PoolLease`; an unset duration is the CRD's default. -/
structure PoolLease where
  heartbeatInterval : Option Duration
  expiryThreshold : Option Duration
  deriving DecidableEq

/-- `batteryv1alpha1.PoolSpec`, with the node selector of its placement. -/
structure PoolSpec where
  template : MicroVMTemplate
  size : Int32
  nodeSelector : StringMap
  replenishment : ReplenishmentStrategy
  hooks : PoolHooks
  lease : PoolLease
  deriving DecidableEq

/-- `batteryv1alpha1.Pool`, with the metadata the backend reads and writes. -/
structure Pool where
  name : String
  nameSpace : String
  labels : StringMap
  annotations : StringMap
  spec : PoolSpec
  status : PoolStatus
  deriving DecidableEq

end Resource

/-- `poolmgr.Pool`. -/
structure Pool where
  spec : PoolSpec
  status : PoolStatus
  deriving DecidableEq

/-! ## From a spec -/

/-- `kubelabels.Prefix`. -/
def labelDomain : String := "gitlab-runner.flintlock.dev/"

def labelArch : String := "kubernetes.io/arch"

def annotationPoolNamespace : String := labelDomain ++ "pool-namespace"

def volumeFromFlintlock (v : Volume) : Resource.Volume where
  id := v.id
  readOnly := v.isReadOnly
  mountPoint := v.mountPoint
  partitionID := v.partitionId
  sizeInMb := v.sizeInMb
  containerSource := v.containerSource
  virtiofsSource := v.virtiofsSource

def interfaceFromFlintlock (n : NetworkInterface) : Resource.NetworkInterface where
  deviceID := n.deviceId
  type := if n.tap then .tap else .macvtap
  guestMAC := n.guestMac
  address := n.address.map fun a => ⟨a.address, a.gateway, a.nameservers⟩
  overrides := n.overrides.map fun bridgeName => ⟨bridgeName⟩

def templateFromFlintlock (t : MicroVMSpec) : Resource.MicroVMTemplate where
  provider := t.provider
  vcpu := t.vcpu
  memoryInMb := t.memoryInMb
  metadata := t.metadata
  labels := t.labels
  kernel := ⟨t.kernel.image, t.kernel.cmdline, t.kernel.filename, t.kernel.addNetworkConfig⟩
  initrd := t.initrd.map fun i => ⟨i.image, i.filename⟩
  rootVolume := volumeFromFlintlock t.rootVolume
  additionalVolumes := t.additionalVolumes.map volumeFromFlintlock
  interfaces := t.interfaces.map interfaceFromFlintlock
  cpuConfig := t.cpuConfig.map fun c => ⟨c.featuresToEnable, c.kvmCapabilitiesToDisable⟩

def replenishmentFromBattery (r : ReplenishmentStrategy) :
    Except Sentinel Resource.ReplenishmentStrategy :=
  match r.type with
  | .immediateOnLease => .ok ⟨.immediateOnLease, r.minSize⟩
  | .minSizeThreshold => .ok ⟨.minSizeThreshold, r.minSize⟩
  | .replaceOnDelete => .ok ⟨.replaceOnDelete, r.minSize⟩
  | .unspecified => .error .invalid

def hookPolicyFromBattery : HookFailurePolicy → Except Sentinel Resource.HookFailurePolicy
  | .deleteAndReplace => .ok .deleteAndReplace
  | .quarantine => .ok .quarantine
  | .unspecified => .error .invalid

/-- `duration`. -/
def resourceDuration (d : Duration) : Option Duration := if d ≤ 0 then none else some d

/-- `nodeSelector`; a later key overwrites an earlier one. -/
def nodeSelector (profile : Config.Profile) : StringMap :=
  profile.hostSelector.entries.foldl (fun sel e =>
      sel.insert (if Strings.contains e.1 "/" then e.1 else labelDomain ++ e.1) e.2)
    (if profile.arch.text = "" then ∅ else AList.singleton labelArch profile.arch.text)

def poolFromSpec (spec : PoolSpec) (profile : Config.Profile) (nameSpace runner : String) :
    Except Sentinel Resource.Pool := do
  let replenishment ← replenishmentFromBattery spec.replenishment
  let policy ← hookPolicyFromBattery spec.hookFailurePolicy
  return {
    name := spec.ref.name
    nameSpace := nameSpace
    labels := AList.insert labelProfile ((spec.template.labels.lookup labelProfile).getD "")
      (AList.singleton labelRunner runner)
    annotations := AList.singleton annotationPoolNamespace spec.ref.nameSpace
    spec :=
      { template := templateFromFlintlock spec.template
        size := spec.size
        nodeSelector := nodeSelector profile
        replenishment := replenishment
        hooks := ⟨spec.createCommands, spec.preLeaseCommands, policy⟩
        lease := ⟨resourceDuration spec.heartbeatInterval,
          resourceDuration spec.heartbeatExpiryThreshold⟩ }
    status := ⟨0, 0, 0, 0⟩ }

/-! ## Back to a spec -/

def volumeToFlintlock (v : Resource.Volume) : Volume where
  id := v.id
  isReadOnly := v.readOnly
  mountPoint := v.mountPoint
  partitionId := v.partitionID
  sizeInMb := v.sizeInMb
  containerSource := v.containerSource
  virtiofsSource := v.virtiofsSource

def interfaceToFlintlock (n : Resource.NetworkInterface) : NetworkInterface where
  deviceId := n.deviceID
  tap := n.type = .tap
  guestMac := n.guestMAC
  address := n.address.map fun a => ⟨a.address, a.gateway, a.nameservers⟩
  overrides := n.overrides.map fun o => o.bridgeName

def templateToFlintlock (t : Resource.MicroVMTemplate) : MicroVMSpec where
  id := ""
  nameSpace := ""
  labels := t.labels
  vcpu := t.vcpu
  memoryInMb := t.memoryInMb
  kernel := ⟨t.kernel.image, t.kernel.cmdline, t.kernel.filename, t.kernel.addNetworkConfig⟩
  initrd := t.initrd.map fun i => ⟨i.image, i.filename⟩
  rootVolume := volumeToFlintlock t.rootVolume
  additionalVolumes := t.additionalVolumes.map volumeToFlintlock
  interfaces := t.interfaces.map interfaceToFlintlock
  metadata := t.metadata
  provider := t.provider
  allowGuestAgent := true
  cpuConfig := t.cpuConfig.map fun c => ⟨c.featuresToEnable, c.kvmCapabilitiesToDisable⟩

def replenishmentToBattery (r : Resource.ReplenishmentStrategy) : ReplenishmentStrategy where
  type := match r.type with
    | .immediateOnLease => .immediateOnLease
    | .minSizeThreshold => .minSizeThreshold
    | .replaceOnDelete => .replaceOnDelete
    | .other _ => .unspecified
  minSize := r.minSize

def hookPolicyToBattery : Resource.HookFailurePolicy → HookFailurePolicy
  | .deleteAndReplace => .deleteAndReplace
  | .quarantine => .quarantine
  | .other _ => .unspecified

variable (pool : Resource.Pool)

def refOf (runnerNamespace : String) : PoolRef where
  name := pool.name
  nameSpace :=
    let ns := (pool.annotations.lookup annotationPoolNamespace).getD ""
    if ns = "" then runnerNamespace else ns

def specFromPool (runnerNamespace : String) : PoolSpec where
  ref := refOf pool runnerNamespace
  template := templateToFlintlock pool.spec.template
  size := pool.spec.size
  flintlockHosts := []
  replenishment := replenishmentToBattery pool.spec.replenishment
  createCommands := pool.spec.hooks.create
  preLeaseCommands := pool.spec.hooks.preLease
  hookFailurePolicy := hookPolicyToBattery pool.spec.hooks.failurePolicy
  heartbeatInterval := pool.spec.lease.heartbeatInterval.getD 0
  heartbeatExpiryThreshold := pool.spec.lease.expiryThreshold.getD 0

def statusFromPool : PoolStatus := pool.status

/-! ## The round trip -/

theorem volumeToFlintlock_from (v : Volume) : volumeToFlintlock (volumeFromFlintlock v) = v := rfl

theorem interfaceToFlintlock_from (n : NetworkInterface) :
    interfaceToFlintlock (interfaceFromFlintlock n) = n := by
  obtain ⟨deviceId, tap, guestMac, address, overrides⟩ := n
  cases tap <;> cases address <;> cases overrides <;> rfl

/-- What the resource keeps of a template: everything but its id and its
namespace. -/
theorem templateToFlintlock_from (t : MicroVMSpec) (h : t.allowGuestAgent = true) :
    templateToFlintlock (templateFromFlintlock t) = { t with id := "", nameSpace := "" } := by
  have hvolumes : (volumeToFlintlock ∘ volumeFromFlintlock) = id := funext volumeToFlintlock_from
  have hinterfaces : (interfaceToFlintlock ∘ interfaceFromFlintlock) = id :=
    funext interfaceToFlintlock_from
  simp only [templateToFlintlock, templateFromFlintlock, List.map_map, hvolumes, hinterfaces,
    List.map_id, volumeToFlintlock_from, h, Option.map_map]
  cases t.initrd <;> cases t.cpuConfig <;> rfl

theorem replenishmentToBattery_from {r : ReplenishmentStrategy}
    {r' : Resource.ReplenishmentStrategy} (h : replenishmentFromBattery r = .ok r') :
    replenishmentToBattery r' = r := by
  obtain ⟨type, minSize⟩ := r
  cases type <;> cases h <;> rfl

theorem hookPolicyToBattery_from {p : HookFailurePolicy} {p' : Resource.HookFailurePolicy}
    (h : hookPolicyFromBattery p = .ok p') : hookPolicyToBattery p' = p := by
  cases p <;> cases h <;> rfl

end FlintlockRunner.Poolmgr

import Mathlib.Data.List.AList

/-!
# The configuration schema (`internal/config/types.go`)

The YAML schema of the Runner as records, with the source's field names. A
string the schema restricts to a few values (an architecture, a transport
kind, …) is an inductive type with one constructor per named constant, one for
the empty string an unset field decodes to, and one for any other text, which
`Validate` rejects by quoting it. A Go map is an association list without
repeated keys (`AList`); the order of its entries stands for the order a
`range` over the map happens to take. Durations are nanoseconds.

The installed versions of a Host, which no modelled function reads, are left
out.
-/

namespace FlintlockRunner

/-- `time.Time`, in nanoseconds of the injected clock. -/
abbrev Time := Int

/-- `time.Duration`, in nanoseconds. -/
abbrev Duration := Int

/-- `time.Second`. -/
def second : Duration := 1000000000

/-- `time.Minute`. -/
def minute : Duration := 60 * second

/-- `time.Hour`. -/
def hour : Duration := 60 * minute

/-- `map[string]string`. -/
abbrev StringMap := AList fun _ : String => String

/-- Maps are compared by their entries, so that comparing two records
evaluates. -/
instance : DecidableEq StringMap := fun a b =>
  decidable_of_iff (a.entries = b.entries) AList.ext_iff.symm

namespace Config

inductive Architecture
  | unset
  | amd64
  | arm64
  | unknown (text : String)
  deriving DecidableEq, Repr, Inhabited

/-- The text of an `Architecture`, as the file writes it. -/
def Architecture.text : Architecture → String
  | .unset => ""
  | .amd64 => "amd64"
  | .arm64 => "arm64"
  | .unknown text => text

inductive TransportKind
  | unset
  | exec
  | ssh
  | unknown (text : String)
  deriving DecidableEq, Repr, Inhabited

/-- The text of a `TransportKind`. -/
def TransportKind.text : TransportKind → String
  | .unset => ""
  | .exec => "exec"
  | .ssh => "ssh"
  | .unknown text => text

inductive ReplenishmentStrategy
  | unset
  | immediateOnLease
  | minSizeThreshold
  | replaceOnDelete
  | unknown (text : String)
  deriving DecidableEq, Repr, Inhabited

inductive HookFailurePolicy
  | unset
  | deleteAndReplace
  | quarantine
  | unknown (text : String)
  deriving DecidableEq, Repr, Inhabited

/-- `PoolBackend`; an unset backend means battery. -/
inductive PoolBackend
  | unset
  | battery
  | claim
  | unknown (text : String)
  deriving DecidableEq, Repr, Inhabited

inductive LogFormat
  | unset
  | json
  | text
  | unknown (name : String)
  deriving DecidableEq, Repr, Inhabited

/-- `ByteSize`: a 64-bit signed byte count, whose additions wrap. -/
abbrev ByteSize := Int64

structure ClientTLS where
  caFile : String
  certFile : String
  keyFile : String
  insecure : Bool
  deriving DecidableEq, Inhabited

structure GitLab where
  url : String
  token : String
  name : String
  concurrent : Int
  checkInterval : Duration
  outputLimitKB : Int
  shutdownTimeout : Duration
  tls : ClientTLS
  allowInsecure : Bool
  deriving DecidableEq, Inhabited

structure Kernel where
  image : String
  filename : String
  cmdline : StringMap
  deriving DecidableEq, Inhabited

structure Initrd where
  image : String
  filename : String
  deriving DecidableEq, Inhabited

structure Volume where
  id : String
  image : String
  mountPoint : String
  readOnly : Bool
  sizeMB : Int
  deriving DecidableEq, Inhabited

structure SSHTransport where
  user : String
  privateKeyFile : String
  knownHostKey : String
  deriving DecidableEq, Inhabited

structure Transport where
  kind : TransportKind
  ssh : SSHTransport
  deriving DecidableEq, Inhabited

structure PoolSettings where
  size : Int
  name : String
  nameSpace : String
  strategy : ReplenishmentStrategy
  minSize : Option Int
  createHooks : List String
  preLeaseHooks : List String
  hookFailurePolicy : HookFailurePolicy
  heartbeatInterval : Duration
  heartbeatExpiry : Duration
  deriving DecidableEq, Inhabited

/-- `Profile`: the MicroVM a class of Jobs runs in and the Pool it is bound
to. -/
structure Profile where
  name : String
  arch : Architecture
  vcpu : Int
  memoryMB : Int
  kernel : Kernel
  initrd : Option Initrd
  rootFS : String
  additionalVolumes : List Volume
  provider : String
  userData : String
  shell : String
  buildsDir : String
  cacheDir : String
  helperPath : String
  images : List String
  imageGlobs : List String
  isDefault : Bool
  transport : Transport
  user : String
  readyTimeout : Duration
  hostSelector : StringMap
  maxConcurrency : Int
  pool : PoolSettings
  deriving DecidableEq, Inhabited

structure HostServiceAddresses where
  buildkit : String
  goProxy : String
  registryMirror : String
  httpCache : StringMap
  deriving DecidableEq, Inhabited

/-- `HostEntry`: one Inventory entry. -/
structure HostEntry where
  name : String
  endpoint : String
  arch : Architecture
  vcpu : Int
  memoryMB : Int
  labels : StringMap
  token : String
  tls : ClientTLS
  services : HostServiceAddresses
  deriving DecidableEq, Inhabited

structure Inventory where
  file : String
  hosts : List HostEntry
  deriving DecidableEq, Inhabited

structure ServingCAConfigMap where
  nameSpace : String
  name : String
  key : String
  deriving DecidableEq, Inhabited

structure ClaimPools where
  kubeconfig : String
  context : String
  nameSpace : String
  holderServiceAccount : String
  servingCA : ServingCAConfigMap
  deriving DecidableEq, Inhabited

structure PoolManager where
  backend : PoolBackend
  claim : Option ClaimPools
  endpoint : String
  tls : ClientTLS
  deadline : Duration
  healthBackoff : Duration
  healthInterval : Duration
  healthFailureThreshold : Int
  eventsPollInterval : Duration
  declareRetryInterval : Duration
  releaseRetryLimit : Int
  deriving DecidableEq, Inhabited

/-- `PoolManager.IsClaim`. -/
def PoolManager.isClaim (pm : PoolManager) : Bool := pm.backend = .claim

/-- `Scheduler`: the section, not the component. -/
structure Scheduler where
  nameSpace : String
  allocationTimeout : Duration
  hostHealthInterval : Duration
  hostUnhealthyThreshold : Int
  hostCallDeadline : Duration
  keepOnFailure : Bool
  keepDuration : Duration
  allowDefaultForUnknownImages : Bool
  deriving DecidableEq, Inhabited

structure Executor where
  prepareTimeout : Duration
  gracefulKillTimeout : Duration
  transportDeadline : Duration
  deriving DecidableEq, Inhabited

/-- `Service`: the common part of every Host Service; an unset `enabled`
means enabled. -/
structure Service where
  enabled : Option Bool
  port : Int
  deriving DecidableEq, Inhabited

/-- `Service.IsEnabled`. -/
def Service.isEnabled (s : Service) : Bool := s.enabled.getD true

structure Buildkit extends Service where
  storageLimit : ByteSize
  gcPolicy : String
  deriving DecidableEq, Inhabited

structure GoProxy extends Service where
  upstream : String
  privatePatterns : List String
  privateVCSHost : String
  credentialParameter : String
  privateRevalidateInterval : Duration
  storageLimit : ByteSize
  prewarm : List String
  deriving DecidableEq, Inhabited

structure RegistryUpstream where
  url : String
  credentialParameter : String
  deriving DecidableEq, Inhabited

structure RegistryMirror extends Service where
  upstreams : List RegistryUpstream
  storageLimit : ByteSize
  prewarm : List String
  deriving DecidableEq, Inhabited

structure HTTPCacheUpstream where
  name : String
  url : String
  sizeLimit : ByteSize
  ttl : Duration
  envVar : String
  deriving DecidableEq, Inhabited

structure HTTPCache extends Service where
  upstreams : List HTTPCacheUpstream
  deriving DecidableEq, Inhabited

structure CacheVolume where
  device : String
  directory : String
  sizeCap : ByteSize
  deriving DecidableEq, Inhabited

structure HostServices where
  buildkit : Buildkit
  goProxy : GoProxy
  registryMirror : RegistryMirror
  httpCache : HTTPCache
  cacheVolume : CacheVolume
  deriving DecidableEq, Inhabited

structure DistributedCache where
  bucket : String
  region : String
  keyPrefix : String
  endpoint : String
  insecure : Bool
  deriving DecidableEq, Inhabited

structure Observability where
  logFormat : LogFormat
  logLevel : String
  listenAddress : String
  deriving DecidableEq, Inhabited

end Config

/-- `Config`: the root of the configuration file. -/
structure Config where
  gitLab : Config.GitLab
  profiles : List Config.Profile
  inventory : Config.Inventory
  poolManager : Config.PoolManager
  scheduler : Config.Scheduler
  executor : Config.Executor
  hostServices : Config.HostServices
  distributedCache : Option Config.DistributedCache
  observability : Config.Observability
  stateDir : String
  deriving DecidableEq, Inhabited

end FlintlockRunner

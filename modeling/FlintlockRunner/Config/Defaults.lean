import FlintlockRunner.Config.Types
import Mathlib.Algebra.Ring.Int.Defs

/-!
# The documented defaults (`internal/config/defaults.go`)

`applyDefaults` fills every unset optional field and overwrites none that is
set. What the process itself supplies is a parameter: the host name (which the
operating system may fail to give) and the architecture the Runner was built
for.
-/

namespace FlintlockRunner

namespace Config

/-! ## The default values -/

def defaultCheckInterval : Duration := 3 * second
def defaultOutputLimitKB : Int := 4096
def defaultShutdownTimeout : Duration := 30 * second
def defaultConcurrencyFactor : Int64 := 2
def defaultProfileVCPU : Int := 2
def defaultProfileMemoryMB : Int := 2048
def defaultShell : String := "/bin/bash"
def defaultBuildsDir : String := "/builds"
def defaultCacheDir : String := "/cache"
def defaultHelperPath : String := "/usr/local/bin/gitlab-runner-helper"
def defaultUser : String := "root"
def defaultReadyTimeout : Duration := 60 * second
def defaultHeartbeatInterval : Duration := 10 * second
def defaultHeartbeatExpiry : Duration := 30 * second
def defaultPoolManagerDeadline : Duration := 10 * second
def defaultPoolManagerHealthBackoff : Duration := 30 * second
def defaultPoolManagerHealthInterval : Duration := 10 * second
def defaultPoolManagerHealthThreshold : Int := 3
def defaultPoolManagerEventsPoll : Duration := 5 * second
def defaultPoolManagerDeclareRetry : Duration := 30 * second
def defaultPoolManagerReleaseRetry : Int := 5
def defaultClaimServingCANamespace : String := "battery-operator-system"
def defaultClaimServingCAName : String := "flintlockd-ca"
def defaultClaimServingCAKey : String := "serving-ca.crt"
def defaultAllocationTimeout : Duration := 5 * minute
def defaultHostHealthInterval : Duration := 10 * second
def defaultHostUnhealthyThreshold : Int := 3
def defaultHostCallDeadline : Duration := 10 * second
def defaultKeepDuration : Duration := hour
def defaultPrepareTimeout : Duration := 5 * minute
def defaultGracefulKillTimeout : Duration := 30 * second
def defaultTransportDeadline : Duration := 30 * second
def defaultBuildkitPort : Int := 1234
def defaultGoProxyPort : Int := 3000
def defaultRegistryMirrorPort : Int := 5000
def defaultHTTPCachePort : Int := 3128
def defaultGoProxyUpstream : String := "https://proxy.golang.org"
def defaultPrivateRevalidateInterval : Duration := 24 * hour
def defaultRegistryUpstream : String := "https://registry-1.docker.io"
def defaultHTTPCacheTTL : Duration := 24 * hour
def defaultCacheVolumeDirectory : String := "/var/lib/flintlock-runner/cache"
def defaultCacheVolumeSizeCap : ByteSize := 200 * 1073741824
def defaultS3Region : String := "us-east-1"
def defaultLogFormat : LogFormat := .json
def defaultLogLevel : String := "info"
def defaultListenAddress : String := ":9252"
def defaultStateDir : String := "/var/lib/flintlock-runner"

/-! ## Filling unset fields -/

/-- Keep `x` unless it is the type's unset value, which `d` replaces. -/
def orDefault {α : Type} [DecidableEq α] (unset d x : α) : α :=
  if x = unset then d else x

/-- `defaultConcurrency`: twice the sum of the declared Pool sizes. The sum and
the product are of Go's `int` and wrap in 64 bits. -/
def defaultConcurrency (profiles : List Profile) : Int :=
  (defaultConcurrencyFactor *
    profiles.foldl (fun sum p => sum + Int64.ofInt p.pool.size) 0).toInt

/-- `applyGitLabDefaults`; `hostname` is `none` when the operating system
fails to name the host. -/
def applyGitLabDefaults (hostname : Option String) (profiles : List Profile)
    (g : GitLab) : GitLab :=
  { g with
    name := if g.name = "" then hostname.getD "" else g.name
    concurrent := orDefault 0 (defaultConcurrency profiles) g.concurrent
    checkInterval := orDefault 0 defaultCheckInterval g.checkInterval
    outputLimitKB := orDefault 0 defaultOutputLimitKB g.outputLimitKB
    shutdownTimeout := orDefault 0 defaultShutdownTimeout g.shutdownTimeout }

/-- `applySchedulerDefaults`; the Runner namespace defaults to the runner
name. -/
def applySchedulerDefaults (runnerName : String) (s : Scheduler) : Scheduler :=
  { s with
    nameSpace := orDefault "" runnerName s.nameSpace
    allocationTimeout := orDefault 0 defaultAllocationTimeout s.allocationTimeout
    hostHealthInterval := orDefault 0 defaultHostHealthInterval s.hostHealthInterval
    hostUnhealthyThreshold :=
      orDefault 0 defaultHostUnhealthyThreshold s.hostUnhealthyThreshold
    hostCallDeadline := orDefault 0 defaultHostCallDeadline s.hostCallDeadline
    keepDuration :=
      if s.keepOnFailure then orDefault 0 defaultKeepDuration s.keepDuration
      else s.keepDuration }

/-- `defaultArch`: the architecture every Inventory Host shares, or the
Runner's own when the Hosts disagree or there are none. A Host without an
architecture does not count as disagreeing while none is shared yet. -/
def defaultArch (goarch : Architecture) (hosts : List HostEntry) : Architecture :=
  shared .unset hosts
where
  /-- The loop over the Hosts, with the architecture shared so far. -/
  shared (acc : Architecture) : List HostEntry → Architecture
    | [] => if acc = .unset then goarch else acc
    | h :: hs =>
      if acc = .unset then shared h.arch hs
      else if h.arch = acc then shared acc hs
      else goarch

/-- The Guest Transport part of `applyProfileDefaults`: the kind first, then
the user of an ssh transport, which follows the (defaulted) Profile user. -/
def applyTransportDefaults (user : String) (t : Transport) : Transport :=
  let kind := orDefault .unset .exec t.kind
  { t with
    kind := kind
    ssh := if kind = .ssh then { t.ssh with user := orDefault "" user t.ssh.user }
      else t.ssh }

/-- The Pool part of `applyProfileDefaults`. -/
def applyPoolDefaults (profileName runnerNamespace : String) (ps : PoolSettings) : PoolSettings :=
  { ps with
    name := orDefault "" profileName ps.name
    nameSpace := orDefault "" runnerNamespace ps.nameSpace
    strategy := orDefault .unset .immediateOnLease ps.strategy
    hookFailurePolicy :=
      if ps.createHooks = [] ∧ ps.preLeaseHooks = [] then ps.hookFailurePolicy
      else orDefault .unset .deleteAndReplace ps.hookFailurePolicy
    heartbeatInterval := orDefault 0 defaultHeartbeatInterval ps.heartbeatInterval
    heartbeatExpiry := orDefault 0 defaultHeartbeatExpiry ps.heartbeatExpiry }

/-- The body of `applyProfileDefaults`' loop: one Profile's defaults. -/
def applyOneProfileDefaults (arch : Architecture) (runnerNamespace : String)
    (p : Profile) : Profile :=
  let user := orDefault "" defaultUser p.user
  { p with
    arch := orDefault .unset arch p.arch
    vcpu := orDefault 0 defaultProfileVCPU p.vcpu
    memoryMB := orDefault 0 defaultProfileMemoryMB p.memoryMB
    shell := orDefault "" defaultShell p.shell
    buildsDir := orDefault "" defaultBuildsDir p.buildsDir
    cacheDir := orDefault "" defaultCacheDir p.cacheDir
    helperPath := orDefault "" defaultHelperPath p.helperPath
    transport := applyTransportDefaults user p.transport
    user := user
    readyTimeout := orDefault 0 defaultReadyTimeout p.readyTimeout
    pool := applyPoolDefaults p.name runnerNamespace p.pool }

/-- `applyProfileDefaults`; a single Profile is the Default Profile. -/
def applyProfileDefaults (goarch : Architecture) (hosts : List HostEntry)
    (runnerNamespace : String) (profiles : List Profile) : List Profile :=
  match profiles.map (applyOneProfileDefaults (defaultArch goarch hosts) runnerNamespace) with
  | [p] => [{ p with isDefault := true }]
  | ps => ps

def applyClaimDefaults (k : ClaimPools) : ClaimPools :=
  { k with
    servingCA :=
      { nameSpace := orDefault "" defaultClaimServingCANamespace k.servingCA.nameSpace
        name := orDefault "" defaultClaimServingCAName k.servingCA.name
        key := orDefault "" defaultClaimServingCAKey k.servingCA.key } }

/-- `applyPoolManagerDefaults`; the claim section is defaulted only where its
backend is selected. -/
def applyPoolManagerDefaults (pm : PoolManager) : PoolManager :=
  { pm with
    claim := if pm.isClaim then some (applyClaimDefaults (pm.claim.getD default))
      else pm.claim
    deadline := orDefault 0 defaultPoolManagerDeadline pm.deadline
    healthBackoff := orDefault 0 defaultPoolManagerHealthBackoff pm.healthBackoff
    healthInterval := orDefault 0 defaultPoolManagerHealthInterval pm.healthInterval
    healthFailureThreshold :=
      orDefault 0 defaultPoolManagerHealthThreshold pm.healthFailureThreshold
    eventsPollInterval := orDefault 0 defaultPoolManagerEventsPoll pm.eventsPollInterval
    declareRetryInterval :=
      orDefault 0 defaultPoolManagerDeclareRetry pm.declareRetryInterval
    releaseRetryLimit := orDefault 0 defaultPoolManagerReleaseRetry pm.releaseRetryLimit }

def applyExecutorDefaults (e : Executor) : Executor where
  prepareTimeout := orDefault 0 defaultPrepareTimeout e.prepareTimeout
  gracefulKillTimeout := orDefault 0 defaultGracefulKillTimeout e.gracefulKillTimeout
  transportDeadline := orDefault 0 defaultTransportDeadline e.transportDeadline

def applyServiceDefaults (port : Int) (s : Service) : Service where
  enabled := some (s.enabled.getD true)
  port := orDefault 0 port s.port

def applyHostServicesDefaults (hs : HostServices) : HostServices where
  buildkit := { hs.buildkit with
    toService := applyServiceDefaults defaultBuildkitPort hs.buildkit.toService }
  goProxy := { hs.goProxy with
    toService := applyServiceDefaults defaultGoProxyPort hs.goProxy.toService
    upstream := orDefault "" defaultGoProxyUpstream hs.goProxy.upstream
    privateRevalidateInterval :=
      if hs.goProxy.privatePatterns = [] then hs.goProxy.privateRevalidateInterval
      else orDefault 0 defaultPrivateRevalidateInterval
        hs.goProxy.privateRevalidateInterval }
  registryMirror := { hs.registryMirror with
    toService := applyServiceDefaults defaultRegistryMirrorPort hs.registryMirror.toService
    upstreams :=
      orDefault [] [⟨defaultRegistryUpstream, ""⟩] hs.registryMirror.upstreams }
  httpCache := { hs.httpCache with
    toService := applyServiceDefaults defaultHTTPCachePort hs.httpCache.toService
    upstreams := hs.httpCache.upstreams.map fun u =>
      { u with ttl := orDefault 0 defaultHTTPCacheTTL u.ttl } }
  cacheVolume :=
    { device := hs.cacheVolume.device
      directory :=
        if hs.cacheVolume.device = "" then
          orDefault "" defaultCacheVolumeDirectory hs.cacheVolume.directory
        else hs.cacheVolume.directory
      sizeCap := orDefault 0 defaultCacheVolumeSizeCap hs.cacheVolume.sizeCap }

/-- `applyDistributedCacheDefaults`: an S3-compatible store accepts any
region. -/
def applyDistributedCacheDefaults (dc : DistributedCache) : DistributedCache :=
  { dc with
    region := if dc.endpoint = "" then dc.region
      else orDefault "" defaultS3Region dc.region }

def applyObservabilityDefaults (o : Observability) : Observability where
  logFormat := orDefault .unset defaultLogFormat o.logFormat
  logLevel := orDefault "" defaultLogLevel o.logLevel
  listenAddress := orDefault "" defaultListenAddress o.listenAddress

end Config

open Config in
/-- `ApplyDefaults`. The sections are filled in the source's order: the runner
namespace follows the defaulted runner name, and a Pool's namespace the
defaulted Runner namespace, while the concurrency limit is taken from the
Profiles as the file gives them. -/
def applyDefaults (hostname : Option String) (goarch : Config.Architecture)
    (c : Config) : Config :=
  let gitLab := applyGitLabDefaults hostname c.profiles c.gitLab
  let scheduler := applySchedulerDefaults gitLab.name c.scheduler
  { gitLab := gitLab
    profiles := applyProfileDefaults goarch c.inventory.hosts scheduler.nameSpace c.profiles
    inventory := c.inventory
    poolManager := applyPoolManagerDefaults c.poolManager
    scheduler := scheduler
    executor := applyExecutorDefaults c.executor
    hostServices := applyHostServicesDefaults c.hostServices
    distributedCache := c.distributedCache.map applyDistributedCacheDefaults
    observability := applyObservabilityDefaults c.observability
    stateDir := orDefault "" defaultStateDir c.stateDir }

end FlintlockRunner

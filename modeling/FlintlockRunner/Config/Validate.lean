import FlintlockRunner.Base.Checks
import FlintlockRunner.Base.Net
import FlintlockRunner.Base.Path
import FlintlockRunner.Config.References

/-!
# Validation (`internal/config/validate.go`)

`Validate` reports every invalid field in schema order. A method of the source's
`validator`, which appends to the errors found so far, is here a function that
answers the errors it would append; where the source's method also returns
whether the value was there, the function takes what its caller goes on to check
of such a value. The maps in which a loop notes what it has seen are threaded
through it.
-/

namespace FlintlockRunner.Config

open Strings Checks

/-- `FieldError`: an invalid field by its YAML path, and the reason. -/
structure FieldError where
  field : String
  reason : String
  deriving DecidableEq, Repr

/-- `FieldError.Error`. -/
def FieldError.text (e : FieldError) : String := e.field ++ ": " ++ e.reason

/-- `ValidationError`: every invalid field, and at least one. -/
structure ValidationError where
  errors : List FieldError
  nonempty : errors ≠ []
  deriving DecidableEq

/-- `ValidationError.First`. -/
def ValidationError.first (e : ValidationError) : FieldError := e.errors.head e.nonempty

/-- `ValidationError.Error`: the first invalid field, then the others. -/
def ValidationError.text (e : ValidationError) : String :=
  let others := e.errors.tail
  "invalid configuration: " ++ e.first.text ++
    (if others = [] then ""
    else " (and " ++ toString others.length ++ " more)" ++
      String.join (others.map fun fe => "\n  " ++ fe.text))

namespace Validator

/-! ## Single values -/

/-- `errorf` under a condition. -/
def refuse (bad : Prop) [Decidable bad] (field reason : String) : List FieldError :=
  if bad then [⟨field, reason⟩] else []

@[simp] theorem refuse_eq_nil_iff {bad : Prop} [Decidable bad] {field reason : String} :
    refuse bad field reason = [] ↔ ¬bad := by
  unfold refuse
  split <;> simp_all

/-- A value `required` reports. -/
def blank (value : String) : Bool := trimSpace value = ""

theorem ne_empty_of_not_blank {value : String} (h : blank value = false) : value ≠ "" := by
  rintro rfl
  exact absurd h (by decide)

/-- `required`, and what is checked of a value that is there. -/
def requiring (field value : String) (next : List FieldError) : List FieldError :=
  if blank value then [⟨field, "is required"⟩] else next

@[simp] theorem requiring_eq_nil_iff {field value : String} {next : List FieldError} :
    requiring field value next = [] ↔ blank value = false ∧ next = [] := by
  unfold requiring
  split <;> simp_all

def required (field value : String) : List FieldError := requiring field value []

variable (field : String)

def positive (d : Duration) : List FieldError :=
  refuse (d ≤ 0) field ("must be a positive duration, got " ++ duration d)

def nonNegative (d : Duration) : List FieldError :=
  refuse (d < 0) field ("must not be negative, got " ++ duration d)

def positiveInt (n : Int) : List FieldError :=
  refuse (n ≤ 0) field ("must be positive, got " ++ toString n)

def nonNegativeInt (n : Int) : List FieldError :=
  refuse (n < 0) field ("must not be negative, got " ++ toString n)

def port (p : Int) : List FieldError :=
  refuse (p < 1 ∨ p > 65535) field
    ("must be a port between 1 and 65535, got " ++ toString p)

/-- `normaliseHostPort`: an address with its port as an integer. -/
def normaliseHostPort (addr : String) : String :=
  match Net.splitHostPort addr.toList with
  | none => addr
  | some (host, port) =>
    match atoi port with
    | none => addr
    | some n => String.ofList (Net.joinHostPort host (toString n).toList)

def hostPort (field addr : String) : List FieldError :=
  requiring field addr <|
    if contains addr "://" then
      [⟨field, "must be host:port without a scheme, got " ++ quote addr⟩]
    else
      let bad := [⟨field, "must be host:port, got " ++ quote addr⟩]
      match Net.splitHostPort addr.toList with
      | none => bad
      | some (host, port) => if host = [] ∨ port = [] then bad else []

/-- `httpURL`, with the URL it returns. -/
def httpURL (field raw : String) : List FieldError × Option Net.URL :=
  if blank raw then ([⟨field, "is required"⟩], none)
  else
    let bad := ([⟨field, "must be an absolute http or https URL, got " ++ quote raw⟩], none)
    match Net.parse raw with
    | none => bad
    | some u =>
      if u.host = "" ∨ (u.scheme ≠ "http" ∧ u.scheme ≠ "https") then bad else ([], some u)

def clientTLS (t : ClientTLS) : List FieldError :=
  refuse ((t.certFile = "") ≠ (t.keyFile = "")) field
    "cert_file and key_file have to be set together"
  ++ refuse (t.insecure ∧ (t.caFile ≠ "" ∨ t.certFile ≠ "")) field
    "insecure cannot be combined with TLS material"

def arch : Architecture → List FieldError
  | .amd64 | .arm64 => []
  | .unset => [⟨field, "is required (amd64 or arm64)"⟩]
  | .unknown text => [⟨field, "must be amd64 or arm64, got " ++ quote text⟩]

def absPath (field p : String) : List FieldError :=
  requiring field p <|
    refuse (¬startsWith p "/") field ("must be an absolute path, got " ++ quote p)

/-- What a loop has seen, by the index it saw it at. -/
abbrev Seen := AList fun _ : String => Nat

/-- A value that is required and must not have been seen before. -/
def requireUnique (field value : String) (seen : Seen) (mark : Nat) (reason : Nat → String) :
    List FieldError × Seen :=
  if blank value then ([⟨field, "is required"⟩], seen)
  else unique seen value mark fun j => ⟨field, reason j⟩

theorem requireUnique_eq_nil_iff {field value : String} {seen : Seen} {mark : Nat}
    {reason : Nat → String} :
    (requireUnique field value seen mark reason).1 = [] ↔ blank value = false ∧ value ∉ seen := by
  unfold requireUnique
  split
  next h => simp [h]
  next h => simp [h, unique_eq_nil_iff]

theorem mem_requireUnique {field value k : String} {seen : Seen} {mark : Nat}
    {reason : Nat → String} (h : (requireUnique field value seen mark reason).1 = []) :
    k ∈ (requireUnique field value seen mark reason).2 ↔ k = value ∨ k ∈ seen := by
  have hblank := (requireUnique_eq_nil_iff.mp h).1
  simp only [requireUnique, hblank, Bool.false_eq_true, if_false, mem_unique]

/-- The keys of a map of labels or the like. -/
def keys (field reason : String) (m : StringMap) : List FieldError :=
  m.keys.flatMap fun k => refuse (blank k) field reason

/-! ## `gitlab` -/

def gitlab (g : GitLab) : List FieldError :=
  let url := httpURL "gitlab.url" g.url
  url.1
  ++ (match url.2 with
    | none => []
    | some u => refuse (u.scheme ≠ "https" ∧ ¬g.allowInsecure) "gitlab.url"
      "must use https unless gitlab.allow_insecure is true (SE-020)")
  ++ required "gitlab.token" g.token
  ++ required "gitlab.name" g.name
  ++ positiveInt "gitlab.concurrent" g.concurrent
  ++ positive "gitlab.check_interval" g.checkInterval
  ++ positiveInt "gitlab.output_limit_kb" g.outputLimitKB
  ++ positive "gitlab.shutdown_timeout" g.shutdownTimeout
  ++ clientTLS "gitlab.tls" g.tls
  ++ refuse g.tls.insecure "gitlab.tls.insecure"
    "does not apply to GitLab; use gitlab.allow_insecure for an http URL"

/-! ## `profiles` -/

/-- One image of `profileImages`. -/
def profileImage (img : ProfileImage) : List FieldError :=
  requiring img.field img.ref <|
    match parseImageRef img.ref with
    | .error err => [⟨img.field, err⟩]
    | .ok ref => refuse (¬ref.pinned) img.field
      ("image " ++ quote img.ref ++ " is specified by neither a digest nor a tag")

variable (f : String) (p : Profile)

def profileImages : List FieldError :=
  (p.imageRefs f).flatMap profileImage
  ++ all (fun i (vol : Volume) =>
      let vf := index (f ++ ".additional_volumes") i
      required (vf ++ ".id") vol.id
      ++ (if vol.mountPoint = "" then [] else absPath (vf ++ ".mount_point") vol.mountPoint)
      ++ nonNegativeInt (vf ++ ".size_mb") vol.sizeMB)
    p.additionalVolumes

/-- `profileOptional`; `images` are the image names of the Profiles before. -/
def profileOptional (images : Seen) (i : Nat) : List FieldError × Seen :=
  let names := each (fun k name images =>
      requireUnique (index (f ++ ".images") k) name images i fun j =>
        "image name " ++ quote name ++ " is also declared by " ++ index "profiles" j)
    0 p.images images
  (names.1
    ++ all (fun k glob =>
        let gf := index (f ++ ".image_globs") k
        requiring gf glob <| refuse (¬Path.validPattern glob) gf
          ("bad glob pattern " ++ quote glob ++ ": " ++ Path.errBadPattern))
      p.imageGlobs
    ++ keys (f ++ ".kernel.cmdline") "keys must not be empty" p.kernel.cmdline
    ++ required (f ++ ".user") p.user
    ++ positive (f ++ ".ready_timeout") p.readyTimeout
    ++ keys (f ++ ".host_selector") "label keys must not be empty" p.hostSelector
    ++ nonNegativeInt (f ++ ".max_concurrency") p.maxConcurrency,
    names.2)

variable (pm : PoolManager)

def profileTransport : List FieldError :=
  let field := f ++ ".transport.kind"
  match p.transport.kind with
  | .exec => []
  | .ssh =>
    if pm.isClaim then
      [⟨field, "must be exec with pool_manager.backend " ++ quote "claim" ++ ", got "
        ++ quote "ssh" ++ ": battery-operator's Exec Agent relays exec only"⟩]
    else
      required (f ++ ".transport.ssh.private_key_file") p.transport.ssh.privateKeyFile
      ++ required (f ++ ".transport.ssh.user") p.transport.ssh.user
  | .unset => [⟨field, "is required (exec or ssh)"⟩]
  | .unknown text => [⟨field, "must be exec or ssh, got " ++ quote text⟩]

variable (ps : PoolSettings)

/-- The strategy of `poolSettings`. -/
def strategy : List FieldError :=
  match ps.strategy with
  | .immediateOnLease | .replaceOnDelete => []
  | .minSizeThreshold =>
    refuse (ps.minSize = none) (f ++ ".min_size") "is required for the min_size_threshold strategy"
  | .unset => [⟨f ++ ".strategy", "is required"⟩]
  | .unknown text => [⟨f ++ ".strategy",
      "must be one of immediate_on_lease, min_size_threshold, replace_on_delete; got "
        ++ quote text⟩]

/-- The minimum size of `poolSettings`. -/
def minSize : List FieldError :=
  match ps.minSize with
  | none => []
  | some n =>
    if n < 0 then [⟨f ++ ".min_size", "must not be negative, got " ++ toString n⟩]
    else refuse (n > ps.size) (f ++ ".min_size")
      ("must not exceed size " ++ toString ps.size ++ ", got " ++ toString n)

/-- The hook failure policy of `poolSettings`. -/
def hookFailurePolicy : HookFailurePolicy → List FieldError
  | .unset | .deleteAndReplace | .quarantine => []
  | .unknown text => [⟨f ++ ".hook_failure_policy",
      "must be delete_and_replace or quarantine, got " ++ quote text⟩]

def poolSettings : List FieldError :=
  positiveInt (f ++ ".size") ps.size
  ++ required (f ++ ".name") ps.name
  ++ required (f ++ ".namespace") ps.nameSpace
  ++ strategy f ps
  ++ minSize f ps
  ++ all (fun i h => required (index (f ++ ".create_hooks") i) h) ps.createHooks
  ++ all (fun i h => required (index (f ++ ".pre_lease_hooks") i) h) ps.preLeaseHooks
  ++ hookFailurePolicy f ps.hookFailurePolicy
  ++ positive (f ++ ".heartbeat_interval") ps.heartbeatInterval
  ++ positive (f ++ ".heartbeat_expiry") ps.heartbeatExpiry
  ++ refuse (ps.heartbeatInterval > 0 ∧ ps.heartbeatExpiry > 0 ∧
      ps.heartbeatExpiry ≤ ps.heartbeatInterval) (f ++ ".heartbeat_expiry")
    ("must be longer than heartbeat_interval " ++ duration ps.heartbeatInterval ++ ", got "
      ++ duration ps.heartbeatExpiry)

/-- The maps and the count of `profiles`' loop. -/
structure SeenProfiles where
  names : Seen
  images : Seen
  pools : Seen
  defaults : Nat

/-- The key `profiles` tells Pools apart by. -/
def poolKey : String := ps.nameSpace ++ "/" ++ ps.name

/-- The body of `profiles`' loop. -/
def profile (hosts : List HostEntry) (i : Nat) (p : Profile)
    (seen : SeenProfiles) : List FieldError × SeenProfiles :=
  let f := index "profiles" i
  let name := requireUnique (f ++ ".name") p.name seen.names i fun j =>
    "duplicates " ++ index "profiles" j ++ ".name " ++ quote p.name
  let optional := profileOptional f p seen.images i
  let pool := unique seen.pools (poolKey p.pool) i fun j =>
    ⟨f ++ ".pool", "resolves to pool " ++ quote p.pool.name ++ " in namespace "
      ++ quote p.pool.nameSpace ++ ", the same as " ++ index "profiles" j⟩
  (name.1
    ++ arch (f ++ ".arch") p.arch
    ++ positiveInt (f ++ ".vcpu") p.vcpu
    ++ positiveInt (f ++ ".memory_mb") p.memoryMB
    ++ profileImages f p
    ++ absPath (f ++ ".shell") p.shell
    ++ absPath (f ++ ".builds_dir") p.buildsDir
    ++ absPath (f ++ ".cache_dir") p.cacheDir
    ++ absPath (f ++ ".helper_path") p.helperPath
    ++ optional.1
    ++ profileTransport f p pm
    ++ poolSettings (f ++ ".pool") p.pool
    ++ pool.1
    ++ refuse (p.arch ≠ .unset ∧ hosts ≠ [] ∧ selectHosts p hosts = []) (f ++ ".host_selector")
      ("matches no Inventory Host with arch " ++ p.arch.text ++ " and labels "
        ++ mapText (p.hostSelector.entries.map fun e => (e.1, e.2))),
    { names := name.2, images := optional.2, pools := pool.2
      defaults := if p.isDefault then seen.defaults + 1 else seen.defaults })

def profiles (c : Config) : List FieldError :=
  if c.profiles = [] then [⟨"profiles", "at least one Profile is required"⟩]
  else
    let found := each (profile c.poolManager c.inventory.hosts) 0 c.profiles ⟨∅, ∅, ∅, 0⟩
    found.1 ++ refuse (found.2.defaults > 1) "profiles"
      (toString found.2.defaults ++ " Profiles are marked default; at most one may be")

/-! ## `inventory` -/

/-- The maps of `inventory`'s loop. -/
structure SeenHosts where
  names : Seen
  endpoints : Seen

/-- The body of `inventory`'s loop up to the Host Service addresses. -/
def host (hosts : List HostEntry) (i : Nat) (h : HostEntry) (seen : SeenHosts) :
    List FieldError × SeenHosts :=
  let f := index "inventory.hosts" i
  let name := requireUnique (f ++ ".name") h.name seen.names i fun j =>
    "duplicates " ++ index "inventory.hosts" j ++ ".name " ++ quote h.name
  let endpoint :=
    if h.endpoint = "" then ([], seen.endpoints)
    else unique seen.endpoints (normaliseHostPort h.endpoint) i fun j =>
      ⟨f ++ ".endpoint", "duplicates " ++ index "inventory.hosts" j ++ ".endpoint "
        ++ quote (hosts.getD j default).endpoint⟩
  (refuse (¬blank h.name ∧ containsAny h.name " \t\n/") (f ++ ".name")
      ("must be the Host name the Pool Manager uses in flintlock_hosts, without whitespace or "
        ++ "slashes; got " ++ quote h.name)
    ++ name.1
    ++ hostPort (f ++ ".endpoint") h.endpoint
    ++ endpoint.1
    ++ arch (f ++ ".arch") h.arch
    ++ positiveInt (f ++ ".vcpu") h.vcpu
    ++ positiveInt (f ++ ".memory_mb") h.memoryMB
    ++ keys (f ++ ".labels") "label keys must not be empty" h.labels
    ++ clientTLS (f ++ ".tls") h.tls,
    { names := name.2, endpoints := endpoint.2 })

/-- The Host Service addresses of `inventory`'s loop: every HTTP cache a Host
has an address of is declared. -/
def hostServiceNames (upstreams : List HTTPCacheUpstream) (i : Nat) (h : HostEntry) :
    List FieldError :=
  h.services.httpCache.keys.flatMap fun name =>
    refuse (name ∉ upstreams.map HTTPCacheUpstream.name)
      (index "inventory.hosts" i ++ ".services.http_cache")
      ("names HTTP cache upstream " ++ quote name
        ++ " which host_services.http_cache.upstreams does not declare")

def inventory (c : Config) : List FieldError :=
  let hosts := c.inventory.hosts
  if c.poolManager.isClaim then
    refuse (hosts ≠ []) "inventory"
      ("is not read with pool_manager.backend " ++ quote "claim"
        ++ ", whose claims name their Hosts; remove it")
  else if hosts = [] then
    [⟨"inventory", "at least one Host is required, inline under inventory.hosts or in the file "
      ++ "named by inventory.file"⟩]
  else
    (each (fun i h seen => ((host hosts i h seen).1
        ++ hostServiceNames c.hostServices.httpCache.upstreams i h, (host hosts i h seen).2))
      0 hosts ⟨∅, ∅⟩).1

/-! ## `poolManager` -/

/-- A lower-case letter or a digit, which an RFC 1123 name begins and ends
with. -/
def isNameEnd (c : Char) : Bool := isLower c || isDigit c

/-- A label of an RFC 1123 name, of any length. -/
def isNameLabel (cs : List Char) : Bool :=
  cs.all (fun c => isNameEnd c || c = '-') && (cs.head?.any isNameEnd) && (cs.getLast?.any isNameEnd)

variable (s : String)

def dnsLabel : Bool := isNameLabel s.toList && s.toList.length ≤ 63

def dnsSubdomain : Bool := (split '.' s.toList).all isNameLabel

def configMapKey : Bool :=
  s.toList ≠ [] && s.toList.all fun c => isAlnum c || c ∈ ['-', '.', '_']

def claimPools (claim : Option ClaimPools) : List FieldError :=
  let f := "pool_manager.claim"
  match claim with
  | none => [⟨f ++ ".holder_service_account",
      "is required with pool_manager.backend " ++ quote "claim"⟩]
  | some k =>
    (if k.kubeconfig ≠ "" then absPath (f ++ ".kubeconfig") k.kubeconfig
      else refuse (k.context ≠ "") (f ++ ".context")
        ("needs " ++ f ++ ".kubeconfig; the in-cluster configuration has no contexts"))
    ++ refuse (k.nameSpace ≠ "" ∧ ¬dnsLabel k.nameSpace) (f ++ ".namespace")
      ("must be a Kubernetes namespace name (an RFC 1123 label), got " ++ quote k.nameSpace)
    ++ requiring (f ++ ".holder_service_account") k.holderServiceAccount
      (refuse (k.holderServiceAccount.utf8ByteSize > 253 ∨ ¬dnsSubdomain k.holderServiceAccount)
        (f ++ ".holder_service_account")
        ("must be a ServiceAccount name (an RFC 1123 subdomain), got "
          ++ quote k.holderServiceAccount))
    ++ requiring (f ++ ".serving_ca.namespace") k.servingCA.nameSpace
      (refuse (¬dnsLabel k.servingCA.nameSpace) (f ++ ".serving_ca.namespace")
        ("must be a Kubernetes namespace name (an RFC 1123 label), got "
          ++ quote k.servingCA.nameSpace))
    ++ requiring (f ++ ".serving_ca.name") k.servingCA.name
      (refuse (k.servingCA.name.utf8ByteSize > 253 ∨ ¬dnsSubdomain k.servingCA.name)
        (f ++ ".serving_ca.name")
        ("must be a ConfigMap name (an RFC 1123 subdomain), got " ++ quote k.servingCA.name))
    ++ requiring (f ++ ".serving_ca.key") k.servingCA.key
      (refuse (k.servingCA.key.utf8ByteSize > 253 ∨ ¬configMapKey k.servingCA.key)
        (f ++ ".serving_ca.key")
        ("must be a ConfigMap key (letters, digits, '-', '_' and '.'), got "
          ++ quote k.servingCA.key))

def poolManager : List FieldError :=
  (match pm.backend with
    | .unset | .battery => refuse (pm.claim ≠ none) "pool_manager.claim"
      ("is only read with pool_manager.backend " ++ quote "claim")
    | .claim => claimPools pm.claim
    | .unknown text => [⟨"pool_manager.backend", "must be " ++ quote "battery" ++ " or "
        ++ quote "claim" ++ ", got " ++ quote text⟩])
  ++ (if ¬blank pm.endpoint then hostPort "pool_manager.endpoint" pm.endpoint
    else refuse (¬pm.isClaim) "pool_manager.endpoint"
      "is required; the pool_manager section has to name the battery endpoint")
  ++ clientTLS "pool_manager.tls" pm.tls
  ++ positive "pool_manager.deadline" pm.deadline
  ++ positive "pool_manager.health_backoff" pm.healthBackoff
  ++ positive "pool_manager.health_interval" pm.healthInterval
  ++ positiveInt "pool_manager.health_failure_threshold" pm.healthFailureThreshold
  ++ positive "pool_manager.events_poll_interval" pm.eventsPollInterval
  ++ positive "pool_manager.declare_retry_interval" pm.declareRetryInterval
  ++ nonNegativeInt "pool_manager.release_retry_limit" pm.releaseRetryLimit

/-! ## `scheduler` and `executor` -/

def scheduler (s : Scheduler) : List FieldError :=
  requiring "scheduler.namespace" s.nameSpace
    (refuse (containsAny s.nameSpace " \t\n/") "scheduler.namespace"
      ("must not contain whitespace or slashes, got " ++ quote s.nameSpace))
  ++ positive "scheduler.allocation_timeout" s.allocationTimeout
  ++ positive "scheduler.host_health_interval" s.hostHealthInterval
  ++ positiveInt "scheduler.host_unhealthy_threshold" s.hostUnhealthyThreshold
  ++ positive "scheduler.host_call_deadline" s.hostCallDeadline
  ++ (if s.keepOnFailure then positive "scheduler.keep_duration" s.keepDuration
    else nonNegative "scheduler.keep_duration" s.keepDuration)

def executor (e : Executor) : List FieldError :=
  positive "executor.prepare_timeout" e.prepareTimeout
  ++ positive "executor.graceful_kill_timeout" e.gracefulKillTimeout
  ++ positive "executor.transport_deadline" e.transportDeadline

/-! ## `hostServices` -/

/-- `ByteSize.String`: in the largest binary unit that divides the size. -/
def byteSize (b : ByteSize) : String :=
  let n := b.toInt
  match [("TiB", 1099511627776), ("GiB", 1073741824), ("MiB", 1048576), ("KiB", 1024)].find?
      fun u : String × Int => n ≠ 0 && n % u.2 = 0 with
  | some u => toString (n / u.2) ++ u.1
  | none => toString n

def buildkit (b : Buildkit) : List FieldError :=
  refuse (b.storageLimit < 0) "host_services.buildkit.storage_limit" "must not be negative"
  ++ refuse (b.gcPolicy ≠ "" ∧ ¬b.isEnabled) "host_services.buildkit.gc_policy"
    "is set but buildkit is disabled"

def goProxy (g : GoProxy) : List FieldError :=
  (httpURL "host_services.go_proxy.upstream" g.upstream).1
  ++ all (fun i p => required (index "host_services.go_proxy.private_patterns" i) p)
    g.privatePatterns
  ++ refuse (g.privatePatterns ≠ [] ∧ blank g.credentialParameter)
    "host_services.go_proxy.credential_parameter"
    ("is required when private_patterns are set; name the Systems Manager parameter holding the "
      ++ "read-only credential")
  ++ refuse (g.privatePatterns = [] ∧ g.privateVCSHost ≠ "")
    "host_services.go_proxy.private_vcs_host" "is set without private_patterns"
  ++ nonNegative "host_services.go_proxy.private_revalidate_interval" g.privateRevalidateInterval
  ++ refuse (g.storageLimit < 0) "host_services.go_proxy.storage_limit" "must not be negative"
  ++ all (fun i m =>
      let f := index "host_services.go_proxy.prewarm" i
      requiring f m <| refuse (¬contains m "@") f ("must be module@version, got " ++ quote m))
    g.prewarm

def registryMirror (r : RegistryMirror) : List FieldError :=
  (each (fun i (u : RegistryUpstream) (seen : Seen) =>
      let f := index "host_services.registry_mirror.upstreams" i
      match httpURL (f ++ ".url") u.url with
      | (errs, none) => (errs, seen)
      | (errs, some _) =>
        let dup := unique seen u.url i fun j => ⟨f ++ ".url", "duplicates " ++ index "upstreams" j⟩
        (errs ++ dup.1, dup.2))
    0 r.upstreams ∅).1
  ++ refuse (r.storageLimit < 0) "host_services.registry_mirror.storage_limit"
    "must not be negative"
  ++ all (fun i img =>
      let f := index "host_services.registry_mirror.prewarm" i
      requiring f img <|
        match parseImageRef img with
        | .error err => [⟨f, err⟩]
        | .ok _ => [])
    r.prewarm

def envVarName : Bool :=
  match s.toList with
  | [] => false
  | c :: rest => (isLower c || isUpper c || c = '_') && rest.all fun d => isAlnum d || d = '_'

/-- The maps of `httpCache`'s loop. -/
structure SeenUpstreams where
  names : Seen
  envs : Seen

/-- The body of `httpCache`'s loop. -/
def httpCacheUpstream (i : Nat) (u : HTTPCacheUpstream) (seen : SeenUpstreams) :
    List FieldError × SeenUpstreams :=
  let f := index "host_services.http_cache.upstreams" i
  let name := requireUnique (f ++ ".name") u.name seen.names i fun j =>
    "duplicates " ++ index "upstreams" j ++ ".name " ++ quote u.name
  let env :=
    if ¬blank u.envVar ∧ ¬envVarName u.envVar then
      ([⟨f ++ ".env_var", "must be an environment variable name, got " ++ quote u.envVar⟩],
        seen.envs)
    else requireUnique (f ++ ".env_var") u.envVar seen.envs i fun j =>
      "duplicates " ++ index "upstreams" j ++ ".env_var " ++ quote u.envVar
  (name.1
    ++ (httpURL (f ++ ".url") u.url).1
    ++ refuse (u.sizeLimit < 0) (f ++ ".size_limit") "must not be negative"
    ++ nonNegative (f ++ ".ttl") u.ttl
    ++ env.1,
    { names := name.2, envs := env.2 })

def httpCache (h : HTTPCache) : List FieldError :=
  (each httpCacheUpstream 0 h.upstreams ⟨∅, ∅⟩).1

/-- The ports of `hostServices`: in range, and no two enabled services on one. -/
def ports (hs : HostServices) : List FieldError :=
  (each (fun _ (s : String × Service) (seen : AList fun _ : Int => String) =>
      let f := "host_services." ++ s.1 ++ ".port"
      let dup :=
        if s.2.isEnabled then
          unique seen s.2.port s.1 fun other =>
            ⟨f, "port " ++ toString s.2.port ++ " is also used by host_services." ++ other⟩
        else ([], seen)
      (port f s.2.port ++ dup.1, dup.2))
    0 [("buildkit", hs.buildkit.toService), ("go_proxy", hs.goProxy.toService),
      ("registry_mirror", hs.registryMirror.toService), ("http_cache", hs.httpCache.toService)]
    ∅).1

/-- The sum of the enabled services' storage limits, in the 64 bits of
`ByteSize`. -/
def limits (hs : HostServices) : ByteSize :=
  (if hs.buildkit.isEnabled then hs.buildkit.storageLimit else 0)
  + (if hs.goProxy.isEnabled then hs.goProxy.storageLimit else 0)
  + (if hs.registryMirror.isEnabled then hs.registryMirror.storageLimit else 0)
  + (if hs.httpCache.isEnabled then
      hs.httpCache.upstreams.foldl (fun sum u => sum + u.sizeLimit) 0 else 0)

/-- The cache volume of `hostServices`. -/
def cacheVolume (cv : CacheVolume) (limits : ByteSize) : List FieldError :=
  (if cv.device ≠ "" ∧ cv.directory ≠ "" then
      [⟨"host_services.cache_volume", "device and directory are mutually exclusive"⟩]
    else if cv.device ≠ "" then absPath "host_services.cache_volume.device" cv.device
    else if cv.directory ≠ "" then absPath "host_services.cache_volume.directory" cv.directory
    else [⟨"host_services.cache_volume", "one of device or directory is required"⟩])
  ++ refuse (cv.sizeCap ≤ 0) "host_services.cache_volume.size_cap"
    ("must be a positive size, got " ++ byteSize cv.sizeCap)
  ++ refuse (0 < cv.sizeCap ∧ cv.sizeCap < limits) "host_services.cache_volume.size_cap"
    (byteSize cv.sizeCap ++ " is smaller than the " ++ byteSize limits
      ++ " the enabled services' storage limits add up to")

def hostServices (hs : HostServices) : List FieldError :=
  ports hs ++ buildkit hs.buildkit ++ goProxy hs.goProxy ++ registryMirror hs.registryMirror
  ++ httpCache hs.httpCache ++ cacheVolume hs.cacheVolume (limits hs)

/-! ## `distributedCache` and `observability` -/

def distributedCache : Option DistributedCache → List FieldError
  | none => []
  | some dc =>
    required "distributed_cache.bucket" dc.bucket
    ++ required "distributed_cache.region" dc.region
    ++ refuse (startsWith dc.keyPrefix "/") "distributed_cache.prefix"
      ("must not start with a slash, got " ++ quote dc.keyPrefix)
    ++ refuse dc.insecure "distributed_cache.insecure"
      ("cannot be honoured: the distributed cache authenticates with instance-metadata "
        ++ "credentials, and that client always connects over TLS and ignores this field; the "
        ++ "store has to be reachable over https")
    ++ (if dc.endpoint = "" then []
      else
        let url := httpURL "distributed_cache.endpoint" dc.endpoint
        url.1
        ++ match url.2 with
          | none => []
          | some u =>
            refuse (u.path ≠ "" ∧ u.path ≠ "/") "distributed_cache.endpoint"
              ("must not have a path, got " ++ quote dc.endpoint)
            ++ refuse (u.scheme = "http") "distributed_cache.endpoint"
              ("must be https, got " ++ quote dc.endpoint
                ++ ": the distributed cache authenticates with instance-metadata credentials, and "
                ++ "that client always connects over TLS, so an http endpoint would be dialled as "
                ++ "https anyway"))

def observability (o : Observability) : List FieldError :=
  (match o.logFormat with
    | .json | .text => []
    | .unset => [⟨"observability.log_format", "must be json or text, got " ++ quote ""⟩]
    | .unknown name => [⟨"observability.log_format", "must be json or text, got " ++ quote name⟩])
  ++ refuse (toLower o.logLevel ∉ ["debug", "info", "warn", "error"]) "observability.log_level"
    ("must be one of debug, info, warn, error; got " ++ quote o.logLevel)
  ++ requiring "observability.listen_address" o.listenAddress
    (refuse (Net.splitHostPort o.listenAddress.toList = none) "observability.listen_address"
      ("must be host:port or :port, got " ++ quote o.listenAddress))

/-- The errors `Validate` collects, in schema order. -/
def errors (c : Config) : List FieldError :=
  gitlab c.gitLab ++ profiles c ++ inventory c ++ poolManager c.poolManager
  ++ scheduler c.scheduler ++ executor c.executor ++ hostServices c.hostServices
  ++ distributedCache c.distributedCache ++ observability c.observability
  ++ absPath "state_dir" c.stateDir

end Validator

def validate (c : Config) : Except ValidationError Unit :=
  if h : Validator.errors c = [] then .ok () else .error ⟨Validator.errors c, h⟩

theorem validate_eq_ok_iff {c : Config} : validate c = .ok () ↔ Validator.errors c = [] := by
  unfold validate
  split <;> simp_all

end FlintlockRunner.Config

import FlintlockRunner.Base.Assoc
import FlintlockRunner.Config.Accepted
import Mathlib.Data.String.Basic

/-!
# The variables of a Host's services (`executor/hostenv.go`)

`Resolve` collects the variables that point a Job at the services of its Host in
one map, and `addHostServiceEnv` appends those the Job does not set, in order of
their names. The fixed variables are written first and those of the HTTP cache's
upstreams last, under the names the configuration gives them. `Validate` asks
that these be names and that no two be the same, but lets them be fixed ones:
such an upstream takes the place of another service (`service_displaced`).
-/

namespace FlintlockRunner

open List

/-! ## What `Validate` asks of the names -/

namespace Config

namespace Validator

variable {i : Nat} {u : HTTPCacheUpstream} {seen : SeenUpstreams}

theorem httpCacheUpstream_envVar (h : (httpCacheUpstream i u seen).1 = []) :
    u.envVar ≠ "" ∧ u.envVar ∉ seen.envs ∧
      ∀ k, k ∈ (httpCacheUpstream i u seen).2.envs ↔ k = u.envVar ∨ k ∈ seen.envs := by
  have henv := (append_eq_nil_iff.mp h).2
  simp only [httpCacheUpstream]
  split at henv
  · exact absurd henv (cons_ne_nil _ _)
  · rename_i hname
    obtain ⟨hblank, hunseen⟩ := requireUnique_eq_nil_iff.mp henv
    rw [if_neg hname]
    exact ⟨ne_empty_of_not_blank hblank, hunseen, fun k => mem_requireUnique henv⟩

end Validator

/-- No two upstreams of an accepted configuration have one variable, and each has
one. -/
theorem Accepted.envVars {c : Config} (h : Accepted c) :
    (c.hostServices.httpCache.upstreams.map HTTPCacheUpstream.envVar).Nodup ∧
      ∀ u ∈ c.hostServices.httpCache.upstreams, u.envVar ≠ "" := by
  have hservices := h.hostServices
  simp only [Validator.hostServices, append_eq_nil_iff] at hservices
  have hcache : (Checks.each Validator.httpCacheUpstream 0 c.hostServices.httpCache.upstreams
      ⟨∅, ∅⟩).1 = [] := hservices.1.2
  constructor
  · refine (Checks.nodup_of_each HTTPCacheUpstream.envVar
      (fun (s : Validator.SeenUpstreams) k => k ∈ s.envs) ?_ ?_ hcache).1
    · intro i u seen hu
      exact (Validator.httpCacheUpstream_envVar hu).2.1
    · intro i u seen hu
      have hnoted := (Validator.httpCacheUpstream_envVar hu).2.2
      exact ⟨(hnoted _).mpr (.inl rfl), fun k hk => (hnoted k).mpr (.inr hk)⟩
  · exact Checks.forall_of_each (fun i u seen
      (hu : (Validator.httpCacheUpstream i u seen).1 = []) =>
        (Validator.httpCacheUpstream_envVar hu).1) hcache

end Config

namespace Executor

open Config (HostServices HostServiceAddresses HostEntry HTTPCacheUpstream)

/-! ## `Resolve` -/

/-- The variables set for a Job, and the services they are for. -/
structure HostServiceEnv where
  vars : StringMap
  services : List String
  deriving DecidableEq

/-- One service of `Resolve`: where it is available, its variables and its name. -/
def HostServiceEnv.offer (out : HostServiceEnv) (service : String) (available : Bool)
    (vars : List (String × String)) : HostServiceEnv :=
  if available then ⟨Assoc.insertAll out.vars vars, out.services ++ [service]⟩ else out

variable (cfg : HostServices) (addrs : HostServiceAddresses)

/-- The variables of the Go proxy. -/
def goProxyVars : List (String × String) :=
  ("GOPROXY", addrs.goProxy) :: ("GOFLAGS", "-modcacherw") ::
    if cfg.goProxy.privatePatterns = [] then []
    else [("GONOSUMDB", ",".intercalate cfg.goProxy.privatePatterns), ("GONOPROXY", "")]

/-- The variables of the HTTP cache: one for each upstream that has a variable and
an address on the Host. -/
def httpCacheEnv : List (String × String) :=
  cfg.httpCache.upstreams.filterMap fun u =>
    let url := (addrs.httpCache.lookup u.name).getD ""
    if u.envVar = "" ∨ url = "" then none else some (u.envVar, url)

/-- `hostServiceEnv.Resolve`. -/
def resolve : Option HostEntry → HostServiceEnv
  | none => ⟨∅, []⟩
  | some host =>
    let addrs := host.services
    let cache := httpCacheEnv cfg addrs
    (((HostServiceEnv.mk ∅ []).offer "buildkit" (cfg.buildkit.isEnabled && addrs.buildkit ≠ "")
          [("BUILDKIT_HOST", addrs.buildkit)]).offer
        "go_proxy" (cfg.goProxy.isEnabled && addrs.goProxy ≠ "") (goProxyVars cfg addrs)).offer
      "registry_mirror" (cfg.registryMirror.isEnabled && addrs.registryMirror ≠ "")
        [("CI_REGISTRY_MIRROR", addrs.registryMirror)] |>.offer
      "http_cache" (cfg.httpCache.isEnabled && cache ≠ []) cache

/-! ## `addHostServiceEnv` -/

def hostServiceVarNames : List String :=
  ["BUILDKIT_HOST", "GOPROXY", "GOFLAGS", "GONOSUMDB", "GONOPROXY", "CI_REGISTRY_MIRROR"]

/-- `WithHTTPCacheUpstreams`: the variables of the configured upstreams. -/
def httpCacheVars (upstreams : List HTTPCacheUpstream) : List String :=
  (upstreams.map HTTPCacheUpstream.envVar).filter (· ≠ "")

def allowedVarNames (httpCacheVars : List String) : List String :=
  (hostServiceVarNames ++ httpCacheVars).filter (· ≠ "GOPRIVATE")

/-- A variable of a Job. -/
structure Variable where
  key : String
  value : String
  isPublic : Bool
  deriving DecidableEq, Repr

/-- The loop of `addHostServiceEnv` over the names of the resolved variables. -/
def appendVars (allowed jobSets : List String) (vars : StringMap) (names : List String)
    (job : List Variable) : List Variable :=
  names.foldl (fun out k =>
    if k ∉ allowed ∨ k ∈ jobSets then out
    else out ++ [⟨k, (vars.lookup k).getD "", true⟩]) job

/-- `addHostServiceEnv`, with the configuration that its resolver and its closed
list are made from: the Job's variables after it and the services it reports. No
Host is also what there is without a resolver or an Inventory. -/
def addHostServiceEnv (host : Option HostEntry) (job : List Variable) :
    List Variable × List String :=
  let env := resolve cfg host
  (appendVars (allowedVarNames (httpCacheVars cfg.httpCache.upstreams))
    (job.map Variable.key) env.vars (Strings.sorted env.vars.keys) job, env.services)

/-! ## What the services offer -/

/-- The value that a fixed variable's own service gives it. -/
def ownValue (name : String) : Option String :=
  let buildkit := cfg.buildkit.isEnabled && addrs.buildkit ≠ ""
  let goProxy := cfg.goProxy.isEnabled && addrs.goProxy ≠ ""
  let mirror := cfg.registryMirror.isEnabled && addrs.registryMirror ≠ ""
  let hasPrivate := goProxy && cfg.goProxy.privatePatterns ≠ []
  if name = "BUILDKIT_HOST" ∧ buildkit then some addrs.buildkit
  else if name = "GOPROXY" ∧ goProxy then some addrs.goProxy
  else if name = "GOFLAGS" ∧ goProxy then some "-modcacherw"
  else if name = "GONOSUMDB" ∧ hasPrivate then
    some (",".intercalate cfg.goProxy.privatePatterns)
  else if name = "GONOPROXY" ∧ hasPrivate then some ""
  else if name = "CI_REGISTRY_MIRROR" ∧ mirror then some addrs.registryMirror
  else none

/-- The Host's address of an upstream. -/
def upstreamAddress (u : HTTPCacheUpstream) : String :=
  (addrs.httpCache.lookup u.name).getD ""

/-- The fixed variables that `Resolve` writes. -/
def fixedVars : List (String × String) :=
  (if cfg.buildkit.isEnabled && addrs.buildkit ≠ "" then [("BUILDKIT_HOST", addrs.buildkit)] else [])
  ++ (if cfg.goProxy.isEnabled && addrs.goProxy ≠ "" then goProxyVars cfg addrs else [])
  ++ (if cfg.registryMirror.isEnabled && addrs.registryMirror ≠ "" then
    [("CI_REGISTRY_MIRROR", addrs.registryMirror)] else [])

/-- The HTTP cache's variables that `Resolve` writes after them. -/
def cacheVars : List (String × String) :=
  if cfg.httpCache.isEnabled then httpCacheEnv cfg addrs else []

variable {cfg : HostServices} {addrs : HostServiceAddresses} {host : HostEntry}
  {name value : String}

theorem vars_offer (out : HostServiceEnv) (service : String) (available : Bool)
    (vars : List (String × String)) :
    (out.offer service available vars).vars =
      Assoc.insertAll out.vars (if available then vars else []) := by
  unfold HostServiceEnv.offer
  split <;> simp

theorem vars_resolve (cfg : HostServices) (host : HostEntry) :
    (resolve cfg (some host)).vars =
      Assoc.insertAll ∅ (fixedVars cfg host.services ++ cacheVars cfg host.services) := by
  have hcache : (if (cfg.httpCache.isEnabled && httpCacheEnv cfg host.services ≠ []) = true then
      httpCacheEnv cfg host.services else []) = cacheVars cfg host.services := by
    unfold cacheVars
    by_cases hnone : httpCacheEnv cfg host.services = [] <;> simp [hnone]
  simp only [resolve, vars_offer, hcache, fixedVars, Assoc.insertAll_append]

theorem mem_fixedVars :
    (name, value) ∈ fixedVars cfg addrs ↔ ownValue cfg addrs name = some value := by
  unfold fixedVars ownValue goProxyVars
  generalize (cfg.buildkit.isEnabled && decide (addrs.buildkit ≠ "")) = buildkit
  generalize (cfg.goProxy.isEnabled && decide (addrs.goProxy ≠ "")) = goProxy
  generalize (cfg.registryMirror.isEnabled && decide (addrs.registryMirror ≠ "")) = mirror
  by_cases hnone : cfg.goProxy.privatePatterns = [] <;>
    cases buildkit <;> cases goProxy <;> cases mirror <;> simp [hnone] <;> grind

theorem mem_cacheVars : (name, value) ∈ cacheVars cfg addrs ↔
    cfg.httpCache.isEnabled = true ∧ ∃ u ∈ cfg.httpCache.upstreams,
      name = u.envVar ∧ name ≠ "" ∧ upstreamAddress addrs u = value ∧ value ≠ "" := by
  unfold cacheVars httpCacheEnv upstreamAddress
  split
  · rename_i henabled
    simp only [mem_filterMap, henabled, true_and]
    refine exists_congr fun u => and_congr_right fun _ => ?_
    grind
  · rename_i hdisabled
    simp [hdisabled]

theorem mem_hostServiceVarNames_of_ownValue (h : ownValue cfg addrs name = some value) :
    name ∈ hostServiceVarNames := by
  unfold ownValue at h
  grind [hostServiceVarNames]

/-! ## What is appended -/

theorem appendVars_eq (allowed jobSets : List String) (vars : StringMap) (names : List String)
    (job : List Variable) :
    appendVars allowed jobSets vars names job =
      job ++ (names.filter fun k => k ∈ allowed ∧ k ∉ jobSets).map
        fun k => ⟨k, (vars.lookup k).getD "", true⟩ := by
  unfold appendVars
  induction names generalizing job with
  | nil => simp
  | cons k names ih =>
    rw [foldl_cons, ih]
    by_cases hk : k ∉ allowed ∨ k ∈ jobSets
    · have hnot : ¬(k ∈ allowed ∧ k ∉ jobSets) := by tauto
      simp [hk, hnot]
    · have hin : k ∈ allowed ∧ k ∉ jobSets := by tauto
      simp [hin.1, hin.2]

theorem mem_allowedVarNames {upstreams : List HTTPCacheUpstream} :
    name ∈ allowedVarNames (httpCacheVars upstreams) ↔
      (name ∈ hostServiceVarNames ∨ name ≠ "" ∧ ∃ u ∈ upstreams, name = u.envVar) ∧
        name ≠ "GOPRIVATE" := by
  simp only [allowedVarNames, httpCacheVars, mem_filter, mem_append, mem_map,
    decide_eq_true_eq, @eq_comm _ _ name]
  tauto

/-- The variables that `addHostServiceEnv` appends. -/
def appended (cfg : HostServices) (host : Option HostEntry) (job : List Variable) : List Variable :=
  ((Strings.sorted (resolve cfg host).vars.keys).filter fun k =>
      k ∈ allowedVarNames (httpCacheVars cfg.httpCache.upstreams) ∧ k ∉ job.map Variable.key).map
    fun k => ⟨k, ((resolve cfg host).vars.lookup k).getD "", true⟩

theorem addHostServiceEnv_eq (cfg : HostServices) (host : Option HostEntry) (job : List Variable) :
    (addHostServiceEnv cfg host job).1 = job ++ appended cfg host job :=
  appendVars_eq _ _ _ _ _

theorem mem_appended {host : Option HostEntry} {job : List Variable} {v : Variable} :
    v ∈ appended cfg host job ↔
      (resolve cfg host).vars.lookup v.key = some v.value ∧ v.isPublic = true ∧
        v.key ∈ allowedVarNames (httpCacheVars cfg.httpCache.upstreams) ∧
        v.key ∉ job.map Variable.key := by
  obtain ⟨key, value, isPublic⟩ := v
  simp only [appended, mem_map, mem_filter, Strings.mem_sorted, decide_eq_true_eq,
    Variable.mk.injEq]
  constructor
  · rintro ⟨k, ⟨hk, hallowed, hjob⟩, rfl, rfl, rfl⟩
    obtain ⟨value, hvalue⟩ := Option.isSome_iff_exists.mp (AList.lookup_isSome.mpr hk)
    rw [hvalue]
    exact ⟨rfl, rfl, hallowed, hjob⟩
  · rintro ⟨hlookup, rfl, hallowed, hjob⟩
    refine ⟨key, ⟨AList.lookup_isSome.mp (Option.isSome_of_eq_some hlookup), hallowed, hjob⟩, rfl, ?_,
      rfl⟩
    rw [hlookup, Option.getD_some]

/-! ## Each variable from its own service -/

/-- The Job's variables stay and variables that the Job does not set come behind
them, each with the value of its own service; none that a service offers is left
out, but GOPRIVATE. -/
structure AddsOwn (cfg : HostServices) (host : HostEntry) (job added : List Variable) : Prop where
  unset : ∀ v ∈ added, v.key ∉ job.map Variable.key
  noGoprivate : ∀ v ∈ added, v.key ≠ "GOPRIVATE"
  fixed : ∀ v ∈ added, v.key ∈ hostServiceVarNames →
    ownValue cfg host.services v.key = some v.value
  upstream : ∀ v ∈ added, ∀ u ∈ cfg.httpCache.upstreams, cfg.httpCache.isEnabled = true →
    v.key = u.envVar → upstreamAddress host.services u = v.value ∧ v.value ≠ ""
  known : ∀ v ∈ added, v.key ∈ hostServiceVarNames ∨
    cfg.httpCache.isEnabled = true ∧ ∃ u ∈ cfg.httpCache.upstreams, v.key = u.envVar
  complete : ∀ name, name ∉ job.map Variable.key → name ≠ "GOPRIVATE" →
    (ownValue cfg host.services name ≠ none ∨ cfg.httpCache.isEnabled = true ∧
      ∃ u ∈ cfg.httpCache.upstreams, name = u.envVar ∧ upstreamAddress host.services u ≠ "") →
    name ∈ added.map Variable.key

variable {c : Config} {host : HostEntry} {job : List Variable}

theorem lookup_resolve_mem {v : Variable}
    (h : (resolve cfg (some host)).vars.lookup v.key = some v.value) :
    (v.key, v.value) ∈ fixedVars cfg host.services ∨ (v.key, v.value) ∈ cacheVars cfg host.services := by
  rw [vars_resolve] at h
  exact mem_append.mp ((Assoc.mem_of_lookup_insertAll h).resolve_left (by simp))

theorem mem_resolve_vars : name ∈ (resolve cfg (some host)).vars ↔
    name ∈ (fixedVars cfg host.services ++ cacheVars cfg host.services).map Prod.fst := by
  rw [vars_resolve, Assoc.mem_insertAll]
  simp

theorem appended_complete (h : Config.Accepted c) {name : String}
    (hunset : name ∉ job.map Variable.key) (hname : name ≠ "GOPRIVATE")
    (hoffered : ownValue c.hostServices host.services name ≠ none ∨
      c.hostServices.httpCache.isEnabled = true ∧ ∃ u ∈ c.hostServices.httpCache.upstreams,
        name = u.envVar ∧ upstreamAddress host.services u ≠ "") :
    name ∈ (appended c.hostServices (some host) job).map Variable.key := by
  have hfound : name ∈ (resolve c.hostServices (some host)).vars ∧
      (name ∈ hostServiceVarNames ∨
        name ≠ "" ∧ ∃ u ∈ c.hostServices.httpCache.upstreams, name = u.envVar) := by
    rw [mem_resolve_vars, map_append, mem_append]
    rcases hoffered with hown | ⟨henabled, u, hu, rfl, haddr⟩
    · obtain ⟨value, hvalue⟩ := Option.ne_none_iff_exists'.mp hown
      exact ⟨.inl (mem_map_of_mem (mem_fixedVars.mpr hvalue)),
        .inl (mem_hostServiceVarNames_of_ownValue hvalue)⟩
    · have hset := h.envVars.2 u hu
      have hmem : (u.envVar, upstreamAddress host.services u) ∈
          cacheVars c.hostServices host.services :=
        mem_cacheVars.mpr ⟨henabled, u, hu, rfl, hset, rfl, haddr⟩
      exact ⟨.inr (mem_map_of_mem hmem), .inr ⟨hset, u, hu, rfl⟩⟩
  obtain ⟨value, hvalue⟩ := Option.isSome_iff_exists.mp (AList.lookup_isSome.mpr hfound.1)
  exact mem_map.mpr ⟨⟨name, value, true⟩,
    mem_appended.mpr ⟨hvalue, rfl, mem_allowedVarNames.mpr ⟨hfound.2, hname⟩, hunset⟩, rfl⟩

theorem appended_own (h : Config.Accepted c)
    (hapart : c.hostServices.httpCache.isEnabled = true →
      ∀ u ∈ c.hostServices.httpCache.upstreams, u.envVar ∉ hostServiceVarNames) :
    AddsOwn c.hostServices host job (appended c.hostServices (some host) job) := by
  have hfrom : ∀ v ∈ appended c.hostServices (some host) job,
      ownValue c.hostServices host.services v.key = some v.value ∨
      c.hostServices.httpCache.isEnabled = true ∧ ∃ u ∈ c.hostServices.httpCache.upstreams,
        v.key = u.envVar ∧ v.key ≠ "" ∧ upstreamAddress host.services u = v.value ∧
          v.value ≠ "" := by
    intro v hv
    exact (lookup_resolve_mem (mem_appended.mp hv).1).imp mem_fixedVars.mp mem_cacheVars.mp
  refine ⟨?_, ?_, ?_, ?_, ?_, fun name hunset hname => appended_complete h hunset hname⟩
  · intro v hv
    exact (mem_appended.mp hv).2.2.2
  · intro v hv
    exact (mem_allowedVarNames.mp (mem_appended.mp hv).2.2.1).2
  · intro v hv hfixed
    rcases hfrom v hv with hown | ⟨henabled, u, hu, hkey, -⟩
    · exact hown
    · exact absurd (hkey ▸ hfixed) (hapart henabled u hu)
  · intro v hv u hu henabled hkey
    rcases hfrom v hv with hown | ⟨-, u', hu', hkey', -, haddr⟩
    · have hfixed := mem_hostServiceVarNames_of_ownValue hown
      exact absurd (hkey ▸ hfixed) (hapart henabled u hu)
    · rw [inj_on_of_nodup_map h.envVars.1 hu hu' (hkey.symm.trans hkey')]
      exact haddr
  · intro v hv
    rcases hfrom v hv with hown | ⟨henabled, u, hu, hkey, -⟩
    · exact .inl (mem_hostServiceVarNames_of_ownValue hown)
    · exact .inr ⟨henabled, u, hu, hkey⟩

/-- A Host that has an address of one upstream and of nothing else. -/
def cacheHost (u : HTTPCacheUpstream) : HostEntry :=
  { (default : HostEntry) with
    services := ⟨"", "", "", AList.singleton u.name "http://cache"⟩ }

/-- For every Host and every Job, each variable that is added has the value of its
own service: exactly when no upstream of an enabled HTTP cache has one of the
fixed variables. -/
theorem host_service_env_iff (h : Config.Accepted c) :
    (∀ (host : Option HostEntry) (job : List Variable),
      ∃ added, (addHostServiceEnv c.hostServices host job).1 = job ++ added ∧
        (host = none → added = []) ∧
        ∀ entry, host = some entry → AddsOwn c.hostServices entry job added) ↔
      (c.hostServices.httpCache.isEnabled = true →
        ∀ u ∈ c.hostServices.httpCache.upstreams, u.envVar ∉ hostServiceVarNames) := by
  constructor
  · intro hall henabled u hu hfixed
    obtain ⟨added, -, -, hown⟩ := hall (some (cacheHost u)) []
    have hadds := hown _ rfl
    have hlookup : (cacheHost u).services.httpCache.lookup u.name = some "http://cache" :=
      dlookup_cons_eq _ _ _
    have haddr : upstreamAddress (cacheHost u).services u = "http://cache" := by
      simp [upstreamAddress, hlookup]
    have hname : u.envVar ≠ "GOPRIVATE" := fun heq =>
      absurd (heq ▸ hfixed) (by decide)
    -- The upstream is offered under its variable, whose own service has no address.
    have hmem := hadds.complete u.envVar not_mem_nil hname
      (.inr ⟨henabled, u, hu, rfl, haddr ▸ by decide⟩)
    obtain ⟨v, hv, hkey⟩ := mem_map.mp hmem
    have hnone : ownValue c.hostServices (cacheHost u).services v.key = none := by
      simp [ownValue, cacheHost]
    have hsome := hadds.fixed v hv (hkey ▸ hfixed)
    exact absurd (hnone.symm.trans hsome) (by simp)
  · intro hapart host job
    refine ⟨appended c.hostServices host job, addHostServiceEnv_eq _ _ _, ?_, ?_⟩
    · rintro rfl
      rfl
    · rintro entry rfl
      exact appended_own h hapart

/-- A Host with a Go proxy and an HTTP cache. -/
def servingHost : HostEntry :=
  { Config.smallHost with
    services := ⟨"", "http://10.0.0.1:3000", "", AList.singleton "npm" "http://10.0.0.1:3128/npm"⟩ }

/-- A configuration whose HTTP cache has one upstream, under a variable. -/
def cachedUnder (envVar : String) : Config :=
  Config.defaulted { Config.batteryFile [Config.smallProfile] [servingHost] with
    hostServices := { (default : HostServices) with
      httpCache := { (default : Config.HTTPCache) with
        upstreams := [⟨"npm", "https://registry.npmjs.org", 0, 0, envVar⟩] } } }

theorem cachedUnder_accepted {envVar : String}
    (hinventory : Config.Validator.inventory (cachedUnder envVar) = [])
    (hservices : Config.Validator.hostServices (cachedUnder envVar).hostServices = []) :
    Config.Accepted (cachedUnder envVar) := by
  have hconcurrent : 0 < Config.defaultConcurrency [Config.smallProfile] := by decide
  have hprofiles : Config.Validator.profiles (cachedUnder envVar) = [] :=
    Config.batteryFile_profiles (cons_ne_nil _ _) rfl
      (forall_mem_singleton.mpr fun _ => rfl)
  exact Config.batteryFile_accepted.replace hconcurrent hprofiles hinventory hservices

theorem host_service_env_npm :
    Config.Accepted (cachedUnder "NPM_CONFIG_REGISTRY") ∧
    ∀ (host : Option HostEntry) (job : List Variable),
      ∃ added, (addHostServiceEnv (cachedUnder "NPM_CONFIG_REGISTRY").hostServices host job).1 =
          job ++ added ∧
        (host = none → added = []) ∧ ∀ entry, host = some entry →
          AddsOwn (cachedUnder "NPM_CONFIG_REGISTRY").hostServices entry job added := by
  have haccepted : Config.Accepted (cachedUnder "NPM_CONFIG_REGISTRY") :=
    cachedUnder_accepted (by decide +kernel) (by decide +kernel)
  exact ⟨haccepted, (host_service_env_iff haccepted).mpr (by decide +kernel)⟩

/-- An upstream under the variable of the Go proxy: a Job without variables of its
own gets the address of the HTTP cache as its Go proxy. -/
theorem service_displaced :
    Config.Accepted (cachedUnder "GOPROXY") ∧
      servingHost ∈ (cachedUnder "GOPROXY").inventory.hosts ∧
      ownValue (cachedUnder "GOPROXY").hostServices servingHost.services "GOPROXY" =
        some "http://10.0.0.1:3000" ∧
      (addHostServiceEnv (cachedUnder "GOPROXY").hostServices (some servingHost) []).1 =
        [⟨"GOFLAGS", "-modcacherw", true⟩, ⟨"GOPROXY", "http://10.0.0.1:3128/npm", true⟩] := by
  exact ⟨cachedUnder_accepted (by decide +kernel) (by decide +kernel), by decide +kernel⟩

end Executor

end FlintlockRunner

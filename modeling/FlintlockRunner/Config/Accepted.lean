import FlintlockRunner.Config.Defaults
import FlintlockRunner.Config.Validate

/-!
# What an accepted configuration satisfies

`Validate` read backwards: what a section that reports nothing has to be, for
the sections the rest of the Runner relies on, and what each of the two
sections that read another one (`profiles`, `inventory`) takes from it.
-/

namespace FlintlockRunner.Config

open Checks List

/-! ## Soundness -/

/-- Pool settings without an error. -/
structure PoolSettings.Sound (ps : PoolSettings) : Prop where
  size_pos : 0 < ps.size
  named : Validator.blank ps.name = false
  placed : Validator.blank ps.nameSpace = false
  strategy_set : ps.strategy ≠ .unset
  strategy_known : ∀ text, ps.strategy ≠ .unknown text
  minSize_given : ps.strategy = .minSizeThreshold → ps.minSize ≠ none
  minSize_le : ∀ n, ps.minSize = some n → 0 ≤ n ∧ n ≤ ps.size
  policy_known : ∀ text, ps.hookFailurePolicy ≠ .unknown text
  interval_pos : 0 < ps.heartbeatInterval
  interval_lt : ps.heartbeatInterval < ps.heartbeatExpiry

/-- A Profile without an error of its own. -/
structure Profile.Sound (p : Profile) : Prop where
  named : Validator.blank p.name = false
  vcpu_pos : 0 < p.vcpu
  memory_pos : 0 < p.memoryMB
  volumes : ∀ v ∈ p.additionalVolumes, 0 ≤ v.sizeMB
  pool : p.pool.Sound

/-- Every HTTP cache that a Host has an address of is among the upstreams. -/
def CachesDeclared (hosts : List HostEntry) (upstreams : List HTTPCacheUpstream) : Prop :=
  ∀ h ∈ hosts, ∀ name ∈ h.services.httpCache, name ∈ upstreams.map HTTPCacheUpstream.name

variable {c : Config}

namespace Validator

/-! ## Pool settings -/

variable {f : String} {ps : PoolSettings}

theorem strategy_sound (h : strategy f ps = []) :
    ps.strategy ≠ .unset ∧ (∀ text, ps.strategy ≠ .unknown text) ∧
      (ps.strategy = .minSizeThreshold → ps.minSize ≠ none) := by
  unfold strategy at h
  cases hs : ps.strategy <;> simp_all

theorem minSize_sound (h : minSize f ps = []) {n : Int} (hn : ps.minSize = some n) :
    0 ≤ n ∧ n ≤ ps.size := by
  simp only [minSize, hn] at h
  split at h
  · exact absurd h (cons_ne_nil _ _)
  · rw [refuse_eq_nil_iff] at h
    omega

theorem hookFailurePolicy_sound {policy : HookFailurePolicy} (h : hookFailurePolicy f policy = []) :
    ∀ text, policy ≠ .unknown text := by
  rintro text rfl
  exact absurd h (cons_ne_nil _ _)

theorem poolSettings_sound (h : poolSettings f ps = []) : ps.Sound := by
  simp only [poolSettings, append_eq_nil_iff, positiveInt, positive, required,
    requiring_eq_nil_iff, refuse_eq_nil_iff, and_true] at h
  obtain ⟨⟨⟨⟨⟨⟨⟨⟨⟨⟨hsize, hname⟩, hspace⟩, hstrategy⟩, hmin⟩, -⟩, -⟩, hpolicy⟩, hinterval⟩,
    hexpiry⟩, hlonger⟩ := h
  obtain ⟨hset, hknown, hgiven⟩ := strategy_sound hstrategy
  exact
    { size_pos := by omega
      named := hname
      placed := hspace
      strategy_set := hset
      strategy_known := hknown
      minSize_given := hgiven
      minSize_le := fun n => minSize_sound hmin
      policy_known := hookFailurePolicy_sound hpolicy
      interval_pos := not_le.mp hinterval
      interval_lt := not_le.mp fun hle =>
        hlonger ⟨not_le.mp hinterval, not_le.mp hexpiry, hle⟩ }

/-! ## Profiles -/

theorem profileImages_sound {p : Profile} (h : profileImages f p = []) :
    ∀ v ∈ p.additionalVolumes, 0 ≤ v.sizeMB := by
  rw [profileImages, append_eq_nil_iff] at h
  refine forall_of_each (fun i v s hv => ?_) h.2
  simp only [append_eq_nil_iff, nonNegativeInt, refuse_eq_nil_iff] at hv
  omega

variable {pm : PoolManager} {hosts : List HostEntry} {i : Nat} {p : Profile}
  {seen : SeenProfiles}

/-- A Profile that `profile` accepts is sound and has a name that no Profile before
it has. -/
theorem profile_sound (h : (profile pm hosts i p seen).1 = []) : p.Sound ∧ p.name ∉ seen.names := by
  simp only [profile, append_eq_nil_iff, positiveInt, refuse_eq_nil_iff,
    requireUnique_eq_nil_iff, unique_eq_nil_iff] at h
  obtain ⟨⟨⟨⟨⟨⟨⟨⟨⟨⟨⟨⟨⟨⟨hnamed, hname⟩, -⟩, hvcpu⟩, hmemory⟩, himages⟩, -⟩, -⟩, -⟩, -⟩, -⟩, -⟩,
    hpool⟩, -⟩, -⟩ := h
  exact ⟨⟨hnamed, by omega, by omega, profileImages_sound himages, poolSettings_sound hpool⟩,
    hname⟩

theorem mem_profile_names (h : (profile pm hosts i p seen).1 = []) {k : String} :
    k ∈ (profile pm hosts i p seen).2.names ↔ k = p.name ∨ k ∈ seen.names := by
  obtain ⟨hsound, hname⟩ := profile_sound h
  simp only [profile]
  exact mem_requireUnique (requireUnique_eq_nil_iff.mpr ⟨hsound.named, hname⟩)

theorem profiles_eq_nil (h : profiles c = []) :
    (each (profile c.poolManager c.inventory.hosts) 0 c.profiles ⟨∅, ∅, ∅, 0⟩).1 = [] := by
  unfold profiles at h
  split at h
  · exact absurd h (cons_ne_nil _ _)
  · exact (append_eq_nil_iff.mp h).1

/-! ## What the two cross-reading sections read -/

theorem profileTransport_congr {pm pm' : PoolManager} (h : pm.isClaim = pm'.isClaim)
    (f : String) (p : Profile) : profileTransport f p pm = profileTransport f p pm' := by
  simp only [profileTransport, h]

/-- No Host of some matches a Profile. -/
def Unmatched (p : Profile) (hosts : List HostEntry) : Prop := hosts ≠ [] ∧ selectHosts p hosts = []

theorem unmatched_iff : Unmatched p hosts ↔ hosts ≠ [] ∧ ∀ h ∈ hosts, matchesHost p h = false := by
  simp [Unmatched, selectHosts]

/-- `profiles` reads the Profiles, which of them no Host matches and which backend
is selected. -/
theorem profiles_congr {c c' : Config} (hprofiles : c.profiles = c'.profiles)
    (hhosts : ∀ p, Unmatched p c.inventory.hosts ↔ Unmatched p c'.inventory.hosts)
    (hbackend : c.poolManager.isClaim = c'.poolManager.isClaim) : profiles c = profiles c' := by
  have hprofile : profile c.poolManager c.inventory.hosts =
      profile c'.poolManager c'.inventory.hosts := by
    funext i p seen
    have hselect := hhosts p
    simp only [Unmatched] at hselect
    simp only [profile, profileTransport_congr hbackend, refuse, hselect]
  simp only [profiles, hprofiles, hprofile]

theorem hostServiceNames_eq_nil_iff (upstreams : List HTTPCacheUpstream) (i : Nat)
    (h : HostEntry) : hostServiceNames upstreams i h = [] ↔
      ∀ name ∈ h.services.httpCache, name ∈ upstreams.map HTTPCacheUpstream.name := by
  simp only [hostServiceNames, flatMap_eq_nil_iff, refuse_eq_nil_iff, not_not]
  rfl

/-- Of `gitlab.concurrent`, only its sign is checked. -/
theorem gitlab_concurrent {g : GitLab} (h : gitlab g = []) {n : Int} (hn : 0 < n) :
    gitlab { g with concurrent := n } = [] := by
  have hpositive : positiveInt "gitlab.concurrent" n = [] := by simp [positiveInt, refuse, hn]
  simp only [gitlab, append_eq_nil_iff] at h ⊢
  simp only [h, hpositive, and_self]

/-- `inventory` reads the Hosts, which backend is selected and the HTTP caches
that are declared. -/
theorem inventory_eq_nil_iff :
    inventory c = [] ↔
      if c.poolManager.isClaim then c.inventory.hosts = []
      else c.inventory.hosts ≠ [] ∧
        (each (host c.inventory.hosts) 0 c.inventory.hosts ⟨∅, ∅⟩).1 = [] ∧
        CachesDeclared c.inventory.hosts c.hostServices.httpCache.upstreams := by
  simp only [inventory]
  split
  · rw [refuse_eq_nil_iff, not_not]
  · by_cases hnone : c.inventory.hosts = []
    · simp [hnone]
    · have hsplit := each_append_eq_nil_iff (host c.inventory.hosts)
        (hostServiceNames_eq_nil_iff c.hostServices.httpCache.upstreams) 0 c.inventory.hosts
        ⟨∅, ∅⟩
      rw [if_neg hnone, hsplit]
      exact (and_iff_right hnone).symm

end Validator

/-! ## The whole -/

/-- A configuration that `Validate` accepts. -/
def Accepted (c : Config) : Prop := validate c = .ok ()

theorem accepted_iff :
    Accepted c ↔
      (Validator.gitlab c.gitLab = [] ∧ Validator.poolManager c.poolManager = [] ∧
        Validator.scheduler c.scheduler = [] ∧ Validator.executor c.executor = [] ∧
        Validator.hostServices c.hostServices = [] ∧
        Validator.distributedCache c.distributedCache = [] ∧
        Validator.observability c.observability = [] ∧
        Validator.absPath "state_dir" c.stateDir = []) ∧
      Validator.profiles c = [] ∧ Validator.inventory c = [] := by
  simp only [Accepted, validate_eq_ok_iff, Validator.errors, append_eq_nil_iff]
  constructor
  · rintro ⟨⟨⟨⟨⟨⟨⟨⟨⟨hgitlab, hprofiles⟩, hinventory⟩, hpool⟩, hscheduler⟩, hexecutor⟩, hservices⟩,
      hcache⟩, hobservability⟩, hstate⟩
    exact ⟨⟨hgitlab, hpool, hscheduler, hexecutor, hservices, hcache, hobservability, hstate⟩,
      hprofiles, hinventory⟩
  · rintro ⟨⟨hgitlab, hpool, hscheduler, hexecutor, hservices, hcache, hobservability, hstate⟩,
      hprofiles, hinventory⟩
    exact ⟨⟨⟨⟨⟨⟨⟨⟨⟨hgitlab, hprofiles⟩, hinventory⟩, hpool⟩, hscheduler⟩, hexecutor⟩, hservices⟩,
      hcache⟩, hobservability⟩, hstate⟩

namespace Accepted

variable {c : Config}

variable (h : Accepted c)
include h

theorem profiles : Validator.profiles c = [] := (accepted_iff.mp h).2.1

theorem inventory : Validator.inventory c = [] := (accepted_iff.mp h).2.2

theorem hostServices : Validator.hostServices c.hostServices = [] :=
  (accepted_iff.mp h).1.2.2.2.2.1

theorem profile_sound {p : Profile} (hp : p ∈ c.profiles) : p.Sound := by
  have hpass := Validator.profiles_eq_nil h.profiles
  refine forall_of_each ?_ hpass p hp
  intro i q seen hq
  exact (Validator.profile_sound hq).1

/-- No two Profiles of an accepted configuration have the same name. -/
theorem names_nodup : (c.profiles.map Profile.name).Nodup := by
  have hpass := Validator.profiles_eq_nil h.profiles
  refine (nodup_of_each Profile.name (fun (s : Validator.SeenProfiles) k => k ∈ s.names)
    ?_ ?_ hpass).1
  · intro i p seen hp
    exact (Validator.profile_sound hp).2
  · intro i p seen hp
    exact ⟨(Validator.mem_profile_names hp).mpr (.inl rfl),
      fun k hk => (Validator.mem_profile_names hp).mpr (.inr hk)⟩

/-- An accepted configuration with other Profiles, Hosts and Host Services, which
are checked by themselves. -/
theorem replace {n : Int} (hn : 0 < n) {profiles : List Profile}
    {inventory : Inventory} {services : HostServices}
    (hprofiles : Validator.profiles { c with
      gitLab := { c.gitLab with concurrent := n }, profiles := profiles, inventory := inventory
      hostServices := services } = [])
    (hinventory : Validator.inventory { c with
      gitLab := { c.gitLab with concurrent := n }, profiles := profiles, inventory := inventory
      hostServices := services } = [])
    (hservices : Validator.hostServices services = []) :
    Accepted { c with
      gitLab := { c.gitLab with concurrent := n }, profiles := profiles, inventory := inventory
      hostServices := services } := by
  obtain ⟨⟨hgitlab, hpool, hscheduler, hexecutor, -, hrest⟩, -, -⟩ := accepted_iff.mp h
  exact accepted_iff.mpr ⟨⟨Validator.gitlab_concurrent hgitlab hn, hpool, hscheduler, hexecutor,
    hservices, hrest⟩, hprofiles, hinventory⟩

end Accepted

/-! ## A configuration of each backend -/

/-- What a file has to say of one Profile. -/
def smallProfile : Profile :=
  { (default : Profile) with
    name := "small"
    kernel := { (default : Kernel) with image := "ghcr.io/kernel:6.1" }
    rootFS := "ghcr.io/rootfs:1"
    pool := { (default : PoolSettings) with size := 2 } }

/-- What a file has to say of one Host. -/
def smallHost : HostEntry :=
  { (default : HostEntry) with
    name := "host-1", endpoint := "10.0.0.1:9090", arch := .amd64, vcpu := 8, memoryMB := 16384 }

variable (profiles : List Profile)

/-- What a file has to say, its Profiles and the backend's own settings apart. -/
def smallFile (hosts : List HostEntry) (pm : PoolManager) : Config :=
  { (default : Config) with
    gitLab := { (default : GitLab) with
      url := "https://gitlab.example.com", token := "glrt-1", name := "runner" }
    profiles := profiles
    inventory := { file := "", hosts := hosts }
    poolManager := pm }

/-- A file for the battery backend. -/
def batteryFile (hosts : List HostEntry) : Config :=
  smallFile profiles hosts { (default : PoolManager) with endpoint := "10.0.0.2:9000" }

/-- A file for the claim backend, which names no Host. -/
def claimFile : Config :=
  smallFile profiles []
    { (default : PoolManager) with
      backend := .claim
      claim := some { (default : ClaimPools) with holderServiceAccount := "runner" } }

/-- The configuration of a file on an amd64 machine. -/
def defaulted (file : Config) : Config := applyDefaults (some "machine") .amd64 file

/-- The configuration of the smallest file for the battery backend, which is
accepted. -/
def batteryConfig : { c : Config // Accepted c } :=
  ⟨defaulted (batteryFile [smallProfile] [smallHost]), validate_eq_ok_iff.mpr (by decide +kernel)⟩

theorem batteryFile_accepted : Accepted (defaulted (batteryFile [smallProfile] [smallHost])) :=
  batteryConfig.property

theorem claimFile_accepted : Accepted (defaulted (claimFile [smallProfile])) := by
  obtain ⟨⟨hgitlab, -, hrest⟩, -, -⟩ := accepted_iff.mp batteryFile_accepted
  exact accepted_iff.mpr ⟨⟨hgitlab, by decide +kernel, hrest⟩, by decide +kernel,
    by decide +kernel⟩

section Files

variable {profiles : List Profile} {hosts : List HostEntry}

/-- Another file for the battery backend: only what it says is left to check. -/
theorem batteryFile_accepted_of (hconcurrent : 0 < defaultConcurrency profiles)
    (hprofiles : Validator.profiles (defaulted (batteryFile profiles hosts)) = [])
    (hinventory : Validator.inventory (defaulted (batteryFile profiles hosts)) = []) :
    Accepted (defaulted (batteryFile profiles hosts)) :=
  batteryFile_accepted.replace hconcurrent hprofiles hinventory batteryFile_accepted.hostServices

/-- Hosts like the one Host of the first file, as far as its Profile goes. -/
theorem batteryFile_profiles (hne : hosts ≠ []) (harch : defaultArch .amd64 hosts = .amd64)
    (hmatch : ∀ h ∈ hosts, ∀ p, matchesHost p h = matchesHost p smallHost) :
    Validator.profiles (defaulted (batteryFile [smallProfile] hosts)) = [] := by
  have hprofiles : (defaulted (batteryFile [smallProfile] hosts)).profiles =
      (defaulted (batteryFile [smallProfile] [smallHost])).profiles := by
    simp only [defaulted, applyDefaults, applyProfileDefaults, batteryFile, smallFile, harch]
    rfl
  have hhosts (p : Profile) :
      Validator.Unmatched p hosts ↔ Validator.Unmatched p [smallHost] := by
    obtain ⟨h, hh⟩ := exists_mem_of_ne_nil hosts hne
    simp only [Validator.unmatched_iff, hne, ne_eq, not_false_eq_true, true_and, cons_ne_nil,
      mem_singleton, forall_eq]
    exact ⟨fun hall => hmatch h hh p ▸ hall h hh, fun hsmall h hh => (hmatch h hh p).trans hsmall⟩
  rw [Validator.profiles_congr hprofiles hhosts rfl]
  exact batteryFile_accepted.profiles

theorem claimFile_accepted_of (hconcurrent : 0 < defaultConcurrency profiles)
    (hprofiles : Validator.profiles (defaulted (claimFile profiles)) = []) :
    Accepted (defaulted (claimFile profiles)) :=
  claimFile_accepted.replace hconcurrent hprofiles claimFile_accepted.inventory
    claimFile_accepted.hostServices

end Files

end FlintlockRunner.Config

import FlintlockRunner.Poolmgr.ClaimConvert
import FlintlockRunner.Poolmgr.Declarable

/-!
# Declaring Pools at the claim backend (`poolmgr/claim/pools.go`, `poolmgr/declare.go`)

The Declarer creates a Pool, or updates it when there is one. At the claim
backend a Pool is a resource that the API server stores by namespace and name,
and both come from the backend's namespace and the *name* of the PoolRef alone.
So two Profiles whose Pools share a name and differ in the namespace, which
`Validate` tells apart, are one resource here.

A resource has a place for everything `Build` puts into a spec but the Hosts and
the template's namespace, and is read back as the rest (`built_spec_kept`).

The API server is the map of its Pool resources; a call of this module fails
only because a resource is there or is not. `updatePool` then never meets a
conflict, and its retries are left out.
-/

namespace FlintlockRunner.Poolmgr

open List

/-! ## The Declarer -/

/-- The two methods of `PoolAdmin` that the Declarer calls, over the state of
the Pool Manager. -/
structure PoolAdmin (σ : Type) where
  createPool : PoolSpec → σ → Except Sentinel Pool × σ
  updatePool : PoolSpec → σ → Except Sentinel Pool × σ

/-- `declarer.Declare`. -/
def PoolAdmin.declare {σ : Type} (admin : PoolAdmin σ) (spec : PoolSpec) (s : σ) :
    Except Sentinel Pool × σ :=
  match admin.createPool spec s with
  | (.error .alreadyExists, s) =>
    match admin.updatePool spec s with
    | (.error .notFound, s) => admin.createPool spec s
    | answer => answer
  | answer => answer

/-! ## The backend -/

/-- The API server's Pool resources, by namespace and name. -/
abbrev Resources := AList fun _ : String × String => Resource.Pool

/-- `Backend`, as far as its Pool methods read it: the Kubernetes namespace and
the names in its options, and the Profiles by name. -/
structure PoolBackend where
  nameSpace : String
  runnerName : String
  runnerNamespace : String
  profiles : AList fun _ : String => Config.Profile

namespace PoolBackend

def profilesByName (profiles : List Config.Profile) : AList fun _ : String => Config.Profile :=
  profiles.foldl (fun out p => out.insert p.name p) ∅

variable (b : PoolBackend) (spec : PoolSpec)

/-- The Profile that a spec is labelled with. -/
def profileOf : Except Sentinel Config.Profile :=
  let name := (spec.template.labels.lookup labelProfile).getD ""
  if name = "" then .error .invalid
  else
    match b.profiles.lookup name with
    | none => .error .invalid
    | some profile => .ok profile

def poolResource : Except Sentinel Resource.Pool :=
  match b.profileOf spec with
  | .error err => .error err
  | .ok profile => poolFromSpec spec profile b.nameSpace b.runnerName

def poolOf (pool : Resource.Pool) : Pool :=
  ⟨specFromPool pool b.runnerNamespace, statusFromPool pool⟩

def mergeMaps (into source : StringMap) : StringMap :=
  source.entries.foldl (fun m e => m.insert e.1 e.2) into

/-- Makes the resource, unless its name is taken. -/
def createPool (rs : Resources) :
    Except Sentinel Pool × Resources :=
  match b.poolResource spec with
  | .error err => (.error err, rs)
  | .ok pool =>
    if (pool.nameSpace, pool.name) ∈ rs then (.error .alreadyExists, rs)
    else (.ok (b.poolOf pool), rs.insert (pool.nameSpace, pool.name) pool)

/-- Writes the spec over the resource; labels that others set stay. -/
def updatePool (rs : Resources) :
    Except Sentinel Pool × Resources :=
  match b.poolResource spec with
  | .error err => (.error err, rs)
  | .ok want =>
    match rs.lookup (want.nameSpace, want.name) with
    | none => (.error .notFound, rs)
    | some current =>
      let next := { current with
        labels := mergeMaps current.labels want.labels
        annotations := mergeMaps current.annotations want.annotations
        spec := want.spec }
      (.ok (b.poolOf next), rs.insert (want.nameSpace, want.name) next)

def getPool (ref : PoolRef) (rs : Resources) : Except Sentinel Pool :=
  match rs.lookup (b.nameSpace, ref.name) with
  | none => .error .notFound
  | some pool => .ok { b.poolOf pool with spec := { (b.poolOf pool).spec with ref := ref } }

/-- The backend as the Declarer sees it. -/
def admin : PoolAdmin Resources := ⟨b.createPool, b.updatePool⟩

variable (render : Render) (input : Config.Profile → SpecInput)

/-- Declare the Pool of one Profile; a spec that cannot be built is not
declared. -/
def declareProfile
    (rs : Resources) (p : Config.Profile) : Resources :=
  match build render p (input p) with
  | .error _ => rs
  | .ok spec => (b.admin.declare spec rs).2

/-- Declare the Pools of a list of Profiles, one after the other. -/
def declareAll
    (profiles : List Config.Profile) (rs : Resources) : Resources :=
  profiles.foldl (b.declareProfile render input) rs

/-! ## One declaration -/

variable {b : PoolBackend} {spec : PoolSpec} {rs : Resources} {want : Resource.Pool}

/-- A declaration writes one entry, under the backend's namespace and the Pool's
name, with the spec it declares. -/
theorem declare_eq (h : b.poolResource spec = .ok want) (rs : Resources) :
    ∃ pool, (b.admin.declare spec rs).2 = rs.insert (want.nameSpace, want.name) pool ∧
      pool.spec = want.spec := by
  by_cases hmem : (want.nameSpace, want.name) ∈ rs
  · obtain ⟨current, hcurrent⟩ := Option.isSome_iff_exists.mp (AList.lookup_isSome.mpr hmem)
    simp only [PoolAdmin.declare, admin, createPool, updatePool, h, if_pos hmem, hcurrent]
    exact ⟨_, rfl, rfl⟩
  · simp only [PoolAdmin.declare, admin, createPool, h, if_neg hmem]
    exact ⟨_, rfl, rfl⟩

theorem declare_lookup_self (h : b.poolResource spec = .ok want) (rs : Resources) :
    ∃ pool, (b.admin.declare spec rs).2.lookup (want.nameSpace, want.name) = some pool ∧
      pool.spec = want.spec := by
  obtain ⟨pool, heq, hspec⟩ := declare_eq h rs
  exact ⟨pool, heq ▸ AList.lookup_insert _, hspec⟩

theorem declare_lookup_other (h : b.poolResource spec = .ok want) {key : String × String}
    (hkey : key ≠ (want.nameSpace, want.name)) :
    (b.admin.declare spec rs).2.lookup key = rs.lookup key := by
  obtain ⟨pool, heq, -⟩ := declare_eq h rs
  rw [heq]
  exact AList.lookup_insert_ne hkey

/-! ## What a Pool is read back as -/

/-- A Pool with the size, the replenishment, the hooks and the template of a
spec; a template is read back without its id and its namespace. -/
structure Carries (spec : PoolSpec) (pool : Pool) : Prop where
  size : pool.spec.size = spec.size
  replenishment : pool.spec.replenishment = spec.replenishment
  createCommands : pool.spec.createCommands = spec.createCommands
  preLeaseCommands : pool.spec.preLeaseCommands = spec.preLeaseCommands
  policy : pool.spec.hookFailurePolicy = spec.hookFailurePolicy
  template : pool.spec.template = { spec.template with id := "", nameSpace := "" }

section Carried

variable {profile : Config.Profile} {nameSpace runner : String}
  (h : poolFromSpec spec profile nameSpace runner = .ok want)
  (hagent : spec.template.allowGuestAgent = true)
include h hagent

/-- What the resource keeps of a spec: everything but the Hosts, the template's id
and namespace, and durations that are not positive. -/
theorem specFromPool_poolFromSpec (runnerNamespace : String) :
    specFromPool want runnerNamespace =
      { spec with
        ref := ⟨spec.ref.name,
          if spec.ref.nameSpace = "" then runnerNamespace else spec.ref.nameSpace⟩
        template := { spec.template with id := "", nameSpace := "" }
        flintlockHosts := []
        heartbeatInterval := if spec.heartbeatInterval ≤ 0 then 0 else spec.heartbeatInterval
        heartbeatExpiryThreshold :=
          if spec.heartbeatExpiryThreshold ≤ 0 then 0 else spec.heartbeatExpiryThreshold } := by
  have hduration : ∀ d : Duration, (resourceDuration d).getD 0 = if d ≤ 0 then 0 else d := by
    intro d
    unfold resourceDuration
    split <;> rfl
  have hannotation : ∀ ns : String, (AList.singleton annotationPoolNamespace ns : StringMap).lookup
      annotationPoolNamespace = some ns := fun ns => AList.lookup_insert (∅ : StringMap)
  unfold poolFromSpec at h
  cases hstrategy : replenishmentFromBattery spec.replenishment with
  | error err => simp [hstrategy, bind, Except.bind] at h
  | ok strategy =>
    cases hpolicy : hookPolicyFromBattery spec.hookFailurePolicy with
    | error err => simp [hstrategy, hpolicy, bind, Except.bind] at h
    | ok policy =>
      simp only [hstrategy, hpolicy, bind, Except.bind] at h
      cases h
      simp only [specFromPool, refOf, hannotation, Option.getD_some, hduration,
        replenishmentToBattery_from hstrategy, hookPolicyToBattery_from hpolicy,
        templateToFlintlock_from _ hagent]

theorem poolOf_carries {pool : Resource.Pool} (hpool : pool.spec = want.spec) (b : PoolBackend) :
    Carries spec (b.poolOf pool) := by
  have hkept := specFromPool_poolFromSpec h hagent b.runnerNamespace
  simp only [specFromPool, PoolSpec.mk.injEq] at hkept
  obtain ⟨-, htemplate, hsize, -, hstrategy, hcreate, hpreLease, hpolicy, -, -⟩ := hkept
  simp only [poolOf, specFromPool, hpool]
  exact ⟨hsize, hstrategy, hcreate, hpreLease, hpolicy, htemplate⟩

end Carried

theorem poolResource_inv (h : b.poolResource spec = .ok want) :
    ∃ profile, poolFromSpec spec profile b.nameSpace b.runnerName = .ok want := by
  unfold poolResource at h
  split at h
  · exact nomatch h
  next profile hprofile => exact ⟨profile, h⟩

/-- A Pool that carries the spec that `Build` makes of a Profile. -/
def ComesFrom (p : Config.Profile)
    (pool : Pool) : Prop :=
  ∃ spec, build render p (input p) = .ok spec ∧ Carries spec pool

variable {render : Render} {input : Config.Profile → SpecInput} {p q : Config.Profile}

theorem labels_lookup (p : Config.Profile) (i : SpecInput) :
    (labels p i).lookup labelProfile = some p.name := AList.lookup_insert _

/-- A Pool comes from Profiles of one name only: the name is on its template. -/
theorem ComesFrom.name_eq {pool pool' : Pool} (h : ComesFrom render input p pool)
    (h' : ComesFrom render input q pool')
    (hsame : pool.spec.template = pool'.spec.template) : p.name = q.name := by
  obtain ⟨spec, hbuild, hcarries⟩ := h
  obtain ⟨spec', hbuild', hcarries'⟩ := h'
  have hlabels := congrArg MicroVMSpec.labels
    (hcarries.template.symm.trans (hsame.trans hcarries'.template))
  change spec.template.labels = spec'.template.labels at hlabels
  obtain ⟨-, -, -, hl, -⟩ := buildTemplate_spec (build_eq_ok_iff.mp hbuild).template
  obtain ⟨-, -, -, hl', -⟩ := buildTemplate_spec (build_eq_ok_iff.mp hbuild').template
  have hlookup := congrArg (AList.lookup labelProfile) hlabels
  rw [hl, hl', labels_lookup, labels_lookup] at hlookup
  exact Option.some.inj hlookup

/-! ## Declaring all Profiles -/

/-- A Profile's declaration writes the resource `want` from the spec `spec`. -/
structure Declares (b : PoolBackend) (render : Render) (input : Config.Profile → SpecInput)
    (p : Config.Profile) (spec : PoolSpec) (want : Resource.Pool) : Prop where
  build : Poolmgr.build render p (input p) = .ok spec
  resource : b.poolResource spec = .ok want
  key : (want.nameSpace, want.name) = (b.nameSpace, p.pool.name)

variable {profiles : List Config.Profile}

theorem mem_profilesByName (hp : p ∈ profiles) : p.name ∈ profilesByName profiles := by
  -- Over any map, an insertion adds a name and removes none.
  suffices h : ∀ m : AList fun _ : String => Config.Profile,
      p ∈ profiles ∨ p.name ∈ m → p.name ∈ profiles.foldl (fun out p => out.insert p.name p) m from
    h ∅ (.inl hp)
  clear hp
  induction profiles with
  | nil => exact fun m h => h.resolve_left not_mem_nil
  | cons q profiles ih =>
    intro m h
    refine ih _ ?_
    rcases h with h | h
    · rcases mem_cons.mp h with rfl | h
      · exact .inr (AList.mem_insert m |>.mpr (.inl rfl))
      · exact .inl h
    · exact .inr (AList.mem_insert m |>.mpr (.inr h))

theorem replenishmentFromBattery_ok {s : Config.PoolSettings} {r : ReplenishmentStrategy}
    (h : replenishment s = .ok r) : ∃ r', replenishmentFromBattery r = .ok r' := by
  unfold replenishment at h
  cases hs : s.strategy <;> simp only [hs, Except.ok.injEq, reduceCtorEq] at h <;> subst h <;>
    exact ⟨_, rfl⟩

theorem hookPolicyFromBattery_ok {policy : Config.HookFailurePolicy} {r : HookFailurePolicy}
    (h : hookFailurePolicy policy = .ok r) : ∃ r', hookPolicyFromBattery r = .ok r' := by
  cases policy <;> cases h <;> exact ⟨_, rfl⟩

theorem poolFromSpec_ok {strategy : Resource.ReplenishmentStrategy}
    {policy : Resource.HookFailurePolicy}
    (hstrategy : replenishmentFromBattery spec.replenishment = .ok strategy)
    (hpolicy : hookPolicyFromBattery spec.hookFailurePolicy = .ok policy)
    (profile : Config.Profile) (nameSpace runner : String) :
    ∃ want, poolFromSpec spec profile nameSpace runner = .ok want ∧
      want.nameSpace = nameSpace ∧ want.name = spec.ref.name := by
  simp only [poolFromSpec, hstrategy, hpolicy, bind, Except.bind]
  exact ⟨_, rfl, rfl, rfl⟩

theorem declares_of_sound (hsound : p.Sound) (hrenders : Renders render p)
    (hknown : p.name ∈ b.profiles) : ∃ spec want, Declares b render input p spec want := by
  obtain ⟨spec, hbuild⟩ := build_ok hsound.pool hrenders (input p)
  have hbuilt := build_eq_ok_iff.mp hbuild
  obtain ⟨-, -, -, hlabels, -⟩ := buildTemplate_spec hbuilt.template
  obtain ⟨profile, hprofile⟩ := Option.isSome_iff_exists.mp (AList.lookup_isSome.mpr hknown)
  obtain ⟨strategy, hstrategy⟩ := replenishmentFromBattery_ok hbuilt.strategy
  obtain ⟨policy, hpolicy⟩ := hookPolicyFromBattery_ok hbuilt.policy
  have hname : p.name ≠ "" := Config.Validator.ne_empty_of_not_blank hsound.named
  have hlabel : (spec.template.labels.lookup labelProfile).getD "" = p.name := by
    rw [hlabels, labels_lookup, Option.getD_some]
  have hprofileOf : b.profileOf spec = .ok profile := by
    unfold profileOf
    rw [hlabel]
    simp only [if_neg hname, hprofile]
  obtain ⟨want, hwant, hplace, hwantName⟩ :=
    poolFromSpec_ok hstrategy hpolicy profile b.nameSpace b.runnerName
  refine ⟨spec, want, hbuild, ?_, ?_⟩
  · simp only [poolResource, hprofileOf, hwant]
  · rw [hplace, hwantName, hbuilt.ref, poolRef_of_sound hsound.pool]

theorem declareProfile_eq (h : Declares b render input p spec want) :
    b.declareProfile render input rs p = (b.admin.declare spec rs).2 := by
  simp only [declareProfile, h.build]

theorem declareAll_lookup_other {name : String}
    (hdeclares : ∀ q ∈ profiles, ∃ spec want, Declares b render input q spec want)
    (hother : ∀ q ∈ profiles, q.pool.name ≠ name) (rs : Resources) :
    (b.declareAll render input profiles rs).lookup (b.nameSpace, name) =
      rs.lookup (b.nameSpace, name) := by
  induction profiles generalizing rs with
  | nil => rfl
  | cons q profiles ih =>
    obtain ⟨spec, want, hq⟩ := hdeclares q mem_cons_self
    have hkey : (b.nameSpace, name) ≠ (want.nameSpace, want.name) := by
      rw [hq.key]
      exact fun heq => hother q mem_cons_self (congrArg Prod.snd heq).symm
    calc (b.declareAll render input (q :: profiles) rs).lookup (b.nameSpace, name)
        = (b.declareProfile render input rs q).lookup (b.nameSpace, name) :=
          ih (fun r hr => hdeclares r (mem_cons_of_mem q hr))
            (fun r hr => hother r (mem_cons_of_mem q hr)) _
      _ = (b.admin.declare spec rs).2.lookup (b.nameSpace, name) := by
          rw [declareProfile_eq hq]
      _ = rs.lookup (b.nameSpace, name) := declare_lookup_other hq.resource hkey

/-- When the names of their Pools differ, every Profile's declaration is what its
resource holds at the end. -/
theorem declareAll_lookup
    (hdeclares : ∀ q ∈ profiles, ∃ spec want, Declares b render input q spec want)
    (hnames : (profiles.map fun q => q.pool.name).Nodup) (rs : Resources) (hp : p ∈ profiles) :
    ∃ spec want pool, Declares b render input p spec want ∧
      (b.declareAll render input profiles rs).lookup (b.nameSpace, p.pool.name) = some pool ∧
      pool.spec = want.spec := by
  induction profiles generalizing rs with
  | nil => exact absurd hp not_mem_nil
  | cons q profiles ih =>
    have htail := fun r hr => hdeclares r (mem_cons_of_mem q hr)
    rw [map_cons, nodup_cons] at hnames
    rcases mem_cons.mp hp with rfl | hp
    · obtain ⟨spec, want, hdecl⟩ := hdeclares p mem_cons_self
      obtain ⟨pool, hpool, hspec⟩ := declare_lookup_self hdecl.resource rs
      refine ⟨spec, want, pool, hdecl, ?_, hspec⟩
      have hother : ∀ r ∈ profiles, r.pool.name ≠ p.pool.name := fun r hr heq =>
        hnames.1 (mem_map.mpr ⟨r, hr, heq⟩)
      rw [← hpool, hdecl.key, ← declareProfile_eq hdecl]
      exact declareAll_lookup_other htail hother _
    · exact ih htail hnames.2 _ hp

theorem getPool_eq_ok {ref : PoolRef} {r : Resource.Pool}
    (h : rs.lookup (b.nameSpace, ref.name) = some r) :
    b.getPool ref rs = .ok { b.poolOf r with spec := { (b.poolOf r).spec with ref := ref } } := by
  simp only [getPool, h]

/-- Two answers of `GetPool` for PoolRefs of one name have the same template. -/
theorem getPool_template_eq {ref ref' : PoolRef} {pool pool' : Pool}
    (hname : ref.name = ref'.name) (h : b.getPool ref rs = .ok pool)
    (h' : b.getPool ref' rs = .ok pool') : pool.spec.template = pool'.spec.template := by
  unfold getPool at h h'
  rw [← hname] at h'
  cases hlookup : rs.lookup (b.nameSpace, ref.name) with
  | none => simp [hlookup] at h
  | some r =>
    simp only [hlookup, Except.ok.injEq] at h h'
    rw [← h, ← h']

end PoolBackend

open PoolBackend in
/-- For every accepted configuration whose user data renders, over any resources
and after declaring the Pools of its Profiles in any order: `GetPool` of every
Profile's PoolRef answers with a Pool that comes from that Profile exactly when
no two of the Pools have the same name. -/
theorem pools_apart_iff (render : Render) (c : Config) (h : Config.Accepted c)
    (hrenders : ∀ p ∈ c.profiles, Renders render p) (b : PoolBackend)
    (hprofiles : b.profiles = profilesByName c.profiles) (runnerName nameSpace : String)
    (order : List Config.Profile) (horder : order.Perm c.profiles) (rs : Resources) :
    (∀ p ∈ c.profiles, ∃ pool,
      b.getPool (poolRef p nameSpace) (b.declareAll render
        (fun q => ⟨runnerName, nameSpace, select q c.inventory.hosts⟩) order rs) = .ok pool ∧
      ComesFrom render (fun q => ⟨runnerName, nameSpace, select q c.inventory.hosts⟩) p pool) ↔
    (c.profiles.map fun p => p.pool.name).Nodup := by
  have hsound := fun p (hp : p ∈ c.profiles) => h.profile_sound hp
  have href := fun p (hp : p ∈ c.profiles) => poolRef_of_sound (hsound p hp).pool nameSpace
  constructor
  · intro hget
    -- Profiles with one Pool name read one resource, which has one Profile's name on it.
    refine Nodup.map_on ?_ h.names_nodup.of_map
    intro p hp q hq hname
    obtain ⟨pool, hpool, hfrom⟩ := hget p hp
    obtain ⟨pool', hpool', hfrom'⟩ := hget q hq
    have hrefs : (poolRef p nameSpace).name = (poolRef q nameSpace).name := by
      rw [href p hp, href q hq]
      exact hname
    have hnames := hfrom.name_eq hfrom' (getPool_template_eq hrefs hpool hpool')
    exact inj_on_of_nodup_map h.names_nodup hp hq hnames
  · intro hnames p hp
    have hdeclares : ∀ q ∈ order, ∃ spec want, Declares b render
        (fun q => ⟨runnerName, nameSpace, select q c.inventory.hosts⟩) q spec want := by
      intro q hq
      have hq := horder.mem_iff.mp hq
      exact declares_of_sound (hsound q hq) (hrenders q hq)
        (hprofiles ▸ mem_profilesByName hq)
    have hnames' : (order.map fun q => q.pool.name).Nodup :=
      (horder.map fun q => q.pool.name).nodup_iff.mpr hnames
    obtain ⟨spec, want, r, hdecl, hlookup, hspec⟩ :=
      declareAll_lookup hdeclares hnames' rs (horder.mem_iff.mpr hp)
    rw [href p hp]
    refine ⟨_, getPool_eq_ok hlookup, spec, hdecl.build, ?_⟩
    obtain ⟨profile, hfrom⟩ := poolResource_inv hdecl.resource
    obtain ⟨-, -, -, -, hagent⟩ := buildTemplate_spec (build_eq_ok_iff.mp hdecl.build).template
    have hcarries := poolOf_carries hfrom hagent hspec b
    exact ⟨hcarries.size, hcarries.replenishment, hcarries.createCommands,
      hcarries.preLeaseCommands, hcarries.policy, hcarries.template⟩

/-- Two Profiles at the claim backend, with Pools of the given names in
namespaces of their own. -/
def twoTeams (poolA poolB : String) : Config :=
  Config.defaulted (Config.claimFile
    [{ Config.smallProfile with
        name := "a"
        pool := { Config.smallProfile.pool with name := poolA, nameSpace := "team-a" } },
      { Config.smallProfile with
        name := "b"
        pool := { Config.smallProfile.pool with
          name := poolB, nameSpace := "team-b", size := 5 } }])

/-- The backend of a configuration. -/
def backendOf (c : Config) : PoolBackend :=
  ⟨"runners", c.gitLab.name, c.scheduler.nameSpace, PoolBackend.profilesByName c.profiles⟩

/-- What the Pools of a configuration are declared with. -/
def teamInput (c : Config) (q : Config.Profile) : SpecInput :=
  ⟨"runner", "runner", select q c.inventory.hosts⟩

/-- The resources after the Pools of a configuration have been declared in the
order of its Profiles, where there were none. -/
def declaredOf (c : Config) : Resources :=
  (backendOf c).declareAll renderNothing (teamInput c) c.profiles ∅

/-- Pools of different names are kept apart. -/
theorem pools_apart_iff_named :
    ∃ p q, (twoTeams "large" "small").profiles = [p, q] ∧
      (∃ pool, (backendOf (twoTeams "large" "small")).getPool (poolRef p "runner")
          (declaredOf (twoTeams "large" "small")) = .ok pool ∧
        PoolBackend.ComesFrom renderNothing (teamInput (twoTeams "large" "small")) p pool) ∧
      (∃ pool, (backendOf (twoTeams "large" "small")).getPool (poolRef q "runner")
          (declaredOf (twoTeams "large" "small")) = .ok pool ∧
        PoolBackend.ComesFrom renderNothing (teamInput (twoTeams "large" "small")) q pool) := by
  have hapart := (pools_apart_iff renderNothing (twoTeams "large" "small")
    (Config.claimFile_accepted_of (by decide) (by decide +kernel)) (fun p hp => .inr ⟨"", rfl⟩)
    (backendOf (twoTeams "large" "small")) rfl "runner" "runner" _ (Perm.refl _) ∅).mpr
    (by decide)
  exact ⟨_, _, rfl, hapart _ mem_cons_self,
    hapart _ (mem_cons_of_mem _ mem_cons_self)⟩

/-- An accepted configuration of two Profiles whose Pools have the same name in
different namespaces: the second declaration overwrites the first, and `GetPool`
of the first Profile's PoolRef answers with the second Profile's Pool. -/
theorem pool_overwritten :
    Config.Accepted (twoTeams "ci" "ci") ∧ (twoTeams "ci" "ci").poolManager.isClaim = true ∧
    ∃ p q pool, (twoTeams "ci" "ci").profiles = [p, q] ∧
      poolRef p "runner" = ⟨"ci", "team-a"⟩ ∧ poolRef q "runner" = ⟨"ci", "team-b"⟩ ∧
      p.pool.size = 2 ∧ q.pool.size = 5 ∧
      (backendOf (twoTeams "ci" "ci")).getPool ⟨"ci", "team-a"⟩ (declaredOf (twoTeams "ci" "ci")) =
        .ok pool ∧
      pool.spec.size = 5 ∧ pool.spec.template.labels.lookup labelProfile = some "b" := by
  exact ⟨Config.claimFile_accepted_of (by decide) (by decide +kernel), rfl, _, _, _, rfl, rfl, rfl,
    rfl, rfl, rfl, rfl, rfl⟩

/-! ## The round trip of a built spec -/

/-- The resource of a spec that `Build` made is read back as that spec, up to what
the resource has no place for. -/
theorem built_spec_kept (render : Render) (p : Config.Profile) (i : SpecInput) (spec : PoolSpec)
    (hbuild : build render p i = .ok spec) (hplaced : spec.ref.nameSpace ≠ "")
    (profile : Config.Profile) (nameSpace runner runnerNamespace : String) :
    ∃ pool, poolFromSpec spec profile nameSpace runner = .ok pool ∧
      specFromPool pool runnerNamespace =
        { spec with
          template := { spec.template with id := "", nameSpace := "" }
          flintlockHosts := []
          heartbeatInterval := if spec.heartbeatInterval ≤ 0 then 0 else spec.heartbeatInterval
          heartbeatExpiryThreshold :=
            if spec.heartbeatExpiryThreshold ≤ 0 then 0 else spec.heartbeatExpiryThreshold } := by
  have hbuilt := build_eq_ok_iff.mp hbuild
  obtain ⟨strategy, hstrategy⟩ := PoolBackend.replenishmentFromBattery_ok hbuilt.strategy
  obtain ⟨policy, hpolicy⟩ := PoolBackend.hookPolicyFromBattery_ok hbuilt.policy
  obtain ⟨pool, hpool, -⟩ := PoolBackend.poolFromSpec_ok hstrategy hpolicy profile nameSpace runner
  have hagent := (buildTemplate_spec hbuilt.template).2.2.2.2
  refine ⟨pool, hpool, ?_⟩
  rw [PoolBackend.specFromPool_poolFromSpec hpool hagent, if_neg hplaced]

/-- A Profile with everything a Profile may leave out. -/
def fullProfile : Config.Profile :=
  { Config.smallProfile with
    kernel := { Config.smallProfile.kernel with
      filename := "vmlinux", cmdline := AList.singleton "console" "ttyS0" }
    initrd := some ⟨"ghcr.io/initrd:1", "initrd.img"⟩
    additionalVolumes := [⟨"cache", "ghcr.io/cache:1", "/cache", true, 512⟩]
    provider := "firecracker"
    userData := "#cloud-config"
    pool := { Config.smallProfile.pool with
      nameSpace := "team-a", strategy := .minSizeThreshold, minSize := some 1
      createHooks := ["true"], preLeaseHooks := ["sync"], hookFailurePolicy := .quarantine
      heartbeatInterval := 10, heartbeatExpiry := 30 } }

theorem built_spec_kept_full :
    ∃ spec pool, build renderNothing fullProfile ⟨"runner", "runner", ["host-1"]⟩ = .ok spec ∧
      poolFromSpec spec fullProfile "runners" "runner" = .ok pool ∧
      specFromPool pool "runner" =
        { spec with
          template := { spec.template with id := "", nameSpace := "" }
          flintlockHosts := []
          heartbeatInterval := if spec.heartbeatInterval ≤ 0 then 0 else spec.heartbeatInterval
          heartbeatExpiryThreshold :=
            if spec.heartbeatExpiryThreshold ≤ 0 then 0 else spec.heartbeatExpiryThreshold } := by
  obtain ⟨pool, hpool, hkept⟩ := built_spec_kept renderNothing fullProfile
    ⟨"runner", "runner", ["host-1"]⟩ _ rfl (by decide +kernel) fullProfile "runners" "runner" "runner"
  exact ⟨_, pool, rfl, hpool, hkept⟩

end FlintlockRunner.Poolmgr

import FlintlockRunner.Config.Accepted
import FlintlockRunner.Poolmgr.Spec

/-!
# From an accepted configuration to an accepted spec

Three rule sets meet in a declaration: `config.Validate` accepts the Profile,
`Build` turns its integers into 32-bit ones, and the Pool Manager's
`validateSpec` (`poolmgr/fake/ops.go`) accepts the spec or refuses it. `Validate`
bounds the integers from below only and lets a minimum size be zero, so the
three agree under a condition, which is worked out here.
-/

namespace FlintlockRunner.Poolmgr

/-! ## What `Build` builds -/

section Build

variable {render : Render} {p : Config.Profile} {input : SpecInput}

/-- A spec that `Build` made of a Profile, field by field. -/
structure Built (render : Render) (p : Config.Profile) (input : SpecInput) (spec : PoolSpec) :
    Prop where
  ref : spec.ref = poolRef p input.nameSpace
  template : buildTemplate render p input = .ok spec.template
  size : spec.size = Int32.ofInt p.pool.size
  hosts : spec.flintlockHosts = input.hosts
  strategy : replenishment p.pool = .ok spec.replenishment
  createCommands : spec.createCommands = p.pool.createHooks
  preLeaseCommands : spec.preLeaseCommands = p.pool.preLeaseHooks
  policy : hookFailurePolicy p.pool.hookFailurePolicy = .ok spec.hookFailurePolicy
  interval : spec.heartbeatInterval = p.pool.heartbeatInterval
  expiry : spec.heartbeatExpiryThreshold = p.pool.heartbeatExpiry

theorem ofProfile_eq_ok_iff {α : Type} {r : Except String α} {a : α} :
    ofProfile p r = .ok a ↔ r = .ok a := by
  cases r <;> simp [ofProfile, Except.mapError]

theorem bind_eq_ok_iff {α β : Type} {r : Except String α} {f : α → Except String β} {b : β} :
    r >>= f = .ok b ↔ ∃ a, r = .ok a ∧ f a = .ok b := by
  cases r with
  | error err => simp [bind, Except.bind]
  | ok a => simp [bind, Except.bind]

theorem build_eq_ok_iff {spec : PoolSpec} :
    build render p input = .ok spec ↔ Built render p input spec := by
  simp only [build, bind_eq_ok_iff, ofProfile_eq_ok_iff]
  constructor
  · rintro ⟨template, htemplate, strategy, hstrategy, policy, hpolicy, hspec⟩
    cases hspec
    exact ⟨rfl, htemplate, rfl, rfl, hstrategy, rfl, rfl, hpolicy, rfl, rfl⟩
  · intro h
    refine ⟨_, h.template, _, h.strategy, _, h.policy, ?_⟩
    rw [← h.ref, ← h.size, ← h.hosts, ← h.createCommands, ← h.preLeaseCommands, ← h.interval,
      ← h.expiry]
    rfl

/-- User data that is blank or renders. -/
def Renders (render : Render) (p : Config.Profile) : Prop :=
  Strings.trimSpace p.userData = "" ∨ ∃ text, render p.userData p.name = .ok text

theorem buildMetadata_ok (h : Renders render p) : ∃ m, buildMetadata render p = .ok m := by
  unfold buildMetadata
  split
  · exact ⟨_, rfl⟩
  next hblank =>
    obtain ⟨text, htext⟩ := h.resolve_left hblank
    rw [htext]
    exact ⟨_, rfl⟩

theorem buildTemplate_ok (h : Renders render p) (input : SpecInput) :
    ∃ t, buildTemplate render p input = .ok t := by
  obtain ⟨m, hm⟩ := buildMetadata_ok h
  exact ⟨_, bind_eq_ok_iff.mpr ⟨m, hm, rfl⟩⟩

theorem replenishment_ok (h : p.pool.Sound) : ∃ r, replenishment p.pool = .ok r := by
  unfold replenishment
  cases hs : p.pool.strategy with
  | unknown text => exact absurd hs (h.strategy_known text)
  | _ => exact ⟨_, rfl⟩

theorem hookFailurePolicy_ok (h : p.pool.Sound) :
    ∃ r, hookFailurePolicy p.pool.hookFailurePolicy = .ok r := by
  cases hpolicy : p.pool.hookFailurePolicy with
  | unknown text => exact absurd hpolicy (h.policy_known text)
  | _ => exact ⟨_, rfl⟩

theorem build_ok (h : p.pool.Sound) (hrenders : Renders render p) (input : SpecInput) :
    ∃ spec, build render p input = .ok spec := by
  obtain ⟨template, htemplate⟩ := buildTemplate_ok hrenders input
  obtain ⟨strategy, hstrategy⟩ := replenishment_ok h
  obtain ⟨policy, hpolicy⟩ := hookFailurePolicy_ok h
  refine ⟨{
    ref := poolRef p input.nameSpace, template := template, size := Int32.ofInt p.pool.size
    flintlockHosts := input.hosts, replenishment := strategy
    createCommands := p.pool.createHooks, preLeaseCommands := p.pool.preLeaseHooks
    hookFailurePolicy := policy, heartbeatInterval := p.pool.heartbeatInterval
    heartbeatExpiryThreshold := p.pool.heartbeatExpiry }, build_eq_ok_iff.mpr ?_⟩
  exact ⟨rfl, htemplate, rfl, rfl, hstrategy, rfl, rfl, hpolicy, rfl, rfl⟩

end Build

theorem poolRef_of_sound {p : Config.Profile} (h : p.pool.Sound) (nameSpace : String) :
    poolRef p nameSpace = ⟨p.pool.name, p.pool.nameSpace⟩ := by
  have hname : p.pool.name ≠ "" := Config.Validator.ne_empty_of_not_blank h.named
  have hspace : p.pool.nameSpace ≠ "" := Config.Validator.ne_empty_of_not_blank h.placed
  simp only [poolRef, hname, hspace, if_false]

/-! ## `validateSpec` -/

/-- The strategy of `validateSpec`. -/
def strategyFault (r : ReplenishmentStrategy) : Option String :=
  match r.type with
  | .immediateOnLease | .replaceOnDelete => none
  | .minSizeThreshold =>
    match r.minSize with
    | none => some "spec.replenishment_strategy: MIN_SIZE_THRESHOLD requires a positive min_size"
    | some n =>
      if n ≤ 0 then
        some "spec.replenishment_strategy: MIN_SIZE_THRESHOLD requires a positive min_size"
      else none
  | .unspecified => some ("spec.replenishment_strategy: unknown replenishment strategy "
      ++ "REPLENISHMENT_STRATEGY_TYPE_UNSPECIFIED")

/-- `validateSpec`, with the spec as it leaves it; a spec here always has a
template. -/
def validateSpec (spec : PoolSpec) : Except String PoolSpec :=
  if spec.ref.name = "" then .error "spec.name is required"
  else if spec.ref.nameSpace = "" then .error "spec.namespace is required"
  else
    match strategyFault spec.replenishment with
    | some fault => .error fault
    | none =>
      if spec.hookFailurePolicy = .unspecified then
        .error "spec.hook_failure_policy: invalid value HOOK_FAILURE_POLICY_UNSPECIFIED"
      else if spec.size < 0 then .error "spec.size must not be negative"
      else if spec.heartbeatExpiryThreshold ≤ 0 then
        .error "spec.heartbeat_expiry_threshold must be positive"
      else .ok { spec with template := { spec.template with allowGuestAgent := true } }

/-- What `validateSpec` asks of a spec. -/
structure PoolSpec.Valid (spec : PoolSpec) : Prop where
  named : spec.ref.name ≠ ""
  placed : spec.ref.nameSpace ≠ ""
  strategy : strategyFault spec.replenishment = none
  policy : spec.hookFailurePolicy ≠ .unspecified
  size : ¬spec.size < 0
  expiry : ¬spec.heartbeatExpiryThreshold ≤ 0

theorem validateSpec_ok_iff {spec : PoolSpec} :
    (∃ spec', validateSpec spec = .ok spec') ↔ spec.Valid := by
  unfold validateSpec
  constructor
  · rintro ⟨spec', h⟩
    cases hstrategy : strategyFault spec.replenishment with
    | some fault =>
      simp only [hstrategy] at h
      split_ifs at h
    | none =>
      simp only [hstrategy] at h
      split_ifs at h with hname hspace hpolicy hsize hexpiry
      exact ⟨hname, hspace, hstrategy, hpolicy, hsize, hexpiry⟩
  · intro h
    rw [if_neg h.named, if_neg h.placed, h.strategy]
    dsimp only
    rw [if_neg h.policy, if_neg h.size, if_neg h.expiry]
    exact ⟨_, rfl⟩

theorem validateSpec_eq {spec spec' : PoolSpec} (h : validateSpec spec = .ok spec') :
    spec' = { spec with template := { spec.template with allowGuestAgent := true } } := by
  have hvalid := validateSpec_ok_iff.mp ⟨spec', h⟩
  unfold validateSpec at h
  rw [if_neg hvalid.named, if_neg hvalid.placed, hvalid.strategy] at h
  dsimp only at h
  rw [if_neg hvalid.policy, if_neg hvalid.size, if_neg hvalid.expiry] at h
  exact (Except.ok.inj h).symm

theorem validateSpec_ref {spec spec' : PoolSpec} (h : validateSpec spec = .ok spec') :
    spec'.ref = spec.ref := by
  rw [validateSpec_eq h]

/-! ## Where the three agree -/

/-- The size of a volume of a spec, zero where it has none. -/
def Volume.sizeMB (v : Volume) : Int := (v.sizeInMb.map Int32.toInt).getD 0

/-- Every integer of the spec is the one the Profile configures; a minimum size
is only declared with the strategy that reads it. -/
structure Faithful (p : Config.Profile) (spec : PoolSpec) : Prop where
  size : spec.size.toInt = p.pool.size
  minSize : spec.replenishment.minSize.map Int32.toInt =
    if p.pool.strategy = .minSizeThreshold then p.pool.minSize else none
  vcpu : spec.template.vcpu.toInt = p.vcpu
  memory : spec.template.memoryInMb.toInt = p.memoryMB
  volumes : spec.template.additionalVolumes.map Volume.sizeMB =
    p.additionalVolumes.map Config.Volume.sizeMB

/-- A Profile whose integers fit in 32 bits, and whose minimum size is not zero
where the strategy reads it. -/
structure Fits (p : Config.Profile) : Prop where
  size : p.pool.size < 2 ^ 31
  minSize : p.pool.strategy = .minSizeThreshold → p.pool.minSize ≠ some 0
  vcpu : p.vcpu < 2 ^ 31
  memory : p.memoryMB < 2 ^ 31
  volumes : ∀ v ∈ p.additionalVolumes, v.sizeMB < 2 ^ 31

theorem toInt_ofInt_eq_iff {n : Int} (h : 0 ≤ n) : (Int32.ofInt n).toInt = n ↔ n < 2 ^ 31 := by
  constructor
  · intro heq
    have hlt := (Int32.ofInt n).toInt_lt
    omega
  · intro hlt
    exact Int32.toInt_ofInt_of_le (by omega) hlt

theorem sizeMB_containerVolume_eq_iff {id image mountPoint : String} {readOnly : Bool} {n : Int}
    (h : 0 ≤ n) : (containerVolume id image mountPoint readOnly n).sizeMB = n ↔ n < 2 ^ 31 := by
  unfold Volume.sizeMB containerVolume
  dsimp only
  split
  · exact toInt_ofInt_eq_iff h
  · simp only [Option.map_none, Option.getD_none]
    omega

theorem replenishment_spec {s : Config.PoolSettings} {r : ReplenishmentStrategy}
    (h : replenishment s = .ok r) :
    (s.strategy = .minSizeThreshold ∧ r = ⟨.minSizeThreshold, s.minSize.map Int32.ofInt⟩) ∨
    (s.strategy ≠ .minSizeThreshold ∧ r.minSize = none ∧ strategyFault r = none) := by
  unfold replenishment at h
  cases hs : s.strategy <;> simp only [hs, Except.ok.injEq, reduceCtorEq] at h <;> subst h
  case minSizeThreshold => exact .inl ⟨rfl, rfl⟩
  all_goals exact .inr ⟨nofun, rfl, rfl⟩

section Agreement

variable {render : Render} {p : Config.Profile} {input : SpecInput} {spec : PoolSpec}

theorem buildTemplate_spec {t : MicroVMSpec} (h : buildTemplate render p input = .ok t) :
    t.vcpu = Int32.ofInt p.vcpu ∧ t.memoryInMb = Int32.ofInt p.memoryMB ∧
      t.additionalVolumes = additionalVolumes p.additionalVolumes ∧ t.labels = labels p input ∧
      t.allowGuestAgent = true := by
  obtain ⟨m, -, ht⟩ := bind_eq_ok_iff.mp h
  cases ht
  exact ⟨rfl, rfl, rfl, rfl, rfl⟩

theorem hookFailurePolicy_specified {policy : Config.HookFailurePolicy} {r : HookFailurePolicy}
    (h : hookFailurePolicy policy = .ok r) : r ≠ .unspecified := by
  cases policy <;> cases h <;> nofun

/-- The volumes of a built spec have the configured sizes exactly when those
fit. -/
theorem volumes_exact_iff (h : ∀ v ∈ p.additionalVolumes, 0 ≤ v.sizeMB) :
    (additionalVolumes p.additionalVolumes).map Volume.sizeMB =
      p.additionalVolumes.map Config.Volume.sizeMB ↔
    ∀ v ∈ p.additionalVolumes, v.sizeMB < 2 ^ 31 := by
  rw [additionalVolumes, List.map_map, List.map_inj_left]
  exact forall₂_congr fun v hv => sizeMB_containerVolume_eq_iff (h v hv)

/-- The strategy of a built spec is exact and accepted exactly when a minimum
size that is read is not zero, if the Pool size fits. -/
theorem strategy_agrees_iff (hsound : p.pool.Sound) (hsize : p.pool.size < 2 ^ 31)
    {r : ReplenishmentStrategy} (h : replenishment p.pool = .ok r) :
    (r.minSize.map Int32.toInt =
        (if p.pool.strategy = .minSizeThreshold then p.pool.minSize else none) ∧
      strategyFault r = none) ↔
    (p.pool.strategy = .minSizeThreshold → p.pool.minSize ≠ some 0) := by
  rcases replenishment_spec h with ⟨hs, rfl⟩ | ⟨hs, hnone, hfault⟩
  · obtain ⟨n, hn⟩ := Option.ne_none_iff_exists'.mp (hsound.minSize_given hs)
    obtain ⟨hpos, hle⟩ := hsound.minSize_le n hn
    have hexact := (toInt_ofInt_eq_iff hpos).mpr (by omega)
    have hfault : strategyFault ⟨.minSizeThreshold, some (Int32.ofInt n)⟩ = none ↔ n ≠ 0 := by
      simp only [strategyFault, Int32.le_iff_toInt_le, hexact, Int32.toInt_zero]
      split
      next hle => simp; omega
      next hgt => simp; omega
    simp [hs, hn, hexact, hfault]
  · simp [hs, hnone, hfault]

/-- A spec built from a sound Profile has the configured integers and is accepted
by the Pool Manager exactly when the Profile fits. -/
theorem built_agrees_iff (hsound : p.Sound) (h : Built render p input spec) :
    (Faithful p spec ∧ ∃ spec', validateSpec spec = .ok spec') ↔ Fits p := by
  obtain ⟨hvcpu, hmemory, hvolumes, -⟩ := buildTemplate_spec h.template
  have hpool := hsound.pool
  rw [validateSpec_ok_iff]
  constructor
  · rintro ⟨hexact, hvalid⟩
    have hsize := (toInt_ofInt_eq_iff hpool.size_pos.le).mp (h.size ▸ hexact.size)
    exact
      { size := hsize
        minSize := (strategy_agrees_iff hpool hsize h.strategy).mp
          ⟨hexact.minSize, hvalid.strategy⟩
        vcpu := (toInt_ofInt_eq_iff hsound.vcpu_pos.le).mp (hvcpu ▸ hexact.vcpu)
        memory := (toInt_ofInt_eq_iff hsound.memory_pos.le).mp (hmemory ▸ hexact.memory)
        volumes := (volumes_exact_iff hsound.volumes).mp (hvolumes ▸ hexact.volumes) }
  · intro hfits
    have hsize := (toInt_ofInt_eq_iff hpool.size_pos.le).mpr hfits.size
    obtain ⟨hmin, hstrategy⟩ := (strategy_agrees_iff hpool hfits.size h.strategy).mpr hfits.minSize
    refine ⟨⟨h.size ▸ hsize, hmin, ?_, ?_, ?_⟩, ⟨?_, ?_, hstrategy, ?_, ?_, ?_⟩⟩
    · rw [hvcpu, toInt_ofInt_eq_iff hsound.vcpu_pos.le]
      exact hfits.vcpu
    · rw [hmemory, toInt_ofInt_eq_iff hsound.memory_pos.le]
      exact hfits.memory
    · rw [hvolumes, volumes_exact_iff hsound.volumes]
      exact hfits.volumes
    · rw [h.ref, poolRef_of_sound hpool]
      exact Config.Validator.ne_empty_of_not_blank hpool.named
    · rw [h.ref, poolRef_of_sound hpool]
      exact Config.Validator.ne_empty_of_not_blank hpool.placed
    · exact hookFailurePolicy_specified h.policy
    · rw [h.size, Int32.lt_iff_toInt_lt, hsize, Int32.toInt_zero]
      exact hpool.size_pos.le.not_gt
    · rw [h.expiry]
      exact (hpool.interval_pos.trans hpool.interval_lt).not_ge

end Agreement

/-- For every Profile of an accepted configuration whose user data is blank or
renders, `Build` over the Hosts that its selector picks succeeds, with the
configured integers and a spec that the Pool Manager accepts, exactly when the
Profile fits. -/
theorem declarable_iff (render : Render) (c : Config) (h : Config.Accepted c) (p : Config.Profile)
    (hp : p ∈ c.profiles) (hrenders : Renders render p) (runnerName nameSpace : String) :
    (∃ spec, build render p ⟨runnerName, nameSpace, select p c.inventory.hosts⟩ = .ok spec ∧
      Faithful p spec ∧ ∃ spec', validateSpec spec = .ok spec') ↔ Fits p := by
  have hsound := h.profile_sound hp
  constructor
  · rintro ⟨spec, hbuild, hagree⟩
    exact (built_agrees_iff hsound (build_eq_ok_iff.mp hbuild)).mp hagree
  · intro hfits
    obtain ⟨spec, hbuild⟩ := build_ok hsound.pool hrenders
      ⟨runnerName, nameSpace, select p c.inventory.hosts⟩
    exact ⟨spec, hbuild, (built_agrees_iff hsound (build_eq_ok_iff.mp hbuild)).mpr hfits⟩

variable (p : Config.Profile)

/-- A configuration with one Profile and one Host. -/
def configOf : Config :=
  Config.defaulted (Config.batteryFile [p] [Config.smallHost])

theorem configOf_accepted {p : Config.Profile} (hconcurrent : 0 < Config.defaultConcurrency [p])
    (hprofiles : Config.Validator.profiles (configOf p) = []) : Config.Accepted (configOf p) :=
  Config.batteryFile_accepted_of hconcurrent hprofiles Config.batteryFile_accepted.inventory

/-- That Profile with its defaults. -/
def profileOf : Config.Profile :=
  { Config.applyOneProfileDefaults .amd64 "runner" p with isDefault := true }

/-- What it is declared with. -/
def inputOf : SpecInput :=
  ⟨"runner", "runner", select (profileOf p) (configOf p).inventory.hosts⟩

/-- The templates of these configurations render nothing. -/
def renderNothing : Render := fun _ _ => .ok ""

/-- The Profile of the smallest configuration is declared as it is configured. -/
theorem declarable_iff_small :
    ∃ spec, build renderNothing (profileOf Config.smallProfile) (inputOf Config.smallProfile) =
        .ok spec ∧
      Faithful (profileOf Config.smallProfile) spec ∧ ∃ spec', validateSpec spec = .ok spec' :=
  (declarable_iff renderNothing (configOf Config.smallProfile)
    Config.batteryFile_accepted (profileOf Config.smallProfile)
    (List.mem_singleton_self _) (.inl (by decide)) "runner" "runner").mpr
    ⟨by decide, by decide, by decide, by decide, List.forall_mem_nil _⟩

/-- A Pool size that does not fit. -/
def hugePool : Config.Profile :=
  { Config.smallProfile with pool := { Config.smallProfile.pool with size := 2147483648 } }

/-- A memory size that does not fit. -/
def hugeMemory : Config.Profile := { Config.smallProfile with memoryMB := 4294967298 }

/-- A minimum size of zero. -/
def noMinimum : Config.Profile :=
  { Config.smallProfile with
    pool := { Config.smallProfile.pool with strategy := .minSizeThreshold, minSize := some 0 } }

/-- Three accepted configurations whose declaration goes wrong: the Pool Manager
refuses a Pool size that has become negative, it is asked for two megabytes of
memory in place of four petabytes, and it refuses a minimum size of zero. -/
theorem accepted_not_declarable :
    (Config.Accepted (configOf hugePool) ∧ profileOf hugePool ∈ (configOf hugePool).profiles ∧
      ∃ spec, build renderNothing (profileOf hugePool) (inputOf hugePool) = .ok spec ∧
        spec.size = -2147483648 ∧ validateSpec spec = .error "spec.size must not be negative") ∧
    (Config.Accepted (configOf hugeMemory) ∧
      profileOf hugeMemory ∈ (configOf hugeMemory).profiles ∧
      ∃ spec, build renderNothing (profileOf hugeMemory) (inputOf hugeMemory) = .ok spec ∧
        spec.template.memoryInMb = 2 ∧ ∃ spec', validateSpec spec = .ok spec') ∧
    (Config.Accepted (configOf noMinimum) ∧
      profileOf noMinimum ∈ (configOf noMinimum).profiles ∧
      ∃ spec, build renderNothing (profileOf noMinimum) (inputOf noMinimum) = .ok spec ∧
        validateSpec spec = .error
          "spec.replenishment_strategy: MIN_SIZE_THRESHOLD requires a positive min_size") := by
  refine ⟨⟨?_, ?_, _, rfl, ?_, ?_⟩, ⟨?_, ?_, _, rfl, ?_, _, rfl⟩, ⟨?_, ?_, _, rfl, ?_⟩⟩
  · exact configOf_accepted (by decide) (by decide +kernel)
  · exact List.mem_singleton_self _
  · rfl
  · rfl
  · exact configOf_accepted (by decide) (by decide +kernel)
  · exact List.mem_singleton_self _
  · rfl
  · exact configOf_accepted (by decide) (by decide +kernel)
  · exact List.mem_singleton_self _
  · rfl

end FlintlockRunner.Poolmgr

import FlintlockRunner.Config.Accepted
import FlintlockRunner.Poolmgr.Declarable
import FlintlockRunner.Scheduler.Current
import Mathlib.Data.List.Sort
import Mathlib.Data.String.Basic

/-!
# The Hosts a Pool is declared with

`Validate` asks `config.SelectHosts` whether a Profile has a Host, and `declare`
fills `flintlock_hosts` from the Pool Manager side's `Select`. They are written
apart and agree: `Select` is `SelectHosts`, sorted (`select_perm`).

What a Pool is declared with is built from a Profile and an Inventory that were
in effect at some time, not always at the same time (`declared_from`). While one
configuration is in effect they are its own, so that a Pool of an accepted one
always has a Host (`declared_with_hosts`).
-/

namespace FlintlockRunner

open Option

namespace Poolmgr

variable {p : Config.Profile} {inventory inventory' : List Config.HostEntry}

/-! ## Two ways to select -/

theorem select_eq_sorted (harch : p.arch ≠ .unset) :
    select p inventory = Strings.sorted (Config.selectHosts p inventory) := by
  have hsame : (fun host : Config.HostEntry => (p.arch = .unset || host.arch = p.arch) &&
      matchesSelector p.hostSelector host.labels) = Config.matchesHost p := by
    funext host
    simp only [Config.matchesHost, matchesSelector, harch, decide_false, Bool.false_or,
      eq_comm (a := host.arch)]
  simp only [select, Config.selectHosts, hsame]

theorem select_perm (harch : p.arch ≠ .unset) :
    (select p inventory).Perm (Config.selectHosts p inventory) := by
  rw [select_eq_sorted harch]
  exact Strings.sorted_perm _

theorem select_sorted : (select p inventory).Pairwise (· ≤ ·) :=
  List.pairwise_insertionSort _ _

theorem select_eq_of_perm (h : inventory'.Perm inventory) :
    select p inventory' = select p inventory := by
  have hperm : (select p inventory').Perm (select p inventory) := by
    refine (Strings.sorted_perm _).trans (.trans ?_ (Strings.sorted_perm _).symm)
    exact (h.filter _).map _
  exact hperm.eq_of_pairwise (fun _ _ _ _ => le_antisymm) select_sorted select_sorted

end Poolmgr

variable {p : Profile}

namespace Config

theorem Validator.arch_set {field : String} {a : Architecture} (h : arch field a = []) :
    a ≠ .unset := by
  rintro rfl
  exact absurd h (List.cons_ne_nil _ _)

theorem Validator.profile_hosts {pm : PoolManager} {hosts : List HostEntry} {i : Nat}
    {seen : Validator.SeenProfiles} (h : (profile pm hosts i p seen).1 = []) :
    p.arch ≠ .unset ∧ (hosts ≠ [] → selectHosts p hosts ≠ []) := by
  simp only [profile, List.append_eq_nil_iff, refuse_eq_nil_iff] at h
  obtain ⟨hrest, hselected⟩ := h
  have harch := arch_set hrest.1.1.1.1.1.1.1.1.1.1.1.2
  exact ⟨harch, fun hhosts hnone => hselected ⟨harch, hhosts, hnone⟩⟩

/-- A Profile of an accepted configuration names an architecture, and with the
battery backend a Host of the Inventory can carry its Pool. -/
theorem Accepted.selectHosts_ne_nil {c : Config} (h : Accepted c)
    (hbattery : c.poolManager.isClaim = false) (hp : p ∈ c.profiles) :
    p.arch ≠ .unset ∧ selectHosts p c.inventory.hosts ≠ [] := by
  have hinventory := Validator.inventory_eq_nil_iff.mp h.inventory
  rw [hbattery] at hinventory
  have hpass := Validator.profiles_eq_nil h.profiles
  have hprofile := Checks.forall_of_each (fun i q seen
    (hq : (Validator.profile c.poolManager c.inventory.hosts i q seen).1 = []) =>
      Validator.profile_hosts hq) hpass p hp
  exact ⟨hprofile.1, hprofile.2 hinventory.1⟩

end Config

namespace Scheduler

namespace Declare

open Poolmgr (PoolSpec)
open Threads

/-! ## Where a declared spec comes from -/

/-- The Profiles and the Inventories that some configuration has put in effect. -/
structure Sources where
  profile : Profile → Prop
  inventory : List Config.HostEntry → Prop

section From

variable (d : Deps) (src : Sources)

/-- A spec that `declare` builds from what was in effect. -/
def Sources.Builds (spec : PoolSpec) : Prop :=
  ∃ p inventory, src.profile p ∧ src.inventory inventory ∧ d.specOf p inventory = some spec

/-- The spec in hand was built from the sources. -/
def DeclarePc.From (pc : DeclarePc) : Prop := ∀ spec ∈ pc.spec?, src.Builds d spec

/-- What a round has in hand comes from the sources. -/
def DeclareAllPc.From : DeclareAllPc → Prop
  | .inventory => True
  | .profiles taken => src.inventory taken
  | .each taken ps => src.inventory taken ∧ ∀ p ∈ ps, src.profile p
  | .declaring taken ps p pc =>
    src.inventory taken ∧ (∀ q ∈ p :: ps, src.profile q) ∧ pc.From d src

/-- What a caller holds was in effect, or is about to be. -/
def Frame.From : Frame → Prop
  | .run (.declareAll pc) => pc.From d src
  | .run _ => True
  | .reload next inventory pc =>
    (∀ p ∈ next, src.profile p) ∧ src.inventory inventory ∧
      ∀ pc', pc = .declareAll pc' → pc'.From d src
  | .declareLoop .waiting | .declareLoop .inventory => True
  | .declareLoop (.profiles inventory) => src.inventory inventory
  | .declareLoop (.checking inventory ps) => src.inventory inventory ∧ ∀ p ∈ ps, src.profile p
  | .declareLoop (.declaring inventory ps p pc) =>
    src.inventory inventory ∧ (∀ q ∈ p :: ps, src.profile q) ∧ pc.From d src
  | .claim p (.declaring inventory pc) => src.profile p ∧ src.inventory inventory ∧ pc.From d src
  | .claim p _ => src.profile p

/-- What the Pool Manager held at first, or a spec that was built from what was in
effect. -/
structure Shared.From (held : PoolRef → Option PoolSpec) (s : Shared) : Prop where
  profiles : ∀ p ∈ s.profiles, src.profile p
  inventory : src.inventory s.inventory
  accepted : ∀ ref spec, s.accepted ref = some spec → held ref = some spec ∨ src.Builds d spec

end From

variable {inventory : List Config.HostEntry} {n : Next} {f : Frame}

section Step

variable {d : Deps} {src : Sources} {held : PoolRef → Option PoolSpec} {s t : Shared}

theorem Shared.From.accept (hs : s.From d src held) {spec : PoolSpec} (h : src.Builds d spec) :
    (s.accept spec).From d src held := by
  refine ⟨hs.profiles, hs.inventory, fun ref spec' hspec => ?_⟩
  simp only [Shared.accept, Function.update_apply] at hspec
  split at hspec
  · cases hspec
    exact .inr h
  · exact hs.accepted ref spec' hspec

variable {a : Answer}

theorem stepDeclare_from {pc : DeclarePc} {next : Option DeclarePc} (hs : s.From d src held)
    (hp : src.profile p) (hi : src.inventory inventory) (hpc : pc.From d src)
    (h : stepDeclare d s p inventory pc a = some (t, next)) :
    t.From d src held ∧ ∀ pc' ∈ next, pc'.From d src := by
  cases stepDeclare_declares h with
  | built hspec =>
    refine ⟨hs, ?_⟩
    rintro _ ⟨⟩ _ ⟨⟩
    exact ⟨p, inventory, hp, hi, hspec⟩
  | found | missing => exact ⟨hs, by rintro _ ⟨⟩ _ ⟨⟩; exact hpc _ rfl⟩
  | accepted hspec => exact ⟨hs.accept (hpc _ hspec), by rintro _ ⟨⟩ _ ⟨⟩⟩
  | failed => exact ⟨hs, by rintro _ ⟨⟩ _ ⟨⟩⟩
  | tracked => exact ⟨⟨hs.profiles, hs.inventory, hs.accepted⟩, by rintro _ ⟨⟩⟩

theorem stepDeclareAll_from {pc : DeclareAllPc} {next : Option DeclareAllPc}
    (hs : s.From d src held) (hpc : pc.From d src) (h : stepDeclareAll d s pc a = some (t, next)) :
    t.From d src held ∧ ∀ pc' ∈ next, pc'.From d src := by
  unfold stepDeclareAll at h
  split at h
  · cases h
    exact ⟨hs, by rintro _ ⟨⟩; exact hs.inventory⟩
  · cases h
    exact ⟨hs, by rintro _ ⟨⟩; exact ⟨hpc, hs.profiles⟩⟩
  · cases h
    exact ⟨hs, by rintro _ ⟨⟩⟩
  · cases h
    exact ⟨hs, by rintro _ ⟨⟩; exact ⟨hpc.1, hpc.2, by rintro _ ⟨⟩⟩⟩
  · rename_i inventory ps p pc
    obtain ⟨⟨t', next'⟩, hr, heq⟩ := map_eq_some_iff.mp h
    cases heq
    obtain ⟨ht, hnext⟩ := stepDeclare_from hs (hpc.2.1 p List.mem_cons_self) hpc.1 hpc.2.2 hr
    refine ⟨ht, ?_⟩
    rintro _ ⟨⟩
    cases next' with
    | none => exact ⟨hpc.1, fun q hq => hpc.2.1 q (List.mem_cons_of_mem p hq)⟩
    | some pc' => exact ⟨hpc.1, hpc.2.1, hnext pc' rfl⟩
  · cases h

/-- What a step leaves was in effect when what it found was. -/
structure Traced (d : Deps) (src : Sources) (held : PoolRef → Option PoolSpec) (n : Next) :
    Prop where
  shared : n.shared.From d src held
  frames : ∀ f ∈ n.frames, f.From d src
  spawned : n.spawned = [] ∨ n.spawned = [[.declareLoop .waiting]]

theorem Traced.goto (ht : t.From d src held) (hf : f.From d src) : Traced d src held ⟨t, [f], []⟩ :=
  ⟨ht, fun _ hg => List.mem_singleton.mp hg ▸ hf, .inl rfl⟩

theorem Traced.ret (ht : t.From d src held) : Traced d src held ⟨t, [], []⟩ :=
  ⟨ht, List.forall_mem_nil _, .inl rfl⟩

theorem Traced.lock_of (h : Declare.lock s f = some n) (hs : s.From d src held) (hf : f.From d src) :
    Traced d src held n := by
  obtain ⟨-, ⟨⟩⟩ := ite_none_left_eq_some.mp h
  exact .goto ⟨hs.profiles, hs.inventory, hs.accepted⟩ hf

theorem stepRun_traced {pc : RunPc} (hs : s.From d src held) (hf : (Frame.run pc).From d src)
    (h : stepRun d s pc a = some n) : Traced d src held n := by
  unfold stepRun at h
  split at h
  · split at h
    · cases h
      exact .ret hs
    · cases h
      exact .goto ⟨hs.profiles, hs.inventory, hs.accepted⟩ trivial
  · exact .lock_of h hs trivial
  · cases h
    exact .goto hs trivial
  · rename_i pc
    obtain ⟨⟨t, next⟩, hr, rfl⟩ := map_eq_some_iff.mp h
    obtain ⟨ht, hnext⟩ := stepDeclareAll_from hs hf hr
    cases next with
    | none => exact .goto ht trivial
    | some pc' => exact .goto ht (hnext pc' rfl)
  · cases h
    exact .goto ⟨hs.profiles, hs.inventory, hs.accepted⟩ trivial
  · cases h
    exact ⟨hs, List.forall_mem_nil _, .inr rfl⟩
  · cases h

theorem stepReload_traced {next : List Profile} {pc : ReloadPc} (hs : s.From d src held)
    (hf : (Frame.reload next inventory pc).From d src)
    (h : stepReload d s next inventory pc a = some n) : Traced d src held n := by
  obtain ⟨hprofiles, hinventory, hpc⟩ := hf
  unfold stepReload at h
  split at h
  · exact .lock_of h hs ⟨hprofiles, hinventory, by rintro _ ⟨⟩⟩
  · cases h
    exact .goto ⟨hprofiles, hinventory, hs.accepted⟩ ⟨hprofiles, hinventory, by rintro _ ⟨⟩⟩
  · cases h
    exact .goto hs ⟨hprofiles, hinventory, by rintro _ ⟨⟩⟩
  · cases h
    exact .goto ⟨hs.profiles, hs.inventory, hs.accepted⟩
      ⟨hprofiles, hinventory, by rintro _ ⟨⟩⟩
  · cases h
    exact .goto hs ⟨hprofiles, hinventory, by rintro _ ⟨⟩; exact trivial⟩
  · cases h
    exact .goto hs ⟨hprofiles, hinventory, by rintro _ ⟨⟩⟩
  · rename_i pc
    obtain ⟨⟨t, next'⟩, hr, rfl⟩ := map_eq_some_iff.mp h
    obtain ⟨ht, hnext⟩ := stepDeclareAll_from hs (hpc pc rfl) hr
    cases next' with
    | none => exact .goto ht ⟨hprofiles, hinventory, by rintro _ ⟨⟩⟩
    | some pc' =>
      exact .goto ht ⟨hprofiles, hinventory, by rintro _ ⟨⟩; exact hnext pc' rfl⟩
  · cases h
    exact .ret ⟨hs.profiles, hs.inventory, hs.accepted⟩
  · cases h

theorem stepLoop_traced {pc : LoopPc} (hs : s.From d src held)
    (hf : (Frame.declareLoop pc).From d src) (h : stepLoop d s pc a = some n) :
    Traced d src held n := by
  unfold stepLoop at h
  split at h
  · cases h
    exact .ret hs
  · cases h
    exact .goto hs trivial
  · cases h
    exact .goto hs hs.inventory
  · cases h
    exact .goto hs ⟨hf, hs.profiles⟩
  · cases h
    exact .goto hs trivial
  · rename_i inventory p ps
    split at h
    · cases h
      exact .goto hs ⟨hf.1, fun q hq => hf.2 q (List.mem_cons_of_mem p hq)⟩
    · cases h
      exact .goto hs ⟨hf.1, hf.2, by rintro _ ⟨⟩⟩
  · rename_i inventory ps p pc
    obtain ⟨⟨t, next⟩, hr, rfl⟩ := map_eq_some_iff.mp h
    obtain ⟨ht, hnext⟩ := stepDeclare_from hs (hf.2.1 p List.mem_cons_self) hf.1 hf.2.2 hr
    cases next with
    | none => exact .goto ht ⟨hf.1, fun q hq => hf.2.1 q (List.mem_cons_of_mem p hq)⟩
    | some pc' => exact .goto ht ⟨hf.1, hf.2.1, hnext pc' rfl⟩
  · cases h

theorem Frame.From.profile {pc : ClaimPc} (hf : (Frame.claim p pc).From d src) : src.profile p := by
  cases pc with
  | declaring inventory pc => exact hf.1
  | _ => exact hf

theorem stepClaim_traced {pc : ClaimPc} (hs : s.From d src held)
    (hf : (Frame.claim p pc).From d src) (h : stepClaim d s p pc a = some n) :
    Traced d src held n := by
  have hp := hf.profile
  have hkept : ∀ tracker, Shared.From d src held { s with tracker := tracker } := fun _ =>
    ⟨hs.profiles, hs.inventory, hs.accepted⟩
  unfold stepClaim at h
  split at h
  all_goals try cases h
  · exact .goto (hkept _) hp
  · exact .ret hs
  · exact .goto hs hp
  · exact .goto hs hp
  · exact .goto hs hp
  · exact .goto hs hp
  · exact .ret hs
  · exact .goto (hkept _) hp
  · exact .goto (hkept _) hp
  · exact .goto hs ⟨hp, hs.inventory, by rintro _ ⟨⟩⟩
  · obtain ⟨⟨t, next⟩, hr, rfl⟩ := map_eq_some_iff.mp h
    obtain ⟨ht, hnext⟩ := stepDeclare_from hs hp hf.2.1 hf.2.2 hr
    cases next with
    | none => exact .goto ht hp
    | some pc' => exact .goto ht ⟨hp, hf.2.1, hnext pc' rfl⟩
  · split
    · exact .goto hs hp
    · exact .ret hs

end Step

/-! ## Every run -/

/-- A call brings in a configuration of the sources; only a Reload brings any. -/
def Brings (d : Deps) (src : Sources) (_ : Sys) : Label → Prop
  | .call (.reload profiles inventory) =>
    (∀ p ∈ resolveProfiles profiles d.nameSpace, src.profile p) ∧ src.inventory inventory
  | _ => True

/-- The spec of the `CreatePool` or `UpdatePool` call that a caller is in. -/
def Frame.spec? : Frame → Option PoolSpec
  | .run (.declareAll (.declaring _ _ _ pc)) | .reload _ _ (.declareAll (.declaring _ _ _ pc))
  | .declareLoop (.declaring _ _ _ pc) | .claim _ (.declaring _ pc) => pc.spec?
  | _ => none

/-- Every spec, in hand or declared, was built from the sources. -/
structure Sys.From (d : Deps) (src : Sources) (held : PoolRef → Option PoolSpec) (s : Sys) :
    Prop where
  shared : s.shared.From d src held
  frames : ∀ f ∈ frames s.threads, f.From d src

section Run

variable {d : Deps} {src : Sources} {held : PoolRef → Option PoolSpec} {s t : Sys}

theorem Frame.From.spec (h : f.From d src) {spec : PoolSpec} (hspec : f.spec? = some spec) :
    src.Builds d spec := by
  unfold Frame.spec? at hspec
  split at hspec
  · exact h.2.2 spec hspec
  · exact (h.2.2 _ rfl).2.2 spec hspec
  · exact h.2.2 spec hspec
  · exact h.2.2 spec hspec
  · cases hspec

theorem Sys.From.step (hs : s.From d src held) {i : Nat} {rest : List Frame}
    (hi : s.threads[i]? = some (f :: rest)) (hn : Traced d src held n) :
    Sys.From d src held ⟨n.shared, advance s.threads i rest n.frames n.spawned⟩ := by
  refine ⟨hn.shared, fun g hg => ?_⟩
  rcases mem_of_frames_advance hi hg with hg | hg
  · rcases List.mem_append.mp hg with hg | hg
    · exact hn.frames g hg
    · rw [spawned_waiting hn.spawned g hg]
      exact trivial
  · exact hs.frames g hg

theorem from_next {l : Label} (hs : s.From d src held) (hok : Brings d src s l)
    (h : s.next d l = some t) : t.From d src held := by
  cases l with
  | call c =>
    obtain ⟨f, hf, rfl⟩ := map_eq_some_iff.mp h
    have hfrom : f.From d src := by
      cases c with
      | run =>
        cases hf
        exact trivial
      | reload profiles inventory =>
        obtain ⟨-, ⟨⟩⟩ := ite_none_right_eq_some.mp hf
        exact ⟨hok.1, hok.2, by rintro _ ⟨⟩⟩
      | allocate p =>
        obtain ⟨hp, ⟨⟩⟩ := ite_none_right_eq_some.mp hf
        exact hs.shared.profiles p hp
    refine ⟨hs.shared, fun g hg => ?_⟩
    simp only [frames_append, frames_cons, frames_nil, Multiset.mem_add, Multiset.coe_singleton,
      Multiset.mem_singleton, Multiset.notMem_zero, or_false] at hg
    rcases hg with hg | rfl
    · exact hs.frames g hg
    · exact hfrom
  | step i a =>
    unfold Sys.next at h
    dsimp only at h
    split at h
    · rename_i f rest hi
      obtain ⟨n, hn, rfl⟩ := map_eq_some_iff.mp h
      have hf := hs.frames f (top_mem hi)
      refine hs.step hi ?_
      cases f with
      | run pc => exact stepRun_traced hs.shared hf hn
      | reload next inventory pc => exact stepReload_traced hs.shared hf hn
      | declareLoop pc => exact stepLoop_traced hs.shared hf hn
      | claim p pc => exact stepClaim_traced hs.shared hf hn
    · cases h

/-- Every spec of a `CreatePool` or `UpdatePool` call, and every spec that one of
them has put into the Pool Manager, is built from a Profile and an Inventory that
were in effect. -/
theorem declared_from {profiles : List Config.Profile}
    (hprofiles : ∀ p ∈ resolveProfiles profiles d.nameSpace, src.profile p)
    (hinventory : src.inventory inventory)
    (h : (machine d).Path (Brings d src) ⟨.new d profiles inventory held, []⟩ s) :
    (∀ f ∈ frames s.threads, ∀ spec ∈ f.spec?, src.Builds d spec) ∧
      ∀ ref spec, s.shared.accepted ref = some spec → held ref = some spec ∨ src.Builds d spec := by
  have hfrom : s.From d src held := by
    refine h.inv (fun s l t hs hok hnext => from_next hs hok hnext) ⟨⟨hprofiles, hinventory, ?_⟩, ?_⟩
    · exact fun _ _ => .inl
    · exact fun f hf => absurd hf (Multiset.notMem_zero f)
  exact ⟨fun f hf spec hspec => (hfrom.frames f hf).spec hspec, hfrom.shared.accepted⟩

end Run

/-! ## The Hosts -/

/-- The one configuration. -/
def Sources.of (d : Deps) (c : Config) : Sources where
  profile p := p ∈ resolveProfiles c.profiles d.nameSpace
  inventory hosts := hosts = c.inventory.hosts

/-- What an accepted configuration with the battery backend builds has a Host. -/
theorem builds_hosts {d : Deps} {c : Config} (h : Config.Accepted c)
    (hbattery : c.poolManager.isClaim = false) {spec : PoolSpec}
    (hspec : (Sources.of d c).Builds d spec) : spec.flintlockHosts ≠ [] := by
  obtain ⟨p, inventory, hp, rfl, hspec⟩ := hspec
  obtain ⟨q, hq, rfl⟩ := List.mem_map.mp hp
  obtain ⟨harch, hselected⟩ := h.selectHosts_ne_nil hbattery hq
  unfold Deps.specOf at hspec
  split at hspec
  · cases hspec
  · rename_i built hbuild
    cases hspec
    rw [(Poolmgr.build_eq_ok_iff.mp hbuild).hosts]
    exact fun hnil => hselected (List.nil_perm.mp (hnil ▸ Poolmgr.select_perm harch))

/-- `Select` takes the Hosts that `SelectHosts` takes, in order, whatever order
the Inventory is in. Hence every spec of an accepted configuration with the
battery backend has a Host: in every run that starts with the configuration and
whose Reloads bring no other, in every call and, but for what the Pool Manager
held before, in the Pool Manager. -/
theorem declared_with_hosts :
    (∀ (p : Config.Profile) (inventory : List Config.HostEntry), p.arch ≠ .unset →
      (Poolmgr.select p inventory).Perm (Config.selectHosts p inventory) ∧
      (Poolmgr.select p inventory).Pairwise (· ≤ ·) ∧
      ∀ inventory', inventory'.Perm inventory →
        Poolmgr.select p inventory' = Poolmgr.select p inventory) ∧
    ∀ (c : Config), Config.Accepted c → c.poolManager.isClaim = false →
      ∀ (d : Deps) (held : PoolRef → Option PoolSpec) (s : Sys),
        (machine d).Path (Brings d (Sources.of d c))
          ⟨.new d c.profiles c.inventory.hosts held, []⟩ s →
        (∀ f ∈ frames s.threads, ∀ spec ∈ f.spec?, spec.flintlockHosts ≠ []) ∧
        ∀ ref spec, s.shared.accepted ref = some spec →
          held ref = some spec ∨ spec.flintlockHosts ≠ [] := by
  refine ⟨fun p inventory harch => ?_, fun c h hbattery d held s hpath => ?_⟩
  · exact ⟨Poolmgr.select_perm harch, Poolmgr.select_sorted, fun _ => Poolmgr.select_eq_of_perm⟩
  · obtain ⟨hcalls, hheld⟩ := declared_from (fun _ => id) rfl hpath
    exact ⟨fun f hf spec hspec => builds_hosts h hbattery (hcalls f hf spec hspec),
      fun ref spec hspec => (hheld ref spec hspec).imp_right (builds_hosts h hbattery)⟩

instance (d : Deps) (c : Config) (s : Sys) : DecidablePred (Brings d (Sources.of d c) s)
  | .call (.reload profiles inventory) =>
    inferInstanceAs (Decidable ((∀ p ∈ resolveProfiles profiles d.nameSpace,
      p ∈ resolveProfiles c.profiles d.nameSpace) ∧ inventory = c.inventory.hosts))
  | .call .run | .call (.allocate _) | .step _ _ => .isTrue trivial

/-- The startup of a Scheduler with one Profile and one Host. -/
theorem declared_with_hosts_started :
    let c := Config.defaulted (Config.batteryFile [Config.smallProfile] [Config.smallHost])
    ∃ s spec, (machine someDeps).Path (Brings someDeps (Sources.of someDeps c))
        ⟨.new someDeps c.profiles c.inventory.hosts fun _ => none, []⟩ s ∧
      s.shared.accepted ⟨"small", "runner"⟩ = some spec ∧ spec.flintlockHosts ≠ [] := by
  intro c
  have hheld : (((machine someDeps).execWhile
      (fun s l => decide (Brings someDeps (Sources.of someDeps c) s l))
      ⟨.new someDeps c.profiles c.inventory.hosts fun _ => none, []⟩
      (startRun .accepted)).bind fun s => s.shared.accepted ⟨"small", "runner"⟩).isSome := by
    decide +kernel
  obtain ⟨spec, hend⟩ := isSome_iff_exists.mp hheld
  obtain ⟨s, hs, hspec⟩ := bind_eq_some_iff.mp hend
  have hpath := Machine.path_execWhile _ hs
  obtain ⟨-, hhosts⟩ := declared_with_hosts.2 c Config.batteryFile_accepted rfl someDeps _ s hpath
  exact ⟨s, spec, hpath, hspec, (hhosts _ spec hspec).resolve_left (by rintro ⟨⟩)⟩

end Declare

end Scheduler

end FlintlockRunner

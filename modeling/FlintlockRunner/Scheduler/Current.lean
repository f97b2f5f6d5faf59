import FlintlockRunner.Scheduler.Declare

/-!
# Are the declared specs current?

A Pool is up to date when the Pool Manager's last accepted spec is the one the
current Profile and the current Inventory build. The Tracker's declared flag is
all that `declareLoop` looks at, so a Pool that is flagged as declared and is
not up to date stays wrong until the next Reload.

The argument follows one declaration: `DeclarePc.Sound` says what is known at
each of its points, and `InStep` that it declares what the configuration asks
for now. `Kept` is what every step but a Reload's swap does to the shared state:
no Pool stops being up to date, and no Pool is flagged that is not.
-/

namespace FlintlockRunner.Scheduler.Declare

open Poolmgr (PoolSpec PoolTracker)
open Multiset Option Shared Threads

/-! ## Up to date -/

variable {f : Frame} {inventory : List Config.HostEntry} {a : Answer} {n : Next} {pc : DeclarePc}

namespace Shared

variable (d : Deps) (s t : Shared)

/-- The last spec accepted for a Profile's Pool is the one it builds now. -/
def Holds (q : Profile) : Prop :=
  ∃ spec, d.specOf q s.inventory = some spec ∧ s.accepted q.poolRef = some spec

/-- A Pool flagged as declared is up to date. -/
def Fresh (q : Profile) : Prop := s.poolDeclared q.poolRef = true → s.Holds d q

/-- Declaring `p` with `inventory` asks for what the configuration wants of its
Pool now. -/
def InStep (p : Profile) (inventory : List Config.HostEntry) : Prop :=
  ∀ q ∈ s.profiles, q.poolRef = p.poolRef → d.specOf p inventory = d.specOf q s.inventory

/-- What a step does to the shared state when it does not swap the
configuration. -/
structure Kept : Prop where
  profiles : t.profiles = s.profiles
  inventory : t.inventory = s.inventory
  holds : ∀ q ∈ s.profiles, s.Holds d q → t.Holds d q
  fresh : ∀ q ∈ s.profiles, s.Fresh d q → t.Fresh d q

variable {d s t}

theorem Kept.refl : s.Kept d s := ⟨rfl, rfl, fun _ _ => id, fun _ _ => id⟩

theorem Kept.inStep (h : s.Kept d t) {p : Profile} (hp : s.InStep d p inventory) :
    t.InStep d p inventory := by
  intro q hq href
  rw [h.inventory]
  exact hp q (h.profiles ▸ hq) href

theorem Kept.of_poolDeclared (hprofiles : t.profiles = s.profiles)
    (hinventory : t.inventory = s.inventory) (haccepted : t.accepted = s.accepted)
    (h : ∀ ref, t.poolDeclared ref = true → s.poolDeclared ref = true) : s.Kept d t := by
  have hholds : ∀ q, s.Holds d q → t.Holds d q := by
    rintro q ⟨spec, hspec, hacc⟩
    exact ⟨spec, hinventory ▸ hspec, haccepted ▸ hacc⟩
  exact ⟨hprofiles, hinventory, fun q _ => hholds q,
    fun q _ hq hdecl => hholds q (hq (h q.poolRef hdecl))⟩

/-! ### The Tracker's sections -/

theorem poolDeclared_track (ref ref' : PoolRef) (declared : Bool) :
    (s.track ref declared).poolDeclared ref'
      = if ref' = ref then declared else s.poolDeclared ref' := by
  have hlookup : (s.track ref declared).tracker.pools = (s.tracker.track ref declared).1.pools := by
    unfold track
    dsimp only
    split <;> rfl
  unfold poolDeclared
  rw [hlookup, PoolTracker.lookup_track]
  split <;> rfl

theorem poolDeclared_untrack (ref ref' : PoolRef)
    (h : (s.untrack ref).poolDeclared ref' = true) : s.poolDeclared ref' = true := by
  unfold poolDeclared untrack at h
  rw [PoolTracker.lookup_untrack] at h
  split at h
  · cases h
  · exact h

theorem poolDeclared_untrack_self (s : Shared) (ref : PoolRef) :
    (s.untrack ref).poolDeclared ref = false := by
  unfold poolDeclared untrack
  rw [PoolTracker.lookup_untrack, if_pos rfl]
  rfl

theorem poolDeclared_of_lookup {ref : PoolRef} {p : Poolmgr.TrackedPool}
    (hp : p.declared = (s.tracker.poolAt ref).declared)
    (h : ∀ ref', t.tracker.pools.lookup ref'
      = if ref' = ref then some p else s.tracker.pools.lookup ref') (ref' : PoolRef) :
    t.poolDeclared ref' = s.poolDeclared ref' := by
  unfold poolDeclared
  rw [h]
  split
  · rename_i heq
    rw [heq, map_some, getD_some, hp]
    unfold PoolTracker.poolAt
    cases s.tracker.pools.lookup ref with
    | none => rfl
    | some _ => rfl
  · rfl

variable (ref : PoolRef)

theorem kept_markExhausted :
    s.Kept d { s with tracker := s.tracker.markExhausted ref } := by
  refine .of_poolDeclared rfl rfl rfl fun ref' h => ?_
  rw [← h]
  exact (poolDeclared_of_lookup (by rfl)
    (PoolTracker.lookup_markExhausted s.tracker ref) ref').symm

theorem kept_wait : s.Kept d { s with tracker := (s.tracker.wait ref).1 } := by
  refine .of_poolDeclared rfl rfl rfl fun ref' h => ?_
  rw [← h]
  exact (poolDeclared_of_lookup (by rfl) (PoolTracker.lookup_wait s.tracker ref) ref').symm

theorem kept_untrack : s.Kept d (s.untrack ref) :=
  .of_poolDeclared rfl rfl rfl fun ref' => poolDeclared_untrack ref ref'

end Shared

/-! ## One declaration -/

section Declaration

variable {d : Deps} {s t : Shared} {p : Profile} {inventory : List Config.HostEntry}
  {spec : PoolSpec}

theorem specOf_ref (h : d.specOf p inventory = some spec) : spec.ref = p.poolRef := by
  unfold Deps.specOf at h
  split at h
  · cases h
  · cases h
    rfl

/-- The spec of the call that `declare` is in. -/
def DeclarePc.spec? : DeclarePc → Option PoolSpec
  | .creating spec | .updating spec | .recreating spec => some spec
  | .building | .tracking _ => none

variable (d s p inventory) in
/-- Everything one step of `declare` can be. -/
inductive Declares : DeclarePc → Shared → Option DeclarePc → Prop
  | built {spec : PoolSpec} (hspec : d.specOf p inventory = some spec) :
      Declares .building s (some (.creating spec))
  | found (spec : PoolSpec) : Declares (.creating spec) s (some (.updating spec))
  | missing (spec : PoolSpec) : Declares (.updating spec) s (some (.recreating spec))
  | accepted {pc : DeclarePc} {spec : PoolSpec} (hspec : pc.spec? = some spec) (declared : Bool) :
      Declares pc (s.accept spec) (some (.tracking declared))
  | failed (pc : DeclarePc) : Declares pc s (some (.tracking false))
  | tracked (declared : Bool) : Declares (.tracking declared) (s.track p.poolRef declared) none

variable {next : Option DeclarePc}

theorem giveUp_declares {a : AdminAnswer} (hspec : pc.spec? = some spec)
    (h : giveUp s spec a = (t, next)) : Declares d s p inventory pc t next := by
  unfold giveUp at h
  split at h
  · cases h
    exact .accepted hspec false
  · cases h
    exact .failed pc

theorem stepDeclare_declares (h : stepDeclare d s p inventory pc a = some (t, next)) :
    Declares d s p inventory pc t next := by
  unfold stepDeclare at h
  split at h
  · split at h
    · cases h
      exact .failed _
    · cases h
      exact .built ‹_›
  · cases h
    exact .accepted rfl true
  · cases h
    exact .found _
  · exact giveUp_declares rfl (some.inj h)
  · cases h
    exact .accepted rfl true
  · cases h
    exact .missing _
  · exact giveUp_declares rfl (some.inj h)
  · cases h
    exact .accepted rfl true
  · exact giveUp_declares rfl (some.inj h)
  · cases h
    exact .tracked _
  · cases h

/-- What is known at each point of a `declare` that is in step. -/
def DeclarePc.Sound (d : Deps) (s : Shared) (p : Profile) (inventory : List Config.HostEntry) :
    DeclarePc → Prop
  | .building | .tracking false => True
  | .creating spec | .updating spec | .recreating spec => d.specOf p inventory = some spec
  | .tracking true => ∀ q ∈ s.profiles, q.poolRef = p.poolRef → s.Holds d q

theorem DeclarePc.Sound.specOf (h : pc.Sound d s p inventory) (hspec : pc.spec? = some spec) :
    d.specOf p inventory = some spec := by
  cases pc with
  | creating | updating | recreating =>
    cases hspec
    exact h
  | _ => cases hspec

theorem DeclarePc.Sound.kept (h : pc.Sound d s p inventory) (hkept : s.Kept d t) :
    pc.Sound d t p inventory := by
  cases pc with
  | tracking declared =>
    cases declared with
    | false => trivial
    | true =>
      intro q hq href
      have hq : q ∈ s.profiles := hkept.profiles ▸ hq
      exact hkept.holds q hq (h q hq href)
  | _ => exact h

/-- Accepting a spec that is in step brings its Pool up to date. -/
theorem Shared.holds_accept (hstep : s.InStep d p inventory)
    (hspec : d.specOf p inventory = some spec) {q : Profile} (hq : q ∈ s.profiles)
    (href : q.poolRef = p.poolRef) : (s.accept spec).Holds d q := by
  refine ⟨spec, (hstep q hq href).symm.trans hspec, ?_⟩
  rw [href, ← specOf_ref hspec]
  exact Function.update_self _ _ _

theorem Shared.kept_accept (hstep : s.InStep d p inventory)
    (hspec : d.specOf p inventory = some spec) : s.Kept d (s.accept spec) := by
  have hholds : ∀ q ∈ s.profiles, s.Holds d q → (s.accept spec).Holds d q := by
    rintro q hq ⟨spec', hspec', hacc⟩
    by_cases href : q.poolRef = p.poolRef
    · exact holds_accept hstep hspec hq href
    · refine ⟨spec', hspec', ?_⟩
      rw [← hacc]
      exact Function.update_of_ne (specOf_ref hspec ▸ href) _ _
  exact ⟨rfl, rfl, hholds, fun q hq hfresh hdecl => hholds q hq (hfresh hdecl)⟩

/-- Flagging a Pool as declared only when it is up to date. -/
theorem Shared.kept_track {declared : Bool}
    (h : (DeclarePc.tracking declared).Sound d s p inventory) :
    s.Kept d (s.track p.poolRef declared) ∧
    ∀ q ∈ s.profiles, q.poolRef = p.poolRef → (s.track p.poolRef declared).Fresh d q := by
  have hholds : ∀ q, s.Holds d q → (s.track p.poolRef declared).Holds d q := fun q hq => hq
  have hfresh : ∀ q ∈ s.profiles, q.poolRef = p.poolRef →
      (s.track p.poolRef declared).Fresh d q := by
    intro q hq href hdecl
    rw [poolDeclared_track, if_pos href] at hdecl
    subst hdecl
    exact hholds q (h q hq href)
  refine ⟨⟨rfl, rfl, fun q _ => hholds q, fun q hq hq' => ?_⟩, hfresh⟩
  by_cases href : q.poolRef = p.poolRef
  · exact hfresh q hq href
  · intro hdecl
    rw [poolDeclared_track, if_neg href] at hdecl
    exact hholds q (hq' hdecl)

/-- What a `declare` that returned, or goes on at a next point, leaves. -/
def DeclarePc.After (d : Deps) (s : Shared) (p : Profile) (inventory : List Config.HostEntry) :
    Option DeclarePc → Prop
  | some pc => pc.Sound d s p inventory
  | none => ∀ q ∈ s.profiles, q.poolRef = p.poolRef → s.Fresh d q

/-- What a step of `declare` leaves: nothing gets worse, the lock is not touched,
and the next point is sound. -/
structure Declared (d : Deps) (s : Shared) (p : Profile) (inventory : List Config.HostEntry)
    (r : Shared × Option DeclarePc) : Prop where
  kept : s.Kept d r.1
  lock : r.1.applyMu = s.applyMu
  after : DeclarePc.After d r.1 p inventory r.2

/-- The Pool Manager accepts the spec, and the next point needs no more than
that. -/
theorem Declared.accept (hstep : s.InStep d p inventory) (hspec : d.specOf p inventory = some spec)
    (declared : Bool) : Declared d s p inventory (s.accept spec, some (.tracking declared)) := by
  refine ⟨kept_accept hstep hspec, rfl, ?_⟩
  cases declared with
  | false => trivial
  | true => exact fun q hq href => holds_accept hstep hspec hq href

theorem stepDeclare_declared (hstep : s.InStep d p inventory)
    (hpc : pc.Sound d s p inventory) (h : stepDeclare d s p inventory pc a = some (t, next)) :
    Declared d s p inventory (t, next) := by
  cases stepDeclare_declares h with
  | built hspec => exact ⟨.refl, rfl, hspec⟩
  | found | missing => exact ⟨.refl, rfl, hpc⟩
  | accepted hspec declared => exact .accept hstep (hpc.specOf hspec) declared
  | failed => exact ⟨.refl, rfl, trivial⟩
  | tracked =>
    obtain ⟨hkept, hfresh⟩ := kept_track hpc
    exact ⟨hkept, rfl, hfresh⟩

/-! ## A list of declarations -/

/-- A Profile of the current configuration is in step with an Inventory that
builds the same specs as the current one. -/
theorem Shared.inStep_of_mem (hdistinct : Distinct s.profiles) (hp : p ∈ s.profiles)
    (hinv : ∀ q ∈ s.profiles, d.specOf q inventory = d.specOf q s.inventory) :
    s.InStep d p inventory := by
  intro q hq href
  rw [hdistinct q hq p hp href]
  exact hinv p hp

/-- What is known at each point of a `declareAll`. -/
def DeclareAllPc.Sound (d : Deps) (s : Shared) : DeclareAllPc → Prop
  | .inventory => True
  | .profiles inventory => ∀ q ∈ s.profiles, d.specOf q inventory = d.specOf q s.inventory
  | .each inventory ps => ∀ p ∈ ps, s.InStep d p inventory
  | .declaring inventory ps p pc =>
    (∀ p' ∈ p :: ps, s.InStep d p' inventory) ∧ pc.Sound d s p inventory

/-- The Pools a `declareAll` has not come to the end of. -/
def DeclareAllPc.owes (q : Profile) : DeclareAllPc → Prop
  | .inventory | .profiles _ => True
  | .each _ ps => ∃ p ∈ ps, p.poolRef = q.poolRef
  | .declaring _ ps p _ => ∃ p' ∈ p :: ps, p'.poolRef = q.poolRef

theorem DeclareAllPc.Sound.kept {pc : DeclareAllPc} (h : pc.Sound d s) (hkept : s.Kept d t) :
    pc.Sound d t := by
  cases pc with
  | inventory => trivial
  | profiles inventory =>
    intro q hq
    rw [hkept.inventory]
    exact h q (hkept.profiles ▸ hq)
  | each inventory ps => exact fun p hp => hkept.inStep (h p hp)
  | declaring inventory ps p pc => exact ⟨fun p' hp' => hkept.inStep (h.1 p' hp'), h.2.kept hkept⟩

/-- What a step of `declareAll` leaves: a Pool it had still to deal with is up to
date if it is flagged, or is still ahead. -/
structure DeclaredAll (d : Deps) (s : Shared) (pc : DeclareAllPc)
    (r : Shared × Option DeclareAllPc) : Prop where
  kept : s.Kept d r.1
  lock : r.1.applyMu = s.applyMu
  sound : ∀ pc' ∈ r.2, pc'.Sound d r.1
  owed : ∀ q ∈ s.profiles, pc.owes q → r.1.Fresh d q ∨ ∃ pc' ∈ r.2, pc'.owes q

theorem stepDeclareAll_declared {pc : DeclareAllPc} {r : Shared × Option DeclareAllPc}
    (hdistinct : Distinct s.profiles) (hpc : pc.Sound d s) (h : stepDeclareAll d s pc a = some r) :
    DeclaredAll d s pc r := by
  unfold stepDeclareAll at h
  split at h
  · cases h
    refine ⟨.refl, rfl, ?_, fun q _ _ => .inr ⟨_, rfl, trivial⟩⟩
    rintro _ ⟨⟩ q _
    rfl
  · cases h
    refine ⟨.refl, rfl, ?_, fun q hq _ => .inr ⟨_, rfl, q, hq, rfl⟩⟩
    rintro _ ⟨⟩ p hp
    exact inStep_of_mem hdistinct hp hpc
  · cases h
    refine ⟨.refl, rfl, ?_, ?_⟩
    · rintro _ ⟨⟩
    · rintro q _ ⟨p, hp, -⟩
      cases hp
  · cases h
    refine ⟨.refl, rfl, ?_, fun q _ howes => .inr ⟨_, rfl, howes⟩⟩
    rintro _ ⟨⟩
    exact ⟨hpc, trivial⟩
  · rename_i inventory ps p pc
    obtain ⟨⟨t, next⟩, hr, rfl⟩ := map_eq_some_iff.mp h
    have hdecl := stepDeclare_declared (hpc.1 p List.mem_cons_self) hpc.2 hr
    cases next with
    | some pc' =>
      refine ⟨hdecl.kept, hdecl.lock, ?_, fun q _ howes => .inr ⟨_, rfl, howes⟩⟩
      rintro _ ⟨⟩
      exact ⟨fun p' hp' => hdecl.kept.inStep (hpc.1 p' hp'), hdecl.after⟩
    | none =>
      refine ⟨hdecl.kept, hdecl.lock, ?_, ?_⟩
      · rintro _ ⟨⟩ p' hp'
        exact hdecl.kept.inStep (hpc.1 p' (List.mem_cons_of_mem _ hp'))
      · -- the Pool just tracked is settled, the others are still ahead
        rintro q hq ⟨p', hp', href⟩
        rcases List.mem_cons.mp hp' with rfl | hp'
        · exact .inl (hdecl.after q (hdecl.kept.profiles ▸ hq) href.symm)
        · exact .inr ⟨_, rfl, p', hp', href⟩
  · cases h

end Declaration

/-! ## One caller -/

/-- The caller holds `applyMu`. -/
def Frame.locked : Frame → Bool
  | .run .applying | .run (.declareAll _) | .run .unlocking => true
  | .reload _ _ .locking => false
  | .reload _ _ _ => true
  | _ => false

/-- What is known at each point of a caller. -/
def Frame.Sound (d : Deps) (s : Shared) : Frame → Prop
  | .run (.declareAll pc) => pc.Sound d s
  | .reload next _ (.declareAll pc) => Distinct next ∧ pc.Sound d s
  | .reload next _ _ => Distinct next
  | .declareLoop (.profiles inventory) =>
    ∀ q ∈ s.profiles, d.specOf q inventory = d.specOf q s.inventory
  | .declareLoop (.checking inventory ps) => ∀ p ∈ ps, s.InStep d p inventory
  | .declareLoop (.declaring inventory ps p pc) =>
    (∀ p' ∈ p :: ps, s.InStep d p' inventory) ∧ pc.Sound d s p inventory
  | .claim p (.declaring inventory pc) => s.InStep d p inventory ∧ pc.Sound d s p inventory
  | _ => True

/-- The Pools a Reload that has swapped the configuration has still to declare. -/
def Frame.owes (q : Profile) : Frame → Prop
  | .reload _ _ (.untracking _) | .reload _ _ .applying => True
  | .reload _ _ (.declareAll pc) => pc.owes q
  | _ => False

section Caller

variable {d : Deps} {s t : Shared}

theorem Frame.Sound.kept (h : f.Sound d s) (hkept : s.Kept d t) : f.Sound d t := by
  cases f with
  | run pc =>
    cases pc with
    | declareAll pc => exact DeclareAllPc.Sound.kept h hkept
    | _ => trivial
  | reload next inventory pc =>
    cases pc with
    | declareAll pc => exact ⟨h.1, h.2.kept hkept⟩
    | _ => exact h
  | declareLoop pc =>
    cases pc with
    | profiles inventory =>
      exact DeclareAllPc.Sound.kept (show (DeclareAllPc.profiles inventory).Sound d s from h) hkept
    | checking inventory ps => exact fun p hp => hkept.inStep (h p hp)
    | declaring inventory ps p pc =>
      exact ⟨fun p' hp' => hkept.inStep (h.1 p' hp'), h.2.kept hkept⟩
    | _ => trivial
  | claim p pc =>
    cases pc with
    | declaring inventory pc => exact ⟨hkept.inStep h.1, h.2.kept hkept⟩
    | _ => trivial

/-- What a step leaves that is not a Reload's swap. -/
structure Outcome (d : Deps) (s : Shared) (f : Frame) (n : Next) : Prop where
  kept : s.Kept d n.shared
  lock : n.frames.countP Frame.locked + (if s.applyMu then 1 else 0)
    = (if f.locked then 1 else 0) + (if n.shared.applyMu then 1 else 0)
  spawned : n.spawned = [] ∨ n.spawned = [[.declareLoop .waiting]]
  sound : ∀ g ∈ n.frames, g.Sound d n.shared
  owed : ∀ q ∈ s.profiles, f.owes q → n.shared.Fresh d q ∨ ∃ g ∈ n.frames, g.owes q

variable {f g : Frame}

theorem Outcome.goto (hkept : s.Kept d t) (hmu : t.applyMu = s.applyMu)
    (hlocked : g.locked = f.locked) (hsound : g.Sound d t)
    (howed : ∀ q ∈ s.profiles, f.owes q → t.Fresh d q ∨ g.owes q) : Outcome d s f ⟨t, [g], []⟩ := by
  refine ⟨hkept, ?_, .inl rfl, ?_, fun q hq h => ?_⟩
  · rw [hmu]
    simp [List.countP_cons, hlocked]
  · intro g' hg'
    rw [List.mem_singleton.mp hg']
    exact hsound
  · exact (howed q hq h).imp_right fun h => ⟨g, List.mem_singleton_self g, h⟩

theorem Outcome.free (howes : ∀ q, ¬ f.owes q) (hkept : s.Kept d t)
    (hmu : t.applyMu = s.applyMu) (hlocked : g.locked = f.locked) (hsound : g.Sound d t) :
    Outcome d s f ⟨t, [g], []⟩ :=
  .goto hkept hmu hlocked hsound fun q _ h => absurd h (howes q)

theorem Outcome.ret (hlocked : f.locked = false) (howes : ∀ q, ¬ f.owes q) :
    Outcome d s f ⟨s, [], []⟩ := by
  refine ⟨.refl, ?_, .inl rfl, List.forall_mem_nil _,
    fun q _ h => absurd h (howes q)⟩
  simp [hlocked]

theorem Outcome.lock_of (h : Declare.lock s g = some n) (hf : f.locked = false)
    (hg : g.locked = true) (hsound : ∀ t : Shared, g.Sound d t) (howes : ∀ q, ¬ f.owes q) :
    Outcome d s f n := by
  unfold Declare.lock at h
  split at h
  · cases h
  · rename_i hmu
    cases h
    refine ⟨⟨rfl, rfl, fun _ _ => id, fun _ _ => id⟩, ?_, .inl rfl, ?_,
      fun q _ h => absurd h (howes q)⟩
    · simp [hf, hg, hmu]
    · intro g' hg'
      rw [List.mem_singleton.mp hg']
      exact hsound _

theorem Outcome.unlock_of {fs : List Frame} (hf : f.locked = true) (hmu : s.applyMu = true)
    (hfs : fs.countP Frame.locked = 0) (hsound : ∀ g ∈ fs, ∀ t : Shared, g.Sound d t)
    (howes : ∀ q, ¬ f.owes q) : Outcome d s f (unlock s fs) := by
  refine ⟨⟨rfl, rfl, fun _ _ => id, fun _ _ => id⟩, ?_, .inl rfl, fun g hg => hsound g hg _,
    fun q _ h => absurd h (howes q)⟩
  simp [unlock, hf, hmu, hfs]

theorem stepRun_outcome {pc : RunPc} (hdistinct : Distinct s.profiles)
    (hsound : (Frame.run pc).Sound d s) (hmu : (Frame.run pc).locked = true → s.applyMu = true)
    (h : stepRun d s pc a = some n) : Outcome d s (.run pc) n := by
  have howes : ∀ q, ¬ (Frame.run pc).owes q := fun _ => id
  unfold stepRun at h
  split at h
  · split at h
    · cases h
      exact .ret rfl howes
    · cases h
      exact .free howes ⟨rfl, rfl, fun _ _ => id, fun _ _ => id⟩ rfl rfl trivial
  · exact .lock_of h rfl rfl (fun _ => trivial) howes
  · cases h
    exact .free howes .refl rfl rfl trivial
  · obtain ⟨⟨t, next⟩, hr, rfl⟩ := map_eq_some_iff.mp h
    have hdecl := stepDeclareAll_declared hdistinct hsound hr
    cases next with
    | none => exact .free howes hdecl.kept hdecl.lock rfl trivial
    | some pc' => exact .free howes hdecl.kept hdecl.lock rfl (hdecl.sound pc' rfl)
  · cases h
    refine .unlock_of rfl (hmu rfl) rfl ?_ howes
    intro g hg t
    rw [List.mem_singleton.mp hg]
    trivial
  · cases h
    exact ⟨.refl, by simp [Frame.locked], .inr rfl, List.forall_mem_nil _,
      fun q _ h => absurd h (howes q)⟩
  · cases h

theorem stepReload_outcome {next : List Profile} {pc : ReloadPc} (hdistinct : Distinct s.profiles)
    (hsound : (Frame.reload next inventory pc).Sound d s)
    (hmu : (Frame.reload next inventory pc).locked = true → s.applyMu = true)
    (hswap : pc ≠ .swapping)
    (hfail : pc = .applying → a = .apply false → ∀ q ∈ s.profiles, s.Fresh d q)
    (h : stepReload d s next inventory pc a = some n) :
    Outcome d s (.reload next inventory pc) n := by
  unfold stepReload at h
  split at h
  · exact .lock_of h rfl rfl (fun _ => hsound) fun _ => id
  · exact absurd rfl hswap
  · cases h
    exact .goto .refl rfl rfl hsound fun q _ _ => .inr trivial
  · cases h
    exact .goto (kept_untrack _) rfl rfl hsound fun q _ _ => .inr trivial
  · cases h
    exact .goto .refl rfl rfl ⟨hsound, trivial⟩ fun q _ _ => .inr trivial
  · cases h
    exact .goto .refl rfl rfl hsound fun q hq _ => .inl (hfail rfl rfl q hq)
  · obtain ⟨⟨t, next'⟩, hr, rfl⟩ := map_eq_some_iff.mp h
    have hdecl := stepDeclareAll_declared hdistinct hsound.2 hr
    cases next' with
    | none =>
      refine .goto hdecl.kept hdecl.lock rfl hsound.1 fun q hq howes => ?_
      rcases hdecl.owed q hq howes with hfresh | ⟨pc', hpc', -⟩
      · exact .inl hfresh
      · cases hpc'
    | some pc' =>
      refine .goto hdecl.kept hdecl.lock rfl ⟨hsound.1, hdecl.sound pc' rfl⟩ fun q hq howes => ?_
      rcases hdecl.owed q hq howes with hfresh | ⟨pc'', hpc'', howes'⟩
      · exact .inl hfresh
      · cases hpc''
        exact .inr howes'
  · cases h
    exact .unlock_of rfl (hmu rfl) rfl (List.forall_mem_nil _) fun _ => id
  · cases h

theorem stepLoop_outcome {pc : LoopPc} (hdistinct : Distinct s.profiles)
    (hsound : (Frame.declareLoop pc).Sound d s) (h : stepLoop d s pc a = some n) :
    Outcome d s (.declareLoop pc) n := by
  have howes : ∀ q, ¬ (Frame.declareLoop pc).owes q := fun _ => id
  unfold stepLoop at h
  split at h
  · cases h
    exact .ret rfl howes
  · cases h
    exact .free howes .refl rfl rfl trivial
  · cases h
    exact .free howes .refl rfl rfl (fun q _ => rfl)
  · cases h
    exact .free howes .refl rfl rfl (fun p hp => inStep_of_mem hdistinct hp hsound)
  · cases h
    exact .free howes .refl rfl rfl trivial
  · split at h
    · cases h
      exact .free howes .refl rfl rfl (fun p hp => hsound p (List.mem_cons_of_mem _ hp))
    · cases h
      exact .free howes .refl rfl rfl ⟨hsound, trivial⟩
  · rename_i inventory ps p pc
    obtain ⟨⟨t, next⟩, hr, rfl⟩ := map_eq_some_iff.mp h
    have hdecl := stepDeclare_declared (hsound.1 p List.mem_cons_self) hsound.2 hr
    have hrest : ∀ p' ∈ p :: ps, t.InStep d p' inventory :=
      fun p' hp' => hdecl.kept.inStep (hsound.1 p' hp')
    cases next with
    | none =>
      exact .free howes hdecl.kept hdecl.lock rfl (fun p' hp' => hrest p' (List.mem_cons_of_mem _ hp'))
    | some pc' => exact .free howes hdecl.kept hdecl.lock rfl ⟨hrest, hdecl.after⟩
  · cases h

theorem stepClaim_outcome {p : Profile} {pc : ClaimPc} (hsound : (Frame.claim p pc).Sound d s)
    (hcurrent : pc = .snapshotting → s.InStep d p s.inventory) (h : stepClaim d s p pc a = some n) :
    Outcome d s (.claim p pc) n := by
  have howes : ∀ q, ¬ (Frame.claim p pc).owes q := fun _ => id
  unfold stepClaim at h
  split at h
  · cases h
    exact .free howes (kept_wait _) rfl rfl trivial
  · cases h
    exact .ret rfl howes
  · cases h
    exact .free howes .refl rfl rfl trivial
  · cases h
    exact .free howes .refl rfl rfl trivial
  · cases h
    exact .free howes .refl rfl rfl trivial
  · cases h
    exact .free howes .refl rfl rfl trivial
  · cases h
    exact .ret rfl howes
  · cases h
    exact .free howes (kept_markExhausted _) rfl rfl trivial
  · cases h
    exact .free howes (kept_markExhausted _) rfl rfl trivial
  · cases h
    exact .free howes .refl rfl rfl ⟨hcurrent rfl, trivial⟩
  · obtain ⟨⟨t, next⟩, hr, rfl⟩ := map_eq_some_iff.mp h
    have hdecl := stepDeclare_declared hsound.1 hsound.2 hr
    cases next with
    | none => exact .free howes hdecl.kept hdecl.lock rfl trivial
    | some pc' =>
      exact .free howes hdecl.kept hdecl.lock rfl ⟨hdecl.kept.inStep hsound.1, hdecl.after⟩
  · rename_i again
    cases h
    cases again with
    | true => exact .free howes .refl rfl rfl trivial
    | false => exact .ret rfl howes
  · cases h

end Caller

/-! ## The swap -/

/-- A Reload's swap leaves the Pool of `p` alone: the new configuration has no
Profile with that Pool, or the current one has one that builds the same spec. -/
def Shared.Unchanged (d : Deps) (s : Shared) (next : List Profile)
    (inventory : List Config.HostEntry) (p : Profile) : Prop :=
  ∀ q ∈ next, q.poolRef = p.poolRef →
    ∃ q₀ ∈ s.profiles, q₀.poolRef = q.poolRef ∧ d.specOf q₀ s.inventory = d.specOf q inventory

instance (d : Deps) (s : Shared) (next : List Profile) (inventory : List Config.HostEntry) :
    DecidablePred (s.Unchanged d next inventory) := fun _ =>
  inferInstanceAs (Decidable (∀ _ ∈ _, _ → _))

/-- The Profiles that a round of `declareLoop`, or an Allocate's re-declaration,
has in hand. -/
def Frame.inHand : Frame → List Profile
  | .declareLoop (.checking _ ps) => ps
  | .declareLoop (.declaring _ ps p _) => p :: ps
  | .claim p (.declaring _ _) => [p]
  | _ => []

/-- The Inventory of a round that has not taken its Profiles yet. -/
def Frame.taken : Frame → List (List Config.HostEntry)
  | .declareLoop (.profiles inventory) => [inventory]
  | _ => []

/-- A swap leaves alone every Pool that a round of `declareLoop`, or an
Allocate's re-declaration, is in the middle of declaring. -/
def Frame.UnchangedBy (d : Deps) (s : Shared) (next : List Profile)
    (inventory : List Config.HostEntry) (f : Frame) : Prop :=
  (∀ p ∈ f.inHand, s.Unchanged d next inventory p) ∧
  ∀ inventory₀ ∈ f.taken, ∀ q ∈ next, d.specOf q inventory₀ = d.specOf q inventory

instance (d : Deps) (s : Shared) (next : List Profile) (inventory : List Config.HostEntry) :
    DecidablePred (Frame.UnchangedBy d s next inventory) := fun _ =>
  inferInstanceAs (Decidable (_ ∧ _))

section Swap

variable {d : Deps} {s : Shared} {next : List Profile} {inventory : List Config.HostEntry}
  {p : Profile} {inventory₀ : List Config.HostEntry}

/-- The shared state after the swap. -/
def Shared.swap (s : Shared) (next : List Profile) (inventory : List Config.HostEntry) : Shared :=
  { s with profiles := next, inventory := inventory }

theorem Shared.InStep.swap (h : s.InStep d p inventory₀) (hp : s.Unchanged d next inventory p) :
    (s.swap next inventory).InStep d p inventory₀ := by
  intro q hq href
  obtain ⟨q₀, hq₀, href₀, hspec⟩ := hp q hq href
  exact (h q₀ hq₀ (href₀.trans href)).trans hspec

theorem DeclarePc.Sound.swap (h : pc.Sound d s p inventory₀) (hp : s.Unchanged d next inventory p) :
    pc.Sound d (s.swap next inventory) p inventory₀ := by
  cases pc with
  | tracking declared =>
    cases declared with
    | false => trivial
    | true =>
      intro q hq href
      obtain ⟨q₀, hq₀, href₀, hspec⟩ := hp q hq href
      obtain ⟨spec, hspec₀, hacc⟩ := h q₀ hq₀ (href₀.trans href)
      exact ⟨spec, hspec.symm.trans hspec₀, href₀ ▸ hacc⟩
  | _ => exact h

/-- A caller that does not hold the lock is as sound after a swap that leaves
its Pools alone. -/
theorem Frame.Sound.swap (h : f.Sound d s) (hlocked : f.locked = false)
    (hf : f.UnchangedBy d s next inventory) : f.Sound d (s.swap next inventory) := by
  cases f with
  | run pc =>
    cases pc with
    | declareAll pc => cases hlocked
    | _ => trivial
  | reload next' inventory' pc =>
    cases pc with
    | declareAll pc => cases hlocked
    | _ => exact h
  | declareLoop pc =>
    cases pc with
    | profiles inventory₀ => exact hf.2 inventory₀ (List.mem_singleton_self _)
    | checking inventory₀ ps => exact fun p hp => (h p hp).swap (hf.1 p hp)
    | declaring inventory₀ ps p pc =>
      exact ⟨fun p' hp' => (h.1 p' hp').swap (hf.1 p' hp'), h.2.swap (hf.1 p List.mem_cons_self)⟩
    | _ => trivial
  | claim p pc =>
    cases pc with
    | declaring inventory₀ pc =>
      have hp := hf.1 p (List.mem_singleton_self p)
      exact ⟨h.1.swap hp, h.2.swap hp⟩
    | _ => trivial

end Swap

/-! ## Every run -/

/-- The invariant: no two current Profiles have one Pool, one caller at most
holds the lock, every caller is sound, and a Pool flagged as declared is up to
date unless a Reload has still to declare it. -/
structure Sys.Current (d : Deps) (s : Sys) : Prop where
  distinct : Distinct s.shared.profiles
  lock : (frames s.threads).countP (Frame.locked · = true) = if s.shared.applyMu then 1 else 0
  sound : ∀ f ∈ frames s.threads, f.Sound d s.shared
  fresh : ∀ q ∈ s.shared.profiles, s.shared.Fresh d q ∨ ∃ f ∈ frames s.threads, f.owes q

/-- The caller that a label moves. -/
def Sys.moving (s : Sys) : Label → Option Frame
  | .call _ => none
  | .step i _ => s.threads[i]?.bind List.head?

/-- The configuration a Reload is about to swap in. -/
def Frame.swaps? : Frame → Option (List Profile × List Config.HostEntry)
  | .reload next inventory .swapping => some (next, inventory)
  | _ => none

/-- The Profile an Allocate is about to re-declare. -/
def Frame.redeclares? : Frame → Option Profile
  | .claim p .snapshotting => some p
  | _ => none

/-- A Reload between its swap and the end of its declarations. -/
def Frame.reloading : Frame → Bool
  | .reload _ _ (.untracking _) | .reload _ _ .applying | .reload _ _ (.declareAll _) => true
  | _ => false

/-- A Reload swaps only what no declaration is in the middle of, and an Allocate
re-declares only what is current. -/
def Orderly (d : Deps) (s : Sys) (l : Label) : Prop :=
  (∀ c ∈ (s.moving l).bind Frame.swaps?, ∀ t ∈ s.threads, ∀ f ∈ t,
    f.UnchangedBy d s.shared c.1 c.2) ∧
  ∀ p ∈ (s.moving l).bind Frame.redeclares?, s.shared.InStep d p s.shared.inventory

/-- The label does not say that the Host Registry failed. -/
def Label.applied : Label → Bool
  | .step _ (.apply ok) => ok
  | _ => true

/-- A Reload whose Host Registry fails has nothing to declare. -/
def Repaid (d : Deps) (s : Sys) (l : Label) : Prop :=
  l.applied = true ∨
  ∀ f ∈ s.moving l, f.reloading = true → ∀ q ∈ s.shared.profiles, s.shared.Fresh d q

section Run

variable {d : Deps} {s t : Sys}

theorem spawned_waiting {spawned : List (List Frame)}
    (h : spawned = [] ∨ spawned = [[.declareLoop .waiting]]) (g : Frame)
    (hg : g ∈ frames spawned) : g = .declareLoop .waiting := by
  rcases h with rfl | rfl
  · simp at hg
  · simpa using hg

theorem lock_advance {i : Nat} {rest : List Frame} (hi : s.threads[i]? = some (f :: rest))
    (hlock : (frames s.threads).countP (Frame.locked · = true)
      = if s.shared.applyMu then 1 else 0)
    (hout : n.frames.countP Frame.locked + (if s.shared.applyMu then 1 else 0)
      = (if f.locked then 1 else 0) + (if n.shared.applyMu then 1 else 0))
    (hspawned : n.spawned = [] ∨ n.spawned = [[.declareLoop .waiting]]) :
    (frames (advance s.threads i rest n.frames n.spawned)).countP (Frame.locked · = true)
      = if n.shared.applyMu then 1 else 0 := by
  obtain ⟨others, hframes, hadvance⟩ := frames_split hi
  have hzero : (frames n.spawned).countP (Frame.locked · = true) = 0 := by
    refine countP_eq_zero.mpr fun g hg => ?_
    rw [spawned_waiting hspawned g hg]
    exact Bool.false_ne_true
  have hlist : ((n.frames : Multiset Frame)).countP (Frame.locked · = true)
      = n.frames.countP Frame.locked := by
    rw [coe_countP]
    simp
  rw [hframes, countP_cons] at hlock
  rw [hadvance, countP_add, countP_add, hzero, hlist]
  omega

/-- A caller that holds the lock is the only one, and `applyMu` is taken. -/
theorem lock_holder (hlock : (frames s.threads).countP (Frame.locked · = true)
      = if s.shared.applyMu then 1 else 0) {others : Multiset Frame}
    (hframes : frames s.threads = f ::ₘ others) (hf : f.locked = true) :
    s.shared.applyMu = true ∧ ∀ g ∈ others, g.locked = false := by
  rw [hframes, countP_cons, if_pos hf] at hlock
  split at hlock
  · rename_i hmu
    refine ⟨hmu, fun g hg => ?_⟩
    have hzero : others.countP (Frame.locked · = true) = 0 := by omega
    exact Bool.eq_false_iff.mpr (countP_eq_zero.mp hzero g hg)
  · omega

theorem Sys.Current.step (hs : s.Current d) {i : Nat} {rest : List Frame}
    (hi : s.threads[i]? = some (f :: rest)) (h : Outcome d s.shared f n) :
    (⟨n.shared, advance s.threads i rest n.frames n.spawned⟩ : Sys).Current d := by
  refine ⟨?_, ?_, ?_, ?_⟩
  · show Distinct n.shared.profiles
    rw [h.kept.profiles]
    exact hs.distinct
  · exact lock_advance hi hs.lock h.lock h.spawned
  · intro g hg
    rcases mem_of_frames_advance hi hg with hg | hg
    · rcases List.mem_append.mp hg with hg | hg
      · exact h.sound g hg
      · rw [spawned_waiting h.spawned g hg]
        trivial
    · exact (hs.sound g hg).kept h.kept
  · intro q hq
    have hq : q ∈ s.shared.profiles := h.kept.profiles ▸ hq
    rcases hs.fresh q hq with hfresh | ⟨g, hg, howes⟩
    · exact .inl (h.kept.fresh q hq hfresh)
    · rcases frames_advance_old hi n.frames n.spawned hg with rfl | hg
      · rcases h.owed q hq howes with hfresh | ⟨g', hg', howes'⟩
        · exact .inl hfresh
        · exact .inr ⟨g', frames_advance_new hi (List.mem_append_left _ hg'), howes'⟩
      · exact .inr ⟨g, hg, howes⟩

/-- A swap: the Reload that makes it owes every Pool of the new configuration. -/
theorem Sys.Current.swap (hs : s.Current d) {i : Nat} {rest : List Frame} {next : List Profile}
    {refs : List PoolRef} (hi : s.threads[i]? = some (.reload next inventory .swapping :: rest))
    (hunchanged : ∀ f ∈ frames s.threads, f.UnchangedBy d s.shared next inventory) :
    (⟨s.shared.swap next inventory, advance s.threads i rest
      [.reload next inventory (.untracking refs)] []⟩ : Sys).Current d := by
  obtain ⟨others, hframes, hadvance⟩ := frames_split hi
  obtain ⟨-, hothers⟩ := lock_holder hs.lock hframes rfl
  have hmem : ∀ g ∈ others, g ∈ frames s.threads :=
    fun g hg => hframes ▸ mem_cons_of_mem hg
  have hdistinct : Distinct next :=
    hs.sound (.reload next inventory .swapping) (top_mem hi)
  have hnew : frames (advance s.threads i rest [.reload next inventory (.untracking refs)] [])
      = .reload next inventory (.untracking refs) ::ₘ others := by
    rw [hadvance, frames_nil, add_zero]
    rfl
  refine ⟨hdistinct, ?_, ?_, ?_⟩
  · have hlock := hs.lock
    rw [hframes, countP_cons] at hlock
    show (frames (advance s.threads i rest _ [])).countP _ = if s.shared.applyMu then 1 else 0
    rw [hnew, countP_cons]
    exact hlock
  · intro g hg
    rw [hnew] at hg
    rcases mem_cons.mp hg with rfl | hg
    · exact hdistinct
    · exact (hs.sound g (hmem g hg)).swap (hothers g hg) (hunchanged g (hmem g hg))
  · intro q _
    refine .inr ⟨.reload next inventory (.untracking refs), ?_, trivial⟩
    rw [hnew]
    exact mem_cons_self _ _

theorem current_init (h : (machine d).init s) : s.Current d := by
  obtain ⟨profiles, inventory, accepted, hdistinct, rfl⟩ := h
  refine ⟨hdistinct, rfl, fun f hf => absurd hf (notMem_zero f), fun q _ => .inl ?_⟩
  -- a new Tracker holds no Pool as declared
  intro hdecl
  cases hdecl

theorem Sys.Current.call (hs : s.Current d) (hlocked : f.locked = false)
    (hsound : f.Sound d s.shared) : ({ s with threads := s.threads ++ [[f]] } : Sys).Current d := by
  have hframes : frames (s.threads ++ [[f]]) = f ::ₘ frames s.threads := by
    rw [frames_append, frames_cons, frames_nil, add_zero, add_comm]
    rfl
  refine ⟨hs.distinct, ?_, ?_, ?_⟩
  · show (frames (s.threads ++ [[f]])).countP _ = if s.shared.applyMu then 1 else 0
    rw [hframes, countP_cons, hlocked]
    exact hs.lock
  · intro g hg
    rcases mem_cons.mp (hframes ▸ hg) with rfl | hg
    · exact hsound
    · exact hs.sound g hg
  · intro q hq
    refine (hs.fresh q hq).imp_right ?_
    rintro ⟨g, hg, howes⟩
    exact ⟨g, hframes ▸ mem_cons_of_mem hg, howes⟩

theorem Call.start_sound {c : Call} (h : c.start d s.shared = some f) :
    f.locked = false ∧ f.Sound d s.shared := by
  cases c with
  | run =>
    cases h
    exact ⟨rfl, trivial⟩
  | reload profiles inventory =>
    obtain ⟨hdistinct, ⟨⟩⟩ := ite_none_right_eq_some.mp h
    exact ⟨rfl, hdistinct⟩
  | allocate p =>
    obtain ⟨-, ⟨⟩⟩ := ite_none_right_eq_some.mp h
    exact ⟨rfl, trivial⟩

/-- Each step keeps what is declared in line with the configuration. -/
theorem current_next {l : Label} (hs : s.Current d) (hok : Orderly d s l)
    (hpaid : Repaid d s l) (h : s.next d l = some t) : t.Current d := by
  cases l with
  | call c =>
    obtain ⟨f, hf, rfl⟩ := map_eq_some_iff.mp h
    obtain ⟨hlocked, hsound⟩ := Call.start_sound hf
    exact hs.call hlocked hsound
  | step i a =>
    unfold Sys.next at h
    dsimp only at h
    split at h
    · rename_i f rest hi
      obtain ⟨n, hn, rfl⟩ := map_eq_some_iff.mp h
      have hsound := hs.sound f (top_mem hi)
      have hmu : f.locked = true → s.shared.applyMu = true := by
        intro hf
        obtain ⟨others, hframes, -⟩ := frames_split hi
        exact (lock_holder hs.lock hframes hf).1
      have hmoving : s.moving (.step i a) = some f :=
        congrArg (·.bind List.head?) hi
      rw [Orderly, hmoving] at hok
      cases f with
      | run pc => exact hs.step hi (stepRun_outcome hs.distinct hsound hmu hn)
      | declareLoop pc => exact hs.step hi (stepLoop_outcome hs.distinct hsound hn)
      | claim p pc =>
        refine hs.step hi (stepClaim_outcome hsound ?_ hn)
        rintro rfl
        exact hok.2 p rfl
      | reload next inventory pc =>
        by_cases hswap : pc = .swapping
        · subst hswap
          have hunchanged : ∀ f ∈ frames s.threads, f.UnchangedBy d s.shared next inventory := by
            intro f hf
            obtain ⟨t, ht, hf⟩ := mem_frames.mp hf
            exact hok.1 (next, inventory) rfl t ht f hf
          cases a with
          | go =>
            cases hn
            exact hs.swap hi hunchanged
          | _ => cases hn
        · refine hs.step hi (stepReload_outcome hs.distinct hsound hmu hswap ?_ hn)
          rintro rfl rfl
          rcases hpaid with happlied | hfresh
          · cases happlied
          · exact hfresh _ hmoving rfl
    · cases h

theorem Frame.not_owes (h : f.reloading = false) (q : Profile) : ¬ f.owes q := by
  cases f with
  | reload next inventory pc =>
    cases pc with
    | untracking refs => cases h
    | applying => cases h
    | declareAll pc => cases h
    | _ => exact id
  | _ => exact id

/-- At rest the invariant leaves no exception. -/
theorem Sys.Current.rest (hs : s.Current d) (hrest : ∀ f ∈ frames s.threads, f.reloading = false)
    {q : Profile} (hq : q ∈ s.shared.profiles) : s.shared.Fresh d q := by
  rcases hs.fresh q hq with hfresh | ⟨f, hf, howes⟩
  · exact hfresh
  · exact absurd howes (Frame.not_owes (hrest f hf) q)

/-- **Declared specs are current at rest.** In an orderly run whose Host Registry
never fails, in every state in which no Reload is between its swap and its last
declaration, the Pool of a current Profile is not held as declared or the last
spec accepted for it is the one the current configuration builds. -/
theorem declared_specs_current
    (hs : (machine d).Reach (fun s l => Orderly d s l ∧ l.applied = true) s)
    (hrest : ∀ f ∈ frames s.threads, f.reloading = false) (q : Profile)
    (hq : q ∈ s.shared.profiles) :
    s.shared.poolDeclared q.poolRef = false ∨
    ∃ spec, d.specOf q s.shared.inventory = some spec ∧
      s.shared.accepted q.poolRef = some spec := by
  have hcurrent : s.Current d :=
    hs.inv (fun _ => current_init) fun _ _ _ hs hok h => current_next hs hok.1 (.inl hok.2) h
  cases hdecl : s.shared.poolDeclared q.poolRef with
  | false => exact .inl rfl
  | true => exact .inr (hcurrent.rest hrest hq hdecl)

end Run

/-! ## Two stale declarations -/

section Runs

instance (d : Deps) (s : Shared) (p : Profile) (inventory : List Config.HostEntry) :
    Decidable (s.InStep d p inventory) := inferInstanceAs (Decidable (∀ _ ∈ _, _ → _))

instance (d : Deps) (s : Sys) : DecidablePred (Orderly d s) := fun _ =>
  inferInstanceAs (Decidable (_ ∧ _))

/-- A Runner whose user-data templates render to nothing. -/
def someDeps : Deps := ⟨"runner", "ns", fun _ _ => .ok ""⟩

/-- A Profile with a Pool of `n` MicroVMs. -/
def sized (n : Int) : Config.Profile :=
  { (default : Config.Profile) with
    name := "a", pool := { (default : Config.PoolSettings) with size := n } }

/-- The same with its Pool. -/
def resolved (n : Int) : Profile := ⟨sized n, ⟨"a", "ns"⟩⟩

/-- A Scheduler with a Pool of one MicroVM to declare. -/
def freshStart : Sys := ⟨.new someDeps [sized 1] [] fun _ => none, []⟩

theorem freshStart_init : (machine someDeps).init freshStart :=
  ⟨[sized 1], [], fun _ => none, by decide, rfl⟩

/-- Thread `i` takes the steps with these answers. -/
def steps (i : Nat) (as : List Answer) : List Label := as.map (.step i)

/-- One `declareAll` over one Profile, whose `CreatePool` is answered by `a`. -/
def declareOne (a : AdminAnswer) : List Answer :=
  [.go, .go, .go, .go, .admin a, .go, .go]

/-- `Run`, up to the loops it starts. -/
def startRun (a : AdminAnswer) : List Label :=
  .call .run :: steps 0 (([.go, .go, .apply true] : List Answer) ++ declareOne a ++
    ([.go, .go] : List Answer))

/-- A Reload that makes the Pool one of two MicroVMs, in thread `i`. -/
def resizeRun (i : Nat) : List Label :=
  .call (.reload [sized 2] []) ::
    steps i (([.go, .go, .go, .apply true] : List Answer) ++ declareOne .accepted ++
      ([.go] : List Answer))

/-- A round of `declareLoop` has taken its snapshots when a Reload comes and
goes. -/
def staleRoundRun : List Label :=
  startRun (.failed false) ++ steps 1 [.timer, .go, .go, .go, .go] ++ resizeRun 2 ++
    steps 1 [.admin .alreadyExists, .admin .accepted, .go, .go]

/-- An Allocate was called with a Profile that a Reload has replaced. -/
def staleClaimRun : List Label :=
  startRun .accepted ++ ([.call (.allocate (resolved 1)), .step 2 .go] : List Label) ++
    resizeRun 3 ++
    steps 2 [.claimVM (some .notFound), .go, .go, .go, .admin .accepted, .go, .retry false]

/-- A current Profile's Pool is held as declared with another spec than the one
it builds. -/
def Shared.Stale (d : Deps) (s : Shared) (q : Profile) : Prop :=
  q ∈ s.profiles ∧ s.poolDeclared q.poolRef = true ∧
  s.accepted q.poolRef ≠ d.specOf q s.inventory

/-- Both runs end at rest with the Pool of one MicroVM declared where the
configuration wants two. -/
theorem declared_spec_stale :
    (∃ s, (machine someDeps).Reach (fun _ l => l.applied = true) s ∧
      s.threads = [[], [.declareLoop .waiting], []] ∧ s.shared.Stale someDeps (resolved 2)) ∧
    ∃ s, (machine someDeps).Reach (fun _ l => l.applied = true) s ∧
      s.threads = [[], [.declareLoop .waiting], [], []] ∧
      s.shared.Stale someDeps (resolved 2) := by
  have hround := Machine.reach_run
    (fun _ l => l.applied = true) staleRoundRun freshStart_init (by decide)
  have hclaim := Machine.reach_run
    (fun _ l => l.applied = true) staleClaimRun freshStart_init (by decide)
  exact ⟨⟨_, hround, by decide, by decide, by decide, by decide⟩,
    _, hclaim, by decide, by decide, by decide, by decide⟩

/-- A Reload of an idle Scheduler leaves the Pool with its new spec. -/
theorem declared_specs_current_resized : ∃ s,
    (machine someDeps).Reach (fun s l => Orderly someDeps s l ∧ l.applied = true) s ∧
    s.shared.poolDeclared (resolved 2).poolRef = true ∧
    (s.shared.poolDeclared (resolved 2).poolRef = false ∨
      ∃ spec, someDeps.specOf (resolved 2) s.shared.inventory = some spec ∧
        s.shared.accepted (resolved 2).poolRef = some spec) := by
  have hs := Machine.reach_run
    (fun s l => Orderly someDeps s l ∧ l.applied = true) (startRun .accepted ++ resizeRun 2) freshStart_init (by decide)
  refine ⟨_, hs, by decide, declared_specs_current hs ?_ (resolved 2) (by decide)⟩
  intro f hf
  have hf : f ∈ [Frame.declareLoop .waiting] := hf
  rw [List.mem_singleton.mp hf]
  rfl

end Runs

end FlintlockRunner.Scheduler.Declare

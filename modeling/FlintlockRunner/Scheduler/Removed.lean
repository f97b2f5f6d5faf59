import FlintlockRunner.Poolmgr.Rounds
import FlintlockRunner.Scheduler.Current

/-!
# Pools that a Reload removed

A Reload untracks every Pool that the new configuration does not refer to, once
and right after its swap. A declaration that began before the swap ends with a
`Track` of its own, whenever that comes: by a round of `declareLoop` or by an
Allocate that holds a Profile of the old configuration, the Pool is back in the
Tracker, as declared, and adds to the capacity (`removed_pool_declared`).

The Tracker's poll loop runs beside the callers here; it only ever takes the
flag away.
-/

namespace FlintlockRunner.Scheduler.Declare

open Poolmgr (PoolSpec PoolTracker RoundLabel Rounds Question)
open List Option Threads

/-! ## What one step does to the flags -/

/-- The Pools a Reload has still to untrack. -/
def Frame.untracks : Frame → List PoolRef
  | .reload _ _ (.untracking refs) => refs
  | _ => []

/-- The Pool that a round of `declareLoop`, or an Allocate's re-declaration, is
about to track as declared. -/
def Frame.tracks? : Frame → Option PoolRef
  | .declareLoop (.declaring _ _ p (.tracking true)) => some p.poolRef
  | .claim p (.declaring _ (.tracking true)) => some p.poolRef
  | _ => none

/-- The Profiles that `declareAll` has still to declare. -/
def DeclareAllPc.todo : DeclareAllPc → List Profile
  | .inventory | .profiles _ => []
  | .each _ ps => ps
  | .declaring _ ps p _ => p :: ps

/-- The Profiles that a caller with the lock has still to declare. -/
def Frame.todo : Frame → List Profile
  | .run (.declareAll pc) | .reload _ _ (.declareAll pc) => pc.todo
  | _ => []

variable {inventory : List Config.HostEntry} {n : Next} {ref : PoolRef} {f : Frame}

section Step

variable {d : Deps} {s t : Shared}

/-- Nothing but the flags, the entries and the Pool Manager changes. -/
structure Shared.Settled (s t : Shared) (tracked : PoolRef → Prop) : Prop where
  profiles : t.profiles = s.profiles
  lock : t.applyMu = s.applyMu
  declared : ∀ ref, t.poolDeclared ref = true → s.poolDeclared ref = true ∨ tracked ref

theorem Shared.Settled.refl {tracked : PoolRef → Prop} : s.Settled s tracked :=
  ⟨rfl, rfl, fun _ => .inl⟩

variable {a : Answer} {p : Profile}

theorem stepDeclare_settled {pc : DeclarePc} {next : Option DeclarePc}
    (h : stepDeclare d s p inventory pc a = some (t, next)) :
    s.Settled t fun ref => pc = .tracking true ∧ ref = p.poolRef := by
  cases stepDeclare_declares h with
  | accepted => exact ⟨rfl, rfl, fun _ => .inl⟩
  | tracked declared =>
    refine ⟨rfl, rfl, fun ref hdecl => ?_⟩
    rw [Shared.poolDeclared_track] at hdecl
    split at hdecl
    · rename_i heq
      exact .inr ⟨hdecl ▸ rfl, heq⟩
    · exact .inl hdecl
  | _ => exact .refl

theorem stepDeclareAll_settled {pc : DeclareAllPc} {next : Option DeclareAllPc}
    (hpc : ∀ p ∈ pc.todo, p ∈ s.profiles) (h : stepDeclareAll d s pc a = some (t, next)) :
    (s.Settled t fun ref => ∃ q ∈ s.profiles, q.poolRef = ref) ∧
    ∀ pc' ∈ next, ∀ p ∈ pc'.todo, p ∈ t.profiles := by
  unfold stepDeclareAll at h
  split at h
  · cases h
    refine ⟨.refl, ?_⟩
    rintro _ ⟨⟩ p hp
    cases hp
  · cases h
    refine ⟨.refl, ?_⟩
    rintro _ ⟨⟩ p hp
    exact hp
  · cases h
    exact ⟨.refl, fun _ h => absurd h (not_mem_none _)⟩
  · cases h
    refine ⟨.refl, ?_⟩
    rintro _ ⟨⟩ p hp
    exact hpc p hp
  · rename_i inventory ps p pc
    obtain ⟨⟨t', next'⟩, hr, heq⟩ := map_eq_some_iff.mp h
    cases heq
    have hsettled := stepDeclare_settled hr
    refine ⟨⟨hsettled.profiles, hsettled.lock, fun ref hdecl => ?_⟩, ?_⟩
    · exact (hsettled.declared ref hdecl).imp_right fun h =>
        ⟨p, hpc p mem_cons_self, h.2.symm⟩
    · rintro _ ⟨⟩ q hq
      rw [hsettled.profiles]
      cases next' with
      | none => exact hpc q (mem_cons_of_mem _ hq)
      | some pc' => exact hpc q hq
  · cases h

/-- What a step leaves that is not a Reload's swap. -/
structure Effect (s : Shared) (f : Frame) (n : Next) : Prop where
  profiles : n.shared.profiles = s.profiles
  lock : n.frames.countP Frame.locked + (if s.applyMu then 1 else 0)
    = (if f.locked then 1 else 0) + (if n.shared.applyMu then 1 else 0)
  spawned : n.spawned = [] ∨ n.spawned = [[.declareLoop .waiting]]
  todo : ∀ g ∈ n.frames, ∀ p ∈ g.todo, p ∈ s.profiles
  declared : ∀ ref, n.shared.poolDeclared ref = true → s.poolDeclared ref = true ∨
    (∃ q ∈ s.profiles, q.poolRef = ref) ∨ f.tracks? = some ref
  untracks : ∀ ref ∈ f.untracks,
    n.shared.poolDeclared ref = false ∨ ∃ g ∈ n.frames, ref ∈ g.untracks

variable {f g : Frame}

theorem Effect.goto (hsettled : s.Settled t fun ref =>
      (∃ q ∈ s.profiles, q.poolRef = ref) ∨ f.tracks? = some ref)
    (hlocked : g.locked = f.locked) (htodo : ∀ p ∈ g.todo, p ∈ s.profiles)
    (huntracks : ∀ ref ∈ f.untracks, t.poolDeclared ref = false ∨ ref ∈ g.untracks) :
    Effect s f ⟨t, [g], []⟩ := by
  refine ⟨hsettled.profiles, ?_, .inl rfl, ?_, hsettled.declared, fun ref href => ?_⟩
  · rw [hsettled.lock]
    simp [countP_cons, hlocked]
  · intro g' hg'
    rw [mem_singleton.mp hg']
    exact htodo
  · exact (huntracks ref href).imp_right fun h => ⟨g, mem_singleton_self g, h⟩

theorem Effect.free (hsettled : s.Settled t fun ref =>
      (∃ q ∈ s.profiles, q.poolRef = ref) ∨ f.tracks? = some ref)
    (hlocked : g.locked = f.locked) (htodo : g.todo = []) (huntracks : f.untracks = []) :
    Effect s f ⟨t, [g], []⟩ :=
  .goto hsettled hlocked (htodo ▸ forall_mem_nil _) (huntracks ▸ forall_mem_nil _)

theorem Effect.ret (hlocked : f.locked = false) (huntracks : f.untracks = []) :
    Effect s f ⟨s, [], []⟩ := by
  refine ⟨rfl, ?_, .inl rfl, forall_mem_nil _, fun _ => .inl, huntracks ▸ forall_mem_nil _⟩
  simp [hlocked]

theorem Effect.lock_of (h : Declare.lock s g = some n) (hf : f.locked = false)
    (hg : g.locked = true) (htodo : g.todo = []) (huntracks : f.untracks = []) : Effect s f n := by
  unfold Declare.lock at h
  split at h
  · cases h
  · rename_i hmu
    cases h
    refine ⟨rfl, ?_, .inl rfl, ?_, fun _ => .inl, huntracks ▸ forall_mem_nil _⟩
    · simp [hf, hg, hmu]
    · intro g' hg' p hp
      rw [mem_singleton.mp hg', htodo] at hp
      cases hp

theorem Effect.unlock_of {fs : List Frame} (hf : f.locked = true) (hmu : s.applyMu = true)
    (hfs : fs.countP Frame.locked = 0) (htodo : ∀ g ∈ fs, g.todo = [])
    (huntracks : f.untracks = []) : Effect s f (unlock s fs) := by
  refine ⟨rfl, ?_, .inl rfl, ?_, fun _ => .inl, huntracks ▸ forall_mem_nil _⟩
  · simp [unlock, hf, hmu, hfs]
  · intro g hg p hp
    rw [htodo g hg] at hp
    cases hp

theorem Effect.declareAll {pc : DeclareAllPc} {next : Option DeclareAllPc}
    (htodo : ∀ p ∈ pc.todo, p ∈ s.profiles) (h : stepDeclareAll d s pc a = some (t, next))
    (hlocked : g.locked = f.locked) (hg : ∀ p ∈ g.todo, ∃ pc' ∈ next, p ∈ pc'.todo)
    (huntracks : f.untracks = []) : Effect s f ⟨t, [g], []⟩ := by
  obtain ⟨hsettled, hnext⟩ := stepDeclareAll_settled htodo h
  refine .goto ⟨hsettled.profiles, hsettled.lock, fun ref hdecl => ?_⟩ hlocked (fun p hp => ?_)
    (huntracks ▸ forall_mem_nil _)
  · exact (hsettled.declared ref hdecl).imp_right .inl
  · obtain ⟨pc', hpc', hp⟩ := hg p hp
    exact hsettled.profiles ▸ hnext pc' hpc' p hp

theorem Effect.declare {pc : DeclarePc} {next : Option DeclarePc}
    (h : stepDeclare d s p inventory pc a = some (t, next)) (hlocked : g.locked = f.locked)
    (htracks : pc = .tracking true → f.tracks? = some p.poolRef) (htodo : g.todo = [])
    (huntracks : f.untracks = []) : Effect s f ⟨t, [g], []⟩ := by
  have hsettled := stepDeclare_settled h
  refine .free ⟨hsettled.profiles, hsettled.lock, fun ref hdecl => ?_⟩ hlocked htodo huntracks
  refine (hsettled.declared ref hdecl).imp_right fun ⟨hpc, href⟩ => .inr ?_
  rw [href]
  exact htracks hpc

theorem stepRun_effect {pc : RunPc} (htodo : ∀ p ∈ (Frame.run pc).todo, p ∈ s.profiles)
    (hmu : (Frame.run pc).locked = true → s.applyMu = true) (h : stepRun d s pc a = some n) :
    Effect s (.run pc) n := by
  unfold stepRun at h
  split at h
  · split at h
    · cases h
      exact .ret rfl rfl
    · cases h
      exact .free ⟨rfl, rfl, fun _ => .inl⟩ rfl rfl rfl
  · exact .lock_of h rfl rfl rfl rfl
  · cases h
    exact .free .refl rfl rfl rfl
  · obtain ⟨⟨t, next⟩, hr, rfl⟩ := map_eq_some_iff.mp h
    cases next with
    | none => exact .declareAll htodo hr rfl (forall_mem_nil _) rfl
    | some pc' => exact .declareAll htodo hr rfl (fun p hp => ⟨pc', rfl, hp⟩) rfl
  · cases h
    refine .unlock_of rfl (hmu rfl) rfl ?_ rfl
    intro g hg
    rw [mem_singleton.mp hg]
    rfl
  · cases h
    exact ⟨rfl, by simp [Frame.locked], .inr rfl, forall_mem_nil _,
      fun _ => .inl, forall_mem_nil _⟩
  · cases h

theorem stepReload_effect {next : List Profile} {pc : ReloadPc}
    (htodo : ∀ p ∈ (Frame.reload next inventory pc).todo, p ∈ s.profiles)
    (hmu : (Frame.reload next inventory pc).locked = true → s.applyMu = true)
    (hswap : pc ≠ .swapping) (h : stepReload d s next inventory pc a = some n) :
    Effect s (.reload next inventory pc) n := by
  unfold stepReload at h
  split at h
  · exact .lock_of h rfl rfl rfl rfl
  · exact absurd rfl hswap
  · cases h
    exact .free .refl rfl rfl rfl
  · rename_i ref refs
    cases h
    refine .goto ⟨rfl, rfl, fun r h => .inl (Shared.poolDeclared_untrack ref r h)⟩ rfl
      (forall_mem_nil _) fun r hr => ?_
    rcases mem_cons.mp hr with rfl | hr
    · exact .inl (Shared.poolDeclared_untrack_self s r)
    · exact .inr hr
  · cases h
    exact .free .refl rfl rfl rfl
  · cases h
    exact .free .refl rfl rfl rfl
  · obtain ⟨⟨t, next'⟩, hr, rfl⟩ := map_eq_some_iff.mp h
    cases next' with
    | none => exact .declareAll htodo hr rfl (forall_mem_nil _) rfl
    | some pc' => exact .declareAll htodo hr rfl (fun p hp => ⟨pc', rfl, hp⟩) rfl
  · cases h
    exact .unlock_of rfl (hmu rfl) rfl (forall_mem_nil _) rfl
  · cases h

theorem stepLoop_effect {pc : LoopPc} (h : stepLoop d s pc a = some n) :
    Effect s (.declareLoop pc) n := by
  unfold stepLoop at h
  split at h
  · cases h
    exact .ret rfl rfl
  · cases h
    exact .free .refl rfl rfl rfl
  · cases h
    exact .free .refl rfl rfl rfl
  · cases h
    exact .free .refl rfl rfl rfl
  · cases h
    exact .free .refl rfl rfl rfl
  · split at h
    · cases h
      exact .free .refl rfl rfl rfl
    · cases h
      exact .free .refl rfl rfl rfl
  · obtain ⟨⟨t, next⟩, hr, rfl⟩ := map_eq_some_iff.mp h
    cases next with
    | none => exact .declare hr rfl (by rintro rfl; rfl) rfl rfl
    | some pc' => exact .declare hr rfl (by rintro rfl; rfl) rfl rfl
  · cases h

theorem stepClaim_effect {pc : ClaimPc} (h : stepClaim d s p pc a = some n) :
    Effect s (.claim p pc) n := by
  have hexhausted : ∀ f : Frame, s.Settled { s with tracker := s.tracker.markExhausted p.poolRef }
      fun ref => (∃ q ∈ s.profiles, q.poolRef = ref) ∨ f.tracks? = some ref := by
    refine fun f => ⟨rfl, rfl, fun ref hdecl => .inl ?_⟩
    exact (Shared.poolDeclared_of_lookup (by rfl)
      (PoolTracker.lookup_markExhausted s.tracker p.poolRef) ref).symm.trans hdecl
  unfold stepClaim at h
  split at h
  · cases h
    refine .free ⟨rfl, rfl, fun ref hdecl => .inl ?_⟩ rfl rfl rfl
    exact (Shared.poolDeclared_of_lookup (by rfl)
      (PoolTracker.lookup_wait s.tracker p.poolRef) ref).symm.trans hdecl
  · cases h
    exact .ret rfl rfl
  · cases h
    exact .free .refl rfl rfl rfl
  · cases h
    exact .free .refl rfl rfl rfl
  · cases h
    exact .free .refl rfl rfl rfl
  · cases h
    exact .free .refl rfl rfl rfl
  · cases h
    exact .ret rfl rfl
  · cases h
    exact .free (hexhausted _) rfl rfl rfl
  · cases h
    exact .free (hexhausted _) rfl rfl rfl
  · cases h
    exact .free .refl rfl rfl rfl
  · obtain ⟨⟨t, next⟩, hr, rfl⟩ := map_eq_some_iff.mp h
    cases next with
    | none => exact .declare hr rfl (by rintro rfl; rfl) rfl rfl
    | some pc' => exact .declare hr rfl (by rintro rfl; rfl) rfl rfl
  · rename_i again
    cases h
    cases again with
    | true => exact .free .refl rfl rfl rfl
    | false => exact .ret rfl rfl
  · cases h

end Step

/-! ## Every run of the callers -/

/-- A current Profile has the Pool, or a Reload has still to untrack it. -/
def Sys.Referred (s : Sys) (ref : PoolRef) : Prop :=
  (∃ q ∈ s.shared.profiles, q.poolRef = ref) ∨ ∃ t ∈ s.threads, ∃ f ∈ t, ref ∈ f.untracks

instance (s : Sys) : DecidablePred s.Referred := fun ref =>
  inferInstanceAs (Decidable (_ ∨ ∃ t ∈ s.threads, ∃ f ∈ t, ref ∈ f.untracks))

/-- The invariant: one caller at most holds the lock, whoever declares with the
lock declares current Profiles, and a Pool that is flagged is referred to. -/
structure Sys.Referring (s : Sys) : Prop where
  lock : (frames s.threads).countP (Frame.locked · = true) = if s.shared.applyMu then 1 else 0
  todo : ∀ f ∈ frames s.threads, ∀ p ∈ f.todo, p ∈ s.shared.profiles
  referred : ∀ ref, s.shared.poolDeclared ref = true → s.Referred ref

theorem Frame.todo_of_unlocked (h : f.locked = false) : f.todo = [] := by
  cases f with
  | run pc =>
    cases pc with
    | declareAll pc => cases h
    | _ => rfl
  | reload next inventory pc =>
    cases pc with
    | declareAll pc => cases h
    | _ => rfl
  | _ => rfl

section Run

variable {d : Deps} {s : Sys}

theorem Sys.referred_iff : s.Referred ref ↔
    (∃ q ∈ s.shared.profiles, q.poolRef = ref) ∨ ∃ f ∈ frames s.threads, ref ∈ f.untracks := by
  refine or_congr_right ⟨?_, ?_⟩
  · rintro ⟨t, ht, f, hf, href⟩
    exact ⟨f, mem_frames.mpr ⟨t, ht, hf⟩, href⟩
  · rintro ⟨f, hf, href⟩
    obtain ⟨t, ht, hf⟩ := mem_frames.mp hf
    exact ⟨t, ht, f, hf, href⟩

theorem Sys.Referring.step (hs : s.Referring) {i : Nat} {rest : List Frame}
    (hi : s.threads[i]? = some (f :: rest)) (h : Effect s.shared f n)
    (hok : ∀ ref ∈ f.tracks?, s.Referred ref) :
    (⟨n.shared, advance s.threads i rest n.frames n.spawned⟩ : Sys).Referring := by
  refine ⟨lock_advance hi hs.lock h.lock h.spawned, ?_, ?_⟩
  · intro g hg p hp
    show p ∈ n.shared.profiles
    rw [h.profiles]
    rcases mem_of_frames_advance hi hg with hg | hg
    · rcases mem_append.mp hg with hg | hg
      · exact h.todo g hg p hp
      · rw [spawned_waiting h.spawned g hg] at hp
        cases hp
    · exact hs.todo g hg p hp
  · intro ref hdecl
    have hreferred : s.Referred ref := by
      rcases h.declared ref hdecl with hold | hcurrent | htracks
      · exact hs.referred ref hold
      · exact .inl hcurrent
      · exact hok ref htracks
    rw [Sys.referred_iff] at hreferred ⊢
    rcases hreferred with hcurrent | ⟨g, hg, href⟩
    · exact .inl (h.profiles.symm ▸ hcurrent)
    · rcases frames_advance_old hi n.frames n.spawned hg with rfl | hg
      · rcases h.untracks ref href with hnot | ⟨g', hg', href'⟩
        · cases hnot.symm.trans hdecl
        · exact .inr ⟨g', frames_advance_new hi (mem_append_left _ hg'), href'⟩
      · exact .inr ⟨g, hg, href⟩

theorem mem_unreferenced {previous next : List Profile} {q : Profile} (hq : q ∈ previous)
    (href : q.poolRef = ref) (hnext : ∀ q' ∈ next, q'.poolRef ≠ ref) :
    ref ∈ unreferenced previous next := by
  refine mem_map.mpr ⟨q, mem_filter.mpr ⟨hq, ?_⟩, href⟩
  rw [isNone_iff_eq_none]
  refine find?_eq_none.mpr fun q' hq' heq => ?_
  exact hnext q' hq' ((of_decide_eq_true heq).trans href)

/-- A swap: the Reload that makes it has the Pools to untrack that the new
configuration does not refer to. -/
theorem Sys.Referring.swap (hs : s.Referring) {i : Nat} {rest : List Frame} {next : List Profile}
    (hi : s.threads[i]? = some (.reload next inventory .swapping :: rest)) :
    (⟨s.shared.swap next inventory, advance s.threads i rest
      [.reload next inventory (.untracking (unreferenced s.shared.profiles next))] []⟩ :
        Sys).Referring := by
  obtain ⟨others, hframes, hadvance⟩ := frames_split hi
  obtain ⟨-, hothers⟩ := lock_holder hs.lock hframes rfl
  have hnew : frames (advance s.threads i rest
      [.reload next inventory (.untracking (unreferenced s.shared.profiles next))] [])
      = .reload next inventory (.untracking (unreferenced s.shared.profiles next)) ::ₘ others := by
    rw [hadvance, frames_nil, add_zero]
    rfl
  refine ⟨?_, ?_, ?_⟩
  · have hlock := hs.lock
    rw [hframes, Multiset.countP_cons] at hlock
    show (frames (advance s.threads i rest _ [])).countP _ = if s.shared.applyMu then 1 else 0
    rw [hnew, Multiset.countP_cons]
    exact hlock
  · intro g hg p hp
    rw [hnew] at hg
    rcases Multiset.mem_cons.mp hg with rfl | hg
    · cases hp
    · rw [Frame.todo_of_unlocked (hothers g hg)] at hp
      cases hp
  · intro ref hdecl
    rw [Sys.referred_iff]
    rw [hnew]
    rcases Sys.referred_iff.mp (hs.referred ref hdecl) with ⟨q, hq, href⟩ | ⟨g, hg, href⟩
    · by_cases hnext : ∃ q' ∈ next, q'.poolRef = ref
      · exact .inl hnext
      · -- nothing refers to the Pool any more
        refine .inr ⟨_, Multiset.mem_cons_self _ _, ?_⟩
        exact mem_unreferenced hq href fun q' hq' heq => hnext ⟨q', hq', heq⟩
    · rcases Multiset.mem_cons.mp (hframes ▸ hg) with rfl | hg
      · cases href
      · exact .inr ⟨g, Multiset.mem_cons_of_mem hg, href⟩

theorem referring_init (h : (machine d).init s) : s.Referring := by
  obtain ⟨profiles, inventory, accepted, -, rfl⟩ := h
  refine ⟨rfl, fun f hf => absurd hf (Multiset.notMem_zero f), fun ref hdecl => ?_⟩
  -- a new Tracker holds no Pool as declared
  cases hdecl

theorem Sys.Referring.call (hs : s.Referring) (hlocked : f.locked = false) :
    ({ s with threads := s.threads ++ [[f]] } : Sys).Referring := by
  have hframes : frames (s.threads ++ [[f]]) = f ::ₘ frames s.threads := by
    rw [frames_append, frames_cons, frames_nil, add_zero, add_comm]
    rfl
  refine ⟨?_, ?_, ?_⟩
  · show (frames (s.threads ++ [[f]])).countP _ = if s.shared.applyMu then 1 else 0
    rw [hframes, Multiset.countP_cons, hlocked]
    exact hs.lock
  · intro g hg p hp
    rcases Multiset.mem_cons.mp (hframes ▸ hg) with rfl | hg
    · rw [Frame.todo_of_unlocked hlocked] at hp
      cases hp
    · exact hs.todo g hg p hp
  · intro ref hdecl
    refine (hs.referred ref hdecl).imp_right fun ⟨t, ht, h⟩ => ?_
    exact ⟨t, mem_append_left _ ht, h⟩

theorem referring_next {l : Label} {t : Sys} (hs : s.Referring) (h : s.next d l = some t)
    (hok : ∀ ref ∈ (s.moving l).bind Frame.tracks?, s.Referred ref) : t.Referring := by
  cases l with
  | call c =>
    obtain ⟨f, hf, rfl⟩ := map_eq_some_iff.mp h
    exact hs.call (Call.start_sound hf).1
  | step i a =>
    unfold Sys.next at h
    dsimp only at h
    split at h
    case h_2 => cases h
    case h_1 f rest hi =>
      obtain ⟨n, hn, rfl⟩ := map_eq_some_iff.mp h
      have htodo := hs.todo f (top_mem hi)
      have hmu : f.locked = true → s.shared.applyMu = true := by
        intro hf
        obtain ⟨others, hframes, -⟩ := frames_split hi
        exact (lock_holder hs.lock hframes hf).1
      have hmoving : s.moving (.step i a) = some f := congrArg (·.bind head?) hi
      rw [hmoving] at hok
      cases f with
      | run pc => exact hs.step hi (stepRun_effect htodo hmu hn) hok
      | declareLoop pc => exact hs.step hi (stepLoop_effect hn) hok
      | claim p pc => exact hs.step hi (stepClaim_effect hn) hok
      | reload next inventory pc =>
        by_cases hswap : pc = .swapping
        · subst hswap
          cases a with
          | go =>
            cases hn
            exact hs.swap hi
          | _ => cases hn
        · exact hs.step hi (stepReload_effect htodo hmu hswap hn) hok

end Run

/-! ## The poll loop beside them -/

/-- The callers, and the poll loop of the Tracker they share. -/
structure Polled where
  sys : Sys
  todo : List PoolRef
  question : Option Question

/-- A caller's step, or one of the Tracker's own. -/
inductive PolledLabel
  | caller (l : Label)
  | loop (l : RoundLabel)

/-- The steps that no caller takes: events and poll rounds. -/
def ofLoop : RoundLabel → Bool
  | .event _ | .pollAll | .ask | .answer _ _ | .notFound | .fails => true
  | .track _ _ | .untrack _ | .wait _ | .markExhausted _ => false

/-- The Tracker and its poll loop, without the history that `Rounds` keeps. -/
def Polled.rounds (s : Polled) : Rounds :=
  ⟨s.sys.shared.tracker, s.todo, s.question, fun _ => false, false⟩

/-- One step. -/
def Polled.next (d : Deps) (s : Polled) : PolledLabel → Option Polled
  | .caller l => (s.sys.next d l).map fun sys => { s with sys := sys }
  | .loop l =>
    if ofLoop l then
      (s.rounds.next l).map fun r =>
        ⟨{ s.sys with shared := { s.sys.shared with tracker := r.tracker } }, r.todo, r.question⟩
    else none

/-- Declaring Pools beside the poll loop. -/
def polled (d : Deps) : Machine Polled PolledLabel where
  init s := ∃ sys, (machine d).init sys ∧ s = ⟨sys, [], none⟩
  next := Polled.next d

/-- The condition on one step: a round of `declareLoop`, and an Allocate's
re-declaration, track a Pool as declared only if a current Profile has it or a
Reload has still to untrack it. -/
def OnlyReferred (s : Polled) : PolledLabel → Prop
  | .caller l => ∀ ref ∈ (s.sys.moving l).bind Frame.tracks?, s.sys.Referred ref
  | .loop _ => True

instance (s : Polled) : DecidablePred (OnlyReferred s) := fun l => by
  unfold OnlyReferred
  split <;> infer_instance

section Polls

variable {d : Deps} {s : Polled}

theorem declared_of_loop {r r' : Rounds} {l : RoundLabel} (h : r.next l = some r')
    (hl : ofLoop l = true) {p' : Poolmgr.TrackedPool} (hp' : r'.tracker.pools.lookup ref = some p')
    (hdecl : p'.declared = true) :
    ∃ p, r.tracker.pools.lookup ref = some p ∧ p.declared = true := by
  cases l with
  | track | untrack | wait | markExhausted => cases hl
  | event e =>
    cases h
    dsimp only at hp'
    rw [PoolTracker.lookup_apply] at hp'
    split at hp'
    · rename_i heq
      obtain ⟨p, hp, rfl⟩ := map_eq_some_iff.mp hp'
      rw [Poolmgr.TrackedPool.woke_declared, p.apply_declared] at hdecl
      exact ⟨p, heq ▸ hp, hdecl⟩
    · exact ⟨p', hp', hdecl⟩
  | answer size status =>
    obtain ⟨q, -, rfl⟩ := map_eq_some_iff.mp h
    dsimp only at hp'
    rw [PoolTracker.lookup_applyPoll] at hp'
    split at hp'
    · rename_i heq
      obtain ⟨p, hp, rfl⟩ := map_eq_some_iff.mp hp'
      refine ⟨p, heq ▸ hp, ?_⟩
      split at hdecl
      · exact hdecl
      · rw [Poolmgr.TrackedPool.woke_declared] at hdecl
        exact hdecl
    · exact ⟨p', hp', hdecl⟩
  | notFound =>
    obtain ⟨q, -, rfl⟩ := map_eq_some_iff.mp h
    dsimp only at hp'
    rw [PoolTracker.lookup_setDeclared_false] at hp'
    split at hp'
    · cases hp'
      cases hdecl
    · exact ⟨p', hp', hdecl⟩
  | fails =>
    obtain ⟨q, -, rfl⟩ := map_eq_some_iff.mp h
    exact ⟨p', hp', hdecl⟩
  | pollAll =>
    obtain ⟨-, ⟨⟩⟩ := ite_none_right_eq_some.mp h
    exact ⟨p', hp', hdecl⟩
  | ask =>
    unfold Rounds.next at h
    dsimp only at h
    split at h
    · cases h
      exact ⟨p', hp', hdecl⟩
    · cases h

theorem Shared.poolDeclared_iff {s : Shared} : s.poolDeclared ref = true ↔
    ∃ p, s.tracker.pools.lookup ref = some p ∧ p.declared = true := by
  unfold poolDeclared
  cases s.tracker.pools.lookup ref with
  | none => exact iff_of_false Bool.false_ne_true (by rintro ⟨p, ⟨⟩, -⟩)
  | some p =>
    refine ⟨fun h => ⟨p, rfl, h⟩, ?_⟩
    rintro ⟨p', ⟨⟩, h⟩
    exact h

theorem polled_referring (hs : (polled d).Reach OnlyReferred s) : s.sys.Referring := by
  refine hs.inv (I := fun s => s.sys.Referring) ?_ ?_
  · rintro _ ⟨sys, hinit, rfl⟩
    exact referring_init hinit
  · intro t l t' ht hok h
    cases l with
    | caller l =>
      obtain ⟨sys, hsys, rfl⟩ := map_eq_some_iff.mp h
      exact referring_next ht hsys hok
    | loop l =>
      obtain ⟨hl, h⟩ := ite_none_right_eq_some.mp h
      obtain ⟨r, hr, rfl⟩ := map_eq_some_iff.mp h
      refine ⟨ht.lock, ht.todo, fun ref hdecl => ht.referred ref ?_⟩
      obtain ⟨p', hp', hp'decl⟩ := Shared.poolDeclared_iff.mp hdecl
      exact Shared.poolDeclared_iff.mpr (declared_of_loop hr hl hp' hp'decl)

/-- **Only current Pools are tracked as declared.** In every run whose steps
meet the condition, in every state in which no Reload has a Pool left to
untrack, a Pool that is held as declared is one of a current Profile; so no
other Pool adds to the capacity. -/
theorem only_current_declared (hs : (polled d).Reach OnlyReferred s)
    (hrest : ∀ f ∈ frames s.sys.threads, f.untracks = []) :
    (∀ ref, s.sys.shared.poolDeclared ref = true →
      ∃ q ∈ s.sys.shared.profiles, q.poolRef = ref) ∧
    ∀ ref healthy, (∀ q ∈ s.sys.shared.profiles, q.poolRef ≠ ref) →
      s.sys.shared.tracker.available ref healthy = 0 := by
  have hcurrent : ∀ ref, s.sys.shared.poolDeclared ref = true →
      ∃ q ∈ s.sys.shared.profiles, q.poolRef = ref := by
    intro ref hdecl
    rcases Sys.referred_iff.mp ((polled_referring hs).referred ref hdecl) with h | ⟨f, hf, href⟩
    · exact h
    · rw [hrest f hf] at href
      cases href
  refine ⟨hcurrent, fun ref healthy hnone => ?_⟩
  unfold PoolTracker.available
  cases hp : s.sys.shared.tracker.pools.lookup ref with
  | none => exact ite_self _
  | some p =>
    have hundeclared : p.declared = false := by
      refine Bool.eq_false_of_not_eq_true fun hdecl => ?_
      obtain ⟨q, hq, href⟩ := hcurrent ref (Shared.poolDeclared_iff.mpr ⟨p, hp, hdecl⟩)
      exact hnone q hq href
    have hzero : p.availableCount = 0 := by
      unfold Poolmgr.TrackedPool.availableCount
      rw [hundeclared]
      rfl
    rw [map_some, getD_some, hzero]
    exact ite_self _

end Polls

/-! ## A removed Pool that comes back -/

/-- The callers' labels. -/
def callers (ls : List Label) : List PolledLabel := ls.map .caller

/-- A Reload that puts another Profile in the place of the one there was, in
thread `i`. -/
def replaceRun (i : Nat) : List Label :=
  .call (.reload [{ sized 1 with name := "b" }] []) ::
    steps i (([.go, .go, .go, .go, .apply true] : List Answer) ++ declareOne .accepted ++
      ([.go] : List Answer))

/-- A Pool is polled and has a MicroVM. -/
def pollOne : List PolledLabel := [.loop .ask, .loop (.answer 1 ⟨1, 0, 0, 0⟩)]

/-- A round of `declareLoop` is declaring the Pool while a Reload removes it. -/
def removedRoundRun : List PolledLabel :=
  callers (startRun (.failed false) ++ steps 1 [.timer, .go, .go, .go, .go] ++ replaceRun 2 ++
    steps 1 [.admin .accepted, .go, .go]) ++ .loop .pollAll :: (pollOne ++ pollOne)

/-- An Allocate waits in `ClaimVM` while a Reload removes its Pool. -/
def removedClaimRun : List PolledLabel :=
  callers (startRun .accepted ++ [.call (.allocate (resolved 1)), .step 2 .go] ++ replaceRun 3 ++
    steps 2 [.claimVM (some .notFound), .go, .go, .go, .admin .accepted, .go, .retry false]) ++
    .loop .pollAll :: (pollOne ++ pollOne)

/-- The Scheduler before its first call, with an idle poll loop. -/
def polledStart : Polled := ⟨freshStart, [], none⟩

theorem polledStart_init : (polled someDeps).init polledStart := ⟨_, freshStart_init, rfl⟩

/-- Nothing is under way, no Profile has the Pool, and the Tracker counts a
MicroVM of it. -/
def Polled.haunted (s : Polled) : Prop :=
  (∀ t ∈ s.sys.threads, t = [] ∨ t = [.declareLoop .waiting]) ∧
  s.todo = [] ∧ s.question = none ∧
  (∀ q ∈ s.sys.shared.profiles, q.poolRef ≠ (resolved 1).poolRef) ∧
  s.sys.shared.poolDeclared (resolved 1).poolRef = true ∧
  s.sys.shared.tracker.available (resolved 1).poolRef true = 1

/-- **A removed Pool is held as declared**, by a round of `declareLoop` and by
an Allocate that were under way when the Reload came. -/
theorem removed_pool_declared :
    (∃ s, (polled someDeps).exec polledStart removedRoundRun = some s ∧ s.haunted) ∧
    ∃ s, (polled someDeps).exec polledStart removedClaimRun = some s ∧ s.haunted := by
  refine ⟨⟨_, rfl, ?_⟩, ⟨_, rfl, ?_⟩⟩
  · exact ⟨by decide, rfl, rfl, by decide, by decide, by decide⟩
  · exact ⟨by decide, rfl, rfl, by decide, by decide, by decide⟩

/-- A Reload of an idle Scheduler keeps the Pool, and a round polls it. -/
theorem only_current_declared_polled : ∃ s, (polled someDeps).Reach OnlyReferred s ∧
    s.sys.shared.poolDeclared (resolved 2).poolRef = true ∧
    ∃ q ∈ s.sys.shared.profiles, q.poolRef = (resolved 2).poolRef := by
  have hs := Machine.reach_run
    OnlyReferred (callers (startRun .accepted ++ resizeRun 2) ++ .loop .pollAll :: pollOne) polledStart_init (by decide)
  refine ⟨_, hs, by decide, (only_current_declared hs ?_).1 _ (by decide)⟩
  intro f hf
  have hf : f ∈ [Frame.declareLoop .waiting] := hf
  rw [mem_singleton.mp hf]
  rfl

end FlintlockRunner.Scheduler.Declare

import FlintlockRunner.Scheduler.Current

/-!
# A Reload whose Host Registry fails

`Reload` returns the Host Registry's error before it has declared anything,
while startup logs it and goes on. What a Reload leaves undone is left to
`declareLoop`, and that looks only at the Tracker's flag: a Pool whose spec the
Reload changed keeps its old flag, so no round declares it (`pool_stranded`).

Calls and rounds run one at a time here, so every state in between is idle.
-/

namespace FlintlockRunner.Scheduler.Declare

open List Threads

/-! ## One at a time -/

/-- `declareLoop` between two rounds. -/
def Frame.idle : Frame → Bool
  | .declareLoop .waiting => true
  | _ => false

/-- No call and no round is under way. -/
def Sys.idle (s : Sys) : Prop := ∀ t ∈ s.threads, ∀ f ∈ t, f.idle = true

/-- An Allocate. -/
def Frame.claims : Frame → Bool
  | .claim _ _ => true
  | _ => false

/-- Startup, Reloads and rounds, one at a time: whatever moves, everything else
is idle, and no Allocate moves. -/
def OneAtATime (s : Sys) (l : Label) : Prop :=
  (∀ t ∈ s.threads, ∀ f ∈ t, f.idle = true ∨ s.moving l = some f) ∧
  ∀ f ∈ s.moving l, f.claims = false

section Sequence

variable {d : Deps} {s t : Sys}

theorem Frame.unchangedBy_of_idle {f : Frame} (h : f.idle = true) (s : Shared)
    (next : List Profile) (inventory : List Config.HostEntry) :
    f.UnchangedBy d s next inventory := by
  cases f with
  | declareLoop pc =>
    cases pc with
    | waiting => exact ⟨forall_mem_nil _, forall_mem_nil _⟩
    | _ => cases h
  | _ => cases h

theorem OneAtATime.orderly {l : Label} (h : OneAtATime s l) : Orderly d s l := by
  constructor
  · rintro ⟨next, inventory⟩ hc t ht f hf
    obtain ⟨g, hg, hswap⟩ := Option.bind_eq_some_iff.mp hc
    rcases h.1 t ht f hf with hidle | hmoving
    · exact Frame.unchangedBy_of_idle hidle ..
    · -- the Reload that swaps is itself in the middle of nothing
      cases hg.symm.trans hmoving
      cases f with
      | reload next' inventory' pc =>
        exact ⟨forall_mem_nil _, forall_mem_nil _⟩
      | _ => cases hswap
  · intro p hp
    obtain ⟨g, hg, hclaim⟩ := Option.bind_eq_some_iff.mp hp
    have hno := h.2 g hg
    cases g with
    | claim p' pc => cases hno
    | _ => cases hclaim

/-- The invariant of `Current.lean`, for runs that are one at a time. -/
theorem current_of_oneAtATime
    (hs : (machine d).Reach (fun s l => OneAtATime s l ∧ Repaid d s l) s) : s.Current d :=
  hs.inv (fun _ => current_init) fun _ _ _ hs hok h => current_next hs hok.1.orderly hok.2 h

end Sequence

/-! ## A round in which every declaration succeeds -/

/-- The answers by which a `CreatePool` or `UpdatePool` makes the declaration
fail. -/
def AdminAnswer.fails : DeclarePc → AdminAnswer → Bool
  | .creating _, .accepted | .creating _, .alreadyExists => false
  | .updating _, .accepted | .updating _, .notFound => false
  | .recreating _, .accepted => false
  | _, _ => true

/-- The point a round has reached in a `declare`. -/
def Frame.declarePc? : Frame → Option DeclarePc
  | .declareLoop (.declaring _ _ _ pc) => some pc
  | _ => none

/-- The Pool Manager's answer in a label. -/
def Label.admin? : Label → Option AdminAnswer
  | .step _ (.admin a) => some a
  | _ => none

/-- A step of a round in which every declaration succeeds. -/
def Succeeding (s : Sys) (l : Label) : Prop :=
  (s.moving l).isSome = true ∧
  ∀ f ∈ s.moving l, ∀ pc ∈ f.declarePc?, ∀ a ∈ l.admin?, a.fails pc = false

/-- The Pools a round has still to bring up to date. -/
def Frame.ahead (q : Profile) : Frame → Prop
  | .declareLoop .inventory | .declareLoop (.profiles _) => True
  | .declareLoop (.checking _ ps) => ∃ p ∈ ps, p.poolRef = q.poolRef
  | .declareLoop (.declaring _ ps p pc) =>
    (∃ p' ∈ ps, p'.poolRef = q.poolRef) ∨ (p.poolRef = q.poolRef ∧ ∀ b, pc ≠ .tracking b)
  | _ => False

/-- A Pool that is up to date, or whose spec cannot be built. -/
def Shared.Served (d : Deps) (s : Shared) (q : Profile) : Prop :=
  d.specOf q s.inventory = none ∨ s.Holds d q

variable {q : Profile} {pc : LoopPc}

section Round

variable {d : Deps} {s t : Shared} {p : Profile} {inventory : List Config.HostEntry}

theorem Shared.Kept.served (h : s.Kept d t) (hq : q ∈ s.profiles) (hs : s.Served d q) :
    t.Served d q := by
  rcases hs with hnone | hholds
  · exact .inl (h.inventory ▸ hnone)
  · exact .inr (h.holds q hq hholds)

variable {a : Answer}

/-- A declaration that succeeds leaves its Pool served once it comes to its last
point. -/
theorem stepDeclare_served {pc : DeclarePc} {r : Shared × Option DeclarePc}
    (hstep : s.InStep d p inventory) (hpc : pc.Sound d s p inventory)
    (hok : ∀ b, a = .admin b → b.fails pc = false) (h : stepDeclare d s p inventory pc a = some r)
    (hq : q ∈ s.profiles) (href : p.poolRef = q.poolRef) :
    (∃ declared, pc = .tracking declared) ∨ r.1.Served d q ∨
    ∃ pc', r.2 = some pc' ∧ ∀ b, pc' ≠ .tracking b := by
  unfold stepDeclare at h
  split at h
  · split at h
    · rename_i hnone
      cases h
      exact .inr (.inl (.inl ((hstep q hq href.symm).symm.trans hnone)))
    · cases h
      exact .inr (.inr ⟨_, rfl, nofun⟩)
  · cases h
    exact .inr (.inl (.inr (Shared.holds_accept hstep hpc hq href.symm)))
  · cases h
    exact .inr (.inr ⟨_, rfl, nofun⟩)
  · rename_i spec b haccepted hexists
    have hb := hok b rfl
    cases b with
    | accepted => exact absurd rfl haccepted
    | alreadyExists => exact absurd rfl hexists
    | _ => cases hb
  · cases h
    exact .inr (.inl (.inr (Shared.holds_accept hstep hpc hq href.symm)))
  · cases h
    exact .inr (.inr ⟨_, rfl, nofun⟩)
  · rename_i spec b haccepted hnotFound
    have hb := hok b rfl
    cases b with
    | accepted => exact absurd rfl haccepted
    | notFound => exact absurd rfl hnotFound
    | _ => cases hb
  · cases h
    exact .inr (.inl (.inr (Shared.holds_accept hstep hpc hq href.symm)))
  · rename_i spec b haccepted
    have hb := hok b rfl
    cases b with
    | accepted => exact absurd rfl haccepted
    | _ => cases hb
  · exact .inl ⟨_, rfl⟩
  · cases h

/-- A step of such a round leaves a Pool that was ahead served, or still ahead. -/
theorem stepLoop_ahead {n : Next} (hsound : (Frame.declareLoop pc).Sound d s)
    (hfresh : ∀ q ∈ s.profiles, s.Fresh d q)
    (hok : ∀ pc' ∈ (Frame.declareLoop pc).declarePc?, ∀ b, a = .admin b → b.fails pc' = false)
    (h : stepLoop d s pc a = some n) (hq : q ∈ s.profiles) (hahead : (Frame.declareLoop pc).ahead q)
    :
    n.shared.Served d q ∨ ∃ g ∈ n.frames, g.ahead q := by
  unfold stepLoop at h
  split at h
  · cases hahead
  · cases hahead
  · cases h
    exact .inr ⟨_, mem_singleton_self _, trivial⟩
  · cases h
    exact .inr ⟨_, mem_singleton_self _, q, hq, rfl⟩
  · obtain ⟨p, hp, -⟩ := hahead
    cases hp
  · rename_i inventory p ps
    obtain ⟨p', hp', href⟩ := hahead
    split at h
    · rename_i hdecl
      cases h
      rcases mem_cons.mp hp' with rfl | hp'
      · -- the round skips a Pool that is flagged, which is up to date
        exact .inl (.inr (hfresh q hq (href ▸ hdecl)))
      · exact .inr ⟨_, mem_singleton_self _, p', hp', href⟩
    · cases h
      refine .inr ⟨_, mem_singleton_self _, ?_⟩
      rcases mem_cons.mp hp' with rfl | hp'
      · exact .inr ⟨href, nofun⟩
      · exact .inl ⟨p', hp', href⟩
  · rename_i inventory ps p pc
    obtain ⟨⟨t, next⟩, hr, rfl⟩ := Option.map_eq_some_iff.mp h
    rcases hahead with ⟨p', hp', href⟩ | ⟨href, hpc⟩
    · cases next with
      | none => exact .inr ⟨_, mem_singleton_self _, p', hp', href⟩
      | some pc' => exact .inr ⟨_, mem_singleton_self _, .inl ⟨p', hp', href⟩⟩
    · rcases stepDeclare_served (hsound.1 p mem_cons_self) hsound.2 (hok pc rfl) hr hq href
        with ⟨b, hb⟩ | hserved | ⟨pc', hpc', hnot⟩
      · exact absurd hb (hpc b)
      · exact .inl hserved
      · cases hpc'
        exact .inr ⟨_, mem_singleton_self _, .inr ⟨href, hnot⟩⟩
  · cases h

theorem stepLoop_frames {n : Next} (h : stepLoop d s pc a = some n) :
    n.spawned = [] ∧ ∀ g ∈ n.frames, ∃ pc', g = .declareLoop pc' := by
  unfold stepLoop at h
  split at h
  case h_6 =>
    split at h <;> cases h <;> exact ⟨rfl, fun g hg => ⟨_, mem_singleton.mp hg⟩⟩
  case h_7 =>
    obtain ⟨r, -, rfl⟩ := Option.map_eq_some_iff.mp h
    exact ⟨rfl, fun g hg => ⟨_, mem_singleton.mp hg⟩⟩
  case h_1 =>
    cases h
    exact ⟨rfl, forall_mem_nil _⟩
  all_goals
    cases h
    try exact ⟨rfl, fun g hg => ⟨_, mem_singleton.mp hg⟩⟩

end Round

/-- The invariant of such a round: only `declareLoop` is at work, and every
current Profile's Pool is served or still ahead. -/
structure Sys.Round (d : Deps) (s : Sys) : Prop where
  current : s.Current d
  loops : ∀ f ∈ frames s.threads, ∃ pc, f = .declareLoop pc
  served : ∀ q ∈ s.shared.profiles, s.shared.Served d q ∨ ∃ f ∈ frames s.threads, f.ahead q

section Run

variable {d : Deps} {s s₁ t : Sys}

theorem Sys.Round.fresh (hs : s.Round d) (hq : q ∈ s.shared.profiles) : s.shared.Fresh d q := by
  refine hs.current.rest (fun f hf => ?_) hq
  obtain ⟨pc, rfl⟩ := hs.loops f hf
  rfl

/-- A label that moves `declareLoop` is orderly, and no Host Registry fails. -/
theorem steady_of_loop {l : Label} (h : s.moving l = some (.declareLoop pc)) :
    Orderly d s l ∧ Repaid d s l := by
  refine ⟨⟨?_, ?_⟩, .inr ?_⟩
  · rw [h]
    rintro c ⟨⟩
  · rw [h]
    rintro p ⟨⟩
  · rw [h]
    rintro f ⟨⟩ ⟨⟩

theorem round_next {l : Label} (hs : s.Round d) (hok : Succeeding s l)
    (h : (machine d).next s l = some t) : t.Round d := by
  cases l with
  | call c => cases hok.1
  | step i a =>
    have hcurrent := h
    change s.next d (.step i a) = some t at h
    unfold Sys.next at h
    dsimp only at h
    split at h
    · rename_i f rest hi
      obtain ⟨n, hn, rfl⟩ := Option.map_eq_some_iff.mp h
      have hf := top_mem hi
      obtain ⟨pc, rfl⟩ := hs.loops f hf
      have hmoving : s.moving (.step i a) = some (.declareLoop pc) :=
        congrArg (·.bind head?) hi
      obtain ⟨hspawned, hloops⟩ := stepLoop_frames hn
      have hsound := hs.current.sound _ hf
      have hkept := (stepLoop_outcome hs.current.distinct hsound hn).kept
      obtain ⟨horderly, hrepaid⟩ := steady_of_loop (d := d) hmoving
      refine ⟨current_next hs.current horderly hrepaid hcurrent, ?_, ?_⟩
      · intro g hg
        rcases mem_of_frames_advance hi hg with hg | hg
        · rw [hspawned, flatten_nil, append_nil] at hg
          exact hloops g hg
        · exact hs.loops g hg
      · intro q hq
        have hq : q ∈ s.shared.profiles := hkept.profiles ▸ hq
        rcases hs.served q hq with hserved | ⟨g, hg, hahead⟩
        · exact .inl (hkept.served hq hserved)
        · rcases frames_advance_old hi n.frames n.spawned hg with rfl | hg
          · have hstep := stepLoop_ahead hsound (fun _ => hs.fresh)
              (fun pc' hpc' b hb => hok.2 _ hmoving pc' hpc' b
                (congrArg (fun a => (Label.step i a).admin?) hb)) hn hq hahead
            refine hstep.imp_right ?_
            rintro ⟨g', hg', hahead'⟩
            exact ⟨g', frames_advance_new hi (mem_append_left _ hg'), hahead'⟩
          · exact .inr ⟨g, hg, hahead⟩
    · cases h

theorem Sys.idle_frames (h : s.idle) {f : Frame} (hf : f ∈ frames s.threads) :
    f = .declareLoop .waiting := by
  obtain ⟨t, ht, hf⟩ := mem_frames.mp hf
  have hidle := h t ht f hf
  cases f with
  | declareLoop pc =>
    cases pc with
    | waiting => rfl
    | _ => cases hidle
  | _ => cases hidle

/-- A round begins where everything is idle, with every Pool ahead of it. -/
theorem round_start {i : Nat} (hs : s.Current d) (hidle : s.idle)
    (h : s.next d (.step i .timer) = some s₁) : s₁.Round d := by
  have hnext := h
  unfold Sys.next at h
  dsimp only at h
  split at h
  · rename_i f rest hi
    obtain ⟨n, hn, rfl⟩ := Option.map_eq_some_iff.mp h
    obtain rfl : f = .declareLoop .waiting := Sys.idle_frames hidle (top_mem hi)
    obtain ⟨horderly, hrepaid⟩ :=
      steady_of_loop (d := d) (congrArg (·.bind head?) hi : s.moving (.step i .timer) = _)
    cases hn
    refine ⟨current_next hs horderly hrepaid hnext, ?_, fun q _ => .inr ?_⟩
    · intro g hg
      rcases mem_of_frames_advance hi hg with hg | hg
      · exact ⟨_, mem_singleton.mp hg⟩
      · exact ⟨_, Sys.idle_frames hidle hg⟩
    · exact ⟨.declareLoop .inventory, frames_advance_new hi (mem_singleton_self _), trivial⟩
  · cases h

/-- **No Pool is stranded.** After startup, Reloads and rounds, one at a time, in
which a Reload's Host Registry fails only where there is nothing to declare, and
after one more round in which every declaration succeeds, the Pool Manager has
for every current Profile the spec the current configuration builds. -/
theorem no_pool_stranded {i : Nat}
    (hs : (machine d).Reach (fun s l => OneAtATime s l ∧ Repaid d s l) s) (hidle : s.idle)
    (hround : s.next d (.step i .timer) = some s₁) (hpath : (machine d).Path Succeeding s₁ t)
    (hend : t.idle) (q : Profile) (hq : q ∈ t.shared.profiles) (spec : Poolmgr.PoolSpec)
    (hspec : d.specOf q t.shared.inventory = some spec) :
    t.shared.accepted q.poolRef = some spec := by
  have hstart := round_start (current_of_oneAtATime hs) hidle hround
  have hdone : t.Round d := hpath.inv (fun _ _ _ hs hok h => round_next hs hok h) hstart
  rcases hdone.served q hq with (hnone | ⟨spec', hspec', hacc⟩) | ⟨f, hf, hahead⟩
  · cases hspec.symm.trans hnone
  · cases hspec.symm.trans hspec'
    exact hacc
  · rw [Sys.idle_frames hend hf] at hahead
    cases hahead

end Run

/-! ## A stranded Pool -/

section Runs

instance (s : Sys) : Decidable s.idle :=
  inferInstanceAs (Decidable (∀ t ∈ s.threads, ∀ f ∈ t, f.idle = true))

instance (s : Sys) : DecidablePred (OneAtATime s) := fun _ =>
  inferInstanceAs (Decidable (_ ∧ _))

instance (s : Sys) : DecidablePred (Succeeding s) := fun _ =>
  inferInstanceAs (Decidable (_ ∧ _))

instance (d : Deps) (s : Shared) (q : Profile) : Decidable (s.Holds d q) :=
  decidable_of_iff ((d.specOf q s.inventory).isSome = true ∧
    s.accepted q.poolRef = d.specOf q s.inventory)
    ⟨fun ⟨hsome, hacc⟩ => ⟨_, (Option.some_get hsome).symm, hacc.trans (Option.some_get hsome).symm⟩,
      fun ⟨_, hspec, hacc⟩ => ⟨hspec ▸ rfl, hacc.trans hspec.symm⟩⟩

instance (d : Deps) (s : Sys) : DecidablePred (Repaid d s) := fun l =>
  inferInstanceAs (Decidable (l.applied = true ∨ ∀ f ∈ s.moving l, f.reloading = true →
    ∀ q ∈ s.shared.profiles, s.shared.poolDeclared q.poolRef = true → s.shared.Holds d q))

/-- A Reload to a Pool of `n` MicroVMs whose Host Registry fails, in thread
`i`. -/
def failedRun (i : Nat) (n : Int) : List Label :=
  .call (.reload [sized n] []) :: steps i [.go, .go, .go, .apply false, .go]

/-- The state a run ends in. -/
def endOf (ls : List Label) : Sys := ((machine someDeps).exec freshStart ls).getD freshStart

/-- Startup declares a Pool of one MicroVM; a Reload to two fails at the Host
Registry. -/
def strandRun : List Label := startRun .accepted ++ failedRun 2 2

/-- **A stranded Pool.** The round after such a Reload finds the Pool flagged and
leaves it alone. -/
theorem pool_stranded : ∃ s s₁ t, (machine someDeps).Reach OneAtATime s ∧ s.idle ∧
    s.next someDeps (.step 1 .timer) = some s₁ ∧ (machine someDeps).Path Succeeding s₁ t ∧
    t.idle ∧ t.shared.Stale someDeps (resolved 2) := by
  have hs : (machine someDeps).Reach OneAtATime (endOf strandRun) :=
    ⟨freshStart, freshStart_init, Machine.path_execWhile strandRun rfl⟩
  have hround : (endOf strandRun).next someDeps (.step 1 .timer)
      = some (endOf (strandRun ++ [.step 1 .timer])) := rfl
  have hpath : (machine someDeps).Path Succeeding (endOf (strandRun ++ [.step 1 .timer]))
      (endOf (strandRun ++ .step 1 .timer :: steps 1 [.go, .go, .go, .go])) :=
    Machine.path_execWhile (steps 1 [.go, .go, .go, .go]) rfl
  exact ⟨_, _, _, hs, by decide, hround, hpath, by decide, by decide, by decide, by decide⟩

/-- Startup could not declare the Pool, and the Reload fails at the Host
Registry. -/
def retriedRun : List Label := startRun (.failed false) ++ failedRun 2 2

/-- The round that declares the Pool after it. -/
def retryRound : List Label := steps 1 [.go, .go, .go, .go, .admin .accepted, .go, .go]

theorem no_pool_stranded_retried : ∃ s s₁ t spec,
    (machine someDeps).Reach (fun s l => OneAtATime s l ∧ Repaid someDeps s l) s ∧ s.idle ∧
    s.next someDeps (.step 1 .timer) = some s₁ ∧ (machine someDeps).Path Succeeding s₁ t ∧
    t.idle ∧ resolved 2 ∈ t.shared.profiles ∧
    someDeps.specOf (resolved 2) t.shared.inventory = some spec ∧
    t.shared.accepted (resolved 2).poolRef = some spec := by
  have hs : (machine someDeps).Reach (fun s l => OneAtATime s l ∧ Repaid someDeps s l)
      (endOf retriedRun) := ⟨freshStart, freshStart_init, Machine.path_execWhile retriedRun rfl⟩
  have hround : (endOf retriedRun).next someDeps (.step 1 .timer)
      = some (endOf (retriedRun ++ [.step 1 .timer])) := rfl
  have hpath : (machine someDeps).Path Succeeding (endOf (retriedRun ++ [.step 1 .timer]))
      (endOf (retriedRun ++ .step 1 .timer :: retryRound)) :=
    Machine.path_execWhile retryRound rfl
  exact ⟨_, _, _, _, hs, by decide, hround, hpath, by decide, by decide, rfl,
    no_pool_stranded hs (by decide) hround hpath (by decide) (resolved 2) (by decide) _ rfl⟩

end Runs

end FlintlockRunner.Scheduler.Declare

import FlintlockRunner.Scheduler.Accounting

/-!
# What `Run` and the Host probes alone change

The lifecycle state, the background context and the Host table are written by
one function each. `Steady` says what every other step does to them, which is
nothing; the drain channel is the one thing of the lifecycle that the ends of
Allocations touch as well.

`Run` starts at most once, and `Sys.InPhase` ties the state to the one `Run`
that is past its start. From that, whether shutdown has cleared the
Reservations is a fact about the stacks, `Sys.cleared`, that never goes away.
-/

namespace FlintlockRunner.Scheduler

open Multiset Next Threads

variable {c : Settings} {s s' : Impl} {n : Next} {a : Answer} {f : Frame}

/-! ## Steady sections -/

/-- The sections of everything but `Run` and `recordProbe`. The drain channel
is closed only once no Allocation is left. -/
structure Impl.Steady (s s' : Impl) : Prop where
  state : s'.state = s.state
  bgCancelled : s'.bgCancelled = s.bgCancelled
  hosts : s'.hosts = s.hosts
  drain : s'.drain = s.drain ∨ s'.allocations.keys = []

namespace Impl.Steady

variable (s : Impl)

theorem refl : s.Steady s := ⟨rfl, rfl, rfl, .inl rfl⟩

theorem stopHeartbeat (h : Handle) : s.Steady (s.stopHeartbeat h) := by
  unfold Impl.stopHeartbeat
  split
  · exact ⟨rfl, rfl, rfl, .inl rfl⟩
  · exact refl s

theorem grant (c : Settings) (warm : Int) : s.Steady (s.grant c warm).1 := by
  rcases s.grant_spec c warm with ⟨reason, h⟩ | ⟨-, h⟩
  · rw [h]
    exact refl s
  · rw [h]
    exact ⟨rfl, rfl, rfl, .inl rfl⟩

theorem convert (r : Nat) (h : Handle) : s.Steady (s.convert r h).1 := by
  unfold Impl.convert
  split <;> exact ⟨rfl, rfl, rfl, .inl rfl⟩

theorem enterProfile (p : Profile) : s.Steady (s.enterProfile p).1 := by
  unfold Impl.enterProfile
  split <;> exact ⟨rfl, rfl, rfl, .inl rfl⟩

theorem finish (h : Handle) : s.Steady (s.finish h).1 := by
  unfold Impl.finish
  split
  · dsimp only
    split
    · exact ⟨rfl, rfl, rfl, .inr ‹_›⟩
    · exact ⟨rfl, rfl, rfl, .inl rfl⟩
  · exact refl s

end Impl.Steady

/-- `Run`. -/
def Frame.isRun : Frame → Bool
  | .run _ => true
  | _ => false

/-- `recordProbe`. -/
def Frame.isProbe : Frame → Bool
  | .recordProbe _ _ => true
  | _ => false

theorem Runs.steady (h : Runs c s f s') (hrun : f.isRun = false) (hprobe : f.isProbe = false) :
    s.Steady s' := by
  cases h with
  | reads => exact .refl s
  | grant warm => exact .grant s c warm
  | enterProfile q => exact .enterProfile s q.p
  | convert q h => exact .convert s q.r h
  | finish hf => exact .finish s _
  | stopHeartbeat hf => exact .stopHeartbeat s _
  | recordProbe => cases hprobe
  | setState | clearReservations | drained | closeBackground | cancelBackground => cases hrun
  | _ => exact ⟨rfl, rfl, rfl, .inl rfl⟩

/-- **What only `Run` and `recordProbe` change.** -/
theorem step_steady (h : step c s f a = some n) (hrun : f.isRun = false)
    (hprobe : f.isProbe = false) : s.Steady n.impl :=
  (step_spec h).runs.steady hrun hprobe

theorem recordProbe_state (threshold : Int) (name : String) (ok : Bool) :
    (s.recordProbe threshold name ok).1.state = s.state ∧
      (s.recordProbe threshold name ok).1.bgCancelled = s.bgCancelled ∧
      (s.recordProbe threshold name ok).1.drain = s.drain := by
  unfold Impl.recordProbe
  split
  · exact ⟨rfl, rfl, rfl⟩
  · split <;> exact ⟨rfl, rfl, rfl⟩

theorem step_state (h : step c s f a = some n) (hrun : f.isRun = false) :
    n.impl.state = s.state ∧ n.impl.bgCancelled = s.bgCancelled ∧
      (n.impl.drain = s.drain ∨ n.impl.allocations.keys = []) := by
  have hruns := (step_spec h).runs
  cases hprobe : f.isProbe with
  | false =>
    have hs := hruns.steady hrun hprobe
    exact ⟨hs.state, hs.bgCancelled, hs.drain⟩
  | true =>
    obtain ⟨name, ok, rfl⟩ : ∃ name ok, f = .recordProbe name ok := by
      cases f with
      | recordProbe name ok => exact ⟨name, ok, rfl⟩
      | _ => cases hprobe
    generalize n.impl = s' at hruns ⊢
    cases hruns with
    | recordProbe =>
      obtain ⟨hstate, hbg, hdrain⟩ := recordProbe_state (s := s) c.hostUnhealthyThreshold name ok
      exact ⟨hstate, hbg, .inl hdrain⟩
    | reads | spawn => exact ⟨rfl, rfl, .inl rfl⟩
    | finish hf | stopHeartbeat hf => cases hf

/-! ## Who works on a Reservation -/

/-- The functions that ask for Slots, convert them, or run the lifecycle. -/
def Frame.inside : Frame → Bool
  | .reserve _ | .allocateCalled _ _ _ | .allocate _ _ | .run _ => true
  | _ => false

/-- A Reserve that the lifecycle state has let in. -/
def ReservePc.admitted : ReservePc → Bool
  | .called | .checkingState => false
  | .checkingContact | .counting | .granting _ => true

/-- A Reserve past its check of the lifecycle state. -/
def Frame.admitted : Frame → Bool
  | .reserve pc => pc.admitted
  | _ => false

theorem ReservePc.Leads.admitted {pc pc' : ReservePc} (h : pc.Leads s pc')
    (hadm : pc'.admitted = true) : pc.admitted = true ∨ s.state = .running := by
  cases h with
  | called => cases hadm
  | running hrun => exact .inr hrun
  | contacted | warm => exact .inl rfl

/-- The Reservation an Allocate was given. -/
def Frame.request? : Frame → Option Nat
  | .allocateCalled r _ _ => r
  | .allocate q _ => some q.r
  | _ => none

/-! ## `Run` -/

/-- Everything one step of `Run` can be. -/
inductive RunStep (s : Impl) : RunPc → Impl → List Frame → Prop
  | start (hnew : s.state = .new) : RunStep s .starting (s.setState .running) [.run .running]
  | refused (hnew : s.state ≠ .new) : RunStep s .starting s []
  | stop : RunStep s .running s [.run .stopping]
  | stopping : RunStep s .stopping (s.setState .stopping) [.run .clearing]
  | clear : RunStep s .clearing s.clearReservations [.run .draining]
  | drain (timer : Time) : RunStep s .draining s.drained.1 [.run (.awaiting s.drained.2 timer)]
  | drained {ch : Nat} {timer : Time} (hch : s.drainClosed ch) :
      RunStep s (.awaiting ch timer) s [.run .closing]
  | abort (ch : Nat) (timer : Time) :
      RunStep s (.awaiting ch timer) s [.abortRunning .snapshot, .run .closing]
  | close : RunStep s .closing s.closeBackground [.run .cancelling]
  | cancel : RunStep s .cancelling { s with bgCancelled := true } [.run .waiting]
  | stopped : RunStep s .waiting (s.setState .stopped) []

/-- `RunStep` has every step of `Run`. -/
theorem run_step {pc : RunPc} (h : stepRun c s pc a = some n) :
    RunStep s pc n.impl n.frames ∧ n.spawned = [] ∧ n.obs = [] := by
  unfold stepRun at h
  split at h
  · split at h
    · cases h
      exact ⟨.start ‹_›, rfl, rfl⟩
    · cases h
      exact ⟨.refused ‹_›, rfl, rfl⟩
  · cases h
    exact ⟨.stop, rfl, rfl⟩
  · cases h
    exact ⟨.stopping, rfl, rfl⟩
  · cases h
    exact ⟨.clear, rfl, rfl⟩
  · cases h
    exact ⟨.drain _, rfl, rfl⟩
  · split at h
    · cases h
      exact ⟨.drained ‹_›, rfl, rfl⟩
    · cases h
  · split at h
    · cases h
      exact ⟨.abort _ _, rfl, rfl⟩
    · cases h
  · cases h
    exact ⟨.close, rfl, rfl⟩
  · cases h
    exact ⟨.cancel, rfl, rfl⟩
  · split at h
    · cases h
      exact ⟨.stopped, rfl, rfl⟩
    · cases h
  · cases h

/-- How one of the functions inside comes from the frame that ran: it goes on,
or `Allocate` has passed its checks. -/
inductive Passes (s : Impl) : Frame → Frame → Prop
  | reserve {pc pc' : ReservePc}
      (hadm : pc'.admitted = true → pc.admitted = true ∨ s.state = .running) :
      Passes s (.reserve pc) (.reserve pc')
  | entered {job : JobInfo} {p : Option Profile} {q : Request} (hrun : s.state = .running) :
      Passes s (.allocateCalled (some q.r) job p) (.allocate q .entering)
  | allocate (q : Request) (pc pc' : AllocatePc) : Passes s (.allocate q pc) (.allocate q pc')
  | run (pc pc' : RunPc) : Passes s (.run pc) (.run pc')

theorem Leads.passes {g : Frame} (h : Leads c s a f g) (hin : g.inside = true) : Passes s f g := by
  cases h with
  | reserve hpc => exact .reserve hpc.admitted
  | allocateCalled r job p hrun => exact .entered (q := ⟨r, job, p, _⟩) hrun
  | allocate q hpc => exact .allocate q _ _
  | run pc pc' => exact .run pc pc'
  | _ => cases hin

/-- **Every step passes the functions inside on.** -/
theorem step_inside (h : step c s f a = some n) {g : Frame}
    (hg : g ∈ n.frames ++ n.spawned.flatten) (hin : g.inside = true) : Passes s f g :=
  ((step_spec h).leads g hg).passes hin

/-- The state a `Run` past its start has put the Scheduler in. -/
def RunPc.phase : RunPc → Option RunState
  | .starting => none
  | .running | .stopping => some .running
  | .clearing | .draining | .awaiting _ _ | .closing | .cancelling | .waiting => some .stopping

/-- The state an activation has put the Scheduler in. -/
def Frame.phase : Frame → Option RunState
  | .run pc => pc.phase
  | _ => none

/-- The `Run`s past their start that a state goes with: one while the Scheduler
runs or stops. -/
def RunState.phases : RunState → Multiset RunState
  | .new | .stopped => 0
  | .running => {.running}
  | .stopping => {.stopping}

theorem RunState.eq_of_mem_phases {st p : RunState} (h : p ∈ st.phases) : st = p := by
  cases st with
  | new | stopped => cases h
  | running | stopping => exact (mem_singleton.mp h).symm

theorem step_phase_none (h : step c s f a = some n) (hrun : f.isRun = false) :
    ∀ g ∈ n.frames ++ n.spawned.flatten, g.phase = none := by
  intro g hg
  cases g with
  | run pc =>
    cases step_inside h hg rfl
    cases hrun
  | _ => rfl

/-- One step moves the phases along with the state. -/
theorem step_phases (h : step c s f a = some n) (hf : ∀ p, f.phase = some p → s.state = p) :
    (((n.frames ++ n.spawned.flatten).filterMap Frame.phase : List RunState) : Multiset RunState)
      + s.state.phases = (f.phase.toList : Multiset RunState) + n.impl.state.phases := by
  cases hrun : f.isRun with
  | false =>
    have hnone : (n.frames ++ n.spawned.flatten).filterMap Frame.phase = [] :=
      List.filterMap_eq_nil_iff.mpr (step_phase_none h hrun)
    have hphase : f.phase = none := by
      cases f with
      | run => cases hrun
      | _ => rfl
    rw [hnone, hphase, (step_state h hrun).1]
    rfl
  | true =>
    cases f with
    | run pc =>
      obtain ⟨hstep, hspawned, -⟩ := run_step h
      rw [hspawned, List.flatten_nil, List.append_nil]
      generalize n.impl = s', n.frames = fs at hstep ⊢
      cases hstep with
      | start hnew =>
        rw [hnew]
        rfl
      | refused => rfl
      | stopping =>
        rw [hf _ rfl]
        exact add_comm _ _
      | stopped =>
        rw [hf _ rfl]
        rfl
      | drain timer =>
        have hstate : s.drained.1.state = s.state := by
          unfold Impl.drained
          split
          · rfl
          · split <;> rfl
        rw [hstate]
        rfl
      | _ => rfl
    | _ => cases hrun

/-- The state is the one the `Run` under way has set. -/
def Sys.InPhase (s : Sys) : Prop :=
  (frames s.threads).filterMap Frame.phase = s.impl.state.phases

section Runs

variable {s t : Sys}

theorem Sys.InPhase.state (hs : s.InPhase) (hf : f ∈ frames s.threads) {p : RunState}
    (hp : f.phase = some p) : s.impl.state = p :=
  RunState.eq_of_mem_phases (hs ▸ (mem_filterMap _ _).mpr ⟨f, hf, hp⟩)

theorem Sys.InPhase.alone (hs : s.InPhase) {others : Multiset Frame}
    (hframes : frames s.threads = f ::ₘ others) {p : RunState} (hp : f.phase = some p) :
    ∀ g ∈ others, g.phase = none := by
  have hcard : s.impl.state.phases.card ≤ 1 := by
    cases s.impl.state <;> decide
  rw [← hs, hframes, filterMap_cons_some _ _ _ hp, card_cons] at hcard
  have hzero : others.filterMap Frame.phase = 0 := card_eq_zero.mp (by omega)
  intro g hg
  by_contra hsome
  obtain ⟨p', hp'⟩ := Option.ne_none_iff_exists'.mp hsome
  exact notMem_zero p' (hzero ▸ (mem_filterMap _ _).mpr ⟨g, hg, hp'⟩)

theorem inPhase_init (hs : (machine c).init s) : s.InPhase := by
  obtain ⟨-, now, profiles, hosts, rfl⟩ := hs
  rfl

theorem inPhase_next {l : Label} (hs : s.InPhase) (hnext : s.next c l = some t) : t.InPhase := by
  cases moved hnext with
  | call call _ =>
    have hnone : call.frame.phase = none := by cases call <;> rfl
    rw [Sys.InPhase, frames_start, filterMap_cons_none _ _ hnone]
    exact hs
  | step i a f rest n hi hstep =>
    have hmove := step_phases hstep fun p hp => hs.state (top_mem hi) hp
    obtain ⟨T, hold, hnew⟩ := filterMap_split Frame.phase hi
    have hcount : s.impl.state.phases = (f.phase.toList : Multiset RunState) + T :=
      hs.symm.trans hold
    rw [hcount, add_comm _ T, ← add_assoc, add_comm (f.phase.toList : Multiset RunState)] at hmove
    show (frames (advance s.threads i rest n.frames n.spawned)).filterMap Frame.phase = _
    rw [hnew]
    exact add_right_cancel hmove
  | tick d =>
    exact hs

/-! ### Cleared -/

/-- Past the clearing of the Reservations. -/
def RunPc.cleared : RunPc → Bool
  | .draining | .awaiting _ _ | .closing | .cancelling | .waiting => true
  | .starting | .running | .stopping | .clearing => false

/-- Shutdown has cleared the Reservations: a `Run` is past that point, or has
returned from it. -/
def Sys.cleared (s : Sys) : Prop :=
  s.impl.state = .stopped ∨ ∃ pc, .run pc ∈ frames s.threads ∧ pc.cleared = true

theorem RunPc.phase_of_cleared {pc : RunPc} (h : pc.cleared = true) :
    pc.phase = some .stopping := by
  cases pc with
  | starting | running | stopping | clearing => cases h
  | _ => rfl

theorem Sys.InPhase.not_running (hs : s.InPhase) (hc : s.cleared) : s.impl.state ≠ .running := by
  rcases hc with hstate | ⟨pc, hpc, hcleared⟩
  · rw [hstate]
    exact RunState.noConfusion
  · rw [hs.state hpc (RunPc.phase_of_cleared hcleared)]
    exact RunState.noConfusion

theorem RunStep.cleared {impl impl' : Impl} {pc : RunPc} {fs : List Frame}
    (h : RunStep impl pc impl' fs) :
    (pc.cleared = true → impl'.state = .stopped ∨ ∃ pc', .run pc' ∈ fs ∧ pc'.cleared = true) ∧
    ∀ pc', .run pc' ∈ fs → pc'.cleared = true → pc.cleared = true ∨ pc = .clearing := by
  have hone : ∀ {p p' : RunPc}, Frame.run p' ∈ [Frame.run p] → p' = p := fun hmem =>
    Frame.run.inj (List.mem_singleton.mp hmem)
  cases h with
  | refused => exact ⟨fun h => (by cases h), nofun⟩
  | stopped => exact ⟨fun _ => .inl rfl, nofun⟩
  | start | stop | stopping =>
    refine ⟨fun h => (by cases h), fun pc' hmem h => ?_⟩
    rw [hone hmem] at h
    cases h
  | clear => exact ⟨fun h => (by cases h), fun _ _ _ => .inr rfl⟩
  | drain | drained | close | cancel =>
    exact ⟨fun _ => .inr ⟨_, List.mem_singleton_self _, rfl⟩, fun _ _ _ => .inl rfl⟩
  | abort =>
    exact ⟨fun _ => .inr ⟨.closing, List.mem_cons_of_mem _ (List.mem_singleton_self _), rfl⟩,
      fun _ _ _ => .inl rfl⟩

theorem cleared_next {l : Label} (hs : s.InPhase) (hc : s.cleared)
    (hnext : s.next c l = some t) : t.cleared := by
  cases moved hnext with
  | call call _ =>
    refine hc.imp id fun ⟨pc, hpc, hcleared⟩ => ⟨pc, ?_, hcleared⟩
    exact mem_start.mpr (.inr hpc)
  | step i a f rest n hi hstep =>
    rcases hc with hstate | ⟨pc, hpc, hcleared⟩
    · -- a Run that starts now finds the Scheduler stopped
      left
      cases hrun : f.isRun with
      | false => exact (step_state hstep hrun).1.trans hstate
      | true =>
        cases f with
        | run pc =>
          have hpc : pc.phase = none := by
            by_contra hsome
            obtain ⟨p, hp⟩ := Option.ne_none_iff_exists'.mp hsome
            have hmem : p ∈ s.impl.state.phases :=
              hs ▸ (mem_filterMap _ _).mpr ⟨_, top_mem hi, hp⟩
            rw [hstate] at hmem
            cases hmem
          obtain ⟨hrunStep, -, -⟩ := run_step hstep
          show n.impl.state = .stopped
          generalize n.impl = impl', n.frames = fs at hrunStep
          cases hrunStep with
          | start hnew => exact absurd (hnew.symm.trans hstate) RunState.noConfusion
          | refused => exact hstate
          | _ => cases hpc
        | _ => cases hrun
    · rcases frames_advance_old hi n.frames n.spawned hpc with rfl | hother
      · rcases (run_step hstep).1.cleared.1 hcleared with hstopped | ⟨pc', hmem, hc'⟩
        · exact .inl hstopped
        · exact .inr ⟨pc', frames_advance_new hi (List.mem_append_left _ hmem), hc'⟩
      · exact .inr ⟨pc, hother, hcleared⟩
  | tick d =>
    exact hc

theorem cleared_of_next {l : Label} (hc : t.cleared) (hnext : s.next c l = some t) :
    s.cleared ∨ ∃ i a rest, l = .step i a ∧ s.threads[i]? = some (.run .clearing :: rest) := by
  cases moved hnext with
  | call call _ =>
    refine .inl (hc.imp id fun ⟨pc, hpc, hcleared⟩ => ⟨pc, ?_, hcleared⟩)
    rcases mem_start.mp hpc with heq | hpc
    · cases call <;> cases heq
      cases hcleared
    · exact hpc
  | step i a f rest n hi hstep =>
    cases hrun : f.isRun with
    | false =>
      left
      refine hc.imp (fun h => (step_state hstep hrun).1.symm.trans h)
        fun ⟨pc, hpc, hcleared⟩ => ⟨pc, ?_, hcleared⟩
      refine (mem_of_frames_advance hi hpc).resolve_left fun hmem => ?_
      have hnone := step_phase_none hstep hrun _ hmem
      rw [Frame.phase, RunPc.phase_of_cleared hcleared] at hnone
      cases hnone
    | true =>
      cases f with
      | run pc =>
        obtain ⟨hrunStep, hspawned, -⟩ := run_step hstep
        have hback : pc.cleared = true ∨ pc = .clearing → s.cleared ∨ ∃ i' a' rest',
            Label.step i a = .step i' a' ∧
              s.threads[i']? = some (.run .clearing :: rest') := by
          rintro (h | rfl)
          · exact .inl (.inr ⟨pc, top_mem hi, h⟩)
          · exact .inr ⟨i, a, rest, rfl, hi⟩
        rcases hc with hstopped | ⟨pc', hpc', hcleared⟩
        · -- only the last point of Run sets the stopped state
          change n.impl.state = .stopped at hstopped
          generalize n.impl = impl', n.frames = fs at hrunStep hstopped
          cases hrunStep with
          | start | stopping => cases hstopped
          | drain timer =>
            exact hback (.inl rfl)
          | stopped => exact hback (.inl rfl)
          | _ => exact .inl (.inl hstopped)
        · rcases mem_of_frames_advance hi hpc' with hmem | hother
          · rw [hspawned, List.flatten_nil, List.append_nil] at hmem
            exact hback (hrunStep.cleared.2 pc' hmem hcleared)
          · exact .inl (.inr ⟨pc', hother, hcleared⟩)
      | _ => cases hrun
  | tick d =>
    exact .inl hc

end Runs

end FlintlockRunner.Scheduler

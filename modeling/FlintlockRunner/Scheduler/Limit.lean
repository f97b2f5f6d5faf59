import FlintlockRunner.Scheduler.Refine

/-!
# Waiting for a Profile's limit

An `Allocate` that finds its Profile at its maximum blocks on the channel that
the next returned unit closes. The channel is one for all Profiles and a new
one after every return, so what makes the wait safe is what the channel's
number says: while it is still open no unit of any Profile has been returned
since the `Allocate` was refused (`Impl.Kept`), and the Profile that was full
then is full now.
-/

namespace FlintlockRunner.Scheduler

open Threads

variable {c : Settings}

/-- Between two states no unit was returned, or the channel that was current in
the first is closed in the second. -/
structure Impl.Kept (s s' : Impl) : Prop where
  free : s.profileFree ≤ s'.profileFree
  use : ¬ s'.freeClosed s.profileFree → ∀ name, s.profileUse name ≤ s'.profileUse name

namespace Impl.Kept

variable {s s' : Impl}

theorem of_eq (hfree : s'.profileFree = s.profileFree) (huse : s'.profileUse = s.profileUse) :
    s.Kept s' :=
  ⟨ge_of_eq hfree, fun _ name => ge_of_eq (congrFun huse name)⟩

theorem of_lt (h : s.profileFree < s'.profileFree) : s.Kept s' := ⟨h.le, fun hopen => absurd h hopen⟩

theorem enterProfile (s : Impl) (p : Profile) : s.Kept (s.enterProfile p).1 := by
  unfold Impl.enterProfile
  split
  · exact of_eq rfl rfl
  · refine ⟨le_rfl, fun _ name => ?_⟩
    dsimp only
    by_cases hname : name = p.name
    · rw [hname, Function.update_self]
      exact Nat.le_succ _
    · rw [Function.update_of_ne hname]

theorem finish (s : Impl) (h : Handle) : s.Kept (s.finish h).1 := by
  unfold Impl.finish
  split
  · refine of_lt ?_
    dsimp only
    split <;> exact Nat.lt_succ_self _
  · exact of_eq rfl rfl

end Impl.Kept

/-- **Every section** that returns a unit closes the channel. -/
theorem Runs.kept {s s' : Impl} {f : Frame} (h : Runs c s f s') : s.Kept s' := by
  cases h with
  | enterProfile q => exact .enterProfile s q.p
  | leaveProfile q e => exact .of_lt (Nat.lt_succ_self _)
  | finish hf => exact .finish s _
  | grant warm =>
    unfold Impl.grant
    dsimp only
    split <;> exact .of_eq rfl rfl
  | convert q h =>
    unfold Impl.convert
    split <;> exact .of_eq rfl rfl
  | stopHeartbeat hf =>
    unfold Impl.stopHeartbeat
    split <;> exact .of_eq rfl rfl
  | recordProbe name ok =>
    unfold Impl.recordProbe
    dsimp only
    split
    · exact .of_eq rfl rfl
    · split <;> exact .of_eq rfl rfl
  | drained =>
    unfold Impl.drained
    split
    · exact .of_eq rfl rfl
    · split <;> exact .of_eq rfl rfl
  | reads | releaseReservation | newHandle | installHeartbeat | spawn | unspawned | loopRenews
  | checkRenews | cancelHeartbeat | markLeaseGone | lostFails | agentFails | hostFails
  | abortFails | setState | clearReservations | closeBackground | cancelBackground | wgDone =>
    exact .of_eq rfl rfl

/-- An `Allocate` blocked on an open channel faces a Profile at its maximum. -/
def Frame.Waits (s : Impl) : Frame → Prop
  | .allocate q (.limited free) => free ≤ s.profileFree ∧
    (¬ s.freeClosed free →
      0 < q.p.maxConcurrency ∧ q.p.maxConcurrency ≤ (s.profileUse q.p.name : Int))
  | _ => True

theorem Frame.Waits.kept {s s' : Impl} {f : Frame} (hf : f.Waits s) (h : s.Kept s') :
    f.Waits s' := by
  cases f with
  | allocate q pc =>
    cases pc with
    | limited free =>
      obtain ⟨hle, hfull⟩ := hf
      refine ⟨hle.trans h.free, fun hopen => ?_⟩
      -- the channel is still the current one, so it was open before, too
      have hcurrent : free = s.profileFree :=
        le_antisymm hle (h.free.trans (not_lt.mp hopen))
      obtain ⟨hmax, huse⟩ := hfull fun hlt => absurd hcurrent (ne_of_lt hlt)
      have hkept := h.use (hcurrent ▸ hopen) q.p.name
      exact ⟨hmax, huse.trans (Int.ofNat_le.mpr hkept)⟩
    | _ => trivial
  | _ => trivial

theorem Leads.waits {s : Impl} {a : Answer} {f g : Frame} (h : Leads c s a f g) : g.Waits s := by
  cases h with
  | allocate q hpc =>
    cases hpc with
    | full hmax hfull => exact ⟨le_rfl, fun _ => ⟨hmax, hfull⟩⟩
    | _ => trivial
  | _ => trivial

theorem Call.waits (call : Call) (s : Impl) : call.frame.Waits s := by
  cases call <;> trivial

theorem waits_next {s t : Sys} {l : Label} (hs : ∀ f ∈ frames s.threads, f.Waits s.impl)
    (hnext : s.next c l = some t) : ∀ f ∈ frames t.threads, f.Waits t.impl := by
  cases moved hnext with
  | call call _ =>
    intro f hf
    rcases mem_start.mp hf with rfl | hf
    · exact call.waits _
    · exact hs f hf
  | step i a f rest n hi hstep =>
    have hspec := step_spec hstep
    intro g hg
    rcases mem_of_frames_advance hi hg with hin | hin
    · exact (hspec.leads g hin).waits.kept hspec.runs.kept
    · exact (hs g hin).kept hspec.runs.kept
  | tick d =>
    intro f hf
    exact (hs f hf).kept (.of_eq rfl rfl)

/-- **No lost wake-up on a Profile's limit.** In every state of every run an
`Allocate` that is blocked on a channel that is still open faces a Profile
whose use is at its maximum, or above. -/
theorem blocked_profile_full {s : Sys} (hs : (machine c).Reach Machine.any s) {q : Request}
    {free : Nat} (hf : .allocate q (.limited free) ∈ frames s.threads)
    (hopen : ¬ s.impl.freeClosed free) :
    0 < q.p.maxConcurrency ∧ q.p.maxConcurrency ≤ (s.impl.profileUse q.p.name : Int) := by
  have hwaits : ∀ f ∈ frames s.threads, f.Waits s.impl := by
    refine hs.inv (I := fun s => ∀ f ∈ frames s.threads, f.Waits s.impl) ?_
      fun s l t hI _ hnext => waits_next hI hnext
    rintro _ ⟨-, now, profiles, hosts, rfl⟩ f hf
    simp [Sys.init] at hf
  exact (hwaits _ hf).2 hopen

/-- A second Job of the Profile waits for the first one's unit. -/
def limitedRun : List Label :=
  allocateRun ++
    ([.call (.allocate (some 2) default (some small)), .step 3 .go, .step 3 .go] : List Label)

/-- The Job that waits. -/
def limitedRequest : Request := ⟨2, default, small, oneSlot.allocationTimeout⟩

theorem blocked_profile_full_second : ∃ s, (machine oneSlot).Reach Machine.any s ∧
    .allocate limitedRequest (.limited 0) ∈ frames s.threads ∧ ¬ s.impl.freeClosed 0 ∧
    0 < small.maxConcurrency ∧ small.maxConcurrency ≤ (s.impl.profileUse "small" : Int) := by
  have hs := Machine.reach_exec allocateStart_init
    (show ((machine oneSlot).exec allocateStart limitedRun).isSome from rfl)
  have hf : .allocate limitedRequest (.limited 0)
      ∈ frames (((machine oneSlot).exec allocateStart limitedRun).get rfl).threads :=
    mem_frames.mpr ⟨_, List.mem_of_getElem? (i := 3) rfl, List.mem_singleton_self _⟩
  exact ⟨_, hs, hf, by decide, blocked_profile_full hs hf (by decide)⟩

end FlintlockRunner.Scheduler

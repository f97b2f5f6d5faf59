import FlintlockRunner.Scheduler.Ending
import FlintlockRunner.Scheduler.Expiry
import FlintlockRunner.Scheduler.Lifecycle

/-!
# Shutdown

`shutdown` clears the Reservations, waits until the last Allocation has ended
or its time is up, aborts what is left and closes the background. Two things
are expected of it, whatever else is in flight:

- no Reservation is held once they are cleared. `Reserve` looks at the
  lifecycle state long before it takes the Slot, so a Reserve that was let in
  before may take one after (`reservation_after_shutdown`); it does not when
  none is under way at the clearing (`no_reservation_after_shutdown`);
- no Allocation is gained from there on, and none is left when the background
  is closed (`shutdown_drains`). The late Reservations do no harm here, since
  `Allocate` checks the state itself.
-/

namespace FlintlockRunner.Scheduler

open List Multiset Next Threads

variable {c : Settings} {s t : Sys}

/-! ## Reservations -/

/-- The frame a label runs. -/
def Sys.top (s : Sys) : Label → Option Frame
  | .step i _ => s.threads[i]?.bind List.head?
  | .call _ | .tick _ => none

variable {rest : List Frame} {l : Label} {a : Answer} {f : Frame} {i : Nat}

theorem Sys.top_step (hi : s.threads[i]? = some (f :: rest)) (a : Answer) :
    s.top (.step i a) = some f := by
  rw [Sys.top, hi]
  rfl

/-- Shutdown's clearing of the Reservations. -/
def Frame.clears : Frame → Bool
  | .run .clearing => true
  | _ => false

/-- Shutdown clears the Reservations only while no Reserve is between its check
of the lifecycle state and its grant. -/
def ClearsAlone (s : Sys) (l : Label) : Prop :=
  ∀ f ∈ s.top l, f.clears = true → ∀ g ∈ frames s.threads, g.admitted = false

instance (s : Sys) : DecidablePred (ClearsAlone s) := fun l =>
  inferInstanceAs (Decidable (∀ f ∈ s.top l, f.clears = true →
    ∀ g ∈ frames s.threads, g.admitted = false))

section Step

variable {s : Impl} {n : Next} {a : Answer} {f : Frame}

theorem Says.admitted {r : Nat} (h : Says s f a (.granted r)) : f.admitted = true := by
  cases h with
  | granted => rfl

theorem step_granted (h : step c s f a = some n) {r : Nat} (hr : .granted r ∈ n.obs) :
    f.admitted = true :=
  ((step_spec h).seen _ hr).admitted

theorem step_reservations (h : step c s f a = some n) :
    (∀ r ∈ n.impl.reservations, r ∈ s.reservations) ∨
    (f.admitted = true ∧ n.impl.reservations = s.reservations.insert (s.nextID + 1) s.now) := by
  have hsame : ∀ {R : AList fun _ : Nat => Time}, n.impl.books.reservations = R →
      R.keys ⊆ s.reservations.keys → ∀ r ∈ n.impl.reservations, r ∈ s.reservations := by
    intro R hR hsub r hr
    rw [AList.mem_keys, show n.impl.reservations = R from hR] at hr
    exact AList.mem_keys.mpr (hsub hr)
  cases step_move h with
  | granted hfree hb hf ht ho =>
    refine .inr ⟨step_granted h (r := s.nextID + 1) ?_, congrArg Books.reservations hb⟩
    exact (Obs.mem_booked rfl).mpr (by rw [ho]; exact List.mem_singleton_self _)
  | dropped R hR hb => exact .inl (hsame (congrArg Books.reservations hb) hR)
  | converted name r h' hf hr hb =>
    refine .inl (hsame (congrArg Books.reservations hb) ?_)
    show (s.reservations.erase r).keys ⊆ _
    rw [AList.keys_erase]
    exact List.erase_subset
  | quiet hb | entered _ _ _ hb | left _ _ hb | claimed _ _ _ hb | numbered _ _ _ _ _ _ hb
  | refused _ _ _ _ hb | abandoned _ _ _ hb | finished _ _ _ _ hb | marked _ _ _ hb
  | lost _ _ _ _ hb | late _ _ hb | kept _ _ hb | handedBack _ _ hb | letGo _ _ _ hb =>
    exact .inl (hsame (congrArg Books.reservations hb) (List.Subset.refl _))

end Step

theorem Impl.reservations_empty {impl : Impl} (h : ∀ r, r ∉ impl.reservations) :
    impl.reservations = ∅ := by
  apply AList.ext
  exact eq_nil_iff_forall_not_mem.mpr fun e he =>
    h e.1 (AList.mem_keys.mpr (List.mem_map_of_mem he))

/-- What the clearing leaves behind: no Reservation, and no Reserve that could
still take one. -/
def Sys.Closed (s : Sys) : Prop :=
  s.cleared → (∀ r, r ∉ s.impl.reservations) ∧ ∀ g ∈ frames s.threads, g.admitted = false

theorem step_admitted {s : Impl} {n : Next} (h : step c s f a = some n)
    (hstate : s.state ≠ .running) (hf : f.admitted = false) :
    ∀ g ∈ n.frames ++ n.spawned.flatten, g.admitted = false := by
  intro g hg
  cases g with
  | reserve pc' =>
    cases step_inside h hg rfl with
    | reserve hadm =>
      by_contra hne
      rcases hadm (Bool.not_eq_false _ ▸ hne) with hpc | hrun
      · exact Bool.noConfusion (hf.symm.trans hpc)
      · exact hstate hrun
  | _ => rfl

theorem clearing_next (hi : s.threads[i]? = some (.run .clearing :: rest))
    (hnext : s.next c (.step i a) = some t) :
    ∃ n, step c s.impl (.run .clearing) a = some n ∧ (∀ r, r ∉ n.impl.reservations) ∧
      s.apply i rest n = t := by
  obtain ⟨n, hstep, rfl⟩ : ∃ n, step c s.impl (.run .clearing) a = some n ∧
      s.apply i rest n = t := by
    rw [Sys.next, hi] at hnext
    exact Option.map_eq_some_iff.mp hnext
  refine ⟨n, hstep, ?_, rfl⟩
  obtain ⟨hrun, -, -⟩ := run_step hstep
  generalize n.impl = impl', n.frames = fs at hrun
  cases hrun
  exact fun r hr => AList.notMem_empty r hr

theorem closed_next (hP : s.InPhase) (hs : s.Closed) (hok : ClearsAlone s l)
    (hnext : s.next c l = some t) : t.Closed := by
  intro hc
  rcases cleared_of_next hc hnext with hcleared | ⟨i, a, rest, rfl, hi⟩
  · obtain ⟨hnone, hadm⟩ := hs hcleared
    cases moved hnext with
    | call call _ =>
      refine ⟨hnone, fun g hg => ?_⟩
      rcases mem_start.mp hg with rfl | hg
      · cases call <;> rfl
      · exact hadm g hg
    | step i a f rest n hi hstep =>
      have hf : f.admitted = false := hadm f (top_mem hi)
      constructor
      · intro r hr
        rcases step_reservations hstep with hsub | ⟨hin, -⟩
        · exact hnone r (hsub r hr)
        · exact Bool.noConfusion (hf.symm.trans hin)
      · intro g hg
        rcases mem_of_frames_advance hi hg with hg | hg
        · exact step_admitted hstep (hP.not_running hcleared) hf g hg
        · exact hadm g hg
    | tick d =>
      exact ⟨hnone, hadm⟩
  · -- the clearing itself: nobody was let in, by the condition on the step
    have hadm := hok _ (Sys.top_step hi a) rfl
    obtain ⟨n, hstep, hnone, rfl⟩ := clearing_next hi hnext
    refine ⟨hnone, fun g hg => ?_⟩
    rcases mem_of_frames_advance hi hg with hg | hg
    · cases g with
      | reserve => cases step_inside hstep hg rfl
      | _ => rfl
    · exact hadm g hg

/-- **No Reservation after shutdown.** When shutdown clears the Reservations
while no Reserve is between its check of the lifecycle state and its grant, the
Scheduler holds no Reservation from then on. -/
theorem no_reservation_after_shutdown (hs : (machine c).Reach ClearsAlone s) (hc : s.cleared) :
    s.impl.reservations = ∅ := by
  have hinv : s.InPhase ∧ s.Closed := by
    refine hs.inv (I := fun s => s.InPhase ∧ s.Closed) ?_ ?_
    · rintro s₀ h₀
      refine ⟨inPhase_init h₀, fun hc => ?_⟩
      obtain ⟨-, now, profiles, hosts, rfl⟩ := h₀
      rcases hc with hstate | ⟨pc, hpc, -⟩
      · cases hstate
      · cases hpc
    · rintro s l t ⟨hP, hC⟩ hok hnext
      exact ⟨inPhase_next hP hnext, closed_next hP hC hok hnext⟩
  exact Impl.reservations_empty (hinv.2 hc).1

/-- A Reserve is let in; then the Scheduler shuts down, `Run` returns, and the
Reserve goes on. -/
def lateReserveRun : List Label :=
  [.call .run, .step 0 .go, .call .reserve, .step 1 (.ctx false), .step 1 .go,
    .step 0 (.ctx true), .step 0 .go, .step 0 .go, .step 0 .go, .step 0 .channel,
    .step 0 .go, .step 0 .go, .step 0 .go,
    .step 1 (.contacted true), .step 1 (.warm 3), .step 1 .go]

/-- **A Reservation after shutdown.** `Reserve` takes a Slot after the
Reservations were cleared, even after `Run` has returned. -/
theorem reservation_after_shutdown : ∃ s, (machine oneSlot).Reach Machine.any s ∧
    s.cleared ∧ s.impl.state = .stopped ∧ s.impl.reservations.keys = [1] :=
  ⟨_, Machine.reach_exec allocateStart_init
    (show ((machine oneSlot).exec allocateStart lateReserveRun).isSome from rfl),
    .inl rfl, rfl, rfl⟩

/-- A granted Reservation is cleared, and a Reserve called after that is
refused. -/
def clearedRun : List Label :=
  [.call .run, .step 0 .go, .call .reserve, .step 1 (.ctx false), .step 1 .go,
    .step 1 (.contacted true), .step 1 (.warm 3), .step 1 .go,
    .step 0 (.ctx true), .step 0 .go, .step 0 .go,
    .call .reserve, .step 2 (.ctx false), .step 2 .go]

theorem no_reservation_after_shutdown_cleared : ∃ s, (machine oneSlot).Reach ClearsAlone s ∧
    s.cleared ∧ .granted 1 ∈ s.trace ∧ s.impl.reservations = ∅ := by
  have hs := Machine.reach_run ClearsAlone clearedRun allocateStart_init rfl
  refine ⟨_, hs, ?cleared, by decide, no_reservation_after_shutdown hs ?cleared⟩
  exact .inr ⟨.draining, mem_frames.mpr ⟨_, mem_of_getElem? (i := 0) rfl,
    List.mem_singleton_self _⟩, rfl⟩

/-! ## Allocations -/

/-- The Reservation a call passes to `Allocate`. -/
def Label.reservation? : Label → Option Nat
  | .call (.allocate r _ _) => r
  | _ => none

/-- Callers pass `Allocate` only Reservations that `Reserve` granted; nothing
else hands them out. -/
def GrantedOnly (s : Sys) (l : Label) : Prop := ∀ r ∈ l.reservation?, .granted r ∈ s.trace

instance (s : Sys) : DecidablePred (GrantedOnly s) := fun l =>
  inferInstanceAs (Decidable (∀ r ∈ l.reservation?, Obs.granted r ∈ s.trace))

section Step

variable {s : Impl} {n : Next} {a : Answer} {f : Frame}

theorem step_request (h : step c s f a = some n) {g : Frame}
    (hg : g ∈ n.frames ++ n.spawned.flatten) {r : Nat} (hr : g.request? = some r) :
    f.request? = some r := by
  cases g with
  | allocateCalled => cases step_inside h hg rfl
  | allocate q pc =>
    cases step_inside h hg rfl with
    | entered => exact hr
    | allocate => exact hr
  | _ => cases hr

theorem Move.live_cases (hm : Move c s f n) {h : Handle} (hlive : h ∈ n.impl.liveHandles) :
    h ∈ s.liveHandles ∨ ∃ q, f = .allocate q (.converting h) ∧ q.r ∈ s.reservations := by
  obtain ⟨k, hk⟩ := Impl.mem_liveHandles.mp hlive
  have hbooks : n.impl.books.allocations.lookup k = some h := hk
  have hold : s.allocations.lookup k = some h → h ∈ s.liveHandles := fun hk =>
    Impl.mem_liveHandles.mpr ⟨k, hk⟩
  cases hm with
  | converted name r h' hf' hr hb =>
    obtain ⟨q, rfl, -, rfl⟩ := hf'
    rw [hb] at hbooks
    by_cases heq : k = h'.id
    · rw [heq, AList.lookup_insert, Option.some.injEq] at hbooks
      subst hbooks
      exact .inr ⟨q, rfl, hr⟩
    · rw [AList.lookup_insert_ne heq] at hbooks
      exact .inl (hold hbooks)
  | finished h' _ _ _ hb | lost h' _ _ _ hb =>
    rw [hb] at hbooks
    by_cases heq : k = h'.id
    · rw [heq, AList.lookup_erase] at hbooks
      cases hbooks
    · rw [AList.lookup_erase_ne heq] at hbooks
      exact .inl (hold hbooks)
  | quiet hb | granted _ hb | dropped _ _ hb | entered _ _ _ hb | left _ _ hb
  | claimed _ _ _ hb | numbered _ _ _ _ _ _ hb | refused _ _ _ _ hb | abandoned _ _ _ hb
  | marked _ _ _ hb | late _ _ hb | kept _ _ hb | handedBack _ _ hb | letGo _ _ _ hb =>
    rw [hb] at hbooks
    exact .inl (hold hbooks)

end Step

/-- Every Allocate works with a granted Reservation, and after the clearing
with one that is no longer held. -/
structure Sys.CutOff (s : Sys) : Prop where
  granted : ∀ f ∈ frames s.threads, ∀ r, f.request? = some r → .granted r ∈ s.trace
  unheld : s.cleared → ∀ q pc, .allocate q pc ∈ frames s.threads → q.r ∉ s.impl.reservations

/-- `Allocate` is entered with granted Reservations, and after the clearing none is
held. -/
theorem cutOff_next (hA : Accounts c s) (hP : s.InPhase) (hs : s.CutOff) (hok : GrantedOnly s l)
    (hnext : s.next c l = some t) : t.CutOff := by
  constructor
  · cases moved hnext with
    | call call _ =>
      intro f hf r hr
      rcases mem_start.mp hf with rfl | hf
      · cases call with
        | allocate r' job p =>
          obtain rfl : r' = some r := hr
          exact hok r rfl
        | _ => cases hr
      · exact hs.granted f hf r hr
    | step i a f rest n hi hstep =>
      intro g hg r hr
      refine mem_append_left _ ?_
      rcases mem_of_frames_advance hi hg with hg | hg
      · exact hs.granted f (top_mem hi) r (step_request hstep hg hr)
      · exact hs.granted g hg r hr
    | tick d =>
      exact hs.granted
  · intro hc
    rcases cleared_of_next hc hnext with hcleared | ⟨i, a, rest, rfl, hi⟩
    · have hold := hs.unheld hcleared
      cases moved hnext with
      | call call _ =>
        intro q pc hq
        rcases mem_start.mp hq with heq | hq
        · cases call <;> cases heq
        · exact hold q pc hq
      | step i a f rest n hi hstep =>
        intro q pc hq hmem
        have hbefore : ∃ pc, .allocate q pc ∈ frames s.threads := by
          rcases mem_of_frames_advance hi hq with hq | hq
          · cases step_inside hstep hq rfl with
            | entered hrun => exact absurd hrun (hP.not_running hcleared)
            | allocate q pc' => exact ⟨pc', top_mem hi⟩
          · exact ⟨pc, hq⟩
        obtain ⟨pc', hq'⟩ := hbefore
        rcases step_reservations hstep with hsub | ⟨-, hgrant⟩
        · exact hold q pc' hq' (hsub _ hmem)
        · -- a late grant is of a number that nobody was given before
          have hle : q.r ≤ s.impl.nextID :=
            hA.numbered.granted_le _ (mem_granted.mpr (hs.granted _ hq' q.r rfl))
          change q.r ∈ n.impl.reservations at hmem
          rw [hgrant, AList.mem_insert] at hmem
          rcases hmem with heq | hmem
          · omega
          · exact hold q pc' hq' hmem
      | tick d =>
        exact hold
    · obtain ⟨n, hstep, hnone, rfl⟩ := clearing_next hi hnext
      exact fun q _ _ => hnone q.r

theorem live_next (hs : s.CutOff) (hc : s.cleared) (hnext : s.next c l = some t) :
    t.impl.liveHandles ⊆ s.impl.liveHandles := by
  cases moved hnext with
  | call call _ =>
    exact List.Subset.refl _
  | step i a f rest n hi hstep =>
    intro h hlive
    rcases (step_move hstep).live_cases hlive with hold | ⟨q, rfl, hr⟩
    · exact hold
    · exact absurd hr (hs.unheld hc q (.converting h) (top_mem hi))
  | tick d =>
    exact List.Subset.refl _

/-! ### Draining -/

theorem Impl.live_nil_iff {impl : Impl} : impl.allocations.keys = [] ↔ impl.liveHandles = [] := by
  rw [AList.keys, List.keys, Impl.liveHandles, map_eq_nil_iff, map_eq_nil_iff]

/-- The channel `drained` returns is the stored one while an Allocation is
live. -/
theorem Impl.drained_spec (impl : Impl) :
    impl.drained.1.liveHandles = impl.liveHandles ∧
      (impl.liveHandles = [] ∨ impl.drained.1.drain = some impl.drained.2) := by
  unfold Impl.drained
  split
  · exact ⟨rfl, .inl (Impl.live_nil_iff.mp ‹_›)⟩
  · split
    · exact ⟨rfl, .inr ‹_›⟩
    · exact ⟨rfl, .inr rfl⟩

/-- What the last part of shutdown relies on: the channel it waits on is open
while an Allocation is live, and once it goes on to close the background, the
frames above that point will still end every live one. -/
structure Sys.Draining (s : Sys) : Prop where
  awaiting : ∀ ch timer, .run (.awaiting ch timer) ∈ frames s.threads →
    s.impl.liveHandles = [] ∨ s.impl.drain = some ch
  closing : ∀ stack ∈ s.threads, ∀ above below, stack = above ++ .run .closing :: below →
    above = [.abortRunning .snapshot] ∨ ∀ h ∈ s.impl.liveHandles, h ∈ endsOf above

theorem cleared_of_mem {pc : RunPc} (hpc : pc.cleared = true)
    (hmem : .run pc ∈ frames s.threads) : s.cleared :=
  .inr ⟨pc, hmem, hpc⟩

theorem awaiting_apply (hP : s.InPhase) (hC : s.CutOff) (hs : s.Draining) {n : Next}
    (hi : s.threads[i]? = some (f :: rest)) (hstep : step c s.impl f a = some n) {ch : Nat}
    {timer : Time} (hch : .run (.awaiting ch timer) ∈ frames (s.apply i rest n).threads) :
    n.impl.liveHandles = [] ∨ n.impl.drain = some ch := by
  obtain ⟨others, hframes, hnew⟩ := frames_apply hi
  have hf : f ∈ frames s.threads := hframes ▸ Multiset.mem_cons_self _ _
  rw [hnew n] at hch
  cases hrun : f.isRun with
  | false =>
    -- the one thing other steps do to the channel is close it at the end
    have hother : .run (.awaiting ch timer) ∈ frames s.threads := by
      rcases mem_add.mp hch with hmem | hmem
      · cases step_phase_none hstep hrun _ (mem_coe.mp hmem)
      · exact hframes ▸ Multiset.mem_cons_of_mem hmem
    have hsub : n.impl.liveHandles ⊆ s.impl.liveHandles :=
      live_next (l := .step i a) hC (cleared_of_mem rfl hother)
        (by rw [Sys.next, hi]; exact Option.map_eq_some_iff.mpr ⟨n, hstep, rfl⟩)
    rcases (step_state hstep hrun).2.2 with hdrain | hempty
    · rcases hs.awaiting ch timer hother with hnil | hopen
      · exact .inl (subset_nil.mp (hnil ▸ hsub))
      · exact .inr (hdrain.trans hopen)
    · exact .inl (Impl.live_nil_iff.mp hempty)
  | true =>
    cases f with
    | run pc =>
      obtain ⟨hrunStep, hspawned, -⟩ := run_step hstep
      rw [hspawned, flatten_nil, append_nil] at hch
      rcases mem_add.mp hch with hmem | hmem
      · have hmem := mem_coe.mp hmem
        generalize n.impl = impl', n.frames = fs at hrunStep hmem
        cases hrunStep with
        | drain timer =>
          obtain ⟨hlive, hopen⟩ := s.impl.drained_spec
          cases List.mem_singleton.mp hmem
          exact hopen.imp (hlive.trans ·) id
        | _ => simp at hmem
      · -- another Run waits on its channel: this one has not started anything
        have hnone : pc.phase = none := by
          by_contra hsome
          obtain ⟨p, hp⟩ := Option.ne_none_iff_exists'.mp hsome
          cases hP.alone hframes hp _ hmem
        have hold := hs.awaiting ch timer (hframes ▸ Multiset.mem_cons_of_mem hmem)
        generalize n.impl = impl', n.frames = fs at hrunStep
        cases hrunStep with
        | start | refused => exact hold
        | _ => cases hnone
    | _ => cases hrun

theorem closing_apply (hN : Named s) (hC : s.CutOff) (hs : s.Draining) {n : Next}
    (hi : s.threads[i]? = some (f :: rest)) (hstep : step c s.impl f a = some n)
    {stack : List Frame} (hstack : stack ∈ (s.apply i rest n).threads) {above below : List Frame}
    (hsplit : stack = above ++ .run .closing :: below) :
    above = [.abortRunning .snapshot] ∨ ∀ h ∈ n.impl.liveHandles, h ∈ endsOf above := by
  have hnext : s.next c (.step i a) = some (s.apply i rest n) := by
    rw [Sys.next, hi]
    exact Option.map_eq_some_iff.mpr ⟨n, hstep, rfl⟩
  have hold : ∀ stack above below, stack ∈ s.threads →
      stack = above ++ .run .closing :: below →
      n.impl.liveHandles ⊆ s.impl.liveHandles ∧
        (above = [.abortRunning .snapshot] ∨ ∀ h ∈ s.impl.liveHandles, h ∈ endsOf above) := by
    intro stack above below hmem heq
    refine ⟨live_next hC (cleared_of_mem (show RunPc.closing.cleared = true from rfl) ?_) hnext,
      hs.closing stack hmem above below heq⟩
    exact mem_frames.mpr ⟨stack, hmem, heq ▸ mem_append_right _ List.mem_cons_self⟩
  rcases mem_advance hstack with rfl | hmem | hmem
  · rcases split_frame hsplit with ⟨q, hq⟩ | ⟨p, rfl, hrest⟩
    · -- the step puts the point in place: the channel closed, or the time is up
      have hmem : .run .closing ∈ n.frames := hq ▸ mem_append_right _ List.mem_cons_self
      cases f with
      | run pc =>
        have hrun : RunStep s.impl pc n.impl n.frames := (run_step hstep).1
        have hf := top_mem hi
        generalize n.impl = impl', n.frames = fs at hrun hmem hq
        cases hrun with
        | drained hch =>
          right
          intro h hh
          rcases hs.awaiting _ _ hf with hnil | hopen
          · rw [hnil] at hh
            cases hh
          · exact absurd hopen hch
        | abort =>
          left
          cases above with
          | nil => cases hq
          | cons x xs =>
            obtain ⟨rfl, htail⟩ := List.cons.inj hq
            cases xs with
            | nil => rfl
            | cons y ys => simp at htail
        | _ => simp at hmem
      | _ => cases step_inside hstep (mem_append_left _ hmem) rfl
    · -- the point stays under what the step leaves
      obtain ⟨hsub, hcases⟩ := hold _ (f :: p) below (mem_of_getElem? hi)
        (by rw [hrest]; rfl)
      right
      intro h hh
      have hlive := hsub hh
      rcases hcases with heq | hall
      · obtain ⟨rfl, rfl⟩ := List.cons.inj heq
        rw [append_nil]
        exact abort_ends (fun _ => rfl) hstep (.inr ⟨rfl, hlive, rfl⟩)
      · rw [endsOf_append]
        rcases mem_append.mp (hall h hlive) with hends | hends
        · rcases step_ends hstep hends with hends | hgone
          · exact mem_append_left _ hends
          · exact absurd ((named_next hN hnext).live_mem hh) hgone
        · exact mem_append_right _ hends
  · obtain ⟨hsub, hcases⟩ := hold _ _ _ hmem hsplit
    exact hcases.imp id fun hall h hh => hall h (hsub hh)
  · -- nobody starts a goroutine of Run
    have hmem' : .run .closing ∈ n.frames ++ n.spawned.flatten :=
      mem_append_right _ (mem_flatten.mpr
        ⟨stack, hmem, hsplit ▸ mem_append_right _ List.mem_cons_self⟩)
    cases f with
    | run pc =>
      rw [(run_step hstep).2.1] at hmem
      cases hmem
    | _ => cases step_inside hstep hmem' rfl

/-- Shutdown goes on only when every live Allocation has ended or will. -/
theorem draining_next (hN : Named s) (hP : s.InPhase) (hC : s.CutOff) (hs : s.Draining)
    (hnext : s.next c l = some t) : t.Draining := by
  cases moved hnext with
  | call call _ =>
    constructor
    · intro ch timer hch
      rcases mem_start.mp hch with heq | hch
      · cases call <;> cases heq
      · exact hs.awaiting ch timer hch
    · intro stack hstack above below hsplit
      rcases mem_append.mp hstack with hstack | hstack
      · exact hs.closing stack hstack above below hsplit
      · have hmem : Frame.run .closing ∈ [call.frame] := by
          rw [← List.mem_singleton.mp hstack, hsplit]
          exact mem_append_right _ List.mem_cons_self
        cases call <;> cases List.mem_singleton.mp hmem
  | step i a f rest n hi hstep =>
    exact ⟨fun ch timer hch => awaiting_apply hP hC hs hi hstep hch,
      fun stack hstack above below hsplit => closing_apply hN hC hs hi hstep hstack hsplit⟩
  | tick d =>
    exact ⟨hs.awaiting, hs.closing⟩

/-- Everything shutdown relies on, in one run. -/
structure Sys.Stopping (c : Settings) (s : Sys) : Prop where
  accounts : Accounts c s
  inPhase : s.InPhase
  cutOff : s.CutOff
  draining : s.Draining

theorem stopping_init (hs : (machine c).init s) : s.Stopping c := by
  refine ⟨accounts_init hs, inPhase_init hs, ?_, ?_⟩
  all_goals
    obtain ⟨-, now, profiles, hosts, rfl⟩ := hs
  · exact ⟨fun f hf => absurd hf (notMem_zero f),
      fun _ q pc hq => absurd hq (notMem_zero _)⟩
  · exact ⟨fun ch timer hch => absurd hch (notMem_zero _),
      forall_mem_nil _⟩

theorem stopping_next (hs : s.Stopping c) (hok : GrantedOnly s l) (hnext : s.next c l = some t) :
    t.Stopping c where
  accounts := accounts_next hs.accounts hnext
  inPhase := inPhase_next hs.inPhase hnext
  cutOff := cutOff_next hs.accounts hs.inPhase hs.cutOff hok hnext
  draining := draining_next hs.accounts.named hs.inPhase hs.cutOff hs.draining hnext

/-- **Shutdown drains.** Once shutdown has cleared the Reservations, no run
gains a live Allocation, and where it closes the background none is left. -/
theorem shutdown_drains (hs : (machine c).Reach GrantedOnly s) :
    (s.cleared → ∀ t, (machine c).Path GrantedOnly s t →
      t.impl.liveHandles ⊆ s.impl.liveHandles) ∧
    ∀ (i : Nat) (rest : List Frame), s.threads[i]? = some (.run .closing :: rest) →
      s.impl.liveHandles = [] := by
  have hS : s.Stopping c := hs.inv (fun _ => stopping_init) fun _ _ _ => stopping_next
  constructor
  · intro hc t hp
    have hinv : t.Stopping c ∧ t.cleared ∧ t.impl.liveHandles ⊆ s.impl.liveHandles := by
      refine hp.inv (I := fun t => t.Stopping c ∧ t.cleared ∧
        t.impl.liveHandles ⊆ s.impl.liveHandles) ?_ ⟨hS, hc, List.Subset.refl _⟩
      rintro u l v ⟨hU, hcu, hsub⟩ hok hnext
      exact ⟨stopping_next hU hok hnext, cleared_next hU.inPhase hcu hnext,
        List.Subset.trans (live_next hU.cutOff hcu hnext) hsub⟩
    exact hinv.2.2
  · intro i rest hi
    rcases hS.draining.closing _ (mem_of_getElem? hi) [] rest rfl with heq | hall
    · cases heq
    · exact eq_nil_iff_forall_not_mem.mpr fun h hh => absurd (hall h hh) not_mem_nil

/-- Where a run from a fresh Scheduler ends. -/
def reached (ls : List Label) : Sys :=
  ((machine oneSlot).exec allocateStart ls).getD allocateStart

/-- With one Job running, the Scheduler shuts down and clears the
Reservations. -/
def drainRun : List Label :=
  allocateRun ++ ([.step 0 (.ctx true), .step 0 .go, .step 0 .go, .step 0 .go] : List Label)

/-- The Job does not finish in time and is aborted. -/
def abortRun : List Label :=
  [.tick 30000000000, .step 0 .timer, .step 0 (.order [smallHandle]), .step 0 .go, .step 0 .go,
    .step 0 .go, .step 0 .go, .step 0 .go, .step 0 .go, .step 0 .go]

theorem shutdown_drains_aborted : ∃ s t, (machine oneSlot).Reach GrantedOnly s ∧ s.cleared ∧
    s.impl.liveHandles = [smallHandle] ∧ (machine oneSlot).Path GrantedOnly s t ∧
    t.impl.liveHandles ⊆ s.impl.liveHandles ∧ t.threads[0]? = some [.run .closing] ∧
    t.impl.liveHandles = [] := by
  have hs : (machine oneSlot).Reach GrantedOnly (reached drainRun) :=
    ⟨allocateStart, allocateStart_init, Machine.path_execWhile drainRun rfl⟩
  have hp : (machine oneSlot).Path GrantedOnly (reached drainRun)
      (reached (drainRun ++ abortRun)) := Machine.path_execWhile abortRun rfl
  have hc : (reached drainRun).cleared :=
    cleared_of_mem (show (RunPc.awaiting 0 (30 * second)).cleared = true from rfl)
      (mem_frames.mpr ⟨_, mem_of_getElem? (i := 0) rfl, List.mem_singleton_self _⟩)
  exact ⟨_, _, hs, hc, rfl, hp, (shutdown_drains hs).1 hc _ hp, rfl,
    (shutdown_drains (hs.path hp)).2 0 [] rfl⟩

end FlintlockRunner.Scheduler

import FlintlockRunner.Scheduler.Shutdown

/-!
# Jobs and the health of their Hosts

A Host that becomes unhealthy has its Jobs aborted once, over a snapshot of the
live Allocations taken after the edge. An Allocation that is published later on
a Host that is unhealthy already meets no edge and stays (`job_on_dead_host`).
It does not stay when it was published while the Host was not unhealthy, or
while the abort was still to take its snapshot (`no_job_on_dead_host`).

Reloads replace the Host table in the middle of this, so the machine here is
the Scheduler's with that section of `Reload` as one more move.
-/

namespace FlintlockRunner.Scheduler

open List Next Threads

variable {c : Settings}

/-! ## The machine with Reloads -/

/-- `resetHostsLocked`: one entry for each Host of the Inventory, with the
health of a Host that was there before. A new Host starts healthy. -/
def Impl.resetHostsLocked (s : Impl) (inventory : List Config.HostEntry) : Impl :=
  { s with
    hosts := inventory.foldl (fun next h =>
      next.insert h.name ((s.hosts.lookup h.name).getD ⟨true, 0, none⟩)) ∅ }

/-- Who moves: the Scheduler, or the section of a `Reload` that replaces the
resolved Profiles and the Host table. -/
inductive HostLabel
  | sched (l : Label)
  | reload (profiles : List Profile) (inventory : List Config.HostEntry)

/-- A `Reload`'s section. -/
def Sys.reload (s : Sys) (profiles : List Profile) (inventory : List Config.HostEntry) : Sys :=
  { s with impl := { s.impl.resetHostsLocked inventory with profiles := profiles } }

/-- The Scheduler with Reloads. -/
def onHosts (c : Settings) : Machine Sys HostLabel where
  init := (machine c).init
  next s
    | .sched l => s.next c l
    | .reload profiles inventory => some (s.reload profiles inventory)

/-- The Host is not in the table as unhealthy. -/
def Impl.up (s : Impl) (name : String) : Prop := ∀ st ∈ s.hosts.lookup name, st.healthy = true

instance (s : Impl) (name : String) : Decidable (s.up name) :=
  inferInstanceAs (Decidable (∀ st ∈ s.hosts.lookup name, st.healthy = true))

theorem Impl.lookup_resetHostsLocked (s : Impl) (inventory : List Config.HostEntry) {name : String}
    {st : HostState} (h : (s.resetHostsLocked inventory).hosts.lookup name = some st) :
    st.healthy = true ∨ s.hosts.lookup name = some st := by
  -- the entries so far are old ones or healthy; each Host of the Inventory adds one such
  have hfold : ∀ (hs : List Config.HostEntry) (next : AList fun _ : String => HostState),
      (∀ st, next.lookup name = some st → st.healthy = true ∨ s.hosts.lookup name = some st) →
      (hs.foldl (fun next h => next.insert h.name ((s.hosts.lookup h.name).getD ⟨true, 0, none⟩))
        next).lookup name = some st → st.healthy = true ∨ s.hosts.lookup name = some st := by
    intro hs
    induction hs with
    | nil => exact fun next hnext h => hnext st h
    | cons e hs ih =>
      intro next hnext h
      refine ih _ (fun st' hst' => ?_) h
      by_cases heq : name = e.name
      · subst heq
        rw [AList.lookup_insert, Option.some.injEq] at hst'
        cases hold : s.hosts.lookup e.name with
        | none =>
          rw [hold] at hst'
          exact .inl (hst' ▸ rfl)
        | some old =>
          rw [hold] at hst'
          exact .inr (congrArg some hst')
      · rw [AList.lookup_insert_ne heq] at hst'
        exact hnext st' hst'
  refine hfold inventory ∅ (fun st' hst' => ?_) h
  rw [AList.lookup_empty] at hst'
  cases hst'

theorem up_reload {s : Sys} {name : String} (h : s.impl.up name) (profiles : List Profile)
    (inventory : List Config.HostEntry) : (s.reload profiles inventory).impl.up name := by
  intro st hst
  rcases s.impl.lookup_resetHostsLocked inventory hst with hup | hold
  · exact hup
  · exact h st hold

/-! ## The condition and the rest -/

/-- The Handle an `Allocate` is about to publish. -/
def Frame.converting? : Frame → Option Handle
  | .allocate _ (.converting h) => some h
  | _ => none

/-- The Host whose Jobs an abort has still to take stock of. -/
def Frame.aborting? : Frame → Option String
  | .hostUnhealthy name .snapshot => some name
  | _ => none

/-- An Allocation is published only on a Host that is not unhealthy, or while
the abort for that Host has still to take its snapshot. -/
def PlacedInTime (s : Sys) : HostLabel → Prop
  | .sched l => ∀ f ∈ s.top l, ∀ h ∈ f.converting?, s.impl.up h.alloc.placement.host ∨
      h.alloc.placement.host ∈ (frames s.threads).filterMap Frame.aborting?
  | .reload _ _ => True

instance (s : Sys) : DecidablePred (PlacedInTime s) := fun l => by
  unfold PlacedInTime
  split <;> infer_instance

/-- The functions that probe Hosts, abort Jobs and allocate. -/
def Frame.placing : Frame → Bool
  | .recordProbe _ _ | .hostUnhealthy _ _ | .allocateCalled _ _ _ | .allocate _ _ => true
  | _ => false

/-- None of them is in progress. -/
def Sys.settled (s : Sys) : Prop := ∀ f ∈ frames s.threads, f.placing = false

instance (s : Sys) : Decidable s.settled :=
  inferInstanceAs (Decidable (∀ f ∈ frames s.threads, f.placing = false))

/-! ## One step -/

section Step

variable {s : Impl} {n : Next} {a : Answer} {f : Frame} {name : String}

theorem step_hosts (h : step c s f a = some n) (hprobe : f.isProbe = false) :
    n.impl.hosts = s.hosts := by
  cases hrun : f.isRun with
  | false => exact (step_steady h hrun hprobe).hosts
  | true =>
    cases f with
    | run pc =>
      obtain ⟨hstep, -, -⟩ := run_step h
      generalize n.impl = s', n.frames = fs at hstep ⊢
      cases hstep with
      | drain =>
        unfold Impl.drained
        split
        · rfl
        · split <;> rfl
      | _ => rfl
    | _ => cases hrun

/-- The Host table after a probe: an unhealthy Host was so before, or this probe
has made it so. -/
theorem Impl.up_recordProbe (s : Impl) (threshold : Int) (probed : String) (ok : Bool)
    (hdown : ¬ (s.recordProbe threshold probed ok).1.up name) :
    ¬ s.up name ∨ name = probed ∧ (s.recordProbe threshold probed ok).2 = true := by
  have hother : ∀ {st'}, name ≠ probed →
      ¬ Impl.up { s with hosts := s.hosts.insert probed st' } name → ¬ s.up name := by
    intro st' hne hdown hup
    refine hdown fun st hst => hup st ?_
    rw [AList.lookup_insert_ne hne] at hst
    exact hst
  unfold Impl.recordProbe at hdown ⊢
  split at hdown
  · exact .inl hdown
  · rename_i st hst
    split at hdown
    · by_cases heq : name = probed
      · subst heq
        refine absurd (fun st' hst' => ?_) hdown
        rw [AList.lookup_insert, Option.mem_some_iff] at hst'
        exact hst' ▸ rfl
      · exact .inl (hother heq hdown)
    · rename_i hok
      rw [if_neg hok]
      by_cases heq : name = probed
      · subst heq
        cases hedge : st.healthy && decide (st.failures + 1 ≥ threshold) with
        | true => exact .inr ⟨rfl, hedge⟩
        | false =>
          refine .inl fun hup => hdown fun st' hst' => ?_
          rw [AList.lookup_insert, Option.mem_some_iff] at hst'
          subst hst'
          show (st.healthy && !(st.healthy && decide (st.failures + 1 ≥ threshold))) = true
          rw [hedge, hup st hst]
          rfl
      · exact .inl (hother heq hdown)

/-- A probe that leaves a Host unhealthy found it so, or starts the abort. -/
theorem recordProbe_up {probed : String} {ok : Bool}
    (h : stepRecordProbe c s probed ok a = some n) (hdown : ¬ n.impl.up name) :
    ¬ s.up name ∨ name = probed ∧ n.frames = [.hostUnhealthy probed .snapshot] := by
  unfold stepRecordProbe at h
  split at h
  · split at h
    all_goals
      rename_i heq
      cases h
      have hup := s.up_recordProbe c.hostUnhealthyThreshold probed ok (by rw [heq]; exact hdown)
      rw [heq] at hup
    · exact hup.imp id fun ⟨hname, _⟩ => ⟨hname, rfl⟩
    · exact hup.imp id fun ⟨_, hfalse⟩ => Bool.noConfusion hfalse
  · cases h

/-- What ends a live Allocation of an unhealthy Host: an abort in this stack that
has still to take its snapshot, or has the Allocation before it. -/
def Doomed (h : Handle) (stack : List Frame) : Prop :=
  ∃ above pc below, stack = above ++ .hostUnhealthy h.alloc.placement.host pc :: below ∧
    (pc = .snapshot ∨ h ∈ endsOf above ++ pc.todo (Handle.on h.alloc.placement.host))

theorem abort_goes_on {frame : AbortPc → Frame} {mine : Handle → Bool} {cause : Cause}
    {pc : AbortPc} (hn : stepAbort frame mine cause s pc a = some n)
    (hpc : pc = .snapshot ∨ pc.todo mine ≠ []) : ∃ above pc', n.frames = above ++ [frame pc'] := by
  unfold stepAbort at hn
  split at hn
  · obtain ⟨-, ⟨⟩⟩ := Option.ite_none_right_eq_some.mp hn
    exact ⟨[], _, rfl⟩
  · rcases hpc with hpc | hpc
    · cases hpc
    · exact absurd rfl hpc
  · split at hn <;> cases hn <;> exact ⟨[], _, rfl⟩
  · cases hn
    exact ⟨[_], _, rfl⟩
  · cases hn

/-- The Allocation stays doomed until it has ended. -/
theorem Doomed.step {h : Handle} {rest : List Frame} (hd : Doomed h (f :: rest))
    (hn : step c s f a = some n) (hlive : h ∈ s.liveHandles)
    (hheld : h.id ∈ n.impl.allocations) : Doomed h (n.frames ++ rest) := by
  obtain ⟨above, pc, below, heq, hcase⟩ := hd
  cases above with
  | nil =>
    -- the abort itself runs
    obtain ⟨rfl, rfl⟩ := cons.inj heq
    have hends : h ∈ endsOf n.frames := by
      refine abort_ends (fun _ => rfl) hn ?_
      rcases hcase with hpc | htodo
      · exact .inr ⟨hpc, hlive, decide_eq_true rfl⟩
      · exact .inl htodo
    obtain ⟨above', pc', hframes⟩ := abort_goes_on hn
      (hcase.imp id fun htodo => ne_nil_of_mem htodo)
    refine ⟨above', pc', rest, by rw [hframes, append_assoc]; rfl, .inr ?_⟩
    rw [hframes, endsOf_append, endsOf_cons, endsOf_nil, append_nil] at hends
    exact hends
  | cons g above =>
    -- something the abort has called runs
    obtain ⟨rfl, rfl⟩ := cons.inj heq
    refine ⟨n.frames ++ above, pc, below, by rw [append_assoc]; rfl, ?_⟩
    rcases hcase with hpc | hends
    · exact .inl hpc
    · right
      rw [endsOf_cons, append_assoc] at hends
      rw [endsOf_append, append_assoc]
      rcases mem_append.mp hends with hown | hother
      · rcases step_ends hn hown with hnew | hgone
        · exact mem_append_left _ hnew
        · exact absurd hheld hgone
      · exact mem_append_right _ hother

end Step

/-! ## Every run -/

section Runs

variable {s t : Sys}

/-- Every live Allocation on an unhealthy Host will be ended by the Host's
abort. -/
def Sys.Watched (s : Sys) : Prop :=
  ∀ h ∈ s.impl.liveHandles, ¬ s.impl.up h.alloc.placement.host → ∃ stack ∈ s.threads, Doomed h stack

theorem watched_apply {i : Nat} {f : Frame} {rest : List Frame} {a : Answer} {n : Next}
    (hN : Named s) (hs : s.Watched) (hok : PlacedInTime s (.sched (.step i a)))
    (hi : s.threads[i]? = some (f :: rest)) (hstep : step c s.impl f a = some n)
    (hnext : s.next c (.step i a) = some (s.apply i rest n)) : (s.apply i rest n).Watched := by
  intro h hlive hdown
  have hheld : h.id ∈ n.impl.allocations := (named_next hN hnext).live_mem hlive
  -- an Allocation that is doomed stays so
  have hkept : ∀ stack ∈ s.threads, Doomed h stack → h ∈ s.impl.liveHandles →
      ∃ stack ∈ (s.apply i rest n).threads, Doomed h stack := by
    intro stack hstack hd hold
    rcases mem_advance_of_mem hstack hi rest n.frames n.spawned with rfl | hmem
    · exact ⟨_, mem_advance_self hi _ _ _, hd.step hstep hold hheld⟩
    · exact ⟨stack, hmem, hd⟩
  rcases (step_move hstep).live_cases hlive with hold | ⟨q, rfl, -⟩
  · have hbefore : ¬ s.impl.up h.alloc.placement.host ∨
        n.frames = [.hostUnhealthy h.alloc.placement.host .snapshot] := by
      cases f with
      | recordProbe probed ok =>
        rcases recordProbe_up hstep hdown with hdown | ⟨hname, hframes⟩
        · exact .inl hdown
        · exact .inr (hname ▸ hframes)
      | _ =>
        left
        intro hup
        refine hdown fun st hst => hup st ?_
        rw [← step_hosts hstep rfl]
        exact hst
    rcases hbefore with hdown | hframes
    · obtain ⟨stack, hstack, hd⟩ := hs h hold hdown
      exact hkept stack hstack hd hold
    · refine ⟨_, mem_advance_self hi _ _ _, [], .snapshot, rest, ?_, .inl rfl⟩
      rw [hframes]
      rfl
  · -- the Allocation is published by this step
    rcases hok _ (Sys.top_step hi a) h rfl with hup | habort
    · refine absurd (fun st hst => hup st ?_) hdown
      rw [← step_hosts hstep rfl]
      exact hst
    · obtain ⟨g, hg, hname⟩ := (Multiset.mem_filterMap _ _).mp habort
      obtain ⟨stack, hstack, hmem⟩ := mem_frames.mp hg
      have hg' : g = .hostUnhealthy h.alloc.placement.host .snapshot := by
        unfold Frame.aborting? at hname
        split at hname
        · cases hname
          rfl
        · cases hname
      obtain ⟨above, below, rfl⟩ := append_of_mem (hg' ▸ hmem)
      rcases mem_advance_of_mem hstack hi rest n.frames n.spawned with heq | hmem
      · cases above with
        | nil => cases heq
        | cons g above =>
          obtain ⟨-, rfl⟩ := cons.inj heq
          exact ⟨_, mem_advance_self hi _ _ _, n.frames ++ above, .snapshot, below,
            by rw [append_assoc]; rfl, .inl rfl⟩
      · exact ⟨_, hmem, above, .snapshot, below, rfl, .inl rfl⟩

/-- An Allocation placed on a Host in time is ended with it. -/
theorem watched_next {l : HostLabel} (hN : Named s) (hs : s.Watched) (hok : PlacedInTime s l)
    (hnext : (onHosts c).next s l = some t) : t.Watched := by
  cases l with
  | reload profiles inventory =>
    cases hnext
    exact fun h hlive hdown => hs h hlive fun hup => hdown (up_reload hup profiles inventory)
  | sched l =>
    cases moved hnext with
    | call call _ =>
      intro h hlive hdown
      obtain ⟨stack, hstack, hd⟩ := hs h hlive hdown
      exact ⟨stack, mem_append_left _ hstack, hd⟩
    | step i a f rest n hi hstep =>
      exact watched_apply hN hs hok hi hstep hnext
    | tick d =>
      exact hs

theorem named_onHosts {l : HostLabel} (hN : Named s) (hnext : (onHosts c).next s l = some t) :
    Named t := by
  cases l with
  | reload profiles inventory =>
    cases hnext
    exact ⟨hN.live, hN.frame, hN.allocated, hN.created_le, hN.created_inj⟩
  | sched l => exact named_next hN hnext

/-- **No Job is left on a dead Host.** When Allocations are published only on
Hosts that are not unhealthy, or before the abort for the Host has taken its
snapshot, every state with no probe, abort or `Allocate` in progress has every
live Allocation on a Host that is not unhealthy. -/
theorem no_job_on_dead_host (hs : (onHosts c).Reach PlacedInTime s) (hrest : s.settled)
    {h : Handle} (hlive : h ∈ s.impl.liveHandles) :
    ∀ st ∈ s.impl.hosts.lookup h.alloc.placement.host, st.healthy = true := by
  have hinv : Named s ∧ s.Watched := by
    refine hs.inv (I := fun s => Named s ∧ s.Watched) ?_ ?_
    · intro s₀ h₀
      refine ⟨(accounts_init (c := c) h₀).named, ?_⟩
      obtain ⟨-, now, profiles, hosts, rfl⟩ := h₀
      exact forall_mem_nil _
    · rintro s l t ⟨hN, hW⟩ hok hnext
      exact ⟨named_onHosts hN hnext, watched_next hN hW hok hnext⟩
  by_contra hdown
  obtain ⟨stack, hstack, above, pc, below, rfl, -⟩ := hinv.2 h hlive hdown
  have hmem : .hostUnhealthy h.alloc.placement.host pc ∈ frames s.threads :=
    mem_frames.mpr ⟨_, hstack, mem_append_right _ mem_cons_self⟩
  cases hrest _ hmem

end Runs

/-! ### Runs -/

/-- The one Host of an Inventory. -/
def oneHost : Config.HostEntry := { (default : Config.HostEntry) with name := "host" }

/-- A fresh Scheduler with that Inventory. -/
def hostStart : Sys := .init ((Impl.new 0 [small] ∅).resetHostsLocked [oneHost])

theorem hostStart_init : (onHosts oneSlot).init hostStart :=
  ⟨by decide, 0, [small], AList.insert "host" ⟨true, 0, none⟩ ∅, rfl⟩

/-- Goroutine `i` probes the Host and fails. -/
def failedProbe (i : Nat) : List Label := [.call (.recordProbe "host" false), .step i .go]

/-- The Scheduler starts, grants a Reservation and allocates with it, in three
goroutines from `i` on. -/
def placeRun (i : Nat) : List Label :=
  [.call .run, .step i .go,
    .call .reserve, .step (i + 1) (.ctx false), .step (i + 1) .go,
    .step (i + 1) (.contacted true), .step (i + 1) (.warm 3), .step (i + 1) .go,
    .call (.allocate (some 1) default (some small)), .step (i + 2) .go, .step (i + 2) .go,
    .step (i + 2) (.claimVM (.ok ⟨"l", "vm", ⟨"host", ""⟩⟩) false), .step (i + 2) (.ctx false),
    .step (i + 2) (.placement (.endpoint true)), .step (i + 2) .go, .step (i + 2) .go,
    .step (i + 2) .go, .step (i + 2) .go, .step (i + 2) .go, .step (i + 2) .go]

/-- Three failed probes make the Host unhealthy and the abort finds no Job;
then a Job is placed on it. -/
def deadHostRun : List HostLabel :=
  (failedProbe 0 ++ failedProbe 1 ++ failedProbe 2 ++
    [Label.step 2 (.order []), .step 2 .go] ++ placeRun 3).map .sched

/-- **A Job on a dead Host.** It stays live with nothing in progress. -/
theorem job_on_dead_host : ∃ s h st, (onHosts oneSlot).Reach Machine.any s ∧ s.settled ∧
    h ∈ s.impl.liveHandles ∧ s.impl.hosts.lookup h.alloc.placement.host = some st ∧
    st.healthy = false := by
  have hs := Machine.reach_exec hostStart_init
    (show ((onHosts oneSlot).exec hostStart deadHostRun).isSome from rfl)
  exact ⟨_, smallHandle, _, hs, by decide, by decide, rfl, rfl⟩

/-- A Job is placed on the healthy Host, a probe of it fails, and a Reload
leaves the Inventory as it is. -/
def liveHostRun : List HostLabel :=
  (placeRun 0 ++ failedProbe 4).map .sched ++ [.reload [small] [oneHost]]

theorem no_job_on_dead_host_live : ∃ s st, (onHosts oneSlot).Reach PlacedInTime s ∧ s.settled ∧
    smallHandle ∈ s.impl.liveHandles ∧ s.impl.hosts.lookup "host" = some st ∧
    st.failures = 1 ∧ st.healthy = true := by
  have hs := Machine.reach_run PlacedInTime liveHostRun hostStart_init rfl
  exact ⟨_, _, hs, by decide, by decide, rfl, rfl,
    no_job_on_dead_host hs (by decide) (h := smallHandle) (by decide) _ rfl⟩

end FlintlockRunner.Scheduler

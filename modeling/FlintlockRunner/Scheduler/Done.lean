import FlintlockRunner.Scheduler.Ending
import FlintlockRunner.Scheduler.Shutdown

/-!
# `Done` after a normal Release

`Handle.Done` is meant to stay open when the Job's own `Release` ended the
Allocation. Five other functions fail Handles, and each makes its last check
(of the keep-alive context, of the Allocation table, of a snapshot it took) in
an earlier step than the one that fails the Handle. `Frame.committed` is the
set of Handles an activation is past its last check for; a `Release` that
overtakes such an activation leaves a Handle that is failed afterwards
(`done_closed_after_release`), and a `Release` that overtakes none does not
(`done_stays_open`).
-/

namespace FlintlockRunner.Scheduler

open Function Multiset Next Threads

variable {c : Settings}

/-! ## Past the last check -/

/-- The keep-alive loop between a check of its context and what it does about
the Lease. -/
def LoopPc.committed : LoopPc → Bool
  | .reading _ | .comparing _ _ | .settling _ _ (.error .notFound) => true
  | _ => false

/-- `CheckLease` with a failed answer, past its last look at the table. -/
def CheckPc.committed : CheckPc → Bool
  | .settling _ (.error _) | .declaring _ => true
  | _ => false

/-- The Handles an activation may fail without another look at the keep-alive
context, the Allocation table or the live Allocations. -/
def Frame.committed : Frame → List Handle
  | .heartbeatLoop h _ pc => if pc.committed then [h] else []
  | .checkLease h pc => if pc.committed then [h] else []
  | .leaseLost h _ .marking | .leaseLost h _ .failing | .agentProbeLoop h (.failing _) => [h]
  | .hostUnhealthy name pc => pc.todo (Handle.on name)
  | .abortRunning pc => pc.todo fun _ => true
  | _ => []

variable {f : Frame} {h : Handle}

theorem Frame.committed_of_fails (hf : f.fails? = some h) : h ∈ f.committed := by
  unfold Frame.fails? at hf
  split at hf
  all_goals cases hf
  all_goals simp [Frame.committed, AbortPc.todo]

/-- The Handle a keep-alive loop checks the context of before it goes on to
judge the Lease. -/
def Frame.passing? : Frame → Option Handle
  | .heartbeatLoop h _ (.top _) | .heartbeatLoop h _ (.answered _ _ (.error .notFound)) => some h
  | _ => none

/-- The Handle a `Release` is about to end. -/
def Frame.releasing? : Frame → Option Handle
  | .release h .finishing => some h
  | _ => none

/-- The Handle a `Release` has ended and not stopped the keep-alive of. -/
def Frame.stopping? : Frame → Option Handle
  | .release h .stopping => some h
  | _ => none

/-- Nothing overtakes a `Release`: when it ends an Allocation that has not
failed, nobody is past the last check for its Handle, and until it has stopped
the keep-alive the loop does not pass its check. -/
def Unraced (s : Sys) (l : Label) : Prop :=
  ∀ f ∈ s.top l,
    (∀ h ∈ f.releasing?, s.impl.holds h = true → s.impl.done h = false →
      ∀ g ∈ frames s.threads, h ∉ g.committed) ∧
    ∀ h ∈ f.passing?, s.impl.heartbeatCtxDone h = false →
      ∀ g ∈ frames s.threads, g.stopping? ≠ some h

instance (s : Sys) : DecidablePred (Unraced s) := fun _ =>
  inferInstanceAs (Decidable (∀ _ ∈ _, _ ∧ _))

section Step

variable {s : Impl} {n : Next} {a : Answer} {f : Frame} {h : Handle}

/-- A bulk abort fails what its snapshot had, and that was live. -/
theorem AbortPc.Leads.todo {mine : Handle → Bool} {pc pc' : AbortPc} (hl : pc.Leads s mine pc')
    (hlive : h ∉ s.liveHandles) (hmem : h ∈ pc'.todo mine) : h ∈ pc.todo mine := by
  cases hl with
  | snapshot hperm => exact absurd (hperm.mem_iff.mp (List.mem_of_mem_filter hmem)) hlive
  | mine todo hmine | other todo hmine => simpa [AbortPc.todo, hmine] using hmem
  | failed h' todo => exact List.mem_cons_of_mem _ hmem

/-- The functions that fail Handles. -/
def Frame.accuses : Frame → Bool
  | .heartbeatLoop _ _ _ | .checkLease _ _ | .leaseLost _ _ _ | .agentProbeLoop _ _
  | .hostUnhealthy _ _ | .abortRunning _ => true
  | _ => false

theorem Leads.uncommitted {g : Frame} (hl : Leads c s a f g) (hf : f.accuses = false) :
    g.committed = [] := by
  cases hl with
  | heartbeatLoop _ _ _ | loopExpired _ _ _ _ | loopGone _ _ _ _ | checkLease _ _ | checkLost _ _
  | leaseLost _ _ _ | agentProbeLoop _ _ | agentEnds _ _ | hostUnhealthy _ _ | hostEnds _ _ _
  | abortRunning _ | abortEnds _ _ => cases hf
  | _ => rfl

/-- **Nobody gets past its last check for an Allocation that is gone**, the
keep-alive loop apart, whose check is of its context. -/
theorem Leads.committed {g : Frame} (hl : Leads c s a f g) (hhold : s.holds h = false)
    (hlive : h ∉ s.liveHandles) (hmem : h ∈ g.committed) :
    h ∈ f.committed ∨ f.passing? = some h ∧ s.heartbeatCtxDone h = false := by
  by_cases hf : f.accuses = false
  · rw [hl.uncommitted hf] at hmem
    cases hmem
  cases hl with
  | heartbeatLoop h' interval hpc =>
    cases hpc with
    | live attempt hctx =>
      obtain rfl := List.mem_singleton.mp hmem
      exact .inr ⟨rfl, hctx⟩
    | settle attempt lease r hctx =>
      match r, hmem with
      | .error .notFound, hmem =>
        obtain rfl := List.mem_singleton.mp hmem
        exact .inr ⟨rfl, hctx⟩
      | .error .other, hmem | .ok _, hmem => cases hmem
    | read attempt => exact .inl hmem
    | good | fired | answered | renewed | failed => cases hmem
  | checkLease h' hpc =>
    cases hpc with
    | settle lease r hin =>
      cases r with
      | ok => cases hmem
      | error e =>
        obtain rfl := List.mem_singleton.mp hmem
        cases hhold.symm.trans hin
    | gone | expired => exact .inl hmem
    | live | held | read | answered => cases hmem
  | leaseLost h' cause hpc =>
    cases hpc with
    | marked => exact .inl hmem
    | failed => cases hmem
  | agentProbeLoop h' hpc =>
    cases hpc with
    | unreachable failures hin =>
      obtain rfl := List.mem_singleton.mp hmem
      cases hhold.symm.trans hin
    | started | fired | held | answered | again => cases hmem
  | hostUnhealthy name hpc => exact .inl (hpc.todo hlive hmem)
  | abortRunning hpc => exact .inl (hpc.todo hlive hmem)
  | loopExpired | loopGone | checkLost => exact .inl hmem
  | agentEnds | hostEnds | abortEnds | goroutine => cases hmem
  | _ => exact absurd rfl hf

/-! ## What a step does to a Handle -/

/-- What a step leaves of a Handle's state: the keep-alive stays stored and
stays cancelled, and `Done` stays as it is unless the step `fails` it. -/
structure HandleState.Kept (fails : Prop) (st st' : HandleState) : Prop where
  stored : st.stopHeartbeat = true → st'.stopHeartbeat = true
  cancelled : st.cancelled = true → st'.cancelled = true
  err : ¬ fails → st'.err = st.err

variable {id : Nat}

/-- **What a step does to a Handle.** -/
theorem step_kept (hn : step c s f a = some n) (hid : id ≤ s.nextID) :
    (s.heap id).Kept (∃ h, f.fails? = some h ∧ h.id = id) (n.impl.heap id) := by
  have hw := (step_spec hn).runs.writes.2 id
  generalize n.impl.heap id = st' at hw ⊢
  cases hw with
  | keeps | renews | marks => exact ⟨fun h => h, fun h => h, fun _ => rfl⟩
  | creates hnew => omega
  | installs => exact ⟨fun _ => rfl, fun h => h, fun _ => rfl⟩
  | cancels => exact ⟨fun h => h, fun _ => rfl, fun _ => rfl⟩
  | fails err hf hsame => exact ⟨fun h => h, fun h => h, fun hnot => absurd ⟨_, hf, hsame⟩ hnot⟩

/-! ## The keep-alive is stored before anyone can release -/

/-- The Handle an activation knows to have its keep-alive stored: `Allocate`
after it stored it, and what a caller does with a Handle it was given. -/
def Frame.stored? : Frame → Option Handle
  | .allocate _ (.spawning h) | .allocate _ (.probing h) | .allocate _ (.returning h)
  | .release h _ | .retain h _ => some h
  | _ => none

@[simp] theorem Impl.stored_installHeartbeat (s : Impl) (h : Handle) :
    ((s.installHeartbeat h).heap h.id).stopHeartbeat = true := by
  show (update s.heap h.id _ h.id).stopHeartbeat = true
  rw [update_self]

theorem step_stored (hn : step c s f a = some n) {g : Frame} (hg : g ∈ n.all)
    (hstored : g.stored? = some h) :
    f.stored? = some h ∨ (n.impl.heap h.id).stopHeartbeat = true := by
  cases (step_spec hn).leads g hg with
  | allocate q hpc =>
    cases hpc with
    | installed h' =>
      cases hstored
      cases a with
      | go =>
        cases hn
        exact .inr (Impl.stored_installHeartbeat s h)
      | _ => cases hn
    | spawned | unspawned | probed => exact .inl hstored
    | _ => cases hstored
  | release | releaseMissed | retain | notKept => exact .inl hstored
  | _ => cases hstored

theorem step_allocated (hn : step c s f a = some n) (hobs : .allocated h ∈ n.obs) :
    f.stored? = some h := by
  cases (step_spec hn).seen _ hobs with
  | allocated q => rfl

end Step

/-- Every Handle a caller has, and every one it is about to get, has its
keep-alive stored. -/
structure Sys.Stored (s : Sys) : Prop where
  frame : ∀ f ∈ frames s.threads, ∀ h, f.stored? = some h →
    (s.impl.heap h.id).stopHeartbeat = true
  allocated : ∀ h, .allocated h ∈ s.trace → (s.impl.heap h.id).stopHeartbeat = true

section Runs

variable {s t : Sys}

theorem Frame.handles_of_stored (hf : f.stored? = some h) : h ∈ f.handles := by
  unfold Frame.stored? at hf
  split at hf
  all_goals cases hf
  all_goals exact List.mem_singleton_self h

theorem stored_next {l : Label} (hN : Named s) (hs : s.Stored) (hnext : s.next c l = some t) :
    t.Stored := by
  cases moved hnext with
  | call call hcall =>
    refine ⟨fun f hf h hh => ?_, hs.allocated⟩
    rcases mem_start.mp hf with rfl | hf
    · cases call with
      | release h' | retain h' =>
        cases hh
        exact hs.allocated h (hcall h rfl)
      | _ => cases hh
    · exact hs.frame f hf h hh
  | step i a f rest n hi hstep =>
    have hf := top_mem hi
    have hkept : ∀ h, .created h ∈ s.trace → (s.impl.heap h.id).stopHeartbeat = true →
        (n.impl.heap h.id).stopHeartbeat = true := fun h hh =>
      (step_kept hstep (hN.created_le h hh)).stored
    have hown : ∀ h, f.stored? = some h → (n.impl.heap h.id).stopHeartbeat = true := fun h hh =>
      hkept h (hN.frame f hf h (Frame.handles_of_stored hh)) (hs.frame f hf h hh)
    constructor
    · intro g hg h hh
      rcases mem_of_frames_advance hi hg with hg | hg
      · exact (step_stored hstep hg hh).elim (hown h) id
      · exact hkept h (hN.frame g hg h (Frame.handles_of_stored hh)) (hs.frame g hg h hh)
    · intro h hh
      rcases List.mem_append.mp hh with hh | hh
      · exact hkept h (hN.allocated h hh) (hs.allocated h hh)
      · exact hown h (step_allocated hstep hh)
  | tick d =>
    exact ⟨hs.frame, hs.allocated⟩

/-! ## After a Release -/

theorem Frame.handles_of_fails (hf : f.fails? = some h) : h ∈ f.handles := by
  unfold Frame.fails? at hf
  split at hf
  all_goals cases hf
  all_goals exact List.mem_cons_self

/-- A `Release` has ended the Allocation of `h` and nobody is about to fail it:
the Slot is returned for good, no activation is past its last check, and the
keep-alive is cancelled, or will be by the `Release` before its loop looks
again. -/
structure Sys.Released (c : Settings) (h : Handle) (s : Sys) : Prop where
  accounts : Accounts c s
  created : .created h ∈ s.trace
  granted : .granted h.alloc.reservationID ∈ s.trace
  returned : s.returned h.alloc.reservationID
  stored : (s.impl.heap h.id).stopHeartbeat = true
  uncommitted : ∀ g ∈ frames s.threads, h ∉ g.committed
  stopped : (s.impl.heap h.id).cancelled = true ∨ .release h .stopping ∈ frames s.threads
  unfailed : s.impl.done h = false

section Released

variable {h : Handle}

theorem Sys.Released.not_live (hs : s.Released c h) : h ∉ s.impl.liveHandles := fun hlive =>
  hs.returned.2 h ⟨hlive, rfl⟩

theorem Sys.Released.holds (hs : s.Released c h) : s.impl.holds h = false := by
  refine decide_eq_false fun hmem => hs.not_live ?_
  obtain ⟨h', hl⟩ := Option.isSome_iff_exists.mp (AList.lookup_isSome.mpr hmem)
  obtain rfl := hs.accounts.named.live_eq hs.created hl
  exact Impl.mem_liveHandles.mpr ⟨_, hl⟩

/-- The keep-alive loop does not pass its check: its context is cancelled, or
the `Release` it would overtake is still to cancel it. -/
theorem Sys.Released.not_passing (hs : s.Released c h) {l : Label} (hok : Unraced s l)
    (hf : s.top l = some f) (hpass : f.passing? = some h) : s.impl.heartbeatCtxDone h = true := by
  by_contra hctx
  have hctx : s.impl.heartbeatCtxDone h = false := Bool.not_eq_true _ ▸ hctx
  have hno := (hok f hf).2 h hpass hctx
  rcases hs.stopped with hcancelled | hstopping
  · rw [Impl.heartbeatCtxDone, hcancelled] at hctx
    cases hctx
  · exact hno _ hstopping rfl

theorem Impl.cancelled_stopHeartbeat {impl : Impl}
    (hstored : (impl.heap h.id).stopHeartbeat = true) :
    ((impl.stopHeartbeat h).heap h.id).cancelled = true := by
  rw [Impl.stopHeartbeat, if_pos hstored]
  show (update impl.heap h.id _ h.id).cancelled = true
  rw [update_self]

theorem released_apply (hs : s.Released c h) {i : Nat} {rest : List Frame} {a : Answer} {n : Next}
    (hok : Unraced s (.step i a)) (hi : s.threads[i]? = some (f :: rest))
    (hstep : step c s.impl f a = some n) (hnext : s.next c (.step i a) = some (s.apply i rest n)) :
    (s.apply i rest n).Released c h := by
  have hf := top_mem hi
  have hkept := step_kept hstep (hs.accounts.named.created_le h hs.created)
  have hspared : ¬ ∃ h', f.fails? = some h' ∧ h'.id = h.id := by
    rintro ⟨h', hfails, hid⟩
    have hcreated := hs.accounts.named.frame f hf h' (Frame.handles_of_fails hfails)
    obtain rfl := hs.accounts.named.created_inj h' h hcreated hs.created hid
    exact hs.uncommitted f hf (Frame.committed_of_fails hfails)
  refine ⟨accounts_next hs.accounts hnext, List.mem_append_left _ hs.created,
    List.mem_append_left _ hs.granted, (slot_next hs.accounts hnext hs.granted).1 hs.returned,
    hkept.stored hs.stored, ?_, ?_, ?_⟩
  · intro g hg hmem
    rcases mem_of_frames_advance hi hg with hg | hg
    · have hleads := (step_spec hstep).leads g hg
      rcases hleads.committed hs.holds hs.not_live hmem with hold | ⟨hpass, hctx⟩
      · exact hs.uncommitted f hf hold
      · have hdone := hs.not_passing hok (Sys.top_step hi a) hpass
        exact Bool.noConfusion (hctx.symm.trans hdone)
    · exact hs.uncommitted g hg hmem
  · rcases hs.stopped with hcancelled | hstopping
    · exact .inl (hkept.cancelled hcancelled)
    · rcases frames_advance_old hi n.frames n.spawned hstopping with rfl | hother
      · -- the Release stops the keep-alive now
        left
        cases a with
        | go =>
          cases hstep
          exact Impl.cancelled_stopHeartbeat hs.stored
        | _ => cases hstep
      · exact .inr hother
  · show (n.impl.heap h.id).err.isSome = false
    rw [hkept.err hspared]
    exact hs.unfailed

/-- A Handle that was released in peace is not failed later. -/
theorem released_next {l : Label} (hs : s.Released c h) (hok : Unraced s l)
    (hnext : s.next c l = some t) : t.Released c h := by
  cases moved hnext with
  | call call _ =>
    refine { hs with
      accounts := accounts_next hs.accounts hnext
      uncommitted := fun g hg => ?_
      stopped := ?_ }
    · rcases mem_start.mp hg with rfl | hg
      · have hnone : call.frame.committed = [] := by cases call <;> rfl
        rw [hnone]
        exact List.not_mem_nil
      · exact hs.uncommitted g hg
    · exact hs.stopped.imp id fun hf => mem_start.mpr (.inr hf)
  | step i a f rest n hi hstep =>
    exact released_apply hs hok hi hstep hnext
  | tick d =>
    exact { hs with accounts := accounts_next hs.accounts hnext }

/-- What the step of a `Release` that ends the Allocation leaves. -/
theorem release_finishes {impl : Impl} {n : Next} (hmem : h.id ∈ impl.allocations)
    (hstep : step c impl (.release h .finishing) .go = some n) :
    n.frames = [.release h .stopping] ∧ n.spawned = [] ∧ h.id ∉ n.impl.allocations := by
  have hgone := impl.finish_allocations h
  rcases impl.finish_spec h with ⟨-, s', hfin, -⟩ | hfin
  · simp only [step, stepRelease, stepEnd, hfin] at hstep
    rw [hfin] at hgone
    cases hstep
    exact ⟨rfl, rfl, hgone⟩
  · rw [hfin] at hgone
    exact absurd hmem hgone

/-- A `Release` that overtakes nobody starts well. -/
theorem released_of_release (hA : Accounts c s) (hS : s.Stored) {i : Nat} {rest : List Frame}
    (hi : s.threads[i]? = some (.release h .finishing :: rest)) (hlive : h ∈ s.impl.liveHandles)
    (hopen : s.impl.done h = false) (hok : Unraced s (.step i .go))
    (hnext : s.next c (.step i .go) = some t) : t.Released c h := by
  have hA' := accounts_next hA hnext
  obtain ⟨n, hstep, rfl⟩ : ∃ n, step c s.impl (.release h .finishing) .go = some n ∧
      s.apply i rest n = t := by
    rw [Sys.next, hi] at hnext
    exact Option.map_eq_some_iff.mp hnext
  have hcreated := hA.named.live_created hlive
  have hmem := hA.named.live_mem hlive
  obtain ⟨hnframes, hnspawned, hgone⟩ := release_finishes hmem hstep
  have hkept := step_kept hstep (hA.named.created_le h hcreated)
  have hgranted : .granted h.alloc.reservationID ∈ s.trace :=
    mem_granted.mp (hA.slots.ticket_granted _ h.holding
      ((hA.named.heldBy_iff hcreated).mp ⟨hlive, rfl⟩))
  refine ⟨hA', List.mem_append_left _ hcreated, List.mem_append_left _ hgranted, ?_,
    hkept.stored (hS.frame _ (top_mem hi) h rfl), ?_, ?_, ?_⟩
  · rcases (slot_next hA hnext hgranted).2 h ⟨hlive, rfl⟩ with hheld | hreturned
    · exact absurd (hA'.named.live_mem hheld.1) hgone
    · exact hreturned
  · have hunc := (hok _ (Sys.top_step hi _)).1 h rfl (decide_eq_true hmem) hopen
    intro g hg
    rcases mem_of_frames_advance hi hg with hg | hg
    · rw [hnframes, hnspawned] at hg
      rw [List.mem_singleton.mp hg]
      exact List.not_mem_nil
    · exact hunc g hg
  · refine .inr (frames_advance_new hi (List.mem_append_left _ ?_))
    rw [hnframes]
    exact List.mem_cons_self
  · show (n.impl.heap h.id).err.isSome = false
    rw [hkept.err (by rintro ⟨h', hfails, -⟩; cases hfails)]
    exact hopen

end Released

theorem stored_reach {ok : Sys → Label → Prop} (hs : (machine c).Reach ok s) : s.Stored := by
  have hinv : Named s ∧ s.Stored := by
    refine hs.inv (I := fun s => Named s ∧ s.Stored) ?_ ?_
    · intro s₀ h₀
      refine ⟨(accounts_init h₀).named, ?_⟩
      obtain ⟨-, now, profiles, hosts, rfl⟩ := h₀
      exact ⟨fun f hf => absurd hf (notMem_zero f), nofun⟩
    · rintro s l t ⟨hN, hS⟩ - hnext
      exact ⟨named_next hN hnext, stored_next hN hS hnext⟩
  exact hinv.2

/-- **`Done` stays open after a normal Release.** When a `Release` ends an
Allocation whose Handle has not failed, and nothing overtakes a `Release` on
the way there or after, `fail` is never called on the Handle again. -/
theorem done_stays_open (hs : (machine c).Reach Unraced s) {i : Nat} {h : Handle}
    {rest : List Frame} (hi : s.threads[i]? = some (.release h .finishing :: rest))
    (hlive : h ∈ s.impl.liveHandles) (hopen : s.impl.done h = false) (hok : Unraced s (.step i .go))
    (hnext : s.next c (.step i .go) = some t) {u : Sys} (hp : (machine c).Path Unraced t u) :
    (∀ f ∈ frames u.threads, f.fails? ≠ some h) ∧ u.impl.done h = false := by
  have ht : t.Released c h :=
    released_of_release (accounts_reach hs) (stored_reach hs) hi hlive hopen hok hnext
  have hu : u.Released c h := hp.inv (fun _ _ _ hR hok hnext => released_next hR hok hnext) ht
  exact ⟨fun f hf hfails => hu.uncommitted f hf (Frame.committed_of_fails hfails), hu.unfailed⟩

/-- A heartbeat finds the Lease gone; before the loop acts on the answer, the
Job is done and its `Release` returns. -/
def overtakingRun : List Label :=
  keepAliveRun ++ ([.tick 10000000000, .step 3 .timer, .step 3 (.heartbeat (.error .notFound)),
    .step 3 .go, .call (.release smallHandle)] : List Label)

/-- The `Release` runs to its end, and then the loop goes on. -/
def failingRun : List Label :=
  [.step 4 .go, .step 4 .go, .step 4 .go, .step 3 .go, .step 3 .go, .step 3 .go]

/-- **`Done` is closed after a normal Release.** -/
theorem done_closed_after_release : ∃ s t u, (machine oneSlot).Reach Machine.any s ∧
    s.threads[4]? = some [.release smallHandle .finishing] ∧
    smallHandle ∈ s.impl.liveHandles ∧ s.impl.done smallHandle = false ∧
    s.next oneSlot (.step 4 .go) = some t ∧ (machine oneSlot).Path Machine.any t u ∧
    u.impl.done smallHandle = true :=
  have hs : (machine oneSlot).Reach Machine.any (reached overtakingRun) :=
    ⟨allocateStart, allocateStart_init, Machine.path_of_exec
      (show (machine oneSlot).exec allocateStart overtakingRun = some _ from rfl)⟩
  have hp : (machine oneSlot).Path Machine.any (reached (overtakingRun ++ [.step 4 .go]))
      (reached (overtakingRun ++ .step 4 .go :: failingRun)) := Machine.path_of_exec
    (show (machine oneSlot).exec (reached (overtakingRun ++ [.step 4 .go])) failingRun = some _
      from rfl)
  ⟨_, _, _, hs, rfl, by decide, rfl, rfl, hp, rfl⟩

/-- The same with the `Release` before the heartbeat is answered: it stops the
keep-alive, and the loop drops the answer. -/
def orderlyRun : List Label :=
  keepAliveRun ++ ([.tick 10000000000, .step 3 .timer, .call (.release smallHandle)] : List Label)

def droppedRun : List Label :=
  [.step 4 .go, .step 4 .go, .step 4 .go, .step 3 (.heartbeat (.error .notFound)), .step 3 .go]

theorem done_stays_open_released : ∃ s t u, (machine oneSlot).Reach Unraced s ∧
    s.next oneSlot (.step 4 .go) = some t ∧ (machine oneSlot).Path Unraced t u ∧
    smallHandle ∈ s.impl.liveHandles ∧ smallHandle ∉ t.impl.liveHandles ∧
    (∀ f ∈ frames u.threads, f.fails? ≠ some smallHandle) ∧
    u.impl.done smallHandle = false :=
  have hs : (machine oneSlot).Reach Unraced (reached orderlyRun) :=
    ⟨allocateStart, allocateStart_init, Machine.path_execWhile orderlyRun rfl⟩
  have hnext : (reached orderlyRun).next oneSlot (.step 4 .go)
      = some (reached (orderlyRun ++ [.step 4 .go])) := rfl
  have hp : (machine oneSlot).Path Unraced (reached (orderlyRun ++ [.step 4 .go]))
      (reached (orderlyRun ++ .step 4 .go :: droppedRun)) := Machine.path_execWhile droppedRun rfl
  ⟨_, _, _, hs, hnext, hp, by decide, by decide,
    done_stays_open hs (i := 4) rfl (by decide) rfl (by decide) hnext hp⟩

end Runs

end FlintlockRunner.Scheduler

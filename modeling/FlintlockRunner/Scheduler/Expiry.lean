import FlintlockRunner.Scheduler.Refine

/-!
# When a Lease counts as expired

The keep-alive loop and `CheckLease` both read a Handle's Lease, make a slow
call without any lock, and then record the answer or compare the copy they read
with the clock. Two of them on one Handle can overlap, so a copy can be older
than an expiry the Pool Manager has returned since: `expired_too_early` is such
a run.

What is missing is exactly that the copies are current. `Careful` says so of
one step: it records no earlier expiry over a later one, throws no returned
expiry away, and declares the Lease expired only from a copy that is not older
than what is recorded, with nothing returned and still to be recorded.
`expired_in_time`: in runs of such steps no Lease is declared expired before
every expiry that came back.
-/

namespace FlintlockRunner.Scheduler

open Function Multiset Next Threads

variable {c : Settings} {s : Impl} {n : Next} {a : Answer} {f : Frame}

/-! ## Expiries in flight -/

/-- The expiry recorded for a Handle. -/
def Impl.expiry (s : Impl) (id : Nat) : Time := (s.heap id).expiresAt

/-- The expiry a `Heartbeat` call returned to this frame, not recorded yet. -/
def Frame.unrecorded : Frame → Option (Nat × Time)
  | .heartbeatLoop h _ (.answered _ _ (.ok e)) | .heartbeatLoop h _ (.settling _ _ (.ok e))
  | .checkLease h (.answered _ (.ok e)) | .checkLease h (.settling _ (.ok e)) => some (h.id, e)
  | _ => none

/-- The expiry a frame is about to declare the Lease of a Handle expired by. -/
def Frame.declares (s : Impl) : Frame → Option (Handle × Time)
  | .heartbeatLoop h _ (.comparing _ lease) =>
    if lease.expiresAt ≤ s.now then some (h, lease.expiresAt) else none
  | .checkLease h (.declaring (.leaseExpired _ e)) => if s.done h then none else some (h, e)
  | _ => none

/-- A returned expiry is not thrown away, and not recorded over a later one. -/
def Frame.keeps (s : Impl) : Frame → Bool
  | .heartbeatLoop h _ (.answered _ _ (.ok _)) => !s.heartbeatCtxDone h
  | .checkLease h (.answered _ (.ok _)) => s.holds h
  | .heartbeatLoop h _ (.settling _ _ (.ok e)) | .checkLease h (.settling _ (.ok e)) =>
    decide (s.expiry h.id ≤ e)
  | _ => true

/-- A frame acts on what is current: besides keeping what came back, it
declares a Lease expired only from a copy as late as the recorded one, while no
returned expiry of the Handle waits to be recorded. -/
def Frame.careful (s : Sys) (f : Frame) : Prop :=
  f.keeps s.impl = true ∧ ∀ d ∈ f.declares s.impl, s.impl.expiry d.1.id ≤ d.2 ∧
    ∀ f' ∈ frames s.threads, f'.unrecorded.map Prod.fst ≠ some d.1.id

instance (s : Sys) (f : Frame) : Decidable (f.careful s) :=
  inferInstanceAs (Decidable (_ ∧ ∀ _ ∈ _, _))

/-- The condition on one step: the frame that runs is careful. -/
def Careful (s : Sys) : Label → Prop
  | .step i _ => ∀ f ∈ s.threads[i]?.bind List.head?, f.careful s
  | .call _ | .tick _ => True

instance (s : Sys) : DecidablePred (Careful s)
  | .step i _ =>
    inferInstanceAs (Decidable (∀ f ∈ s.threads[i]?.bind List.head?, f.careful s))
  | .call _ | .tick _ => .isTrue trivial

theorem Careful.frame {s : Sys} {i : Nat} (hok : Careful s (.step i a)) {rest : List Frame}
    (hi : s.threads[i]? = some (f :: rest)) : f.careful s :=
  hok f (by rw [hi]; rfl)

/-- The expiry an observation returns. -/
def Obs.answered? : Obs → Option (Nat × Time)
  | .heartbeatAnswered h e => some (h, e)
  | _ => none

/-- What a step leaves to be recorded. -/
def Next.unrecorded (n : Next) : List (Nat × Time) :=
  (n.frames ++ n.spawned.flatten).filterMap Frame.unrecorded

/-- What a step tells of expiries. -/
def Next.answered (n : Next) : List (Nat × Time) := n.obs.filterMap Obs.answered?

/-! ## What a step does to them -/

/-- Everything a step can do to recorded and returned expiries. -/
inductive Renewal (s : Impl) (f : Frame) (n : Next) : Prop
  | quiet (he : n.impl.expiry = s.expiry) (hu : n.unrecorded = f.unrecorded.toList)
      (ho : n.answered = [])
  | created (he : ∀ id, id ≠ s.nextID + 1 → n.impl.expiry id = s.expiry id)
      (hf : f.unrecorded = none) (hu : n.unrecorded = []) (ho : n.answered = [])
  | returned (h : Handle) (e : Time) (hh : h ∈ f.handles) (he : n.impl.expiry = s.expiry)
      (hf : f.unrecorded = none) (hu : n.unrecorded = [(h.id, e)])
      (ho : n.answered = [(h.id, e)])
  | recorded (h : Handle) (e : Time) (hf : f.unrecorded = some (h.id, e))
      (hle : f.keeps s = true → s.expiry h.id ≤ e)
      (he : n.impl.expiry = Function.update s.expiry h.id e) (hu : n.unrecorded = [])
      (ho : n.answered = [])
  | dropped (hf : f.keeps s = false)

theorem Impl.expiry_setLease (s : Impl) (h : Handle) (l : Lease) :
    (s.setLease h l).expiry = Function.update s.expiry h.id l.expiresAt := by
  funext id
  show (update s.heap h.id _ id).expiresAt = _
  by_cases heq : id = h.id
  · rw [heq, update_self, update_self]
  · rw [update_of_ne heq, update_of_ne heq]
    rfl

/-- The clock and the Handles, which most sections leave alone. -/
def Impl.view (s : Impl) : Time × (Nat → HandleState) := (s.now, s.heap)

section View

variable (s : Impl)

@[simp] theorem Impl.view_grant (c : Settings) (warm : Int) : (s.grant c warm).1.view = s.view := by
  rcases s.grant_spec c warm with ⟨reason, h⟩ | ⟨-, h⟩
  · rw [h]
  · rw [h]
    rfl

@[simp] theorem Impl.view_finish (h : Handle) : (s.finish h).1.view = s.view := by
  unfold Impl.finish
  split
  · dsimp only
    split <;> rfl
  · rfl

@[simp] theorem Impl.view_convert (r : Nat) (h : Handle) : (s.convert r h).1.view = s.view := by
  unfold Impl.convert
  split <;> rfl

@[simp] theorem Impl.view_enterProfile (p : Profile) : (s.enterProfile p).1.view = s.view := by
  unfold Impl.enterProfile
  split <;> rfl

@[simp] theorem Impl.view_drained : s.drained.1.view = s.view := by
  unfold Impl.drained
  split
  · rfl
  · split <;> rfl

@[simp] theorem Impl.view_recordProbe (threshold : Int) (name : String) (ok : Bool) :
    (s.recordProbe threshold name ok).1.view = s.view := by
  unfold Impl.recordProbe
  split
  · rfl
  · split <;> rfl

end View

/-! ### What a section does to a Handle -/

/-- The Handle the next step of an activation fails. -/
def Frame.fails? : Frame → Option Handle
  | .leaseLost h _ .failing | .agentProbeLoop h (.failing _)
  | .hostUnhealthy _ (.failing h _) | .abortRunning (.failing h _) => some h
  | _ => none

/-- The functions that call `Heartbeat`. -/
def Frame.beats : Frame → Bool
  | .heartbeatLoop _ _ _ | .checkLease _ _ => true
  | _ => false

variable (s f) (id : Nat) (st : HandleState) in
/-- Everything a section can do to the state of one Handle. -/
inductive Writes : HandleState → Prop
  | keeps : Writes st
  | creates {st' : HandleState} (hid : id = s.nextID + 1) (hgone : st'.leaseGone = false) :
      Writes st'
  | installs : Writes { st with stopHeartbeat := true }
  | cancels : Writes { st with cancelled := true }
  | renews (e : Time) (last : Option Time) (hf : f.beats = true) :
      Writes { st with expiresAt := e, lastHeartbeatAt := last }
  | marks {h : Handle} {cause : Cause} (hf : f = .leaseLost h cause .marking) (hid : h.id = id) :
      Writes { st with leaseGone := true }
  | fails {h : Handle} (err : Option Cause) (hf : f.fails? = some h) (hid : h.id = id) :
      Writes { st with err := err }

/-- **What a section does to the clock and to the Handles.** -/
theorem Runs.writes {s' : Impl} (h : Runs c s f s') :
    s'.now = s.now ∧ ∀ id, Writes s f id (s.heap id) (s'.heap id) := by
  have hview : ∀ {t : Impl}, t.view = s.view →
      t.now = s.now ∧ ∀ id, Writes s f id (s.heap id) (t.heap id) := by
    intro t hv
    refine ⟨congrArg Prod.fst hv, fun id => ?_⟩
    rw [show t.heap = s.heap from congrArg Prod.snd hv]
    exact .keeps
  have hset : ∀ (h : Handle) {g : HandleState → HandleState},
      (∀ st, Writes s f h.id st (g st)) → (s.setHandle h g).now = s.now ∧
        ∀ id, Writes s f id (s.heap id) ((s.setHandle h g).heap id) := by
    refine fun h g hg => ⟨rfl, fun id => ?_⟩
    show Writes s f id (s.heap id) (update s.heap h.id (g (s.heap h.id)) id)
    by_cases heq : id = h.id
    · rw [heq, update_self]
      exact hg _
    · rw [update_of_ne heq]
      exact .keeps
  cases h with
  | grant warm => exact hview (s.view_grant c warm)
  | enterProfile q => exact hview (s.view_enterProfile q.p)
  | convert q h => exact hview (s.view_convert q.r h)
  | finish hf => exact hview (s.view_finish _)
  | recordProbe name ok => exact hview (s.view_recordProbe _ name ok)
  | drained => exact hview s.view_drained
  | newHandle q claim lease claimedAt placement alloc =>
    refine ⟨rfl, fun id => ?_⟩
    show Writes s _ id (s.heap id) (update s.heap (s.nextID + 1) _ id)
    by_cases heq : id = s.nextID + 1
    · rw [heq, update_self]
      exact .creates rfl rfl
    · rw [update_of_ne heq]
      exact .keeps
  | stopHeartbeat hf =>
    unfold Impl.stopHeartbeat
    split
    · exact hset _ fun _ => .cancels
    · exact hview rfl
  | installHeartbeat _ h => exact hset h fun _ => .installs
  | unspawned _ h | cancelHeartbeat h => exact hset h fun _ => .cancels
  | loopRenews h | checkRenews h => exact hset h fun _ => .renews _ _ rfl
  | markLeaseGone h => exact hset h fun _ => .marks rfl rfl
  | lostFails h | agentFails h | hostFails _ h | abortFails h =>
    exact hset h fun _ => .fails _ rfl rfl
  | _ => exact hview rfl

theorem Renewal.goto {fs : List Frame} {s' : Impl} (hn : Next.goto s' fs = some n)
    (he : s'.expiry = s.expiry) (hu : fs.filterMap Frame.unrecorded = f.unrecorded.toList) :
    Renewal s f n := by
  cases hn
  exact .quiet he (by simpa [Next.unrecorded] using hu) rfl

/-! ### Frames that hear of no expiry -/

variable {e : Time} {id : Nat} {h : Handle}

section Others

variable (hbeats : f.beats = false)
include hbeats

theorem Runs.expiry {s' : Impl} (h : Runs c s f s') (hid : id ≠ s.nextID + 1) :
    s'.expiry id = s.expiry id := by
  show (s'.heap id).expiresAt = (s.heap id).expiresAt
  have hw := h.writes.2 id
  generalize s'.heap id = st' at hw ⊢
  cases hw with
  | creates hnew => exact absurd hnew hid
  | renews e last hf => cases hbeats.symm.trans hf
  | _ => rfl

theorem Leads.unrecorded {g : Frame} (h : Leads c s a f g) : g.unrecorded = none := by
  cases h with
  | heartbeatLoop | checkLease => cases hbeats
  | _ => rfl

theorem Says.answered {o : Obs} (h : Says s f a o) : o.answered? = none := by
  cases h with
  | loopAnswered | checkAnswered => cases hbeats
  | _ => rfl

theorem others_renewal (h : step c s f a = some n) (hf : f.unrecorded = none) : Renewal s f n := by
  have hspec := step_spec h
  refine .created (fun id hid => hspec.runs.expiry hbeats hid) hf ?_ ?_
  · exact List.filterMap_eq_nil_iff.mpr fun g hg => (hspec.leads g hg).unrecorded hbeats
  · exact List.filterMap_eq_nil_iff.mpr fun o ho => (hspec.seen o ho).answered hbeats

end Others

/-- The keep-alive loop records what it heard, or drops it once its context is
done. -/
theorem heartbeatLoop_renewal {interval : Duration} {pc : LoopPc}
    (hn : stepHeartbeatLoop c s h interval pc a = some n) :
    Renewal s (.heartbeatLoop h interval pc) n := by
  unfold stepHeartbeatLoop at hn
  split at hn
  -- top, reading
  · split at hn <;> exact .goto hn rfl rfl
  · exact .goto hn rfl rfl
  -- comparing
  · split at hn
    · cases hn
      exact .quiet rfl rfl rfl
    · exact .goto hn rfl rfl
  -- waiting
  · split at hn
    · exact .goto hn rfl rfl
    · cases hn
  · split at hn
    · exact .goto hn rfl rfl
    · cases hn
  -- calling
  · rename_i r
    cases hn
    cases r with
    | error e => exact .quiet rfl rfl rfl
    | ok e => exact .returned h e (List.mem_singleton_self h) rfl rfl rfl rfl
  -- answered
  · rename_i r
    split at hn
    · rename_i hdone
      cases r with
      | error e => exact .goto hn rfl rfl
      | ok e => exact .dropped (by rw [Frame.keeps, hdone]; rfl)
    · cases r with
      | error e => exact .goto hn rfl rfl
      | ok e => exact .goto hn rfl rfl
  -- settling
  · split at hn
    · rename_i e
      cases hn
      exact .recorded h e rfl of_decide_eq_true (s.expiry_setLease h _) rfl rfl
    · cases hn
      exact .quiet rfl rfl rfl
    · exact .goto hn rfl rfl
  · cases hn

/-- `CheckLease` records what it heard, or drops it when the Allocation has
ended meanwhile. -/
theorem checkLease_renewal {pc : CheckPc} (hn : stepCheckLease s h pc a = some n) :
    Renewal s (.checkLease h pc) n := by
  unfold stepCheckLease at hn
  split at hn
  -- called, holding, reading
  · split at hn <;> exact .goto hn rfl rfl
  · split at hn <;> exact .goto hn rfl rfl
  · exact .goto hn rfl rfl
  -- calling
  · rename_i r
    cases hn
    cases r with
    | error e => exact .quiet rfl rfl rfl
    | ok e => exact .returned h e (List.mem_singleton_self h) rfl rfl rfl rfl
  -- answered
  · rename_i r
    split at hn
    · cases r with
      | error e => exact .goto hn rfl rfl
      | ok e => exact .goto hn rfl rfl
    · rename_i hholds
      cases r with
      | error e => exact .goto hn rfl rfl
      | ok e => exact .dropped (Bool.eq_false_iff.mpr hholds)
  -- settling
  · split at hn
    · rename_i e
      cases hn
      exact .recorded h e rfl of_decide_eq_true (s.expiry_setLease h _) rfl rfl
    · exact .goto hn rfl rfl
    · split at hn <;> exact .goto hn rfl rfl
  -- declaring
  · split at hn
    · exact .goto hn rfl rfl
    · cases hn
      exact .quiet rfl rfl rfl
  · cases hn

theorem step_renewal (h : step c s f a = some n) : Renewal s f n := by
  cases f with
  | heartbeatLoop => exact heartbeatLoop_renewal h
  | checkLease => exact checkLease_renewal h
  | _ => exact others_renewal rfl h rfl

/-! ## Who declares a Lease expired -/

/-- The expiry `CheckLease` found passed. -/
def Frame.expired? : Frame → Option Time
  | .checkLease _ (.declaring (.leaseExpired _ e)) => some e
  | _ => none

/-- The Handle whose Lease is declared expired, and by which expiry. -/
def Obs.expired? : Obs → Option (Nat × Time)
  | .lost id (.leaseExpired _ e) => some (id, e)
  | _ => none

theorem step_now (h : step c s f a = some n) : n.impl.now = s.now :=
  (step_spec h).runs.writes.1

/-- What a step says about expired Leases: it declares only what its frame was
about to declare, and goes on to declare only what has passed. -/
structure Verdict (s : Impl) (f : Frame) (n : Next) : Prop where
  lost : ∀ id e, (id, e) ∈ n.obs.filterMap Obs.expired? →
    ∃ h : Handle, h.id = id ∧ f.declares s = some (h, e)
  passed : ∀ e ∈ (n.frames ++ n.spawned.flatten).filterMap Frame.expired?, e ≤ s.now

theorem Says.declares {o : Obs} (h : Says s f a o) (ho : o.expired? = some (id, e)) :
    ∃ h : Handle, h.id = id ∧ f.declares s = some (h, e) := by
  cases h with
  | loopExpired h interval attempt lease a hle =>
    cases ho
    exact ⟨h, rfl, if_pos hle⟩
  | checkLost h cause a hdone =>
    cases cause with
    | leaseExpired leaseID e' =>
      cases ho
      exact ⟨h, rfl, if_neg (Bool.eq_false_iff.mp hdone)⟩
    | _ => cases ho
  | _ => cases ho

theorem Leads.passed {g : Frame} (h : Leads c s a f g) (hg : g.expired? = some e) : e ≤ s.now := by
  cases h with
  | checkLease h hpc =>
    cases hpc with
    | expired lease hle =>
      cases hg
      exact hle
    | _ => cases hg
  | _ => cases hg

theorem step_verdict (h : step c s f a = some n) : Verdict s f n where
  lost id e he := by
    obtain ⟨o, ho, hexpired⟩ := List.mem_filterMap.mp he
    exact ((step_spec h).seen o ho).declares hexpired
  passed e he := by
    obtain ⟨g, hg, hexpired⟩ := List.mem_filterMap.mp he
    exact ((step_spec h).leads g hg).passed hexpired

/-! ## The run -/

/-- Every expiry that came back is recorded, or later than which one is, or
still on its way to being recorded; and `CheckLease` declares only what has
passed. -/
structure Tracked (s : Sys) : Prop where
  named : Named s
  known : ∀ id e, .heartbeatAnswered id e ∈ s.trace → id ≤ s.impl.nextID
  recorded : ∀ id e, .heartbeatAnswered id e ∈ s.trace →
    e ≤ s.impl.expiry id ∨ ∃ f ∈ frames s.threads, f.unrecorded = some (id, e)
  passed : ∀ f ∈ frames s.threads, ∀ e ∈ f.expired?, e ≤ s.impl.now

theorem tracked_init {s : Sys} (hs : (machine c).init s) : Tracked s := by
  obtain ⟨-, now, profiles, hosts, rfl⟩ := hs
  refine ⟨named_init _ rfl, ?_, ?_, ?_⟩ <;> simp [Sys.init]

theorem tracked_start {s : Sys} (hT : Tracked s) {call : Call} (hcall : call.allowed s) :
    Tracked (s.start call) where
  named := named_start hT.named hcall
  known := hT.known
  recorded id e he := by
    refine (hT.recorded id e he).imp_right ?_
    rintro ⟨f, hf, hfe⟩
    exact ⟨f, mem_start.mpr (.inr hf), hfe⟩
  passed f hf e he := by
    rcases mem_start.mp hf with rfl | hf
    · cases call <;> cases he
    · exact hT.passed f hf e he

theorem Renewal.keeps_recorded (hr : Renewal s f n) (hkeeps : f.keeps s = true)
    (hid : id ≤ s.nextID) (hold : e ≤ s.expiry id ∨ f.unrecorded = some (id, e)) :
    e ≤ n.impl.expiry id ∨ (id, e) ∈ n.unrecorded := by
  cases hr with
  | quiet he hu ho =>
    rw [he, hu]
    exact hold.imp_right fun hf => by rw [hf]; exact List.mem_singleton_self _
  | created he hf hu ho =>
    rw [hf] at hold
    refine .inl ?_
    rw [he id (by omega)]
    exact hold.resolve_right (by simp)
  | returned h e' hh he hf hu ho =>
    rw [hf] at hold
    rw [he]
    exact .inl (hold.resolve_right (by simp))
  | recorded h e' hf hle he hu ho =>
    refine .inl ?_
    rw [he]
    rcases hold with hold | hold
    · by_cases heq : id = h.id
      · subst heq
        rw [update_self]
        exact le_trans hold (hle hkeeps)
      · rw [update_of_ne heq]
        exact hold
    · rw [hf] at hold
      cases hold
      rw [update_self]
  | dropped hf => exact absurd hkeeps (Bool.eq_false_iff.mp hf)

theorem Renewal.answered_mem (hr : Renewal s f n) (hkeeps : f.keeps s = true) {x : Nat × Time}
    (hx : x ∈ n.answered) : x ∈ n.unrecorded ∧ ∃ h ∈ f.handles, h.id = x.1 := by
  cases hr with
  | returned h e hh he hf hu ho =>
    rw [ho] at hx
    rw [hu]
    exact ⟨hx, h, hh, by rw [List.mem_singleton.mp hx]⟩
  | quiet _ _ ho | created _ _ _ ho | recorded _ _ _ _ _ _ ho =>
    rw [ho] at hx
    cases hx
  | dropped hf => exact absurd hkeeps (Bool.eq_false_iff.mp hf)

theorem mem_answered : .heartbeatAnswered id e ∈ n.obs ↔ (id, e) ∈ n.answered := by
  rw [Next.answered, List.mem_filterMap]
  constructor
  · intro ho
    exact ⟨_, ho, rfl⟩
  · rintro ⟨o, ho, heq⟩
    cases o <;> cases heq
    exact ho

theorem tracked_apply {s : Sys} (hT : Tracked s) {i : Nat} {rest : List Frame}
    (hi : s.threads[i]? = some (f :: rest)) (hstep : step c s.impl f a = some n)
    (hkeeps : f.keeps s.impl = true) : Tracked (s.apply i rest n) := by
  have hr := step_renewal hstep
  have hmono := (step_move hstep).created.1
  have hin : ∀ x, x ∈ n.unrecorded →
      ∃ f' ∈ frames (s.apply i rest n).threads, f'.unrecorded = some x := by
    intro x hx
    obtain ⟨f', hf', hfx⟩ := List.mem_filterMap.mp hx
    exact ⟨f', frames_advance_new hi hf', hfx⟩
  refine ⟨named_apply hT.named hi hstep, ?_, ?_, ?_⟩
  · intro id e he
    rcases List.mem_append.mp he with he | he
    · exact le_trans (hT.known id e he) hmono
    · obtain ⟨-, h, hh, rfl⟩ := hr.answered_mem hkeeps (mem_answered.mp he)
      have hcreated := hT.named.frame f (top_mem hi) h hh
      exact le_trans (hT.named.created_le h hcreated) hmono
  · intro id e he
    rcases List.mem_append.mp he with he | he
    · -- an old expiry is with this frame, with another, or recorded
      have hid := hT.known id e he
      rcases hT.recorded id e he with hle | ⟨f', hf', hfe⟩
      · exact (hr.keeps_recorded hkeeps hid (.inl hle)).imp_right (hin _)
      · rcases frames_advance_old hi n.frames n.spawned hf' with rfl | hf'
        · exact (hr.keeps_recorded hkeeps hid (.inr hfe)).imp_right (hin _)
        · exact .inr ⟨f', hf', hfe⟩
    · exact .inr (hin _ (hr.answered_mem hkeeps (mem_answered.mp he)).1)
  · intro f' hf' e he
    have hnow : (s.apply i rest n).impl.now = s.impl.now := step_now hstep
    rw [hnow]
    rcases mem_of_frames_advance hi hf' with hf' | hf'
    · exact (step_verdict hstep).passed e (List.mem_filterMap.mpr ⟨f', hf', he⟩)
    · exact hT.passed f' hf' e he

theorem Tracked.declared {s : Sys} (hT : Tracked s) (hf : f ∈ frames s.threads)
    (hdecl : f.declares s.impl = some (h, e)) : e ≤ s.impl.now := by
  unfold Frame.declares at hdecl
  split at hdecl
  · split at hdecl
    · rename_i hle
      cases hdecl
      exact hle
    · cases hdecl
  · split at hdecl
    · cases hdecl
    · cases hdecl
      exact hT.passed _ hf _ rfl
  · cases hdecl

theorem tracked_next {s t : Sys} {l : Label} (hT : Tracked s) (hok : Careful s l)
    (hnext : s.next c l = some t) : Tracked t := by
  cases moved hnext with
  | call call hcall =>
    exact tracked_start hT hcall
  | step i a f rest n hi hstep =>
    exact tracked_apply hT hi hstep (hok.frame hi).1
  | tick d =>
    refine ⟨named_next hT.named hnext, hT.known, hT.recorded, ?_⟩
    intro f hf e he
    exact le_trans (hT.passed f hf e he) (Int.le_add_of_nonneg_right (Int.natCast_nonneg d))

/-- **No premature expiry, in careful runs.** Whenever a step declares a Lease
expired, the clock is at or after every expiry that had come back for it. -/
theorem expired_in_time {s t : Sys} {l : Label} (hs : (machine c).Reach Careful s)
    (hok : Careful s l) (hnext : s.next c l = some t) {id : Nat} {lid : String} {e : Time}
    (hlost : .lost id (.leaseExpired lid e) ∈ t.trace.drop s.trace.length) :
    ∀ e', .heartbeatAnswered id e' ∈ s.trace → e' ≤ s.impl.now := by
  intro e' he'
  have hT : Tracked s := hs.inv (fun _ => tracked_init) fun _ _ _ => tracked_next
  cases moved hnext with
  | call call hcall =>
    simp [Sys.start] at hlost
  | step i a f rest n hi hstep =>
    rw [Sys.apply, List.drop_left] at hlost
    obtain ⟨h, rfl, hdecl⟩ := (step_verdict hstep).lost id e
      (List.mem_filterMap.mpr ⟨_, hlost, rfl⟩)
    obtain ⟨hle, hnone⟩ := (hok.frame hi).2 (h, e) hdecl
    have hpassed : e ≤ s.impl.now := hT.declared (top_mem hi) hdecl
    rcases hT.recorded h.id e' he' with hrec | ⟨f', hf', hfe⟩
    · exact hrec.trans (hle.trans hpassed)
    · exact absurd (congrArg (Option.map Prod.fst) hfe) (hnone f' hf')
  | tick d =>
    simp [Sys.tick] at hlost

/-! ## Two runs -/

/-- The Handle `allocateRun` creates; its Lease is good for 30 seconds. -/
def smallHandle : Handle where
  id := 2
  alloc :=
    { jobID := 0, profile := "small", vmUID := "vm", lease := ⟨"l", default, 30 * second, none⟩
      placement := ⟨"host", .claim, 0⟩, host := ⟨"host", ""⟩, reservationID := 1
      claimedAt := 0 }

/-- `Allocate` returns and the keep-alive loop waits for its first round. -/
def keepAliveRun : List Label :=
  allocateRun ++ ([.step 2 .go, .step 2 .go, .step 2 .go, .step 2 .go,
    .step 3 .go, .step 3 .go, .step 3 .go, .step 3 .go] : List Label)

/-- `CheckLease` reads the Lease; before its own call fails, the loop's
heartbeat returns and records a later expiry; then the first expiry passes. -/
def overlapRun : List Label :=
  keepAliveRun ++ ([.tick 10000000000,
    .call (.checkLease smallHandle), .step 4 .go, .step 4 .go, .step 4 .go,
    .step 3 .timer, .step 3 (.heartbeat (.ok (60 * second))), .step 3 .go, .step 3 .go,
    .tick 30000000000, .step 4 (.heartbeat (.error .other)), .step 4 .go, .step 4 .go] :
    List Label)

/-- **A Lease declared expired too early.** At 40 seconds `CheckLease` declares
the Lease lost by its copy, which expired at 30, although the expiry of 60 has
come back and is recorded. -/
theorem expired_too_early : ∃ s t, (machine oneSlot).Reach Machine.any s ∧
    s.next oneSlot (.step 4 .go) = some t ∧
    .lost 2 (.leaseExpired "l" (30 * second)) ∈ t.trace.drop s.trace.length ∧
    s.trace.filterMap Obs.answered? = [(2, 60 * second)] ∧
    s.impl.expiry 2 = 60 * second ∧ s.impl.now = 40 * second := by
  have hs := Machine.reach_exec allocateStart_init
    (show ((machine oneSlot).exec allocateStart overlapRun).isSome from rfl)
  exact ⟨_, _, hs, rfl, by decide, rfl, rfl, rfl⟩

/-- A careful run in which the loop finds the expiry of its own last heartbeat
passed. -/
def expiryRun : List Label :=
  keepAliveRun ++ ([.tick 10000000000, .step 3 .timer, .step 3 (.heartbeat (.ok (60 * second))),
    .step 3 .go, .step 3 .go, .step 3 .go, .tick 60000000000, .step 3 .go] : List Label)

theorem expired_in_time_loop : ∃ s t, (machine oneSlot).Reach Careful s ∧
    s.next oneSlot (.step 3 .go) = some t ∧
    .lost 2 (.leaseExpired "l" (60 * second)) ∈ t.trace.drop s.trace.length ∧
    .heartbeatAnswered 2 (60 * second) ∈ s.trace ∧ 60 * second ≤ s.impl.now := by
  have hs := Machine.reach_run Careful expiryRun allocateStart_init rfl
  refine ⟨_, _, hs, rfl, by decide, by decide, ?_⟩
  refine expired_in_time hs (l := .step 3 .go) (by decide) rfl
    (?_ : Obs.lost 2 (.leaseExpired "l" (60 * second)) ∈ _) _ ?_
  · decide
  · decide

end FlintlockRunner.Scheduler

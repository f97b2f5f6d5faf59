import FlintlockRunner.Scheduler.Step

/-!
# What one step can do

Three relations take a step apart: `Runs` is the section it runs on the shared
state, `Leads` the points it goes on to and the functions it calls or starts,
and `Says` what it lets be seen. Each lists every possibility, with what the
step has checked. **`step_spec`**: every step of every function stays within
the three.

A fact about all steps is then a case analysis of one of these relations, and
does not look at the step functions again. What the relations leave out is that
a step does pass something on; `Move` in `Books.lean`, and `Renewal` and
`Writes` in `Expiry.lean`, say that for what they are about.
-/

namespace FlintlockRunner.Scheduler

open List Next

section Relations

variable (c : Settings) (s : Impl) (a : Answer) (q : Request) (h : Handle) (mine : Handle → Bool)

/-! ## The section -/

/-- The Handle whose Allocation a function ends. -/
def Frame.ends? : Frame → Option Handle
  | .release h _ | .endAllocation h _ | .retain h _ | .leaseLost h _ _ => some h
  | _ => none

/-- What a step of a function does to the shared state. -/
inductive Runs : Frame → Impl → Prop
  | reads (f : Frame) : Runs f s
  | grant (warm : Int) : Runs (.reserve (.granting warm)) (s.grant c warm).1
  | releaseReservation (r : Nat) : Runs (.releaseReservation r) (s.releaseReservation r)
  | enterProfile (q : Request) : Runs (.allocate q .entering) (s.enterProfile q.p).1
  | newHandle (q : Request) (claim : Claim) (lease : Lease) (claimedAt : Time)
      (placement : Placement) (alloc : Allocation) :
      Runs (.allocate q (.numbering claim lease claimedAt placement)) (s.newHandle alloc).1
  | convert (q : Request) (h : Handle) : Runs (.allocate q (.converting h)) (s.convert q.r h).1
  | installHeartbeat (q : Request) (h : Handle) :
      Runs (.allocate q (.installing h)) (s.installHeartbeat h)
  | spawn (f : Frame) (hopen : s.bgClosed = false) : Runs f { s with wg := s.wg + 1 }
  | unspawned (q : Request) (h : Handle) (hclosed : s.bgClosed = true) :
      Runs (.allocate q (.spawning h)) (s.cancelHeartbeat h)
  | leaveProfile (q : Request) (e : AllocateError) :
      Runs (.allocate q (.leaving e)) (s.leaveProfile q.p)
  | finish {f : Frame} {h : Handle} (hf : f.ends? = some h) : Runs f (s.finish h).1
  | stopHeartbeat {f : Frame} {h : Handle} (hf : h ∈ f.handles) : Runs f (s.stopHeartbeat h)
  | loopRenews (h : Handle) (interval : Duration) (attempt : Nat) (lease : Lease) (e : Time) :
      Runs (.heartbeatLoop h interval (.settling attempt lease (.ok e)))
        (s.setLease h (lease.renewed e s.now))
  | checkRenews (h : Handle) (lease : Lease) (e : Time) :
      Runs (.checkLease h (.settling lease (.ok e))) (s.setLease h (lease.renewed e s.now))
  | cancelHeartbeat (h : Handle) : Runs (.heartbeatExit h) (s.cancelHeartbeat h)
  | markLeaseGone (h : Handle) (cause : Cause) :
      Runs (.leaseLost h cause .marking) (s.markLeaseGone h)
  | lostFails (h : Handle) (cause : Cause) : Runs (.leaseLost h cause .failing) (s.fail h cause)
  | agentFails (h : Handle) (failures : Nat) :
      Runs (.agentProbeLoop h (.failing failures))
        (s.fail h (.agentUnreachable h.alloc.lease.id failures))
  | hostFails (name : String) (h : Handle) (todo : List Handle) :
      Runs (.hostUnhealthy name (.failing h todo)) (s.fail h (.hostUnhealthy name))
  | abortFails (h : Handle) (todo : List Handle) :
      Runs (.abortRunning (.failing h todo)) (s.fail h .shutdown)
  | recordProbe (name : String) (ok : Bool) :
      Runs (.recordProbe name ok) (s.recordProbe c.hostUnhealthyThreshold name ok).1
  | setState (pc : RunPc) (st : RunState) : Runs (.run pc) (s.setState st)
  | clearReservations : Runs (.run .clearing) s.clearReservations
  | drained : Runs (.run .draining) s.drained.1
  | closeBackground : Runs (.run .closing) s.closeBackground
  | cancelBackground : Runs (.run .cancelling) { s with bgCancelled := true }
  | wgDone : Runs .wgDone { s with wg := s.wg - 1 }

/-! ## Where it goes on -/

/-- `Reserve`. -/
inductive ReservePc.Leads : ReservePc → ReservePc → Prop
  | called : Leads .called .checkingState
  | running (hrun : s.state = .running) : Leads .checkingState .checkingContact
  | contacted : Leads .checkingContact .counting
  | warm (n : Int) : Leads .counting (.granting n)

/-- `Allocate` past its checks. -/
inductive AllocatePc.Leads : AllocatePc → AllocatePc → Prop
  | entered : Leads .entering (.claiming 0)
  | full (hmax : 0 < q.p.maxConcurrency)
      (hfull : q.p.maxConcurrency ≤ (s.profileUse q.p.name : Int)) :
      Leads .entering (.limited s.profileFree)
  | freed {free : Nat} (hfree : s.freeClosed free) : Leads (.limited free) .entering
  | claimed (attempt : Nat) (claim : Claim) : Leads (.claiming attempt) (.checking claim)
  | refused (attempt : Nat) (e : AllocateError) : Leads (.claiming attempt) (.leaving e)
  | failed (attempt : Nat) (backoff : Time) : Leads (.claiming attempt) (.retrying attempt backoff)
  | retry (attempt : Nat) (backoff : Time) :
      Leads (.retrying attempt backoff) (.claiming (attempt + 1))
  | gaveUp (attempt : Nat) (backoff : Time) (e : AllocateError) :
      Leads (.retrying attempt backoff) (.leaving e)
  | checked (claim : Claim) (lease : Lease) (claimedAt : Time) (hid : lease.id = claim.leaseID) :
      Leads (.checking claim) (.placing claim lease claimedAt)
  | cancelled (claim : Claim) (lease : Lease) (e : AllocateError)
      (hid : lease.id = claim.leaseID) : Leads (.checking claim) (.abandoning lease e)
  | placed (claim : Claim) (lease : Lease) (claimedAt : Time) (placement : Placement) :
      Leads (.placing claim lease claimedAt) (.numbering claim lease claimedAt placement)
  | misplaced (claim : Claim) (lease : Lease) (claimedAt : Time) (e : AllocateError) :
      Leads (.placing claim lease claimedAt) (.abandoning lease e)
  | numbered (claim : Claim) (lease : Lease) (claimedAt : Time) (placement : Placement)
      (alloc : Allocation) (hlease : alloc.lease = lease) :
      Leads (.numbering claim lease claimedAt placement) (.converting ⟨s.nextID + 1, alloc⟩)
  | converted (h : Handle) : Leads (.converting h) (.installing h)
  | late (h : Handle) (e : AllocateError) : Leads (.converting h) (.abandoning h.alloc.lease e)
  | installed (h : Handle) : Leads (.installing h) (.spawning h)
  | spawned (h : Handle) : Leads (.spawning h) (.probing h)
  | unspawned (h : Handle) : Leads (.spawning h) (.returning h)
  | probed (h : Handle) : Leads (.probing h) (.returning h)
  | abandoned (lease : Lease) (e : AllocateError) : Leads (.abandoning lease e) (.leaving e)

/-- `Release` and `endAllocation`, from the end of the Allocation on. -/
inductive EndPc.Leads : EndPc → EndPc → Prop
  | finished : Leads .finishing .stopping
  | stopped : Leads .stopping .checkingGone
  | held (hgone : s.leaseIsGone h = false) : Leads .checkingGone .releasing

/-- `Retain`. -/
inductive RetainPc.Leads : RetainPc → RetainPc → Prop
  | keep : Leads .called .finishing
  | finished : Leads .finishing .checkingGone
  | missed : Leads .finishing .stoppingOnly
  | gone (hgone : s.leaseIsGone h = true) : Leads .checkingGone .stoppingOnly
  | held (hgone : s.leaseIsGone h = false) : Leads .checkingGone .starting
  | closed : Leads .starting .stopping
  | stopped : Leads .stopping .releasing

/-- `retainThenRelease`. -/
inductive KeepPc.Leads : KeepPc → KeepPc → Prop
  | kept (keep : Time) : Leads (.waiting keep) .stopping
  | stopped : Leads .stopping .checkingGone
  | held (hgone : s.leaseIsGone h = false) : Leads .checkingGone .releasing

/-- `releaseLease`. -/
inductive LadderPc.Leads : LadderPc → LadderPc → Prop
  | failed (attempt : Nat) (backoff : Time) : Leads (.calling attempt) (.backingOff attempt backoff)
  | retry (attempt : Nat) (backoff : Time) :
      Leads (.backingOff attempt backoff) (.calling (attempt + 1))

/-- `heartbeatLoop`. -/
inductive LoopPc.Leads : LoopPc → LoopPc → Prop
  | live (attempt : Nat) (hctx : s.heartbeatCtxDone h = false) :
      Leads (.top attempt) (.reading attempt)
  | read (attempt : Nat) : Leads (.reading attempt) (.comparing attempt (s.lease h))
  | good (attempt : Nat) (lease : Lease) (timer : Time) :
      Leads (.comparing attempt lease) (.waiting attempt lease timer)
  | fired (attempt : Nat) (lease : Lease) (timer : Time) :
      Leads (.waiting attempt lease timer) (.calling attempt lease)
  | answered (attempt : Nat) (lease : Lease) (r : Except CallError Time)
      (ha : a = .heartbeat r) : Leads (.calling attempt lease) (.answered attempt lease r)
  | settle (attempt : Nat) (lease : Lease) (r : Except CallError Time)
      (hctx : s.heartbeatCtxDone h = false) :
      Leads (.answered attempt lease r) (.settling attempt lease r)
  | renewed (attempt : Nat) (lease : Lease) (e : Time) :
      Leads (.settling attempt lease (.ok e)) (.top 0)
  | failed (attempt : Nat) (lease : Lease) :
      Leads (.settling attempt lease (.error .other)) (.top (attempt + 1))

/-- `CheckLease`. -/
inductive CheckPc.Leads : CheckPc → CheckPc → Prop
  | live : Leads .called .holding
  | held (hhold : s.holds h = true) : Leads .holding .reading
  | read : Leads .reading (.calling (s.lease h))
  | answered (lease : Lease) (r : Except CallError Time) (ha : a = .heartbeat r) :
      Leads (.calling lease) (.answered lease r)
  | settle (lease : Lease) (r : Except CallError Time) (hhold : s.holds h = true) :
      Leads (.answered lease r) (.settling lease r)
  | gone (lease : Lease) :
      Leads (.settling lease (.error .notFound)) (.declaring (.leaseGone lease.id))
  | expired (lease : Lease) (hle : lease.expiresAt ≤ s.now) :
      Leads (.settling lease (.error .other))
        (.declaring (.leaseExpired lease.id lease.expiresAt))

/-- `leaseLost`. -/
inductive LostPc.Leads : LostPc → LostPc → Prop
  | marked : Leads .marking .failing
  | failed : Leads .failing .finishing

/-- `agentProbeLoop`. -/
inductive ProbePc.Leads : ProbePc → ProbePc → Prop
  | started (timer : Time) : Leads .starting (.waiting 0 timer)
  | fired (failures : Nat) (timer : Time) : Leads (.waiting failures timer) (.holding failures)
  | held (failures : Nat) : Leads (.holding failures) (.calling failures)
  | answered (failures : Nat) (ok : Bool) : Leads (.calling failures) (.answered failures ok)
  | again (failures failures' : Nat) (ok : Bool) (timer : Time) :
      Leads (.answered failures ok) (.waiting failures' timer)
  | unreachable (failures : Nat) (hhold : s.holds h = true) :
      Leads (.answered failures false) (.failing (failures + 1))

/-- `hostUnhealthy` and `abortRunning`. -/
inductive AbortPc.Leads : AbortPc → AbortPc → Prop
  | snapshot {hs : List Handle} (hperm : hs.Perm s.liveHandles) : Leads .snapshot (.next hs)
  | mine {h : Handle} (todo : List Handle) (hmine : mine h = true) :
      Leads (.next (h :: todo)) (.failing h todo)
  | other {h : Handle} (todo : List Handle) (hmine : mine h = false) :
      Leads (.next (h :: todo)) (.next todo)
  | failed (h : Handle) (todo : List Handle) : Leads (.failing h todo) (.next todo)

/-- The frames a step leaves: a later point of the same function, a function it
calls, or one it starts in a goroutine. Which point of `Run` follows which is
`RunStep`. -/
inductive Leads : Frame → Frame → Prop
  | reserve {pc pc' : ReservePc} (hpc : pc.Leads s pc') : Leads (.reserve pc) (.reserve pc')
  | allocateCalled (r : Nat) (job : JobInfo) (p : Profile) (hrun : s.state = .running) :
      Leads (.allocateCalled (some r) job (some p))
        (.allocate ⟨r, job, p, s.now + c.allocationTimeout⟩ .entering)
  | allocate (q : Request) {pc pc' : AllocatePc} (hpc : pc.Leads s q pc') :
      Leads (.allocate q pc) (.allocate q pc')
  | heartbeatStart (q : Request) (h : Handle) :
      Leads (.allocate q (.spawning h)) (.heartbeatStart h)
  | heartbeatExit (q : Request) (h : Handle) : Leads (.allocate q (.spawning h)) (.heartbeatExit h)
  | agentProbe (q : Request) (h : Handle) :
      Leads (.allocate q (.probing h)) (.agentProbeLoop h .starting)
  | abandon (q : Request) (lease : Lease) (e : AllocateError) :
      Leads (.allocate q (.abandoning lease e)) (.releaseLease lease (.calling 0))
  | release (h : Handle) {pc pc' : EndPc} (hpc : pc.Leads s h pc') :
      Leads (.release h pc) (.release h pc')
  | releaseMissed (h : Handle) : Leads (.release h .finishing) (.release h .stoppingOnly)
  | releaseLadder (h : Handle) :
      Leads (.release h .releasing) (.releaseLease (s.lease h) (.calling 0))
  | endAllocation (h : Handle) {pc pc' : EndPc} (hpc : pc.Leads s h pc') :
      Leads (.endAllocation h pc) (.endAllocation h pc')
  | endLadder (h : Handle) :
      Leads (.endAllocation h .releasing) (.releaseLease (s.lease h) (.calling 0))
  | retain (h : Handle) {pc pc' : RetainPc} (hpc : pc.Leads s h pc') :
      Leads (.retain h pc) (.retain h pc')
  | notKept (h : Handle) : Leads (.retain h .called) (.release h .finishing)
  | keep (h : Handle) (timer : Time) :
      Leads (.retain h .starting) (.retainThenRelease h (.waiting timer))
  | retainLadder (h : Handle) :
      Leads (.retain h .releasing) (.releaseLease (s.lease h) (.calling 0))
  | retainThenRelease (h : Handle) {pc pc' : KeepPc} (hpc : pc.Leads s h pc') :
      Leads (.retainThenRelease h pc) (.retainThenRelease h pc')
  | keptLadder (h : Handle) :
      Leads (.retainThenRelease h .releasing) (.releaseLease (s.lease h) (.calling 0))
  | releaseLease (lease : Lease) {pc pc' : LadderPc} (hpc : pc.Leads pc') :
      Leads (.releaseLease lease pc) (.releaseLease lease pc')
  | heartbeatBegins (h : Handle) (interval : Duration) :
      Leads (.heartbeatStart h) (.heartbeatLoop h interval (.top 0))
  | heartbeatLoop (h : Handle) (interval : Duration) {pc pc' : LoopPc} (hpc : pc.Leads s a h pc') :
      Leads (.heartbeatLoop h interval pc) (.heartbeatLoop h interval pc')
  | loopExpired (h : Handle) (interval : Duration) (attempt : Nat) (lease : Lease) :
      Leads (.heartbeatLoop h interval (.comparing attempt lease))
        (.leaseLost h (.leaseExpired lease.id lease.expiresAt) .marking)
  | loopGone (h : Handle) (interval : Duration) (attempt : Nat) (lease : Lease) :
      Leads (.heartbeatLoop h interval (.settling attempt lease (.error .notFound)))
        (.leaseLost h (.leaseGone lease.id) .marking)
  | checkLease (h : Handle) {pc pc' : CheckPc} (hpc : pc.Leads s a h pc') :
      Leads (.checkLease h pc) (.checkLease h pc')
  | checkLost (h : Handle) (cause : Cause) :
      Leads (.checkLease h (.declaring cause)) (.leaseLost h cause .marking)
  | leaseLost (h : Handle) (cause : Cause) {pc pc' : LostPc} (hpc : pc.Leads pc') :
      Leads (.leaseLost h cause pc) (.leaseLost h cause pc')
  | agentProbeLoop (h : Handle) {pc pc' : ProbePc} (hpc : pc.Leads s h pc') :
      Leads (.agentProbeLoop h pc) (.agentProbeLoop h pc')
  | agentEnds (h : Handle) (failures : Nat) :
      Leads (.agentProbeLoop h (.failing failures)) (.endAllocation h .finishing)
  | down (name : String) (ok : Bool) : Leads (.recordProbe name ok) (.hostUnhealthy name .snapshot)
  | hostUnhealthy (name : String) {pc pc' : AbortPc}
      (hpc : pc.Leads s (fun h => h.alloc.placement.host = name) pc') :
      Leads (.hostUnhealthy name pc) (.hostUnhealthy name pc')
  | hostEnds (name : String) (h : Handle) (todo : List Handle) :
      Leads (.hostUnhealthy name (.failing h todo)) (.endAllocation h .finishing)
  | abortRunning {pc pc' : AbortPc} (hpc : pc.Leads s (fun _ => true) pc') :
      Leads (.abortRunning pc) (.abortRunning pc')
  | abortEnds (h : Handle) (todo : List Handle) :
      Leads (.abortRunning (.failing h todo)) (.endAllocation h .finishing)
  | run (pc pc' : RunPc) : Leads (.run pc) (.run pc')
  | abort (ch : Nat) (timer : Time) : Leads (.run (.awaiting ch timer)) (.abortRunning .snapshot)
  | goroutine (f : Frame) : Leads f .wgDone

/-! ## What is seen -/

/-- What a step of a function lets be seen, and on which answer. -/
inductive Says : Frame → Answer → Obs → Prop
  | granted (warm : Int) (a : Answer) (r : Nat) : Says (.reserve (.granting warm)) a (.granted r)
  | refused (pc : ReservePc) (a : Answer) (reason : Option RefusalReason) :
      Says (.reserve pc) a (.refused reason)
  | allocateRefused (r : Option Nat) (job : JobInfo) (p : Option Profile) (a : Answer)
      (e : AllocateError) : Says (.allocateCalled r job p) a (.allocateFailed e)
  | allocateFailed (q : Request) (pc : AllocatePc) (a : Answer) (e : AllocateError) :
      Says (.allocate q pc) a (.allocateFailed e)
  | claimed (q : Request) (attempt : Nat) (claim : Claim) (ctxDone : Bool) :
      Says (.allocate q (.claiming attempt)) (.claimVM (.ok claim) ctxDone)
        (.claimed claim.leaseID)
  | created (q : Request) (claim : Claim) (lease : Lease) (claimedAt : Time)
      (placement : Placement) (a : Answer) (alloc : Allocation) (hlease : alloc.lease = lease) :
      Says (.allocate q (.numbering claim lease claimedAt placement)) a
        (.created ⟨s.nextID + 1, alloc⟩)
  | allocated (q : Request) (h : Handle) (a : Answer) :
      Says (.allocate q (.returning h)) a (.allocated h)
  | abandoned (q : Request) (lease : Lease) (e : AllocateError) (a : Answer) :
      Says (.allocate q (.abandoning lease e)) a (.releaseStarted lease.id)
  | released (h : Handle) (a : Answer) :
      Says (.release h .releasing) a (.releaseStarted (s.lease h).id)
  | ended (h : Handle) (a : Answer) :
      Says (.endAllocation h .releasing) a (.releaseStarted (s.lease h).id)
  | retained (h : Handle) (a : Answer) :
      Says (.retain h .releasing) a (.releaseStarted (s.lease h).id)
  | kept (h : Handle) (a : Answer) :
      Says (.retainThenRelease h .releasing) a (.releaseStarted (s.lease h).id)
  | ladderReleased (lease : Lease) (attempt : Nat) :
      Says (.releaseLease lease (.calling attempt)) (.releaseVM (.ok ()))
        (.releaseEnded lease.id .released)
  | ladderGone (lease : Lease) (attempt : Nat) :
      Says (.releaseLease lease (.calling attempt)) (.releaseVM (.error .notFound))
        (.releaseEnded lease.id .alreadyGone)
  | ladderUsedUp (lease : Lease) (attempt : Nat) (a : Answer) :
      Says (.releaseLease lease (.calling attempt)) a (.releaseEnded lease.id .retriesUsedUp)
  | ladderCutShort (lease : Lease) (attempt : Nat) (backoff : Time) (a : Answer) :
      Says (.releaseLease lease (.backingOff attempt backoff)) a
        (.releaseEnded lease.id .cutShort)
  | loopAnswered (h : Handle) (interval : Duration) (attempt : Nat) (lease : Lease) (e : Time) :
      Says (.heartbeatLoop h interval (.calling attempt lease)) (.heartbeat (.ok e))
        (.heartbeatAnswered h.id e)
  | loopExpired (h : Handle) (interval : Duration) (attempt : Nat) (lease : Lease) (a : Answer)
      (hle : lease.expiresAt ≤ s.now) :
      Says (.heartbeatLoop h interval (.comparing attempt lease)) a
        (.lost h.id (.leaseExpired lease.id lease.expiresAt))
  | loopGone (h : Handle) (interval : Duration) (attempt : Nat) (lease : Lease) (a : Answer) :
      Says (.heartbeatLoop h interval (.settling attempt lease (.error .notFound))) a
        (.lost h.id (.leaseGone lease.id))
  | checkAnswered (h : Handle) (lease : Lease) (e : Time) :
      Says (.checkLease h (.calling lease)) (.heartbeat (.ok e)) (.heartbeatAnswered h.id e)
  | checkLost (h : Handle) (cause : Cause) (a : Answer) (hdone : s.done h = false) :
      Says (.checkLease h (.declaring cause)) a (.lost h.id cause)

end Relations

/-! ## Every step -/

/-- The frames a step leaves. -/
def Next.all (n : Next) : List Frame := n.frames ++ n.spawned.flatten

variable {c : Settings} {s s' : Impl} {n : Next} {a : Answer} {f : Frame}

/-- A step within the three relations. -/
structure Stepped (c : Settings) (s : Impl) (f : Frame) (a : Answer) (n : Next) : Prop where
  runs : Runs c s f n.impl
  leads : ∀ g ∈ n.all, Leads c s a f g
  seen : ∀ o ∈ n.obs, Says s f a o

namespace Stepped

theorem goto {g : Frame} (hn : Next.goto s' [g] = some n) (hr : Runs c s f s')
    (hl : Leads c s a f g) : Stepped c s f a n := by
  cases hn
  exact ⟨hr, forall_mem_singleton.mpr hl, forall_mem_nil _⟩

theorem ret (hn : Next.ret s' = some n) (hr : Runs c s f s') : Stepped c s f a n := by
  cases hn
  exact ⟨hr, forall_mem_nil _, forall_mem_nil _⟩

theorem retObs {o : Obs} (hn : Next.retObs s' o = some n) (hr : Runs c s f s')
    (ho : Says s f a o) : Stepped c s f a n := by
  cases hn
  exact ⟨hr, forall_mem_nil _, forall_mem_singleton.mpr ho⟩

theorem one {g : Frame} {o : Obs} (hr : Runs c s f s') (hl : Leads c s a f g)
    (ho : Says s f a o) : Stepped c s f a { impl := s', frames := [g], obs := [o] } :=
  ⟨hr, forall_mem_singleton.mpr hl, forall_mem_singleton.mpr ho⟩

theorem starts {g : Frame} {fs : List Frame} (hopen : s.bgClosed = false)
    (hl : Leads c s a f g) (hfs : ∀ g' ∈ fs, Leads c s a f g') :
    Stepped c s f a
      { impl := { s with wg := s.wg + 1 }, frames := [g], spawned := [fs ++ [.wgDone]] } := by
  refine ⟨.spawn f hopen, forall_mem_append.mpr ⟨forall_mem_singleton.mpr hl, ?_⟩,
    forall_mem_nil _⟩
  rw [flatten_singleton]
  exact forall_mem_append.mpr ⟨hfs, forall_mem_singleton.mpr (.goroutine f)⟩

end Stepped

/-- `inBackground` counts the goroutine, or finds the door closed. -/
theorem Impl.inBackground_spec (s : Impl) :
    s.bgClosed = false ∧ s.inBackground = ({ s with wg := s.wg + 1 }, true) ∨
    s.bgClosed = true ∧ s.inBackground = (s, false) := by
  unfold Impl.inBackground
  cases hbg : s.bgClosed with
  | false => exact .inl ⟨rfl, if_neg Bool.false_ne_true⟩
  | true => exact .inr ⟨rfl, if_pos rfl⟩

theorem reserve_spec {pc : ReservePc} (h : stepReserve c s pc a = some n) :
    Stepped c s (.reserve pc) a n := by
  unfold stepReserve at h
  split at h
  -- called
  · split at h
    · exact .ret h (.reads _)
    · exact .goto h (.reads _) (.reserve .called)
  -- checkingState
  · split at h
    · exact .retObs h (.reads _) (.refused _ _ _)
    · exact .ret h (.reads _)
    · exact .ret h (.reads _)
    · exact .goto h (.reads _) (.reserve (.running ‹_›))
  -- checkingContact
  · split at h
    · exact .goto h (.reads _) (.reserve .contacted)
    · exact .retObs h (.reads _) (.refused _ _ _)
  -- counting
  · exact .goto h (.reads _) (.reserve (.warm _))
  -- granting
  · rename_i warm
    have hr : Runs c s (.reserve (.granting warm)) (s.grant c warm).1 := .grant warm
    split at h
    all_goals
      rename_i heq
      rw [heq] at hr
    · exact .retObs h hr (.granted _ _ _)
    · exact .retObs h hr (.refused _ _ _)
  · cases h

theorem allocateCalled_spec {r : Option Nat} {job : JobInfo} {p : Option Profile}
    (h : stepAllocateCalled c s r job p a = some n) :
    Stepped c s (.allocateCalled r job p) a n := by
  unfold stepAllocateCalled at h
  split at h
  · split at h
    · exact .retObs h (.reads _) (.allocateRefused _ _ _ _ _)
    · exact .retObs h (.reads _) (.allocateRefused _ _ _ _ _)
    · split at h
      · exact .retObs h (.reads _) (.allocateRefused _ _ _ _ _)
      · exact .retObs h (.reads _) (.allocateRefused _ _ _ _ _)
      · exact .retObs h (.reads _) (.allocateRefused _ _ _ _ _)
      · exact .goto h (.reads _) (.allocateCalled _ _ _ ‹_›)
  · cases h

/-- A release starts the ladder, in a goroutine or inline, and the caller goes
on with `fs`. -/
theorem releaseInBackground_stepped {lease : Lease} {fs : List Frame}
    (hn : releaseInBackground s lease fs = some n)
    (hladder : Leads c s a f (.releaseLease lease (.calling 0)))
    (hfs : ∀ g ∈ fs, Leads c s a f g) (ho : Says s f a (.releaseStarted lease.id)) :
    Stepped c s f a n := by
  have hobs : ∀ o ∈ [Obs.releaseStarted lease.id], Says s f a o :=
    forall_mem_singleton.mpr ho
  unfold releaseInBackground at hn
  rcases s.inBackground_spec with ⟨hbg, heq⟩ | ⟨hbg, heq⟩
  · rw [heq] at hn
    cases hn
    exact ⟨.spawn _ hbg, forall_mem_append.mpr ⟨hfs, forall_mem_cons.mpr
      ⟨hladder, forall_mem_singleton.mpr (.goroutine _)⟩⟩, hobs⟩
  · rw [heq] at hn
    cases hn
    exact ⟨.reads _, forall_mem_append.mpr
      ⟨forall_mem_cons.mpr ⟨hladder, hfs⟩, forall_mem_nil _⟩, hobs⟩

theorem Impl.enterProfile_refused {p : Profile} {free : Nat}
    (h : s.enterProfile p = (s', false, free)) :
    0 < p.maxConcurrency ∧ p.maxConcurrency ≤ (s.profileUse p.name : Int) ∧
      free = s.profileFree := by
  unfold Impl.enterProfile at h
  split at h
  · rename_i hfull
    cases h
    exact ⟨hfull.1, hfull.2, rfl⟩
  · cases h

theorem allocate_spec {q : Request} {pc : AllocatePc} (h : stepAllocate c s q pc a = some n) :
    Stepped c s (.allocate q pc) a n := by
  unfold stepAllocate at h
  split at h
  -- entering
  · have hr : Runs c s (.allocate q .entering) (s.enterProfile q.p).1 := .enterProfile q
    split at h
    all_goals
      rename_i heq
      rw [heq] at hr
    · exact .goto h hr (.allocate q .entered)
    · obtain ⟨hmax, hfull, rfl⟩ := Impl.enterProfile_refused heq
      exact .goto h hr (.allocate q (.full hmax hfull))
  -- limited
  · split at h
    · exact .goto h (.reads _) (.allocate q (.freed ‹_›))
    · cases h
  · exact .retObs h (.reads _) (.allocateFailed _ _ _ _)
  · split at h
    · exact .retObs h (.reads _) (.allocateFailed _ _ _ _)
    · cases h
  -- claiming
  · split at h
    · cases h
      exact .one (.reads _) (.allocate q (.claimed _ _)) (.claimed _ _ _ _)
    · exact .goto h (.reads _) (.allocate q (.refused _ _))
    · exact .goto h (.reads _) (.allocate q (.failed _ _))
  -- retrying
  · split at h
    · exact .goto h (.reads _) (.allocate q (.retry _ _))
    · cases h
  · exact .goto h (.reads _) (.allocate q (.retry _ _))
  · split at h
    · exact .goto h (.reads _) (.allocate q (.gaveUp _ _ _))
    · cases h
  · exact .goto h (.reads _) (.allocate q (.gaveUp _ _ _))
  -- checking
  · simp only at h
    split at h
    · exact .goto h (.reads _) (.allocate q (.cancelled _ _ _ rfl))
    · exact .goto h (.reads _) (.allocate q (.checked _ _ _ rfl))
  -- placing
  · obtain ⟨r, -, hr⟩ := Option.bind_eq_some_iff.mp h
    cases r with
    | error e => exact .goto hr (.reads _) (.allocate q (.misplaced _ _ _ _))
    | ok placement => exact .goto hr (.reads _) (.allocate q (.placed _ _ _ _))
  -- numbering
  · cases h
    exact .one (.newHandle q _ _ _ _ _) (.allocate q (.numbered _ _ _ _ _ rfl))
      (.created q _ _ _ _ _ _ rfl)
  -- converting
  · rename_i hd
    have hr : Runs c s (.allocate q (.converting hd)) (s.convert q.r hd).1 := .convert q hd
    split at h
    all_goals
      rename_i heq
      rw [heq] at hr
    · exact .goto h hr (.allocate q (.converted hd))
    · exact .goto h hr (.allocate q (.late hd _))
  -- installing
  · exact .goto h (.installHeartbeat q _) (.allocate q (.installed _))
  -- spawning
  · rename_i hd
    rcases s.inBackground_spec with ⟨hbg, heq⟩ | ⟨hbg, heq⟩
    · rw [heq] at h
      cases h
      exact .starts hbg (.allocate q (.spawned hd)) (forall_mem_cons.mpr
        ⟨.heartbeatStart q hd, forall_mem_singleton.mpr (.heartbeatExit q hd)⟩)
    · rw [heq] at h
      exact .goto h (.unspawned q hd hbg) (.allocate q (.unspawned hd))
  -- probing
  · rename_i hd
    split at h
    · rcases s.inBackground_spec with ⟨hbg, heq⟩ | ⟨hbg, heq⟩
      · rw [heq] at h
        cases h
        exact .starts hbg (.allocate q (.probed hd))
          (forall_mem_singleton.mpr (.agentProbe q hd))
      · rw [heq] at h
        exact .goto h (.reads _) (.allocate q (.probed hd))
    · exact .goto h (.reads _) (.allocate q (.probed hd))
  -- returning
  · exact .retObs h (.reads _) (.allocated _ _ _)
  -- abandoning
  · exact releaseInBackground_stepped h (.abandon q _ _)
      (forall_mem_singleton.mpr (.allocate q (.abandoned _ _))) (.abandoned q _ _ _)
  -- leaving
  · exact .retObs h (.leaveProfile q _) (.allocateFailed _ _ _ _)
  · cases h

variable {h : Handle}

theorem end_spec {frame : EndPc → Frame} {miss : List Frame}
    (hhandle : ∀ pc, h ∈ (frame pc).handles) (hends : ∀ pc, (frame pc).ends? = some h)
    (hleads : ∀ {pc pc' : EndPc}, pc.Leads s h pc' → Leads c s a (frame pc) (frame pc'))
    (hmiss : ∀ g ∈ miss, Leads c s a (frame .finishing) g)
    (hladder : Leads c s a (frame .releasing) (.releaseLease (s.lease h) (.calling 0)))
    (hseen : Says s (frame .releasing) a (.releaseStarted (s.lease h).id)) {pc : EndPc}
    (hn : stepEnd frame miss s h pc a = some n) : Stepped c s (frame pc) a n := by
  unfold stepEnd at hn
  split at hn
  -- finishing
  · have hr : Runs c s (frame .finishing) (s.finish h).1 := .finish (hends _)
    split at hn
    all_goals
      rename_i heq
      rw [heq] at hr
    · exact .goto hn hr (hleads .finished)
    · cases hn
      exact ⟨hr, forall_mem_append.mpr ⟨hmiss, forall_mem_nil _⟩, forall_mem_nil _⟩
  -- stoppingOnly, stopping
  · exact .ret hn (.stopHeartbeat (hhandle _))
  · exact .goto hn (.stopHeartbeat (hhandle _)) (hleads .stopped)
  -- checkingGone
  · split at hn
    · exact .ret hn (.reads _)
    · rename_i hgone
      exact .goto hn (.reads _) (hleads (.held (Bool.not_eq_true _ ▸ hgone)))
  -- releasing
  · exact releaseInBackground_stepped hn hladder (forall_mem_nil _) hseen
  · cases hn

theorem retain_spec {pc : RetainPc} (hn : stepRetain c s h pc a = some n) :
    Stepped c s (.retain h pc) a n := by
  have hh : ∀ pc, h ∈ (Frame.retain h pc).handles := fun _ => mem_singleton_self h
  unfold stepRetain at hn
  split at hn
  -- called
  · split at hn
    · exact .goto hn (.reads _) (.retain h .keep)
    · exact .goto hn (.reads _) (.notKept h)
  -- finishing
  · have hr : Runs c s (.retain h .finishing) (s.finish h).1 := .finish rfl
    split at hn
    all_goals
      rename_i heq
      rw [heq] at hr
    · exact .goto hn hr (.retain h .finished)
    · exact .goto hn hr (.retain h .missed)
  -- stoppingOnly
  · exact .ret hn (.stopHeartbeat (hh _))
  -- checkingGone
  · split at hn
    · exact .goto hn (.reads _) (.retain h (.gone ‹_›))
    · rename_i hgone
      exact .goto hn (.reads _) (.retain h (.held (Bool.not_eq_true _ ▸ hgone)))
  -- starting
  · rcases s.inBackground_spec with ⟨hbg, heq⟩ | ⟨hbg, heq⟩
    · rw [heq] at hn
      cases hn
      exact ⟨.spawn _ hbg, forall_mem_cons.mpr
        ⟨.keep h _, forall_mem_singleton.mpr (.goroutine _)⟩, forall_mem_nil _⟩
    · rw [heq] at hn
      exact .goto hn (.reads _) (.retain h .closed)
  -- stopping
  · exact .goto hn (.stopHeartbeat (hh _)) (.retain h .stopped)
  -- releasing
  · cases hn
    exact .one (.reads _) (.retainLadder h) (.retained h _)
  · cases hn

theorem retainThenRelease_spec {pc : KeepPc} (hn : stepRetainThenRelease s h pc a = some n) :
    Stepped c s (.retainThenRelease h pc) a n := by
  unfold stepRetainThenRelease at hn
  split at hn
  -- waiting
  · split at hn
    · exact .goto hn (.reads _) (.retainThenRelease h (.kept _))
    · cases hn
  · split at hn
    · exact .goto hn (.reads _) (.retainThenRelease h (.kept _))
    · cases hn
  -- stopping
  · exact .goto hn (.stopHeartbeat (mem_singleton_self h)) (.retainThenRelease h .stopped)
  -- checkingGone
  · split at hn
    · exact .ret hn (.reads _)
    · rename_i hgone
      exact .goto hn (.reads _) (.retainThenRelease h (.held (Bool.not_eq_true _ ▸ hgone)))
  -- releasing
  · cases hn
    exact .one (.reads _) (.keptLadder h) (.kept h _)
  · cases hn

theorem releaseLease_spec {lease : Lease} {pc : LadderPc}
    (hn : stepReleaseLease c s lease pc a = some n) : Stepped c s (.releaseLease lease pc) a n := by
  unfold stepReleaseLease at hn
  split at hn
  -- calling
  · split at hn
    · exact .retObs hn (.reads _) (.ladderReleased _ _)
    · exact .retObs hn (.reads _) (.ladderGone _ _)
    · split at hn
      · exact .retObs hn (.reads _) (.ladderUsedUp _ _ _)
      · exact .goto hn (.reads _) (.releaseLease lease (.failed _ _))
  -- backingOff
  · split at hn
    · exact .goto hn (.reads _) (.releaseLease lease (.retry _ _))
    · cases hn
  · split at hn
    · exact .retObs hn (.reads _) (.ladderCutShort _ _ _ _)
    · cases hn
  · cases hn

theorem heartbeatLoop_spec {interval : Duration} {pc : LoopPc}
    (hn : stepHeartbeatLoop c s h interval pc a = some n) :
    Stepped c s (.heartbeatLoop h interval pc) a n := by
  unfold stepHeartbeatLoop at hn
  split at hn
  -- top
  · split at hn
    · exact .ret hn (.reads _)
    · rename_i hctx
      exact .goto hn (.reads _) (.heartbeatLoop h _ (.live _ (Bool.not_eq_true _ ▸ hctx)))
  -- reading
  · exact .goto hn (.reads _) (.heartbeatLoop h _ (.read _))
  -- comparing
  · split at hn
    · cases hn
      exact .one (.reads _) (.loopExpired h _ _ _) (.loopExpired h _ _ _ _ ‹_›)
    · exact .goto hn (.reads _) (.heartbeatLoop h _ (.good _ _ _))
  -- waiting
  · split at hn
    · exact .goto hn (.reads _) (.heartbeatLoop h _ (.fired _ _ _))
    · cases hn
  · split at hn
    · exact .ret hn (.reads _)
    · cases hn
  -- calling
  · rename_i r
    cases hn
    cases r with
    | ok e => exact .one (.reads _) (.heartbeatLoop h _ (.answered _ _ _ rfl)) (.loopAnswered h _ _ _ _)
    | error e => exact .goto rfl (.reads _) (.heartbeatLoop h _ (.answered _ _ _ rfl))
  -- answered
  · split at hn
    · exact .ret hn (.reads _)
    · rename_i hctx
      exact .goto hn (.reads _) (.heartbeatLoop h _ (.settle _ _ _ (Bool.not_eq_true _ ▸ hctx)))
  -- settling
  · split at hn
    · exact .goto hn (.loopRenews h _ _ _ _) (.heartbeatLoop h _ (.renewed _ _ _))
    · cases hn
      exact .one (.reads _) (.loopGone h _ _ _) (.loopGone h _ _ _ _)
    · exact .goto hn (.reads _) (.heartbeatLoop h _ (.failed _ _))
  · cases hn

theorem checkLease_spec {pc : CheckPc} (hn : stepCheckLease s h pc a = some n) :
    Stepped c s (.checkLease h pc) a n := by
  unfold stepCheckLease at hn
  split at hn
  -- called
  · split at hn
    · exact .ret hn (.reads _)
    · exact .goto hn (.reads _) (.checkLease h .live)
  -- holding
  · split at hn
    · exact .goto hn (.reads _) (.checkLease h (.held ‹_›))
    · exact .ret hn (.reads _)
  -- reading
  · exact .goto hn (.reads _) (.checkLease h .read)
  -- calling
  · rename_i r
    cases hn
    cases r with
    | ok e => exact .one (.reads _) (.checkLease h (.answered _ _ rfl)) (.checkAnswered h _ _)
    | error e => exact .goto rfl (.reads _) (.checkLease h (.answered _ _ rfl))
  -- answered
  · split at hn
    · exact .goto hn (.reads _) (.checkLease h (.settle _ _ ‹_›))
    · exact .ret hn (.reads _)
  -- settling
  · split at hn
    · exact .ret hn (.checkRenews h _ _)
    · exact .goto hn (.reads _) (.checkLease h (.gone _))
    · split at hn
      · exact .goto hn (.reads _) (.checkLease h (.expired _ ‹_›))
      · exact .ret hn (.reads _)
  -- declaring
  · split at hn
    · exact .ret hn (.reads _)
    · rename_i hdone
      cases hn
      exact .one (.reads _) (.checkLost h _) (.checkLost h _ _ (Bool.not_eq_true _ ▸ hdone))
  · cases hn

theorem leaseLost_spec {cause : Cause} {pc : LostPc} (hn : stepLeaseLost s h cause pc a = some n) :
    Stepped c s (.leaseLost h cause pc) a n := by
  unfold stepLeaseLost at hn
  split at hn
  · exact .goto hn (.markLeaseGone h cause) (.leaseLost h cause .marked)
  · exact .goto hn (.lostFails h cause) (.leaseLost h cause .failed)
  · exact .ret hn (.finish rfl)
  · cases hn

theorem agentProbeLoop_spec {pc : ProbePc} (hn : stepAgentProbeLoop c s h pc a = some n) :
    Stepped c s (.agentProbeLoop h pc) a n := by
  unfold stepAgentProbeLoop at hn
  split at hn
  -- starting
  · exact .goto hn (.reads _) (.agentProbeLoop h (.started _))
  -- waiting
  · split at hn
    · exact .goto hn (.reads _) (.agentProbeLoop h (.fired _ _))
    · cases hn
  · split at hn
    · exact .ret hn (.reads _)
    · cases hn
  -- holding
  · split at hn
    · exact .goto hn (.reads _) (.agentProbeLoop h (.held _))
    · exact .ret hn (.reads _)
  -- calling
  · exact .goto hn (.reads _) (.agentProbeLoop h (.answered _ _))
  -- answered
  · rename_i failures ok
    split at hn
    · exact .ret hn (.reads _)
    · rename_i hstill
      cases ok with
      | true => exact .goto hn (.reads _) (.agentProbeLoop h (.again _ _ _ _))
      | false =>
        simp only [Bool.false_eq_true, if_false] at hn
        split at hn
        · simp only [Bool.or_eq_true, Bool.not_eq_true', not_or, Bool.not_eq_false] at hstill
          exact .goto hn (.reads _) (.agentProbeLoop h (.unreachable _ hstill.2))
        · exact .goto hn (.reads _) (.agentProbeLoop h (.again _ _ _ _))
  -- failing
  · exact .goto hn (.agentFails h _) (.agentEnds h _)
  · cases hn

theorem recordProbe_spec {name : String} {ok : Bool}
    (hn : stepRecordProbe c s name ok a = some n) : Stepped c s (.recordProbe name ok) a n := by
  have hr : Runs c s (.recordProbe name ok) (s.recordProbe c.hostUnhealthyThreshold name ok).1 :=
    .recordProbe name ok
  unfold stepRecordProbe at hn
  split at hn
  · split at hn
    all_goals
      rename_i heq
      rw [heq] at hr
    · exact .goto hn hr (.down name ok)
    · exact .ret hn hr
  · cases hn

theorem abort_spec {frame : AbortPc → Frame} {mine : Handle → Bool} {cause : Cause}
    (hleads : ∀ {pc pc' : AbortPc}, pc.Leads s mine pc' → Leads c s a (frame pc) (frame pc'))
    (hends : ∀ h todo, Leads c s a (frame (.failing h todo)) (.endAllocation h .finishing))
    (hruns : ∀ h todo, Runs c s (frame (.failing h todo)) (s.fail h cause)) {pc : AbortPc}
    (hn : stepAbort frame mine cause s pc a = some n) : Stepped c s (frame pc) a n := by
  unfold stepAbort at hn
  split at hn
  -- snapshot
  · split at hn
    · exact .goto hn (.reads _) (hleads (.snapshot ‹_›))
    · cases hn
  -- next
  · exact .ret hn (.reads _)
  · split at hn
    · exact .goto hn (.reads _) (hleads (.mine _ ‹_›))
    · rename_i hmine
      exact .goto hn (.reads _) (hleads (.other _ (Bool.not_eq_true _ ▸ hmine)))
  -- failing
  · rename_i h todo
    cases hn
    exact ⟨hruns h todo, forall_mem_cons.mpr
      ⟨hends h todo, forall_mem_singleton.mpr (hleads (.failed h todo))⟩,
      forall_mem_nil _⟩
  · cases hn

theorem run_spec {pc : RunPc} (hn : stepRun c s pc a = some n) : Stepped c s (.run pc) a n := by
  unfold stepRun at hn
  split at hn
  -- starting, running, stopping, clearing
  · split at hn
    · exact .goto hn (.setState _ _) (.run _ _)
    · exact .ret hn (.reads _)
  · exact .goto hn (.reads _) (.run _ _)
  · exact .goto hn (.setState _ _) (.run _ _)
  · exact .goto hn .clearReservations (.run _ _)
  -- draining
  · exact .goto hn .drained (.run _ _)
  -- awaiting
  · split at hn
    · exact .goto hn (.reads _) (.run _ _)
    · cases hn
  · split at hn
    · cases hn
      exact ⟨.reads _, forall_mem_cons.mpr
        ⟨.abort _ _, forall_mem_singleton.mpr (.run _ _)⟩, forall_mem_nil _⟩
    · cases hn
  -- closing, cancelling, waiting
  · exact .goto hn .closeBackground (.run _ _)
  · exact .goto hn .cancelBackground (.run _ _)
  · split at hn
    · exact .ret hn (.setState _ _)
    · cases hn
  · cases hn

/-- **Every step stays within the three relations.** -/
theorem step_spec (h : step c s f a = some n) : Stepped c s f a n := by
  unfold step at h
  split at h
  · exact reserve_spec h
  · exact .ret h (.releaseReservation _)
  · exact allocateCalled_spec h
  · exact allocate_spec h
  · exact end_spec (fun _ => mem_singleton_self _) (fun _ => rfl) (.release _)
      (forall_mem_singleton.mpr (.releaseMissed _)) (.releaseLadder _) (.released _ _) h
  · exact end_spec (fun _ => mem_singleton_self _) (fun _ => rfl) (.endAllocation _)
      (forall_mem_nil _) (.endLadder _) (.ended _ _) h
  · exact retain_spec h
  · exact retainThenRelease_spec h
  · exact releaseLease_spec h
  · exact .goto h (.reads _) (.heartbeatBegins _ _)
  · exact heartbeatLoop_spec h
  · exact .ret h (.cancelHeartbeat _)
  · exact checkLease_spec h
  · exact leaseLost_spec h
  · exact agentProbeLoop_spec h
  · exact recordProbe_spec h
  · exact abort_spec (.hostUnhealthy _) (.hostEnds _) (.hostFails _) h
  · exact abort_spec .abortRunning .abortEnds .abortFails h
  · exact run_spec h
  · exact .ret h .wgDone
  · cases h

end FlintlockRunner.Scheduler

import FlintlockRunner.Scheduler.Accounting
import FlintlockRunner.Scheduler.Expiry

/-!
# How a Lease ends

What the Scheduler tells the Pool Manager about a Lease it is done with, and
what it takes the Pool Manager's word for: a Lease it releases through the
ladder of `releaseLease`, and a Lease it declares lost without a call. `Outcome`
says which of these one step can do, and `Settled` collects it over a run,
relative to what the Pool Manager's answers meant (`gone`).
-/

namespace FlintlockRunner.Scheduler

open List Next Threads

/-! ## What a frame has to do with a Lease -/

/-- The Lease a cause of loss is about. -/
def Cause.leaseID? : Cause → Option String
  | .leaseGone l | .leaseExpired l _ => some l
  | .hostUnhealthy _ | .agentUnreachable _ _ | .shutdown => none

/-- The Lease the keep-alive loop has read is `l`. -/
def LoopPc.own (l : String) : LoopPc → Prop
  | .comparing _ lease | .waiting _ lease _ | .calling _ lease | .answered _ lease _
  | .settling _ lease _ => lease.id = l
  | .top _ | .reading _ => True

/-- The Lease `CheckLease` has read, or is about to declare lost, is `l`. -/
def CheckPc.own (l : String) : CheckPc → Prop
  | .calling lease | .answered lease _ | .settling lease _ => lease.id = l
  | .declaring cause => cause.leaseID? = some l
  | .called | .holding | .reading => True

/-- The Lease a frame has read is the one its Handle was built with. -/
def Frame.own : Frame → Prop
  | .heartbeatLoop h _ pc => pc.own h.alloc.lease.id
  | .checkLease h pc => pc.own h.alloc.lease.id
  | _ => True

/-- The Lease a frame was told is gone. -/
def Frame.told? : Frame → Option String
  | .heartbeatLoop h _ (.answered _ _ (.error .notFound))
  | .heartbeatLoop h _ (.settling _ _ (.error .notFound))
  | .checkLease h (.answered _ (.error .notFound))
  | .checkLease h (.settling _ (.error .notFound))
  | .checkLease h (.declaring (.leaseGone _)) => some h.alloc.lease.id
  | _ => none

/-- The Lease a frame's `Heartbeat` call is about. -/
def Frame.heartbeats? : Frame → Option String
  | .heartbeatLoop _ _ (.calling _ l) | .checkLease _ (.calling l) => some l.id
  | _ => none

/-- The Lease a frame's `ReleaseVM` call is about. -/
def Frame.releases? : Frame → Option String
  | .releaseLease l (.calling _) => some l.id
  | _ => none

/-- The Lease a ladder is about. -/
def Frame.ladder? : Frame → Option String
  | .releaseLease l _ => some l.id
  | _ => none

/-- The Handle `leaseLost` ends, and why. -/
def Frame.accuses? : Frame → Option (Nat × Cause)
  | .leaseLost h cause _ => some (h.id, cause)
  | _ => none

/-- A ladder's end that means the Pool Manager has the MicroVM back. -/
def LadderEnd.complete : LadderEnd → Bool
  | .released | .alreadyGone => true
  | .retriesUsedUp | .cutShort => false

/-! ## One step -/

/-- What one step can do about Leases. -/
structure Outcome (s : Impl) (f : Frame) (a : Answer) (n : Next) : Prop where
  own : f.own → ∀ g ∈ n.all, g.own
  told : ∀ g ∈ n.all, ∀ l, g.told? = some l → f.told? = some l ∨
    (a = .heartbeat (.error .notFound) ∧ (f.own → f.heartbeats? = some l))
  accused : ∀ g ∈ n.all, ∀ x, g.accuses? = some x →
    f.accuses? = some x ∨ .lost x.1 x.2 ∈ n.obs
  marked : ∀ id, (n.impl.heap id).leaseGone = true →
    (s.heap id).leaseGone = true ∨ ∃ cause, f.accuses? = some (id, cause)
  lost : ∀ id cause, .lost id cause ∈ n.obs → f.own → ∃ h ∈ f.handles, h.id = id ∧
    ((cause = .leaseGone h.alloc.lease.id ∧ f.told? = some h.alloc.lease.id) ∨
      ∃ e, cause = .leaseExpired h.alloc.lease.id e)
  ladder : ∀ l, f.ladder? = some l →
    (∃ g ∈ n.all, g.ladder? = some l) ∨ ∃ how, .releaseEnded l how ∈ n.obs
  started : ∀ l, .releaseStarted l ∈ n.obs → ∃ g ∈ n.all, g.ladder? = some l
  laddered : ∀ g ∈ n.all, ∀ l, g.ladder? = some l →
    f.ladder? = some l ∨ .releaseStarted l ∈ n.obs
  ended : ∀ l how, .releaseEnded l how ∈ n.obs → how.complete = true →
    f.releases? = some l ∧ (a = .releaseVM (.ok ()) ∨ a = .releaseVM (.error .notFound))
  created : ∀ h, .created h ∈ n.obs → f.allocating h.alloc.lease.id
  claimed : ∀ l, .claimed l ∈ n.obs →
    ∃ claim ctxDone, a = .claimVM (.ok claim) ctxDone ∧ claim.leaseID = l

variable {c : Settings} {s : Impl} {f : Frame} {a : Answer} {n : Next}

/-! ### A Lease handed back -/

/-- The Lease that a frame is about to release. -/
def Frame.hands? (s : Impl) : Frame → Option Lease
  | .allocate _ (.abandoning lease _) => some lease
  | .release h .releasing | .endAllocation h .releasing | .retain h .releasing
  | .retainThenRelease h .releasing => some (s.lease h)
  | _ => none

variable {gone : String → Prop} {l : String} {lease : Lease} {g : Frame}

theorem releaseInBackground_ladder {fs : List Frame} (h : releaseInBackground s lease fs = some n) :
    .releaseLease lease (.calling 0) ∈ n.all ∧ .releaseStarted lease.id ∈ n.obs := by
  unfold releaseInBackground at h
  split at h
  · cases h
    exact ⟨mem_append_right _ mem_cons_self, mem_singleton_self _⟩
  · cases h
    exact ⟨mem_append_left _ mem_cons_self, mem_singleton_self _⟩

theorem end_ladder {frame : EndPc → Frame} {miss : List Frame} {h : Handle}
    (hn : stepEnd frame miss s h .releasing a = some n) :
    .releaseLease (s.lease h) (.calling 0) ∈ n.all ∧
      .releaseStarted (s.lease h).id ∈ n.obs := by
  cases a with
  | go => exact releaseInBackground_ladder hn
  | _ => cases hn

/-- A Lease that is handed back gets a ladder, and is seen to. -/
theorem step_hands (h : step c s f a = some n) (hf : f.hands? s = some lease) :
    .releaseLease lease (.calling 0) ∈ n.all ∧ .releaseStarted lease.id ∈ n.obs := by
  unfold Frame.hands? at hf
  split at hf
  · cases hf
    cases a with
    | go => exact releaseInBackground_ladder h
    | _ => cases h
  · cases hf
    exact end_ladder h
  · cases hf
    exact end_ladder h
  · cases hf
    cases a with
    | go =>
      cases h
      exact ⟨mem_cons_self, mem_singleton_self _⟩
    | _ => cases h
  · cases hf
    cases a with
    | go =>
      cases h
      exact ⟨mem_cons_self, mem_singleton_self _⟩
    | _ => cases h
  · cases hf

/-! ### Where a step goes on -/

theorem Leads.own (h : Leads c s a f g) (hf : f.own) : g.own := by
  cases h with
  | heartbeatLoop h interval hpc =>
    cases hpc with
    | live | renewed | failed => trivial
    | read => rfl
    | good | fired | answered | settle => exact hf
  | checkLease h hpc =>
    cases hpc with
    | live | held => trivial
    | read => rfl
    | answered | settle => exact hf
    | gone | expired => exact congrArg some hf
  | _ => trivial

theorem Leads.told (h : Leads c s a f g) (hl : g.told? = some l) :
    f.told? = some l ∨
      (a = .heartbeat (.error .notFound) ∧ (f.own → f.heartbeats? = some l)) := by
  cases h with
  | heartbeatLoop h interval hpc =>
    cases hpc with
    | answered attempt lease r ha =>
      subst ha
      rcases r with (_ | _) | _ <;> cases hl
      exact .inr ⟨rfl, fun hown => congrArg some hown⟩
    | settle attempt lease r => rcases r with (_ | _) | _ <;> exact .inl hl
    | _ => cases hl
  | checkLease h hpc =>
    cases hpc with
    | answered lease r ha =>
      subst ha
      rcases r with (_ | _) | _ <;> cases hl
      exact .inr ⟨rfl, fun hown => congrArg some hown⟩
    | settle lease r => rcases r with (_ | _) | _ <;> exact .inl hl
    | gone => exact .inl hl
    | _ => cases hl
  | _ => cases hl

theorem Leads.ladder (h : Leads c s a f g) (hl : g.ladder? = some l) :
    f.ladder? = some l ∨ ∃ lease, f.hands? s = some lease ∧ lease.id = l := by
  cases h with
  | releaseLease => exact .inl hl
  | abandon | releaseLadder | endLadder | retainLadder | keptLadder =>
    exact .inr ⟨_, rfl, Option.some.inj hl⟩
  | _ => cases hl

/-- Whoever calls `leaseLost` is seen to declare the Lease lost. -/
theorem step_accuses (h : step c s f a = some n) (hg : g ∈ n.all) {x : Nat × Cause}
    (hx : g.accuses? = some x) : f.accuses? = some x ∨ .lost x.1 x.2 ∈ n.obs := by
  cases (step_spec h).leads g hg with
  | leaseLost => exact .inl hx
  | loopExpired hd interval attempt lease =>
    cases hx
    cases a <;> first | cases h | skip
    dsimp only [step, stepHeartbeatLoop] at h
    split at h
    · cases h
      exact .inr (mem_singleton_self _)
    · cases h
      cases mem_singleton.mp hg
  | loopGone hd interval attempt lease =>
    cases hx
    cases a <;> cases h
    exact .inr (mem_singleton_self _)
  | checkLost hd cause =>
    cases hx
    cases a <;> first | cases h | skip
    dsimp only [step, stepCheckLease] at h
    split at h
    · cases h
      cases hg
    · cases h
      exact .inr (mem_singleton_self _)
  | _ => cases hx

theorem step_ladder {pc : LadderPc} (h : step c s (.releaseLease lease pc) a = some n) :
    (∃ g ∈ n.all, g.ladder? = some lease.id) ∨ ∃ how, .releaseEnded lease.id how ∈ n.obs := by
  have hgoes : ∀ pc', Next.goto s [.releaseLease lease pc'] = some n →
      ∃ g ∈ n.all, g.ladder? = some lease.id := by
    rintro pc' ⟨⟩
    exact ⟨_, mem_cons_self, rfl⟩
  have hends : ∀ how, Next.retObs s (.releaseEnded lease.id how) = some n →
      ∃ how, .releaseEnded lease.id how ∈ n.obs := by
    rintro how ⟨⟩
    exact ⟨how, mem_singleton_self _⟩
  change stepReleaseLease c s lease pc a = some n at h
  unfold stepReleaseLease at h
  split at h
  · split at h
    · exact .inr (hends _ h)
    · exact .inr (hends _ h)
    · split at h
      · exact .inr (hends _ h)
      · exact .inl (hgoes _ h)
  · split at h
    · exact .inl (hgoes _ h)
    · cases h
  · split at h
    · exact .inr (hends _ h)
    · cases h
  · cases h

/-- **What one step can do about Leases.** -/
theorem step_outcome (h : step c s f a = some n) : Outcome s f a n := by
  have hspec := step_spec h
  refine ⟨fun hf g hg => (hspec.leads g hg).own hf, fun g hg l => (hspec.leads g hg).told,
    fun g hg x => step_accuses h hg, ?_, ?_, ?_, ?_, ?_, ?_, ?_, ?_⟩
  · intro id hid
    have hw := hspec.runs.writes.2 id
    generalize n.impl.heap id = st' at hw hid
    cases hw with
    | creates _ hgone => cases hgone.symm.trans hid
    | marks hf hsame => exact .inr ⟨_, by rw [hf, ← hsame]; rfl⟩
    | _ => exact .inl hid
  · -- the Lease that is declared lost is the Handle's own
    intro id cause hmem hown
    cases hspec.seen _ hmem with
    | loopExpired hd interval attempt lease =>
      exact ⟨hd, mem_singleton_self hd, rfl, .inr ⟨_, congrArg (Cause.leaseExpired · _) hown⟩⟩
    | loopGone hd interval attempt lease =>
      exact ⟨hd, mem_singleton_self hd, rfl, .inl ⟨congrArg Cause.leaseGone hown, rfl⟩⟩
    | checkLost hd cause =>
      refine ⟨hd, mem_singleton_self hd, rfl, ?_⟩
      cases cause with
      | leaseGone l =>
        cases hown
        exact .inl ⟨rfl, rfl⟩
      | leaseExpired l e =>
        cases hown
        exact .inr ⟨e, rfl⟩
      | hostUnhealthy | agentUnreachable | shutdown => cases hown
  · intro l hl
    cases f with
    | releaseLease lease pc =>
      cases hl
      exact step_ladder h
    | _ => cases hl
  · intro l hmem
    cases hspec.seen _ hmem with
    | abandoned | released | ended | retained | kept => exact ⟨_, (step_hands h rfl).1, rfl⟩
  · intro g hg l hl
    refine ((hspec.leads g hg).ladder hl).imp_right ?_
    rintro ⟨lease, hlease, rfl⟩
    exact (step_hands h hlease).2
  · intro l how hmem hcomplete
    cases hspec.seen _ hmem with
    | ladderReleased => exact ⟨rfl, .inl rfl⟩
    | ladderGone => exact ⟨rfl, .inr rfl⟩
    | ladderUsedUp | ladderCutShort => cases hcomplete
  · intro hd hmem
    cases hspec.seen _ hmem with
    | created q claim lease claimedAt placement a alloc hlease =>
      exact congrArg (fun l : Lease => some l.id) hlease.symm
  · intro l hmem
    cases hspec.seen _ hmem with
    | claimed q attempt claim ctxDone => exact ⟨claim, ctxDone, rfl, rfl⟩

/-! ## The run -/

/-- What a move's answer means about Leases that are `gone`: a `Heartbeat` that
answers NOT_FOUND and a `ReleaseVM` that succeeds, or answers NOT_FOUND, are
about one of them. -/
def Truthful (gone : String → Prop) (s : Sys) : Label → Prop
  | .step i (.heartbeat (.error .notFound)) => ∀ f rest, s.threads[i]? = some (f :: rest) →
      ∀ l, f.heartbeats? = some l → gone l
  | .step i (.releaseVM (.ok ())) | .step i (.releaseVM (.error .notFound)) =>
      ∀ f rest, s.threads[i]? = some (f :: rest) → ∀ l, f.releases? = some l → gone l
  | _ => True

variable {s : Sys}

theorem Truthful.mono {gone gone' : String → Prop} {l : Label}
    (h : Truthful gone s l) (hle : ∀ l, gone l → gone' l) : Truthful gone' s l := by
  unfold Truthful at h ⊢
  split
  · exact fun f rest hi l hl => hle l (h f rest hi l hl)
  · exact fun f rest hi l hl => hle l (h f rest hi l hl)
  · exact fun f rest hi l hl => hle l (h f rest hi l hl)
  · trivial

/-- How the Leases of a run have ended. -/
structure Settled (gone : String → Prop) (s : Sys) : Prop where
  own : ∀ f ∈ frames s.threads, f.own
  told : ∀ f ∈ frames s.threads, ∀ l, f.told? = some l → gone l
  accused : ∀ f ∈ frames s.threads, ∀ x, f.accuses? = some x → .lost x.1 x.2 ∈ s.trace
  marked : ∀ id, (s.impl.heap id).leaseGone = true → ∃ cause, .lost id cause ∈ s.trace
  lost : ∀ id cause, .lost id cause ∈ s.trace → ∃ h, .created h ∈ s.trace ∧ h.id = id ∧
    ((cause = .leaseGone h.alloc.lease.id ∧ gone h.alloc.lease.id) ∨
      ∃ e, cause = .leaseExpired h.alloc.lease.id e)
  started : ∀ l, .releaseStarted l ∈ s.trace →
    (∃ f ∈ frames s.threads, f.ladder? = some l) ∨ ∃ how, .releaseEnded l how ∈ s.trace
  laddered : ∀ f ∈ frames s.threads, ∀ l, f.ladder? = some l → .releaseStarted l ∈ s.trace
  ended : ∀ l how, .releaseEnded l how ∈ s.trace → how.complete = true → gone l
  created : ∀ h, .created h ∈ s.trace → .claimed h.alloc.lease.id ∈ s.trace

theorem settled_init (hs : (machine c).init s) : Settled gone s := by
  obtain ⟨-, now, profiles, hosts, rfl⟩ := hs
  refine ⟨?_, ?_, ?_, fun id h => ?_, ?_, ?_, ?_, ?_, ?_⟩
  case refine_4 => cases h
  all_goals simp [Sys.init]

theorem Settled.mono {gone gone' : String → Prop} (hS : Settled gone s)
    (hle : ∀ l, gone l → gone' l) : Settled gone' s where
  own := hS.own
  told f hf l hl := hle l (hS.told f hf l hl)
  accused := hS.accused
  marked := hS.marked
  lost id cause hmem := by
    obtain ⟨h, hh, hid, hcause⟩ := hS.lost id cause hmem
    exact ⟨h, hh, hid, hcause.imp_left fun ⟨heq, hg⟩ => ⟨heq, hle _ hg⟩⟩
  started := hS.started
  laddered := hS.laddered
  ended l how hmem hc := hle l (hS.ended l how hmem hc)
  created := hS.created

theorem Accounts.claimed_of_carriers (hA : Accounts c s) (hl : 0 < s.ledger.carriers l) :
    .claimed l ∈ s.trace := by
  have hcount : 0 < s.ledger.acquired.count l := lt_of_lt_of_le hl (hA.assets_le l)
  have hmem : l ∈ (s.trace.filterMap Obs.claimed? : Multiset String) :=
    Multiset.count_pos.mp hcount
  obtain ⟨o, ho, hol⟩ := mem_filterMap.mp (Multiset.mem_coe.mp hmem)
  cases o <;> cases hol
  exact ho

theorem Accounts.claimed_of_allocating (hA : Accounts c s) (hf : f ∈ frames s.threads)
    (hl : f.allocating l) : .claimed l ∈ s.trace := by
  obtain ⟨t, hft, -, ha⟩ := Frame.allocating_iff.mp hl
  have hpos : 0 < s.ledger.tokens.countP (·.asset? = some l) :=
    Multiset.countP_pos.mpr ⟨t, mem_tokens.mpr ⟨f, hf, hft⟩, ha⟩
  refine hA.claimed_of_carriers ?_
  unfold Ledger.carriers
  omega

theorem Accounts.claimed_of_started (hA : Accounts c s) (hl : .releaseStarted l ∈ s.trace) :
    .claimed l ∈ s.trace := by
  have hpos : 0 < s.ledger.handedBack.count l := Multiset.count_pos.mpr (mem_handedBack.mpr hl)
  refine hA.claimed_of_carriers ?_
  unfold Ledger.carriers
  omega

theorem settled_start (hS : Settled gone s) (call : Call) :
    Settled gone (s.start call) := by
  have hcall : call.frame.own ∧ call.frame.told? = none ∧ call.frame.ladder? = none ∧
      call.frame.accuses? = none := by
    cases call <;> exact ⟨trivial, rfl, rfl, rfl⟩
  have hcases : ∀ {g}, g ∈ frames (s.start call).threads →
      g = call.frame ∨ g ∈ frames s.threads := mem_start.mp
  refine ⟨?_, ?_, ?_, hS.marked, hS.lost, ?_, ?_, hS.ended, hS.created⟩
  · intro g hg
    rcases hcases hg with rfl | hg
    · exact hcall.1
    · exact hS.own g hg
  · intro g hg l hl
    rcases hcases hg with rfl | hg
    · rw [hcall.2.1] at hl
      cases hl
    · exact hS.told g hg l hl
  · intro g hg x hx
    rcases hcases hg with rfl | hg
    · rw [hcall.2.2.2] at hx
      cases hx
    · exact hS.accused g hg x hx
  · intro l hl
    refine (hS.started l hl).imp_left ?_
    rintro ⟨g, hg, hgl⟩
    exact ⟨g, mem_start.mpr (.inr hg), hgl⟩
  · intro g hg l hl
    rcases hcases hg with rfl | hg
    · rw [hcall.2.2.1] at hl
      cases hl
    · exact hS.laddered g hg l hl

theorem settled_apply (hS : Settled gone s) (hA : Accounts c s) {i : Nat}
    {rest : List Frame} (hi : s.threads[i]? = some (f :: rest)) (hstep : step c s.impl f a = some n)
    (htrue : Truthful gone s (.step i a)) : Settled gone (s.apply i rest n) := by
  have ho := step_outcome hstep
  have hf := top_mem hi
  have hcases : ∀ {g}, g ∈ frames (s.apply i rest n).threads → g ∈ n.all ∨ g ∈ frames s.threads :=
    mem_of_frames_advance hi
  have hold : ∀ {o}, o ∈ s.trace → o ∈ s.trace ++ n.obs := fun h => mem_append_left _ h
  have hseen : ∀ {o}, o ∈ n.obs → o ∈ s.trace ++ n.obs := fun h => mem_append_right _ h
  refine ⟨?_, ?_, ?_, ?_, ?_, ?_, ?_, ?_, ?_⟩
  · intro g hg
    rcases hcases hg with hg | hg
    · exact ho.own (hS.own f hf) g hg
    · exact hS.own g hg
  · intro g hg l hl
    rcases hcases hg with hg | hg
    · rcases ho.told g hg l hl with h | ⟨rfl, h⟩
      · exact hS.told f hf l h
      · exact htrue f rest hi l (h (hS.own f hf))
    · exact hS.told g hg l hl
  · intro g hg x hx
    rcases hcases hg with hg | hg
    · rcases ho.accused g hg x hx with h | h
      · exact hold (hS.accused f hf x h)
      · exact hseen h
    · exact hold (hS.accused g hg x hx)
  · intro id hid
    rcases ho.marked id hid with h | ⟨cause, h⟩
    · obtain ⟨cause, hcause⟩ := hS.marked id h
      exact ⟨cause, hold hcause⟩
    · exact ⟨cause, hold (hS.accused f hf _ h)⟩
  · intro id cause hlost
    rcases mem_append.mp hlost with hlost | hlost
    · obtain ⟨h, hh, hid, hcause⟩ := hS.lost id cause hlost
      exact ⟨h, hold hh, hid, hcause⟩
    · obtain ⟨h, hh, hid, hcause⟩ := ho.lost id cause hlost (hS.own f hf)
      refine ⟨h, hold (hA.named.frame f hf h hh), hid, hcause.imp_left ?_⟩
      exact fun ⟨heq, htold⟩ => ⟨heq, hS.told f hf _ htold⟩
  · intro l hl
    rcases mem_append.mp hl with hl | hl
    · rcases hS.started l hl with ⟨g, hg, hgl⟩ | ⟨how, hhow⟩
      · rcases frames_advance_old hi n.frames n.spawned hg with rfl | hg
        · rcases ho.ladder l hgl with ⟨g', hg', hgl'⟩ | ⟨how, hhow⟩
          · exact .inl ⟨g', frames_advance_new hi hg', hgl'⟩
          · exact .inr ⟨how, hseen hhow⟩
        · exact .inl ⟨g, hg, hgl⟩
      · exact .inr ⟨how, hold hhow⟩
    · obtain ⟨g, hg, hgl⟩ := ho.started l hl
      exact .inl ⟨g, frames_advance_new hi hg, hgl⟩
  · intro g hg l hl
    rcases hcases hg with hg | hg
    · rcases ho.laddered g hg l hl with h | h
      · exact hold (hS.laddered f hf l h)
      · exact hseen h
    · exact hold (hS.laddered g hg l hl)
  · intro l how hmem hcomplete
    rcases mem_append.mp hmem with hmem | hmem
    · exact hS.ended l how hmem hcomplete
    · obtain ⟨hrel, rfl | rfl⟩ := ho.ended l how hmem hcomplete
      · exact htrue f rest hi l hrel
      · exact htrue f rest hi l hrel
  · intro h hmem
    rcases mem_append.mp hmem with hmem | hmem
    · exact hold (hS.created h hmem)
    · exact hold (hA.claimed_of_allocating hf (ho.created h hmem))

/-- Every move whose answer is truthful keeps the account of how Leases
ended. -/
theorem settled_next {s t : Sys} {l : Label} (hS : Settled gone s) (hA : Accounts c s)
    (hnext : s.next c l = some t) (htrue : Truthful gone s l) : Settled gone t := by
  cases moved hnext with
  | call call _ =>
    exact settled_start hS call
  | step i a f rest n hi hstep =>
    exact settled_apply hS hA hi hstep htrue
  | tick d =>
    exact ⟨hS.own, hS.told, hS.accused, hS.marked, hS.lost, hS.started, hS.laddered, hS.ended,
      hS.created⟩

/-- **Where a claimed Lease is**: an `Allocate` or the step that ends its
Allocation has it, it is a live Allocation's, it is being retained, its ladder
is running or gave up, it is gone, or it was declared expired. -/
theorem Settled.lease_cases (hS : Settled gone s) (hA : Accounts c s)
    (hl : .claimed l ∈ s.trace) :
    (∃ f ∈ frames s.threads, f.allocating l ∨ f.ending l) ∨
    (∃ h ∈ s.impl.liveHandles, h.alloc.lease.id = l) ∨
    (∃ f ∈ frames s.threads, f.retaining l ∨ f.ladder? = some l) ∨
    .releaseEnded l .retriesUsedUp ∈ s.trace ∨ .releaseEnded l .cutShort ∈ s.trace ∨
    gone l ∨ ∃ id e, .lost id (.leaseExpired l e) ∈ s.trace := by
  rcases hA.lease_cases hl with ⟨f, hf, h⟩ | h | ⟨f, hf, h⟩ | h | ⟨f, hf, h⟩ | ⟨h, hh, hid, hgone⟩
  · exact .inl ⟨f, hf, .inl h⟩
  · exact .inr (.inl h)
  · exact .inl ⟨f, hf, .inr h⟩
  · rcases hS.started l h with ⟨f, hf, hfl⟩ | ⟨how, hhow⟩
    · exact .inr (.inr (.inl ⟨f, hf, .inr hfl⟩))
    · cases how with
      | released | alreadyGone =>
        exact .inr (.inr (.inr (.inr (.inr (.inl (hS.ended l _ hhow rfl))))))
      | retriesUsedUp => exact .inr (.inr (.inr (.inl hhow)))
      | cutShort => exact .inr (.inr (.inr (.inr (.inl hhow))))
  · exact .inr (.inr (.inl ⟨f, hf, .inl h⟩))
  · -- a marked Handle was declared lost, by an answer or by its expiry
    refine .inr (.inr (.inr (.inr (.inr ?_))))
    obtain ⟨cause, hlost⟩ := hS.marked h.id hgone
    obtain ⟨h', hh', hid', hcause⟩ := hS.lost h.id cause hlost
    cases hA.named.created_inj h' h hh' hh hid'
    rcases hcause with ⟨-, hg⟩ | ⟨e, rfl⟩
    · exact .inl (hid ▸ hg)
    · exact .inr ⟨_, e, hid ▸ hlost⟩

end FlintlockRunner.Scheduler

import FlintlockRunner.Base.Machine
import FlintlockRunner.Poolmgr.Tracker

/-!
# The Tracker beside a Pool Manager

A Pool Manager is here a set of available MicroVMs per Pool. It emits an event
for every change of it, and the Events stream delivers each event once and in
order (`queue`). Beside the stream the poll loop asks `GetPool`, which may be
slow or fail, and `ClaimVM` calls come back exhausted if the Pool was empty at
some moment of the call.

A Pool that wrongly reads zero is the one error the Tracker cannot recover from
unless it owes a poll. It can happen (`wrong_zero`): where the poll that `Track`
asks for fails, and where a claim reports an emptiness that the events have
already ended. `Repaid` is what has to hold of the two kinds of step for it not
to (`no_wrong_zero`).
-/

namespace FlintlockRunner.Poolmgr

open List Option TrackedPool

/-! ## The system -/

/-- Where the poll loop is: between rounds, before the next Pool of a round,
waiting for `GetPool`, or with an answer the Pool Manager gave. -/
inductive PollPc
  | idle
  | round (todo : List PoolRef)
  | asked (ref : PoolRef) (generation : Nat) (todo : List PoolRef)
  | answered (ref : PoolRef) (generation : Nat) (size : Int) (status : PoolStatus)
      (todo : List PoolRef)
  deriving DecidableEq

/-- The Pools this round has not dealt with. -/
def PollPc.pending : PollPc → List PoolRef
  | .idle => []
  | .round todo => todo
  | .asked ref _ todo | .answered ref _ _ _ todo => ref :: todo

/-- The Pool Manager, the stream, the Tracker with its poll loop, the
`requestPoll`s that follow a section and have not run yet, and the `ClaimVM`
calls in flight, with whether their Pool was empty meanwhile. -/
structure Feed where
  avail : PoolRef → Finset String
  queue : List Event
  tracker : PoolTracker
  poll : PollPc
  requests : Nat
  claims : List (PoolRef × Bool)

/-- What can happen. -/
inductive FeedLabel
  | becomesAvailable (ref : PoolRef) (uid : String)
  | leaves (ref : PoolRef) (uid : String) (how : EventType)
  | emits (e : Event)
  | deliver
  | track (ref : PoolRef) (declared : Bool)
  | requestPoll
  | kicked
  | timer
  | ask
  | serve (size : Int) (status : PoolStatus)
  | applyPoll
  | pollFails
  | pollNotFound
  | claim (ref : PoolRef)
  | claimReturns (i : Nat)
  | claimExhausted (i : Nat)

/-- The events by which an available MicroVM goes. -/
def EventType.takesAway : EventType → Bool
  | .vmClaimed | .vmReleased | .vmDeletedDueToExpiry | .vmDeletedOnRelease
  | .vmHookFailed _ => true
  | .unspecified | .vmProvisioned | .vmAvailable | .poolSizeBelowTarget _ => false

variable (s : Feed)

/-- The events that tell of no change to the available MicroVMs: one about a
MicroVM that is not among them, or counts that are right. -/
def Feed.tells (e : Event) : Bool :=
  match e.type with
  | .vmAvailable => false
  | .poolSizeBelowTarget (some counts) =>
    decide (counts.available = (s.avail e.pool).card)
  | type => !type.takesAway || decide (e.vmUID ∉ s.avail e.pool)

/-- Claims in flight learn that their Pool is empty. -/
def sawEmpty (avail : PoolRef → Finset String) (claims : List (PoolRef × Bool)) :
    List (PoolRef × Bool) :=
  claims.map fun c => (c.1, c.2 || decide (avail c.1 = ∅))

/-- Run a section and note the `requestPoll` that follows it. -/
def Feed.after (r : PoolTracker × Bool) : Feed :=
  { s with tracker := r.1, requests := if r.2 then s.requests + 1 else s.requests }

/-- One step. -/
def Feed.next : FeedLabel → Option Feed
  | .becomesAvailable ref uid =>
    if uid ≠ "" ∧ uid ∉ s.avail ref then
      some { s with
        avail := Function.update s.avail ref (insert uid (s.avail ref))
        queue := s.queue ++ [⟨ref, uid, .vmAvailable⟩] }
    else none
  | .leaves ref uid how =>
    if uid ∈ s.avail ref ∧ how.takesAway = true then
      let avail := Function.update s.avail ref ((s.avail ref).erase uid)
      some { s with
        avail := avail
        queue := s.queue ++ [⟨ref, uid, how⟩]
        claims := sawEmpty avail s.claims }
    else none
  | .emits e => if s.tells e then some { s with queue := s.queue ++ [e] } else none
  | .deliver =>
    match s.queue with
    | e :: queue => some (Feed.after { s with queue := queue } (s.tracker.apply e))
    | [] => none
  | .track ref declared => some (s.after (s.tracker.track ref declared))
  | .requestPoll =>
    if 0 < s.requests then
      some { s with requests := s.requests - 1, tracker := s.tracker.requestPoll }
    else none
  | .kicked =>
    if s.poll = .idle ∧ s.tracker.kick = true then
      some { s with
        tracker := { s.tracker with kick := false }, poll := .round s.tracker.refs }
    else none
  | .timer =>
    if s.poll = .idle ∧ (s.tracker.streamUp = false ∨ s.tracker.pollOwed = true) then
      some { s with poll := .round s.tracker.refs }
    else none
  | .ask =>
    match s.poll with
    | .round [] => some { s with poll := .idle }
    | .round (ref :: todo) => some { s with poll := .asked ref (s.tracker.generation ref) todo }
    | _ => none
  | .serve size status =>
    match s.poll with
    | .asked ref generation todo =>
      if status.available = (s.avail ref).card then
        some { s with poll := .answered ref generation size status todo }
      else none
    | _ => none
  | .applyPoll =>
    match s.poll with
    | .answered ref generation size status todo =>
      some (Feed.after { s with poll := .round todo }
        (s.tracker.applyPoll ref generation size status))
    | _ => none
  | .pollFails =>
    match s.poll with
    | .asked _ _ todo => some { s with poll := .round todo }
    | _ => none
  | .pollNotFound =>
    match s.poll with
    | .asked ref _ todo =>
      some { s with tracker := s.tracker.setDeclared ref false, poll := .round todo }
    | _ => none
  | .claim ref =>
    some { s with claims := s.claims ++ [(ref, decide (s.avail ref = ∅))] }
  | .claimReturns i => some { s with claims := s.claims.eraseIdx i }
  | .claimExhausted i =>
    match s.claims[i]? with
    | some (ref, true) =>
      some { s with tracker := s.tracker.markExhausted ref, claims := s.claims.eraseIdx i }
    | _ => none

/-- The system starts with an up stream and a Tracker that tracks nothing, at
any moment of the Pool Manager's life. -/
def feed : Machine Feed FeedLabel where
  init s := ∃ avail, s = ⟨avail, [], { PoolTracker.new with streamUp := true }, .idle, 0, []⟩
  next := Feed.next

/-- Every emitted event is applied, no call is in flight and no poll is asked
for. -/
def Feed.quiet : Prop :=
  s.queue = [] ∧ s.poll = .idle ∧ s.claims = [] ∧ s.tracker.kick = false ∧ s.requests = 0

variable (ref : PoolRef)

/-- The availability of every MicroVM of the Pool is still to be delivered. -/
def Feed.allQueued : Prop :=
  ∀ uid ∈ s.avail ref, ⟨ref, uid, .vmAvailable⟩ ∈ s.queue

instance (s : Feed) (ref : PoolRef) : Decidable (s.allQueued ref) :=
  inferInstanceAs (Decidable (∀ uid ∈ s.avail ref, (⟨ref, uid, .vmAvailable⟩ : Event) ∈ s.queue))

/-- A poll of the Pool is on its way. -/
def Feed.coming : Prop :=
  s.tracker.kick = true ∨ 0 < s.requests ∨ ref ∈ s.poll.pending

instance (s : Feed) (ref : PoolRef) : Decidable (s.coming ref) :=
  inferInstanceAs (Decidable (_ ∨ _ ∨ _))

/-- The Pool reads something, or something is bound to put it right. -/
def Feed.covered (p : TrackedPool) : Prop :=
  p.declared = false ∨ 0 < p.availableCount ∨ p.needsPoll = true ∨ s.allQueued ref ∨
    s.coming ref

instance (s : Feed) (ref : PoolRef) (p : TrackedPool) : Decidable (s.covered ref p) :=
  inferInstanceAs (Decidable (_ ∨ _ ∨ _ ∨ _ ∨ _))

/-- The condition on one step: a `GetPool` call fails only for a Pool that is
covered without it, and `MarkExhausted` is called only on a Pool that is
covered with a count of zero. -/
def Repaid : FeedLabel → Prop
  | .pollFails => ∀ ref ∈ s.poll.pending.head?, ∀ p ∈ s.tracker.pools.lookup ref,
      Feed.covered { s with poll := .round s.poll.pending.tail } ref p
  | .claimExhausted i => ∀ c ∈ s.claims[i]?, ∀ p ∈ s.tracker.pools.lookup c.1,
      s.covered c.1 { p with exhausted := true }
  | _ => True

instance (s : Feed) : DecidablePred (Repaid s) := fun l => by
  unfold Repaid
  split <;> infer_instance

/-! ## The invariant -/

/-- The question a round has out. -/
def PollPc.question : PollPc → Option (PoolRef × Nat)
  | .asked ref generation _ | .answered ref generation _ _ _ => some (ref, generation)
  | .idle | .round _ => none

/-- What ties the Tracker to the Pool Manager. An answer of none, and counts of
none in the stream, are older than the events of whatever is available now;
and every Pool is covered. -/
structure Tracking (s : Feed) : Prop where
  uids : ∀ e ∈ s.queue, e.type = .vmAvailable → e.vmUID ≠ ""
  tracked : ∀ ref ∈ s.poll.pending, ref ∈ s.tracker.pools
  asked : ∀ ref generation, s.poll.question = some (ref, generation) →
    ∀ p, s.tracker.pools.lookup ref = some p → generation ≤ p.generation
  answer : ∀ ref generation size status todo,
    s.poll = .answered ref generation size status todo →
    ∀ p, s.tracker.pools.lookup ref = some p → p.generation = generation →
      status.available ≤ 0 → s.allQueued ref
  told : ∀ before e after counts, s.queue = before ++ e :: after →
    e.type = .poolSizeBelowTarget (some counts) → counts.available ≤ 0 →
      ∀ uid ∈ s.avail e.pool, ⟨e.pool, uid, .vmAvailable⟩ ∈ after
  covered : ∀ ref p, s.tracker.pools.lookup ref = some p → s.covered ref p

theorem tracking_init {s : Feed} (hs : feed.init s) : Tracking s := by
  obtain ⟨avail, rfl⟩ := hs
  refine ⟨?_, ?_, ?_, ?_, ?_, ?_⟩
  all_goals simp [PoolTracker.new, PollPc.pending, PollPc.question]

variable {s : Feed} {ref : PoolRef} {s' : Feed} {todo : List PoolRef} {generation : Nat}

theorem Feed.covered.mono {p : TrackedPool} (h : s.covered ref p)
    (hq : s.allQueued ref → s'.allQueued ref) (hc : s.coming ref → s'.coming ref) :
    s'.covered ref p :=
  h.imp_right fun h => h.imp_right fun h => h.imp_right fun h => h.imp hq hc

theorem Feed.coming.kept (h : s.coming ref) (hkick : s.tracker.kick = true → s'.tracker.kick = true)
    (hrequests : s.requests ≤ s'.requests) (hpending : ref ∈ s.poll.pending → ref ∈ s'.poll.pending) :
    s'.coming ref :=
  h.imp hkick fun h => h.imp (fun hpos => lt_of_lt_of_le hpos hrequests) hpending

theorem Feed.coming.covered {p : TrackedPool} (h : s.coming ref) : s.covered ref p :=
  .inr (.inr (.inr (.inr h)))

theorem Feed.after_requests (s : Feed) (r : PoolTracker × Bool) :
    s.requests ≤ (s.after r).requests := by
  unfold Feed.after
  dsimp only
  split <;> omega

namespace Tracking

variable (hT : Tracking s)
include hT

/-! ### The Pool Manager's own steps -/

theorem emit {avail : PoolRef → Finset String} {e : Event}
    (claims : List (PoolRef × Bool))
    (hnew : ∀ ref uid, uid ∈ avail ref → uid ∈ s.avail ref ∨ e = ⟨ref, uid, .vmAvailable⟩)
    (huid : e.type = .vmAvailable → e.vmUID ≠ "")
    (htold : ∀ counts, e.type = .poolSizeBelowTarget (some counts) → counts.available ≤ 0 →
      avail e.pool = ∅) :
    Tracking { s with avail := avail, queue := s.queue ++ [e], claims := claims } := by
  have hqueued : ∀ ref, s.allQueued ref → ({ s with
      avail := avail, queue := s.queue ++ [e], claims := claims } : Feed).allQueued ref := by
    intro ref hall uid hmem
    rcases hnew ref uid hmem with hold | rfl
    · exact mem_append_left _ (hall uid hold)
    · exact mem_append_right _ (mem_singleton_self _)
  refine ⟨?_, hT.tracked, hT.asked, ?_, ?_, ?_⟩
  · intro e' he' htype
    rcases mem_append.mp he' with he' | he'
    · exact hT.uids e' he' htype
    · rw [mem_singleton.mp he'] at htype ⊢
      exact huid htype
  · intro ref generation size status todo hpoll p hp hgen hzero
    exact hqueued ref (hT.answer ref generation size status todo hpoll p hp hgen hzero)
  · intro before e' after counts hsplit htype hzero uid hmem
    rcases eq_nil_or_concat after with rfl | ⟨after', last, rfl⟩
    · -- the new event itself: nothing is available
      obtain ⟨-, hlast⟩ := append_inj' hsplit rfl
      cases hlast
      have hmem' : uid ∈ avail e.pool := hmem
      rw [htold counts htype hzero] at hmem'
      cases hmem'
    · rw [concat_eq_append, ← cons_append, ← append_assoc] at hsplit
      obtain ⟨hold, hlast⟩ := append_inj' hsplit rfl
      cases hlast
      rw [concat_eq_append]
      rcases hnew e'.pool uid hmem with hmem | heq
      · exact mem_append_left _ (hT.told before e' after' counts hold htype hzero uid hmem)
      · rw [← heq]
        exact mem_append_right _ (mem_singleton_self _)
  · intro ref p hp
    exact (hT.covered ref p hp).mono (hqueued ref) id

/-! ### An event is applied -/

theorem covered_apply (hc : s.tracker.Counted) {e : Event} {queue : List Event}
    (hqueue : s.queue = e :: queue) {p : TrackedPool} (hp : s.tracker.pools.lookup e.pool = some p)
    (havail : s'.avail = s.avail) (hq : s'.queue = queue)
    (hcoming : s.coming e.pool → s'.coming e.pool) :
    s'.covered e.pool (p.apply e.vmUID e.type).1 := by
  have hdecl := p.apply_declared e.vmUID e.type
  by_cases hundeclared : p.declared = false
  · exact .inl (hdecl.trans hundeclared)
  have hdeclared : p.declared = true := by simpa using hundeclared
  by_cases hpos : 0 < (p.apply e.vmUID e.type).1.availableCount
  · exact .inr (.inl hpos)
  have hzero : (p.apply e.vmUID e.type).1.availableCount = 0 :=
    le_antisymm (not_lt.mp hpos)
      (availableCount_nonneg (p.apply_counts _ _ (hc _ _ hp)))
  by_cases hdebt : (p.apply e.vmUID e.type).1.needsPoll = true
  · exact .inr (.inr (.inl hdebt))
  -- no debt: the Pool read nothing before, too
  have hbefore : ¬ 0 < p.availableCount := fun h => hdebt (p.apply_down _ _ h hzero)
  refine .inr (.inr (.inr ?_))
  rcases hT.covered e.pool p hp with h | h | h | h | h
  · exact absurd h hundeclared
  · exact absurd h hbefore
  · -- a debt was taken away, by counts of none
    rcases p.apply_needsPoll e.vmUID e.type h with h | ⟨counts, htype⟩
    · exact absurd h hdebt
    · refine .inl fun uid hmem => ?_
      rw [htype] at hzero
      have hnone : counts.available ≤ 0 := p.counted.rebaseline_zero hdeclared hzero
      rw [hq]
      exact hT.told [] e queue counts hqueue htype hnone uid (havail ▸ hmem)
  · -- the events of what is available are still to come; this is none of them
    refine .inl fun uid hmem => ?_
    have hin := h uid (havail ▸ hmem)
    rw [hqueue] at hin
    rw [hq]
    rcases mem_cons.mp hin with heq | hin
    · exfalso
      have huid : e.vmUID ≠ "" :=
        hT.uids e (hqueue ▸ mem_cons_self) (heq ▸ rfl)
      have htype : e.type = .vmAvailable := heq ▸ rfl
      rw [htype] at hpos
      exact hpos (p.apply_vmAvailable _ hdeclared (hc _ _ hp) huid)
    · exact hin
  · exact .inr (hcoming h)

/-- A section of the Tracker changes one Pool. What has to be shown is about
that Pool alone. -/
theorem onEntry (ref : PoolRef) (havail : s'.avail = s.avail)
    (hqueue : ∃ applied, s.queue = applied ++ s'.queue)
    (hpending : ∀ r ∈ s'.poll.pending, r ∈ s.poll.pending)
    (hquestion : ∀ x, s'.poll.question = some x → s'.poll = s.poll)
    (hkept : ref ∈ s.tracker.pools → ref ∈ s'.tracker.pools) (hother : ∀ r, r ≠ ref →
      s'.tracker.pools.lookup r = s.tracker.pools.lookup r ∧
      (s.allQueued r → s'.allQueued r) ∧ (s.coming r → s'.coming r))
    (hmine : ∀ p', s'.tracker.pools.lookup ref = some p' →
      s'.covered ref p' ∧
      (∀ generation, s'.poll.question = some (ref, generation) → generation ≤ p'.generation) ∧
      ∀ generation size status todo, s'.poll = .answered ref generation size status todo →
        p'.generation = generation → status.available ≤ 0 → s'.allQueued ref) : Tracking s' := by
  obtain ⟨applied, hqueue⟩ := hqueue
  refine ⟨?_, ?_, ?_, ?_, ?_, ?_⟩
  · intro e he
    exact hT.uids e (hqueue ▸ mem_append_right _ he)
  · intro r hr
    have hin := hT.tracked r (hpending r hr)
    by_cases heq : r = ref
    · exact heq ▸ hkept (heq ▸ hin)
    · exact AList.lookup_isSome.mp ((hother r heq).1 ▸ AList.lookup_isSome.mpr hin)
  · intro r generation hq p hp
    by_cases hr : r = ref
    · subst hr
      exact (hmine p hp).2.1 generation hq
    · exact hT.asked r generation (hquestion _ hq ▸ hq) p ((hother r hr).1 ▸ hp)
  · intro r generation size status todo hpoll p hp hgen hzero
    by_cases hr : r = ref
    · subst hr
      exact (hmine p hp).2.2 generation size status todo hpoll hgen hzero
    · have hq : s'.poll = s.poll := hquestion (r, generation) (by rw [hpoll]; rfl)
      exact (hother r hr).2.1 (hT.answer r generation size status todo (hq ▸ hpoll) p
        ((hother r hr).1 ▸ hp) hgen hzero)
  · intro before e after counts hsplit htype hzero uid hmem
    refine hT.told (applied ++ before) e after counts ?_ htype hzero uid (havail ▸ hmem)
    rw [hqueue, hsplit, append_assoc]
  · intro r p hp
    by_cases hr : r = ref
    · subst hr
      exact (hmine p hp).1
    · exact (hT.covered r p ((hother r hr).1 ▸ hp)).mono (hother r hr).2.1 (hother r hr).2.2

theorem deliver (hc : s.tracker.Counted) {e : Event} {queue : List Event}
    (hqueue : s.queue = e :: queue) :
    Tracking (Feed.after { s with queue := queue } (s.tracker.apply e)) := by
  have hcoming : ∀ r, s.coming r →
      (Feed.after { s with queue := queue } (s.tracker.apply e)).coming r := by
    intro r h
    exact h.kept (s.tracker.apply_kick e).trans
      (Feed.after_requests { s with queue := queue } _) id
  refine hT.onEntry e.pool rfl ⟨[e], hqueue⟩ (fun _ h => h) (fun _ _ => rfl) ?_ ?_ ?_
  · intro hin
    obtain ⟨p, hp⟩ := isSome_iff_exists.mp (AList.lookup_isSome.mpr hin)
    refine AList.lookup_isSome.mp ?_
    rw [show (Feed.after _ _).tracker = (s.tracker.apply e).1 from rfl,
      PoolTracker.lookup_apply, if_pos rfl, hp]
    rfl
  · intro r hr
    refine ⟨?_, ?_, hcoming r⟩
    · exact (s.tracker.lookup_apply r e).trans (if_neg hr)
    · intro hall uid hmem
      have hin := hall uid hmem
      rw [hqueue] at hin
      rcases mem_cons.mp hin with heq | hin
      · exact absurd (congrArg Event.pool heq) hr
      · exact hin
  · intro p' hp'
    rw [show (Feed.after _ _).tracker = (s.tracker.apply e).1 from rfl,
      PoolTracker.lookup_apply, if_pos rfl] at hp'
    obtain ⟨p, hp, rfl⟩ := map_eq_some_iff.mp hp'
    have hcov : (Feed.after { s with queue := queue } (s.tracker.apply e)).covered e.pool _ :=
      hT.covered_apply hc hqueue hp rfl rfl (hcoming e.pool)
    have hle : ∀ generation, s.poll.question = some (e.pool, generation) →
        generation ≤ p.generation := fun generation hq => hT.asked _ _ hq p hp
    refine ⟨?_, ?_, ?_⟩
    · unfold Feed.covered at hcov ⊢
      rwa [woke_declared, woke_availableCount, woke_needsPoll]
    · intro generation hq
      rw [woke_generation, p.apply_generation]
      exact Nat.le_succ_of_le (hle generation hq)
    · -- the answer that is out will be discarded
      intro generation size status todo hpoll hgen
      rw [woke_generation, p.apply_generation] at hgen
      have hq : s.poll.question = some (e.pool, generation) := by
        rw [show s.poll = _ from hpoll]
        rfl
      have := hle generation hq
      omega

/-! ### The other sections -/

theorem put {p' : TrackedPool} (hlookup : ∀ r, s'.tracker.pools.lookup r
      = if r = ref then some p' else s.tracker.pools.lookup r) (havail : s'.avail = s.avail)
    (hqueue : s'.queue = s.queue) (hpending : ∀ r ∈ s'.poll.pending, r ∈ s.poll.pending)
    (hquestion : ∀ x, s'.poll.question = some x → s'.poll = s.poll)
    (hcoming : ∀ r, r ≠ ref → s.coming r → s'.coming r)
    (hgeneration : p'.generation = (s.tracker.poolAt ref).generation) (hcov : s'.covered ref p') :
    Tracking s' := by
  have hqueued : ∀ r, s.allQueued r → s'.allQueued r := by
    intro r hall uid hmem
    rw [hqueue]
    exact hall uid (havail ▸ hmem)
  -- a Pool with a question out is tracked
  have hold : ∀ generation, s.poll.question = some (ref, generation) →
      s.tracker.pools.lookup ref = some (s.tracker.poolAt ref) := by
    intro generation hq
    have hin : ref ∈ s.poll.pending := by
      cases hpoll : s.poll with
      | idle | round todo => rw [hpoll] at hq; cases hq
      | asked r g todo | answered r g size status todo =>
        rw [hpoll] at hq
        cases hq
        exact mem_cons_self
    obtain ⟨p, hp⟩ := isSome_iff_exists.mp (AList.lookup_isSome.mpr (hT.tracked ref hin))
    unfold PoolTracker.poolAt
    rw [hp]
    rfl
  refine hT.onEntry ref havail ⟨[], hqueue.symm⟩ hpending hquestion ?_ ?_ ?_
  · intro _
    refine AList.lookup_isSome.mp ?_
    rw [hlookup, if_pos rfl]
    rfl
  · intro r hr
    exact ⟨(hlookup r).trans (if_neg hr), hqueued r, hcoming r hr⟩
  · intro p hp
    rw [hlookup, if_pos rfl] at hp
    cases hp
    refine ⟨hcov, ?_, ?_⟩
    · intro generation hq
      rw [hquestion _ hq] at hq
      rw [hgeneration]
      exact hT.asked ref generation hq _ (hold generation hq)
    · intro generation size status todo hpoll hgen hzero
      have hpoll' : s.poll = .answered ref generation size status todo := by
        rw [← hquestion (ref, generation) (by rw [hpoll]; rfl), hpoll]
      have hq : s.poll.question = some (ref, generation) := by
        rw [hpoll']
        rfl
      exact hqueued ref (hT.answer ref generation size status todo hpoll' _
        (hold generation hq) (hgeneration.symm.trans hgen) hzero)

theorem track (ref : PoolRef) (declared : Bool) :
    Tracking (s.after (s.tracker.track ref declared)) := by
  have hkick := s.tracker.track_kick ref declared
  refine hT.put (s.tracker.lookup_track ref · declared) rfl rfl (fun _ h => h) (fun _ _ => rfl)
    (fun r _ h => h.kept hkick.trans (Feed.after_requests s _) id) rfl ?_
  · cases declared with
    | false => exact .inl rfl
    | true =>
      -- `Track` asks for a poll of the Pool it declares
      refine Feed.coming.covered (.inr (.inl ?_))
      show 0 < if (s.tracker.track ref true).2 then s.requests + 1 else s.requests
      rw [show (s.tracker.track ref true).2 = true from Bool.or_true _]
      exact Nat.succ_pos _

theorem pollNotFound (hpoll : s.poll = .asked ref generation todo) :
    Tracking { s with tracker := s.tracker.setDeclared ref false, poll := .round todo } := by
  have hkick := s.tracker.setDeclared_kick ref false
  refine hT.put (s.tracker.lookup_setDeclared_false ref ·) rfl rfl ?_ nofun ?_
    rfl (.inl rfl)
  · intro r hr
    rw [hpoll]
    exact mem_cons_of_mem _ hr
  · intro r hne h
    refine h.kept hkick.trans (le_refl _) fun hr => ?_
    rw [hpoll] at hr
    exact (mem_cons.mp hr).resolve_left hne

theorem claimExhausted {i : Nat}
    (hclaim : s.claims[i]? = some (ref, true)) (hrepaid : Repaid s (.claimExhausted i)) :
    Tracking { s with
      tracker := s.tracker.markExhausted ref, claims := s.claims.eraseIdx i } := by
  have hkick := s.tracker.markExhausted_kick ref
  have hcoming : ∀ r, s.coming r → Feed.coming { s with
      tracker := s.tracker.markExhausted ref, claims := s.claims.eraseIdx i } r :=
    fun r h => h.imp_left hkick.trans
  refine hT.put (s.tracker.lookup_markExhausted ref ·) rfl rfl (fun _ h => h) (fun _ _ => rfl)
    (fun r _ => hcoming r) rfl ?_
  unfold PoolTracker.poolAt
  cases hp : s.tracker.pools.lookup ref with
  | none => exact .inl rfl
  | some p =>
    have hcov : s.covered ref { p with exhausted := true } := hrepaid (ref, true) hclaim p hp
    refine Feed.covered.mono (s := s) ?_ id (hcoming ref)
    refine hcov.imp_right fun h => h.imp_left fun h => ?_
    -- an exhausted Pool reads nothing, whatever it counts
    unfold availableCount at h ⊢
    rw [Bool.or_true] at h ⊢
    exact h

theorem applyPoll {size : Int} {status : PoolStatus}
    (hpoll : s.poll = .answered ref generation size status todo) :
    Tracking (Feed.after { s with poll := .round todo }
      (s.tracker.applyPoll ref generation size status)) := by
  have hlookup := (s.tracker.lookup_applyPoll ref · generation size status)
  have hkick := s.tracker.applyPoll_kick ref generation size status
  have hcoming : ∀ r, r ≠ ref → s.coming r → (Feed.after { s with poll := .round todo }
      (s.tracker.applyPoll ref generation size status)).coming r := by
    intro r hne h
    refine h.kept hkick.trans (Feed.after_requests { s with poll := .round todo } _) fun hr => ?_
    rw [hpoll] at hr
    exact (mem_cons.mp hr).resolve_left hne
  refine hT.onEntry ref rfl ⟨[], rfl⟩ ?_ nofun ?_ ?_ ?_
  · intro r hr
    rw [hpoll]
    exact mem_cons_of_mem _ hr
  · intro hin
    obtain ⟨p, hp⟩ := isSome_iff_exists.mp (AList.lookup_isSome.mpr hin)
    refine AList.lookup_isSome.mp ?_
    rw [show (Feed.after _ _).tracker = (s.tracker.applyPoll ref generation size status).1 from
      rfl, hlookup, if_pos rfl, hp]
    rfl
  · intro r hr
    exact ⟨(hlookup r).trans (if_neg hr), id, hcoming r hr⟩
  · intro p' hp'
    rw [show (Feed.after _ _).tracker = (s.tracker.applyPoll ref generation size status).1 from
      rfl, hlookup, if_pos rfl] at hp'
    obtain ⟨p, hp, rfl⟩ := map_eq_some_iff.mp hp'
    by_cases hgen : p.generation = generation
    · rw [if_neg (not_not.mpr hgen)]
      refine ⟨?_, nofun, nofun⟩
      unfold Feed.covered
      rw [woke_declared, woke_availableCount, woke_needsPoll]
      by_cases hdecl : p.declared = true
      · by_cases hpos : 0 < (p.settle size status).availableCount
        · exact .inr (.inl hpos)
        · -- an answer of none is older than every event that is still queued
          have hnone : status.available ≤ 0 := p.rebaseline_zero hdecl
            (le_antisymm (not_lt.mp hpos)
              (availableCount_nonneg (UidCount.rebaseline_counts _)))
          exact .inr (.inr (.inr (.inl
            (hT.answer ref generation size status todo hpoll p hp hgen hnone))))
      · exact .inl (Bool.eq_false_of_not_eq_true hdecl)
    · rw [if_pos hgen]
      exact ⟨.inr (.inr (.inl rfl)), nofun, nofun⟩

/-! ### The poll loop -/

theorem keep (havail : s'.avail = s.avail) (hqueue : s'.queue = s.queue)
    (hpools : s'.tracker.pools = s.tracker.pools)
    (htracked : ∀ ref ∈ s'.poll.pending, ref ∈ s.tracker.pools)
    (hasked : ∀ ref generation, s'.poll.question = some (ref, generation) →
      ∀ p, s.tracker.pools.lookup ref = some p → generation ≤ p.generation)
    (hanswer : ∀ ref generation size status todo,
      s'.poll = .answered ref generation size status todo →
      s'.poll = s.poll ∨ (status.available ≤ 0 → s'.allQueued ref))
    (hcov : ∀ ref p, s.tracker.pools.lookup ref = some p → s.coming ref → s'.covered ref p) :
    Tracking s' := by
  have hqueued : ∀ r, s.allQueued r → s'.allQueued r := by
    intro r hall uid hmem
    rw [hqueue]
    exact hall uid (havail ▸ hmem)
  refine ⟨hqueue ▸ hT.uids, hpools ▸ htracked, hpools ▸ hasked, ?_, ?_, ?_⟩
  · intro ref generation size status todo hpoll p hp hgen hzero
    rcases hanswer ref generation size status todo hpoll with heq | h
    · exact hqueued ref
        (hT.answer ref generation size status todo (heq ▸ hpoll) p (hpools ▸ hp) hgen hzero)
    · exact h hzero
  · rw [hqueue, havail]
    exact hT.told
  · intro ref p hp
    rw [hpools] at hp
    rcases hT.covered ref p hp with h | h | h | h | h
    · exact .inl h
    · exact .inr (.inl h)
    · exact .inr (.inr (.inl h))
    · exact .inr (.inr (.inr (.inl (hqueued ref h))))
    · exact hcov ref p hp h

theorem keep_poll (havail : s'.avail = s.avail)
    (hqueue : s'.queue = s.queue) (hpools : s'.tracker.pools = s.tracker.pools)
    (hpoll : s'.poll = s.poll) (hcoming : ∀ ref, s.coming ref → s'.coming ref) : Tracking s' := by
  refine hT.keep havail hqueue hpools (hpoll ▸ hT.tracked) (hpoll ▸ hT.asked)
    (fun _ _ _ _ _ _ => .inl hpoll) ?_
  exact fun ref p _ h => (hcoming ref h).covered

theorem begin (kick : Bool) :
    Tracking { s with
      tracker := { s.tracker with kick := kick }, poll := .round s.tracker.refs } := by
  refine hT.keep rfl rfl rfl ?_ nofun nofun ?_
  · exact fun ref hr => (s.tracker.mem_refs ref).mp hr
  · intro ref p hp _
    refine Feed.coming.covered (.inr (.inr ((s.tracker.mem_refs ref).mpr ?_)))
    exact AList.lookup_isSome.mp (hp ▸ rfl)

theorem ask (h : s.next .ask = some s') : Tracking s' := by
  unfold Feed.next at h
  dsimp only at h
  split at h
  case h_1 hpoll =>
    cases h
    refine hT.keep rfl rfl rfl nofun nofun nofun ?_
    intro ref p _ hcoming
    refine Feed.coming.covered (hcoming.kept id (le_refl _) fun hr => ?_)
    rw [hpoll] at hr
    cases hr
  case h_2 ref todo hpoll =>
    cases h
    refine hT.keep rfl rfl rfl ?_ ?_ nofun ?_
    · rw [show PollPc.pending _ = s.poll.pending from hpoll ▸ rfl]
      exact hT.tracked
    · intro r generation hq p hp
      cases hq
      unfold PoolTracker.generation
      rw [hp]
      exact le_refl _
    · intro r p _ hcoming
      refine Feed.coming.covered (hcoming.kept id (le_refl _) fun hr => ?_)
      rwa [hpoll] at hr
  case h_3 => cases h

theorem serve (hpoll : s.poll = .asked ref generation todo)
    {status : PoolStatus} (htrue : status.available = (s.avail ref).card) (size : Int) :
    Tracking { s with poll := .answered ref generation size status todo } := by
  refine hT.keep rfl rfl rfl ?_ ?_ ?_ ?_
  · rw [show PollPc.pending _ = s.poll.pending from hpoll ▸ rfl]
    exact hT.tracked
  · rw [show PollPc.question _ = s.poll.question from hpoll ▸ rfl]
    exact hT.asked
  · rintro r g size' status' todo' ⟨⟩
    refine .inr fun hzero uid hmem => ?_
    -- the Pool Manager answered that nothing is available, and nothing was
    have hpos : 0 < (s.avail ref).card := Finset.card_pos.mpr ⟨uid, hmem⟩
    omega
  · intro r p _ hcoming
    refine Feed.coming.covered (hcoming.kept id (le_refl _) fun hr => ?_)
    rwa [hpoll] at hr

theorem pollFails (hpoll : s.poll = .asked ref generation todo)
    (hrepaid : Repaid s .pollFails) : Tracking { s with poll := .round todo } := by
  have hpending : s.poll.pending = ref :: todo := by rw [hpoll]; rfl
  refine hT.keep rfl rfl rfl ?_ nofun nofun ?_
  · intro r hr
    exact hT.tracked r (hpending ▸ mem_cons_of_mem _ hr)
  · intro r p hp hcoming
    by_cases hr : r = ref
    · -- the Pool that was asked about is covered without the answer
      have hcov := hrepaid ref (by rw [hpending]; rfl) p (hr ▸ hp)
      rw [hpending] at hcov
      exact hr ▸ hcov
    · refine Feed.coming.covered (hcoming.kept id (le_refl _) fun hmem => ?_)
      rw [hpending] at hmem
      exact (mem_cons.mp hmem).resolve_left hr

end Tracking

/-- The step that ends the question a round has out. -/
def FeedLabel.endsQuestion : FeedLabel → Bool
  | .applyPoll | .pollFails | .pollNotFound => true
  | _ => false

variable {l : FeedLabel}

/-- **A poll that is on its way stays so** until its question ends. -/
theorem Feed.coming_next (h : s.next l = some s') (htracked : ref ∈ s.tracker.pools)
    (hcoming : s.coming ref) :
    s'.coming ref ∨ (l.endsQuestion = true ∧ s.poll.pending.head? = some ref) := by
  -- the round goes on to the Pools after the question's
  have hended : ∀ {r : PoolRef} {todo : List PoolRef}, s.poll.pending = r :: todo →
      s'.poll.pending = todo → (s.tracker.kick = true → s'.tracker.kick = true) →
      s.requests ≤ s'.requests → l.endsQuestion = true →
      s'.coming ref ∨ (l.endsQuestion = true ∧ s.poll.pending.head? = some ref) := by
    intro r todo hpending htodo hkick hrequests hends
    by_cases heq : ref = r
    · exact .inr ⟨hends, by rw [hpending, heq]; rfl⟩
    · refine .inl (hcoming.kept hkick hrequests fun hin => ?_)
      rw [hpending] at hin
      exact htodo ▸ (mem_cons.mp hin).resolve_left heq
  cases l with
  | becomesAvailable r uid | leaves r uid how =>
    obtain ⟨-, ⟨⟩⟩ := ite_none_right_eq_some.mp h
    exact .inl hcoming
  | emits e =>
    obtain ⟨-, ⟨⟩⟩ := ite_none_right_eq_some.mp h
    exact .inl hcoming
  | deliver =>
    unfold Feed.next at h
    dsimp only at h
    split at h
    case h_1 e queue hqueue =>
      cases h
      exact .inl (hcoming.kept (s.tracker.apply_kick e).trans
        (Feed.after_requests { s with queue := queue } _) id)
    case h_2 => cases h
  | track r declared =>
    cases h
    exact .inl (hcoming.kept (s.tracker.track_kick r declared).trans (Feed.after_requests s _) id)
  | requestPoll =>
    obtain ⟨-, ⟨⟩⟩ := ite_none_right_eq_some.mp h
    exact .inl (.inl rfl)
  | kicked | timer =>
    obtain ⟨-, ⟨⟩⟩ := ite_none_right_eq_some.mp h
    exact .inl (.inr (.inr ((s.tracker.mem_refs ref).mpr htracked)))
  | ask =>
    unfold Feed.next at h
    dsimp only at h
    split at h
    case h_1 hpoll | h_2 hpoll =>
      cases h
      refine .inl (hcoming.kept id (le_refl _) fun hin => ?_)
      rw [hpoll] at hin
      exact hin
    case h_3 => cases h
  | serve size status =>
    unfold Feed.next at h
    dsimp only at h
    split at h
    case h_1 hpoll =>
      obtain ⟨-, ⟨⟩⟩ := ite_none_right_eq_some.mp h
      refine .inl (hcoming.kept id (le_refl _) fun hin => ?_)
      rw [hpoll] at hin
      exact hin
    case h_2 => cases h
  | applyPoll =>
    unfold Feed.next at h
    dsimp only at h
    split at h
    case h_1 r generation size status todo hpoll =>
      cases h
      exact hended (congrArg PollPc.pending hpoll) rfl
        (s.tracker.applyPoll_kick r generation size status).trans
        (Feed.after_requests { s with poll := .round todo } _) rfl
    case h_2 => cases h
  | pollFails =>
    unfold Feed.next at h
    dsimp only at h
    split at h
    case h_1 r generation todo hpoll =>
      cases h
      exact hended (congrArg PollPc.pending hpoll) rfl id (le_refl _) rfl
    case h_2 => cases h
  | pollNotFound =>
    unfold Feed.next at h
    dsimp only at h
    split at h
    case h_1 r generation todo hpoll =>
      cases h
      exact hended (congrArg PollPc.pending hpoll) rfl (s.tracker.setDeclared_kick r false).trans
        (le_refl _) rfl
    case h_2 => cases h
  | claim r | claimReturns i =>
    cases h
    exact .inl hcoming
  | claimExhausted i =>
    unfold Feed.next at h
    dsimp only at h
    split at h
    case h_1 r hclaim =>
      cases h
      exact .inl (hcoming.kept (s.tracker.markExhausted_kick r).trans (le_refl _) id)
    case h_2 => cases h

theorem Feed.counted_next (h : s.next l = some s') (hc : s.tracker.Counted) :
    s'.tracker.Counted := by
  cases l with
  | becomesAvailable r uid | leaves r uid how | emits e | requestPoll | kicked | timer =>
    obtain ⟨-, ⟨⟩⟩ := ite_none_right_eq_some.mp h
    exact hc
  | claim r | claimReturns i =>
    cases h
    exact hc
  | track r declared =>
    cases h
    exact hc.change (fun r' => s.tracker.lookup_track r r' declared) fun _ hp =>
      some.inj hp ▸ hc.poolAt r
  | deliver =>
    unfold Feed.next at h
    dsimp only at h
    split at h
    case h_1 e queue hqueue =>
      cases h
      exact hc.apply e
    case h_2 => cases h
  | ask =>
    unfold Feed.next at h
    dsimp only at h
    split at h
    case h_1 | h_2 =>
      cases h
      exact hc
    case h_3 => cases h
  | serve size status =>
    unfold Feed.next at h
    dsimp only at h
    split at h
    case h_1 =>
      obtain ⟨-, ⟨⟩⟩ := ite_none_right_eq_some.mp h
      exact hc
    case h_2 => cases h
  | applyPoll =>
    unfold Feed.next at h
    dsimp only at h
    split at h
    case h_1 r generation size status todo hpoll =>
      cases h
      exact hc.applyPoll generation size status
    case h_2 => cases h
  | pollFails =>
    unfold Feed.next at h
    dsimp only at h
    split at h
    case h_1 =>
      cases h
      exact hc
    case h_2 => cases h
  | pollNotFound =>
    unfold Feed.next at h
    dsimp only at h
    split at h
    case h_1 r generation todo hpoll =>
      cases h
      exact hc.change (fun r' => s.tracker.lookup_setDeclared_false r r') fun _ hp =>
        some.inj hp ▸ hc.poolAt r
    case h_2 => cases h
  | claimExhausted i =>
    unfold Feed.next at h
    dsimp only at h
    split at h
    case h_1 r hclaim =>
      cases h
      exact hc.change (fun r' => s.tracker.lookup_markExhausted r r') fun _ hp =>
        some.inj hp ▸ UidCount.counts_empty
    case h_2 => cases h

/-! ### Every step -/

/-- Each section keeps every Pool covered. -/
theorem tracking_next (h : s.next l = some s') (hr : Repaid s l) (hT : Tracking s)
    (hc : s.tracker.Counted) : Tracking s' := by
  cases l with
  | becomesAvailable ref uid =>
    obtain ⟨hnew, ⟨⟩⟩ := ite_none_right_eq_some.mp h
    refine hT.emit s.claims ?_ (fun _ => hnew.1) nofun
    intro r u hu
    by_cases heq : r = ref
    · subst heq
      rw [Function.update_self] at hu
      rcases Finset.mem_insert.mp hu with rfl | hu
      · exact .inr rfl
      · exact .inl hu
    · rw [Function.update_of_ne heq] at hu
      exact .inl hu
  | leaves ref uid how =>
    obtain ⟨hin, ⟨⟩⟩ := ite_none_right_eq_some.mp h
    refine hT.emit _ ?_ ?_ ?_
    · intro r u hu
      by_cases heq : r = ref
      · subst heq
        rw [Function.update_self] at hu
        exact .inl (Finset.mem_of_mem_erase hu)
      · rw [Function.update_of_ne heq] at hu
        exact .inl hu
    · intro htype
      rw [show how = .vmAvailable from htype] at hin
      exact absurd hin.2 (by decide)
    · intro counts htype
      rw [show how = .poolSizeBelowTarget _ from htype] at hin
      exact absurd hin.2 Bool.false_ne_true
  | emits e =>
    obtain ⟨htells, ⟨⟩⟩ := ite_none_right_eq_some.mp h
    unfold Feed.tells at htells
    refine hT.emit s.claims (fun _ _ => .inl) ?_ ?_
    · intro htype
      rw [htype] at htells
      cases htells
    · intro counts htype hzero
      rw [htype] at htells
      have htrue : counts.available = (s.avail e.pool).card := of_decide_eq_true htells
      exact Finset.card_eq_zero.mp (by omega)
  | deliver =>
    unfold Feed.next at h
    dsimp only at h
    split at h
    case h_1 e queue hqueue =>
      cases h
      exact hT.deliver hc hqueue
    case h_2 => cases h
  | track ref declared =>
    cases h
    exact hT.track ref declared
  | requestPoll =>
    obtain ⟨-, ⟨⟩⟩ := ite_none_right_eq_some.mp h
    exact hT.keep_poll rfl rfl rfl rfl fun ref _ => .inl rfl
  | kicked =>
    obtain ⟨-, ⟨⟩⟩ := ite_none_right_eq_some.mp h
    exact hT.begin false
  | timer =>
    obtain ⟨-, ⟨⟩⟩ := ite_none_right_eq_some.mp h
    exact hT.begin s.tracker.kick
  | ask => exact hT.ask h
  | serve size status =>
    unfold Feed.next at h
    dsimp only at h
    split at h
    case h_1 ref generation todo hpoll =>
      obtain ⟨htrue, ⟨⟩⟩ := ite_none_right_eq_some.mp h
      exact hT.serve hpoll htrue size
    case h_2 => cases h
  | applyPoll =>
    unfold Feed.next at h
    dsimp only at h
    split at h
    case h_1 ref generation size status todo hpoll =>
      cases h
      exact hT.applyPoll hpoll
    case h_2 => cases h
  | pollFails =>
    unfold Feed.next at h
    dsimp only at h
    split at h
    case h_1 ref generation todo hpoll =>
      cases h
      exact hT.pollFails hpoll hr
    case h_2 => cases h
  | pollNotFound =>
    unfold Feed.next at h
    dsimp only at h
    split at h
    case h_1 ref generation todo hpoll =>
      cases h
      exact hT.pollNotFound hpoll
    case h_2 => cases h
  | claim ref =>
    cases h
    exact hT.keep_poll rfl rfl rfl rfl fun _ => id
  | claimReturns i =>
    cases h
    exact hT.keep_poll rfl rfl rfl rfl fun _ => id
  | claimExhausted i =>
    unfold Feed.next at h
    dsimp only at h
    split at h
    case h_1 ref hclaim =>
      cases h
      exact hT.claimExhausted hclaim hr
    case h_2 => cases h

/-! ## No wrong zero -/

theorem tracking_reach (hs : feed.Reach Repaid s) : Tracking s := by
  refine (hs.inv (I := fun s => Tracking s ∧ s.tracker.Counted) ?_ ?_).1
  · rintro _ ⟨avail, rfl⟩
    exact ⟨tracking_init ⟨avail, rfl⟩, nofun⟩
  · rintro _ _ _ ⟨hT, hc⟩ hr h
    exact ⟨tracking_next h hr hT hc, Feed.counted_next h hc⟩

/-- **No wrong zero without a debt.** Where every event is applied, no call is
in flight and no poll is asked for, a declared Pool with an available MicroVM
reads positive or owes a poll. -/
theorem no_wrong_zero (hs : feed.Reach Repaid s) (hquiet : s.quiet) {ref : PoolRef}
    {p : TrackedPool} (hp : s.tracker.pools.lookup ref = some p) (hdecl : p.declared = true)
    (havail : (s.avail ref).Nonempty) : 0 < p.availableCount ∨ p.needsPoll = true := by
  obtain ⟨hqueue, hpoll, -, hkick, hrequests⟩ := hquiet
  obtain ⟨uid, hmem⟩ := havail
  rcases (tracking_reach hs).covered ref p hp with h | h | h | h | h | h | h
  · rw [hdecl] at h
    cases h
  · exact .inl h
  · exact .inr h
  · have hin := h uid hmem
    rw [hqueue] at hin
    cases hin
  · rw [hkick] at h
    cases h
  · omega
  · rw [hpoll] at h
    cases h

/-- A Pool that reads nothing, owes nothing and has a MicroVM, with nothing to
come. -/
def Feed.stranded (s : Feed) (ref : PoolRef) : Prop :=
  s.quiet ∧ (s.avail ref).Nonempty ∧ ∃ p, s.tracker.pools.lookup ref = some p ∧
    p.declared = true ∧ p.availableCount = 0 ∧ p.needsPoll = false

/-- One Pool. -/
def onePool : PoolRef := ⟨"default", "small"⟩

/-- A Pool Manager with `uids` in every Pool, and a fresh Tracker. -/
def freshFeed (uids : Finset String) : Feed :=
  ⟨fun _ => uids, [], { PoolTracker.new with streamUp := true }, .idle, 0, []⟩

theorem freshFeed_init (uids : Finset String) : feed.init (freshFeed uids) := ⟨_, rfl⟩

/-- `Track` asks for a poll, and the `GetPool` call fails. -/
def failedPoll : List FeedLabel :=
  [.track onePool true, .requestPoll, .kicked, .ask, .pollFails, .ask]

/-- A claim finds the Pool empty. Before it returns a MicroVM becomes available
and its event is applied. -/
def lateExhausted : List FeedLabel :=
  [.track onePool true, .requestPoll, .kicked, .ask, .serve 1 ⟨0, 0, 0, 0⟩, .applyPoll, .ask,
    .claim onePool, .becomesAvailable onePool "vm", .deliver, .claimExhausted 0]

/-- **A wrong zero without a debt**, by a poll that fails and by a claim that
reports late. -/
theorem wrong_zero :
    (∃ s, feed.Reach Machine.any s ∧ feed.exec (freshFeed {"vm"}) failedPoll = some s ∧
      s.stranded onePool) ∧
    ∃ s, feed.Reach Machine.any s ∧ feed.exec (freshFeed ∅) lateExhausted = some s ∧
      s.stranded onePool := by
  have hpoll := Machine.reach_exec (freshFeed_init {"vm"})
    (show (feed.exec (freshFeed {"vm"}) failedPoll).isSome from rfl)
  have hclaim := Machine.reach_exec (freshFeed_init ∅)
    (show (feed.exec (freshFeed ∅) lateExhausted).isSome from rfl)
  refine ⟨⟨_, hpoll, rfl, ⟨rfl, rfl, rfl, rfl, rfl⟩, ⟨"vm", ?_⟩, _, rfl, rfl, rfl, rfl⟩,
    ⟨_, hclaim, rfl, ⟨rfl, rfl, rfl, rfl, rfl⟩, ⟨"vm", ?_⟩, _, rfl, rfl, rfl, rfl⟩⟩
  · decide
  · decide

/-- A claim reports before the event of the new MicroVM is applied, and a poll
fails after it. -/
def repaidRun : List FeedLabel :=
  [.track onePool true, .requestPoll, .kicked, .ask, .serve 1 ⟨0, 0, 0, 0⟩, .applyPoll, .ask,
    .claim onePool, .becomesAvailable onePool "vm", .claimExhausted 0, .deliver,
    .track onePool true, .requestPoll, .kicked, .ask, .pollFails, .ask]

theorem no_wrong_zero_polled : ∃ s p, feed.Reach Repaid s ∧ s.quiet ∧
    s.tracker.pools.lookup onePool = some p ∧ p.declared = true ∧
    (s.avail onePool).Nonempty ∧ (0 < p.availableCount ∨ p.needsPoll = true) := by
  have hs := Machine.reach_run Repaid repaidRun (freshFeed_init ∅) rfl
  refine ⟨_, _, hs, ⟨rfl, rfl, rfl, rfl, rfl⟩, rfl, rfl, ⟨"vm", by decide⟩, ?_⟩
  exact no_wrong_zero hs ⟨rfl, rfl, rfl, rfl, rfl⟩ (rfl : AList.lookup onePool _ = _) rfl
    ⟨"vm", by decide⟩

end FlintlockRunner.Poolmgr

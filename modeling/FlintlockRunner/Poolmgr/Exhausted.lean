import FlintlockRunner.Poolmgr.Wakeup

/-!
# A Pool marked exhausted

`MarkExhausted` empties a Pool's count and marks it, so that the Pool reads
empty until the Pool Manager says otherwise. The mark alone does not see to it:
a release, an expiry and a provisioning lift it, and `Available` then reads the
count. What holds is about the count: it stays empty until something names a
MicroVM or brings a positive count of the Pool Manager's (`Tells`).
-/

namespace FlintlockRunner.Poolmgr

open TrackedPool

/-- The event says that the Pool has a MicroVM. -/
def EventType.tells (uid : String) : EventType → Bool
  | .vmAvailable => decide (uid ≠ "")
  | .poolSizeBelowTarget (some counts) => decide (0 < counts.available)
  | _ => false

/-- The step says that the Pool has a MicroVM: an event, or an answer that is
folded. -/
def Rounds.Tells (ref : PoolRef) (s : Rounds) : RoundLabel → Prop
  | .event e => e.pool = ref ∧ e.type.tells e.vmUID = true
  | .answer _ status =>
    s.question = some ⟨ref, s.tracker.generation ref⟩ ∧ 0 < status.available
  | _ => False

instance (ref : PoolRef) (s : Rounds) : DecidablePred (s.Tells ref) := fun l => by
  unfold Rounds.Tells
  split <;> infer_instance

/-! ## What keeps a count empty -/

namespace TrackedPool

variable {p : TrackedPool} {uid : String} {type : EventType}

theorem total_rebaseline_zero (hp : p.Marked) (hzero : p.available.total = 0) {n : Int}
    (hn : ¬ 0 < n) : (p.available.rebaseline n).total = 0 := by
  obtain ⟨hnamed, -⟩ := UidCount.parts_of_total_zero hp.counts hzero
  rw [UidCount.total_rebaseline (.inr hnamed), hnamed, Finset.card_empty]
  exact max_eq_right (not_lt.mp hn)

theorem apply_total_zero (hp : p.Marked) (hzero : p.available.total = 0)
    (htells : type.tells uid = false) : (p.apply uid type).1.available.total = 0 := by
  cases type with
  | vmAvailable =>
    have huid : uid = "" := not_not.mp (of_decide_eq_false htells)
    show (p.available.add uid).1.total = 0
    rw [UidCount.add, if_pos huid]
    exact hzero
  | vmClaimed =>
    show (p.available.leaves uid).total = 0
    rw [UidCount.leaves_of_total_zero hp.counts hzero]
    exact hzero
  | vmReleased | vmDeletedDueToExpiry | vmDeletedOnRelease | vmHookFailed _ =>
    show (p.available.remove uid).1.total = 0
    rw [UidCount.remove_of_total_zero hp.counts hzero]
    exact hzero
  | poolSizeBelowTarget counts =>
    cases counts with
    | none => exact hzero
    | some counts => exact total_rebaseline_zero hp hzero (of_decide_eq_false htells)
  | unspecified | vmProvisioned => exact hzero

theorem availableCount_of_total_zero (hzero : p.available.total = 0) : p.availableCount = 0 := by
  unfold availableCount
  rw [hzero, ite_self]

end TrackedPool

/-! ## Every step -/

variable {s s' : Rounds} {l : RoundLabel} {ref : PoolRef}

/-- The Pool's count is empty. -/
def Rounds.Empty (ref : PoolRef) (s : Rounds) : Prop :=
  (s.tracker.poolAt ref).available.total = 0

theorem Rounds.Empty.of_lookup {p' : TrackedPool} (hE : s.Empty ref)
    (h : s.tracker.pools.lookup ref = some p') : p'.available.total = 0 := by
  unfold Rounds.Empty PoolTracker.poolAt at hE
  rw [h] at hE
  exact hE

/-- **A step keeps an empty count unless it tells of a MicroVM.** -/
theorem Rounds.Empty.next (hE : s.Empty ref) (hs : s.Sound) (h : s.next l = some s')
    (htells : ¬ s.Tells ref l) : s'.Empty ref := by
  unfold Rounds.Empty PoolTracker.poolAt
  cases hp' : s'.tracker.pools.lookup ref with
  | none => rfl
  | some p' =>
    show p'.available.total = 0
    rcases becomes h hp' with hp | hb
    · exact hE.of_lookup hp
    cases hb with
    | track | wait | raced | notFound => exact hE
    | markExhausted => rfl
    | event e =>
      rw [woke_available]
      by_cases hpool : e.pool = ref
      · refine apply_total_zero (hs.poolAt ref) hE ?_
        exact Bool.eq_false_iff.mpr fun ht => htells ⟨hpool, ht⟩
      · -- the event is another Pool's
        cases h
        dsimp only at hp'
        rw [PoolTracker.lookup_apply, if_neg (Ne.symm hpool)] at hp'
        have hkept := hE.of_lookup hp'
        rwa [woke_available] at hkept
    | folded size status =>
      rw [woke_available]
      by_cases hpos : 0 < status.available
      · -- a positive answer is about another Pool, or it is discarded
        obtain ⟨q, hq, rfl⟩ := Option.map_eq_some_iff.mp h
        dsimp only at hp'
        rw [PoolTracker.lookup_applyPoll] at hp'
        by_cases hpool : ref = q.ref
        · subst hpool
          rw [if_pos rfl] at hp'
          obtain ⟨p, hp, hp'⟩ := Option.map_eq_some_iff.mp hp'
          have hgeneration : p.generation ≠ q.generation := by
            intro heq
            refine htells ⟨?_, hpos⟩
            rw [PoolTracker.generation, hp, hq]
            exact congrArg (fun g => some (Question.mk q.ref g)) heq.symm
          rw [if_pos hgeneration] at hp'
          have hkept := congrArg available hp'
          rw [woke_available] at hkept
          have hzero : p.available.total = 0 := hE.of_lookup hp
          rw [← hkept]
          exact hzero
        · rw [if_neg hpool] at hp'
          have hkept := hE.of_lookup hp'
          rwa [woke_available] at hkept
      · exact total_rebaseline_zero (hs.poolAt ref) hE hpos

/-- **Exhaustion holds until told otherwise.** In every run a Pool that is marked
exhausted counts nothing; and after `MarkExhausted` a Pool shows nothing for as
long as no step tells of a MicroVM. -/
theorem exhaustion_holds (ref : PoolRef) :
    (∀ s p, rounds.Reach Machine.any s → s.tracker.pools.lookup ref = some p →
      p.exhausted = true → p.available.total = 0) ∧
    ∀ s s₁ s', rounds.Reach Machine.any s → rounds.next s (.markExhausted ref) = some s₁ →
      rounds.Path (fun t l => ¬ t.Tells ref l) s₁ s' →
      ∀ healthy, s'.tracker.available ref healthy = 0 := by
  constructor
  · intro s p hs hp hex
    rw [((sound_reach hs).marked hp).empty hex]
    rfl
  · intro s s₁ s' hs hmark hrun healthy
    have hmarked : s₁.Empty ref ∧ s₁.Sound := by
      refine ⟨?_, (sound_reach hs).next (l := .markExhausted ref) hmark⟩
      cases hmark
      unfold Rounds.Empty PoolTracker.poolAt
      dsimp only
      rw [PoolTracker.lookup_markExhausted, if_pos rfl]
      rfl
    have hempty : s'.Empty ref ∧ s'.Sound := by
      refine hrun.inv (I := fun t => t.Empty ref ∧ t.Sound) ?_ hmarked
      rintro t l t' ⟨hE, hsound⟩ htells h
      exact ⟨hE.next hsound h htells, hsound.next h⟩
    cases healthy with
    | false => rfl
    | true =>
      rw [available_eq]
      exact availableCount_of_total_zero hempty.1

/-- The Pool has a MicroVM that an event has named, and a claim finds none. -/
def foundEmptyRun : List RoundLabel :=
  [.track roundsPool true, .event ⟨roundsPool, "vm-1", .vmAvailable⟩]

/-- The mark is lifted by the release of another MicroVM; a poll is folded. -/
def liftedRun : List RoundLabel :=
  [.event ⟨roundsPool, "vm-0", .vmReleased⟩, .pollAll, .ask, .answer 1 ⟨0, 0, 1, 0⟩]

theorem exhaustion_holds_lifted : ∃ s s₁ s', rounds.exec noRounds foundEmptyRun = some s ∧
    s.tracker.available roundsPool true = 1 ∧
    rounds.next s (.markExhausted roundsPool) = some s₁ ∧
    rounds.exec s₁ liftedRun = some s' ∧
    (s'.tracker.pools.lookup roundsPool).map TrackedPool.exhausted = some false ∧
    s'.tracker.available roundsPool true = 0 := by
  have hs := Machine.reach_exec rfl (show (rounds.exec noRounds foundEmptyRun).isSome from rfl)
  refine ⟨_, _, _, rfl, rfl, rfl, rfl, rfl, ?_⟩
  refine (exhaustion_holds roundsPool).2 _ _ _ hs rfl ?_ true
  exact Machine.path_execWhile liftedRun rfl

end FlintlockRunner.Poolmgr

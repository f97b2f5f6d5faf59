import FlintlockRunner.Poolmgr.Rounds

/-!
# Wake-ups on a Pool

A Job that finds a Pool empty takes the Pool's channel from `Wait` and blocks
on it. What it needs is that the step that takes the Pool's count from zero to
a positive number closes that channel.

Most steps do: a named MicroVM and a folded poll wake the waiters, and a lifted
exhaustion mark shows nothing, because `MarkExhausted` emptied the count. Two
do not (`Wakes`): a `Track` that declares a Pool again whose MicroVMs are still
counted, and the counts that a `POOL_SIZE_BELOW_TARGET` event carries.
-/

namespace FlintlockRunner.Poolmgr

open Option PoolTracker TrackedPool UidCount

/-! ## Counts that read nothing -/

namespace UidCount

variable {c : UidCount} {uid : String}

theorem parts_of_total_zero (hc : c.Counts) (h : c.total = 0) : c.named = ∅ ∧ c.unnamed = 0 := by
  unfold Counts at hc
  unfold total at h
  have hcard : c.named.card = 0 := by omega
  exact ⟨Finset.card_eq_zero.mp hcard, by omega⟩

theorem remove_of_total_zero (hc : c.Counts) (h : c.total = 0) : (c.remove uid).1 = c := by
  have hnamed : uid ∉ c.named := (parts_of_total_zero hc h).1 ▸ Finset.notMem_empty uid
  rw [remove_of_notMem hnamed]

theorem leaves_of_total_zero (hc : c.Counts) (h : c.total = 0) : c.leaves uid = c := by
  obtain ⟨hnamed, hunnamed⟩ := parts_of_total_zero hc h
  rw [leaves_of_notMem (hnamed ▸ Finset.notMem_empty uid)]
  unfold take
  rw [if_pos (.inr (le_of_eq hunnamed))]

end UidCount

variable {p' : TrackedPool}

namespace TrackedPool

/-- A Pool's count is a count, and the mark of `MarkExhausted` stands only over
a count of nothing. -/
structure Marked (p : TrackedPool) : Prop where
  counts : p.available.Counts
  empty : p.exhausted = true → p.available = .empty

variable {p : TrackedPool} {uid : String} {type : EventType}

theorem marked_new (ch : Nat) : (new ch).Marked := ⟨counts_empty, nofun⟩

theorem Marked.congr (hp : p.Marked) (havailable : p'.available = p.available)
    (hexhausted : p'.exhausted = p.exhausted) : p'.Marked :=
  ⟨havailable ▸ hp.counts, fun h => havailable.trans (hp.empty (hexhausted ▸ h))⟩

theorem Marked.woke (hp : p.Marked) (ch : Nat) (woken : Bool) : (p.woke ch woken).Marked := by
  cases woken
  · exact hp
  · exact hp.congr rfl rfl

/-- What a Pool that reads nothing holds once it is declared. -/
theorem Marked.total_eq_zero (hp : p.Marked) (hdecl : p.declared = true)
    (hzero : p.availableCount = 0) : p.available.total = 0 := by
  cases hex : p.exhausted with
  | true =>
    rw [hp.empty hex]
    rfl
  | false =>
    unfold availableCount at hzero
    rw [hdecl, hex] at hzero
    exact hzero

theorem declared_of_availableCount_pos (h : 0 < p.availableCount) : p.declared = true := by
  unfold availableCount at h
  cases hdecl : p.declared with
  | true => rfl
  | false =>
    rw [hdecl] at h
    exact absurd h (lt_irrefl 0)

theorem total_pos_of_availableCount_pos (h : 0 < p.availableCount) : 0 < p.available.total := by
  unfold availableCount at h
  split at h
  · exact absurd h (lt_irrefl 0)
  · exact h

theorem Marked.fold (hp : p.Marked) : (p.fold uid type).1.Marked := by
  refine ⟨fold_counts p uid type hp.counts, fun hex => ?_⟩
  cases type with
  | vmProvisioned | vmAvailable | vmReleased | vmDeletedDueToExpiry | vmDeletedOnRelease =>
    cases hex
  | vmClaimed =>
    show p.available.leaves uid = _
    rw [hp.empty hex]
    exact leaves_of_total_zero counts_empty rfl
  | vmHookFailed quarantined =>
    show (p.available.remove uid).1 = _
    rw [hp.empty hex]
    exact remove_of_total_zero counts_empty rfl
  | poolSizeBelowTarget counts =>
    cases counts with
    | none => exact hp.empty hex
    | some counts => cases hex
  | unspecified => exact hp.empty hex

theorem Marked.apply (hp : p.Marked) : (p.apply uid type).1.Marked :=
  (Marked.fold (hp.congr rfl rfl : p.counted.Marked)).congr rfl rfl

/-- **The events that take a count from zero**: a MicroVM named for the first
time, which wakes the waiters, and counts of the Pool Manager, which do not. -/
theorem apply_raised (hp : p.Marked) (hzero : p.availableCount = 0)
    (hpos : 0 < (p.apply uid type).1.availableCount) :
    (type = .vmAvailable ∧ (p.apply uid type).2 = true) ∨
    ∃ counts, type = .poolSizeBelowTarget (some counts) ∧ (p.apply uid type).2 = false := by
  have hdecl : p.declared = true := by
    rw [← p.apply_declared uid type]
    exact declared_of_availableCount_pos hpos
  have htotal := hp.total_eq_zero hdecl hzero
  have hnone : ¬ 0 < p.available.total := by
    rw [htotal]
    exact lt_irrefl 0
  have hafter := total_pos_of_availableCount_pos hpos
  cases type with
  | vmAvailable =>
    refine .inl ⟨rfl, ?_⟩
    cases hadded : (p.available.add uid).2.1 with
    | true => exact hadded
    | false =>
      -- a MicroVM that was not added leaves the count
      have hsame : (p.available.add uid).1 = p.available := by
        unfold add at hadded ⊢
        split at hadded
        · rw [if_pos ‹_›]
        · split at hadded
          · rw [if_neg ‹_›, if_pos ‹_›]
          · cases hadded
      exact absurd (hsame ▸ hafter : 0 < p.available.total) hnone
  | vmClaimed =>
    exact absurd (leaves_of_total_zero hp.counts htotal ▸ hafter) hnone
  | vmReleased | vmDeletedDueToExpiry | vmDeletedOnRelease | vmHookFailed _ =>
    exact absurd (remove_of_total_zero hp.counts htotal ▸ hafter) hnone
  | poolSizeBelowTarget counts =>
    cases counts with
    | none => exact absurd hafter hnone
    | some counts => exact .inr ⟨counts, rfl, rfl⟩
  | vmProvisioned | unspecified => exact absurd hafter hnone

end TrackedPool

/-! ## Channels -/

namespace PoolTracker

/-- A channel that was made is closed once it is no tracked Pool's current
one. -/
def Closed (t : PoolTracker) (ch : Nat) : Prop :=
  ∀ ref p, t.pools.lookup ref = some p → p.waiters ≠ ch

/-- Every Pool has a channel of its own. -/
structure Channels (t : PoolTracker) : Prop where
  made : ∀ {ref p}, t.pools.lookup ref = some p → p.waiters < t.made
  apart : ∀ {ref ref' p p'}, t.pools.lookup ref = some p → t.pools.lookup ref' = some p' →
    p.waiters = p'.waiters → ref = ref'

/-- The channel is closed, or it is the Pool's. -/
structure Owns (t : PoolTracker) (ref : PoolRef) (ch : Nat) : Prop where
  made : ch < t.made
  only : ∀ {ref' p}, t.pools.lookup ref' = some p → p.waiters = ch → ref' = ref

/-- What a section does to the channels: at most one Pool gets a new one. -/
structure Rearmed (t t' : PoolTracker) (r : PoolRef) : Prop where
  made : t.made ≤ t'.made
  entry : ∀ {ref p'}, t'.pools.lookup ref = some p' →
    (∃ p, t.pools.lookup ref = some p ∧ p.waiters = p'.waiters) ∨
    (ref = r ∧ p'.waiters = t.made ∧ t.made < t'.made)

variable {t t' : PoolTracker} {r ref : PoolRef} {ch : Nat}

theorem Channels.rearmed (ht : t.Channels) (h : Rearmed t t' r) : t'.Channels where
  made := by
    intro ref p' hp'
    rcases h.entry hp' with ⟨p, hp, hw⟩ | ⟨-, hw, hmade⟩
    · exact hw ▸ lt_of_lt_of_le (ht.made hp) h.made
    · exact hw ▸ hmade
  apart := by
    intro ref₁ ref₂ p₁ p₂ h₁ h₂ heq
    rcases h.entry h₁ with ⟨q₁, hq₁, hw₁⟩ | ⟨rfl, hw₁, -⟩ <;>
      rcases h.entry h₂ with ⟨q₂, hq₂, hw₂⟩ | ⟨rfl, hw₂, -⟩
    · exact ht.apart hq₁ hq₂ (hw₁.trans (heq.trans hw₂.symm))
    · exact absurd (hw₁.trans (heq.trans hw₂)) (ne_of_lt (ht.made hq₁))
    · exact absurd (hw₂.trans (heq.symm.trans hw₁)) (ne_of_lt (ht.made hq₂))
    · rfl

theorem Owns.rearmed (ht : t.Owns ref ch) (h : Rearmed t t' r) : t'.Owns ref ch where
  made := lt_of_lt_of_le ht.made h.made
  only := by
    intro ref' p' hp' hw
    rcases h.entry hp' with ⟨p, hp, hkept⟩ | ⟨-, hnew, -⟩
    · exact ht.only hp (hkept.trans hw)
    · exact absurd (hw.symm.trans hnew) (ne_of_lt ht.made)

theorem Owns.closed_iff (ht : t.Owns ref ch) :
    t.Closed ch ↔ ∀ p, t.pools.lookup ref = some p → p.waiters ≠ ch := by
  refine ⟨fun h p hp => h ref p hp, fun h ref' p hp hw => ?_⟩
  cases ht.only hp hw
  exact h p hp hw

/-! ### The sections -/

theorem Rearmed.of_lookup {o : Option TrackedPool} (hmade : t.made ≤ t'.made)
    (hlookup : ∀ ref, t'.pools.lookup ref = if ref = r then o else t.pools.lookup ref)
    (ho : ∀ p', o = some p' → (∃ p, t.pools.lookup r = some p ∧ p.waiters = p'.waiters) ∨
      (p'.waiters = t.made ∧ t.made < t'.made)) : Rearmed t t' r := by
  refine ⟨hmade, ?_⟩
  intro ref p' hp'
  rw [hlookup] at hp'
  split at hp'
  · rename_i heq
    cases heq
    exact (ho p' hp').imp_right fun h => ⟨rfl, h⟩
  · exact .inl ⟨p', hp', rfl⟩

theorem rearmed_put (t : PoolTracker) (r : PoolRef) (hw : p'.waiters = (t.poolLocked r).2.waiters) :
    Rearmed t ((t.poolLocked r).1.put r p') r := by
  rw [poolLocked_snd] at hw
  cases hr : t.pools.lookup r with
  | some p =>
    have hlocked : t.poolLocked r = (t, p) := by
      unfold poolLocked
      rw [hr]
    refine .of_lookup (by rw [hlocked]; exact le_rfl)
      (fun ref => lookup_poolLocked_put t r ref p') ?_
    rintro _ ⟨⟩
    refine .inl ⟨p, hr, ?_⟩
    rw [hw, poolAt, hr]
    rfl
  | none =>
    have hlocked : ((t.poolLocked r).1.put r p').made = t.made + 1 := by
      unfold poolLocked
      rw [hr]
      rfl
    refine .of_lookup (by rw [hlocked]; exact Nat.le_succ _)
      (fun ref => lookup_poolLocked_put t r ref p') ?_
    rintro _ ⟨⟩
    refine .inr ⟨?_, by rw [hlocked]; exact Nat.lt_succ_self _⟩
    rw [hw, poolAt, hr]
    rfl

theorem rearmed_closeWaiters {p : TrackedPool} (hp : t.pools.lookup r = some p)
    (p' : TrackedPool) (hw : p'.waiters = p.waiters) (woken : Bool) :
    Rearmed t (t.closeWaiters r p' woken) r := by
  cases woken with
  | false =>
    refine .of_lookup le_rfl (fun ref => lookup_closeWaiters t r ref p' false) ?_
    rintro _ ⟨⟩
    exact .inl ⟨p, hp, hw.symm⟩
  | true =>
    refine .of_lookup (Nat.le_succ _) (fun ref => lookup_closeWaiters t r ref p' true) ?_
    rintro _ ⟨⟩
    exact .inr ⟨rfl, Nat.lt_succ_self _⟩

theorem rearmed_untrack (t : PoolTracker) (r : PoolRef) : Rearmed t (t.untrack r) r :=
  .of_lookup le_rfl (fun ref => lookup_untrack t r ref) (by rintro _ ⟨⟩)

theorem rearmed_refl (t : PoolTracker) (r : PoolRef) : Rearmed t t r :=
  ⟨le_rfl, fun hp => .inl ⟨_, hp, rfl⟩⟩

theorem rearmed_apply (t : PoolTracker) (e : Event) : Rearmed t (t.apply e).1 e.pool := by
  unfold apply
  split
  · exact rearmed_refl t e.pool
  · rename_i p hp
    refine rearmed_closeWaiters hp _ ?_ _
    cases e.type with
    | poolSizeBelowTarget counts => cases counts <;> rfl
    | _ => rfl

theorem rearmed_applyPoll (t : PoolTracker) (r : PoolRef) (asked : Nat) (size : Int)
    (status : PoolStatus) : Rearmed t (t.applyPoll r asked size status).1 r := by
  unfold applyPoll
  split
  · exact rearmed_refl t r
  · rename_i p hp
    split
    · exact rearmed_closeWaiters hp { p with needsPoll := true } rfl false
    · exact rearmed_closeWaiters hp (p.settle size status) rfl _

end PoolTracker

/-! ## Every step -/

variable {s s' t t' : Rounds} {l : RoundLabel}

theorem rearmed_next (h : s.next l = some s') :
    ∃ r, PoolTracker.Rearmed s.tracker s'.tracker r := by
  cases l with
  | track r declared =>
    cases h
    exact ⟨r, s.tracker.rearmed_put r rfl⟩
  | wait r =>
    cases h
    exact ⟨r, s.tracker.rearmed_put r rfl⟩
  | markExhausted r =>
    cases h
    exact ⟨r, s.tracker.rearmed_put r rfl⟩
  | notFound =>
    obtain ⟨q, -, rfl⟩ := map_eq_some_iff.mp h
    exact ⟨q.ref, s.tracker.rearmed_put q.ref rfl⟩
  | untrack r =>
    cases h
    exact ⟨r, s.tracker.rearmed_untrack r⟩
  | event e =>
    cases h
    exact ⟨e.pool, s.tracker.rearmed_apply e⟩
  | answer size status =>
    obtain ⟨q, -, rfl⟩ := map_eq_some_iff.mp h
    exact ⟨q.ref, s.tracker.rearmed_applyPoll q.ref q.generation size status⟩
  | pollAll =>
    obtain ⟨-, ⟨⟩⟩ := ite_none_right_eq_some.mp h
    exact ⟨default, s.tracker.rearmed_refl default⟩
  | ask =>
    unfold Rounds.next at h
    dsimp only at h
    split at h
    · cases h
      exact ⟨default, s.tracker.rearmed_refl default⟩
    · cases h
  | fails =>
    obtain ⟨q, -, rfl⟩ := map_eq_some_iff.mp h
    exact ⟨default, s.tracker.rearmed_refl default⟩

/-- What a step makes of the entry of the Pool it is about. -/
inductive Becomes (s : Rounds) (p : TrackedPool) : RoundLabel → TrackedPool → Prop
  | track (ref : PoolRef) (declared : Bool) :
      Becomes s p (.track ref declared) { p with declared := declared }
  | wait (ref : PoolRef) : Becomes s p (.wait ref) { p with waiting := p.waiting + 1 }
  | markExhausted (ref : PoolRef) :
      Becomes s p (.markExhausted ref) { p with exhausted := true, available := .empty }
  | event (e : Event) :
      Becomes s p (.event e)
        ((p.apply e.vmUID e.type).1.woke s.tracker.made (p.apply e.vmUID e.type).2)
  | raced (size : Int) (status : PoolStatus) :
      Becomes s p (.answer size status) { p with needsPoll := true }
  | folded (size : Int) (status : PoolStatus) :
      Becomes s p (.answer size status) ((p.settle size status).woke s.tracker.made
        (decide ((p.settle size status).availableCount > 0)))
  | notFound :
      Becomes s p .notFound { p with declared := false, needsPoll := false, unsettled := false }

theorem becomes (h : s.next l = some s') {ref : PoolRef}
    (hp' : s'.tracker.pools.lookup ref = some p') :
    s.tracker.pools.lookup ref = some p' ∨ Becomes s (s.tracker.poolAt ref) l p' := by
  -- an entry that the section stored for the Pool it names
  have hstored : ∀ {r : PoolRef} {q : TrackedPool},
      (if ref = r then some q else s.tracker.pools.lookup ref) = some p' →
      (ref = r → Becomes s (s.tracker.poolAt ref) l q) →
      s.tracker.pools.lookup ref = some p' ∨ Becomes s (s.tracker.poolAt ref) l p' := by
    intro r q hif hq
    split at hif
    · rename_i heq
      cases hif
      exact .inr (hq heq)
    · exact .inl hif
  cases l with
  | track r declared =>
    cases h
    refine hstored (s.tracker.lookup_track r ref declared ▸ hp') ?_
    rintro rfl
    exact .track ref declared
  | wait r =>
    cases h
    refine hstored (s.tracker.lookup_wait r ref ▸ hp') ?_
    rintro rfl
    exact .wait ref
  | markExhausted r =>
    cases h
    refine hstored (s.tracker.lookup_markExhausted r ref ▸ hp') ?_
    rintro rfl
    exact .markExhausted ref
  | notFound =>
    obtain ⟨q, -, rfl⟩ := map_eq_some_iff.mp h
    refine hstored (s.tracker.lookup_setDeclared_false q.ref ref ▸ hp') ?_
    intro heq
    rw [heq]
    exact .notFound
  | untrack r =>
    cases h
    dsimp only at hp'
    rw [lookup_untrack] at hp'
    split at hp'
    · cases hp'
    · exact .inl hp'
  | event e =>
    cases h
    dsimp only at hp'
    rw [lookup_apply] at hp'
    split at hp'
    · rename_i heq
      obtain ⟨p, hp, rfl⟩ := map_eq_some_iff.mp hp'
      rw [PoolTracker.poolAt, heq, hp]
      exact .inr (.event e)
    · exact .inl hp'
  | answer size status =>
    obtain ⟨q, -, rfl⟩ := map_eq_some_iff.mp h
    dsimp only at hp'
    rw [lookup_applyPoll] at hp'
    split at hp'
    · rename_i heq
      obtain ⟨p, hp, rfl⟩ := map_eq_some_iff.mp hp'
      rw [PoolTracker.poolAt, heq, hp]
      split
      · exact .inr (.raced size status)
      · exact .inr (.folded size status)
    · exact .inl hp'
  | pollAll =>
    obtain ⟨-, ⟨⟩⟩ := ite_none_right_eq_some.mp h
    exact .inl hp'
  | ask =>
    unfold Rounds.next at h
    dsimp only at h
    split at h
    · cases h
      exact .inl hp'
    · cases h
  | fails =>
    obtain ⟨q, -, rfl⟩ := map_eq_some_iff.mp h
    exact .inl hp'

theorem Becomes.marked {p p' : TrackedPool} (h : Becomes s p l p') (hp : p.Marked) : p'.Marked := by
  cases h with
  | track | wait | raced | notFound => exact hp.congr rfl rfl
  | markExhausted => exact ⟨counts_empty, fun _ => rfl⟩
  | event e => exact hp.apply.woke _ _
  | folded size status =>
    exact (⟨rebaseline_counts _, nofun⟩ : (p.settle size status).Marked).woke _ _

/-- The steps that close the waiters' channel when they take a count from
zero. -/
def Wakes : RoundLabel → Prop
  | .track _ _ => False
  | .event ⟨_, _, .poolSizeBelowTarget (some _)⟩ => False
  | _ => True

/-- What a step that takes a count from zero does to the Pool's channel. -/
theorem Becomes.raised {p p' : TrackedPool} (h : Becomes s p l p') (hp : p.Marked)
    (hzero : p.availableCount = 0) (hpos : 0 < p'.availableCount) :
    (Wakes l ∧ p'.waiters = s.tracker.made) ∨ (¬ Wakes l ∧ p'.waiters = p.waiters) := by
  cases h with
  | track ref declared => exact .inr ⟨not_false, rfl⟩
  | event e =>
    obtain ⟨pool, uid, type⟩ := e
    rw [woke_availableCount] at hpos
    rcases apply_raised hp hzero hpos with ⟨rfl, hwoken⟩ | ⟨counts, rfl, hwoken⟩
    · refine .inl ⟨trivial, ?_⟩
      dsimp only
      rw [hwoken]
      rfl
    · exact .inr ⟨not_false, rfl⟩
  | folded size status =>
    rw [woke_availableCount] at hpos
    refine .inl ⟨trivial, ?_⟩
    rw [decide_eq_true hpos]
    rfl
  | wait | raced =>
    exact absurd hzero (ne_of_gt hpos)
  | markExhausted => exact absurd (total_pos_of_availableCount_pos hpos) (lt_irrefl 0)
  | notFound => cases declared_of_availableCount_pos hpos

/-- Every run keeps the channels apart and the marks over counts of nothing. -/
structure Rounds.Sound (s : Rounds) : Prop where
  channels : s.tracker.Channels
  marked : ∀ {ref p}, s.tracker.pools.lookup ref = some p → p.Marked

theorem Rounds.Sound.poolAt (hs : s.Sound) (ref : PoolRef) : (s.tracker.poolAt ref).Marked := by
  unfold PoolTracker.poolAt
  cases hp : s.tracker.pools.lookup ref with
  | none => exact marked_new _
  | some p => exact hs.marked hp

theorem Rounds.Sound.next (hs : s.Sound) (h : s.next l = some s') : s'.Sound where
  channels := by
    obtain ⟨r, hr⟩ := rearmed_next h
    exact hs.channels.rearmed hr
  marked := by
    intro ref p' hp'
    rcases becomes h hp' with hp | hb
    · exact hs.marked hp
    · exact hb.marked (hs.poolAt ref)

theorem sound_reach (hs : rounds.Reach Machine.any s) : s.Sound := by
  refine hs.inv (I := Rounds.Sound) ?_ fun t l t' ht _ h => ht.next h
  rintro _ rfl
  exact ⟨⟨nofun, nofun⟩, nofun⟩

theorem Rounds.Sound.owns_wait (hs : s.Sound) {ref : PoolRef}
    (h : s.next (.wait ref) = some s') : s'.tracker.Owns ref (s.tracker.wait ref).2 := by
  have hs' := hs.next h
  have hentry : s'.tracker.pools.lookup ref = some { s.tracker.poolAt ref with
      waiting := (s.tracker.poolAt ref).waiting + 1 } := by
    cases h
    dsimp only
    rw [lookup_wait, if_pos rfl]
  have hch : (s.tracker.wait ref).2 = (s.tracker.poolAt ref).waiters :=
    congrArg waiters (s.tracker.poolLocked_snd ref)
  rw [hch]
  generalize s.tracker.poolAt ref = p at hentry ⊢
  exact ⟨hs'.channels.made (p := { p with waiting := p.waiting + 1 }) hentry,
    fun hp hw => hs'.channels.apart hp hentry hw⟩

theorem available_eq (t : PoolTracker) (ref : PoolRef) :
    t.available ref true = (t.poolAt ref).availableCount := by
  unfold PoolTracker.available PoolTracker.poolAt
  cases t.pools.lookup ref <;> rfl

/-- **A count that rises from zero wakes the waiters**, in every run, unless the
step that raises it is a `Track` or brings the Pool Manager's counts: a channel
that `Wait` returned and that is still open is closed by the step exactly if it
is neither. -/
theorem raised_count_wakes (hs : rounds.Reach Machine.any s) {ref : PoolRef} {s₁ : Rounds}
    (hwait : rounds.next s (.wait ref) = some s₁) (hrun : rounds.Path Machine.any s₁ t)
    (h : rounds.next t l = some t') (hzero : t.tracker.available ref true = 0)
    (hpos : 0 < t'.tracker.available ref true) :
    t'.tracker.Closed (s.tracker.wait ref).2 ↔
      t.tracker.Closed (s.tracker.wait ref).2 ∨ Wakes l := by
  have hsound : t.Sound :=
    sound_reach ((hs.tail trivial hwait).path hrun)
  have howns : t.tracker.Owns ref (s.tracker.wait ref).2 := by
    refine hrun.inv (I := fun u => u.tracker.Owns ref (s.tracker.wait ref).2) ?_
      ((sound_reach hs).owns_wait hwait)
    intro u m u' hu _ hnext
    obtain ⟨r, hr⟩ := rearmed_next hnext
    exact hu.rearmed hr
  obtain ⟨r, hr⟩ := rearmed_next h
  rw [(howns.rearmed hr).closed_iff, howns.closed_iff]
  generalize (s.tracker.wait ref).2 = ch at howns ⊢
  rw [available_eq] at hzero
  cases hp' : t'.tracker.pools.lookup ref with
  | none =>
    rw [PoolTracker.available, hp'] at hpos
    exact absurd hpos (lt_irrefl 0)
  | some p' =>
    rw [PoolTracker.available, hp'] at hpos
    rcases becomes h hp' with hp | hb
    · rw [PoolTracker.poolAt, hp] at hzero
      exact absurd hzero (ne_of_gt hpos)
    rcases hb.raised (hsound.poolAt ref) hzero hpos with ⟨hwakes, hw⟩ | ⟨hwakes, hw⟩
    · refine iff_of_true ?_ (.inr hwakes)
      rintro _ ⟨⟩
      rw [hw]
      exact ne_of_gt howns.made
    · rw [or_iff_left hwakes]
      unfold PoolTracker.poolAt at hw
      cases hp : t.tracker.pools.lookup ref with
      | some p =>
        rw [hp] at hw
        constructor
        · rintro hne _ ⟨⟩
          exact fun heq => hne p' rfl (hw.trans heq)
        · rintro hne _ ⟨⟩
          exact fun heq => hne p rfl (hw.symm.trans heq)
      | none =>
        rw [hp] at hw
        refine iff_of_true ?_ (by rintro _ ⟨⟩)
        rintro _ ⟨⟩
        rw [hw]
        exact ne_of_gt howns.made

theorem raised_count_wakes_named : ∃ s s₁ s₂, rounds.Reach Machine.any s ∧
    rounds.next s (.wait roundsPool) = some s₁ ∧
    rounds.next s₁ (.event ⟨roundsPool, "vm-1", .vmAvailable⟩) = some s₂ ∧
    s₂.tracker.available roundsPool true = 1 ∧
    s₂.tracker.Closed (s.tracker.wait roundsPool).2 := by
  have hs := Machine.reach_exec rfl
    (show (rounds.exec noRounds [.track roundsPool true]).isSome from rfl)
  refine ⟨_, _, _, hs, rfl, rfl, rfl, ?_⟩
  exact (raised_count_wakes (l := .event ⟨roundsPool, "vm-1", .vmAvailable⟩) hs rfl (.refl _) rfl
    rfl (by decide)).mpr (.inr trivial)

theorem not_closed_of_lookup {t : PoolTracker} {ch : Nat} (ref : PoolRef)
    (h : (t.pools.lookup ref).map TrackedPool.waiters = some ch) : ¬ t.Closed ch := by
  obtain ⟨p, hp, hw⟩ := map_eq_some_iff.mp h
  exact fun hc => hc ref p hp hw

/-- **A waiter sleeps on** while a MicroVM is available, first when the Pool
Manager's counts bring the news, then when a Pool is declared again that a poll
had not found. -/
theorem wakeup_lost :
    (∃ s s₁ s₂, rounds.exec noRounds [.track roundsPool true] = some s ∧
      rounds.next s (.wait roundsPool) = some s₁ ∧
      rounds.next s₁ (.event ⟨roundsPool, "", .poolSizeBelowTarget (some ⟨⟨1, 0, 0, 0⟩, 2⟩)⟩)
        = some s₂ ∧
      s₁.tracker.available roundsPool true = 0 ∧ s₂.tracker.available roundsPool true = 1 ∧
      ¬ s₂.tracker.Closed (s.tracker.wait roundsPool).2) ∧
    ∃ s s₁ s₂, rounds.exec noRounds [.track roundsPool true,
        .event ⟨roundsPool, "vm-1", .vmAvailable⟩, .pollAll, .ask, .notFound] = some s ∧
      rounds.next s (.wait roundsPool) = some s₁ ∧
      rounds.next s₁ (.track roundsPool true) = some s₂ ∧
      s₁.tracker.available roundsPool true = 0 ∧ s₂.tracker.available roundsPool true = 1 ∧
      ¬ s₂.tracker.Closed (s.tracker.wait roundsPool).2 :=
  ⟨⟨_, _, _, rfl, rfl, rfl, rfl, rfl, not_closed_of_lookup roundsPool rfl⟩,
    ⟨_, _, _, rfl, rfl, rfl, rfl, rfl, not_closed_of_lookup roundsPool rfl⟩⟩

end FlintlockRunner.Poolmgr

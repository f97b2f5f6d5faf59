import FlintlockRunner.Base.Machine
import FlintlockRunner.Poolmgr.Tracker

/-!
# Poll rounds against `Track` and `Untrack`

The Tracker's table under every interleaving of its sections, with the poll
loop of `pollAll` beside them: a round takes the tracked Pools, and for each
one reads the generation, asks `GetPool` without the lock and folds the answer.
The Pool Manager answers anything, at any delay.

Two things are meant to hold. A Pool is in the table exactly from a `Track` to
the next `Untrack`; and an answer that an event raced is discarded. Sections
that make an entry on demand break both: an entry comes back that nobody
tracks (`untracked_comes_back`), and a second entry counts its generations
from zero again, so that an old answer passes for a new one
(`raced_poll_folded`).

A discarded answer asks for another poll. That cannot go on by itself: each
discarded answer is paid for by an event (`discards_le_events`).
-/

namespace FlintlockRunner.Poolmgr

open Option PoolTracker

/-! ## The system -/

/-- A `GetPool` call that is out, with the generation read before it. -/
structure Question where
  ref : PoolRef
  generation : Nat
  deriving DecidableEq

/-- The Tracker and its poll loop: the Pools the round has not come to, and the
call that is out. The last two are history: whether the most recent `Track` or
`Untrack` call on a Pool was a `Track`, and whether an event was applied to the
Pool of the question since its generation was read. -/
structure Rounds where
  tracker : PoolTracker
  todo : List PoolRef
  question : Option Question
  tracked : PoolRef → Bool
  raced : Bool

/-- What can happen. -/
inductive RoundLabel
  | track (ref : PoolRef) (declared : Bool)
  | untrack (ref : PoolRef)
  | wait (ref : PoolRef)
  | markExhausted (ref : PoolRef)
  | event (e : Event)
  | pollAll
  | ask
  | answer (size : Int) (status : PoolStatus)
  | notFound
  | fails

/-- One step. A round may start whenever none is under way, so the slot that
`requestPoll` fills is not needed. -/
def Rounds.next (s : Rounds) : RoundLabel → Option Rounds
  | .track ref declared =>
    some { s with
      tracker := (s.tracker.track ref declared).1
      tracked := Function.update s.tracked ref true }
  | .untrack ref =>
    some { s with
      tracker := s.tracker.untrack ref
      tracked := Function.update s.tracked ref false }
  | .wait ref => some { s with tracker := (s.tracker.wait ref).1 }
  | .markExhausted ref => some { s with tracker := s.tracker.markExhausted ref }
  | .event e =>
    some { s with
      tracker := (s.tracker.apply e).1
      raced := s.raced
        || decide (e.pool ∈ s.tracker.pools ∧ s.question.map Question.ref = some e.pool) }
  | .pollAll =>
    if s.todo = [] ∧ s.question = none then some { s with todo := s.tracker.refs } else none
  | .ask =>
    match s.todo, s.question with
    | ref :: todo, none =>
      some { s with
        todo := todo
        question := some ⟨ref, s.tracker.generation ref⟩
        raced := false }
    | _, _ => none
  | .answer size status =>
    s.question.map fun q =>
      { s with
        tracker := (s.tracker.applyPoll q.ref q.generation size status).1
        question := none }
  | .notFound =>
    s.question.map fun q =>
      { s with tracker := s.tracker.setDeclared q.ref false, question := none }
  | .fails => s.question.map fun _ => { s with question := none }

/-- Nothing is tracked and no round is under way. -/
def noRounds : Rounds := ⟨PoolTracker.new, [], none, fun _ => false, false⟩

/-- The Tracker's runs. -/
def rounds : Machine Rounds RoundLabel where
  init s := s = noRounds
  next := Rounds.next

/-- The Pool a step names through `poolLocked`. -/
def Rounds.names (s : Rounds) : RoundLabel → Option PoolRef
  | .track ref _ | .wait ref | .markExhausted ref => some ref
  | .notFound => s.question.map Question.ref
  | .untrack _ | .event _ | .pollAll | .ask | .answer _ _ | .fails => none

/-! ## What a step does to one entry -/

variable {s s' : Rounds} {l : RoundLabel}

/-- The entry of a Pool before and after a step. -/
inductive Touched (s : Rounds) (l : RoundLabel) (ref : PoolRef) :
    Option TrackedPool → Option TrackedPool → Prop
  | alone (o : Option TrackedPool) (hnames : s.names l ≠ some ref) (hl : l ≠ .untrack ref) :
      Touched s l ref o o
  | named (hnames : s.names l = some ref) {o : Option TrackedPool} {p' : TrackedPool}
      (hgeneration : p'.generation = (o.map TrackedPool.generation).getD 0) :
      Touched s l ref o (some p')
  | applied {e : Event} (hl : l = .event e) (hpool : e.pool = ref) {p p' : TrackedPool}
      (hgeneration : p'.generation = p.generation + 1) : Touched s l ref (some p) (some p')
  | folded {size : Int} {status : PoolStatus} (hl : l = .answer size status)
      (hq : s.question.map Question.ref = some ref) {p p' : TrackedPool} :
      Touched s l ref (some p) (some p')
  | removed (hl : l = .untrack ref) {o : Option TrackedPool} : Touched s l ref o none

theorem touched_put {ref ref' : PoolRef} {o : Option TrackedPool} {p' : TrackedPool}
    (hnames : s.names l = some ref)
    (ho : o = if ref' = ref then some p' else s.tracker.pools.lookup ref')
    (hgeneration : p'.generation = (s.tracker.poolAt ref).generation) :
    Touched s l ref' (s.tracker.pools.lookup ref') o := by
  by_cases heq : ref' = ref
  · rw [ho, if_pos heq, heq]
    exact .named (heq ▸ hnames) (hgeneration.trans (s.tracker.poolAt_generation ref))
  · rw [ho, if_neg heq]
    refine .alone _ (fun h => heq (some.inj (h.symm.trans hnames))) ?_
    rintro rfl
    cases hnames

/-- **What a step does to one entry.** -/
theorem touched (h : s.next l = some s') (ref : PoolRef) :
    Touched s l ref (s.tracker.pools.lookup ref) (s'.tracker.pools.lookup ref) := by
  cases l with
  | track r declared =>
    cases h
    exact touched_put rfl (s.tracker.lookup_track r ref declared) rfl
  | wait r =>
    cases h
    exact touched_put rfl (s.tracker.lookup_wait r ref) rfl
  | markExhausted r =>
    cases h
    exact touched_put rfl (s.tracker.lookup_markExhausted r ref) rfl
  | notFound =>
    obtain ⟨q, hq, rfl⟩ := map_eq_some_iff.mp h
    refine touched_put ?_ (s.tracker.lookup_setDeclared_false q.ref ref) rfl
    exact congrArg (Option.map Question.ref) hq
  | untrack r =>
    cases h
    dsimp only
    rw [lookup_untrack]
    split
    · rename_i heq
      exact .removed (heq ▸ rfl)
    · rename_i hne
      exact .alone _ nofun fun h => hne (RoundLabel.untrack.inj h).symm
  | event e =>
    cases h
    dsimp only
    rw [lookup_apply]
    split
    · rename_i heq
      rw [heq]
      cases s.tracker.pools.lookup e.pool with
      | none => exact .alone _ nofun nofun
      | some p =>
        refine .applied rfl rfl ?_
        rw [TrackedPool.woke_generation, p.apply_generation]
    · exact .alone _ nofun nofun
  | answer size status =>
    obtain ⟨q, hq, rfl⟩ := map_eq_some_iff.mp h
    dsimp only
    rw [lookup_applyPoll]
    split
    · rename_i heq
      rw [heq]
      cases s.tracker.pools.lookup q.ref with
      | none => exact .alone _ nofun nofun
      | some p => exact .folded rfl (congrArg (Option.map Question.ref) hq)
    · exact .alone _ nofun nofun
  | pollAll =>
    obtain ⟨-, ⟨⟩⟩ := ite_none_right_eq_some.mp h
    exact .alone _ nofun nofun
  | ask =>
    unfold Rounds.next at h
    dsimp only at h
    split at h
    · cases h
      exact .alone _ nofun nofun
    · cases h
  | fails =>
    obtain ⟨q, -, rfl⟩ := map_eq_some_iff.mp h
    exact .alone _ nofun nofun

theorem mem_next (h : s.next l = some s') (ref : PoolRef) : ref ∈ s'.tracker.pools ↔
    (s.names l = some ref ∨ ref ∈ s.tracker.pools) ∧ l ≠ .untrack ref := by
  have hT := touched h ref
  rw [← AList.lookup_isSome, ← AList.lookup_isSome]
  generalize s.tracker.pools.lookup ref = o, s'.tracker.pools.lookup ref = o' at hT
  cases hT with
  | alone _ hnames hl => simp [hnames, hl]
  | named hnames =>
    have hl : l ≠ .untrack ref := by
      rintro rfl
      cases hnames
    simp [hnames, hl]
  | applied hl | folded hl => simp [hl]
  | removed hl => simp [hl]

/-! ## Untracked stays untracked -/

/-- The condition on one step: `Wait`, `MarkExhausted` and an answer of
`NOT_FOUND` find the Pool in the table. -/
def Named (s : Rounds) : RoundLabel → Prop
  | .wait ref | .markExhausted ref => ref ∈ s.tracker.pools
  | .notFound => ∀ q ∈ s.question, q.ref ∈ s.tracker.pools
  | _ => True

instance (s : Rounds) : DecidablePred (Named s) := fun l => by
  unfold Named
  split <;> infer_instance

/-- The table holds the Pools whose last call was a `Track`. -/
def Rounds.Exact (s : Rounds) : Prop := ∀ ref, ref ∈ s.tracker.pools ↔ s.tracked ref = true

theorem tracked_next (h : s.next l = some s') (htrack : ∀ ref declared, l ≠ .track ref declared)
    (huntrack : ∀ ref, l ≠ .untrack ref) : s'.tracked = s.tracked := by
  cases l with
  | track ref declared => exact absurd rfl (htrack ref declared)
  | untrack ref => exact absurd rfl (huntrack ref)
  | wait ref | markExhausted ref | event e =>
    cases h
    rfl
  | answer size status | notFound | fails =>
    obtain ⟨q, -, rfl⟩ := map_eq_some_iff.mp h
    rfl
  | pollAll =>
    obtain ⟨-, ⟨⟩⟩ := ite_none_right_eq_some.mp h
    rfl
  | ask =>
    unfold Rounds.next at h
    dsimp only at h
    split at h
    · cases h
      rfl
    · cases h

/-- A step keeps the table exact if it meets the condition, and only then. -/
theorem exact_next (h : s.next l = some s') (hE : s.Exact) : s'.Exact ↔ Named s l := by
  unfold Rounds.Exact
  simp only [mem_next h, hE _]
  cases l with
  | track r declared =>
    cases h
    refine iff_of_true (fun ref => ?_) trivial
    by_cases heq : ref = r
    · simp [heq, Rounds.names]
    · simp [Rounds.names, Function.update_of_ne heq, Ne.symm heq]
  | untrack r =>
    cases h
    refine iff_of_true (fun ref => ?_) trivial
    by_cases heq : ref = r
    · simp [heq]
    · simp [Rounds.names, Function.update_of_ne heq, Ne.symm heq]
  | wait r | markExhausted r =>
    rw [tracked_next h nofun nofun]
    simp [Rounds.names, Named, hE r]
  | notFound =>
    rw [tracked_next h nofun nofun]
    simp [Rounds.names, Named, hE _]
  | event e | answer size status | pollAll | ask | fails =>
    rw [tracked_next h nofun nofun]
    simp [Rounds.names, Named]

/-- **Untracked stays untracked.** In every run whose steps meet the condition
a Pool is in the table exactly if the last call on it was a `Track`; and that
stays so with the next step exactly if it meets the condition, too. -/
theorem untracked_stays_untracked (hs : rounds.Reach Named s) :
    (∀ ref, ref ∈ s.tracker.pools ↔ s.tracked ref = true) ∧
    ∀ l s', rounds.next s l = some s' →
      ((∀ ref, ref ∈ s'.tracker.pools ↔ s'.tracked ref = true) ↔ Named s l) := by
  have hE : s.Exact := by
    refine hs.inv (I := Rounds.Exact) ?_ ?_
    · rintro _ rfl ref
      exact iff_of_false (AList.notMem_empty ref) Bool.false_ne_true
    · intro t l t' hE hok h
      exact (exact_next h hE).mpr hok
  exact ⟨hE, fun l s' h => exact_next h hE⟩

/-- One Pool. -/
def roundsPool : PoolRef := ⟨"small", "default"⟩

/-- A round polls the Pool while it is tracked. -/
def polledRun : List RoundLabel :=
  [.track roundsPool true, .wait roundsPool, .pollAll, .ask, .answer 1 ⟨1, 0, 0, 0⟩]

theorem untracked_stays_untracked_polled : ∃ s, rounds.Reach Named s ∧
    roundsPool ∈ s.tracker.pools ∧ s.tracked roundsPool = true ∧
    ∀ s', rounds.next s (.untrack roundsPool) = some s' → roundsPool ∉ s'.tracker.pools := by
  have hs := Machine.reach_run (M := rounds) Named polledRun rfl rfl
  obtain ⟨hexact, hnext⟩ := untracked_stays_untracked hs
  refine ⟨_, hs, (hexact roundsPool).mpr rfl, rfl, fun s' h hin => ?_⟩
  have htracked := ((hnext _ s' h).mpr trivial roundsPool).mp hin
  cases h
  cases htracked

/-- The Pool is in the table, and the last call on it was an `Untrack`. -/
def Rounds.ghost (s : Rounds) : Prop :=
  roundsPool ∈ s.tracker.pools ∧ s.tracked roundsPool = false

/-- **An untracked Pool comes back** by a `Wait`, by a `MarkExhausted` and by
an answer of `NOT_FOUND`, each of an `Untrack`ed Pool. -/
theorem untracked_comes_back :
    (∃ s, rounds.exec noRounds
      [.track roundsPool true, .untrack roundsPool, .wait roundsPool] = some s ∧ s.ghost) ∧
    (∃ s, rounds.exec noRounds
      [.track roundsPool true, .untrack roundsPool, .markExhausted roundsPool] = some s ∧
      s.ghost) ∧
    ∃ s, rounds.exec noRounds
      [.track roundsPool true, .pollAll, .ask, .untrack roundsPool, .notFound] = some s ∧
      s.ghost :=
  ⟨⟨_, rfl, by decide, rfl⟩, ⟨_, rfl, by decide, rfl⟩, ⟨_, rfl, by decide, rfl⟩⟩

/-! ## A raced poll is discarded -/

/-- The condition on one step: no entry is made for a Pool while a `GetPool`
call for it is out. -/
def NotRemade (s : Rounds) : RoundLabel → Prop
  | .track ref _ | .wait ref | .markExhausted ref =>
    ref ∈ s.tracker.pools ∨ s.question.map Question.ref ≠ some ref
  | _ => True

instance (s : Rounds) : DecidablePred (NotRemade s) := fun l => by
  unfold NotRemade
  split <;> infer_instance

/-- The generation of the question's Pool has moved on exactly if an event was
applied to it. -/
def Rounds.Witnessed (s : Rounds) : Prop :=
  ∀ q ∈ s.question, ∀ p ∈ s.tracker.pools.lookup q.ref,
    q.generation ≤ p.generation ∧ (s.raced = true ↔ q.generation < p.generation)

theorem Rounds.Witnessed.named (hW : s.Witnessed) (h : s.next l = some s')
    (hquestion : s'.question = s.question) (hraced : s'.raced = s.raced)
    (hevent : ∀ e, l ≠ .event e) (hanswer : ∀ size status, l ≠ .answer size status)
    (hok : ∀ q ∈ s.question, s.names l = some q.ref → q.ref ∈ s.tracker.pools) : s'.Witnessed := by
  intro q hq p' hp'
  rw [hquestion] at hq
  rw [hraced]
  have hW := hW q hq
  have hok := hok q hq
  have hT := touched h q.ref
  rw [← AList.lookup_isSome] at hok
  generalize s.tracker.pools.lookup q.ref = o, s'.tracker.pools.lookup q.ref = o' at *
  cases hT with
  | alone => exact hW p' hp'
  | named hnames hgeneration =>
    obtain ⟨p, rfl⟩ := isSome_iff_exists.mp (hok hnames)
    cases hp'
    rw [hgeneration]
    exact hW p rfl
  | applied hl => exact absurd hl (hevent _)
  | folded hl => exact absurd hl (hanswer _ _)
  | removed => cases hp'

theorem Rounds.Witnessed.event (hW : s.Witnessed) {e : Event} (h : s.next (.event e) = some s') :
    s'.Witnessed := by
  cases h
  intro q hq p' hp'
  have hask : s.question.map Question.ref = some q.ref := congrArg (Option.map Question.ref) hq
  dsimp only at hp' ⊢
  rw [lookup_apply] at hp'
  by_cases hpool : q.ref = e.pool
  · rw [if_pos hpool] at hp'
    obtain ⟨p, hp, rfl⟩ := map_eq_some_iff.mp hp'
    have hin : e.pool ∈ s.tracker.pools := AList.lookup_isSome.mp (hp ▸ rfl)
    have hle := (hW q hq p (hpool ▸ hp)).1
    rw [TrackedPool.woke_generation, p.apply_generation,
      decide_eq_true ⟨hin, hask.trans (congrArg some hpool)⟩, Bool.or_true]
    exact ⟨Nat.le_succ_of_le hle, iff_of_true rfl (Nat.lt_succ_of_le hle)⟩
  · rw [if_neg hpool] at hp'
    have hother : ¬ (e.pool ∈ s.tracker.pools ∧ s.question.map Question.ref = some e.pool) :=
      fun h => hpool (some.inj (hask.symm.trans h.2))
    rw [decide_eq_false hother, Bool.or_false]
    exact hW q hq p' hp'

/-- The generation of a Pool that is asked for moves with its events alone. -/
theorem witnessed_next (h : s.next l = some s') (hok : NotRemade s l) (hW : s.Witnessed) :
    s'.Witnessed := by
  cases l with
  | track r declared | wait r | markExhausted r =>
    refine hW.named h (by cases h; rfl) (by cases h; rfl) nofun nofun ?_
    intro q hq hnames
    cases hnames
    exact hok.resolve_right fun hne => hne (congrArg (Option.map Question.ref) hq)
  | untrack r =>
    exact hW.named h (by cases h; rfl) (by cases h; rfl) nofun nofun nofun
  | pollAll =>
    obtain ⟨-, ⟨⟩⟩ := ite_none_right_eq_some.mp h
    exact hW
  | event e => exact hW.event h
  | ask =>
    unfold Rounds.next at h
    dsimp only at h
    split at h
    case h_1 ref todo _ _ =>
      cases h
      rintro q ⟨⟩ p hp
      -- the generation has just been read
      have hread : s.tracker.generation ref = p.generation := by
        unfold generation
        rw [show s.tracker.pools.lookup ref = some p from hp]
        rfl
      exact ⟨le_of_eq hread, iff_of_false Bool.false_ne_true (not_lt.mpr (ge_of_eq hread))⟩
    case h_2 => cases h
  | answer size status | notFound | fails =>
    obtain ⟨q, -, rfl⟩ := map_eq_some_iff.mp h
    exact nofun

/-- **A poll that raced an event is never folded**: its Pool, if it is still
tracked, is left as it was and owes a poll. An answer that no event raced is
folded. -/
theorem raced_poll_discarded (hs : rounds.Reach NotRemade s) {q : Question}
    (hq : s.question = some q) {size : Int} {status : PoolStatus}
    (h : rounds.next s (.answer size status) = some s') :
    s'.tracker.pools.lookup q.ref = (s.tracker.pools.lookup q.ref).map fun p =>
      if s.raced then { p with needsPoll := true }
      else (p.settle size status).woke s.tracker.made
        (decide ((p.settle size status).availableCount > 0)) := by
  have hW : s.Witnessed := by
    refine hs.inv (I := Rounds.Witnessed) ?_ fun t l t' hW hok h => witnessed_next h hok hW
    rintro _ rfl
    exact nofun
  obtain ⟨q', hq', rfl⟩ := map_eq_some_iff.mp h
  cases hq.symm.trans hq'
  dsimp only
  rw [lookup_applyPoll, if_pos rfl]
  cases hp : s.tracker.pools.lookup q.ref with
  | none => rfl
  | some p =>
    obtain ⟨hle, hraced⟩ := hW q hq p hp
    rw [map_some, map_some]
    by_cases hgen : q.generation < p.generation
    · rw [if_pos (hraced.mpr hgen), if_pos (Nat.ne_of_gt hgen)]
    · have heq : p.generation = q.generation := le_antisymm (not_lt.mp hgen) hle
      rw [if_neg fun h => hgen (hraced.mp h), if_neg (not_not.mpr heq)]

/-- An event is applied while the question is out. -/
def discardedRun : List RoundLabel :=
  [.track roundsPool true, .pollAll, .ask, .event ⟨roundsPool, "vm", .vmAvailable⟩]

theorem raced_poll_discarded_owing : ∃ s s' q p', rounds.Reach NotRemade s ∧
    s.question = some q ∧ s.raced = true ∧
    rounds.next s (.answer 1 ⟨0, 0, 0, 0⟩) = some s' ∧
    s'.tracker.pools.lookup q.ref = some p' ∧ p'.availableCount = 1 ∧ p'.needsPoll = true := by
  have hs := Machine.reach_run (M := rounds) NotRemade discardedRun rfl rfl
  exact ⟨_, _, _, _, hs, rfl, rfl, rfl, raced_poll_discarded hs rfl rfl, rfl, rfl⟩

/-- The question is put to an entry that has counted one event. While it is out
the Pool is untracked and tracked again, and its MicroVM is claimed: the second
entry has counted one event, too. -/
def remadeRun : List RoundLabel :=
  [.track roundsPool true, .event ⟨roundsPool, "vm", .vmAvailable⟩, .pollAll, .ask,
    .untrack roundsPool, .track roundsPool true, .event ⟨roundsPool, "vm", .vmClaimed⟩]

/-- **A raced poll is folded**: the answer from before the claim counts the
claimed MicroVM, and the Pool owes nothing. -/
theorem raced_poll_folded : ∃ s s' p p', rounds.exec noRounds remadeRun = some s ∧
    s.question.map Question.ref = some roundsPool ∧ s.raced = true ∧
    s.tracker.pools.lookup roundsPool = some p ∧ p.availableCount = 0 ∧
    rounds.next s (.answer 1 ⟨1, 0, 0, 0⟩) = some s' ∧
    s'.tracker.pools.lookup roundsPool = some p' ∧ p'.availableCount = 1 ∧
    p'.needsPoll = false :=
  ⟨_, _, _, _, rfl, rfl, rfl, rfl, rfl, rfl, rfl, rfl, rfl⟩

/-! ## Discarded polls are paid for by events -/

/-- The answer to the question that is out would be discarded: it is about the
Pool, whose generation has moved on. -/
def Rounds.stale (s : Rounds) (ref : PoolRef) : Bool :=
  s.question.any fun q => decide (q.ref = ref) &&
    (s.tracker.pools.lookup ref).any fun p => decide (p.generation ≠ q.generation)

variable (ref : PoolRef)

/-- The step discards an answer about the Pool. -/
def Rounds.discards (s : Rounds) : RoundLabel → Bool
  | .answer _ _ => s.stale ref
  | _ => false

/-- The step applies an event to the Pool. -/
def Rounds.applies (s : Rounds) : RoundLabel → Bool
  | .event e => decide (e.pool = ref ∧ ref ∈ s.tracker.pools)
  | _ => false

variable {ref : PoolRef}

/-- Only events move the generation of an entry. -/
theorem generation_next (h : s.next l = some s') (hin : ref ∈ s.tracker.pools)
    (huntrack : l ≠ .untrack ref) (hevent : s.applies ref l = false)
    (hanswer : ∀ size status, l ≠ .answer size status) :
    (s'.tracker.pools.lookup ref).map TrackedPool.generation
      = (s.tracker.pools.lookup ref).map TrackedPool.generation := by
  have hT := touched h ref
  obtain ⟨p, hp⟩ := isSome_iff_exists.mp (AList.lookup_isSome.mpr hin)
  rw [hp] at hT ⊢
  generalize s'.tracker.pools.lookup ref = o' at hT ⊢
  cases hT with
  | alone => rfl
  | named _ hgeneration => exact congrArg some hgeneration
  | applied hl hpool =>
    rw [hl] at hevent
    exact absurd ⟨hpool, hin⟩ (of_decide_eq_false hevent)
  | folded hl => exact absurd hl (hanswer _ _)
  | removed hl => exact absurd hl huntrack

theorem stale_congr (hquestion : s'.question = s.question)
    (hgeneration : (s'.tracker.pools.lookup ref).map TrackedPool.generation
      = (s.tracker.pools.lookup ref).map TrackedPool.generation) : s'.stale ref = s.stale ref := by
  have hany : ∀ (o : Option TrackedPool) (g : Nat), (o.any fun p => decide (p.generation ≠ g))
      = (o.map TrackedPool.generation).any fun n => decide (n ≠ g) := by
    rintro (_ | p) g <;> rfl
  unfold Rounds.stale
  simp only [hany, hquestion, hgeneration]

theorem stale_of_question_none (h : s.question = none) : s.stale ref = false := by
  unfold Rounds.stale
  rw [h]
  rfl

theorem stale_ask (h : s.next .ask = some s') (ref : PoolRef) : s'.stale ref = false := by
  unfold Rounds.next at h
  dsimp only at h
  split at h
  case h_1 r todo _ _ =>
    cases h
    unfold Rounds.stale generation
    by_cases heq : r = ref
    · subst heq
      cases s.tracker.pools.lookup r <;> simp
    · simp [heq]
  case h_2 => cases h

/-- A step makes an answer stale only by an event, and a discarded answer is no
longer out. -/
theorem stale_next (h : s.next l = some s') (hin : ref ∈ s.tracker.pools)
    (huntrack : l ≠ .untrack ref) :
    (s'.stale ref).toNat + (s.discards ref l).toNat
      ≤ (s.stale ref).toNat + (s.applies ref l).toNat := by
  have hkept : s'.question = s.question → (∀ size status, l ≠ .answer size status) →
      (s'.stale ref).toNat ≤ (s.stale ref).toNat + (s.applies ref l).toNat := by
    intro hquestion hanswer
    cases hevent : s.applies ref l with
    | true => exact (Bool.toNat_le _).trans (Nat.le_add_left _ _)
    | false =>
      rw [stale_congr hquestion (generation_next h hin huntrack hevent hanswer)]
      exact Nat.le_add_right _ _
  cases l with
  | track r declared | wait r | markExhausted r | untrack r | event e =>
    exact hkept (by cases h; rfl) nofun
  | pollAll =>
    refine hkept ?_ nofun
    obtain ⟨-, ⟨⟩⟩ := ite_none_right_eq_some.mp h
    rfl
  | ask =>
    rw [stale_ask h]
    exact Nat.zero_le _
  | answer size status =>
    obtain ⟨q, -, rfl⟩ := map_eq_some_iff.mp h
    rw [stale_of_question_none rfl]
    exact le_of_eq (Nat.add_comm _ _)
  | notFound | fails =>
    obtain ⟨q, -, rfl⟩ := map_eq_some_iff.mp h
    rw [stale_of_question_none rfl]
    exact Nat.zero_le _

/-- **Re-polling cannot spin.** Along any run from a state in which the Pool is
tracked and no answer about it is due to be discarded, as long as the Pool is not
untracked, no more answers about it are discarded than events were applied to
it. -/
theorem discards_le_events {ref : PoolRef} (hin : ref ∈ s.tracker.pools)
    (hstale : s.stale ref = false) {run : List RoundLabel} (hrun : rounds.exec s run = some s')
    (htracked : .untrack ref ∉ run) :
    rounds.tally (Rounds.discards ref) s run ≤ rounds.tally (Rounds.applies ref) s run := by
  have hpaid := Machine.tally_le (M := rounds) (P := Rounds.discards ref)
    (Q := Rounds.applies ref) (φ := fun s => (s.stale ref).toNat)
    (I := fun s => ref ∈ s.tracker.pools) ?_ hin hrun
  · rw [hstale] at hpaid
    exact (Nat.le_add_left _ _).trans (hpaid.trans (le_of_eq (Nat.zero_add _)))
  · intro l hl t t' ht h
    have huntrack : l ≠ .untrack ref := fun heq => htracked (heq ▸ hl)
    exact ⟨(mem_next h ref).mpr ⟨.inr ht, huntrack⟩, stale_next h ht huntrack⟩

/-- Two rounds, each of them raced by an event. -/
def racedRun : List RoundLabel :=
  [.pollAll, .ask, .event ⟨roundsPool, "vm", .vmAvailable⟩, .answer 1 ⟨0, 0, 0, 0⟩,
    .pollAll, .ask, .event ⟨roundsPool, "vm", .vmClaimed⟩, .answer 1 ⟨1, 0, 0, 0⟩]

theorem discards_le_events_raced : ∃ s s', rounds.exec noRounds [.track roundsPool true] = some s ∧
    rounds.exec s racedRun = some s' ∧
    rounds.tally (Rounds.discards roundsPool) s racedRun = 2 ∧
    rounds.tally (Rounds.discards roundsPool) s racedRun
      ≤ rounds.tally (Rounds.applies roundsPool) s racedRun := by
  refine ⟨_, _, rfl, rfl, rfl, ?_⟩
  exact discards_le_events (by decide) rfl rfl (by simp [racedRun])

end FlintlockRunner.Poolmgr

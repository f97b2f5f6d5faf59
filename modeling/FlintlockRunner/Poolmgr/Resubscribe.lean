import FlintlockRunner.Poolmgr.Enough
import Mathlib.Data.List.DropRight

/-!
# A stream that ends

The Tracker beside a Pool Manager (`Feed`) whose Events stream may end at any
time. The subscribe loop asks for a new one, which replays the last events of
every Pool and then delivers every later one; what happened while no stream was
open is known to the Tracker only through the replay and through the polls made
meanwhile.

A subscription asks for no poll of its own. So a Pool may be left counting too
few MicroVMs with nothing owed (`under_count_after_resubscription`): by events
between the last poll and the replay, and by a replayed claim that the poll had
counted already. `Recounted` is what has to hold of the steps for that not to
happen.
-/

namespace FlintlockRunner.Poolmgr

open List Option TrackedPool

/-! ## The system -/

/-- Where the subscribe loop is: asking for a stream or asleep, with a stream
that it has not noted as up, reading it, or with a stream that ended and that it
has not noted as down. -/
inductive StreamPc
  | waiting | opened | reading | ended
  deriving DecidableEq

/-- Whether a stream is open. -/
def StreamPc.isOpen : StreamPc → Bool
  | .opened | .reading => true
  | .waiting | .ended => false

/-- The Tracker beside the Pool Manager, all events so far, and the subscribe
loop. The queue of `feed` is what the open stream has not delivered. -/
structure Streams where
  feed : Feed
  log : List Event
  loop : StreamPc

/-- What can happen. -/
inductive StreamLabel
  | feed (l : FeedLabel)
  | refused
  | subscribe (backlog : List Event)
  | setStreamUp
  | ends
  | setStreamDown

/-- The events of one Pool. -/
def ofPool (ref : PoolRef) (w : List Event) : List Event := w.filter fun e => e.pool = ref

theorem ofPool_append (ref : PoolRef) (w w' : List Event) :
    ofPool ref (w ++ w') = ofPool ref w ++ ofPool ref w' := filter_append ..

/-- The event a step of the Pool Manager emits. -/
def FeedLabel.emitted : FeedLabel → List Event
  | .becomesAvailable ref uid => [⟨ref, uid, .vmAvailable⟩]
  | .leaves ref uid how => [⟨ref, uid, how⟩]
  | .emits e => [e]
  | _ => []

/-- The backlog of a subscription has the last `n` events of every Pool. -/
def Replays (n : Nat) (log backlog : List Event) : Prop :=
  ∀ e ∈ log ++ backlog, ofPool e.pool backlog = (ofPool e.pool log).rtake n

instance (n : Nat) (log backlog : List Event) : Decidable (Replays n log backlog) :=
  inferInstanceAs (Decidable (∀ e ∈ log ++ backlog, _))

namespace Streams

variable (s : Streams)

/-- Only a stream that is read delivers, and only an available MicroVM is
claimed. -/
def admits : FeedLabel → Bool
  | .deliver => s.loop = .reading
  | .emits e => e.type ≠ .vmClaimed
  | _ => true

/-- A step of the Tracker or the Pool Manager. Without an open stream its event
reaches nobody. -/
def after (l : FeedLabel) (f : Feed) : Streams :=
  { s with
    feed := if s.loop.isOpen then f else { f with queue := [] }
    log := s.log ++ l.emitted }

/-- `setStreamUp`. -/
def setStream (up : Bool) (loop : StreamPc) : Streams :=
  { s with feed := { s.feed with tracker := s.feed.tracker.setStreamUp up }, loop := loop }

/-- What the open stream has still to deliver. -/
def queueing (queue : List Event) (loop : StreamPc) : Streams :=
  { s with feed := { s.feed with queue := queue }, loop := loop }

/-- One step, with `n` events of every Pool replayed to a new subscription. -/
def next (n : Nat) (s : Streams) : StreamLabel → Option Streams
  | .feed l => if s.admits l then (s.feed.next l).map (s.after l) else none
  | .refused => if s.loop = .waiting then some (s.setStream false .waiting) else none
  | .subscribe backlog =>
    if s.loop = .waiting ∧ Replays n s.log backlog then some (s.queueing backlog .opened)
    else none
  | .setStreamUp => if s.loop = .opened then some (s.setStream true .reading) else none
  | .ends => if s.loop = .reading then some (s.queueing [] .ended) else none
  | .setStreamDown => if s.loop = .ended then some (s.setStream false .waiting) else none

/-- A Pool Manager in which nothing has happened, and a fresh Tracker. -/
def fresh : Streams :=
  ⟨⟨fun _ => ∅, [], PoolTracker.new, .idle, 0, []⟩, [], .waiting⟩

variable (ref : PoolRef)

/-- The events of a Pool that the open stream has not delivered. -/
def pending : List Event := ofPool ref s.feed.queue

/-- A Pool that is undeclared, or has a poll on its way, or will owe a poll or
count enough when the stream has delivered what it has. -/
def good (p : TrackedPool) : Prop :=
  p.declared = false ∨ s.feed.coming ref ∨
    (p.applyAll (s.pending ref)).Enough (s.feed.avail ref)

/-- The state at the end of the question that is out. -/
def answered : Streams :=
  { s with feed := { s.feed with poll := .round s.feed.poll.pending.tail } }

/-- The Pool is undeclared, or a poll of it is on its way, or what is known of it
will cover what is available once some events are heard. -/
def Sees (p : TrackedPool) (r : Report) (w : List Event) : Prop :=
  p.declared = false ∨ s.feed.coming ref ∨ (r.hearAll w).Covers (s.feed.avail ref)

instance (s : Streams) (ref : PoolRef) (p : TrackedPool) (r : Report) (w : List Event) :
    Decidable (s.Sees ref p r w) := inferInstanceAs (Decidable (_ ∨ _ ∨ _))

/-- An answer that no event raced covers, with the events that are still queued,
what is available. -/
def folds : PollPc → Prop
  | .answered ref generation size status _ => ∀ p ∈ s.feed.tracker.pools.lookup ref,
    p.generation = generation →
      s.answered.Sees ref p (.counted p.available.named status.available size) (s.pending ref)
  | .idle | .round _ | .asked _ _ _ => True

instance (s : Streams) : DecidablePred s.folds := fun l => by
  unfold folds
  split <;> infer_instance

end Streams

/-- The runs, with `n` events of every Pool replayed to a new subscription. -/
def streams (n : Nat) : Machine Streams StreamLabel where
  init s := s = .fresh
  next := Streams.next n

/-- A MicroVM that becomes available is noticed, after the events `w`: the entry
names every MicroVM it counts and hears of no counts, or knows no target, or the
Pool is not above the target it knows. -/
def Noticed (avail : Finset String) (p : TrackedPool) (w : List Event) : Prop :=
  (p.available.unnamed = 0 ∧ ∀ e ∈ w, e.counts? = none) ∨
    (p.report.hearAll w).target ≤ 0 ∨ (avail.card : Int) + 1 ≤ (p.report.hearAll w).target

instance (avail : Finset String) (p : TrackedPool) (w : List Event) :
    Decidable (Noticed avail p w) := inferInstanceAs (Decidable (_ ∨ _ ∨ _))

/-- The condition on one step. A stream is opened only where what each Pool's entry
knows covers, with the replay, what is available, and names no MicroVM that is gone;
and while one is open,

- a MicroVM becomes available only where that is noticed,
- an answer is folded only if it covers what is available, and a `GetPool` call
  fails only if the entry does without it, and
- `MarkExhausted` is called only on a Pool whose available MicroVMs are all still
  to be delivered. -/
def Recounted (s : Streams) : StreamLabel → Prop
  | .feed (.becomesAvailable ref _) => s.loop.isOpen = true →
    ∀ p ∈ s.feed.tracker.pools.lookup ref, Noticed (s.feed.avail ref) p (s.pending ref)
  | .feed .applyPoll => s.loop.isOpen = true → s.folds s.feed.poll
  | .feed .pollFails => s.loop.isOpen = true →
    ∀ ref ∈ s.feed.poll.pending.head?, ∀ p ∈ s.feed.tracker.pools.lookup ref,
      s.answered.Sees ref p p.report (s.pending ref)
  | .feed (.claimExhausted i) => s.loop.isOpen = true →
    ∀ c ∈ s.feed.claims[i]?, ∀ p ∈ s.feed.tracker.pools.lookup c.1,
      s.Sees c.1 p p.report.forgotten (s.pending c.1)
  | .subscribe backlog => ∀ x ∈ s.feed.tracker.pools.entries,
    availableAfter x.2.available.named (ofPool x.1 backlog) ⊆ s.feed.avail x.1 ∧
      s.Sees x.1 x.2 x.2.report (ofPool x.1 backlog)
  | _ => True

instance (s : Streams) : DecidablePred (Recounted s) := fun l => by
  unfold Recounted
  split <;> infer_instance

/-! ## The invariant -/

/-- What ties the Tracker to the Pool Manager. While a stream is open, an entry
will name available MicroVMs only once everything is delivered, and every Pool
is good. -/
structure Streams.Counting (s : Streams) : Prop where
  avail : ∀ ref, s.feed.avail ref = availableAfter ∅ (ofPool ref s.log)
  queued : ∀ ref, s.pending ref <:+ ofPool ref s.log
  named : s.loop.isOpen = true → ∀ ref p, s.feed.tracker.pools.lookup ref = some p →
    availableAfter p.available.named (s.pending ref) ⊆ s.feed.avail ref
  good : s.loop.isOpen = true → ∀ ref p, s.feed.tracker.pools.lookup ref = some p →
    s.good ref p

variable {s : Streams}

theorem ofPool_concat (ref : PoolRef) (w : List Event) (e : Event) :
    ofPool ref (w ++ [e]) = if e.pool = ref then ofPool ref w ++ [e] else ofPool ref w := by
  unfold ofPool
  rw [filter_append, filter_singleton]
  by_cases heq : e.pool = ref
  · rw [if_pos heq, decide_eq_true heq]
    rfl
  · rw [if_neg heq, decide_eq_false heq]
    exact append_nil _

theorem ofPool_cons (ref : PoolRef) (e : Event) (w : List Event) :
    ofPool ref (e :: w) = if e.pool = ref then e :: ofPool ref w else ofPool ref w := by
  unfold ofPool
  rw [filter_cons]
  by_cases heq : e.pool = ref
  · rw [if_pos heq, if_pos (decide_eq_true heq)]
  · rw [if_neg heq, if_neg (by rw [decide_eq_false heq]; exact Bool.false_ne_true)]

theorem update_eq_ite (avail : PoolRef → Finset String) (ref r : PoolRef)
    (g : Finset String → Finset String) :
    Function.update avail ref (g (avail ref)) r
      = if ref = r then g (avail r) else avail r := by
  by_cases heq : ref = r
  · rw [if_pos heq, heq, Function.update_self]
  · rw [if_neg heq, Function.update_of_ne (Ne.symm heq)]

theorem Feed.tells_cases {s : Feed} {e : Event} (h : s.tells e = true) :
    (∃ counts, e.type = .poolSizeBelowTarget (some counts) ∧
      counts.available = (s.avail e.pool).card) ∨
    (e.type ≠ .vmAvailable ∧ (∀ counts, e.type ≠ .poolSizeBelowTarget (some counts)) ∧
      (e.type.takesAway = true → e.vmUID ∉ s.avail e.pool)) := by
  unfold Feed.tells at h
  split at h
  · cases h
  · rename_i counts htype
    exact .inl ⟨counts, htype, of_decide_eq_true h⟩
  · rename_i hborn hcounts
    refine .inr ⟨hborn, hcounts, fun htakes => ?_⟩
    rw [htakes] at h
    exact of_decide_eq_true h

variable {n : Nat}

theorem Replays.suffix {log backlog : List Event} (h : Replays n log backlog) (ref : PoolRef) :
    ofPool ref backlog <:+ ofPool ref log := by
  cases hb : ofPool ref backlog with
  | nil => exact nil_suffix
  | cons e w =>
    have hin : e ∈ ofPool ref backlog := hb ▸ mem_cons_self
    obtain ⟨hin, hpool⟩ := mem_filter.mp hin
    have heq : e.pool = ref := of_decide_eq_true hpool
    have hlast := h e (mem_append_right _ hin)
    rw [heq, hb] at hlast
    rw [hlast]
    exact drop_suffix _ _

/-- An entry that keeps what a Pool is seen by is good. -/
theorem Streams.Sees.good {ref : PoolRef} {p q : TrackedPool} {r : Report}
    (h : s.Sees ref p r (s.pending ref)) (hdecl : q.declared = p.declared) (hq : q.Keeps r) :
    s.good ref q :=
  h.imp hdecl.trans fun h => h.imp_right (hq.hearAll _).enough

theorem Noticed.target {avail : Finset String} {p : TrackedPool} {w : List Event}
    (h : Noticed avail p w) (hc : p.available.Counts) :
    (p.applyAll w).available.unnamed ≤ 0 ∨ (p.applyAll w).size ≤ 0 ∨
      (avail.card : Int) + 1 ≤ (p.applyAll w).size := by
  rw [((keeps_report hc).hearAll w).target]
  exact h.imp_left fun ⟨hnamed, hnone⟩ => (applyAll_allNamed w hnamed hnone).le

namespace Streams.Counting

variable {f : Feed} {l : FeedLabel} {ref : PoolRef}

theorem of_open (havail : ∀ ref, f.avail ref = availableAfter ∅ (ofPool ref (s.log ++ l.emitted)))
    (hopen : s.loop.isOpen = true → Streams.Counting ⟨f, s.log ++ l.emitted, s.loop⟩) :
    (s.after l f).Counting := by
  cases hloop : s.loop.isOpen with
  | true =>
    have hafter : s.after l f = ⟨f, s.log ++ l.emitted, s.loop⟩ := by
      unfold Streams.after
      rw [if_pos hloop]
    exact hafter ▸ hopen hloop
  | false =>
    have hafter : s.after l f = ⟨{ f with queue := [] }, s.log ++ l.emitted, s.loop⟩ := by
      unfold Streams.after
      rw [if_neg (Bool.eq_false_iff.mp hloop)]
    rw [hafter]
    refine ⟨havail, fun ref => nil_suffix, ?_, ?_⟩
    · intro h
      cases hloop.symm.trans h
    · intro h
      cases hloop.symm.trans h

theorem of_silent (hC : s.Counting) (hemit : l.emitted = []) (havail : f.avail = s.feed.avail)
    (hopen : s.loop.isOpen = true → Streams.Counting { s with feed := f }) :
    (s.after l f).Counting := by
  refine of_open ?_ ?_
  · rw [hemit, append_nil, havail]
    exact hC.avail
  · rw [hemit, append_nil]
    exact hopen

theorem coming (hf : s.feed.next l = some f) (hends : l.endsQuestion = false) (ref : PoolRef)
    (p : TrackedPool) (hp : s.feed.tracker.pools.lookup ref = some p) (h : s.feed.coming ref) :
    f.coming ref := by
  have htracked : ref ∈ s.feed.tracker.pools := AList.lookup_isSome.mp (hp ▸ rfl)
  rcases Feed.coming_next hf htracked h with h | ⟨h, -⟩
  · exact h
  · cases hends.symm.trans h

theorem coming_other (hf : s.feed.next l = some f) (ref : PoolRef)
    (hhead : s.feed.poll.pending.head? = some ref) (r : PoolRef) (p : TrackedPool) (hr : r ≠ ref)
    (hp : s.feed.tracker.pools.lookup r = some p) (h : s.feed.coming r) : f.coming r := by
  have htracked : r ∈ s.feed.tracker.pools := AList.lookup_isSome.mp (hp ▸ rfl)
  rcases Feed.coming_next hf htracked h with h | ⟨-, h⟩
  · exact h
  · exact absurd (some.inj (h.symm.trans hhead)) hr

/-! ### The Pool Manager's steps -/

variable (hC : s.Counting)
include hC

theorem emit {e : Event} (hemit : l.emitted = [e]) (hends : l.endsQuestion = false)
    (hf : s.feed.next l = some f)
    (htracker : f.tracker = s.feed.tracker) (havail : ∀ ref, f.avail ref
      = if e.pool = ref then e.type.moves e.vmUID (s.feed.avail ref) else s.feed.avail ref)
    (hqueue : f.queue = s.feed.queue ++ [e])
    (hkeeps : s.loop.isOpen = true → ∀ p ∈ s.feed.tracker.pools.lookup e.pool,
      ∀ q : TrackedPool, q = p.applyAll (s.pending e.pool) → q.declared = true →
      q.available.named ⊆ s.feed.avail e.pool → q.Enough (s.feed.avail e.pool) →
      (q.apply e.vmUID e.type).1.Enough (e.type.moves e.vmUID (s.feed.avail e.pool))) :
    (s.after l f).Counting := by
  have hlog : ∀ ref, f.avail ref = availableAfter ∅ (ofPool ref (s.log ++ l.emitted)) := by
    intro ref
    rw [hemit, ofPool_concat, havail, hC.avail]
    split
    · rw [availableAfter_concat]
    · rfl
  refine of_open hlog fun hopen => ?_
  have hpending : ∀ ref, Streams.pending ⟨f, s.log ++ l.emitted, s.loop⟩ ref
      = if e.pool = ref then s.pending ref ++ [e] else s.pending ref := by
    intro ref
    unfold Streams.pending
    rw [hqueue, ofPool_concat]
  refine ⟨hlog, ?_, ?_, ?_⟩
  · intro ref
    rw [hpending, hemit, ofPool_concat]
    split
    · obtain ⟨before, heq⟩ := hC.queued ref
      exact ⟨before, by rw [← append_assoc, heq]⟩
    · exact hC.queued ref
  · intro _ ref p hp
    rw [htracker] at hp
    have hnamed := hC.named hopen ref p hp
    rw [hpending]
    show _ ⊆ f.avail ref
    rw [havail]
    split
    · rw [availableAfter_concat]
      exact e.type.moves_mono e.vmUID hnamed
    · exact hnamed
  · intro _ ref p hp
    rw [htracker] at hp
    rcases hC.good hopen ref p hp with h | h | h
    · exact .inl h
    · exact .inr (.inl (coming hf hends ref p hp h))
    · by_cases hdecl : p.declared = true
      · right; right
        rw [hpending]
        show Enough (f.avail ref) _
        rw [havail]
        split
        · rename_i heq
          subst heq
          rw [applyAll_concat]
          refine hkeeps hopen p hp _ rfl ?_ ?_ h
          · exact (applyAll_declared _ p).trans hdecl
          · rw [applyAll_named]
            exact hC.named hopen _ p hp
        · exact h
      · exact .inl (Bool.eq_false_of_not_eq_true hdecl)

theorem empty_notMem (ref : PoolRef) : "" ∉ s.feed.avail ref := by
  rw [hC.avail]
  exact availableAfter_nonempty_uid _ (Finset.notMem_empty _)

theorem becomesAvailable (hc : s.feed.tracker.Counted) {uid : String}
    (hf : s.feed.next (.becomesAvailable ref uid) = some f)
    (hok : Recounted s (.feed (.becomesAvailable ref uid))) :
    (s.after (.becomesAvailable ref uid) f).Counting := by
  obtain ⟨⟨huid, hnew⟩, heq⟩ := ite_none_right_eq_some.mp hf
  have hmoves : ∀ a, EventType.vmAvailable.moves uid a = insert uid a := by
    intro a
    unfold EventType.moves
    rw [if_neg huid, if_pos rfl]
  refine hC.emit rfl rfl hf (by cases heq; rfl) ?_ (by cases heq; rfl) ?_
  · cases heq
    intro r
    rw [hmoves]
    exact update_eq_ite s.feed.avail ref r (insert uid)
  · rintro hopen p hp q rfl hdecl hnamed henough
    rw [hmoves]
    exact henough.born hdecl hnamed huid hnew ((hok hopen p hp).target (hc ref p hp))

theorem leaves {uid : String} {how : EventType} (hf : s.feed.next (.leaves ref uid how) = some f) :
    (s.after (.leaves ref uid how) f).Counting := by
  obtain ⟨⟨hmem, htype⟩, heq⟩ := ite_none_right_eq_some.mp hf
  have huid : uid ≠ "" := fun h => hC.empty_notMem ref (h ▸ hmem)
  have hmoves : ∀ a, how.moves uid a = a.erase uid := by
    intro a
    unfold EventType.moves
    rw [if_neg huid, if_neg (by rintro rfl; cases htype), if_pos htype]
  refine hC.emit rfl rfl hf (by cases heq; rfl) ?_ (by cases heq; rfl) ?_
  · cases heq
    intro r
    rw [hmoves]
    exact update_eq_ite s.feed.avail ref r fun a => a.erase uid
  · rintro hopen p hp q rfl hdecl hnamed henough
    rw [hmoves]
    exact henough.gone hmem htype

theorem emits {e : Event} (hadmits : e.type ≠ .vmClaimed)
    (hf : s.feed.next (.emits e) = some f) : (s.after (.emits e) f).Counting := by
  obtain ⟨htells, heq⟩ := ite_none_right_eq_some.mp hf
  have hcases := Feed.tells_cases htells
  have hmoves : e.type.moves e.vmUID (s.feed.avail e.pool) = s.feed.avail e.pool := by
    unfold EventType.moves
    split_ifs with huid hborn htakes
    · rfl
    · rcases hcases with ⟨counts, htype, -⟩ | ⟨hnot, -⟩
      · cases hborn.symm.trans htype
      · exact absurd hborn hnot
    · rcases hcases with ⟨counts, htype, -⟩ | ⟨-, -, hnew⟩
      · rw [htype] at htakes
        cases htakes
      · exact Finset.erase_eq_of_notMem (hnew htakes)
    · rfl
  refine hC.emit rfl rfl hf (by cases heq; rfl) ?_ (by cases heq; rfl) ?_
  · cases heq
    intro r
    split
    · rename_i hpool
      exact hpool ▸ hmoves.symm
    · rfl
  · rintro hopen p hp q rfl hdecl hnamed henough
    rw [hmoves]
    rcases hcases with ⟨counts, htype, htrue⟩ | ⟨hborn, hcounts, hnew⟩
    · rw [htype]
      exact .told _ _ htrue
    · exact henough.other hnamed hborn hadmits hcounts hnew

/-! ### The Tracker's sections -/

theorem deliver (hf : s.feed.next .deliver = some f) : (s.after .deliver f).Counting := by
  have hcoming := coming hf rfl
  unfold Feed.next at hf
  dsimp only at hf
  split at hf
  case h_2 => cases hf
  case h_1 e queue hqueue =>
    cases hf
    refine hC.of_silent rfl rfl fun hopen => ?_
    have hpending : ∀ ref, s.pending ref
        = if e.pool = ref then e :: ofPool ref queue else ofPool ref queue := by
      intro ref
      unfold Streams.pending
      rw [hqueue, ofPool_cons]
    refine ⟨hC.avail, ?_, ?_, ?_⟩
    · intro ref
      have hold := hC.queued ref
      rw [hpending] at hold
      split at hold
      · exact (suffix_cons _ _).trans hold
      · exact hold
    · intro _ ref p' hp'
      rw [show (Feed.after _ _).tracker = (s.feed.tracker.apply e).1 from rfl,
        PoolTracker.lookup_apply] at hp'
      by_cases hpool : ref = e.pool
      · rw [if_pos hpool] at hp'
        obtain ⟨p, hp, rfl⟩ := map_eq_some_iff.mp hp'
        have hold := hC.named hopen e.pool p hp
        rw [hpending, if_pos rfl] at hold
        rw [hpool, woke_available, apply_named]
        exact hold
      · rw [if_neg hpool] at hp'
        have hold := hC.named hopen ref p' hp'
        rw [hpending, if_neg (Ne.symm hpool)] at hold
        exact hold
    · intro _ ref p' hp'
      rw [show (Feed.after _ _).tracker = (s.feed.tracker.apply e).1 from rfl,
        PoolTracker.lookup_apply] at hp'
      by_cases hpool : ref = e.pool
      · rw [if_pos hpool] at hp'
        obtain ⟨p, hp, rfl⟩ := map_eq_some_iff.mp hp'
        subst hpool
        refine (hC.good hopen e.pool p hp).imp ?_ fun h => h.imp (hcoming _ p hp) fun h => ?_
        · intro h
          rw [woke_declared, p.apply_declared]
          exact h
        · rw [hpending, if_pos rfl] at h
          rw [applyAll_woke, enough_woke]
          exact h
      · rw [if_neg hpool] at hp'
        refine (hC.good hopen ref p' hp').imp id fun h => h.imp (hcoming _ p' hp') fun h => ?_
        rw [hpending, if_neg (Ne.symm hpool)] at h
        exact h

/-- A step that says nothing and leaves the queue alone is judged by the entries
it leaves. -/
theorem of_entries (hemit : l.emitted = [])
    (havail : f.avail = s.feed.avail) (hqueue : f.queue = s.feed.queue)
    (hentries : s.loop.isOpen = true → ∀ r p, f.tracker.pools.lookup r = some p →
      availableAfter p.available.named (s.pending r) ⊆ s.feed.avail r ∧
      (p.declared = false ∨ f.coming r ∨
        (p.applyAll (s.pending r)).Enough (s.feed.avail r))) : (s.after l f).Counting := by
  refine hC.of_silent hemit havail fun hopen => ?_
  have hpending : ∀ r, Streams.pending { s with feed := f } r = s.pending r := by
    intro r
    unfold Streams.pending
    rw [hqueue]
  refine ⟨havail ▸ hC.avail, ?_, ?_, ?_⟩
  · intro r
    rw [hpending]
    exact hC.queued r
  · intro _ r p hp
    rw [hpending]
    show _ ⊆ f.avail r
    rw [havail]
    exact (hentries hopen r p hp).1
  · intro _ r p hp
    unfold Streams.good
    rw [hpending]
    show _ ∨ f.coming r ∨ Enough (f.avail r) _
    rw [havail]
    exact (hentries hopen r p hp).2

/-- A step that writes one entry. -/
theorem put (ref : PoolRef) (hemit : l.emitted = [])
    (havail : f.avail = s.feed.avail) (hqueue : f.queue = s.feed.queue)
    (hother : ∀ r, r ≠ ref → f.tracker.pools.lookup r = s.feed.tracker.pools.lookup r)
    (hcoming : ∀ r p, r ≠ ref → s.feed.tracker.pools.lookup r = some p →
      s.feed.coming r → f.coming r)
    (hmine : s.loop.isOpen = true → ∀ p', f.tracker.pools.lookup ref = some p' →
      availableAfter p'.available.named (s.pending ref) ⊆ s.feed.avail ref ∧
      (p'.declared = false ∨ f.coming ref ∨
        (p'.applyAll (s.pending ref)).Enough (s.feed.avail ref))) : (s.after l f).Counting := by
  refine hC.of_entries hemit havail hqueue fun hopen r p hp => ?_
  by_cases hr : r = ref
  · subst hr
    exact hmine hopen p hp
  · have hp := (hother r hr).symm.trans hp
    exact ⟨hC.named hopen r p hp,
      (hC.good hopen r p hp).imp_right fun h => h.imp_left (hcoming r p hr hp)⟩

theorem poolAt_named (hopen : s.loop.isOpen = true) (ref : PoolRef) :
    availableAfter (s.feed.tracker.poolAt ref).available.named (s.pending ref)
      ⊆ s.feed.avail ref := by
  unfold PoolTracker.poolAt
  cases hp : s.feed.tracker.pools.lookup ref with
  | some p => exact hC.named hopen ref p hp
  | none => exact hC.avail ref ▸ availableAfter_suffix (hC.queued ref)

theorem track {declared : Bool} (hf : s.feed.next (.track ref declared) = some f) :
    (s.after (.track ref declared) f).Counting := by
  have hcoming := coming hf rfl
  cases hf
  have hlookup := (s.feed.tracker.lookup_track ref · declared)
  refine hC.put ref rfl rfl rfl (fun r hr => (hlookup r).trans (if_neg hr))
    (fun r p _ => hcoming r p) ?_
  intro hopen p' hp'
  cases ((hlookup ref).trans (if_pos rfl)).symm.trans hp'
  refine ⟨hC.poolAt_named hopen ref, ?_⟩
  cases declared with
  | false => exact .inl rfl
  | true =>
    -- `Track` asks for a poll of the Pool it declares
    refine .inr (.inl (.inr (.inl ?_)))
    show 0 < if (s.feed.tracker.track ref true).2 then s.feed.requests + 1 else s.feed.requests
    rw [show (s.feed.tracker.track ref true).2 = true from Bool.or_true _]
    exact Nat.succ_pos _

theorem pollNotFound (hf : s.feed.next .pollNotFound = some f) :
    (s.after .pollNotFound f).Counting := by
  have hother := coming_other hf
  unfold Feed.next at hf
  dsimp only at hf
  split at hf
  case h_2 => cases hf
  case h_1 ref generation todo hpoll =>
    cases hf
    have hlookup := (s.feed.tracker.lookup_setDeclared_false ref ·)
    refine hC.put ref rfl rfl rfl (fun r hr => (hlookup r).trans (if_neg hr))
      (hother ref (by rw [hpoll]; rfl)) ?_
    intro hopen p' hp'
    cases ((hlookup ref).trans (if_pos rfl)).symm.trans hp'
    exact ⟨hC.poolAt_named hopen ref, .inl rfl⟩

theorem claimExhausted {i : Nat} (hf : s.feed.next (.claimExhausted i) = some f)
    (hok : Recounted s (.feed (.claimExhausted i))) : (s.after (.claimExhausted i) f).Counting := by
  have hcoming := coming hf rfl
  unfold Feed.next at hf
  dsimp only at hf
  split at hf
  case h_2 => cases hf
  case h_1 ref hclaim =>
    cases hf
    have hlookup := (s.feed.tracker.lookup_markExhausted ref ·)
    refine hC.put ref rfl rfl rfl (fun r hr => (hlookup r).trans (if_neg hr))
      (fun r p _ => hcoming r p) ?_
    intro hopen p' hp'
    cases ((hlookup ref).trans (if_pos rfl)).symm.trans hp'
    refine ⟨hC.avail ref ▸ availableAfter_suffix (hC.queued ref), ?_⟩
    unfold PoolTracker.poolAt
    cases hp : s.feed.tracker.pools.lookup ref with
    | none => exact .inl rfl
    | some p =>
      have hgood : s.good ref { p with exhausted := true, available := .empty } :=
        (hok hopen (ref, true) hclaim p hp).good rfl keeps_forgotten
      exact hgood.imp_right fun h => h.imp_left (hcoming ref p hp)

theorem applyPoll (hf : s.feed.next .applyPoll = some f)
    (hok : Recounted s (.feed .applyPoll)) : (s.after .applyPoll f).Counting := by
  have hother := coming_other hf
  unfold Feed.next at hf
  dsimp only at hf
  split at hf
  case h_2 => cases hf
  case h_1 ref generation size status todo hpoll =>
    cases hf
    have hlookup := (s.feed.tracker.lookup_applyPoll ref · generation size status)
    refine hC.put ref rfl rfl rfl (fun r hr => (hlookup r).trans (if_neg hr))
      (hother ref (by rw [hpoll]; rfl)) ?_
    intro hopen p' hp'
    obtain ⟨p, hp, rfl⟩ :=
      map_eq_some_iff.mp (((hlookup ref).trans (if_pos rfl)).symm.trans hp')
    have hnamed := hC.named hopen ref p hp
    by_cases hgen : p.generation = generation
    · rw [if_neg (not_not.mpr hgen), woke_available, woke_declared,
        applyAll_woke, enough_woke]
      refine ⟨hnamed, ?_⟩
      have hgood : s.folds s.feed.poll := hok hopen
      have htail : s.feed.poll.pending.tail = todo := by rw [hpoll]; rfl
      rw [hpoll] at hgood
      have hfolded : s.answered.good ref (p.settle size status) :=
        (hgood p hp hgen).good rfl (keeps_counted rfl)
      refine hfolded.imp_right fun h => h.imp_left fun h => ?_
      refine h.kept (s.feed.tracker.applyPoll_kick ref generation size status).trans
        (Feed.after_requests { s.feed with poll := .round todo } _) fun hin => ?_
      show ref ∈ todo
      rw [← htail]
      exact hin
    · -- the answer is discarded and the question asked again
      rw [if_pos hgen]
      refine ⟨hnamed, .inr (.inl (.inr (.inl ?_)))⟩
      have hasks : (s.feed.tracker.applyPoll ref generation size status).2 = true := by
        unfold PoolTracker.applyPoll
        rw [hp]
        dsimp only
        rw [if_pos hgen]
      show 0 < if (s.feed.tracker.applyPoll ref generation size status).2
        then s.feed.requests + 1 else s.feed.requests
      rw [hasks]
      exact Nat.succ_pos _

theorem pollFails (hc : s.feed.tracker.Counted) (hf : s.feed.next .pollFails = some f)
    (hok : Recounted s (.feed .pollFails)) : (s.after .pollFails f).Counting := by
  have hother := coming_other hf
  unfold Feed.next at hf
  dsimp only at hf
  split at hf
  case h_2 => cases hf
  case h_1 ref generation todo hpoll =>
    cases hf
    have hhead : s.feed.poll.pending.head? = some ref := by rw [hpoll]; rfl
    refine hC.put ref rfl rfl rfl (fun _ _ => rfl) (hother ref hhead) ?_
    intro hopen p hp
    refine ⟨hC.named hopen ref p hp, ?_⟩
    have hgood : s.answered.good ref p :=
      (hok hopen ref hhead p hp).good rfl (keeps_report (hc ref p hp))
    unfold Streams.answered at hgood
    rw [hpoll] at hgood
    exact hgood

/-! ### The loops -/

/-- A step that writes no entry. -/
theorem keep (hf : s.feed.next l = some f) (hends : l.endsQuestion = false)
    (hemit : l.emitted = []) (havail : f.avail = s.feed.avail) (hqueue : f.queue = s.feed.queue)
    (hpools : f.tracker.pools = s.feed.tracker.pools) : (s.after l f).Counting := by
  refine hC.of_entries hemit havail hqueue fun hopen r p hp => ?_
  rw [hpools] at hp
  exact ⟨hC.named hopen r p hp,
    (hC.good hopen r p hp).imp_right fun h => h.imp_left (coming hf hends r p hp)⟩

theorem feed (hc : s.feed.tracker.Counted) (hadmits : s.admits l = true) (hf : s.feed.next l = some f)
    (hok : Recounted s (.feed l)) : (s.after l f).Counting := by
  cases l with
  | becomesAvailable ref uid => exact hC.becomesAvailable hc hf hok
  | leaves ref uid how => exact hC.leaves hf
  | emits e => exact hC.emits (of_decide_eq_true hadmits) hf
  | deliver => exact hC.deliver hf
  | track ref declared => exact hC.track hf
  | applyPoll => exact hC.applyPoll hf hok
  | pollFails => exact hC.pollFails hc hf hok
  | pollNotFound => exact hC.pollNotFound hf
  | claimExhausted i => exact hC.claimExhausted hf hok
  | requestPoll | kicked | timer =>
    have heq := (ite_none_right_eq_some.mp hf).2
    refine hC.keep hf rfl rfl ?_ ?_ ?_ <;> cases heq <;> rfl
  | claim ref | claimReturns i =>
    refine hC.keep hf rfl rfl ?_ ?_ ?_ <;> cases hf <;> rfl
  | ask =>
    refine hC.keep hf rfl rfl ?_ ?_ ?_
    all_goals
      unfold Feed.next at hf
      dsimp only at hf
      split at hf <;> cases hf <;> rfl
  | serve size status =>
    refine hC.keep hf rfl rfl ?_ ?_ ?_
    all_goals
      unfold Feed.next at hf
      dsimp only at hf
      split at hf
      · obtain ⟨-, ⟨⟩⟩ := ite_none_right_eq_some.mp hf
        rfl
      · cases hf

theorem setStream (up : Bool) {loop : StreamPc}
    (hloop : loop.isOpen = true → s.loop.isOpen = true) : (s.setStream up loop).Counting :=
  ⟨hC.avail, hC.queued, fun h => hC.named (hloop h), fun h => hC.good (hloop h)⟩

theorem subscribe (hc : s.feed.tracker.Counted) {backlog : List Event}
    (hreplays : Replays n s.log backlog) (hok : Recounted s (.subscribe backlog)) :
    (s.queueing backlog .opened).Counting := by
  refine ⟨hC.avail, hreplays.suffix, ?_, ?_⟩
  · exact fun _ ref p hp => (hok ⟨ref, p⟩ (AList.mem_lookup_iff.mp hp)).1
  · intro _ ref p hp
    have hsees : (s.queueing backlog .opened).Sees ref p p.report (ofPool ref backlog) :=
      (hok ⟨ref, p⟩ (AList.mem_lookup_iff.mp hp)).2
    exact hsees.good rfl (keeps_report (hc ref p hp))

end Streams.Counting

/-- A stream is open and has delivered everything, no call is out and no poll
is asked for. -/
def Streams.quiet (s : Streams) : Prop :=
  s.loop.isOpen = true ∧ s.feed.queue = [] ∧ s.feed.poll = .idle ∧
    s.feed.tracker.kick = false ∧ s.feed.requests = 0

end FlintlockRunner.Poolmgr

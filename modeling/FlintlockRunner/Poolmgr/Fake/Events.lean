import FlintlockRunner.Base.Machine
import FlintlockRunner.Poolmgr.Fake.State
import Mathlib.Data.List.Infix

/-!
# The event streams of the fake Pool Manager

`poolmgr/fake/events.go` and the `Subscribe` handler of `server.go`. `publish`
keeps the last events of each Pool and puts the event into the buffer of every
matching subscriber without blocking; a subscriber whose buffer is full is
dropped. A handler first sends the backlog it was given at its subscription and
then whatever it receives from its buffer, until it picks the drop signal or the
end of its context.

A stream owes its client the backlog and every later event of the Pools it
matches. What it has sent of one Pool is a beginning of that (`no_gaps`) as long as
every publication is `Seamless`. Two kinds of publication are not:

- one that finds room in the buffer of a stream that an earlier one found full.
  `drop` only closes a channel: the subscriber stays registered, and the handler
  may go on receiving;
- one whose id is not larger than one that is still to be replayed or sent. A
  Pool that is created again counts from 1, but `recent` keeps the events of its
  former life.

`streams_gapped` has a run of each kind.
-/

namespace FlintlockRunner.Poolmgr.Fake

open List

/-! ## The bus -/

def subscriberBuffer : Nat := 256

def defaultEventReplay : Nat := 100

/-- How many events `New` has the bus keep for each Pool. -/
def eventReplay (configured : Int) : Nat :=
  if configured ≤ 0 then defaultEventReplay else configured.toNat

/-- A `*poolmgrv1.Event`: the event, and its place among all that were published,
which tells two pointers apart. -/
structure Posted where
  place : Nat
  event : Event
  deriving DecidableEq, Repr

/-- The events of one Pool. -/
def postsOf (key : PoolRef) (l : List Posted) : List Posted :=
  l.filter fun e => e.event.pool = key

/-- Where a `Subscribe` handler is: in its loops, on its way out, or past the
deferred `unsubscribe`. -/
inductive Phase
  | serving
  | returning
  | unsubscribed
  deriving DecidableEq, Repr

/-- A `subscriber` and its handler. `rest` is what the handler has left of the
backlog; it selects only once that is empty. The last three are history: what
was sent, the whole backlog, and how many events had been published at the
subscription. -/
structure Stream where
  filter : Option PoolRef
  ch : List Posted
  dropped : Bool
  phase : Phase
  rest : List Posted
  delivered : List Posted
  backlog : List Posted
  since : Nat

namespace Stream

/-- A stream as `subscribe` makes it. -/
def new (filter : Option PoolRef) (backlog : List Posted) (since : Nat) : Stream where
  filter := filter
  ch := []
  dropped := false
  phase := .serving
  rest := backlog
  delivered := []
  backlog := backlog
  since := since

variable (st : Stream)

/-- `matches`. -/
def matchesKey (key : PoolRef) : Bool := st.filter.elim true fun k => k = key

/-- What `publish` does to one subscriber. -/
def offer (e : Posted) : Stream :=
  if st.phase = .unsubscribed ∨ st.matchesKey e.event.pool = false then st
  else if st.ch.length < subscriberBuffer then { st with ch := st.ch ++ [e] }
  else { st with dropped := true }

/-- What `dropAll` does to one subscriber. -/
def drop : Stream := if st.phase = .unsubscribed then st else { st with dropped := true }

end Stream

/-- The steps of a handler: `Send` of the next event of the backlog, one of the
three cases of the `select`, and the deferred `unsubscribe`. A `Send` may fail. -/
inductive HandlerStep
  | replay (ok : Bool)
  | receive (ok : Bool)
  | dropped
  | done
  | unsubscribe
  deriving DecidableEq, Repr

namespace Stream

variable (st : Stream)

/-- One turn of the loop over the backlog. -/
def replayNext (ok : Bool) : Option Stream :=
  match st.phase, st.rest with
  | .serving, e :: rest =>
    if ok then some { st with rest := rest, delivered := st.delivered ++ [e] }
    else some { st with phase := .returning }
  | _, _ => none

/-- The `select` receives from the buffer. -/
def receive (ok : Bool) : Option Stream :=
  match st.phase, st.rest, st.ch with
  | .serving, [], e :: ch =>
    if ok then some { st with ch := ch, delivered := st.delivered ++ [e] }
    else some { st with ch := ch, phase := .returning }
  | _, _, _ => none

/-- `Subscribe`, from one step to the next. -/
def step : HandlerStep → Option Stream
  | .replay ok => st.replayNext ok
  | .receive ok => st.receive ok
  | .dropped =>
    if st.phase = .serving ∧ st.rest = [] ∧ st.dropped = true then
      some { st with phase := .returning }
    else none
  | .done =>
    if st.phase = .serving ∧ st.rest = [] then some { st with phase := .returning } else none
  | .unsubscribe =>
    if st.phase = .returning then some { st with phase := .unsubscribed } else none

end Stream

/-- `eventBus`, with the numbering of the Pools: `pools` has the `nextEvent` of
each Pool that exists. A subscriber's id is its place in `streams`, and it is in
`subs` until it is unsubscribed. `published` is history. -/
structure EventBus where
  replay : Nat
  pools : AList fun _ : PoolRef => Nat
  recent : AList fun _ : PoolRef => List Posted
  streams : List Stream
  published : List Posted

namespace EventBus

/-- `newEventBus`, with no Pool yet. -/
def new (replay : Nat) : EventBus := ⟨replay, ∅, ∅, [], []⟩

variable (b : EventBus)

/-- `recent[key]`. -/
def recentOf (key : PoolRef) : List Posted := (b.recent.lookup key).getD []

/-- Keeps the event for replays and offers it to every stream. -/
def publish (key : PoolRef) (e : Posted) : EventBus :=
  let log := b.recentOf key ++ [e]
  let log := if log.length > b.replay then log.drop (log.length - b.replay) else log
  { b with
    recent := b.recent.insert key log
    streams := b.streams.map fun st => st.offer e
    published := b.published ++ [e] }

/-- Numbers an event of a Pool that is there and publishes it. -/
def emitLocked (key : PoolRef) (vmUID : String) (type : EventType) : EventBus :=
  match b.pools.lookup key with
  | none => b
  | some n =>
    { b with pools := b.pools.insert key (n + 1) }.publish key
      ⟨b.published.length, ⟨n + 1, key, vmUID, type⟩⟩

variable (cfg : FakeConfig)

/-- `createPool`, as far as the numbering goes. -/
def createPool (key : PoolRef) : EventBus :=
  if cfg.checkNamespace key.nameSpace ≠ none ∨ key ∈ b.pools then b
  else { b with pools := b.pools.insert key 0 }

/-- The end of `deletePool`'s section. -/
def deletePool (key : PoolRef) : EventBus :=
  if cfg.checkNamespace key.nameSpace ≠ none then b
  else { b with pools := b.pools.erase key }

variable (filter : Option PoolRef) (order : List PoolRef)

/-- The events `subscribe` has replayed; `order` is that of the `range` over
`recent`. -/
def backlog : List Posted :=
  match filter with
  | some key => b.recentOf key
  | none => order.flatMap b.recentOf

/-- A new stream, with what is replayed to it. -/
def subscribe : EventBus :=
  { b with
    streams := b.streams ++ [.new filter (b.backlog filter order) b.published.length] }

/-- The beginning of `Subscribe`: a filter whose namespace is not served opens no
stream. -/
def openStream :
    Option EventBus :=
  if filter.any fun key => (cfg.checkNamespace key.nameSpace).isSome then some b
  else if order.Perm b.recent.keys then some (b.subscribe filter order)
  else none

/-- Every stream is told to end. -/
def dropAll : EventBus := { b with streams := b.streams.map Stream.drop }

end EventBus

/-- Who moves: the sections that create and delete a Pool or emit an event, a
`Subscribe` with its filter, a handler, or the injected fault. -/
inductive EventLabel
  | createPool (key : PoolRef)
  | deletePool (key : PoolRef)
  | emit (key : PoolRef) (vmUID : String) (type : EventType)
  | subscribe (filter : Option PoolRef) (order : List PoolRef)
  | handler (i : Nat) (step : HandlerStep)
  | dropAll

/-- One step of the bus or of a handler. -/
def EventBus.next (cfg : FakeConfig) (b : EventBus) : EventLabel → Option EventBus
  | .createPool key => some (b.createPool cfg key)
  | .deletePool key => some (b.deletePool cfg key)
  | .emit key vmUID type => some (b.emitLocked key vmUID type)
  | .subscribe filter order => b.openStream cfg filter order
  | .handler i step =>
    (b.streams[i]?).bind fun st =>
      (st.step step).map fun st => { b with streams := b.streams.set i st }
  | .dropAll => some b.dropAll

/-- The event streams of a Pool Manager with a configured replay. -/
def eventMachine (cfg : FakeConfig) (configured : Int) : Machine EventBus EventLabel where
  init b := b = .new (eventReplay configured)
  next := EventBus.next cfg

/-! ## What a stream owes -/

/-- Ids in order. -/
def Increasing (l : List Posted) : Prop := l.Pairwise fun a b => a.event.id < b.event.id

namespace Stream

variable (st : Stream)

/-- What the handler still has to send if nothing stops it. -/
def due : List Posted := if st.phase = .serving then st.rest ++ st.ch else []

/-- The events of a Pool that were sent or are due. -/
def held (key : PoolRef) : List Posted := postsOf key (st.delivered ++ st.due)

/-- The events of a Pool that the stream is for: the replayed ones, then every
one published since. -/
def owed (published : List Posted) (key : PoolRef) : List Posted :=
  if st.matchesKey key then postsOf key (st.backlog ++ published.drop st.since) else []

/-- The next event of a Pool goes into the buffer and will be sent. -/
def hears (key : PoolRef) : Prop :=
  st.phase = .serving ∧ st.matchesKey key = true ∧ st.ch.length < subscriberBuffer

instance (key : PoolRef) : Decidable (st.hears key) := inferInstanceAs (Decidable (_ ∧ _))

/-- The events of a Pool that a stream has sent are a contiguous run of that
Pool's publications, a beginning of what the stream owes, and have increasing
ids. -/
structure Gapless (published : List Posted) (key : PoolRef) : Prop where
  contiguous : postsOf key st.delivered <:+: postsOf key published
  replayFirst : postsOf key st.delivered <+: st.owed published key
  increasing : Increasing (postsOf key st.delivered)

end Stream

namespace EventBus

variable (b : EventBus)

/-- The id of the last event of a Pool. -/
def lastId (key : PoolRef) : Nat := (b.pools.lookup key).getD 0

/-- The events of a Pool that stay in `recent` when one more is published. -/
def keptOf (key : PoolRef) : List Posted :=
  (b.recentOf key).drop ((b.recentOf key).length + 1 - b.replay)

/-- A publication finds no room in the buffer of a stream that was dropped and is
still served, and a Pool is created only while no event of it is kept. -/
def Seamless : EventLabel → Prop
  | .emit key _ _ => key ∈ b.pools → ∀ st ∈ b.streams, st.hears key → st.dropped = false
  | .createPool key => key ∉ b.pools → b.recentOf key = []
  | _ => True

instance : DecidablePred b.Seamless := fun l => by
  unfold Seamless
  split <;> infer_instance

end EventBus

/-! ## Lists of events -/

section Lists

variable {key : PoolRef} {l l' : List Posted} {e : Posted}

@[simp] theorem postsOf_append (key : PoolRef) (l l' : List Posted) :
    postsOf key (l ++ l') = postsOf key l ++ postsOf key l' := filter_append ..

theorem postsOf_self (he : e.event.pool = key) : postsOf key [e] = [e] := by
  simp [postsOf, he]

theorem postsOf_other (he : e.event.pool ≠ key) : postsOf key [e] = [] := by
  simp [postsOf, he]

theorem postsOf_eq_self (h : ∀ p ∈ l, p.event.pool = key) : postsOf key l = l := by
  simpa [postsOf] using h

theorem postsOf_eq_nil (h : ∀ p ∈ l, p.event.pool ≠ key) : postsOf key l = [] := by
  simpa [postsOf] using h

theorem pool_of_mem {p : Posted} (h : p ∈ postsOf key l) : p.event.pool = key := by
  simpa using (mem_filter.mp h).2

theorem postsOf_mono (key : PoolRef) (h : l <+: l') : postsOf key l <+: postsOf key l' :=
  h.filter _

theorem Increasing.concat (h : Increasing l) (he : ∀ p ∈ l, p.event.id < e.event.id) :
    Increasing (l ++ [e]) := by
  refine pairwise_append.mpr ⟨h, pairwise_singleton _ _, ?_⟩
  intro p hp q hq
  obtain rfl := mem_singleton.mp hq
  exact he p hp

end Lists

/-! ## One stream -/

namespace Stream

variable {st st' : Stream} {published : List Posted} {key : PoolRef} {e : Posted}

theorem owed_of_matches (h : st.matchesKey key = true) :
    st.owed published key = postsOf key (st.backlog ++ published.drop st.since) := if_pos h

theorem owed_of_not_matches (h : st.matchesKey key = false) : st.owed published key = [] := by
  simp [owed, h]

theorem owed_concat (hsince : st.since ≤ published.length) (hm : st.matchesKey key = true) :
    st.owed (published ++ [e]) key = st.owed published key ++ postsOf key [e] := by
  rw [owed_of_matches hm, owed_of_matches hm, drop_append_of_le_length hsince,
    ← append_assoc, postsOf_append key _ [e]]

theorem owed_other (hsince : st.since ≤ published.length)
    (he : st.matchesKey key = true → e.event.pool ≠ key) :
    st.owed (published ++ [e]) key = st.owed published key := by
  cases hm : st.matchesKey key with
  | true => rw [owed_concat hsince hm, postsOf_other (he hm), append_nil]
  | false => rw [owed_of_not_matches hm, owed_of_not_matches hm]

theorem owed_mono (hsince : st.since ≤ published.length) :
    st.owed published key <+: st.owed (published ++ [e]) key := by
  cases hm : st.matchesKey key with
  | true => exact owed_concat hsince hm ▸ prefix_append _ _
  | false => rw [owed_of_not_matches hm]; exact nil_prefix

/-- An offered event is held by the streams that hear of it, and nothing else
changes. -/
theorem held_offer (st : Stream) (e : Posted) (key : PoolRef) :
    (st.offer e).held key =
      st.held key ++ if st.hears e.event.pool then postsOf key [e] else [] := by
  unfold offer
  split
  · next hout =>
    rw [if_neg, append_nil]
    rintro ⟨hserving, hm, -⟩
    simp [hserving, hm] at hout
  · next hin =>
    obtain ⟨-, hm⟩ := not_or.mp hin
    rw [Bool.not_eq_false] at hm
    split
    · next hroom =>
      by_cases hserving : st.phase = .serving
      · simp [held, due, hserving, hears, hm, hroom]
      · simp [held, due, hserving, hears]
    · next hfull =>
      rw [if_neg, append_nil]
      · rfl
      · rintro ⟨-, -, hroom⟩
        exact hfull hroom

theorem owed_congr (hfilter : st'.filter = st.filter) (hbacklog : st'.backlog = st.backlog)
    (hsince : st'.since = st.since) : st'.owed published key = st.owed published key := by
  unfold owed matchesKey
  rw [hfilter, hbacklog, hsince]

/-- The subscription of one stream is that of another. -/
structure Same (st st' : Stream) : Prop where
  filter : st'.filter = st.filter
  backlog : st'.backlog = st.backlog
  since : st'.since = st.since

/-- A stream that takes nothing of an event it matches is dropped. -/
theorem offer_dropped (hserving : st.phase = .serving) (hm : st.matchesKey e.event.pool = true)
    (hhears : ¬ st.hears e.event.pool) : (st.offer e).dropped = true := by
  have hfull : ¬ st.ch.length < subscriberBuffer := fun hroom => hhears ⟨hserving, hm, hroom⟩
  simp [offer, hserving, hm, hfull]

theorem dropped_of_offer (h : (st.offer e).dropped = false) : st.dropped = false := by
  unfold offer at h
  split at h
  · exact h
  · split at h
    · exact h
    · cases h

theorem offer_phase (st : Stream) (e : Posted) : (st.offer e).phase = st.phase := by
  unfold offer
  split
  · rfl
  · split <;> rfl

theorem offer_same (st : Stream) (e : Posted) : Same st (st.offer e) := by
  unfold offer
  split
  · exact ⟨rfl, rfl, rfl⟩
  · split <;> exact ⟨rfl, rfl, rfl⟩

/-- A handler sends what is due or leaves: what is sent and due of `st'` is a
beginning of that of `st`, and all of it while the stream is served. -/
structure Within (st st' : Stream) : Prop where
  same : Same st st'
  held : st'.delivered ++ st'.due <+: st.delivered ++ st.due
  dropped : st'.dropped = st.dropped
  serving : st'.phase = .serving →
    st.phase = .serving ∧ st'.delivered ++ st'.due = st.delivered ++ st.due

theorem leave_within {phase : Phase} (ch : List Posted) (hphase : phase ≠ .serving) :
    Within st { st with ch := ch, phase := phase } where
  same := ⟨rfl, rfl, rfl⟩
  held := by simp [due, hphase]
  dropped := rfl
  serving h := absurd h hphase

theorem send_within (hserving : st.phase = .serving) (hsame : Same st st')
    (hdropped : st'.dropped = st.dropped)
    (hheld : st'.delivered ++ st'.due = st.delivered ++ st.due) : Within st st' :=
  ⟨hsame, hheld ▸ prefix_rfl, hdropped, fun _ => ⟨hserving, hheld⟩⟩

theorem replayNext_within {ok : Bool} (h : st.replayNext ok = some st') : Within st st' := by
  unfold replayNext at h
  split at h
  · next e rest hserving hrest =>
    split at h
    · cases h
      exact send_within hserving ⟨rfl, rfl, rfl⟩ rfl (by simp [due, hserving, hrest])
    · cases h
      exact leave_within st.ch (by decide)
  · cases h

theorem receive_within {ok : Bool} (h : st.receive ok = some st') : Within st st' := by
  unfold receive at h
  split at h
  · next e ch hserving hrest hch =>
    split at h
    · cases h
      exact send_within hserving ⟨rfl, rfl, rfl⟩ rfl
        (by simp [due, hserving, hrest, hch])
    · cases h
      exact leave_within ch (by decide)
  · cases h

theorem step_within {a : HandlerStep} (h : st.step a = some st') : Within st st' := by
  cases a with
  | replay ok => exact replayNext_within h
  | receive ok => exact receive_within h
  | dropped | done | unsubscribe =>
    obtain ⟨-, ⟨⟩⟩ := Option.ite_none_right_eq_some.mp h
    exact leave_within st.ch (by decide)

/-- **A stream in order**: what it has sent and holds of a Pool is a beginning of
what it owes, which ends with the last publication, and all of that as long as
the stream is served and not dropped. -/
structure Ordered (published : List Posted) (st : Stream) (key : PoolRef) : Prop where
  since : st.since ≤ published.length
  backlog : postsOf key st.backlog <:+ postsOf key (published.take st.since)
  held : st.held key <+: st.owed published key
  whole : st.phase = .serving → st.dropped = false → st.held key = st.owed published key

namespace Ordered

variable (h : Ordered published st key)
include h

theorem owed_suffix : st.owed published key <:+ postsOf key published := by
  cases hm : st.matchesKey key with
  | true =>
    obtain ⟨before, hbefore⟩ := h.backlog
    rw [owed_of_matches hm, postsOf_append]
    refine ⟨before, ?_⟩
    rw [← append_assoc, hbefore, ← postsOf_append, take_append_drop]
  | false =>
    rw [owed_of_not_matches hm]
    exact nil_suffix

theorem gapless (hids : Increasing (postsOf key published)) : st.Gapless published key := by
  have hsent : postsOf key st.delivered <+: st.held key :=
    postsOf_mono key (prefix_append _ _)
  have hcontiguous := (hsent.trans h.held).isInfix.trans h.owed_suffix.isInfix
  exact {
    contiguous := hcontiguous
    replayFirst := hsent.trans h.held
    increasing := hids.sublist hcontiguous.sublist }

theorem step {a : HandlerStep} (hstep : st.step a = some st') : Ordered published st' key := by
  obtain ⟨hsame, hprefix, hdropped, hserving⟩ := step_within hstep
  have howed : st'.owed published key = st.owed published key :=
    owed_congr hsame.filter hsame.backlog hsame.since
  exact {
    since := hsame.since ▸ h.since
    backlog := by
      rw [hsame.backlog, hsame.since]
      exact h.backlog
    held := by
      rw [howed]
      exact (postsOf_mono key hprefix).trans h.held
    whole := by
      intro hphase hnot
      obtain ⟨hbefore, hall⟩ := hserving hphase
      rw [howed, ← h.whole hbefore (hdropped ▸ hnot), Stream.held, Stream.held, hall] }

theorem drop : Ordered published st.drop key := by
  unfold Stream.drop
  split
  · exact h
  · exact ⟨h.since, h.backlog, h.held, fun _ hnot => nomatch hnot⟩

/-- A publication that no dropped stream hears. A stream that takes the event
held all it owed before; one that matches and takes nothing is dropped by it. -/
theorem offer (hok : st.hears e.event.pool → st.dropped = false) :
    Ordered (published ++ [e]) (st.offer e) key := by
  have hsame := offer_same st e
  have howed : (st.offer e).owed (published ++ [e]) key = st.owed (published ++ [e]) key :=
    owed_congr hsame.filter hsame.backlog hsame.since
  have hheard : st.hears e.event.pool →
      (st.offer e).held key = st.owed (published ++ [e]) key := by
    intro hhears
    rw [held_offer, if_pos hhears, h.whole hhears.1 (hok hhears)]
    by_cases hpool : e.event.pool = key
    · rw [owed_concat h.since (hpool ▸ hhears.2.1)]
    · rw [postsOf_other hpool, append_nil, owed_other h.since fun _ => hpool]
  have hunheard : ¬ st.hears e.event.pool → (st.offer e).held key = st.held key := by
    intro hhears
    rw [held_offer, if_neg hhears, append_nil]
  exact {
    since := by
      rw [hsame.since, length_append]
      exact Nat.le_add_right_of_le h.since
    backlog := by
      rw [hsame.backlog, hsame.since, take_append_of_le_length h.since]
      exact h.backlog
    held := by
      rw [howed]
      by_cases hhears : st.hears e.event.pool
      · rw [hheard hhears]
      · rw [hunheard hhears]
        exact h.held.trans (owed_mono h.since)
    whole := by
      intro hphase hnot
      rw [howed]
      by_cases hhears : st.hears e.event.pool
      · exact hheard hhears
      · have hserving : st.phase = .serving := offer_phase st e ▸ hphase
        have hother : st.matchesKey key = true → e.event.pool ≠ key := by
          rintro hm rfl
          exact absurd (offer_dropped hserving hm hhears) (by simp [hnot])
        rw [hunheard hhears, h.whole hserving (dropped_of_offer hnot), owed_other h.since hother] }

end Ordered

end Stream

/-! ## The bus over a run -/

namespace EventBus

variable {cfg : FakeConfig} {configured : Int} {b c : EventBus} {key : PoolRef} {e : Posted}
  {order : List PoolRef} {type : EventType} {vmUID : String}

theorem emitLocked_of_not_mem (h : key ∉ b.pools) : b.emitLocked key vmUID type = b := by
  rw [emitLocked, AList.lookup_eq_none.mpr h]

/-- The event that `emitLocked` publishes. -/
def nextPosted (b : EventBus) (key : PoolRef) (vmUID : String) (type : EventType) : Posted :=
  ⟨b.published.length, ⟨b.lastId key + 1, key, vmUID, type⟩⟩

theorem postsOf_nextPosted :
    postsOf key [b.nextPosted key vmUID type] = [b.nextPosted key vmUID type] := postsOf_self rfl

theorem emitLocked_of_mem (h : key ∈ b.pools) :
    b.emitLocked key vmUID type =
      { b with pools := b.pools.insert key (b.lastId key + 1) }.publish key
        (b.nextPosted key vmUID type) := by
  obtain ⟨n, hn⟩ := Option.isSome_iff_exists.mp (AList.lookup_isSome.mpr h)
  rw [emitLocked, nextPosted, lastId, hn]
  rfl

theorem recentOf_publish_self (hreplay : 0 < b.replay) :
    (b.publish key e).recentOf key = b.keptOf key ++ [e] := by
  have hlog : (b.publish key e).recentOf key =
      if (b.recentOf key ++ [e]).length > b.replay then
        (b.recentOf key ++ [e]).drop ((b.recentOf key ++ [e]).length - b.replay)
      else b.recentOf key ++ [e] := by
    unfold publish recentOf
    rw [AList.lookup_insert, Option.getD_some]
  rw [hlog, keptOf, length_append, length_singleton,
    ← drop_append_of_le_length (by omega)]
  split
  · rfl
  · next h => rw [Nat.sub_eq_zero_of_le (Nat.le_of_not_gt h), drop_zero]

theorem recentOf_publish_other {other : PoolRef} (h : other ≠ key) :
    (b.publish key e).recentOf other = b.recentOf other := by
  unfold publish recentOf
  rw [AList.lookup_insert_ne h]

/-- What is kept under a Pool is of that Pool. -/
def Filed (b : EventBus) : Prop := ∀ key, ∀ p ∈ b.recentOf key, p.event.pool = key

/-- The `range` over `recent` visits a Pool once. -/
theorem Filed.postsOf_flatMap (h : Filed b) (hnodup : order.Nodup) :
    postsOf key (order.flatMap b.recentOf) = if key ∈ order then b.recentOf key else [] := by
  induction order with
  | nil => rfl
  | cons k order ih =>
    obtain ⟨hk, hrest⟩ := nodup_cons.mp hnodup
    rw [flatMap_cons, postsOf_append, ih hrest]
    by_cases heq : key = k
    · subst heq
      rw [if_neg hk, append_nil, if_pos mem_cons_self]
      exact postsOf_eq_self (h key)
    · have hother : postsOf key (b.recentOf k) = [] :=
        postsOf_eq_nil fun p hp hpool => heq (hpool.symm.trans (h k p hp))
      rw [hother, nil_append]
      simp [heq]

/-- Of each Pool it matches, a new stream replays what is kept, and of no other. -/
theorem Filed.postsOf_backlog (h : Filed b) (filter : Option PoolRef)
    (horder : order.Perm b.recent.keys) (key : PoolRef) :
    postsOf key (b.backlog filter order) =
      if filter.elim true (fun k => k = key) then b.recentOf key else [] := by
  cases filter with
  | some k =>
    by_cases hk : k = key
    · subst hk
      simpa [backlog] using postsOf_eq_self (h k)
    · simpa [backlog, hk] using
        postsOf_eq_nil fun p hp hpool => hk ((h k p hp).symm.trans hpool)
  | none =>
    rw [backlog, h.postsOf_flatMap (horder.nodup_iff.mpr b.recent.nodupKeys), Option.elim_none,
      if_pos rfl]
    split
    · rfl
    · next hkey =>
      have habsent : key ∉ b.recent := fun hmem => hkey (horder.mem_iff.mpr hmem)
      rw [recentOf, AList.lookup_eq_none.mpr habsent]
      rfl

/-- **Everything in order**: what is kept of a Pool are its last events, the ids
of a Pool's events grow up to its counter, and every stream is in order. -/
structure Ordered (b : EventBus) : Prop where
  replay : 0 < b.replay
  places : b.published.map Posted.place = List.range b.published.length
  recent : ∀ key, b.recentOf key <:+ postsOf key b.published
  kept : ∀ key, b.recentOf key = [] → postsOf key b.published = []
  ids : ∀ key, Increasing (postsOf key b.published)
  counted : ∀ key ∈ b.pools, ∀ p ∈ postsOf key b.published, p.event.id ≤ b.lastId key
  streams : ∀ st ∈ b.streams, ∀ key, Stream.Ordered b.published st key

namespace Ordered

theorem filed (h : Ordered b) : Filed b :=
  fun key _ hp => pool_of_mem ((h.recent key).subset hp)

theorem withPools (h : Ordered b) {pools : AList fun _ : PoolRef => Nat}
    (hcounted : ∀ key ∈ pools, ∀ p ∈ postsOf key b.published,
      p.event.id ≤ (pools.lookup key).getD 0) :
    Ordered { b with pools := pools } :=
  ⟨h.replay, h.places, h.recent, h.kept, h.ids, hcounted, h.streams⟩

theorem withStreams (h : Ordered b) {streams : List Stream}
    (hstreams : ∀ st ∈ streams, ∀ key, Stream.Ordered b.published st key) :
    Ordered { b with streams := streams } :=
  ⟨h.replay, h.places, h.recent, h.kept, h.ids, h.counted, hstreams⟩

/-- No event of a Pool of which none is kept was ever published, so its numbering
may start at 0. -/
theorem createPool (h : Ordered b) (hok : key ∉ b.pools → b.recentOf key = []) :
    Ordered (b.createPool cfg key) := by
  unfold EventBus.createPool
  split
  · exact h
  · next hnew =>
    have hnone := h.kept key (hok (not_or.mp hnew).2)
    refine h.withPools ?_
    intro other hother p hp
    by_cases ho : other = key
    · rw [ho, hnone] at hp
      cases hp
    · rw [AList.lookup_insert_ne ho]
      exact h.counted other ((AList.mem_insert _).mp hother |>.resolve_left ho) p hp

theorem deletePool (h : Ordered b) : Ordered (b.deletePool cfg key) := by
  unfold EventBus.deletePool
  split
  · exact h
  · refine h.withPools ?_
    intro other hother p hp
    obtain ⟨ho, hmem⟩ := AList.mem_erase.mp hother
    rw [AList.lookup_erase_ne ho]
    exact h.counted other hmem p hp

section Emit

variable (h : Ordered b) (hkey : key ∈ b.pools)

include h

theorem recent_publish (hpool : e.event.pool = key) (other : PoolRef) :
    (b.publish key e).recentOf other <:+ postsOf other (b.published ++ [e]) := by
  by_cases ho : other = key
  · subst ho
    obtain ⟨before, hbefore⟩ := (drop_suffix _ _ : b.keptOf other <:+ _).trans (h.recent other)
    rw [recentOf_publish_self h.replay, postsOf_append, postsOf_self hpool, ← hbefore]
    exact ⟨before, (append_assoc ..).symm⟩
  · rw [recentOf_publish_other ho, postsOf_append, postsOf_other (hpool ▸ Ne.symm ho),
      append_nil]
    exact h.recent other

theorem kept_publish (hpool : e.event.pool = key) (other : PoolRef)
    (hnone : (b.publish key e).recentOf other = []) : postsOf other (b.published ++ [e]) = [] := by
  by_cases ho : other = key
  · subst ho
    rw [recentOf_publish_self h.replay] at hnone
    exact absurd (append_eq_nil_iff.mp hnone).2 (cons_ne_nil _ _)
  · rw [recentOf_publish_other ho] at hnone
    rw [postsOf_append, h.kept other hnone, postsOf_other (hpool ▸ Ne.symm ho), append_nil]

include hkey

/-- The id of a new event is the next one of its Pool. -/
theorem ids_emit (other : PoolRef) :
    Increasing (postsOf other (b.published ++ [b.nextPosted key vmUID type])) := by
  rw [postsOf_append]
  by_cases ho : key = other
  · subst ho
    rw [postsOf_nextPosted]
    exact (h.ids key).concat fun p hp => Nat.lt_succ_of_le (h.counted key hkey p hp)
  · rw [postsOf_other ho, append_nil]
    exact h.ids other

theorem counted_emit {other : PoolRef} (hother : other ∈ b.pools.insert key (b.lastId key + 1))
    {p : Posted} (hp : p ∈ postsOf other (b.published ++ [b.nextPosted key vmUID type])) :
    p.event.id ≤ ((b.pools.insert key (b.lastId key + 1)).lookup other).getD 0 := by
  rw [postsOf_append] at hp
  by_cases ho : other = key
  · subst ho
    rw [AList.lookup_insert, Option.getD_some]
    rw [postsOf_nextPosted] at hp
    rcases mem_append.mp hp with hold | hnew
    · exact Nat.le_succ_of_le (h.counted other hkey p hold)
    · rw [mem_singleton.mp hnew]
      exact Nat.le_refl _
  · rw [postsOf_other (Ne.symm ho), append_nil] at hp
    rw [AList.lookup_insert_ne ho]
    exact h.counted other ((AList.mem_insert _).mp hother |>.resolve_left ho) p hp

end Emit

theorem emitLocked (h : Ordered b)
    (hok : key ∈ b.pools → ∀ st ∈ b.streams, st.hears key → st.dropped = false) :
    Ordered (b.emitLocked key vmUID type) := by
  by_cases hkey : key ∈ b.pools
  · rw [emitLocked_of_mem hkey]
    exact {
      replay := h.replay
      places := by
        show (b.published ++ [_]).map Posted.place = range (b.published ++ [_]).length
        rw [map_append, h.places, length_append, length_singleton, range_succ, map_singleton]
        rfl
      recent := h.recent_publish rfl
      kept := h.kept_publish rfl
      ids := h.ids_emit hkey
      counted := fun _ hother _ hp => h.counted_emit hkey hother hp
      streams := by
        intro st' hst' other
        obtain ⟨st, hst, rfl⟩ := mem_map.mp hst'
        exact (h.streams st hst other).offer (hok hkey st hst) }
  · rw [emitLocked_of_not_mem hkey]
    exact h

theorem subscribe (h : Ordered b) {filter : Option PoolRef} (horder : order.Perm b.recent.keys) :
    Ordered (b.subscribe filter order) := by
  refine h.withStreams ?_
  intro st hst key
  rcases mem_append.mp hst with hold | hnew
  · exact h.streams st hold key
  · obtain rfl := mem_singleton.mp hnew
    have hbacklog : postsOf key (b.backlog filter order) =
        if (Stream.new filter (b.backlog filter order) b.published.length).matchesKey key
        then b.recentOf key else [] := h.filed.postsOf_backlog filter horder key
    have hheld : (Stream.new filter (b.backlog filter order) b.published.length).held key =
        postsOf key (b.backlog filter order) := by
      simp [Stream.held, Stream.due, Stream.new]
    have howed : (Stream.new filter (b.backlog filter order) b.published.length).held key =
        (Stream.new filter (b.backlog filter order) b.published.length).owed b.published key := by
      rw [hheld, Stream.owed]
      split
      · simp [Stream.new]
      · next hm => rw [hbacklog, if_neg hm]
    refine ⟨Nat.le_refl _, ?_, howed ▸ prefix_rfl, fun _ _ => howed⟩
    show postsOf key (b.backlog filter order) <:+ postsOf key (b.published.take b.published.length)
    rw [take_length, hbacklog]
    split
    · exact h.recent key
    · exact nil_suffix

theorem openStream (h : Ordered b) {filter : Option PoolRef}
    (hnext : b.openStream cfg filter order = some c) : Ordered c := by
  unfold EventBus.openStream at hnext
  split at hnext
  · cases hnext
    exact h
  · obtain ⟨horder, ⟨⟩⟩ := Option.ite_none_right_eq_some.mp hnext
    exact h.subscribe horder

theorem next (h : Ordered b) {l : EventLabel} (hok : b.Seamless l)
    (hnext : b.next cfg l = some c) : Ordered c := by
  cases l with
  | createPool key =>
    cases hnext
    exact h.createPool hok
  | deletePool key =>
    cases hnext
    exact h.deletePool
  | emit key vmUID type =>
    cases hnext
    exact h.emitLocked hok
  | subscribe filter order =>
    exact h.openStream hnext
  | handler i a =>
    obtain ⟨st, hst, hnext⟩ := Option.bind_eq_some_iff.mp hnext
    obtain ⟨st', hstep, rfl⟩ := Option.map_eq_some_iff.mp hnext
    refine h.withStreams ?_
    intro st'' hst'' key
    rcases mem_or_eq_of_mem_set hst'' with hold | rfl
    · exact h.streams st'' hold key
    · exact (h.streams st (mem_of_getElem? hst) key).step hstep
  | dropAll =>
    cases hnext
    refine h.withStreams ?_
    intro st' hst' key
    obtain ⟨st, hst, rfl⟩ := mem_map.mp hst'
    exact (h.streams st hst key).drop

end Ordered

theorem eventReplay_pos (configured : Int) : 0 < eventReplay configured := by
  unfold eventReplay defaultEventReplay
  split <;> omega

theorem ordered_new {replay : Nat} (h : 0 < replay) : Ordered (.new replay) where
  replay := h
  places := rfl
  recent _ := nil_suffix
  kept _ _ := rfl
  ids _ := List.Pairwise.nil
  counted _ _ _ hp := nomatch hp
  streams _ hst := nomatch hst

theorem ordered_of_reach (h : (eventMachine cfg configured).Reach Seamless b) : Ordered b := by
  refine h.inv (I := Ordered) ?_ ?_
  · rintro b rfl
    exact ordered_new (eventReplay_pos configured)
  · intro b l c hb hok hnext
    exact hb.next hok hnext

/-- **An event stream has no gaps** as long as one that was dropped takes no further
event and a Pool is not created again while events of it are kept: the events of one Pool that a stream has sent, the replayed ones first, are a
contiguous run of that Pool's publications with increasing ids. -/
theorem no_gaps (cfg : FakeConfig) (configured : Int) {b : EventBus}
    (h : (eventMachine cfg configured).Reach Seamless b) :
    b.published.map Posted.place = List.range b.published.length ∧
      ∀ st ∈ b.streams, ∀ key, st.Gapless b.published key := by
  have hb := ordered_of_reach h
  exact ⟨hb.places, fun st hst key => (hb.streams st hst key).gapless (hb.ids key)⟩

/-! ## Runs -/

/-- A Pool Manager that serves every namespace. -/
def anyNamespace : FakeConfig := ⟨"", .leastVMs⟩

/-- A Pool. -/
def runners : PoolRef := ⟨"runners", "ci"⟩

/-- The Pool starts to provision, over and over. -/
def emits (n : Nat) : List EventLabel := List.replicate n (.emit runners "" .poolReplenishing)

/-- The handler of the first stream receives, over and over. -/
def receives (n : Nat) : List EventLabel := List.replicate n (.handler 0 (.receive true))

/-- Two events are replayed to a stream and 256 follow into its buffer. The next
two find it full; the handler sends one, ends the stream on the drop, and an
event follows it. -/
theorem no_gaps_dropped : ∃ b, ∃ st ∈ b.streams,
    (eventMachine anyNamespace 0).Reach Seamless b ∧ b.published.length = 261 ∧
    (postsOf runners st.delivered).map (fun p => p.event.id) = [1, 2, 3] ∧
    st.Gapless b.published runners := by
  have hrun : ((eventMachine anyNamespace 0).execWhile
      (fun b l => decide (b.Seamless l)) (.new (eventReplay 0))
      (.createPool runners :: emits 2 ++ [.subscribe none [runners], .handler 0 (.replay true),
        .handler 0 (.replay true)] ++ emits 258 ++ receives 1 ++ [.handler 0 .dropped] ++
        emits 1)).map (fun b => (b.published.length,
          b.streams.map fun st => (postsOf runners st.delivered).map (fun p => p.event.id))) =
      some (261, [[1, 2, 3]]) := by
    decide +kernel
  obtain ⟨b, hexec, hb⟩ := Option.map_eq_some_iff.mp hrun
  obtain ⟨hlength, hstreams⟩ := Prod.mk.inj hb
  obtain ⟨st, hst, hids⟩ := map_eq_singleton_iff.mp hstreams
  have hmem : st ∈ b.streams := hst ▸ mem_singleton_self st
  have hreach : (eventMachine anyNamespace 0).Reach Seamless b :=
    ⟨_, rfl, Machine.path_execWhile _ hexec⟩
  exact ⟨b, st, hmem, hreach, hlength, hids, (no_gaps anyNamespace 0 hreach).2 st hmem runners⟩

/-- A publication that finds the buffer full is lost, the handler receives one
event, and the next publication finds room. -/
theorem dropped_stream_skips : ∃ b, (eventMachine anyNamespace 0).Reach Machine.any b ∧
    ∃ st ∈ b.streams, (postsOf runners st.delivered).map (fun p => p.event.id) =
        List.range' 1 256 ++ [258] ∧ ¬ st.Gapless b.published runners := by
  have hrun : ((eventMachine anyNamespace 0).exec (.new (eventReplay 0))
      (.createPool runners :: .subscribe (some runners) [] ::
        (emits 257 ++ receives 1 ++ emits 1 ++ receives 256))).map (fun b =>
          (b.streams.map fun st => (postsOf runners st.delivered).map (fun p => p.event.id),
            (postsOf runners b.published).map (fun p => p.event.id))) =
      some ([range' 1 256 ++ [258]], range' 1 258) := by
    decide +kernel
  obtain ⟨b, hexec, hb⟩ := Option.map_eq_some_iff.mp hrun
  obtain ⟨hstreams, hpublished⟩ := Prod.mk.inj hb
  obtain ⟨st, hst, hids⟩ := map_eq_singleton_iff.mp hstreams
  refine ⟨b, ⟨_, rfl, Machine.path_of_exec hexec⟩, st, hst ▸ mem_singleton_self st, hids, ?_⟩
  intro hgapless
  have hrunOf := hgapless.contiguous.map fun p => p.event.id
  rw [hids, hpublished] at hrunOf
  exact absurd hrunOf (by decide +kernel)

/-- A Pool is deleted and created again: its events have the ids of its former
life, and both are replayed. -/
theorem recreated_pool_repeats : ∃ b, (eventMachine anyNamespace 0).Reach Machine.any b ∧
    ∃ st ∈ b.streams, (postsOf runners st.delivered).map (fun p => p.event.id) = [1, 1] ∧
      ¬ st.Gapless b.published runners := by
  obtain ⟨b, hexec, st, hst, hids⟩ : ∃ b, (eventMachine anyNamespace 0).exec
      (.new (eventReplay 0)) (.createPool runners :: emits 1 ++ [.deletePool runners,
        .createPool runners] ++ emits 1 ++ [.subscribe (some runners) [runners],
        .handler 0 (.replay true), .handler 0 (.replay true)]) = some b ∧
      ∃ st ∈ b.streams, (postsOf runners st.delivered).map (fun p => p.event.id) = [1, 1] :=
    ⟨_, rfl, _, mem_cons_self, rfl⟩
  refine ⟨b, ⟨_, rfl, Machine.path_of_exec hexec⟩, st, hst, hids, ?_⟩
  intro hgapless
  have hincreasing : ((postsOf runners st.delivered).map fun p => p.event.id).Pairwise (· < ·) :=
    pairwise_map.mpr hgapless.increasing
  rw [hids] at hincreasing
  exact absurd hincreasing (by decide)

/-- A stream can skip an event and send the next, and can send two lives of one
Pool. -/
theorem streams_gapped :
    (∃ b, (eventMachine anyNamespace 0).Reach Machine.any b ∧ ∃ st ∈ b.streams,
      (postsOf runners st.delivered).map (fun p => p.event.id) = List.range' 1 256 ++ [258] ∧
      ¬ st.Gapless b.published runners) ∧
    ∃ b, (eventMachine anyNamespace 0).Reach Machine.any b ∧ ∃ st ∈ b.streams,
      (postsOf runners st.delivered).map (fun p => p.event.id) = [1, 1] ∧
      ¬ st.Gapless b.published runners :=
  ⟨dropped_stream_skips, recreated_pool_repeats⟩

end EventBus

end FlintlockRunner.Poolmgr.Fake

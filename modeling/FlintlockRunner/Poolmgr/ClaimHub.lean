import FlintlockRunner.Base.Machine
import FlintlockRunner.Poolmgr.ClaimConvert
import FlintlockRunner.Poolmgr.Resubscribe

/-!
# The watch on the Pools as events (`poolmgr/claim/events.go`)

A Pool resource has counts and no MicroVMs. The hub names the available ones
itself: a Pool with `n` of them has the stand-ins 1 to `n`, and a count that
moves becomes the events that name and withdraw the stand-ins in between. A new
subscription is replayed the stand-ins there are.

`HubSys` is the hub beside a Tracker that reads one subscription after the other.
The hub publishes while it holds its lock, one event at a time, so the Tracker
may read in between; a stream that is a buffer behind is dropped and delivers
what it has before it ends. The resources and their order, the moments of
everything and what the Tracker's other callers do are labels.

- `hub_drives_tracker`: what the Tracker counts from one undisturbed subscription
  is what the resources say.

A count of the largest `int32` makes the loop over the stand-ins run for ever with
the hub's lock held; `endless` says that this has happened. Whether a Pool is
Ready, which `PoolsReady` reports, is left out, and so is an event's id and time.
-/

namespace FlintlockRunner.Poolmgr

open Function List Option

/-! ## The hub -/

/-- The count last reported of a Pool. -/
structure Reported where
  ref : PoolRef
  count : Int
  deriving DecidableEq

/-- `hub`: what was last said about each Pool, by the name of its resource. -/
structure Hub where
  available : AList fun _ : String => Reported
  closed : Bool

variable (ref : PoolRef)

/-- The uid that stands for the `i`th available MicroVM. -/
def standIn (i : Int) : String := ref.name ++ "/available-" ++ toString i

/-- The events of a count that rises from `n` to `m`. -/
def rises (n m : Int) : List Event :=
  (List.range (m - n).toNat).map fun k : Nat => ⟨ref, standIn ref (n + 1 + k), .vmAvailable⟩

/-- The events of a count that falls from `n` to `m`. -/
def falls (n m : Int) : List Event :=
  (List.range (n - m).toNat).map fun k : Nat => ⟨ref, standIn ref (n - k), .vmDeletedOnRelease⟩

/-- The count whose loop never ends. -/
def maxInt32 : Int := 2147483647

namespace Hub

variable (h : Hub) (name : String)

/-- `h.available[name]`, with the zero value for a Pool not seen. -/
def last : Reported := (h.available.lookup name).getD ⟨⟨"", ""⟩, 0⟩

/-- `moveLocked`, with the events it publishes. -/
def moveLocked (ref : PoolRef) (count : Int) : Hub × List Event :=
  let last := h.last name
  let withdrawn := if last.ref ≠ ref then falls last.ref last.count 0 else []
  let last := if last.ref ≠ ref then ⟨ref, 0⟩ else last
  ({ h with available := h.available.insert name ⟨ref, max count 0⟩ },
    withdrawn ++ rises ref last.count count ++ falls ref last.count count)

/-- The watch shows a Pool. -/
def observe (runnerNamespace : String) (pool : Resource.Pool) : Hub × List Event :=
  if h.closed then (h, [])
  else h.moveLocked pool.name (refOf pool runnerNamespace) pool.status.available

/-- The watch shows that a Pool is gone: its count goes to zero. -/
def gone : Hub × List Event :=
  match h.available.lookup name with
  | none => (h, [])
  | some last =>
    if h.closed then (h, [])
    else
      let (h, events) := h.moveLocked name last.ref 0
      ({ h with available := h.available.erase name }, events)

/-- The Pools that `resync` finds missing from a list. -/
def missing (seen : List String) : List String :=
  h.available.keys.filter fun name => name ∉ seen

/-- What `Subscribe` replays, with the Pools in the order the map gives them. -/
def replay (order : List String) : List Event :=
  order.flatMap fun name => rises (h.last name).ref 0 (h.last name).count

end Hub

/-! ## The hub beside a Tracker -/

/-- Where the goroutine that watches is: between two events of the watch, or in
`resync` with the Pools still to observe or with those still to end. -/
inductive WatchPc
  | idle
  | listing (todo : List Resource.Pool) (seen : List String)
  | ending (todo : List String)

/-- `stream`: what is buffered, and whether the hub still sends to it. -/
structure HubStream where
  queue : List Event
  subscribed : Bool
  deriving DecidableEq

/-- The hub, what its lock's holder has still to publish, the Tracker and its
stream. `known` is the PoolRef and the count that each known resource was last
observed with. -/
structure HubSys where
  hub : Hub
  watch : WatchPc
  sending : List Event
  endless : Bool
  stream : Option HubStream
  tracker : PoolTracker
  known : String → Option (PoolRef × Int)

/-- What can happen. `subscribe` and `collect` come with the order in which the
hub's map is read; the last five are what others do to the Tracker. -/
inductive HubLabel
  | observe (pool : Resource.Pool)
  | gone (name : String)
  | resync (pools : List Resource.Pool)
  | listed
  | collect (order : List String)
  | ended
  | publish
  | subscribe (order : List String)
  | recv
  | close
  | track (ref : PoolRef) (declared : Bool)
  | setDeclared (ref : PoolRef) (declared : Bool)
  | untrack (ref : PoolRef)
  | markExhausted (ref : PoolRef)
  | poll (ref : PoolRef) (asked : Nat) (size : Int) (status : PoolStatus)

namespace HubSys

variable (buffer : Nat) (ns : String) (s : HubSys)

/-- The hub's lock is free. -/
def free : Bool := s.sending.isEmpty && !s.endless

/-- One call of `observe`, up to its first event. -/
def observe (pool : Resource.Pool) : HubSys :=
  if s.hub.closed then s
  else if pool.status.available = maxInt32 then { s with endless := true }
  else
    { s with
      hub := (s.hub.observe ns pool).1
      sending := (s.hub.observe ns pool).2
      known := Function.update s.known pool.name
        (some (refOf pool ns, pool.status.available)) }

/-- One call of `gone`, up to its first event. -/
def gone (name : String) : HubSys :=
  if s.hub.closed then s
  else
    { s with
      hub := (s.hub.gone name).1
      sending := (s.hub.gone name).2
      known := Function.update s.known name none }

/-- `publishLocked`, to the Tracker's stream. -/
def publish (e : Event) : Option HubStream :=
  s.stream.map fun st =>
    if !st.subscribed then st
    else if st.queue.length < buffer then { st with queue := st.queue ++ [e] }
    else { st with subscribed := false }

/-- The Tracker between two subscriptions. -/
def unsubscribed : HubSys :=
  { s with stream := none, tracker := s.tracker.setStreamUp false }

/-- One step. -/
def next : HubLabel → Option HubSys
  | .observe pool =>
    match s.watch with
    | .idle => if s.free then some (s.observe ns pool) else none
    | _ => none
  | .gone name =>
    match s.watch with
    | .idle => if s.free then some (s.gone name) else none
    | _ => none
  | .resync pools =>
    match s.watch with
    | .idle => some { s with watch := .listing pools (pools.map (·.name)) }
    | _ => none
  | .listed =>
    match s.watch with
    | .listing (pool :: todo) seen =>
      if s.free then some { s.observe ns pool with watch := .listing todo seen } else none
    | _ => none
  | .collect order =>
    match s.watch with
    | .listing [] seen =>
      if s.free ∧ order.Perm (s.hub.missing seen) then some { s with watch := .ending order }
      else none
    | _ => none
  | .ended =>
    match s.watch with
    | .ending (name :: todo) =>
      if s.free then some { s.gone name with watch := .ending todo } else none
    | .ending [] => some { s with watch := .idle }
    | _ => none
  | .publish =>
    match s.sending with
    | e :: rest => some { s with stream := s.publish buffer e, sending := rest }
    | [] => none
  | .subscribe order =>
    if s.stream = none ∧ s.free ∧ s.hub.closed = false ∧ order.Perm s.hub.available.keys then
      some { s with
        stream := some ⟨(s.hub.replay order).take buffer, true⟩
        tracker := s.tracker.setStreamUp true }
    else none
  | .recv =>
    match s.stream with
    | some ⟨e :: queue, subscribed⟩ =>
      some { s with stream := some ⟨queue, subscribed⟩, tracker := (s.tracker.apply e).1 }
    | some ⟨[], false⟩ => some s.unsubscribed
    | _ => none
  | .close =>
    if s.free then
      some { s with
        hub := { s.hub with closed := true }
        stream := s.stream.map fun st => { st with subscribed := false } }
    else none
  | .track ref declared => some { s with tracker := (s.tracker.track ref declared).1 }
  | .setDeclared ref declared => some { s with tracker := s.tracker.setDeclared ref declared }
  | .untrack ref => some { s with tracker := s.tracker.untrack ref }
  | .markExhausted ref => some { s with tracker := s.tracker.markExhausted ref }
  | .poll ref asked size status =>
    some { s with tracker := (s.tracker.applyPoll ref asked size status).1 }

/-- Nothing has been watched, and the Tracker has counted nothing. -/
structure Blank : Prop where
  hub : s.hub.available = ∅ ∧ s.hub.closed = false
  idle : s.sending = [] ∧ s.endless = false
  stream : s.stream = none
  known : ∀ name, s.known name = none
  tracker : ∀ {ref p}, s.tracker.pools.lookup ref = some p →
    p.available = .empty ∧ p.exhausted = false

end HubSys

/-- The runs, with `buffer` events buffered for a subscription and the Runner
namespace `ns`. -/
def hubs (buffer : Nat) (ns : String) : Machine HubSys HubLabel where
  init s := s.Blank
  next s l := s.next buffer ns l

/-! ## Stand-ins -/

variable (ref : PoolRef)

/-- The stand-ins of a Pool with `n` available MicroVMs. -/
def standIns (n : Int) : Finset String :=
  (Finset.range n.toNat).image fun i : Nat => standIn ref (i + 1)

theorem standIn_injective : Function.Injective (standIn ref) := by
  intro i j h
  exact Strings.toString_int_injective ((String.append_right_inj _).mp h)

theorem standIn_ne_empty (i : Int) : standIn ref i ≠ "" := by
  unfold standIn
  intro h
  have hlen := congrArg String.length h
  rw [String.length_append, String.length_append] at hlen
  have hmid : "/available-".length = 11 := rfl
  have hzero : "".length = 0 := rfl
  omega

variable {order : List String} {ref : PoolRef} {e : Event} {n : Int}

theorem mem_standIns_iff {uid : String} :
    uid ∈ standIns ref n ↔ ∃ i : Int, (1 ≤ i ∧ i ≤ n) ∧ standIn ref i = uid := by
  unfold standIns
  rw [Finset.mem_image]
  constructor
  · rintro ⟨i, hi, huid⟩
    have hlt := Finset.mem_range.mp hi
    exact ⟨i + 1, by omega, huid⟩
  · rintro ⟨i, hi, huid⟩
    refine ⟨(i - 1).toNat, Finset.mem_range.mpr (by omega), ?_⟩
    rw [Int.toNat_of_nonneg (by omega), Int.sub_add_cancel]
    exact huid

theorem mem_standIns {n i : Int} : standIn ref i ∈ standIns ref n ↔ 1 ≤ i ∧ i ≤ n := by
  rw [mem_standIns_iff]
  constructor
  · rintro ⟨j, hj, heq⟩
    exact standIn_injective ref heq ▸ hj
  · exact fun hi => ⟨i, hi, rfl⟩

theorem card_standIns (ref : PoolRef) (n : Int) : ((standIns ref n).card : Int) = max n 0 := by
  have hinj : Injective fun i : Nat => standIn ref (i + 1) := by
    intro i j h
    have heq : (i : Int) + 1 = j + 1 := standIn_injective ref h
    omega
  unfold standIns
  rw [Finset.card_image_of_injective _ hinj, Finset.card_range]
  exact Int.toNat_eq_max n

theorem standIns_of_le (ref : PoolRef) (h : n ≤ 0) : standIns ref n = ∅ := by
  unfold standIns
  rw [Int.toNat_of_nonpos h, Finset.range_zero, Finset.image_empty]

theorem insert_standIns (h : 0 ≤ n) :
    insert (standIn ref (n + 1)) (standIns ref n) = standIns ref (n + 1) := by
  have hsucc : (n + 1).toNat = n.toNat + 1 := by omega
  unfold standIns
  rw [hsucc, Finset.range_add_one, Finset.image_insert, Int.toNat_of_nonneg h]

theorem erase_standIns (ref : PoolRef) (n : Int) :
    (standIns ref n).erase (standIn ref n) = standIns ref (n - 1) := by
  ext uid
  rw [Finset.mem_erase, mem_standIns_iff, mem_standIns_iff]
  constructor
  · rintro ⟨hne, i, hi, rfl⟩
    have hin : i ≠ n := fun h => hne (congrArg _ h)
    exact ⟨i, by omega, rfl⟩
  · rintro ⟨i, hi, rfl⟩
    have hin : i ≠ n := by omega
    exact ⟨fun h => hin (standIn_injective ref h), i, by omega, rfl⟩

theorem availableAfter_append (a : Finset String) (w w' : List Event) :
    availableAfter a (w ++ w') = availableAfter (availableAfter a w) w' := foldl_append

theorem availableAfter_union_rises (a : Finset String) (ref : PoolRef) (hn : 0 ≤ n) (m : Int) :
    availableAfter (a ∪ standIns ref n) (rises ref n m) = a ∪ standIns ref (max n m) := by
  have hmax : max n m = n + ((m - n).toNat : Int) := by omega
  rw [hmax]
  unfold rises
  generalize (m - n).toNat = k
  induction k with
  | zero => simp [availableAfter]
  | succ k ih =>
    rw [range_succ, map_append, availableAfter_append, ih]
    show EventType.moves .vmAvailable (standIn ref (n + 1 + k)) (a ∪ standIns ref (n + k)) = _
    unfold EventType.moves
    rw [if_neg (standIn_ne_empty _ _), if_pos rfl, ← Finset.union_insert,
      show n + 1 + (k : Int) = n + k + 1 by omega, insert_standIns (by omega)]
    congr 2
    omega

theorem availableAfter_rises (ref : PoolRef) (hn : 0 ≤ n) (m : Int) :
    availableAfter (standIns ref n) (rises ref n m) = standIns ref (max n m) := by
  have hunion := availableAfter_union_rises ∅ ref hn m
  rwa [Finset.empty_union, Finset.empty_union] at hunion

theorem availableAfter_falls (ref : PoolRef) (n m : Int) :
    availableAfter (standIns ref n) (falls ref n m) = standIns ref (min n m) := by
  have hmin : min n m = n - ((n - m).toNat : Int) := by omega
  rw [hmin]
  unfold falls
  generalize (n - m).toNat = k
  induction k with
  | zero => simp [availableAfter]
  | succ k ih =>
    rw [range_succ, map_append, availableAfter_append, ih]
    show EventType.moves .vmDeletedOnRelease (standIn ref (n - k)) (standIns ref (n - k)) = _
    unfold EventType.moves
    rw [if_neg (standIn_ne_empty _ _), if_neg nofun,
      if_pos (show EventType.takesAway .vmDeletedOnRelease = true from rfl), erase_standIns]
    congr 1
    omega

theorem ofPool_self {w : List Event} (h : ∀ e ∈ w, e.pool = ref) : ofPool ref w = w := by
  unfold ofPool
  rw [filter_eq_self]
  exact fun e he => decide_eq_true (h e he)

theorem ofPool_other {ref ref' : PoolRef} {w : List Event} (h : ∀ e ∈ w, e.pool = ref)
    (hne : ref ≠ ref') : ofPool ref' w = [] := by
  unfold ofPool
  rw [filter_eq_nil_iff]
  intro e he
  rw [h e he, decide_eq_true_eq]
  exact hne

theorem rises_pool {n m : Int} : ∀ e ∈ rises ref n m, e.pool = ref := by
  intro e he
  obtain ⟨k, -, rfl⟩ := List.mem_map.mp he
  rfl

theorem falls_pool {n m : Int} : ∀ e ∈ falls ref n m, e.pool = ref := by
  intro e he
  obtain ⟨k, -, rfl⟩ := List.mem_map.mp he
  rfl

/-- The events that take a count from `n` to `m` move the stand-ins along. -/
theorem availableAfter_moves (ref : PoolRef) (hn : 0 ≤ n) (m : Int) :
    availableAfter (standIns ref n) (rises ref n m ++ falls ref n m) = standIns ref m := by
  rw [availableAfter_append, availableAfter_rises ref hn]
  rcases le_total n m with hle | hle
  · have hempty : falls ref n m = [] := by
      unfold falls
      rw [show (n - m).toNat = 0 by omega]
      rfl
    rw [hempty, max_eq_right hle]
    rfl
  · rw [max_eq_left hle, availableAfter_falls, min_eq_right hle]

theorem standIns_max (ref : PoolRef) (n : Int) : standIns ref (max n 0) = standIns ref n := by
  rcases le_total 0 n with hle | hle
  · rw [max_eq_left hle]
  · rw [max_eq_right hle, standIns_of_le ref hle, standIns_of_le ref le_rfl]

/-! ## What the hub has said -/

/-- The count of a PoolRef: what its resource was last observed with, and nothing
for a PoolRef that no known resource carries. -/
def countOf (known : String → Option (PoolRef × Int)) (ref : PoolRef) : Int :=
  match known ref.name with
  | some (ref', count) => if ref' = ref then max count 0 else 0
  | none => 0

/-- The hub has said of each known resource what it was observed with. -/
structure Hub.Agrees (h : Hub) (known : String → Option (PoolRef × Int)) : Prop where
  said : ∀ name, h.available.lookup name = (known name).map fun x => ⟨x.1, max x.2 0⟩
  named : ∀ name x, known name = some x → x.1.name = name

variable {h : Hub} {known : String → Option (PoolRef × Int)} {name : String} {ref : PoolRef}

namespace Hub.Agrees

variable (hA : h.Agrees known)
include hA

/-- What `moveLocked` starts from: nothing, or what was said of the resource's own
PoolRef. -/
theorem last_cases (name : String) :
    (h.last name).count = 0 ∨ (h.last name).ref.name = name := by
  unfold Hub.last
  rw [hA.said name]
  cases hk : known name with
  | none => exact .inl rfl
  | some x => exact .inr (hA.named name x hk)

theorem last_nonneg (name : String) : 0 ≤ (h.last name).count := by
  unfold Hub.last
  rw [hA.said name]
  cases known name with
  | none => exact le_rfl
  | some x => exact le_max_right _ _

theorem countOf_eq (ref : PoolRef) :
    countOf known ref = if (h.last ref.name).ref = ref then (h.last ref.name).count else 0 := by
  unfold countOf Hub.last
  rw [hA.said ref.name]
  cases known ref.name with
  | none => exact (ite_self 0).symm
  | some x => rfl

theorem insert (count : Int) (hname : ref.name = name) :
    ({ h with available := h.available.insert name ⟨ref, max count 0⟩ } : Hub).Agrees
      (Function.update known name (some (ref, count))) where
  said name' := by
    by_cases heq : name' = name
    · subst heq
      rw [AList.lookup_insert, update_self]
      rfl
    · rw [AList.lookup_insert_ne heq, update_of_ne heq]
      exact hA.said name'
  named name' x hx := by
    by_cases heq : name' = name
    · subst heq
      rw [update_self] at hx
      cases hx
      exact hname
    · rw [update_of_ne heq] at hx
      exact hA.named name' x hx

theorem erase (name : String) :
    ({ h with available := h.available.erase name } : Hub).Agrees
      (Function.update known name none) where
  said name' := by
    by_cases heq : name' = name
    · subst heq
      rw [AList.lookup_erase, update_self]
      rfl
    · rw [AList.lookup_erase_ne heq, update_of_ne heq]
      exact hA.said name'
  named name' x hx := by
    by_cases heq : name' = name
    · subst heq
      rw [update_self] at hx
      cases hx
    · rw [update_of_ne heq] at hx
      exact hA.named name' x hx

end Hub.Agrees

theorem countOf_update_other {x : Option (PoolRef × Int)} (hne : ref.name ≠ name) :
    countOf (Function.update known name x) ref = countOf known ref := by
  unfold countOf
  rw [update_of_ne hne]

theorem countOf_update_self {ref' : PoolRef} {count : Int} (hname : ref.name = name) :
    countOf (Function.update known name (some (ref', count))) ref
      = if ref' = ref then max count 0 else 0 := by
  unfold countOf
  rw [hname, update_self]

theorem countOf_update_none (hname : ref.name = name) :
    countOf (Function.update known name none) ref = 0 := by
  unfold countOf
  rw [hname, update_self]

/-- What a Pool gets to hear of a count that moves under another PoolRef, and under
its own. -/
theorem ofPool_moves {ref ref' : PoolRef} {n m : Int} :
    ofPool ref (rises ref' n m ++ falls ref' n m)
      = if ref' = ref then rises ref n m ++ falls ref n m else [] := by
  rw [ofPool_append]
  split
  · rename_i heq
    subst heq
    rw [ofPool_self rises_pool, ofPool_self falls_pool]
  · rename_i hne
    rw [ofPool_other rises_pool hne, ofPool_other falls_pool hne]
    rfl

/-- **`moveLocked` moves the stand-ins of every PoolRef along**: those of the
resource's new PoolRef to its count, those of the old one away. -/
theorem Hub.Agrees.moveLocked (hA : h.Agrees known) {ref' : PoolRef} {m : Int}
    (hname : ref'.name = name) (ref : PoolRef) :
    availableAfter (standIns ref (countOf known ref)) (ofPool ref (h.moveLocked name ref' m).2)
      = standIns ref (countOf (Function.update known name (some (ref', m))) ref) := by
  have hnn := hA.last_nonneg name
  unfold Hub.moveLocked
  dsimp only
  rw [append_assoc, ofPool_append, ofPool_moves, availableAfter_append]
  by_cases hself : ref.name = name
  · rw [countOf_update_self hself, hA.countOf_eq, hself]
    by_cases hmoved : (h.last name).ref = ref'
    · -- the resource stays under its PoolRef
      rw [if_neg (not_not.mpr hmoved), if_neg (not_not.mpr hmoved), hmoved]
      by_cases heq : ref' = ref
      · subst heq
        simp only [if_true, standIns_max]
        exact availableAfter_moves ref' hnn m
      · simp only [if_neg heq]
        rfl
    · rw [if_pos hmoved, if_pos hmoved]
      by_cases heq : ref' = ref
      · -- the new PoolRef starts from nothing
        subst heq
        rw [if_neg hmoved, ofPool_other falls_pool hmoved, if_pos rfl, if_pos rfl, standIns_max]
        exact availableAfter_moves ref' le_rfl m
      · rw [if_neg heq, if_neg heq]
        by_cases hold : (h.last name).ref = ref
        · -- the old one is withdrawn
          rw [hold, if_pos rfl, ofPool_self falls_pool, availableAfter_falls, min_eq_right hnn]
          rfl
        · rw [if_neg hold, ofPool_other falls_pool hold]
          rfl
  · -- another resource's PoolRef hears nothing
    have hne : ref' ≠ ref := by
      rintro rfl
      exact hself hname
    have hquiet : ofPool ref (if (h.last name).ref ≠ ref' then
        falls (h.last name).ref (h.last name).count 0 else []) = [] := by
      split
      · rcases hA.last_cases name with hzero | hlast
        · rw [hzero]
          rfl
        · refine ofPool_other falls_pool ?_
          rintro rfl
          exact hself hlast
      · rfl
    rw [countOf_update_other hself, hquiet, if_neg hne]
    rfl

/-! ## What one step can do -/

/-- The two kinds of events the hub publishes. -/
def Event.standsIn (e : Event) : Bool := e.type = .vmAvailable || e.type = .vmDeletedOnRelease

theorem rises_standsIn {n m : Int} : ∀ e ∈ rises ref n m, e.standsIn = true := by
  intro e he
  obtain ⟨k, -, rfl⟩ := List.mem_map.mp he
  rfl

theorem falls_standsIn {n m : Int} : ∀ e ∈ falls ref n m, e.standsIn = true := by
  intro e he
  obtain ⟨k, -, rfl⟩ := List.mem_map.mp he
  rfl

theorem moveLocked_standsIn {m : Int} : ∀ e ∈ (h.moveLocked name ref m).2, e.standsIn = true := by
  intro e he
  rcases mem_append.mp he with he | he
  · rcases mem_append.mp he with he | he
    · split at he
      · exact falls_standsIn e he
      · cases he
    · exact rises_standsIn e he
  · exact falls_standsIn e he

theorem replay_standsIn : ∀ e ∈ h.replay order, e.standsIn = true := by
  intro e he
  obtain ⟨name, -, he⟩ := mem_flatMap.mp he
  exact rises_standsIn e he

theorem TrackedPool.AllNamed.standIn {p : TrackedPool} (hp : p.AllNamed) (he : e.standsIn = true) :
    (p.apply e.vmUID e.type).1.AllNamed := by
  refine hp.apply e.vmUID e.type fun counts htype => ?_
  rw [Event.standsIn, htype] at he
  cases he

namespace HubSys

variable {buffer : Nat} {ns : String} {s s' : HubSys} {l : HubLabel}

/-- What a section of the hub does: it takes the stand-ins of every PoolRef to the
count that is now known, and nothing to the Tracker. -/
structure Section (s s' : HubSys) : Prop where
  stream : s'.stream = s.stream
  tracker : s'.tracker = s.tracker
  agrees : s'.hub.Agrees s'.known
  moves : ∀ ref, availableAfter (standIns ref (countOf s.known ref)) (ofPool ref s'.sending)
    = standIns ref (countOf s'.known ref)
  standsIn : ∀ e ∈ s'.sending, e.standsIn = true

theorem Section.idle (hA : s.hub.Agrees s.known) (hidle : s.sending = []) (w : WatchPc)
    (endless : Bool) : Section s { s with watch := w, endless := endless } where
  stream := rfl
  tracker := rfl
  agrees := hA
  moves ref := by
    dsimp only
    rw [hidle]
    rfl
  standsIn e he := by
    dsimp only at he
    rw [hidle] at he
    cases he

theorem Section.watch (hsec : Section s s') (w : WatchPc) : Section s { s' with watch := w } :=
  ⟨hsec.stream, hsec.tracker, hsec.agrees, hsec.moves, hsec.standsIn⟩

theorem section_observe (hA : s.hub.Agrees s.known) (hidle : s.sending = [])
    (pool : Resource.Pool) : Section s (s.observe ns pool) := by
  unfold HubSys.observe
  split
  · exact .idle hA hidle s.watch s.endless
  · rename_i hopen
    split
    · exact .idle hA hidle s.watch true
    · have hout : s.hub.observe ns pool
          = s.hub.moveLocked pool.name (refOf pool ns) pool.status.available := if_neg hopen
      rw [hout]
      exact ⟨rfl, rfl, hA.insert _ rfl, hA.moveLocked rfl, moveLocked_standsIn⟩

theorem section_gone (hA : s.hub.Agrees s.known) (hidle : s.sending = []) (name : String) :
    Section s (s.gone name) := by
  unfold HubSys.gone
  split
  · exact .idle hA hidle s.watch s.endless
  · rename_i hopen
    have hsaid := hA.said name
    cases hk : s.known name with
    | none =>
      -- nothing was said of the resource, and nothing is
      rw [hk] at hsaid
      have hout : s.hub.gone name = (s.hub, []) := by
        unfold Hub.gone
        rw [hsaid]
        rfl
      have hsame : update s.known name none = s.known := by
        rw [← hk, update_eq_self]
      rw [hout, hsame]
      exact ⟨rfl, rfl, hA, fun _ => rfl, nofun⟩
    | some x =>
      rw [hk] at hsaid
      have hout : s.hub.gone name
          = ({ s.hub with available := (s.hub.available.insert name ⟨x.1, 0⟩).erase name },
            (s.hub.moveLocked name x.1 0).2) := by
        unfold Hub.gone
        rw [hsaid]
        exact if_neg hopen
      rw [hout]
      refine ⟨rfl, rfl, ?_, fun ref => ?_, moveLocked_standsIn⟩
      · have hins := (hA.insert 0 (hA.named name x hk)).erase name
        rw [update_idem] at hins
        exact hins
      · refine (hA.moveLocked (hA.named name x hk) ref).trans ?_
        by_cases hself : ref.name = name
        · rw [countOf_update_self hself, countOf_update_none hself, max_self, ite_self]
        · rw [countOf_update_other hself, countOf_update_other hself]

variable (buffer : Nat) (s : HubSys) in
/-- Everything a step can do. -/
inductive Stepped : HubLabel → HubSys → Prop
  | watched {l : HubLabel} {w : WatchPc} : Stepped l { s with watch := w }
  | moved {l : HubLabel} {s' : HubSys} : s.sending = [] → Section s s' → Stepped l s'
  | published {e : Event} {rest : List Event} : s.sending = e :: rest →
      Stepped .publish { s with stream := s.publish buffer e, sending := rest }
  | subscribed {order : List String} : s.stream = none → s.sending = [] →
      order.Perm s.hub.available.keys →
      Stepped (.subscribe order)
        { s with
          stream := some ⟨(s.hub.replay order).take buffer, true⟩
          tracker := s.tracker.setStreamUp true }
  | received {e : Event} {queue : List Event} {subscribed : Bool} :
      s.stream = some ⟨e :: queue, subscribed⟩ →
      Stepped .recv
        { s with stream := some ⟨queue, subscribed⟩, tracker := (s.tracker.apply e).1 }
  | unsubscribed : s.stream = some ⟨[], false⟩ → Stepped .recv s.unsubscribed
  | closed : Stepped .close
      { s with
        hub := { s.hub with closed := true }
        stream := s.stream.map fun st => { st with subscribed := false } }
  | tracked {ref : PoolRef} {declared : Bool} : Stepped (.track ref declared)
      { s with tracker := (s.tracker.track ref declared).1 }
  | setDeclared {ref : PoolRef} {declared : Bool} : Stepped (.setDeclared ref declared)
      { s with tracker := s.tracker.setDeclared ref declared }
  | untracked {ref : PoolRef} : Stepped (.untrack ref)
      { s with tracker := s.tracker.untrack ref }
  | exhausted {ref : PoolRef} : Stepped (.markExhausted ref)
      { s with tracker := s.tracker.markExhausted ref }
  | polled {ref : PoolRef} {asked : Nat} {size : Int} {status : PoolStatus} :
      Stepped (.poll ref asked size status)
        { s with tracker := (s.tracker.applyPoll ref asked size status).1 }

theorem sending_of_free (h : s.free = true) : s.sending = [] :=
  List.isEmpty_iff.mp (Bool.and_eq_true_iff.mp h).1

theorem stepped (hA : s.hub.Agrees s.known) (h : s.next buffer ns l = some s') :
    Stepped buffer s l s' := by
  cases l with
  | observe pool =>
    dsimp only [next] at h
    split at h
    · split at h
      · rename_i hfree
        obtain rfl := some.inj h
        exact .moved (sending_of_free hfree) (section_observe hA (sending_of_free hfree) pool)
      · cases h
    · cases h
  | gone name =>
    dsimp only [next] at h
    split at h
    · split at h
      · rename_i hfree
        obtain rfl := some.inj h
        exact .moved (sending_of_free hfree) (section_gone hA (sending_of_free hfree) name)
      · cases h
    · cases h
  | resync pools =>
    dsimp only [next] at h
    split at h
    · obtain rfl := some.inj h
      exact .watched
    · cases h
  | listed =>
    dsimp only [next] at h
    split at h
    · rename_i pool todo seen _
      split at h
      · rename_i hfree
        obtain rfl := some.inj h
        exact .moved (sending_of_free hfree)
          ((section_observe hA (sending_of_free hfree) pool).watch _)
      · cases h
    · cases h
  | collect order =>
    dsimp only [next] at h
    split at h
    · split at h
      · obtain rfl := some.inj h
        exact .watched
      · cases h
    · cases h
  | ended =>
    dsimp only [next] at h
    split at h
    · rename_i name todo _
      split at h
      · rename_i hfree
        obtain rfl := some.inj h
        exact .moved (sending_of_free hfree)
          ((section_gone hA (sending_of_free hfree) name).watch _)
      · cases h
    · obtain rfl := some.inj h
      exact .watched
    · cases h
  | publish =>
    dsimp only [next] at h
    split at h
    · rename_i e rest hsending
      obtain rfl := some.inj h
      exact .published hsending
    · cases h
  | subscribe order =>
    dsimp only [next] at h
    split at h
    · rename_i hguard
      obtain rfl := some.inj h
      exact .subscribed hguard.1 (sending_of_free hguard.2.1) hguard.2.2.2
    · cases h
  | recv =>
    dsimp only [next] at h
    split at h
    · rename_i hstream
      obtain rfl := some.inj h
      exact .received hstream
    · rename_i hstream
      obtain rfl := some.inj h
      exact .unsubscribed hstream
    · cases h
  | close =>
    dsimp only [next] at h
    split at h
    · obtain rfl := some.inj h
      exact .closed
    · cases h
  | track ref declared =>
    obtain rfl := some.inj h
    exact .tracked
  | setDeclared ref declared =>
    obtain rfl := some.inj h
    exact .setDeclared
  | untrack ref =>
    obtain rfl := some.inj h
    exact .untracked
  | markExhausted ref =>
    obtain rfl := some.inj h
    exact .exhausted
  | poll ref asked size status =>
    obtain rfl := some.inj h
    exact .polled

theorem agrees_next (hA : s.hub.Agrees s.known) (h : s.next buffer ns l = some s') :
    s'.hub.Agrees s'.known := by
  cases stepped hA h with
  | moved _ hsec => exact hsec.agrees
  | closed => exact ⟨hA.said, hA.named⟩
  | _ => exact hA

theorem agrees_init (hb : s.Blank) : s.hub.Agrees s.known where
  said name := by
    rw [hb.known name, hb.hub.1]
    rfl
  named name x hx := by
    rw [hb.known name] at hx
    cases hx

/-- The events of a Pool that the Tracker has still to read. -/
def pending (s : HubSys) (ref : PoolRef) : List Event :=
  ofPool ref ((s.stream.elim [] HubStream.queue) ++ s.sending)

theorem Section.pending (hsec : Section s s') (hidle : s.sending = []) (ref : PoolRef) :
    s'.pending ref = s.pending ref ++ ofPool ref s'.sending := by
  unfold HubSys.pending
  rw [hsec.stream, hidle, append_nil, ofPool_append]

theorem publish_none (hstream : s.stream = none) (e : Event) : s.publish buffer e = none := by
  unfold HubSys.publish
  rw [hstream]
  rfl

variable {queue : List Event}

theorem publish_room (hstream : s.stream = some ⟨queue, true⟩) (hroom : queue.length < buffer)
    (e : Event) : s.publish buffer e = some ⟨queue ++ [e], true⟩ := by
  unfold HubSys.publish
  rw [hstream]
  exact congrArg some (if_pos hroom)

theorem pending_publish {rest queue : List Event} (hsending : s.sending = e :: rest)
    (hstream : s.stream = some ⟨queue, true⟩) (hroom : queue.length < buffer) (ref : PoolRef) :
    ({ s with stream := s.publish buffer e, sending := rest } : HubSys).pending ref
      = s.pending ref := by
  unfold HubSys.pending
  dsimp only
  rw [publish_room hstream hroom, hstream, hsending]
  exact congrArg (ofPool ref) (append_assoc ..)

theorem lookup_received {p' : TrackedPool} (hp' : (s.tracker.apply e).1.pools.lookup ref = some p')
    :
    ∃ p, s.tracker.pools.lookup ref = some p ∧
      p' = if e.pool = ref then
        (p.apply e.vmUID e.type).1.woke s.tracker.made (p.apply e.vmUID e.type).2 else p := by
  rw [PoolTracker.lookup_apply] at hp'
  by_cases heq : e.pool = ref
  · rw [if_pos heq.symm] at hp'
    obtain ⟨p, hp, rfl⟩ := map_eq_some_iff.mp hp'
    exact ⟨p, heq ▸ hp, by rw [if_pos heq]⟩
  · rw [if_neg (Ne.symm heq)] at hp'
    exact ⟨p', hp', by rw [if_neg heq]⟩

theorem after_received {subscribed : Bool} {p p' : TrackedPool}
    (hstream : s.stream = some ⟨e :: queue, subscribed⟩) (hp' : p' = if e.pool = ref then
      (p.apply e.vmUID e.type).1.woke s.tracker.made (p.apply e.vmUID e.type).2 else p) :
    availableAfter p'.available.named
        (({ s with stream := some ⟨queue, subscribed⟩, tracker := (s.tracker.apply e).1 } :
          HubSys).pending ref)
      = availableAfter p.available.named (s.pending ref) := by
  unfold HubSys.pending
  rw [hstream]
  show _ = availableAfter _ (ofPool ref (e :: (queue ++ s.sending)))
  rw [ofPool_cons, hp']
  by_cases heq : e.pool = ref
  · rw [if_pos heq, if_pos heq, TrackedPool.woke_available, TrackedPool.apply_named]
    rfl
  · rw [if_neg heq, if_neg heq]
    rfl

/-! ## The replay -/

theorem rises_last (hA : h.Agrees known) (ref : PoolRef) (name : String) :
    ofPool ref (rises (h.last name).ref 0 (h.last name).count)
      = if name = ref.name then rises ref 0 (countOf known ref) else [] := by
  by_cases hname : name = ref.name
  · subst hname
    rw [if_pos rfl, hA.countOf_eq]
    by_cases heq : (h.last ref.name).ref = ref
    · rw [if_pos heq, heq, ofPool_self rises_pool]
    · rw [if_neg heq, ofPool_other rises_pool heq]
      rfl
  · rw [if_neg hname]
    rcases hA.last_cases name with hzero | hlast
    · rw [hzero]
      rfl
    · refine ofPool_other rises_pool ?_
      rintro rfl
      exact hname hlast.symm

theorem ofPool_replay (hA : h.Agrees known) (ref : PoolRef) (hnodup : order.Nodup) :
    ofPool ref (h.replay order)
      = if ref.name ∈ order then rises ref 0 (countOf known ref) else [] := by
  unfold Hub.replay
  induction order with
  | nil => rfl
  | cons name order ih =>
    obtain ⟨hnew, hnodup⟩ := nodup_cons.mp hnodup
    rw [flatMap_cons, ofPool_append, rises_last hA, ih hnodup]
    by_cases hname : name = ref.name
    · subst hname
      rw [if_pos rfl, if_neg hnew, if_pos mem_cons_self, append_nil]
    · rw [if_neg hname, nil_append]
      congr 1
      rw [mem_cons, eq_iff_iff]
      exact ⟨.inr, fun h => h.resolve_left (Ne.symm hname)⟩

/-- A new subscription is replayed the stand-ins of every Pool. -/
theorem ofPool_replay_perm (hA : h.Agrees known) (ref : PoolRef)
    (hperm : order.Perm h.available.keys) :
    ofPool ref (h.replay order) = rises ref 0 (countOf known ref) := by
  rw [ofPool_replay hA ref (hperm.nodup_iff.mpr h.available.nodupKeys)]
  split
  · rfl
  · rename_i hnot
    -- an unknown resource counts nothing
    have hnone : h.available.lookup ref.name = none := by
      rw [AList.lookup_eq_none, AList.mem_keys]
      exact fun hmem => hnot (hperm.mem_iff.mpr hmem)
    rw [hA.countOf_eq]
    unfold Hub.last
    rw [hnone]
    exact (congrArg (rises ref 0) (ite_self 0)).symm

theorem countOf_nonneg (known : String → Option (PoolRef × Int)) (ref : PoolRef) :
    0 ≤ countOf known ref := by
  unfold countOf
  split
  · split
    · exact le_max_right _ _
    · exact le_rfl
  · exact le_rfl

/-- Applied from nothing, it names them all. -/
theorem availableAfter_replay (hA : h.Agrees known) (ref : PoolRef)
    (hperm : order.Perm h.available.keys) :
    availableAfter ∅ (ofPool ref (h.replay order)) = standIns ref (countOf known ref) := by
  rw [ofPool_replay_perm hA ref hperm, ← standIns_of_le ref (le_refl 0),
    availableAfter_rises ref le_rfl, max_eq_right (countOf_nonneg known ref)]

/-! ## An undisturbed subscription -/

/-- The condition on one step: the one subscription is never a buffer behind, and
nobody else changes the Tracker. -/
def Undisturbed (buffer : Nat) (s : HubSys) : HubLabel → Prop
  | .publish => ∀ st ∈ s.stream, st.queue.length < buffer
  | .subscribe order => (s.hub.replay order).length ≤ buffer
  | .close | .track _ _ | .setDeclared _ _ | .untrack _ | .markExhausted _ | .poll _ _ _ _ =>
    False
  | _ => True

instance (buffer : Nat) (s : HubSys) : DecidablePred (s.Undisturbed buffer) := fun l => by
  unfold Undisturbed
  split <;> infer_instance

/-- What ties the Tracker to the hub: before the subscription it has counted
nothing, and from then on its names and the events it has still to read come to
the stand-ins of the count. -/
structure Driven (s : HubSys) : Prop where
  agrees : s.hub.Agrees s.known
  subscribed : ∀ st ∈ s.stream, st.subscribed = true
  standsIn : ∀ e ∈ s.stream.elim [] HubStream.queue ++ s.sending, e.standsIn = true
  allNamed : ∀ {ref p}, s.tracker.pools.lookup ref = some p → p.AllNamed
  before : s.stream = none → ∀ {ref p}, s.tracker.pools.lookup ref = some p →
    p.available.named = ∅
  follows : s.stream ≠ none → ∀ {ref p}, s.tracker.pools.lookup ref = some p →
    availableAfter p.available.named (s.pending ref) = standIns ref (countOf s.known ref)

theorem driven_init (hb : s.Blank) : s.Driven where
  agrees := agrees_init hb
  subscribed st hst := by
    rw [hb.stream] at hst
    cases hst
  standsIn e he := by
    rw [hb.stream, hb.idle.1] at he
    cases he
  allNamed hp := by
    obtain ⟨hempty, hex⟩ := hb.tracker hp
    exact ⟨hex, congrArg UidCount.unnamed hempty⟩
  before _ _ _ hp := congrArg UidCount.named (hb.tracker hp).1
  follows hne := absurd hb.stream hne

theorem Driven.moved (hD : s.Driven) (hidle : s.sending = []) (hsec : Section s s') :
    s'.Driven where
  agrees := hsec.agrees
  subscribed st hst := hD.subscribed st (hsec.stream ▸ hst)
  standsIn e he := by
    rcases mem_append.mp he with he | he
    · rw [hsec.stream] at he
      exact hD.standsIn e (mem_append_left _ he)
    · exact hsec.standsIn e he
  allNamed hp := hD.allNamed (hsec.tracker ▸ hp)
  before hnone _ _ hp := hD.before (hsec.stream ▸ hnone) (hsec.tracker ▸ hp)
  follows hne ref p hp := by
    rw [hsec.pending hidle, availableAfter_append,
      hD.follows (hsec.stream ▸ hne) (hsec.tracker ▸ hp), hsec.moves]

theorem Driven.published (hD : s.Driven) {rest : List Event} (hsending : s.sending = e :: rest)
    (hok : ∀ st ∈ s.stream, st.queue.length < buffer) :
    ({ s with stream := s.publish buffer e, sending := rest } : HubSys).Driven := by
  have hstands := hD.standsIn
  rw [hsending] at hstands
  cases hstream : s.stream with
  | none =>
    rw [publish_none hstream]
    exact ⟨hD.agrees, nofun, fun e' he => hstands e' (mem_append_right _
      (mem_cons_of_mem _ he)), hD.allNamed, fun _ => hD.before hstream,
      fun hne => absurd rfl hne⟩
  | some st =>
    obtain ⟨queue, subscribed⟩ := st
    obtain rfl : subscribed = true := hD.subscribed _ hstream
    have hroom : queue.length < buffer := hok _ hstream
    have hpending := pending_publish hsending hstream hroom
    rw [hstream] at hstands
    rw [publish_room hstream hroom] at hpending ⊢
    refine ⟨hD.agrees, ?_, fun e' he => hstands e' ?_, hD.allNamed, nofun, fun _ ref p hp => ?_⟩
    · rintro _ ⟨⟩
      rfl
    · have he' : e' ∈ queue ++ [e] ++ rest := he
      rwa [append_assoc] at he'
    · rw [hpending]
      exact hD.follows (hstream ▸ nofun) hp

theorem Driven.subscribe (hD : s.Driven) (hnone : s.stream = none) (hidle : s.sending = [])
    (hperm : order.Perm s.hub.available.keys) (hfits : (s.hub.replay order).length ≤ buffer) :
    ({ s with
      stream := some ⟨(s.hub.replay order).take buffer, true⟩
      tracker := s.tracker.setStreamUp true } : HubSys).Driven := by
  rw [take_of_length_le hfits]
  refine ⟨hD.agrees, ?_, fun e he => ?_, hD.allNamed, nofun, fun _ ref p hp => ?_⟩
  · rintro _ ⟨⟩
    rfl
  · dsimp only at he
    rw [hidle, append_nil] at he
    exact replay_standsIn e he
  · rw [hD.before hnone hp]
    unfold HubSys.pending
    dsimp only
    rw [hidle, append_nil]
    exact availableAfter_replay hD.agrees ref hperm

theorem Driven.received (hD : s.Driven) {subscribed : Bool}
    (hstream : s.stream = some ⟨e :: queue, subscribed⟩) :
    ({ s with stream := some ⟨queue, subscribed⟩, tracker := (s.tracker.apply e).1 } :
      HubSys).Driven := by
  have hstands := hD.standsIn
  rw [hstream] at hstands
  refine ⟨hD.agrees, ?_, fun e' he => hstands e' (mem_cons_of_mem _ he), fun hp' => ?_,
    nofun, fun _ ref p' hp' => ?_⟩
  · rintro _ ⟨⟩
    exact hD.subscribed ⟨e :: queue, subscribed⟩ hstream
  · obtain ⟨p, hp, rfl⟩ := lookup_received hp'
    split
    · exact ((hD.allNamed hp).standIn (hstands e mem_cons_self)).woke _ _
    · exact hD.allNamed hp
  · obtain ⟨p, hp, heq⟩ := lookup_received hp'
    rw [after_received hstream heq]
    exact hD.follows (hstream ▸ nofun) hp

/-- One step keeps the Tracker, with what it has still to read, at the hub's count. -/
theorem driven_next (hD : s.Driven) (hok : s.Undisturbed buffer l)
    (h : s.next buffer ns l = some s') : s'.Driven := by
  cases stepped hD.agrees h with
  | watched => exact ⟨hD.agrees, hD.subscribed, hD.standsIn, hD.allNamed, hD.before, hD.follows⟩
  | moved hidle hsec => exact hD.moved hidle hsec
  | published hsending => exact hD.published hsending hok
  | subscribed hnone hidle hperm => exact hD.subscribe hnone hidle hperm hok
  | received hstream => exact hD.received hstream
  | unsubscribed hstream => exact absurd (hD.subscribed _ hstream) nofun
  | closed => exact hok.elim
  | tracked => exact hok.elim
  | setDeclared => exact hok.elim
  | untracked => exact hok.elim
  | exhausted => exact hok.elim
  | polled => exact hok.elim

theorem driven_reach (hs : (hubs buffer ns).Reach (Undisturbed buffer) s) : s.Driven :=
  hs.inv (fun _ => driven_init) fun _ _ _ hD hok h => driven_next hD hok h

/-- **The hub drives the Tracker to the watched count.** Whatever the watch saw,
and whenever the Tracker subscribed, once it has read everything that was
published it counts for each declared Pool what the resource was last observed
with, and nothing for a Pool that no known resource is. -/
theorem hub_drives_tracker (hs : (hubs buffer ns).Reach (Undisturbed buffer) s)
    (hread : s.stream.map HubStream.queue = some []) (hfree : s.free = true)
    {p : TrackedPool} (hp : s.tracker.pools.lookup ref = some p) (hdecl : p.declared = true) :
    (∀ name count, s.known name = some (ref, count) →
      s.tracker.available ref true = max count 0) ∧
    ((∀ name count, s.known name ≠ some (ref, count)) → s.tracker.available ref true = 0) := by
  have hD := driven_reach hs
  have hcount : s.tracker.available ref true = countOf s.known ref := by
    obtain ⟨st, hst, hqueue⟩ := map_eq_some_iff.mp hread
    have hfollows := hD.follows (hst ▸ nofun) hp
    have hpending : s.pending ref = [] := by
      unfold pending
      rw [hst, sending_of_free hfree, elim_some, hqueue]
      rfl
    rw [hpending] at hfollows
    have hnamed : p.available.named = standIns ref (countOf s.known ref) := hfollows
    have hread : s.tracker.available ref true = p.availableCount := by
      unfold PoolTracker.available
      rw [hp]
      rfl
    rw [hread, (hD.allNamed hp).availableCount hdecl, hnamed, card_standIns,
      max_eq_left (countOf_nonneg _ _)]
  rw [hcount]
  unfold countOf
  refine ⟨fun name count hknown => ?_, fun hunknown => ?_⟩
  · obtain rfl : ref.name = name := hD.agrees.named name _ hknown
    rw [hknown]
    exact if_pos rfl
  · split
    · rename_i ref' count hknown
      refine if_neg ?_
      rintro rfl
      exact hunknown _ count hknown
    · rfl

def subscriberBuffer : Nat := 1024

/-- A Pool resource that was declared under the given Runner namespace. -/
def smallPool (runnerNamespace : String) (available : Int) : Resource.Pool where
  name := "small"
  nameSpace := "runners"
  labels := ∅
  annotations := AList.singleton annotationPoolNamespace runnerNamespace
  spec :=
    { template :=
        { provider := none
          vcpu := 1
          memoryInMb := 512
          metadata := ∅
          labels := ∅
          kernel := ⟨"kernel", ∅, none, true⟩
          initrd := none
          rootVolume := ⟨"root", false, "/", none, none, none, none⟩
          additionalVolumes := []
          interfaces := []
          cpuConfig := none }
      size := 2
      nodeSelector := ∅
      replenishment := ⟨.immediateOnLease, none⟩
      hooks := ⟨[], [], .deleteAndReplace⟩
      lease := ⟨none, none⟩ }
  status := ⟨available, 0, 0, 0⟩

def smallRef : PoolRef := ⟨"small", "default"⟩

/-- Nothing watched yet, and a Tracker that tracks one declared Pool. -/
def hubStart : HubSys where
  hub := ⟨∅, false⟩
  watch := .idle
  sending := []
  endless := false
  stream := none
  tracker := (PoolTracker.new.track smallRef true).1
  known := fun _ => none

theorem hubStart_blank : hubStart.Blank where
  hub := ⟨rfl, rfl⟩
  idle := ⟨rfl, rfl⟩
  stream := rfl
  known _ := rfl
  tracker {ref p} hp := by
    have hlookup := hp.symm.trans (PoolTracker.lookup_track PoolTracker.new smallRef ref true)
    split at hlookup
    · cases hlookup
      exact ⟨rfl, rfl⟩
    · cases hlookup

/-- The Pool has two, the Tracker subscribes while it falls to one, and a new list
has it under another namespace and back. -/
def watchedRun : List HubLabel :=
  [.observe (smallPool "" 2), .publish, .publish, .subscribe ["small"], .recv,
    .observe (smallPool "" 1), .publish, .recv, .recv,
    .resync [smallPool "other" 3], .listed, .publish, .publish, .recv, .publish, .publish,
    .collect [], .ended, .observe (smallPool "default" 1), .publish, .publish, .publish, .publish,
    .recv, .recv, .recv, .recv, .recv, .recv, .recv]

theorem hub_drives_tracker_moved : ∃ s, (hubs subscriberBuffer "default").Reach
      (Undisturbed subscriberBuffer) s ∧
    s.known "small" = some (smallRef, 1) ∧ s.tracker.available smallRef true = 1 := by
  have hs := Machine.reach_run (M := hubs subscriberBuffer "default")
    (Undisturbed subscriberBuffer) watchedRun hubStart_blank rfl
  refine ⟨_, hs, rfl, ?_⟩
  exact (hub_drives_tracker hs rfl rfl rfl rfl).1 "small" 1 rfl

end HubSys

end FlintlockRunner.Poolmgr

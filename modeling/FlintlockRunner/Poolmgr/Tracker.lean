import FlintlockRunner.Poolmgr.Types
import FlintlockRunner.Poolmgr.UidCount
import Mathlib.Data.List.AList
import Mathlib.Data.List.Sort

/-!
# The Tracker

`PoolTracker` of `poolmgr/tracker.go`: how many warm MicroVMs each Pool has,
from the Pool Manager's events with `GetPool` as the fallback. The definitions
over `PoolTracker` are its lock sections. A section that the source follows by
`requestPoll` says so in its second result, because the lock is released in
between.

Channels are only ever closed, so a channel is a number and it is open while it
is some tracked Pool's current one; `made` is the next number.
-/

namespace FlintlockRunner.Poolmgr

open UidCount

/-- What the Tracker keeps of a Pool. -/
structure TrackedPool where
  available : UidCount
  leased : UidCount
  provisioning : UidCount
  quarantined : UidCount
  size : Int
  declared : Bool
  exhausted : Bool
  needsPoll : Bool
  unsettled : Bool
  generation : Nat
  waiters : Nat
  waiting : Nat
  deriving DecidableEq

namespace TrackedPool

/-- A Pool named for the first time, with a fresh channel. -/
def new (ch : Nat) : TrackedPool where
  available := .empty
  leased := .empty
  provisioning := .empty
  quarantined := .empty
  size := 0
  declared := false
  exhausted := false
  needsPoll := false
  unsettled := false
  generation := 0
  waiters := ch
  waiting := 0

variable (p : TrackedPool)

/-- Nothing is available of a Pool that is undeclared or exhausted. -/
def availableCount : Int :=
  if !p.declared || p.exhausted then 0 else p.available.total

/-- What `Pools` reports. -/
def status : PoolStatus where
  available := p.availableCount
  leased := p.leased.total
  provisioning := p.provisioning.total
  quarantined := p.quarantined.total

/-- Folds the Pool Manager's own counts in. -/
def rebaseline (status : PoolStatus) : TrackedPool :=
  { p with
    available := p.available.rebaseline status.available
    leased := p.leased.rebaseline status.leased
    provisioning := p.provisioning.rebaseline status.provisioning
    quarantined := p.quarantined.rebaseline status.quarantined }

/-- What `applyPoll` folds in when no event raced the answer. -/
def settle (size : Int) (status : PoolStatus) : TrackedPool :=
  { p.rebaseline status with
    size := size, exhausted := false, needsPoll := false, unsettled := false }

/-- The `switch` of `apply`; the second value is whether the Pool's waiters are
woken. -/
def fold (uid : String) : EventType → TrackedPool × Bool
  | .vmProvisioned =>
    ({ p with exhausted := false, provisioning := (p.provisioning.add uid).1 }, false)
  | .vmAvailable =>
    match p.available.add uid with
    | (available, added, tookUnnamed) =>
      ({ p with
        exhausted := false
        provisioning := p.provisioning.leaves uid
        available := available
        unsettled := p.unsettled || tookUnnamed }, added)
  | .vmClaimed =>
    ({ p with available := p.available.leaves uid, leased := (p.leased.add uid).1 }, false)
  | .vmReleased | .vmDeletedDueToExpiry =>
    ({ p with
      exhausted := false
      available := (p.available.remove uid).1
      leased := p.leased.leaves uid }, false)
  | .vmDeletedOnRelease =>
    ({ p with
      exhausted := false
      available := (p.available.remove uid).1
      leased := (p.leased.remove uid).1 }, false)
  | .vmHookFailed quarantined =>
    ({ p with
      available := (p.available.remove uid).1
      provisioning := p.provisioning.leaves uid
      quarantined := if quarantined then (p.quarantined.add uid).1 else p.quarantined },
      false)
  | .poolSizeBelowTarget (some counts) =>
    ({ p.rebaseline counts.toPoolStatus with
      exhausted := false, size := counts.target, needsPoll := false, unsettled := false },
      false)
  | .poolSizeBelowTarget none | .unspecified => (p, false)

/-- The two conditions under which an event leaves a Pool owing a poll: it
counted the Pool down to nothing, or a MicroVM the Tracker guessed about has
left it reading below its target. -/
def owes (before : Int) : TrackedPool :=
  { p with needsPoll := p.needsPoll
      || decide (before > 0 ∧ p.availableCount = 0)
      || (p.unsettled && decide (p.size ≤ 0 ∨ p.availableCount < p.size)) }

/-- One more event applied. -/
def counted : TrackedPool := { p with generation := p.generation + 1 }

/-- One event applied to its Pool. -/
def apply (uid : String) (type : EventType) : TrackedPool × Bool :=
  match p.counted.fold uid type with
  | (p', woken) => (p'.owes p.availableCount, woken)

/-- A Pool whose waiters were woken, if `woken`, has the fresh channel `ch`. -/
def woke (ch : Nat) (woken : Bool) : TrackedPool :=
  if woken then { p with waiters := ch, waiting := 0 } else p

section Woke

variable (ch : Nat) (woken : Bool)

@[simp] theorem woke_availableCount : (p.woke ch woken).availableCount = p.availableCount := by
  cases woken <;> rfl

@[simp] theorem woke_declared : (p.woke ch woken).declared = p.declared := by
  cases woken <;> rfl

@[simp] theorem woke_needsPoll : (p.woke ch woken).needsPoll = p.needsPoll := by
  cases woken <;> rfl

@[simp] theorem woke_generation : (p.woke ch woken).generation = p.generation := by
  cases woken <;> rfl

@[simp] theorem woke_available : (p.woke ch woken).available = p.available := by
  cases woken <;> rfl

end Woke

/-! ### What an event does to a Pool -/

variable (uid : String) (type : EventType)

theorem owes_of_needsPoll (before : Int) (h : p.needsPoll = true) :
    (p.owes before).needsPoll = true := by
  unfold owes
  rw [h]
  rfl

theorem owes_of_down {before : Int} (hpos : 0 < before) (hzero : p.availableCount = 0) :
    (p.owes before).needsPoll = true := by
  unfold owes
  rw [decide_eq_true (⟨hpos, hzero⟩ : before > 0 ∧ p.availableCount = 0), Bool.or_true]
  rfl

theorem fold_declared : (p.fold uid type).1.declared = p.declared := by
  cases type with
  | poolSizeBelowTarget counts => cases counts <;> rfl
  | _ => rfl

theorem fold_generation : (p.fold uid type).1.generation = p.generation := by
  cases type with
  | poolSizeBelowTarget counts => cases counts <;> rfl
  | _ => rfl

/-- Only the Pool Manager's own counts take a debt away. -/
theorem fold_needsPoll (h : p.needsPoll = true) :
    (p.fold uid type).1.needsPoll = true ∨
    ∃ counts, type = .poolSizeBelowTarget (some counts) := by
  cases type with
  | poolSizeBelowTarget counts =>
    cases counts with
    | none => exact .inl h
    | some counts => exact .inr ⟨counts, rfl⟩
  | _ => exact .inl h

theorem fold_counts (h : p.available.Counts) : (p.fold uid type).1.available.Counts := by
  cases type with
  | vmAvailable => exact add_counts h
  | vmClaimed => exact leaves_counts h
  | vmReleased | vmDeletedDueToExpiry | vmDeletedOnRelease | vmHookFailed _ =>
    exact remove_counts h
  | poolSizeBelowTarget counts =>
    cases counts with
    | none => exact h
    | some counts => exact rebaseline_counts _
  | unspecified | vmProvisioned => exact h

theorem apply_generation : (p.apply uid type).1.generation = p.generation + 1 :=
  fold_generation p.counted uid type

theorem apply_declared : (p.apply uid type).1.declared = p.declared :=
  fold_declared p.counted uid type

theorem apply_availableCount :
    (p.apply uid type).1.availableCount = (p.counted.fold uid type).1.availableCount := rfl

theorem apply_counts (h : p.available.Counts) : (p.apply uid type).1.available.Counts :=
  fold_counts p.counted uid type h

/-- **An event that counts a Pool down to nothing leaves it owing a poll.** -/
theorem apply_down (hpos : 0 < p.availableCount)
    (hzero : (p.apply uid type).1.availableCount = 0) : (p.apply uid type).1.needsPoll = true :=
  owes_of_down _ hpos hzero

/-- **A debt stays** until the Pool Manager's own counts arrive. -/
theorem apply_needsPoll (h : p.needsPoll = true) :
    (p.apply uid type).1.needsPoll = true ∨
    ∃ counts, type = .poolSizeBelowTarget (some counts) :=
  (fold_needsPoll p.counted uid type h).imp_left (owes_of_needsPoll _ _)

/-- When an event leaves a Pool owing a poll. -/
theorem apply_needsPoll_iff : (p.apply uid type).1.needsPoll = true ↔
    (p.fold uid type).1.needsPoll = true ∨
    (0 < p.availableCount ∧ (p.apply uid type).1.availableCount = 0) ∨
    ((p.apply uid type).1.unsettled = true ∧ ((p.apply uid type).1.size ≤ 0 ∨
      (p.apply uid type).1.availableCount < (p.apply uid type).1.size)) := by
  have hfold : (p.counted.fold uid type).1.needsPoll = (p.fold uid type).1.needsPoll := by
    cases type with
    | poolSizeBelowTarget counts => cases counts <;> rfl
    | _ => rfl
  rw [← hfold, apply_availableCount]
  show (_ || _ || _) = true ↔ _
  rw [Bool.or_eq_true, Bool.or_eq_true, Bool.and_eq_true, decide_eq_true_iff,
    decide_eq_true_iff, or_assoc]
  rfl

theorem availableCount_pos {p : TrackedPool} (hdecl : p.declared = true)
    (hex : p.exhausted = false) (hc : p.available.Counts) {uid : String}
    (hmem : uid ∈ p.available.named) : 0 < p.availableCount := by
  unfold availableCount
  rw [hdecl, hex]
  exact total_pos hc hmem

theorem availableCount_nonneg {p : TrackedPool} (hc : p.available.Counts) :
    0 ≤ p.availableCount := by
  unfold availableCount
  split
  · exact le_refl 0
  · exact total_nonneg hc

/-- **A MicroVM that becomes available shows.** -/
theorem apply_vmAvailable (hdecl : p.declared = true) (hc : p.available.Counts)
    (huid : uid ≠ "") : 0 < (p.apply uid .vmAvailable).1.availableCount := by
  have hmem : uid ∈ (p.available.add uid).1.named := by
    rw [add_named huid]
    exact Finset.mem_insert_self _ _
  rw [apply_availableCount]
  exact availableCount_pos hdecl rfl (add_counts hc) hmem

theorem rebaseline_zero {status : PoolStatus} (hdecl : p.declared = true)
    (hzero : ({ p.rebaseline status with exhausted := false } : TrackedPool).availableCount = 0) :
    status.available ≤ 0 := by
  by_contra! hpos
  unfold availableCount at hzero
  dsimp only at hzero
  rw [show (p.rebaseline status).declared = true from hdecl] at hzero
  have htotal := total_rebaseline (c := p.available) (.inl hpos.le)
  have hzero' : (p.available.rebaseline status.available).total = 0 := hzero
  omega

end TrackedPool

/-- `PoolTracker`; `kick` is whether its one slot is full. -/
structure PoolTracker where
  pools : AList fun _ : PoolRef => TrackedPool
  kick : Bool
  streamUp : Bool
  made : Nat

namespace PoolTracker

/-- `NewTracker`. -/
def new : PoolTracker := ⟨∅, false, false, 0⟩

variable (t : PoolTracker) (ref : PoolRef)

/-- Store a tracked Pool. -/
def put (p : TrackedPool) : PoolTracker := { t with pools := t.pools.insert ref p }

/-- `poolLocked`: the tracked Pool, made if this is the first time it is
named. -/
def poolLocked : PoolTracker × TrackedPool :=
  match t.pools.lookup ref with
  | some p => (t, p)
  | none => ({ t.put ref (.new t.made) with made := t.made + 1 }, .new t.made)

/-- `closeWaiters`: wake everything waiting on the Pool and arm a fresh
channel, if `woken`. -/
def closeWaiters (p : TrackedPool) (woken : Bool) : PoolTracker :=
  if woken then
    { t.put ref { p with waiters := t.made, waiting := 0 } with made := t.made + 1 }
  else t.put ref p

def requestPoll : PoolTracker := { t with kick := true }

def setStreamUp (up : Bool) : PoolTracker := { t with streamUp := up }

/-- `Track`'s section. -/
def track (declared : Bool) : PoolTracker × Bool :=
  let known := decide (ref ∈ t.pools)
  let (t, p) := t.poolLocked ref
  (t.put ref { p with declared := declared }, !known || declared)

/-- An undeclared Pool owes nothing. -/
def setDeclared (declared : Bool) : PoolTracker :=
  let (t, p) := t.poolLocked ref
  t.put ref
    (if declared then { p with declared := declared }
    else { p with declared := declared, needsPoll := false, unsettled := false })

/-- `Untrack`: the Pool's channel is closed with it. -/
def untrack : PoolTracker := { t with pools := t.pools.erase ref }

/-- `Available`, given whether the Pool Manager is healthy. -/
def available (healthy : Bool) : Int :=
  if !healthy then 0 else ((t.pools.lookup ref).map TrackedPool.availableCount).getD 0

/-- A claim found nothing; what was counted as available is forgotten. -/
def markExhausted : PoolTracker :=
  let (t, p) := t.poolLocked ref
  t.put ref { p with exhausted := true, available := p.available.reset }

/-- `Wait`: the Pool's current channel. -/
def wait : PoolTracker × Nat :=
  let (t, p) := t.poolLocked ref
  (t.put ref { p with waiting := p.waiting + 1 }, p.waiters)

/-- How many events an entry has heard. -/
def generation : Nat := ((t.pools.lookup ref).map TrackedPool.generation).getD 0

/-- Some Pool owes a poll. -/
def pollOwed : Bool := t.pools.entries.any fun e => e.2.needsPoll

/-- `refs`: the tracked Pools in a stable order. -/
def refs : List PoolRef := t.pools.keys.insertionSort fun a b => a.text ≤ b.text

/-- `applyPoll`'s section: an answer that raced the Pool's events is discarded
and the question asked again. -/
def applyPoll (asked : Nat) (size : Int) (status : PoolStatus) : PoolTracker × Bool :=
  match t.pools.lookup ref with
  | none => (t, false)
  | some p =>
    if p.generation ≠ asked then (t.put ref { p with needsPoll := true }, true)
    else
      let p := p.settle size status
      (t.closeWaiters ref p (decide (p.availableCount > 0)), false)

/-- `apply`'s section. -/
def apply (e : Event) : PoolTracker × Bool :=
  match t.pools.lookup e.pool with
  | none => (t, false)
  | some p =>
    match p.apply e.vmUID e.type with
    | (p', woken) => (t.closeWaiters e.pool p' woken, p'.needsPoll)

/-! ### What each section leaves in the table -/

/-- The Pool `poolLocked` returns. -/
def poolAt : TrackedPool := (t.pools.lookup ref).getD (.new t.made)

variable (ref' : PoolRef)

theorem lookup_put (p : TrackedPool) : (t.put ref p).pools.lookup ref'
    = if ref' = ref then some p else t.pools.lookup ref' := by
  unfold put
  split
  · rename_i heq
    rw [heq, AList.lookup_insert]
  · rename_i hne
    rw [AList.lookup_insert_ne hne]

theorem poolLocked_snd : (t.poolLocked ref).2 = t.poolAt ref := by
  unfold poolLocked poolAt
  split <;> rename_i heq <;> rw [heq] <;> rfl

theorem lookup_poolLocked_put (p : TrackedPool) :
    ((t.poolLocked ref).1.put ref p).pools.lookup ref'
      = if ref' = ref then some p else t.pools.lookup ref' := by
  rw [lookup_put]
  split
  · rfl
  · rename_i hne
    unfold poolLocked
    split
    · rfl
    · rw [show (_ : PoolTracker).pools = (t.put ref (.new t.made)).pools from rfl, lookup_put,
        if_neg hne]

theorem lookup_track (declared : Bool) : (t.track ref declared).1.pools.lookup ref'
    = if ref' = ref then some { t.poolAt ref with declared := declared }
      else t.pools.lookup ref' := by
  rw [← poolLocked_snd]
  exact lookup_poolLocked_put t ref ref' _

theorem lookup_setDeclared_false : (t.setDeclared ref false).pools.lookup ref'
    = if ref' = ref then
        some { t.poolAt ref with declared := false, needsPoll := false, unsettled := false }
      else t.pools.lookup ref' := by
  rw [← poolLocked_snd]
  exact lookup_poolLocked_put t ref ref' _

theorem lookup_markExhausted : (t.markExhausted ref).pools.lookup ref'
    = if ref' = ref then
        some { t.poolAt ref with exhausted := true, available := .empty }
      else t.pools.lookup ref' := by
  rw [← poolLocked_snd]
  exact lookup_poolLocked_put t ref ref' _

theorem lookup_wait : (t.wait ref).1.pools.lookup ref'
    = if ref' = ref then some { t.poolAt ref with waiting := (t.poolAt ref).waiting + 1 }
      else t.pools.lookup ref' := by
  rw [← poolLocked_snd]
  exact lookup_poolLocked_put t ref ref' _

theorem lookup_untrack : (t.untrack ref).pools.lookup ref'
    = if ref' = ref then none else t.pools.lookup ref' := by
  unfold untrack
  split
  · rename_i heq
    rw [heq, AList.lookup_erase]
  · rename_i hne
    rw [AList.lookup_erase_ne hne]

theorem poolAt_generation : (t.poolAt ref).generation
    = ((t.pools.lookup ref).map TrackedPool.generation).getD 0 := by
  unfold poolAt
  cases t.pools.lookup ref <;> rfl

theorem lookup_closeWaiters (p : TrackedPool) (woken : Bool) :
    (t.closeWaiters ref p woken).pools.lookup ref'
      = if ref' = ref then some (p.woke t.made woken) else t.pools.lookup ref' := by
  unfold closeWaiters TrackedPool.woke
  split
  · exact lookup_put t ref ref' _
  · exact lookup_put t ref ref' _

theorem lookup_apply (e : Event) : (t.apply e).1.pools.lookup ref'
    = if ref' = e.pool then
        (t.pools.lookup e.pool).map fun p =>
          (p.apply e.vmUID e.type).1.woke t.made (p.apply e.vmUID e.type).2
      else t.pools.lookup ref' := by
  unfold apply
  split
  · rename_i hnone
    rw [hnone]
    split
    · rename_i heq
      rw [heq, hnone]
      rfl
    · rfl
  · rename_i p hsome
    rw [hsome]
    exact lookup_closeWaiters t e.pool ref' _ _

/-! ### The sections leave the slot alone -/

theorem track_kick (declared : Bool) : (t.track ref declared).1.kick = t.kick := by
  unfold track poolLocked
  cases t.pools.lookup ref <;> rfl

theorem setDeclared_kick (declared : Bool) : (t.setDeclared ref declared).kick = t.kick := by
  unfold setDeclared poolLocked
  cases t.pools.lookup ref <;> rfl

theorem markExhausted_kick : (t.markExhausted ref).kick = t.kick := by
  unfold markExhausted poolLocked
  cases t.pools.lookup ref <;> rfl

theorem applyPoll_kick (asked : Nat) (size : Int) (status : PoolStatus) :
    (t.applyPoll ref asked size status).1.kick = t.kick := by
  unfold applyPoll closeWaiters
  split
  · rfl
  · split
    · rfl
    · dsimp only
      split <;> rfl

theorem apply_kick (e : Event) : (t.apply e).1.kick = t.kick := by
  unfold apply
  split
  · rfl
  · dsimp only
    unfold closeWaiters
    split <;> rfl

theorem lookup_applyPoll (asked : Nat) (size : Int) (status : PoolStatus) :
    (t.applyPoll ref asked size status).1.pools.lookup ref'
      = if ref' = ref then
          (t.pools.lookup ref).map fun p =>
            if p.generation ≠ asked then { p with needsPoll := true }
            else (p.settle size status).woke t.made
              (decide ((p.settle size status).availableCount > 0))
        else t.pools.lookup ref' := by
  unfold applyPoll
  split
  · rename_i hnone
    rw [hnone]
    split
    · rename_i heq
      rw [heq, hnone]
      rfl
    · rfl
  · rename_i p hsome
    rw [hsome, Option.map_some]
    split
    · exact lookup_put t ref ref' _
    · exact lookup_closeWaiters t ref ref' _ _

theorem mem_refs : ref ∈ t.refs ↔ ref ∈ t.pools := by
  unfold refs
  rw [List.mem_insertionSort, ← AList.mem_keys]

/-! ### Every count is a count -/

/-- The available count of every tracked Pool is a count. -/
def Counted (t : PoolTracker) : Prop :=
  ∀ ref p, t.pools.lookup ref = some p → p.available.Counts

variable {t t' : PoolTracker} {ref : PoolRef}

theorem Counted.poolAt (h : t.Counted) (ref : PoolRef) : (t.poolAt ref).available.Counts := by
  unfold PoolTracker.poolAt
  cases hp : t.pools.lookup ref with
  | none => exact counts_empty
  | some p => exact h ref p hp

theorem Counted.change (h : t.Counted) {p' : Option TrackedPool}
    (hlookup : ∀ r, t'.pools.lookup r = if r = ref then p' else t.pools.lookup r)
    (hp' : ∀ p ∈ p', p.available.Counts) : t'.Counted := by
  intro r p hp
  rw [hlookup] at hp
  split at hp
  · exact hp' p hp
  · exact h r p hp

theorem Counted.apply (h : t.Counted) (e : Event) : (t.apply e).1.Counted := by
  refine h.change (fun r => t.lookup_apply r e) ?_
  intro p' hp'
  obtain ⟨p, hp, rfl⟩ := Option.map_eq_some_iff.mp hp'
  rw [TrackedPool.woke_available]
  exact p.apply_counts _ _ (h _ _ hp)

theorem Counted.applyPoll (h : t.Counted) (asked : Nat) (size : Int) (status : PoolStatus) :
    (t.applyPoll ref asked size status).1.Counted := by
  refine h.change (fun r => t.lookup_applyPoll ref r asked size status) ?_
  intro p' hp'
  obtain ⟨p, hp, rfl⟩ := Option.map_eq_some_iff.mp hp'
  split
  · exact h ref p hp
  · rw [TrackedPool.woke_available]
    exact rebaseline_counts _

end PoolTracker

end FlintlockRunner.Poolmgr

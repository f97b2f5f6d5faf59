import FlintlockRunner.Base.Writes
import FlintlockRunner.Poolmgr.Resubscribe

/-!
# Events applied twice

`apply` is documented to be idempotent for every count. Over a count without an
anonymous part that is so for any stretch at the end of the events applied, in
any order and of any types: each event then writes its MicroVM into a count, or
out of it, or leaves it (`EventType.writes`), so that the last event about a
MicroVM decides. The counts of a `POOL_SIZE_BELOW_TARGET` are no write, and
neither is taking one out of an anonymous part.
-/

namespace FlintlockRunner.Poolmgr

/-! ## Counts without an anonymous part -/

namespace UidCount

/-- Write a MicroVM into a count, or out of it. -/
def write (c : UidCount) (uid : String) (inside : Bool) : UidCount :=
  { c with named := if inside then insert uid c.named else c.named.erase uid }

variable {c : UidCount} {uid : String}

theorem add_eq_write (h : c.unnamed = 0) (huid : uid ≠ "") : (c.add uid).1 = c.write uid true := by
  have htake : take { c with named := insert uid c.named } uid = _ := take_allNamed h
  unfold add
  rw [if_neg huid]
  split
  · rename_i hmem
    unfold write
    rw [if_pos rfl, Finset.insert_eq_of_mem hmem]
  · rw [htake]
    rfl

theorem remove_eq_write (huid : uid ≠ "") : (c.remove uid).1 = c.write uid false := by
  unfold remove
  rw [if_neg huid]
  split
  · rfl
  · rename_i hmem
    unfold write
    rw [if_neg Bool.false_ne_true, Finset.erase_eq_of_notMem hmem]

theorem leaves_eq_write (h : c.unnamed = 0) (huid : uid ≠ "") :
    c.leaves uid = c.write uid false := by
  rw [← remove_eq_write huid]
  by_cases hmem : uid ∈ c.named
  · rw [leaves_of_mem huid hmem, remove, if_neg huid, if_pos hmem]
  · rw [leaves_of_notMem hmem, take_allNamed h, remove_of_notMem hmem]

/-- The MicroVMs in a count, as a table of uids. -/
def table (c : UidCount) (uid : String) : Bool := decide (uid ∈ c.named)

theorem table_write (c : UidCount) (uid : String) (inside : Bool) :
    (c.write uid inside).table = Function.update c.table uid inside := by
  funext u
  unfold table write
  by_cases hu : u = uid
  · subst hu
    cases inside <;> simp
  · rw [Function.update_of_ne hu]
    cases inside <;> simp [hu]

theorem eq_of_table {c c' : UidCount} (htable : c'.table = c.table)
    (hunnamed : c'.unnamed = c.unnamed) (haccounted : c'.accounted = c.accounted) : c' = c := by
  have hnamed : c'.named = c.named := by
    ext uid
    exact decide_eq_decide.mp (congrFun htable uid)
  cases c
  cases c'
  cases hnamed
  cases hunnamed
  cases haccounted
  rfl

end UidCount

/-! ## Events as writes -/

/-- The four counts of a Pool. -/
inductive Counted
  | available | leased | provisioning | quarantined
  deriving DecidableEq

/-- One of a Pool's counts. -/
def TrackedPool.count (p : TrackedPool) : Counted → UidCount
  | .available => p.available
  | .leased => p.leased
  | .provisioning => p.provisioning
  | .quarantined => p.quarantined

/-- Where an event leaves its MicroVM: in the count, out of it, or where it
was. -/
def EventType.writes : EventType → Counted → Option Bool
  | .vmProvisioned, .provisioning => some true
  | .vmAvailable, .provisioning => some false
  | .vmAvailable, .available => some true
  | .vmClaimed, .available => some false
  | .vmClaimed, .leased => some true
  | .vmReleased, .available | .vmReleased, .leased => some false
  | .vmDeletedDueToExpiry, .available | .vmDeletedDueToExpiry, .leased => some false
  | .vmDeletedOnRelease, .available | .vmDeletedOnRelease, .leased => some false
  | .vmHookFailed _, .available | .vmHookFailed _, .provisioning => some false
  | .vmHookFailed true, .quarantined => some true
  | _, _ => none

/-- The writes of an event to one count; an event without a uid has none. -/
def Event.writes (k : Counted) (e : Event) : List (String × Bool) :=
  if e.vmUID = "" then [] else ((e.type.writes k).map (Prod.mk e.vmUID)).toList

/-- Not the Pool Manager's own counts. -/
def EventType.isWrite : EventType → Bool
  | .poolSizeBelowTarget _ => false
  | _ => true

namespace TrackedPool

variable {p : TrackedPool} {uid : String} {type : EventType}

/-- Nothing is anonymous in any of the counts. -/
def Named (p : TrackedPool) : Prop := ∀ k, (p.count k).unnamed = 0

theorem fold_count_empty (p : TrackedPool) (htype : type.isWrite) (k : Counted) :
    (p.fold "" type).1.count k = p.count k := by
  cases type with
  | vmAvailable | vmClaimed | vmReleased | vmDeletedDueToExpiry => cases k <;> rfl
  | vmHookFailed quarantined =>
    cases k <;> first | rfl | exact UidCount.leaves_empty _ | exact ite_self _
  | poolSizeBelowTarget counts => cases htype
  | unspecified | vmProvisioned | vmDeletedOnRelease => cases k <;> rfl

theorem fold_count (hp : p.Named) (huid : uid ≠ "") (htype : type.isWrite) (k : Counted) :
    (p.fold uid type).1.count k
      = ((type.writes k).map ((p.count k).write uid)).getD (p.count k) := by
  have hadd := UidCount.add_eq_write (hp k) huid
  have hremove := UidCount.remove_eq_write (c := p.count k) huid
  have hleaves := UidCount.leaves_eq_write (hp k) huid
  cases type with
  | vmHookFailed quarantined =>
    cases k with
    | quarantined =>
      cases quarantined
      · rfl
      · exact hadd
    | _ => first | rfl | exact hremove | exact hleaves
  | poolSizeBelowTarget counts => cases htype
  | _ => cases k <;> first | rfl | exact hadd | exact hremove | exact hleaves

theorem apply_count (hp : p.Named) {e : Event} (htype : e.type.isWrite) (k : Counted) :
    ((p.apply e.vmUID e.type).1.count k).table
      = Writes.after (p.count k).table (e.writes k) ∧
    ((p.apply e.vmUID e.type).1.count k).unnamed = 0 ∧
    ((p.apply e.vmUID e.type).1.count k).accounted = (p.count k).accounted := by
  have hfold : (p.apply e.vmUID e.type).1.count k
      = (p.counted.fold e.vmUID e.type).1.count k := by
    cases k <;> rfl
  have hcounted : ∀ k, p.counted.count k = p.count k := by
    rintro (_ | _ | _ | _) <;> rfl
  have hnamed : p.counted.Named := fun k => hcounted k ▸ hp k
  rw [hfold, ← hcounted]
  unfold Event.writes
  by_cases huid : e.vmUID = ""
  · rw [if_pos huid, huid, fold_count_empty _ htype]
    exact ⟨rfl, hnamed k, rfl⟩
  · rw [if_neg huid, fold_count hnamed huid htype]
    cases e.type.writes k with
    | none => exact ⟨rfl, hnamed k, rfl⟩
    | some inside => exact ⟨UidCount.table_write _ _ inside, hnamed k, rfl⟩

theorem applyAll_count (k : Counted) (w : List Event) (hw : ∀ e ∈ w, e.type.isWrite) :
    ∀ {p : TrackedPool}, p.Named →
      ((p.applyAll w).count k).table
        = Writes.after (p.count k).table (w.flatMap (Event.writes k)) ∧
      ((p.applyAll w).count k).unnamed = 0 ∧
      ((p.applyAll w).count k).accounted = (p.count k).accounted := by
  induction w with
  | nil => exact fun hp => ⟨rfl, hp k, rfl⟩
  | cons e w ih =>
    intro p hp
    have hstep := apply_count hp (hw e List.mem_cons_self)
    obtain ⟨htable, hunnamed, haccounted⟩ :=
      ih (fun e' he' => hw e' (List.mem_cons_of_mem _ he')) fun k => (hstep k).2.1
    refine ⟨?_, hunnamed, haccounted.trans (hstep k).2.2⟩
    rw [List.flatMap_cons, Writes.after_append, ← (hstep k).1]
    exact htable

theorem applyAll_suffix (hp : p.Named) {w s : List Event} (hw : ∀ e ∈ w, e.type.isWrite)
    (hs : s <:+ w) (k : Counted) : ((p.applyAll (w ++ s)).count k) = (p.applyAll w).count k := by
  have happlied := fun k => applyAll_count k w hw hp
  have hagain : p.applyAll (w ++ s) = (p.applyAll w).applyAll s := List.foldl_append ..
  obtain ⟨htable, hunnamed, haccounted⟩ :=
    applyAll_count k s (fun e he => hw e (hs.subset he)) fun k => (happlied k).2.1
  rw [hagain]
  refine UidCount.eq_of_table ?_ (hunnamed.trans (happlied k).2.1.symm) haccounted
  rw [htable, (happlied k).1]
  refine Writes.after_suffix _ _ ?_
  obtain ⟨before, rfl⟩ := hs
  exact ⟨before.flatMap (Event.writes k), (List.flatMap_append ..).symm⟩

theorem woke_count (p : TrackedPool) (ch : Nat) (woken : Bool) (k : Counted) :
    (p.woke ch woken).count k = p.count k := by
  cases woken <;> cases k <;> rfl

end TrackedPool

/-! ## A Tracker that applies every event -/

namespace PoolTracker

/-- The events of a stream, applied in order. -/
def applyEvents (t : PoolTracker) (w : List Event) : PoolTracker :=
  w.foldl (fun t e => (t.apply e).1) t

theorem lookup_applyEvents {ref : PoolRef} (w : List Event) :
    ∀ {t : PoolTracker} {p : TrackedPool}, t.pools.lookup ref = some p →
      ∃ p', (t.applyEvents w).pools.lookup ref = some p' ∧
        p'.availableCount = (p.applyAll (ofPool ref w)).availableCount ∧
        ∀ k, p'.count k = (p.applyAll (ofPool ref w)).count k := by
  induction w with
  | nil => exact fun hp => ⟨_, hp, rfl, fun _ => rfl⟩
  | cons e w ih =>
    intro t p hp
    have hlookup := t.lookup_apply ref e
    by_cases hpool : ref = e.pool
    · rw [if_pos hpool, ← hpool, hp, Option.map_some] at hlookup
      obtain ⟨p', hp', havailable, hcount⟩ := ih hlookup
      have hof : ofPool ref (e :: w) = e :: ofPool ref w :=
        List.filter_cons_of_pos (decide_eq_true hpool.symm)
      rw [TrackedPool.applyAll_woke] at havailable hcount
      rw [hof]
      refine ⟨p', hp', havailable.trans (TrackedPool.woke_availableCount ..), fun k => ?_⟩
      exact (hcount k).trans (TrackedPool.woke_count ..)
    · rw [if_neg hpool, hp] at hlookup
      have hof : ofPool ref (e :: w) = ofPool ref w :=
        List.filter_cons_of_neg fun h => hpool (of_decide_eq_true h).symm
      rw [hof]
      exact ih hlookup

end PoolTracker

/-- **Replaying applied events is a no-op.** From any entry without an anonymous
part, any events of the Pool but its counts are applied; applying any stretch at
their end once more leaves all four counts as they are. -/
theorem replay_idempotent {t : PoolTracker} {ref : PoolRef} {p : TrackedPool}
    (hp : t.pools.lookup ref = some p) (hnamed : ∀ k, (p.count k).unnamed = 0)
    {w s : List Event} (hpool : ∀ e ∈ w, e.pool = ref)
    (hcounts : ∀ e ∈ w, ∀ counts, e.type ≠ .poolSizeBelowTarget counts) (hs : s <:+ w) :
    ∃ p' p'', (t.applyEvents w).pools.lookup ref = some p' ∧
      ((t.applyEvents w).applyEvents s).pools.lookup ref = some p'' ∧
      ∀ k, p''.count k = p'.count k := by
  have hwrite : ∀ e ∈ w, e.type.isWrite := by
    intro e he
    have hne := hcounts e he
    cases htype : e.type with
    | poolSizeBelowTarget counts => exact absurd htype (hne counts)
    | _ => rfl
  have hof : ∀ l : List Event, (∀ e ∈ l, e.pool = ref) → ofPool ref l = l :=
    fun l hl => List.filter_eq_self.mpr fun e he => decide_eq_true (hl e he)
  have hpool' : ∀ e ∈ w ++ s, e.pool = ref := fun e he =>
    (List.mem_append.mp he).elim (hpool e) fun he => hpool e (hs.subset he)
  obtain ⟨p', hp', -, hcount'⟩ := PoolTracker.lookup_applyEvents w hp
  obtain ⟨p'', hp'', -, hcount''⟩ := PoolTracker.lookup_applyEvents (w ++ s) hp
  have happend : t.applyEvents (w ++ s) = (t.applyEvents w).applyEvents s :=
    List.foldl_append ..
  rw [hof w hpool] at hcount'
  rw [hof _ hpool'] at hcount''
  refine ⟨p', p'', hp', happend ▸ hp'', fun k => ?_⟩
  rw [hcount' k, hcount'' k]
  exact TrackedPool.applyAll_suffix hnamed hwrite hs k

/-- A declared Pool that no event has reached. -/
def latePool : PoolRef := ⟨"small", "default"⟩

/-- The events of one MicroVM, its creation last. -/
def lateRun : List Event :=
  [⟨latePool, "vm", .vmAvailable⟩, ⟨latePool, "vm", .vmClaimed⟩, ⟨latePool, "vm", .vmProvisioned⟩]

theorem replay_idempotent_late : ∃ p' p'',
    let t := (PoolTracker.new.track latePool true).1
    (t.applyEvents lateRun).pools.lookup latePool = some p' ∧
    p'.leased.named = {"vm"} ∧ p'.provisioning.named = {"vm"} ∧
    ((t.applyEvents lateRun).applyEvents (lateRun.drop 1)).pools.lookup latePool = some p'' ∧
    ∀ k, p''.count k = p'.count k := by
  have hp : (PoolTracker.new.track latePool true).1.pools.lookup latePool
      = some { TrackedPool.new 0 with declared := true } := rfl
  obtain ⟨p', p'', hp', hp'', hcount⟩ := replay_idempotent hp (by rintro (_ | _ | _ | _) <;> rfl)
    (w := lateRun) (by decide) (by simp [lateRun]) (List.drop_suffix 1 lateRun)
  refine ⟨p', p'', hp', ?_, ?_, hp'', hcount⟩
  all_goals
    cases hp'
    rfl

end FlintlockRunner.Poolmgr

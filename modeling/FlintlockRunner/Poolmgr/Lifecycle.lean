import FlintlockRunner.Base.Machine
import FlintlockRunner.Poolmgr.Types
import Mathlib.Data.Finset.Card
import Mathlib.Data.List.DropRight
import Mathlib.Logic.Function.Basic

/-!
# The events of one Pool

A Pool Manager's own view of one Pool: every MicroVM goes through the phases of
`Life` in order and each change is an event. A history is a list of events this
machine accepts, so `POOL_SIZE_BELOW_TARGET` events carry the counts of their
moment.

The second half says what a stretch of a history tells about its MicroVMs:
which became available in it, which were claimed in it, and what came since the
last counts.
-/

namespace FlintlockRunner.Poolmgr

open Finset

/-! ## Lives -/

/-- The life of a MicroVM in its Pool. -/
inductive Life
  | unborn | provisioning | available | leased | returned | deleted
  deriving DecidableEq, Repr

/-- How far a life has got. -/
def Life.rank : Life → Nat
  | .unborn => 0
  | .provisioning => 1
  | .available => 2
  | .leased => 3
  | .returned => 4
  | .deleted => 5

/-- The event a life goes on by. -/
def Life.next : Life → EventType → Option Life
  | .unborn, .vmProvisioned => some .provisioning
  | .provisioning, .vmAvailable => some .available
  | .available, .vmClaimed => some .leased
  | .leased, .vmReleased | .leased, .vmDeletedDueToExpiry => some .returned
  | .returned, .vmDeletedOnRelease => some .deleted
  | _, _ => none

/-- One Pool: the phase of every MicroVM, of which finitely many were ever
provisioned. -/
structure PoolLife where
  phase : String → Life
  known : Finset String
  unknown : ∀ uid, uid ∉ known → phase uid = .unborn

namespace PoolLife

/-- A Pool in which nothing has happened. -/
def new : PoolLife := ⟨fun _ => .unborn, ∅, fun _ _ => rfl⟩

variable (s : PoolLife)

/-- The MicroVMs in a phase. -/
def inPhase (l : Life) : Finset String := s.known.filter fun uid => s.phase uid = l

/-- The available MicroVMs. -/
def available : Finset String := s.inPhase .available

/-- The counts `GetPool` and `POOL_SIZE_BELOW_TARGET` report. -/
def status : PoolStatus where
  available := s.available.card
  leased := (s.inPhase .leased).card
  provisioning := (s.inPhase .provisioning).card
  quarantined := 0

variable (uid : String)

/-- A MicroVM enters a phase. -/
def move (l : Life) : PoolLife where
  phase := Function.update s.phase uid l
  known := insert uid s.known
  unknown u hu := by
    obtain ⟨hne, hu⟩ := not_or.mp (Finset.mem_insert.not.mp hu)
    rw [Function.update_of_ne hne]
    exact s.unknown u hu

/-- One event of the Pool `ref`. -/
def next (ref : PoolRef) (e : Event) : Option PoolLife :=
  if e.pool ≠ ref then none
  else
    match e.type with
    | .poolSizeBelowTarget (some counts) =>
      if counts.toPoolStatus = s.status then some s else none
    | type =>
      if e.vmUID = "" then none else ((s.phase e.vmUID).next type).map (s.move e.vmUID)

variable {s}

theorem phase_move_self (l : Life) : (s.move uid l).phase uid = l :=
  Function.update_self _ _ _

theorem phase_move_of_ne {u uid : String} (hu : u ≠ uid) (l : Life) :
    (s.move uid l).phase u = s.phase u := Function.update_of_ne hu _ _

theorem mem_available {uid : String} : uid ∈ s.available ↔ s.phase uid = .available := by
  show uid ∈ s.known.filter _ ↔ _
  rw [mem_filter, and_iff_right_iff_imp]
  intro hphase
  by_contra hnot
  rw [s.unknown uid hnot] at hphase
  cases hphase

theorem available_born :
    (s.move uid .available).available = insert uid s.available := by
  ext u
  rw [mem_available, mem_insert, mem_available]
  by_cases hu : u = uid
  · rw [hu, phase_move_self]
    exact iff_of_true rfl (.inl rfl)
  · rw [phase_move_of_ne hu]
    exact (or_iff_right hu).symm

theorem available_move {l : Life} (hl : l ≠ .available) (uid : String) :
    (s.move uid l).available = s.available.erase uid := by
  ext u
  rw [mem_available, mem_erase, mem_available]
  by_cases hu : u = uid
  · rw [hu, phase_move_self]
    exact iff_of_false hl (fun h => h.1 rfl)
  · rw [phase_move_of_ne hu]
    exact (and_iff_right hu).symm

end PoolLife

/-- The Pool Manager's view of the Pool `ref`. -/
def lifecycle (ref : PoolRef) : Machine PoolLife Event where
  init s := s = .new
  next s e := s.next ref e

/-- The events by which a MicroVM neither becomes available nor stops being
so. -/
def EventType.elsewhere : EventType → Bool
  | .vmProvisioned | .vmReleased | .vmDeletedDueToExpiry | .vmDeletedOnRelease => true
  | _ => false

/-- What one event of a history is. -/
inductive Lived (s : PoolLife) (e : Event) : PoolLife → Prop
  | counts (c : BelowTarget) (htype : e.type = .poolSizeBelowTarget (some c))
      (htrue : c.toPoolStatus = s.status) : Lived s e s
  | born (huid : e.vmUID ≠ "") (htype : e.type = .vmAvailable)
      (hphase : s.phase e.vmUID = .provisioning) : Lived s e (s.move e.vmUID .available)
  | claimed (huid : e.vmUID ≠ "") (htype : e.type = .vmClaimed)
      (hphase : s.phase e.vmUID = .available) : Lived s e (s.move e.vmUID .leased)
  | elsewhere (l : Life) (htype : e.type.elsewhere = true)
      (hphase : s.phase e.vmUID ≠ .available) (hl : l ≠ .available)
      (hrank : (s.phase e.vmUID).rank ≤ l.rank) : Lived s e (s.move e.vmUID l)

theorem lived {ref : PoolRef} {s s' : PoolLife} {e : Event}
    (h : (lifecycle ref).next s e = some s') : e.pool = ref ∧ Lived s e s' := by
  change s.next ref e = some s' at h
  unfold PoolLife.next at h
  split at h
  · cases h
  rename_i hpool
  refine ⟨not_not.mp hpool, ?_⟩
  split at h
  · rename_i c htype
    obtain ⟨htrue, ⟨⟩⟩ := Option.ite_none_right_eq_some.mp h
    exact .counts c htype htrue
  · obtain ⟨huid, h⟩ := Option.ite_none_left_eq_some.mp h
    obtain ⟨l, hl, rfl⟩ := Option.map_eq_some_iff.mp h
    unfold Life.next at hl
    split at hl
    case h_2 hphase htype =>
      cases hl
      exact .born huid htype hphase
    case h_3 hphase htype =>
      cases hl
      exact .claimed huid htype hphase
    case h_7 => cases hl
    all_goals
      rename_i hphase htype
      cases hl
      refine .elsewhere _ (htype ▸ rfl) (fun h => ?_) (by decide) (hphase ▸ by decide)
      rw [hphase] at h
      cases h

/-! ## Stretches of a history -/

/-- The MicroVMs that events of one type name. -/
def uidsOf (type : EventType) (w : List Event) : Finset String :=
  ((w.filter fun e => e.type = type).map Event.vmUID).toFinset

variable (w : List Event)

/-- The MicroVMs that became available in the stretch. -/
def bornIn : Finset String := uidsOf .vmAvailable w

/-- The MicroVMs that were claimed in the stretch. -/
def claimedIn : Finset String := uidsOf .vmClaimed w

/-- Those that became available in the stretch and were not claimed in it. -/
def fresh : Finset String := bornIn w \ claimedIn w

/-- The last counts in the stretch. -/
def told : Option BelowTarget := (w.filterMap Event.counts?).getLast?

/-- What comes after the last counts in the stretch. -/
def since : List Event := w.rtakeWhile fun e => e.counts?.isNone

section Stretches

variable {w : List Event} {e : Event}

theorem ne_of_elsewhere (h : e.type.elsewhere = true) : e.type ≠ .vmAvailable ∧
    e.type ≠ .vmClaimed ∧ ∀ c, e.type ≠ .poolSizeBelowTarget (some c) := by
  revert h
  cases e.type <;> simp [EventType.elsewhere]

theorem uidsOf_concat (type : EventType) (w : List Event) (e : Event) :
    uidsOf type (w ++ [e])
      = if e.type = type then insert e.vmUID (uidsOf type w) else uidsOf type w := by
  unfold uidsOf
  rw [List.filter_append, List.map_append, List.toFinset_append]
  by_cases htype : e.type = type
  · rw [if_pos htype, union_comm, List.filter_singleton, decide_eq_true htype]
    rfl
  · rw [if_neg htype, List.filter_singleton, decide_eq_false htype]
    exact union_empty _

theorem bornIn_concat (w : List Event) (e : Event) : bornIn (w ++ [e])
    = if e.type = .vmAvailable then insert e.vmUID (bornIn w) else bornIn w :=
  uidsOf_concat .vmAvailable w e

theorem claimedIn_concat (w : List Event) (e : Event) : claimedIn (w ++ [e])
    = if e.type = .vmClaimed then insert e.vmUID (claimedIn w) else claimedIn w :=
  uidsOf_concat .vmClaimed w e

theorem told_concat (w : List Event) (e : Event) : told (w ++ [e]) = e.counts?.or (told w) := by
  unfold told
  rw [List.filterMap_append, List.getLast?_append]
  cases hc : e.counts? <;> simp [hc]

theorem since_concat (h : e.counts? = none) : since (w ++ [e]) = since w ++ [e] :=
  List.rtakeWhile_concat_pos _ _ _ (by rw [h]; rfl)

theorem since_counts {c : BelowTarget} (h : e.counts? = some c) : since (w ++ [e]) = [] :=
  List.rtakeWhile_concat_neg _ _ _ (by rw [h]; exact Bool.false_ne_true)

theorem uidsOf_since (type : EventType) (w : List Event) :
    uidsOf type (since w) ⊆ uidsOf type w := by
  intro uid hmem
  obtain ⟨e, he, rfl⟩ := List.mem_map.mp (List.mem_toFinset.mp hmem)
  refine List.mem_toFinset.mpr (List.mem_map.mpr ⟨e, ?_, rfl⟩)
  obtain ⟨hmem, htype⟩ := List.mem_filter.mp he
  exact List.mem_filter.mpr ⟨(List.rtakeWhile_suffix _ _).subset hmem, htype⟩

/-- No counts in the stretch: all of it comes since. -/
theorem since_of_told (h : told w = none) : since w = w := by
  refine List.rtakeWhile_eq_self_iff.mpr fun e he => ?_
  have hnone : w.filterMap Event.counts? = [] := List.getLast?_eq_none_iff.mp h
  rw [List.filterMap_eq_nil_iff.mp hnone e he]
  rfl

end Stretches

/-- What a stretch says of the MicroVMs it names, and their phase after it. -/
structure Witnessed (now : PoolLife) (w : List Event) : Prop where
  born : ∀ uid ∈ bornIn w, Life.available.rank ≤ (now.phase uid).rank
  claimed : ∀ uid ∈ claimedIn w, Life.available.rank < (now.phase uid).rank
  ended : ∀ uid ∈ bornIn w, now.phase uid ≠ .available → uid ∈ claimedIn w

namespace Witnessed

variable {now now' : PoolLife} {w : List Event} {e : Event}

theorem nil (now : PoolLife) : Witnessed now [] := ⟨nofun, nofun, nofun⟩

theorem mem_fresh (h : Witnessed now w) {uid : String} :
    uid ∈ fresh w ↔ uid ∈ bornIn w ∧ now.phase uid = .available := by
  unfold fresh
  rw [mem_sdiff]
  refine and_congr_right fun hborn => ⟨fun hnot => ?_, fun hphase hclaimed => ?_⟩
  · by_contra hphase
    exact hnot (h.ended uid hborn hphase)
  · have := h.claimed uid hclaimed
    rw [hphase] at this
    exact lt_irrefl _ this

theorem fresh_subset (h : Witnessed now w) : fresh w ⊆ now.available := by
  intro uid hmem
  exact PoolLife.mem_available.mpr (h.mem_fresh.mp hmem).2

/-! ### What one more event does to the sets -/

theorem fresh_keep (hborn : e.type ≠ .vmAvailable) (hclaimed : e.type ≠ .vmClaimed) :
    fresh (w ++ [e]) = fresh w := by
  unfold fresh
  rw [bornIn_concat, claimedIn_concat, if_neg hborn, if_neg hclaimed]

theorem fresh_born (h : Witnessed now w) (htype : e.type = .vmAvailable)
    (hphase : now.phase e.vmUID = .provisioning) :
    fresh (w ++ [e]) = insert e.vmUID (fresh w) ∧ e.vmUID ∉ fresh w := by
  have hnot : e.vmUID ∉ claimedIn w := by
    intro hmem
    have := h.claimed _ hmem
    rw [hphase] at this
    exact absurd this (by decide)
  constructor
  · unfold fresh
    rw [bornIn_concat, claimedIn_concat, htype, if_pos rfl, if_neg nofun,
      insert_sdiff_of_notMem _ hnot]
  · intro hmem
    have := (h.mem_fresh.mp hmem).2
    rw [hphase] at this
    cases this

theorem fresh_claimed (w : List Event) (htype : e.type = .vmClaimed) :
    fresh (w ++ [e]) = (fresh w).erase e.vmUID := by
  unfold fresh
  rw [bornIn_concat, claimedIn_concat, htype, if_neg nofun, if_pos rfl, sdiff_insert]

theorem card_claimed (h : Witnessed now w) (htype : e.type = .vmClaimed)
    (hphase : now.phase e.vmUID = .available) :
    (claimedIn (since (w ++ [e]))).card = (claimedIn (since w)).card + 1 := by
  have hnone : e.counts? = none := counts?_eq_none (htype ▸ nofun)
  rw [since_concat hnone, claimedIn_concat, if_pos htype, card_insert_of_notMem]
  intro hmem
  have := h.claimed _ (uidsOf_since _ _ hmem)
  rw [hphase] at this
  exact lt_irrefl _ this

theorem concat (h : Witnessed now w) (hl : Lived now e now') : Witnessed now' (w ++ [e]) := by
  have hborn := bornIn_concat w e
  have hclaimed := claimedIn_concat w e
  -- a MicroVM the event is not about
  have hother : ∀ l u, u ≠ e.vmUID → (now.move e.vmUID l).phase u = now.phase u :=
    fun l u hu => Function.update_of_ne hu _ _
  have hself : ∀ l, (now.move e.vmUID l).phase e.vmUID = l := fun l => Function.update_self _ _ _
  cases hl with
  | counts c htype htrue =>
    rw [htype, if_neg nofun] at hborn hclaimed
    exact ⟨hborn ▸ h.born, hclaimed ▸ h.claimed, fun u hu hphase =>
      hclaimed ▸ h.ended u (hborn ▸ hu) hphase⟩
  | born huid htype hphase =>
    rw [htype, if_pos rfl] at hborn
    rw [htype, if_neg nofun] at hclaimed
    refine ⟨?_, ?_, ?_⟩
    · intro u hu
      by_cases heq : u = e.vmUID
      · rw [heq, hself]
      · rw [hother _ _ heq]
        exact h.born u ((mem_insert.mp (hborn ▸ hu)).resolve_left heq)
    · intro u hu
      have hold := h.claimed u (hclaimed ▸ hu)
      by_cases heq : u = e.vmUID
      · rw [heq, hphase] at hold
        exact absurd hold (by decide)
      · rwa [hother _ _ heq]
    · intro u hu hne
      by_cases heq : u = e.vmUID
      · rw [heq, hself] at hne
        exact absurd rfl hne
      · rw [hother _ _ heq] at hne
        exact hclaimed ▸ h.ended u ((mem_insert.mp (hborn ▸ hu)).resolve_left heq) hne
  | claimed huid htype hphase =>
    rw [htype, if_neg nofun] at hborn
    rw [htype, if_pos rfl] at hclaimed
    refine ⟨?_, ?_, ?_⟩
    · intro u hu
      by_cases heq : u = e.vmUID
      · rw [heq, hself]
        decide
      · rw [hother _ _ heq]
        exact h.born u (hborn ▸ hu)
    · intro u hu
      by_cases heq : u = e.vmUID
      · rw [heq, hself]
        decide
      · rw [hother _ _ heq]
        exact h.claimed u ((mem_insert.mp (hclaimed ▸ hu)).resolve_left heq)
    · intro u hu hne
      rw [show claimedIn _ = _ from hclaimed]
      by_cases heq : u = e.vmUID
      · exact mem_insert.mpr (.inl heq)
      · rw [hother _ _ heq] at hne
        exact mem_insert_of_mem (h.ended u (hborn ▸ hu) hne)
  | elsewhere l htype hphase hl hrank =>
    have hne₁ : e.type ≠ .vmAvailable := fun heq => by rw [heq] at htype; cases htype
    have hne₂ : e.type ≠ .vmClaimed := fun heq => by rw [heq] at htype; cases htype
    rw [if_neg hne₁] at hborn
    rw [if_neg hne₂] at hclaimed
    -- a life only goes on
    have hmono : ∀ u, (now.phase u).rank ≤ ((now.move e.vmUID l).phase u).rank := by
      intro u
      by_cases heq : u = e.vmUID
      · rw [heq, hself]
        exact hrank
      · rw [hother _ _ heq]
    refine ⟨fun u hu => ?_, fun u hu => ?_, fun u hu hne => ?_⟩
    · exact (h.born u (hborn ▸ hu)).trans (hmono u)
    · exact (h.claimed u (hclaimed ▸ hu)).trans_le (hmono u)
    · refine hclaimed ▸ h.ended u (hborn ▸ hu) fun hold => ?_
      by_cases heq : u = e.vmUID
      · exact hphase (heq ▸ hold)
      · rw [hother _ _ heq] at hne
        exact hne hold

end Witnessed

end FlintlockRunner.Poolmgr

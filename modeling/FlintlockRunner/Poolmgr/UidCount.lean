import Mathlib.Data.Finset.Card
import Mathlib.Order.MinMax

/-!
# Counts kept by uid

`uidCount` of `poolmgr/tracker.go`: one of a Pool's counts. `named` holds the
uid of every MicroVM an event has put in the count, `unnamed` is how many of
the last poll's total no event has named, and `accounted` keeps one MicroVM
from being taken out of `unnamed` twice.

The counts are `int32` in the source. Pool sizes are far below its range, so
the arithmetic here is that of the integers, but for a reported total below
zero, from which `rebaseline` wraps.
-/

namespace FlintlockRunner.Poolmgr

open Finset

/-- A count: the MicroVMs with a name, and how many without. -/
structure UidCount where
  named : Finset String
  unnamed : Int
  accounted : Finset String
  deriving DecidableEq

namespace UidCount

/-- `newUIDCount`, and what `reset` leaves. -/
def empty : UidCount := ⟨∅, 0, ∅⟩

variable (c : UidCount) (uid : String)

def total : Int := c.named.card + c.unnamed

/-- `take`: move one MicroVM out of the unnamed part, at most once for a
uid. -/
def take : UidCount × Bool :=
  if uid = "" ∨ c.unnamed ≤ 0 then (c, false)
  else if uid ∈ c.accounted then (c, false)
  else
    let unnamed := c.unnamed - 1
    ({ c with
      unnamed := unnamed
      accounted := if unnamed = 0 then ∅ else insert uid c.accounted }, true)

/-- `add`: name a MicroVM. Whether it was not named before, and whether naming
it took one out of the unnamed part. -/
def add : UidCount × Bool × Bool :=
  if uid = "" then (c, false, false)
  else if uid ∈ c.named then (c, false, false)
  else
    let (c', took) := take { c with named := insert uid c.named } uid
    (c', true, took)

/-- `remove`: drop a named MicroVM; whether it was named. -/
def remove : UidCount × Bool :=
  if uid = "" then (c, false)
  else if uid ∈ c.named then ({ c with named := c.named.erase uid }, true)
  else (c, false)

/-- `leaves`: take a MicroVM out of the count, whether an event had named it or
only a poll had counted it. -/
def leaves : UidCount :=
  match c.remove uid with
  | (c', true) => c'
  | (c', false) => (c'.take uid).1

variable (total : Int)

/-- `total - named` in `int32`. -/
def beyond : Int :=
  if total < 0 ∧ -2147483648 ≤ total ∧ total - c.named.card < -2147483648 then
    total - c.named.card + 4294967296
  else total - c.named.card

/-- `rebaseline`: fold in the Pool Manager's own total. The named MicroVMs are
in it already, so they are accounted for. -/
def rebaseline : UidCount :=
  let unnamed := if c.beyond total < 0 then 0 else c.beyond total
  { named := c.named, unnamed := unnamed, accounted := if unnamed = 0 then ∅ else c.named }

def reset (_ : UidCount) : UidCount := empty

/-! ## What the operations do to the parts -/

/-- The unnamed part is a count. -/
def Counts (c : UidCount) : Prop := 0 ≤ c.unnamed

variable {c} {uid : String}

theorem counts_empty : empty.Counts := le_refl 0

theorem take_named (c : UidCount) (uid : String) : (c.take uid).1.named = c.named := by
  unfold take
  split_ifs <;> rfl

theorem take_counts (hc : c.Counts) : (c.take uid).1.Counts := by
  unfold Counts take at *
  split_ifs <;> dsimp only <;> omega

theorem add_named (huid : uid ≠ "") : (c.add uid).1.named = insert uid c.named := by
  unfold add
  rw [if_neg huid]
  split
  · rename_i hmem
    rw [insert_eq_of_mem hmem]
  · exact take_named _ _

theorem add_counts (hc : c.Counts) : (c.add uid).1.Counts := by
  unfold add
  split
  · exact hc
  · split
    · exact hc
    · exact take_counts hc

theorem remove_unnamed (c : UidCount) (uid : String) : (c.remove uid).1.unnamed = c.unnamed := by
  unfold remove
  split_ifs <;> rfl

theorem remove_counts (hc : c.Counts) : (c.remove uid).1.Counts := by
  unfold Counts
  rw [remove_unnamed]
  exact hc

theorem leaves_counts (hc : c.Counts) : (c.leaves uid).Counts := by
  have hr : (c.remove uid).1.Counts := remove_counts hc
  unfold leaves
  split
  all_goals
    rename_i heq
    rw [heq] at hr
  · exact hr
  · exact take_counts hr

theorem take_unnamed (hc : c.Counts) (huid : uid ≠ "") (hnew : uid ∉ c.accounted) :
    (c.take uid).1.unnamed = max 0 (c.unnamed - 1) ∧
      ((c.take uid).2 = true ↔ 0 < c.unnamed) := by
  have hc' : 0 ≤ c.unnamed := hc
  unfold take
  by_cases hpos : c.unnamed ≤ 0
  · rw [if_pos (.inr hpos)]
    refine ⟨?_, ?_⟩
    · dsimp only
      omega
    · simpa using hpos
  · rw [if_neg (not_or.mpr ⟨huid, hpos⟩), if_neg hnew]
    refine ⟨?_, ?_⟩
    · dsimp only
      omega
    · simpa using hpos

theorem take_accounted (c : UidCount) (uid : String) :
    (c.take uid).1.accounted ⊆ insert uid c.accounted := by
  unfold take
  split_ifs
  · exact subset_insert _ _
  · exact subset_insert _ _
  · dsimp only
    split
    · exact empty_subset _
    · exact Subset.refl _

theorem add_unnamed (hc : c.Counts) (huid : uid ≠ "") (hnamed : uid ∉ c.named)
    (hnew : uid ∉ c.accounted) :
    (c.add uid).1.unnamed = max 0 (c.unnamed - 1) ∧
      ((c.add uid).2.2 = true ↔ 0 < c.unnamed) := by
  unfold add
  rw [if_neg huid, if_neg hnamed]
  exact take_unnamed (c := { c with named := insert uid c.named }) hc huid hnew

theorem add_accounted (c : UidCount) (uid : String) :
    (c.add uid).1.accounted ⊆ insert uid c.accounted := by
  unfold add
  split_ifs
  · exact subset_insert _ _
  · exact subset_insert _ _
  · exact take_accounted _ _

theorem remove_of_notMem (hnamed : uid ∉ c.named) : c.remove uid = (c, false) := by
  unfold remove
  rw [if_neg hnamed, ite_self]

theorem remove_named (huid : uid ≠ "") : (c.remove uid).1.named = c.named.erase uid := by
  unfold remove
  rw [if_neg huid]
  split
  · rfl
  · rename_i hnamed
    exact (erase_eq_of_notMem hnamed).symm

theorem leaves_empty (c : UidCount) : c.leaves "" = c := by
  unfold leaves remove
  rw [if_pos rfl]
  rfl

theorem leaves_of_mem (huid : uid ≠ "") (hnamed : uid ∈ c.named) :
    c.leaves uid = { c with named := c.named.erase uid } := by
  unfold leaves remove
  rw [if_neg huid, if_pos hnamed]

theorem leaves_of_notMem (hnamed : uid ∉ c.named) : c.leaves uid = (c.take uid).1 := by
  unfold leaves
  rw [remove_of_notMem hnamed]

theorem leaves_named (huid : uid ≠ "") : (c.leaves uid).named = c.named.erase uid := by
  by_cases hnamed : uid ∈ c.named
  · rw [leaves_of_mem huid hnamed]
  · rw [leaves_of_notMem hnamed, take_named, erase_eq_of_notMem hnamed]

theorem leaves_unnamed (hc : c.Counts) (huid : uid ≠ "")
    (hnew : uid ∉ c.named → uid ∉ c.accounted) : (c.leaves uid).unnamed
      = if uid ∈ c.named then c.unnamed else max 0 (c.unnamed - 1) := by
  by_cases hnamed : uid ∈ c.named
  · rw [leaves_of_mem huid hnamed, if_pos hnamed]
  · rw [leaves_of_notMem hnamed, if_neg hnamed, (take_unnamed hc huid (hnew hnamed)).1]

theorem leaves_accounted (c : UidCount) (huid : uid ≠ "") :
    (c.leaves uid).accounted ⊆ insert uid c.accounted := by
  by_cases hnamed : uid ∈ c.named
  · rw [leaves_of_mem huid hnamed]
    exact subset_insert _ _
  · rw [leaves_of_notMem hnamed]
    exact take_accounted _ _

theorem take_allNamed (h : c.unnamed = 0) : c.take uid = (c, false) :=
  if_pos (.inr (le_of_eq h))

theorem add_allNamed (h : c.unnamed = 0) : (c.add uid).1.unnamed = 0 := by
  have htake : take { c with named := insert uid c.named } uid = _ := take_allNamed h
  unfold add
  split
  · exact h
  · split
    · exact h
    · rw [htake]
      exact h

theorem leaves_allNamed (h : c.unnamed = 0) : (c.leaves uid).unnamed = 0 := by
  have hremove : (c.remove uid).1.unnamed = 0 := (remove_unnamed c uid).trans h
  unfold leaves
  split <;> rename_i heq <;> rw [heq] at hremove
  · exact hremove
  · rw [take_allNamed hremove]
    exact hremove

/-- A total that is not negative does not wrap, nor does any where nothing is
named. -/
def Plain (c : UidCount) (total : Int) : Prop := 0 ≤ total ∨ c.named = ∅

theorem beyond_of_plain {total : Int} (h : c.Plain total) :
    c.beyond total = total - c.named.card := by
  refine if_neg ?_
  rintro ⟨hneg, hlow, hwraps⟩
  rcases h with h | h
  · omega
  · rw [h, card_empty] at hwraps
    omega

theorem rebaseline_unnamed {total : Int} (h : c.Plain total) :
    (c.rebaseline total).unnamed = max 0 (total - c.named.card) := by
  unfold rebaseline
  dsimp only
  rw [beyond_of_plain h]
  omega

theorem rebaseline_accounted (c : UidCount) (total : Int) :
    (c.rebaseline total).accounted ⊆ c.named := by
  unfold rebaseline
  dsimp only
  split_ifs
  all_goals first | exact empty_subset _ | exact Subset.refl _

theorem rebaseline_counts : (c.rebaseline total).Counts := by
  unfold Counts rebaseline
  dsimp only
  split <;> omega

theorem total_rebaseline {total : Int} (h : c.Plain total) :
    (c.rebaseline total).total = max total c.named.card := by
  unfold UidCount.total
  rw [rebaseline_unnamed h]
  show (c.named.card : Int) + _ = _
  omega

theorem total_nonneg (hc : c.Counts) : 0 ≤ c.total := by
  unfold Counts at hc
  unfold UidCount.total
  omega

theorem total_pos (hc : c.Counts) (hmem : uid ∈ c.named) : 0 < c.total := by
  have hcard : 0 < c.named.card := card_pos.mpr ⟨uid, hmem⟩
  unfold Counts at hc
  unfold UidCount.total
  omega

theorem total_add (huid : uid ≠ "") (hnamed : uid ∉ c.named) :
    ((c.add uid).1.total = c.total + 1) ∨
    ((c.add uid).1.total = c.total ∧ (c.add uid).2.2 = true ∧ 0 < c.unnamed) := by
  have hcard := card_insert_of_notMem hnamed
  unfold add
  rw [if_neg huid, if_neg hnamed]
  unfold take UidCount.total
  dsimp only
  split_ifs
  · left
    dsimp only
    omega
  · left
    dsimp only
    omega
  all_goals
    rename_i hpos _ _
    obtain ⟨-, hpos⟩ := not_or.mp hpos
    refine .inr ⟨?_, rfl, not_le.mp hpos⟩
    dsimp only
    omega

/-- Naming a MicroVM takes one out of the unnamed part, or leaves it as it is. -/
theorem add_unnamed_or (c : UidCount) (uid : String) :
    (c.add uid).2.2 = true ∨ (c.add uid).1.unnamed = c.unnamed := by
  unfold add
  split_ifs
  · exact .inr rfl
  · exact .inr rfl
  · unfold take
    split_ifs
    · exact .inr rfl
    · exact .inr rfl
    · exact .inl rfl

theorem unnamed_leaves (c : UidCount) (uid : String) : c.unnamed - 1 ≤ (c.leaves uid).unnamed := by
  have hremove := remove_unnamed c uid
  unfold leaves
  split
  all_goals
    rename_i heq
    rw [heq] at hremove
    dsimp only at hremove
  · omega
  · unfold take
    split_ifs <;> dsimp only <;> omega

theorem total_take (c : UidCount) (uid : String) : c.total - 1 ≤ (c.take uid).1.total := by
  unfold take UidCount.total
  split_ifs <;> dsimp only <;> omega

theorem total_remove (c : UidCount) (uid : String) : c.total - 1 ≤ (c.remove uid).1.total := by
  have hcard := pred_card_le_card_erase (s := c.named) (a := uid)
  unfold remove UidCount.total
  split_ifs <;> dsimp only <;> omega

theorem total_leaves (c : UidCount) (uid : String) : c.total - 1 ≤ (c.leaves uid).total := by
  by_cases huid : uid = ""
  · rw [huid, leaves_empty]
    omega
  by_cases hnamed : uid ∈ c.named
  · have hcard := card_erase_of_mem hnamed
    rw [leaves_of_mem huid hnamed]
    unfold UidCount.total
    dsimp only
    omega
  · rw [leaves_of_notMem hnamed]
    exact total_take c uid

end UidCount

end FlintlockRunner.Poolmgr

import FlintlockRunner.Poolmgr.UidCount
import Mathlib.Algebra.Order.Ring.Int

/-!
# Whole runs of a count kept by uid

Any sequence of the operations of `uidCount`, from the empty count on.

- `WellFormed` is the invariant of the three parts: the unnamed part is never
  negative, while something is unnamed every named uid is accounted for, and
  once nothing is unnamed `accounted` is empty.
- `Charged` follows the operations on single MicroVMs after a rebaseline. The
  uids charged to the unnamed part are a set `D` of new ones, which stays a set
  when `accounted` is cleared: this is why no uid is charged twice.
- `Fits` bounds the parts by the reported totals and the number of uids, so the
  `int32` arithmetic of the source is that of the integers.
-/

namespace FlintlockRunner.Poolmgr.UidCount

open Finset

/-- One call of a method of `uidCount`, or of `leaves`. -/
inductive Op
  | add (uid : String)
  | remove (uid : String)
  | take (uid : String)
  | leaves (uid : String)
  | reset
  | rebaseline (total : Int)
  deriving DecidableEq

namespace Op

/-- The count after a call. -/
def apply (c : UidCount) : Op → UidCount
  | add uid => (c.add uid).1
  | remove uid => (c.remove uid).1
  | take uid => (c.take uid).1
  | leaves uid => c.leaves uid
  | reset => c.reset
  | rebaseline total => c.rebaseline total

/-- The MicroVM a call is about. -/
def uid? : Op → Option String
  | add uid | remove uid | take uid | leaves uid => some uid
  | reset | rebaseline _ => none

/-- A call about one MicroVM of `U`. -/
def Over (U : Finset String) (op : Op) : Prop := ∃ uid ∈ U, op.uid? = some uid

/-- A reported total is an `int32` that is not negative. -/
def Reported : Op → Prop
  | rebaseline total => 0 ≤ total ∧ total < 2 ^ 31
  | _ => True

instance : DecidablePred Reported
  | rebaseline total => inferInstanceAs (Decidable (0 ≤ total ∧ total < 2 ^ 31))
  | add _ | remove _ | take _ | leaves _ | reset => .isTrue trivial

end Op

/-- The count after a sequence of calls. -/
def run (c : UidCount) (ops : List Op) : UidCount := ops.foldl Op.apply c

/-- The uids a sequence of calls names. -/
def uids (ops : List Op) : Finset String := (ops.filterMap Op.uid?).toFinset

variable {c : UidCount} {uid : String} {op : Op} {U N : Finset String}

@[simp] theorem run_cons (c : UidCount) (op : Op) (ops : List Op) :
    c.run (op :: ops) = (op.apply c).run ops := rfl

theorem run_append (c : UidCount) (before since : List Op) :
    c.run (before ++ since) = (c.run before).run since := List.foldl_append

variable {ops : List Op}

theorem run_inv {I : UidCount → Prop} (hc : I c) (hstep : ∀ c, ∀ op ∈ ops, I c → I (op.apply c)) :
    I (c.run ops) := by
  induction ops generalizing c with
  | nil => exact hc
  | cons op ops ih =>
    have hop : I (op.apply c) := hstep c op List.mem_cons_self hc
    exact ih hop fun c op' hmem => hstep c op' (List.mem_cons_of_mem op hmem)

/-! ## What one call does -/

theorem take_cases (c : UidCount) (huid : uid ≠ "") :
    ((c.unnamed ≤ 0 ∨ uid ∈ c.accounted) ∧ (c.take uid).1 = c) ∨
    (0 < c.unnamed ∧ uid ∉ c.accounted ∧ (c.take uid).1 =
      { named := c.named
        unnamed := c.unnamed - 1
        accounted := if c.unnamed - 1 = 0 then ∅ else insert uid c.accounted }) := by
  unfold take
  by_cases hpos : c.unnamed ≤ 0
  · left
    simp [hpos]
  · by_cases hmem : uid ∈ c.accounted
    · left
      simp [hmem]
    · right
      refine ⟨by omega, hmem, ?_⟩
      simp [huid, hpos, hmem]

/-- A call about one MicroVM drops its name, or leaves the names as they are, or
charges it once it may have named it. -/
theorem apply_cases (c : UidCount) (hop : op.uid? = some uid) :
    (∃ N, (N = c.named ∨ N = c.named.erase uid) ∧ op.apply c = { c with named := N }) ∨
    (uid ≠ "" ∧ ∃ N, (N = c.named ∨ N = insert uid c.named) ∧
      op.apply c = (take { c with named := N } uid).1) := by
  by_cases huid : uid = ""
  · left
    refine ⟨c.named, .inl rfl, ?_⟩
    cases op <;> simp_all [Op.uid?, Op.apply, add, remove, take, leaves_empty]
  cases op with
  | add uid' =>
    cases hop
    by_cases hmem : uid ∈ c.named
    · left
      exact ⟨c.named, .inl rfl, by simp [Op.apply, add, huid, hmem]⟩
    · right
      exact ⟨huid, _, .inr rfl, by simp [Op.apply, add, huid, hmem]⟩
  | remove uid' =>
    cases hop
    left
    refine ⟨_, .inr rfl, ?_⟩
    by_cases hmem : uid ∈ c.named
    · simp [Op.apply, remove, huid, hmem]
    · simp [Op.apply, remove, huid, hmem]
  | take uid' =>
    cases hop
    right
    exact ⟨huid, _, .inl rfl, rfl⟩
  | leaves uid' =>
    cases hop
    by_cases hmem : uid ∈ c.named
    · left
      exact ⟨_, .inr rfl, leaves_of_mem huid hmem⟩
    · right
      exact ⟨huid, _, .inl rfl, leaves_of_notMem hmem⟩
  | reset => cases hop
  | rebaseline total => cases hop

/-! ## Well-formed counts -/

/-- What holds between the parts of a count. -/
structure WellFormed (c : UidCount) : Prop where
  unnamed_nonneg : 0 ≤ c.unnamed
  named_accounted : 0 < c.unnamed → c.named ⊆ c.accounted
  accounted_empty : c.unnamed = 0 → c.accounted = ∅

theorem wellFormed_empty : empty.WellFormed where
  unnamed_nonneg := le_refl 0
  named_accounted := fun h => absurd h (by decide)
  accounted_empty := fun _ => rfl

theorem WellFormed.mono (hc : c.WellFormed) (hN : N ⊆ c.named) :
    WellFormed { c with named := N } where
  unnamed_nonneg := hc.unnamed_nonneg
  named_accounted := fun hpos => hN.trans (hc.named_accounted hpos)
  accounted_empty := hc.accounted_empty

/-- A uid may be named before it is charged: charging it accounts for it. -/
theorem WellFormed.take (hc : c.WellFormed) (huid : uid ≠ "") (hN : N ⊆ insert uid c.named) :
    (UidCount.take { c with named := N } uid).1.WellFormed := by
  have hnonneg := hc.unnamed_nonneg
  obtain ⟨hidle, heq⟩ | ⟨hpos, -, heq⟩ := take_cases { c with named := N } huid
  · rw [heq]
    refine ⟨hnonneg, ?_, hc.accounted_empty⟩
    intro hpos
    have hmem : uid ∈ c.accounted := hidle.resolve_left (not_le.mpr hpos)
    exact hN.trans (insert_subset hmem (hc.named_accounted hpos))
  · rw [heq]
    refine ⟨?_, ?_, ?_⟩
    · dsimp only at hpos ⊢
      omega
    · intro hleft
      dsimp only at hpos hleft ⊢
      rw [if_neg (by omega)]
      exact hN.trans (insert_subset_insert uid (hc.named_accounted hpos))
    · intro hzero
      exact if_pos hzero

theorem wellFormed_rebaseline (c : UidCount) (total : Int) : (c.rebaseline total).WellFormed := by
  refine ⟨rebaseline_counts total, ?_, ?_⟩
  · intro hpos
    unfold UidCount.rebaseline at hpos ⊢
    dsimp only at hpos ⊢
    rw [if_neg (ne_of_gt hpos)]
  · intro hzero
    exact if_pos hzero

theorem WellFormed.apply (hc : c.WellFormed) (op : Op) : (op.apply c).WellFormed := by
  cases huid : op.uid? with
  | none =>
    cases op with
    | reset => exact wellFormed_empty
    | rebaseline total => exact wellFormed_rebaseline c total
    | _ => cases huid
  | some uid =>
    obtain ⟨N, hN, heq⟩ | ⟨hne, N, hN, heq⟩ := apply_cases c huid
    · rw [heq]
      refine hc.mono ?_
      rcases hN with rfl | rfl
      · exact Subset.refl _
      · exact erase_subset _ _
    · rw [heq]
      refine hc.take hne ?_
      rcases hN with rfl | rfl
      · exact subset_insert _ _
      · exact Subset.refl _

theorem WellFormed.run (hc : c.WellFormed) (ops : List Op) : (c.run ops).WellFormed :=
  run_inv hc fun _ op _ h => h.apply op

/-! ## Charging each MicroVM once -/

/-- From `c₀` to `c` by calls about MicroVMs of `U`: the MicroVMs of `D` were
charged to the unnamed part, all of them new to `c₀`. -/
structure Charged (U : Finset String) (c₀ c : UidCount) (D : Finset String) : Prop where
  subset : D ⊆ U
  fresh : Disjoint c₀.named D
  unnamed : c.unnamed = c₀.unnamed - D.card
  accounted : 0 < c.unnamed → c.accounted = c₀.accounted ∪ D
  named : c.named ⊆ c₀.named ∪ U
  kept : c₀.named ⊆ c.named ∪ U

variable {c₀ : UidCount} {D : Finset String}

theorem charged_refl (U : Finset String) (c : UidCount) : Charged U c c ∅ where
  subset := empty_subset U
  fresh := disjoint_empty_right _
  unnamed := by simp
  accounted := fun _ => (union_empty _).symm
  named := subset_union_left
  kept := subset_union_left

/-- Naming MicroVMs of `U`, or dropping their names, charges nothing. -/
theorem Charged.rename (h : Charged U c₀ c D) (hN : N ⊆ c.named ∪ U) (hkept : c.named ⊆ N ∪ U) :
    Charged U c₀ { c with named := N } D where
  subset := h.subset
  fresh := h.fresh
  unnamed := h.unnamed
  accounted := h.accounted
  named := hN.trans (union_subset h.named subset_union_right)
  kept := h.kept.trans (union_subset hkept subset_union_right)

theorem Charged.take (h : Charged U c₀ c D) (hc₀ : c₀.WellFormed) (huid : uid ≠ "")
    (hmem : uid ∈ U) : ∃ D', Charged U c₀ (c.take uid).1 D' := by
  obtain ⟨-, heq⟩ | ⟨hpos, hnew, heq⟩ := take_cases c huid
  · rw [heq]
    exact ⟨D, h⟩
  · -- something was unnamed from `c₀` on, so what `c₀` named is accounted for
    have hunnamed := h.unnamed
    rw [h.accounted hpos, notMem_union] at hnew
    have hnamed : uid ∉ c₀.named :=
      fun hmem => hnew.1 (hc₀.named_accounted (by omega) hmem)
    rw [heq]
    refine ⟨insert uid D, insert_subset hmem h.subset, ?_, ?_, ?_, h.named, h.kept⟩
    · exact disjoint_insert_right.mpr ⟨hnamed, h.fresh⟩
    · rw [card_insert_of_notMem hnew.2]
      dsimp only
      omega
    · intro hleft
      dsimp only at hleft ⊢
      rw [if_neg (by omega), h.accounted hpos, union_insert]

theorem Charged.apply (h : Charged U c₀ c D) (hc₀ : c₀.WellFormed) (hop : op.Over U) :
    ∃ D', Charged U c₀ (op.apply c) D' := by
  obtain ⟨uid, hmem, huid⟩ := hop
  have hinsert : ∀ s : Finset String, insert uid s ⊆ s ∪ U := fun s =>
    insert_subset (mem_union_right s hmem) subset_union_left
  obtain ⟨N, hN, heq⟩ | ⟨hne, N, hN, heq⟩ := apply_cases c huid
  · rw [heq]
    refine ⟨D, ?_⟩
    rcases hN with rfl | rfl
    · exact h
    · refine h.rename ((erase_subset _ _).trans subset_union_left) ?_
      exact (insert_erase_subset uid c.named).trans (hinsert _)
  · rw [heq]
    rcases hN with rfl | rfl
    · exact h.take hc₀ hne hmem
    · have hnamed : c.named ⊆ insert uid c.named ∪ U :=
        (subset_insert _ _).trans subset_union_left
      exact (h.rename (hinsert _) hnamed).take hc₀ hne hmem

theorem charged_run (hc₀ : c₀.WellFormed) (hops : ∀ op ∈ ops, op.Over U) :
    ∃ D, Charged U c₀ (c₀.run ops) D := by
  refine run_inv (I := fun c => ∃ D, Charged U c₀ c D) ⟨∅, charged_refl U c₀⟩ ?_
  rintro c op hop ⟨D, h⟩
  exact h.apply hc₀ (hops op hop)

/-- The charged MicroVMs and those whose names were dropped are different ones of
`U`, and so are those that were named. -/
theorem Charged.total (h : Charged U c₀ c D) : (c.total - c₀.total).natAbs ≤ U.card := by
  have hgained : c.named.card ≤ c₀.named.card + U.card :=
    (card_le_card h.named).trans (card_union_le _ _)
  have hlost : c₀.named.card + D.card ≤ c.named.card + U.card := by
    rw [← card_union_of_disjoint h.fresh]
    have hsubset : c₀.named ∪ D ⊆ c.named ∪ U :=
      union_subset h.kept (h.subset.trans subset_union_right)
    exact (card_le_card hsubset).trans (card_union_le _ _)
  have hunnamed := h.unnamed
  unfold UidCount.total
  omega

/-! ## The range of `int32` -/

/-- The parts of a count over the uids of `V` are in the range of `int32`. -/
structure Fits (V : Finset String) (c : UidCount) : Prop where
  named : c.named ⊆ V
  reported : 0 < c.unnamed → c.unnamed + c.accounted.card < 2 ^ 31

variable {V : Finset String}

theorem fits_empty (V : Finset String) : empty.Fits V where
  named := empty_subset V
  reported := fun h => absurd h (by decide)

theorem Fits.take (h : c.Fits V) (huid : uid ≠ "") : (c.take uid).1.Fits V := by
  obtain ⟨-, heq⟩ | ⟨hpos, hnew, heq⟩ := take_cases c huid
  · rw [heq]
    exact h
  · have hreported := h.reported hpos
    rw [heq]
    refine ⟨h.named, ?_⟩
    intro hleft
    dsimp only at hleft ⊢
    rw [if_neg (by omega), card_insert_of_notMem hnew]
    omega

theorem Fits.rebaseline (h : c.Fits V) {total : Int} (hreport : 0 ≤ total)
    (htotal : total < 2 ^ 31) : (c.rebaseline total).Fits V := by
  refine ⟨h.named, ?_⟩
  intro hpos
  have hunnamed := rebaseline_unnamed (c := c) (.inl hreport)
  have haccounted := card_le_card (rebaseline_accounted c total)
  omega

theorem Fits.apply (h : c.Fits V) (hop : op.Reported) (hV : ∀ uid, op.uid? = some uid → uid ∈ V) :
    (op.apply c).Fits V := by
  cases huid : op.uid? with
  | none =>
    cases op with
    | reset => exact fits_empty V
    | rebaseline total => exact h.rebaseline hop.1 hop.2
    | _ => cases huid
  | some uid =>
    obtain ⟨N, hN, heq⟩ | ⟨hne, N, hN, heq⟩ := apply_cases c huid
    · rw [heq]
      refine ⟨?_, h.reported⟩
      rcases hN with rfl | rfl
      · exact h.named
      · exact (erase_subset _ _).trans h.named
    · rw [heq]
      have hnamed : N ⊆ V := by
        rcases hN with rfl | rfl
        · exact h.named
        · exact insert_subset (hV uid huid) h.named
      have hfits : Fits V { c with named := N } := ⟨hnamed, h.reported⟩
      exact hfits.take hne

theorem fits_run (hops : ∀ op ∈ ops, op.Reported) : (empty.run ops).Fits (uids ops) := by
  refine run_inv (fits_empty _) ?_
  intro c op hop h
  refine h.apply (hops op hop) ?_
  intro uid huid
  exact List.mem_toFinset.mpr (List.mem_filterMap.mpr ⟨op, hop, huid⟩)

theorem Fits.total (h : c.Fits V) (hc : c.WellFormed) (hV : V.card < 2 ^ 31) :
    c.total < 2 ^ 31 := by
  have hnonneg := hc.unnamed_nonneg
  have hnamed := card_le_card h.named
  unfold UidCount.total
  by_cases hpos : 0 < c.unnamed
  · have haccounted := card_le_card (hc.named_accounted hpos)
    have hreported := h.reported hpos
    omega
  · omega

/-! ## Every run -/

/-- After any sequence of calls the count is well formed and its total is an
`int32`; a rebaseline makes the total the larger of the reported one and the
number of named uids; and the calls about the MicroVMs of a set since the last
rebaseline or reset change the total by at most the size of that set. -/
theorem uid_charged_once (ops : List Op) (hreported : ∀ op ∈ ops, op.Reported)
    (huids : (uids ops).card < 2 ^ 31) :
    (empty.run ops).WellFormed ∧
    (0 ≤ (empty.run ops).total ∧ (empty.run ops).total < 2 ^ 31) ∧
    (∀ total, 0 ≤ total → total < 2 ^ 31 →
      ((empty.run ops).rebaseline total).total = max total (empty.run ops).named.card) ∧
    ∀ before since U, ops = before ++ since → (∀ op ∈ since, op.Over U) →
      ((empty.run ops).total - (empty.run before).total).natAbs ≤ U.card := by
  have hwell : (empty.run ops).WellFormed := wellFormed_empty.run ops
  refine ⟨hwell, ⟨total_nonneg hwell.unnamed_nonneg, (fits_run hreported).total hwell huids⟩,
    fun total hreport _ => total_rebaseline (.inl hreport), ?_⟩
  rintro before since U rfl hover
  rw [run_append]
  obtain ⟨D, hcharged⟩ := charged_run (wellFormed_empty.run before) hover
  exact hcharged.total

/-- The calls of one MicroVM that leaves, comes back and leaves again. -/
def oneUidCalls : List Op := [.leaves "a", .add "a", .remove "a", .take "a", .leaves "a"]

/-- One MicroVM takes one out of a polled total of two. -/
theorem uid_charged_once_polled :
    (empty.run (.rebaseline 2 :: oneUidCalls)).total = 1 ∧
      ((empty.run (.rebaseline 2 :: oneUidCalls)).total
        - (empty.run [.rebaseline 2]).total).natAbs ≤ Finset.card {"a"} := by
  refine ⟨by decide, ?_⟩
  have hover : ∀ op ∈ oneUidCalls, op.uid? = some "a" := by decide
  exact (uid_charged_once _ (by decide) (by decide)).2.2.2 [.rebaseline 2] oneUidCalls {"a"} rfl
    fun op hop => ⟨"a", mem_singleton_self _, hover op hop⟩

end FlintlockRunner.Poolmgr.UidCount

import FlintlockRunner.Poolmgr.Lifecycle
import FlintlockRunner.Poolmgr.Tracker

/-!
# A poll followed by a replay

A new subscription is replayed the recent events of a Pool, and a poll may have
counted all of them already. The Tracker's doc comment says that such a replay
"can neither inflate nor deflate" a count. Replayed availability is harmless,
but a replayed `VM_CLAIMED` of a MicroVM no event has named takes one of the
MicroVMs the poll left unnamed: `replay_deflates`.

`shown` is what the count comes to, in terms of the replayed events alone, and
`replay_settled_iff` is exactly when the Tracker ends with the poll's count or
owes another poll.
-/

namespace FlintlockRunner.Poolmgr

open Finset PoolLife UidCount

/-! ## What a replay shows -/

/-- The last count the Pool was told: by the replay, or by the poll. -/
def base (polled : Int) (w : List Event) : Int := (told w).elim polled fun c => c.available

/-- The last target the Pool was told. -/
def target (size : Int) (w : List Event) : Int := (told w).elim size BelowTarget.target

/-- The count after a replay: the last count without the claims since, or the
MicroVMs of the replay that are unclaimed, whichever is more. -/
def shown (polled : Int) (w : List Event) : Int :=
  max (base polled w - (claimedIn (since w)).card) (fresh w).card

/-- The count is zero, or below the target after a MicroVM became available
since the last counts. -/
def LowAt (polled size : Int) (w : List Event) : Prop :=
  shown polled w = 0 ∨ ((bornIn (since w)).Nonempty ∧
    (target size w ≤ 0 ∨ shown polled w < target size w))

/-- The count was low at some moment after which the replay has no counts. -/
def Low (polled size : Int) (w : List Event) : Prop :=
  ∃ seen rest, w = seen ++ rest ∧ (∀ e ∈ rest, e.counts? = none) ∧ LowAt polled size seen

section Concat

variable {polled size : Int} {w : List Event} {e : Event}

theorem base_concat (h : e.counts? = none) : base polled (w ++ [e]) = base polled w := by
  unfold base
  rw [told_concat, h]
  rfl

theorem target_concat (h : e.counts? = none) : target size (w ++ [e]) = target size w := by
  unfold target
  rw [told_concat, h]
  rfl

theorem low_concat (h : e.counts? = none) (hlow : Low polled size w) :
    Low polled size (w ++ [e]) := by
  obtain ⟨seen, rest, rfl, hrest, hlow⟩ := hlow
  refine ⟨seen, rest ++ [e], List.append_assoc _ _ _, ?_, hlow⟩
  intro e' he'
  rcases List.mem_append.mp he' with he' | he'
  · exact hrest e' he'
  · rw [List.mem_singleton.mp he']
    exact h

theorem low_concat_cases (hlow : Low polled size (w ++ [e])) :
    LowAt polled size (w ++ [e]) ∨ (e.counts? = none ∧ Low polled size w) := by
  obtain ⟨seen, rest, hsplit, hrest, hlow⟩ := hlow
  rcases List.eq_nil_or_concat rest with rfl | ⟨rest', last, rfl⟩
  · rw [List.append_nil] at hsplit
    exact .inl (hsplit ▸ hlow)
  · rw [List.concat_eq_append, ← List.append_assoc] at hsplit
    obtain ⟨rfl, hlast⟩ := List.append_inj' hsplit rfl
    cases hlast
    rw [List.concat_eq_append] at hrest
    exact .inr ⟨hrest e (List.mem_append_right _ List.mem_cons_self), seen, rest', rfl,
      fun e' he' => hrest e' (List.mem_append_left _ he'), hlow⟩

end Concat

/-! ## The Pool along a replay -/

/-- How the bookkeeping of the Tracker comes to `shown`. -/
structure Shows (polled size : Int) (now : PoolLife) (w : List Event) (p : TrackedPool) :
    Prop where
  declared : p.declared = true
  exhausted : p.exhausted = false
  target : p.size = target size w
  named : p.available.named = fresh w
  unnamed : p.available.unnamed
    = max 0 (base polled w - (claimedIn (since w)).card - (fresh w).card)
  accounted : ∀ uid ∈ p.available.accounted,
    Life.available.rank ≤ (now.phase uid).rank ∧
    (now.phase uid = .available → uid ∈ bornIn w)

variable (p : TrackedPool)

/-- An event that is about no available MicroVM leaves `available` alone. -/
theorem TrackedPool.apply_elsewhere {uid : String} {type : EventType}
    (htype : type.elsewhere = true) (hnot : uid ∉ p.available.named) :
    (p.apply uid type).1.available = p.available ∧ (p.apply uid type).1.exhausted = false ∧
      (p.apply uid type).1.size = p.size := by
  have hremove : (p.available.remove uid).1 = p.available := by
    rw [remove_of_notMem hnot]
  cases type with
  | vmProvisioned => exact ⟨rfl, rfl, rfl⟩
  | vmReleased | vmDeletedDueToExpiry | vmDeletedOnRelease => exact ⟨hremove, rfl, rfl⟩
  | _ => cases htype

/-- Doubt comes with an availability event, and counts end it and the debt. -/
theorem TrackedPool.apply_unsettled {e : Event} (hnone : e.counts? = none)
    (hborn : e.type ≠ .vmAvailable) : (p.apply e.vmUID e.type).1.unsettled = p.unsettled := by
  unfold Event.counts? at hnone
  revert hnone hborn
  cases e.type with
  | poolSizeBelowTarget counts =>
    rintro (rfl : counts = none) -
    rfl
  | vmAvailable => exact fun _ h => absurd rfl h
  | _ => exact fun _ _ => rfl

theorem TrackedPool.fold_owing {e : Event} (hnone : e.counts? = none) :
    (p.fold e.vmUID e.type).1.needsPoll = p.needsPoll := by
  unfold Event.counts? at hnone
  revert hnone
  cases e.type with
  | poolSizeBelowTarget counts =>
    rintro (rfl : counts = none)
    rfl
  | _ => exact fun _ => rfl

section Steps

variable {polled size : Int} {now now' : PoolLife} {w : List Event} {e : Event} {p : TrackedPool}

namespace Shows

variable (h : Shows polled size now w p)
include h

theorem counts : p.available.Counts := by
  unfold Counts
  rw [h.unnamed]
  exact le_max_left _ _

theorem availableCount : p.availableCount = shown polled w := by
  unfold TrackedPool.availableCount
  rw [h.declared, h.exhausted]
  show (p.available.named.card : Int) + p.available.unnamed = _
  rw [h.named, h.unnamed]
  unfold shown
  omega

variable (hw : Witnessed now w)
include hw

theorem born (huid : e.vmUID ≠ "")
    (htype : e.type = .vmAvailable) (hphase : now.phase e.vmUID = .provisioning) :
    Shows polled size (now.move e.vmUID .available) (w ++ [e]) (p.apply e.vmUID e.type).1 ∧
      ((p.available.add e.vmUID).2.2 = true ↔ 0 < p.available.unnamed) := by
  obtain ⟨hfresh, hnot⟩ := hw.fresh_born htype hphase
  have hnone : e.counts? = none := counts?_eq_none (htype ▸ nofun)
  have hnew : e.vmUID ∉ p.available.accounted := by
    intro hmem
    have := (h.accounted _ hmem).1
    rw [hphase] at this
    exact absurd this (by decide)
  obtain ⟨hunnamed, htook⟩ :=
    add_unnamed h.counts huid (h.named ▸ hnot) hnew
  refine ⟨?_, htook⟩
  rw [htype]
  refine ⟨h.declared, rfl, h.target.trans (target_concat hnone).symm, ?_, ?_, ?_⟩
  · show (p.available.add e.vmUID).1.named = _
    rw [add_named huid, h.named, hfresh]
  · show (p.available.add e.vmUID).1.unnamed = _
    rw [hunnamed, h.unnamed, base_concat hnone, since_concat hnone, claimedIn_concat, htype,
      if_neg nofun, hfresh, card_insert_of_notMem hnot]
    push_cast
    omega
  · intro uid hmem
    have hborn : uid ∈ insert e.vmUID (bornIn w) → uid ∈ bornIn (w ++ [e]) := by
      rw [bornIn_concat, if_pos htype]
      exact id
    rcases mem_insert.mp (add_accounted _ _ hmem) with rfl | hold
    · rw [phase_move_self]
      exact ⟨le_refl _, fun _ => hborn (mem_insert_self _ _)⟩
    · have hne : uid ≠ e.vmUID := fun heq => hnew (heq ▸ hold)
      rw [phase_move_of_ne hne]
      exact ⟨(h.accounted uid hold).1, fun hav =>
        hborn (mem_insert_of_mem ((h.accounted uid hold).2 hav))⟩

theorem claimed (huid : e.vmUID ≠ "")
    (htype : e.type = .vmClaimed) (hphase : now.phase e.vmUID = .available) :
    Shows polled size (now.move e.vmUID .leased) (w ++ [e]) (p.apply e.vmUID e.type).1 := by
  have hfresh := Witnessed.fresh_claimed w htype
  have hcard := hw.card_claimed htype hphase
  have hnone : e.counts? = none := counts?_eq_none (htype ▸ nofun)
  have hborn : bornIn (w ++ [e]) = bornIn w := by
    rw [bornIn_concat, htype, if_neg nofun]
  -- a MicroVM that is available and not named was available before the replay
  have hnew : e.vmUID ∉ p.available.named → e.vmUID ∉ p.available.accounted := by
    intro hnot hmem
    rw [h.named] at hnot
    exact hnot (hw.mem_fresh.mpr ⟨(h.accounted _ hmem).2 hphase, hphase⟩)
  rw [htype]
  refine ⟨h.declared, h.exhausted, h.target.trans (target_concat hnone).symm, ?_, ?_, ?_⟩
  · show (p.available.leaves e.vmUID).named = _
    rw [leaves_named huid, h.named, hfresh]
  · show (p.available.leaves e.vmUID).unnamed = _
    rw [leaves_unnamed h.counts huid hnew, h.named, h.unnamed, base_concat hnone,
      hcard, hfresh]
    by_cases hmem : e.vmUID ∈ fresh w
    · have hpos := card_pos.mpr ⟨_, hmem⟩
      rw [if_pos hmem, card_erase_of_mem hmem]
      omega
    · rw [if_neg hmem, erase_eq_of_notMem hmem]
      omega
  · intro uid hmem
    rw [hborn]
    rcases mem_insert.mp (leaves_accounted _ huid hmem) with rfl | hold
    · rw [phase_move_self]
      exact ⟨by decide, nofun⟩
    · by_cases heq : uid = e.vmUID
      · rw [heq, phase_move_self]
        exact ⟨by decide, nofun⟩
      · rw [phase_move_of_ne heq]
        exact h.accounted uid hold

theorem told {c : BelowTarget}
    (htype : e.type = .poolSizeBelowTarget (some c)) (htrue : c.toPoolStatus = now.status) :
    Shows polled size now (w ++ [e]) (p.apply e.vmUID e.type).1 := by
  have hcounts := counts?_of_type htype
  have htold : Poolmgr.told (w ++ [e]) = some c := by
    rw [told_concat, hcounts]
    rfl
  have hfresh : fresh (w ++ [e]) = fresh w :=
    Witnessed.fresh_keep (by rw [htype]; nofun) (by rw [htype]; nofun)
  rw [htype]
  refine ⟨h.declared, rfl, ?_, ?_, ?_, ?_⟩
  · unfold Poolmgr.target
    rw [htold]
    rfl
  · exact h.named.trans hfresh.symm
  · show (p.available.rebaseline c.available).unnamed = _
    have hreport : 0 ≤ c.available :=
      congrArg PoolStatus.available htrue ▸ Int.natCast_nonneg _
    unfold base
    rw [rebaseline_unnamed (.inl hreport), h.named, htold, since_counts hcounts, hfresh]
    show _ = max 0 (c.available - 0 - _)
    rw [Int.sub_zero]
  · intro uid hmem
    have hnamed : uid ∈ fresh w := h.named ▸ rebaseline_accounted _ _ hmem
    obtain ⟨hborn, hphase⟩ := hw.mem_fresh.mp hnamed
    rw [hphase, bornIn_concat, htype, if_neg nofun]
    exact ⟨le_refl _, fun _ => hborn⟩

theorem elsewhere {l : Life}
    (htype : e.type.elsewhere = true) (hphase : now.phase e.vmUID ≠ .available)
    (hl : l ≠ .available) (hrank : (now.phase e.vmUID).rank ≤ l.rank) :
    Shows polled size (now.move e.vmUID l) (w ++ [e]) (p.apply e.vmUID e.type).1 := by
  obtain ⟨hne₁, hne₂, hcounts⟩ := ne_of_elsewhere htype
  have hnone := counts?_eq_none hcounts
  have hnot : e.vmUID ∉ p.available.named := by
    rw [h.named]
    exact fun hmem => hphase (hw.mem_fresh.mp hmem).2
  obtain ⟨havail, hex, hsize⟩ := p.apply_elsewhere htype hnot
  refine ⟨?_, hex, ?_, ?_, ?_, ?_⟩
  · exact (p.apply_declared _ _).trans h.declared
  · exact hsize.trans (h.target.trans (target_concat hnone).symm)
  · rw [havail, h.named, Witnessed.fresh_keep hne₁ hne₂]
  · rw [havail, h.unnamed, base_concat hnone, since_concat hnone, claimedIn_concat,
      if_neg hne₂, Witnessed.fresh_keep hne₁ hne₂]
  · intro uid hmem
    rw [havail] at hmem
    obtain ⟨hle, hborn⟩ := h.accounted uid hmem
    rw [bornIn_concat, if_neg hne₁]
    by_cases heq : uid = e.vmUID
    · rw [heq] at hle ⊢
      rw [phase_move_self]
      exact ⟨hle.trans hrank, fun h => absurd h hl⟩
    · rw [phase_move_of_ne heq]
      exact ⟨hle, hborn⟩

theorem step (hl : Lived now e now') :
    Shows polled size now' (w ++ [e]) (p.apply e.vmUID e.type).1 := by
  cases hl with
  | counts c htype htrue => exact h.told hw htype htrue
  | born huid htype hphase => exact (h.born hw huid htype hphase).1
  | claimed huid htype hphase => exact h.claimed hw huid htype hphase
  | elsewhere l htype hphase hl hrank => exact h.elsewhere hw htype hphase hl hrank

end Shows

/-! ### When the Pool owes a poll -/

/-- The Tracker knows every available MicroVM by name. -/
def Exact (now : PoolLife) (p : TrackedPool) : Prop :=
  p.available.named = now.available ∧ p.available.unnamed = 0

/-- A Pool that will come out right: it owes a poll, or it knows every MicroVM,
or there was nothing to count. -/
def Safe (polled : Int) (now : PoolLife) (w : List Event) (p : TrackedPool) : Prop :=
  p.needsPoll = true ∨ Exact now p ∨ (polled ≤ 0 ∧ told w = none)

/-- An event as the Pool lives through it leaves every available MicroVM named. -/
theorem Exact.step (hx : Exact now p) (h : Shows polled size now w p) (hw : Witnessed now w)
    (hl : Lived now e now') (hnone : e.counts? = none) : Exact now' (p.apply e.vmUID e.type).1 := by
  obtain ⟨hnamed, hunnamed⟩ := hx
  cases hl with
  | counts c htype _ => cases (counts?_of_type htype).symm.trans hnone
  | born huid htype hphase =>
    have hs := (h.born hw huid htype hphase).1
    have hfresh := (hw.fresh_born htype hphase).1
    refine ⟨?_, ?_⟩
    · rw [hs.named, hfresh, available_born, ← hnamed, h.named]
    · have hold := h.unnamed
      have hnew := hs.unnamed
      have hcard : (fresh w).card ≤ (fresh (w ++ [e])).card :=
        card_le_card (hfresh ▸ subset_insert _ _)
      have hne : e.type ≠ .vmClaimed := htype ▸ nofun
      rw [base_concat hnone, since_concat hnone, claimedIn_concat, if_neg hne] at hnew
      omega
  | claimed huid htype hphase =>
    have hs := h.claimed hw huid htype hphase
    have hmem : e.vmUID ∈ p.available.named := hnamed ▸ mem_available.mpr hphase
    refine ⟨?_, ?_⟩
    · rw [hs.named, Witnessed.fresh_claimed w htype,
        available_move (l := .leased) nofun, ← hnamed, h.named]
    · rw [htype]
      show (p.available.leaves e.vmUID).unnamed = 0
      rw [leaves_of_mem huid hmem]
      exact hunnamed
  | elsewhere l htype hphase hl hrank =>
    have hnot : e.vmUID ∉ p.available.named := by
      rw [hnamed, mem_available]
      exact hphase
    obtain ⟨havail, -, -⟩ := p.apply_elsewhere htype hnot
    unfold Exact
    rw [havail, available_move hl, hnamed,
      erase_eq_of_notMem (mem_available.not.mpr hphase)]
    exact ⟨rfl, hunnamed⟩

theorem Safe.step (hx : Safe polled now w p) (h : Shows polled size now w p)
    (hw : Witnessed now w) (hl : Lived now e now') (hnone : e.counts? = none) :
    Safe polled now' (w ++ [e]) (p.apply e.vmUID e.type).1 := by
  rcases hx with hdebt | hx | ⟨hpolled, htold⟩
  · rcases p.apply_needsPoll e.vmUID e.type hdebt with h | ⟨c, htype⟩
    · exact .inl h
    · cases (counts?_of_type htype).symm.trans hnone
  · exact .inr (.inl (hx.step h hw hl hnone))
  · refine .inr (.inr ⟨hpolled, ?_⟩)
    rw [told_concat, hnone, htold]
    rfl

/-- The debt of a Pool along a replay. -/
structure Owes (polled size : Int) (now : PoolLife) (w : List Event) (p : TrackedPool) :
    Prop where
  doubted : p.unsettled = true → (bornIn (since w)).Nonempty
  doubt : p.unsettled = true → p.size ≤ 0 ∨ p.availableCount < p.size → p.needsPoll = true
  debt : p.needsPoll = true → Low polled size w
  zero : p.availableCount = 0 → Safe polled now w p
  births : (bornIn (since w)).Nonempty → p.unsettled = true ∨ Safe polled now w p
  counted : told w ≠ none → bornIn (since w) = ∅ → p.availableCount = now.available.card
  low : Low polled size w → Safe polled now w p

namespace Owes

variable (h : Shows polled size now w p)
include h

theorem of_lowAt
    (hdoubt : p.unsettled = true → p.size ≤ 0 ∨ p.availableCount < p.size → p.needsPoll = true)
    (hzero : p.availableCount = 0 → Safe polled now w p)
    (hbirths : (bornIn (since w)).Nonempty → p.unsettled = true ∨ Safe polled now w p)
    (hlow : LowAt polled size w) : Safe polled now w p := by
  rcases hlow with hlow | ⟨hborn, hlow⟩
  · exact hzero (h.availableCount.trans hlow)
  · rcases hbirths hborn with hun | hsafe
    · rw [← h.target, ← h.availableCount] at hlow
      exact .inl (hdoubt hun hlow)
    · exact hsafe

variable (hw : Witnessed now w)
include hw

theorem step_counts {c : BelowTarget}
    (htype : e.type = .poolSizeBelowTarget (some c)) (htrue : c.toPoolStatus = now.status) :
    Owes polled size now (w ++ [e]) (p.apply e.vmUID e.type).1 := by
  have hs := h.told hw htype htrue
  have hcounts := counts?_of_type htype
  have hun : (p.apply e.vmUID e.type).1.unsettled = false := by
    rw [htype]
    rfl
  have havail : c.available = now.available.card := congrArg PoolStatus.available htrue
  have hcard : (fresh (w ++ [e])).card ≤ now.available.card :=
    card_le_card (hw.concat (.counts c htype htrue)).fresh_subset
  have hshown : shown polled (w ++ [e]) = now.available.card := by
    unfold shown base
    rw [told_concat, hcounts, since_counts hcounts]
    show max (c.available - 0) _ = _
    omega
  have hzero : (p.apply e.vmUID e.type).1.availableCount = 0 →
      Safe polled now (w ++ [e]) (p.apply e.vmUID e.type).1 := by
    intro hzero
    rw [hs.availableCount, hshown, Int.natCast_eq_zero] at hzero
    have hunnamed := hs.unnamed
    unfold base at hunnamed
    rw [told_concat, hcounts, since_counts hcounts] at hunnamed
    refine .inr (.inl ⟨?_, ?_⟩)
    · rw [hs.named, card_eq_zero.mp hzero]
      exact card_eq_zero.mp (by omega)
    · rw [hunnamed]
      show max 0 (c.available - 0 - _) = 0
      omega
  have hdoubt : (p.apply e.vmUID e.type).1.unsettled = true →
      (p.apply e.vmUID e.type).1.size ≤ 0 ∨
        (p.apply e.vmUID e.type).1.availableCount < (p.apply e.vmUID e.type).1.size →
      (p.apply e.vmUID e.type).1.needsPoll = true := by
    rw [hun]
    nofun
  have hbirths : (bornIn (since (w ++ [e]))).Nonempty →
      (p.apply e.vmUID e.type).1.unsettled = true ∨
        Safe polled now (w ++ [e]) (p.apply e.vmUID e.type).1 := by
    rw [since_counts hcounts]
    exact fun hborn => absurd rfl hborn.ne_empty
  refine ⟨?_, hdoubt, ?_, hzero, hbirths, ?_, ?_⟩
  · rw [hun]
    nofun
  · intro hdebt
    rcases (p.apply_needsPoll_iff e.vmUID e.type).mp hdebt with hold | ⟨-, hlow⟩ | ⟨hdoubt, -⟩
    · rw [htype] at hold
      cases hold
    · exact ⟨w ++ [e], [], (List.append_nil _).symm, nofun,
        .inl (hs.availableCount.symm.trans hlow)⟩
    · rw [hun] at hdoubt
      cases hdoubt
  · exact fun _ _ => hs.availableCount.trans hshown
  · intro hlow
    rcases low_concat_cases hlow with hlow | ⟨hnone, -⟩
    · exact of_lowAt hs hdoubt hzero hbirths hlow
    · rw [hcounts] at hnone
      cases hnone

variable (ho : Owes polled size now w p)
include ho

/-- The count knows every MicroVM once none is unnamed, unless a MicroVM that
became available has been guessed about. -/
theorem exact_of_unnamed (htold : told w ≠ none) (hborn : bornIn (since w) = ∅)
    (hunnamed : p.available.unnamed = 0) : Exact now p := by
  refine ⟨?_, hunnamed⟩
  have hcard := ho.counted htold hborn
  have hsub : p.available.named ⊆ now.available := h.named ▸ hw.fresh_subset
  refine eq_of_subset_of_card_le hsub ?_
  unfold TrackedPool.availableCount at hcard
  rw [h.declared, h.exhausted] at hcard
  have htotal : (p.available.named.card : Int) + p.available.unnamed = now.available.card := hcard
  omega

/-- While nothing became available since the counts, the count is the Pool
Manager's. -/
theorem counted_step (hl : Lived now e now') (hnone : e.counts? = none)
    (htold : told (w ++ [e]) ≠ none) (hborn : bornIn (since (w ++ [e])) = ∅) :
    shown polled (w ++ [e]) = now'.available.card := by
  rw [told_concat, hnone] at htold
  rw [since_concat hnone, bornIn_concat] at hborn
  have hne : e.type ≠ .vmAvailable := by
    intro htype
    rw [if_pos htype] at hborn
    exact insert_ne_empty _ _ hborn
  rw [if_neg hne] at hborn
  have hcount : shown polled w = now.available.card :=
    h.availableCount.symm.trans (ho.counted htold hborn)
  unfold shown at hcount ⊢
  rw [base_concat hnone]
  cases hl with
  | counts c htype _ => cases (counts?_of_type htype).symm.trans hnone
  | born _ htype _ => exact absurd htype hne
  | claimed huid htype hphase =>
    have hin : e.vmUID ∈ now.available := mem_available.mpr hphase
    have hpos := card_pos.mpr ⟨_, hin⟩
    rw [hw.card_claimed htype hphase, Witnessed.fresh_claimed w htype,
      available_move (l := .leased) nofun, card_erase_of_mem hin]
    by_cases hmem : e.vmUID ∈ fresh w
    · have hpos' := card_pos.mpr ⟨_, hmem⟩
      rw [card_erase_of_mem hmem]
      omega
    · -- a MicroVM that is not named is one of the unnamed
      have hlt : (fresh w).card < now.available.card :=
        card_lt_card ⟨hw.fresh_subset, fun hsub => hmem (hsub hin)⟩
      rw [erase_eq_of_notMem hmem]
      omega
  | elsewhere l htype hphase hl hrank =>
    have hne' := (ne_of_elsewhere htype).2.1
    rw [since_concat hnone, claimedIn_concat, if_neg hne', Witnessed.fresh_keep hne hne', hcount,
      available_move hl,
      erase_eq_of_notMem (mem_available.not.mpr hphase)]

/-- After an availability event the Pool is in doubt or safe. -/
theorem births_step (hl : Lived now e now') (htype : e.type = .vmAvailable) :
    (p.apply e.vmUID e.type).1.unsettled = true ∨ Safe polled now w p := by
  cases hl with
  | counts c htype' _ => exact absurd (htype.symm.trans htype') nofun
  | claimed _ htype' _ => exact absurd (htype.symm.trans htype') nofun
  | elsewhere l htype' _ _ _ => exact absurd htype (ne_of_elsewhere htype').1
  | born huid _ hphase =>
    have htook := (h.born hw huid htype hphase).2
    have hun : (p.apply e.vmUID e.type).1.unsettled
        = (p.unsettled || (p.available.add e.vmUID).2.2) := by
      rw [htype]
      rfl
    rw [hun, Bool.or_eq_true, htook]
    by_cases hpos : 0 < p.available.unnamed
    · exact .inl (.inr hpos)
    have hunnamed : p.available.unnamed = 0 := le_antisymm (not_lt.mp hpos) h.counts
    rcases eq_empty_or_nonempty (bornIn (since w)) with hborn | hborn
    · right
      by_cases htold : told w = none
      · -- only the poll's MicroVMs were counted, and none is left
        refine ho.zero ?_
        unfold TrackedPool.availableCount
        rw [h.declared, h.exhausted]
        show (p.available.named.card : Int) + p.available.unnamed = 0
        rw [since_of_told htold] at hborn
        rw [h.named, fresh, hborn, empty_sdiff, hunnamed]
        rfl
      · exact .inr (.inl (ho.exact_of_unnamed h hw htold hborn hunnamed))
    · exact (ho.births hborn).imp_left .inl

theorem step_event (hl : Lived now e now') (hnone : e.counts? = none) :
    Owes polled size now' (w ++ [e]) (p.apply e.vmUID e.type).1 := by
  have hs := h.step hw hl
  have hiff := p.apply_needsPoll_iff e.vmUID e.type
  have hsafe : Safe polled now w p → Safe polled now' (w ++ [e]) (p.apply e.vmUID e.type).1 :=
    fun hx => hx.step h hw hl hnone
  have hdoubted : (p.apply e.vmUID e.type).1.unsettled = true →
      (bornIn (since (w ++ [e]))).Nonempty := by
    rw [since_concat hnone, bornIn_concat]
    by_cases htype : e.type = .vmAvailable
    · rw [if_pos htype]
      exact fun _ => insert_nonempty _ _
    · rw [if_neg htype, p.apply_unsettled hnone htype]
      exact ho.doubted
  have hdoubt : (p.apply e.vmUID e.type).1.unsettled = true →
      (p.apply e.vmUID e.type).1.size ≤ 0 ∨
        (p.apply e.vmUID e.type).1.availableCount < (p.apply e.vmUID e.type).1.size →
      (p.apply e.vmUID e.type).1.needsPoll = true :=
    fun hun hlow => hiff.mpr (.inr (.inr ⟨hun, hlow⟩))
  have hzero : (p.apply e.vmUID e.type).1.availableCount = 0 →
      Safe polled now' (w ++ [e]) (p.apply e.vmUID e.type).1 := by
    intro hzero
    by_cases hpos : 0 < p.availableCount
    · exact .inl (p.apply_down _ _ hpos hzero)
    · exact hsafe (ho.zero (le_antisymm (not_lt.mp hpos)
        (TrackedPool.availableCount_nonneg h.counts)))
  have hbirths : (bornIn (since (w ++ [e]))).Nonempty →
      (p.apply e.vmUID e.type).1.unsettled = true ∨
        Safe polled now' (w ++ [e]) (p.apply e.vmUID e.type).1 := by
    rw [since_concat hnone, bornIn_concat]
    by_cases htype : e.type = .vmAvailable
    · exact fun _ => (ho.births_step h hw hl htype).imp_right hsafe
    · rw [if_neg htype, p.apply_unsettled hnone htype]
      exact fun hborn => (ho.births hborn).imp_right hsafe
  refine ⟨hdoubted, hdoubt, ?_, hzero, hbirths, ?_, ?_⟩
  · intro hdebt
    rcases hiff.mp hdebt with hold | ⟨-, hzero⟩ | ⟨hun, hlow⟩
    · rw [p.fold_owing hnone] at hold
      exact low_concat hnone (ho.debt hold)
    · exact ⟨w ++ [e], [], (List.append_nil _).symm, nofun,
        .inl (hs.availableCount.symm.trans hzero)⟩
    · rw [hs.target, hs.availableCount] at hlow
      exact ⟨w ++ [e], [], (List.append_nil _).symm, nofun, .inr ⟨hdoubted hun, hlow⟩⟩
  · intro htold hborn
    exact hs.availableCount.trans (ho.counted_step h hw hl hnone htold hborn)
  · intro hlow
    rcases low_concat_cases hlow with hlow | ⟨-, hlow⟩
    · exact of_lowAt hs hdoubt hzero hbirths hlow
    · exact hsafe (ho.low hlow)

theorem step (hl : Lived now e now') :
    Owes polled size now' (w ++ [e]) (p.apply e.vmUID e.type).1 := by
  cases hcounts : e.counts? with
  | none => exact ho.step_event h hw hl hcounts
  | some c =>
    cases hl with
    | counts c htype htrue => exact step_counts h hw htype htrue
    | born _ htype _ | claimed _ htype _ =>
      cases (counts?_eq_none (htype ▸ nofun)).symm.trans hcounts
    | elsewhere l htype _ _ _ =>
      cases (counts?_eq_none (ne_of_elsewhere htype).2.2).symm.trans hcounts

end Owes

theorem Shows.woke (h : Shows polled size now w p) (ch : Nat) (woken : Bool) :
    Shows polled size now w (p.woke ch woken) := by
  cases woken
  · exact h
  · exact ⟨h.declared, h.exhausted, h.target, h.named, h.unnamed, h.accounted⟩

theorem Owes.woke (h : Owes polled size now w p) (ch : Nat) (woken : Bool) :
    Owes polled size now w (p.woke ch woken) := by
  cases woken
  · exact h
  · exact ⟨h.doubted, h.doubt, h.debt, h.zero, h.births, h.counted, h.low⟩

end Steps

/-! ## The whole replay -/

variable (ref : PoolRef)

/-- A fresh declared Pool takes a poll's answer and then the events of a
stretch. -/
def replayed (size : Int) (status : PoolStatus) (w : List Event) : PoolTracker :=
  w.foldl (fun t e => (t.apply e).1)
    ((PoolTracker.new.track ref true).1.applyPoll ref 0 size status).1

theorem replayed_nil (size : Int) (status : PoolStatus) (now : PoolLife) :
    ∃ p, (replayed ref size status []).pools.lookup ref = some p ∧
      Shows status.available size now [] p ∧ Owes status.available size now [] p := by
  have hlookup := (PoolTracker.new.track ref true).1.lookup_applyPoll ref ref 0 size status
  rw [PoolTracker.lookup_track, if_pos rfl, if_pos rfl, Option.map_some] at hlookup
  set q : TrackedPool := { PoolTracker.new.poolAt ref with declared := true } with hq
  have hgen : q.generation = 0 := rfl
  rw [if_neg (not_not.mpr hgen)] at hlookup
  have hs : Shows status.available size now [] (q.settle size status) := by
    refine ⟨rfl, rfl, rfl, rfl, ?_, ?_⟩
    · show (q.available.rebaseline status.available).unnamed = max 0 (status.available - 0 - 0)
      rw [rebaseline_unnamed (.inr rfl), Int.sub_zero]
      rfl
    · exact fun uid hmem => absurd (rebaseline_accounted _ _ hmem)
        (notMem_empty uid)
  have hzero : (q.settle size status).availableCount = 0 →
      Safe status.available now [] (q.settle size status) := by
    intro hzero
    rw [hs.availableCount] at hzero
    have hpolled : max (status.available - 0) 0 = 0 := hzero
    exact .inr (.inr ⟨by omega, rfl⟩)
  refine ⟨_, hlookup, hs.woke _ _, Owes.woke ?_ _ _⟩
  refine ⟨nofun, nofun, nofun, hzero, fun h => absurd rfl h.ne_empty, fun h => absurd rfl h, ?_⟩
  rintro ⟨seen, rest, hsplit, -, hlow⟩
  rw [(List.append_eq_nil_iff.mp hsplit.symm).1] at hlow
  exact Owes.of_lowAt hs nofun hzero (fun h => absurd rfl h.ne_empty) hlow

theorem replayed_shows {ref : PoolRef} {before : PoolLife} (size : Int) (status : PoolStatus)
    (w : List Event) : ∀ now, (lifecycle ref).exec before w = some now →
      Witnessed now w ∧ ∃ p, (replayed ref size status w).pools.lookup ref = some p ∧
        Shows status.available size now w p ∧ Owes status.available size now w p := by
  induction w using List.reverseRecOn with
  | nil =>
    rintro now ⟨⟩
    exact ⟨.nil _, replayed_nil ref size status _⟩
  | append_singleton w e ih =>
    intro now hexec
    obtain ⟨mid, hmid, hnext⟩ := Machine.exec_concat hexec
    obtain ⟨hpool, hl⟩ := lived hnext
    obtain ⟨hw, p, hp, hs, ho⟩ := ih mid hmid
    have hlookup : (replayed ref size status (w ++ [e])).pools.lookup ref
        = some ((p.apply e.vmUID e.type).1.woke (replayed ref size status w).made
          (p.apply e.vmUID e.type).2) := by
      unfold replayed
      rw [List.foldl_append]
      show ((replayed ref size status w).apply e).1.pools.lookup ref = _
      rw [PoolTracker.lookup_apply, if_pos hpool.symm, hpool, hp]
      rfl
    exact ⟨hw.concat hl, _, hlookup, (hs.step hw hl).woke _ _, (ho.step hs hw hl).woke _ _⟩

/-- **When a replay comes out right.** After a poll that reports the Pool as
the history leaves it, and a replay of the end of that history, the Pool shows
the poll's count or owes another poll exactly if the events replayed come to
that count, or came to a low one after the last counts among them. -/
theorem replay_settled_iff {ref : PoolRef} {old window : List Event} {after : PoolLife}
    (h : (lifecycle ref).exec .new (old ++ window) = some after) (size : Int) :
    ∃ p, (replayed ref size after.status window).pools.lookup ref = some p ∧
      ((p.availableCount = after.status.available ∨ p.needsPoll = true) ↔
        (shown after.status.available window = after.status.available ∨
          Low after.status.available size window)) := by
  rw [Machine.exec_append] at h
  obtain ⟨before, -, hexec⟩ := Option.bind_eq_some_iff.mp h
  obtain ⟨hw, p, hp, hs, ho⟩ := replayed_shows size after.status window after hexec
  refine ⟨p, hp, ?_⟩
  rw [hs.availableCount]
  constructor
  · exact fun hx => hx.imp_right ho.debt
  · rintro (heq | hlow)
    · exact .inl heq
    · rcases ho.low hlow with hdebt | ⟨hnamed, hunnamed⟩ | ⟨hpolled, htold⟩
      · exact .inr hdebt
      · left
        have hfresh : fresh window = after.available := hs.named.symm.trans hnamed
        have hle := hs.unnamed
        rw [hunnamed, hfresh] at hle
        show shown _ window = (after.available.card : Int)
        unfold shown
        rw [hfresh]
        omega
      · left
        have hcard := card_le_card hw.fresh_subset
        have hpolled' : (after.available.card : Int) ≤ 0 := hpolled
        show shown _ window = (after.available.card : Int)
        unfold shown base
        rw [htold]
        show max ((after.available.card : Int) - _) _ = _
        omega

/-! ## A count deflated by a replay -/

/-- Three MicroVMs of a Pool become available. -/
def threeBorn : List Event :=
  ["a", "b", "c"].flatMap fun uid => [⟨ref, uid, .vmProvisioned⟩, ⟨ref, uid, .vmAvailable⟩]

/-- **A replay deflates a polled count.** Of three MicroVMs one is claimed; a
poll reports the two that are left and the claim is replayed. The Pool shows
one, and owes nothing. -/
theorem replay_deflates : ∃ after p,
    (lifecycle default).exec .new (threeBorn default ++ [⟨default, "a", .vmClaimed⟩])
      = some after ∧
    (replayed default 3 after.status [⟨default, "a", .vmClaimed⟩]).pools.lookup default = some p ∧
    after.status.available = 2 ∧ p.availableCount = 1 ∧ p.needsPoll = false :=
  ⟨_, _, rfl, rfl, rfl, rfl, rfl⟩

theorem replay_settled_iff_born : ∃ after p,
    (lifecycle default).exec .new ([] ++ threeBorn default) = some after ∧
    (replayed default 3 after.status (threeBorn default)).pools.lookup default = some p ∧
      ((p.availableCount = after.status.available ∨ p.needsPoll = true) ↔
        (shown after.status.available (threeBorn default) = after.status.available ∨
          Low after.status.available 3 (threeBorn default))) := by
  have hexec : (lifecycle default).exec .new ([] ++ threeBorn default) = some _ := rfl
  obtain ⟨p, hp, hiff⟩ := replay_settled_iff hexec 3
  exact ⟨_, p, hexec, hp, hiff⟩

end FlintlockRunner.Poolmgr

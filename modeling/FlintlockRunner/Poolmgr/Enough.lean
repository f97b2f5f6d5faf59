import FlintlockRunner.Poolmgr.Feed

/-!
# An entry along a stretch of events

What a stretch of one Pool's events does to the set of its available MicroVMs,
and what it does to the Tracker's entry for it. The names an entry holds move
as the set does. `Enough` says that an entry counts the whole set or owes a
poll; each kind of event keeps it, as long as the names are names of available
MicroVMs.
-/

namespace FlintlockRunner.Poolmgr

open UidCount

/-! ## The available MicroVMs along a stretch of events -/

/-- What an event does to the available MicroVMs of its Pool. -/
def EventType.moves (type : EventType) (uid : String) (avail : Finset String) : Finset String :=
  if uid = "" then avail
  else if type = .vmAvailable then insert uid avail
  else if type.takesAway then avail.erase uid
  else avail

theorem EventType.moves_none {type : EventType} (hcome : type ≠ .vmAvailable)
    (hgo : type.takesAway = false) (uid : String) (avail : Finset String) :
    type.moves uid avail = avail := by
  unfold EventType.moves
  rw [if_neg hcome, hgo, if_neg Bool.false_ne_true, ite_self]

theorem EventType.moves_takesAway {type : EventType} (hgo : type.takesAway = true) (uid : String)
    {avail : Finset String} (hempty : "" ∉ avail) : type.moves uid avail = avail.erase uid := by
  have hcome : type ≠ .vmAvailable := by
    rintro rfl
    cases hgo
  unfold EventType.moves
  by_cases huid : uid = ""
  · rw [if_pos huid, huid, Finset.erase_eq_of_notMem hempty]
  · rw [if_neg huid, if_neg hcome, if_pos hgo]

/-- The available MicroVMs after a stretch of events of one Pool. -/
def availableAfter (avail : Finset String) (w : List Event) : Finset String :=
  w.foldl (fun avail e => e.type.moves e.vmUID avail) avail

theorem EventType.moves_mono (type : EventType) (uid : String) {a b : Finset String}
    (h : a ⊆ b) : type.moves uid a ⊆ type.moves uid b := by
  unfold EventType.moves
  split_ifs
  · exact h
  · exact Finset.insert_subset_insert uid h
  · exact Finset.erase_subset_erase uid h
  · exact h

theorem availableAfter_mono (w : List Event) : ∀ {a b : Finset String}, a ⊆ b →
    availableAfter a w ⊆ availableAfter b w := by
  induction w with
  | nil => exact id
  | cons e w ih => exact fun h => ih (e.type.moves_mono e.vmUID h)

theorem availableAfter_concat (a : Finset String) (w : List Event) (e : Event) :
    availableAfter a (w ++ [e]) = e.type.moves e.vmUID (availableAfter a w) :=
  List.foldl_concat ..

theorem availableAfter_suffix {w log : List Event} (h : w <:+ log) :
    availableAfter ∅ w ⊆ availableAfter ∅ log := by
  obtain ⟨before, rfl⟩ := h
  unfold availableAfter
  rw [List.foldl_append]
  exact availableAfter_mono w (Finset.empty_subset _)

theorem availableAfter_nonempty_uid (w : List Event) : ∀ {a : Finset String}, "" ∉ a →
    "" ∉ availableAfter a w := by
  induction w with
  | nil => exact id
  | cons e w ih =>
    intro a h
    refine ih ?_
    show "" ∉ e.type.moves e.vmUID a
    unfold EventType.moves
    split_ifs with huid
    · exact h
    · exact fun hin => (Finset.mem_insert.mp hin).elim (fun heq => huid heq.symm) h
    · exact fun hin => h (Finset.mem_of_mem_erase hin)
    · exact h

namespace TrackedPool

variable (p : TrackedPool)

theorem apply_named (uid : String) (type : EventType) :
    (p.apply uid type).1.available.named = type.moves uid p.available.named := by
  show (p.counted.fold uid type).1.available.named = _
  unfold EventType.moves
  by_cases huid : uid = ""
  · subst huid
    rw [if_pos rfl]
    cases type with
    | vmClaimed => exact congrArg named (leaves_empty _)
    | poolSizeBelowTarget counts => cases counts <;> rfl
    | _ => rfl
  · rw [if_neg huid]
    cases type with
    | vmAvailable => exact add_named huid
    | vmClaimed => exact leaves_named huid
    | vmReleased | vmDeletedDueToExpiry | vmDeletedOnRelease | vmHookFailed _ =>
      exact remove_named huid
    | poolSizeBelowTarget counts => cases counts <;> rfl
    | unspecified | vmProvisioned => rfl

theorem woke_apply (ch : Nat) (woken : Bool) (uid : String) (type : EventType) :
    ((p.woke ch woken).apply uid type).1 = (p.apply uid type).1.woke ch woken := by
  cases woken with
  | false => rfl
  | true =>
    cases type with
    | poolSizeBelowTarget counts => cases counts <;> rfl
    | _ => rfl

variable (w : List Event)

/-- A stretch of events applied to an entry. -/
def applyAll : TrackedPool :=
  w.foldl (fun p e => (p.apply e.vmUID e.type).1) p

theorem applyAll_concat (e : Event) :
    p.applyAll (w ++ [e]) = ((p.applyAll w).apply e.vmUID e.type).1 :=
  List.foldl_concat ..

theorem applyAll_named : ∀ p : TrackedPool,
    (p.applyAll w).available.named = availableAfter p.available.named w := by
  induction w with
  | nil => exact fun _ => rfl
  | cons e w ih =>
    intro p
    refine (ih (p.apply e.vmUID e.type).1).trans ?_
    rw [apply_named]
    rfl

theorem applyAll_declared : ∀ p : TrackedPool,
    (p.applyAll w).declared = p.declared := by
  induction w with
  | nil => exact fun _ => rfl
  | cons e w ih => exact fun p => (ih _).trans (apply_declared p _ _)

theorem applyAll_woke (ch : Nat) (woken : Bool) (w : List Event) : ∀ p : TrackedPool,
    (p.woke ch woken).applyAll w = (p.applyAll w).woke ch woken := by
  induction w with
  | nil => exact fun _ => rfl
  | cons e w ih =>
    intro p
    show (((p.woke ch woken).apply e.vmUID e.type).1).applyAll w = _
    rw [woke_apply]
    exact ih _

/-! ## Everything is counted by name -/

/-- Everything that the Tracker counts of a Pool is named. -/
def AllNamed : Prop := p.exhausted = false ∧ p.available.unnamed = 0

variable {p : TrackedPool} {type : EventType}

theorem AllNamed.woke (hp : p.AllNamed) (ch : Nat) (woken : Bool) : (p.woke ch woken).AllNamed := by
  cases woken <;> exact hp

theorem fold_allNamed (uid : String) (h : p.available.unnamed = 0)
    (hcounts : ∀ counts, type ≠ .poolSizeBelowTarget (some counts)) :
    (p.fold uid type).1.available.unnamed = 0 := by
  cases type with
  | vmAvailable => exact add_allNamed h
  | vmClaimed => exact leaves_allNamed h
  | vmReleased | vmDeletedDueToExpiry | vmDeletedOnRelease | vmHookFailed _ =>
    exact (remove_unnamed _ _).trans h
  | poolSizeBelowTarget counts =>
    cases counts with
    | none => exact h
    | some counts => exact absurd rfl (hcounts counts)
  | vmProvisioned | unspecified => exact h

theorem applyAll_allNamed : ∀ {p : TrackedPool}, p.available.unnamed = 0 →
    (∀ e ∈ w, e.counts? = none) → (p.applyAll w).available.unnamed = 0 := by
  induction w with
  | nil => exact fun h _ => h
  | cons e w ih =>
    intro p h hw
    obtain ⟨hnone, hw⟩ := List.forall_mem_cons.mp hw
    refine ih (fold_allNamed (p := p.counted) e.vmUID h fun counts htype => ?_) hw
    cases hnone.symm.trans (counts?_of_type htype)

theorem AllNamed.apply (hp : p.AllNamed) (uid : String) (type : EventType)
    (hcounts : ∀ counts, type = .poolSizeBelowTarget (some counts) →
      0 ≤ counts.available ∧ counts.available ≤ p.available.named.card) :
    (p.apply uid type).1.AllNamed := by
  obtain ⟨hex, hunnamed⟩ := hp
  cases type with
  | vmAvailable => exact ⟨rfl, add_allNamed hunnamed⟩
  | vmClaimed => exact ⟨hex, leaves_allNamed hunnamed⟩
  | vmReleased | vmDeletedDueToExpiry | vmDeletedOnRelease =>
    exact ⟨rfl, (remove_unnamed _ _).trans hunnamed⟩
  | vmHookFailed _ => exact ⟨hex, (remove_unnamed _ _).trans hunnamed⟩
  | poolSizeBelowTarget counts =>
    cases counts with
    | none => exact ⟨hex, hunnamed⟩
    | some counts =>
      obtain ⟨hreport, hle⟩ := hcounts counts rfl
      refine ⟨rfl, (rebaseline_unnamed (.inl hreport)).trans (max_eq_left ?_)⟩
      exact Int.sub_nonpos_of_le hle
  | vmProvisioned => exact ⟨rfl, hunnamed⟩
  | unspecified => exact ⟨hex, hunnamed⟩

theorem AllNamed.availableCount (hp : p.AllNamed) (hdecl : p.declared = true) :
    p.availableCount = p.available.named.card := by
  unfold TrackedPool.availableCount total
  rw [hdecl, hp.1, hp.2, Int.add_zero]
  rfl

/-! ## Enough is counted -/

/-- The entry owes a poll or counts every available MicroVM. -/
def Enough (avail : Finset String) (p : TrackedPool) : Prop :=
  p.needsPoll = true ∨ (avail.card : Int) ≤ p.available.total

variable {p : TrackedPool} {avail : Finset String} {uid : String} {type : EventType}

theorem enough_woke (ch : Nat) (woken : Bool) :
    (p.woke ch woken).Enough avail ↔ p.Enough avail := by
  unfold Enough
  rw [woke_needsPoll, woke_available]

/-- A MicroVM becomes available. Where it takes the place of one that a poll
counted without naming it, the Pool is below its target and owes a poll. -/
theorem Enough.born (h : p.Enough avail) (hdecl : p.declared = true)
    (hnamed : p.available.named ⊆ avail) (huid : uid ≠ "") (hnew : uid ∉ avail)
    (htarget : p.available.unnamed ≤ 0 ∨ p.size ≤ 0 ∨ (avail.card : Int) + 1 ≤ p.size) :
    (p.apply uid .vmAvailable).1.Enough (insert uid avail) := by
  have hcard := Finset.card_insert_of_notMem hnew
  have htotal : (p.apply uid .vmAvailable).1.available.total = (p.available.add uid).1.total :=
    rfl
  have hsize : (p.apply uid .vmAvailable).1.size = p.size := rfl
  have hcount : (p.apply uid .vmAvailable).1.availableCount
      = (p.apply uid .vmAvailable).1.available.total := by
    unfold availableCount
    rw [apply_declared, hdecl]
    rfl
  rcases h with h | h
  · exact .inl ((p.apply_needsPoll_iff uid .vmAvailable).mpr (.inl h))
  rcases total_add huid (fun hin => hnew (hnamed hin)) with hadd | ⟨hadd, htook, hpos⟩
  · right
    omega
  · by_cases hstill : (avail.card : Int) + 1 ≤ p.available.total
    · right
      omega
    · -- the new MicroVM hides one that was counted
      left
      refine (p.apply_needsPoll_iff uid .vmAvailable).mpr (.inr (.inr ⟨?_, ?_⟩))
      · show (p.unsettled || (p.available.add uid).2.2) = true
        rw [htook, Bool.or_true]
      · rw [hcount, hsize]
        omega

theorem Enough.of_total (h : p.Enough avail) {avail' : Finset String}
    (hcounts : ∀ counts, type ≠ .poolSizeBelowTarget (some counts))
    (htotal : (avail.card : Int) ≤ p.available.total →
      (avail'.card : Int) ≤ (p.apply uid type).1.available.total) :
    (p.apply uid type).1.Enough avail' := by
  rcases h with h | h
  · rcases p.apply_needsPoll uid type h with h | ⟨counts, heq⟩
    · exact .inl h
    · exact absurd heq (hcounts counts)
  · exact .inr (htotal h)

theorem Enough.gone (h : p.Enough avail) (hmem : uid ∈ avail)
    (htype : type.takesAway = true) : (p.apply uid type).1.Enough (avail.erase uid) := by
  have hcard := Finset.card_erase_add_one hmem
  have hleaves := p.available.total_leaves uid
  have hremove := p.available.total_remove uid
  refine h.of_total ?_ fun h => ?_
  · rintro counts rfl
    cases htype
  · cases type with
    | vmClaimed =>
      show _ ≤ (p.available.leaves uid).total
      omega
    | vmReleased | vmDeletedDueToExpiry | vmDeletedOnRelease | vmHookFailed _ =>
      show _ ≤ (p.available.remove uid).1.total
      omega
    | unspecified | vmProvisioned | vmAvailable | poolSizeBelowTarget _ => cases htype

theorem Enough.told (p : TrackedPool) (uid : String) {counts : BelowTarget}
    (htrue : counts.available = avail.card) :
    (p.apply uid (.poolSizeBelowTarget (some counts))).1.Enough avail := by
  right
  show _ ≤ (p.available.rebaseline counts.available).total
  rw [total_rebaseline (.inl (htrue ▸ Int.natCast_nonneg _)), htrue]
  exact le_max_left _ _

theorem Enough.other (h : p.Enough avail) (hnamed : p.available.named ⊆ avail)
    (hborn : type ≠ .vmAvailable) (hclaimed : type ≠ .vmClaimed)
    (hcounts : ∀ counts, type ≠ .poolSizeBelowTarget (some counts))
    (huid : type.takesAway = true → uid ∉ avail) : (p.apply uid type).1.Enough avail := by
  have hremove : type.takesAway = true → (p.available.remove uid).1 = p.available :=
    fun h => congrArg Prod.fst (remove_of_notMem fun hin => huid h (hnamed hin))
  refine h.of_total hcounts fun h => ?_
  cases type with
  | vmAvailable => exact absurd rfl hborn
  | vmClaimed => exact absurd rfl hclaimed
  | vmReleased | vmDeletedDueToExpiry | vmDeletedOnRelease | vmHookFailed _ =>
    show _ ≤ (p.available.remove uid).1.total
    rw [hremove rfl]
    exact h
  | poolSizeBelowTarget counts =>
    cases counts with
    | none => exact h
    | some counts => exact absurd rfl (hcounts counts)
  | unspecified | vmProvisioned => exact h

end TrackedPool

/-! ## What the Pool Manager has reported -/

/-- What is known of a Pool from reports and events: the names, how many available
MicroVMs were reported beyond them, the target, and whether a poll is owed. -/
structure Report where
  names : Finset String
  beyond : Nat
  target : Int
  owed : Bool

namespace Report

/-- A report of `available` MicroVMs to one who knows `names`. -/
def counted (names : Finset String) (available target : Int) : Report :=
  ⟨names, (available - names.card).toNat, target, false⟩

/-- One more event. Counts are a new report; the claim of a MicroVM that has no
name takes one of those beyond the names. -/
def hear (r : Report) (e : Event) : Report :=
  match e.counts? with
  | some counts => counted r.names counts.available counts.target
  | none =>
    { r with
      names := e.type.moves e.vmUID r.names
      beyond := if e.type = .vmClaimed ∧ e.vmUID ∉ r.names then r.beyond - 1 else r.beyond }

/-- A stretch of events. -/
def hearAll (r : Report) (w : List Event) : Report := w.foldl hear r

/-- Nothing is known of the available MicroVMs any more. -/
def forgotten (r : Report) : Report := { r with names := ∅, beyond := 0 }

/-- A poll is owed, or every available MicroVM has a name, or those without one are
among the ones reported beyond the names and the Pool is not above its target. -/
def Covers (avail : Finset String) (r : Report) : Prop :=
  r.owed = true ∨ avail ⊆ r.names ∨
    ((avail \ r.names).card ≤ r.beyond ∧ (r.target ≤ 0 ∨ (avail.card : Int) ≤ r.target))

instance (avail : Finset String) (r : Report) : Decidable (r.Covers avail) :=
  inferInstanceAs (Decidable (_ ∨ _ ∨ _))

end Report

namespace TrackedPool

/-- What an entry knows. -/
def report (p : TrackedPool) : Report :=
  ⟨p.available.named, p.available.unnamed.toNat, p.size, p.needsPoll⟩

/-- The entry is as good as a report: it owes a poll, or is in doubt and still reads
its target, or counts as many MicroVMs beyond the names. -/
structure Keeps (p : TrackedPool) (r : Report) : Prop where
  names : p.available.named = r.names
  target : p.size = r.target
  counts : p.available.Counts
  beyond : p.needsPoll = true ∨ r.owed = false ∧
    ((p.unsettled = true ∧ 0 < p.size ∧ p.size ≤ p.available.total) ∨
      (r.beyond : Int) ≤ p.available.unnamed)

variable {p : TrackedPool} {r : Report} {avail : Finset String} {uid : String} {type : EventType}

theorem keeps_report (h : p.available.Counts) : p.Keeps p.report where
  names := rfl
  target := rfl
  counts := h
  beyond := by
    cases hdebt : p.needsPoll with
    | true => exact .inl rfl
    | false => exact .inr ⟨hdebt, .inr (Int.toNat_of_nonneg h).le⟩

theorem keeps_counted {c : UidCount} {available : Int} (h : p.available = c.rebaseline available) :
    p.Keeps (.counted c.named available p.size) where
  names := by
    rw [h]
    rfl
  target := rfl
  counts := by
    rw [h]
    exact rebaseline_counts _
  beyond := by
    have hcounts : 0 ≤ (c.rebaseline available).unnamed := rebaseline_counts _
    refine .inr ⟨rfl, .inr ?_⟩
    rw [h]
    show ((available - c.named.card).toNat : Int) ≤ _
    by_cases hreport : 0 ≤ available
    · rw [rebaseline_unnamed (.inl hreport)]
      omega
    · omega

theorem keeps_forgotten : ({ p with exhausted := true, available := .empty } : TrackedPool).Keeps
    p.report.forgotten where
  names := rfl
  target := rfl
  counts := counts_empty
  beyond := by
    cases hdebt : p.needsPoll with
    | true => exact .inl rfl
    | false => exact .inr ⟨hdebt, .inr (le_refl 0)⟩

/-- **A report that covers what is available** leaves an entry that keeps it
counting enough. -/
theorem Keeps.enough (h : p.Keeps r) (hcovers : r.Covers avail) : p.Enough avail := by
  have hcounts : 0 ≤ p.available.unnamed := h.counts
  have htotal : p.available.total = p.available.named.card + p.available.unnamed := rfl
  have htarget := h.target
  rw [h.names] at htotal
  rcases h.beyond with hdebt | ⟨howed, hbeyond⟩
  · exact .inl hdebt
  right
  rcases hcovers with hdebt | hnamed | ⟨hrest, hbelow⟩
  · cases howed.symm.trans hdebt
  · have hcard := Finset.card_le_card hnamed
    omega
  · rcases hbeyond with ⟨-, hpos, hreads⟩ | hunnamed
    · omega
    · have hcard := Finset.card_le_card_sdiff_add_card (s := avail) (t := r.names)
      omega

theorem fold_size (p : TrackedPool) (uid : String)
    (hcounts : ∀ counts, type ≠ .poolSizeBelowTarget (some counts)) :
    (p.fold uid type).1.size = p.size := by
  cases type with
  | poolSizeBelowTarget counts =>
    cases counts with
    | none => rfl
    | some counts => exact absurd rfl (hcounts counts)
  | _ => rfl

theorem fold_unsettled (uid : String)
    (hcounts : ∀ counts, type ≠ .poolSizeBelowTarget (some counts)) (h : p.unsettled = true) :
    (p.fold uid type).1.unsettled = true := by
  cases type with
  | vmAvailable =>
    show (p.unsettled || (p.available.add uid).2.2) = true
    rw [h]
    rfl
  | poolSizeBelowTarget counts =>
    cases counts with
    | none => exact h
    | some counts => exact absurd rfl (hcounts counts)
  | _ => exact h

/-- An entry in doubt owes a poll, or reads its target. -/
theorem apply_doubted (h : (p.apply uid type).1.unsettled = true) :
    (p.apply uid type).1.needsPoll = true ∨ (0 < (p.apply uid type).1.size ∧
      (p.apply uid type).1.size ≤ (p.apply uid type).1.available.total) := by
  by_cases hdebt : (p.apply uid type).1.needsPoll = true
  · exact .inl hdebt
  right
  have hreads := fun hlow => hdebt ((p.apply_needsPoll_iff uid type).mpr (.inr (.inr ⟨h, hlow⟩)))
  obtain ⟨hpos, hcount⟩ := not_or.mp hreads
  refine ⟨not_le.mp hpos, ?_⟩
  unfold availableCount at hcount
  split at hcount
  · omega
  · exact not_lt.mp hcount

/-- An event takes one of the MicroVMs beyond the names only with the claim of one
that has no name, or with a doubt. -/
theorem apply_unnamed (uid : String) (hc : p.available.Counts) {names : Finset String}
    (hnames : p.available.named = names) {beyond : Nat}
    (hcounts : ∀ counts, type ≠ .poolSizeBelowTarget (some counts))
    (h : (beyond : Int) ≤ p.available.unnamed) : (p.apply uid type).1.unsettled = true ∨
      ((if type = .vmClaimed ∧ uid ∉ names then beyond - 1 else beyond : Nat) : Int)
        ≤ (p.apply uid type).1.available.unnamed := by
  cases type with
  | vmAvailable =>
    rcases add_unnamed_or p.available uid with htook | hsame
    · left
      show (p.unsettled || (p.available.add uid).2.2) = true
      rw [htook, Bool.or_true]
    · right
      rw [if_neg (fun h => nomatch h.1)]
      show _ ≤ (p.available.add uid).1.unnamed
      rwa [hsame]
  | vmClaimed =>
    right
    have hleft : 0 ≤ (p.available.leaves uid).unnamed := leaves_counts hc
    show _ ≤ (p.available.leaves uid).unnamed
    split
    · have hone := unnamed_leaves p.available uid
      omega
    · next hknown =>
      have hmem : uid ∈ p.available.named := by
        rw [hnames]
        exact not_not.mp fun hnot => hknown ⟨rfl, hnot⟩
      have hsame : (p.available.leaves uid).unnamed = p.available.unnamed := by
        by_cases huid : uid = ""
        · rw [huid, leaves_empty]
        · rw [leaves_of_mem huid hmem]
      omega
  | vmReleased | vmDeletedDueToExpiry | vmDeletedOnRelease | vmHookFailed _ =>
    right
    rw [if_neg (fun h => nomatch h.1)]
    show _ ≤ (p.available.remove uid).1.unnamed
    rwa [remove_unnamed]
  | poolSizeBelowTarget counts =>
    cases counts with
    | none => exact .inr (by rwa [if_neg (fun h => nomatch h.1)])
    | some counts => exact absurd rfl (hcounts counts)
  | unspecified | vmProvisioned => exact .inr (by rwa [if_neg (fun h => nomatch h.1)])

/-- **An event keeps an entry as good as what it tells.** -/
theorem Keeps.hear (h : p.Keeps r) (e : Event) : (p.apply e.vmUID e.type).1.Keeps (r.hear e) := by
  by_cases htells : ∃ counts, e.type = .poolSizeBelowTarget (some counts)
  · obtain ⟨counts, htype⟩ := htells
    have hhear : r.hear e = .counted p.available.named counts.available counts.target := by
      unfold Report.hear
      rw [counts?_of_type htype, h.names]
    rw [hhear, htype]
    exact keeps_counted rfl
  have hcounts : ∀ counts, e.type ≠ .poolSizeBelowTarget (some counts) :=
    fun counts htype => htells ⟨counts, htype⟩
  unfold Report.hear
  rw [counts?_eq_none hcounts]
  refine ⟨?_, ?_, p.apply_counts _ _ h.counts, ?_⟩
  · rw [apply_named, h.names]
  · exact (p.counted.fold_size _ hcounts).trans h.target
  · rcases h.beyond with hdebt | ⟨howed, hbeyond⟩
    · rcases p.apply_needsPoll e.vmUID e.type hdebt with hdebt | ⟨counts, htype⟩
      · exact .inl hdebt
      · exact absurd htype (hcounts counts)
    have hstep := hbeyond.elim
      (fun hdoubt => .inl (fold_unsettled (p := p.counted) e.vmUID hcounts hdoubt.1))
      (apply_unnamed e.vmUID h.counts h.names hcounts)
    rcases hstep with hdoubt | hunnamed
    · exact (apply_doubted hdoubt).imp_right fun hreads => ⟨howed, .inl ⟨hdoubt, hreads⟩⟩
    · exact .inr ⟨howed, .inr hunnamed⟩

theorem Keeps.hearAll (w : List Event) : ∀ {p : TrackedPool} {r : Report}, p.Keeps r →
    (p.applyAll w).Keeps (r.hearAll w) := by
  induction w with
  | nil => exact id
  | cons e w ih => exact fun h => ih (h.hear e)

end TrackedPool

end FlintlockRunner.Poolmgr

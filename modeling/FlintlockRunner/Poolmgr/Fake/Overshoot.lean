import FlintlockRunner.Poolmgr.Fake.Sound

/-!
# How far a Pool is replenished

Two mechanisms start MicroVMs: a claim or a deletion, each of which replaces the
MicroVM that it takes, and the tick, which fills up what it counts as missing. A
MicroVM whose claim waits for its hooks is not counted by `IMMEDIATE_ON_LEASE`,
and one that is `DELETING` not by `REPLACE_ON_DELETE`, while its replacement is
still to come: a tick that finds one replaces it too (`replaced_twice`). Where
every tick that starts a MicroVM finds none of these, the target is never
exceeded (`never_overshoots`); only the tick replenishes a Pool of
`MIN_SIZE_THRESHOLD`, and there it never is.
-/

namespace FlintlockRunner.Poolmgr.Fake

open Finset Function Option

/-! ## What is counted, and what is owed -/

variable (type : ReplenishmentStrategyType)

/-- What a strategy holds against the target. -/
def held (c : PoolStatus) : Int :=
  match type with
  | .immediateOnLease => c.available + c.provisioning
  | .replaceOnDelete | .minSizeThreshold | .unspecified => c.available + c.leased + c.provisioning

/-- The MicroVMs that it holds against it. -/
def counted : VMPhase → Bool
  | .available | .provisioning | .createHookRunning => true
  | .leased | .preLeaseHookRunning => type ≠ .immediateOnLease
  | _ => false

/-- The MicroVMs that it does not, and that are replaced when they go on. -/
def owed : VMPhase → Bool
  | .preLeaseHookRunning => type = .immediateOnLease
  | .deleting => type = .replaceOnDelete
  | _ => false

/-- A MicroVM that a tick counts, or that another will replace. -/
def stocked (phase : VMPhase) : Bool :=
  counted type phase || owed type phase

/-! ## Counts -/

namespace Custody

variable {c c' : Custody} {key : PoolRef} {P Q : VMPhase → Bool}

theorem count_or (h : ∀ phase, P phase = true → Q phase = false) :
    c.count key (fun phase => P phase || Q phase) = c.count key P + c.count key Q := by
  rw [count_eq, count_eq, count_eq, ← card_union_of_disjoint]
  · refine congrArg card ((filter_congr fun id _ => ?_).trans (filter_or _ _ _))
    cases c.vms id with
    | none => simp
    | some r => simp [Bool.and_or_distrib_left]
  · refine disjoint_filter.mpr fun id _ hP hQ => ?_
    obtain ⟨r, hr, hP⟩ := (any_eq_true ..).mp hP
    rw [hr] at hQ
    have hPhase := (Bool.and_eq_true_iff.mp hP).2
    exact nomatch (h _ hPhase).symm.trans (Bool.and_eq_true_iff.mp hQ).2

theorem held_counts (type : ReplenishmentStrategyType) :
    held type (c.counts key) = c.count key (counted type) := by
  have hwarm : c.count key (fun phase => phase = .available ||
      (phase = .provisioning || phase = .createHookRunning))
      = (c.count key fun phase => phase = .available)
        + c.count key fun phase => phase = .provisioning || phase = .createHookRunning :=
    count_or fun phase hphase => by cases phase <;> first | rfl | cases hphase
  have hall : c.count key (fun phase => (phase = .leased || phase = .preLeaseHookRunning) ||
      (phase = .available || (phase = .provisioning || phase = .createHookRunning)))
      = (c.count key fun phase => phase = .leased || phase = .preLeaseHookRunning)
        + c.count key fun phase => phase = .available ||
          (phase = .provisioning || phase = .createHookRunning) :=
    count_or fun phase hphase => by cases phase <;> first | rfl | cases hphase
  cases type with
  | immediateOnLease =>
    have hsame : counted .immediateOnLease = fun phase => phase = .available ||
        (phase = .provisioning || phase = .createHookRunning) := by
      funext phase
      cases phase <;> rfl
    rw [hsame, hwarm]
    rfl
  | replaceOnDelete | minSizeThreshold | unspecified =>
    refine Eq.trans ?_ (congrArg (fun P => ((c.count key P : Nat) : Int))
      (show (fun phase => (phase = .leased || phase = .preLeaseHookRunning) ||
        (phase = .available || (phase = .provisioning || phase = .createHookRunning))) = counted _ by
        funext phase
        cases phase <;> rfl))
    rw [hall, hwarm]
    dsimp only [held, counts]
    omega

/-! ## Pools and their specs -/

/-- Pools do not share a spec, and no spec has a negative size. -/
structure Placed (c : Custody) : Prop where
  inj : ∀ {key key' a}, c.pools key = some a → c.pools key' = some a → key = key'
  declared : ∀ {key a}, c.pools key = some a → (c.specs a).isSome = true
  size : ∀ {a spec}, c.specs a = some spec → 0 ≤ spec.size.toInt

theorem size_nonneg {spec spec' : PoolSpec} (h : validateSpec spec' = .ok spec) :
    0 ≤ spec.size.toInt := by
  have hsize := (validateSpec_ok_iff.mp ⟨spec, h⟩).size
  rw [validateSpec_eq h]
  rw [Int32.lt_iff_toInt_lt] at hsize
  exact Int.not_lt.mp hsize

theorem declared_next {a : Nat} {m : Move} (hspec : (c.specs a).isSome = true)
    (hnext : c.next m = some c') : (c'.specs a).isSome = true := by
  obtain ⟨spec, hspec⟩ := isSome_iff_exists.mp hspec
  rcases (rest hnext).specs hspec with h | ⟨key, spec', rfl, hkey⟩
  · exact isSome_iff_exists.mpr ⟨spec, h⟩
  · obtain ⟨b, hb, rfl⟩ := map_eq_some_iff.mp hnext
    obtain rfl := some.inj (hkey.symm.trans hb)
    show (update c.specs a _ a).isSome = true
    rw [update_self, hspec]
    rfl

theorem Placed.step (h : c.Placed) {p : PoolManager} {l : Label} {m : Move}
    (hadm : Admits p l c m) (hnext : c.next m = some c') : c'.Placed where
  inj {key key' a} hkey hkey' := by
    have hnew : ∀ {key₁ key₂ spec}, c.pools key₁ = some a → m ≠ .createPool key₂ a spec := by
      rintro key₁ key₂ spec hold rfl
      obtain ⟨⟨-, hnone⟩, -⟩ := ite_none_right_eq_some.mp hnext
      have hspec := h.declared hold
      rw [hnone] at hspec
      cases hspec
    rcases (rest hnext).pools hkey with hold | ⟨spec, hm⟩
    · rcases (rest hnext).pools hkey' with hold' | ⟨spec', hm'⟩
      · exact h.inj hold hold'
      · exact absurd hm' (hnew hold)
    · rcases (rest hnext).pools hkey' with hold' | ⟨spec', hm'⟩
      · exact absurd hm (hnew hold')
      · exact (Move.createPool.inj (hm.symm.trans hm')).1
  declared {key a} hkey := by
    rcases (rest hnext).pools hkey with hold | ⟨spec, rfl⟩
    · exact declared_next (h.declared hold) hnext
    · obtain ⟨-, ⟨⟩⟩ := ite_none_right_eq_some.mp hnext
      show (update c.specs a _ a).isSome = true
      rw [update_self]
      rfl
  size {a spec} hspec := by
    rcases (rest hnext).made hspec with hold | ⟨key, rfl⟩ | ⟨key, rfl⟩
    · exact h.size hold
    · obtain ⟨-, spec', -, -, hvalid⟩ := hadm
      exact size_nonneg hvalid
    · obtain ⟨spec', -, -, hvalid⟩ := hadm
      exact size_nonneg hvalid

end Custody

/-! ## Steady runs -/

variable (ref : PoolRef) (spec : PoolSpec)

/-- The Pool stays, with its spec. -/
def Unchanged : Label → Prop
  | .updatePool spec' => spec'.ref = ref → ∀ s ∈ (validateSpec spec').toOption, s = spec
  | .deletePool _ ref' => ref' ≠ ref
  | _ => True

/-- A tick that is to start a MicroVM for the Pool finds none whose replacement is
still to come. -/
def Due (p : PoolManager) : Label → Prop
  | .tick _ => 0 < tickDeficit spec (p.countsLocked ref) →
    ∀ e ∈ p.vmsOf ref, owed spec.replenishment.type e.2.phase = false
  | _ => True

/-- The condition on one step. -/
def Steady (p : PoolManager) (l : Label) : Prop :=
  FreshUIDs p l ∧ Unchanged ref spec l ∧ Due ref spec p l

instance (ref : PoolRef) (spec : PoolSpec) : DecidablePred (Unchanged ref spec) := fun l => by
  unfold Unchanged
  split <;> infer_instance

instance (ref : PoolRef) (spec : PoolSpec) (p : PoolManager) : DecidablePred (Due ref spec p) := fun l => by
  unfold Due
  split <;> infer_instance

instance (ref : PoolRef) (spec : PoolSpec) (p : PoolManager) : DecidablePred (Steady ref spec p) :=
  fun _ => inferInstanceAs (Decidable (_ ∧ _ ∧ _))

/-! ## What a steady run keeps -/

theorem stocked_phase (type : ReplenishmentStrategyType) (f : Frame) :
    stocked type f.phase = true := by
  cases f <;> cases type <;> rfl

/-- Where a replacement is owed for a MicroVM that is deleted, it was counted when it
was leased. -/
theorem stocked_leased {type : ReplenishmentStrategyType} (h : stocked type .deleting = true) :
    stocked type .leased = true := by
  cases type <;> first | rfl | cases h

theorem held_lt {spec : PoolSpec} {c : PoolStatus} (h : 0 < tickDeficit spec c) :
    held spec.replenishment.type c < spec.size.toInt := by
  unfold tickDeficit at h
  unfold held
  cases htype : spec.replenishment.type <;> rw [htype] at h <;> dsimp only at h ⊢
  all_goals first | omega | (split at h <;> omega)

theorem tickDeficit_pos {spec : PoolSpec} {c₀ c : PoolStatus} (havailable : c₀.available ≤ c.available)
    (hleased : c₀.leased ≤ c.leased) (hprovisioning : c₀.provisioning ≤ c.provisioning)
    (h : 0 < tickDeficit spec c) : 0 < tickDeficit spec c₀ := by
  unfold tickDeficit at h ⊢
  cases htype : spec.replenishment.type <;> rw [htype] at h <;> dsimp only at h ⊢
  case minSizeThreshold =>
    split at h
    · omega
    · rw [if_neg (by omega)]
      omega
  all_goals omega

namespace Custody

variable {c c' : Custody} {m : Move} {f : Frame} {vm : VMRef} {r : Record} {ref : PoolRef}
  {spec : PoolSpec} {a : Nat} {p : PoolManager} {l : Label}

/-- The MicroVMs that are counted of a Pool, or owed to it. -/
abbrev stock (c : Custody) (ref : PoolRef) (spec : PoolSpec) : Finset Nat :=
  c.among ref (stocked spec.replenishment.type)

/-- What is counted of a Pool and what is owed to it stay within its size. The
MicroVMs that are to be deleted are leased or condemned, and every claim that waits
for its hooks is of the Pool as it is. -/
structure Stocked (ref : PoolRef) (spec : PoolSpec) (a : Nat) (c : Custody) : Prop
    extends c.Fit, c.Placed where
  pool : c.pools ref = some a
  declaredAs : c.specs a = some spec
  settles : Settles (fun phase => phase = .leased ∨ phase = .deleting) ref c
  finishing : Finishing ref c
  current : ∀ {vm b requestID}, .preLease vm b requestID ∈ c.frames → vm.pool = ref →
    (c.vms vm.id).isSome = true → b = a
  within : ((c.stock ref spec).card : Int) ≤ spec.size.toInt

namespace Stocked

variable (h : Stocked ref spec a c)

include h

theorem worked_phase (hf : f ∈ c.frames) (hw : f.works = some vm)
    (hr : c.vms vm.id = some r) (hpool : r.pool = ref) : r.phase = f.phase := by
  refine ((h.sound.worked hf hw).2 hr).2.1.resolve_right fun hdel => ?_
  exact (h.settles hr hpool (.inl hdel)).2 f hf (Frame.workId_of_works hw)

/-- What is counted or owed after a move was so before, or is new. -/
theorem stocked_next (hnext : c.next m = some c') :
    c'.stock ref spec
      ⊆ insert (c.last + 1) (c.stock ref spec) := by
  intro id hid
  obtain ⟨r', hr', hpool, hstock⟩ := (mem_among (h.sound.recorded.step hnext)).mp hid
  have hold : ∀ {r}, c.vms id = some r → r.pool = ref →
      stocked spec.replenishment.type r.phase = true →
      id ∈ insert (c.last + 1) (c.stock ref spec) :=
    fun hr hpool hstock =>
      mem_insert_of_mem ((mem_among h.sound.recorded).mpr ⟨_, hr, hpool, hstock⟩)
  cases touch hnext hr' with
  | kept hr => exact hold hr hpool hstock
  | born key hlast => exact hlast ▸ mem_insert_self _ _
  | worked f vm r hends hf hvm hid hr =>
    subst hid
    exact hold hr hpool (h.worked_phase hf hvm hr hpool ▸ stocked_phase _ f)
  | picked r hr havail => exact hold hr hpool (havail ▸ rfl)
  | doomed f vm r hf hvm hid hr =>
    refine hold hr hpool ?_
    rcases (h.settles hr hpool (.inr ⟨f, hf, vm, hvm, hid⟩)).1 with hp | hp
    · exact hp ▸ stocked_leased hstock
    · exact hp ▸ hstock

/-- One that is no longer owed makes room for its replacement. -/
theorem count_replaced (hnext : c.next m = some c') (id : Nat) (hold : id ∈ c.stock ref spec)
    (hgone : id ∉ c'.stock ref spec) : (c'.stock ref spec).card ≤ (c.stock ref spec).card := by
  have hsub : c'.stock ref spec ⊆ insert (c.last + 1) ((c.stock ref spec).erase id) := by
    intro id' hid'
    rcases mem_insert.mp (h.stocked_next hnext hid') with hnew | hin
    · exact mem_insert.mpr (.inl hnew)
    · exact mem_insert_of_mem (mem_erase.mpr ⟨fun heq => hgone (heq ▸ hid'), hin⟩)
  calc
    _ ≤ _ := card_le_card hsub
    _ ≤ _ := card_insert_le _ _
    _ = _ := card_erase_add_one hold

theorem count_tick (hb : (p.custody []).Bounded)
    (hahead : (p.custody []).Ahead c) {env : Env} (hdue : Due ref spec p (.tick env))
    (hdeficit : 0 < c.deficit ref) : ((c.stock ref spec).card : Int) < spec.size.toInt := by
  have hpos : 0 < tickDeficit spec (c.counts ref) := by
    unfold deficit specOf at hdeficit
    rwa [h.pool, bind_some, h.declaredAs] at hdeficit
  have hmono : ∀ P, (p.custody []).count ref P ≤ c.count ref P := fun P =>
    count_le_count hb h.sound.recorded fun hr hpool hP => ⟨_, hahead.kept hr, hpool, hP⟩
  have hpos₀ : 0 < tickDeficit spec (p.countsLocked ref) := by
    rw [← PoolManager.counts_custody hb]
    refine tickDeficit_pos ?_ ?_ ?_ hpos <;> exact Int.ofNat_le.mpr (hmono _)
  -- nothing is owed: not of what the tick found, and the rest is provisioning
  have howed : ∀ {id r}, c.vms id = some r → r.pool = ref →
      stocked spec.replenishment.type r.phase = true →
      counted spec.replenishment.type r.phase = true := by
    intro id r hr hpool hstock
    rcases hahead.new hr with hold | hnew
    · obtain ⟨v, hv, rfl⟩ := map_eq_some_iff.mp hold
      have hnone := hdue hpos₀ (id, v) (PoolManager.mem_vmsOf.mpr ⟨hv, hpool⟩)
      exact (Bool.or_eq_true_iff.mp hstock).resolve_right (Bool.eq_false_iff.mp hnone)
    · rw [hnew]
      rfl
  have hle : (c.stock ref spec).card
      ≤ c.count ref (counted spec.replenishment.type) :=
    count_le_count h.sound.recorded h.sound.recorded fun hr hpool hstock =>
      ⟨_, hr, hpool, howed hr hpool hstock⟩
  have hlt := held_lt hpos
  rw [held_counts] at hlt
  omega

theorem count_lease {b : Nat} {requestID leaseID : String}
    (hnext : c.next (.lease vm b requestID leaseID true) = some c') (hkey : vm.pool = ref) :
    (c'.stock ref spec).card ≤ (c.stock ref spec).card := by
  obtain ⟨⟨hf, -, -, hagain⟩, hc⟩ := ite_none_right_eq_some.mp hnext
  obtain ⟨r, hr, heq⟩ := map_eq_some_iff.mp hc
  obtain rfl := h.current hf hkey (isSome_iff_exists.mpr ⟨r, hr⟩)
  have htype := hagain rfl
  rw [h.declaredAs] at htype
  have htype : spec.replenishment.type = .immediateOnLease := some.inj htype
  have hpool : r.pool = ref := ((h.sound.worked hf rfl).2 hr).1.trans hkey
  refine h.count_replaced hnext vm.id ?_ fun hin => ?_
  · refine (mem_among h.sound.recorded).mpr ⟨r, hr, hpool, ?_⟩
    rw [h.worked_phase hf rfl hr hpool]
    exact stocked_phase _ _
  · -- the MicroVM was owed, and is no longer
    obtain ⟨r', hr', -, hstock⟩ := (mem_among (h.sound.recorded.step hnext)).mp hin
    subst heq
    rw [htype] at hstock
    rcases reserveIf_some hr' with hr' | ⟨-, hid, -⟩
    · rcases setPhase_some hr' with ⟨-, r₀, -, rfl⟩ | ⟨hne, -⟩
      · cases hstock
      · exact hne rfl
    · have hlast : vm.id ≤ c.last := h.sound.recorded hr
      exact absurd hid (Nat.ne_of_lt (Nat.lt_succ_of_le hlast))

theorem count_finish (hnext : c.next (.finish f true) = some c')
    (hvm : f.finishes = some vm) (hkey : vm.pool = ref) :
    (c'.stock ref spec).card ≤ (c.stock ref spec).card := by
  obtain ⟨vm', hvm', hc⟩ := bind_eq_some_iff.mp hnext
  obtain rfl := some.inj (hvm.symm.trans hvm')
  obtain ⟨⟨hf, hrec, hagain⟩, heq⟩ := ite_none_right_eq_some.mp hc
  obtain ⟨r, hr⟩ := isSome_iff_exists.mp hrec
  have htype := hagain rfl
  unfold specOf at htype
  rw [hkey, h.pool, bind_some, h.declaredAs] at htype
  have htype : spec.replenishment.type = .replaceOnDelete := some.inj htype
  have hpool : r.pool = ref :=
    ((h.sound.listed hf (Frame.deletes_of_finishes hvm).1).2 hr).trans hkey
  refine h.count_replaced hnext vm.id ?_ fun hin => ?_
  · refine (mem_among h.sound.recorded).mpr ⟨r, hr, hpool, ?_⟩
    rw [h.finishing hf hvm hr hpool, htype]
    rfl
  · obtain ⟨r', hr', -⟩ := (mem_among (h.sound.recorded.step hnext)).mp hin
    obtain rfl := some.inj heq
    rcases reserveIf_some hr' with hr' | ⟨-, hid, -⟩
    · rcases update_some.mp hr' with ⟨-, ⟨⟩⟩ | ⟨hne, -⟩
      exact hne rfl
    · have hlast : vm.id ≤ c.last := h.sound.recorded hr
      exact absurd hid (Nat.ne_of_lt (Nat.lt_succ_of_le hlast))

theorem count_step (hb : (p.custody []).Bounded)
    (hok : Steady ref spec p l) (hadm : Admits p l c m) (hnext : c.next m = some c') :
    ((c'.stock ref spec).card : Int) ≤ spec.size.toInt := by
  have hof : (c'.stock ref spec).card ≤ (c.stock ref spec).card →
      ((c'.stock ref spec).card : Int) ≤ spec.size.toInt :=
    fun hle => (Int.ofNat_le.mpr hle).trans h.within
  by_cases hnew : c.last + 1 ∈ c'.stock ref spec
  · obtain ⟨r', hr', hpool, -⟩ := (mem_among (h.sound.recorded.step hnext)).mp hnew
    have hfresh : ∀ {r}, c.vms (c.last + 1) ≠ some r := fun hr =>
      Nat.not_succ_le_self _ (h.sound.recorded hr)
    cases touch hnext hr' with
    | kept hr => exact absurd hr hfresh
    | born key hid hlast hsome hm =>
      obtain rfl : key = ref := hpool
      cases hm with
      | missed hm =>
        subst hm
        obtain ⟨hdeficit, -⟩ := ite_none_right_eq_some.mp hnext
        obtain ⟨hahead, env, rfl⟩ := hadm
        have hlt := h.count_tick hb hahead hok.2.2 hdeficit
        have hle := (card_le_card (h.stocked_next hnext)).trans (card_insert_le _ _)
        omega
      | leased vm b requestID leaseID hm hkey =>
        subst hm
        exact hof (h.count_lease hnext hkey)
      | deleted f vm hm hvm hkey =>
        subst hm
        exact hof (h.count_finish hnext hvm hkey)
    | worked f vm r hends hf hvm hid hr => exact absurd hr hfresh
    | picked r hr => exact absurd hr hfresh
    | doomed f vm r hf hvm hid hr => exact absurd hr hfresh
  · refine hof (card_le_card fun id hid => ?_)
    exact (mem_insert.mp (h.stocked_next hnext hid)).resolve_left fun heq => hnew (heq ▸ hid)

theorem current_step (hnext : c.next m = some c')
    {b : Nat} {requestID : String} (hmem : .preLease vm b requestID ∈ c'.frames)
    (hkey : vm.pool = ref) (hrec : (c'.vms vm.id).isSome = true) : b = a := by
  rcases comes hnext hmem with hold | hcomes
  · have hid := (h.sound.worked hold rfl).1
    obtain ⟨r', hr'⟩ := isSome_iff_exists.mp hrec
    obtain ⟨r, hr, -⟩ := (touch hnext hr').pool hid
    exact h.current hold hkey (hr ▸ rfl)
  · have hpool := (hcomes.pick hnext).2
    rw [hkey, h.pool] at hpool
    exact (some.inj hpool).symm

theorem step (hb : (p.custody []).Bounded) (hok : Steady ref spec p l)
    (hadm : Admits p l c m) (hnext : c.next m = some c') : Stocked ref spec a c' := by
  have hfresh := fresh_of_admits hok.1 hadm
  have hstays : ∀ vms, m ≠ .deletePool ref vms := by
    rintro vms rfl
    obtain ⟨env, rfl⟩ := hadm
    exact hok.2.1 rfl
  refine ⟨h.toFit.step hfresh hnext, h.toPlaced.step hadm hnext, ?_, ?_, ?_, ?_,
    h.current_step hnext, h.count_step hb hok hadm hnext⟩
  · exact ((rest hnext).kept h.pool).resolve_right fun ⟨vms, hm⟩ => hstays vms hm
  · rcases (rest hnext).specs h.declaredAs with hsame | ⟨key, spec', rfl, hkey⟩
    · exact hsame
    · -- an update of the Pool leaves its spec as it was
      obtain rfl := h.inj h.pool hkey
      obtain ⟨spec'', rfl, href, hvalid⟩ := hadm
      obtain rfl : spec' = spec := hok.2.1 href spec' (by rw [hvalid]; exact rfl)
      obtain ⟨b, hb, rfl⟩ := map_eq_some_iff.mp hnext
      obtain rfl := some.inj (hkey.symm.trans hb)
      show update c.specs a _ a = _
      rw [update_self, h.declaredAs]
      rfl
  · exact h.settles.step h.sound (.inl rfl) (.inr rfl) nofun h.leased hstays hnext
  · exact Finishing.step h.settles h.sound h.finishing nofun hnext

end Stocked

end Custody

/-! ## The target -/

section Runs

variable {cfg : FakeConfig} {p₀ p : PoolManager} {ref : PoolRef} {spec : PoolSpec}

theorem placed_reach (h : (poolManager cfg).Reach FreshUIDs p) : (p.custody []).Placed := by
  obtain ⟨p₀, rfl, hpath⟩ := h
  have hkept : (p.custody []).Fit ∧ (p.custody []).Placed := by
    refine path_moves (I := fun c => c.Fit ∧ c.Placed) (fun hI => hI.1.sound.recorded)
      (fun p l hok _ c m d hI hadm hnext => ?_) hpath ⟨fit_new, nofun, nofun, nofun⟩
    exact ⟨hI.1.step (fresh_of_admits hok hadm) hnext, hI.2.step hadm hnext⟩
  exact hkept.2

theorem stocked_of_empty (h : (poolManager cfg).Reach FreshUIDs p) {a : Nat}
    (hpool : (p.custody []).pools ref = some a) (hspec : (p.custody []).specs a = some spec)
    (hempty : p.vmsOf ref = []) : Custody.Stocked ref spec a (p.custody []) := by
  have hfit := fit_reach h
  have hplaced := placed_reach h
  have hnone : ∀ {id r}, (p.custody []).vms id = some r → r.pool ≠ ref := by
    intro id r hr hkey
    obtain ⟨v, hv, rfl⟩ := map_eq_some_iff.mp hr
    have hin : (id, v) ∈ p.vmsOf ref := PoolManager.mem_vmsOf.mpr ⟨hv, hkey⟩
    rw [hempty] at hin
    cases hin
  refine ⟨hfit, hplaced, hpool, hspec, fun id r hr hkey _ => absurd hkey (hnone hr),
    fun f _ vm _ r hr hkey => absurd hkey (hnone hr), fun {vm b requestID} hf hkey hrec => ?_, ?_⟩
  · obtain ⟨r, hr⟩ := isSome_iff_exists.mp hrec
    exact absurd (((hfit.sound.worked hf rfl).2 hr).1.trans hkey) (hnone hr)
  · rw [← Custody.count_eq, ← PoolManager.countP_vmsOf hfit.sound.recorded, hempty]
    exact hplaced.size hspec

/-- **The target is never exceeded**, from a Pool that is empty and in a run that
leaves its spec as it is, where every tick that is to start a MicroVM for it finds
none whose replacement is still to come. -/
theorem never_overshoots (h₀ : (poolManager cfg).Reach FreshUIDs p₀)
    (hspec : p₀.specOf ref = some spec) (hempty : p₀.vmsOf ref = [])
    (h : (poolManager cfg).Path (Steady ref spec) p₀ p) :
    held spec.replenishment.type (p.countsLocked ref) ≤ spec.size.toInt := by
  obtain ⟨a, hpool, hdecl⟩ := bind_eq_some_iff.mp hspec
  have hstocked : Custody.Stocked ref spec a (p.custody []) := by
    refine path_moves (fun hI => hI.sound.recorded) (fun p l hok hp c m d hc hadm hnext => ?_) h
      (stocked_of_empty h₀ hpool hdecl hempty)
    exact hc.step hp.sound.recorded hok hadm hnext
  rw [← PoolManager.counts_custody hstocked.sound.recorded, Custody.held_counts]
  refine le_trans (Int.ofNat_le.mpr ?_) hstocked.within
  have hb := hstocked.sound.recorded
  exact Custody.count_le_count hb hb fun hr hpool hcounted =>
    ⟨_, hr, hpool, Bool.or_eq_true_iff.mpr (.inl hcounted)⟩

end Runs

/-! ### MicroVMs that are replaced twice -/

/-- The Pool of one MicroVM, of a strategy. -/
def soloOf (type : ReplenishmentStrategyType) : PoolSpec :=
  { soloSpec with
    replenishment := ⟨type, none⟩
    template := { soloSpec.template with allowGuestAgent := true } }

/-- Its MicroVM is available, and picked for a claim. -/
def soloFilled : List Label := (soloPicked "job-1").drop 2

/-- The Lease is released, and the MicroVM's Host told to delete it. -/
def soloReleased : List Label :=
  [.releaseVM "lease-1",
   .resume (.delete soloVM (some .onRelease) (.releaseVM "lease-1")) (soloEnv [] []) (.ok "")]

/-- The Host has deleted it. -/
def soloDeleted : Label :=
  .resume (.deleting soloVM "host-a" "vm-1" (.releaseVM "lease-1")) (soloEnv [] []) (.ok "")

def soloTick (leases : List String) (vms : List Nat) : Label :=
  .tick { soloEnv vms [soloRef] with leases := leases }

/-- The MicroVM is claimed, released and deleted, and its replacement started, with
ticks between. -/
theorem never_overshoots_replaced : ∃ p₀ p, (poolManager soloConfig).Reach FreshUIDs p₀ ∧
    p₀.specOf soloRef = some (soloOf .replaceOnDelete) ∧ p₀.vmsOf soloRef = [] ∧
    (poolManager soloConfig).Path (Steady soloRef (soloOf .replaceOnDelete)) p₀ p ∧
    (p.countsLocked soloRef).provisioning = 1 ∧ held .replaceOnDelete (p.countsLocked soloRef) ≤ 1 := by
  have hreach := Machine.reach_run (M := poolManager soloConfig)
    FreshUIDs [.run, .createPool (soloOf .replaceOnDelete)] rfl rfl
  have hpath : (poolManager soloConfig).Path (Steady soloRef (soloOf .replaceOnDelete)) _ _ :=
    Machine.path_execWhile
      (soloFilled ++ [soloTick [] [1], soloClaimed "job-1", soloTick ["lease-1"] [1]] ++ soloReleased
        ++ [soloDeleted, soloTick [] [2]])
      (show (poolManager soloConfig).execWhile
        (fun p l => decide (Steady soloRef (soloOf .replaceOnDelete) p l))
        (((poolManager soloConfig).execWhile (fun p l => decide (FreshUIDs p l)) .new
          [.run, .createPool (soloOf .replaceOnDelete)]).get rfl) _ = some _ from rfl)
  exact ⟨_, _, hreach, rfl, rfl, hpath, rfl, never_overshoots hreach rfl rfl hpath⟩

/-- From the Pool when it is empty, a run that leaves its spec as it is exceeds the
target. -/
def Overshoots (cfg : FakeConfig) (ref : PoolRef) (spec : PoolSpec) : Prop :=
  ∃ p₀ p, (poolManager cfg).Reach FreshUIDs p₀ ∧ p₀.specOf ref = some spec ∧ p₀.vmsOf ref = [] ∧
    (poolManager cfg).Path (fun p l => FreshUIDs p l ∧ Unchanged ref spec l) p₀ p ∧
    spec.size.toInt < held spec.replenishment.type (p.countsLocked ref)

theorem overshoots_of_run (type : ReplenishmentStrategyType) (run : List Label) {p₀ p : PoolManager}
    (h₀ : (poolManager soloConfig).execWhile (fun p l => decide (FreshUIDs p l)) .new
      [.run, .createPool (soloOf type)] = some p₀)
    (hspec : p₀.specOf soloRef = some (soloOf type)) (hempty : p₀.vmsOf soloRef = [])
    (h : (poolManager soloConfig).execWhile
      (fun p l => decide (FreshUIDs p l ∧ Unchanged soloRef (soloOf type) l)) p₀ run = some p)
    (hover : 1 < held type (p.countsLocked soloRef)) :
    Overshoots soloConfig soloRef (soloOf type) :=
  ⟨p₀, p, ⟨_, rfl, Machine.path_execWhile _ h₀⟩, hspec, hempty, Machine.path_execWhile run h, hover⟩

/-- **A MicroVM is replaced twice**: by a tick while its claim waits for its hooks
and by the claim, or by a tick while its Host deletes it and by the deletion. The
Pool of one then provisions two. -/
theorem replaced_twice : Overshoots soloConfig soloRef (soloOf .immediateOnLease) ∧
    Overshoots soloConfig soloRef (soloOf .replaceOnDelete) := by
  constructor
  · exact overshoots_of_run .immediateOnLease
      (soloFilled ++ [soloTick [] [1], soloClaimed "job-1"]) rfl rfl rfl rfl (by decide)
  · exact overshoots_of_run .replaceOnDelete
      (soloFilled ++ [soloClaimed "job-1"] ++ soloReleased
        ++ [soloTick ["lease-1"] [1], soloDeleted]) rfl rfl rfl rfl (by decide)

end FlintlockRunner.Poolmgr.Fake

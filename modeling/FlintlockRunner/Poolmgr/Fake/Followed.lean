import FlintlockRunner.Poolmgr.Fake.Sound
import FlintlockRunner.Poolmgr.Idempotent

/-!
# The Tracker follows the fake Pool Manager

A Tracker that applies the events of a Pool, and what the moves and the events of
the sections make of the two: the names the Tracker counts are the uids of the
Pool's MicroVMs that are `AVAILABLE` or `PRE_LEASE_HOOK_RUNNING` (`Follows`). A
MicroVM comes among them, or leaves them, by a move that has its event; of the
other moves each is about one that is in neither phase. That is where a Pool is
made again only if none of its MicroVMs was or could become available when it was
deleted (`Clear`). One that was goes without an event that the Tracker has a case
for: `VM_DELETED_ON_POOL_DELETE` is none of them, and the deletion itself emits
nothing once the Pool is gone. So the Tracker goes on counting it.
-/

namespace FlintlockRunner.Poolmgr

open List Option

/-! ## A Tracker that applies every event -/

theorem PoolTracker.available_applyEvents {ref : PoolRef} (w : List Event) {t : PoolTracker}
    {p : TrackedPool} (hp : t.pools.lookup ref = some p) :
    (t.applyEvents w).available ref true = (p.applyAll (ofPool ref w)).availableCount := by
  obtain ⟨p', hp', havailable, -⟩ := PoolTracker.lookup_applyEvents w hp
  show (((t.applyEvents w).pools.lookup ref).map TrackedPool.availableCount).getD 0 = _
  rw [hp', ← havailable]
  rfl

/-- An entry that no event has reached, of a declared Pool. -/
structure TrackedPool.Unused (p₀ : TrackedPool) : Prop where
  declared : p₀.declared = true
  exhausted : p₀.exhausted = false
  available : p₀.available = .empty

namespace Fake

namespace Custody

variable {c c' : Custody} {id : Nat} {r : Record} {ref key : PoolRef} {uid : String} {vm : VMRef}
  {m : Move} {f : Frame}

/-! ## Warm MicroVMs -/

/-- A MicroVM of the Pool is `AVAILABLE` or `PRE_LEASE_HOOK_RUNNING` under this
uid. -/
def Warm (c : Custody) (ref : PoolRef) (uid : String) : Prop :=
  ∃ id r, c.vms id = some r ∧ r.pool = ref ∧ r.phase.warm = true ∧ r.uid = uid

/-- A MicroVM that is none of the Pool's warm ones. -/
def Cold (c : Custody) (ref : PoolRef) (id : Nat) : Prop :=
  ∀ ⦃r⦄, c.vms id = some r → r.pool = ref → r.phase.warm = false

theorem warm_update {o : Option Record} (hvms : c'.vms = Function.update c.vms id o)
    (hcold : c.Cold ref id) (ho : ∀ ⦃r⦄, o = some r → r.pool = ref → r.phase.warm = false) :
    c'.Warm ref uid ↔ c.Warm ref uid := by
  unfold Warm
  rw [hvms]
  constructor
  · rintro ⟨id', r, hr, hpool, hwarm, huid⟩
    have hne : id' ≠ id := by
      rintro rfl
      rw [Function.update_self] at hr
      exact nomatch (ho hr hpool).symm.trans hwarm
    exact ⟨id', r, (Function.update_of_ne hne ..).symm.trans hr, hpool, hwarm, huid⟩
  · rintro ⟨id', r, hr, hpool, hwarm, huid⟩
    have hne : id' ≠ id := by
      rintro rfl
      exact nomatch (hcold hr hpool).symm.trans hwarm
    exact ⟨id', r, (Function.update_of_ne hne ..).trans hr, hpool, hwarm, huid⟩

theorem warm_setPhase_of_cold {phase : VMPhase} (hcold : c.Cold ref id)
    (hphase : phase.warm = false) : (c.setPhase id phase).Warm ref uid ↔ c.Warm ref uid := by
  refine warm_update rfl hcold fun r hr _ => ?_
  obtain ⟨r₀, -, rfl⟩ := map_eq_some_iff.mp hr
  exact hphase

theorem warm_setPhase (h : c.Sound) (hr : c.vms id = some r) (hne : r.uid ≠ "") (phase : VMPhase) :
    (c.setPhase id phase).Warm ref uid ↔
      if r.pool = ref ∧ r.uid = uid then phase.warm = true else c.Warm ref uid := by
  by_cases hcond : r.pool = ref ∧ r.uid = uid
  · rw [if_pos hcond]
    constructor
    · rintro ⟨id', r', hr', -, hwarm, huid⟩
      rcases setPhase_some hr' with ⟨-, r₀, -, rfl⟩ | ⟨hid, hr₀⟩
      · exact hwarm
      · exact absurd (h.uid_inj hr hr₀ (hcond.2.trans huid.symm) hne).symm hid
    · exact fun hwarm => ⟨id, _, setPhase_self hr, hcond.1, hwarm, hcond.2⟩
  · rw [if_neg hcond]
    have hother : ∀ {id' r'}, c.vms id' = some r' → r'.pool = ref → r'.uid = uid → id' ≠ id := by
      rintro id' r' hr' hpool huid rfl
      obtain rfl := some.inj (hr.symm.trans hr')
      exact hcond ⟨hpool, huid⟩
    constructor
    · rintro ⟨id', r', hr', hpool, hwarm, huid⟩
      rcases setPhase_some hr' with ⟨rfl, r₀, hr₀, rfl⟩ | ⟨-, hr₀⟩
      · exact absurd rfl (hother hr₀ hpool huid)
      · exact ⟨id', r', hr₀, hpool, hwarm, huid⟩
    · rintro ⟨id', r', hr', hpool, hwarm, huid⟩
      exact ⟨id', r', (Function.update_of_ne (hother hr' hpool huid) _ _).trans hr', hpool, hwarm, huid⟩

theorem warm_reserveIf (hb : c.Bounded) (again : Bool) (key : PoolRef) :
    (c.reserveIf again key).Warm ref uid ↔ c.Warm ref uid := by
  cases again with
  | false => rfl
  | true =>
    refine warm_update rfl ?_ ?_
    · exact fun r hr _ => absurd (hb hr) (Nat.not_succ_le_self _)
    · rintro _ ⟨⟩ _
      rfl

theorem Sound.cold (h : c.Sound) (hf : f ∈ c.frames) (hw : f.works = some vm)
    (hphase : f.phase = .provisioning) : c.Cold ref vm.id := by
  intro r hr _
  rcases ((h.worked hf hw).2 hr).2.1 with hp | hp <;> rw [hp]
  · rw [hphase]
    rfl
  · rfl

/-! ## A Pool without a past -/

/-- What is deleted of the Pool is past any claim, and so is all there is of it
while it does not exist. -/
structure Clear (ref : PoolRef) (c : Custody) : Prop where
  settles : Settles (fun phase => phase.settled = true) ref c
  absent : c.pools ref = none → ∀ ⦃id r⦄, c.vms id = some r → r.pool = ref → r.phase.settled = true

namespace Clear

theorem cold (h : Clear ref c) (hlist : c.Listed id) : c.Cold ref id := fun _ hr hpool =>
  VMPhase.not_warm_of_settled (h.settles hr hpool (.inr hlist)).1

theorem step (h : Clear ref c) (hfit : c.Fit)
    (hm : ∀ vms, m ≠ .deletePool ref vms) (hnext : c.next m = some c') : Clear ref c' where
  settles := h.settles.step hfit.sound rfl rfl nofun hfit.leased hm hnext
  absent hnone id r' hr' hpool := by
    have hgone : c.pools ref = none := by
      by_contra hsome
      obtain ⟨a, ha⟩ := ne_none_iff_exists'.mp hsome
      rcases (rest hnext).kept ha with ha' | ⟨vms, rfl⟩
      · exact nomatch hnone.symm.trans ha'
      · exact hm vms rfl
    have hnot : ∀ {key}, (c.pools key).isSome = true → key ≠ ref := by
      rintro key hsome rfl
      rw [hgone] at hsome
      cases hsome
    cases touch hnext hr' with
    | kept hr => exact h.absent hgone hr hpool
    | born key hid hlast hsome => exact absurd hpool (hnot hsome)
    | worked f vm r hends hf hvm hid hr huid hphase =>
      rcases hphase with rfl | ⟨hsome, -⟩
      · exact (h.absent hgone hr hpool :)
      · have hvmpool := ((hfit.sound.worked hf hvm).2 (hid ▸ hr)).1
        exact absurd (hvmpool.symm.trans hpool) (hnot hsome)
    | picked r hr havail =>
      have hset := h.absent hgone hr hpool
      rw [havail] at hset
      cases hset
    | doomed f vm r hf hvm hid hr => rfl

theorem delete (h : Clear ref c) (hsound : c.Sound) {vms : List VMRef}
    (hall : ∀ ⦃id r⦄, c.vms id = some r → r.pool = ref → r.phase.settled = true)
    (hnext : c.next (.deletePool ref vms) = some c') : Clear ref c' := by
  obtain ⟨-, ⟨⟩⟩ := ite_none_right_eq_some.mp hnext
  refine ⟨fun id r hr hpool _ => ⟨hall hr hpool, Free.enter (fun f hf hid => ?_) nofun⟩, fun _ => hall⟩
  -- whoever worked on it would find it unsettled, or condemned
  obtain ⟨vm, hvm, rfl⟩ := map_eq_some_iff.mp hid
  have hset := hall hr hpool
  rcases ((hsound.worked hf hvm).2 hr).2.1 with hp | hp
  · rw [hp] at hset
    cases f <;> cases hset
  · exact (h.settles hr hpool (.inl hp)).2 f hf hid

end Clear

end Custody

/-! ## The Tracker and the moves -/

theorem empty_notMem_moves (type : Poolmgr.EventType) (uid : String) {named : Finset String}
    (h : "" ∉ named) : "" ∉ type.moves uid named := by
  unfold Poolmgr.EventType.moves
  split_ifs with huid
  · exact h
  · exact fun hin => (Finset.mem_insert.mp hin).elim (fun heq => huid heq.symm) h
  · exact fun hin => h (Finset.mem_of_mem_erase hin)
  · exact h

/-- The Tracker's entry for the Pool after some events. -/
def tracked (ref : PoolRef) (p₀ : TrackedPool) (w : List Poolmgr.Event) : TrackedPool :=
  p₀.applyAll (ofPool ref w)

theorem tracked_concat (ref : PoolRef) (p₀ : TrackedPool) (w : List Poolmgr.Event)
    (e : Poolmgr.Event) : tracked ref p₀ (w ++ [e]) = if e.pool = ref then
      ((tracked ref p₀ w).apply e.vmUID e.type).1 else tracked ref p₀ w := by
  have hone : ofPool ref [e] = if e.pool = ref then [e] else [] := by
    by_cases hpool : e.pool = ref <;> simp [ofPool, hpool]
  unfold tracked
  rw [ofPool_append, hone]
  split
  · exact TrackedPool.applyAll_concat ..
  · rw [append_nil]

/-- The Tracker's names are the Pool's warm MicroVMs. -/
structure Follows (ref : PoolRef) (p₀ : TrackedPool) (t : Told) : Prop where
  fit : t.custody.Fit
  allNamed : (tracked ref p₀ t.said).AllNamed
  nonempty : "" ∉ (tracked ref p₀ t.said).available.named
  names : ∀ uid, uid ∈ (tracked ref p₀ t.said).available.named ↔ t.custody.Warm ref uid

namespace Follows

variable {ref : PoolRef} {p₀ : TrackedPool} {t : Told} {c' : Custody} {id : Nat} {r : Record}
  {e : Poolmgr.Event} {m : Move} {left : List PoolRef}

variable (h : Follows ref p₀ t)
include h

theorem still (hfit : c'.Fit) (hwarm : ∀ uid, c'.Warm ref uid ↔ t.custody.Warm ref uid) :
    Follows ref p₀ ⟨c', t.said ++ [], left⟩ := by
  rw [append_nil]
  exact ⟨hfit, h.allNamed, h.nonempty, fun uid => (h.names uid).trans (hwarm uid).symm⟩

theorem hear (hfit : c'.Fit)
    (hcounts : e.pool = ref → ∀ counts, e.type = .poolSizeBelowTarget (some counts) →
      0 ≤ counts.available ∧
        counts.available ≤ (tracked ref p₀ t.said).available.named.card)
    (hmoves : ∀ uid, (uid ∈ if e.pool = ref then
      e.type.moves e.vmUID (tracked ref p₀ t.said).available.named
      else (tracked ref p₀ t.said).available.named) ↔ c'.Warm ref uid) :
    Follows ref p₀ ⟨c', t.said ++ [e], left⟩ := by
  have hnames : (tracked ref p₀ (t.said ++ [e])).available.named = if e.pool = ref then
      e.type.moves e.vmUID (tracked ref p₀ t.said).available.named
      else (tracked ref p₀ t.said).available.named := by
    rw [tracked_concat]
    split
    · exact TrackedPool.apply_named ..
    · rfl
  refine ⟨hfit, ?_, hnames ▸ ?_, fun uid => hnames ▸ hmoves uid⟩
  · show (tracked ref p₀ (t.said ++ [e])).AllNamed
    rw [tracked_concat]
    split
    · rename_i hpool
      exact h.allNamed.apply _ _ (hcounts hpool)
    · exact h.allNamed
  · split
    · exact empty_notMem_moves _ _ h.nonempty
    · exact h.nonempty

theorem taken (hfit : c'.Fit) (htype : e.type.takesAway = true)
    (hr : t.custody.vms id = some r) (hpool : r.pool = e.pool) (huid : r.uid = e.vmUID)
    (hne : r.uid ≠ "") (phase : VMPhase) (hphase : phase.warm = false)
    (hwarm : ∀ uid, c'.Warm ref uid ↔ (t.custody.setPhase id phase).Warm ref uid) :
    Follows ref p₀ ⟨c', t.said ++ [e], left⟩ := by
  refine h.hear hfit (fun _ counts hc => ?_) fun uid => ?_
  · rw [hc] at htype
    cases htype
  · rw [hwarm, Custody.warm_setPhase h.fit.sound hr hne, hpool, huid, hphase]
    by_cases hp : e.pool = ref
    · rw [if_pos hp, Poolmgr.EventType.moves_takesAway htype _ h.nonempty, Finset.mem_erase, h.names]
      by_cases hu : e.vmUID = uid
      · simp [hp, hu]
      · simp [hu, Ne.symm hu]
    · simp [hp, h.names]

theorem failed (hfit : c'.Fit) {f : Frame} {vm : VMRef}
    (hf : f ∈ t.custody.frames) (hvm : f.hooks = some vm) (halive : t.custody.alive vm = true)
    (quarantined : Bool) (phase : VMPhase) (hphase : phase.warm = false)
    (hvms : c'.vms = (t.custody.setPhase vm.id phase).vms) :
    Follows ref p₀ ⟨c', t.said ++ t.custody.failure f quarantined, left⟩ := by
  obtain ⟨⟨r, hr⟩, -⟩ := Custody.alive_spec halive
  obtain ⟨hw, hknows⟩ := Frame.hooks_spec hvm
  obtain ⟨hpool, -, hk⟩ := (h.fit.sound.worked hf hw).2 hr
  rw [show t.custody.failure f quarantined = [⟨vm.pool, r.uid, .vmHookFailed quarantined⟩] by
    unfold Custody.failure
    rw [hvm, elim_some, hr]
    rfl]
  refine h.taken (e := ⟨vm.pool, r.uid, .vmHookFailed quarantined⟩) hfit rfl hr hpool rfl (hknows hk)
    phase hphase fun uid => ?_
  unfold Custody.Warm
  rw [hvms]

/-- **A move, with its event.** -/
theorem move (hclear : t.custody.Clear ref) (hfresh : t.custody.Fresh m)
    (hnext : t.custody.next m = some c') :
    Follows ref p₀ ⟨c', t.said ++ t.custody.leads m, left⟩ := by
  have hsound := h.fit.sound
  have hfit := h.fit.step hfresh hnext
  cases m with
  | createPool key a spec | deletePool key vms | proceed f f' | stray vm uid | leave f
  | condemn leaseID vm event caller | pass f fs =>
    obtain ⟨-, ⟨⟩⟩ := ite_none_right_eq_some.mp hnext
    exact h.still hfit fun _ => Iff.rfl
  | updatePool key spec =>
    obtain ⟨a, -, rfl⟩ := map_eq_some_iff.mp hnext
    exact h.still hfit fun _ => Iff.rfl
  | forget leaseID =>
    obtain rfl := some.inj hnext
    exact h.still hfit fun _ => Iff.rfl
  | reserve key =>
    obtain ⟨-, ⟨⟩⟩ := ite_none_right_eq_some.mp hnext
    exact h.still hfit fun _ => Custody.warm_reserveIf hsound.recorded true key
  | giveUp f =>
    obtain ⟨hf, hc⟩ := ite_none_right_eq_some.mp hnext
    obtain ⟨vm, hvm, rfl⟩ := map_eq_some_iff.mp hc
    obtain ⟨hw, hphase, -⟩ := Frame.early_spec hvm
    exact h.still hfit fun _ => Custody.warm_update rfl (hsound.cold hf hw hphase) nofun
  | name vm uid =>
    obtain ⟨⟨hf, -⟩, ⟨⟩⟩ := ite_none_right_eq_some.mp hnext
    have hcold : t.custody.Cold ref vm.id := hsound.cold hf rfl rfl
    refine h.still hfit fun _ => Custody.warm_update rfl hcold fun r' hr' hpool => ?_
    obtain ⟨r, hr, rfl⟩ := map_eq_some_iff.mp hr'
    exact hcold (r := r) hr hpool
  | hook vm uid =>
    obtain ⟨⟨hf, -⟩, ⟨⟩⟩ := ite_none_right_eq_some.mp hnext
    exact h.still hfit fun _ => Custody.warm_setPhase_of_cold (hsound.cold hf rfl rfl) rfl
  | ready vm uid =>
    obtain ⟨⟨hf, halive⟩, ⟨⟩⟩ := ite_none_right_eq_some.mp hnext
    obtain ⟨⟨r, hr⟩, -⟩ := Custody.alive_spec halive
    obtain ⟨hpool, -, rfl, hne⟩ := (hsound.worked hf rfl).2 hr
    refine h.hear (e := ⟨vm.pool, r.uid, .vmAvailable⟩) hfit (fun _ => nofun) fun uid => ?_
    refine Iff.trans ?_ (Custody.warm_setPhase hsound hr hne .available).symm
    rw [← hpool]
    show (uid ∈ if r.pool = ref then Poolmgr.EventType.moves _ r.uid _ else _) ↔ _
    unfold Poolmgr.EventType.moves
    rw [if_neg hne, if_pos rfl]
    by_cases hp : r.pool = ref
    · by_cases hu : r.uid = uid
      · simp [hp, hu, VMPhase.warm]
      · simp [hp, hu, Ne.symm hu, h.names]
    · simp [hp, h.names]
  | pick vm a requestID =>
    obtain ⟨⟨hpick, -⟩, ⟨⟩⟩ := ite_none_right_eq_some.mp hnext
    obtain ⟨r, hr, hpick⟩ := (Option.any_eq_true ..).mp hpick
    have havail := of_decide_eq_true (Bool.and_eq_true_iff.mp hpick).2
    refine h.still hfit fun uid => ?_
    refine (Custody.warm_setPhase hsound hr (hsound.warm hr havail) .preLeaseHookRunning).trans ?_
    split
    · rename_i hcond
      exact ⟨fun _ => ⟨vm.id, r, hr, hcond.1, havail ▸ rfl, hcond.2⟩, fun _ => rfl⟩
    · exact Iff.rfl
  | lease vm a requestID leaseID again =>
    obtain ⟨⟨hf, -⟩, hc⟩ := ite_none_right_eq_some.mp hnext
    obtain ⟨r, hr, rfl⟩ := map_eq_some_iff.mp hc
    obtain ⟨hpool, -, hne⟩ := (hsound.worked hf rfl).2 hr
    dsimp only [Custody.leads]
    rw [hr]
    refine h.taken (e := ⟨vm.pool, r.uid, .vmClaimed⟩) hfit rfl hr hpool rfl hne .leased rfl
      fun uid => Custody.warm_reserveIf (fun id r' hr' => ?_) again vm.pool
    rcases Custody.setPhase_some hr' with ⟨rfl, r₀, hr₀, -⟩ | ⟨-, hr₀⟩
    · exact hsound.recorded hr₀
    · exact hsound.recorded hr₀
  | quarantine f =>
    obtain ⟨vm, hvm, hc⟩ := bind_eq_some_iff.mp hnext
    obtain ⟨⟨hf, halive⟩, ⟨⟩⟩ := ite_none_right_eq_some.mp hc
    exact h.failed hfit hf hvm halive true .quarantined rfl rfl
  | fail f caller =>
    obtain ⟨vm, hvm, hc⟩ := bind_eq_some_iff.mp hnext
    obtain ⟨⟨hf, halive, -⟩, ⟨⟩⟩ := ite_none_right_eq_some.mp hc
    exact h.failed hfit hf hvm halive false .deleting rfl rfl
  | doom f vm =>
    obtain ⟨⟨hf, hvm⟩, ⟨⟩⟩ := ite_none_right_eq_some.mp hnext
    have hcold := hclear.cold ⟨f, hf, vm, hvm, rfl⟩
    exact h.still hfit fun _ => Custody.warm_setPhase_of_cold hcold rfl
  | finish f again =>
    obtain ⟨vm, hvm, hc⟩ := bind_eq_some_iff.mp hnext
    obtain ⟨⟨hf, -⟩, ⟨⟩⟩ := ite_none_right_eq_some.mp hc
    have hb : (t.custody.remove vm.id).Bounded := by
      intro id r hr
      rcases Custody.update_some.mp hr with ⟨-, ⟨⟩⟩ | ⟨-, hr⟩
      exact hsound.recorded hr
    have hcold := hclear.cold ⟨f, hf, vm, (Frame.deletes_of_finishes hvm).1, rfl⟩
    exact h.still hfit fun _ => (Custody.warm_reserveIf hb again vm.pool).trans
      (Custody.warm_update rfl hcold nofun)

/-! ## Counting -/

theorem card_named :
    (tracked ref p₀ t.said).available.named.card = t.custody.count ref VMPhase.warm := by
  have hmem {id} : id ∈ t.custody.among ref VMPhase.warm ↔ _ :=
    Custody.mem_among h.fit.sound.recorded
  refine (Finset.card_nbij (fun id => (t.custody.vms id).elim "" Record.uid) (fun id hid => ?_)
    (fun id hid id' hid' huid => ?_) fun uid huid => ?_).symm
  · obtain ⟨r, hr, hpool, hw⟩ := hmem.mp hid
    dsimp only
    rw [hr]
    exact (h.names r.uid).mpr ⟨id, r, hr, hpool, hw, rfl⟩
  · obtain ⟨r, hr, hpool, hw⟩ := hmem.mp hid
    obtain ⟨r', hr', -⟩ := hmem.mp hid'
    dsimp only at huid
    rw [hr, hr'] at huid
    refine h.fit.sound.uid_inj hr hr' huid fun hempty => h.nonempty ?_
    exact (h.names "").mpr ⟨id, r, hr, hpool, hw, hempty⟩
  · obtain ⟨id, r, hr, hpool, hw, rfl⟩ := (h.names uid).mp huid
    refine ⟨id, hmem.mpr ⟨r, hr, hpool, hw⟩, ?_⟩
    dsimp only
    rw [hr]
    rfl

theorem say (hclear : t.custody.Clear ref) (hidle : t.custody.Idle e) :
    Follows ref p₀ { t with said := t.said ++ [e] } := by
  have hsame : e.type.moves e.vmUID (tracked ref p₀ t.said).available.named
      = (tracked ref p₀ t.said).available.named → ∀ uid, (uid ∈ if e.pool = ref then
      e.type.moves e.vmUID (tracked ref p₀ t.said).available.named
      else (tracked ref p₀ t.said).available.named) ↔ t.custody.Warm ref uid := by
    intro hmoves uid
    rw [hmoves, ite_self]
    exact h.names uid
  rcases hidle with htype | htype | ⟨huid, size, htype⟩ | ⟨htype, id, r, hr, huid, hlist⟩
  · refine h.hear h.fit (fun _ _ hc => nomatch htype.symm.trans hc) (hsame ?_)
    exact Poolmgr.EventType.moves_none (htype ▸ nofun) (htype ▸ rfl) _ _
  · refine h.hear h.fit (fun _ _ hc => nomatch htype.symm.trans hc) (hsame ?_)
    exact Poolmgr.EventType.moves_none (htype ▸ nofun) (htype ▸ rfl) _ _
  · refine h.hear h.fit (fun hpool counts hc => ?_) (hsame (huid ▸ if_pos rfl))
    obtain rfl := some.inj (Poolmgr.EventType.poolSizeBelowTarget.inj (htype.symm.trans hc))
    refine ⟨Int.natCast_nonneg _, ?_⟩
    rw [h.card_named, hpool]
    have hb := h.fit.sound.recorded
    -- the available ones are warm
    refine Int.ofNat_le.mpr (Custody.count_le_count hb hb fun {id r} hr hpool havail => ?_)
    exact ⟨r, hr, hpool, of_decide_eq_true havail ▸ rfl⟩
  · refine h.hear h.fit (fun _ _ hc => ?_) (hsame ?_)
    · rw [hc] at htype
      cases htype
    · rw [Poolmgr.EventType.moves_takesAway htype _ h.nonempty]
      refine Finset.erase_eq_of_notMem fun hin => ?_
      obtain ⟨id', r', hr', hpool, hw, huid'⟩ := (h.names _).mp hin
      have hid : id' = id := by
        refine h.fit.sound.uid_inj hr' hr (huid'.trans huid.symm) fun hempty => h.nonempty ?_
        exact huid'.symm.trans hempty ▸ hin
      subst hid
      exact nomatch (hclear.cold hlist hr' hpool).symm.trans hw

end Follows

/-! ## Whole runs -/

/-- How many MicroVMs of a Pool are `AVAILABLE` or `PRE_LEASE_HOOK_RUNNING`. -/
def PoolManager.warmCount (p : PoolManager) (ref : PoolRef) : Nat :=
  (p.vmsOf ref).countP fun e => e.2.phase.warm

/-- The Pool is made again only if every MicroVM of it was past any claim when it
was deleted. -/
def NoneLeft (ref : PoolRef) (p : PoolManager) : Label → Prop
  | .createPool spec => spec.ref = ref → ref ∉ p.left
  | _ => True

/-- What a run keeps to for its Tracker to be right about the Pool. -/
def Lasting (ref : PoolRef) (p : PoolManager) (l : Label) : Prop :=
  FreshUIDs p l ∧ NoneLeft ref p l

instance (ref : PoolRef) (p : PoolManager) : DecidablePred (NoneLeft ref p)
  | .createPool _ => inferInstanceAs (Decidable (_ → ¬ _))
  | .run | .updatePool _ | .deletePool _ _ | .claimVM _ _ _ | .heartbeat _ _ _ | .releaseVM _
  | .tick _ | .resume _ _ _ => .isTrue trivial

instance (ref : PoolRef) (p : PoolManager) : DecidablePred (Lasting ref p) := fun l =>
  inferInstanceAs (Decidable (FreshUIDs p l ∧ NoneLeft ref p l))

/-- A Pool that was left behind is gone, and one that was not is followed. -/
structure Inv (ref : PoolRef) (p₀ : TrackedPool) (t : Told) : Prop where
  fit : t.custody.Fit
  gone : ref ∈ t.left → t.custody.pools ref = none
  good : ref ∉ t.left → Follows ref p₀ t ∧ t.custody.Clear ref

section Runs

variable {cfg : FakeConfig} {ref : PoolRef} {p₀ : TrackedPool} {p p' : PoolManager} {l : Label}
  {t t' : Told} {a : Tell}

theorem Custody.pools_of_leads {c c' : Custody} {m : Move} (hnext : c.next m = some c') :
    ∀ e ∈ c.leads m, (c.pools e.pool).isSome = true := by
  have hfailure : ∀ {f vm quarantined}, f.hooks = some vm → c.alive vm = true →
      ∀ e ∈ c.failure f quarantined, (c.pools e.pool).isSome = true := by
    intro f vm quarantined hvm halive e he
    obtain ⟨⟨r, hr⟩, hpool⟩ := Custody.alive_spec halive
    unfold Custody.failure at he
    rw [hvm, elim_some, hr] at he
    exact mem_singleton.mp he ▸ hpool
  cases m with
  | ready vm uid =>
    obtain ⟨⟨-, halive⟩, -⟩ := ite_none_right_eq_some.mp hnext
    exact fun e he => mem_singleton.mp he ▸ (Custody.alive_spec halive).2
  | lease vm a requestID leaseID again =>
    obtain ⟨⟨-, halive, -⟩, -⟩ := ite_none_right_eq_some.mp hnext
    obtain ⟨⟨r, hr⟩, hpool⟩ := Custody.alive_spec halive
    dsimp only [Custody.leads]
    rw [hr]
    exact fun e he => mem_singleton.mp he ▸ hpool
  | quarantine f | fail f caller =>
    obtain ⟨vm, hvm, hc⟩ := bind_eq_some_iff.mp hnext
    obtain ⟨hguard, -⟩ := ite_none_right_eq_some.mp hc
    exact hfailure hvm (by first | exact hguard.2 | exact hguard.2.1)
  | createPool _ _ _ | updatePool _ _ | deletePool _ _ | reserve _ | proceed _ _ | giveUp _ | name _ _
  | stray _ _ | hook _ _ | pick _ _ _ | leave _ | condemn _ _ _ _ | doom _ _ | pass _ _ | finish _ _
  | forget _ => nofun

theorem Custody.deletes_of_leaves {c : Custody} {m : Move} {gone : List PoolRef}
    (h : c.Leaves gone m) (hin : ref ∈ gone) : ∃ vms, m = .deletePool ref vms := by
  cases m with
  | deletePool key vms =>
    rcases h with rfl | ⟨rfl, -⟩
    · obtain rfl := mem_singleton.mp hin
      exact ⟨vms, rfl⟩
    · cases hin
  | createPool _ _ _ | updatePool _ _ | reserve _ | proceed _ _ | giveUp _ | name _ _ | stray _ _
  | hook _ _ | ready _ _ | pick _ _ _ | lease _ _ _ _ _ | quarantine _ | fail _ _ | leave _
  | condemn _ _ _ _ | doom _ _ | pass _ _ | finish _ _ | forget _ =>
    rw [show gone = [] from h] at hin
    cases hin

/-- A Pool that was left behind is gone. -/
structure Gone (ref : PoolRef) (w : List Poolmgr.Event) (t : Told) : Prop where
  fit : t.custody.Fit
  left : ref ∈ t.left
  pools : t.custody.pools ref = none
  said : ofPool ref t.said = ofPool ref w

/-- Nothing is said of a Pool that was left behind. -/
theorem Gone.step {w : List Poolmgr.Event} (h : Gone ref w t) (hok : Lasting ref p l)
    (hleft : ref ∈ p.left) (htell : Tells p l t a) (hnext : tells.next t a = some t') :
    Gone ref w t' := by
  have hnot : ∀ {es : List Poolmgr.Event}, (∀ e ∈ es, (t.custody.pools e.pool).isSome = true) →
      ofPool ref (t.said ++ es) = ofPool ref w := by
    intro es hes
    have hnil : ofPool ref es = [] := by
      refine filter_eq_nil_iff.mpr fun e he hpool => ?_
      have hsome := hes e he
      rw [of_decide_eq_true hpool, h.pools] at hsome
      cases hsome
    rw [ofPool_append, hnil, append_nil, h.said]
  cases a with
  | say e =>
    obtain rfl := some.inj hnext
    exact ⟨h.fit, h.left, h.pools, hnot fun e' he' => mem_singleton.mp he' ▸ htell.2.1⟩
  | move m gone =>
    obtain ⟨c, hc, rfl⟩ := map_eq_some_iff.mp hnext
    refine ⟨h.fit.step (fresh_of_admits hok.1 htell.2.1) hc, mem_append_right _ h.left, ?_,
      hnot (Custody.pools_of_leads hc)⟩
    by_contra hsome
    obtain ⟨b, hb⟩ := ne_none_iff_exists'.mp hsome
    rcases (Custody.rest hc).pools hb with hb | ⟨spec, rfl⟩
    · exact nomatch h.pools.symm.trans hb
    · obtain ⟨-, ⟨-, spec', rfl, heq, -⟩, -⟩ := htell
      exact hok.2 heq hleft

/-- A Pool that was not is followed, and stays clear unless it is left behind. -/
theorem good_step (hok : Lasting ref p l) (hleft : ref ∉ p.left) (htell : Tells p l t a)
    (hnext : tells.next t a = some t') (h : Follows ref p₀ t) (hclear : t.custody.Clear ref) :
    Follows ref p₀ t' ∧ (ref ∈ t'.left → t'.custody.pools ref = none) ∧
      (ref ∉ t'.left → t'.custody.Clear ref) := by
  cases a with
  | say e =>
    obtain rfl := some.inj hnext
    exact ⟨h.say hclear htell.2.2, fun hin => absurd (htell.1 ▸ hin) hleft, fun _ => hclear⟩
  | move m gone =>
    obtain ⟨c, hc, rfl⟩ := map_eq_some_iff.mp hnext
    obtain ⟨hsame, hadm, hleaves⟩ := htell
    have hfresh := fresh_of_admits hok.1 hadm
    refine ⟨h.move hclear hfresh hc, fun hin => ?_, fun hin => ?_⟩
    all_goals
      rw [show gone ++ t.left = gone ++ p.left from hsame ▸ rfl, mem_append] at hin
    · obtain ⟨vms, rfl⟩ := Custody.deletes_of_leaves hleaves (hin.resolve_right hleft)
      obtain ⟨-, ⟨⟩⟩ := ite_none_right_eq_some.mp hc
      exact Function.update_self ..
    · by_cases hm : ∃ vms, m = .deletePool ref vms
      · obtain ⟨vms, rfl⟩ := hm
        rcases hleaves with rfl | ⟨-, hall⟩
        · exact absurd (.inl mem_cons_self) hin
        · exact hclear.delete h.fit.sound hall hc
      · exact hclear.step h.fit (fun vms heq => hm ⟨vms, heq⟩) hc

/-- A section keeps the invariant. If it publishes an event of the Pool, it leaves
the Tracker right about it. -/
theorem Inv.step (hi : Inv ref p₀ (p.told [])) (hok : Lasting ref p l)
    (h : p.next cfg l = some p') : Inv ref p₀ (p'.told []) ∧
      (ofPool ref p'.news.1 ≠ ofPool ref p.news.1 → Follows ref p₀ (p'.told [])) := by
  have hpath := (step_tells h hi.fit.sound.recorded).path
  by_cases hleft : ref ∈ p.left
  · have hgone : Gone ref p.news.1 (p'.told []) := hpath.inv
      (fun t a t' hgone htell hnext => hgone.step hok hleft htell hnext)
      ⟨hi.fit, hleft, hi.gone hleft, rfl⟩
    exact ⟨⟨hgone.fit, fun _ => hgone.pools, fun hnot => absurd hgone.left hnot⟩,
      fun hne => absurd hgone.said hne⟩
  · obtain ⟨hfollows, hclear⟩ := hi.good hleft
    obtain ⟨hfollows, hgone, hclear⟩ := hpath.inv (I := fun t => Follows ref p₀ t ∧
      (ref ∈ t.left → t.custody.pools ref = none) ∧ (ref ∉ t.left → t.custody.Clear ref))
      (fun t a t' ⟨hf, _, hc⟩ htell hnext => by
        have hsame : t.left = p.left := by cases a <;> exact htell.1
        exact good_step hok hleft htell hnext hf (hc (hsame ▸ hleft)))
      ⟨hfollows, fun hin => absurd hin hleft, fun _ => hclear⟩
    exact ⟨⟨hfollows.fit, hgone, fun hin => ⟨hfollows, hclear hin⟩⟩, fun _ => hfollows⟩

theorem Inv.reach (h₀ : p₀.Unused) (h : (poolManager cfg).Reach (Lasting ref) p) :
    Inv ref p₀ (p.told []) := by
  refine h.inv (I := fun p => Inv ref p₀ (p.told [])) ?_ fun q l q' hi hok hnext => (hi.step hok hnext).1
  rintro q rfl
  have hnone : ∀ uid, uid ∉ (tracked ref p₀ (PoolManager.new.told []).said).available.named := by
    intro uid
    show uid ∉ p₀.available.named
    rw [h₀.available]
    exact Finset.notMem_empty uid
  refine ⟨fit_new, nofun, fun _ => ⟨⟨fit_new, ⟨h₀.exhausted, congrArg UidCount.unnamed h₀.available⟩,
    hnone "", fun uid => ⟨fun h => absurd h (hnone uid), ?_⟩⟩, nofun, fun _ => nofun⟩⟩
  rintro ⟨id, r, hr, -⟩
  cases hr

theorem news_step (h : p.next cfg l = some p') (hb : (p.custody []).Bounded) :
    p.news.1 <+: p'.news.1 := by
  refine (step_tells h hb).path.inv (I := fun t => p.news.1 <+: t.said) (fun t a t' hpre _ hnext => ?_)
    (prefix_refl _)
  cases a with
  | say e =>
    obtain rfl := some.inj hnext
    exact hpre.trans (prefix_append ..)
  | move m gone =>
    obtain ⟨c, -, rfl⟩ := map_eq_some_iff.mp hnext
    exact hpre.trans (prefix_append ..)

/-- **The Tracker follows the Pool Manager**, in a run that makes the Pool again
only if its MicroVMs were past any claim when it was deleted: after every section
that publishes an event of the Pool, a Tracker that applied every event from the
first on counts the MicroVMs that are `AVAILABLE` or `PRE_LEASE_HOOK_RUNNING`. -/
theorem tracker_follows {t : PoolTracker} (ht : t.pools.lookup ref = some p₀) (h₀ : p₀.Unused)
    (hp : (poolManager cfg).Reach (Lasting ref) p) (hok : Lasting ref p l)
    (h : p.next cfg l = some p') (he : ∃ e ∈ p'.log.drop p.log.length, e.pool = ref) :
    (t.applyEvents (p'.log.map Event.decoded)).available ref true = p'.warmCount ref := by
  have hi := Inv.reach h₀ hp
  obtain ⟨es, hes⟩ := news_step h hi.fit.sound.recorded
  have hfollows : Follows ref p₀ (p'.told []) := by
    refine (hi.step hok h).2 fun hsame => ?_
    obtain ⟨e, he, hpool⟩ := he
    rw [← hes, ofPool_append, append_right_eq_self] at hsame
    have hin : e.decoded ∈ es := by
      have hdrop := List.mem_map_of_mem (f := Event.decoded) he
      rw [map_drop, show p'.log.map Event.decoded = p.news.1 ++ es from hes.symm,
        show p.log.length = p.news.1.length from (length_map ..).symm, drop_left] at hdrop
      exact hdrop
    exact filter_eq_nil_iff.mp hsame _ hin (decide_eq_true hpool)
  rw [PoolTracker.available_applyEvents _ ht]
  refine (hfollows.allNamed.availableCount ((TrackedPool.applyAll_declared _ _).trans h₀.declared)).trans ?_
  rw [hfollows.card_named]
  exact congrArg Nat.cast (PoolManager.countP_vmsOf hfollows.fit.sound.recorded ref VMPhase.warm).symm

end Runs

/-! ### A Pool that is made again -/

/-- A Tracker that tracks the Pool before anything happened. -/
def soloTracker : PoolTracker := (PoolTracker.new.track soloRef true).1

/-- The Pool is deleted with its MicroVM, and made again. -/
def soloMadeAgain : List Label :=
  [.deletePool (soloEnv [1] [soloRef]) soloRef,
   .resume (.deletePool soloRef [soloVM] none) (soloEnv [] []) (.ok ""),
   .resume (.deleting soloVM "host-a" "vm-1" (.deletePool soloRef [] none)) (soloEnv [] []) (.ok ""),
   .resume (.deletePool soloRef [] none) (soloEnv [] []) (.ok ""),
   .createPool soloSpec]

theorem soloTracker_unused : ∃ p₀, soloTracker.pools.lookup soloRef = some p₀ ∧ p₀.Unused :=
  ⟨_, rfl, rfl, rfl, rfl⟩

/-- The Pool's MicroVM becomes available, and the Tracker counts it. -/
theorem tracker_follows_hooked : ∃ p p', (poolManager soloConfig).Reach (Lasting soloRef) p ∧
    p.next soloConfig soloHooked = some p' ∧ p'.warmCount soloRef = 1 ∧
    (soloTracker.applyEvents (p'.log.map Event.decoded)).available soloRef true
      = p'.warmCount soloRef := by
  obtain ⟨p₀, ht, h₀⟩ := soloTracker_unused
  have hreach := Machine.reach_run (M := poolManager soloConfig)
    (Lasting soloRef) soloCreated rfl rfl
  have hlasting : Lasting soloRef (((poolManager soloConfig).execWhile
      (fun p l => decide (Lasting soloRef p l)) .new soloCreated).get rfl) soloHooked :=
    ⟨trivial, trivial⟩
  exact ⟨_, _, hreach, rfl, rfl, tracker_follows ht h₀ hreach hlasting rfl (by decide)⟩

/-- **A MicroVM that is counted for good**: the Pool is deleted while its
MicroVM is available, and made again once the MicroVM is gone. The new Pool's
first event finds a Tracker that still counts the old Pool's MicroVM. -/
theorem deleted_microVM_counted : ∃ p p', (poolManager soloConfig).Reach FreshUIDs p ∧
    p.next soloConfig (.tick (soloEnv [] [soloRef])) = some p' ∧
    (∃ e ∈ p'.log.drop p.log.length, e.pool = soloRef) ∧ p'.warmCount soloRef = 0 ∧
    (soloTracker.applyEvents (p'.log.map Event.decoded)).available soloRef true = 1 := by
  have hreach := Machine.reach_run (M := poolManager soloConfig)
    FreshUIDs (soloCreated ++ soloHooked :: soloMadeAgain) rfl rfl
  exact ⟨_, _, hreach, rfl, by decide, rfl, by decide⟩

end Fake

end FlintlockRunner.Poolmgr

import FlintlockRunner.Base.Assoc
import FlintlockRunner.Poolmgr.Fake.Custody
import FlintlockRunner.Poolmgr.Feed

/-!
# Sections are moves

Every section of the fake Pool Manager is a run of moves and events
(`step_tells`), and `Admits` says of which moves: a uid is learnt only from a
Host's answer, a Pool is made only by `createPool`, a MicroVM is picked only by a
claim that found no Lease for its request id, and a tick reserves by the counts it
found. An event comes with the move it is about, or no available MicroVM hangs on
it (`Idle`). What holds of every such run holds of the Pool Manager.
-/

namespace FlintlockRunner.Poolmgr.Fake

open Assoc Function List Multiset Option

/-! ## What a section may do -/

namespace Custody

variable (c : Custody)

/-- Every record has an id that was given out. -/
def Bounded : Prop := ∀ ⦃id r⦄, c.vms id = some r → id ≤ c.last

/-- The MicroVMs of a Pool in a phase of some kind. -/
def among (key : PoolRef) (P : VMPhase → Bool) : Finset Nat :=
  (Finset.range (c.last + 1)).filter fun id =>
    (c.vms id).any fun r => decide (r.pool = key) && P r.phase

theorem count_eq (key : PoolRef) (P : VMPhase → Bool) :
    c.count key P = (c.among key P).card := rfl

theorem mem_among {c : Custody} (hb : c.Bounded) {key : PoolRef} {P : VMPhase → Bool} {id : Nat} :
    id ∈ c.among key P ↔ ∃ r, c.vms id = some r ∧ r.pool = key ∧ P r.phase = true := by
  rw [among, Finset.mem_filter, Finset.mem_range, Option.any_eq_true]
  constructor
  · rintro ⟨-, r, hr, hP⟩
    exact ⟨r, hr, (Bool.and_eq_true_iff.mp hP).imp_left of_decide_eq_true⟩
  · rintro ⟨r, hr, hpool, hP⟩
    exact ⟨Nat.lt_succ_of_le (hb hr), r, hr,
      Bool.and_eq_true_iff.mpr ⟨decide_eq_true hpool, hP⟩⟩

theorem count_le_count {c c' : Custody} (hb : c.Bounded) (hb' : c'.Bounded) {key : PoolRef}
    {P Q : VMPhase → Bool}
    (h : ∀ {id r}, c.vms id = some r → r.pool = key → P r.phase = true →
      ∃ r', c'.vms id = some r' ∧ r'.pool = key ∧ Q r'.phase = true) :
    c.count key P ≤ c'.count key Q := by
  refine Finset.card_le_card fun id hid => (mem_among hb').mpr ?_
  obtain ⟨r, hr, hpool, hP⟩ := (mem_among hb).mp hid
  exact h hr hpool hP

/-- Some reservations later. -/
structure Ahead (c₀ c : Custody) : Prop where
  pools : c.pools = c₀.pools
  specs : c.specs = c₀.specs
  last : c₀.last ≤ c.last
  kept : ∀ {id r}, c₀.vms id = some r → c.vms id = some r
  new : ∀ {id r}, c.vms id = some r → c₀.vms id = some r ∨ r.phase = .provisioning

/-- No Lease carries the request id. -/
def Unclaimed (requestID : String) : Prop :=
  ∀ ⦃id g⦄, c.leases id = some g → g.requestID = requestID → requestID = ""

end Custody

/-- The moves of a section. -/
def Admits (p : PoolManager) (l : Label) (c : Custody) : Move → Prop
  | .createPool key _ spec =>
    c = p.custody [] ∧ ∃ spec', l = .createPool spec' ∧ spec'.ref = key ∧ validateSpec spec' = .ok spec
  | .updatePool key spec =>
    ∃ spec', l = .updatePool spec' ∧ spec'.ref = key ∧ validateSpec spec' = .ok spec
  | .deletePool key _ => ∃ env, l = .deletePool env key
  | .reserve _ => (p.custody []).Ahead c ∧ ∃ env, l = .tick env
  | .name vm uid | .stray vm uid =>
    c = p.custody [] ∧ ∃ env, l = .resume (.create vm) env (.ok uid)
  | .pick vm _ requestID =>
    c = p.custody [] ∧ c.Unclaimed requestID ∧ ∃ env, l = .claimVM env vm.pool requestID
  | .lease vm a requestID leaseID _ =>
    c = p.custody [] ∧ ∃ env text,
      l = .resume (.preLease vm a requestID) env (.ok text) ∧ env.leaseID = leaseID
  | _ => True

/-- No available MicroVM hangs on an event: the Tracker has no case for it, or it
counts the Pool's MicroVMs, or it is about one that is on a list. -/
def Custody.Idle (c : Custody) (e : Poolmgr.Event) : Prop :=
  e.type = .unspecified ∨ e.type = .vmProvisioned ∨
  (e.vmUID = "" ∧ ∃ size, e.type = .poolSizeBelowTarget (some ⟨c.counts e.pool, size⟩)) ∨
  (e.type.takesAway = true ∧ ∃ id r, c.vms id = some r ∧ r.uid = e.vmUID ∧ c.Listed id)

/-- A Pool is left behind where it is deleted, unless its MicroVMs are past any
claim. -/
def Custody.Leaves (c : Custody) (gone : List PoolRef) : Move → Prop
  | .deletePool key _ => gone = [key] ∨
    gone = [] ∧ ∀ ⦃id r⦄, c.vms id = some r → r.pool = key → r.phase.settled = true
  | _ => gone = []

/-- The moves and events of a section. -/
def Tells (p : PoolManager) (l : Label) (t : Told) : Tell → Prop
  | .move m gone => t.left = p.left ∧ Admits p l t.custody m ∧ t.custody.Leaves gone m
  | .say e => t.left = p.left ∧ (t.custody.pools e.pool).isSome = true ∧ t.custody.Idle e

/-! ## Writes of the sections -/

variable {key : PoolRef} {p' : PoolManager}

namespace PoolManager

variable {cfg : FakeConfig} {env : Env} {p : PoolManager} {fs : List Frame}

theorem custody_modifyPool {a : Nat} {g : PoolState → PoolState}
    (hg : ∀ ps, (g ps).spec = ps.spec) : (p.modifyPool a g).custody fs = p.custody fs := by
  refine Custody.ext rfl ?_ rfl rfl rfl rfl rfl rfl
  exact funext fun b => modifyPool_spec hg b

@[simp] theorem custody_answer (a : Answer) : (p.answer a).custody fs = p.custody fs := rfl

@[simp] theorem custody_emitLocked (key : PoolRef) (uid : String) (type : EventType) :
    (p.emitLocked key uid type).custody fs = p.custody fs := by
  unfold emitLocked
  split
  · rfl
  · exact custody_modifyPool (p := p) fun _ => rfl

@[simp] theorem custody_emitDeleted (p : PoolManager) (fs : List Frame) (ref : PoolRef) (vms : List (Nat × VM)) :
    (p.emitDeleted ref vms).custody fs = p.custody fs := by
  unfold emitDeleted
  induction vms generalizing p with
  | nil => rfl
  | cons e vms ih =>
    refine (ih (p := if e.2.uid ≠ "" then _ else p)).trans ?_
    split
    · exact custody_emitLocked ..
    · rfl

@[simp] theorem custody_push (f : Frame) : (p.push f).custody fs = (p.custody fs).enter f := by
  refine Custody.ext rfl rfl rfl rfl rfl ?_ rfl rfl
  exact coe_eq_coe.mpr perm_middle

theorem custody_frames (gs : List Frame) :
    ({ p with frames := gs ++ p.frames } : PoolManager).custody fs = p.custody (gs ++ fs) := by
  refine Custody.ext rfl rfl rfl rfl rfl ?_ rfl rfl
  show ((fs ++ (gs ++ p.frames) : List Frame) : Multiset Frame)
    = ((gs ++ fs ++ p.frames : List Frame) : Multiset Frame)
  refine coe_eq_coe.mpr ?_
  rw [← append_assoc]
  exact perm_append_comm.append_right _

theorem custody_drop {f : Frame} (hf : f ∈ p.frames) :
    (p.drop f).custody fs = (p.custody fs).leave f := by
  refine Custody.ext rfl rfl rfl rfl rfl ?_ rfl rfl
  show ((fs ++ p.frames.erase f : List Frame) : Multiset Frame)
    = ((fs ++ p.frames : List Frame) : Multiset Frame).erase f
  rw [← coe_add, ← coe_add, ← coe_erase,
    erase_add_right_pos _ (mem_coe.mpr hf)]

variable {id : Nat}

theorem custody_modifyVM {g : VM → VM} (g' : Record → Record) (hg : ∀ v, (g v).record = g' v.record) :
    (p.modifyVM id g).custody fs = { p.custody fs with
      vms := Function.update (p.custody fs).vms id (((p.custody fs).vms id).map g') } := by
  unfold modifyVM
  cases hv : p.vms.lookup id with
  | none =>
    refine Custody.ext rfl rfl ?_ rfl rfl rfl rfl rfl
    have hvms : (p.custody fs).vms id = none := congrArg (Option.map VM.record) hv
    rw [hvms]
    exact (update_eq_self_iff.mpr hvms.symm).symm
  | some v =>
    refine Custody.ext rfl rfl ((map_lookup_insert p.vms id VM.record (g v)).trans ?_) rfl rfl rfl rfl
      rfl
    have hvms : (p.custody fs).vms id = some v.record := congrArg (Option.map VM.record) hv
    rw [hvms, hg]
    rfl

theorem custody_modifyVM_same {g : VM → VM} (hg : ∀ v, (g v).record = v.record) :
    (p.modifyVM id g).custody fs = p.custody fs := by
  rw [custody_modifyVM (fun r => r) hg]
  refine Custody.ext rfl rfl ?_ rfl rfl rfl rfl rfl
  exact update_eq_self_iff.mpr Option.map_id'

@[simp] theorem custody_setPhaseLocked (now : Time) (id : Nat) (phase : VMPhase) :
    (p.setPhaseLocked now id phase).custody fs = (p.custody fs).setPhase id phase :=
  custody_modifyVM _ fun _ => rfl

theorem custody_insertUID (uid : String) (id : Nat) :
    ({ p with vmByUID := p.vmByUID.insert uid id } : PoolManager).custody fs
      = { p.custody fs with names := Function.update (p.custody fs).names uid (some id) } :=
  Custody.ext rfl rfl rfl (lookup_insert_eq ..) rfl rfl rfl rfl

theorem custody_name (id : Nat) (uid : String) (now : Time) :
    ({ p.modifyVM id fun v => { v with uid := uid, updated := now } with
      vmByUID := (p.modifyVM id fun v => { v with uid := uid, updated := now }).vmByUID.insert uid
        id } : PoolManager).custody fs = (p.custody fs).name id uid := by
  rw [custody_insertUID, custody_modifyVM (fun r => { r with uid := uid }) fun _ => rfl]
  rfl

theorem custody_remove (p : PoolManager) (fs : List Frame) {v : VM} (hv : p.vms.lookup id = some v)
    :
    ({ p with
      vms := p.vms.erase id
      vmByUID := if v.uid ≠ "" then p.vmByUID.erase v.uid else p.vmByUID } : PoolManager).custody fs
      = (p.custody fs).remove id := by
  have hr : (p.custody fs).vms id = some v.record := congrArg (Option.map VM.record) hv
  refine Custody.ext rfl rfl (map_lookup_erase ..) ?_ rfl rfl rfl rfl
  unfold Custody.remove
  rw [hr]
  show (fun u => (if v.uid ≠ "" then p.vmByUID.erase v.uid else p.vmByUID).lookup u)
    = if v.uid ≠ "" then update (p.custody fs).names v.uid none else (p.custody fs).names
  split
  · exact lookup_erase_eq ..
  · rfl

theorem custody_eraseVM (id : Nat) :
    ({ p with vms := p.vms.erase id } : PoolManager).custody fs = (p.custody fs).unreserve id :=
  Custody.ext rfl rfl (map_lookup_erase ..) rfl rfl rfl rfl rfl

@[simp] theorem custody_dropLeaseLocked (id : String) :
    (p.dropLeaseLocked id).custody fs = (p.custody fs).forget id := by
  have herase : ({ p with leases := p.leases.erase id } : PoolManager).custody fs
      = (p.custody fs).forget id :=
    Custody.ext rfl rfl rfl rfl (map_lookup_erase ..) rfl rfl rfl
  unfold dropLeaseLocked
  cases hls : p.leases.lookup id with
  | none =>
    have hnone : (p.custody fs).leases id = none := congrArg (Option.map LeaseRecord.grant) hls
    refine Custody.ext rfl rfl rfl rfl ?_ rfl rfl rfl
    exact (update_eq_self_iff.mpr hnone.symm).symm
  | some ls =>
    dsimp only
    split
    · exact herase
    · refine (custody_modifyPool ?_).trans herase
      exact fun _ => rfl

@[simp] theorem custody_deleteReturned (err : Option String) (caller : Caller) :
    (p.deleteReturned err caller).custody fs = { p.custody fs with
      frames := (caller.frames err : Multiset Frame) + (p.custody fs).frames } := by
  cases caller with
  | deletePool ref rest firstErr =>
    refine (custody_push _).trans ?_
    rfl
  | background | claimVM ref requestID cause | releaseVM leaseID =>
    exact Custody.ext rfl rfl rfl rfl rfl (Multiset.zero_add _).symm rfl rfl

theorem vms_custody (p : PoolManager) (fs : List Frame) {v : VM} (h : p.vms.lookup id = some v) :
    (p.custody fs).vms id = some v.record := congrArg (Option.map VM.record) h

theorem alive_custody (vm : VMRef) : (p.custody fs).alive vm = p.aliveLocked vm := by
  unfold Custody.alive aliveLocked
  show (((p.vms.lookup vm.id).map VM.record).isSome && _) = _
  rw [isSome_map]
  rfl

theorem specOf_custody (key : PoolRef) : (p.custody fs).specOf key = p.specOf key := rfl

/-! ### News -/

theorem told_eq {q : PoolManager} {c : Custody} (hc : q.custody fs = c) :
    q.told fs = ⟨c, q.news.1, q.news.2.1⟩ := hc ▸ rfl

theorem news_modifyVM (id : Nat) (g : VM → VM) : (p.modifyVM id g).news = p.news := by
  unfold modifyVM
  split <;> rfl

theorem news_dropLeaseLocked (id : String) : (p.dropLeaseLocked id).news = p.news := by
  unfold dropLeaseLocked
  split
  · rfl
  · dsimp only
    split <;> rfl

theorem news_answer {a : Answer} (ha : a.claim = none) : (p.answer a).news = p.news := by
  refine Prod.ext rfl (Prod.ext rfl ?_)
  show (p.answers ++ [a]).filterMap Answer.claim = _
  rw [filterMap_append, filterMap_cons_none ha, filterMap_nil, append_nil]
  rfl

theorem news_deleteReturned (err : Option String) (caller : Caller) :
    (p.deleteReturned err caller).news = p.news := by
  cases caller with
  | background | deletePool ref rest firstErr => rfl
  | claimVM ref requestID cause | releaseVM leaseID => exact news_answer rfl

/-- What `emitLocked` publishes. -/
def emission (p : PoolManager) (key : PoolRef) (uid : String) (type : EventType) :
    List Poolmgr.Event := (p.pools.lookup key).elim [] fun _ => [⟨key, uid, type.decoded⟩]

theorem news_emitLocked (key : PoolRef) (uid : String) (type : EventType) :
    (p.emitLocked key uid type).news = (p.news.1 ++ p.emission key uid type, p.news.2) := by
  unfold emitLocked emission
  cases p.pools.lookup key with
  | none => exact Prod.ext (append_nil _).symm rfl
  | some a => exact Prod.ext (map_append ..) rfl

theorem emission_eq (fs : List Frame) (hkey : ((p.custody fs).pools key).isSome = true)
    (uid : String) (type : EventType) : p.emission key uid type = [⟨key, uid, type.decoded⟩] := by
  obtain ⟨a, ha⟩ := isSome_iff_exists.mp hkey
  unfold emission
  rw [show p.pools.lookup key = some a from ha]
  rfl

theorem mem_emission (fs : List Frame) {uid : String} {type : EventType} {e : Poolmgr.Event}
    (he : e ∈ p.emission key uid type) :
    ((p.custody fs).pools e.pool).isSome = true ∧ e = ⟨key, uid, type.decoded⟩ := by
  unfold emission at he
  cases hkey : p.pools.lookup key with
  | none =>
    rw [hkey] at he
    cases he
  | some a =>
    rw [hkey] at he
    obtain rfl := List.mem_singleton.mp he
    exact ⟨isSome_iff_exists.mpr ⟨a, hkey⟩, rfl⟩

/-- The events of a section are about Pools that exist, and the Tracker has no case
for them. -/
def Quiet (p : PoolManager) (es : List Poolmgr.Event) : Prop :=
  ∀ e ∈ es, (p.pools.lookup e.pool).isSome = true ∧ e.type = .unspecified

theorem quiet_emission {uid : String} {type : EventType} (htype : type.decoded = .unspecified) :
    p.Quiet (p.emission key uid type) := by
  intro e he
  obtain ⟨hkey, rfl⟩ := mem_emission [] he
  exact ⟨hkey, htype⟩

theorem news_emitDeleted (ref : PoolRef) (vms : List (Nat × VM)) : ∀ p : PoolManager, ∃ es,
    (p.emitDeleted ref vms).news = (p.news.1 ++ es, p.news.2) ∧ p.Quiet es := by
  induction vms with
  | nil => exact fun p => ⟨[], Prod.ext (append_nil _).symm rfl, nofun⟩
  | cons e vms ih =>
    intro p
    by_cases huid : e.2.uid ≠ ""
    · obtain ⟨es, hnews, hquiet⟩ := ih (p.emitLocked ref e.2.uid .vmDeletedOnPoolDelete)
      have hpools : (p.emitLocked ref e.2.uid .vmDeletedOnPoolDelete).pools.lookup = p.pools.lookup :=
        congrArg Custody.pools (show custody [] _ = p.custody [] from custody_emitLocked ..)
      refine ⟨p.emission ref e.2.uid .vmDeletedOnPoolDelete ++ es, ?_, fun e' he' => ?_⟩
      · unfold emitDeleted
        rw [List.foldl_cons, if_pos huid]
        refine hnews.trans ?_
        rw [news_emitLocked, append_assoc]
      · rcases mem_append.mp he' with he' | he'
        · exact quiet_emission rfl e' he'
        · obtain ⟨hin, htype⟩ := hquiet e' he'
          exact ⟨congrFun hpools e'.pool ▸ hin, htype⟩
    · unfold emitDeleted
      rw [List.foldl_cons, if_neg huid]
      exact ih p

theorem news_reserveN (cfg : FakeConfig) (env : Env) (key : PoolRef) (a n : Nat) :
    ∀ p : PoolManager,
    (reserveN cfg env key a n p).1.news = p.news ∧ (reserveN cfg env key a n p).1.pools = p.pools := by
  induction n with
  | zero => exact fun p => ⟨rfl, rfl⟩
  | succ n ih =>
    intro p
    rw [reserveN]
    split
    · exact ⟨rfl, rfl⟩
    · rename_i q vm hreserve
      obtain ⟨-, host, heap, rfl, -⟩ := reserve_eq hreserve
      exact ih _

theorem news_provisionNLocked (cfg : FakeConfig) (env : Env) (p : PoolManager) (key : PoolRef)
    (a n : Nat) : ∃ es,
      (p.provisionNLocked cfg env key a n).news = (p.news.1 ++ es, p.news.2) ∧ p.Quiet es := by
  have hnone : p.news = (p.news.1 ++ [], p.news.2) := Prod.ext (append_nil _).symm rfl
  unfold provisionNLocked
  split
  · exact ⟨[], hnone, nofun⟩
  · obtain ⟨hnews, hpools⟩ := news_reserveN cfg env key a n p
    split
    · rename_i q hq
      rw [hq] at hnews
      exact ⟨[], hnews.trans hnone, nofun⟩
    · rename_i q reserved _ hq
      rw [hq] at hnews hpools
      refine ⟨q.emission key "" .poolReplenishing, ?_, fun e he => ?_⟩
      · refine (news_emitLocked (p := q) key "" .poolReplenishing).trans ?_
        rw [show q.news = p.news from hnews]
      · rw [← show q.pools = p.pools from hpools]
        exact quiet_emission rfl e he

/-! ### Reservations -/

theorem custody_reserve {a : Nat} {vm : VMRef} (h : p.reserve cfg env key a = some (p', vm)) :
    (p'.custody (.provision vm :: fs)) = (p.custody fs).reserve key := by
  obtain ⟨rfl, host, heap, rfl, hheap⟩ := reserve_eq h
  exact Custody.ext rfl (funext hheap) (map_lookup_insert ..) rfl rfl rfl rfl rfl

theorem custody_reserveN (key : PoolRef) (a n : Nat) : ∀ (p : PoolManager) (fs : List Frame),
    ∃ k ≤ n, (reserveN cfg env key a n p).1.custody
        ((reserveN cfg env key a n p).2.map Frame.provision ++ fs)
      = (fun c => Custody.reserve c key)^[k] (p.custody fs) ∧
      ((reserveN cfg env key a n p).2 = [] → k = 0) := by
  induction n with
  | zero => exact fun p fs => ⟨0, le_rfl, rfl, fun _ => rfl⟩
  | succ n ih =>
    intro p fs
    rw [reserveN]
    split
    · exact ⟨0, Nat.zero_le _, rfl, fun _ => rfl⟩
    · rename_i q vm hreserve
      obtain ⟨k, hk, heq, -⟩ := ih q (.provision vm :: fs)
      refine ⟨k + 1, Nat.succ_le_succ hk, ?_, fun h => absurd h (cons_ne_nil _ _)⟩
      rw [iterate_succ_apply, ← custody_reserve hreserve, ← heq]
      refine Custody.ext rfl rfl rfl rfl rfl ?_ rfl rfl
      refine coe_eq_coe.mpr ?_
      simp only [List.map_cons, cons_append, append_assoc]
      exact perm_middle.symm

theorem custody_provisionNLocked (cfg : FakeConfig) (env : Env) (p : PoolManager) (fs : List Frame)
    (key : PoolRef) (a n : Nat) :
    ∃ k ≤ n, (p.provisionNLocked cfg env key a n).custody fs
      = (fun c => Custody.reserve c key)^[k] (p.custody fs) := by
  unfold provisionNLocked
  split
  · exact ⟨0, Nat.zero_le _, rfl⟩
  · obtain ⟨k, hk, heq, hnone⟩ := custody_reserveN key a n p fs
    split
    · rename_i q hq
      rw [hq] at heq hnone
      exact ⟨k, hk, heq⟩
    · rename_i q reserved _ hq
      rw [hq] at heq
      exact ⟨k, hk, (custody_frames _).trans ((custody_emitLocked ..).trans heq)⟩

theorem custody_provisionOne (cfg : FakeConfig) (env : Env) (p : PoolManager) (fs : List Frame)
    (key : PoolRef) (a : Nat) {n : Nat} (hn : n ≤ 1) :
    ∃ again : Bool, (again = true → n = 1) ∧
      (p.provisionNLocked cfg env key a n).custody fs = (p.custody fs).reserveIf again key := by
  obtain ⟨k, hk, heq⟩ := custody_provisionNLocked cfg env p fs key a n
  rcases Nat.le_one_iff_eq_zero_or_eq_one.mp (hk.trans hn) with rfl | rfl
  · exact ⟨false, nofun, heq⟩
  · exact ⟨true, fun _ => le_antisymm hn hk, heq⟩

/-! ### Counts -/

theorem foldl_count (l : List (Nat × VM)) : ∀ c : PoolStatus,
    l.foldl (fun c e => count c e.2.phase) c =
      { available := c.available + l.countP fun e => e.2.phase = .available
        leased := c.leased
          + l.countP fun e => e.2.phase = .leased || e.2.phase = .preLeaseHookRunning
        provisioning := c.provisioning
          + l.countP fun e => e.2.phase = .provisioning || e.2.phase = .createHookRunning
        quarantined := c.quarantined + l.countP fun e => e.2.phase = .quarantined } := by
  induction l with
  | nil => simp
  | cons e l ih =>
    intro c
    rw [List.foldl_cons, ih]
    cases hphase : e.2.phase <;> simp [count, hphase] <;> omega

theorem countP_vmsOf (hb : (p.custody fs).Bounded) (key : PoolRef) (P : VMPhase → Bool) :
    ((p.vmsOf key).countP fun e => P e.2.phase) = (p.custody fs).count key P := by
  have hnodup : (((p.vmsOf key).filter fun e => P e.2.phase).map Prod.fst).Nodup := by
    refine List.Nodup.map_on ?_ ((p.nodup_vmsOf key).filter _)
    rintro ⟨id, v⟩ hin ⟨id', v'⟩ hin' rfl
    have hv := (mem_vmsOf.mp (List.mem_filter.mp hin).1).1
    have hv' := (mem_vmsOf.mp (List.mem_filter.mp hin').1).1
    rw [some.inj (hv.symm.trans hv')]
  have hset : (p.custody fs).among key P
      = (((p.vmsOf key).filter fun e => P e.2.phase).map Prod.fst).toFinset := by
    ext id
    rw [Custody.mem_among hb, List.mem_toFinset, List.mem_map]
    constructor
    · rintro ⟨r, hr, hpool, hP⟩
      obtain ⟨v, hv, rfl⟩ := map_eq_some_iff.mp hr
      exact ⟨(id, v), List.mem_filter.mpr ⟨mem_vmsOf.mpr ⟨hv, hpool⟩, hP⟩, rfl⟩
    · rintro ⟨⟨id', v⟩, hin, rfl⟩
      obtain ⟨hin, hP⟩ := List.mem_filter.mp hin
      obtain ⟨hv, hpool⟩ := mem_vmsOf.mp hin
      exact ⟨v.record, p.vms_custody fs hv, hpool, hP⟩
  rw [Custody.count_eq, hset, List.toFinset_card_of_nodup hnodup, length_map,
    countP_eq_length_filter]

theorem counts_custody (hb : (p.custody fs).Bounded) (key : PoolRef) :
    (p.custody fs).counts key = p.countsLocked key := by
  have hcount := countP_vmsOf hb key
  unfold countsLocked Custody.counts
  rw [foldl_count]
  simp only [← hcount, Int.zero_add]

end PoolManager

/-! ## Reservations of a tick -/

namespace Custody

variable {c c₀ : Custody} {key : PoolRef}

theorem count_reserve (key' : PoolRef) (P : VMPhase → Bool) :
    (c.reserve key).count key' P
      = c.count key' P + if key = key' ∧ P .provisioning = true then 1 else 0 := by
  have hold : ((Finset.range (c.last + 1)).filter fun id =>
      ((c.reserve key).vms id).any fun r => decide (r.pool = key') && P r.phase)
      = (Finset.range (c.last + 1)).filter fun id =>
        (c.vms id).any fun r => decide (r.pool = key') && P r.phase := by
    refine Finset.filter_congr fun id hid => ?_
    have hne : id ≠ c.last + 1 := Nat.ne_of_lt (Finset.mem_range.mp hid)
    rw [show (c.reserve key).vms id = c.vms id from update_of_ne hne _ _]
  have hnew : (c.reserve key).vms (c.last + 1) = some ⟨"", key, .provisioning⟩ :=
    update_self ..
  unfold count
  rw [show (c.reserve key).last = c.last + 1 from rfl, Finset.range_add_one, Finset.filter_insert,
    hold, hnew]
  by_cases hcond : key = key' ∧ P .provisioning = true
  · rw [if_pos hcond, if_pos (by simp [hcond]), Finset.card_insert_of_notMem (by simp)]
  · rw [if_neg hcond, if_neg (by simpa using hcond)]
    rfl

theorem Bounded.reserve (hb : c.Bounded) : (c.reserve key).Bounded := by
  intro id r hr
  by_cases hid : id = c.last + 1
  · exact le_of_eq hid
  · rw [show (c.reserve key).vms id = c.vms id from update_of_ne hid _ _] at hr
    exact Nat.le_succ_of_le (hb hr)

theorem deficit_reserve : (c.reserve key).deficit key = c.deficit key - 1 := by
  have hspec : (c.reserve key).specOf key = c.specOf key := rfl
  have hcounts : (c.reserve key).counts key
      = { c.counts key with provisioning := (c.counts key).provisioning + 1 } := by
    unfold counts
    simp only [count_reserve]
    simp
  unfold deficit
  rw [hspec, hcounts]
  cases c.specOf key with
  | none => rfl
  | some spec =>
    dsimp only [elim_some, tickDeficit]
    cases spec.replenishment.type with
    | minSizeThreshold =>
      dsimp only
      split <;> omega
    | immediateOnLease | replaceOnDelete =>
      dsimp only
      omega
    | unspecified => rfl

theorem Ahead.refl (c : Custody) : c.Ahead c := ⟨rfl, rfl, le_rfl, id, .inl⟩

theorem Ahead.reserve (ha : c₀.Ahead c) (hb : c.Bounded) : c₀.Ahead (c.reserve key) where
  pools := ha.pools
  specs := ha.specs
  last := Nat.le_succ_of_le ha.last
  kept h := by
    have hne : _ ≠ c.last + 1 := Nat.ne_of_lt (Nat.lt_succ_of_le (hb (ha.kept h)))
    exact (update_of_ne hne _ _).trans (ha.kept h)
  new {id r} h := by
    by_cases hid : id = c.last + 1
    · rw [hid, show (c.reserve key).vms (c.last + 1) = _ from update_self ..] at h
      exact .inr (some.inj h ▸ rfl)
    · exact ha.new ((update_of_ne hid _ _).symm.trans h)

end Custody

/-! ## The sections -/

section Sections

open PoolManager

variable {cfg : FakeConfig} {env : Env} {p : PoolManager} {l : Label} {t : Told} {c c' : Custody}
  {vm : VMRef} {q : PoolManager} {f : Frame} {g : Frame} {caller : Caller} {uid : String} {a : Nat}

/-- A move that comes with no event. -/
def Move.silent : Move → Bool
  | .ready _ _ | .lease _ _ _ _ _ | .quarantine _ | .fail _ _ | .deletePool _ _ => false
  | _ => true

theorem Custody.silent_spec (c : Custody) {m : Move} (hm : m.silent = true) :
    c.leads m = [] ∧ c.Leaves [] m := by
  cases m with
  | ready _ _ | lease _ _ _ _ _ | quarantine _ | fail _ _ | deletePool _ _ => cases hm
  | createPool _ _ _ | updatePool _ _ | reserve _ | proceed _ _ | giveUp _ | name _ _ | stray _ _
  | hook _ _ | pick _ _ _ | leave _ | condemn _ _ _ _ | doom _ _ | pass _ _ | finish _ _
  | forget _ => exact ⟨rfl, rfl⟩

variable (m : Move)

theorem silent_move (hleft : t.left = p.left) (hok : Admits p l t.custody m)
    (hm : m.silent = true) (h : t.custody.next m = some c') :
    tells.Path (Tells p l) t { t with custody := c' } := by
  obtain ⟨hleads, hleaves⟩ := t.custody.silent_spec hm
  refine .head (a := .move m []) ⟨hleft, hok, hleaves⟩ ?_ (.refl _)
  show (t.custody.next m).map _ = _
  rw [h, hleads]
  exact congrArg some (congrArg (fun es => Told.mk c' es t.left) (append_nil _))

variable (es : List Poolmgr.Event)

theorem publishes : ∀ {t : Told}, t.left = p.left →
    (∀ e ∈ es, (t.custody.pools e.pool).isSome = true ∧ t.custody.Idle e) →
    tells.Path (Tells p l) t { t with said := t.said ++ es } := by
  induction es with
  | nil =>
    intro t _ _
    rw [append_nil]
    exact .refl _
  | cons e es ih =>
    intro t hleft hes
    have hrest := ih (t := { t with said := t.said ++ [e] }) hleft fun e' he' =>
      hes e' (List.mem_cons_of_mem _ he')
    rw [show t.said ++ [e] ++ es = t.said ++ e :: es from append_assoc ..] at hrest
    exact .head (a := .say e) ⟨hleft, hes e List.mem_cons_self⟩ rfl hrest

theorem idle_of_quiet {es : List Poolmgr.Event} (hquiet : q.Quiet es)
    (hpools : c.pools = (q.custody []).pools) :
    ∀ e ∈ es, (c.pools e.pool).isSome = true ∧ c.Idle e := fun e he =>
  ⟨hpools ▸ (hquiet e he).1, .inl (hquiet e he).2⟩

/-- A Lease carries the request id. -/
def PoolManager.Granted (p : PoolManager) (requestID leaseID : String) : Prop :=
  ∃ ls, p.leases.lookup leaseID = some ls ∧ ls.requestID = requestID

/-- What a section adds to the claims that succeeded: nothing, or one whose Lease is
there after the section. -/
def Grants (p p' : PoolManager) : Prop :=
  p'.claims = p.claims ∨ ∃ requestID res, p'.claims = p.claims ++ [(requestID, res)] ∧
    (requestID ≠ "" → p'.Granted requestID res.leaseID)

/-- Moves and events lead from the state before a section to the state after it, and
a claim that succeeds has its Lease. -/
structure Retold (p : PoolManager) (l : Label) (q : PoolManager) : Prop where
  path : tells.Path (Tells p l) (p.told []) (q.told [])
  grants : Grants p q

theorem Retold.of_path {said : List Poolmgr.Event} (hc : q.custody [] = c)
    (hnews : q.news = (said, p.news.2))
    (h : tells.Path (Tells p l) (p.told []) ⟨c, said, p.left⟩) : Retold p l q := by
  refine ⟨?_, .inl (congrArg (·.2.2) hnews)⟩
  rw [told_eq hc, hnews]
  exact h

/-- A section that is one move, and events after it. -/
theorem one_move_path
    (hsaid : q.news.1 = p.news.1 ++ (p.custody []).leads m ++ es) (hleft : q.left = p.left)
    (hok : Admits p l (p.custody []) m) (hgone : (p.custody []).Leaves [] m)
    (h : (p.custody []).next m = some (q.custody []))
    (hes : ∀ e ∈ es, ((q.custody []).pools e.pool).isSome = true ∧ (q.custody []).Idle e) :
    tells.Path (Tells p l) (p.told []) (q.told []) := by
  have hnext : tells.next (p.told []) (.move m [])
      = some ⟨q.custody [], p.news.1 ++ (p.custody []).leads m, p.left⟩ := by
    show ((p.custody []).next m).map _ = _
    rw [h]
    rfl
  refine .head (a := .move m []) ⟨rfl, hok, hgone⟩ hnext ?_
  rw [PoolManager.told, hsaid, show q.news.2.1 = p.left from hleft]
  exact publishes (t := ⟨q.custody [], _, p.left⟩) es rfl hes

theorem one_move
    (hnews : q.news = (p.news.1 ++ (p.custody []).leads m ++ es, p.news.2))
    (hok : Admits p l (p.custody []) m) (hgone : (p.custody []).Leaves [] m)
    (h : (p.custody []).next m = some (q.custody []))
    (hes : ∀ e ∈ es, ((q.custody []).pools e.pool).isSome = true ∧ (q.custody []).Idle e) :
    Retold p l q :=
  ⟨one_move_path m es (congrArg (·.1) hnews) (congrArg (·.2.1) hnews) hok hgone h hes,
    .inl (congrArg (·.2.2) hnews)⟩

theorem silent (hnews : q.news = p.news) (hok : Admits p l (p.custody []) m)
    (hm : m.silent = true) (h : (p.custody []).next m = some (q.custody [])) : Retold p l q :=
  .of_path rfl hnews (silent_move (t := p.told []) m rfl hok hm h)

theorem unmoved (hc : q.custody [] = p.custody []) (hnews : q.news = p.news) :
    Retold p l q := .of_path hc hnews (.refl _)

theorem answered {a : Answer} (ha : a.claim = none) : Retold p l (p.answer a) :=
  unmoved rfl (news_answer ha)

theorem mem_custody (hf : f ∈ p.frames) : f ∈ (p.custody []).frames :=
  mem_coe.mpr hf

/-! ### Goroutines -/

theorem provision_tells (hf : .provision vm ∈ p.frames) (reply : Except String String) :
    Retold p l ((p.drop (.provision vm)).provision vm reply) := by
  unfold provision
  split
  · refine silent (.giveUp (.provision vm)) rfl trivial rfl ?_
    rw [custody_eraseVM, custody_drop hf]
    exact if_pos (mem_custody hf)
  · split
    · refine silent (.proceed (.provision vm) (.dropReserved vm)) rfl trivial rfl ?_
      rw [custody_push, custody_drop hf]
      exact if_pos ⟨mem_custody hf, rfl, rfl⟩
    · refine silent (.proceed (.provision vm) (.create vm)) rfl trivial rfl ?_
      rw [custody_push, custody_drop hf]
      exact if_pos ⟨mem_custody hf, rfl, rfl⟩

theorem giveUp_tells (hf : f ∈ p.frames) (hearly : f.early = some vm) :
    Retold p l { p.drop f with vms := p.vms.erase vm.id } := by
  refine silent (.giveUp f) rfl trivial rfl ?_
  refine Eq.trans ?_ (congrArg some (custody_eraseVM (p := p.drop f) vm.id).symm)
  rw [custody_drop hf]
  show (if _ then f.early.map _ else none) = _
  rw [if_pos (mem_custody hf), hearly]
  rfl

theorem created_tells (hf : .create vm ∈ p.frames) (reply : Except String String) :
    Retold p (.resume (.create vm) env reply) ((p.drop (.create vm)).created env vm reply) := by
  unfold created
  split
  · exact giveUp_tells hf rfl
  · rename_i uid
    split
    · exact giveUp_tells hf rfl
    · rename_i huid
      dsimp only
      generalize hq : ({ p.drop (.create vm) with
        uids := uid :: (p.drop (.create vm)).uids } : PoolManager) = q
      have hlearn : q.custody [] = ((p.custody []).leave (.create vm)).learn uid := by
        rw [← custody_drop hf, ← hq]
        rfl
      have hnews : q.news = p.news := hq ▸ rfl
      have halive : (p.custody []).alive vm = q.aliveLocked vm := by
        rw [← alive_custody, hlearn]
        rfl
      split
      · refine silent (.stray vm uid) hnews ⟨rfl, env, rfl⟩ rfl ?_
        rw [hlearn]
        exact if_pos ⟨mem_custody hf, huid⟩
      · rename_i hlive
        have hnamed : _ = (q.custody []).name vm.id uid := custody_name vm.id uid env.now
        have hsaid := news_modifyVM (p := q) vm.id fun v =>
          { v with uid := uid, updated := env.now }
        generalize hd : ({ q.modifyVM vm.id _ with vmByUID := _ } : PoolManager) = d at hnamed ⊢
        refine one_move (.name vm uid) (d.emission vm.pool uid .vmProvisioned) ?_
          ⟨rfl, env, rfl⟩ rfl ?_ fun e he => ?_
        · rw [show (p.custody []).leads (.name vm uid) = [] from rfl, append_nil, ← hnews,
            ← hsaid, show (q.modifyVM vm.id _).news = d.news from hd ▸ rfl]
          exact news_emitLocked vm.pool uid .vmProvisioned
        · rw [custody_push, custody_emitLocked, hnamed, hlearn]
          refine if_pos ⟨mem_custody hf, huid, ?_⟩
          rw [halive]
          exact Bool.eq_true_of_not_eq_false hlive
        · rw [custody_push, custody_emitLocked]
          obtain ⟨hkey, rfl⟩ := mem_emission [] he
          exact ⟨hkey, .inr (.inl rfl)⟩

theorem applyHookFailurePolicy_tells (hf : f ∈ p.frames) (hhooks : f.hooks = some vm)
    (hdeletes : caller.deletes = []) (hframes : caller.frames none = []) :
    Retold p l ((p.drop f).applyHookFailurePolicy env vm caller) := by
  have hreturned : ∀ q : PoolManager, (q.deleteReturned none caller).custody [] = q.custody [] := by
    intro q
    rw [custody_deleteReturned, hframes]
    exact Custody.ext rfl rfl rfl rfl rfl (Multiset.zero_add _) rfl rfl
  unfold applyHookFailurePolicy
  split
  · rename_i v spec hv hspec
    have hpool : ((p.custody []).pools vm.pool).isSome = true := by
      obtain ⟨a, ha, -⟩ := bind_eq_some_iff.mp hspec
      exact isSome_iff_exists.mpr ⟨a, ha⟩
    have halive : (p.custody []).alive vm = true := by
      rw [alive_custody]
      exact Bool.and_eq_true_iff.mpr ⟨hv ▸ rfl, hpool⟩
    have hrecord : ((p.drop f).modifyVM vm.id fun v => { v with leaseID := "" }).custody []
        = (p.custody []).leave f := by
      refine (custody_modifyVM_same ?_).trans (custody_drop hf)
      exact fun _ => rfl
    have hfailure : ∀ quarantined, (p.custody []).failure f quarantined
        = [⟨vm.pool, v.uid, .vmHookFailed quarantined⟩] := by
      intro quarantined
      unfold Custody.failure
      rw [hhooks, elim_some, vms_custody p [] hv]
      rfl
    -- what is published, whatever the policy
    have hnews : (((p.drop f).modifyVM vm.id fun v => { v with leaseID := "" }).emitLocked vm.pool
        v.uid (.vmHookFailed spec.hookFailurePolicy)).news
        = (p.news.1 ++ (p.custody []).failure f (spec.hookFailurePolicy = .quarantine) ++ [],
          p.news.2) := by
      rw [news_emitLocked, news_modifyVM, append_nil, hfailure,
        emission_eq []]
      · rfl
      · rw [hrecord]
        exact hpool
    dsimp only
    split
    · rename_i hpolicy
      rw [hpolicy] at hnews ⊢
      refine one_move (.quarantine f) [] ?_ trivial rfl ?_ nofun
      · rw [news_deleteReturned]
        exact (news_modifyVM ..).trans hnews
      · rw [hreturned, custody_setPhaseLocked, custody_emitLocked, hrecord]
        show (f.hooks.bind _) = _
        rw [hhooks]
        exact if_pos ⟨mem_custody hf, halive⟩
    · rename_i hpolicy
      rw [decide_eq_false hpolicy] at hnews
      refine one_move (.fail f caller) [] ?_ trivial rfl ?_ nofun
      · exact (news_modifyVM ..).trans hnews
      · rw [custody_push, custody_setPhaseLocked,
          custody_emitLocked, hrecord]
        show (f.hooks.bind _) = _
        rw [hhooks]
        exact if_pos ⟨mem_custody hf, halive, hdeletes⟩
  · refine silent (.leave f) (news_deleteReturned ..) trivial rfl ?_
    rw [hreturned, custody_drop hf]
    exact if_pos (mem_custody hf)

theorem leave_tells (hf : f ∈ p.frames)
    (hc : q.custody [] = (p.drop f).custody []) (hnews : q.news = p.news) : Retold p l q := by
  refine silent (.leave f) hnews trivial rfl ?_
  rw [hc, custody_drop hf]
  exact if_pos (mem_custody hf)

theorem waited_tells (hf : .waitCreated vm uid ∈ p.frames) (reply : Except String String) :
    Retold p l ((p.drop (.waitCreated vm uid)).waited env vm uid reply) := by
  unfold waited
  split
  · exact applyHookFailurePolicy_tells hf rfl rfl rfl
  · split
    · exact leave_tells hf rfl rfl
    · rename_i hlive
      refine silent (.hook vm uid) (news_modifyVM ..) trivial rfl ?_
      rw [custody_push, custody_setPhaseLocked, custody_drop hf]
      refine if_pos ⟨mem_custody hf, ?_⟩
      rw [alive_custody]
      exact Bool.eq_true_of_not_eq_false hlive

theorem hooked_tells (hf : .createHooks vm uid ∈ p.frames) (reply : Except String String) :
    Retold p l ((p.drop (.createHooks vm uid)).hooked env vm uid reply) := by
  unfold hooked
  split
  · exact applyHookFailurePolicy_tells hf rfl rfl rfl
  · split
    · exact leave_tells hf rfl rfl
    · rename_i hlive
      have halive : (p.custody []).alive vm = true := by
        rw [alive_custody]
        exact Bool.eq_true_of_not_eq_false hlive
      refine one_move (.ready vm uid) [] ?_ trivial rfl ?_ nofun
      · rw [news_emitLocked, emission_eq [], append_nil]
        · exact congrArg (fun n : _ × _ => (n.1 ++ _, n.2)) (news_modifyVM vm.id _)
        · rw [custody_setPhaseLocked, custody_drop hf]
          exact (Bool.and_eq_true_iff.mp halive).2
      · rw [custody_emitLocked, custody_setPhaseLocked,
          custody_drop hf]
        exact if_pos ⟨mem_custody hf, halive⟩

variable {requestID : String}

theorem claims_answer_ok {ref : PoolRef} {res : ClaimResult} :
    (p.answer (.claimVM ref requestID (.ok res))).claims = p.claims ++ [(requestID, res)] := by
  show (p.answers ++ [_]).filterMap Answer.claim = _
  rw [filterMap_append]
  rfl

theorem told_claimed (cfg : FakeConfig) (env : Env) {v : VM}
    {ps : PoolState} (requestID text : String) (hv : p.vms.lookup vm.id = some v)
    (hlive : p.aliveLocked vm = true) (hps : p.heap[a]? = some ps)
    (h : p.claimed cfg env vm a requestID (.ok text) = q) :
    ∃ (again : Bool) (es : List Poolmgr.Event),
      (again = true → ps.spec.replenishment.type = .immediateOnLease) ∧
      q.custody [] = (((p.custody []).setPhase vm.id .leased).grant env.leaseID
        ⟨v.uid, requestID⟩).reserveIf again vm.pool ∧
      q.news.1 = p.news.1 ++ [⟨vm.pool, v.uid, .vmClaimed⟩] ++ es ∧
      q.left = p.left ∧ p.Quiet es ∧ Grants p q := by
  subst h
  generalize hc : ((p.custody []).setPhase vm.id .leased).grant env.leaseID ⟨v.uid, requestID⟩ = c
  unfold claimed
  rw [hv, hlive, hps]
  dsimp only
  rw [custody_answer]
  generalize hq : emitLocked _ vm.pool v.uid .vmClaimed = q
  have hleased : q.custody [] = c := by
    rw [← hc, ← hq, custody_emitLocked,
      custody_modifyVM (fun r => { r with phase := .leased }) fun _ => rfl]
    exact Custody.ext rfl rfl rfl rfl (map_lookup_insert ..) rfl rfl rfl
  have hnews : q.news = (p.news.1 ++ [⟨vm.pool, v.uid, .vmClaimed⟩], p.news.2) := by
    rw [← hq, news_emitLocked, news_modifyVM,
      emission_eq []]
    · rfl
    · rw [custody_modifyVM (fun r => { r with phase := .leased }) fun _ => rfl]
      exact (Bool.and_eq_true_iff.mp hlive).2
  have hle : onClaimed ps.spec ≤ 1 := by
    unfold onClaimed
    split <;> omega
  obtain ⟨again, hone, heq⟩ := custody_provisionOne cfg env q [] vm.pool a hle
  obtain ⟨es, hes, hquiet⟩ := news_provisionNLocked cfg env q vm.pool a (onClaimed ps.spec)
  have hpools : q.pools.lookup = p.pools.lookup := congrArg Custody.pools (hleased.trans hc.symm)
  have hafter : (q.provisionNLocked cfg env vm.pool a (onClaimed ps.spec)).custody []
      = c.reserveIf again vm.pool := hleased ▸ heq
  rw [hnews] at hes
  refine ⟨again, es, fun h => ?_, hafter, congrArg (·.1) hes, congrArg (·.2.1) hes, fun e he => ?_, ?_⟩
  · by_contra hne
    have hzero : onClaimed ps.spec = 0 := if_neg hne
    exact absurd (hone h) (hzero ▸ Nat.zero_ne_one)
  · exact congrFun hpools e.pool ▸ hquiet e he
  · have hclaims : (q.provisionNLocked cfg env vm.pool a (onClaimed ps.spec)).claims = p.claims :=
      congrArg (·.2.2) hes
    split
    · exact .inl ((congrArg (·.2.2) (news_answer rfl)).trans hclaims)
    · refine .inr ⟨requestID, _, by rw [claims_answer_ok, hclaims], fun _ => ?_⟩
      -- the Lease that was made
      have hlease := congrFun (congrArg Custody.leases hafter) env.leaseID
      have hmade : (c.reserveIf again vm.pool).leases env.leaseID = some ⟨v.uid, requestID⟩ := by
        rw [← hc]
        cases again <;> exact update_self ..
      obtain ⟨ls, hls, hgrant⟩ := map_eq_some_iff.mp (hlease.trans hmade)
      exact ⟨ls, hls, congrArg Grant.requestID hgrant⟩

theorem claimed_tells
    (hf : .preLease vm a requestID ∈ p.frames) (reply : Except String String) :
    Retold p (.resume (.preLease vm a requestID) env reply)
      ((p.drop (.preLease vm a requestID)).claimed cfg env vm a requestID reply) := by
  cases reply with
  | error cause =>
    unfold claimed
    exact applyHookFailurePolicy_tells hf rfl rfl rfl
  | ok text =>
    by_cases hmake : ∃ v ps, p.vms.lookup vm.id = some v ∧ p.aliveLocked vm = true ∧
        p.heap[a]? = some ps
    · obtain ⟨v, ps, hv, hlive, hps⟩ := hmake
      obtain ⟨again, es, htype, heq, hsaid, hleft, hquiet, hgrants⟩ := told_claimed cfg env
        (p := p.drop (.preLease vm a requestID)) requestID text hv hlive hps rfl
      have hr : (p.custody []).vms vm.id = some v.record := p.vms_custody [] hv
      have hspec : (p.custody []).specs a = some ps.spec := congrArg (Option.map PoolState.spec) hps
      have hguard : (p.custody []).alive vm = true := (alive_custody vm).trans hlive
      refine ⟨one_move_path (.lease vm a requestID env.leaseID again) es ?_ hleft
        ⟨rfl, env, text, rfl, rfl⟩ rfl ?_ (idle_of_quiet hquiet ?_), hgrants⟩
      · rw [hsaid]
        dsimp only [Custody.leads]
        rw [hr]
        rfl
      · show (if _ then _ else none) = _
        rw [heq, custody_drop hf, if_pos ⟨mem_custody hf, hguard, hspec ▸ rfl,
          fun h => hspec ▸ congrArg some (htype h)⟩, hr]
        rfl
      · rw [heq]
        cases again <;> rfl
    · unfold claimed
      dsimp only
      split
      · rename_i v ps hv hlive hps
        exact absurd ⟨v, ps, hv, hlive, hps⟩ hmake
      · exact leave_tells hf rfl (news_answer rfl)

/-! ### Deletions -/

theorem returned_tells (hleft : t.left = p.left)
    (hg : g ∈ t.custody.frames) (hworks : g.works = none) (hsub : caller.deletes ⊆ g.deletes)
    (err : Option String) : tells.Path (Tells p l) t { t with custody := { t.custody with
      frames := (caller.frames err : Multiset Frame) + t.custody.frames.erase g } } := by
  refine silent_move (.pass g (caller.frames err)) hleft trivial rfl (if_pos ⟨hg, hworks, ?_⟩)
  cases caller with
  | deletePool ref rest firstErr =>
    intro f hf
    obtain rfl := List.mem_singleton.mp hf
    exact Bool.and_eq_true_iff.mpr
      ⟨Bool.and_eq_true_iff.mpr ⟨decide_eq_true rfl, decide_eq_true hsub⟩, rfl⟩
  | background | claimVM ref requestID cause | releaseVM leaseID => nofun

theorem deleteVM_tells {event : Option DeleteEvent}
    (hg : g ∈ p.frames) (hworks : g.works = none) (hvm : vm ∈ g.deletes)
    (hsub : caller.deletes ⊆ g.deletes) : Retold p l ((p.drop g).deleteVM env vm event caller) := by
  have hdoom : tells.Path (Tells p l) (p.told [])
      { p.told [] with custody := (p.custody []).setPhase vm.id .deleting } :=
    silent_move (.doom g vm) rfl trivial rfl (if_pos ⟨mem_custody hg, hvm⟩)
  unfold deleteVM
  split
  · refine .of_path (custody_deleteReturned ..) (news_deleteReturned ..) ?_
    rw [custody_drop hg]
    exact returned_tells (t := p.told []) rfl (mem_custody hg) hworks hsub none
  · rename_i v hv
    dsimp only
    generalize hq : modifyVM _ vm.id _ = q
    have hdeleting : q.custody [] = ((p.custody []).leave g).setPhase vm.id .deleting := by
      rw [← hq, custody_modifyVM_same, custody_setPhaseLocked,
        custody_drop hg]
      exact fun _ => rfl
    have hnews : q.news = p.news := by
      rw [← hq, news_modifyVM]
      exact news_modifyVM ..
    split
    · refine .of_path (custody_deleteReturned ..) ((news_deleteReturned ..).trans hnews)
        (hdoom.trans ?_)
      rw [hdeleting]
      exact returned_tells (t := ⟨(p.custody []).setPhase vm.id .deleting, _, _⟩) rfl
        (mem_custody hg) hworks hsub _
    · refine .of_path (custody_push _) hnews (hdoom.trans ?_)
      rw [hdeleting]
      refine silent_move (.pass g [.deleting vm v.host v.uid caller])
        (t := ⟨(p.custody []).setPhase vm.id .deleting, _, _⟩) rfl trivial rfl ?_
      refine if_pos ⟨mem_custody hg, hworks, fun f hf => ?_⟩
      obtain rfl := List.mem_singleton.mp hf
      have hr : ((p.custody []).setPhase vm.id .deleting).vms vm.id
          = some { v.record with phase := .deleting } := by
        show update _ vm.id _ vm.id = _
        rw [update_self, p.vms_custody [] hv]
        rfl
      refine Bool.and_eq_true_iff.mpr ⟨Bool.and_eq_true_iff.mpr ⟨decide_eq_true rfl, ?_⟩, ?_⟩
      · exact decide_eq_true (List.cons_subset.mpr ⟨hvm, hsub⟩)
      · show Option.all _ (((p.custody []).setPhase vm.id .deleting).vms vm.id) = true
        rw [hr]
        rfl

theorem told_onDeleted (cfg : FakeConfig) (env : Env) (hp : p.custody [] = c)
    (ha : c.pools key = some a) :
    ∃ (again : Bool) (es : List Poolmgr.Event),
      (again = true → (c.specOf key).map (·.replenishment.type) = some .replaceOnDelete) ∧
      (p.provisionNLocked cfg env key a
        (((p.heap[a]?).map fun ps => onDeleted ps.spec).getD 0)).custody []
        = c.reserveIf again key ∧
      (p.provisionNLocked cfg env key a
        (((p.heap[a]?).map fun ps => onDeleted ps.spec).getD 0)).news
        = (p.news.1 ++ es, p.news.2) ∧
      ∀ e ∈ es, (c.pools e.pool).isSome = true ∧ e.type = .unspecified := by
  subst hp
  have hspec : (p.custody []).specOf key = (p.heap[a]?).map PoolState.spec := by
    unfold Custody.specOf
    rw [ha]
    rfl
  have hle : ((p.heap[a]?).map fun ps => onDeleted ps.spec).getD 0 ≤ 1 := by
    cases p.heap[a]? with
    | none => exact Nat.zero_le 1
    | some ps =>
      show onDeleted ps.spec ≤ 1
      unfold onDeleted
      split <;> omega
  obtain ⟨again, hone, heq⟩ := custody_provisionOne cfg env p [] key a hle
  obtain ⟨es, hnews, hquiet⟩ := news_provisionNLocked cfg env p key a
    (((p.heap[a]?).map fun ps => onDeleted ps.spec).getD 0)
  refine ⟨again, es, fun h => ?_, heq, hnews, hquiet⟩
  have hsome := hone h
  rw [hspec]
  cases hps : p.heap[a]? with
  | none =>
    rw [hps] at hsome
    exact absurd hsome Nat.zero_ne_one
  | some ps =>
    rw [hps] at hsome
    by_contra hne
    have hzero : onDeleted ps.spec = 0 := if_neg fun htype => hne (congrArg some htype)
    exact absurd (hsome.symm.trans hzero) Nat.one_ne_zero

theorem told_finishDeletionLocked (cfg : FakeConfig) (env : Env) (p : PoolManager) (vm : VMRef) :
    p.finishDeletionLocked cfg env vm = p ∨
    ∃ r, (p.custody []).vms vm.id = some r ∧ ∃ (again : Bool) (c : Custody) (es : List Poolmgr.Event),
      (again = true →
        ((p.custody []).specOf vm.pool).map (·.replenishment.type) = some .replaceOnDelete) ∧
      (c = (p.custody []).remove vm.id ∨
        ∃ leaseID, c = ((p.custody []).remove vm.id).forget leaseID) ∧
      (p.finishDeletionLocked cfg env vm).custody [] = c.reserveIf again vm.pool ∧
      (p.finishDeletionLocked cfg env vm).news = (p.news.1 ++ es, p.news.2) ∧
      ∀ e ∈ es, ((p.custody []).pools e.pool).isSome = true ∧
        (e.type = .unspecified ∨ e.type.takesAway = true ∧ r.uid = e.vmUID) := by
  unfold finishDeletionLocked
  split
  · exact .inl rfl
  · rename_i v hv
    refine .inr ⟨v.record, p.vms_custody [] hv, ?_⟩
    dsimp only
    have hremove := p.custody_remove [] hv
    generalize hq : ({ p with
      vms := p.vms.erase vm.id
      vmByUID := if v.uid ≠ "" then p.vmByUID.erase v.uid else p.vmByUID } : PoolManager) = q
      at hremove ⊢
    generalize hq' : (if v.leaseID ≠ "" then q.dropLeaseLocked v.leaseID else q) = q'
    have hlease : q'.custody [] = (p.custody []).remove vm.id ∨
        ∃ leaseID, q'.custody [] = ((p.custody []).remove vm.id).forget leaseID := by
      rw [← hq', ← hremove]
      split
      · exact .inr ⟨_, custody_dropLeaseLocked _⟩
      · exact .inl rfl
    have hnews : q'.news = p.news := by
      rw [← hq', show p.news = q.news from hq ▸ rfl]
      split
      · exact news_dropLeaseLocked _
      · rfl
    have hpools : (q'.custody []).pools = (p.custody []).pools := by
      rcases hlease with h | ⟨leaseID, h⟩ <;> rw [h] <;> rfl
    have hspecs : (q'.custody []).specOf = (p.custody []).specOf := by
      rcases hlease with h | ⟨leaseID, h⟩ <;> rw [h] <;> rfl
    split
    · exact ⟨false, _, [], nofun, hlease, rfl, hnews.trans (Prod.ext (append_nil _).symm rfl),
        nofun⟩
    · rename_i a ha
      cases v.deleteEvent with
      | none =>
        obtain ⟨again, es, hspec, heq, hn, hes⟩ := told_onDeleted cfg env (p := q') rfl ha
        exact ⟨again, _, es, hspecs ▸ hspec, hlease, heq, hnews ▸ hn, fun e he =>
          ⟨hpools ▸ (hes e he).1, .inl (hes e he).2⟩⟩
      | some event =>
        obtain ⟨again, es, hspec, heq, hn, hes⟩ := told_onDeleted cfg env
          (q'.custody_emitLocked vm.pool v.uid event.type) ha
        refine ⟨again, _, q'.emission vm.pool v.uid event.type ++ es, hspecs ▸ hspec, hlease, heq, ?_,
          fun e he => ?_⟩
        · rw [hn, news_emitLocked, hnews, append_assoc]
        · rcases mem_append.mp he with he | he
          · obtain ⟨hkey, rfl⟩ := mem_emission [] he
            exact ⟨hpools ▸ hkey, .inr ⟨by cases event <;> rfl, rfl⟩⟩
          · exact ⟨hpools ▸ (hes e he).1, .inl (hes e he).2⟩

theorem leave_remove (hg : g ∈ c.frames) (id : Nat) (again : Bool) (key : PoolRef) :
    ((c.leave g).remove id).reserveIf again key = ((c.remove id).reserveIf again key).leave g := by
  cases again with
  | false => rfl
  | true =>
    refine Custody.ext rfl rfl rfl rfl rfl ?_ rfl rfl
    exact (erase_cons_tail_of_mem hg).symm

theorem finishDeletion_tells (hg : g ∈ p.frames) (hworks : g.works = none)
    (hfinishes : g.finishes = some vm) (hvm : vm ∈ g.deletes) (hsub : caller.deletes ⊆ g.deletes)
    (hq : q.custody [] = (p.custody []).leave g) (hnews : q.news = p.news) :
    Retold p l ((q.finishDeletionLocked cfg env vm).deleteReturned none caller) := by
  have hreturned := news_deleteReturned (p := q.finishDeletionLocked cfg env vm) none caller
  rcases told_finishDeletionLocked cfg env q vm with hsame | ⟨r, hr, again, c, es, hspec, hc, heq, hn, hes⟩
  · rw [hsame] at hreturned ⊢
    refine .of_path (custody_deleteReturned ..) (hreturned.trans hnews) ?_
    rw [hq]
    exact returned_tells (t := p.told []) rfl (mem_custody hg) hworks hsub none
  · rw [hq] at hr hspec hes
    have hsay : tells.Path (Tells p l) (p.told []) { p.told [] with said := p.news.1 ++ es } := by
      refine publishes (t := p.told []) es rfl fun e he => ?_
      obtain ⟨hpool, htype⟩ := hes e he
      refine ⟨hpool, ?_⟩
      rcases htype with htype | ⟨htype, huid⟩
      · exact .inl htype
      · exact .inr (.inr (.inr ⟨htype, vm.id, r, hr, huid, g, mem_custody hg, vm, hvm, rfl⟩))
    have hfinish : (p.custody []).next (.finish g again)
        = some (((p.custody []).remove vm.id).reserveIf again vm.pool) := by
      show (g.finishes.bind _) = _
      rw [hfinishes]
      exact if_pos ⟨mem_custody hg, isSome_iff_exists.mpr ⟨r, hr⟩, hspec⟩
    have hmem : g ∈ (((p.custody []).remove vm.id).reserveIf again vm.pool).frames := by
      cases again with
      | false => exact mem_custody hg
      | true => exact Multiset.mem_cons_of_mem (mem_custody hg)
    have hpath := hsay.trans (silent_move (t := { p.told [] with said := p.news.1 ++ es })
      (.finish g again) rfl trivial rfl hfinish)
    refine .of_path (custody_deleteReturned ..) (hreturned.trans (by rw [hn, hnews])) ?_
    rw [heq]
    rcases hc with rfl | ⟨leaseID, rfl⟩
    · rw [hq, leave_remove (mem_custody hg)]
      exact hpath.trans (returned_tells rfl hmem hworks hsub none)
    · have hcomm : (((q.custody []).remove vm.id).forget leaseID).reserveIf again vm.pool
          = ((((p.custody []).remove vm.id).reserveIf again vm.pool).forget leaseID).leave g := by
        rw [hq]
        have hleave := congrArg (fun c => Custody.forget c leaseID)
          (leave_remove (mem_custody hg) vm.id again vm.pool)
        cases again <;> exact hleave
      rw [hcomm]
      refine hpath.trans ((silent_move (.forget leaseID) rfl trivial rfl rfl).trans ?_)
      exact returned_tells (t := ⟨Custody.forget _ leaseID, _, _⟩) rfl hmem hworks hsub none

theorem deleted_tells {host uid : String}
    (hg : .deleting vm host uid caller ∈ p.frames) (reply : Except String String) :
    Retold p l ((p.drop (.deleting vm host uid caller)).deleted cfg env vm uid caller reply) := by
  have hsub : caller.deletes ⊆ (Frame.deleting vm host uid caller).deletes :=
    subset_cons_self _ _
  unfold deleted
  generalize hq : (p.drop (.deleting vm host uid caller)).modifyVM vm.id _ = q
  have hcustody : q.custody [] = (p.custody []).leave (.deleting vm host uid caller) := by
    rw [← hq, custody_modifyVM_same, custody_drop hg]
    exact fun _ => rfl
  have hnews : q.news = p.news := hq ▸ news_modifyVM ..
  dsimp only
  split
  · split
    · exact finishDeletion_tells hg rfl rfl List.mem_cons_self hsub hcustody hnews
    · refine .of_path (custody_deleteReturned ..) ((news_deleteReturned ..).trans hnews) ?_
      rw [hcustody]
      exact returned_tells (t := p.told []) rfl (mem_custody hg) rfl hsub _
  · exact finishDeletion_tells hg rfl rfl List.mem_cons_self hsub hcustody hnews

variable {ref : PoolRef}

theorem deleteNext_tells {vms : List VMRef} {firstErr : Option String}
    (hg : .deletePool ref vms firstErr ∈ p.frames) :
    Retold p l ((p.drop (.deletePool ref vms firstErr)).deleteNext env ref vms firstErr) := by
  cases vms with
  | nil => exact leave_tells hg rfl (news_answer rfl)
  | cons vm rest =>
    have hsub : (Caller.deletePool ref rest firstErr).deletes
        ⊆ (Frame.deletePool ref (vm :: rest) firstErr).deletes := subset_cons_self _ _
    unfold deleteNext
    dsimp only
    split
    · -- a MicroVM without a uid is passed over, as after a deletion that worked
      refine .of_path (custody_push _) rfl ?_
      rw [custody_drop hg]
      have hpass := returned_tells (p := p) (l := l) (t := p.told []) rfl (mem_custody hg) rfl hsub none
      rw [show (Caller.deletePool ref rest firstErr).frames none
        = [.deletePool ref rest firstErr] by cases firstErr <;> rfl] at hpass
      exact hpass
    · exact deleteVM_tells hg rfl List.mem_cons_self hsub

theorem resume_tells (hf : f ∈ p.frames) (reply : Except String String) :
    Retold p (.resume f env reply) ((p.drop f).resume cfg env reply f) := by
  cases f with
  | provision vm => exact provision_tells hf reply
  | dropReserved vm => exact giveUp_tells hf rfl
  | create vm => exact created_tells hf reply
  | waitCreated vm uid => exact waited_tells hf reply
  | createHooks vm uid => exact hooked_tells hf reply
  | preLease vm a requestID => exact claimed_tells hf reply
  | delete vm event caller =>
    exact deleteVM_tells hf rfl List.mem_cons_self (subset_cons_self _ _)
  | deleting vm host uid caller => exact deleted_tells hf reply
  | deletePool ref vms firstErr => exact deleteNext_tells hf

/-! ### Clients -/

theorem poolLocked_ok (h : p.poolLocked cfg ref = .ok a) : (p.custody []).pools ref = some a := by
  unfold poolLocked at h
  split at h
  · cases h
  · split at h
    · cases h
    · rename_i a' ha
      cases h
      exact ha

theorem createPool_tells (spec : PoolSpec) :
    Retold p (.createPool spec) (p.createPool cfg spec) := by
  unfold createPool
  split
  · exact answered rfl
  · rename_i spec' hvalid
    split
    · exact answered rfl
    · split
      · exact answered rfl
      · rename_i hnone
        refine silent (.createPool spec'.ref p.heap.length spec') (news_answer rfl)
          ⟨rfl, spec, rfl, (validateSpec_ref hvalid).symm, hvalid⟩ rfl ?_
        rw [custody_answer]
        have hfree : (p.custody []).specs p.heap.length = none :=
          congrArg (Option.map PoolState.spec) (List.getElem?_eq_none le_rfl)
        refine (if_pos ⟨hnone, hfree⟩).trans (congrArg some ?_)
        refine Custody.ext (lookup_insert_eq ..).symm (funext fun b => ?_) rfl rfl rfl rfl rfl rfl
        show update (p.custody []).specs _ _ b
          = ((p.heap ++ [PoolState.new spec'])[b]?).map PoolState.spec
        by_cases hb : b = p.heap.length
        · rw [hb, update_self, List.getElem?_append_right le_rfl, Nat.sub_self]
          rfl
        · rw [update_of_ne hb]
          show (p.heap[b]?).map _ = _
          rcases Nat.lt_or_gt_of_ne hb with hlt | hgt
          · rw [List.getElem?_append_left hlt]
          · rw [List.getElem?_eq_none (Nat.le_of_lt hgt), List.getElem?_eq_none]
            rw [length_append]
            exact hgt

theorem updatePool_tells (spec : PoolSpec) :
    Retold p (.updatePool spec) (p.updatePool cfg spec) := by
  unfold updatePool
  split
  · exact answered rfl
  · rename_i spec' hvalid
    split
    · exact answered rfl
    · rename_i a ha
      refine silent (.updatePool spec'.ref spec') (news_answer rfl)
        ⟨spec, rfl, (validateSpec_ref hvalid).symm, hvalid⟩ rfl ?_
      rw [custody_answer]
      show ((p.custody []).pools spec'.ref).map _ = _
      rw [poolLocked_ok ha]
      refine congrArg some (Custody.ext rfl ?_ rfl rfl rfl rfl rfl rfl)
      funext b
      show update (p.custody []).specs a _ b
        = ((p.heap.modify a fun ps => { ps with spec := spec', fresh := true })[b]?).map PoolState.spec
      rw [List.getElem?_modify]
      by_cases hb : b = a
      · subst hb
        rw [update_self]
        show ((p.heap[b]?).map _).map _ = _
        cases p.heap[b]? with
        | none => rfl
        | some ps =>
          show some spec' = some (PoolState.spec (if b = b then _ else _))
          rw [if_pos rfl]
      · rw [update_of_ne hb]
        show (p.heap[b]?).map _ = _
        cases p.heap[b]? with
        | none => rfl
        | some ps => exact (congrArg (fun ps => some (PoolState.spec ps)) (if_neg (Ne.symm hb))).symm

theorem deletePool_tells (ref : PoolRef) :
    Retold p (.deletePool env ref) (p.deletePool cfg env ref) := by
  unfold deletePool
  split
  · exact answered rfl
  · rename_i a ha
    split
    · exact answered rfl
    · dsimp only
      generalize hvms : (p.vmsOf ref).insertionSort (fun a b => a.1 ≤ b.1) = vms
      have hmem : ∀ {e}, e ∈ vms ↔ e ∈ p.vmsOf ref := fun {e} => by rw [← hvms, mem_insertionSort]
      have hsame := p.custody_emitDeleted [] ref vms
      obtain ⟨es, hnews, hquiet⟩ := news_emitDeleted ref vms p
      generalize p.emitDeleted ref vms = q at hsame hnews ⊢
      have hof : ∀ vm ∈ vms.map fun e => (⟨e.1, ref⟩ : VMRef),
          vm.pool = ref ∧ ((p.custody []).vms vm.id).map Record.pool = some ref := by
        intro vm hvm
        obtain ⟨⟨id, v⟩, hin, rfl⟩ := List.mem_map.mp hvm
        obtain ⟨hv, hpool⟩ := mem_vmsOf.mp (hmem.mp hin)
        refine ⟨rfl, ?_⟩
        rw [vms_custody _ _ hv]
        exact congrArg some hpool
      have hnext : (p.custody []).next (.deletePool ref (vms.map fun e => ⟨e.1, ref⟩))
          = some ((PoolManager.custody [] { q with pools := q.pools.erase ref }).enter
            (.deletePool ref (vms.map fun e => ⟨e.1, ref⟩) none)) := by
        have hthere : ((p.custody []).pools ref).isSome = true := by
          rw [poolLocked_ok ha]
          rfl
        refine (if_pos ⟨hthere, hof⟩).trans (congrArg (fun c => some (Custody.enter c _)) ?_)
        rw [← hsame]
        exact Custody.ext (lookup_erase_eq ..).symm rfl rfl rfl rfl rfl rfl rfl
      refine ⟨(publishes (t := p.told []) es rfl (idle_of_quiet hquiet rfl)).trans ?_,
        .inl (congrArg (·.2.2) hnews)⟩
      -- the Pool is left behind unless every MicroVM of it is settled
      refine .head (a := .move (.deletePool ref (vms.map fun e => ⟨e.1, ref⟩))
        (if vms.all fun e => e.2.phase.settled then [] else [ref])) ⟨rfl, ⟨env, rfl⟩, ?_⟩ ?_ (.refl _)
      · split
        · rename_i hall
          refine .inr ⟨rfl, fun id r hr hpool => ?_⟩
          obtain ⟨v, hv, rfl⟩ := map_eq_some_iff.mp hr
          exact List.all_eq_true.mp hall (id, v) (hmem.mpr (mem_vmsOf.mpr ⟨hv, hpool⟩))
        · exact .inl rfl
      · show ((p.custody []).next _).map _ = _
        rw [hnext]
        refine congrArg some ?_
        rw [told_eq (custody_push _)]
        have hsaid : q.news.1 = p.news.1 ++ es := congrArg (·.1) hnews
        have hleft : q.left = p.left := congrArg (·.2.1) hnews
        show Told.mk _ (p.news.1 ++ es ++ []) _ = Told.mk _ q.news.1 _
        rw [append_nil, hsaid]
        refine congrArg (Told.mk _ _) ?_
        show _ = if _ then q.left else ref :: q.left
        rw [hleft]
        split <;> rfl

theorem unclaimed_of_replayLocked (hr : env.Ranges p)
    (h : p.replayLocked env ref requestID = none) : (p.custody []).Unclaimed requestID := by
  intro id g hg hreq
  unfold replayLocked at h
  split at h
  · assumption
  · obtain ⟨ls, hls, rfl⟩ := map_eq_some_iff.mp hg
    have hin : id ∈ env.leases :=
      hr.1.mem_iff.mpr (AList.mem_keys.mp (AList.lookup_isSome.mp (hls ▸ rfl)))
    have hnone := findSome?_eq_none_iff.mp (map_eq_none_iff.mp h) id hin
    rw [hls, bind_some, if_pos (show ls.requestID = requestID from hreq)] at hnone
    cases hnone

theorem replayLocked_ok {ref : PoolRef} {res : ClaimResult}
    (h : p.replayLocked env ref requestID = some (.ok res)) : p.Granted requestID res.leaseID := by
  unfold replayLocked at h
  split at h
  · cases h
  · obtain ⟨⟨id, ls⟩, hfind, hres⟩ := map_eq_some_iff.mp h
    obtain ⟨id', -, hid⟩ := List.exists_of_findSome?_eq_some hfind
    obtain ⟨ls', hls, hif⟩ := bind_eq_some_iff.mp hid
    obtain ⟨hreq, hpair⟩ := ite_none_right_eq_some.mp hif
    obtain ⟨rfl, rfl⟩ := Prod.mk.inj (some.inj hpair)
    dsimp only at hres
    split at hres
    · cases hres
    · split at hres
      · split at hres
        · cases hres
        · obtain rfl := Except.ok.inj hres
          exact ⟨ls', hls, hreq⟩
      · cases hres

theorem claimVM_tells (hr : env.Ranges p) (ref : PoolRef) (requestID : String) :
    Retold p (.claimVM env ref requestID) (p.claimVM cfg env ref requestID) := by
  unfold claimVM
  split
  · exact answered rfl
  · split
    · rename_i result hreplay
      cases result with
      | error e => exact answered rfl
      | ok res =>
        exact ⟨.refl _, .inr ⟨requestID, res, claims_answer_ok, fun _ => replayLocked_ok hreplay⟩⟩
    · rename_i hreplay
      split
      · exact answered rfl
      · rename_i a ha
        split
        · exact answered rfl
        · rename_i id v holdest
          obtain ⟨hv, hpool, hphase⟩ := oldestAvailableLocked_spec holdest
          refine silent (.pick ⟨id, ref⟩ a requestID) (news_modifyVM ..)
            ⟨rfl, unclaimed_of_replayLocked hr hreplay, env, rfl⟩ rfl ?_
          rw [custody_push, custody_setPhaseLocked]
          refine if_pos ⟨?_, poolLocked_ok ha⟩
          show Option.any _ ((p.custody []).vms id) = true
          rw [vms_custody _ _ hv]
          exact Bool.and_eq_true_iff.mpr ⟨decide_eq_true hpool, decide_eq_true hphase⟩

theorem heartbeat_tells (leaseID : String) (refused : Bool) :
    Retold p l (p.heartbeat env leaseID refused) := by
  unfold heartbeat
  split
  · exact answered rfl
  · split
    · exact answered rfl
    · rename_i ls hls
      split
      · exact answered rfl
      · refine unmoved ?_ (news_answer rfl)
        rw [custody_answer]
        refine Custody.ext rfl rfl rfl rfl ((map_lookup_insert ..).trans ?_) rfl rfl rfl
        exact update_eq_self_iff.mpr (congrArg (Option.map LeaseRecord.grant) hls).symm

theorem releaseVM_tells (leaseID : String) : Retold p l (p.releaseVM leaseID) := by
  unfold releaseVM
  split
  · exact answered rfl
  · rename_i ls hls
    have hlease : (p.custody []).leases leaseID = some ls.grant :=
      congrArg (Option.map LeaseRecord.grant) hls
    split
    · refine silent (.forget leaseID) ((news_answer rfl).trans (news_dropLeaseLocked _)) trivial rfl ?_
      rw [custody_answer, custody_dropLeaseLocked]
      rfl
    · rename_i id v hvm
      obtain ⟨huid, hv⟩ := vmOf_eq_some hvm
      have hr := p.vms_custody [] hv
      dsimp only
      generalize hq : (if v.released then p else
        (p.modifyVM id fun v => { v with released := true }).emitLocked ls.pool v.uid .vmReleased) = q
      obtain ⟨es, hsame, hnews, hes⟩ : ∃ es, q.custody [] = p.custody [] ∧
          q.news = (p.news.1 ++ [] ++ es, p.news.2) ∧ ∀ e ∈ es,
            ((p.custody []).pools e.pool).isSome = true ∧ e = ⟨ls.pool, v.uid, .vmReleased⟩ := by
        subst hq
        rw [append_nil]
        split
        · exact ⟨[], rfl, Prod.ext (append_nil _).symm rfl, nofun⟩
        · have hwrite : (p.modifyVM id fun v => { v with released := true }).custody []
              = p.custody [] := custody_modifyVM_same fun _ => rfl
          refine ⟨_, (custody_emitLocked ..).trans hwrite,
            (news_emitLocked ..).trans
              (congrArg (fun n : _ × _ => (n.1 ++ _, n.2)) (news_modifyVM id _)),
            fun e he => ?_⟩
          exact hwrite ▸ mem_emission [] he
      refine one_move (.condemn (some leaseID) ⟨id, v.pool⟩ (some .onRelease) (.releaseVM leaseID))
        es hnews trivial rfl ?_ fun e he => ?_
      · rw [custody_push, hsame]
        refine if_pos ⟨?_, ?_, rfl⟩
        · rw [hr]
          rfl
        · show Option.any _ ((p.custody []).leases leaseID) = true
          rw [hlease]
          exact decide_eq_true huid
      · obtain ⟨hpool, rfl⟩ := hes e he
        rw [custody_push, hsame]
        exact ⟨hpool, .inr (.inr (.inr ⟨rfl, id, v.record, hr, rfl,
          .delete ⟨id, v.pool⟩ (some .onRelease) (.releaseVM leaseID),
          Multiset.mem_cons_self _ (p.custody []).frames, ⟨id, v.pool⟩, List.mem_cons_self, rfl⟩))⟩

/-! ### The tick -/

/-- As far as a tick has come. -/
structure Ticks (p : PoolManager) (env : Env) (t : Told) : Prop where
  path : tells.Path (Tells p (.tick env)) (p.told []) t
  left : t.left = p.left
  ahead : (p.custody []).Ahead t.custody
  bounded : t.custody.Bounded

namespace Ticks

theorem forget (h : Ticks p env t) (leaseID : String) :
    Ticks p env { t with custody := t.custody.forget leaseID } where
  path := h.path.trans (silent_move (.forget leaseID) h.left trivial rfl rfl)
  left := h.left
  ahead := ⟨h.ahead.pools, h.ahead.specs, h.ahead.last, h.ahead.kept, h.ahead.new⟩
  bounded := h.bounded

theorem condemn (h : Ticks p env t) (vm : VMRef) {r : Record} (hr : t.custody.vms vm.id = some r)
    (hpool : r.pool = vm.pool) (hphase : r.phase = .leased ∨ r.phase = .deleting)
    (event : Option DeleteEvent) :
    Ticks p env { t with custody := t.custody.enter (.delete vm event .background) } where
  path := by
    refine h.path.trans (silent_move (.condemn none vm event .background) h.left trivial rfl ?_)
    refine if_pos ⟨hr ▸ congrArg some hpool, ?_, rfl⟩
    show Option.any _ (t.custody.vms vm.id) = true
    rw [hr]
    exact Bool.or_eq_true_iff.mpr (hphase.imp decide_eq_true decide_eq_true)
  left := h.left
  ahead := ⟨h.ahead.pools, h.ahead.specs, h.ahead.last, h.ahead.kept, h.ahead.new⟩
  bounded := h.bounded

theorem say (h : Ticks p env t) {es : List Poolmgr.Event}
    (hes : ∀ e ∈ es, (t.custody.pools e.pool).isSome = true ∧ t.custody.Idle e) :
    Ticks p env { t with said := t.said ++ es } :=
  { h with path := h.path.trans (publishes es h.left hes) }

theorem reserves (k : Nat) : ∀ {t : Told}, Ticks p env t → k ≤ t.custody.deficit key →
    Ticks p env { t with custody := (fun c => Custody.reserve c key)^[k] t.custody } := by
  induction k with
  | zero => exact fun h _ => h
  | succ k ih =>
    intro t h hk
    have hnext : t.custody.next (.reserve key) = some (t.custody.reserve key) := if_pos (by omega)
    have hone : Ticks p env { t with custody := t.custody.reserve key } :=
      ⟨h.path.trans (silent_move (.reserve key) h.left ⟨h.ahead, env, rfl⟩ rfl hnext), h.left,
        h.ahead.reserve h.bounded, Custody.Bounded.reserve h.bounded⟩
    refine ih hone ?_
    rw [Custody.deficit_reserve]
    omega

/-- The goroutines that delete what has expired. -/
def expiries (expired : List VMRef) : List Frame :=
  expired.map fun vm => .delete vm (some .dueToExpiry) .background

theorem custody_expiries {expired : List VMRef} :
    q.custody (expiries (expired ++ [vm]))
      = (q.custody (expiries expired)).enter (.delete vm (some .dueToExpiry) .background) := by
  refine Custody.ext rfl rfl rfl rfl rfl ?_ rfl rfl
  refine coe_eq_coe.mpr ?_
  unfold expiries
  rw [map_append, append_assoc]
  exact perm_middle

theorem tickLease {expired : List VMRef}
    (h : Ticks p env (q.told (expiries expired))) (id : String) :
    Ticks p env ((q.tickLease env expired id).1.told
      (expiries (q.tickLease env expired id).2)) := by
  have hforget := h.forget id
  rw [show ({ q.told (expiries expired) with custody := _ } : Told)
    = (q.dropLeaseLocked id).told (expiries expired) by
      rw [told_eq (custody_dropLeaseLocked id),
        news_dropLeaseLocked]
      rfl] at hforget
  unfold PoolManager.tickLease
  split
  · exact h
  · rename_i ls hls
    split
    · exact h
    · rename_i a ha
      split
      · dsimp only
        split
        · exact hforget
        · rename_i vid v hvm
          split
          · rename_i hphase
            have hv := q.vms_custody (expiries expired) (vmOf_eq_some hvm).2
            rw [told_eq ((custody_dropLeaseLocked id).trans
              (congrArg (Custody.forget · id) custody_expiries)), news_dropLeaseLocked]
            exact (h.condemn ⟨vid, v.pool⟩ hv rfl (.inl hphase) _).forget id
          · exact hforget
      · split
        · exact h
        · split
          · dsimp only
            rw [told_eq ((custody_emitLocked ..).trans
              (custody_modifyPool (g := fun ps => { ps with
                warned := ps.warned.insert id ls.expiresAt }) fun _ => rfl)),
              news_emitLocked]
            refine h.say fun e he => ?_
            obtain ⟨hkey, rfl⟩ := mem_emission [] he
            exact ⟨hkey, .inl rfl⟩
          · exact h

theorem tickLeases (ids : List String) : ∀ {s : PoolManager × List VMRef},
    Ticks p env (s.1.told (expiries s.2)) →
    Ticks p env ((PoolManager.tickLeases env ids s).1.told
      (expiries (PoolManager.tickLeases env ids s).2)) := by
  induction ids with
  | nil => exact fun h => h
  | cons id ids ih => exact fun h => ih (h.tickLease id)

variable {fs : List Frame}

theorem pending (vms : List VMRef) :
    (∀ vm ∈ vms, ∃ v, q.vms.lookup vm.id = some v ∧ v.phase = .deleting ∧ v.pool = vm.pool) →
    Ticks p env (q.told fs) →
    Ticks p env (q.told (vms.map (fun vm => .delete vm none .background) ++ fs)) := by
  induction vms with
  | nil => exact fun _ h => h
  | cons vm vms ih =>
    intro hvms h
    obtain ⟨v, hv, hphase, hpool⟩ := hvms vm List.mem_cons_self
    have hrest := ih (fun vm' hvm' => hvms vm' (List.mem_cons_of_mem _ hvm')) h
    exact hrest.condemn vm (vms_custody _ _ hv) hpool (.inr hphase) none

theorem tickPool (h : Ticks p env (q.told fs)) (key : PoolRef) :
    Ticks p env ((q.tickPool cfg env key).told fs) := by
  unfold PoolManager.tickPool
  split
  · exact h
  · rename_i a ha
    split
    · exact h
    · rename_i ps hps
      dsimp only
      have hcounts : (q.custody fs).counts key = q.countsLocked key :=
        counts_custody h.bounded key
      generalize hq' : modifyPool _ a _ = q'
      obtain ⟨es, hsame, hnews, hes⟩ : ∃ es, q'.custody fs = q.custody fs ∧
          q'.news = (q.news.1 ++ es, q.news.2) ∧ ∀ e ∈ es,
            ((q.custody fs).pools e.pool).isSome = true ∧ (q.custody fs).Idle e := by
        rw [← hq', custody_modifyPool]
        · split
          · refine ⟨_, custody_emitLocked .., news_emitLocked .., fun e he => ?_⟩
            obtain ⟨hkey, rfl⟩ := mem_emission fs he
            refine ⟨hkey, .inr (.inr (.inl ⟨rfl, ps.spec.size.toInt, ?_⟩))⟩
            show _ = Poolmgr.EventType.poolSizeBelowTarget (some ⟨(q.custody fs).counts key, _⟩)
            rw [hcounts]
            rfl
          · exact ⟨[], rfl, Prod.ext (append_nil _).symm rfl, nofun⟩
        · exact fun _ => rfl
      have hdeficit : (q.custody fs).deficit key = tickDeficit ps.spec (q.countsLocked key) := by
        have hspec : (q.custody fs).specOf key = some ps.spec := by
          rw [specOf_custody]
          unfold specOf
          rw [ha, bind_some, hps]
          rfl
        unfold Custody.deficit
        rw [hspec, hcounts]
        rfl
      obtain ⟨k, hk, heq⟩ := custody_provisionNLocked cfg env q' fs key a
        (tickDeficit ps.spec (q.countsLocked key))
      obtain ⟨es', hnews', hquiet⟩ := news_provisionNLocked cfg env q' key a
        (tickDeficit ps.spec (q.countsLocked key))
      rw [told_eq heq, hnews', hsame, hnews]
      have hreserved := (h.say hes).reserves k (hdeficit ▸ hk)
      refine hreserved.say fun e he => ⟨?_, .inl (hquiet e he).2⟩
      have hin : ((q'.custody fs).pools e.pool).isSome = true := (hquiet e he).1
      rw [hsame, show (q.custody fs).pools = _ from h.ahead.pools] at hin
      rw [hreserved.ahead.pools]
      exact hin

theorem tickPools (cfg : FakeConfig) (keys : List PoolRef) : ∀ {q : PoolManager},
    Ticks p env (q.told fs) →
    Ticks p env ((keys.foldl (fun q key => q.tickPool cfg env key) q).told fs) := by
  induction keys with
  | nil => exact fun h => h
  | cons key keys ih => exact fun h => ih (h.tickPool key)

end Ticks

theorem claims_tickLease (expired : List VMRef) (id : String) :
    (q.tickLease env expired id).1.claims = q.claims := by
  have hdrop : (q.dropLeaseLocked id).claims = q.claims :=
    congrArg (·.2.2) (news_dropLeaseLocked id)
  unfold PoolManager.tickLease
  split
  · rfl
  · split
    · rfl
    · split
      · exact hdrop
      · split
        · rfl
        · split
          · exact congrArg (·.2.2) (news_emitLocked ..)
          · rfl

theorem claims_tickLeases (ids : List String) : ∀ {s : PoolManager × List VMRef},
    (PoolManager.tickLeases env ids s).1.claims = s.1.claims := by
  induction ids with
  | nil => exact rfl
  | cons id ids ih => exact ih.trans (claims_tickLease ..)

theorem claims_tickPool (key : PoolRef) : (q.tickPool cfg env key).claims = q.claims := by
  unfold PoolManager.tickPool
  split
  · rfl
  · split
    · rfl
    · obtain ⟨es, hnews, -⟩ := news_provisionNLocked cfg env _ key _ _
      refine (congrArg (·.2.2) hnews).trans ?_
      show (if _ then _ else q).claims = _
      split
      · exact congrArg (·.2.2) (news_emitLocked ..)
      · rfl

theorem tick_tells (hb : (p.custody []).Bounded) : Retold p (.tick env) (p.tick cfg env) := by
  have hstart : Ticks p env (p.told (Ticks.expiries [])) := ⟨.refl _, rfl, .refl _, hb⟩
  have hleases := Ticks.tickLeases env.leases (s := (p, [])) hstart
  have hclaims := @claims_tickLeases env env.leases (p, [])
  unfold PoolManager.tick
  generalize PoolManager.tickLeases env env.leases (p, []) = s at hleases hclaims ⊢
  obtain ⟨q, expired⟩ := s
  have hpending := Ticks.pending (q.pending env.vms) (fun _ => mem_pending) hleases
  have hpools := (Ticks.tickPools cfg env.pools hpending).path
  dsimp only
  refine ⟨?_, .inl ?_⟩
  · rw [told_eq (custody_frames _), append_nil]
    refine Eq.mp (congrArg _ ?_) hpools
    refine congrArg (Told.mk · _ _) (Custody.ext rfl rfl rfl rfl rfl ?_ rfl rfl)
    exact coe_eq_coe.mpr (perm_append_comm.append_right _)
  · exact List.foldlRecOn (motive := fun r : PoolManager => r.claims = p.claims) env.pools _ hclaims
      fun _ hr key _ => (claims_tickPool key).trans hr

/-- **A section is a run of moves and events.** -/
theorem step_tells (h : p.next cfg l = some p') (hb : (p.custody []).Bounded) : Retold p l p' := by
  cases l with
  | run =>
    obtain rfl := some.inj h
    exact unmoved rfl rfl
  | createPool spec =>
    obtain rfl := some.inj h
    exact createPool_tells spec
  | updatePool spec =>
    obtain rfl := some.inj h
    exact updatePool_tells spec
  | deletePool env ref =>
    obtain ⟨-, ⟨⟩⟩ := ite_none_right_eq_some.mp h
    exact deletePool_tells ref
  | claimVM env ref requestID =>
    obtain ⟨hr, ⟨⟩⟩ := ite_none_right_eq_some.mp h
    exact claimVM_tells hr ref requestID
  | heartbeat env leaseID refused =>
    obtain rfl := some.inj h
    exact heartbeat_tells leaseID refused
  | releaseVM leaseID =>
    obtain rfl := some.inj h
    exact releaseVM_tells leaseID
  | tick env =>
    obtain ⟨-, ⟨⟩⟩ := ite_none_right_eq_some.mp h
    exact tick_tells hb
  | resume f env reply =>
    obtain ⟨hf, ⟨⟩⟩ := ite_none_right_eq_some.mp h
    exact resume_tells hf reply

/-- Without the events, a section is a run of moves. -/
theorem step_moves (h : p.next cfg l = some p') (hb : (p.custody []).Bounded) :
    moves.Path (Admits p l) (p.custody []) (p'.custody []) := by
  refine (step_tells h hb).path.inv (I := fun t => moves.Path (Admits p l) (p.custody []) t.custody)
    (fun t a t' hpath hok hnext => ?_) (.refl _)
  cases a with
  | move m gone =>
    obtain ⟨c, hc, rfl⟩ := map_eq_some_iff.mp hnext
    exact hpath.tail hok.2.1 hc
  | say e =>
    obtain rfl := some.inj hnext
    exact hpath

end Sections

end FlintlockRunner.Poolmgr.Fake

import FlintlockRunner.Poolmgr.Fake.Refines

/-!
# What the moves keep

Four facts about the records, the goroutines and the Leases, each kept by every
move and so by every section:

- `Sound`: a MicroVM has at most one goroutine that provisions or claims it, which
  finds the record in the phase it left it in, or condemned; a uid names one
  record;
- `Spent`: a MicroVM that got a Lease is leased or condemned, and nobody works on
  it;
- `Settles`: a MicroVM of a Pool that is condemned is worked on by nobody, as long
  as no earlier Pool of the same key left it so;
- `Past`: a MicroVM that was picked does not become available.

`Sound` and `Spent` need a Host that never returns a uid twice. What a move can do is
said once: to the goroutines (`Comes`), to one record (`Touched`), and to the rest.
-/

namespace FlintlockRunner.Poolmgr.Fake

open Function Multiset Option

/-! ## What a goroutine finds -/

/-- The phase in which a goroutine left the MicroVM that it works on. -/
def Frame.phase : Frame → VMPhase
  | .createHooks _ _ => .createHookRunning
  | .preLease _ _ _ => .preLeaseHookRunning
  | _ => .provisioning

/-- The uid of the MicroVM that a goroutine works on. -/
def Frame.knows : Frame → String → Prop
  | .provision _, uid | .dropReserved _, uid | .create _, uid => uid = ""
  | .waitCreated _ uid, uid' | .createHooks _ uid, uid' => uid' = uid ∧ uid ≠ ""
  | _, uid => uid ≠ ""

/-- A record as a goroutine expects it. -/
def Frame.fits (f : Frame) (r : Record) : Prop :=
  (r.phase = f.phase ∨ r.phase = .deleting) ∧ f.knows r.uid

theorem Frame.phase_ne_available (f : Frame) : f.phase ≠ .available := by
  cases f <;> nofun

theorem Frame.phase_ne_leased (f : Frame) : f.phase ≠ .leased := by
  cases f <;> nofun

variable {vm : VMRef} {f : Frame}

theorem Frame.early_spec (h : f.early = some vm) :
    f.works = some vm ∧ f.phase = .provisioning ∧ f.deletes = [] ∧ f.finishes = none ∧
      ∀ uid, f.knows uid ↔ uid = "" := by
  cases f with
  | provision vm' | dropReserved vm' | create vm' =>
    exact ⟨h, rfl, rfl, rfl, fun _ => Iff.rfl⟩
  | waitCreated vm' uid | createHooks vm' uid | preLease vm' a requestID | delete vm' event caller
  | deleting vm' host uid caller | deletePool ref vms firstErr => cases h

theorem Frame.hooks_spec (h : f.hooks = some vm) :
    f.works = some vm ∧ ∀ {uid}, f.knows uid → uid ≠ "" := by
  cases f with
  | waitCreated vm' uid | createHooks vm' uid =>
    exact ⟨h, fun hk huid => hk.2 (hk.1 ▸ huid)⟩
  | preLease vm' a requestID => exact ⟨h, fun hk => hk⟩
  | provision vm' | dropReserved vm' | create vm' | delete vm' event caller
  | deleting vm' host uid caller | deletePool ref vms firstErr => cases h

theorem Frame.workId_of_works (h : f.works = some vm) : f.workId = some vm.id := by
  unfold Frame.workId
  rw [h]
  rfl

theorem Frame.knows_of_hooks (h : f.phase = .createHookRunning) {uid : String} (hk : f.knows uid) :
    uid ≠ "" := by
  cases f with
  | createHooks vm' uid' => exact fun huid => hk.2 (hk.1 ▸ huid)
  | provision _ | dropReserved _ | create _ | waitCreated _ _ | preLease _ _ _ | delete _ _ _
  | deleting _ _ _ _ | deletePool _ _ _ => cases h

theorem Frame.deletes_of_finishes (h : f.finishes = some vm) : vm ∈ f.deletes ∧ f.works = none := by
  cases f with
  | deleting vm' host uid caller =>
    obtain rfl := some.inj h
    exact ⟨List.mem_cons_self, rfl⟩
  | provision vm' | dropReserved vm' | create vm' | waitCreated vm' uid | createHooks vm' uid
  | preLease vm' a requestID | delete vm' event caller | deletePool ref vms firstErr => cases h

theorem Frame.eq_of_mem_delete {vm vm' : VMRef} {event : Option DeleteEvent} {caller : Caller}
    (hcaller : caller.deletes = []) (h : vm' ∈ (Frame.delete vm event caller).deletes) :
    vm' = vm := by
  rw [show (Frame.delete vm event caller).deletes = vm :: caller.deletes from rfl, hcaller] at h
  exact List.mem_singleton.mp h

namespace Custody

variable {c c' : Custody} {f g : Frame} {id id' : Nat} {r r' : Record} {key : PoolRef}
  {uid : String} {vm : VMRef} {m : Move}

/-! ## Writes, read back -/

theorem mem_enter : g ∈ (c.enter f).frames ↔ g = f ∨ g ∈ c.frames := Multiset.mem_cons

theorem update_some {α β : Type} [DecidableEq α] {t : α → Option β} {a b : α} {v : Option β} {x : β} :
    update t a v b = some x ↔ b = a ∧ v = some x ∨ b ≠ a ∧ t b = some x := by
  by_cases h : b = a
  · rw [h, update_self]
    simp
  · rw [update_of_ne h]
    simp [h]

theorem setPhase_some {phase : VMPhase} (h : (c.setPhase id phase).vms id' = some r') :
    id' = id ∧ (∃ r, c.vms id = some r ∧ { r with phase := phase } = r') ∨
      id' ≠ id ∧ c.vms id' = some r' :=
  (update_some.mp h).imp_left (And.imp_right map_eq_some_iff.mp)

theorem name_some (h : (c.name id uid).vms id' = some r') :
    id' = id ∧ (∃ r, c.vms id = some r ∧ { r with uid := uid } = r') ∨
      id' ≠ id ∧ c.vms id' = some r' :=
  (update_some.mp h).imp_left (And.imp_right map_eq_some_iff.mp)

theorem reserveIf_some {again : Bool} (h : (c.reserveIf again key).vms id = some r) :
    c.vms id = some r ∨ again = true ∧ id = c.last + 1 ∧ ⟨"", key, .provisioning⟩ = r := by
  cases again with
  | false => exact .inl h
  | true =>
    rcases update_some.mp h with ⟨hid, hr⟩ | ⟨-, hr⟩
    · exact .inr ⟨rfl, hid, some.inj hr⟩
    · exact .inl hr

theorem setPhase_self {phase : VMPhase} (hr : c.vms id = some r) :
    (c.setPhase id phase).vms id = some { r with phase := phase } := by
  show update _ id _ id = _
  rw [update_self, hr]
  rfl

theorem passes_spec (h : c.passes f g = true) : g.works = none ∧ g.deletes ⊆ f.deletes ∧
    ∀ {vm}, g.finishes = some vm → ∀ {r}, c.vms vm.id = some r → r.phase = .deleting := by
  simp only [passes, Bool.and_eq_true, decide_eq_true_eq] at h
  refine ⟨h.1.1, h.1.2, fun hvm _ hr => ?_⟩
  simpa [hvm, hr] using h.2

theorem alive_spec (h : c.alive vm = true) :
    (∃ r, c.vms vm.id = some r) ∧ (c.pools vm.pool).isSome = true :=
  (Bool.and_eq_true_iff.mp h).imp_left isSome_iff_exists.mp

theorem pools_of_specOf (h : c.specOf key ≠ none) : (c.pools key).isSome = true := by
  cases hkey : c.pools key with
  | none =>
    refine absurd ?_ h
    unfold specOf
    rw [hkey]
    rfl
  | some a => rfl

/-! ## Goroutines, Leases and uids of a move -/

/-- The goroutines that a move starts. -/
def starts (c : Custody) : Move → List Frame
  | .deletePool key vms => [.deletePool key vms none]
  | .reserve key => [.provision ⟨c.last + 1, key⟩]
  | .proceed _ f' => [f']
  | .name vm uid => [.waitCreated vm uid]
  | .hook vm uid => [.createHooks vm uid]
  | .pick vm a requestID => [.preLease vm a requestID]
  | .lease vm _ _ _ again => if again then [.provision ⟨c.last + 1, vm.pool⟩] else []
  | .fail f caller => f.hooks.elim [] fun vm => [.delete vm none caller]
  | .condemn _ vm event caller => [.delete vm event caller]
  | .pass _ fs => fs
  | .finish f again =>
    if again then f.finishes.elim [] fun vm => [.provision ⟨c.last + 1, vm.pool⟩] else []
  | _ => []

/-- The goroutine that a move ends. -/
def ends : Move → Option Frame
  | .proceed f _ | .giveUp f | .quarantine f | .fail f _ | .leave f | .pass f _ => some f
  | .name vm _ | .stray vm _ => some (.create vm)
  | .hook vm uid => some (.waitCreated vm uid)
  | .ready vm uid => some (.createHooks vm uid)
  | .lease vm a requestID _ _ => some (.preLease vm a requestID)
  | _ => none

/-- The Lease that a move makes. -/
def Makes (c : Custody) (m : Move) (id : String) (g : Grant) : Prop :=
  ∃ vm a again r, m = .lease vm a g.requestID id again ∧ .preLease vm a g.requestID ∈ c.frames ∧
    c.alive vm = true ∧ (c.specs a).isSome = true ∧ c.vms vm.id = some r ∧ r.uid = g.vmUID

/-- What a move does to the index of the uids. -/
inductive Renames (c : Custody) (m : Move) (c' : Custody) : Prop
  | kept (hnames : c'.names = c.names)
  | named (vm : VMRef) (uid : String) (hm : m = .name vm uid)
  | removed (id : Nat) (r : Record) (hr : c.vms id = some r) 
      (hgone : ∀ {r'}, c'.vms id = some r' → id = c.last + 1)
      (hnames : c'.names = update c.names r.uid none)

/-- What a move does besides the records. Most moves leave most of it as it is. -/
structure Rest (c : Custody) (m : Move) (c' : Custody) : Prop where
  frames : c'.frames = (c.starts m : Multiset Frame) + (ends m).elim c.frames c.frames.erase
  uids : c.uids ⊆ c'.uids := by exact fun _ h => h
  last : c.last ≤ c'.last := by exact le_rfl
  leases : ∀ {id g}, c'.leases id = some g → c.leases id = some g ∨ c.Makes m id g := by exact .inl
  pools : ∀ {key a}, c'.pools key = some a → c.pools key = some a ∨
    ∃ spec, m = .createPool key a spec := by exact .inl
  kept : ∀ {key a}, c.pools key = some a → c'.pools key = some a ∨
    ∃ vms, m = .deletePool key vms := by exact .inl
  specs : ∀ {a spec}, c.specs a = some spec → c'.specs a = some spec ∨
    ∃ key spec', m = .updatePool key spec' ∧ c.pools key = some a := by exact .inl
  made : ∀ {a spec}, c'.specs a = some spec → c.specs a = some spec ∨
    (∃ key, m = .createPool key a spec) ∨ ∃ key, m = .updatePool key spec := by exact .inl
  names : Renames c m c' := by exact .kept rfl

theorem renames_remove (hr : c.vms id = some r) (m : Move) (again : Bool) (key : PoolRef) :
    Renames c m ((c.remove id).reserveIf again key) := by
  have hnames : ((c.remove id).reserveIf again key).names
      = if r.uid ≠ "" then update c.names r.uid none else c.names := by
    unfold reserveIf remove
    rw [hr]
    split <;> rfl
  by_cases huid : r.uid = ""
  · exact .kept (hnames.trans (if_neg (not_not.mpr huid)))
  · refine .removed id r hr (fun hr' => ?_) (hnames.trans (if_pos huid))
    rcases reserveIf_some hr' with hr' | ⟨-, hid, -⟩
    · rcases update_some.mp hr' with ⟨-, ⟨⟩⟩ | ⟨hne, -⟩
      exact absurd rfl hne
    · exact hid

theorem rest (hnext : c.next m = some c') : Rest c m c' := by
  cases m with
  | createPool key a spec =>
    obtain ⟨⟨hnone, hfree⟩, ⟨⟩⟩ := ite_none_right_eq_some.mp hnext
    refine {
      frames := (Multiset.zero_add _).symm
      pools := fun {key' b} hb => ?_
      kept := fun {key' b} hb => .inl (update_some.mpr (.inr ⟨?_, hb⟩))
      specs := fun {b spec'} hb => .inl (update_some.mpr (.inr ⟨?_, hb⟩))
      made := fun {b spec'} hb => ?_ }
    · rcases update_some.mp hb with ⟨rfl, ⟨⟩⟩ | ⟨-, hb⟩
      · exact .inr ⟨spec, rfl⟩
      · exact .inl hb
    · rintro rfl
      exact nomatch hnone.symm.trans hb
    · rintro rfl
      exact nomatch hfree.symm.trans hb
    · rcases update_some.mp hb with ⟨rfl, ⟨⟩⟩ | ⟨-, hb⟩
      · exact .inr (.inl ⟨key, rfl⟩)
      · exact .inl hb
  | updatePool key spec =>
    obtain ⟨a, ha, rfl⟩ := map_eq_some_iff.mp hnext
    refine {
      frames := (Multiset.zero_add _).symm
      specs := fun {b spec'} hb => ?_
      made := fun {b spec'} hb => ?_ }
    · by_cases hab : b = a
      · exact .inr ⟨key, spec, rfl, hab ▸ ha⟩
      · exact .inl (update_some.mpr (.inr ⟨hab, hb⟩))
    · rcases update_some.mp hb with ⟨-, hb⟩ | ⟨-, hb⟩
      · obtain ⟨-, -, rfl⟩ := map_eq_some_iff.mp hb
        exact .inr (.inr ⟨key, rfl⟩)
      · exact .inl hb
  | deletePool key vms =>
    obtain ⟨-, ⟨⟩⟩ := ite_none_right_eq_some.mp hnext
    refine {
      frames := (singleton_add _ _).symm
      pools := fun {key' b} hb => .inl ?_
      kept := fun {key' b} hb => ?_ }
    · rcases update_some.mp hb with ⟨-, ⟨⟩⟩ | ⟨-, hb⟩
      exact hb
    · by_cases hkey : key' = key
      · exact .inr ⟨vms, hkey ▸ rfl⟩
      · exact .inl (update_some.mpr (.inr ⟨hkey, hb⟩))
  | reserve key =>
    obtain ⟨-, ⟨⟩⟩ := ite_none_right_eq_some.mp hnext
    exact { frames := (singleton_add _ _).symm, last := Nat.le_succ _ }
  | proceed f f' | hook vm uid | pick vm a requestID | condemn leaseID vm event caller =>
    obtain ⟨-, ⟨⟩⟩ := ite_none_right_eq_some.mp hnext
    exact { frames := (singleton_add _ _).symm }
  | giveUp f =>
    obtain ⟨-, hc⟩ := ite_none_right_eq_some.mp hnext
    obtain ⟨vm, -, rfl⟩ := map_eq_some_iff.mp hc
    exact { frames := (Multiset.zero_add _).symm }
  | name vm uid =>
    obtain ⟨-, ⟨⟩⟩ := ite_none_right_eq_some.mp hnext
    exact {
      frames := (singleton_add _ _).symm
      uids := fun _ => List.mem_cons_of_mem _
      names := .named vm uid rfl }
  | stray vm uid =>
    obtain ⟨-, ⟨⟩⟩ := ite_none_right_eq_some.mp hnext
    exact { frames := (Multiset.zero_add _).symm, uids := fun _ => List.mem_cons_of_mem _ }
  | ready vm uid | leave f | doom f vm =>
    obtain ⟨-, ⟨⟩⟩ := ite_none_right_eq_some.mp hnext
    exact { frames := (Multiset.zero_add _).symm }
  | lease vm a requestID leaseID again =>
    obtain ⟨⟨hf, halive, hspec, -⟩, hc⟩ := ite_none_right_eq_some.mp hnext
    obtain ⟨r, hr, rfl⟩ := map_eq_some_iff.mp hc
    have hmade : ∀ {id g}, update c.leases leaseID (some ⟨r.uid, requestID⟩) id = some g →
        c.leases id = some g ∨ c.Makes (.lease vm a requestID leaseID again) id g := by
      intro id g hg
      rcases update_some.mp hg with ⟨rfl, ⟨⟩⟩ | ⟨-, hg⟩
      · exact .inr ⟨vm, a, again, r, rfl, hf, halive, hspec, hr, rfl⟩
      · exact .inl hg
    cases again with
    | false => exact { frames := (Multiset.zero_add _).symm, leases := hmade }
    | true => exact { frames := (singleton_add _ _).symm, last := Nat.le_succ _, leases := hmade }
  | quarantine f =>
    obtain ⟨vm, hvm, hc⟩ := bind_eq_some_iff.mp hnext
    obtain ⟨-, ⟨⟩⟩ := ite_none_right_eq_some.mp hc
    exact { frames := (Multiset.zero_add _).symm }
  | fail f caller =>
    obtain ⟨vm, hvm, hc⟩ := bind_eq_some_iff.mp hnext
    obtain ⟨-, ⟨⟩⟩ := ite_none_right_eq_some.mp hc
    have hstarts : c.starts (.fail f caller) = [.delete vm none caller] := by
      dsimp only [starts]
      rw [hvm]
      rfl
    exact { frames := hstarts ▸ (singleton_add _ _).symm }
  | pass f fs =>
    obtain ⟨-, ⟨⟩⟩ := ite_none_right_eq_some.mp hnext
    exact { frames := rfl }
  | finish f again =>
    obtain ⟨vm, hvm, hc⟩ := bind_eq_some_iff.mp hnext
    obtain ⟨⟨-, hsome, -⟩, ⟨⟩⟩ := ite_none_right_eq_some.mp hc
    obtain ⟨r, hr⟩ := isSome_iff_exists.mp hsome
    have hnames := renames_remove hr (.finish f again) again vm.pool
    cases again with
    | false => exact { frames := (Multiset.zero_add _).symm, names := hnames }
    | true =>
      have hstarts : c.starts (.finish f true) = [.provision ⟨c.last + 1, vm.pool⟩] := by
        dsimp only [starts]
        rw [if_pos rfl, hvm]
        rfl
      exact {
        frames := hstarts ▸ (singleton_add _ _).symm
        last := Nat.le_succ _
        names := hnames }
  | forget leaseID =>
    obtain rfl := some.inj hnext
    refine { frames := (Multiset.zero_add _).symm, leases := fun {id g} hg => .inl ?_ }
    rcases update_some.mp hg with ⟨-, ⟨⟩⟩ | ⟨-, hg⟩
    exact hg

/-- Where a goroutine of `starts` comes from: it deletes a Pool, or provisions a
new MicroVM, or goes on with one that another worked on, or waits for the hooks of
one that is picked, or deletes one. -/
inductive Comes (c : Custody) (m : Move) (c' : Custody) (g : Frame) : Prop
  | pool (key : PoolRef) (vms : List VMRef) (hm : m = .deletePool key vms)
      (hg : g = .deletePool key vms none)
  | provisions (vm : VMRef) (hid : vm.id = c.last + 1)
      (hvms : c'.vms vm.id = some ⟨"", vm.pool, .provisioning⟩) (hg : g = .provision vm)
  | goesOn (f : Frame) (vm : VMRef) (hends : ends m = some f) (hf : f ∈ c.frames)
      (hw : f.works = some vm) (hphase : f.phase = .provisioning) (hw' : g.works = some vm)
      (hphase' : g.phase ≠ .preLeaseHookRunning) (hdeletes : g.deletes = [])
      (hfin : g.finishes = none)
      (hfits : ∀ {r'}, c'.vms vm.id = some r' → ∃ r, c.vms vm.id = some r ∧ r'.pool = r.pool ∧
        (f.fits r → g.fits r'))
  | waits (vm : VMRef) (a : Nat) (requestID : String) (hm : m = .pick vm a requestID)
      (hg : g = .preLease vm a requestID)
  | condemned (leaseID : Option String) (vm : VMRef) (event : Option DeleteEvent) (caller : Caller)
      (hm : m = .condemn leaseID vm event caller) (hg : g = .delete vm event caller)
  | failed (f : Frame) (vm : VMRef) (caller : Caller) (hm : m = .fail f caller)
      (hvm : f.hooks = some vm) (hg : g = .delete vm none caller)
  | passed (f : Frame) (fs : List Frame) (hm : m = .pass f fs) (hg : g ∈ fs)

theorem comes_of_mem_starts (hnext : c.next m = some c') (hg : g ∈ c.starts m) : Comes c m c' g := by
  cases m with
  | deletePool key vms => exact .pool key vms rfl (List.mem_singleton.mp hg)
  | reserve key =>
    obtain ⟨-, ⟨⟩⟩ := ite_none_right_eq_some.mp hnext
    exact .provisions ⟨c.last + 1, key⟩ rfl (update_self ..) (List.mem_singleton.mp hg)
  | proceed f f' =>
    obtain rfl := List.mem_singleton.mp hg
    obtain ⟨⟨hf, hearly, hearly'⟩, ⟨⟩⟩ := ite_none_right_eq_some.mp hnext
    obtain ⟨vm, hvm⟩ := isSome_iff_exists.mp hearly
    obtain ⟨hw, hphase, -, -, hknows⟩ := Frame.early_spec hvm
    obtain ⟨hw', hphase', hdeletes, hfin, hknows'⟩ := Frame.early_spec (hearly'.trans hvm)
    refine .goesOn f vm rfl hf hw hphase hw' (hphase' ▸ nofun) hdeletes hfin fun {r} hr => ?_
    refine ⟨r, hr, rfl, fun ⟨hp, hk⟩ => ⟨?_, (hknows' _).mpr ((hknows _).mp hk)⟩⟩
    exact hphase'.trans hphase.symm ▸ hp
  | name vm uid =>
    obtain rfl := List.mem_singleton.mp hg
    obtain ⟨⟨hf, hne, -⟩, ⟨⟩⟩ := ite_none_right_eq_some.mp hnext
    refine .goesOn (.create vm) vm rfl hf rfl rfl rfl nofun rfl rfl fun hr' => ?_
    rcases name_some hr' with ⟨-, r, hr, rfl⟩ | ⟨hid, -⟩
    · exact ⟨r, hr, rfl, fun hfits => ⟨hfits.1, rfl, hne⟩⟩
    · exact absurd rfl hid
  | hook vm uid =>
    obtain rfl := List.mem_singleton.mp hg
    obtain ⟨⟨hf, -⟩, ⟨⟩⟩ := ite_none_right_eq_some.mp hnext
    refine .goesOn (.waitCreated vm uid) vm rfl hf rfl rfl rfl nofun rfl rfl fun hr' => ?_
    rcases setPhase_some hr' with ⟨-, r, hr, rfl⟩ | ⟨hid, -⟩
    · exact ⟨r, hr, rfl, fun hfits => ⟨.inl rfl, hfits.2⟩⟩
    · exact absurd rfl hid
  | pick vm a requestID => exact .waits vm a requestID rfl (List.mem_singleton.mp hg)
  | lease vm a requestID leaseID again =>
    cases again with
    | false => cases hg
    | true =>
      obtain ⟨-, hc⟩ := ite_none_right_eq_some.mp hnext
      obtain ⟨r, -, rfl⟩ := map_eq_some_iff.mp hc
      exact .provisions ⟨c.last + 1, vm.pool⟩ rfl (update_self ..) (List.mem_singleton.mp hg)
  | fail f caller =>
    obtain ⟨vm, hvm, -⟩ := bind_eq_some_iff.mp hnext
    dsimp only [starts] at hg
    rw [hvm] at hg
    exact .failed f vm caller rfl hvm (List.mem_singleton.mp hg)
  | condemn leaseID vm event caller =>
    exact .condemned leaseID vm event caller rfl (List.mem_singleton.mp hg)
  | pass f fs => exact .passed f fs rfl hg
  | finish f again =>
    cases again with
    | false => cases hg
    | true =>
      obtain ⟨vm, hvm, hc⟩ := bind_eq_some_iff.mp hnext
      obtain ⟨-, ⟨⟩⟩ := ite_none_right_eq_some.mp hc
      dsimp only [starts] at hg
      rw [if_pos rfl, hvm] at hg
      exact .provisions ⟨c.last + 1, vm.pool⟩ rfl (update_self ..) (List.mem_singleton.mp hg)
  | createPool key a spec | updatePool key spec | giveUp f | stray vm uid | ready vm uid
  | quarantine f | leave f | doom f vm | forget leaseID => cases hg

theorem ends_le (m : Move) : (ends m).elim c.frames c.frames.erase ≤ c.frames := by
  cases ends m with
  | none => exact le_rfl
  | some f => exact erase_le f c.frames

theorem length_starts_le (hm : ∀ f fs, m ≠ .pass f fs) : (c.starts m).length ≤ 1 := by
  cases m with
  | pass f fs => exact absurd rfl (hm f fs)
  | lease vm a requestID leaseID again =>
    dsimp only [starts]
    split <;> simp
  | fail f caller =>
    dsimp only [starts]
    cases f.hooks <;> simp
  | finish f again =>
    dsimp only [starts]
    split
    · cases f.finishes <;> simp
    · exact Nat.zero_le 1
  | createPool _ _ _ | updatePool _ _ | giveUp _ | stray _ _ | ready _ _ | quarantine _ | leave _
  | doom _ _ | forget _ => exact Nat.zero_le 1
  | deletePool _ _ | reserve _ | proceed _ _ | name _ _ | hook _ _ | pick _ _ _
  | condemn _ _ _ _ => exact le_rfl

theorem starts_nodup (hnext : c.next m = some c') :
    ((c.starts m : Multiset Frame).filterMap Frame.workId).Nodup := by
  by_cases hm : ∀ f fs, m ≠ .pass f fs
  · refine nodup_iff_count_le_one.mpr fun id => (count_le_card id _).trans ?_
    exact (List.length_filterMap_le _ _).trans (length_starts_le hm)
  · push Not at hm
    obtain ⟨f, fs, rfl⟩ := hm
    obtain ⟨⟨-, -, hfs⟩, -⟩ := ite_none_right_eq_some.mp hnext
    have hzero : (c.starts (.pass f fs) : Multiset Frame).filterMap Frame.workId = 0 := by
      refine eq_zero_of_forall_notMem fun id hin => ?_
      obtain ⟨g, hg, hid⟩ := (Multiset.mem_filterMap _ _).mp hin
      rw [Frame.workId, (passes_spec (hfs g hg)).1] at hid
      cases hid
    exact hzero ▸ nodup_zero

theorem comes (hnext : c.next m = some c') (hg : g ∈ c'.frames) : g ∈ c.frames ∨ Comes c m c' g := by
  rw [(rest hnext).frames] at hg
  rcases mem_add.mp hg with hg | hg
  · exact .inr (comes_of_mem_starts hnext hg)
  · exact .inl (mem_of_le (ends_le m) hg)

/-- A goroutine that comes to work on a MicroVM: it is new, or another has worked on
it and did not claim it, or it is picked. -/
theorem Comes.workId (h : Comes c m c' g) (hnext : c.next m = some c') (hid : g.workId = some id) :
    id = c.last + 1 ∨
    (∃ f ∈ c.frames, ends m = some f ∧ f.workId = some id ∧ f.phase ≠ .preLeaseHookRunning) ∨
    g.phase = .preLeaseHookRunning ∧ ∃ r, c.vms id = some r ∧ r.phase = .available := by
  cases h with
  | pool _ _ _ hg | condemned _ _ _ _ _ hg | failed _ _ _ _ _ hg =>
    subst hg
    cases hid
  | provisions vm hlast _ hg =>
    subst hg
    exact .inl ((some.inj hid).symm.trans hlast)
  | goesOn f vm hends hf hw hphase hw' =>
    refine .inr (.inl ⟨f, hf, hends, ?_, hphase ▸ nofun⟩)
    exact (Frame.workId_of_works hw).trans ((Frame.workId_of_works hw').symm.trans hid)
  | waits vm a requestID hm hg =>
    subst hm hg
    obtain ⟨⟨hpick, -⟩, -⟩ := ite_none_right_eq_some.mp hnext
    obtain ⟨r, hr, hpick⟩ := (Option.any_eq_true ..).mp hpick
    refine .inr (.inr ⟨rfl, r, some.inj hid ▸ hr, ?_⟩)
    exact of_decide_eq_true (Bool.and_eq_true_iff.mp hpick).2
  | passed f fs hm hg =>
    subst hm
    obtain ⟨⟨-, -, hfs⟩, -⟩ := ite_none_right_eq_some.mp hnext
    rw [Frame.workId, (passes_spec (hfs g hg)).1] at hid
    cases hid

theorem Comes.pick {a : Nat} {requestID : String} (h : Comes c m c' (.preLease vm a requestID))
    (hnext : c.next m = some c') : m = .pick vm a requestID ∧ c.pools vm.pool = some a := by
  cases h with
  | pool _ _ _ hg | provisions _ _ _ hg | condemned _ _ _ _ _ hg | failed _ _ _ _ _ hg => cases hg
  | goesOn _ _ _ _ _ _ _ hphase' => exact absurd rfl hphase'
  | waits vm' a' requestID' hm hg =>
    obtain ⟨rfl, rfl, rfl⟩ := Frame.preLease.inj hg
    subst hm
    obtain ⟨⟨-, hpool⟩, -⟩ := ite_none_right_eq_some.mp hnext
    exact ⟨rfl, hpool⟩
  | passed f fs hm hg =>
    subst hm
    obtain ⟨⟨-, -, hfs⟩, -⟩ := ite_none_right_eq_some.mp hnext
    exact nomatch (passes_spec (hfs _ hg)).1

/-- How a MicroVM comes to be on the list of a goroutine: it was on one, or with its
Pool, or by its Lease or its phase, or because a hook failed. -/
inductive Lists (c : Custody) (m : Move) (vm : VMRef) : Prop
  | before (f : Frame) (hf : f ∈ c.frames) (hvm : vm ∈ f.deletes)
  | pool (vms : List VMRef) (hm : m = .deletePool vm.pool vms)
      (hpool : (c.vms vm.id).map Record.pool = some vm.pool)
  | condemned (leaseID : Option String) (event : Option DeleteEvent) (caller : Caller)
      (hm : m = .condemn leaseID vm event caller)
  | failed (f : Frame) (caller : Caller) (hm : m = .fail f caller) (hvm : f.hooks = some vm)

theorem lists (hnext : c.next m = some c') (hg : g ∈ c'.frames) (hvm : vm ∈ g.deletes) :
    Lists c m vm := by
  rcases comes hnext hg with hg | hcomes
  · exact .before g hg hvm
  cases hcomes with
  | pool key vms hm hg =>
    subst hm hg
    obtain ⟨⟨-, hvms⟩, -⟩ := ite_none_right_eq_some.mp hnext
    obtain ⟨rfl, hpool⟩ := hvms vm hvm
    exact .pool vms rfl hpool
  | provisions _ _ _ hg | waits _ _ _ _ hg =>
    subst hg
    cases hvm
  | goesOn _ _ _ _ _ _ _ _ hdeletes =>
    rw [hdeletes] at hvm
    cases hvm
  | condemned leaseID vm' event caller hm hg =>
    subst hm hg
    obtain ⟨⟨-, -, hdeletes⟩, -⟩ := ite_none_right_eq_some.mp hnext
    obtain rfl := Frame.eq_of_mem_delete hdeletes hvm
    exact .condemned leaseID event caller rfl
  | failed f vm' caller hm hvm' hg =>
    subst hm hg
    obtain ⟨_, -, hc⟩ := bind_eq_some_iff.mp hnext
    obtain ⟨⟨-, -, hdeletes⟩, -⟩ := ite_none_right_eq_some.mp hc
    obtain rfl := Frame.eq_of_mem_delete hdeletes hvm
    exact .failed f caller rfl hvm'
  | passed f fs hm hg =>
    subst hm
    obtain ⟨⟨hf, -, hfs⟩, -⟩ := ite_none_right_eq_some.mp hnext
    exact .before f hf ((passes_spec (hfs g hg)).2.1 hvm)

theorem finishes_next (hnext : c.next m = some c') (hmem : g ∈ c'.frames)
    (hfin : g.finishes = some vm) :
    g ∈ c.frames ∨ ∀ {r'}, c'.vms vm.id = some r' → r'.phase = .deleting := by
  refine (comes hnext hmem).imp_right fun hcomes => ?_
  cases hcomes with
  | pool _ _ _ hg | provisions _ _ _ hg | waits _ _ _ _ hg | condemned _ _ _ _ _ hg
  | failed _ _ _ _ _ hg =>
    subst hg
    cases hfin
  | goesOn _ _ _ _ _ _ _ _ _ hnone => exact nomatch hnone.symm.trans hfin
  | passed f fs hm hg =>
    subst hm
    obtain ⟨⟨-, -, hfs⟩, ⟨⟩⟩ := ite_none_right_eq_some.mp hnext
    exact fun hr' => (passes_spec (hfs g hg)).2.2 hfin hr'

/-! ## What a move does to one MicroVM -/

/-- Why a MicroVM is reserved: a tick missed it, or it replaces one that is leased or
deleted. -/
inductive Reserves (m : Move) (key : PoolRef) : Prop
  | missed (hm : m = .reserve key)
  | leased (vm : VMRef) (a : Nat) (requestID leaseID : String)
      (hm : m = .lease vm a requestID leaseID true) (hkey : vm.pool = key)
  | deleted (f : Frame) (vm : VMRef) (hm : m = .finish f true) (hvm : f.finishes = some vm)
      (hkey : vm.pool = key)

/-- The record of a MicroVM after a move: it is as it was, or new; or the goroutine
that worked on it wrote it; or it is picked; or it is condemned. -/
inductive Touched (c : Custody) (m : Move) (c' : Custody) (id : Nat) : Record → Prop
  | kept {r : Record} (hr : c.vms id = some r) : Touched c m c' id r
  | born (key : PoolRef) (hid : id = c.last + 1) (hlast : c'.last = id)
      (hpool : (c.pools key).isSome = true) (hm : Reserves m key) :
      Touched c m c' id ⟨"", key, .provisioning⟩
  | worked (f : Frame) (vm : VMRef) (r : Record) {uid : String} {phase : VMPhase}
      (hends : ends m = some f) (hf : f ∈ c.frames) (hvm : f.works = some vm) (hid : vm.id = id)
      (hr : c.vms id = some r) (huid : uid = r.uid ∨ m = .name vm uid)
      (hphase : phase = r.phase ∨ (c.pools vm.pool).isSome ∧
        (phase = .available → f.phase = .createHookRunning) ∧
        (phase = .deleting → ∀ g ∈ c.starts m, g.works = none)) :
      Touched c m c' id ⟨uid, r.pool, phase⟩
  | picked (r : Record) (hr : c.vms id = some r) (havail : r.phase = .available) :
      Touched c m c' id { r with phase := .preLeaseHookRunning }
  | doomed (f : Frame) (vm : VMRef) (r : Record) (hf : f ∈ c.frames) (hvm : vm ∈ f.deletes)
      (hid : vm.id = id) (hr : c.vms id = some r) : Touched c m c' id { r with phase := .deleting }

theorem Touched.write (phase : VMPhase) (hends : ends m = some f) (hf : f ∈ c.frames)
    (hw : f.works = some vm) (halive : c.alive vm = true)
    (havail : phase = .available → f.phase = .createHookRunning)
    (hnew : phase = .deleting → ∀ g ∈ c.starts m, g.works = none)
    (hr' : (c.setPhase vm.id phase).vms id = some r') : Touched c m c' id r' := by
  rcases setPhase_some hr' with ⟨rfl, r, hr, rfl⟩ | ⟨-, hr⟩
  · exact .worked f vm r hends hf hw rfl hr (.inl rfl) (.inr ⟨(alive_spec halive).2, havail, hnew⟩)
  · exact .kept hr

/-- **What a move does to a MicroVM.** -/
theorem touch (hnext : c.next m = some c') (hr' : c'.vms id = some r') : Touched c m c' id r' := by
  cases m with
  | createPool key a spec | deletePool key vms | proceed f f' | stray vm uid | leave f
  | condemn leaseID vm event caller | pass f fs =>
    obtain ⟨-, ⟨⟩⟩ := ite_none_right_eq_some.mp hnext
    exact .kept hr'
  | updatePool key spec =>
    obtain ⟨a, -, rfl⟩ := map_eq_some_iff.mp hnext
    exact .kept hr'
  | reserve key =>
    obtain ⟨hdeficit, ⟨⟩⟩ := ite_none_right_eq_some.mp hnext
    have hr' : (c.reserveIf true key).vms id = some r' := hr'
    rcases reserveIf_some hr' with hr | ⟨-, rfl, rfl⟩
    · exact .kept hr
    · refine .born key rfl rfl (pools_of_specOf fun hnone => ?_) (.missed rfl)
      unfold deficit at hdeficit
      rw [hnone] at hdeficit
      exact absurd hdeficit (Nat.lt_irrefl 0)
  | giveUp f =>
    obtain ⟨-, hc⟩ := ite_none_right_eq_some.mp hnext
    obtain ⟨vm, -, rfl⟩ := map_eq_some_iff.mp hc
    rcases update_some.mp hr' with ⟨-, ⟨⟩⟩ | ⟨-, hr⟩
    exact .kept hr
  | name vm uid =>
    obtain ⟨⟨hf, -⟩, ⟨⟩⟩ := ite_none_right_eq_some.mp hnext
    rcases name_some hr' with ⟨rfl, r, hr, rfl⟩ | ⟨-, hr⟩
    · exact .worked (.create vm) vm r rfl hf rfl rfl hr (.inr rfl) (.inl rfl)
    · exact .kept hr
  | hook vm uid =>
    obtain ⟨⟨hf, halive⟩, ⟨⟩⟩ := ite_none_right_eq_some.mp hnext
    exact .write .createHookRunning rfl hf rfl halive nofun nofun hr'
  | ready vm uid =>
    obtain ⟨⟨hf, halive⟩, ⟨⟩⟩ := ite_none_right_eq_some.mp hnext
    exact .write .available rfl hf rfl halive (fun _ => rfl) nofun hr'
  | pick vm a requestID =>
    obtain ⟨⟨hpick, -⟩, ⟨⟩⟩ := ite_none_right_eq_some.mp hnext
    rcases setPhase_some hr' with ⟨rfl, r, hr, rfl⟩ | ⟨-, hr⟩
    · rw [hr] at hpick
      exact .picked r hr (of_decide_eq_true (Bool.and_eq_true_iff.mp hpick).2)
    · exact .kept hr
  | lease vm a requestID leaseID again =>
    obtain ⟨⟨hf, halive, -⟩, hc⟩ := ite_none_right_eq_some.mp hnext
    obtain ⟨r, -, rfl⟩ := map_eq_some_iff.mp hc
    rcases reserveIf_some hr' with hr' | ⟨rfl, rfl, rfl⟩
    · exact .write .leased rfl hf rfl halive nofun nofun hr'
    · exact .born vm.pool rfl rfl (alive_spec halive).2 (.leased vm a requestID leaseID rfl rfl)
  | quarantine f =>
    obtain ⟨vm, hvm, hc⟩ := bind_eq_some_iff.mp hnext
    obtain ⟨⟨hf, halive⟩, ⟨⟩⟩ := ite_none_right_eq_some.mp hc
    exact .write .quarantined rfl hf (Frame.hooks_spec hvm).1 halive nofun nofun hr'
  | fail f caller =>
    obtain ⟨vm, hvm, hc⟩ := bind_eq_some_iff.mp hnext
    obtain ⟨⟨hf, halive, -⟩, ⟨⟩⟩ := ite_none_right_eq_some.mp hc
    refine .write .deleting rfl hf (Frame.hooks_spec hvm).1 halive nofun (fun _ g hg => ?_) hr'
    dsimp only [starts] at hg
    rw [hvm] at hg
    rw [List.mem_singleton.mp hg]
    rfl
  | doom f vm =>
    obtain ⟨⟨hf, hvm⟩, ⟨⟩⟩ := ite_none_right_eq_some.mp hnext
    rcases setPhase_some hr' with ⟨rfl, r, hr, rfl⟩ | ⟨-, hr⟩
    · exact .doomed f vm r hf hvm rfl hr
    · exact .kept hr
  | finish f again =>
    obtain ⟨vm, hvm, hc⟩ := bind_eq_some_iff.mp hnext
    obtain ⟨⟨-, -, hspec⟩, ⟨⟩⟩ := ite_none_right_eq_some.mp hc
    rcases reserveIf_some hr' with hr' | ⟨rfl, rfl, rfl⟩
    · rcases update_some.mp hr' with ⟨-, ⟨⟩⟩ | ⟨-, hr⟩
      exact .kept hr
    · refine .born vm.pool rfl rfl (pools_of_specOf fun hnone => ?_) (.deleted f vm rfl hvm rfl)
      exact nomatch (hnone ▸ hspec rfl : none = some _)
  | forget leaseID =>
    obtain rfl := some.inj hnext
    exact .kept hr'

/-- A MicroVM that is not new was there, with the same Pool. -/
theorem Touched.pool (h : Touched c m c' id r') (hlast : id ≤ c.last) :
    ∃ r, c.vms id = some r ∧ r'.pool = r.pool := by
  cases h with
  | kept hr => exact ⟨r', hr, rfl⟩
  | born key hid => omega
  | worked f vm r hends hf hvm hid hr => exact ⟨r, hr, rfl⟩
  | picked r hr => exact ⟨r, hr, rfl⟩
  | doomed f vm r hf hvm hid hr => exact ⟨r, hr, rfl⟩

theorem Bounded.step (hb : c.Bounded) (hnext : c.next m = some c') : c'.Bounded := by
  intro id r' hr'
  have hold : ∀ {r}, c.vms id = some r → id ≤ c'.last := fun hr => (hb hr).trans (rest hnext).last
  cases touch hnext hr' with
  | kept hr => exact hold hr
  | born key hid hlast => exact hlast.ge
  | worked f vm r hends hf hvm hid hr => exact hold hr
  | picked r hr => exact hold hr
  | doomed f vm r hf hvm hid hr => exact hold hr

/-! ## Who works on a MicroVM -/

/-- Nobody provisions or claims the MicroVM. -/
def Free (c : Custody) (id : Nat) : Prop := ∀ f ∈ c.frames, f.workId ≠ some id

theorem Free.enter (h : c.Free id) (hf : f.workId ≠ some id) : (c.enter f).Free id := by
  intro g hg
  rcases mem_enter.mp hg with rfl | hg
  · exact hf
  · exact h g hg

/-- Nobody comes to work on a MicroVM that cannot be picked. -/
theorem Free.next (h : c.Free id) (hnext : c.next m = some c') (hlast : id ≤ c.last)
    (hcold : ∀ {r}, c.vms id = some r → r.phase ≠ .available) : c'.Free id := by
  intro g hg hid
  rcases comes hnext hg with hg | hcomes
  · exact h g hg hid
  rcases hcomes.workId hnext hid with hnew | ⟨f, hf, -, hfid, -⟩ | ⟨-, r, hr, havail⟩
  · omega
  · exact h f hf hfid
  · exact hcold hr havail

/-! ## Sound states -/

/-- What the records, the index, the Leases and the work list have to do with each
other, in every state. -/
structure Sound (c : Custody) : Prop where
  recorded : c.Bounded
  worked : ∀ {f}, f ∈ c.frames → ∀ {vm}, f.works = some vm → vm.id ≤ c.last ∧
    ∀ {r}, c.vms vm.id = some r → r.pool = vm.pool ∧ f.fits r
  single : (c.frames.filterMap Frame.workId).Nodup
  listed : ∀ {f}, f ∈ c.frames → ∀ {vm}, vm ∈ f.deletes → vm.id ≤ c.last ∧
    ∀ {r}, c.vms vm.id = some r → r.pool = vm.pool
  warm : ∀ {id r}, c.vms id = some r → r.phase = .available → r.uid ≠ ""
  named : ∀ {id r}, c.vms id = some r → r.uid ≠ "" → c.names r.uid = some id ∧ r.uid ∈ c.uids
  names : ∀ {uid id}, c.names uid = some id → uid ∈ c.uids ∧ uid ≠ "" ∧ id ≤ c.last ∧
    ∀ {r}, c.vms id = some r → r.uid = uid

/-- A Host returns a uid that was not in use. -/
def Fresh (c : Custody) : Move → Prop
  | .name _ uid => uid ∉ c.uids
  | _ => True

namespace Sound

variable (h : c.Sound)

include h

theorem free_leave (hf : f ∈ c.frames) (hid : f.workId = some id) : (c.leave f).Free id := by
  intro g hg hgid
  have hsingle := h.single
  rw [← cons_erase hf, Multiset.filterMap_cons_some _ _ _ hid, Multiset.nodup_cons]
    at hsingle
  exact hsingle.1 ((Multiset.mem_filterMap _ _).mpr ⟨g, hg, hgid⟩)

theorem free_of_phase (hr : c.vms id = some r)
    (hphase : r.phase = .available ∨ r.phase = .leased) : c.Free id := by
  intro f hf hid
  obtain ⟨vm, hvm, rfl⟩ := map_eq_some_iff.mp hid
  rcases ((h.worked hf hvm).2 hr).2.1 with hp | hp
  · rcases hphase with h' | h'
    · exact f.phase_ne_available (hp.symm.trans h')
    · exact f.phase_ne_leased (hp.symm.trans h')
  · rcases hphase with h' | h' <;> exact nomatch hp.symm.trans h'

theorem uid_inj (hr : c.vms id = some r) (hr' : c.vms id' = some r')
    (huid : r.uid = r'.uid) (hne : r.uid ≠ "") : id = id' := by
  have hname := (h.named hr hne).1
  rw [huid, (h.named hr' (huid ▸ hne)).1] at hname
  exact (some.inj hname).symm

/-! ### Each move -/

section Step

variable (hnext : c.next m = some c')

include hnext

/-- A goroutine that ends leaves its MicroVM to nobody, unless the move starts another
on it. -/
theorem free_of_ends (hends : ends m = some f) (hf : f ∈ c.frames) (hid : f.workId = some id)
    (hnew : ∀ g ∈ c.starts m, g.workId ≠ some id) : c'.Free id := by
  intro g hg
  rw [(rest hnext).frames, hends] at hg
  rcases mem_add.mp hg with hg | hg
  · exact hnew g hg
  · exact h.free_leave hf hid g hg

theorem worked_step (hg : g ∈ c'.frames) (hw : g.works = some vm) : vm.id ≤ c'.last ∧
    ∀ {r'}, c'.vms vm.id = some r' → r'.pool = vm.pool ∧ g.fits r' := by
  rw [(rest hnext).frames] at hg
  rcases mem_add.mp hg with hg | hg
  · cases comes_of_mem_starts hnext hg with
    | pool _ _ _ hg | condemned _ _ _ _ _ hg | failed _ _ _ _ _ hg =>
      subst hg
      cases hw
    | provisions vm' hid hvms hg =>
      subst hg
      obtain rfl := some.inj hw
      refine ⟨h.recorded.step hnext hvms, fun hr' => ?_⟩
      obtain rfl := some.inj (hvms.symm.trans hr')
      exact ⟨rfl, .inl rfl, rfl⟩
    | goesOn f vm' hends hf hw₀ hphase hw' hphase' hdeletes hfin hfits =>
      obtain rfl := some.inj (hw'.symm.trans hw)
      obtain ⟨hlast, hold⟩ := h.worked hf hw₀
      refine ⟨hlast.trans (rest hnext).last, fun hr' => ?_⟩
      obtain ⟨r, hr, hpool, hfits⟩ := hfits hr'
      exact ⟨hpool.trans (hold hr).1, hfits (hold hr).2⟩
    | waits vm' a requestID hm hg' =>
      subst hm hg'
      obtain rfl := some.inj hw
      obtain ⟨⟨hpick, -⟩, ⟨⟩⟩ := ite_none_right_eq_some.mp hnext
      obtain ⟨r, hr, hpick⟩ := (Option.any_eq_true ..).mp hpick
      obtain ⟨hpool, havail⟩ := Bool.and_eq_true_iff.mp hpick
      refine ⟨h.recorded hr, fun hr' => ?_⟩
      obtain rfl := some.inj ((setPhase_self hr).symm.trans hr')
      exact ⟨of_decide_eq_true hpool, .inl rfl, (h.warm hr (of_decide_eq_true havail) :)⟩
    | passed f fs hm hg =>
      subst hm
      obtain ⟨⟨-, -, hfs⟩, -⟩ := ite_none_right_eq_some.mp hnext
      exact nomatch (passes_spec (hfs g hg)).1.symm.trans hw
  · -- the goroutine was there, and no other had the MicroVM
    have hold := mem_of_le (ends_le m) hg
    obtain ⟨hlast, hfits⟩ := h.worked hold hw
    refine ⟨hlast.trans (rest hnext).last, fun hr' => ?_⟩
    cases touch hnext hr' with
    | kept hr => exact hfits hr
    | born key hid => omega
    | worked f vm' r hends hf hvm hid hr =>
      rw [hends] at hg
      have hfree := h.free_leave hf (Frame.workId_of_works hvm)
      exact absurd (hid ▸ Frame.workId_of_works hw) (hfree g hg)
    | picked r hr havail =>
      exact absurd (Frame.workId_of_works hw) (h.free_of_phase hr (.inl havail) g hold)
    | doomed f vm' r hf hvm hid hr => exact ⟨(hfits hr).1, .inr rfl, (hfits hr).2.2⟩

theorem single_step : (c'.frames.filterMap Frame.workId).Nodup := by
  rw [(rest hnext).frames, filterMap_add, Multiset.nodup_add]
  refine ⟨starts_nodup hnext, nodup_of_le (filterMap_le_filterMap _ (ends_le m)) h.single, ?_⟩
  refine Multiset.disjoint_left.mpr fun {id} hin hin' => ?_
  obtain ⟨g, hg, hid⟩ := (Multiset.mem_filterMap _ _).mp hin
  obtain ⟨f, hf, hid'⟩ := (Multiset.mem_filterMap _ _).mp hin'
  have hold := mem_of_le (ends_le m) hf
  rcases (comes_of_mem_starts hnext hg).workId hnext hid with
    hnew | ⟨f', hf', hends, hfid, -⟩ | ⟨-, r, hr, havail⟩
  · obtain ⟨vm, hvm, rfl⟩ := map_eq_some_iff.mp hid'
    have hlast := (h.worked hold hvm).1
    omega
  · rw [hends] at hf
    exact h.free_leave hf' hfid f hf hid'
  · exact h.free_of_phase hr (.inl havail) f hold hid'

theorem listed_step (hg : g ∈ c'.frames) (hvm : vm ∈ g.deletes) : vm.id ≤ c'.last ∧
    ∀ {r'}, c'.vms vm.id = some r' → r'.pool = vm.pool := by
  have hrec : (c.vms vm.id).map Record.pool = some vm.pool → vm.id ≤ c.last ∧
      ∀ {r}, c.vms vm.id = some r → r.pool = vm.pool := by
    intro hpool
    obtain ⟨r, hr, hrpool⟩ := map_eq_some_iff.mp hpool
    exact ⟨h.recorded hr, fun hr' => some.inj (hr.symm.trans hr') ▸ hrpool⟩
  have hold : vm.id ≤ c.last ∧ ∀ {r}, c.vms vm.id = some r → r.pool = vm.pool := by
    cases lists hnext hg hvm with
    | before f hf hvm => exact h.listed hf hvm
    | pool vms hm hpool => exact hrec hpool
    | condemned leaseID event caller hm =>
      subst hm
      exact hrec (ite_none_right_eq_some.mp hnext).1.1
    | failed f caller hm hvm' =>
      subst hm
      obtain ⟨vm', hvm'', hc⟩ := bind_eq_some_iff.mp hnext
      obtain ⟨⟨hf, -⟩, -⟩ := ite_none_right_eq_some.mp hc
      obtain ⟨hlast, hfits⟩ := h.worked hf (Frame.hooks_spec hvm').1
      exact ⟨hlast, fun hr => (hfits hr).1⟩
  refine ⟨hold.1.trans (rest hnext).last, fun hr' => ?_⟩
  obtain ⟨r, hr, hpool⟩ := (touch hnext hr').pool hold.1
  exact hpool.trans (hold.2 hr)

theorem warm_step (hr' : c'.vms id = some r') (havail : r'.phase = .available) : r'.uid ≠ "" := by
  cases touch hnext hr' with
  | kept hr => exact h.warm hr havail
  | born key hid => cases havail
  | worked f vm r hends hf hvm hid hr huid hphase =>
    rcases huid with rfl | rfl
    · rcases hphase with rfl | ⟨-, hready, -⟩
      · exact (h.warm hr havail :)
      · exact Frame.knows_of_hooks (hready havail) ((h.worked hf hvm).2 (r := r) (hid ▸ hr)).2.2
    · exact (ite_none_right_eq_some.mp hnext).1.2.1
  | picked r hr => cases havail
  | doomed f vm r hf hvm hid hr => cases havail

variable (hfresh : c.Fresh m)

include hfresh in
/-- A MicroVM that stays keeps its name. -/
theorem name_kept (hname : c.names uid = some id) (hr' : c'.vms id = some r') :
    c'.names uid = some id := by
  obtain ⟨hin, hne, -, -⟩ := h.names hname
  cases (rest hnext).names with
  | kept heq => rw [heq, hname]
  | named vm uid' hm =>
    subst hm
    obtain ⟨-, ⟨⟩⟩ := ite_none_right_eq_some.mp hnext
    exact update_some.mpr (.inr ⟨fun heq => hfresh (heq ▸ hin), hname⟩)
  | removed id₀ r₀ hr₀ hgone heq =>
    rw [heq]
    refine update_some.mpr (.inr ⟨fun hu => ?_, hname⟩)
    -- the record that goes would be the one that stays
    have hname₀ := (h.named hr₀ (hu ▸ hne)).1
    obtain rfl : id₀ = id := some.inj (hname₀.symm.trans (hu ▸ hname))
    have hlast := h.recorded hr₀
    have hnew := hgone hr'
    omega

include hfresh in
theorem named_step (hr' : c'.vms id = some r') (hne : r'.uid ≠ "") :
    c'.names r'.uid = some id ∧ r'.uid ∈ c'.uids := by
  have hold : ∀ {r}, c.vms id = some r → r.uid = r'.uid → c'.names r'.uid = some id ∧
      r'.uid ∈ c'.uids := by
    intro r hr huid
    obtain ⟨hname, hin⟩ := h.named hr (huid ▸ hne)
    rw [← huid]
    exact ⟨h.name_kept hnext hfresh hname hr', (rest hnext).uids hin⟩
  cases touch hnext hr' with
  | kept hr => exact hold hr rfl
  | born key hid => exact absurd rfl hne
  | worked f vm r hends hf hvm hid hr huid hphase =>
    rcases huid with rfl | rfl
    · exact hold hr rfl
    · obtain ⟨-, ⟨⟩⟩ := ite_none_right_eq_some.mp hnext
      exact ⟨hid ▸ update_self .., List.mem_cons_self⟩
  | picked r hr => exact hold hr rfl
  | doomed f vm r hf hvm hid hr => exact hold hr rfl

theorem names_step (hname : c'.names uid = some id) : uid ∈ c'.uids ∧ uid ≠ "" ∧ id ≤ c'.last ∧
    ∀ {r'}, c'.vms id = some r' → r'.uid = uid := by
  have hold : c.names uid = some id → uid ∈ c'.uids ∧ uid ≠ "" ∧ id ≤ c'.last ∧
      ∀ {r'}, c'.vms id = some r' → r'.uid = uid := by
    intro hname
    obtain ⟨hin, hne, hlast, huid⟩ := h.names hname
    refine ⟨(rest hnext).uids hin, hne, hlast.trans (rest hnext).last, fun hr' => ?_⟩
    cases touch hnext hr' with
    | kept hr => exact (huid hr :)
    | born key hid => omega
    | worked f vm r hends hf hvm hid hr huid' hphase =>
      rcases huid' with rfl | rfl
      · exact (huid hr :)
      · -- a record that gets a uid had none
        obtain rfl := some.inj hends
        have hnone : r.uid = "" := ((h.worked hf hvm).2 (hid ▸ hr)).2.2
        exact absurd ((huid hr).symm.trans hnone) hne
    | picked r hr => exact (huid hr :)
    | doomed f vm r hf hvm hid hr => exact (huid hr :)
  cases (rest hnext).names with
  | kept heq => exact hold (heq ▸ hname)
  | named vm uid' hm =>
    subst hm
    obtain ⟨⟨hf, hne, -⟩, ⟨⟩⟩ := ite_none_right_eq_some.mp hnext
    rcases update_some.mp hname with ⟨rfl, ⟨⟩⟩ | ⟨-, hname⟩
    · refine ⟨List.mem_cons_self, hne, (h.worked hf rfl).1, fun hr' => ?_⟩
      rcases name_some hr' with ⟨-, r, -, rfl⟩ | ⟨hid, -⟩
      · rfl
      · exact absurd rfl hid
    · exact hold hname
  | removed id₀ r₀ hr₀ hgone heq =>
    rw [heq] at hname
    rcases update_some.mp hname with ⟨-, ⟨⟩⟩ | ⟨-, hname⟩
    exact hold hname

include hfresh in
theorem step : c'.Sound where
  recorded := h.recorded.step hnext
  worked hg _ := h.worked_step hnext hg
  single := h.single_step hnext
  listed hg _ := h.listed_step hnext hg
  warm := h.warm_step hnext
  named := h.named_step hnext hfresh
  names := h.names_step hnext

end Step

end Sound

/-! ## Spent uids -/

/-- The MicroVM of a uid has had its Lease: if it is still there, it is leased or
condemned, and nobody works on it. -/
structure Spent (c : Custody) (uid : String) : Prop where
  used : uid ∈ c.uids
  ended : ∀ {id r}, c.vms id = some r → r.uid = uid →
    (r.phase = .leased ∨ r.phase = .deleting) ∧ c.Free id

/-- A MicroVM that had its Lease is never available again. -/
theorem Spent.step (hs : c.Spent uid) (h : c.Sound) (hne : uid ≠ "") (hfresh : c.Fresh m)
    (hnext : c.next m = some c') : c'.Spent uid where
  used := (rest hnext).uids hs.used
  ended {id r'} hr' huid := by
    have hfree : ∀ {r}, c.vms id = some r → r.uid = uid → c'.Free id := by
      intro r hr huid
      obtain ⟨hphase, hfree⟩ := hs.ended hr huid
      refine hfree.next hnext (h.recorded hr) fun hr₀ havail => ?_
      obtain rfl := some.inj (hr.symm.trans hr₀)
      rcases hphase with hp | hp <;> exact nomatch havail.symm.trans hp
    cases touch hnext hr' with
    | kept hr => exact ⟨(hs.ended hr huid).1, hfree hr huid⟩
    | born key hid => exact absurd huid.symm hne
    | worked f vm r hends hf hvm hid hr huid' hphase =>
      rcases huid' with rfl | rfl
      · exact absurd (hid ▸ Frame.workId_of_works hvm) ((hs.ended hr huid).2 f hf)
      · cases huid
        exact absurd hs.used hfresh
    | picked r hr havail =>
      rcases (hs.ended hr huid).1 with hp | hp <;> exact nomatch havail.symm.trans hp
    | doomed f vm r hf hvm hid hr => exact ⟨.inr rfl, hfree hr huid⟩

/-- Every Lease is of a spent MicroVM. -/
def Leased (c : Custody) : Prop :=
  ∀ ⦃id g⦄, c.leases id = some g → g.vmUID ≠ "" ∧ c.Spent g.vmUID

theorem Sound.spent_of_makes (h : c.Sound) (hnext : c.next m = some c')
    {leaseID : String} {gr : Grant} (hm : c.Makes m leaseID gr) :
    gr.vmUID ≠ "" ∧ c'.Spent gr.vmUID := by
  obtain ⟨vm, a, again, r, rfl, hf, -, -, hr, huid⟩ := hm
  have hne : r.uid ≠ "" := ((h.worked hf rfl).2 hr).2.2
  have hlast := h.recorded hr
  have hfree : c'.Free vm.id := by
    refine h.free_of_ends hnext rfl hf rfl fun g hg hid => ?_
    cases again with
    | false => cases hg
    | true =>
      rw [List.mem_singleton.mp hg] at hid
      have hnew : c.last + 1 = vm.id := some.inj hid
      omega
  refine ⟨huid ▸ hne, (rest hnext).uids (huid ▸ (h.named hr hne).2), fun {id r'} hr' huid' => ?_⟩
  obtain ⟨-, hc⟩ := ite_none_right_eq_some.mp hnext
  obtain ⟨_, -, rfl⟩ := map_eq_some_iff.mp hc
  rcases reserveIf_some hr' with hr' | ⟨-, -, rfl⟩
  · rcases setPhase_some hr' with ⟨rfl, r₀, -, rfl⟩ | ⟨hid, hr₀⟩
    · exact ⟨.inl rfl, hfree⟩
    · exact absurd (h.uid_inj hr hr₀ (huid.trans huid'.symm) hne).symm hid
  · exact absurd (huid.trans huid'.symm) hne

theorem Leased.step (hl : c.Leased) (h : c.Sound) (hfresh : c.Fresh m)
    (hnext : c.next m = some c') : c'.Leased := by
  intro id gr hgr
  rcases (rest hnext).leases hgr with hold | hmade
  · obtain ⟨hne, hspent⟩ := hl hold
    exact ⟨hne, hspent.step h hne hfresh hnext⟩
  · exact h.spent_of_makes hnext hmade

/-! ## Condemned MicroVMs -/

/-- A MicroVM of the Pool that is condemned, or on a list, is worked on by nobody
and in a phase of some kind. -/
def Settles (ok : VMPhase → Prop) (key : PoolRef) (c : Custody) : Prop :=
  ∀ ⦃id r⦄, c.vms id = some r → r.pool = key → r.phase = .deleting ∨ c.Listed id →
    ok r.phase ∧ c.Free id

/-- A MicroVM of the Pool whose Host was told is condemned. -/
def Finishing (key : PoolRef) (c : Custody) : Prop :=
  ∀ ⦃f⦄, f ∈ c.frames → ∀ ⦃vm⦄, f.finishes = some vm → ∀ ⦃r⦄, c.vms vm.id = some r →
    r.pool = key → r.phase = .deleting

section Settles

variable {ok : VMPhase → Prop} (hs : Settles ok key c) (h : c.Sound)

include hs h

theorem Settles.condemnable (hl : c.Leased) {leaseID : Option String} (hr : c.vms vm.id = some r)
    (hpool : r.pool = key) (hcond : c.condemnable vm leaseID = true) :
    (r.phase = .leased ∨ r.phase = .deleting) ∧ c.Free vm.id := by
  cases leaseID with
  | some leaseID =>
    obtain ⟨gr, hgr, hname⟩ := (Option.any_eq_true ..).mp hcond
    have huid := (h.names (of_decide_eq_true hname)).2.2.2 hr
    exact (hl hgr).2.ended hr huid
  | none =>
    obtain ⟨r', hr', hphase⟩ := (Option.any_eq_true ..).mp hcond
    obtain rfl := some.inj (hr.symm.trans hr')
    rcases Bool.or_eq_true_iff.mp hphase with hp | hp
    · exact ⟨.inl (of_decide_eq_true hp), h.free_of_phase hr (.inr (of_decide_eq_true hp))⟩
    · exact ⟨.inr (of_decide_eq_true hp), (hs hr hpool (.inl (of_decide_eq_true hp))).2⟩

/-- A MicroVM that is condemned, or was on a list before. -/
theorem Settles.touched (hdeleting : ok .deleting) (havail : ¬ ok .available)
    (hnext : c.next m = some c') (hr' : c'.vms id = some r') (hpool : r'.pool = key)
    (hcond : r'.phase = .deleting ∨ c.Listed id) : ok r'.phase ∧ c'.Free id := by
  have hfree : ∀ {r}, c.vms id = some r → r.pool = key → r.phase = .deleting ∨ c.Listed id →
      c'.Free id := by
    intro r hr hpool hcond
    obtain ⟨hok, hfree⟩ := hs hr hpool hcond
    refine hfree.next hnext (h.recorded hr) fun hr₀ hav => havail ?_
    exact hav ▸ some.inj (hr.symm.trans hr₀) ▸ hok
  cases touch hnext hr' with
  | kept hr => exact ⟨(hs hr hpool hcond).1, hfree hr hpool hcond⟩
  | born key' hid =>
    rcases hcond with hp | ⟨f, hf, vm, hvm, rfl⟩
    · cases hp
    · have hlast := (h.listed hf hvm).1
      omega
  | worked f vm r hends hf hvm hid hr huid hphase =>
    have hwork : f.workId = some id := hid ▸ Frame.workId_of_works hvm
    have hbusy : ¬ (r.phase = .deleting ∨ c.Listed id) := fun hcond =>
      (hs hr hpool hcond).2 f hf hwork
    rcases hcond with hp | hlist
    · rcases hphase with rfl | ⟨-, -, hnew⟩
      · exact absurd (.inl hp) hbusy
      · refine ⟨hp ▸ hdeleting, h.free_of_ends hnext hends hf hwork fun g hg hgid => ?_⟩
        rw [Frame.workId, hnew hp g hg] at hgid
        cases hgid
    · exact absurd (.inr hlist) hbusy
  | picked r hr hav =>
    rcases hcond with hp | hlist
    · cases hp
    · exact absurd (hav ▸ (hs hr hpool (.inr hlist)).1) havail
  | doomed f vm r hf hvm hid hr =>
    exact ⟨hdeleting, hfree hr hpool (.inr ⟨f, hf, vm, hvm, hid⟩)⟩

/-- Nobody takes up a MicroVM that is condemned. -/
theorem Settles.step (hleased : ok .leased) (hdeleting : ok .deleting)
    (havail : ¬ ok .available) (hl : c.Leased) (hm : ∀ vms, m ≠ .deletePool key vms)
    (hnext : c.next m = some c') : Settles ok key c' := by
  intro id r' hr' hpool hcond
  have hold := hs.touched h hdeleting havail hnext hr' hpool
  rcases hcond with hp | ⟨g, hg, vm, hvm, rfl⟩
  · exact hold (.inl hp)
  cases lists hnext hg hvm with
  | before f hf hvm => exact hold (.inr ⟨f, hf, vm, hvm, rfl⟩)
  | pool vms hm' =>
    have hkey : vm.pool = key := ((h.listed_step hnext hg hvm).2 hr').symm.trans hpool
    exact absurd (hkey ▸ hm') (hm vms)
  | condemned leaseID event caller hm' =>
    subst hm'
    obtain ⟨⟨-, hcond, -⟩, ⟨⟩⟩ := ite_none_right_eq_some.mp hnext
    obtain ⟨hp, hfree⟩ := hs.condemnable h hl hr' hpool hcond
    refine ⟨?_, hfree.enter nofun⟩
    rcases hp with hp | hp
    · exact hp ▸ hleased
    · exact hp ▸ hdeleting
  | failed f caller hm' hvm' =>
    subst hm'
    obtain ⟨vm', hvm'', hc⟩ := bind_eq_some_iff.mp hnext
    obtain rfl := some.inj (hvm'.symm.trans hvm'')
    obtain ⟨-, ⟨⟩⟩ := ite_none_right_eq_some.mp hc
    rcases setPhase_some hr' with ⟨-, r, -, rfl⟩ | ⟨hid, -⟩
    · exact hold (.inl rfl)
    · exact absurd rfl hid

theorem Finishing.step (hfin : Finishing key c) (havail : ¬ ok .available)
    (hnext : c.next m = some c') : Finishing key c' := by
  intro g hg vm hvm r' hr' hpool
  rcases finishes_next hnext hg hvm with hg | hdel
  swap
  · exact hdel hr'
  have hdeletes := (Frame.deletes_of_finishes hvm).1
  have hlist : c.Listed vm.id := ⟨g, hg, vm, hdeletes, rfl⟩
  cases touch hnext hr' with
  | kept hr => exact hfin hg hvm hr hpool
  | born key' hid =>
    have hlast := (h.listed hg hdeletes).1
    omega
  | worked f vm' r hends hf hvm' hid hr =>
    have hfree := (hs hr hpool (.inr hlist)).2
    exact absurd (hid ▸ Frame.workId_of_works hvm') (hfree f hf)
  | picked r hr hav => exact absurd (hav ▸ (hs hr hpool (.inr hlist)).1) havail
  | doomed f vm' r hf hvm' hid hr => rfl

end Settles

/-! ## Picked MicroVMs -/

/-- A MicroVM that was picked. -/
structure Past (c : Custody) (id : Nat) : Prop where
  last : id ≤ c.last
  claimed : ∀ {f}, f ∈ c.frames → f.workId = some id → f.phase = .preLeaseHookRunning
  ended : ∀ {r}, c.vms id = some r → r.phase ≠ .available

theorem Past.step (hp : c.Past id) (hnext : c.next m = some c') : c'.Past id where
  last := hp.last.trans (rest hnext).last
  claimed {g} hmem hid := by
    rcases comes hnext hmem with hg | hcomes
    · exact hp.claimed hg hid
    rcases hcomes.workId hnext hid with hnew | ⟨f, hf, -, hfid, hphase⟩ | ⟨hphase, -⟩
    · exact absurd hp.last (Nat.not_le_of_lt (hnew ▸ Nat.lt_succ_self _))
    · exact absurd (hp.claimed hf hfid) hphase
    · exact hphase
  ended {r'} hr' := by
    cases touch hnext hr' with
    | kept hr => exact hp.ended hr
    | born key hid => nofun
    | worked f vm r hends hf hvm hid hr huid hphase =>
      have hclaims := hp.claimed hf (hid ▸ Frame.workId_of_works hvm)
      rcases hphase with rfl | ⟨-, hready, -⟩
      · exact (hp.ended hr :)
      · exact fun hav => nomatch hclaims.symm.trans (hready hav)
    | picked r hr hav => exact absurd hav (hp.ended hr)
    | doomed f vm r hf hvm hid hr => nofun

end Custody

/-! ## Runs -/

section Runs

variable {cfg : FakeConfig} {ok : PoolManager → Label → Prop} {p q : PoolManager}

/-- What the moves of every section keep, the Pool Manager keeps. -/
theorem path_moves {I : Custody → Prop} (hb : ∀ {c : Custody}, I c → c.Bounded)
    (hinv : ∀ p l, ok p l → I (p.custody []) → ∀ c m d, I c → Admits p l c m → c.next m = some d → I d)
    (h : (poolManager cfg).Path ok p q) (hp : I (p.custody [])) : I (q.custody []) :=
  h.sim (N := moves) (PoolManager.custody [])
    (fun _ _ _ hI _ hnext => step_moves hnext (hb hI)) hinv hp

theorem fresh_of_admits {l : Label} {c : Custody} {m : Move} (hfresh : FreshUIDs p l)
    (h : Admits p l c m) : c.Fresh m := by
  cases m with
  | name vm uid =>
    obtain ⟨rfl, env, rfl⟩ := h
    exact hfresh
  | createPool _ _ _ | updatePool _ _ | deletePool _ _ | reserve _ | proceed _ _ | giveUp _
  | stray _ _ | hook _ _ | ready _ _ | pick _ _ _ | lease _ _ _ _ _ | quarantine _ | fail _ _
  | leave _ | condemn _ _ _ _ | doom _ _ | pass _ _ | finish _ _ | forget _ => trivial

/-- What every run of fresh uids keeps. -/
structure Custody.Fit (c : Custody) : Prop where
  sound : c.Sound
  leased : c.Leased

theorem Custody.Fit.step {c c' : Custody} {m : Move} (h : c.Fit) (hfresh : c.Fresh m)
    (hnext : c.next m = some c') : c'.Fit :=
  ⟨h.sound.step hnext hfresh, Leased.step h.leased h.sound hfresh hnext⟩

theorem fit_new : (PoolManager.new.custody []).Fit where
  sound :=
    { recorded := nofun
      worked := fun hf => absurd hf (notMem_zero _)
      single := nodup_zero
      listed := fun hf => absurd hf (notMem_zero _)
      warm := nofun
      named := nofun
      names := nofun }
  leased := nofun

theorem fit_reach (h : (poolManager cfg).Reach FreshUIDs p) : (p.custody []).Fit := by
  obtain ⟨p₀, rfl, hpath⟩ := h
  refine path_moves (fun h => h.sound.recorded) (fun p l hok _ c m d hc hadm hnext => ?_) hpath fit_new
  exact hc.step (fresh_of_admits hok hadm) hnext

/-- **Nobody writes over another's work**, if no Host returns a uid twice. A uid names
one MicroVM, under which the index has it. No two goroutines provision or claim one
MicroVM, and each finds it in the phase that it left it in, or condemned; one that can
be claimed has a uid and nobody works on it. -/
theorem work_apart (h : (poolManager cfg).Reach FreshUIDs p) :
    (∀ {id v}, p.vms.lookup id = some v → v.uid ≠ "" → p.vmByUID.lookup v.uid = some id ∧
      ∀ {id' v'}, p.vms.lookup id' = some v' → v'.uid = v.uid → id' = id) ∧
    (p.frames.filterMap Frame.workId).Nodup ∧
    (∀ {f vm v}, f ∈ p.frames → f.works = some vm → p.vms.lookup vm.id = some v →
      v.pool = vm.pool ∧ (v.phase = f.phase ∨ v.phase = .deleting)) ∧
    ∀ {id v}, p.vms.lookup id = some v → v.phase = .available → v.uid ≠ "" ∧
      ∀ f ∈ p.frames, f.workId ≠ some id := by
  have hs := (fit_reach h).sound
  have hvms {id v} (hv : p.vms.lookup id = some v) := p.vms_custody [] hv
  refine ⟨fun hv hne => ⟨(hs.named (hvms hv) hne).1, fun hv' heq => ?_⟩, ?_, ?_, ?_⟩
  · exact (hs.uid_inj (hvms hv) (hvms hv') heq.symm hne).symm
  · exact Multiset.coe_nodup.mp hs.single
  · intro f vm v hf hvm hv
    obtain ⟨hpool, hfits⟩ := (hs.worked hf hvm).2 (hvms hv)
    exact ⟨hpool, hfits.1⟩
  · exact fun hv hav => ⟨hs.warm (hvms hv) hav, hs.free_of_phase (hvms hv) (.inl hav)⟩

end Runs

/-- A claim has picked the MicroVM and waits for its hooks. -/
theorem solo_picked : ∃ p, (poolManager soloConfig).Reach FreshUIDs p ∧
    p.frames = [.preLease soloVM 0 "job-1"] :=
  ⟨_, Machine.reach_run (M := poolManager soloConfig) FreshUIDs (soloPicked "job-1") rfl rfl, rfl⟩

theorem work_apart_picked : ∃ p : PoolManager, p.frames = [.preLease soloVM 0 "job-1"] ∧
    ∀ {v}, p.vms.lookup 1 = some v → v.phase = .preLeaseHookRunning ∨ v.phase = .deleting := by
  obtain ⟨p, hreach, hframes⟩ := solo_picked
  have hf : .preLease soloVM 0 "job-1" ∈ p.frames := hframes ▸ List.mem_singleton_self _
  exact ⟨p, hframes, fun hv => ((work_apart hreach).2.2.1 hf rfl hv).2⟩

end FlintlockRunner.Poolmgr.Fake

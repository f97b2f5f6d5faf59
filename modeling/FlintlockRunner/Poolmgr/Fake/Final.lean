import FlintlockRunner.Poolmgr.Fake.OneJob

/-!
# Deletion is final

A MicroVM that is `DELETING` stays so until its record goes, and no Lease is made
for one, as long as a Pool is made under a key only when the MicroVMs of an
earlier Pool of that key that are to be deleted are left alone: none of them is
available, and no goroutine provisions or claims one.

`aliveLocked` finds a record and a Pool by its key. A goroutine that provisioned
or claimed a MicroVM of a deleted Pool takes a new Pool of the same key for its
own, and brings the MicroVM back from `DELETING`
(`deleting_microVM_leased`).
-/

namespace FlintlockRunner.Poolmgr.Fake

/-- The MicroVMs of a key that are to be deleted are not available, and nobody
works on them. -/
def PoolManager.Cleared (p : PoolManager) (key : PoolRef) : Prop :=
  ∀ e ∈ p.vmsOf key,
    e.2.phase = .deleting ∨ (∃ f ∈ p.frames, ∃ vm ∈ f.deletes, vm.id = e.1) →
      e.2.phase ≠ .available ∧ ∀ f ∈ p.frames, f.workId ≠ some e.1

instance (p : PoolManager) (key : PoolRef) : Decidable (p.Cleared key) :=
  inferInstanceAs (Decidable (∀ e ∈ p.vmsOf key, _))

/-- A Host returns a uid that was not in use, and a Pool is made under a key that is
cleared. -/
def Orderly (p : PoolManager) (l : Label) : Prop :=
  FreshUIDs p l ∧ match l with
    | .createPool spec => p.Cleared spec.ref
    | _ => True

instance (p : PoolManager) : DecidablePred (Orderly p) := fun l => by
  unfold Orderly
  split <;> infer_instance

/-! ## What a run keeps -/

/-- Every Pool that exists is settled. -/
structure Custody.Tidy (c : Custody) : Prop extends c.Fit where
  settles : ∀ {key a}, c.pools key = some a → Custody.Settles (· ≠ .available) key c

section Runs

variable {cfg : FakeConfig} {p q : PoolManager} {l : Label} {c c' : Custody} {m : Move}

theorem settles_of_cleared {key : PoolRef} (h : p.Cleared key) :
    Custody.Settles (· ≠ .available) key (p.custody []) := by
  intro id r hr hpool hcond
  obtain ⟨v, hv, rfl⟩ := Option.map_eq_some_iff.mp hr
  have hin : (id, v) ∈ p.vmsOf key := PoolManager.mem_vmsOf.mpr ⟨hv, hpool⟩
  exact h (id, v) hin hcond

theorem Custody.Tidy.step (h : c.Tidy) (hok : Orderly p l) (hadm : Admits p l c m)
    (hnext : c.next m = some c') : c'.Tidy := by
  have hfresh := fresh_of_admits hok.1 hadm
  refine ⟨h.toFit.step hfresh hnext, fun {key a} hkey => ?_⟩
  have hset : ∀ {a}, c.pools key = some a → (∀ vms, m ≠ .deletePool key vms) →
      Custody.Settles (· ≠ .available) key c' := fun hold hm =>
    (h.settles hold).step h.sound nofun nofun (fun h => h rfl) h.leased hm hnext
  rcases (Custody.rest hnext).pools hkey with hold | ⟨spec, rfl⟩
  · refine hset hold ?_
    rintro vms rfl
    obtain ⟨-, ⟨⟩⟩ := Option.ite_none_right_eq_some.mp hnext
    have hnone : none = some a := (Function.update_self key _ c.pools).symm.trans hkey
    exact nomatch hnone
  · obtain ⟨rfl, spec', rfl, rfl, -⟩ := hadm
    have hcleared := settles_of_cleared hok.2
    obtain ⟨-, ⟨⟩⟩ := Option.ite_none_right_eq_some.mp hnext
    exact hcleared

theorem tidy_reach (h : (poolManager cfg).Reach Orderly p) : (p.custody []).Tidy := by
  obtain ⟨p₀, rfl, hpath⟩ := h
  refine path_moves (fun h => h.sound.recorded) (fun p l hok _ c m d hc hadm hnext => ?_) hpath
    ⟨fit_new, nofun⟩
  exact hc.step hok hadm hnext

theorem Custody.Tidy.not_deleting (h : c.Tidy) {f : Frame} {vm : VMRef} {r : Record}
    (hf : f ∈ c.frames) (hvm : f.works = some vm) (hr : c.vms vm.id = some r)
    (hpool : (c.pools vm.pool).isSome = true) : r.phase ≠ .deleting := by
  intro hdel
  obtain ⟨a, ha⟩ := Option.isSome_iff_exists.mp hpool
  have hkey := ((h.sound.worked hf hvm).2 hr).1
  exact (h.settles ha hr hkey (.inl hdel)).2 f hf (Frame.workId_of_works hvm)

/-- A MicroVM that is condemned, or gone. -/
structure Custody.Doomed (c : Custody) (n : Nat) : Prop where
  last : n ≤ c.last
  deleting : ∀ {r}, c.vms n = some r → r.phase = .deleting

/-- A MicroVM that is condemned stays so until it is gone. -/
theorem Custody.Doomed.step {n : Nat} (hd : c.Doomed n) (h : c.Tidy)
    (hnext : c.next m = some c') : c'.Doomed n where
  last := hd.last.trans (Custody.rest hnext).last
  deleting {r'} hr' := by
    cases Custody.touch hnext hr' with
    | kept hr => exact hd.deleting hr
    | born key hid => exact absurd hd.last (hid ▸ Nat.not_succ_le_self _)
    | worked f vm r hends hf hvm hid hr huid hphase =>
      rcases hphase with rfl | ⟨hin, -, -⟩
      · exact (hd.deleting hr :)
      · exact absurd (hd.deleting hr) (h.not_deleting hf hvm (hid ▸ hr) hin)
    | picked r hr havail => exact nomatch (hd.deleting hr).symm.trans havail
    | doomed f vm r hf hvm hid hr => rfl

/-- **Deletion is final**, in a run whose Pools are made under cleared keys and
whose Hosts never return a uid twice: a MicroVM that is `DELETING` is in no other
phase from then on, and a Lease is made for a MicroVM that is recorded, waits for
its pre-lease hooks and is not `DELETING`. -/
theorem deletion_final (hp : (poolManager cfg).Reach Orderly p) :
    (∀ {n v}, p.vms.lookup n = some v → v.phase = .deleting → ∀ {q v'},
      (poolManager cfg).Path Orderly p q → q.vms.lookup n = some v' → v'.phase = .deleting) ∧
    ∀ {l p'}, p.next cfg l = some p' → ∀ {id ls}, p'.leases.lookup id = some ls →
      (∃ ls₀, p.leases.lookup id = some ls₀ ∧ ls₀.vmUID = ls.vmUID) ∨
        ∃ n v, p.vms.lookup n = some v ∧ v.uid = ls.vmUID ∧ v.phase = .preLeaseHookRunning ∧
          ∀ {n' v'}, p.vms.lookup n' = some v' → v'.uid = ls.vmUID → n' = n := by
  have htidy := tidy_reach hp
  refine ⟨fun {n v} hv hdel q v' hpath hv' => ?_, fun {l p'} hnext id ls hls => ?_⟩
  · have hr := p.vms_custody [] hv
    have hstart : (p.custody []).Doomed n :=
      ⟨htidy.sound.recorded hr, fun hr' => Option.some.inj (hr.symm.trans hr') ▸ hdel⟩
    have hkept : (q.custody []).Tidy ∧ (q.custody []).Doomed n := by
      refine path_moves (I := fun c => c.Tidy ∧ c.Doomed n) (fun hI => hI.1.sound.recorded)
        (fun p l hok _ c m d hI hadm hnext => ?_) hpath ⟨htidy, hstart⟩
      exact ⟨hI.1.step hok hadm hnext, hI.2.step hI.1 hnext⟩
    exact hkept.2.deleting (q.vms_custody [] hv')
  · have hg : (p'.custody []).leases id = some ls.grant := congrArg (Option.map LeaseRecord.grant) hls
    rcases leases_step htidy.sound.recorded hnext hg with hold | hmakes
    · obtain ⟨ls₀, hls₀, hgrant⟩ := Option.map_eq_some_iff.mp hold
      exact .inl ⟨ls₀, hls₀, congrArg Grant.vmUID hgrant⟩
    · obtain ⟨vm, a, requestID, env, text, v, ps, rfl, -, huid, hv, hlive, -⟩ := makes_spec hmakes
      obtain ⟨hf, -⟩ := Option.ite_none_right_eq_some.mp hnext
      have hr := p.vms_custody [] hv
      have hfits := ((htidy.sound.worked (mem_custody hf) rfl).2 hr).2
      have halive : (p.custody []).alive vm = true := (PoolManager.alive_custody vm).trans hlive
      have hnot := htidy.not_deleting (mem_custody hf) rfl hr (Custody.alive_spec halive).2
      refine .inr ⟨vm.id, v, hv, huid, hfits.1.resolve_right hnot, fun {n' v'} hv' huid' => ?_⟩
      have hsame : v'.record.uid = v.record.uid := huid'.trans huid.symm
      exact htidy.sound.uid_inj (p.vms_custody [] hv') hr hsame (hsame ▸ hfits.2)

end Runs

/-! ### A Pool that is made again under a claim -/

/-- The Pool is deleted while its MicroVM's claim waits for its hooks, and the
MicroVM's Host is told to delete it. -/
def soloCondemned : List Label :=
  soloPicked "job-1" ++ [.deletePool (soloEnv [1] [soloRef]) soloRef,
    .resume (.deletePool soloRef [soloVM] none) (soloEnv [] []) (.ok "")]

/-- The claim ends before the Pool is made again, and the MicroVM stays
`DELETING`. -/
theorem deletion_final_ended : ∃ p q, (poolManager soloConfig).Reach Orderly p ∧
    (p.vms.lookup 1).map VM.phase = some .deleting ∧ (poolManager soloConfig).Path Orderly p q ∧
    soloRef ∈ q.pools ∧ ∀ {v'}, q.vms.lookup 1 = some v' → v'.phase = .deleting := by
  have hreach := Machine.reach_run (M := poolManager soloConfig) Orderly soloCondemned rfl rfl
  have hpath : (poolManager soloConfig).Path Orderly _ _ := Machine.path_execWhile
    [soloClaimed "job-1", .createPool soloSpec]
    (show (poolManager soloConfig).execWhile (fun p l => decide (Orderly p l))
      (((poolManager soloConfig).execWhile (fun p l => decide (Orderly p l)) .new
        soloCondemned).get rfl) [soloClaimed "job-1", .createPool soloSpec] = some _ from rfl)
  exact ⟨_, _, hreach, rfl, hpath, by decide, (deletion_final hreach).1 rfl rfl hpath⟩

/-- **A MicroVM that is being deleted is leased**: the Pool is deleted and made
again while the claim waits for its hooks. The claim finds the record and a Pool of
its key, and makes a Lease for a MicroVM that is `DELETING`. -/
theorem deleting_microVM_leased : ∃ p p', (poolManager soloConfig).Reach FreshUIDs p ∧
    p.next soloConfig (soloClaimed "job-1") = some p' ∧
    (p.vms.lookup 1).map VM.phase = some .deleting ∧
    (p'.vms.lookup 1).map VM.phase = some .leased ∧
    (p'.leases.lookup "lease-1").map LeaseRecord.vmUID = some "vm-1" := by
  have hreach := Machine.reach_run (M := poolManager soloConfig)
    FreshUIDs (soloCondemned ++ [.createPool soloSpec]) rfl rfl
  exact ⟨_, _, hreach, rfl, rfl, rfl, rfl⟩

end FlintlockRunner.Poolmgr.Fake

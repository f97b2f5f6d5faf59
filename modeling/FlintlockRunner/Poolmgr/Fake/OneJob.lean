import FlintlockRunner.Poolmgr.Fake.Sound

/-!
# One Job per MicroVM

A Lease is made in one place, `claimVM` after its pre-lease hooks, for the MicroVM
that the claim picked. A MicroVM is picked only while it is `AVAILABLE`, and it
becomes so once, at the end of its provisioning: so no later section makes another
Lease for it, whatever happens to its Pool.
-/

namespace FlintlockRunner.Poolmgr.Fake

open Option

/-- The Lease that a section makes, with the uid of its MicroVM. -/
def PoolManager.makes (p : PoolManager) : Label → Option (String × String)
  | .resume (.preLease vm a _) env (.ok _) =>
    if p.aliveLocked vm ∧ (p.heap[a]?).isSome then
      (p.vms.lookup vm.id).map fun v => (env.leaseID, v.uid)
    else none
  | _ => none

section OneJob

variable {cfg : FakeConfig} {p p' q q' : PoolManager} {l l' : Label} {id uid : String}

theorem makes_spec (h : p.makes l = some (id, uid)) : ∃ vm a requestID env text v ps,
    l = .resume (.preLease vm a requestID) env (.ok text) ∧ env.leaseID = id ∧ v.uid = uid ∧
      p.vms.lookup vm.id = some v ∧ p.aliveLocked vm = true ∧ p.heap[a]? = some ps := by
  unfold PoolManager.makes at h
  split at h
  · rename_i vm a requestID env text
    obtain ⟨⟨hlive, hps⟩, h⟩ := ite_none_right_eq_some.mp h
    obtain ⟨v, hv, heq⟩ := map_eq_some_iff.mp h
    obtain ⟨ps, hps⟩ := isSome_iff_exists.mp hps
    obtain ⟨rfl, rfl⟩ := Prod.mk.inj heq
    exact ⟨vm, a, requestID, env, text, v, ps, rfl, rfl, rfl, hv, hlive, hps⟩
  · cases h

theorem lease_of_makes (hmakes : p.makes l = some (id, uid)) (h : p.next cfg l = some p') :
    ∃ g, (p'.custody []).leases id = some g ∧ g.vmUID = uid := by
  obtain ⟨vm, a, requestID, env, text, v, ps, rfl, rfl, rfl, hv, hlive, hps⟩ := makes_spec hmakes
  obtain ⟨hf, ⟨⟩⟩ := ite_none_right_eq_some.mp h
  obtain ⟨again, -, -, heq, -⟩ := told_claimed cfg env (p := p.drop (.preLease vm a requestID))
    requestID text hv hlive hps rfl
  refine ⟨⟨v.uid, requestID⟩, ?_, rfl⟩
  show (((p.drop _).claimed cfg env vm a requestID (.ok text)).custody []).leases env.leaseID = _
  rw [heq]
  cases again <;> exact Function.update_self ..

/-- A Lease was there before, or the section made it. -/
theorem leases_step (hp : (p.custody []).Bounded) (h : p.next cfg l = some p') {g : Grant}
    (hg : (p'.custody []).leases id = some g) :
    (p.custody []).leases id = some g ∨ p.makes l = some (id, g.vmUID) := by
  refine Machine.Path.inv
    (I := fun c => ∀ id g, c.leases id = some g → (p.custody []).leases id = some g ∨
      p.makes l = some (id, g.vmUID))
    (fun c m d hc hadm hnext id g hg => ?_) (step_moves h hp) (fun id g hg => .inl hg) id g hg
  rcases (Custody.rest hnext).leases hg with hold | ⟨vm, a, again, r, rfl, -, halive, hspec, hr, huid⟩
  · exact hc id g hold
  · obtain ⟨rfl, env, text, rfl, rfl⟩ := hadm
    obtain ⟨v, hv, rfl⟩ := map_eq_some_iff.mp hr
    have hlive : p.aliveLocked vm = true := (PoolManager.alive_custody vm).symm.trans halive
    have hps : (p.heap[a]?).isSome = true := isSome_map.symm.trans hspec
    refine .inr ((if_pos ⟨hlive, hps⟩).trans ?_)
    rw [hv]
    exact congrArg (fun uid => some (env.leaseID, uid)) huid

theorem past_of_picked (hp : (p.custody []).Sound) {n : Nat} {v : VM}
    (hv : p.vms.lookup n = some v) (hphase : v.phase = .preLeaseHookRunning) :
    (p.custody []).Past n := by
  have hr := p.vms_custody [] hv
  refine ⟨hp.recorded hr, fun {f} hf hid => ?_, fun {r} hr' hav => ?_⟩
  · obtain ⟨vm, hvm, rfl⟩ := map_eq_some_iff.mp hid
    rcases ((hp.worked hf hvm).2 hr).2.1 with hp | hp
    · exact hp.symm.trans hphase
    · exact nomatch hphase.symm.trans hp
  · obtain rfl := some.inj (hr.symm.trans hr')
    exact nomatch hphase.symm.trans hav

/-- **One Job per MicroVM**, if no Host returns a uid twice. A Lease is made for a
MicroVM at most once in a run: every Lease was there before the section or is the
one that the section makes, and after a section that makes a Lease for a uid no
section makes one for it. A MicroVM that was picked for a claim is never
`AVAILABLE` again. -/
theorem one_job (hp : (poolManager cfg).Reach FreshUIDs p) (hok : FreshUIDs p l)
    (h : p.next cfg l = some p') :
    (∀ {id ls}, p'.leases.lookup id = some ls →
      (∃ ls₀, p.leases.lookup id = some ls₀ ∧ ls₀.vmUID = ls.vmUID) ∨
        p.makes l = some (id, ls.vmUID)) ∧
    (∀ {id uid}, p.makes l = some (id, uid) → ∀ {q l' q'},
      (poolManager cfg).Path FreshUIDs p' q → q.next cfg l' = some q' →
        ∀ {id'}, q.makes l' ≠ some (id', uid)) ∧
    ∀ {n v}, p'.vms.lookup n = some v → v.phase = .preLeaseHookRunning → ∀ {q v'},
      (poolManager cfg).Path FreshUIDs p' q → q.vms.lookup n = some v' →
        v'.phase ≠ .available := by
  have hfit := fit_reach hp
  have hfit' := fit_reach (hp.tail hok h)
  refine ⟨fun {id ls} hls => ?_, fun {id uid} hmakes q l' q' hpath hnext id' hmakes' => ?_,
    fun {n v} hv hphase q v' hpath hv' hav => ?_⟩
  · have hg : (p'.custody []).leases id = some ls.grant := congrArg (Option.map LeaseRecord.grant) hls
    refine (leases_step hfit.sound.recorded h hg).imp_left fun hold => ?_
    obtain ⟨ls₀, hls₀, hgrant⟩ := map_eq_some_iff.mp hold
    exact ⟨ls₀, hls₀, congrArg Grant.vmUID hgrant⟩
  · -- the uid is spent after the section, and stays so
    obtain ⟨g, hg, rfl⟩ := lease_of_makes hmakes h
    obtain ⟨hne, hspent⟩ := hfit'.leased hg
    have hkept : (q.custody []).Fit ∧ (q.custody []).Spent g.vmUID := by
      refine path_moves (I := fun c => c.Fit ∧ c.Spent g.vmUID) (fun hI => hI.1.sound.recorded)
        (fun p l hok _ c m d hI hadm hnext => ?_) hpath ⟨hfit', hspent⟩
      have hfresh := fresh_of_admits hok hadm
      exact ⟨hI.1.step hfresh hnext, hI.2.step hI.1.sound hne hfresh hnext⟩
    obtain ⟨vm, a, requestID, env, text, v, ps, rfl, -, huid, hv, -⟩ := makes_spec hmakes'
    obtain ⟨hf, -⟩ := ite_none_right_eq_some.mp hnext
    exact (hkept.2.ended (q.vms_custody [] hv) huid).2 _ (mem_custody hf) rfl
  · have hkept : (q.custody []).Fit ∧ (q.custody []).Past n := by
      refine path_moves (I := fun c => c.Fit ∧ c.Past n) (fun hI => hI.1.sound.recorded)
        (fun p l hok _ c m d hI hadm hnext => ?_) hpath ⟨hfit', past_of_picked hfit'.sound hv hphase⟩
      exact ⟨hI.1.step (fresh_of_admits hok hadm) hnext, hI.2.step hnext⟩
    exact hkept.2.ended (q.vms_custody [] hv') hav

end OneJob

/-- The claim makes a Lease for the MicroVM, and nothing later does. -/
theorem one_job_claimed : ∃ p p', (poolManager soloConfig).Reach FreshUIDs p ∧
    p.next soloConfig (soloClaimed "job-1") = some p' ∧
    p.makes (soloClaimed "job-1") = some ("lease-1", "vm-1") ∧
    ∀ {q l' q'}, (poolManager soloConfig).Path FreshUIDs p' q → q.next soloConfig l' = some q' →
      ∀ {id'}, q.makes l' ≠ some (id', "vm-1") := by
  have hreach := Machine.reach_run (M := poolManager soloConfig)
    FreshUIDs (soloPicked "job-1") rfl rfl
  have hok : FreshUIDs (((poolManager soloConfig).execWhile
      (fun p l => decide (FreshUIDs p l)) .new (soloPicked "job-1")).get rfl)
      (soloClaimed "job-1") := trivial
  exact ⟨_, _, hreach, rfl, rfl, (one_job hreach hok rfl).2.1 rfl⟩

end FlintlockRunner.Poolmgr.Fake

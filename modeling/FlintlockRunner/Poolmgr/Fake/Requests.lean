import FlintlockRunner.Poolmgr.Fake.Sound

/-!
# Claims by request id

`claimVM` looks for a Lease with its request id and makes one in two sections, with
the pre-lease hooks between them. A second call with the request id that comes
between the two finds no Lease and picks another MicroVM, and each call makes its
own Lease (`two_leases_one_request`). Where no call picks a MicroVM while another
with its request id waits for its hooks, at most one Lease carries a request id,
and a call that succeeds returns it.
-/

namespace FlintlockRunner.Poolmgr.Fake

open Multiset Option

/-! ## One Lease per request id -/

/-- The request id of a claim that waits for its hooks, if it has one. -/
def Frame.requestID : Frame → Option String
  | .preLease _ _ requestID => if requestID = "" then none else some requestID
  | _ => none

/-- A claim finds no MicroVM to pick while another with its request id waits for
its hooks. -/
def Serial (p : PoolManager) : Label → Prop
  | .claimVM _ ref requestID =>
    (∃ f ∈ p.frames, f.requestID = some requestID) → p.oldestAvailableLocked ref = none
  | _ => True

instance (p : PoolManager) : DecidablePred (Serial p) := fun l => by
  unfold Serial
  split <;> infer_instance

theorem Frame.requestID_spec {f : Frame} {requestID : String} (h : f.requestID = some requestID) :
    requestID ≠ "" ∧ ∃ vm a, f = .preLease vm a requestID := by
  cases f with
  | preLease vm a requestID' =>
    obtain ⟨hne, heq⟩ := ite_none_left_eq_some.mp h
    obtain rfl := some.inj heq
    exact ⟨hne, vm, a, rfl⟩
  | provision _ | dropReserved _ | create _ | waitCreated _ _ | createHooks _ _ | delete _ _ _
  | deleting _ _ _ _ | deletePool _ _ _ => cases h

namespace Custody

variable {c c' : Custody} {m : Move} {g : Frame} {requestID : String}

theorem Comes.pick_of_requestID (h : Comes c m c' g) (hnext : c.next m = some c')
    (hreq : g.requestID = some requestID) : ∃ vm a, m = .pick vm a requestID := by
  obtain ⟨-, vm, a, rfl⟩ := Frame.requestID_spec hreq
  obtain ⟨rfl, -⟩ := h.pick hnext
  exact ⟨vm, a, rfl⟩

/-- At most one claim waits with a request id, and none while a Lease carries it;
at most one Lease carries it. -/
structure Single (c : Custody) : Prop where
  waiting : (c.frames.filterMap Frame.requestID).Nodup
  unclaimed : ∀ {f}, f ∈ c.frames → ∀ {requestID}, f.requestID = some requestID →
    c.Unclaimed requestID
  leases : ∀ {id id' gr gr'}, c.leases id = some gr → c.leases id' = some gr' →
    gr.requestID = gr'.requestID → gr.requestID ≠ "" → id = id'

theorem starts_requestID_zero (hnext : c.next m = some c')
    (hm : ∀ vm a requestID, m ≠ .pick vm a requestID) :
    (c.starts m : Multiset Frame).filterMap Frame.requestID = 0 := by
  refine eq_zero_of_forall_notMem fun requestID hin => ?_
  obtain ⟨g, hg, hreq⟩ := (mem_filterMap _ _).mp hin
  obtain ⟨vm, a, rfl⟩ := (comes_of_mem_starts hnext hg).pick_of_requestID hnext hreq
  exact hm vm a requestID rfl

variable {p : PoolManager}

theorem Single.waiting_step (hs : c.Single) {l : Label} (hok : Serial p l) (hadm : Admits p l c m)
    (hnext : c.next m = some c') : (c'.frames.filterMap Frame.requestID).Nodup := by
  by_cases hm : ∃ vm a requestID, m = .pick vm a requestID
  · obtain ⟨vm, a, requestID, rfl⟩ := hm
    obtain ⟨rfl, -, env, rfl⟩ := hadm
    obtain ⟨⟨hpick, -⟩, ⟨⟩⟩ := ite_none_right_eq_some.mp hnext
    show (filterMap _ (.preLease vm a requestID ::ₘ (p.custody []).frames)).Nodup
    cases hreq : (Frame.preLease vm a requestID).requestID with
    | none =>
      rw [filterMap_cons_none _ _ hreq]
      exact hs.waiting
    | some requestID' =>
      rw [filterMap_cons_some _ _ _ hreq, nodup_cons]
      refine ⟨fun hin => ?_, hs.waiting⟩
      obtain ⟨-, vm', a', heq⟩ := Frame.requestID_spec hreq
      obtain ⟨-, -, rfl⟩ := Frame.preLease.inj heq
      obtain ⟨f, hf, hf'⟩ := (mem_filterMap _ _).mp hin
      obtain ⟨r, hr, hpick⟩ := (any_eq_true ..).mp hpick
      obtain ⟨hpool, havail⟩ := Bool.and_eq_true_iff.mp hpick
      obtain ⟨v, hv, rfl⟩ := map_eq_some_iff.mp hr
      exact PoolManager.oldestAvailableLocked_ne_none hv (of_decide_eq_true hpool)
        (of_decide_eq_true havail) (hok ⟨f, mem_coe.mp hf, hf'⟩)
  · rw [(rest hnext).frames, filterMap_add,
      starts_requestID_zero hnext fun vm a requestID heq => hm ⟨vm, a, requestID, heq⟩,
      Multiset.zero_add]
    exact nodup_of_le (filterMap_le_filterMap _ (ends_le m)) hs.waiting

theorem Single.unclaimed_step (hs : c.Single) {l : Label} (hadm : Admits p l c m)
    (hnext : c.next m = some c') {f : Frame} (hf : f ∈ c'.frames)
    (hreq : f.requestID = some requestID) : c'.Unclaimed requestID := by
  intro id gr hgr heq
  rw [(rest hnext).frames] at hf
  rcases mem_add.mp hf with hf | hf
  · obtain ⟨vm, a, rfl⟩ := (comes_of_mem_starts hnext hf).pick_of_requestID hnext hreq
    rcases (rest hnext).leases hgr with hold | ⟨_, _, _, _, hm, -⟩
    · exact hadm.2.1 hold heq
    · cases hm
  · rcases (rest hnext).leases hgr with hold | ⟨vm, a, again, r, rfl, hin, -⟩
    · exact hs.unclaimed (mem_of_le (ends_le m) hf) hreq hold heq
    · -- the claim that makes the Lease is the only one with its request id
      subst heq
      by_contra hne
      have hwaiting := hs.waiting
      have hmade : (Frame.preLease vm a gr.requestID).requestID = some gr.requestID := if_neg hne
      rw [← cons_erase hin, filterMap_cons_some _ _ _ hmade, nodup_cons]
        at hwaiting
      exact hwaiting.1 ((mem_filterMap _ _).mpr ⟨f, hf, hreq⟩)

theorem Single.not_made (hs : c.Single) {id id' : String} {gr gr' : Grant}
    (hold : c.leases id = some gr) (hmade : c.Makes m id' gr')
    (heq : gr.requestID = gr'.requestID) : gr'.requestID = "" := by
  obtain ⟨vm, a, again, r, rfl, hin, -⟩ := hmade
  by_contra hne
  have hreq : (Frame.preLease vm a gr'.requestID).requestID = some gr'.requestID := if_neg hne
  exact hne (hs.unclaimed hin hreq hold heq)

/-- No move gives a second Lease to a request id. -/
theorem Single.step (hs : c.Single) {l : Label} (hok : Serial p l) (hadm : Admits p l c m)
    (hnext : c.next m = some c') : c'.Single where
  waiting := hs.waiting_step hok hadm hnext
  unclaimed hf requestID hreq := hs.unclaimed_step hadm hnext hf hreq
  leases {id id' gr gr'} hgr hgr' heq hne := by
    rcases (rest hnext).leases hgr with hold | hmade <;>
      rcases (rest hnext).leases hgr' with hold' | hmade'
    · exact hs.leases hold hold' heq hne
    · exact absurd (heq.trans (hs.not_made hold hmade' heq)) hne
    · exact absurd (hs.not_made hold' hmade heq.symm) hne
    · obtain ⟨_, _, _, _, rfl, -⟩ := hmade
      obtain ⟨_, _, _, _, hm, -⟩ := hmade'
      exact (Move.lease.inj hm).2.2.2.1

end Custody

section Runs

variable {cfg : FakeConfig} {p p' q q' : PoolManager} {l l' : Label}

theorem single_reach (h : (poolManager cfg).Reach Serial p) :
    (p.custody []).Bounded ∧ (p.custody []).Single := by
  obtain ⟨p₀, rfl, hpath⟩ := h
  refine path_moves (I := fun c => c.Bounded ∧ c.Single) (fun hI => hI.1)
    (fun p l hok _ c m d hI hadm hnext => ⟨hI.1.step hnext, hI.2.step hok hadm hnext⟩) hpath
    ⟨nofun, ?_⟩
  exact ⟨nodup_zero, fun hf => absurd hf (notMem_zero _), nofun⟩

theorem lease_unique (h : (poolManager cfg).Reach Serial p) {requestID id id' : String}
    (hne : requestID ≠ "") (hid : p.Granted requestID id) (hid' : p.Granted requestID id') :
    id = id' := by
  obtain ⟨ls, hls, rfl⟩ := hid
  obtain ⟨ls', hls', heq⟩ := hid'
  have hg : (p.custody []).leases id = some ls.grant := congrArg (Option.map LeaseRecord.grant) hls
  have hg' : (p.custody []).leases id' = some ls'.grant :=
    congrArg (Option.map LeaseRecord.grant) hls'
  exact (single_reach h).2.leases hg hg' heq.symm hne

/-- **Claims are idempotent by request id**, in a run in which no call picks a
MicroVM while another with its request id waits for its hooks: at most one Lease
carries a request id; a call that succeeds returns the Lease that carries its own;
and so does a later one, while that Lease exists. -/
theorem claims_idempotent (hp : (poolManager cfg).Reach Serial p) (hok : Serial p l)
    (h : p.next cfg l = some p') {requestID : String} (hne : requestID ≠ "") :
    (∀ {id id'}, p'.Granted requestID id → p'.Granted requestID id' → id = id') ∧
    ∀ {res}, p'.claims = p.claims ++ [(requestID, res)] →
      p'.Granted requestID res.leaseID ∧
      ∀ {q l' q' res'}, (poolManager cfg).Path Serial p' q → Serial q l' →
        q.next cfg l' = some q' → q'.claims = q.claims ++ [(requestID, res')] →
        q'.Granted requestID res.leaseID → res'.leaseID = res.leaseID := by
  have hp' := hp.tail hok h
  have hanswer : ∀ {p p' : PoolManager} {l res}, (poolManager cfg).Reach Serial p →
      p.next cfg l = some p' → p'.claims = p.claims ++ [(requestID, res)] →
      p'.Granted requestID res.leaseID := by
    intro p p' l res hp h hclaims
    rcases (step_tells h (single_reach hp).1).grants with hsame | ⟨requestID', res', hnew, hgranted⟩
    · rw [hsame] at hclaims
      exact absurd (List.append_right_eq_self.mp hclaims.symm) nofun
    · have heq := List.append_cancel_left (hclaims.symm.trans hnew)
      obtain ⟨rfl, rfl⟩ := Prod.mk.inj (List.singleton_inj.mp heq)
      exact hgranted hne
  refine ⟨lease_unique hp' hne, fun {res} hclaims => ⟨hanswer hp h hclaims, ?_⟩⟩
  intro q l' q' res' hpath hok' hnext hclaims' hgranted
  have hq := hp'.path hpath
  exact lease_unique (hq.tail hok' hnext) hne (hanswer hq hnext hclaims') hgranted

end Runs

/-! ### A call and its retry -/

/-- The retry of a claim whose Lease has been made. -/
def soloRetried : Label :=
  .claimVM { soloEnv [1] [soloRef] with leases := ["lease-1"] } soloRef "job-1"

/-- The claim makes a Lease, and its retry returns the same. -/
theorem claims_idempotent_retried : ∃ p p' q' res res', (poolManager soloConfig).Reach Serial p ∧
    p.next soloConfig (soloClaimed "job-1") = some p' ∧
    p'.claims = p.claims ++ [("job-1", res)] ∧ p'.next soloConfig soloRetried = some q' ∧
    q'.claims = p'.claims ++ [("job-1", res')] ∧ res'.leaseID = res.leaseID := by
  have hreach := Machine.reach_run (M := poolManager soloConfig) Serial (soloPicked "job-1") rfl rfl
  have hclaim := claims_idempotent hreach (l := soloClaimed "job-1") trivial rfl
    (show "job-1" ≠ "" by decide)
  have hsame := hclaim.2 (show _ = _ ++ [("job-1", ⟨"lease-1", "vm-1", "host-a"⟩)] from rfl)
  refine ⟨_, _, _, _, ⟨"lease-1", "vm-1", "host-a"⟩, hreach, rfl, rfl, rfl, rfl, ?_⟩
  exact hsame.2 (.refl _) (show Serial _ soloRetried by decide) rfl rfl ⟨_, rfl, rfl⟩

/-- The two MicroVMs of a Pool of two. -/
def pairVM (id : Nat) : VMRef := ⟨id, soloRef⟩

/-- A MicroVM of the Pool of two is provisioned. -/
def pairProvisioned (id : Nat) (uid : String) : List Label :=
  [.resume (.provision (pairVM id)) (soloEnv [] []) (.ok ""),
   .resume (.create (pairVM id)) (soloEnv [] []) (.ok uid),
   .resume (.waitCreated (pairVM id) uid) (soloEnv [] []) (.ok ""),
   .resume (.createHooks (pairVM id) uid) (soloEnv [] []) (.ok "")]

/-- Two calls with one request id: the second comes while the first waits for its
hooks. -/
def pairClaimed : List Label :=
  [.run, .createPool { soloSpec with size := 2 }, .tick (soloEnv [] [soloRef])]
    ++ pairProvisioned 1 "vm-1" ++ pairProvisioned 2 "vm-2"
    ++ [.claimVM (soloEnv [1, 2] [soloRef]) soloRef "job-1",
      .claimVM (soloEnv [1, 2] [soloRef]) soloRef "job-1",
      .resume (.preLease (pairVM 1) 0 "job-1") (soloEnv [] []) (.ok ""),
      .resume (.preLease (pairVM 2) 0 "job-1") { soloEnv [] [] with leaseID := "lease-2" } (.ok "")]

/-- **Two Leases for one request id**: the retry of a claim that still waits for its
hooks finds no Lease with its request id, and picks a MicroVM of its own. -/
theorem two_leases_one_request : ∃ p, (poolManager soloConfig).Reach FreshUIDs p ∧
    p.Granted "job-1" "lease-1" ∧ p.Granted "job-1" "lease-2" ∧
    p.claims = [("job-1", ⟨"lease-1", "vm-1", "host-a"⟩), ("job-1", ⟨"lease-2", "vm-2", "host-a"⟩)] := by
  have hreach := Machine.reach_run (M := poolManager soloConfig) FreshUIDs pairClaimed rfl rfl
  exact ⟨_, hreach, ⟨_, rfl, rfl⟩, ⟨_, rfl, rfl⟩, rfl⟩

end FlintlockRunner.Poolmgr.Fake

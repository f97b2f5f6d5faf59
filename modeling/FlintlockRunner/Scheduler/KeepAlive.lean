import FlintlockRunner.Config.Accepted
import FlintlockRunner.Scheduler.Declare
import FlintlockRunner.Scheduler.Expiry

/-!
# What a lost heartbeat costs

`heartbeatLoop` waits at most half of what is left on the Lease, so that one call
that fails leaves time for another. The call itself takes time too: it may run for
all of `pool_manager.deadline` before it fails, and nothing relates that to the
expiry. The loop then finds the Lease expired after one failure
(`lost_after_one_failure`). It never does exactly where the first wait and a whole
deadline fit into the Profile's expiry (`survives_one_failure_iff`).

`KeepAlive` runs the loop's steps against a clock: time passes while the loop
waits for its timer and while a call is out, and the other goroutines do as they
like with everything but the Handle's expiry.
-/

namespace FlintlockRunner.Scheduler

open Next

/-- The deadline of `callContext`. -/
def Settings.callDeadline (c : Settings) : Duration :=
  positiveOr c.poolManager.deadline Config.defaultPoolManagerDeadline

theorem Settings.callDeadline_nonneg (c : Settings) : 0 ≤ c.callDeadline := by
  unfold callDeadline positiveOr
  split
  · rename_i hpos
    exact hpos.le
  · decide

/-! ## The loop and the clock -/

/-- The loop of one Handle: when its last call began, and whether it failed. -/
structure KeepAlive where
  handle : Handle
  impl : Impl
  stack : List Frame
  calledAt : Time
  failed : Bool

namespace KeepAlive

/-- The loop takes a step, or the other goroutines do, or time passes. -/
inductive Event
  | step (a : Answer)
  | others (s : Impl)
  | elapse (d : Nat)

variable (c : Settings) (k : KeepAlive)

/-- A step of the thread, or time that passes. -/
def next : Event → Option KeepAlive
  | .step a =>
    match k.stack with
    | [] => none
    | f :: rest => (Scheduler.step c k.impl f a).map fun n =>
      { k with
        impl := n.impl
        stack := n.frames ++ rest
        calledAt := match a with
          | .timer => k.impl.now
          | _ => k.calledAt
        failed := match a with
          | .heartbeat (.ok _) => false
          | .heartbeat (.error _) => true
          | _ => k.failed }
  | .others s => some { k with impl := s }
  | .elapse d => some { k with impl := { k.impl with now := k.impl.now + d } }

/-- The loop of an Allocation of a Profile begins: `allocated` has numbered its
Handle, and its Lease is good for the Profile's expiry from now. -/
def Allocated (profiles : List Profile) (p : Profile) (k : KeepAlive) : Prop :=
  ∃ (s : Impl) (alloc : Allocation), s.profiles = profiles ∧ alloc.profile = p.name ∧
    alloc.lease.expiresAt = s.now + leaseExpiry p ∧ k =
      { handle := (s.newHandle alloc).2
        impl := (s.newHandle alloc).1
        stack := [.heartbeatLoop (s.newHandle alloc).2 (heartbeatInterval s alloc.profile) (.top 0)]
        calledAt := s.now
        failed := false }

/-- The loop's runs. -/
def machine (profiles : List Profile) (p : Profile) : Machine KeepAlive Event where
  init := Allocated profiles p
  next := next c

/-- The expiry recorded for the Handle. -/
def recorded : Time := k.impl.expiry k.handle.id

/-- A call is answered within its deadline and with the expiry that the Profile
gives from then on, none answers that the Lease is unknown and none fails after one
that failed. Time passes only up to the timer of a wait and to the deadline of a
call, and nobody else writes the Handle's expiry. -/
def Timely (expiry : Duration) (k : KeepAlive) : Event → Prop
  | .step (.heartbeat (.ok e)) => e = k.impl.now + expiry
  | .step (.heartbeat (.error .notFound)) => False
  | .step (.heartbeat (.error .other)) => k.failed = false
  | .step _ => True
  | .others s => s.now = k.impl.now ∧ s.expiry k.handle.id = k.recorded
  | .elapse d =>
    match k.stack with
    | [.heartbeatLoop _ _ (.waiting _ _ timer)] => k.impl.now + d ≤ timer
    | [.heartbeatLoop _ _ (.calling _ _)] => k.impl.now + d ≤ k.calledAt + c.callDeadline
    | _ => d = 0

/-- The loop has declared the Lease lost. -/
def Lost : Prop := ∃ h cause pc, Frame.leaseLost h cause pc ∈ k.stack

/-- What the other goroutines do is one of `others`: a step of any function but
`CheckLease` and a keep-alive loop leaves the clock and every Handle that exists as
they are. -/
theorem timely_of_step {c : Settings} {expiry : Duration} {k : KeepAlive} {f : Frame} {a : Answer}
    {n : Next} (hn : Scheduler.step c k.impl f a = some n) (hid : k.handle.id ≤ k.impl.nextID)
    (hbeats : f.beats = false) : Timely c expiry k (.others n.impl) := by
  refine ⟨step_now hn, ?_⟩
  exact (step_spec hn).runs.expiry hbeats (by omega)

/-! ## Runs that stay in time -/

/-- How long the loop waits after a call that was answered. -/
def firstDelay (interval expiry : Duration) : Duration :=
  max minHeartbeatDelay (min (expiry / 2) interval)

theorem heartbeatDelay_renewed {lease : Lease} {now : Time} {interval expiry : Duration}
    (backoff : Nat → Duration) (hlease : lease.expiresAt = now + expiry) (hinterval : 0 < interval)
    (hexpiry : 0 < expiry) :
    heartbeatDelay lease now interval backoff 0 = firstDelay interval expiry := by
  have hhalf : (lease.expiresAt - now).tdiv 2 = expiry / 2 := by
    rw [hlease, add_sub_cancel_left]
    exact Int.tdiv_eq_ediv_of_nonneg hexpiry.le
  have hcap : (if interval > 0 ∧ interval < expiry / 2 then interval else expiry / 2)
      = min (expiry / 2) interval := by
    split
    · rename_i hlt
      exact (min_eq_right hlt.2.le).symm
    · rename_i hle
      exact (min_eq_left (not_lt.mp fun hlt => hle ⟨hinterval, hlt⟩)).symm
  unfold heartbeatDelay firstDelay
  dsimp only
  rw [hhalf, hcap, if_neg fun (h : 0 > 0 ∧ _) => absurd h.1 (Nat.lt_irrefl 0)]
  split
  · rename_i hlt
    exact (max_eq_left hlt.le).symm
  · rename_i hle
    exact (max_eq_right (not_lt.mp hle)).symm

theorem heartbeatDelay_nonneg (lease : Lease) (now : Time) (interval : Duration)
    (backoff : Nat → Duration) (attempt : Nat) :
    0 ≤ heartbeatDelay lease now interval backoff attempt := by
  have hmin : (0 : Duration) ≤ minHeartbeatDelay := by decide
  unfold heartbeatDelay
  extract_lets half capped delay
  split
  · exact hmin
  · rename_i hle
    exact hmin.trans (not_lt.mp hle)

variable {c : Settings} {interval expiry : Duration} {k k' : KeepAlive}

/-- The Lease was just renewed, or the last call failed and it has not expired. -/
def InTime (expiry : Duration) (k : KeepAlive) (attempt : Nat) (expiresAt : Time) : Prop :=
  attempt = 0 ∧ expiresAt = k.impl.now + expiry ∨ k.failed = true ∧ k.impl.now < expiresAt

/-- What holds at each place of the loop. A wait or a call that does not follow a
failure began when the Lease was renewed. -/
def PcSafe (c : Settings) (interval expiry : Duration) (k : KeepAlive) : LoopPc → Prop
  | .top attempt | .reading attempt => InTime expiry k attempt k.recorded
  | .comparing attempt lease => lease.expiresAt = k.recorded ∧ InTime expiry k attempt k.recorded
  | .waiting _ _ timer => k.impl.now ≤ timer ∧
    (k.failed = true ∨ timer + expiry = k.recorded + firstDelay interval expiry)
  | .calling _ _ => k.impl.now ≤ k.calledAt + c.callDeadline ∧
    (k.failed = true ∨ k.calledAt + expiry = k.recorded + firstDelay interval expiry)
  | .answered _ _ r | .settling _ _ r =>
    match r with
    | .ok e => e = k.impl.now + expiry
    | .error .notFound => False
    | .error .other => k.failed = true ∧ k.impl.now < k.recorded

/-- The loop is over, or safe where it is. -/
inductive Safe (c : Settings) (interval expiry : Duration) (k : KeepAlive) : Prop
  | ended (hstack : k.stack = [])
  | loop (pc : LoopPc) (hstack : k.stack = [.heartbeatLoop k.handle interval pc])
      (hpc : PcSafe c interval expiry k pc)

theorem Safe.not_lost (h : Safe c interval expiry k) : ¬ k.Lost := by
  rintro ⟨h', cause, pc', hmem⟩
  cases h with
  | ended hstack =>
    rw [hstack] at hmem
    cases hmem
  | loop pc hstack hpc =>
    rw [hstack] at hmem
    cases List.mem_singleton.mp hmem

theorem PcSafe.of_eq {pc : LoopPc} (h : PcSafe c interval expiry k pc)
    (hnow : k'.impl.now = k.impl.now) (hrec : k'.recorded = k.recorded)
    (hcalled : k'.calledAt = k.calledAt) (hfailed : k'.failed = k.failed) :
    PcSafe c interval expiry k' pc := by
  cases pc with
  | top attempt | reading attempt | comparing attempt lease | waiting attempt lease timer
  | calling attempt lease =>
    simp only [PcSafe, InTime, hnow, hrec, hcalled, hfailed] at h ⊢
    exact h
  | answered attempt lease r | settling attempt lease r =>
    simp only [PcSafe, hnow, hrec, hfailed] at h ⊢
    exact h

variable {s : Impl}

theorem Safe.others (h : Safe c interval expiry k) (hok : Timely c expiry k (.others s)) :
    Safe c interval expiry { k with impl := s } := by
  cases h with
  | ended hstack => exact .ended hstack
  | loop pc hstack hpc => exact .loop pc hstack (hpc.of_eq hok.1 hok.2 rfl rfl)

theorem Safe.elapse (h : Safe c interval expiry k) {d : Nat} (hok : Timely c expiry k (.elapse d)) :
    Safe c interval expiry { k with impl := { k.impl with now := k.impl.now + d } } := by
  cases h with
  | ended hstack => exact .ended hstack
  | loop pc hstack hpc =>
    refine .loop pc hstack ?_
    dsimp only [Timely] at hok
    rw [hstack] at hok
    cases pc with
    | waiting attempt lease timer => exact ⟨hok, hpc.2⟩
    | calling attempt lease => exact ⟨hok, hpc.2⟩
    | top attempt | reading attempt | comparing attempt lease | answered attempt lease r
    | settling attempt lease r =>
      obtain rfl : d = 0 := hok
      exact hpc.of_eq (Int.add_zero k.impl.now) rfl rfl rfl

/-- A wait and a call that fit into the expiry end before the Lease does. -/
theorem lt_of_fits {now calledAt deadline delay expiry expiresAt : Int}
    (hnow : now ≤ calledAt + deadline) (hcalled : calledAt + expiry = expiresAt + delay)
    (hfits : delay + deadline < expiry) : now < expiresAt := by
  omega

theorem PcSafe.fails {attempt : Nat} {lease : Lease}
    (h : PcSafe c interval expiry k (.calling attempt lease)) (hfailed : k.failed = false)
    (hfits : firstDelay interval expiry + c.callDeadline < expiry) : k.impl.now < k.recorded := by
  have hcalled : k.calledAt + expiry = k.recorded + firstDelay interval expiry :=
    h.2.resolve_left fun htrue => nomatch hfailed.symm.trans htrue
  exact lt_of_fits h.1 hcalled hfits

/-- One step of the loop, case by case of where it stands. -/
theorem Safe.step (h : Safe c interval expiry k) (hinterval : 0 < interval) (hexpiry : 0 < expiry)
    (hfits : firstDelay interval expiry + c.callDeadline < expiry) {a : Answer}
    (hok : Timely c expiry k (.step a)) (hnext : k.next c (.step a) = some k') :
    Safe c interval expiry k' := by
  cases h with
  | ended hstack =>
    simp only [next, hstack] at hnext
    cases hnext
  | loop pc hstack hpc =>
    simp only [next, hstack] at hnext
    obtain ⟨n, hn, rfl⟩ := Option.map_eq_some_iff.mp hnext
    change stepHeartbeatLoop c k.impl k.handle interval pc a = some n at hn
    cases pc with
    | top attempt =>
      cases a <;> try cases hn
      dsimp only [stepHeartbeatLoop] at hn
      split at hn
      · cases hn
        exact .ended rfl
      · cases hn
        exact .loop (.reading attempt) rfl hpc
    | reading attempt =>
      cases a <;> cases hn
      exact .loop (.comparing attempt (k.impl.lease k.handle)) rfl ⟨rfl, hpc⟩
    | comparing attempt lease =>
      cases a <;> try cases hn
      obtain ⟨hlease, hin⟩ := hpc
      dsimp only [stepHeartbeatLoop] at hn
      split at hn
      · -- the Lease has not expired
        rename_i hexpired
        have hlive : k.impl.now < lease.expiresAt := by
          rw [hlease]
          rcases hin with ⟨-, hrenewed⟩ | ⟨-, hlive⟩
          · exact hrenewed ▸ lt_add_of_pos_right _ hexpiry
          · exact hlive
        exact absurd hexpired (not_le.mpr hlive)
      · cases hn
        refine .loop (.waiting attempt lease _) rfl ⟨?_, ?_⟩
        · exact le_add_of_nonneg_right (heartbeatDelay_nonneg ..)
        · rcases hin with ⟨rfl, hrenewed⟩ | ⟨hfailed, -⟩
          · refine .inr ?_
            show k.impl.now + heartbeatDelay lease k.impl.now interval c.backoff 0 + expiry
              = k.recorded + firstDelay interval expiry
            rw [heartbeatDelay_renewed c.backoff (hlease.trans hrenewed) hinterval hexpiry, hrenewed]
            exact add_right_comm ..
          · exact .inl hfailed
    | waiting attempt lease timer =>
      cases a <;> try cases hn
      · dsimp only [stepHeartbeatLoop] at hn
        split at hn
        · rename_i hdue
          cases hn
          have hnow : k.impl.now = timer := le_antisymm hpc.1 hdue
          refine .loop (.calling attempt lease) rfl ⟨le_add_of_nonneg_right c.callDeadline_nonneg, ?_⟩
          show k.failed = true ∨ k.impl.now + expiry = _
          rw [hnow]
          exact hpc.2
        · cases hn
      · dsimp only [stepHeartbeatLoop] at hn
        split at hn
        · cases hn
          exact .ended rfl
        · cases hn
    | calling attempt lease =>
      cases a <;> try cases hn
      rename_i r
      refine .loop (.answered attempt lease r) rfl ?_
      match r, hok with
      | .ok e, he => exact he
      | .error .other, hfailed => exact ⟨rfl, hpc.fails hfailed hfits⟩
    | answered attempt lease r =>
      cases a <;> try cases hn
      dsimp only [stepHeartbeatLoop] at hn
      split at hn
      · cases hn
        exact .ended rfl
      · cases hn
        exact .loop (.settling attempt lease r) rfl hpc
    | settling attempt lease r =>
      cases a <;> try cases hn
      match r, hpc, hn with
      | .ok e, he, hn =>
        cases hn
        refine .loop (.top 0) rfl (.inl ⟨rfl, ?_⟩)
        show (k.impl.setLease k.handle (lease.renewed e k.impl.now)).expiry k.handle.id
          = k.impl.now + expiry
        rw [Impl.expiry_setLease, Function.update_self]
        exact he
      | .error .other, hin, hn =>
        cases hn
        exact .loop (.top (attempt + 1)) rfl (.inr hin)

section Runs

variable {profiles : List Profile} {p : Profile}

theorem safe_reach (hinterval : ∀ {s : Impl}, s.profiles = profiles →
      heartbeatInterval s p.name = interval) (hpos : 0 < interval) (hexpiry : 0 < leaseExpiry p)
    (hfits : firstDelay interval (leaseExpiry p) + c.callDeadline < leaseExpiry p)
    (h : (machine c profiles p).Reach (Timely c (leaseExpiry p)) k) :
    Safe c interval (leaseExpiry p) k := by
  obtain ⟨k₀, ⟨s, alloc, hprofiles, hname, hlease, rfl⟩, hpath⟩ := h
  refine hpath.inv (fun k e k' hk hok hnext => ?_) ?_
  · cases e with
    | step a => exact hk.step hpos hexpiry hfits hok hnext
    | others s =>
      obtain rfl := Option.some.inj hnext
      exact hk.others hok
    | elapse d =>
      obtain rfl := Option.some.inj hnext
      exact hk.elapse hok
  · refine .loop (.top 0) ?_ (.inl ⟨rfl, ?_⟩)
    · show [Frame.heartbeatLoop _ (heartbeatInterval s alloc.profile) _] = _
      rw [hname, hinterval hprofiles]
    · show ((Function.update s.heap (s.nextID + 1) _) (s.nextID + 1)).expiresAt = _
      rw [Function.update_self]
      exact hlease

/-- The loop from its top to the comparison with the clock. -/
theorem path_comparing {h : Handle} (hctx : s.heartbeatCtxDone h = false) (attempt : Nat)
    (calledAt : Time) (failed : Bool) :
    (machine c profiles p).Path (Timely c expiry)
      ⟨h, s, [.heartbeatLoop h interval (.top attempt)], calledAt, failed⟩
      ⟨h, s, [.heartbeatLoop h interval (.comparing attempt (s.lease h))], calledAt, failed⟩ := by
  refine .head (a := .step .go)
    (t := ⟨h, s, [.heartbeatLoop h interval (.reading attempt)], calledAt, failed⟩) trivial ?_
    (.head (a := .step .go) trivial rfl (.refl _))
  show Option.map _ (if s.heartbeatCtxDone h then _ else _) = _
  rw [hctx]
  rfl

/-- Where the first wait and a whole deadline reach the expiry, one call that fails
at its deadline loses the Lease. -/
theorem lost_of_slow {h : Handle} (hctx : s.heartbeatCtxDone h = false)
    (hlease : (s.lease h).expiresAt = s.now + expiry) (hpos : 0 < interval) (hexpiry : 0 < expiry)
    (hslow : expiry ≤ firstDelay interval expiry + c.callDeadline) :
    ∃ k, (machine c profiles p).Path (Timely c expiry)
      ⟨h, s, [.heartbeatLoop h interval (.top 0)], s.now, false⟩ k ∧ k.Lost := by
  have hdelay := heartbeatDelay_renewed c.backoff hlease hpos hexpiry
  have hwait : ((firstDelay interval expiry).toNat : Int) = firstDelay interval expiry :=
    Int.toNat_of_nonneg (hdelay ▸ heartbeatDelay_nonneg ..)
  have hcall : (c.callDeadline.toNat : Int) = c.callDeadline :=
    Int.toNat_of_nonneg c.callDeadline_nonneg
  let timer := s.now + heartbeatDelay (s.lease h) s.now interval c.backoff 0
  let s₁ : Impl := { s with now := s.now + (firstDelay interval expiry).toNat }
  let s₂ : Impl := { s₁ with now := s₁.now + c.callDeadline.toNat }
  have htimer : s₁.now = timer := by
    show s.now + ((firstDelay interval expiry).toNat : Int) = s.now + heartbeatDelay _ _ _ _ _
    rw [hwait, hdelay]
  have hlive : ¬ (s.lease h).expiresAt ≤ s.now := by
    rw [hlease]
    exact not_le.mpr (lt_add_of_pos_right _ hexpiry)
  have hexpired : (s₂.lease h).expiresAt ≤ s₂.now := by
    show (s.lease h).expiresAt ≤ s.now + ((firstDelay interval expiry).toNat : Int) + (c.callDeadline.toNat : Int)
    rw [hlease, hwait, hcall, add_assoc]
    exact (add_le_add_iff_left s.now).mpr hslow
  -- the first wait, a call that takes its whole deadline, and the Lease is over
  have hwaiting : (machine c profiles p).Path (Timely c expiry)
      ⟨h, s, [.heartbeatLoop h interval (.top 0)], s.now, false⟩
      ⟨h, s, [.heartbeatLoop h interval (.waiting 0 (s.lease h) timer)], s.now, false⟩ := by
    refine (path_comparing hctx 0 s.now false).tail (a := .step .go) trivial ?_
    show Option.map _ (if (s.lease h).expiresAt ≤ s.now then _ else _) = _
    rw [if_neg hlive]
    rfl
  have hcalling : (machine c profiles p).Path (Timely c expiry)
      ⟨h, s, [.heartbeatLoop h interval (.waiting 0 (s.lease h) timer)], s.now, false⟩
      ⟨h, s₁, [.heartbeatLoop h interval (.calling 0 (s.lease h))], s₁.now, false⟩ := by
    refine .head (a := .elapse (firstDelay interval expiry).toNat) htimer.le rfl
      (.head (a := .step .timer) trivial ?_ (.refl _))
    show Option.map _ (if timer ≤ s₁.now then _ else _) = _
    rw [if_pos htimer.ge]
    rfl
  have hfailed : (machine c profiles p).Path (Timely c expiry)
      ⟨h, s₁, [.heartbeatLoop h interval (.calling 0 (s.lease h))], s₁.now, false⟩
      ⟨h, s₂, [.heartbeatLoop h interval (.top 1)], s₁.now, true⟩ := by
    refine .head (a := .elapse c.callDeadline.toNat) ?_ rfl
      (.head (a := .step (.heartbeat (.error .other))) rfl rfl
        (.head (a := .step .go)
          (t := ⟨h, s₂, [.heartbeatLoop h interval (.settling 0 (s.lease h) (.error .other))], s₁.now, true⟩)
          trivial ?_ (.head (a := .step .go) trivial rfl (.refl _))))
    · show s₁.now + (c.callDeadline.toNat : Int) ≤ s₁.now + c.callDeadline
      rw [hcall]
    · show Option.map _ (if s.heartbeatCtxDone h then _ else _) = _
      rw [hctx]
      rfl
  refine ⟨⟨h, s₂, [.leaseLost h (.leaseExpired (s₂.lease h).id (s₂.lease h).expiresAt) .marking],
    s₁.now, true⟩, ?_, ⟨_, _, _, List.mem_singleton_self _⟩⟩
  refine ((hwaiting.trans hcalling).trans hfailed).trans
    ((path_comparing (s := s₂) hctx 1 s₁.now true).tail (a := .step .go) trivial ?_)
  show Option.map _ (if (s₂.lease h).expiresAt ≤ s₂.now then _ else _) = _
  rw [if_pos hexpired]
  rfl

/-- An Allocation of the Profile whose loop loses its Lease. -/
theorem lost_reach (hinterval : ∀ {s : Impl}, s.profiles = profiles →
      heartbeatInterval s p.name = interval) (hpos : 0 < interval) (hexpiry : 0 < leaseExpiry p)
    (hslow : leaseExpiry p ≤ firstDelay interval (leaseExpiry p) + c.callDeadline) :
    ∃ k, (machine c profiles p).Reach (Timely c (leaseExpiry p)) k ∧ k.Lost := by
  let s : Impl := .new 0 profiles ∅
  let alloc : Allocation :=
    { (default : Allocation) with
      profile := p.name
      lease := { (default : Lease) with expiresAt := s.now + leaseExpiry p } }
  obtain ⟨k, hpath, hlost⟩ : ∃ k, (machine c profiles p).Path (Timely c (leaseExpiry p)) _ k ∧ k.Lost :=
    lost_of_slow (h := (s.newHandle alloc).2) (s := (s.newHandle alloc).1) rfl rfl hpos hexpiry hslow
  refine ⟨k, ⟨_, ⟨s, alloc, rfl, rfl, rfl, rfl⟩, ?_⟩, hlost⟩
  rw [show heartbeatInterval s alloc.profile = interval from hinterval rfl]
  exact hpath

end Runs

/-! ## Accepted configurations -/

section Accepted

open Declare (resolveProfiles)

variable {cfg : Config} {nameSpace : String} {p : Profile}

section Resolved

variable (hcfg : Config.Accepted cfg) (hp : p ∈ resolveProfiles cfg.profiles nameSpace)
include hcfg hp

theorem sound_of_resolved : p.pool.Sound := by
  obtain ⟨q, hq, rfl⟩ := List.mem_map.mp hp
  exact (hcfg.profile_sound hq).pool

theorem heartbeatInterval_resolved (hs : s.profiles = resolveProfiles cfg.profiles nameSpace) :
    heartbeatInterval s p.name = p.pool.heartbeatInterval := by
  have hnames : ((resolveProfiles cfg.profiles nameSpace).map fun q => q.name).Nodup := by
    unfold resolveProfiles
    rw [List.map_map]
    exact hcfg.names_nodup
  have hfind : (s.profiles.find? fun q => q.name = p.name) = some p := by
    rw [hs]
    cases hfound : (resolveProfiles cfg.profiles nameSpace).find? fun q => q.name = p.name with
    | none => exact absurd (decide_eq_true rfl) (List.find?_eq_none.mp hfound p hp)
    | some q =>
      have hname : q.name = p.name := by simpa using List.find?_some hfound
      rw [List.inj_on_of_nodup_map hnames (List.mem_of_find?_eq_some hfound) hp hname]
  unfold heartbeatInterval
  rw [hfind]
  exact if_pos (sound_of_resolved hcfg hp).interval_pos

theorem leaseExpiry_resolved : leaseExpiry p = p.pool.heartbeatExpiry :=
  have hsound := sound_of_resolved hcfg hp
  if_pos (hsound.interval_pos.trans hsound.interval_lt)

end Resolved

theorem callDeadline_accepted (hcfg : Config.Accepted cfg) (hc : c.poolManager = cfg.poolManager) :
    c.callDeadline = cfg.poolManager.deadline := by
  have hpos : cfg.poolManager.deadline > 0 := by
    have h := (Config.accepted_iff.mp hcfg).1.2.1
    simp only [Config.Validator.poolManager, List.append_eq_nil_iff, Config.Validator.positive,
      Config.Validator.refuse_eq_nil_iff] at h
    exact not_le.mp h.1.1.1.1.1.1.2
  unfold Settings.callDeadline
  rw [hc]
  exact if_pos hpos

/-- One call that fails is enough where the two do not fit. -/
theorem lost_of_accepted (hcfg : Config.Accepted cfg)
    (hp : p ∈ resolveProfiles cfg.profiles nameSpace) (hc : c.poolManager = cfg.poolManager)
    (hslow : p.pool.heartbeatExpiry ≤
      firstDelay p.pool.heartbeatInterval p.pool.heartbeatExpiry + cfg.poolManager.deadline) :
    ∃ k, (machine c (resolveProfiles cfg.profiles nameSpace) p).Reach
      (Timely c p.pool.heartbeatExpiry) k ∧ k.Lost := by
  have hsound := sound_of_resolved hcfg hp
  have hexpiry := leaseExpiry_resolved hcfg hp
  rw [← hexpiry, ← callDeadline_accepted hcfg hc] at hslow
  rw [← hexpiry]
  exact lost_reach (heartbeatInterval_resolved hcfg hp) hsound.interval_pos
    (hexpiry ▸ hsound.interval_pos.trans hsound.interval_lt) hslow

/-- **One lost heartbeat is not enough to lose a Lease** where the first wait of the
loop and a whole `pool_manager.deadline` fit into the Profile's expiry, and only
there. -/
theorem survives_one_failure_iff (hcfg : Config.Accepted cfg)
    (hp : p ∈ resolveProfiles cfg.profiles nameSpace) {c : Settings}
    (hc : c.poolManager = cfg.poolManager) :
    (∀ k, (machine c (resolveProfiles cfg.profiles nameSpace) p).Reach
        (Timely c p.pool.heartbeatExpiry) k → ¬ k.Lost) ↔
      max minHeartbeatDelay (min (p.pool.heartbeatExpiry / 2) p.pool.heartbeatInterval)
        + cfg.poolManager.deadline < p.pool.heartbeatExpiry := by
  constructor
  · intro hnever
    by_contra hslow
    obtain ⟨k, hreach, hlost⟩ := lost_of_accepted hcfg hp hc (not_lt.mp hslow)
    exact hnever k hreach hlost
  · intro hfits k hreach
    have hsound := sound_of_resolved hcfg hp
    have hexpiry := leaseExpiry_resolved hcfg hp
    rw [← hexpiry, ← callDeadline_accepted hcfg hc] at hfits
    rw [← hexpiry] at hreach
    exact (safe_reach (heartbeatInterval_resolved hcfg hp) hsound.interval_pos
      (hexpiry ▸ hsound.interval_pos.trans hsound.interval_lt) hfits hreach).not_lost

end Accepted

/-! ### The defaults, and a short expiry -/

variable (interval expiry : Duration)

/-- A file with one Profile, of some heartbeat interval and expiry. -/
def beatFile : Config :=
  Config.defaulted (Config.batteryFile
    [{ Config.smallProfile with
      pool := { Config.smallProfile.pool with
        heartbeatInterval := interval, heartbeatExpiry := expiry } }] [Config.smallHost])

/-- Its Profile. -/
def beatProfile : Profile :=
  (Declare.resolveProfiles (beatFile interval expiry).profiles "runner").headI

def beatSettings : Settings :=
  { oneSlot with poolManager := (beatFile interval expiry).poolManager }

theorem beatProfile_mem : beatProfile interval expiry
    ∈ Declare.resolveProfiles (beatFile interval expiry).profiles "runner" :=
  List.mem_singleton.mpr rfl

/-- With every default, a Lease survives each call that fails alone. -/
theorem survives_one_failure_defaults : Config.Accepted (beatFile 0 0) ∧
    ∀ k, (machine (beatSettings 0 0) (Declare.resolveProfiles (beatFile 0 0).profiles "runner")
      (beatProfile 0 0)).Reach (Timely (beatSettings 0 0) (beatProfile 0 0).pool.heartbeatExpiry) k →
        ¬ k.Lost := by
  have hcfg : Config.Accepted (beatFile 0 0) := Config.batteryFile_accepted
  exact ⟨hcfg, (survives_one_failure_iff hcfg (beatProfile_mem 0 0) rfl).mpr (by decide +kernel)⟩

/-- **One lost heartbeat loses the Lease**: with a `heartbeat_expiry` of two seconds,
which `Validate` accepts, and the default deadline of ten, a call that fails at its
deadline ends after the Lease. -/
theorem lost_after_one_failure : Config.Accepted (beatFile second (2 * second)) ∧
    beatProfile second (2 * second)
      ∈ Declare.resolveProfiles (beatFile second (2 * second)).profiles "runner" ∧
    ∃ k, (machine (beatSettings second (2 * second))
        (Declare.resolveProfiles (beatFile second (2 * second)).profiles "runner")
        (beatProfile second (2 * second))).Reach
      (Timely (beatSettings second (2 * second))
        (beatProfile second (2 * second)).pool.heartbeatExpiry) k ∧ k.Lost := by
  have hcfg : Config.Accepted (beatFile second (2 * second)) :=
    Config.batteryFile_accepted_of (by decide) (by decide +kernel)
      Config.batteryFile_accepted.inventory
  exact ⟨hcfg, beatProfile_mem _ _,
    lost_of_accepted hcfg (beatProfile_mem _ _) rfl (by decide +kernel)⟩

end KeepAlive

end FlintlockRunner.Scheduler

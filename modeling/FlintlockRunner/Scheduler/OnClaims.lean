import FlintlockRunner.Poolmgr.ClaimBackend
import FlintlockRunner.Scheduler.Outcomes

/-!
# The Scheduler on the claim backend

The Scheduler's machine with the claim backend in the place of an arbitrary
Pool Manager: a goroutine at a `ClaimVM`, `Heartbeat` or `ReleaseVM` call runs
the backend's sections, with arbitrary answers from the API server, and goes on
with what the method returns.

The Scheduler makes no release call for a Lease it declares lost and relies on
the backend having let go of the claim. For a Lease the backend answered
NOT_FOUND for that is so. For a Lease whose expiry passed while heartbeats
failed it is not: the claim stays in `held`, where the Client Library keeps
renewing it. `no_orphaned_claim` says where every other held claim is.
-/

namespace FlintlockRunner.Scheduler

open Next Threads Poolmgr

/-! ## The system -/

/-- The Pool Manager calls a frame makes. -/
inductive PoolCall
  | claimVM
  | heartbeat (leaseID : String)
  | releaseVM (leaseID : String)

/-- The Pool Manager call a frame is at. -/
def Frame.poolCall : Frame → Option PoolCall
  | .allocate _ (.claiming _) => some .claimVM
  | f =>
    match f.heartbeats?, f.releases? with
    | some l, _ => some (.heartbeat l)
    | none, some l => some (.releaseVM l)
    | none, none => none

/-- What `Held` returned to a call that goes on. -/
inductive Looked
  | held (cl : ClaimObject)
  | missing

/-- The Scheduler, the backend, and the calls in the middle of a method, by
goroutine. -/
structure OnClaims where
  sys : Sys
  backend : Backend
  calls : Nat → Option Looked

/-- The class of error the Scheduler finds in what `ClaimVM` returned. -/
def claimErrorOf : Option Sentinel → ClaimError
  | some .exhausted => .exhausted
  | some .notFound => .notFound
  | some .unavailable => .unavailable
  | some .aborted => .aborted
  | some .alreadyExists | some .invalid | none => .other

/-- The class of error the Scheduler finds in what `Heartbeat` or `ReleaseVM`
returned. -/
def callErrorOf : Option Sentinel → CallError
  | some .notFound => .notFound
  | _ => .other

/-- What the API server and the Client Library contribute to a backend
section. -/
inductive ApiAnswer
  | claim (o : ClaimOutcome) (ctxDone : Bool)
  | look
  | heartbeat (i : Backend.HeartbeatInput)
  | release (r : Except ApiError Unit)
  | delete (r : Except ApiError Unit)

/-- Who moves: the Scheduler on its own, or a goroutine in the backend. -/
inductive ClaimLabel
  | sched (l : Label)
  | api (i : Nat) (a : ApiAnswer)

/-- The moves of the Scheduler that take no answer from the Pool Manager. -/
def Label.internal : Label → Bool
  | .step _ (.claimVM _ _) | .step _ (.heartbeat _) | .step _ (.releaseVM _) => false
  | _ => true

namespace OnClaims

variable (c : Settings) (s : OnClaims)

/-- A call returns to the Scheduler. -/
def answer (i : Nat) (b : Backend) (a : Answer) : Option OnClaims :=
  (s.sys.next c (.step i a)).map fun sys =>
    { sys := sys, backend := b, calls := Function.update s.calls i none }

/-- A call goes on with what `Held` returned. -/
def looked (i : Nat) (x : Looked) : OnClaims :=
  { s with calls := Function.update s.calls i (some x) }

/-- One section of the method a goroutine is in. -/
def method (i : Nat) : PoolCall → Option Looked → ApiAnswer → Option OnClaims
  | .claimVM, none, .claim o ctxDone =>
    (s.backend.claimVM o).bind fun (b, r) =>
      s.answer c i b (.claimVM (r.mapError claimErrorOf) ctxDone)
  | .heartbeat l, none, .look =>
    match s.backend.held.lookup l with
    | none => s.answer c i s.backend (.heartbeat (.error .notFound))
    | some cl => some (s.looked i (.held cl))
  | .heartbeat l, some (.held cl), .heartbeat input =>
    match s.backend.heartbeat l cl input with
    | (b, r) => s.answer c i b (.heartbeat (r.mapError callErrorOf))
  | .releaseVM l, none, .look =>
    match s.backend.held.lookup l with
    | none => some (s.looked i .missing)
    | some cl => some (s.looked i (.held cl))
  | .releaseVM l, some (.held cl), .release r =>
    match s.backend.releaseHeld l cl r with
    | (b, r) => s.answer c i b (.releaseVM (r.mapError callErrorOf))
  | .releaseVM _, some .missing, .delete r =>
    s.answer c i s.backend (.releaseVM ((Backend.deleteClaim r).mapError callErrorOf))
  | _, _, _ => none

/-- One move. -/
def next : ClaimLabel → Option OnClaims
  | .sched l =>
    if l.internal then (s.sys.next c l).map fun sys => { s with sys := sys } else none
  | .api i a =>
    match s.sys.threads[i]? with
    | some (f :: _) => f.poolCall.bind fun call => s.method c i call (s.calls i) a
    | _ => none

end OnClaims

/-- The Scheduler on the claim backend as a labelled machine. -/
def onClaims (c : Settings) : Machine OnClaims ClaimLabel where
  init s := (machine c).init s.sys ∧ s.backend = .new ∧ s.calls = fun _ => none
  next := OnClaims.next c

variable (s : OnClaims)

/-- What is assumed of the API server and the Client Library: a generated claim
name is never given out twice, and releasing a claim that is gone already is no
error. -/
def ClientLibrary : ClaimLabel → Prop
  | .api _ (.claim (.bound name _ _ _) _) => .claimed name ∉ s.sys.trace
  | .api _ (.release (.error e)) => e ≠ .notFound
  | _ => True

instance (s : OnClaims) : DecidablePred (ClientLibrary s) := fun l => by
  unfold ClientLibrary
  split <;> infer_instance

/-! ## The invariant -/

/-- A claimed Lease whose claim the backend does not hold. -/
def OnClaims.gone (l : String) : Prop :=
  .claimed l ∈ s.sys.trace ∧ l ∉ s.backend.held

/-- The lease id a frame's `Heartbeat` or `ReleaseVM` call is about. -/
def Frame.asks (f : Frame) (l : String) : Prop := f.heartbeats? = some l ∨ f.releases? = some l

/-- What `Held` returned is what the backend holds, or the claim is gone. -/
def Looked.fits (l : String) : Looked → Prop
  | .held cl => s.backend.held.lookup l = some cl ∨ s.gone l
  | .missing => s.gone l

/-- What ties the Scheduler to the backend. -/
structure OnClaims.Kept (c : Settings) (s : OnClaims) : Prop where
  accounts : Accounts c s.sys
  settled : Settled s.gone s.sys
  claimed : ∀ l ∈ s.backend.held, .claimed l ∈ s.sys.trace
  pending : ∀ i x, s.calls i = some x → ∃ f rest l, s.sys.threads[i]? = some (f :: rest) ∧
    f.asks l ∧ x.fits s l

variable {c : Settings} {s t : OnClaims} {f : Frame}

theorem kept_init (hs : (onClaims c).init s) : s.Kept c := by
  obtain ⟨hsys, hb, hcalls⟩ := hs
  refine ⟨accounts_init hsys, settled_init hsys, ?_, ?_⟩
  · rw [hb]
    exact fun l hl => absurd hl (AList.notMem_empty l)
  · rw [hcalls]
    nofun

variable {rest : List Frame} {l : String} {i : Nat} {cl : ClaimObject} {a : Answer} {sys : Sys}

theorem Frame.asks.internal {impl : Impl} {n : Next} (hf : f.asks l)
    (hstep : step c impl f a = some n) : (Label.step i a).internal = false := by
  rcases hf with hf | hf
  · cases f with
    | heartbeatLoop h interval pc =>
      cases pc <;> cases hf
      cases a <;> cases hstep
      rfl
    | checkLease h pc =>
      cases pc <;> cases hf
      cases a <;> cases hstep
      rfl
    | _ => cases hf
  · cases f with
    | releaseLease lease pc =>
      cases pc <;> cases hf
      cases a <;> first | rfl | cases hstep
    | _ => cases hf

theorem OnClaims.Kept.asked (hK : s.Kept c) (hf : f ∈ frames s.sys.threads) (hl : f.asks l) :
    .claimed l ∈ s.sys.trace := by
  rcases hl with hl | hl
  · have hown := hK.settled.own f hf
    have hnamed := hK.accounts.named.frame f hf
    cases f with
    | heartbeatLoop h interval pc =>
      cases pc <;> cases hl
      rw [show _ = h.alloc.lease.id from hown]
      exact hK.settled.created h (hnamed h (List.mem_singleton_self h))
    | checkLease h pc =>
      cases pc <;> cases hl
      rw [show _ = h.alloc.lease.id from hown]
      exact hK.settled.created h (hnamed h (List.mem_singleton_self h))
    | _ => cases hl
  · refine hK.accounts.claimed_of_started (hK.settled.laddered f hf l ?_)
    cases f with
    | releaseLease lease pc =>
      cases pc <;> cases hl
      rfl
    | _ => cases hl

theorem thread_next {sys sys' : Sys} {l : Label} (hnext : sys.next c l = some sys') {j : Nat}
    {stack : List Frame} (hj : sys.threads[j]? = some stack) (hother : ∀ a, l ≠ .step j a) :
    sys'.threads[j]? = some stack := by
  cases moved hnext with
  | call call _ =>
    exact List.getElem?_append_left (List.getElem?_eq_some_iff.mp hj).1 ▸ hj
  | step i a f rest n _ _ =>
    have hne : j ≠ i := by
      rintro rfl
      exact hother a rfl
    exact getElem?_advance hne hj _ _ _
  | tick d =>
    exact hj

theorem OnClaims.Kept.sched (hK : s.Kept c) {l : Label} (hl : l.internal = true)
    (hnext : s.sys.next c l = some sys) : OnClaims.Kept c { s with sys := sys } := by
  have hgone : ∀ l, s.gone l → OnClaims.gone { s with sys := sys } l :=
    fun l h => ⟨trace_next hnext h.1, h.2⟩
  have htrue : ∀ gone, Truthful gone s.sys l := by
    intro gone
    cases l with
    | call | tick => trivial
    | step i a =>
      cases a with
      | heartbeat | releaseVM | claimVM => cases hl
      | _ => trivial
  refine ⟨accounts_next hK.accounts hnext,
    settled_next (hK.settled.mono hgone) hK.accounts hnext (htrue _),
    fun l h => trace_next hnext (hK.claimed l h), ?_⟩
  intro i x hx
  obtain ⟨f, rest, l', hi, hf, hfits⟩ := hK.pending i x hx
  refine ⟨f, rest, l', thread_next hnext hi ?_, hf, ?_⟩
  · rintro a rfl
    obtain ⟨n, hstep, -⟩ : ∃ n, step c s.sys.impl f a = some n ∧ s.sys.apply i rest n = sys := by
      unfold Sys.next at hnext
      dsimp only at hnext
      rw [hi] at hnext
      exact Option.map_eq_some_iff.mp hnext
    rw [hf.internal hstep] at hl
    cases hl
  · cases x with
    | held cl => exact hfits.imp_right (hgone l')
    | missing => exact hgone l' hfits

theorem OnClaims.Kept.answer (hK : s.Kept c) {b : Backend} (hnext : s.answer c i b a = some t)
    (hsub : ∀ l ∈ b.held, l ∈ s.backend.held ∨ .claimed l ∈ t.sys.trace)
    (hkeep : ∀ l cl, s.backend.held.lookup l = some cl → b.held.lookup l = some cl ∨ l ∉ b.held)
    (hstay : ∀ l, s.gone l → l ∉ b.held)
    (htrue : Truthful (fun l => .claimed l ∈ s.sys.trace ∧ l ∉ b.held) s.sys (.step i a)) :
    t.Kept c := by
  obtain ⟨sys, hsys, rfl⟩ := Option.map_eq_some_iff.mp hnext
  have hgone : ∀ l, s.gone l → OnClaims.gone
      { sys := sys, backend := b, calls := Function.update s.calls i none } l :=
    fun l h => ⟨trace_next hsys h.1, hstay l h⟩
  have hclaimed : ∀ l ∈ b.held, .claimed l ∈ sys.trace := by
    intro l hl
    rcases hsub l hl with h | h
    · exact trace_next hsys (hK.claimed l h)
    · exact h
  refine ⟨accounts_next hK.accounts hsys,
    settled_next (hK.settled.mono hgone) hK.accounts hsys
      (htrue.mono fun l h => ⟨trace_next hsys h.1, h.2⟩), hclaimed, ?_⟩
  intro j x hx
  by_cases hji : j = i
  · change Function.update s.calls i none j = some x at hx
    rw [hji, Function.update_self] at hx
    cases hx
  · change Function.update s.calls i none j = some x at hx
    rw [Function.update_of_ne hji] at hx
    obtain ⟨f, rest, l, hj, hf, hfits⟩ := hK.pending j x hx
    refine ⟨f, rest, l, thread_next hsys hj ?_, hf, ?_⟩
    · rintro a' ⟨⟩
      exact hji rfl
    · cases x with
      | missing => exact hgone l hfits
      | held cl =>
        rcases hfits with h | h
        · refine (hkeep l cl h).imp_right fun hnot => ⟨trace_next hsys (hK.claimed l ?_), hnot⟩
          exact AList.lookup_isSome.mp (h ▸ rfl)
        · exact .inr (hgone l h)

theorem OnClaims.Kept.looked (hK : s.Kept c) (hi : s.sys.threads[i]? = some (f :: rest))
    (hf : f.asks l) {x : Looked} (hx : x.fits s l) : (s.looked i x).Kept c := by
  refine ⟨hK.accounts, hK.settled, hK.claimed, ?_⟩
  intro j y hy
  by_cases hji : j = i
  · subst hji
    have hyx : some x = some y := (Function.update_self j (some x) s.calls) ▸ hy
    cases hyx
    exact ⟨f, rest, l, hi, hf, hx⟩
  · rw [show (s.looked i x).calls j = s.calls j from Function.update_of_ne hji _ _] at hy
    exact hK.pending j y hy

/-! ### The methods -/

theorem truthful_heartbeat {gone : String → Prop} (hi : sys.threads[i]? = some (f :: rest))
    (hf : f.heartbeats? = some l) {r : Except CallError Time} (h : r = .error .notFound → gone l) :
    Truthful gone sys (.step i (.heartbeat r)) := by
  cases r with
  | ok e => trivial
  | error e =>
    cases e with
    | other => trivial
    | notFound =>
      intro f' rest' hi' l' hl'
      cases hi.symm.trans hi'
      cases hf.symm.trans hl'
      exact h rfl

theorem truthful_releaseVM {gone : String → Prop} (hi : sys.threads[i]? = some (f :: rest))
    (hf : f.releases? = some l) {r : Except CallError Unit}
    (h : r = .ok () ∨ r = .error .notFound → gone l) :
    Truthful gone sys (.step i (.releaseVM r)) := by
  have htrue : (r = .ok () ∨ r = .error .notFound) → ∀ f' rest',
      sys.threads[i]? = some (f' :: rest') → ∀ l', f'.releases? = some l' → gone l' := by
    intro hr f' rest' hi' l' hl'
    cases hi.symm.trans hi'
    cases hf.symm.trans hl'
    exact h hr
  cases r with
  | ok u => exact htrue (.inl rfl)
  | error e =>
    cases e with
    | other => trivial
    | notFound => exact htrue (.inr rfl)

theorem OnClaims.Kept.answer_same (hK : s.Kept c) {b : Backend} (hnext : s.answer c i b a = some t)
    (hb : b.held = s.backend.held) (htrue : Truthful s.gone s.sys (.step i a)) : t.Kept c := by
  refine hK.answer hnext ?_ ?_ ?_ ?_
  · exact fun l hl => .inl (hb ▸ hl)
  · exact fun l cl h => .inl (hb ▸ h)
  · exact fun l h => hb ▸ h.2
  · rw [hb]
    exact htrue

/-- A call that takes the claim of its Lease out of the map, if it is still
there, returns. -/
theorem OnClaims.Kept.answer_forget (hK : s.Kept c)
    (hnext : s.answer c i (s.backend.forget l cl).1 a = some t)
    (htrue : Truthful (fun l' => .claimed l' ∈ s.sys.trace ∧
      l' ∉ (s.backend.forget l cl).1.held) s.sys (.step i a)) : t.Kept c := by
  refine hK.answer hnext ?_ ?_ ?_ htrue
  · exact fun l' h => .inl (Backend.forget_subset h)
  · exact fun l' cl' h => Backend.forget_lookup h
  · exact fun l' h hmem => h.2 (Backend.forget_subset hmem)

theorem OnClaims.Kept.claimVM (hK : s.Kept c) {q : Request} {attempt : Nat}
    (hi : s.sys.threads[i]? = some (.allocate q (.claiming attempt) :: rest)) {o : ClaimOutcome}
    {ctxDone : Bool} (hlib : ClientLibrary s (.api i (.claim o ctxDone)))
    (h : s.method c i .claimVM none (.claim o ctxDone) = some t) : t.Kept c := by
  obtain ⟨⟨b, r⟩, hb, hnext⟩ := Option.bind_eq_some_iff.mp h
  have hsame : b.held = s.backend.held → t.Kept c :=
    fun heq => hK.answer_same hnext heq trivial
  unfold Backend.claimVM at hb
  split at hb
  · cases hb
    exact hsame rfl
  · cases hb
    exact hsame rfl
  · rename_i name uid node agent
    dsimp only at hb
    split at hb
    · cases hb
      exact hsame rfl
    · rename_i claim hclaim
      cases hb
      have hname : claim.leaseID = name := by
        unfold Backend.claimOf at hclaim
        split at hclaim
        · cases hclaim
        · cases hclaim
          rfl
      -- the name is new, so nothing under another lease id changes
      have hfresh : .claimed claim.leaseID ∉ s.sys.trace := hname ▸ hlib
      have htraced : .claimed claim.leaseID ∈ t.sys.trace := by
        obtain ⟨sys, hsys, rfl⟩ := Option.map_eq_some_iff.mp hnext
        unfold Sys.next at hsys
        dsimp only at hsys
        rw [hi] at hsys
        cases hsys
        exact List.mem_append_right _ (List.mem_singleton_self _)
      refine hK.answer hnext ?_ ?_ ?_ trivial
      · intro l hl
        rcases (AList.mem_insert _).mp hl with rfl | hl
        · exact .inr htraced
        · exact .inl hl
      · intro l cl hcl
        have hne : l ≠ claim.leaseID := by
          rintro rfl
          exact hfresh (hK.claimed _ (AList.lookup_isSome.mp (hcl ▸ rfl)))
        refine .inl ?_
        rw [AList.lookup_insert_ne hne]
        exact hcl
      · intro l hgone hmem
        rcases (AList.mem_insert _).mp hmem with rfl | hmem
        · exact hfresh hgone.1
        · exact hgone.2 hmem
  · obtain ⟨e, -, heq⟩ := Option.map_eq_some_iff.mp hb
    cases heq
    exact hsame rfl
  · cases hb
    exact hsame rfl

theorem OnClaims.Kept.heartbeat (hK : s.Kept c) (hi : s.sys.threads[i]? = some (f :: rest))
    (hf : f.heartbeats? = some l) (hfits : (Looked.held cl).fits s l)
    {input : Backend.HeartbeatInput}
    (h : s.method c i (.heartbeat l) (some (.held cl)) (.heartbeat input) = some t) : t.Kept c := by
  have hclaimed := hK.asked (top_mem hi) (.inl hf)
  have hiff := Backend.heartbeatAnswer_notFound cl input
  change (match s.backend.heartbeat l cl input with
    | (b, r) => s.answer c i b (.heartbeat (r.mapError callErrorOf))) = some t at h
  unfold Backend.heartbeat at h
  cases hans : Backend.heartbeatAnswer cl input with
  | mk forgets r =>
    rw [hans] at h hiff
    cases forgets with
    | true =>
      refine hK.answer_forget h (truthful_heartbeat hi hf fun _ => ⟨hclaimed, ?_⟩)
      exact Backend.forget_notMem (hfits.imp_right And.right)
    | false =>
      refine hK.answer_same h rfl (truthful_heartbeat hi hf fun hr => ?_)
      -- any answer but NOT_FOUND leaves the claim held
      have hnot : r ≠ .error (some .notFound) := fun heq => nomatch hiff.mpr heq
      exfalso
      cases r with
      | ok e => cases hr
      | error e =>
        cases e with
        | none => cases hr
        | some e => cases e <;> first | exact hnot rfl | cases hr

theorem OnClaims.Kept.releaseHeld (hK : s.Kept c) (hi : s.sys.threads[i]? = some (f :: rest))
    (hf : f.releases? = some l) (hfits : (Looked.held cl).fits s l) {r : Except ApiError Unit}
    (hlib : ClientLibrary s (.api i (.release r)))
    (h : s.method c i (.releaseVM l) (some (.held cl)) (.release r) = some t) : t.Kept c := by
  have hclaimed := hK.asked (top_mem hi) (.inr hf)
  cases r with
  | ok u =>
    refine hK.answer_forget h (truthful_releaseVM hi hf fun _ => ⟨hclaimed, ?_⟩)
    exact Backend.forget_notMem (hfits.imp_right And.right)
  | error e =>
    refine hK.answer_same h rfl (truthful_releaseVM hi hf fun hr => ?_)
    have hne : e ≠ .notFound := hlib
    exfalso
    rcases hr with hr | hr
    · cases hr
    · cases e <;> first | exact hne rfl | cases hr

theorem Frame.poolCall_cases {call : PoolCall} (h : f.poolCall = some call) :
    (∃ q attempt, f = .allocate q (.claiming attempt) ∧ call = .claimVM) ∨
    (∃ l, f.heartbeats? = some l ∧ call = .heartbeat l) ∨
    ∃ l, f.releases? = some l ∧ call = .releaseVM l := by
  unfold Frame.poolCall at h
  split at h
  · cases h
    exact .inl ⟨_, _, rfl, rfl⟩
  · cases hl : f.heartbeats? with
    | some l =>
      rw [hl] at h
      cases h
      exact .inr (.inl ⟨l, rfl, rfl⟩)
    | none =>
      cases hl' : f.releases? with
      | some l =>
        rw [hl, hl'] at h
        cases h
        exact .inr (.inr ⟨l, rfl, rfl⟩)
      | none =>
        rw [hl, hl'] at h
        cases h

/-- What `Held` returned to a goroutine's call fits the Lease of that call. -/
theorem OnClaims.Kept.fits (hK : s.Kept c) (hi : s.sys.threads[i]? = some (f :: rest))
    (hf : f.asks l) {x : Looked} (hx : s.calls i = some x) : x.fits s l := by
  obtain ⟨f', rest', l', hi', hf', hfits⟩ := hK.pending i x hx
  cases hi.symm.trans hi'
  -- no frame is at two calls
  have hone : ∀ {l l'}, f.heartbeats? = some l → f.releases? = some l' → False := by
    intro l l' h h'
    cases f <;> first | cases h' | cases h
  have hl : l' = l := by
    rcases hf with hf | hf <;> rcases hf' with hf' | hf'
    · exact Option.some.inj (hf'.symm.trans hf)
    · exact (hone hf hf').elim
    · exact (hone hf' hf).elim
    · exact Option.some.inj (hf'.symm.trans hf)
  exact hl ▸ hfits

theorem OnClaims.Kept.missing (hK : s.Kept c) (hf : f ∈ frames s.sys.threads) (hl : f.asks l)
    (hnone : s.backend.held.lookup l = none) : s.gone l :=
  ⟨hK.asked hf hl, AList.lookup_eq_none.mp hnone⟩

theorem kept_method (hK : s.Kept c) (hi : s.sys.threads[i]? = some (f :: rest)) {call : PoolCall}
    (hcall : f.poolCall = some call) {a : ApiAnswer} (hlib : ClientLibrary s (.api i a))
    (h : s.method c i call (s.calls i) a = some t) : t.Kept c := by
  have hmem := top_mem hi
  rcases Frame.poolCall_cases hcall with ⟨q, attempt, rfl, rfl⟩ | ⟨l, hf, rfl⟩ | ⟨l, hf, rfl⟩
  · cases hx : s.calls i with
    | some x => rw [hx] at h; cases h
    | none =>
      rw [hx] at h
      cases a with
      | claim o ctxDone => exact hK.claimVM hi hlib h
      | _ => cases h
  · cases hx : s.calls i with
    | none =>
      rw [hx] at h
      cases a with
      | look =>
        change (match s.backend.held.lookup l with
          | none => s.answer c i s.backend (.heartbeat (.error .notFound))
          | some cl => some (s.looked i (.held cl))) = some t at h
        split at h
        · rename_i hnone
          exact hK.answer_same h rfl
            (truthful_heartbeat hi hf fun _ => hK.missing hmem (.inl hf) hnone)
        · rename_i cl hcl
          cases h
          exact hK.looked hi (.inl hf) (.inl hcl)
      | _ => cases h
    | some x =>
      have hfits := hK.fits hi (.inl hf) hx
      rw [hx] at h
      cases x with
      | missing => cases h
      | held cl =>
        cases a with
        | heartbeat input => exact hK.heartbeat hi hf hfits h
        | _ => cases h
  · cases hx : s.calls i with
    | none =>
      rw [hx] at h
      cases a with
      | look =>
        change (match s.backend.held.lookup l with
          | none => some (s.looked i .missing)
          | some cl => some (s.looked i (.held cl))) = some t at h
        split at h
        · rename_i hnone
          cases h
          exact hK.looked hi (.inr hf) (hK.missing hmem (.inr hf) hnone)
        · rename_i cl hcl
          cases h
          exact hK.looked hi (.inr hf) (.inl hcl)
      | _ => cases h
    | some x =>
      have hfits := hK.fits hi (.inr hf) hx
      rw [hx] at h
      cases x with
      | held cl =>
        cases a with
        | release r => exact hK.releaseHeld hi hf hfits hlib h
        | _ => cases h
      | missing =>
        cases a with
        | delete r => exact hK.answer_same h rfl (truthful_releaseVM hi hf fun _ => hfits)
        | _ => cases h

theorem kept_next {l : ClaimLabel} (hK : s.Kept c) (hlib : ClientLibrary s l)
    (hnext : s.next c l = some t) : t.Kept c := by
  cases l with
  | sched l =>
    obtain ⟨hl, h⟩ := Option.ite_none_right_eq_some.mp hnext
    obtain ⟨sys, hsys, rfl⟩ := Option.map_eq_some_iff.mp h
    exact hK.sched hl hsys
  | api i a =>
    unfold OnClaims.next at hnext
    dsimp only at hnext
    split at hnext
    · rename_i f rest hi
      obtain ⟨call, hcall, h⟩ := Option.bind_eq_some_iff.mp hnext
      exact kept_method hK hi hcall hlib h
    · cases hnext

/-- **No orphaned claim.** A claim the backend holds, whose Lease no `Allocate`
and no step that ends an Allocation has in hand, is a live Allocation's, is
being retained, or has a release ladder that is running, used up its retries or
was cut short by the end of `Run`; or its Lease was declared expired. -/
theorem no_orphaned_claim (hs : (onClaims c).Reach ClientLibrary s) {l : String}
    (hl : l ∈ s.backend.held)
    (hrest : ∀ f ∈ frames s.sys.threads, ¬ f.allocating l ∧ ¬ f.ending l) :
    (∃ h ∈ s.sys.impl.liveHandles, h.alloc.lease.id = l) ∨
    (∃ f ∈ frames s.sys.threads, f.retaining l) ∨
    (∃ f ∈ frames s.sys.threads, f.ladder? = some l) ∨
    .releaseEnded l .retriesUsedUp ∈ s.sys.trace ∨
    .releaseEnded l .cutShort ∈ s.sys.trace ∨
    ∃ id e, .lost id (.leaseExpired l e) ∈ s.sys.trace := by
  have hK : s.Kept c := hs.inv (fun _ => kept_init) fun _ _ _ hK hlib h => kept_next hK hlib h
  rcases hK.settled.lease_cases hK.accounts (hK.claimed l hl) with ⟨f, hf, h⟩ | h | ⟨f, hf, h⟩ |
    h | h | h | h
  · rcases h with h | h
    · exact absurd h (hrest f hf).1
    · exact absurd h (hrest f hf).2
  · exact .inl h
  · rcases h with h | h
    · exact .inr (.inl ⟨f, hf, h⟩)
    · exact .inr (.inr (.inl ⟨f, hf, h⟩))
  · exact .inr (.inr (.inr (.inl h)))
  · exact .inr (.inr (.inr (.inr (.inl h))))
  · exact absurd hl h.2
  · exact .inr (.inr (.inr (.inr (.inr h))))

/-! ## Two orphaned claims -/

/-- A held claim that nobody is responsible for. -/
def OnClaims.orphaned (l : String) : Prop :=
  l ∈ s.backend.held ∧ (∀ h ∈ s.sys.impl.liveHandles, h.alloc.lease.id ≠ l) ∧
  (∀ f ∈ frames s.sys.threads,
    ¬ f.allocating l ∧ ¬ f.ending l ∧ ¬ f.retaining l ∧ f.ladder? ≠ some l) ∧
  .releaseEnded l .retriesUsedUp ∉ s.sys.trace

/-- One Slot on the claim backend. -/
def oneClaim : Settings :=
  { oneSlot with poolManager := { (default : Config.PoolManager) with backend := .claim } }

/-- The Scheduler and the backend those runs start in. -/
def claimStart : OnClaims := ⟨allocateStart, .new, fun _ => none⟩

theorem claimStart_init : (onClaims oneClaim).init claimStart :=
  ⟨⟨by decide, 0, [small], ∅, rfl⟩, rfl, rfl⟩

/-- A Job is allocated a claimed MicroVM and its keep-alive loop waits. -/
def claimedRun : List ClaimLabel :=
  (allocateRun.take 11).map ClaimLabel.sched ++
    ([.api 2 (.claim (.bound "l" "vm" "host" "") false)] : List ClaimLabel) ++
    (keepAliveRun.drop 12).map ClaimLabel.sched

/-- The claim of a live Allocation, which no call has in hand. -/
theorem no_orphaned_claim_live : ∃ s, (onClaims oneClaim).Reach ClientLibrary s ∧
    "l" ∈ s.backend.held ∧
    ((∃ h ∈ s.sys.impl.liveHandles, h.alloc.lease.id = "l") ∨
      (∃ f ∈ frames s.sys.threads, f.retaining "l") ∨
      (∃ f ∈ frames s.sys.threads, f.ladder? = some "l") ∨
      .releaseEnded "l" .retriesUsedUp ∈ s.sys.trace ∨
      .releaseEnded "l" .cutShort ∈ s.sys.trace ∨
      ∃ id e, .lost id (.leaseExpired "l" e) ∈ s.sys.trace) := by
  have hs := Machine.reach_run ClientLibrary claimedRun claimStart_init rfl
  refine ⟨_, hs, by decide, no_orphaned_claim hs (by decide) ?_⟩
  intro f hf
  have hf : f ∈ [Frame.run .running, .heartbeatLoop smallHandle _ (.waiting _ _ _),
      .heartbeatExit smallHandle, .wgDone] := hf
  simp only [List.mem_cons, List.not_mem_nil, or_false] at hf
  rcases hf with rfl | rfl | rfl | rfl <;> exact ⟨id, id⟩

/-- The API server fails the one heartbeat before the expiry passes. -/
def expiredRun : List ClaimLabel :=
  claimedRun ++ ([.sched (.tick 10000000000), .sched (.step 3 .timer), .api 3 .look,
    .api 3 (.heartbeat ⟨false, false, .error .other⟩), .sched (.step 3 .go),
    .sched (.step 3 .go), .sched (.tick 20000000000)] : List ClaimLabel) ++
    List.replicate 8 (ClaimLabel.sched (.step 3 .go))

/-- A release fails once and `Run` ends before it is tried again. -/
def cutShortRun : List ClaimLabel :=
  claimedRun ++ ([.sched (.call (.release smallHandle))] : List ClaimLabel) ++
    List.replicate 4 (ClaimLabel.sched (.step 4 .go)) ++
    ([.api 5 .look, .api 5 (.release (.error .other)), .sched (.step 0 (.ctx true))] :
      List ClaimLabel) ++
    List.replicate 3 (ClaimLabel.sched (.step 0 .go)) ++
    ([.sched (.step 0 .channel)] : List ClaimLabel) ++
    List.replicate 2 (ClaimLabel.sched (.step 0 .go)) ++
    ([.sched (.step 5 .channel), .sched (.step 5 .go), .sched (.step 3 .channel),
      .sched (.step 3 .go), .sched (.step 3 .go)] : List ClaimLabel)

/-- In the first state `Run` goes on and the Lease was declared expired, in the
second `Run` has cut the release ladder short: both leave the claim held, with
nobody left to release it. -/
theorem orphaned_claim :
    (∃ s, (onClaims oneClaim).Reach ClientLibrary s ∧ s.orphaned "l" ∧
      .lost 2 (.leaseExpired "l" (30 * second)) ∈ s.sys.trace ∧
      s.sys.threads = [[.run .running], [], [], []]) ∧
    ∃ s, (onClaims oneClaim).Reach ClientLibrary s ∧ s.orphaned "l" ∧
      .releaseEnded "l" .cutShort ∈ s.sys.trace ∧
      s.sys.threads = [[.run .waiting], [], [], [], [], []] := by
  have hexpired := Machine.reach_run ClientLibrary expiredRun claimStart_init rfl
  have hcut := Machine.reach_run ClientLibrary cutShortRun claimStart_init rfl
  have run_free : ∀ pc, ∀ f ∈ frames [[Frame.run pc]],
      ¬ f.allocating "l" ∧ ¬ f.ending "l" ∧ ¬ f.retaining "l" ∧ f.ladder? ≠ some "l" := by
    intro pc f hf
    rw [Multiset.mem_singleton.mp (show f ∈ ({.run pc} : Multiset Frame) from hf)]
    exact ⟨id, id, id, nofun⟩
  exact ⟨⟨_, hexpired, ⟨by decide, by decide, run_free .running, by decide⟩, by decide, rfl⟩,
    _, hcut, ⟨by decide, by decide, run_free .waiting, by decide⟩, by decide, rfl⟩

end FlintlockRunner.Scheduler

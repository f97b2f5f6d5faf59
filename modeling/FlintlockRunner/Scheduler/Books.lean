import FlintlockRunner.Base.Ledger
import FlintlockRunner.Scheduler.Inversion

/-!
# What one step does to the Scheduler's books

The accounting questions about the Scheduler (who holds a Slot, a unit of a
Profile or a Lease) concern a small part of its state, `Books`, and what the
functions in flight have taken and not passed on, `Frame.token`. `Move` lists
everything a step can do to those two, and `step_move` says that every step of
every function is one of them. No proof about the accounting looks at the step
functions again: it goes through the moves.
-/

namespace FlintlockRunner.Scheduler

open Function Next

/-! ## The books -/

/-- The part of the state that accounts for Slots, units and Leases. -/
@[ext]
structure Books where
  reservations : AList fun _ : Nat => Time
  allocations : AList fun _ : Nat => Handle
  profileUse : String → Nat
  nextID : Nat
  gone : Nat → Bool

variable (s : Impl)

/-- The books of a Scheduler. -/
def Impl.books : Books where
  reservations := s.reservations
  allocations := s.allocations
  profileUse := s.profileUse
  nextID := s.nextID
  gone id := (s.heap id).leaseGone

/-- The use of Profiles once a unit of `name` is returned. -/
def Books.freed (b : Books) (name : String) : String → Nat :=
  Function.update b.profileUse name (b.profileUse name - 1)

/-- What a Handle stands for in the books. -/
def Handle.holding (h : Handle) : Holding String String :=
  ⟨h.id, h.alloc.reservationID, h.alloc.profile, h.alloc.lease.id⟩

/-- What an `Allocate` has taken at each point. Its unit and its Lease are its
own until `convert` gives both to the Allocation. -/
def Request.token (q : Request) : AllocatePc → Option (Token String String)
  | .entering | .limited _ => none
  | .claiming _ | .retrying _ _ | .leaving _ => some (.entered q.p.name)
  | .checking claim => some (.carrying q.p.name claim.leaseID)
  | .placing _ lease _ | .numbering _ lease _ _ | .abandoning lease _ =>
    some (.carrying q.p.name lease.id)
  | .converting h => some (.numbered q.p.name q.r h.holding)
  | .installing _ | .spawning _ | .probing _ | .returning _ => none

/-- What `Release` and `endAllocation` have taken. -/
def EndPc.token (h : Handle) : EndPc → Option (Token String String)
  | .stopping | .checkingGone | .releasing => some (.ended h.holding)
  | .finishing | .stoppingOnly => none

/-- What `Retain` has taken. -/
def RetainPc.token (h : Handle) : RetainPc → Option (Token String String)
  | .checkingGone | .starting | .stopping | .releasing => some (.ended h.holding)
  | .called | .finishing | .stoppingOnly => none

/-- What `leaseLost` has found. -/
def LostPc.token (h : Handle) : LostPc → Option (Token String String)
  | .failing | .finishing => some (.losing h.holding)
  | .marking => none

/-- What an activation has taken and not passed on yet. -/
def Frame.token : Frame → Option (Token String String)
  | .allocate q pc => q.token pc
  | .release h pc | .endAllocation h pc => pc.token h
  | .retain h pc => pc.token h
  | .retainThenRelease h _ => some (.kept h.holding)
  | .leaseLost h _ pc => pc.token h
  | _ => none

/-- The tokens a step leaves behind. -/
def Next.tokens (n : Next) : List (Token String String) :=
  (n.frames ++ n.spawned.flatten).filterMap Frame.token

/-- Whether an observation is part of the history the accounting needs. -/
def Obs.booked : Obs → Bool
  | .granted _ | .created _ | .claimed _ | .releaseStarted _ => true
  | _ => false

/-- What a step adds to the history of the accounting. -/
def Next.booked (n : Next) : List Obs := n.obs.filter Obs.booked

/-! ## Sections that leave the books alone -/

theorem Impl.books_setHandle (h : Handle) {f : HandleState → HandleState}
    (hf : ∀ st, (f st).leaseGone = st.leaseGone) : (s.setHandle h f).books = s.books := by
  ext id
  · rfl
  · rfl
  · rfl
  · rfl
  · show (update s.heap h.id (f (s.heap h.id)) id).leaseGone = (s.heap id).leaseGone
    by_cases heq : id = h.id
    · rw [heq, update_self, hf]
    · rw [update_of_ne heq]

@[simp] theorem Impl.books_setLease (h : Handle) (l : Lease) :
    (s.setLease h l).books = s.books :=
  s.books_setHandle h fun _ => rfl

@[simp] theorem Impl.books_fail (h : Handle) (cause : Cause) :
    (s.fail h cause).books = s.books :=
  s.books_setHandle h fun _ => rfl

@[simp] theorem Impl.books_installHeartbeat (h : Handle) :
    (s.installHeartbeat h).books = s.books :=
  s.books_setHandle h fun _ => rfl

@[simp] theorem Impl.books_cancelHeartbeat (h : Handle) :
    (s.cancelHeartbeat h).books = s.books :=
  s.books_setHandle h fun _ => rfl

@[simp] theorem Impl.books_stopHeartbeat (h : Handle) :
    (s.stopHeartbeat h).books = s.books := by
  unfold Impl.stopHeartbeat
  split
  · exact s.books_cancelHeartbeat h
  · rfl

@[simp] theorem Impl.books_inBackground : s.inBackground.1.books = s.books := by
  unfold Impl.inBackground
  split <;> rfl

@[simp] theorem Impl.books_drained : s.drained.1.books = s.books := by
  unfold Impl.drained
  split
  · rfl
  · split <;> rfl

@[simp] theorem Impl.books_recordProbe (threshold : Int) (name : String)
    (ok : Bool) : (s.recordProbe threshold name ok).1.books = s.books := by
  unfold Impl.recordProbe
  split
  · rfl
  · split <;> rfl

/-! ## The moves -/

/-- Everything a step can do to the books, to the tokens and to the history.
Each move names the token the step's own frame held before it. -/
inductive Move (c : Settings) (s : Impl) (f : Frame) (n : Next) : Prop
  | quiet (hb : n.impl.books = s.books) (ht : n.tokens = f.token.toList)
      (ho : n.booked = [])
  | granted (hfree : (s.slotsInUseLocked : Int) < c.slots)
      (hb : n.impl.books = { s.books with
        nextID := s.nextID + 1, reservations := s.reservations.insert (s.nextID + 1) s.now })
      (hf : f.token = none) (ht : n.tokens = []) (ho : n.booked = [.granted (s.nextID + 1)])
  | dropped (R : AList fun _ : Nat => Time) (hR : R.keys ⊆ s.reservations.keys)
      (hb : n.impl.books = { s.books with reservations := R })
      (hf : f.token = none) (ht : n.tokens = []) (ho : n.booked = [])
  | entered (p : Profile)
      (hp : ∃ q, f = .allocate q .entering ∧ q.p = p)
      (hm : p.maxConcurrency > 0 → (s.profileUse p.name : Int) < p.maxConcurrency)
      (hb : n.impl.books = { s.books with
        profileUse := Function.update s.profileUse p.name (s.profileUse p.name + 1) })
      (ht : n.tokens = [.entered p.name]) (ho : n.booked = [])
  | left (name : String) (hf : f.token = some (.entered name))
      (hb : n.impl.books = { s.books with profileUse := s.books.freed name })
      (ht : n.tokens = []) (ho : n.booked = [])
  | claimed (name l : String) (hf : f.token = some (.entered name))
      (hb : n.impl.books = s.books)
      (ht : n.tokens = [.carrying name l]) (ho : n.booked = [.claimed l])
  | numbered (name l : String) (r : Nat) (h : Handle)
      (hf : f.token = some (.carrying name l))
      (hh : h.holding = ⟨s.nextID + 1, r, name, l⟩)
      (hb : n.impl.books = { s.books with
        nextID := s.nextID + 1, gone := Function.update s.books.gone (s.nextID + 1) false })
      (ht : n.tokens = [.numbered name r h.holding]) (ho : n.booked = [.created h])
  | converted (name : String) (r : Nat) (h : Handle)
      (hf : ∃ q, f = .allocate q (.converting h) ∧ q.p.name = name ∧ q.r = r)
      (hr : r ∈ s.reservations)
      (hb : n.impl.books = { s.books with
        reservations := s.reservations.erase r
        allocations := s.allocations.insert h.id h })
      (ht : n.tokens = []) (ho : n.booked = [])
  | refused (name : String) (r : Nat) (h : Handle)
      (hf : f.token = some (.numbered name r h.holding)) (hb : n.impl.books = s.books)
      (ht : n.tokens = [.carrying name h.holding.asset]) (ho : n.booked = [])
  | abandoned (name l : String) (hf : f.token = some (.carrying name l))
      (hb : n.impl.books = s.books)
      (ht : n.tokens = [.entered name]) (ho : n.booked = [.releaseStarted l])
  | finished (h : Handle) (hf : f.token = none) (hfh : h ∈ f.handles)
      (hh : h.id ∈ s.allocations)
      (hb : n.impl.books = { s.books with
        allocations := s.allocations.erase h.id
        profileUse := s.books.freed h.alloc.profile })
      (ht : n.tokens = [.ended h.holding]) (ho : n.booked = [])
  | marked (h : Handle) (hf : f.token = none) (hfh : h ∈ f.handles)
      (hb : n.impl.books = { s.books with gone := Function.update s.books.gone h.id true })
      (ht : n.tokens = [.losing h.holding]) (ho : n.booked = [])
  | lost (h : Handle) (hf : f.token = some (.losing h.holding)) (hfh : h ∈ f.handles)
      (hh : h.id ∈ s.allocations)
      (hb : n.impl.books = { s.books with
        allocations := s.allocations.erase h.id
        profileUse := s.books.freed h.alloc.profile })
      (ht : n.tokens = []) (ho : n.booked = [])
  | late (h : Handle) (hf : f.token = some (.losing h.holding))
      (hb : n.impl.books = s.books) (ht : n.tokens = []) (ho : n.booked = [])
  | kept (h : Handle) (hf : f.token = some (.ended h.holding)) (hb : n.impl.books = s.books)
      (ht : n.tokens = [.kept h.holding]) (ho : n.booked = [])
  | handedBack (h : Handle)
      (hf : f.token = some (.ended h.holding) ∨ f.token = some (.kept h.holding))
      (hb : n.impl.books = s.books)
      (ht : n.tokens = []) (ho : n.booked = [.releaseStarted h.holding.asset])
  | letGo (h : Handle)
      (hf : f.token = some (.ended h.holding) ∨ f.token = some (.kept h.holding))
      (hgone : s.leaseIsGone h = true) (hb : n.impl.books = s.books)
      (ht : n.tokens = []) (ho : n.booked = [])

/-! ## What each section reports -/

variable {c : Settings} {s : Impl} {n : Next} {a : Answer}

/-- `grant` refuses and changes nothing, or takes a free Slot. -/
theorem Impl.grant_spec (c : Settings) (s : Impl) (warm : Int) :
    (∃ reason, s.grant c warm = (s, .error reason)) ∨
    ((s.slotsInUseLocked : Int) < c.slots ∧
      s.grant c warm = ({ s with
        nextID := s.nextID + 1
        reservations := s.reservations.insert (s.nextID + 1) s.now }, .ok (s.nextID + 1))) := by
  unfold Impl.grant Impl.availableCapacityLocked
  by_cases hfree : c.slots - s.slotsInUseLocked ≤ 0
  · exact .inl ⟨some .noFreeSlot, by simp [hfree]⟩
  · by_cases hwarm : warm ≤ 0
    · exact .inl ⟨some .noWarmMicroVM, by simp [hfree, hwarm]⟩
    · refine .inr ⟨by omega, ?_⟩
      by_cases hlt : warm < c.slots - s.slotsInUseLocked
      · simp [hfree, hwarm, hlt]
      · simp [hfree, hwarm, hlt]

theorem Impl.enterProfile_spec (s : Impl) (p : Profile) :
    (∃ free, s.enterProfile p = (s, false, free)) ∨
    ((p.maxConcurrency > 0 → (s.profileUse p.name : Int) < p.maxConcurrency) ∧
      ∃ s' free, s.enterProfile p = (s', true, free) ∧ s'.books = { s.books with
        profileUse := Function.update s.profileUse p.name (s.profileUse p.name + 1) }) := by
  unfold Impl.enterProfile
  by_cases hmax : p.maxConcurrency > 0 ∧ (s.profileUse p.name : Int) ≥ p.maxConcurrency
  · exact .inl ⟨s.profileFree, if_pos hmax⟩
  · exact .inr ⟨by omega, _, _, if_neg hmax, rfl⟩

theorem Impl.convert_spec (s : Impl) (r : Nat) (h : Handle) :
    (r ∈ s.reservations ∧ ∃ s', s.convert r h = (s', true) ∧ s'.books = { s.books with
      reservations := s.reservations.erase r
      allocations := s.allocations.insert h.id h }) ∨ s.convert r h = (s, false) := by
  unfold Impl.convert
  by_cases hr : r ∈ s.reservations
  · exact .inl ⟨hr, _, if_pos hr, rfl⟩
  · exact .inr (if_neg hr)

/-- Returning a unit takes one from a Profile's use, down to none. -/
theorem Impl.books_releaseProfileLocked (s : Impl) (name : String) :
    (s.releaseProfileLocked name).books
      = { s.books with profileUse := s.books.freed name } := by
  have huse : (if s.profileUse name > 1 then s.profileUse name - 1 else 0)
      = s.profileUse name - 1 := by
    split <;> omega
  unfold releaseProfileLocked
  rw [huse]
  rfl

theorem Impl.finish_spec (s : Impl) (h : Handle) :
    (h.id ∈ s.allocations ∧ ∃ s', s.finish h = (s', true) ∧ s'.books = { s.books with
      allocations := s.allocations.erase h.id
      profileUse := s.books.freed h.alloc.profile }) ∨ s.finish h = (s, false) := by
  unfold Impl.finish
  by_cases hh : h.id ∈ s.allocations
  · have hrel := Impl.books_releaseProfileLocked
      { s with
        allocations := s.allocations.erase h.id
        placements := s.placements.erase h.alloc.vmUID } h.alloc.profile
    refine .inl ⟨hh, _, if_pos hh, ?_⟩
    split <;> exact hrel
  · exact .inr (if_neg hh)

/-- A new Handle takes the next number and starts without a lease-gone mark. -/
theorem Impl.books_newHandle (s : Impl) (alloc : Allocation) :
    (s.newHandle alloc).1.books = { s.books with
      nextID := s.nextID + 1
      gone := Function.update s.books.gone (s.nextID + 1) false } := by
  ext id
  · rfl
  · rfl
  · rfl
  · rfl
  · show (update s.heap (s.nextID + 1) _ id).leaseGone
      = update s.books.gone (s.nextID + 1) false id
    by_cases heq : id = s.nextID + 1
    · rw [heq, update_self, update_self]
    · rw [update_of_ne heq, update_of_ne heq]
      rfl

theorem Impl.books_markLeaseGone (s : Impl) (h : Handle) :
    (s.markLeaseGone h).books
      = { s.books with gone := Function.update s.books.gone h.id true } := by
  ext id
  · rfl
  · rfl
  · rfl
  · rfl
  · show (update s.heap h.id _ id).leaseGone
      = update s.books.gone h.id true id
    by_cases heq : id = h.id
    · rw [heq, update_self, update_self]
    · rw [update_of_ne heq, update_of_ne heq]
      rfl

theorem releaseInBackground_spec (s : Impl) (lease : Lease) (fs : List Frame) :
    ∃ n, releaseInBackground s lease fs = some n ∧ n.impl.books = s.books ∧
      n.tokens = fs.filterMap Frame.token ∧ n.booked = [.releaseStarted lease.id] := by
  unfold releaseInBackground
  have hb := s.books_inBackground
  rcases hin : s.inBackground with ⟨s', b⟩
  rw [hin] at hb
  cases b with
  | true => exact ⟨_, rfl, hb, by simp [Next.tokens, Frame.token], rfl⟩
  | false =>
    refine ⟨_, rfl, hb, ?_, rfl⟩
    simp only [Next.tokens, List.flatten_nil, List.append_nil]
    rfl

/-! ## Every step is a move -/

theorem Move.goto {f : Frame} {fs : List Frame} {s' : Impl} (hn : Next.goto s' fs = some n)
    (hb : s'.books = s.books) (ht : fs.filterMap Frame.token = f.token.toList) : Move c s f n := by
  cases hn
  exact .quiet hb (by simpa [Next.tokens] using ht) rfl

theorem reserve_move {pc : ReservePc} (h : stepReserve c s pc a = some n) :
    Move c s (.reserve pc) n := by
  unfold stepReserve at h
  split at h
  -- called, checkingState, checkingContact, counting: nothing is taken yet
  · split at h <;> exact .goto h rfl rfl
  · split at h
    · cases h
      exact .quiet rfl rfl rfl
    all_goals exact .goto h rfl rfl
  · split at h
    · exact .goto h rfl rfl
    · cases h
      exact .quiet rfl rfl rfl
  · exact .goto h rfl rfl
  -- granting
  · rename_i warm
    rcases s.grant_spec c warm with ⟨reason, hgrant⟩ | ⟨hfree, hgrant⟩
    · rw [hgrant] at h
      cases h
      exact .quiet rfl rfl rfl
    · rw [hgrant] at h
      cases h
      exact .granted hfree rfl rfl rfl rfl
  · cases h

theorem releaseReservation_move (s : Impl) (r : Nat) (hn : ret (s.releaseReservation r) = some n) :
    Move c s (.releaseReservation r) n := by
  cases hn
  refine .dropped (s.reservations.erase r) ?_ rfl rfl rfl rfl
  rw [AList.keys_erase]
  exact List.erase_subset

/-! ### Functions that never touch the books -/

/-- The functions that take nothing and pass nothing on. -/
def Frame.bookless : Frame → Bool
  | .allocateCalled _ _ _ | .releaseLease _ _ | .heartbeatStart _ | .heartbeatLoop _ _ _
  | .heartbeatExit _ | .checkLease _ _ | .agentProbeLoop _ _ | .recordProbe _ _
  | .hostUnhealthy _ _ | .abortRunning _ | .wgDone => true
  | _ => false

section Bookless

variable {f : Frame} (hf : f.bookless = true)
include hf

theorem Runs.books_eq {s' : Impl} (h : Runs c s f s') : s'.books = s.books := by
  cases h with
  | reads | spawn | wgDone => rfl
  | stopHeartbeat => exact s.books_stopHeartbeat _
  | cancelHeartbeat => exact s.books_cancelHeartbeat _
  | loopRenews | checkRenews => exact s.books_setLease _ _
  | agentFails | hostFails | abortFails => exact s.books_fail _ _
  | recordProbe => exact s.books_recordProbe _ _ _
  | finish hends =>
    cases f with
    | release | endAllocation | retain | leaseLost => cases hf
    | _ => cases hends
  | _ => cases hf

theorem Leads.token_eq {g : Frame} (h : Leads c s a f g) : g.token = none := by
  cases h with
  | allocateCalled | releaseLease | heartbeatBegins | heartbeatLoop | loopExpired | loopGone
  | checkLease | checkLost | agentProbeLoop | agentEnds | down | hostUnhealthy | hostEnds
  | abortRunning | abortEnds | goroutine => rfl
  | _ => cases hf

theorem Says.not_booked {o : Obs} (h : Says s f a o) : o.booked = false := by
  cases h with
  | allocateRefused | ladderReleased | ladderGone | ladderUsedUp | ladderCutShort | loopAnswered
  | loopExpired | loopGone | checkAnswered | checkLost => rfl
  | _ => cases hf

theorem bookless_move (h : step c s f a = some n) : Move c s f n := by
  have hs := step_spec h
  have htoken : f.token = none := by
    cases f with
    | allocate | release | endAllocation | retain | retainThenRelease | leaseLost => cases hf
    | _ => rfl
  refine .quiet (hs.runs.books_eq hf) ?_ ?_
  · rw [htoken]
    exact List.filterMap_eq_nil_iff.mpr fun g hg => (hs.leads g hg).token_eq hf
  · refine List.filter_eq_nil_iff.mpr fun o ho => ?_
    rw [(hs.seen o ho).not_booked hf]
    exact Bool.false_ne_true

end Bookless

variable {h : Handle}

/-! ### Functions that do

`Run` touches the books once, when `shutdown` drops the Reservations. -/

theorem run_move {pc : RunPc} (h : stepRun c s pc a = some n) : Move c s (.run pc) n := by
  unfold stepRun at h
  split at h
  -- starting
  · split at h <;> exact .goto h rfl rfl
  -- running, stopping, clearing, draining
  · exact .goto h rfl rfl
  · exact .goto h rfl rfl
  · cases h
    exact .dropped ∅ (List.nil_subset _) rfl rfl rfl rfl
  · exact .goto h s.books_drained rfl
  -- awaiting
  · split at h
    · exact .goto h rfl rfl
    · cases h
  · split at h
    · exact .goto h rfl rfl
    · cases h
  -- closing, cancelling, waiting
  · exact .goto h rfl rfl
  · exact .goto h rfl rfl
  · split at h
    · exact .goto h rfl rfl
    · cases h
  · cases h

/-- `Release` and `endAllocation`: who ended the Allocation hands its Lease
back, unless it is gone. -/
theorem end_move {frame : EndPc → Frame} {miss : List Frame}
    (htoken : ∀ pc, (frame pc).token = pc.token h) (hhandle : ∀ pc, h ∈ (frame pc).handles)
    (hmiss : miss.filterMap Frame.token = []) {pc : EndPc}
    (hn : stepEnd frame miss s h pc a = some n) : Move c s (frame pc) n := by
  unfold stepEnd at hn
  split at hn
  -- finishing
  · rcases s.finish_spec h with ⟨hh, s', hfin, hb⟩ | hfin
    · rw [hfin] at hn
      cases hn
      exact .finished h (htoken _) (hhandle _) hh hb
        (by simp [Next.tokens, htoken, EndPc.token]) rfl
    · rw [hfin] at hn
      exact .goto hn rfl (by simp [hmiss, htoken, EndPc.token])
  -- stoppingOnly, stopping
  · exact .goto hn (s.books_stopHeartbeat h) (by simp [htoken, EndPc.token])
  · exact .goto hn (s.books_stopHeartbeat h) (by simp [htoken, EndPc.token])
  -- checkingGone
  · split at hn
    · rename_i hgone
      cases hn
      exact .letGo h (.inl (htoken _)) hgone rfl rfl rfl
    · exact .goto hn rfl (by simp [htoken, EndPc.token])
  -- releasing
  · obtain ⟨n', hn', hb, ht, ho⟩ := releaseInBackground_spec s (s.lease h) []
    rw [hn'] at hn
    cases hn
    exact .handedBack h (.inl (htoken _)) hb ht ho
  · cases hn

theorem retain_move {pc : RetainPc} (hn : stepRetain c s h pc a = some n) :
    Move c s (.retain h pc) n := by
  unfold stepRetain at hn
  split at hn
  -- called
  · split at hn <;> exact .goto hn rfl rfl
  -- finishing
  · rcases s.finish_spec h with ⟨hh, s', hfin, hb⟩ | hfin
    · rw [hfin] at hn
      cases hn
      exact .finished h rfl (List.mem_singleton_self h) hh hb rfl rfl
    · rw [hfin] at hn
      exact .goto hn rfl rfl
  -- stoppingOnly
  · exact .goto hn (s.books_stopHeartbeat h) rfl
  -- checkingGone
  · split at hn
    · rename_i hgone
      cases hn
      exact .letGo h (.inl rfl) hgone rfl rfl rfl
    · exact .goto hn rfl rfl
  -- starting
  · have hb := s.books_inBackground
    split at hn
    all_goals
      rename_i heq
      rw [heq] at hb
    · cases hn
      exact .kept h rfl hb rfl rfl
    · exact .goto hn hb rfl
  -- stopping
  · exact .goto hn (s.books_stopHeartbeat h) rfl
  -- releasing
  · cases hn
    exact .handedBack h (.inl rfl) rfl rfl rfl
  · cases hn

theorem retainThenRelease_move {pc : KeepPc} (hn : stepRetainThenRelease s h pc a = some n) :
    Move c s (.retainThenRelease h pc) n := by
  unfold stepRetainThenRelease at hn
  split at hn
  -- waiting
  · split at hn
    · exact .goto hn rfl rfl
    · cases hn
  · split at hn
    · exact .goto hn rfl rfl
    · cases hn
  -- stopping
  · exact .goto hn (s.books_stopHeartbeat h) rfl
  -- checkingGone
  · split at hn
    · rename_i hgone
      cases hn
      exact .letGo h (.inr rfl) hgone rfl rfl rfl
    · exact .goto hn rfl rfl
  -- releasing
  · cases hn
    exact .handedBack h (.inr rfl) rfl rfl rfl
  · cases hn

theorem leaseLost_move {cause : Cause} {pc : LostPc} (hn : stepLeaseLost s h cause pc a = some n) :
    Move c s (.leaseLost h cause pc) n := by
  unfold stepLeaseLost at hn
  split at hn
  · cases hn
    exact .marked h rfl (List.mem_singleton_self h) (s.books_markLeaseGone h) rfl rfl
  · exact .goto hn (s.books_fail h cause) rfl
  · rcases s.finish_spec h with ⟨hh, s', hfin, hb⟩ | hfin
    · rw [hfin] at hn
      cases hn
      exact .lost h rfl (List.mem_singleton_self h) hh hb rfl rfl
    · rw [hfin] at hn
      cases hn
      exact .late h rfl rfl rfl rfl
  · cases hn

/-- `Allocate` takes a unit, a Lease and a number, in this order, and passes
all of them on together or one by one on its way out. -/
theorem allocate_move {q : Request} {pc : AllocatePc} (h : stepAllocate c s q pc a = some n) :
    Move c s (.allocate q pc) n := by
  unfold stepAllocate at h
  split at h
  -- entering
  · rcases s.enterProfile_spec q.p with ⟨free, hent⟩ | ⟨hm, s', free, hent, hb⟩
    · rw [hent] at h
      exact .goto h rfl rfl
    · rw [hent] at h
      cases h
      exact .entered q.p ⟨q, rfl, rfl⟩ hm hb rfl rfl
  -- limited: a unit was returned, the context is done, the deadline has passed
  · split at h
    · exact .goto h rfl rfl
    · cases h
  · cases h
    exact .quiet rfl rfl rfl
  · split at h
    · cases h
      exact .quiet rfl rfl rfl
    · cases h
  -- claiming
  · split at h
    · rename_i claim
      cases h
      exact .claimed q.p.name claim.leaseID rfl rfl rfl rfl
    all_goals exact .goto h rfl rfl
  -- retrying: the backoff, a wake-up, the deadline, the context
  · split at h
    · exact .goto h rfl rfl
    · cases h
  · exact .goto h rfl rfl
  · split at h
    · exact .goto h rfl rfl
    · cases h
  · exact .goto h rfl rfl
  -- checking
  · simp only at h
    split at h <;> exact .goto h rfl rfl
  -- placing
  · obtain ⟨r, -, hr⟩ := Option.bind_eq_some_iff.mp h
    cases r <;> exact .goto hr rfl rfl
  -- numbering
  · rename_i claim lease claimedAt placement
    cases h
    exact .numbered q.p.name lease.id q.r _ rfl rfl (s.books_newHandle _) rfl rfl
  -- converting
  · rename_i hd
    rcases s.convert_spec q.r hd with ⟨hr, s', hconv, hb⟩ | hconv
    · rw [hconv] at h
      cases h
      exact .converted q.p.name q.r hd ⟨q, rfl, rfl, rfl⟩ hr hb rfl rfl
    · rw [hconv] at h
      cases h
      exact .refused q.p.name q.r hd rfl rfl rfl rfl
  -- installing, spawning, probing: the Allocation exists
  · exact .goto h (s.books_installHeartbeat _) rfl
  · have hb := s.books_inBackground
    split at h
    all_goals
      rename_i heq
      rw [heq] at hb
    · cases h
      exact .quiet hb rfl rfl
    · exact .goto h (by rw [Impl.books_cancelHeartbeat, hb]) rfl
  · have hb := s.books_inBackground
    split at h
    · split at h
      all_goals
        rename_i heq
        rw [heq] at hb
      · cases h
        exact .quiet hb rfl rfl
      · exact .goto h hb rfl
    · exact .goto h rfl rfl
  -- returning
  · cases h
    exact .quiet rfl rfl rfl
  -- abandoning
  · rename_i lease e
    obtain ⟨n', hn', hb, ht, ho⟩ := releaseInBackground_spec s lease [.allocate q (.leaving e)]
    rw [hn'] at h
    cases h
    exact .abandoned q.p.name lease.id rfl hb ht ho
  -- leaving
  · cases h
    exact .left q.p.name rfl (s.books_releaseProfileLocked _) rfl rfl
  · cases h

/-- **Every step of the Scheduler is one of the moves.** -/
theorem step_move {f : Frame} (h : step c s f a = some n) : Move c s f n := by
  cases hf : f.bookless with
  | true => exact bookless_move hf h
  | false =>
    cases f with
    | reserve pc => exact reserve_move h
    | releaseReservation r =>
      cases a with
      | go => exact releaseReservation_move s r h
      | _ => cases h
    | allocate q pc => exact allocate_move h
    | release hd pc | endAllocation hd pc =>
      exact end_move (fun _ => rfl) (fun _ => List.mem_singleton_self _) rfl h
    | retain hd pc => exact retain_move h
    | retainThenRelease hd pc => exact retainThenRelease_move h
    | leaseLost hd cause pc => exact leaseLost_move h
    | run pc => exact run_move h
    | _ => cases hf

end FlintlockRunner.Scheduler

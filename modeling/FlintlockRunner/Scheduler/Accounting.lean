import FlintlockRunner.Scheduler.Refine

/-!
# Slots, Profile units and Leases over every interleaving

The three accounting results, in the words of the source: they speak of the
Reservation and Allocation tables, of `profileUse` and of the functions in
flight. Each is read back from the ledger of `Refine.lean`.

- `slots_accounted`: Reservations and Allocations stay within the Slots, and
  each granted Slot is held once, then returned for good;
- `profileUse_accounted`: a Profile's use is its live Allocations and the
  `Allocate`s inside it;
- `lease_accounted`: a claimed Lease is released at most once and never
  forgotten.
-/

namespace FlintlockRunner.Scheduler

open List Threads

variable {c : Settings} {s t : Sys}

/-! ## Slots -/

/-- The Slot of Reservation `r` is held by the live Allocation of `h`. -/
def Sys.heldBy (s : Sys) (r : Nat) (h : Handle) : Prop :=
  h ∈ s.impl.liveHandles ∧ h.alloc.reservationID = r

/-- The Slot of Reservation `r` is held by nobody. -/
def Sys.returned (s : Sys) (r : Nat) : Prop :=
  r ∉ s.impl.reservations ∧ ∀ h, ¬ s.heldBy r h

variable {l : String} {h : Handle} {r : Nat} {a : Answer}

theorem Named.live_created (hN : Named s) (hh : h ∈ s.impl.liveHandles) : .created h ∈ s.trace := by
  obtain ⟨k, hk⟩ := Impl.mem_liveHandles.mp hh
  exact (hN.live k h hk).2

theorem Named.live_mem (hN : Named s) (hh : h ∈ s.impl.liveHandles) :
    h.id ∈ s.impl.allocations := by
  obtain ⟨k, hk⟩ := Impl.mem_liveHandles.mp hh
  obtain ⟨rfl, -⟩ := hN.live k h hk
  exact AList.lookup_isSome.mp (by rw [hk]; rfl)

theorem Named.holding_mem_iff (hN : Named s) (hh : .created h ∈ s.trace) :
    h.holding ∈ s.ledger.holdings ↔ h ∈ s.impl.liveHandles := by
  refine mem_holdingsOf.trans ⟨?_, ?_⟩
  · rintro ⟨k, h', hk, heq⟩
    have hsame : h' = h :=
      hN.created_inj h' h (hN.live k h' hk).2 hh (congrArg Holding.id heq)
    exact Impl.mem_liveHandles.mpr ⟨k, hsame ▸ hk⟩
  · intro hlive
    obtain ⟨k, hk⟩ := Impl.mem_liveHandles.mp hlive
    exact ⟨k, h, hk, rfl⟩

theorem live_of_holding {x : Holding String String} (hx : x ∈ s.ledger.holdings) :
    ∃ h ∈ s.impl.liveHandles, h.holding = x := by
  obtain ⟨k, h, hk, rfl⟩ := mem_holdingsOf.mp hx
  exact ⟨h, Impl.mem_liveHandles.mpr ⟨k, hk⟩, rfl⟩

theorem mem_tickets : r ∈ s.ledger.tickets ↔ r ∈ s.impl.reservations := by
  rw [AList.mem_keys]
  exact mem_toFinset

theorem mem_granted : r ∈ s.ledger.granted ↔ .granted r ∈ s.trace := by
  show r ∈ (s.trace.filterMap Obs.granted?).toFinset ↔ _
  rw [mem_toFinset, mem_filterMap]
  constructor
  · rintro ⟨o, ho, hr⟩
    cases o <;> cases hr
    exact ho
  · intro hr
    exact ⟨_, hr, rfl⟩

theorem Named.heldBy_iff (hN : Named s) (hh : .created h ∈ s.trace) :
    s.heldBy r h ↔ s.ledger.HeldBy r h.holding :=
  and_congr_left fun _ => (hN.holding_mem_iff hh).symm

theorem Named.returned_iff (hN : Named s) : s.returned r ↔ s.ledger.Settled r := by
  refine and_congr (not_congr mem_tickets.symm) ⟨?_, ?_⟩
  · intro hfree x hx
    obtain ⟨h, hlive, rfl⟩ := live_of_holding hx.1
    exact hfree h ⟨hlive, hx.2⟩
  · intro hfree h hheld
    exact hfree h.holding ((hN.heldBy_iff (hN.live_created hheld.1)).mp hheld)

/-- Where a granted Slot is: in its Reservation, in one Allocation, or
nowhere. -/
theorem Accounts.slot_cases (hA : Accounts c s) (r : Nat) :
    (r ∈ s.impl.reservations ∧ ∀ h, ¬ s.heldBy r h) ∨
    (r ∉ s.impl.reservations ∧ ∃! h, s.heldBy r h) ∨ s.returned r := by
  have hled : ∀ {h}, s.heldBy r h → s.ledger.HeldBy r h.holding := fun hheld =>
    (hA.named.heldBy_iff (hA.named.live_created hheld.1)).mp hheld
  by_cases hr : r ∈ s.impl.reservations
  · exact .inl ⟨hr, fun h hheld =>
      hA.slots.ticket_unheld r (mem_tickets.mpr hr) h.holding (hled hheld)⟩
  · by_cases hsome : ∃ h, s.heldBy r h
    · obtain ⟨h, hheld⟩ := hsome
      refine .inr (.inl ⟨hr, h, hheld, fun h' hheld' => ?_⟩)
      have heq := hA.slots.heldBy_unique r _ _ (hled hheld') (hled hheld)
      exact hA.named.created_inj h' h (hA.named.live_created hheld'.1)
        (hA.named.live_created hheld.1) (congrArg Holding.id heq)
    · exact .inr (.inr ⟨hr, not_exists.mp hsome⟩)

/-- One move keeps a returned Slot returned, and a converted one with its
Allocation or returned. -/
theorem slot_next (hA : Accounts c s) {l : Label} (hnext : s.next c l = some t)
    (hr : .granted r ∈ s.trace) :
    (s.returned r → t.returned r) ∧
    ∀ h, s.heldBy r h → t.heldBy r h ∨ t.returned r := by
  have hA' := accounts_next hA hnext
  have hledger : t.ledger = s.ledger ∨
      Ledger.Step c.slots (fun _ _ => True) s.ledger t.ledger :=
    next_ledger hA.named hnext fun _ _ _ _ _ _ _ => trivial
  refine ⟨fun hret => ?_, fun h hheld => ?_⟩
  · have hset := hA.named.returned_iff.mp hret
    refine hA'.named.returned_iff.mpr ?_
    rcases hledger with heq | hstep
    · rwa [heq]
    · exact hstep.settled hA.numbered (mem_granted.mpr hr) hset
  · have hcreated := hA.named.live_created hheld.1
    have hheld' := (hA.named.heldBy_iff hcreated).mp hheld
    have hcreated' := trace_next hnext hcreated
    rw [hA'.named.heldBy_iff hcreated', hA'.named.returned_iff]
    rcases hledger with heq | hstep
    · rw [heq]
      exact .inl hheld'
    · exact hstep.heldBy hA.numbered hA.slots hheld'

theorem slot_path (hA : Accounts c s) {ok : Sys → Label → Prop} (hp : (machine c).Path ok s t)
    (hr : .granted r ∈ s.trace) :
    (s.returned r → t.returned r) ∧
    ∀ h, s.heldBy r h → t.heldBy r h ∨ t.returned r := by
  have hinv : Accounts c t ∧ .granted r ∈ t.trace ∧ (s.returned r → t.returned r) ∧
      ∀ h, s.heldBy r h → t.heldBy r h ∨ t.returned r := by
    refine hp.inv (I := fun t => Accounts c t ∧ .granted r ∈ t.trace ∧
      (s.returned r → t.returned r) ∧ ∀ h, s.heldBy r h → t.heldBy r h ∨ t.returned r)
      ?_ ⟨hA, hr, id, fun h hheld => .inl hheld⟩
    rintro u l v ⟨hAu, hru, hret, hheld⟩ - hnext
    obtain ⟨hret', hheld'⟩ := slot_next hAu hnext hru
    refine ⟨accounts_next hAu hnext, trace_next hnext hru, fun h => hret' (hret h), ?_⟩
    intro h hh
    rcases hheld h hh with hu | hu
    · exact hheld' h hu
    · exact .inr (hret' hu)
  exact hinv.2.2

/-- `convert` leaves the number of Slots in use as it is, whether it finds the
Reservation or not. -/
theorem Accounts.slotsInUse_convert (hA : Accounts c s) {i : Nat} {q : Request} {rest : List Frame}
    (hi : s.threads[i]? = some (.allocate q (.converting h) :: rest))
    (hnext : s.next c (.step i a) = some t) :
    t.impl.slotsInUseLocked = s.impl.slotsInUseLocked := by
  have hf := top_mem hi
  have hnew : h.id ∉ s.impl.allocations := fun hmem =>
    hA.numbered.notMem_holdings (mem_tokens.mpr ⟨_, hf, rfl⟩)
      (hA.named.holding_mem (hA.named.frame _ hf h (mem_singleton_self h)) hmem)
  obtain ⟨n, hn, rfl⟩ : ∃ n, stepAllocate c s.impl q (.converting h) a = some n ∧
      s.apply i rest n = t := by
    rw [Sys.next, hi] at hnext
    exact Option.map_eq_some_iff.mp hnext
  cases a <;> try cases hn
  rcases s.impl.convert_spec q.r h with ⟨hr, s', hconv, hb⟩ | hconv
  · rw [stepAllocate, hconv] at hn
    cases hn
    have hres : s'.reservations = s.impl.reservations.erase q.r := congrArg Books.reservations hb
    have hall : s'.allocations = s.impl.allocations.insert h.id h :=
      congrArg Books.allocations hb
    have hpos : 0 < s.impl.reservations.keys.length :=
      length_pos_of_mem (AList.mem_keys.mp hr)
    show s'.slotsInUseLocked = _
    rw [Impl.slotsInUseLocked, hres, hall, AList.keys_erase, AList.keys_insert,
      erase_of_not_mem (fun hmem => hnew (AList.mem_keys.mpr hmem)),
      length_erase_of_mem (AList.mem_keys.mp hr), length_cons,
      Impl.slotsInUseLocked]
    omega
  · rw [stepAllocate, hconv] at hn
    cases hn
    rfl

/-- **Slots.** In every state of every run, Reservations and Allocations
together stay within the Slots. Converting one into the other does not change
their number. The Slot of each granted Reservation is held by it, or by the one
Allocation it became, or was returned; a returned Slot is not returned again
and never held again. -/
theorem slots_accounted (hs : (machine c).Reach Machine.any s) :
    (s.impl.slotsInUseLocked : Int) ≤ c.slots ∧
    (∀ i q h rest a t, s.threads[i]? = some (.allocate q (.converting h) :: rest) →
      s.next c (.step i a) = some t →
      t.impl.slotsInUseLocked = s.impl.slotsInUseLocked) ∧
    ∀ r, .granted r ∈ s.trace →
      ((r ∈ s.impl.reservations ∧ ∀ h, ¬ s.heldBy r h) ∨
        (r ∉ s.impl.reservations ∧ ∃! h, s.heldBy r h) ∨ s.returned r) ∧
      ∀ t, (machine c).Path Machine.any s t →
        (∀ h, s.heldBy r h → t.heldBy r h ∨ t.returned r) ∧
        (s.returned r → t.returned r) := by
  have hA := accounts_reach hs
  refine ⟨?_, ?_, ?_⟩
  · rw [hA.named.slotsInUse]
    exact_mod_cast hA.slots.capacity
  · intro i q h rest a t hi hnext
    exact hA.slotsInUse_convert hi hnext
  · intro r hr
    refine ⟨hA.slot_cases r, fun t hp => ?_⟩
    exact (slot_path hA hp hr).symm

/-- With the Reservation converted, the one Slot is in use, once. -/
theorem slots_accounted_allocated : ∃ s, (machine oneSlot).Reach Machine.any s ∧
    .granted 1 ∈ s.trace ∧ s.impl.slotsInUseLocked = 1 ∧
    (s.impl.slotsInUseLocked : Int) ≤ oneSlot.slots :=
  have hs := Machine.reach_exec allocateStart_init
    (show ((machine oneSlot).exec allocateStart allocateRun).isSome from rfl)
  ⟨_, hs, by decide, by decide, (slots_accounted hs).1⟩

/-! ## Profile units -/

/-- Between `awaitProfileLimit` and `convert`, or the way out. -/
def AllocatePc.inProfile : AllocatePc → Bool
  | .entering | .limited _ | .installing _ | .spawning _ | .probing _ | .returning _ => false
  | .claiming _ | .retrying _ _ | .checking _ | .placing _ _ _ | .numbering _ _ _ _
  | .converting _ | .abandoning _ _ | .leaving _ => true

variable (name : String)

/-- An `Allocate` for Profile `name` that has entered it and has neither been
converted into an Allocation nor returned. -/
def Frame.entered : Frame → Bool
  | .allocate q pc => pc.inProfile && decide (q.p.name = name)
  | _ => false

theorem Frame.entered_iff (f : Frame) (name : String) :
    f.entered name = true ↔ ∃ t, f.token = some t ∧ t.quota? = some name := by
  have hend : ∀ {h : Handle} {pc : EndPc} {t}, pc.token h = some t → t.quota? = none := by
    intro h pc t ht
    cases pc <;> cases ht <;> rfl
  cases f with
  | allocate q pc =>
    cases pc <;>
      simp [entered, AllocatePc.inProfile, token, Request.token]
  | release h pc | endAllocation h pc =>
    simp only [entered, token, Bool.false_eq_true, false_iff]
    rintro ⟨t, ht, hq⟩
    rw [hend ht] at hq
    cases hq
  | retain h pc =>
    cases pc <;> simp [entered, token, RetainPc.token]
  | leaseLost h cause pc =>
    cases pc <;> simp [entered, token, LostPc.token]
  | _ => simp [entered, token]

theorem countP_tokens (s : Sys) (name : String) :
    s.ledger.tokens.countP (·.quota? = some name)
      = (frames s.threads).countP (·.entered name) := by
  show ((frames s.threads).filterMap Frame.token).countP _ = _
  induction frames s.threads using Multiset.induction with
  | empty => rfl
  | cons f fs ih =>
    rw [Multiset.countP_cons, ← ih]
    cases hf : f.token with
    | none =>
      have hout : ¬ f.entered name = true := by simp [Frame.entered_iff, hf]
      rw [Multiset.filterMap_cons_none _ _ hf, if_neg hout, Nat.add_zero]
    | some t =>
      have hiff : f.entered name = true ↔ t.quota? = some name := by
        simp [Frame.entered_iff, hf]
      rw [Multiset.filterMap_cons_some _ _ _ hf, Multiset.countP_cons]
      simp only [hiff]

theorem Named.card_holdings (hN : Named s) (p : Holding String String → Prop) [DecidablePred p] :
    (s.ledger.holdings.filter p).card = s.impl.liveHandles.countP (fun h => p h.holding) := by
  have hfilter : (holdingsOf s.impl.allocations).filter p
      = ((s.impl.allocations.entries.map fun e => e.2.holding).filter p).toFinset := by
    ext x
    simp [holdingsOf]
  show ((holdingsOf s.impl.allocations).filter p).card = _
  rw [hfilter, toFinset_card_of_nodup (hN.holdings_nodup.filter _),
    ← countP_eq_length_filter, Impl.liveHandles, countP_map, countP_map]
  rfl

/-- The Profile an `Allocate` in flight was called with. -/
def Frame.profile? : Frame → Option Profile
  | .allocateCalled _ _ p => p
  | .allocate q _ => some q.p
  | _ => none

/-- A step goes on with the Profile its own frame has. -/
def Next.profiles (n : Next) : List Profile :=
  (n.frames ++ n.spawned.flatten).filterMap Frame.profile?

theorem Leads.profile {s : Impl} {f g : Frame} (h : Leads c s a f g) {p : Profile}
    (hp : g.profile? = some p) : f.profile? = some p := by
  cases h with
  | allocateCalled r job p' hrun => exact hp
  | allocate q hpc => exact hp
  | _ => cases hp

theorem step_profiles {s : Impl} {f : Frame} {n : Next} (h : step c s f a = some n) :
    n.profiles ⊆ f.profile?.toList := by
  intro p hp
  obtain ⟨g, hg, hgp⟩ := mem_filterMap.mp hp
  exact Option.mem_toList.mpr (((step_spec h).leads g hg).profile hgp)

/-- Every `Allocate` for Profile `name` is called with the maximum `m`: the
configuration is fixed. -/
def calledWith (m : Int) (_ : Sys) : Label → Prop
  | .call (.allocate _ _ (some p)) => p.name = name → p.maxConcurrency = m
  | _ => True

instance (name : String) (m : Int) (s : Sys) : DecidablePred (calledWith name m s) := fun l => by
  unfold calledWith
  split <;> infer_instance

/-- Every `Allocate` in flight for Profile `name` has the maximum `m`. -/
def FixedMax (m : Int) (s : Sys) : Prop :=
  ∀ f ∈ frames s.threads, ∀ p ∈ f.profile?, p.name = name → p.maxConcurrency = m

theorem fixedMax_next {name : String} {m : Int} (hF : FixedMax name m s) {l : Label}
    (hok : calledWith name m s l) (hnext : s.next c l = some t) : FixedMax name m t := by
  cases moved hnext with
  | call call _ =>
    intro f hf p hp hname
    rcases mem_start.mp hf with rfl | hf
    · cases call with
      | allocate r job p' =>
        cases hp
        exact hok hname
      | _ => cases hp
    · exact hF f hf p hp hname
  | step i a f rest n hi hstep =>
    intro f' hf' p hp hname
    rcases mem_of_frames_advance hi hf' with hin | hin
    · have hmem := step_profiles hstep (mem_filterMap.mpr ⟨f', hin, hp⟩)
      exact hF f (top_mem hi) p (Option.mem_toList.mp hmem) hname
    · exact hF f' hin p hp hname
  | tick d =>
    exact hF

/-- With a fixed positive maximum the use of a Profile stays within it. -/
theorem profileUse_le {name : String} {m : Int} (hm : 0 < m)
    (hs : (machine c).Reach (calledWith name m) s) : (s.impl.profileUse name : Int) ≤ m := by
  have hinv : Named s ∧ FixedMax name m s ∧ (s.ledger.use name : Int) ≤ m := by
    refine hs.inv (I := fun s => Named s ∧ FixedMax name m s ∧ (s.ledger.use name : Int) ≤ m)
      ?_ ?_
    · rintro s ⟨-, now, profiles, hosts, rfl⟩
      refine ⟨named_init _ rfl, fun f hf => ?_, hm.le⟩
      simp [Sys.init] at hf
    · rintro s l t ⟨hN, hF, hle⟩ hok hnext
      refine ⟨named_next hN hnext, fixedMax_next hF hok hnext, ?_⟩
      have hledger : t.ledger = s.ledger ∨ Ledger.Step c.slots
          (fun name' m' => name' = name → m' = m) s.ledger t.ledger := by
        refine next_ledger hN hnext fun i a q pc rest _ hi hname => ?_
        exact hF _ (top_mem hi) q.p rfl hname
      rcases hledger with heq | hstep
      · rwa [heq]
      · exact hstep.use_le (fun m' hm' => hm' rfl) hm hle
  exact hinv.2.2

/-- **Profile units.** In every state of every run, a Profile's use is the
number of its live Allocations and of the `Allocate`s inside it. So where every
`Allocate` for it is called with one positive maximum, no more Allocations of
it are live than that. -/
theorem profileUse_accounted (hs : (machine c).Reach Machine.any s) (name : String) :
    s.impl.profileUse name
      = s.impl.liveHandles.countP (·.alloc.profile = name)
        + (frames s.threads).countP (·.entered name) ∧
    ∀ m : Int, 0 < m → (machine c).Reach (calledWith name m) s →
      (s.impl.liveHandles.countP (·.alloc.profile = name) : Int) ≤ m := by
  have hA := accounts_reach hs
  have huse : s.impl.profileUse name = s.impl.liveHandles.countP (·.alloc.profile = name)
      + (frames s.threads).countP (·.entered name) := by
    have hunits := hA.units name
    rw [Ledger.unitsOut, hA.named.card_holdings, countP_tokens] at hunits
    exact hunits
  refine ⟨huse, fun m hm hs' => ?_⟩
  have hle := profileUse_le hm hs'
  omega

/-- The Profile's one unit is its one live Allocation's. -/
theorem profileUse_accounted_allocated : ∃ s, (machine oneSlot).Reach Machine.any s ∧
    (machine oneSlot).Reach (calledWith "small" 1) s ∧ s.impl.profileUse "small" = 1 ∧
    (s.impl.liveHandles.countP (·.alloc.profile = "small") : Int) ≤ 1 := by
  have hs := Machine.reach_run
    (fun s l => calledWith "small" 1 s l) allocateRun allocateStart_init rfl
  have hany : (machine oneSlot).Reach Machine.any _ := hs.mono fun _ _ _ => trivial
  exact ⟨_, hany, hs, rfl, (profileUse_accounted hany "small").2 1 (by decide) hs⟩

/-! ## Leases -/

/-- The Lease an `Allocate` has claimed and not passed on. -/
def AllocatePc.leaseID? : AllocatePc → Option String
  | .checking claim => some claim.leaseID
  | .placing _ lease _ | .numbering _ lease _ _ | .abandoning lease _ => some lease.id
  | .converting h => some h.alloc.lease.id
  | _ => none

/-- The points of `Release` and `endAllocation` between taking the Allocation
off the table and the end. -/
def EndPc.working : EndPc → Bool
  | .stopping | .checkingGone | .releasing => true
  | .finishing | .stoppingOnly => false

/-- The same for `Retain`. -/
def RetainPc.working : RetainPc → Bool
  | .checkingGone | .starting | .stopping | .releasing => true
  | .called | .finishing | .stoppingOnly => false

/-- An `Allocate` in flight that has claimed Lease `l`. -/
def Frame.allocating (l : String) : Frame → Prop
  | .allocate _ pc => pc.leaseID? = some l
  | _ => False

/-- The step that took the Allocation of Lease `l` off the table, still at
work. (`leaseLost` takes it off in its last section.) -/
def Frame.ending (l : String) : Frame → Prop
  | .release h pc | .endAllocation h pc => pc.working = true ∧ h.alloc.lease.id = l
  | .retain h pc => pc.working = true ∧ h.alloc.lease.id = l
  | _ => False

/-- A `retainThenRelease` of Lease `l`. -/
def Frame.retaining (l : String) : Frame → Prop
  | .retainThenRelease h _ => h.alloc.lease.id = l
  | _ => False

/-- A Handle of Lease `l` is marked lease-gone. -/
def Sys.markedGone (s : Sys) (l : String) : Prop :=
  ∃ h, .created h ∈ s.trace ∧ h.alloc.lease.id = l ∧ s.impl.leaseIsGone h = true

/-- Who has an asset in the ledger, in the Scheduler's words. -/
theorem Frame.asset_cases {f : Frame} {t : Token String String} (hf : f.token = some t)
    (ha : t.asset? = some l) : f.allocating l ∨ f.ending l ∨ f.retaining l := by
  cases f with
  | allocate q pc => cases pc <;> cases hf <;> cases ha <;> exact .inl rfl
  | release h pc | endAllocation h pc =>
    cases pc <;> cases hf <;> cases ha <;> exact .inr (.inl ⟨rfl, rfl⟩)
  | retain h pc => cases pc <;> cases hf <;> cases ha <;> exact .inr (.inl ⟨rfl, rfl⟩)
  | retainThenRelease h pc =>
    cases hf
    cases ha
    exact .inr (.inr rfl)
  | leaseLost h cause pc => cases pc <;> cases hf <;> cases ha
  | _ => cases hf

theorem Frame.allocating_iff {f : Frame} :
    f.allocating l ↔ ∃ t, f.token = some t ∧ t.quota?.isSome ∧ t.asset? = some l := by
  constructor
  · intro hf
    cases f with
    | allocate q pc => cases pc <;> cases hf <;> exact ⟨_, rfl, rfl, rfl⟩
    | _ => cases hf
  · rintro ⟨t, hf, hq, ha⟩
    cases f with
    | allocate q pc => cases pc <;> cases hf <;> cases ha <;> rfl
    | release h pc | endAllocation h pc => cases pc <;> cases hf <;> cases hq
    | retain h pc => cases pc <;> cases hf <;> cases hq
    | retainThenRelease h pc =>
      cases hf
      cases hq
    | leaseLost h cause pc => cases pc <;> cases hf <;> cases hq
    | _ => cases hf

theorem inHand_iff : s.ledger.InHand l ↔ ∃ f ∈ frames s.threads, f.allocating l := by
  constructor
  · rintro ⟨t, ht, hq, ha⟩
    obtain ⟨f, hf, hft⟩ := mem_tokens.mp ht
    exact ⟨f, hf, Frame.allocating_iff.mpr ⟨t, hft, hq, ha⟩⟩
  · rintro ⟨f, hf, hl⟩
    obtain ⟨t, hft, hq, ha⟩ := Frame.allocating_iff.mp hl
    exact ⟨t, mem_tokens.mpr ⟨f, hf, hft⟩, hq, ha⟩

theorem mem_handedBack : l ∈ s.ledger.handedBack ↔ .releaseStarted l ∈ s.trace := by
  show l ∈ (s.trace.filterMap Obs.releaseStarted? : Multiset String) ↔ _
  rw [Multiset.mem_coe, mem_filterMap]
  constructor
  · rintro ⟨o, ho, hl⟩
    cases o <;> cases hl
    exact ho
  · intro hl
    exact ⟨_, hl, rfl⟩

theorem count_releaseStarted (trace : List Obs) (l : String) :
    trace.count (.releaseStarted l) = (trace.filterMap Obs.releaseStarted?).count l := by
  induction trace with
  | nil => rfl
  | cons o trace ih =>
    cases o with
    | releaseStarted l' =>
      show _ = (l' :: trace.filterMap Obs.releaseStarted?).count l
      rw [count_cons, count_cons, ih]
      simp
    | _ =>
      show _ = (trace.filterMap Obs.releaseStarted?).count l
      rw [count_cons_of_ne (by simp), ih]

theorem mem_acquired (hl : .claimed l ∈ s.trace) : l ∈ s.ledger.acquired :=
  Multiset.mem_coe.mpr (mem_filterMap.mpr ⟨_, hl, rfl⟩)

theorem markedGone_of_lost (hl : s.ledger.Lost l) : s.markedGone l := by
  obtain ⟨x, hx, rfl, hgone⟩ := hl
  obtain ⟨h, hh, rfl⟩ := mem_map.mp (mem_toFinset.mp hx)
  obtain ⟨o, ho, hoh⟩ := mem_filterMap.mp hh
  cases o <;> cases hoh
  exact ⟨h, ho, rfl, hgone⟩

theorem Accounts.lease_cases (hA : Accounts c s) (hl : .claimed l ∈ s.trace) :
    (∃ f ∈ frames s.threads, f.allocating l) ∨
    (∃ h ∈ s.impl.liveHandles, h.alloc.lease.id = l) ∨
    (∃ f ∈ frames s.threads, f.ending l) ∨
    .releaseStarted l ∈ s.trace ∨
    (∃ f ∈ frames s.threads, f.retaining l) ∨ s.markedGone l := by
  rcases hA.assets_kept l (mem_acquired hl) with hpos | hlost
  · unfold Ledger.carriers at hpos
    by_cases hhold : 0 < (s.ledger.holdings.filter (·.asset = l)).card
    · obtain ⟨x, hmem⟩ := Finset.card_pos.mp hhold
      obtain ⟨hx, rfl⟩ := Finset.mem_filter.mp hmem
      obtain ⟨h, hlive, rfl⟩ := live_of_holding hx
      exact .inr (.inl ⟨h, hlive, rfl⟩)
    by_cases htok : 0 < s.ledger.tokens.countP (·.asset? = some l)
    · obtain ⟨t, ht, ha⟩ := Multiset.countP_pos.mp htok
      obtain ⟨f, hf, hft⟩ := mem_tokens.mp ht
      rcases Frame.asset_cases hft ha with hfl | hfl | hfl
      · exact .inl ⟨f, hf, hfl⟩
      · exact .inr (.inr (.inl ⟨f, hf, hfl⟩))
      · exact .inr (.inr (.inr (.inr (.inl ⟨f, hf, hfl⟩))))
    · have hback : 0 < s.ledger.handedBack.count l := by omega
      exact .inr (.inr (.inr (.inl (mem_handedBack.mp (Multiset.count_pos.mp hback)))))
  · exact .inr (.inr (.inr (.inr (.inr (markedGone_of_lost hlost)))))

/-- An `Allocate` lets go of the Lease it claimed by converting it into an
Allocation or by starting its release. -/
theorem allocating_next (hA : Accounts c s) {lb : Label} (hnext : s.next c lb = some t)
    (hf : ∃ f ∈ frames s.threads, f.allocating l) :
    (∃ f ∈ frames t.threads, f.allocating l) ∨
    (∃ h ∈ t.impl.liveHandles, h.alloc.lease.id = l) ∨ .releaseStarted l ∈ t.trace := by
  have hledger : t.ledger = s.ledger ∨
      Ledger.Step c.slots (fun _ _ => True) s.ledger t.ledger :=
    next_ledger hA.named hnext fun _ _ _ _ _ _ _ => trivial
  have hin := inHand_iff.mpr hf
  rcases hledger with heq | hstep
  · exact .inl (inHand_iff.mp (heq ▸ hin))
  · rcases hstep.inHand hin with hin | ⟨x, hx, rfl⟩ | hback
    · exact .inl (inHand_iff.mp hin)
    · obtain ⟨h, hlive, rfl⟩ := live_of_holding hx
      exact .inr (.inl ⟨h, hlive, rfl⟩)
    · exact .inr (.inr (mem_handedBack.mp hback))

/-- **Leases.** Assume the Pool Manager never gives out a Lease id twice. In
every state of every run, the release ladder was started at most once for each
claimed Lease. An `Allocate` gives the Lease it claimed up only by making it an
Allocation's or by starting the ladder. And once no `Allocate` has it, it is no
live Allocation's, and the step that ended that Allocation is done, the ladder
was started, or a `retainThenRelease` is pending, or its Handle is marked
lease-gone. -/
theorem lease_accounted (hs : (machine c).Reach Machine.any s)
    (hdistinct : (s.trace.filterMap Obs.claimed?).Nodup) {l : String} (hl : .claimed l ∈ s.trace) :
    s.trace.count (.releaseStarted l) ≤ 1 ∧
    (∀ lb t, s.next c lb = some t → (∃ f ∈ frames s.threads, f.allocating l) →
      (∃ f ∈ frames t.threads, f.allocating l) ∨
      (∃ h ∈ t.impl.liveHandles, h.alloc.lease.id = l) ∨ .releaseStarted l ∈ t.trace) ∧
    ((¬ ∃ f ∈ frames s.threads, f.allocating l) →
      (¬ ∃ h ∈ s.impl.liveHandles, h.alloc.lease.id = l) →
      (¬ ∃ f ∈ frames s.threads, f.ending l) →
      .releaseStarted l ∈ s.trace ∨ (∃ f ∈ frames s.threads, f.retaining l) ∨
        s.markedGone l) := by
  have hA := accounts_reach hs
  refine ⟨?_, ?_, ?_⟩
  · have hle := hA.assets_le l
    have hone : s.ledger.acquired.count l ≤ 1 :=
      Multiset.nodup_iff_count_le_one.mp (Multiset.coe_nodup.mpr hdistinct) l
    have hcount : s.trace.count (.releaseStarted l) = s.ledger.handedBack.count l := by
      show _ = Multiset.count l (s.trace.filterMap Obs.releaseStarted? : Multiset String)
      rw [Multiset.coe_count]
      exact count_releaseStarted s.trace l
    unfold Ledger.carriers at hle
    omega
  · intro lb t hnext hf
    exact allocating_next hA hnext hf
  · intro hnot hlive hend
    rcases hA.lease_cases hl with h | h | h | h
    · exact absurd h hnot
    · exact absurd h hlive
    · exact absurd h hend
    · exact h

/-- The Job's context is done when the claim comes back, so the Lease is
released. -/
def abandonRun : List Label :=
  allocateRun.take 12 ++ ([.step 2 (.ctx true), .step 2 .go, .step 2 .go] : List Label)

/-- The ladder of an abandoned Lease was started, once. -/
theorem lease_accounted_abandoned : ∃ s, (machine oneSlot).Reach Machine.any s ∧
    .claimed "l" ∈ s.trace ∧ .releaseStarted "l" ∈ s.trace ∧
    s.trace.count (.releaseStarted "l") ≤ 1 :=
  have hs := Machine.reach_exec allocateStart_init
    (show ((machine oneSlot).exec allocateStart abandonRun).isSome from rfl)
  ⟨_, hs, by decide, by decide, (lease_accounted hs (by decide) (by decide)).1⟩

/-! ## The ledger -/

/-- **Every run of the Scheduler is a run of its ledger**, in which a Profile is entered
with the limits that the run's own `Allocate`s were called with. -/
theorem run_ledger {admits : String → Int → Prop} {ok : Sys → Label → Prop}
    (hadm : ∀ {s i a q pc rest}, ok s (.step i a) →
      s.threads[i]? = some (.allocate q pc :: rest) → admits q.p.name q.p.maxConcurrency)
    (hs : (machine c).Reach Machine.any s) (hp : (machine c).Path ok s t) :
    Relation.ReflTransGen (Ledger.Step c.slots admits) s.ledger t.ledger := by
  have hrun : Accounts c t ∧
      Relation.ReflTransGen (Ledger.Step c.slots admits) s.ledger t.ledger := by
    refine hp.inv (I := fun t => Accounts c t ∧
      Relation.ReflTransGen (Ledger.Step c.slots admits) s.ledger t.ledger) ?_
      ⟨accounts_reach hs, .refl⟩
    rintro u l v ⟨hA, hrun⟩ hok hnext
    refine ⟨accounts_next hA hnext, ?_⟩
    rcases next_ledger hA.named hnext fun i a q pc rest hl => hadm (hl ▸ hok) with heq | hstep
    · rwa [heq]
    · exact hrun.tail hstep
  exact hrun.2

theorem run_ledger_abandoned : ∃ t, (machine oneSlot).exec allocateStart abandonRun = some t ∧
    t.ledger.handedBack = {"l"} ∧ Relation.ReflTransGen
      (Ledger.Step oneSlot.slots fun _ _ => True) allocateStart.ledger t.ledger :=
  have hrun : (machine oneSlot).exec allocateStart abandonRun = some _ := rfl
  ⟨_, hrun, by decide, run_ledger (fun _ _ => trivial) ⟨_, allocateStart_init, .refl _⟩
    (Machine.path_of_exec hrun)⟩

end FlintlockRunner.Scheduler

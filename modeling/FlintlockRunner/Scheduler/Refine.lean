import FlintlockRunner.Scheduler.Books

/-!
# The Scheduler keeps a ledger

`Sys.ledger` reads a ledger of tickets, quotas and assets (`Base/Ledger.lean`)
off a Scheduler: Reservations are the tickets, Allocations the holdings, a
Profile's concurrency units its quota, Leases the assets, and the functions in
flight the parties. **`next_ledger`**: every move of the Scheduler is a step of
that ledger, or leaves it as it is. Whatever is true of every ledger run is
then true of every interleaving of the Scheduler.

What the refinement needs besides is that Handles are what they are in Go,
pointers to one object each: two of the same number are the same (`Named`).
-/

namespace FlintlockRunner.Scheduler

open List Multiset Next Threads

variable {c : Settings} {s : Impl} {n : Next} {a : Answer} {f : Frame}

/-! ## Which Handles a step names -/

/-- The Handle `Allocate` returned. -/
def Obs.allocated? : Obs → Option Handle
  | .allocated h => some h
  | _ => none

/-- The Handles a step passes on: to frames, and to the caller of
`Allocate`. -/
def Next.handles (n : Next) : List Handle :=
  (n.frames ++ n.spawned.flatten).flatMap Frame.handles ++ n.obs.filterMap Obs.allocated?

/-- A step names Handles its own frame names, live ones, or the one it
created. -/
def Names (s : Impl) (f : Frame) (n : Next) : Prop :=
  ∀ h ∈ n.handles, h ∈ f.handles ∨ h ∈ s.liveHandles ∨ .created h ∈ n.obs

variable {h : Handle} {rest : List Frame} {l : Label} {i : Nat}

/-- Only the snapshot of `hostUnhealthy` and `abortRunning` names Handles its frame
did not, and those are live; the one that `allocated` numbers is new. -/
theorem Leads.handles {g : Frame} (hl : Leads c s a f g)
    (hnew : ∀ q claim lease claimedAt placement,
      f ≠ .allocate q (.numbering claim lease claimedAt placement)) (hh : h ∈ g.handles) :
    h ∈ f.handles ∨ h ∈ s.liveHandles := by
  cases hl with
  | reserve hpc | releaseLease lease hpc => cases hh
  | allocateCalled r job p hrun => cases hh
  | allocate q hpc =>
    cases hpc with
    | numbered claim lease claimedAt placement alloc hlease => exact absurd rfl (hnew q claim lease claimedAt placement)
    | converted h | installed h | spawned h | unspawned h | probed h => exact .inl hh
    | _ => cases hh
  | hostUnhealthy name hpc =>
    cases hpc with
    | snapshot hperm => exact .inr (hperm.subset hh)
    | other todo hmine | failed h' todo => exact .inl (List.mem_cons_of_mem _ hh)
    | mine todo hmine => exact .inl hh
  | abortRunning hpc =>
    cases hpc with
    | snapshot hperm => exact .inr (hperm.subset hh)
    | other todo hmine | failed h' todo => exact .inl (List.mem_cons_of_mem _ hh)
    | mine todo hmine => exact .inl hh
  | hostEnds name h' todo | abortEnds h' todo =>
    exact .inl (List.mem_cons.mpr (.inl (List.mem_singleton.mp hh)))
  | _ => first | exact .inl hh | cases hh

theorem Says.handle {o : Obs} (hs : Says s f a o) (ho : o.allocated? = some h) : h ∈ f.handles := by
  cases hs with
  | allocated q h' a =>
    cases ho
    exact List.mem_singleton_self _
  | _ => cases ho

theorem step_names (h : step c s f a = some n) : Names s f n := by
  intro hd hhd
  by_cases hnew : ∃ q claim lease claimedAt placement,
      f = .allocate q (.numbering claim lease claimedAt placement)
  · -- the Handle is the one just created
    obtain ⟨q, claim, lease, claimedAt, placement, rfl⟩ := hnew
    cases a <;> cases h
    obtain rfl := List.mem_singleton.mp hhd
    exact .inr (.inr (List.mem_singleton_self _))
  · have hspec := step_spec h
    rcases mem_append.mp hhd with hin | hin
    · obtain ⟨g, hg, hgh⟩ := mem_flatMap.mp hin
      have hnamed := (hspec.leads g hg).handles
        (fun q claim lease claimedAt placement heq =>
          hnew ⟨q, claim, lease, claimedAt, placement, heq⟩) hgh
      exact hnamed.imp_right .inl
    · obtain ⟨o, ho, hoh⟩ := List.mem_filterMap.mp hin
      exact .inl ((hspec.seen o ho).handle hoh)

/-! ## Handles are pointers -/

theorem Impl.mem_liveHandles : h ∈ s.liveHandles ↔ ∃ k, s.allocations.lookup k = some h := by
  simp only [liveHandles, List.mem_map]
  constructor
  · rintro ⟨⟨k, h'⟩, hmem, rfl⟩
    exact ⟨k, AList.mem_lookup_iff.mpr hmem⟩
  · rintro ⟨k, hk⟩
    exact ⟨⟨k, h⟩, AList.mem_lookup_iff.mp hk, rfl⟩

theorem Move.allocations (hm : Move c s f n) {k : Nat} (hk : n.impl.allocations.lookup k = some h) :
    s.allocations.lookup k = some h ∨ k = h.id ∧ h ∈ f.handles := by
  have hbooks : n.impl.books.allocations.lookup k = some h := hk
  cases hm with
  | converted name r h' hf hr hb =>
    obtain ⟨q, rfl, -, -⟩ := hf
    rw [hb] at hbooks
    by_cases heq : k = h'.id
    · subst heq
      rw [AList.lookup_insert, Option.some.injEq] at hbooks
      subst hbooks
      exact .inr ⟨rfl, List.mem_singleton_self _⟩
    · rw [AList.lookup_insert_ne heq] at hbooks
      exact .inl hbooks
  | finished h' hf hfh hh hb | lost h' hf hfh hh hb =>
    rw [hb] at hbooks
    by_cases heq : k = h'.id
    · rw [heq, AList.lookup_erase] at hbooks
      cases hbooks
    · rw [AList.lookup_erase_ne heq] at hbooks
      exact .inl hbooks
  | quiet hb | granted _ hb | dropped _ _ hb | entered _ _ _ hb | left _ _ hb
  | claimed _ _ _ hb | numbered _ _ _ _ _ _ hb | refused _ _ _ _ hb | abandoned _ _ _ hb
  | marked _ _ _ hb | late _ _ hb | kept _ _ hb | handedBack _ _ hb | letGo _ _ _ hb =>
    rw [hb] at hbooks
    exact .inl hbooks

theorem Obs.mem_booked {o : Obs} (ho : o.booked = true) : o ∈ n.obs ↔ o ∈ n.booked := by
  simp [Next.booked, ho]

theorem Move.created (hm : Move c s f n) :
    s.nextID ≤ n.impl.nextID ∧
    ∀ h, .created h ∈ n.obs → h.id = s.nextID + 1 ∧ n.impl.nextID = s.nextID + 1 ∧
      ∀ h', .created h' ∈ n.obs → h' = h := by
  have hnone : ∀ {l : List Obs}, n.booked = l → (∀ h, .created h ∉ l) →
      ∀ h, .created h ∉ n.obs := fun hl hfree h hmem =>
    hfree h (hl ▸ (Obs.mem_booked rfl).mp hmem)
  have hid : n.impl.nextID = n.impl.books.nextID := rfl
  cases hm with
  | numbered name l r h' hf hh hb ht ho =>
    refine ⟨by rw [hid, hb]; exact Nat.le_succ _, fun h hmem => ?_⟩
    have heq : ∀ h, .created h ∈ n.obs → h = h' := fun h hmem => by
      have hin := (Obs.mem_booked rfl).mp hmem
      rw [ho, List.mem_singleton, Obs.created.injEq] at hin
      exact hin
    rw [heq h hmem]
    exact ⟨congrArg Holding.id hh, by rw [hid, hb], fun h'' hmem'' => heq h'' hmem''⟩
  | granted hfree hb hf ht ho =>
    exact ⟨by rw [hid, hb]; exact Nat.le_succ _,
      fun h hmem => absurd hmem (hnone ho (by simp) h)⟩
  | quiet hb _ ho | dropped _ _ hb _ _ ho | entered _ _ _ hb _ ho | left _ _ hb _ ho
  | claimed _ _ _ hb _ ho | converted _ _ _ _ _ hb _ ho | refused _ _ _ _ hb _ ho
  | abandoned _ _ _ hb _ ho | finished _ _ _ _ hb _ ho | marked _ _ _ hb _ ho
  | lost _ _ _ _ hb _ ho | late _ _ hb _ ho | kept _ _ hb _ ho | handedBack _ _ hb _ ho
  | letGo _ _ _ hb _ ho =>
    exact ⟨by rw [hid, hb]; exact le_refl _,
      fun h hmem => absurd hmem (hnone ho (by simp) h)⟩

/-- Handles are named by their number: everything that names one names the
object that was created with it. -/
structure Named (s : Sys) : Prop where
  live : ∀ k h, s.impl.allocations.lookup k = some h → h.id = k ∧ .created h ∈ s.trace
  frame : ∀ f ∈ frames s.threads, ∀ h ∈ f.handles, .created h ∈ s.trace
  allocated : ∀ h, .allocated h ∈ s.trace → .created h ∈ s.trace
  created_le : ∀ h, .created h ∈ s.trace → h.id ≤ s.impl.nextID
  created_inj : ∀ h h', .created h ∈ s.trace → .created h' ∈ s.trace → h.id = h'.id → h = h'

theorem named_init (impl : Impl) (hempty : impl.allocations = ∅) : Named (Sys.init impl) where
  live k h hk := by
    rw [show (Sys.init impl).impl = impl from rfl, hempty, AList.lookup_empty] at hk
    cases hk
  frame f hf := by simp [Sys.init] at hf
  allocated h hh := by simp [Sys.init] at hh
  created_le h hh := by simp [Sys.init] at hh
  created_inj h h' hh := by simp [Sys.init] at hh

variable {s : Sys}

theorem Named.live_eq (hN : Named s) {h h' : Handle}
    (hh : .created h ∈ s.trace) (hl : s.impl.allocations.lookup h.id = some h') : h' = h := by
  obtain ⟨hid, hc⟩ := hN.live _ _ hl
  exact hN.created_inj h' h hc hh hid

theorem frames_apply (hi : s.threads[i]? = some (f :: rest)) :
    ∃ others, frames s.threads = f ::ₘ others ∧ ∀ n : Next,
      frames (s.apply i rest n).threads
        = ((n.frames ++ n.spawned.flatten : List Frame) : Multiset Frame) + others := by
  obtain ⟨others, hframes, hnew⟩ := frames_split hi
  refine ⟨others, hframes, fun n => ?_⟩
  rw [← coe_add]
  exact hnew n.frames n.spawned

theorem named_apply (hN : Named s) (hi : s.threads[i]? = some (f :: rest))
    (hstep : step c s.impl f a = some n) : Named (s.apply i rest n) := by
  have hm := step_move hstep
  have hnames := step_names hstep
  obtain ⟨hle, hcreated⟩ := hm.created
  have hf : ∀ h ∈ f.handles, .created h ∈ s.trace := hN.frame f (top_mem hi)
  have hold : ∀ o, o ∈ s.trace → o ∈ s.trace ++ n.obs := fun o ho => mem_append_left _ ho
  -- everything the step names was created, before it or by it
  have hmentioned : ∀ h ∈ n.handles, .created h ∈ s.trace ++ n.obs := by
    intro h hh
    rcases hnames h hh with hmem | hlive | hc
    · exact hold _ (hf h hmem)
    · obtain ⟨k, hk⟩ := Impl.mem_liveHandles.mp hlive
      exact hold _ (hN.live k h hk).2
    · exact mem_append_right _ hc
  refine ⟨?_, ?_, ?_, ?_, ?_⟩
  · intro k h hk
    rcases hm.allocations hk with hk | ⟨rfl, hmem⟩
    · exact ⟨(hN.live k h hk).1, hold _ (hN.live k h hk).2⟩
    · exact ⟨rfl, hold _ (hf h hmem)⟩
  · intro f' hf' h hh
    rcases mem_of_frames_advance hi hf' with hin | hin
    · exact hmentioned h (mem_append_left _ (mem_flatMap.mpr ⟨f', hin, hh⟩))
    · exact hold _ (hN.frame f' hin h hh)
  · intro h hh
    rcases mem_append.mp hh with hh | hh
    · exact hold _ (hN.allocated h hh)
    · exact hmentioned h (mem_append_right _ (List.mem_filterMap.mpr ⟨_, hh, rfl⟩))
  · intro h hh
    rcases mem_append.mp hh with hh | hh
    · exact le_trans (hN.created_le h hh) hle
    · obtain ⟨hid, hnext, -⟩ := hcreated h hh
      exact (hid.trans hnext.symm).le
  · intro h h' hh hh' hid
    rcases mem_append.mp hh with hh | hh
    · rcases mem_append.mp hh' with hh' | hh'
      · exact hN.created_inj h h' hh hh' hid
      · have hle' := hN.created_le h hh
        have hid' := (hcreated h' hh').1
        omega
    · obtain ⟨hid₁, -, honly⟩ := hcreated h hh
      rcases mem_append.mp hh' with hh' | hh'
      · have hle' := hN.created_le h' hh'
        omega
      · exact (honly h' hh').symm

/-! ## The ledger of a Scheduler -/

/-- The Reservation an observation grants. -/
def Obs.granted? : Obs → Option Nat
  | .granted r => some r
  | _ => none

/-- The Handle an observation creates. -/
def Obs.created? : Obs → Option Handle
  | .created h => some h
  | _ => none

/-- The Lease an observation obtains. -/
def Obs.claimed? : Obs → Option String
  | .claimed l => some l
  | _ => none

/-- The Lease whose release an observation starts. -/
def Obs.releaseStarted? : Obs → Option String
  | .releaseStarted l => some l
  | _ => none

/-- The holdings of an allocation table. -/
def holdingsOf (A : AList fun _ : Nat => Handle) : Finset (Holding String String) :=
  (A.entries.map fun e => e.2.holding).toFinset

/-- The ledger of some books, of the tokens in flight and of a history. -/
def Books.ledger (b : Books) (tokens : Multiset (Token String String)) (trace : List Obs) :
    Ledger String String where
  tickets := b.reservations.keys.toFinset
  holdings := holdingsOf b.allocations
  use := b.profileUse
  nextID := b.nextID
  gone := b.gone
  tokens := tokens
  granted := (trace.filterMap Obs.granted?).toFinset
  created := ((trace.filterMap Obs.created?).map Handle.holding).toFinset
  acquired := trace.filterMap Obs.claimed?
  handedBack := trace.filterMap Obs.releaseStarted?

/-- The tokens of the functions in flight. -/
def Sys.tokens (s : Sys) : Multiset (Token String String) :=
  (frames s.threads).filterMap Frame.token

/-- The ledger of a Scheduler. -/
def Sys.ledger (s : Sys) : Ledger String String := s.impl.books.ledger s.tokens s.trace

theorem Books.ledger_trace (b : Books) (tokens : Multiset (Token String String))
    (trace : List Obs) (obs : List Obs) :
    b.ledger tokens (trace ++ obs) = b.ledger tokens (trace ++ obs.filter Obs.booked) := by
  have hfilter : ∀ {β : Type} (g : Obs → Option β), (∀ o, o.booked = false → g o = none) →
      (obs.filter Obs.booked).filterMap g = obs.filterMap g := by
    intro β g hg
    rw [List.filterMap_filter]
    refine filterMap_congr fun o _ => ?_
    cases hb : o.booked with
    | true => simp
    | false => simp [hg o hb]
  simp only [ledger, filterMap_append]
  rw [hfilter Obs.granted? (by rintro ⟨⟩ <;> simp [Obs.booked, Obs.granted?]),
    hfilter Obs.created? (by rintro ⟨⟩ <;> simp [Obs.booked, Obs.created?]),
    hfilter Obs.claimed? (by rintro ⟨⟩ <;> simp [Obs.booked, Obs.claimed?]),
    hfilter Obs.releaseStarted? (by rintro ⟨⟩ <;> simp [Obs.booked, Obs.releaseStarted?])]

theorem ledger_apply (hi : s.threads[i]? = some (f :: rest)) :
    ∃ T, s.tokens = (f.token.toList : Multiset _) + T ∧ ∀ n : Next,
      (s.apply i rest n).ledger
        = n.impl.books.ledger ((n.tokens : Multiset _) + T) (s.trace ++ n.booked) := by
  obtain ⟨T, htokens, hnew⟩ := filterMap_split Frame.token hi
  refine ⟨T, htokens, fun n => ?_⟩
  show n.impl.books.ledger ((Threads.frames (s.apply i rest n).threads).filterMap Frame.token)
    (s.trace ++ n.obs) = _
  rw [Books.ledger_trace, Sys.apply, hnew]
  rfl

/-! ### How the tables read as sets -/

theorem tickets_insert (R : AList fun _ : Nat => Time) (k : Nat) (t : Time) :
    (R.insert k t).keys.toFinset = insert k R.keys.toFinset := by
  ext x
  rw [List.mem_toFinset, ← AList.mem_keys, AList.mem_insert, Finset.mem_insert,
    List.mem_toFinset, ← AList.mem_keys]

theorem tickets_erase (R : AList fun _ : Nat => Time) (k : Nat) :
    (R.erase k).keys.toFinset = R.keys.toFinset.erase k := by
  ext x
  rw [List.mem_toFinset, ← AList.mem_keys, AList.mem_erase, Finset.mem_erase,
    List.mem_toFinset, ← AList.mem_keys]

theorem mem_holdingsOf {A : AList fun _ : Nat => Handle} {x : Holding String String} :
    x ∈ holdingsOf A ↔ ∃ k h, A.lookup k = some h ∧ h.holding = x := by
  simp only [holdingsOf, List.mem_toFinset, List.mem_map]
  constructor
  · rintro ⟨⟨k, h⟩, hmem, rfl⟩
    exact ⟨k, h, AList.mem_lookup_iff.mpr hmem, rfl⟩
  · rintro ⟨k, h, hk, rfl⟩
    exact ⟨⟨k, h⟩, AList.mem_lookup_iff.mp hk, rfl⟩

theorem Named.holdings_insert (hN : Named s) (hh : .created h ∈ s.trace) :
    holdingsOf (s.impl.allocations.insert h.id h)
      = insert h.holding (holdingsOf s.impl.allocations) := by
  ext x
  rw [mem_holdingsOf, Finset.mem_insert, mem_holdingsOf]
  constructor
  · rintro ⟨k, h', hk, rfl⟩
    by_cases heq : k = h.id
    · rw [heq, AList.lookup_insert, Option.some.injEq] at hk
      exact .inl (congrArg Handle.holding hk.symm)
    · rw [AList.lookup_insert_ne heq] at hk
      exact .inr ⟨k, h', hk, rfl⟩
  · rintro (rfl | ⟨k, h', hk, rfl⟩)
    · exact ⟨h.id, h, AList.lookup_insert _, rfl⟩
    · by_cases heq : k = h.id
      · subst heq
        exact ⟨h.id, h, AList.lookup_insert _, congrArg Handle.holding (hN.live_eq hh hk).symm⟩
      · exact ⟨k, h', by rw [AList.lookup_insert_ne heq]; exact hk, rfl⟩

theorem Named.holdings_erase (hN : Named s) (hh : .created h ∈ s.trace) :
    holdingsOf (s.impl.allocations.erase h.id)
      = (holdingsOf s.impl.allocations).erase h.holding := by
  ext x
  rw [mem_holdingsOf, Finset.mem_erase, mem_holdingsOf]
  constructor
  · rintro ⟨k, h', hk, rfl⟩
    by_cases heq : k = h.id
    · rw [heq, AList.lookup_erase] at hk
      cases hk
    · rw [AList.lookup_erase_ne heq] at hk
      refine ⟨fun hsame => heq ?_, k, h', hk, rfl⟩
      rw [← (hN.live k h' hk).1]
      exact congrArg Holding.id hsame
  · rintro ⟨hne, k, h', hk, rfl⟩
    refine ⟨k, h', ?_, rfl⟩
    by_cases heq : k = h.id
    · subst heq
      exact absurd (congrArg Handle.holding (hN.live_eq hh hk)) hne
    · rw [AList.lookup_erase_ne heq]
      exact hk

theorem Named.holding_mem (hN : Named s) (hh : .created h ∈ s.trace)
    (hlive : h.id ∈ s.impl.allocations) : h.holding ∈ holdingsOf s.impl.allocations := by
  obtain ⟨h', hk⟩ := Option.isSome_iff_exists.mp (AList.lookup_isSome.mpr hlive)
  exact mem_holdingsOf.mpr ⟨h.id, h', hk, congrArg Handle.holding (hN.live_eq hh hk)⟩

theorem mem_created (hh : .created h ∈ s.trace) : h.holding ∈ s.ledger.created :=
  List.mem_toFinset.mpr
    (List.mem_map_of_mem (List.mem_filterMap.mpr ⟨_, hh, rfl⟩))

theorem Named.holdings_ids (hN : Named s) :
    (s.impl.allocations.entries.map fun e => e.2.holding).map Holding.id
      = s.impl.allocations.keys := by
  rw [AList.keys, List.keys, List.map_map]
  refine map_congr_left fun e he => ?_
  exact (hN.live e.1 e.2 (AList.mem_lookup_iff.mpr he)).1

theorem Named.holdings_nodup (hN : Named s) :
    (s.impl.allocations.entries.map fun e => e.2.holding).Nodup :=
  List.Nodup.of_map Holding.id (hN.holdings_ids ▸ s.impl.allocations.keys_nodup)

/-- The Slots in use are the tickets and holdings of the ledger. -/
theorem Named.slotsInUse (hN : Named s) :
    s.impl.slotsInUseLocked = s.ledger.tickets.card + s.ledger.holdings.card := by
  have hlen := congrArg length hN.holdings_ids
  rw [length_map] at hlen
  show s.impl.reservations.keys.length + s.impl.allocations.keys.length
    = s.impl.reservations.keys.toFinset.card + (holdingsOf s.impl.allocations).card
  rw [List.toFinset_card_of_nodup s.impl.reservations.keys_nodup, ← hlen, holdingsOf,
    List.toFinset_card_of_nodup hN.holdings_nodup, length_map]

/-! ### How the history reads -/

section History

variable (b : Books) (T : Multiset (Token String String)) (trace : List Obs)

theorem ledger_snoc (o : Obs) : b.ledger T (trace ++ [o]) = { b.ledger T trace with
    granted := (b.ledger T trace).granted ∪ o.granted?.toList.toFinset
    created := (b.ledger T trace).created ∪ (o.created?.toList.map Handle.holding).toFinset
    acquired := (b.ledger T trace).acquired + o.claimed?.toList
    handedBack := (b.ledger T trace).handedBack + o.releaseStarted?.toList } := by
  have hsnoc : ∀ {β : Type} (g : Obs → Option β),
      (trace ++ [o]).filterMap g = trace.filterMap g ++ (g o).toList := by
    intro β g
    rw [filterMap_append]
    cases hg : g o <;> simp [hg]
  simp only [Books.ledger, hsnoc, map_append, toFinset_append, ← coe_add]

theorem ledger_granted (r : Nat) : b.ledger T (trace ++ [.granted r])
    = { b.ledger T trace with granted := insert r (b.ledger T trace).granted } := by
  rw [ledger_snoc]
  simp [Obs.granted?, Obs.created?, Obs.claimed?, Obs.releaseStarted?, Finset.union_comm]

theorem ledger_created (h : Handle) : b.ledger T (trace ++ [.created h])
    = { b.ledger T trace with created := insert h.holding (b.ledger T trace).created } := by
  rw [ledger_snoc]
  simp [Obs.granted?, Obs.created?, Obs.claimed?, Obs.releaseStarted?, Finset.union_comm]

theorem ledger_claimed (l : String) : b.ledger T (trace ++ [.claimed l])
    = { b.ledger T trace with acquired := l ::ₘ (b.ledger T trace).acquired } := by
  rw [ledger_snoc]
  simp [Obs.granted?, Obs.created?, Obs.claimed?, Obs.releaseStarted?,
    ← singleton_add, add_comm]

theorem ledger_releaseStarted (l : String) : b.ledger T (trace ++ [.releaseStarted l])
    = { b.ledger T trace with handedBack := l ::ₘ (b.ledger T trace).handedBack } := by
  rw [ledger_snoc]
  simp [Obs.granted?, Obs.created?, Obs.claimed?, Obs.releaseStarted?,
    ← singleton_add, add_comm]

end History

/-! ## Every move is a step of the ledger -/

variable {s : Sys}

/-- **One step of the Scheduler is one step of its ledger**, or none. The
ledger's `admits` covers the Profile the step's own `Allocate` was called
with. -/
theorem Move.ledger {admits : String → Int → Prop} (hN : Named s)
    (hi : s.threads[i]? = some (f :: rest)) (hm : Move c s.impl f n)
    (hadm : ∀ q pc, f = .allocate q pc → admits q.p.name q.p.maxConcurrency) :
    (s.apply i rest n).ledger = s.ledger ∨
      Ledger.Step c.slots admits s.ledger (s.apply i rest n).ledger := by
  obtain ⟨T, hT, happ⟩ := ledger_apply hi
  have hcreated : ∀ h ∈ f.handles, .created h ∈ s.trace := hN.frame f (top_mem hi)
  have hsome : ∀ {t}, f.token = some t → s.ledger.tokens = t ::ₘ T := fun hf => by
    rw [show s.ledger.tokens = s.tokens from rfl, hT, hf]
    rfl
  have hnone : f.token = none → s.ledger.tokens = T := fun hf => by
    rw [show s.ledger.tokens = s.tokens from rfl, hT, hf]
    exact zero_add T
  rw [happ n]
  cases hm with
  | quiet hb ht ho =>
    left
    rw [hb, ht, ho, append_nil, ← hT]
    rfl
  | granted hfree hb hf ht ho =>
    right
    have hslots : (s.ledger.tickets.card + s.ledger.holdings.card : ℤ) < c.slots := by
      rw [hN.slotsInUse] at hfree
      exact_mod_cast hfree
    have hstep : Ledger.Step c.slots admits s.ledger _ := .grant hslots
    rw [hb, ht, ho, ledger_granted, coe_nil, zero_add, ← hnone hf]
    simp only [Books.ledger, tickets_insert]
    exact hstep
  | dropped R hR hb hf ht ho =>
    right
    rw [hb, ht, ho, append_nil, coe_nil, zero_add, ← hnone hf]
    have hsub : R.keys.toFinset ⊆ s.ledger.tickets := fun r hr =>
      List.mem_toFinset.mpr (hR (List.mem_toFinset.mp hr))
    exact .drop hsub
  | entered p hp hm hb ht ho =>
    right
    obtain ⟨q, rfl, rfl⟩ := hp
    rw [hb, ht, ho, append_nil, ← hnone rfl]
    exact .enter (hadm q .entering rfl) hm
  | left name hf hb ht ho =>
    right
    rw [hb, ht, ho, append_nil, coe_nil, zero_add]
    exact .leave (hsome hf)
  | claimed name l hf hb ht ho =>
    right
    rw [hb, ht, ho, ledger_claimed]
    exact .acquire l (hsome hf)
  | numbered name l r h hf hh hb ht ho =>
    right
    rw [hb, ht, ho, ledger_created, hh]
    exact .number r (hsome hf)
  | converted name r h hf hr hb ht ho =>
    right
    obtain ⟨q, rfl, rfl, rfl⟩ := hf
    have hh := hcreated h (List.mem_singleton_self h)
    have hr' : q.r ∈ s.ledger.tickets := List.mem_toFinset.mpr (AList.mem_keys.mp hr)
    have hstep : Ledger.Step c.slots admits s.ledger _ := .convert (hsome rfl) hr'
    rw [hb, ht, ho, append_nil, coe_nil, zero_add]
    simp only [Books.ledger, tickets_erase, hN.holdings_insert hh]
    exact hstep
  | refused name r h hf hb ht ho =>
    right
    rw [hb, ht, ho, append_nil]
    exact .refuse (hsome hf)
  | abandoned name l hf hb ht ho =>
    right
    rw [hb, ht, ho, ledger_releaseStarted]
    exact .abandon (hsome hf)
  | finished h hf hfh hh hb ht ho =>
    right
    have hmem : h.holding ∈ s.ledger.holdings := hN.holding_mem (hcreated h hfh) hh
    have hstep : Ledger.Step c.slots admits s.ledger _ := .finish hmem
    rw [hb, ht, ho, append_nil, ← hnone hf]
    simp only [Books.ledger, hN.holdings_erase (hcreated h hfh)]
    exact hstep
  | marked h hf hfh hb ht ho =>
    right
    rw [hb, ht, ho, append_nil, ← hnone hf]
    exact .mark (mem_created (hcreated h hfh))
  | lost h hf hfh hh hb ht ho =>
    right
    have hmem : h.holding ∈ s.ledger.holdings := hN.holding_mem (hcreated h hfh) hh
    have hstep : Ledger.Step c.slots admits s.ledger _ := .lose (hsome hf) hmem
    rw [hb, ht, ho, append_nil, coe_nil, zero_add]
    simp only [Books.ledger, hN.holdings_erase (hcreated h hfh)]
    exact hstep
  | late h hf hb ht ho =>
    right
    rw [hb, ht, ho, append_nil, coe_nil, zero_add]
    exact .late (hsome hf)
  | kept h hf hb ht ho =>
    right
    rw [hb, ht, ho, append_nil]
    exact .keep (hsome hf)
  | handedBack h hf hb ht ho =>
    right
    rw [hb, ht, ho, ledger_releaseStarted, coe_nil, zero_add]
    rcases hf with hf | hf
    · exact .handBack (.inl rfl) (hsome hf)
    · exact .handBack (.inr rfl) (hsome hf)
  | letGo h hf hgone hb ht ho =>
    right
    rw [hb, ht, ho, append_nil, coe_nil, zero_add]
    have hgone' : s.ledger.gone h.holding.id = true := hgone
    rcases hf with hf | hf
    · exact .letGo (.inl rfl) hgone' (hsome hf)
    · exact .letGo (.inr rfl) hgone' (hsome hf)

/-! ## Calls and the clock -/

theorem Call.handles_frame (call : Call) : call.frame.handles = call.handle.toList := by
  cases call <;> rfl

theorem Call.token_frame (call : Call) : call.frame.token = none := by
  cases call <;> rfl

theorem frames_start (s : Sys) (call : Call) :
    Threads.frames (s.start call).threads = call.frame ::ₘ Threads.frames s.threads := by
  rw [Sys.start, frames_append, frames_cons, frames_nil]
  simp [add_comm, ← singleton_add]

theorem mem_start {call : Call} {g : Frame} :
    g ∈ Threads.frames (s.start call).threads ↔ g = call.frame ∨ g ∈ Threads.frames s.threads := by
  rw [frames_start, Multiset.mem_cons]

theorem named_start (hN : Named s) {call : Call} (hcall : call.allowed s) :
    Named (s.start call) where
  live := hN.live
  frame f hf h hh := by
    rcases mem_start.mp hf with rfl | hf
    · rw [Call.handles_frame, Option.mem_toList] at hh
      exact hN.allocated h (hcall h hh)
    · exact hN.frame f hf h hh
  allocated := hN.allocated
  created_le := hN.created_le
  created_inj := hN.created_inj

theorem ledger_start (s : Sys) (call : Call) : (s.start call).ledger = s.ledger := by
  have htokens : (s.start call).tokens = s.tokens := by
    rw [Sys.tokens, frames_start, Multiset.filterMap_cons_none _ _ call.token_frame]
    rfl
  show s.impl.books.ledger (s.start call).tokens s.trace = _
  rw [htokens]
  rfl

/-- Everything one move can be. -/
inductive Moved (c : Settings) (s : Sys) : Label → Sys → Prop
  | call (call : Call) (hcall : call.allowed s) : Moved c s (.call call) (s.start call)
  | step (i : Nat) (a : Answer) (f : Frame) (rest : List Frame) (n : Next)
      (hi : s.threads[i]? = some (f :: rest)) (hstep : step c s.impl f a = some n) :
      Moved c s (.step i a) (s.apply i rest n)
  | tick (d : Nat) : Moved c s (.tick d) (s.tick d)

variable {s t : Sys}

theorem moved (hnext : s.next c l = some t) : Moved c s l t := by
  unfold Sys.next at hnext
  split at hnext
  · rename_i call
    split at hnext
    · rename_i hcall
      cases hnext
      exact .call call hcall
    · cases hnext
  · rename_i i a
    split at hnext
    · rename_i f rest hi
      obtain ⟨n, hstep, rfl⟩ := Option.map_eq_some_iff.mp hnext
      exact .step i a f rest n hi hstep
    · cases hnext
  · rename_i d
    cases hnext
    exact .tick d

/-- No step gives a Handle or a Reservation an id in use. -/
theorem named_next (hN : Named s) (hnext : s.next c l = some t) : Named t := by
  cases moved hnext with
  | call call hcall =>
    exact named_start hN hcall
  | step i a f rest n hi hstep =>
    exact named_apply hN hi hstep
  | tick d =>
    exact ⟨hN.live, hN.frame, hN.allocated, hN.created_le, hN.created_inj⟩

theorem trace_next (hnext : s.next c l = some t) {o : Obs} (ho : o ∈ s.trace) :
    o ∈ t.trace := by
  cases moved hnext with
  | call call _ =>
    exact ho
  | step i a f rest n _ _ =>
    exact mem_append_left _ ho
  | tick d =>
    exact ho

theorem mem_tokens {t : Token String String} :
    t ∈ s.ledger.tokens ↔ ∃ f ∈ frames s.threads, f.token = some t :=
  Multiset.mem_filterMap Frame.token (frames s.threads)

/-- **The Scheduler refines the ledger**: every move of it is a step of the
ledger, or leaves the ledger as it is. -/
theorem next_ledger {admits : String → Int → Prop} (hN : Named s)
    (hnext : s.next c l = some t)
    (hadm : ∀ i a q pc rest, l = .step i a → s.threads[i]? = some (.allocate q pc :: rest) →
      admits q.p.name q.p.maxConcurrency) :
    t.ledger = s.ledger ∨ Ledger.Step c.slots admits s.ledger t.ledger := by
  cases moved hnext with
  | call call _ =>
    exact .inl (ledger_start s call)
  | step i a f rest n hi hstep =>
    refine (step_move hstep).ledger hN hi ?_
    rintro q pc rfl
    exact hadm i a q pc rest rfl hi
  | tick d =>
    exact .inl rfl

/-! ## What holds in every state -/

/-- The invariants of the accounting, all of them about the ledger. -/
structure Accounts (c : Settings) (s : Sys) : Prop where
  named : Named s
  numbered : s.ledger.Numbered
  slots : s.ledger.Slots c.slots
  units : ∀ q, s.ledger.use q = s.ledger.unitsOut q
  losingGone : s.ledger.LosingGone
  assets_le : ∀ a, s.ledger.carriers a ≤ s.ledger.acquired.count a
  assets_kept : ∀ a ∈ s.ledger.acquired, 0 < s.ledger.carriers a ∨ s.ledger.Lost a

theorem accounts_init (hs : (machine c).init s) : Accounts c s := by
  obtain ⟨hc, now, profiles, hosts, rfl⟩ := hs
  refine ⟨named_init _ rfl, ?_, ?_, fun q => rfl, ?_, fun a => Nat.zero_le _, ?_⟩
  · refine ⟨?_, ?_, ?_, ?_, ?_, ?_⟩ <;>
      simp [Sys.ledger, Books.ledger, Sys.tokens, Sys.init, holdingsOf, Impl.books, Impl.new]
  · refine ⟨?_, ?_, ?_, ?_, ?_⟩ <;>
      simp [Sys.ledger, Books.ledger, Sys.init, holdingsOf, Impl.books, Impl.new, hc.le,
        Ledger.HeldBy]
  · intro h hh
    simp [Sys.ledger, Books.ledger, Sys.tokens, Sys.init] at hh
  · intro a ha
    simp [Sys.ledger, Books.ledger, Sys.init] at ha

theorem accounts_next (hA : Accounts c s) (hnext : s.next c l = some t) :
    Accounts c t := by
  have hnamed := named_next hA.named hnext
  have hledger : t.ledger = s.ledger ∨
      Ledger.Step c.slots (fun _ _ => True) s.ledger t.ledger :=
    next_ledger hA.named hnext fun _ _ _ _ _ _ _ => trivial
  rcases hledger with heq | hstep
  · exact ⟨hnamed, heq ▸ hA.numbered, heq ▸ hA.slots, heq ▸ hA.units, heq ▸ hA.losingGone,
      heq ▸ hA.assets_le, heq ▸ hA.assets_kept⟩
  · exact ⟨hnamed, hstep.numbered hA.numbered, hstep.slots hA.numbered hA.slots,
      hstep.units hA.numbered hA.units, hstep.losingGone hA.numbered hA.losingGone,
      hstep.assets_le hA.numbered hA.losingGone hA.assets_le,
      hstep.assets_kept hA.numbered hA.losingGone hA.assets_kept⟩

/-- **The accounting is right in every state of every run.** -/
theorem accounts_reach {ok : Sys → Label → Prop}
    (hs : (machine c).Reach ok s) : Accounts c s :=
  hs.inv (fun _ h₀ => accounts_init h₀) fun _ _ _ hA _ hnext => accounts_next hA hnext

end FlintlockRunner.Scheduler

import Mathlib.Algebra.Order.Group.Multiset
import Mathlib.Data.Finset.Card
import Mathlib.Data.Multiset.Count
import Mathlib.Logic.Function.Basic
import Mathlib.Order.Interval.Finset.Nat

/-!
# Ledgers of tickets, quotas and assets

A general pattern of admission control. A bounded number of *tickets* may be
out; a ticket is exchanged for a *holding*, which counts against the same
bound. Getting there takes a unit of some quota and an *asset* obtained from
elsewhere, and the holding keeps both. Whoever ends a holding returns its unit
and has to hand its asset back, unless the asset is known to be *gone*.

Between those moments the right to finish the job is with some party in
flight, which the ledger records as a `Token`: what the party has taken and
not yet passed on. `Step` lists everything a party may do in one indivisible
action. The results are about any run of such actions:

- `Step.slots`: tickets and holdings stay within the bound, and no ticket is
  counted twice;
- `Step.settled`, `Step.heldBy`: an exchanged ticket stays with its holding
  until it is settled, and then it stays settled;
- `Step.units`: a quota's use is what its holdings and the parties in flight
  account for;
- `Step.inHand`: an asset leaves a party's hands by an exchange or by being
  handed back;
- `Step.assets_le`, `Step.assets_kept`: an asset is handed back at most once,
  and is never dropped unless it is gone.
-/

universe u v

/-- What a ticket was exchanged for. -/
structure Holding (κ : Type u) (ℓ : Type v) where
  id : ℕ
  ticket : ℕ
  quota : κ
  asset : ℓ
  deriving DecidableEq

/-- What a party in flight has taken and not passed on yet. -/
inductive Token (κ : Type u) (ℓ : Type v)
  /-- a unit of quota `q` -/
  | entered (q : κ)
  /-- a unit of quota `q` and the asset `a` -/
  | carrying (q : κ) (a : ℓ)
  /-- a unit and an asset, described by `h`, to be exchanged with ticket `r` -/
  | numbered (q : κ) (r : ℕ) (h : Holding κ ℓ)
  /-- a holding ended by this party, its asset still to be handed back -/
  | ended (h : Holding κ ℓ)
  /-- an ended holding whose asset is kept for a while first -/
  | kept (h : Holding κ ℓ)
  /-- the finding that the asset of `h` is gone -/
  | losing (h : Holding κ ℓ)

namespace Token

variable {κ : Type u} {ℓ : Type v}

/-- The quota a token holds a unit of. -/
def quota? : Token κ ℓ → Option κ
  | .entered q | .carrying q _ | .numbered q _ _ => some q
  | _ => none

/-- The asset a token is responsible for. -/
def asset? : Token κ ℓ → Option ℓ
  | .carrying _ a => some a
  | .numbered _ _ h | .ended h | .kept h => some h.asset
  | _ => none

/-- The holding a token is about to put in place. -/
def numbered? : Token κ ℓ → Option (Holding κ ℓ)
  | .numbered _ _ h => some h
  | _ => none

/-- The holding a token names. -/
def holding? : Token κ ℓ → Option (Holding κ ℓ)
  | .numbered _ _ h | .ended h | .kept h | .losing h => some h
  | _ => none

section Fields

variable (q : κ) (a : ℓ) (r : ℕ) (h : Holding κ ℓ)

@[simp] theorem quota?_entered : (entered q : Token κ ℓ).quota? = some q := rfl
@[simp] theorem quota?_carrying : (carrying q a).quota? = some q := rfl
@[simp] theorem quota?_numbered : (numbered q r h).quota? = some q := rfl
@[simp] theorem quota?_ended : (ended h).quota? = none := rfl
@[simp] theorem quota?_kept : (kept h).quota? = none := rfl
@[simp] theorem quota?_losing : (losing h).quota? = none := rfl

@[simp] theorem asset?_entered : (entered q : Token κ ℓ).asset? = none := rfl
@[simp] theorem asset?_carrying : (carrying q a).asset? = some a := rfl
@[simp] theorem asset?_numbered : (numbered q r h).asset? = some h.asset := rfl
@[simp] theorem asset?_ended : (ended h).asset? = some h.asset := rfl
@[simp] theorem asset?_kept : (kept h).asset? = some h.asset := rfl
@[simp] theorem asset?_losing : (losing h).asset? = none := rfl

end Fields

theorem holding?_of_numbered? {t : Token κ ℓ} {h : Holding κ ℓ}
    (ht : t.numbered? = some h) : t.holding? = some h := by
  cases t <;> simp_all [numbered?, holding?]

end Token

/-- The books: what is out, what is held, what parties in flight have, and the
history of what was granted, created, acquired and handed back. -/
structure Ledger (κ : Type u) (ℓ : Type v) where
  tickets : Finset ℕ
  holdings : Finset (Holding κ ℓ)
  use : κ → ℕ
  nextID : ℕ
  gone : ℕ → Bool
  tokens : Multiset (Token κ ℓ)
  granted : Finset ℕ
  created : Finset (Holding κ ℓ)
  acquired : Multiset ℓ
  handedBack : Multiset ℓ

namespace Ledger

open Function Multiset Token

variable {κ : Type u} {ℓ : Type v} [DecidableEq κ] [DecidableEq ℓ] (L : Ledger κ ℓ)

/-- Return one unit of a quota. -/
def free (q : κ) : κ → ℕ := Function.update L.use q (L.use q - 1)

variable (bound : ℤ) (admits : κ → ℤ → Prop) (L : Ledger κ ℓ) in
/-- One indivisible action. `bound` limits tickets and holdings together;
`admits q m` says with which maximum `m` a party may enter quota `q`. -/
inductive Step : Ledger κ ℓ → Prop
  | grant (hfree : (L.tickets.card + L.holdings.card : ℤ) < bound) :
      Step { L with
        nextID := L.nextID + 1
        tickets := insert (L.nextID + 1) L.tickets
        granted := insert (L.nextID + 1) L.granted }
  | drop {R : Finset ℕ} (hR : R ⊆ L.tickets) : Step { L with tickets := R }
  | enter {q : κ} {m : ℤ} (hq : admits q m) (hm : m > 0 → (L.use q : ℤ) < m) :
      Step { L with
        use := Function.update L.use q (L.use q + 1)
        tokens := .entered q ::ₘ L.tokens }
  | leave {q : κ} {T : Multiset (Token κ ℓ)}
      (hT : L.tokens = .entered q ::ₘ T) : Step { L with use := L.free q, tokens := T }
  | acquire {q : κ} {T : Multiset (Token κ ℓ)} (a : ℓ) (hT : L.tokens = .entered q ::ₘ T) :
      Step { L with tokens := .carrying q a ::ₘ T, acquired := a ::ₘ L.acquired }
  | number {q : κ} {a : ℓ} {T : Multiset (Token κ ℓ)} (r : ℕ)
      (hT : L.tokens = .carrying q a ::ₘ T) :
      Step { L with
        nextID := L.nextID + 1
        gone := Function.update L.gone (L.nextID + 1) false
        tokens := .numbered q r ⟨L.nextID + 1, r, q, a⟩ ::ₘ T
        created := insert ⟨L.nextID + 1, r, q, a⟩ L.created }
  | convert {q : κ} {r : ℕ} {h : Holding κ ℓ}
      {T : Multiset (Token κ ℓ)} (hT : L.tokens = .numbered q r h ::ₘ T)
      (hr : r ∈ L.tickets) :
      Step { L with
        tickets := L.tickets.erase r, holdings := insert h L.holdings, tokens := T }
  | refuse {q : κ} {r : ℕ} {h : Holding κ ℓ}
      {T : Multiset (Token κ ℓ)} (hT : L.tokens = .numbered q r h ::ₘ T) :
      Step { L with tokens := .carrying q h.asset ::ₘ T }
  | abandon {q : κ} {a : ℓ} {T : Multiset (Token κ ℓ)} (hT : L.tokens = .carrying q a ::ₘ T) :
      Step { L with tokens := .entered q ::ₘ T, handedBack := a ::ₘ L.handedBack }
  | finish {h : Holding κ ℓ} (hh : h ∈ L.holdings) :
      Step { L with
        holdings := L.holdings.erase h
        use := L.free h.quota
        tokens := .ended h ::ₘ L.tokens }
  | mark {h : Holding κ ℓ} (hh : h ∈ L.created) :
      Step { L with gone := Function.update L.gone h.id true, tokens := .losing h ::ₘ L.tokens }
  | lose {h : Holding κ ℓ} {T : Multiset (Token κ ℓ)}
      (hT : L.tokens = .losing h ::ₘ T) (hh : h ∈ L.holdings) :
      Step { L with
        holdings := L.holdings.erase h, use := L.free h.quota, tokens := T }
  | late {h : Holding κ ℓ} {T : Multiset (Token κ ℓ)}
      (hT : L.tokens = .losing h ::ₘ T) : Step { L with tokens := T }
  | keep {h : Holding κ ℓ} {T : Multiset (Token κ ℓ)}
      (hT : L.tokens = .ended h ::ₘ T) : Step { L with tokens := .kept h ::ₘ T }
  | handBack {h : Holding κ ℓ} {t : Token κ ℓ}
      {T : Multiset (Token κ ℓ)} (ht : t = .ended h ∨ t = .kept h)
      (hT : L.tokens = t ::ₘ T) :
      Step { L with tokens := T, handedBack := h.asset ::ₘ L.handedBack }
  | letGo {h : Holding κ ℓ} {t : Token κ ℓ}
      {T : Multiset (Token κ ℓ)} (ht : t = .ended h ∨ t = .kept h)
      (hgone : L.gone h.id = true) (hT : L.tokens = t ::ₘ T) : Step { L with tokens := T }

variable {bound : ℤ} {admits : κ → ℤ → Prop} {L L' : Ledger κ ℓ}

/-! ## Counting holdings -/

omit [DecidableEq κ] [DecidableEq ℓ] in
theorem card_filter_insert {α : Type*} [DecidableEq α] (p : α → Prop) [DecidablePred p]
    {s : Finset α} {x : α} (hx : x ∉ s) :
    ((insert x s).filter p).card = (s.filter p).card + if p x then 1 else 0 := by
  rw [Finset.filter_insert]
  by_cases hp : p x
  · have hx' : x ∉ s.filter p := fun hmem => hx (Finset.mem_filter.mp hmem).1
    rw [if_pos hp, if_pos hp, Finset.card_insert_of_notMem hx']
  · rw [if_neg hp, if_neg hp, Nat.add_zero]

omit [DecidableEq κ] [DecidableEq ℓ] in
theorem card_filter_erase {α : Type*} [DecidableEq α] (p : α → Prop) [DecidablePred p]
    {s : Finset α} {x : α} (hx : x ∈ s) :
    ((s.erase x).filter p).card + (if p x then 1 else 0) = (s.filter p).card := by
  have hins := card_filter_insert p (Finset.notMem_erase x s)
  rw [Finset.insert_erase hx] at hins
  exact hins.symm

/-! ## Identities: every number is used once -/

/-- Numbers are handed out in order and everything named was created. -/
structure Numbered (L : Ledger κ ℓ) : Prop where
  granted_le : ∀ r ∈ L.granted, r ≤ L.nextID
  created_le : ∀ h ∈ L.created, h.id ≤ L.nextID
  holdings_created : L.holdings ⊆ L.created
  token_created : ∀ t ∈ L.tokens, ∀ h ∈ t.holding?, h ∈ L.created
  numbered_fields : ∀ q r h, .numbered q r h ∈ L.tokens → h.quota = q ∧ h.ticket = r
  numbered_once : ∀ h, L.tokens.countP (·.numbered? = some h)
    + (if h ∈ L.holdings then 1 else 0) ≤ 1

theorem Numbered.fresh (hL : L.Numbered) {h : Holding κ ℓ} (hid : h.id = L.nextID + 1) :
    h ∉ L.created := by
  intro hmem
  have hle := hL.created_le h hmem
  omega

theorem Numbered.countP_fresh (hL : L.Numbered) {h : Holding κ ℓ} (hh : h ∉ L.created) :
    L.tokens.countP (·.numbered? = some h) = 0 :=
  countP_eq_zero.mpr fun t ht hnum =>
    hh (hL.token_created t ht h (holding?_of_numbered? hnum))

variable {r : ℕ}

theorem Numbered.notMem_holdings (hL : L.Numbered) {q : κ} {h : Holding κ ℓ}
    (ht : .numbered q r h ∈ L.tokens) : h ∉ L.holdings := by
  intro hmem
  have honce := hL.numbered_once h
  have hpos : 0 < L.tokens.countP (·.numbered? = some h) :=
    countP_pos.mpr ⟨_, ht, rfl⟩
  rw [if_pos hmem] at honce
  omega

theorem Numbered.pop (hL : L.Numbered) {t : Token κ ℓ} {T : Multiset (Token κ ℓ)}
    (hT : L.tokens = t ::ₘ T) : ({ L with tokens := T } : Ledger κ ℓ).Numbered where
  granted_le := hL.granted_le
  created_le := hL.created_le
  holdings_created := hL.holdings_created
  token_created t' ht' := hL.token_created t' (hT ▸ mem_cons_of_mem ht')
  numbered_fields q r h ht' := hL.numbered_fields q r h (hT ▸ mem_cons_of_mem ht')
  numbered_once h := by
    have honce := hL.numbered_once h
    rw [hT, countP_cons] at honce
    dsimp only
    omega

/-- A party in flight takes a token that puts no holding in place. -/
theorem Numbered.push (hL : L.Numbered) {t : Token κ ℓ}
    (hcreated : ∀ h ∈ t.holding?, h ∈ L.created) (hnum : t.numbered? = none) :
    ({ L with tokens := t ::ₘ L.tokens } : Ledger κ ℓ).Numbered where
  granted_le := hL.granted_le
  created_le := hL.created_le
  holdings_created := hL.holdings_created
  token_created t' ht' := by
    rcases mem_cons.mp ht' with rfl | ht'
    · exact hcreated
    · exact hL.token_created t' ht'
  numbered_fields q r h ht' := by
    rcases mem_cons.mp ht' with rfl | ht'
    · cases hnum
    · exact hL.numbered_fields q r h ht'
  numbered_once h := by
    have honce := hL.numbered_once h
    rw [countP_cons, hnum, if_neg (by simp)]
    exact honce

theorem Numbered.erase (hL : L.Numbered) (h : Holding κ ℓ) :
    ({ L with holdings := L.holdings.erase h } : Ledger κ ℓ).Numbered where
  granted_le := hL.granted_le
  created_le := hL.created_le
  holdings_created := (Finset.erase_subset h _).trans hL.holdings_created
  token_created := hL.token_created
  numbered_fields := hL.numbered_fields
  numbered_once h' := by
    have honce := hL.numbered_once h'
    dsimp only
    by_cases hmem : h' ∈ L.holdings.erase h
    · rw [if_pos (Finset.mem_of_mem_erase hmem)] at honce
      rwa [if_pos hmem]
    · rw [if_neg hmem]
      omega

theorem Numbered.created_of_cons (hL : L.Numbered) {t : Token κ ℓ} {T : Multiset (Token κ ℓ)}
    (hT : L.tokens = t ::ₘ T) {h : Holding κ ℓ} (hh : t.holding? = some h) : h ∈ L.created :=
  hL.token_created t (hT ▸ mem_cons_self t T) h hh

/-- **Every number is used once**, whatever the parties do. -/
theorem Step.numbered (hs : Step bound admits L L') (hL : L.Numbered) : L'.Numbered := by
  cases hs with
  | grant =>
    exact { hL with
      granted_le := fun r hr => by
        rcases Finset.mem_insert.mp hr with rfl | hr
        · exact le_refl _
        · exact le_trans (hL.granted_le r hr) (Nat.le_succ _)
      created_le := fun h hh => le_trans (hL.created_le h hh) (Nat.le_succ _) }
  | drop => exact { hL with }
  | enter => exact { hL.push (t := .entered _) (by simp [holding?]) rfl with }
  | leave hT => exact { hL.pop hT with }
  | acquire a hT =>
    exact { (hL.pop hT).push (t := .carrying _ a) (by simp [holding?]) rfl with }
  | @number q a T r hT =>
    -- the new holding has the number given out next, so nobody has it yet
    have hfresh : (⟨L.nextID + 1, r, q, a⟩ : Holding κ ℓ) ∉ L.created := hL.fresh rfl
    have hpop := hL.pop hT
    exact {
      granted_le := fun r hr => le_trans (hL.granted_le r hr) (Nat.le_succ _)
      created_le := fun h hh => by
        rcases Finset.mem_insert.mp hh with rfl | hh
        · exact le_refl _
        · exact le_trans (hL.created_le h hh) (Nat.le_succ _)
      holdings_created := hL.holdings_created.trans (Finset.subset_insert _ _)
      token_created := fun t ht h hh => by
        rcases mem_cons.mp ht with rfl | ht
        · cases hh
          exact Finset.mem_insert_self _ _
        · exact Finset.mem_insert_of_mem (hpop.token_created t ht h hh)
      numbered_fields := fun q' r' h ht => by
        rcases mem_cons.mp ht with heq | ht
        · cases heq
          exact ⟨rfl, rfl⟩
        · exact hpop.numbered_fields q' r' h ht
      numbered_once := fun h => by
        have honce := hpop.numbered_once h
        rw [countP_cons]
        by_cases hnew : h = ⟨L.nextID + 1, r, q, a⟩
        · subst hnew
          have hzero := hpop.countP_fresh hfresh
          have hout : (⟨L.nextID + 1, r, q, a⟩ : Holding κ ℓ) ∉ L.holdings :=
            fun hmem => hfresh (hL.holdings_created hmem)
          rw [if_neg hout]
          simp only at hzero
          rw [hzero]
          simp [numbered?]
        · rw [if_neg (by simp [numbered?]; exact fun heq => hnew heq.symm)]
          exact honce }
  | @convert q r h T hT hr =>
    have hmem : .numbered q r h ∈ L.tokens := hT ▸ mem_cons_self _ _
    have hpop := hL.pop hT
    exact { hpop with
      holdings_created := fun h' hh' => by
        rcases Finset.mem_insert.mp hh' with rfl | hh'
        · exact hL.created_of_cons hT rfl
        · exact hL.holdings_created hh'
      numbered_once := fun h' => by
        have honce := hL.numbered_once h'
        rw [hT, countP_cons] at honce
        by_cases heq : h' = h
        · subst heq
          rw [if_pos (by rfl), if_neg (hL.notMem_holdings hmem)] at honce
          rw [if_pos (Finset.mem_insert_self _ _)]
          exact honce
        · have hiff : h' ∈ insert h L.holdings ↔ h' ∈ L.holdings := by simp [heq]
          dsimp only
          rw [if_congr hiff rfl rfl]
          omega }
  | refuse hT =>
    exact { (hL.pop hT).push (t := .carrying _ _) (by simp [holding?]) rfl with }
  | abandon hT =>
    exact { (hL.pop hT).push (t := .entered _) (by simp [holding?]) rfl with }
  | @finish h hh =>
    exact { (hL.erase h).push (t := .ended h)
      (by simpa [holding?] using hL.holdings_created hh) rfl with }
  | @mark h hh =>
    exact { hL.push (t := .losing h) (by simpa [holding?] using hh) rfl with }
  | @lose h T hT hh => exact { (hL.pop hT).erase h with }
  | late hT => exact { hL.pop hT with }
  | @keep h T hT =>
    exact { (hL.pop hT).push (t := .kept h)
      (by simpa [holding?] using hL.created_of_cons hT rfl) rfl with }
  | handBack ht hT => exact { hL.pop hT with }
  | letGo ht hgone hT => exact { hL.pop hT with }

/-! ## Slots: tickets and the holdings they become -/

/-- Ticket `r` was exchanged for `h`, which is still in place. -/
def HeldBy (r : ℕ) (h : Holding κ ℓ) : Prop :=
  h ∈ L.holdings ∧ h.ticket = r

/-- Ticket `r` is neither out nor exchanged for anything in place. -/
def Settled (r : ℕ) : Prop :=
  r ∉ L.tickets ∧ ∀ h, ¬ L.HeldBy r h

/-- The bound is kept, and no slot is counted twice: tickets out have no
holding, and no two holdings come from one ticket. -/
structure Slots (bound : ℤ) (L : Ledger κ ℓ) : Prop where
  capacity : (L.tickets.card + L.holdings.card : ℤ) ≤ bound
  tickets_granted : L.tickets ⊆ L.granted
  ticket_granted : ∀ r h, L.HeldBy r h → r ∈ L.granted
  ticket_unheld : ∀ r ∈ L.tickets, ∀ h, ¬ L.HeldBy r h
  heldBy_unique : ∀ r h h', L.HeldBy r h → L.HeldBy r h' → h = h'

omit [DecidableEq κ] [DecidableEq ℓ] in
/-- Giving slots up keeps the books in order. -/
theorem Slots.mono (hL : L.Slots bound) (ht : L'.tickets ⊆ L.tickets)
    (hh : L'.holdings ⊆ L.holdings) (hg : L'.granted = L.granted) : L'.Slots bound where
  capacity := by
    have h₁ := Finset.card_le_card ht
    have h₂ := Finset.card_le_card hh
    have h₃ := hL.capacity
    omega
  tickets_granted := hg ▸ ht.trans hL.tickets_granted
  ticket_granted r h hr := hg ▸ hL.ticket_granted r h ⟨hh hr.1, hr.2⟩
  ticket_unheld r hr h hheld := hL.ticket_unheld r (ht hr) h ⟨hh hheld.1, hheld.2⟩
  heldBy_unique r h h' h₁ h₂ := hL.heldBy_unique r h h' ⟨hh h₁.1, h₁.2⟩ ⟨hh h₂.1, h₂.2⟩

/-- A grant needs a free slot and its number is new. -/
theorem Slots.grant (hL : L.Slots bound) (hN : L.Numbered)
    (hfree : (L.tickets.card + L.holdings.card : ℤ) < bound) :
    ({ L with
      nextID := L.nextID + 1
      tickets := insert (L.nextID + 1) L.tickets
      granted := insert (L.nextID + 1) L.granted } : Ledger κ ℓ).Slots bound := by
  have hfresh : L.nextID + 1 ∉ L.granted := fun hmem => by
    have hle := hN.granted_le _ hmem
    omega
  refine ⟨?_, ?_, ?_, ?_, hL.heldBy_unique⟩
  · rw [Finset.card_insert_of_notMem fun hmem => hfresh (hL.tickets_granted hmem)]
    push_cast
    omega
  · exact Finset.insert_subset_insert _ hL.tickets_granted
  · exact fun r h hr => Finset.mem_insert_of_mem (hL.ticket_granted r h hr)
  · intro r hr h hheld
    rcases Finset.mem_insert.mp hr with rfl | hr
    · exact hfresh (hL.ticket_granted _ h hheld)
    · exact hL.ticket_unheld r hr h hheld

/-- **Converting a ticket leaves the number of slots in use unchanged.** -/
theorem card_convert {h : Holding κ ℓ} (hr : r ∈ L.tickets) (hh : h ∉ L.holdings) :
    (L.tickets.erase r).card + (insert h L.holdings).card
      = L.tickets.card + L.holdings.card := by
  have hpos := Finset.card_pos.mpr ⟨r, hr⟩
  rw [Finset.card_erase_of_mem hr, Finset.card_insert_of_notMem hh]
  omega

/-- A conversion moves the slot of its own ticket and of no other. -/
theorem Slots.convert (hL : L.Slots bound) {h : Holding κ ℓ} (hr : r ∈ L.tickets)
    (hh : h ∉ L.holdings) (hticket : h.ticket = r) (T : Multiset (Token κ ℓ)) :
    ({ L with
      tickets := L.tickets.erase r
      holdings := insert h L.holdings
      tokens := T } : Ledger κ ℓ).Slots bound := by
  have hnew : ∀ r' h', h' ∈ insert h L.holdings → h'.ticket = r' →
      h' = h ∧ r' = r ∨ L.HeldBy r' h' := by
    intro r' h' hmem ht
    rcases Finset.mem_insert.mp hmem with rfl | hmem
    · exact .inl ⟨rfl, ht.symm.trans hticket⟩
    · exact .inr ⟨hmem, ht⟩
  refine ⟨?_, (Finset.erase_subset r _).trans hL.tickets_granted, ?_, ?_, ?_⟩
  · have hcard := card_convert hr hh
    have hcap := hL.capacity
    dsimp only
    omega
  · intro r' h' hheld
    rcases hnew r' h' hheld.1 hheld.2 with ⟨-, rfl⟩ | hold
    · exact hL.tickets_granted hr
    · exact hL.ticket_granted r' h' hold
  · intro r' hr' h' hheld
    rcases hnew r' h' hheld.1 hheld.2 with ⟨-, rfl⟩ | hold
    · exact Finset.notMem_erase _ _ hr'
    · exact hL.ticket_unheld r' (Finset.mem_of_mem_erase hr') h' hold
  · intro r' h₁ h₂ hh₁ hh₂
    rcases hnew r' h₁ hh₁.1 hh₁.2 with ⟨rfl, rfl⟩ | hold₁
    · rcases hnew r' h₂ hh₂.1 hh₂.2 with ⟨rfl, -⟩ | hold₂
      · rfl
      · exact absurd hold₂ (hL.ticket_unheld r' hr h₂)
    · rcases hnew r' h₂ hh₂.1 hh₂.2 with ⟨rfl, rfl⟩ | hold₂
      · exact absurd hold₁ (hL.ticket_unheld r' hr h₁)
      · exact hL.heldBy_unique r' h₁ h₂ hold₁ hold₂

/-- **The slots invariant**, for every action. -/
theorem Step.slots (hs : Step bound admits L L') (hN : L.Numbered) (hL : L.Slots bound) :
    L'.Slots bound := by
  cases hs with
  | grant hfree => exact hL.grant hN hfree
  | drop hR => exact hL.mono hR subset_rfl rfl
  | @convert q r h T hT hr =>
    have hmem : .numbered q r h ∈ L.tokens := hT ▸ mem_cons_self _ _
    exact hL.convert hr (hN.notMem_holdings hmem) (hN.numbered_fields q r h hmem).2 T
  | finish | lose => exact hL.mono subset_rfl (Finset.erase_subset _ _) rfl
  | enter | leave | acquire | number | refuse | abandon | mark | late | keep | handBack
  | letGo => exact hL.mono subset_rfl subset_rfl rfl

/-- A step takes no slot of a ticket that was granted before and is not out:
new holdings of it would need the ticket. -/
theorem Step.heldBy_old (hs : Step bound admits L L') (hN : L.Numbered) (hr : r ∈ L.granted)
    (hout : r ∉ L.tickets) : r ∉ L'.tickets ∧ ∀ h, L'.HeldBy r h → L.HeldBy r h := by
  cases hs with
  | grant =>
    refine ⟨fun hmem => ?_, fun h hheld => hheld⟩
    rcases Finset.mem_insert.mp hmem with rfl | hmem
    · have hle := hN.granted_le _ hr
      omega
    · exact hout hmem
  | drop hR => exact ⟨fun hmem => hout (hR hmem), fun h hheld => hheld⟩
  | @convert q r' h T hT hr' =>
    have hmem : .numbered q r' h ∈ L.tokens := hT ▸ mem_cons_self _ _
    refine ⟨fun hin => hout (Finset.mem_of_mem_erase hin), fun h' hheld => ?_⟩
    rcases Finset.mem_insert.mp hheld.1 with rfl | hold
    · have hticket := (hN.numbered_fields q r' h' hmem).2
      rw [hheld.2] at hticket
      exact absurd (hticket ▸ hr') hout
    · exact ⟨hold, hheld.2⟩
  | finish | lose =>
    exact ⟨hout, fun h hheld => ⟨Finset.mem_of_mem_erase hheld.1, hheld.2⟩⟩
  | enter | leave | acquire | number | refuse | abandon | mark | late | keep | handBack
  | letGo => exact ⟨hout, fun h hheld => hheld⟩

/-- **A settled ticket stays settled**: its slot is never held again. -/
theorem Step.settled (hs : Step bound admits L L') (hN : L.Numbered) (hr : r ∈ L.granted)
    (hset : L.Settled r) : L'.Settled r := by
  obtain ⟨hout, hold⟩ := hs.heldBy_old hN hr hset.1
  exact ⟨hout, fun h hheld => hset.2 h (hold h hheld)⟩

/-- **A converted ticket stays with its holding** until it is settled. -/
theorem Step.heldBy (hs : Step bound admits L L') (hN : L.Numbered) (hL : L.Slots bound)
    {h : Holding κ ℓ} (hheld : L.HeldBy r h) : L'.HeldBy r h ∨ L'.Settled r := by
  have hr := hL.ticket_granted r h hheld
  obtain ⟨hout, hold⟩ :=
    hs.heldBy_old hN hr fun hmem => hL.ticket_unheld r hmem h hheld
  by_cases hin : h ∈ L'.holdings
  · exact .inl ⟨hin, hheld.2⟩
  · refine .inr ⟨hout, fun h' hheld' => hin ?_⟩
    rw [hL.heldBy_unique r h h' hheld (hold h' hheld')]
    exact hheld'.1

/-! ## Units: what a quota's use is made of -/

/-- The units of `q` that are accounted for: one per holding, one per party
that entered and has neither converted nor left. -/
def unitsOut (q : κ) : ℕ :=
  (L.holdings.filter (·.quota = q)).card + L.tokens.countP (·.quota? = some q)

omit [DecidableEq ℓ] in
theorem free_add {q q' : κ} (hpos : q' = q → 0 < L.use q) :
    L.free q q' + (if q' = q then 1 else 0) = L.use q' := by
  unfold free
  by_cases heq : q' = q
  · subst heq
    rw [update_self, if_pos rfl]
    exact Nat.succ_pred_eq_of_pos (hpos rfl)
  · rw [update_of_ne heq, if_neg heq, Nat.add_zero]

theorem free_held {h : Holding κ ℓ} (hh : h ∈ L.holdings) {q' : κ} {n : ℕ}
    (hq' : L.use q' = (L.holdings.filter (·.quota = q')).card + n) :
    L.free h.quota q' + (if h.quota = q' then 1 else 0) = L.use q' := by
  have herase := card_filter_erase (·.quota = q') hh
  have hpos : q' = h.quota → 0 < L.use h.quota := by
    rintro rfl
    rw [if_pos rfl] at herase
    omega
  rw [← free_add hpos, if_congr eq_comm rfl rfl]

/-- **The use of a quota is exactly what is accounted for**, for every
action. -/
theorem Step.units (hs : Step bound admits L L') (hN : L.Numbered)
    (hL : ∀ q, L.use q = L.unitsOut q) : ∀ q, L'.use q = L'.unitsOut q := by
  intro q'
  have hq' := hL q'
  unfold unitsOut at hq' ⊢
  cases hs with
  | grant | drop => exact hq'
  | mark => simpa using hq'
  | @enter q =>
    by_cases heq : q' = q
    · subst heq
      simp only [update_self, countP_cons, quota?_entered, if_true]
      omega
    · simp only [update_of_ne heq, countP_cons, quota?_entered,
        Option.some.injEq, if_neg (Ne.symm heq)]
      omega
  | @leave q T hT =>
    simp only [hT, countP_cons, quota?_entered, Option.some.injEq] at hq'
    have hpos : q' = q → 0 < L.use q := by
      rintro rfl
      rw [if_pos rfl] at hq'
      omega
    have hfree := free_add hpos
    rw [if_congr eq_comm rfl rfl] at hfree
    dsimp only
    omega
  | acquire a hT | refuse hT | abandon hT | number r hT =>
    simp only [hT, countP_cons, quota?_entered, quota?_carrying,
      quota?_numbered] at hq' ⊢
    exact hq'
  | @convert q r h T hT hr =>
    have hmem : .numbered q r h ∈ L.tokens := hT ▸ mem_cons_self _ _
    have hfields := hN.numbered_fields q r h hmem
    simp only [hT, countP_cons, quota?_numbered, Option.some.injEq] at hq'
    dsimp only
    rw [card_filter_insert _ (hN.notMem_holdings hmem), hfields.1]
    omega
  | @finish h hh =>
    have hfree := free_held hh hq'
    have herase := card_filter_erase (·.quota = q') hh
    simp only [countP_cons, quota?_ended, reduceCtorEq, if_false]
    omega
  | @lose h T hT hh =>
    have hfree := free_held hh hq'
    have herase := card_filter_erase (·.quota = q') hh
    simp only [hT, countP_cons, quota?_losing, reduceCtorEq, if_false] at hq'
    dsimp only
    omega
  | late hT | keep hT =>
    simp only [hT, countP_cons, quota?_losing, quota?_ended,
      quota?_kept, reduceCtorEq, if_false] at hq' ⊢
    exact hq'
  | handBack ht hT | letGo ht hgone hT =>
    rw [hT, countP_cons] at hq'
    rcases ht with rfl | rfl <;> simpa using hq'

/-- A quota entered only with the maximum `m` is never used beyond it. -/
theorem Step.use_le (hs : Step bound admits L L') {q : κ} {m : ℤ}
    (hadm : ∀ m', admits q m' → m' = m) (hpos : 0 < m) (hL : (L.use q : ℤ) ≤ m) :
    (L'.use q : ℤ) ≤ m := by
  have hfree : ∀ q', (L.free q' q : ℤ) ≤ m := by
    intro q'
    refine le_trans (Int.ofNat_le.mpr ?_) hL
    unfold free
    by_cases heq : q = q'
    · subst heq
      rw [update_self]
      exact Nat.sub_le _ _
    · rw [update_of_ne heq]
  cases hs with
  | @enter q' m' hq' hm' =>
    dsimp only
    by_cases heq : q = q'
    · subst heq
      have hlt := hm' (by rw [hadm m' hq']; exact hpos)
      rw [hadm m' hq'] at hlt
      rw [update_self]
      push_cast
      omega
    · rw [update_of_ne heq]
      exact hL
  | leave | finish | lose => exact hfree _
  | grant | drop | acquire | number | convert | refuse | abandon | mark | late | keep
  | handBack | letGo => exact hL

/-! ## Assets: handed back once, never dropped -/

/-- Where the asset `a` is: with a holding, with a party in flight, or handed
back. -/
def carriers (a : ℓ) : ℕ :=
  (L.holdings.filter (·.asset = a)).card + L.tokens.countP (·.asset? = some a)
    + L.handedBack.count a

/-- Some holding that had the asset `a` found it gone. -/
def Lost (a : ℓ) : Prop :=
  ∃ h ∈ L.created, h.asset = a ∧ L.gone h.id = true

/-- A party that still has its unit has the asset `a` in hand. -/
def InHand (a : ℓ) : Prop :=
  ∃ t ∈ L.tokens, t.quota?.isSome ∧ t.asset? = some a

/-- **An asset in hand stays there** until it is exchanged or handed back. -/
theorem Step.inHand (hs : Step bound admits L L') {a : ℓ} (hin : L.InHand a) :
    L'.InHand a ∨ (∃ h ∈ L'.holdings, h.asset = a) ∨ a ∈ L'.handedBack := by
  obtain ⟨t, ht, hq, ha⟩ := hin
  -- the token with the asset is the one the step takes, or stays
  have hpop : ∀ {t₀ : Token κ ℓ} {T}, L.tokens = t₀ ::ₘ T → t = t₀ ∨ t ∈ T :=
    fun hT => mem_cons.mp (hT ▸ ht)
  cases hs with
  | grant | drop => exact .inl ⟨t, ht, hq, ha⟩
  | enter | finish | mark => exact .inl ⟨t, mem_cons_of_mem ht, hq, ha⟩
  | leave hT | lose hT | late hT =>
    rcases hpop hT with rfl | hmem
    · cases ha
    · exact .inl ⟨t, hmem, hq, ha⟩
  | acquire _ hT =>
    rcases hpop hT with rfl | hmem
    · cases ha
    · exact .inl ⟨t, mem_cons_of_mem hmem, hq, ha⟩
  | keep hT =>
    rcases hpop hT with rfl | hmem
    · cases hq
    · exact .inl ⟨t, mem_cons_of_mem hmem, hq, ha⟩
  | number r hT | refuse hT =>
    rcases hpop hT with rfl | hmem
    · exact .inl ⟨_, mem_cons_self _ _, rfl, ha⟩
    · exact .inl ⟨t, mem_cons_of_mem hmem, hq, ha⟩
  | @convert q r h T hT hr =>
    rcases hpop hT with rfl | hmem
    · exact .inr (.inl ⟨h, Finset.mem_insert_self h _, Option.some.inj ha⟩)
    · exact .inl ⟨t, hmem, hq, ha⟩
  | @abandon q b T hT =>
    rcases hpop hT with rfl | hmem
    · cases ha
      exact .inr (.inr (mem_cons_self _ _))
    · exact .inl ⟨t, mem_cons_of_mem hmem, hq, ha⟩
  | handBack ht₀ hT | letGo ht₀ _ hT =>
    rcases hpop hT with rfl | hmem
    · rcases ht₀ with rfl | rfl <;> cases hq
    · exact .inl ⟨t, hmem, hq, ha⟩

/-- Who finds an asset gone has marked it so. -/
def LosingGone : Prop :=
  ∀ h, .losing h ∈ L.tokens → L.gone h.id = true

variable (hs : Step bound admits L L') (hN : L.Numbered)
include hs hN

theorem Step.gone_mono {h : Holding κ ℓ}
    (hh : h ∈ L.created) (hgone : L.gone h.id = true) : h ∈ L'.created ∧ L'.gone h.id = true := by
  cases hs with
  | number =>
    have hle := hN.created_le h hh
    refine ⟨Finset.mem_insert_of_mem hh, ?_⟩
    have hne : h.id ≠ L.nextID + 1 := by omega
    dsimp only
    rw [update_of_ne hne]
    exact hgone
  | @mark h' =>
    refine ⟨hh, ?_⟩
    dsimp only
    by_cases heq : h.id = h'.id
    · rw [heq, update_self]
    · rw [update_of_ne heq]
      exact hgone
  | grant | drop | enter | leave | acquire | convert | refuse | abandon | finish | lose
  | late | keep | handBack | letGo => exact ⟨hh, hgone⟩

theorem Step.lost_mono {a : ℓ} (hlost : L.Lost a) : L'.Lost a := by
  obtain ⟨h, hh, ha, hgone⟩ := hlost
  obtain ⟨hh', hgone'⟩ := hs.gone_mono hN hh hgone
  exact ⟨h, hh', ha, hgone'⟩

/-- A token of the next state that finds an asset gone is an old one, or the
mark was just made. -/
theorem Step.losingGone (hL : L.LosingGone) : L'.LosingGone := by
  intro h ht
  -- an old token keeps its mark; only `mark` makes a new one
  have hold : .losing h ∈ L.tokens → L'.gone h.id = true := fun hmem =>
    (hs.gone_mono hN (hN.token_created _ hmem h rfl) (hL h hmem)).2
  cases hs with
  | grant | drop | convert | refuse | abandon | acquire | number | keep | leave | enter
  | finish | lose | late | handBack | letGo =>
    refine hold ?_
    simp_all
  | @mark h' =>
    rcases mem_cons.mp ht with heq | hmem
    · cases heq
      exact update_self _ _ _
    · exact hold hmem

/-- What an action does to the whereabouts of an asset: it stays where it is,
is acquired, or is dropped because it is gone. -/
theorem Step.carriers (hG : L.LosingGone) (a : ℓ) :
    (L'.carriers a = L.carriers a ∧ L'.acquired = L.acquired) ∨
    (∃ b, L'.carriers a = L.carriers a + (if a = b then 1 else 0) ∧
      L'.acquired = b ::ₘ L.acquired) ∨
    (L'.carriers a ≤ L.carriers a ∧ L'.acquired = L.acquired ∧
      (L'.carriers a < L.carriers a → L.Lost a)) := by
  unfold Ledger.carriers
  cases hs with
  | grant | drop => exact .inl ⟨rfl, rfl⟩
  | enter | mark => exact .inl ⟨by simp, rfl⟩
  | leave hT => exact .inl ⟨by simp [hT], rfl⟩
  | @acquire q T b hT =>
    refine .inr (.inl ⟨b, ?_, rfl⟩)
    simp only [hT, countP_cons, asset?_carrying, asset?_entered,
      Option.some.injEq, reduceCtorEq, if_false, if_congr (eq_comm (a := a)) rfl rfl]
    omega
  | number r hT | refuse hT | keep hT =>
    refine .inl ⟨?_, rfl⟩
    simp only [hT, countP_cons, asset?_carrying, asset?_numbered,
      asset?_ended, asset?_kept, Option.some.injEq]
  | @convert q r h T hT hr =>
    have hmem : .numbered q r h ∈ L.tokens := hT ▸ mem_cons_self _ _
    refine .inl ⟨?_, rfl⟩
    rw [card_filter_insert _ (hN.notMem_holdings hmem)]
    simp only [hT, countP_cons, asset?_numbered, Option.some.injEq]
    omega
  | @abandon q b T hT =>
    refine .inl ⟨?_, rfl⟩
    simp only [hT, countP_cons, count_cons, asset?_carrying,
      asset?_entered, Option.some.injEq, reduceCtorEq, if_false,
      if_congr (eq_comm (a := a)) rfl rfl]
    omega
  | @finish h hh =>
    have herase := card_filter_erase (·.asset = a) hh
    refine .inl ⟨?_, rfl⟩
    simp only [countP_cons, asset?_ended, Option.some.injEq]
    omega
  | @lose h T hT hh =>
    have herase := card_filter_erase (·.asset = a) hh
    refine .inr (.inr ⟨?_, rfl, fun hlt => ?_⟩)
    · simp only [hT, countP_cons, asset?_losing, reduceCtorEq, if_false]
      omega
    · -- the count only falls when the lost holding had this asset
      have hmem : .losing h ∈ L.tokens := hT ▸ mem_cons_self _ _
      refine ⟨h, hN.token_created _ hmem h rfl, ?_, hG h hmem⟩
      by_contra hne
      simp only [hT, countP_cons, asset?_losing, reduceCtorEq, if_false] at hlt
      rw [if_neg hne] at herase
      omega
  | late hT => exact .inl ⟨by simp [hT], rfl⟩
  | @handBack h t T ht hT =>
    refine .inl ⟨?_, rfl⟩
    have hasset : t.asset? = some h.asset := by rcases ht with rfl | rfl <;> rfl
    simp only [hT, countP_cons, count_cons, hasset, Option.some.injEq,
      if_congr (eq_comm (a := a)) rfl rfl]
    omega
  | @letGo h t T ht hgone hT =>
    have hasset : t.asset? = some h.asset := by rcases ht with rfl | rfl <;> rfl
    have hmem : t ∈ L.tokens := hT ▸ mem_cons_self _ _
    refine .inr (.inr ⟨?_, rfl, fun hlt => ?_⟩)
    · simp only [hT, countP_cons]
      omega
    · refine ⟨h, hN.token_created t hmem h ?_, ?_, hgone⟩
      · rcases ht with rfl | rfl <;> rfl
      · by_contra hne
        simp only [hT, countP_cons, hasset, Option.some.injEq, if_neg hne] at hlt
        omega

/-- **An asset is in one place**, or handed back, as often as it was
acquired. -/
theorem Step.assets_le (hG : L.LosingGone) (hL : ∀ a, L.carriers a ≤ L.acquired.count a) :
    ∀ a, L'.carriers a ≤ L'.acquired.count a := by
  intro a
  have ha := hL a
  rcases hs.carriers hN hG a with ⟨hc, hacq⟩ | ⟨b, hc, hacq⟩ | ⟨hc, hacq, -⟩
  · rwa [hc, hacq]
  · rw [hc, hacq, count_cons]
    omega
  · rw [hacq]
    omega

/-- **An acquired asset is never dropped** unless it is gone. -/
theorem Step.assets_kept (hG : L.LosingGone) (hL : ∀ a ∈ L.acquired, 0 < L.carriers a ∨ L.Lost a) :
    ∀ a ∈ L'.acquired, 0 < L'.carriers a ∨ L'.Lost a := by
  intro a ha
  rcases hs.carriers hN hG a with ⟨hc, hacq⟩ | ⟨b, hc, hacq⟩ | ⟨hc, hacq, hlost⟩
  · rw [hc]
    exact (hL a (hacq ▸ ha)).imp_right (hs.lost_mono hN)
  · by_cases heq : a = b
    · left
      rw [hc, if_pos heq]
      omega
    · have hmem : a ∈ L.acquired := by
        rw [hacq] at ha
        exact (mem_cons.mp ha).resolve_left heq
      rw [hc, if_neg heq, Nat.add_zero]
      exact (hL a hmem).imp_right (hs.lost_mono hN)
  · by_cases hlt : L'.carriers a < L.carriers a
    · exact .inr (hs.lost_mono hN (hlost hlt))
    · have hsame : L'.carriers a = L.carriers a := by omega
      rw [hsame]
      exact (hL a (hacq ▸ ha)).imp_right (hs.lost_mono hN)

end Ledger

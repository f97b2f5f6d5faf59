import FlintlockRunner.Base.Assoc
import FlintlockRunner.Base.Machine
import FlintlockRunner.Base.Threads
import FlintlockRunner.Flintlock.Registry

/-!
# How long a Host's connection lives

The registry under every interleaving of its sections: `Apply` calls one after
the other, each with any list and with dials that fail at will, and beside them
any number of `Lease`, `release`, `Get` and `Close` calls. A call that has left
its last section still has clients to close, which it does without the lock, so
the calls at that point are part of the state (`closing`).

`Books` is the registry's own accounting: each published client is live, or
retired with a holder, or marked closed, and it is marked exactly if a call has
closed it or is about to. `Building` is what an `Apply` between its sections
may rely on.
-/

namespace FlintlockRunner.Flintlock

open AList List Multiset Threads

/-! ## The system -/

/-- An `Apply` before its second section. -/
structure Applying where
  current : AList fun _ : String => Client
  todo : List Endpoint
  build : Build

/-- The registry and the calls on it: the leases whose release function has not
been called, and the calls that have clients left to close. The last two are
history: how often each client was closed, and the clients that an `Apply` that
returned nil had dialled. -/
structure Sys where
  registry : Registry
  dials : Nat
  applying : Option Applying
  held : Multiset Client
  closing : List (List Client)
  closes : Client → Nat
  published : List Client

/-- What can happen. A release function that was called before does nothing
(`sync.Once`), so `release` is the first call of one. -/
inductive Label
  | apply (endpoints : List Endpoint)
  | turn (answer : Except String Unit)
  | publish
  | get (name : String)
  | lease (name : String)
  | release (k : Client)
  | close
  | closeClient (i : Nat)

/-- One step. -/
def Sys.next (s : Sys) : Label → Option Sys
  | .apply endpoints =>
    if s.applying.isSome then none
    else if s.registry.closed then some s
    else some { s with applying := some ⟨s.registry.hosts, endpoints, .empty⟩ }
  | .turn answer =>
    match s.applying with
    | some ⟨current, ep :: todo, b⟩ =>
      match b.turn current s.registry.entry ep (answer.map fun _ => s.dials) with
      | .ok b' => some { s with dials := s.dials + 1, applying := some ⟨current, todo, b'⟩ }
      | .error x =>
        some { s with
          dials := s.dials + 1, applying := none, closing := s.closing ++ [x.closes] }
    | _ => none
  | .publish =>
    match s.applying with
    | some ⟨current, [], b⟩ =>
      match s.registry.publish current b with
      | (r, .ok _, idle) =>
        some { s with
          registry := r, applying := none, closing := s.closing ++ [idle]
          published := s.published ++ b.clients }
      | (r, .error _, clients) =>
        some { s with registry := r, applying := none, closing := s.closing ++ [clients] }
    | _ => none
  | .get _ => some s
  | .lease name =>
    match s.registry.lease name with
    | (r, .ok k) => some { s with registry := r, held := k ::ₘ s.held }
    | (r, .error _) => some { s with registry := r }
  | .release k =>
    if k ∈ s.held then
      match s.registry.release k with
      | (r, clients) =>
        some { s with
          registry := r, held := s.held.erase k, closing := s.closing ++ [clients] }
    else none
  | .close =>
    match s.registry.close with
    | (r, clients) => some { s with registry := r, closing := s.closing ++ [clients] }
  | .closeClient i =>
    match s.closing[i]? with
    | some (k :: rest) =>
      some { s with
        closing := advance s.closing i rest [] []
        closes := Function.update s.closes k (s.closes k + 1) }
    | _ => none

/-- An empty registry that nobody has called. -/
def Sys.init : Sys := ⟨.new, 0, none, 0, [], fun _ => 0, []⟩

/-- The registry's runs. `NewRegistry` is the first `Apply`, with a `Close`
after it if it fails. -/
def connections : Machine Sys Label where
  init s := s = Sys.init
  next := Sys.next

/-- The client is in the live Inventory. -/
def Sys.live (s : Sys) (k : Client) : Prop := ∃ name, s.registry.hosts.lookup name = some k

/-- How often a client was closed, or is about to be by a call that is under
way. -/
def Sys.asked (s : Sys) (k : Client) : Nat := s.closes k + (frames s.closing).count k

/-! ## What the sections do to the entries -/

namespace Registry

variable (r : Registry) {k k' : Client}

theorem update_self (f : HostEntry → HostEntry) : (r.update k f).entry k = f (r.entry k) :=
  Function.update_self ..

theorem update_of_ne (f : HostEntry → HostEntry) (h : k' ≠ k) :
    (r.update k f).entry k' = r.entry k' := Function.update_of_ne h ..

/-- What `releasableLocked` makes of an entry that was just written to. -/
theorem releasableLocked_update (k : Client) (f : HostEntry → HostEntry) :
    ((f (r.entry k)).retired = true ∧ (f (r.entry k)).closed = false ∧ (f (r.entry k)).leases ≤ 0 ∧
      (r.update k f).releasableLocked k
        = (r.update k fun e => { f e with closed := true }, true)) ∨
    (¬ ((f (r.entry k)).retired = true ∧ (f (r.entry k)).closed = false ∧
      (f (r.entry k)).leases ≤ 0) ∧ (r.update k f).releasableLocked k = (r.update k f, false)) := by
  unfold releasableLocked
  rw [update_self]
  by_cases h : (f (r.entry k)).retired = true ∧ (f (r.entry k)).closed = false ∧
    (f (r.entry k)).leases ≤ 0
  · obtain ⟨hretired, hclosed, hleases⟩ := h
    refine .inl ⟨hretired, hclosed, hleases, ?_⟩
    rw [if_neg (by simp [hretired, hclosed, hleases]), update, update_self]
    exact congrArg (fun entry => ({ r with entry := entry }, true)) (Function.update_idem ..)
  · refine .inr ⟨h, if_pos ?_⟩
    by_contra hnot
    simp only [Bool.or_eq_true, Bool.not_eq_eq_eq_not, Bool.not_true, decide_eq_true_eq, not_or,
      Bool.not_eq_false, Bool.not_eq_true, not_lt] at hnot
    exact h ⟨hnot.1.1, hnot.1.2, hnot.2⟩

theorem store_spec : ∀ (dialled : List (Client × Endpoint)) (r : Registry),
    (dialled.map Prod.fst).Nodup →
    r.store dialled = { r with entry := (r.store dialled).entry } ∧
    (∀ {k ep}, (k, ep) ∈ dialled → (r.store dialled).entry k = .new ep) ∧
    ∀ {k}, k ∉ dialled.map Prod.fst → (r.store dialled).entry k = r.entry k
  | [], r, _ => ⟨rfl, nofun, fun _ => rfl⟩
  | (k₀, ep₀) :: rest, r, h => by
    obtain ⟨hnew, hrest⟩ := List.nodup_cons.mp h
    obtain ⟨hwrote, hin, hout⟩ := store_spec rest (r.update k₀ fun _ => .new ep₀) hrest
    refine ⟨hwrote, ?_, ?_⟩
    · intro k ep hk
      rcases List.mem_cons.mp hk with heq | hk
      · cases heq
        exact (hout hnew).trans (r.update_self _)
      · exact hin hk
    · intro k hk
      obtain ⟨hne, hk⟩ := not_or.mp (mt List.mem_cons.mpr hk)
      exact (hout hk).trans (r.update_of_ne _ hne)

/-- The client is in the Inventory. -/
def live (k : Client) : Prop := ∃ n, r.hosts.lookup n = some k

end Registry

/-! ## The accounting -/

/-- The account of a client that was published: `e` is its entry, `asked` how
often each client was closed or is to be, and `todo` what a loop of the section
has left to go through. -/
structure Account (r : Registry) (e : HostEntry) (held : Multiset Client) (asked : Client → Nat)
    (todo : List Client) (k : Client) : Prop where
  host : ∀ {n}, r.hosts.lookup n = some k →
    e.ep.name = n ∧ e.retired = false ∧ e.closed = false
  retired : k ∈ r.retired → e.retired = true ∧ e.closed = false ∧ k ∈ held
  leases : e.leases = held.count k
  accounted : r.live k ∨ k ∈ r.retired ∨ e.closed = true ∨ k ∈ todo
  marked : asked k = if e.closed then 1 else 0
  unused : r.closed = false → e.closed = true → k ∉ held
  left : k ∈ todo → e.closed = false ∧ ¬ r.live k ∧ k ∉ r.retired

/-- What the registry's books say of the clients that were published. -/
structure Books (r : Registry) (held : Multiset Client) (asked : Client → Nat)
    (todo published : List Client) (dials : Nat) : Prop where
  account : ∀ {k}, k ∈ published → Account r (r.entry k) held asked todo k
  known : ∀ {k}, r.live k ∨ k ∈ r.retired ∨ k ∈ held ∨ k ∈ todo → k ∈ published
  nodup : r.retired.Nodup
  shut : r.closed = true → r.hosts = ∅ ∧ r.retired = []
  dialled : ∀ {k}, k ∈ published → k < dials
  fresh : ∀ {k}, dials ≤ k → asked k = 0

/-- A section that leaves a client's account as it is. -/
structure Same (r r' : Registry) (held held' : Multiset Client) (asked asked' : Client → Nat)
    (todo todo' : List Client) (k : Client) : Prop where
  entry : r'.entry k = r.entry k
  retired : k ∈ r'.retired ↔ k ∈ r.retired
  held : held'.count k = held.count k
  asked : asked' k = asked k
  todo : k ∈ todo' ↔ k ∈ todo

section Books

variable {r r' : Registry} {held held' : Multiset Client} {asked asked' : Client → Nat}
  {todo todo' published : List Client} {dials dials' : Nat} {k : Client} {name : String}

theorem Same.mem_held (hS : Same r r' held held' asked asked' todo todo' k) :
    k ∈ held' ↔ k ∈ held := by
  rw [← one_le_count_iff_mem, hS.held, one_le_count_iff_mem]

theorem Account.same {e : HostEntry} (h : Account r e held asked todo k)
    (hhosts : r'.hosts = r.hosts) (hclosed : r'.closed = r.closed)
    (hS : Same r r' held held' asked asked' todo todo' k) : Account r' e held' asked' todo' k := by
  have hlive : r'.live k ↔ r.live k := by rw [Registry.live, hhosts, Registry.live]
  refine ⟨hhosts ▸ h.host, fun hr => ?_, h.leases.trans (congrArg _ hS.held.symm), ?_,
    hS.asked.trans h.marked, fun hopen hmark => ?_, fun ht => ?_⟩
  · rw [hS.mem_held]
    exact h.retired (hS.retired.mp hr)
  · rw [hlive, hS.retired, hS.todo]
    exact h.accounted
  · rw [hS.mem_held]
    exact h.unused (hclosed ▸ hopen) hmark
  · rw [hlive, hS.retired]
    exact h.left (hS.todo.mp ht)

/-- A section that touches one client's account. -/
theorem Books.touch (hB : Books r held asked todo published dials) (hk : k ∈ published)
    (hhosts : r'.hosts = r.hosts) (hclosed : r'.closed = r.closed) (hnodup : r'.retired.Nodup)
    (hshut : r.closed = true → r'.retired = [])
    (hsame : ∀ k', k' ≠ k → Same r r' held held' asked asked' todo todo' k')
    (hown : Account r' (r'.entry k) held' asked' todo' k) :
    Books r' held' asked' todo' published dials := by
  refine ⟨fun {k'} h => ?_, fun {k'} h => ?_, hnodup, fun h => ?_, hB.dialled, fun {k'} h => ?_⟩
  · by_cases heq : k' = k
    · exact heq ▸ hown
    · have hS := hsame k' heq
      rw [hS.entry]
      exact (hB.account h).same hhosts hclosed hS
  · by_cases heq : k' = k
    · exact heq ▸ hk
    · have hS := hsame k' heq
      refine hB.known (h.imp ?_ (Or.imp hS.retired.mp (Or.imp hS.mem_held.mp hS.todo.mp)))
      rintro ⟨n, hn⟩
      exact ⟨n, hhosts ▸ hn⟩
  · exact ⟨hhosts.trans (hB.shut (hclosed ▸ h)).1, hshut (hclosed ▸ h)⟩
  · have hne : k' ≠ k := fun heq => absurd (hB.dialled hk) (not_lt.mpr (heq ▸ h))
    exact (hsame k' hne).asked.trans (hB.fresh h)

theorem Books.later (hB : Books r held asked [] published dials) (hdials : dials ≤ dials')
    (hasked : ∀ k, k ∈ published ∨ dials' ≤ k → asked' k = asked k) :
    Books r held asked' [] published dials' where
  account {k} h :=
    have hA := hB.account h
    { hA with marked := (hasked k (.inl h)).trans hA.marked }
  known := hB.known
  nodup := hB.nodup
  shut := hB.shut
  dialled h := lt_of_lt_of_le (hB.dialled h) hdials
  fresh {k} h := (hasked k (.inr h)).trans (hB.fresh (hdials.trans h))

theorem count_other {k' : Client} (hne : k' ≠ k) (asked : Client → Nat) :
    asked k' + [k].count k' = asked k' := by
  rw [List.count_eq_zero.mpr fun h => hne (List.mem_singleton.mp h), add_zero]

theorem Account.asked_once {e : HostEntry} (h : Account r e held asked todo k)
    (hclosed : e.closed = false) : asked k + [k].count k = 1 := by
  rw [h.marked, hclosed, List.count_singleton_self]
  rfl

theorem count_first (asked : Client → Nat) (k : Client) (ks : List Client) :
    (fun k' => asked k' + (k :: ks).count k')
      = fun k' => asked k' + [k].count k' + ks.count k' := by
  funext k'
  rw [← singleton_append, List.count_append, add_assoc]

theorem mem_tail {k' : Client} (hne : k' ≠ k) {ks : List Client} : k' ∈ k :: ks ↔ k' ∈ ks :=
  mem_cons.trans (or_iff_right hne)

theorem Books.apart (hB : Books r held asked todo published dials) {n n' : String}
    (h : r.hosts.lookup n = some k) (h' : r.hosts.lookup n' = some k) : n = n' := by
  have hA := hB.account (hB.known (.inl ⟨n, h⟩))
  exact (hA.host h).1.symm.trans (hA.host h').1

/-! ### Each section -/

theorem Books.lease (hB : Books r held asked [] published dials)
    (hk : r.hosts.lookup name = some k) :
    Books (r.update k fun e => { e with leases := e.leases + 1 }) (k ::ₘ held) asked []
      published dials := by
  have hpub := hB.known (.inl ⟨name, hk⟩)
  have hA := hB.account hpub
  refine hB.touch hpub rfl rfl hB.nodup (fun h => (hB.shut h).2) (fun k' hne => ?_) ?_
  · exact ⟨r.update_of_ne _ hne, .rfl, count_cons_of_ne hne _, rfl, .rfl⟩
  · rw [r.update_self]
    refine ⟨hA.host, fun h => ?_, ?_, hA.accounted, hA.marked, fun _ hmark => ?_, nofun⟩
    · obtain ⟨hretired, hclosed, hheld⟩ := hA.retired h
      exact ⟨hretired, hclosed, mem_cons_of_mem hheld⟩
    · rw [Multiset.count_cons_self]
      exact congrArg (· + 1) hA.leases
    · exact absurd ((hA.host hk).2.2.symm.trans hmark) Bool.false_ne_true

theorem Books.release (hB : Books r held asked [] published dials) (hk : k ∈ held) :
    Books (r.release k).1 (held.erase k) (fun k' => asked k' + (r.release k).2.count k') []
      published dials := by
  have hpub := hB.known (.inr (.inr (.inl hk)))
  have hA := hB.account hpub
  have hone : 1 ≤ held.count k := one_le_count_iff_mem.mpr hk
  have hleases : (r.entry k).leases - 1 = ((held.erase k).count k : Int) := by
    rw [hA.leases, Multiset.count_erase_self]
    omega
  unfold Registry.release
  rcases r.releasableLocked_update k fun e => { e with leases := e.leases - 1 } with
    ⟨hretired, hclosed, hlast, heq⟩ | ⟨hnot, heq⟩
  · -- the last holder of a retired entry
    rw [heq]
    dsimp only at hretired hclosed hlast ⊢
    refine hB.touch hpub rfl rfl (hB.nodup.erase k) (fun h => ?_) (fun k' hne => ?_) ?_
    · exact congrArg (List.erase · k) (hB.shut h).2
    · exact ⟨r.update_of_ne (fun e => { e with leases := e.leases - 1, closed := true }) hne,
        List.mem_erase_of_ne hne, count_erase_of_ne hne _, count_other hne asked, .rfl⟩
    · rw [Registry.forgetRetiredLocked, r.update_self]
      refine ⟨fun h => ?_, fun h => absurd h hB.nodup.not_mem_erase, hleases,
        .inr (.inr (.inl rfl)), ?_, fun _ _ hin => ?_, nofun⟩
      · exact absurd ((hA.host h).2.1.symm.trans hretired) Bool.false_ne_true
      · exact hA.asked_once hclosed
      · have := one_le_count_iff_mem.mpr hin
        omega
  · -- the entry is still held, or is not retired
    rw [heq]
    dsimp only at hnot ⊢
    refine hB.touch hpub rfl rfl hB.nodup (fun h => (hB.shut h).2) (fun k' hne => ?_) ?_
    · exact ⟨r.update_of_ne _ hne, .rfl, count_erase_of_ne hne _, rfl, .rfl⟩
    · rw [r.update_self]
      refine ⟨hA.host, fun h => ?_, hleases, hA.accounted, hA.marked, fun hopen hmark => ?_, nofun⟩
      · obtain ⟨hretired, hclosed, -⟩ := hA.retired h
        refine ⟨hretired, hclosed, one_le_count_iff_mem.mp ?_⟩
        have hmore : ¬ (r.entry k).leases - 1 ≤ 0 := fun hle => hnot ⟨hretired, hclosed, hle⟩
        omega
      · exact absurd hk (hA.unused hopen hmark)

/-- The loop over the retired entries. -/
theorem Books.retire (hB : Books r held asked todo published dials) (hopen : r.closed = false)
    (htodo : todo.Nodup) :
    Books (r.retire todo).1 held (fun k => asked k + (r.retire todo).2.count k) []
      published dials := by
  induction todo generalizing r asked with
  | nil => exact hB
  | cons k todo ih =>
    obtain ⟨hk, htodo⟩ := List.nodup_cons.mp htodo
    have hpub := hB.known (.inr (.inr (.inr mem_cons_self)))
    have hA := hB.account hpub
    obtain ⟨hclosed, hlive, hret⟩ := hA.left mem_cons_self
    rw [Registry.retire]
    rcases r.releasableLocked_update k fun e => { e with retired := true } with
      ⟨-, -, hleases, heq⟩ | ⟨hnot, heq⟩
    · -- nothing holds the entry: it is closed now
      rw [heq]
      dsimp only at hleases ⊢
      rw [count_first]
      refine ih (hB.touch hpub rfl rfl hB.nodup (fun h => (hB.shut h).2) (fun k' hne => ?_) ?_)
        hopen htodo
      · exact ⟨r.update_of_ne _ hne, .rfl, rfl, count_other hne asked, (mem_tail hne).symm⟩
      · rw [r.update_self]
        refine ⟨fun h => absurd ⟨_, h⟩ hlive, fun h => absurd h hret, hA.leases,
          .inr (.inr (.inl rfl)), ?_, fun _ _ hin => ?_, fun h => absurd h hk⟩
        · exact hA.asked_once hclosed
        · have hone := one_le_count_iff_mem.mpr hin
          have := hA.leases
          omega
    · -- the entry is held: it waits
      rw [heq]
      have hmore : ¬ (r.entry k).leases ≤ 0 := fun hle => hnot ⟨rfl, hclosed, hle⟩
      refine ih (hB.touch hpub rfl rfl ?_ (fun h => ?_) (fun k' hne => ?_) ?_) hopen htodo
      · exact List.concat_eq_append ▸ hB.nodup.concat hret
      · exact absurd (hopen.symm.trans h) Bool.false_ne_true
      · refine ⟨r.update_of_ne (fun e => { e with retired := true }) hne, ?_, rfl, rfl,
          (mem_tail hne).symm⟩
        exact mem_append.trans (or_iff_left fun h => hne (List.mem_singleton.mp h))
      · rw [show Registry.entry _ k = _ from r.update_self _]
        refine ⟨fun h => absurd ⟨_, h⟩ hlive, fun _ => ⟨rfl, hclosed, ?_⟩, hA.leases,
          .inr (.inl (mem_concat_self)), hA.marked, hA.unused, fun h => absurd h hk⟩
        have := hA.leases
        exact one_le_count_iff_mem.mp (by omega)

/-- The loop of `Close`. -/
theorem Books.closeEntries (hB : Books r held asked todo published dials) (hshut : r.closed = true)
    (htodo : todo.Nodup) :
    Books (r.closeEntries todo).1 held (fun k => asked k + (r.closeEntries todo).2.count k) []
      published dials ∧ (r.closeEntries todo).1.closed = true ∧
    ∀ k ∈ (r.closeEntries todo).2, k ∈ published := by
  induction todo generalizing r asked with
  | nil => exact ⟨hB, hshut, nofun⟩
  | cons k todo ih =>
    obtain ⟨hk, htodo⟩ := List.nodup_cons.mp htodo
    have hpub := hB.known (.inr (.inr (.inr mem_cons_self)))
    have hA := hB.account hpub
    obtain ⟨hclosed, hlive, hret⟩ := hA.left mem_cons_self
    have hB' : Books (r.update k fun e => { e with closed := true }) held
        (fun k' => asked k' + [k].count k') todo published dials := by
      refine hB.touch hpub rfl rfl hB.nodup (fun h => (hB.shut h).2) (fun k' hne => ?_) ?_
      · exact ⟨r.update_of_ne _ hne, .rfl, rfl, count_other hne asked, (mem_tail hne).symm⟩
      · rw [r.update_self]
        refine ⟨fun h => absurd ⟨_, h⟩ hlive, fun h => absurd h hret, hA.leases,
          .inr (.inr (.inl rfl)), ?_, fun hopen => ?_, fun h => absurd h hk⟩
        · exact hA.asked_once hclosed
        · exact absurd (hopen.symm.trans hshut) Bool.false_ne_true
    obtain ⟨hbooks, hshut', hall⟩ := ih hB' hshut htodo
    rw [Registry.closeEntries, hclosed, if_neg Bool.false_ne_true, count_first]
    refine ⟨hbooks, hshut', fun k' h => ?_⟩
    rcases List.mem_cons.mp h with rfl | h
    · exact hpub
    · exact hall k' h

theorem mem_clients : k ∈ r.hosts.entries.map Sigma.snd ↔ r.live k := by
  constructor
  · intro h
    obtain ⟨⟨n, k'⟩, hmem, rfl⟩ := List.mem_map.mp h
    exact ⟨n, mem_lookup_iff.mpr hmem⟩
  · rintro ⟨n, h⟩
    exact List.mem_map.mpr ⟨⟨n, k⟩, mem_lookup_iff.mp h, rfl⟩

/-- What `Close` has to go through: every client that is live or retired. -/
theorem Books.nodup_left (hB : Books r held asked [] published dials) :
    (r.hosts.entries.map Sigma.snd ++ r.retired).Nodup := by
  refine nodup_append.mpr ⟨List.Nodup.map_on ?_ r.hosts.nodupKeys.nodup, hB.nodup, ?_⟩
  · rintro ⟨n, k⟩ h ⟨n', k'⟩ h' heq
    dsimp only at heq
    cases heq
    have hname : n = n' := hB.apart (mem_lookup_iff.mpr h) (mem_lookup_iff.mpr h')
    rw [hname]
  · rintro k hlive _ hret rfl
    obtain ⟨n, hn⟩ := mem_clients.mp hlive
    have hA := hB.account (hB.known (.inl ⟨n, hn⟩))
    exact Bool.false_ne_true ((hA.host hn).2.1.symm.trans (hA.retired hret).1)

theorem Books.close (hB : Books r held asked [] published dials) (hopen : r.closed = false) :
    Books r.close.1 held (fun k => asked k + r.close.2.count k) [] published dials ∧
    r.close.1.closed = true ∧ ∀ k ∈ r.close.2, k ∈ published := by
  have hleft : Books { r with closed := true, hosts := ∅, retired := [] } held asked
      (r.hosts.entries.map Sigma.snd ++ r.retired) published dials := by
    refine ⟨fun {k} h => ?_, fun {k} h => ?_, nodup_nil, fun _ => ⟨rfl, rfl⟩, hB.dialled, hB.fresh⟩
    · have hA := hB.account h
      refine ⟨nofun, nofun, hA.leases, ?_, hA.marked, nofun, fun h => ?_⟩
      · rcases hA.accounted with h | h | h | h
        · exact .inr (.inr (.inr (mem_append_left _ (mem_clients.mpr h))))
        · exact .inr (.inr (.inr (mem_append_right _ h)))
        · exact .inr (.inr (.inl h))
        · cases h
      · refine ⟨?_, nofun, nofun⟩
        rcases mem_append.mp h with h | h
        · obtain ⟨n, hn⟩ := mem_clients.mp h
          exact (hA.host hn).2.2
        · exact (hA.retired h).2.1
    · rcases h with ⟨n, ⟨⟩⟩ | ⟨⟨⟩⟩ | h | h
      · exact hB.known (.inr (.inr (.inl h)))
      · rcases mem_append.mp h with h | h
        · exact hB.known (.inl (mem_clients.mp h))
        · exact hB.known (.inr (.inl h))
  unfold Registry.close
  rw [hopen]
  exact hleft.closeEntries rfl hB.nodup_left

end Books

/-- What an `Apply` between its sections relies on. -/
structure Building (s : Sys) (ap : Applying) : Prop where
  current : s.registry.closed = false → ap.current = s.registry.hosts
  old : ∀ {n k}, ap.current.lookup n = some k → k ∈ s.published
  apart : ∀ {n n' k}, ap.current.lookup n = some k → ap.current.lookup n' = some k → n = n'
  next : ∀ {n k}, ap.build.next.lookup n = some k →
    ap.current.lookup n = some k ∨ ∃ ep, (k, ep) ∈ ap.build.dialled ∧ ep.name = n
  names : ∀ {k ep}, (k, ep) ∈ ap.build.dialled → ap.build.next.lookup ep.name = some k
  fresh : ∀ {k}, k ∈ ap.build.clients → k ∉ s.published ∧ k < s.dials ∧ s.asked k = 0
  clients : ap.build.clients.Nodup
  retired : ∀ {k}, k ∈ ap.build.retired ↔
    ∃ n, ap.current.lookup n = some k ∧ n ∈ ap.build.next ∧ ap.build.next.lookup n ≠ some k
  nodup : ap.build.retired.Nodup

variable {s s' : Sys} {l : Label} {k : Client}

/-- A call that has closed its last section adds the clients it is to close. -/
theorem count_closing (closing : List (List Client)) (clients : List Client) (k : Client) :
    (frames (closing ++ [clients])).count k = (frames closing).count k + clients.count k := by
  rw [frames_append, count_add, frames_cons, frames_nil, add_zero, coe_count]

theorem count_closing_of_notMem (closing : List (List Client)) {clients : List Client}
    (h : k ∉ clients) : (frames (closing ++ [clients])).count k = (frames closing).count k := by
  rw [count_closing, List.count_eq_zero.mpr h, add_zero]

theorem asked_closeClient {i : Nat} {k₀ : Client} {rest : List Client}
    (hi : s.closing[i]? = some (k₀ :: rest)) (k : Client) :
    Sys.asked { s with
      closing := advance s.closing i rest [] []
      closes := Function.update s.closes k₀ (s.closes k₀ + 1) } k = s.asked k := by
  have hcount := congrArg (Multiset.count k) (frames_advance hi [] [])
  rw [count_add, count_add, Multiset.count_singleton] at hcount
  simp only [coe_nil, frames_nil, add_zero, count_zero] at hcount
  unfold Sys.asked
  dsimp only
  by_cases hk : k = k₀
  · rw [hk, Function.update_self]
    rw [hk, if_pos rfl] at hcount
    omega
  · rw [Function.update_of_ne hk]
    rw [if_neg hk] at hcount
    omega

theorem Books.closing {r : Registry} {held : Multiset Client} {clients published : List Client}
    {dials : Nat} (hB : Books r held (fun k => s.asked k + clients.count k) [] published dials)
    (hcloses : s'.closes = s.closes) (hclosing : s'.closing = s.closing ++ [clients]) :
    Books r held s'.asked [] published dials := by
  rw [show s'.asked = fun k => s.asked k + clients.count k from funext fun k => ?_]
  · exact hB
  · rw [Sys.asked, hcloses, hclosing, count_closing, Sys.asked, add_assoc]

theorem Building.congr {ap : Applying} (hA : Building s ap)
    (hcurrent : s'.registry.closed = false →
      s.registry.closed = false ∧ s'.registry.hosts = s.registry.hosts)
    (hpublished : s'.published = s.published) (hdials : s.dials ≤ s'.dials)
    (hasked : ∀ k, k ∉ s.published → s'.asked k = s.asked k) : Building s' ap := by
  refine ⟨fun h => ?_, ?_, hA.apart, hA.next, hA.names, ?_, hA.clients, hA.retired, hA.nodup⟩
  · obtain ⟨hopen, hhosts⟩ := hcurrent h
    rw [hhosts]
    exact hA.current hopen
  · rw [hpublished]
    exact hA.old
  · intro k hk
    obtain ⟨hnew, hlt, hnone⟩ := hA.fresh hk
    rw [hpublished, hasked k hnew]
    exact ⟨hnew, lt_of_lt_of_le hlt hdials, hnone⟩

theorem Registry.release_hosts (r : Registry) (k : Client) :
    (r.release k).1.hosts = r.hosts ∧ (r.release k).1.closed = r.closed ∧
    ∀ k' ∈ (r.release k).2, k' = k := by
  unfold Registry.release
  rcases r.releasableLocked_update k fun e => { e with leases := e.leases - 1 } with
    ⟨-, -, -, heq⟩ | ⟨-, heq⟩
  · rw [heq]
    exact ⟨rfl, rfl, fun k' => List.mem_singleton.mp⟩
  · rw [heq]
    exact ⟨rfl, rfl, nofun⟩

/-! ### The second section of `Apply` -/

section Publish

variable {ap : Applying}

/-- The dropped entries: those the new Inventory has another client for, or no
client at all. -/
theorem Building.mem_dropped (hA : Building s ap) :
    k ∈ ap.build.dropped ap.current ↔
      ∃ n, ap.current.lookup n = some k ∧ ap.build.next.lookup n ≠ some k := by
  unfold Build.dropped
  rw [mem_append, hA.retired]
  constructor
  · rintro (⟨n, hn, -, hne⟩ | h)
    · exact ⟨n, hn, hne⟩
    · obtain ⟨⟨n, k'⟩, hmem, rfl⟩ := List.mem_map.mp h
      obtain ⟨hmem, hnot⟩ := List.mem_filter.mp hmem
      have hnone := lookup_eq_none.mpr (of_decide_eq_true hnot)
      exact ⟨n, mem_lookup_iff.mpr hmem, by rw [hnone]; exact nofun⟩
  · rintro ⟨n, hn, hne⟩
    by_cases hin : n ∈ ap.build.next
    · exact .inl ⟨n, hn, hin, hne⟩
    · refine .inr (List.mem_map.mpr ⟨⟨n, k⟩, List.mem_filter.mpr ⟨?_, decide_eq_true hin⟩, rfl⟩)
      exact mem_lookup_iff.mp hn

theorem Building.nodup_dropped (hA : Building s ap) : (ap.build.dropped ap.current).Nodup := by
  refine nodup_append.mpr ⟨hA.nodup, ?_, ?_⟩
  · refine List.Nodup.map_on ?_ (ap.current.nodupKeys.nodup.filter _)
    rintro ⟨n, k⟩ h ⟨n', k'⟩ h' heq
    dsimp only at heq
    cases heq
    have hname : n = n' := hA.apart (mem_lookup_iff.mpr (List.mem_filter.mp h).1)
      (mem_lookup_iff.mpr (List.mem_filter.mp h').1)
    rw [hname]
  · rintro k hret k' hgone rfl
    obtain ⟨n, hn, hin, -⟩ := hA.retired.mp hret
    obtain ⟨⟨n', k'⟩, hmem, rfl⟩ := List.mem_map.mp hgone
    obtain ⟨hmem, hnot⟩ := List.mem_filter.mp hmem
    cases hA.apart hn (mem_lookup_iff.mpr hmem)
    exact of_decide_eq_true hnot hin

theorem Building.old_of_dropped (hA : Building s ap) (h : k ∈ ap.build.dropped ap.current) :
    k ∈ s.published := by
  obtain ⟨n, hn, -⟩ := hA.mem_dropped.mp h
  exact hA.old hn

variable {entry : Client → HostEntry}
  (hB : Books s.registry s.held s.asked [] s.published s.dials) (hA : Building s ap)
include hB hA

/-- A client that this `Apply` dialled is live. -/
theorem Building.account_new (hmade : ∀ {k ep}, (k, ep) ∈ ap.build.dialled → entry k = .new ep)
    (hk : k ∈ ap.build.clients) :
    Account { s.registry with hosts := ap.build.next, entry := entry } (entry k) s.held
      s.asked (ap.build.dropped ap.current) k := by
  obtain ⟨hnew, -, hasked⟩ := hA.fresh hk
  obtain ⟨⟨k, ep⟩, hep, rfl⟩ := List.mem_map.mp hk
  rw [hmade hep]
  refine ⟨fun {n} h => ?_, fun h => absurd (hB.known (.inr (.inl h))) hnew, ?_,
    .inl ⟨ep.name, hA.names hep⟩, hasked, nofun, fun h => absurd (hA.old_of_dropped h) hnew⟩
  · rcases hA.next h with hn | ⟨ep', hep', rfl⟩
    · exact absurd (hA.old hn) hnew
    · exact ⟨congrArg (·.ep.name) ((hmade hep).symm.trans (hmade hep')), rfl, rfl⟩
  · rw [Multiset.count_eq_zero_of_notMem fun h => hnew (hB.known (.inr (.inr (.inl h))))]
    rfl

variable (hopen : s.registry.closed = false)
include hopen

/-- A client that was published before stays in the Inventory, or is dropped. -/
theorem Building.account_old (hk : k ∈ s.published) :
    Account { s.registry with hosts := ap.build.next, entry := entry } (s.registry.entry k) s.held
      s.asked (ap.build.dropped ap.current) k := by
  have hold := hB.account hk
  refine ⟨fun {n} h => ?_, hold.retired, hold.leases, ?_, hold.marked, hold.unused, fun h => ?_⟩
  · rcases hA.next h with hn | ⟨ep, hep, -⟩
    · exact hold.host (hA.current hopen ▸ hn)
    · exact absurd hk (hA.fresh (List.mem_map.mpr ⟨_, hep, rfl⟩)).1
  · rcases hold.accounted with ⟨n, hn⟩ | h | h | h
    · by_cases hnext : ap.build.next.lookup n = some k
      · exact .inl ⟨n, hnext⟩
      · exact .inr (.inr (.inr (hA.mem_dropped.mpr ⟨n, hA.current hopen ▸ hn, hnext⟩)))
    · exact .inr (.inl h)
    · exact .inr (.inr (.inl h))
    · cases h
  · obtain ⟨n, hn, hne⟩ := hA.mem_dropped.mp h
    obtain ⟨-, hretired, hclosed⟩ := hold.host (hA.current hopen ▸ hn)
    refine ⟨hclosed, ?_, fun hin => ?_⟩
    · rintro ⟨n', hn'⟩
      rcases hA.next hn' with h' | ⟨ep, hep, -⟩
      · exact hne (hA.apart hn h' ▸ hn')
      · exact (hA.fresh (List.mem_map.mpr ⟨_, hep, rfl⟩)).1 hk
    · exact Bool.false_ne_true (hretired.symm.trans (hold.retired hin).1)

/-- `Apply` puts the new Inventory in the place of the old one. -/
theorem Books.publish : ∃ r idle, s.registry.publish ap.current ap.build = (r, .ok (), idle) ∧
    Books r s.held (fun k => s.asked k + idle.count k) [] (s.published ++ ap.build.clients)
      s.dials := by
  obtain ⟨hwrote, hmade, hsame⟩ := Registry.store_spec ap.build.dialled s.registry hA.clients
  have hnext : Books { s.registry.store ap.build.dialled with hosts := ap.build.next } s.held
      s.asked (ap.build.dropped ap.current) (s.published ++ ap.build.clients) s.dials := by
    rw [hwrote]
    refine ⟨fun {k} h => ?_, fun {k} h => ?_, hB.nodup, fun h => ?_, fun {k} h => ?_, hB.fresh⟩
    · rcases mem_append.mp h with h | h
      · rw [show Registry.entry _ k = _ from hsame fun hin => (hA.fresh hin).1 h]
        exact Building.account_old hB hA hopen h
      · exact Building.account_new hB hA hmade h
    · rcases h with ⟨n, hn⟩ | h | h | h
      · rcases hA.next hn with h | ⟨ep, hep, -⟩
        · exact mem_append_left _ (hA.old h)
        · exact mem_append_right _ (List.mem_map.mpr ⟨_, hep, rfl⟩)
      · exact mem_append_left _ (hB.known (.inr (.inl h)))
      · exact mem_append_left _ (hB.known (.inr (.inr (.inl h))))
      · exact mem_append_left _ (hA.old_of_dropped h)
    · exact absurd (hopen.symm.trans h) Bool.false_ne_true
    · rcases mem_append.mp h with h | h
      · exact hB.dialled h
      · exact (hA.fresh h).2.1
  have hclosed : (s.registry.store ap.build.dialled).closed = false := by
    rw [hwrote]
    exact hopen
  refine ⟨_, _, ?_, hnext.retire hclosed hA.nodup_dropped⟩
  unfold Registry.publish
  rw [hopen]
  rfl

end Publish

/-! ### The loop of `Apply` -/

section Turn

variable {b b' : Build} {ep : Endpoint} {current : AList fun _ : String => Client}
  {entry : Client → HostEntry} {answer : Except String Client}

theorem Build.dial_ok {existing : Option Client} (h : b.dial ep existing answer = .ok b') :
    ∃ k, answer = .ok k ∧ b' = {
      next := b.next.insert ep.name k
      retired := b.retired ++ existing.toList
      dialled := b.dialled ++ [(k, ep)] } := by
  cases answer with
  | error text => cases h
  | ok k =>
    cases h
    exact ⟨k, rfl, rfl⟩

theorem Build.turn_ok (h : b.turn current entry ep answer = .ok b') : ep.name ∉ b.next ∧
    ((∃ k, current.lookup ep.name = some k ∧
      b' = { b with next := b.next.insert ep.name k }) ∨
    ∃ k, answer = .ok k ∧ b' = {
      next := b.next.insert ep.name k
      retired := b.retired ++ (current.lookup ep.name).toList
      dialled := b.dialled ++ [(k, ep)] }) := by
  unfold Build.turn at h
  split at h
  · cases h
  split at h
  · cases h
  · rename_i hnew
    refine ⟨hnew, ?_⟩
    split at h
    · rename_i k hk
      rw [hk]
      split at h
      · cases h
        exact .inl ⟨k, rfl, rfl⟩
      · exact .inr (Build.dial_ok h)
    · rename_i hnone
      rw [hnone]
      exact .inr (Build.dial_ok h)

variable {todo : List Endpoint}

theorem Building.keep (hA : Building s ⟨current, ep :: todo, b⟩) (hnew : ep.name ∉ b.next)
    (hk : current.lookup ep.name = some k) :
    Building { s with dials := s.dials + 1 }
      ⟨current, todo, { b with next := b.next.insert ep.name k }⟩ := by
  have hne : ∀ {n}, n ∈ b.next → n ≠ ep.name := fun hin heq => hnew (heq ▸ hin)
  refine ⟨hA.current, hA.old, hA.apart, ?_, ?_, ?_, hA.clients, ?_, hA.nodup⟩
  · intro n k' h
    rcases Assoc.lookup_insert_iff.mp h with ⟨rfl, rfl⟩ | ⟨-, h⟩
    · exact .inl hk
    · exact hA.next h
  · intro k' ep' h
    have hname := hA.names h
    exact Assoc.lookup_insert_iff.mpr
      (.inr ⟨hne (lookup_isSome.mp (hname ▸ rfl)), hname⟩)
  · intro k' h
    obtain ⟨hpub, hlt, hasked⟩ := hA.fresh h
    exact ⟨hpub, Nat.lt_succ_of_lt hlt, hasked⟩
  · intro k'
    refine hA.retired.trans ⟨?_, ?_⟩
    · rintro ⟨n, hn, hin, hother⟩
      refine ⟨n, hn, (mem_insert _).mpr (.inr hin), fun h => ?_⟩
      rcases Assoc.lookup_insert_iff.mp h with ⟨heq, -⟩ | ⟨-, h⟩
      · exact hne hin heq
      · exact hother h
    · rintro ⟨n, hn, hin, hother⟩
      by_cases heq : n = ep.name
      · -- the connection that stays is not retired
        rw [heq] at hn hother
        exact absurd (lookup_insert b.next) (Option.some.inj (hk.symm.trans hn) ▸ hother)
      · refine ⟨n, hn, ((mem_insert _).mp hin).resolve_left heq, fun h => ?_⟩
        exact hother (Assoc.lookup_insert_iff.mpr (.inr ⟨heq, h⟩))

theorem Building.dial (hB : Books s.registry s.held s.asked [] s.published s.dials)
    (hA : Building s ⟨current, ep :: todo, b⟩) (hnew : ep.name ∉ b.next) :
    Building { s with dials := s.dials + 1 } ⟨current, todo, {
      next := b.next.insert ep.name s.dials
      retired := b.retired ++ (current.lookup ep.name).toList
      dialled := b.dialled ++ [(s.dials, ep)] }⟩ := by
  have hne : ∀ {n}, n ∈ b.next → n ≠ ep.name := fun hin heq => hnew (heq ▸ hin)
  have hfresh : s.dials ∉ s.published := fun h => absurd (hB.dialled h) (lt_irrefl _)
  refine ⟨hA.current, hA.old, hA.apart, ?_, ?_, ?_, ?_, ?_, ?_⟩
  · intro n k h
    rcases Assoc.lookup_insert_iff.mp h with ⟨rfl, rfl⟩ | ⟨-, h⟩
    · exact .inr ⟨ep, mem_append_right _ (List.mem_singleton_self _), rfl⟩
    · exact (hA.next h).imp_right fun ⟨ep', hep', hname⟩ =>
        ⟨ep', mem_append_left _ hep', hname⟩
  · intro k ep' h
    rcases mem_append.mp h with h | h
    · have hname := hA.names h
      exact Assoc.lookup_insert_iff.mpr
        (.inr ⟨hne (lookup_isSome.mp (hname ▸ rfl)), hname⟩)
    · cases List.mem_singleton.mp h
      exact lookup_insert _
  · intro k h
    unfold Build.clients at h
    rw [map_append] at h
    rcases mem_append.mp h with h | h
    · obtain ⟨hpub, hlt, hasked⟩ := hA.fresh h
      exact ⟨hpub, Nat.lt_succ_of_lt hlt, hasked⟩
    · cases List.mem_singleton.mp h
      exact ⟨hfresh, Nat.lt_succ_self _, hB.fresh le_rfl⟩
  · unfold Build.clients
    rw [map_append]
    refine nodup_append.mpr ⟨hA.clients, List.nodup_singleton _, ?_⟩
    rintro k hk _ hlast rfl
    cases List.mem_singleton.mp hlast
    exact absurd (hA.fresh hk).2.1 (lt_irrefl _)
  · intro k
    dsimp only
    rw [mem_append, Option.mem_toList, hA.retired]
    constructor
    · rintro (⟨n, hn, hin, hother⟩ | hold)
      · refine ⟨n, hn, (mem_insert _).mpr (.inr hin), fun h => ?_⟩
        rcases Assoc.lookup_insert_iff.mp h with ⟨heq, -⟩ | ⟨-, h⟩
        · exact hne hin heq
        · exact hother h
      · refine ⟨ep.name, hold, (mem_insert _).mpr (.inl rfl), fun h => ?_⟩
        rw [lookup_insert] at h
        exact hfresh (Option.some.inj h ▸ hA.old hold)
    · rintro ⟨n, hn, hin, hother⟩
      by_cases heq : n = ep.name
      · exact .inr (heq ▸ hn)
      · refine .inl ⟨n, hn, ((mem_insert _).mp hin).resolve_left heq, fun h => ?_⟩
        exact hother (Assoc.lookup_insert_iff.mpr (.inr ⟨heq, h⟩))
  · refine nodup_append.mpr ⟨hA.nodup, ?_, ?_⟩
    · cases current.lookup ep.name with
      | none => exact nodup_nil
      | some k => exact List.nodup_singleton k
    · rintro k hret _ hold rfl
      obtain ⟨n, hn, hin, -⟩ := hA.retired.mp hret
      exact hne hin (hA.apart hn (Option.mem_toList.mp hold))

theorem Building.turn (hB : Books s.registry s.held s.asked [] s.published s.dials)
    (hA : Building s ⟨current, ep :: todo, b⟩) {answer : Except String Unit}
    (h : b.turn current entry ep (answer.map fun _ => s.dials) = .ok b') :
    Building { s with dials := s.dials + 1 } ⟨current, todo, b'⟩ := by
  obtain ⟨hnew, ⟨k, hk, rfl⟩ | ⟨k, hanswer, rfl⟩⟩ := Build.turn_ok h
  · exact hA.keep hnew hk
  · cases answer with
    | error text => cases hanswer
    | ok u =>
      cases hanswer
      exact hA.dial hB hnew

theorem Books.refused (hB : Books s.registry s.held s.asked [] s.published s.dials)
    {ap : Applying} (hA : Building s ap) {x : Exit} (hx : x.Closes ap.build) {dials : Nat}
    (hdials : s.dials ≤ dials) :
    Books s.registry s.held (fun k => s.asked k + x.closes.count k) [] s.published dials := by
  refine hB.later hdials fun k hk => ?_
  rw [List.count_eq_zero.mpr, add_zero]
  intro hin
  rw [hx] at hin
  split at hin
  · cases hin
  · obtain ⟨hnew, hlt, -⟩ := hA.fresh hin
    rcases hk with hk | hk
    · exact hnew hk
    · exact absurd hlt (not_lt.mpr (hdials.trans hk))

end Turn

/-! ## Every run -/

/-- The books, and what the `Apply` under way relies on. -/
structure Inv (s : Sys) : Prop where
  books : Books s.registry s.held s.asked [] s.published s.dials
  building : ∀ {ap}, s.applying = some ap → Building s ap

theorem inv_init : Inv Sys.init where
  books := by
    refine ⟨nofun, fun h => ?_, nodup_nil, nofun, nofun, fun _ => rfl⟩
    rcases h with ⟨n, ⟨⟩⟩ | ⟨⟨⟩⟩ | h | ⟨⟨⟩⟩
    exact absurd h (Multiset.notMem_zero _)
  building := nofun

/-- Every call keeps the accounts of the clients. -/
theorem inv_next (hI : Inv s) (h : s.next l = some s') : Inv s' := by
  have hB := hI.books
  cases l with
  | apply endpoints =>
    unfold Sys.next at h
    dsimp only at h
    split at h
    · cases h
    split at h
    · cases h
      exact hI
    · cases h
      refine ⟨hB, ?_⟩
      rintro _ ⟨⟩
      exact ⟨fun _ => rfl, fun hn => hB.known (.inl ⟨_, hn⟩), hB.apart, nofun, nofun, nofun,
        nodup_nil, ⟨nofun, fun ⟨n, _, hin, _⟩ => absurd hin (notMem_empty n)⟩, nodup_nil⟩
  | turn answer =>
    unfold Sys.next at h
    dsimp only at h
    split at h
    · rename_i current ep todo b hap
      have hA := hI.building hap
      split at h
      · rename_i b' hturn
        cases h
        refine ⟨hB.later (Nat.le_succ _) fun _ _ => rfl, ?_⟩
        rintro _ ⟨⟩
        exact (hA.turn hB hturn).congr (fun hopen => ⟨hopen, rfl⟩) rfl le_rfl fun _ _ => rfl
      · rename_i x hturn
        cases h
        have hbooks := hB.refused hA (Build.turn_error hturn) (Nat.le_succ _)
        exact ⟨hbooks.closing rfl rfl, nofun⟩
    · cases h
  | publish =>
    unfold Sys.next at h
    dsimp only at h
    split at h
    · rename_i current b hap
      have hA := hI.building hap
      cases hopen : s.registry.closed with
      | false =>
        obtain ⟨r, idle, heq, hbooks⟩ := Books.publish hB hA hopen
        rw [heq] at h
        cases h
        exact ⟨hbooks.closing rfl rfl, nofun⟩
      | true =>
        have heq : s.registry.publish current b = (s.registry, .error .closed, b.clients) := by
          unfold Registry.publish
          rw [hopen]
          rfl
        rw [heq] at h
        cases h
        have hbooks := hB.refused hA (x := ⟨.closed, b.clients⟩) rfl le_rfl
        exact ⟨hbooks.closing rfl rfl, nofun⟩
    · cases h
  | get name =>
    cases h
    exact hI
  | lease name =>
    unfold Sys.next at h
    dsimp only at h
    cases hk : s.registry.hosts.lookup name with
    | some k =>
      rw [Registry.lease, hk] at h
      cases h
      refine ⟨hB.lease hk, fun hap => ?_⟩
      exact (hI.building hap).congr (fun hopen => ⟨hopen, rfl⟩) rfl le_rfl fun _ _ => rfl
    | none =>
      rw [Registry.lease, hk] at h
      cases h
      exact hI
  | release k =>
    unfold Sys.next at h
    dsimp only at h
    split at h
    · rename_i hk
      cases h
      obtain ⟨hhosts, hclosed, hown⟩ := s.registry.release_hosts k
      refine ⟨(hB.release hk).closing rfl rfl, fun hap => ?_⟩
      refine (hI.building hap).congr (fun hopen => ⟨hclosed ▸ hopen, hhosts⟩) rfl le_rfl
        fun k' hnew => congrArg (s.closes k' + ·) (count_closing_of_notMem _ fun hin => ?_)
      exact hnew (hown k' hin ▸ hB.known (.inr (.inr (.inl hk))))
    · cases h
  | close =>
    obtain rfl : { s with
        registry := s.registry.close.1, closing := s.closing ++ [s.registry.close.2] } = s' :=
      Option.some.inj h
    cases hopen : s.registry.closed with
    | true =>
      have heq : s.registry.close = (s.registry, []) := by
        unfold Registry.close
        rw [hopen]
        rfl
      have hasked : ∀ k, s.closes k + (frames (s.closing ++ [[]])).count k = s.asked k := fun k =>
        congrArg (s.closes k + ·) (count_closing_of_notMem _ not_mem_nil)
      rw [heq]
      refine ⟨hB.later le_rfl fun k _ => hasked k, fun hap => ?_⟩
      exact (hI.building hap).congr (fun h => ⟨h, rfl⟩) rfl le_rfl fun k _ => hasked k
    | false =>
      obtain ⟨hbooks, hshut, hall⟩ := hB.close hopen
      refine ⟨hbooks.closing rfl rfl, fun hap => ?_⟩
      refine (hI.building hap).congr (fun h => ?_) rfl le_rfl
        fun k hnew => congrArg (s.closes k + ·) (count_closing_of_notMem _ (mt (hall k) hnew))
      exact absurd (h.symm.trans hshut) Bool.false_ne_true
  | closeClient i =>
    unfold Sys.next at h
    dsimp only at h
    split at h
    · rename_i k rest hi
      cases h
      have hasked := asked_closeClient hi
      refine ⟨hB.later le_rfl fun k' _ => hasked k', fun hap => ?_⟩
      exact (hI.building hap).congr (fun hopen => ⟨hopen, rfl⟩) rfl le_rfl fun k' _ => hasked k'
    · cases h

/-- A call under way has the client left to close. -/
def Sys.due (s : Sys) (k : Client) : Prop := ∃ call ∈ s.closing, k ∈ call

/-- **A Host's connection lives as long as it is needed.** In every run, a client
that an `Apply` that returned nil had dialled is closed at most once. Until
`Close` it is closed, or about to be by the call under way that has it left to
close, exactly if it is not in the live Inventory and nobody holds a lease on
it. After `Close` it is closed or about to be. -/
theorem connection_lives_as_needed (hs : connections.Reach Machine.any s) {k : Client}
    (hk : k ∈ s.published) :
    s.closes k ≤ 1 ∧
    (s.registry.closed = false →
      (s.closes k = 1 ∨ s.due k ↔ ¬ s.live k ∧ k ∉ s.held)) ∧
    (s.registry.closed = true → s.closes k = 1 ∨ s.due k) := by
  have hI : Inv s := by
    refine hs.inv (I := Inv) ?_ fun t l t' hI _ hnext => inv_next hI hnext
    rintro _ rfl
    exact inv_init
  have hB := hI.books
  have hA := hB.account hk
  have hmarked := hA.marked
  -- the mark says that the client was closed, or is due to be
  have hmark : s.closes k = 1 ∨ s.due k ↔ (s.registry.entry k).closed = true := by
    rw [Sys.due, ← mem_frames, ← one_le_count_iff_mem]
    unfold Sys.asked at hmarked
    split at hmarked
    · exact iff_of_true (by omega) ‹_›
    · exact iff_of_false (by omega) ‹_›
  have hone : s.closes k ≤ 1 := by
    unfold Sys.asked at hmarked
    split at hmarked <;> omega
  refine ⟨hone, fun hopen => hmark.trans ⟨fun hclosed => ?_, fun ⟨hlive, hheld⟩ => ?_⟩,
    fun hshut => hmark.mpr ?_⟩
  · refine ⟨?_, hA.unused hopen hclosed⟩
    rintro ⟨n, hn⟩
    exact Bool.false_ne_true ((hA.host hn).2.2.symm.trans hclosed)
  · rcases hA.accounted with h | h | h | h
    · exact absurd h hlive
    · exact absurd (hA.retired h).2.2 hheld
    · exact h
    · cases h
  · obtain ⟨hhosts, hretired⟩ := hB.shut hshut
    rcases hA.accounted with ⟨n, hn⟩ | h | h | h
    · rw [hhosts] at hn
      cases hn
    · rw [hretired] at h
      cases h
    · exact h
    · cases h

/-- A Host is leased, leaves the Inventory while the lease lasts, and the lease
is given up. -/
def leasedRun : List Label :=
  [.apply [hostA], .turn (.ok ()), .publish, .lease "a", .apply [], .publish, .release 0]

theorem connection_lives_as_needed_leased : ∃ s, connections.Reach Machine.any s ∧
    0 ∈ s.published ∧ s.closes 0 = 1 ∧ ¬ s.live 0 ∧ 0 ∉ s.held := by
  have hs := Machine.reach_exec rfl
    (show (connections.exec Sys.init (leasedRun ++ ([.closeClient 2] : List Label))).isSome from rfl)
  have hk : 0 ∈ ((connections.exec Sys.init (leasedRun ++ ([.closeClient 2] : List Label))).get
    rfl).published := List.mem_singleton_self 0
  obtain ⟨-, hopen, -⟩ := connection_lives_as_needed hs hk
  exact ⟨_, hs, hk, rfl, (hopen rfl).mp (.inl rfl)⟩

/-- **`Close` may return before the last client is closed**: the call that gave
up the lease has left its section with the client to close, and `Close`, which
has nothing left to do, does not wait for it. -/
theorem close_returns_early : ∃ s, connections.exec Sys.init (leasedRun ++ ([.close] : List Label))
      = some s ∧
    s.registry.closed = true ∧ 0 ∈ s.published ∧ s.closes 0 = 0 ∧
    s.closing.getLast? = some [] ∧ s.due 0 :=
  ⟨_, rfl, rfl, List.mem_singleton_self 0, rfl, rfl, [0], by decide, List.mem_singleton_self 0⟩

end FlintlockRunner.Flintlock

import FlintlockRunner.Base.Machine
import Mathlib.Data.Finset.Basic
import Mathlib.Data.Multiset.MapFold

/-!
# Clients of Exec Agents (`transport/agentexec.go`)

`Lease` looks at `closed`, dials without the lock, and looks again when it enters
the client into the map; a release function and `Close` take clients out of the map
and close them outside the lock. A connection may be dialled while `Close` runs, and
released after it. Over every interleaving no connection leaks, nobody but its holder
closes the client of a claim before `Close`, and none is handed out after it
(`connections_kept`).
-/

namespace FlintlockRunner.Transport

/-- A call in flight: a `Lease` that dials, a `Lease` with the connection it has
dialled, and the `Close` of a connection that some call still has to make. -/
inductive AgentCall
  | dialling
  | registering (conn : Nat)
  | closing (conn : Nat)
  deriving DecidableEq

/-- `AgentHosts`, with the calls in flight, how many connections were dialled, the
clients whose holder has not released them, and the connections closed so far. -/
structure AgentHosts where
  clients : Finset Nat := ∅
  closed : Bool := false
  calls : Multiset AgentCall := 0
  dialled : Nat := 0
  leased : Finset Nat := ∅
  shut : Finset Nat := ∅

/-- One critical section, dial or `Close` of a connection. -/
inductive AgentEvent
  | lease (leaseID : String)
  | dials (ok : Bool)
  | registers (conn : Nat)
  | release (conn : Nat)
  | close
  | closes (conn : Nat)

namespace AgentHosts

variable (a : AgentHosts)

/-- A call goes on, or returns. -/
def resume (call : AgentCall) (calls : Multiset AgentCall) : AgentHosts :=
  { a with calls := calls + a.calls.erase call }

/-- One section of one call. -/
def next : AgentEvent → Option AgentHosts
  | .lease leaseID =>
    some (if leaseID = "" || a.closed then a else { a with calls := .dialling ::ₘ a.calls })
  | .dials ok =>
    if .dialling ∈ a.calls then
      some (if ok then { a.resume .dialling {.registering a.dialled} with dialled := a.dialled + 1 }
        else a.resume .dialling 0)
    else none
  | .registers conn =>
    if .registering conn ∈ a.calls then
      some (if a.closed then a.resume (.registering conn) {.closing conn}
        else { a.resume (.registering conn) 0 with
          clients := insert conn a.clients
          leased := insert conn a.leased })
    else none
  | .release conn =>
    -- the function that `Lease` returns does this once
    if conn ∈ a.leased then
      some { a with
        clients := a.clients.erase conn
        leased := a.leased.erase conn
        calls := .closing conn ::ₘ a.calls }
    else none
  | .close =>
    some { a with
      clients := ∅
      closed := true
      calls := a.clients.val.map .closing + a.calls }
  | .closes conn =>
    if .closing conn ∈ a.calls then
      some { a.resume (.closing conn) 0 with shut := insert conn a.shut }
    else none

end AgentHosts

/-- Every interleaving of `Lease`, its release functions and `Close`. -/
def agentHosts : Machine AgentHosts AgentEvent where
  init a := a = {}
  next := AgentHosts.next

namespace AgentHosts

variable {a a' : AgentHosts} {e : AgentEvent}

/-- A connection is in the map, closed, or in the hands of a call. -/
def Has (a : AgentHosts) (c : Nat) : Prop :=
  c ∈ a.clients ∨ c ∈ a.shut ∨ .registering c ∈ a.calls ∨ .closing c ∈ a.calls

/-- Where the connections are. One that a `Lease` has just dialled is nowhere else; until
`Close`, so is one that is leased. -/
structure Kept (a : AgentHosts) : Prop where
  kept : ∀ c < a.dialled, a.Has c
  fresh : ∀ c, c ∈ a.leased ∨ a.Has c → c < a.dialled
  registering : ∀ c, .registering c ∈ a.calls → a.calls.count (.registering c) = 1 ∧
    c ∉ a.leased ∧ c ∉ a.shut ∧ .closing c ∉ a.calls
  clients : a.clients = if a.closed then ∅ else a.leased
  leased : a.closed = false → ∀ c ∈ a.leased, c ∉ a.shut ∧ .closing c ∉ a.calls

theorem resume_eq {call : AgentCall} {rest : Multiset AgentCall} (h : a.calls = call ::ₘ rest)
    (calls : Multiset AgentCall) : a.resume call calls = { a with calls := calls + rest } := by
  rw [resume, h, Multiset.erase_cons_head]

/-- Each section passes its connection on to one place. -/
theorem Kept.next (h : a.Kept) (hnext : a.next e = some a') : a'.Kept := by
  obtain ⟨hkept, hfresh, hreg, hclients, hleased⟩ := h
  unfold Has at hkept hfresh
  cases e with
  | lease leaseID =>
    obtain rfl := Option.some.inj hnext
    split
    · exact ⟨hkept, hfresh, hreg, hclients, hleased⟩
    · constructor
      case kept | fresh => simpa [Has]
      case registering | leased => simpa
      case clients => exact hclients
  | release conn =>
    -- the client goes from its holder to the call that closes it
    obtain ⟨hconn, ⟨⟩⟩ := Option.ite_none_right_eq_some.mp hnext
    constructor
    case kept | fresh => grind [Has]
    case registering => grind [Multiset.count_cons]
    case clients | leased => grind
  | close =>
    -- every client of the map goes to the call that closes it
    obtain rfl := Option.some.inj hnext
    constructor
    case kept | fresh => grind [Has, Multiset.mem_map]
    case registering =>
      have hnone : ∀ c, (a.clients.val.map .closing).count (AgentCall.registering c) = 0 := by
        simp
      grind [Multiset.mem_map, Multiset.count_add]
    case clients => rfl
    case leased => nofun
  | dials ok =>
    obtain ⟨hcall, ⟨⟩⟩ := Option.ite_none_right_eq_some.mp hnext
    obtain ⟨rest, hrest⟩ := Multiset.exists_cons_of_mem hcall
    rw [resume_eq hrest, resume_eq hrest, Multiset.zero_add, Multiset.singleton_add]
    cases ok with
    | false =>
      constructor
      case kept | fresh => grind [Has]
      case registering => grind [Multiset.count_cons]
      case clients | leased => grind
    | true =>
      have hnew : rest.count (.registering a.dialled) = 0 := by
        refine Multiset.count_eq_zero.mpr fun hmem => ?_
        grind [hfresh a.dialled]
      constructor
      case kept | fresh => grind [Has]
      case registering => grind [Multiset.count_cons]
      case clients | leased => grind
  | registers conn =>
    obtain ⟨hcall, ⟨⟩⟩ := Option.ite_none_right_eq_some.mp hnext
    obtain ⟨rest, hrest⟩ := Multiset.exists_cons_of_mem hcall
    have hone : .registering conn ∉ rest := by simpa [hrest] using (hreg conn hcall).1
    rw [resume_eq hrest, resume_eq hrest, Multiset.zero_add, Multiset.singleton_add]
    cases hclosed : a.closed with
    | true =>
      -- `Close` has run: the connection is closed
      constructor
      case kept | fresh => grind [Has]
      case registering => grind [Multiset.count_cons]
      case clients | leased => grind
    | false =>
      constructor
      case kept | fresh => grind [Has]
      case registering => grind [Multiset.count_cons]
      case clients | leased => grind
  | closes conn =>
    obtain ⟨hcall, ⟨⟩⟩ := Option.ite_none_right_eq_some.mp hnext
    obtain ⟨rest, hrest⟩ := Multiset.exists_cons_of_mem hcall
    rw [resume_eq hrest, Multiset.zero_add]
    constructor
    case kept | fresh => grind [Has]
    case registering => grind [Multiset.count_cons]
    case clients | leased => grind

theorem kept_reach {ok : AgentHosts → AgentEvent → Prop} (h : agentHosts.Reach ok a) : a.Kept := by
  refine h.inv ?_ fun a e a' ha _ hnext => ha.next hnext
  rintro a rfl
  constructor <;> simp [Has]

/-- Once the hosts are closed, nothing is handed out. -/
theorem closed_next (hc : a.closed = true) (hnext : a.next e = some a') :
    a'.closed = true ∧ a'.leased ⊆ a.leased := by
  cases e with
  | lease leaseID =>
    obtain rfl := Option.some.inj hnext
    simp [hc]
  | dials ok =>
    obtain ⟨-, ⟨⟩⟩ := Option.ite_none_right_eq_some.mp hnext
    cases ok <;> exact ⟨hc, subset_rfl⟩
  | registers conn =>
    obtain ⟨-, ⟨⟩⟩ := Option.ite_none_right_eq_some.mp hnext
    rw [if_pos hc]
    exact ⟨hc, subset_rfl⟩
  | release conn =>
    obtain ⟨-, ⟨⟩⟩ := Option.ite_none_right_eq_some.mp hnext
    exact ⟨hc, Finset.erase_subset ..⟩
  | close =>
    obtain rfl := Option.some.inj hnext
    exact ⟨rfl, subset_rfl⟩
  | closes conn =>
    obtain ⟨-, ⟨⟩⟩ := Option.ite_none_right_eq_some.mp hnext
    exact ⟨hc, subset_rfl⟩

theorem closed_path (hc : a.closed = true) (hp : agentHosts.Path Machine.any a a') :
    a'.leased ⊆ a.leased := by
  have hinv : a'.closed = true ∧ a'.leased ⊆ a.leased := by
    refine hp.inv (I := fun b => b.closed = true ∧ b.leased ⊆ a.leased) ?_ ⟨hc, subset_rfl⟩
    rintro b e b' ⟨hclosed, hsub⟩ - hnext
    exact (closed_next hclosed hnext).imp_right fun h => h.trans hsub
  exact hinv.2

/-- **No connection leaks.** Every connection that was dialled is in the map, closed,
or in the hands of a call that goes on to enter or close it. Until `Close`, the clients
in the map are those whose holders have not released them, and they are open. From
then on `Lease` hands out nothing, also when it was dialling before, and once no call is
in flight every connection is closed. -/
theorem connections_kept (h : agentHosts.Reach Machine.any a) :
    (∀ c < a.dialled, a.Has c) ∧
    (a.closed = false → a.clients = a.leased ∧ ∀ c ∈ a.leased, c ∉ a.shut) ∧
    (a.closed = true → (a.calls = 0 → ∀ c < a.dialled, c ∈ a.shut) ∧
      ∀ a', agentHosts.Path Machine.any a a' → a'.leased ⊆ a.leased) := by
  have hk := kept_reach h
  refine ⟨hk.kept, fun hopen => ⟨?_, fun c hc => (hk.leased hopen c hc).1⟩,
    fun hclosed => ⟨fun hcalls c hc => ?_, fun a' => closed_path hclosed⟩⟩
  · simpa [hopen] using hk.clients
  · simpa [Has, hk.clients, hclosed, hcalls] using hk.kept c hc

/-- A `Lease` that dials while `Close` is called closes what it gets. -/
theorem connections_kept_across_close : ∃ a, agentHosts.Reach Machine.any a ∧
    a.closed = true ∧ a.calls = 0 ∧ 0 < a.dialled ∧ ∀ c < a.dialled, c ∈ a.shut := by
  have h := Machine.reach_exec (M := agentHosts) rfl
    (show (agentHosts.exec {} [.lease "l", .dials true, .close, .registers 0, .closes 0]).isSome
      from rfl)
  exact ⟨_, h, rfl, rfl, by decide, ((connections_kept h).2.2 rfl).1 rfl⟩

end AgentHosts

end FlintlockRunner.Transport

import FlintlockRunner.Base.Strings
import Mathlib.Data.List.AList

/-!
# The Host registry

`registry` of `flintlock/registry.go`: the live set of Hosts by name, and the
bookkeeping that decides when a Host's client is closed. The definitions over
`Registry` are its lock sections; a section hands back the clients that its
caller closes after the lock is released.

`Apply` takes a snapshot, dials without the lock and publishes in a second
section, so it stands here in these parts (`Build.turn`, `publish`) and as one
call (`apply`), with `meanwhile` for what other calls do between its sections.

A client is named by the number of the `Dial` call that returned it, and an
entry by its client: the two are made together and belong to each other from
then on. What a reload logs is left out.
-/

namespace FlintlockRunner.Flintlock

structure TLSOptions where
  caFile : String
  certFile : String
  keyFile : String
  insecure : Bool
  deriving DecidableEq, Repr, Inhabited

/-- An entry of the Inventory. -/
structure Endpoint where
  name : String
  address : String
  token : String
  tls : TLSOptions
  deriving DecidableEq, Repr, Inhabited

/-- A `HostClient`, by the number of the call that dialled it. -/
abbrev Client := Nat

/-- A client with the leases on it. -/
structure HostEntry where
  ep : Endpoint
  leases : Int
  retired : Bool
  closed : Bool
  deriving DecidableEq, Repr, Inhabited

/-- A Host that has just been dialled. -/
def HostEntry.new (ep : Endpoint) : HostEntry := ⟨ep, 0, false, false⟩

/-- The Hosts in use, and those retired while they were leased. -/
structure Registry where
  hosts : AList fun _ : String => Client
  retired : List Client
  closed : Bool
  entry : Client → HostEntry

/-- The errors of `Apply`; `dial` carries the Dialer's. -/
inductive ApplyError
  | closed
  | noName (address : String)
  | twice (name : String)
  | dial (text : String)
  deriving DecidableEq, Repr

/-- The error's text. -/
def ApplyError.text : ApplyError → String
  | .closed => "flintlock: registry is closed"
  | .noName address =>
    "flintlock: inventory entry for " ++ Strings.quote address ++ " has no host name"
  | .twice name => "flintlock: inventory lists host " ++ name ++ " twice"
  | .dial text => text

/-- What `Get` and `Lease` say of a name that is not in the Inventory. -/
def unknownHost (name : String) : String :=
  "flintlock: " ++ Strings.quote name ++ ": flintlock: host not in inventory"

namespace Registry

/-- The registry `NewRegistry` starts from. -/
def new : Registry := ⟨∅, [], false, fun _ => default⟩

variable (r : Registry) (k : Client)

/-- Write to one entry. -/
def update (f : HostEntry → HostEntry) : Registry :=
  { r with entry := Function.update r.entry k (f (r.entry k)) }

def get (name : String) : Except String Client :=
  match r.hosts.lookup name with
  | some k => .ok k
  | none => .error (unknownHost name)

/-- `Lease`: the client, counted as held. -/
def lease (name : String) : Registry × Except String Client :=
  match r.hosts.lookup name with
  | some k => (r.update k fun e => { e with leases := e.leases + 1 }, .ok k)
  | none => (r, .error (unknownHost name))

/-- `releasableLocked`: whether a retired entry has run out of holders. It is
marked closed for the caller to close. -/
def releasableLocked : Registry × Bool :=
  if !(r.entry k).retired || (r.entry k).closed || decide ((r.entry k).leases > 0) then (r, false)
  else (r.update k fun e => { e with closed := true }, true)

/-- Takes a closed entry off the retired ones. -/
def forgetRetiredLocked : Registry := { r with retired := r.retired.erase k }

/-- `release`: the section, and the client to close after it. -/
def release : Registry × List Client :=
  match (r.update k fun e => { e with leases := e.leases - 1 }).releasableLocked k with
  | (r', true) => (r'.forgetRetiredLocked k, [k])
  | (r', false) => (r', [])

end Registry

/-! ## `Apply` -/

/-- The locals of `Apply`'s loop; a dialled client stands with the Endpoint its
entry gets. -/
structure Build where
  next : AList fun _ : String => Client
  retired : List Client
  dialled : List (Client × Endpoint)

/-- An early exit of the loop: the error, and the clients it closes. -/
structure Exit where
  error : ApplyError
  closes : List Client

namespace Build

/-- Before the first Endpoint. -/
def empty : Build := ⟨∅, [], []⟩

variable (b : Build)

/-- The clients dialled so far. -/
def clients : List Client := b.dialled.map Prod.fst

/-- The Endpoint is new or has changed: dial it. `existing` is the client it
replaces. -/
def dial (ep : Endpoint) (existing : Option Client) : Except String Client → Except Exit Build
  | .error text => .error ⟨.dial text, b.clients⟩
  | .ok k =>
    .ok {
      next := b.next.insert ep.name k
      retired := b.retired ++ existing.toList
      dialled := b.dialled ++ [(k, ep)] }

/-- One turn of the loop, given what `Dial` answers if it is called. -/
def turn (current : AList fun _ : String => Client) (entry : Client → HostEntry) (ep : Endpoint)
    (answer : Except String Client) : Except Exit Build :=
  if ep.name = "" then .error ⟨.noName ep.address, []⟩
  else if ep.name ∈ b.next then .error ⟨.twice ep.name, []⟩
  else
    match current.lookup ep.name with
    | some k =>
      if (entry k).ep = ep then .ok { b with next := b.next.insert ep.name k }
      else b.dial ep (some k) answer
    | none => b.dial ep none answer

/-- The loop, with the clients numbered from `k`: the locals it leaves, and the
exit it took. -/
def loop (current : AList fun _ : String => Client) (entry : Client → HostEntry)
    (dial : Client → Except String Unit) : Build → Client → List Endpoint →
    Build × Except Exit Unit
  | b, _, [] => (b, .ok ())
  | b, k, ep :: eps =>
    match b.turn current entry ep ((dial k).map fun _ => k) with
    | .ok b' => loop current entry dial b' (k + 1) eps
    | .error x => (b, .error x)

/-- The entries the new Inventory has no place for: those replaced, and those
it no longer lists. -/
def dropped (current : AList fun _ : String => Client) : List Client :=
  b.retired ++ (current.entries.filter fun e => e.1 ∉ b.next).map Sigma.snd

end Build

namespace Registry

variable (r : Registry)

/-- The entries of freshly dialled clients. -/
def store (dialled : List (Client × Endpoint)) : Registry :=
  dialled.foldl (fun r p => r.update p.1 fun _ => .new p.2) r

/-- Retire entries: the idle ones are for the caller to close, the others wait
for their last holder. -/
def retire : Registry → List Client → Registry × List Client
  | r, [] => (r, [])
  | r, k :: ks =>
    match (r.update k fun e => { e with retired := true }).releasableLocked k with
    | (r', true) =>
      let (r'', idle) := r'.retire ks
      (r'', k :: idle)
    | (r', false) => retire { r' with retired := r'.retired ++ [k] } ks

/-- The second section of `Apply`, and the clients to close after it. -/
def publish (current : AList fun _ : String => Client) (b : Build) :
    Registry × Except ApplyError Unit × List Client :=
  if r.closed then (r, .error .closed, b.clients)
  else
    match { r.store b.dialled with hosts := b.next }.retire (b.dropped current) with
    | (r', idle) => (r', .ok (), idle)

/-- Mark entries closed, and the clients that were not yet. -/
def closeEntries : Registry → List Client → Registry × List Client
  | r, [] => (r, [])
  | r, k :: ks =>
    if (r.entry k).closed then r.closeEntries ks
    else
      let (r', clients) := (r.update k fun e => { e with closed := true }).closeEntries ks
      (r', k :: clients)

/-- `Close`: the section, and the clients to close after it. -/
def close : Registry × List Client :=
  if r.closed then (r, [])
  else
    { r with closed := true, hosts := ∅, retired := [] }.closeEntries
      (r.hosts.entries.map Sigma.snd ++ r.retired)

end Registry

/-- A whole call of `Apply`: what it leaves and returns, the clients it dialled
and those it closed. -/
structure Applied where
  registry : Registry
  result : Except ApplyError Unit
  dialled : List Client
  closed : List Client

/-- `Apply`, with clients numbered from `first`. -/
def Registry.apply (r : Registry) (endpoints : List Endpoint) (first : Client)
    (dial : Client → Except String Unit) (meanwhile : Registry → Registry) : Applied :=
  if r.closed then ⟨r, .error .closed, [], []⟩
  else
    match Build.empty.loop r.hosts r.entry dial first endpoints with
    | (b, .error x) => ⟨meanwhile r, .error x.error, b.clients, x.closes⟩
    | (b, .ok _) =>
      match (meanwhile r).publish r.hosts b with
      | (r', result, closed) => ⟨r', result, b.clients, closed⟩

/-! ## A refused reload -/

/-- The exits that return without closing what was dialled: an entry without a
name, and a name listed twice. -/
def ApplyError.early : ApplyError → Bool
  | .noName _ | .twice _ => true
  | .closed | .dial _ => false

/-- What an exit closes. -/
def Exit.Closes (x : Exit) (b : Build) : Prop :=
  x.closes = if x.error.early then [] else b.clients

variable {current : AList fun _ : String => Client} {entry : Client → HostEntry}

theorem Build.dial_error {b : Build} {ep : Endpoint} {existing : Option Client}
    {answer : Except String Client} {x : Exit} (h : b.dial ep existing answer = .error x) :
    x.Closes b := by
  cases answer with
  | error text =>
    cases h
    rfl
  | ok k => cases h

theorem Build.turn_error {b : Build} {ep : Endpoint} {answer : Except String Client} {x : Exit}
    (h : b.turn current entry ep answer = .error x) : x.Closes b := by
  unfold Build.turn at h
  split at h
  · cases h
    rfl
  split at h
  · cases h
    rfl
  split at h
  · split at h
    · cases h
    · exact Build.dial_error h
  · exact Build.dial_error h

/-- The registry has no entry for an Endpoint as it is, so `Apply` dials it. -/
def Registry.Dials (r : Registry) (ep : Endpoint) : Prop :=
  ∀ k, r.hosts.lookup ep.name = some k → (r.entry k).ep ≠ ep

/-- Every entry has a name, and none has another's. -/
structure WellNamed (endpoints : List Endpoint) : Prop where
  named : "" ∉ endpoints.map Endpoint.name
  apart : (endpoints.map Endpoint.name).Nodup

/-- The Inventory ends in an entry without a name or with the name of one before it,
and no dial fails on the way there. The clients dialled on the way are then left
open. -/
structure Abandons (r : Registry) (endpoints : List Endpoint) (first : Client)
    (dial : Client → Except String Unit) (before : List Endpoint) (ep : Endpoint) : Prop where
  front : before ++ [ep] <+: endpoints
  named : WellNamed before
  misnamed : ¬WellNamed (before ++ [ep])
  dials : ∀ {i x}, before[i]? = some x → r.Dials x → dial (first + i) = .ok ()

variable {r : Registry} {endpoints before : List Endpoint} {ep : Endpoint} {first : Client}
  {dial : Client → Except String Unit} {b : Build} {x : Exit}

theorem WellNamed.of_front (h : WellNamed endpoints) (hfront : before <+: endpoints) :
    WellNamed before where
  named hmem := h.named ((hfront.map Endpoint.name).subset hmem)
  apart := h.apart.sublist (hfront.map Endpoint.name).sublist

theorem wellNamed_concat :
    WellNamed (before ++ [ep]) ↔
      WellNamed before ∧ ep.name ≠ "" ∧ ep.name ∉ before.map Endpoint.name := by
  constructor
  · intro h
    have happart := h.apart
    have hnamed := h.named
    rw [List.map_append, List.map_singleton] at happart hnamed
    refine ⟨h.of_front (List.prefix_append _ _), fun heq => hnamed (by simp [heq]), ?_⟩
    exact fun hmem => List.disjoint_of_nodup_append happart hmem (List.mem_singleton_self _)
  · rintro ⟨h, hnamed, hapart⟩
    refine ⟨?_, ?_⟩ <;> rw [List.map_append, List.map_singleton]
    · simpa [Ne.symm hnamed] using h.named
    · refine h.apart.append (List.nodup_singleton _) fun name hname hlast => ?_
      exact hapart (List.mem_singleton.mp hlast ▸ hname)

/-- The locals of the loop after the entries `before`. -/
structure Build.After (b : Build) (r : Registry) (dial : Client → Except String Unit)
    (first : Client) (before : List Endpoint) : Prop where
  named : WellNamed before
  next : ∀ name, name ∈ b.next ↔ name ∈ before.map Endpoint.name
  dialled : b.dialled = [] ↔ ∀ x ∈ before, ¬r.Dials x
  dials : ∀ {i x}, before[i]? = some x → r.Dials x → dial (first + i) = .ok ()

/-- What a turn that goes on leaves. -/
theorem Build.After.concat {b' : Build} (h : b.After r dial first before) (hname : ep.name ≠ "")
    (hfresh : ep.name ∉ b.next) (hnext : ∀ name, name ∈ b'.next ↔ name = ep.name ∨ name ∈ b.next)
    (hdialled : b'.dialled = [] ↔ b.dialled = [] ∧ ¬r.Dials ep)
    (hdial : r.Dials ep → dial (first + before.length) = .ok ()) :
    b'.After r dial first (before ++ [ep]) where
  named := wellNamed_concat.mpr ⟨h.named, hname, mt (h.next _).mpr hfresh⟩
  next name := by
    rw [hnext, h.next, List.map_append, List.mem_append, List.map_singleton, List.mem_singleton,
      or_comm]
  dialled := by
    rw [hdialled, h.dialled, List.forall_mem_append, List.forall_mem_singleton]
  dials {i x} hx hdials := by
    rcases Nat.lt_trichotomy i before.length with hlt | rfl | hgt
    · rw [List.getElem?_append_left hlt] at hx
      exact h.dials hx hdials
    · rw [List.getElem?_concat_length] at hx
      obtain rfl := Option.some.inj hx
      exact hdial hdials
    · rw [List.getElem?_eq_none (by simpa using Nat.succ_le_of_lt hgt)] at hx
      cases hx

/-- How a turn ends the call at the entry `ep`: its dial fails, and what was dialled
is closed; or its name is missing or taken, and nothing is. -/
inductive Exit.Ends (x : Exit) (b : Build) (r : Registry) (dial : Client → Except String Unit)
    (first : Client) (before : List Endpoint) (ep : Endpoint) : Prop
  | dial (named : WellNamed (before ++ [ep])) (dials : r.Dials ep)
      (failed : dial (first + before.length) ≠ .ok ()) (closes : x.closes = b.clients)
  | name (misnamed : ¬WellNamed (before ++ [ep])) (closes : x.closes = [])

/-- A turn that dials. -/
theorem Build.After.dialling {existing : Option Client} (h : b.After r dial first before)
    (hname : ep.name ≠ "") (hfresh : ep.name ∉ b.next) (hdials : r.Dials ep) :
    match b.dial ep existing ((dial (first + before.length)).map fun _ =>
      first + before.length) with
    | .ok b' => b'.After r dial first (before ++ [ep])
    | .error x => x.Ends b r dial first before ep := by
  cases hdial : dial (first + before.length) with
  | error text =>
    refine .dial (wellNamed_concat.mpr ⟨h.named, hname, mt (h.next _).mpr hfresh⟩) hdials ?_ rfl
    simp [hdial]
  | ok =>
    refine h.concat hname hfresh (fun name => ?_) ?_ fun _ => hdial
    · simp [AList.mem_insert]
    · simp [hdials]

theorem Build.After.turn (h : b.After r dial first before) (ep : Endpoint) :
    match b.turn r.hosts r.entry ep ((dial (first + before.length)).map fun _ =>
      first + before.length) with
    | .ok b' => b'.After r dial first (before ++ [ep])
    | .error x => x.Ends b r dial first before ep := by
  unfold Build.turn
  by_cases hname : ep.name = ""
  · rw [if_pos hname]
    exact .name (fun hnamed => (wellNamed_concat.mp hnamed).2.1 hname) rfl
  rw [if_neg hname]
  by_cases htaken : ep.name ∈ b.next
  · rw [if_pos htaken]
    exact .name (fun hnamed => (wellNamed_concat.mp hnamed).2.2 ((h.next _).mp htaken)) rfl
  rw [if_neg htaken]
  cases hlookup : r.hosts.lookup ep.name with
  | none => exact h.dialling hname htaken fun k hk => by rw [hlookup] at hk; cases hk
  | some k =>
    dsimp only
    by_cases hsame : (r.entry k).ep = ep
    · rw [if_pos hsame]
      have hkept : ¬r.Dials ep := fun hdials => hdials k hlookup hsame
      refine h.concat hname htaken (fun name => ?_) ?_ fun hdials => absurd hdials hkept
      · simp [AList.mem_insert]
      · simp [hkept]
    · rw [if_neg hsame]
      refine h.dialling hname htaken fun k' hk' => ?_
      rw [hlookup] at hk'
      exact Option.some.inj hk' ▸ hsame

/-- The loop goes through every entry, or ends at one as its turn does. -/
theorem Build.After.loop (h : b.After r dial first before) (rest : List Endpoint) :
    match b.loop r.hosts r.entry dial (first + before.length) rest with
    | (b', .ok _) => b'.After r dial first (before ++ rest)
    | (b', .error x) => ∃ front ep, front ++ [ep] <+: before ++ rest ∧
      b'.After r dial first front ∧ x.Ends b' r dial first front ep := by
  induction rest generalizing b before with
  | nil => simpa [Build.loop] using h
  | cons ep rest ih =>
    have hturn := h.turn ep
    unfold Build.loop
    cases hresult : b.turn r.hosts r.entry ep ((dial (first + before.length)).map fun _ =>
      first + before.length) with
    | ok b' =>
      rw [hresult] at hturn
      have hrest := ih hturn
      rw [List.length_append, List.append_assoc] at hrest
      exact hrest
    | error x =>
      rw [hresult] at hturn
      exact ⟨before, ep, ⟨rest, by simp⟩, h, hturn⟩

/-- Entries with names of their own end before the first whose name goes wrong. -/
theorem WellNamed.front_le (hnamed : WellNamed before) (hfront : before <+: endpoints)
    {front : List Endpoint} (hfront' : front ++ [ep] <+: endpoints)
    (hnot : ¬WellNamed (front ++ [ep])) : before <+: front := by
  rcases Nat.lt_or_ge front.length before.length with hlt | hge
  · have hle : front ++ [ep] <+: before :=
      List.prefix_of_prefix_length_le hfront' hfront (by simpa using Nat.succ_le_of_lt hlt)
    exact absurd (hnamed.of_front hle) hnot
  · exact List.prefix_of_prefix_length_le hfront
      ((List.prefix_append front [ep]).trans hfront') hge

/-- Where a call that did not reach the end closes what it dialled. -/
theorem Exit.Ends.closes_iff (h : x.Ends b r dial first before ep)
    (hb : b.After r dial first before) (hfront : before ++ [ep] <+: endpoints) :
    (∀ k ∈ b.clients, k ∈ x.closes) ↔
      ∀ front e, Abandons r endpoints first dial front e → ∀ y ∈ front, ¬r.Dials y := by
  cases h with
  | dial hnamed hdials hfailed hcloses =>
    rw [hcloses]
    refine iff_of_true (fun _ hk => hk) fun front e habandons => ?_
    -- the entry whose dial fails is among those before `e`
    obtain ⟨rest, rfl⟩ := hnamed.front_le hfront habandons.front habandons.misnamed
    refine absurd (habandons.dials ?_ hdials) hfailed
    simp
  | name hnot hcloses =>
    have hnone : (∀ k ∈ b.clients, k ∈ x.closes) ↔ b.dialled = [] := by
      rw [hcloses, Build.clients]
      simp [List.eq_nil_iff_forall_not_mem]
    rw [hnone, hb.dialled]
    constructor
    · intro hkept front e habandons
      have hsame : front = before := by
        have hle := habandons.named.front_le
          ((List.prefix_append front [e]).trans habandons.front) hfront hnot
        have hge := hb.named.front_le ((List.prefix_append before [ep]).trans hfront)
          habandons.front habandons.misnamed
        exact hle.eq_of_length_le hge.length_le
      exact hsame ▸ hkept
    · exact fun hcond => hcond before ep ⟨hfront, hb.named, hnot, hb.dials⟩

/-- **A refused reload** leaves the registry as it is: everything in it is as
it was, but for what other calls did meanwhile. The clients it dialled are all
closed exactly when it dials nothing before the first entry whose name is missing or
repeated, or does not come to such an entry. -/
theorem refused_apply {r : Registry} {endpoints : List Endpoint} {first : Client}
    {dial : Client → Except String Unit} {meanwhile : Registry → Registry} {e : ApplyError}
    (h : (r.apply endpoints first dial meanwhile).result = .error e) :
    (r.apply endpoints first dial meanwhile).registry
      = (if r.closed then r else meanwhile r) ∧
    ((∀ k ∈ (r.apply endpoints first dial meanwhile).dialled,
        k ∈ (r.apply endpoints first dial meanwhile).closed) ↔
      (r.closed = false → ∀ before ep, Abandons r endpoints first dial before ep →
        ∀ x ∈ before, ¬r.Dials x)) := by
  unfold Registry.apply at h ⊢
  cases hclosed : r.closed with
  | true =>
    rw [hclosed] at h
    exact ⟨rfl, iff_of_true nofun nofun⟩
  | false =>
    rw [hclosed] at h
    simp only [Bool.false_eq_true, if_false, true_imp_iff] at h ⊢
    have hempty : Build.empty.After r dial first [] :=
      ⟨⟨List.not_mem_nil, List.nodup_nil⟩, fun name => by simp [Build.empty], by simp [Build.empty],
        nofun⟩
    have hloop := hempty.loop endpoints
    simp only [List.length_nil, Nat.add_zero, List.nil_append] at hloop
    split at h
    · rename_i b x hresult
      rw [hresult] at hloop
      obtain ⟨front, ep, hfront, hb, hends⟩ := hloop
      exact ⟨rfl, hends.closes_iff hb hfront⟩
    · rename_i b u hresult
      rw [hresult] at hloop
      unfold Registry.publish at h ⊢
      dsimp only at h ⊢
      split at h
      · rename_i hshut
        rw [if_pos hshut]
        refine ⟨rfl, iff_of_true (fun k hk => hk) fun before ep habandons => ?_⟩
        exact absurd (hloop.named.of_front habandons.front) habandons.misnamed
      · cases h

/-- Two Hosts. -/
def hostA : Endpoint := { (default : Endpoint) with name := "a", address := "a:9090" }

def hostB : Endpoint := { (default : Endpoint) with name := "b", address := "b:9090" }

/-- A reload that lists a Host twice, and whose second Host cannot be dialled. -/
def undialled : Applied :=
  Registry.new.apply [hostA, hostB, hostA] 0
    (fun k => if k = 0 then .ok () else .error "no such file") id

theorem refused_apply_undialled :
    undialled.result = .error (.dial "no such file") ∧ undialled.dialled = [0] ∧
    undialled.registry = .new ∧ ∀ k ∈ undialled.dialled, k ∈ undialled.closed := by
  have hresult : undialled.result = .error (.dial "no such file") := by decide +kernel
  obtain ⟨hregistry, hcloses⟩ := refused_apply hresult
  refine ⟨hresult, by decide +kernel, hregistry, hcloses.mpr fun _ before ep habandons => ?_⟩
  -- the call ends at the second Host, before it comes to the repeated name
  have hnamed : WellNamed [hostA, hostB] := ⟨by decide, by decide⟩
  obtain ⟨rest, rfl⟩ := hnamed.front_le ⟨[hostA], rfl⟩ habandons.front habandons.misnamed
  exact absurd (habandons.dials (i := 1) (x := hostB) rfl nofun) (by decide)

/-- Reloads that list a Host twice, and that have an entry without a name. -/
def listedTwice : Applied := Registry.new.apply [hostA, hostA] 0 (fun _ => .ok ()) id

def unnamed : Applied :=
  Registry.new.apply [hostA, { hostB with name := "" }] 0 (fun _ => .ok ()) id

/-- **A refused reload leaks** the client of the Host before the entry it was
refused for. -/
theorem refused_apply_leaks :
    (listedTwice.result = .error (.twice "a") ∧ listedTwice.dialled = [0] ∧
      listedTwice.closed = []) ∧
    unnamed.result = .error (.noName "b:9090") ∧ unnamed.dialled = [0] ∧ unnamed.closed = [] := by
  decide +kernel

end FlintlockRunner.Flintlock

import FlintlockRunner.Config.Types
import FlintlockRunner.Poolmgr.Types
import Mathlib.Data.List.AList

/-!
# The claim backend's Leases

`ClaimVM`, `Heartbeat` and `ReleaseVM` of `poolmgr/claim/lease.go` over the
`held` map. Each method is cut where it takes the lock: `ClaimVM` stores the
claim in its one section, `Heartbeat` and `ReleaseVM` look the claim up in one
(`Held`) and take it out in another. What they do in between is a call to the
API server or to the Client Library, and its outcome is an argument.

A claim is a pointer of the Client Library, so a `ClaimObject` has an identity
of its own beside what it reads from the claim's status. `letGo` runs in the
background and has no effect on the map; the sections say for which claim it
was called.
-/

namespace FlintlockRunner.Poolmgr

/-! ## Errors -/

/-- The errors of the API server and the Client Library that the backend tells
apart. -/
inductive ApiError
  | notFound | alreadyExists | invalid | badRequest | forbidden | unauthorized
  | canceled | deadlineExceeded | leaseLost | other
  deriving DecidableEq, Repr

/-- The errors `poolmgr` names; the ones left out wrap none of them. -/
inductive Sentinel
  | exhausted | notFound | unavailable | aborted | alreadyExists | invalid
  deriving DecidableEq, Repr

/-- `translate`: which named error an API error is wrapped as. -/
def translate : ApiError → Option Sentinel
  | .notFound => some .notFound
  | .alreadyExists => some .alreadyExists
  | .invalid | .badRequest => some .invalid
  | .forbidden | .unauthorized | .canceled => none
  | .deadlineExceeded | .leaseLost | .other => some .unavailable

/-- The reasons of a Pending claim. -/
inductive PendingReason
  | poolExhausted | noEligibleHost | poolNotFound | batteryUnavailable | other
  deriving DecidableEq, Repr

/-- `pendingError`: `none` while the claim should be waited for. -/
def pendingError : PendingReason → Option Sentinel
  | .poolExhausted | .noEligibleHost => some .exhausted
  | .poolNotFound => some .notFound
  | .batteryUnavailable => some .unavailable
  | .other => none

def claimError : ApiError → Option Sentinel
  | .leaseLost => some .unavailable
  | .notFound | .alreadyExists => none
  | e => translate e

/-! ## The backend -/

/-- `claimclient.Claim`. -/
structure ClaimObject where
  ptr : Nat
  name : String
  microVMUID : String
  nodeName : String
  agentAddress : String
  deriving DecidableEq, Repr

/-- `Backend`: the claims the Runner holds, by lease id. -/
structure Backend where
  held : AList fun _ : String => ClaimObject
  made : Nat

/-- How `ClaimVM` fared before its lock: the serving CA could not be read or
holds no certificate, the claim bound, its Pending reason stopped the wait, or
`Claim` failed; and whether the caller's context was done then. -/
inductive ClaimOutcome
  | servingCA (e : ApiError)
  | noCertificate
  | bound (name microVMUID nodeName agentAddress : String)
  | pending (reason : PendingReason) (ctxDone : Bool)
  | failed (e : ApiError) (ctxDone : Bool)
  deriving DecidableEq

namespace Backend

def new : Backend := ⟨∅, 0⟩

variable (b : Backend)

/-- `claimOf`: `none` when the claim is Bound without a MicroVM or a node. -/
def claimOf (cl : ClaimObject) : Option Claim :=
  if cl.microVMUID = "" ∨ cl.nodeName = "" then none
  else some ⟨cl.name, cl.microVMUID, ⟨cl.nodeName, cl.agentAddress⟩⟩

/-- `ClaimVM`; not enabled while the reason of a Pending claim says to wait. -/
def claimVM : ClaimOutcome → Option (Backend × Except (Option Sentinel) Claim)
  | .servingCA e => some (b, .error (if e = .notFound then none else translate e))
  | .noCertificate => some (b, .error none)
  | .bound name microVMUID nodeName agentAddress =>
    let cl : ClaimObject := ⟨b.made, name, microVMUID, nodeName, agentAddress⟩
    match claimOf cl with
    | none => some ({ b with made := b.made + 1 }, .error none)
    | some claim =>
      some ({ held := b.held.insert claim.leaseID cl, made := b.made + 1 }, .ok claim)
  | .pending reason ctxDone =>
    (pendingError reason).map fun e => (b, .error (if ctxDone then none else some e))
  | .failed e ctxDone =>
    some (b, .error (if ctxDone then none
      else if e = .deadlineExceeded then some .unavailable else claimError e))

variable (leaseID : String)

/-- `forget`: the claim is taken out if it is still the one under the lease id,
and then let go of. -/
def forget (cl : ClaimObject) : Backend × Bool :=
  if b.held.lookup leaseID = some cl then ({ b with held := b.held.erase leaseID }, true)
  else (b, false)

/-- What `Heartbeat` reads of a `MicroVMClaim`. -/
structure ClaimRead where
  expired : Bool
  deleting : Bool
  microVMUID : Option String
  hostReady : Option Bool
  leaseExpiresAt : Option Time
  deriving DecidableEq

/-- `lost`: why a claim no longer holds the Lease. -/
def lost (obj : ClaimRead) (cl : ClaimObject) : Option String :=
  if obj.expired then some "is Expired"
  else if obj.deleting then some "is being deleted"
  else if obj.microVMUID ≠ some cl.microVMUID then some "no longer holds the claimed MicroVM"
  else none

/-- What `Heartbeat` learns about a held claim: `Err`, `HostErr`, and the
claim it reads. -/
structure HeartbeatInput where
  err : Bool
  hostErr : Bool
  get : Except ApiError ClaimRead

/-- Whether `Heartbeat` lets the claim go, and what it answers. -/
def heartbeatAnswer (cl : ClaimObject) (i : HeartbeatInput) :
    Bool × Except (Option Sentinel) Time :=
  if i.err then (true, .error (some .notFound))
  else if i.hostErr then (true, .error (some .notFound))
  else
    match i.get with
    | .error e => (decide (e = .notFound), .error (translate e))
    | .ok obj =>
      if (lost obj cl).isSome then (true, .error (some .notFound))
      else if obj.hostReady = some false then (true, .error (some .notFound))
      else
        match obj.leaseExpiresAt with
        | none => (false, .error (some .unavailable))
        | some t => (false, .ok t)

/-- `Heartbeat` on a claim that was held when it looked. -/
def heartbeat (cl : ClaimObject) (i : HeartbeatInput) :
    Backend × Except (Option Sentinel) Time :=
  match heartbeatAnswer cl i with
  | (true, r) => ((b.forget leaseID cl).1, r)
  | (false, r) => (b, r)

/-- `ReleaseVM` on a claim that was held when it looked. -/
def releaseHeld (cl : ClaimObject) :
    Except ApiError Unit → Backend × Except (Option Sentinel) Unit
  | .error e => (b, .error (translate e))
  | .ok () => ((b.forget leaseID cl).1, .ok ())

/-- `ReleaseVM` on a lease id that was not held: the claim is deleted
directly. -/
def deleteClaim : Except ApiError Unit → Except (Option Sentinel) Unit
  | .error e => if e = .notFound then .ok () else .error (translate e)
  | .ok () => .ok ()

/-! ## What the sections do to the map -/

variable {b}

theorem forget_notMem {leaseID : String} {cl : ClaimObject}
    (h : b.held.lookup leaseID = some cl ∨ leaseID ∉ b.held) :
    leaseID ∉ (b.forget leaseID cl).1.held := by
  unfold forget
  split
  · exact fun hmem => ((AList.mem_erase).mp hmem).1 rfl
  · rename_i hne
    exact h.resolve_left hne

theorem forget_subset {leaseID l : String} {cl : ClaimObject}
    (h : l ∈ (b.forget leaseID cl).1.held) : l ∈ b.held := by
  unfold forget at h
  split at h
  · exact ((AList.mem_erase).mp h).2
  · exact h

theorem forget_lookup {leaseID l : String} {cl cl' : ClaimObject} (h : b.held.lookup l = some cl') :
    (b.forget leaseID cl).1.held.lookup l = some cl' ∨ l ∉ (b.forget leaseID cl).1.held := by
  unfold forget
  split
  · by_cases heq : l = leaseID
    · exact .inr fun hmem => ((AList.mem_erase).mp hmem).1 heq
    · refine .inl ?_
      rw [AList.lookup_erase_ne heq]
      exact h
  · exact .inl h

/-- **A `Heartbeat` that answers NOT_FOUND has let go of the claim**, and one
that answers anything else has not. -/
theorem heartbeatAnswer_notFound (cl : ClaimObject) (i : HeartbeatInput) :
    (heartbeatAnswer cl i).1 = true ↔ (heartbeatAnswer cl i).2 = .error (some .notFound) := by
  unfold heartbeatAnswer
  split_ifs
  · exact iff_of_true rfl rfl
  · exact iff_of_true rfl rfl
  · split
    · rename_i e _
      cases e <;> simp [translate]
    · split_ifs
      · exact iff_of_true rfl rfl
      · exact iff_of_true rfl rfl
      · split <;> simp

end Backend

end FlintlockRunner.Poolmgr

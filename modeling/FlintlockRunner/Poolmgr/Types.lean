import Mathlib.Data.Finset.Insert

/-!
# What the Pool Manager's clients exchange

The data types of `poolmgr/interfaces.go` that more than one component reads.
A `POOL_SIZE_BELOW_TARGET` or `VM_HOOK_FAILED` payload stands here as what its
decoder makes of it; an event's id and time are read by nothing modelled.
-/

namespace FlintlockRunner

/-- `poolmgr.PoolRef`. -/
structure PoolRef where
  name : String
  nameSpace : String
  deriving DecidableEq, Repr, Inhabited

/-- `PoolRef.String`. -/
def PoolRef.text (r : PoolRef) : String := r.nameSpace ++ "/" ++ r.name

/-- `poolmgr.HostRef`. -/
structure HostRef where
  name : String
  address : String
  deriving DecidableEq, Repr, Inhabited

/-- `poolmgr.Claim`: what a successful `ClaimVM` answers. -/
structure Claim where
  leaseID : String
  vmUID : String
  host : HostRef
  deriving DecidableEq, Repr, Inhabited

namespace Poolmgr

structure PoolStatus where
  available : Int
  leased : Int
  provisioning : Int
  quarantined : Int
  deriving DecidableEq, Repr, Inhabited

/-- `belowTargetPayload`: the Pool Manager's own counts and the target. -/
structure BelowTarget extends PoolStatus where
  target : Int
  deriving DecidableEq, Repr, Inhabited

/-- `EventType`, with what the payload of the two types that have one decodes
to: `none` for counts that are missing or unreadable, and whether the MicroVM
whose hook failed was quarantined. -/
inductive EventType
  | unspecified
  | vmProvisioned
  | vmAvailable
  | vmClaimed
  | vmReleased
  | vmDeletedDueToExpiry
  | vmDeletedOnRelease
  | vmHookFailed (quarantined : Bool)
  | poolSizeBelowTarget (counts : Option BelowTarget)
  deriving DecidableEq, Repr

/-- `Event`; `vmUID` is empty for Pool-level events. -/
structure Event where
  pool : PoolRef
  vmUID : String
  type : EventType
  deriving DecidableEq, Repr

/-- The counts an event carries. -/
def Event.counts? (e : Event) : Option BelowTarget :=
  match e.type with
  | .poolSizeBelowTarget counts => counts
  | _ => none

theorem counts?_of_type {e : Event} {c : BelowTarget} (h : e.type = .poolSizeBelowTarget (some c)) :
    e.counts? = some c := by
  rw [Event.counts?, h]

theorem counts?_eq_none {e : Event} (h : ∀ c, e.type ≠ .poolSizeBelowTarget (some c)) :
    e.counts? = none := by
  unfold Event.counts?
  split
  · rename_i counts heq
    cases counts with
    | none => rfl
    | some c => exact absurd heq (h c)
  · rfl

end Poolmgr

end FlintlockRunner

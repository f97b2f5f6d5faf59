import FlintlockRunner.Base.Machine
import FlintlockRunner.Base.Threads
import FlintlockRunner.Poolmgr.Spec
import FlintlockRunner.Poolmgr.Tracker
import FlintlockRunner.Scheduler.Frames

/-!
# Declaring Pools: startup, `Reload`, `declareLoop` and the claim path

Four callers of `declare` share the Profiles, the Inventory and the Tracker:

- `Run`'s startup (`applyCurrent`) and `Reload`, which hold `applyMu` from their
  snapshot or swap to their last declaration;
- `declareLoop`, which declares again, from snapshots and without `applyMu`,
  what the Tracker holds as undeclared;
- an Allocate whose `ClaimVM` answered NOT_FOUND, which declares the Profile it
  was called with, whatever a Reload has done since.

Each is a `Frame`: its locals and the point it has reached, with the point
reached in `declareAll` and `declare` inside it. A step is one lock section, one
call or one wait. The Pool Manager is what it last accepted for each PoolRef; a
call that fails may have been accepted all the same, but never after it
returned. The Host health table, which `Reload` resets in the section that
swaps the configuration, is read by no declaration and left out, as are the
other errors and waits of an Allocate.
-/

namespace FlintlockRunner.Scheduler.Declare

open Poolmgr (PoolSpec PoolTracker)

/-- What `Deps` and `Settings` fix for every declaration. -/
structure Deps where
  runnerName : String
  nameSpace : String
  render : Poolmgr.Render

/-- Each Profile with its Pool. -/
def resolveProfiles (profiles : List Config.Profile) (nameSpace : String) : List Profile :=
  profiles.map fun p => ⟨p, Poolmgr.poolRef p nameSpace⟩

/-- The first Profile of a Pool. -/
def findProfileByPool (profiles : List Profile) (ref : PoolRef) : Option Profile :=
  profiles.find? fun p => p.poolRef = ref

/-- The spec `declare` builds from a Profile and an Inventory, if it can be
built. -/
def Deps.specOf (d : Deps) (p : Profile) (inventory : List Config.HostEntry) : Option PoolSpec :=
  match Poolmgr.build d.render p.toProfile
      ⟨d.runnerName, d.nameSpace, Poolmgr.select p.toProfile inventory⟩ with
  | .error _ => none
  | .ok spec => some { spec with ref := p.poolRef }

/-! ## The state -/

/-- What the callers share: `impl`'s fields, the Tracker, and the Pool Manager's
last accepted spec of each PoolRef. -/
structure Shared where
  started : Bool
  applyMu : Bool
  profiles : List Profile
  inventory : List Config.HostEntry
  tracker : PoolTracker
  accepted : PoolRef → Option PoolSpec

namespace Shared

variable (s : Shared)

/-- The Pool Manager accepts a spec. -/
def accept (spec : PoolSpec) : Shared :=
  { s with accepted := Function.update s.accepted spec.ref (some spec) }

variable (ref : PoolRef)

/-- `Tracker.Track`. -/
def track (declared : Bool) : Shared :=
  match s.tracker.track ref declared with
  | (t, kick) => { s with tracker := if kick then t.requestPoll else t }

/-- `Tracker.Untrack`. -/
def untrack : Shared :=
  { s with tracker := s.tracker.untrack ref }

/-- `poolDeclared`: whether the Tracker holds a Pool as declared. -/
def poolDeclared : Bool :=
  ((s.tracker.pools.lookup ref).map Poolmgr.TrackedPool.declared).getD false

end Shared

/-! ## Where each caller is -/

/-- `declare`, with `Declarer.Declare` inside it. -/
inductive DeclarePc
  | building
  | creating (spec : PoolSpec)
  | updating (spec : PoolSpec)
  | recreating (spec : PoolSpec)
  | tracking (declared : Bool)
  deriving DecidableEq

/-- `declareAll`. -/
inductive DeclareAllPc
  | inventory
  | profiles (inventory : List Config.HostEntry)
  | each (inventory : List Config.HostEntry) (ps : List Profile)
  | declaring (inventory : List Config.HostEntry) (ps : List Profile) (p : Profile)
      (pc : DeclarePc)
  deriving DecidableEq

/-- `Run`, up to the loops it starts, with `applyCurrent` inside it. -/
inductive RunPc
  | starting
  | locking
  | applying
  | declareAll (pc : DeclareAllPc)
  | unlocking
  | startLoops
  deriving DecidableEq

/-- `Reload`. -/
inductive ReloadPc
  | locking
  | swapping
  | untracking (refs : List PoolRef)
  | applying
  | declareAll (pc : DeclareAllPc)
  | unlocking
  deriving DecidableEq

/-- `declareLoop`. -/
inductive LoopPc
  | waiting
  | inventory
  | profiles (inventory : List Config.HostEntry)
  | checking (inventory : List Config.HostEntry) (ps : List Profile)
  | declaring (inventory : List Config.HostEntry) (ps : List Profile) (p : Profile)
      (pc : DeclarePc)
  deriving DecidableEq

/-- `claim`, as far as it touches the Tracker. -/
inductive ClaimPc
  | top
  | calling
  | exhausted
  | unknown
  | snapshotting
  | declaring (inventory : List Config.HostEntry) (pc : DeclarePc)
  | waiting
  deriving DecidableEq

/-- One caller. -/
inductive Frame
  | run (pc : RunPc)
  | reload (next : List Profile) (inventory : List Config.HostEntry) (pc : ReloadPc)
  | declareLoop (pc : LoopPc)
  | claim (p : Profile) (pc : ClaimPc)
  deriving DecidableEq

/-! ## What the environment decides -/

/-- The answer to a `CreatePool` or `UpdatePool` call; `failed` is any other
error, and says whether the Pool Manager accepted the spec before it. -/
inductive AdminAnswer
  | accepted
  | alreadyExists
  | notFound
  | failed (accepted : Bool)
  deriving DecidableEq, Repr

/-- What the environment contributes to one step. -/
inductive Answer
  | go
  | ctx
  | timer
  | admin (a : AdminAnswer)
  | apply (ok : Bool)
  | claimVM (err : Option ClaimError)
  | retry (again : Bool)
  deriving DecidableEq, Repr

/-- A call from outside. An Allocate comes with a Profile that was current when
it was resolved. -/
inductive Call
  | run
  | reload (profiles : List Config.Profile) (inventory : List Config.HostEntry)
  | allocate (p : Profile)
  deriving DecidableEq

/-- What happens next: a call comes in, or a thread takes a step. -/
inductive Label
  | call (c : Call)
  | step (i : Nat) (a : Answer)
  deriving DecidableEq

/-! ## One step of each caller -/

/-- A `CreatePool` or `UpdatePool` that failed for good. -/
def giveUp (s : Shared) (spec : PoolSpec) : AdminAnswer → Shared × Option DeclarePc
  | .failed true => (s.accept spec, some (.tracking false))
  | _ => (s, some (.tracking false))

variable (d : Deps)

/-- `declare`; the second result is empty when it has returned. -/
def stepDeclare (s : Shared) (p : Profile) (inventory : List Config.HostEntry) :
    DeclarePc → Answer → Option (Shared × Option DeclarePc)
  | .building, .go =>
    match d.specOf p inventory with
    | none => some (s, some (.tracking false))
    | some spec => some (s, some (.creating spec))
  | .creating spec, .admin .accepted => some (s.accept spec, some (.tracking true))
  | .creating spec, .admin .alreadyExists => some (s, some (.updating spec))
  | .creating spec, .admin a => some (giveUp s spec a)
  | .updating spec, .admin .accepted => some (s.accept spec, some (.tracking true))
  | .updating spec, .admin .notFound => some (s, some (.recreating spec))
  | .updating spec, .admin a => some (giveUp s spec a)
  | .recreating spec, .admin .accepted => some (s.accept spec, some (.tracking true))
  | .recreating spec, .admin a => some (giveUp s spec a)
  | .tracking declared, .go => some (s.track p.poolRef declared, none)
  | _, _ => none

/-- `declareAll`. -/
def stepDeclareAll (s : Shared) :
    DeclareAllPc → Answer → Option (Shared × Option DeclareAllPc)
  | .inventory, .go => some (s, some (.profiles s.inventory))
  | .profiles inventory, .go => some (s, some (.each inventory s.profiles))
  | .each _ [], .go => some (s, none)
  | .each inventory (p :: ps), .go => some (s, some (.declaring inventory ps p .building))
  | .declaring inventory ps p pc, a =>
    (stepDeclare d s p inventory pc a).map fun r =>
      (r.1, some ((r.2.map (.declaring inventory ps p)).getD (.each inventory ps)))
  | _, _ => none

/-- What a step leaves: the shared state, the caller's next point (none when it
has returned) and the threads it started. -/
structure Next where
  shared : Shared
  frames : List Frame
  spawned : List (List Frame)

/-- `applyMu.Lock`: not enabled while another caller holds it. -/
def lock (s : Shared) (f : Frame) : Option Next :=
  if s.applyMu then none else some ⟨{ s with applyMu := true }, [f], []⟩

/-- `applyMu.Unlock`. -/
def unlock (s : Shared) (fs : List Frame) : Next := ⟨{ s with applyMu := false }, fs, []⟩

/-- `Run`. -/
def stepRun (s : Shared) : RunPc → Answer → Option Next
  | .starting, .go =>
    if s.started then some ⟨s, [], []⟩
    else some ⟨{ s with started := true }, [.run .locking], []⟩
  | .locking, .go => lock s (.run .applying)
  -- a Host Registry that could not be built is logged, and startup goes on
  | .applying, .apply _ => some ⟨s, [.run (.declareAll .inventory)], []⟩
  | .declareAll pc, a =>
    (stepDeclareAll d s pc a).map fun r =>
      ⟨r.1, [.run ((r.2.map .declareAll).getD .unlocking)], []⟩
  | .unlocking, .go => some (unlock s [.run .startLoops])
  | .startLoops, .go => some ⟨s, [], [[.declareLoop .waiting]]⟩
  | _, _ => none

/-- The Pools of the previous Profiles that the next ones do not refer to. -/
def unreferenced (previous next : List Profile) : List PoolRef :=
  (previous.filter fun p => (findProfileByPool next p.poolRef).isNone).map Profile.poolRef

/-- `Reload`. -/
def stepReload (s : Shared) (next : List Profile)
    (inventory : List Config.HostEntry) : ReloadPc → Answer → Option Next
  | .locking, .go => lock s (.reload next inventory .swapping)
  | .swapping, .go =>
    some ⟨{ s with profiles := next, inventory := inventory },
      [.reload next inventory (.untracking (unreferenced s.profiles next))], []⟩
  | .untracking [], .go => some ⟨s, [.reload next inventory .applying], []⟩
  | .untracking (ref :: refs), .go =>
    some ⟨s.untrack ref, [.reload next inventory (.untracking refs)], []⟩
  | .applying, .apply true => some ⟨s, [.reload next inventory (.declareAll .inventory)], []⟩
  -- the error is returned before anything is declared
  | .applying, .apply false => some ⟨s, [.reload next inventory .unlocking], []⟩
  | .declareAll pc, a =>
    (stepDeclareAll d s pc a).map fun r =>
      ⟨r.1, [.reload next inventory ((r.2.map .declareAll).getD .unlocking)], []⟩
  | .unlocking, .go => some (unlock s [])
  | _, _ => none

/-- `declareLoop`. -/
def stepLoop (s : Shared) : LoopPc → Answer → Option Next
  | .waiting, .ctx => some ⟨s, [], []⟩
  | .waiting, .timer => some ⟨s, [.declareLoop .inventory], []⟩
  | .inventory, .go => some ⟨s, [.declareLoop (.profiles s.inventory)], []⟩
  | .profiles inventory, .go => some ⟨s, [.declareLoop (.checking inventory s.profiles)], []⟩
  | .checking _ [], .go => some ⟨s, [.declareLoop .waiting], []⟩
  | .checking inventory (p :: ps), .go =>
    if s.poolDeclared p.poolRef then some ⟨s, [.declareLoop (.checking inventory ps)], []⟩
    else some ⟨s, [.declareLoop (.declaring inventory ps p .building)], []⟩
  | .declaring inventory ps p pc, a =>
    (stepDeclare d s p inventory pc a).map fun r =>
      ⟨r.1, [.declareLoop ((r.2.map (.declaring inventory ps p)).getD (.checking inventory ps))],
        []⟩
  | _, _ => none

/-- `claim`. -/
def stepClaim (s : Shared) (p : Profile) : ClaimPc → Answer → Option Next
  | .top, .go =>
    some ⟨{ s with tracker := (s.tracker.wait p.poolRef).1 }, [.claim p .calling], []⟩
  | .calling, .claimVM none => some ⟨s, [], []⟩
  | .calling, .claimVM (some .exhausted) => some ⟨s, [.claim p .exhausted], []⟩
  | .calling, .claimVM (some .notFound) => some ⟨s, [.claim p .unknown], []⟩
  | .calling, .claimVM (some .unavailable) => some ⟨s, [.claim p .waiting], []⟩
  | .calling, .claimVM (some .aborted) => some ⟨s, [.claim p .waiting], []⟩
  | .calling, .claimVM (some .other) => some ⟨s, [], []⟩
  | .exhausted, .go =>
    some ⟨{ s with tracker := s.tracker.markExhausted p.poolRef }, [.claim p .waiting], []⟩
  | .unknown, .go =>
    some ⟨{ s with tracker := s.tracker.markExhausted p.poolRef }, [.claim p .snapshotting], []⟩
  | .snapshotting, .go => some ⟨s, [.claim p (.declaring s.inventory .building)], []⟩
  | .declaring inventory pc, a =>
    (stepDeclare d s p inventory pc a).map fun r =>
      ⟨r.1, [.claim p ((r.2.map (.declaring inventory)).getD .waiting)], []⟩
  | .waiting, .retry again => some ⟨s, if again then [.claim p .top] else [], []⟩
  | _, _ => none

/-- One step of a caller. -/
def step (s : Shared) : Frame → Answer → Option Next
  | .run pc, a => stepRun d s pc a
  | .reload next inventory pc, a => stepReload d s next inventory pc a
  | .declareLoop pc, a => stepLoop d s pc a
  | .claim p pc, a => stepClaim d s p pc a

/-! ## The machine -/

/-- The shared state and the threads. -/
structure Sys where
  shared : Shared
  threads : List (List Frame)

/-- No two Profiles have one Pool. -/
def Distinct (profiles : List Profile) : Prop :=
  ∀ p ∈ profiles, ∀ q ∈ profiles, p.poolRef = q.poolRef → p = q

instance : DecidablePred Distinct := fun profiles =>
  inferInstanceAs (Decidable (∀ p ∈ profiles, ∀ q ∈ profiles, p.poolRef = q.poolRef → p = q))

/-- The frame a call starts in. Profiles come from a validated configuration,
and `Validate` rejects two Profiles of one Pool. -/
def Call.start (s : Shared) : Call → Option Frame
  | .run => some (.run .starting)
  | .reload profiles inventory =>
    let next := resolveProfiles profiles d.nameSpace
    if Distinct next then some (.reload next inventory .locking) else none
  | .allocate p => if p ∈ s.profiles then some (.claim p .top) else none

/-- What a label does. -/
def Sys.next (s : Sys) : Label → Option Sys
  | .call c => (c.start d s.shared).map fun f => { s with threads := s.threads ++ [[f]] }
  | .step i a =>
    match s.threads[i]? with
    | some (f :: rest) =>
      (step d s.shared f a).map fun n =>
        ⟨n.shared, Threads.advance s.threads i rest n.frames n.spawned⟩
    | _ => none

/-- A Scheduler that nobody has called yet, beside a Pool Manager that may hold
anything. -/
def Shared.new (profiles : List Config.Profile) (inventory : List Config.HostEntry)
    (accepted : PoolRef → Option PoolSpec) : Shared where
  started := false
  applyMu := false
  profiles := resolveProfiles profiles d.nameSpace
  inventory := inventory
  tracker := .new
  accepted := accepted

/-- Declaring Pools, as a labelled machine. -/
def machine : Machine Sys Label where
  init s := ∃ profiles inventory accepted,
    Distinct (resolveProfiles profiles d.nameSpace) ∧
    s = ⟨.new d profiles inventory accepted, []⟩
  next := Sys.next d

end FlintlockRunner.Scheduler.Declare

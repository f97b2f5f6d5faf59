import FlintlockRunner.Base.Machine
import FlintlockRunner.Base.Strings
import FlintlockRunner.Config.Defaults
import FlintlockRunner.Executor.Errors
import FlintlockRunner.Scheduler.State
import Mathlib.Data.List.Count

/-!
# What the Executor takes and gives back

`executor` of `executor/executor.go` over its whole life: `Prepare` takes a
Handle from the Scheduler, a lease on the Host or on its Exec Agent and a
transport, and a failure on the way hands back what was taken; `Cleanup` hands
back what is left. The calls come one after the other, in any order, and
everything the Executor asks may answer anything (`Answers`).

`Balanced` is the invariant: whatever was taken was given back or is held, and
nothing is taken twice. What goes to the Job log, the shell configuration and
the Host Service variables are left out, and so is what a Stage does, but that
it may be recorded as failed.
-/

namespace FlintlockRunner

open List Option

namespace Executor

open Scheduler (Handle Profile)

/-- What the provider fixes: the keep-on-failure option, whether there is a
distributed cache, and with `WithAgentExec` whether it came with clients. -/
structure Settings where
  keepOnFailure : Bool
  cacheConfigured : Bool
  agentExec : Bool
  agents : Bool

/-- One `cache:` of a Job. -/
structure Cache where
  key : String
  paths : List String
  untracked : Bool

/-- What `Prepare` has taken from others. A lease and a transport are named by
numbers. -/
inductive Thing
  | handle (h : Handle)
  | lease (l : Nat)
  | transport (t : Nat)
  deriving DecidableEq

/-- What the Executor does to others. -/
inductive Event
  | took (x : Thing)
  | release (h : Handle)
  | retain (h : Handle)
  | done (l : Nat)
  | close (t : Nat)
  deriving DecidableEq

/-- How `Prepare`'s context has ended when `prepareErr` looks: the cause,
whether the error names it already, and whether it is the Job's own timeout. -/
structure Ended where
  cause : GoError
  named : Bool
  jobTimedOut : Bool

/-- What everything that one `Prepare` asks answers. `ready` is the first probe
of the guest and `probes` are those that follow until the ready timeout elapses
or the context ends; `dirs` is the exit status and the standard error of the
command that makes the directories. -/
structure Answers where
  reservation : Bool
  services : Nat
  caches : List Cache
  image : String
  profile : Except GoError Profile
  shell : Option GoError
  allocate : Except GoError Handle
  lease : Except GoError Nat
  sshKey : Option GoError
  transport : Except GoError Nat
  ready : Option GoError
  probes : List (Option GoError)
  dirs : Except GoError (Int × String)
  ended : Option Ended

end Executor

open Executor in
/-- `executor`, with the history of what it took and gave back. -/
structure Executor where
  handle : Option Scheduler.Handle
  tr : Option Nat
  hostDone : Option Nat
  prepared : Bool
  jobFailed : Bool
  failedStages : List (String × GoError)
  trace : List Event

namespace Executor

open Scheduler (Handle Profile)

/-- An executor that nobody has called. -/
def new : Executor := ⟨none, none, none, false, false, [], []⟩

variable (c : Settings) (e : Executor) (a : Answers)

/-! ## `Prepare` -/

/-- The Job has a `cache:` that names something. -/
def usesCache (caches : List Cache) : Bool :=
  caches.any fun x => x.key ≠ "" || x.paths ≠ [] || x.untracked

/-- The Job asks for nothing that the executor does not support. -/
def checkJob : Option GoError :=
  if a.services > 0 then
    some (buildErr .runnerUnsupported (.new
      "services are not supported by the flintlock executor; start auxiliary services from the job script"))
  else if !c.cacheConfigured && usesCache a.caches then
    some (buildErr .runnerUnsupported (.new
      "the job uses cache: but this runner has no distributed_cache configured"))
  else none

/-- The Profile of the Job's image. -/
def resolveProfile : Except GoError Profile :=
  match a.profile with
  | .ok p => .ok p
  | .error err =>
    if a.image = "" then
      .error (buildErr .runnerUnsupported
        (.new ("no profile for a job without an image: " ++ err.text)))
    else
      .error (buildErr .runnerUnsupported
        (.new ("no profile for job image " ++ Strings.quote a.image ++ ": " ++ err.text)))

/-- `configureShell`: an error that carries a `BuildError` goes on as it is. -/
def configureShell : Option GoError :=
  a.shell.map fun err =>
    match err.as with
    | some _ => err
    | none => buildErr .configurationError err

/-- Take something over. -/
def take : Thing → Executor
  | .handle h => { e with handle := some h, trace := e.trace ++ [.took (.handle h)] }
  | .lease l => { e with hostDone := some l, trace := e.trace ++ [.took (.lease l)] }
  | .transport t => { e with tr := some t, trace := e.trace ++ [.took (.transport t)] }

/-- Dials the agent that runs on the Host. -/
def agentTarget (h : Handle) : Executor × Option GoError :=
  if !c.agents then
    (e, some (buildErr .configurationError
      (.new "the agent-exec guest transport has no exec agent clients")))
  else
    match a.lease with
    | .error err =>
      (e, some (buildErr .runnerSystemFailure
        (.wrap ("exec agent of host " ++ h.alloc.host.name ++ ": ") err)))
    | .ok l => (e.take (.lease l), none)

variable (p : Profile)

def transportKind : String :=
  if c.agentExec then "agent-exec" else p.transport.kind.text

/-- Takes the lease that the transport of the Profile needs. -/
def guestTarget (h : Handle) : Executor × Option GoError :=
  if transportKind c p = "agent-exec" then e.agentTarget c a h
  else
    match a.lease with
    | .error err =>
      (e, some (buildErr .runnerSystemFailure
        (.wrap ("host " ++ h.alloc.placement.host ++ ": ") err)))
    | .ok l =>
      if transportKind c p = "ssh" then
        (e.take (.lease l), a.sshKey.map fun err =>
          buildErr .configurationError
            (.wrap ("profile " ++ p.name ++ ": ") (.wrap "reading ssh private key: " err)))
      else (e.take (.lease l), none)

/-- The loop of `waitReady`: the last error, if no probe finds the guest
ready. -/
def probe : GoError → List (Option GoError) → Option GoError
  | last, [] => some last
  | _, none :: _ => none
  | _, some err :: rest => probe err rest

/-- Probes the guest until it answers or its time is up. -/
def waitReady (h : Handle) : Option GoError :=
  let timeout := if p.readyTimeout ≤ 0 then Config.defaultReadyTimeout else p.readyTimeout
  match a.ready with
  | none => none
  | some err =>
    (probe err a.probes).map fun last =>
      buildErr .runnerSystemFailure
        (.wrap ("microvm " ++ h.alloc.vmUID ++ " was not ready within the ready timeout of " ++
          Strings.duration timeout ++ ": ") last)

/-- Makes the builds and the cache directory in the guest. -/
def makeDirs : Option GoError :=
  match a.dirs with
  | .error err =>
    some (buildErr .runnerSystemFailure (.wrap "creating the builds and cache directories: " err))
  | .ok (status, stderr) =>
    if status ≠ 0 then
      some (buildErr .runnerSystemFailure
        (.new ("creating the builds and cache directories exited " ++ toString status ++ ": " ++
          Strings.trimSpace stderr)))
    else none

/-- From the Handle to a guest that answers, up to the first failure. -/
def startGuest (h : Handle) : Executor × Option GoError :=
  match e.guestTarget c a p h with
  | (e, some err) => (e, some err)
  | (e, none) =>
    match a.transport with
    | .error err =>
      (e, some (buildErr .runnerSystemFailure
        (.wrap ("guest transport to microvm " ++ h.alloc.vmUID ++ " on host " ++
          h.alloc.placement.host ++ ": ") err)))
    | .ok t =>
      match waitReady a p h with
      | some err => (e.take (.transport t), some err)
      | none => (e.take (.transport t), makeDirs a)

/-- `closeGuest`: the transport first, then the lease. -/
def closeGuest : Executor :=
  { e with
    tr := none
    hostDone := none
    trace := e.trace ++ (e.tr.map Event.close).toList ++ (e.hostDone.map Event.done).toList }

/-- Closes the guest and releases the Handle. -/
def releaseAfterFailedPrepare : Executor :=
  let e := e.closeGuest
  { e with handle := none, trace := e.trace ++ (e.handle.map Event.release).toList }

/-- The error of a `Prepare` whose context ended names the cause. -/
def prepareErr (ended : Option Ended) (err : GoError) : GoError :=
  match ended, err.as with
  | some x, some (be, inner) =>
    let inner := if x.named then inner else .wrap₂ "" inner " (" x.cause ")"
    let be := if x.jobTimedOut then { be with reason := .jobExecutionTimeout } else be
    .typed be inner
  | _, _ => err

def errPrepared : GoError := .new "executor: already prepared; a microvm runs one job"

/-- What follows the allocation. -/
def prepareGuest (h : Handle) : Executor × Option GoError :=
  match e.startGuest c a p h with
  | (e, some err) => (e.releaseAfterFailedPrepare, some (prepareErr a.ended err))
  | (e, none) => (e, none)

/-- `Prepare`: everything a Job needs is taken here, one after the other. -/
def prepare : Executor × Option GoError :=
  if e.prepared then (e, some (.typed ⟨.runnerSystemFailure, 0⟩ errPrepared))
  else
    let e := { e with prepared := true }
    if !a.reservation then
      (e, some (buildErr .runnerSystemFailure
        (.new "flintlock: the run loop gave Prepare no reservation")))
    else
      match checkJob c a with
      | some err => (e, some err)
      | none =>
        match resolveProfile a with
        | .error err => (e, some err)
        | .ok p =>
          match configureShell a with
          | some err => (e, some err)
          | none =>
            match a.allocate with
            | .error err =>
              (e, some (prepareErr a.ended
                (buildErr .runnerSystemFailure (.wrap "allocating a microvm: " err))))
            | .ok h => (e.take (.handle h)).prepareGuest c a p h

/-! ## The other calls -/

/-- `recordFailed`, by which a `Run` may end. -/
def recordFailed (stage : String) (err : GoError) : Executor :=
  { e with failedStages := (stage, err) :: e.failedStages }

def finish (failed : Bool) : Executor := { e with jobFailed := failed }

/-- `Cleanup`: a MicroVM whose Job failed is retained if the settings say so. -/
def cleanup : Executor :=
  let e := e.closeGuest
  { e with
    handle := none
    trace := e.trace ++ (e.handle.map fun h =>
      if e.jobFailed && c.keepOnFailure then Event.retain h else Event.release h).toList }

/-- A call on the executor. -/
inductive Call
  | prepare (a : Answers)
  | run (failed : Option (String × GoError))
  | finish (failed : Bool)
  | cleanup

/-- One call. -/
def call : Call → Executor
  | .prepare a => (e.prepare c a).1
  | .run none => e
  | .run (some (stage, err)) => e.recordFailed stage err
  | .finish failed => e.finish failed
  | .cleanup => e.cleanup c

/-- The calls on one executor, in any order. -/
def calls (c : Settings) : Machine Executor Call where
  init e := e = new
  next e l := some (e.call c l)

/-! ## The balance -/

/-- What an event gives back. -/
def Event.gives : Event → Option Thing
  | .took _ => none
  | .release h | .retain h => some (.handle h)
  | .done l => some (.lease l)
  | .close t => some (.transport t)

/-- How often a thing was taken, and given back. -/
def took (x : Thing) : Nat := e.trace.count (.took x)

/-- How often a thing was given back. -/
def gave (x : Thing) : Nat := e.trace.countP fun o => o.gives = some x

/-- What the executor holds. -/
def holds : List Thing :=
  (e.handle.map Thing.handle).toList ++ (e.hostDone.map Thing.lease).toList ++
    (e.tr.map Thing.transport).toList

/-- What was taken was given back or is held, and nothing was taken twice. -/
structure Balanced : Prop where
  balance : ∀ x, e.took x = e.gave x + e.holds.count x
  once : ∀ x, e.took x ≤ 1

/-- Nothing of the kind is held. -/
def vacant : Thing → Prop
  | .handle _ => e.handle = none
  | .lease _ => e.hostDone = none
  | .transport _ => e.tr = none

variable {c e a}

theorem took_take (x y : Thing) : (e.take x).took y = e.took y + if x = y then 1 else 0 := by
  cases x <;> simp [take, took, count_append, count_cons]

theorem gave_take (x y : Thing) : (e.take x).gave y = e.gave y := by
  cases x <;> simp [take, gave, countP_append, Event.gives]

theorem holds_take {x : Thing} (h : e.vacant x) (y : Thing) :
    (e.take x).holds.count y = e.holds.count y + if x = y then 1 else 0 := by
  cases x with
  | handle h' =>
    have hnone : e.handle = none := h
    simp only [take, holds, hnone, count_append, map_some, map_none,
      toList_some, toList_none, count_cons, count_nil, beq_iff_eq]
    omega
  | lease l =>
    have hnone : e.hostDone = none := h
    simp only [take, holds, hnone, count_append, map_some, map_none,
      toList_some, toList_none, count_cons, count_nil, beq_iff_eq]
    omega
  | transport t =>
    have hnone : e.tr = none := h
    simp only [take, holds, hnone, count_append, map_some, map_none,
      toList_some, toList_none, count_cons, count_nil, beq_iff_eq]
    omega

section Balanced

variable (hB : e.Balanced)
include hB

theorem Balanced.take {x : Thing} (hvacant : e.vacant x) (hnew : e.took x = 0) :
    (e.take x).Balanced where
  balance y := by
    rw [took_take, gave_take, holds_take hvacant, hB.balance y, Nat.add_assoc]
  once y := by
    rw [took_take]
    split
    · rename_i heq
      rw [← heq, hnew]
    · exact hB.once y

variable {err : GoError} {e' : Executor}

theorem Balanced.give {gifts : List Event} (htrace : e'.trace = e.trace ++ gifts)
    (htook : ∀ x, gifts.count (.took x) = 0)
    (hheld : ∀ x, e.holds.count x = e'.holds.count x + gifts.countP fun o => o.gives = some x) :
    e'.Balanced := by
  have hsame : ∀ x, e'.took x = e.took x := by
    intro x
    unfold took
    rw [htrace, count_append, htook x, Nat.add_zero]
  refine ⟨fun x => ?_, fun x => hsame x ▸ hB.once x⟩
  have hgave : e'.gave x = e.gave x + gifts.countP fun o => o.gives = some x := by
    unfold gave
    rw [htrace, countP_append]
  have hbalance := hB.balance x
  have hheld := hheld x
  rw [hsame x, hgave]
  omega

theorem Balanced.closeGuest : e.closeGuest.Balanced := by
  refine hB.give (append_assoc ..) (fun x => ?_) fun x => ?_
  · cases e.tr <;> cases e.hostDone <;> rfl
  · unfold Executor.closeGuest holds
    cases e.tr <;> cases e.hostDone <;>
      simp only [count_append, countP_append, countP_cons, countP_nil,
        count_cons, count_nil, map_some, map_none, toList_some,
        toList_none, Event.gives, beq_iff_eq, decide_eq_true_eq, some.injEq] <;>
      omega

theorem Balanced.handBack (give : Handle → Event) (hgive : ∀ h, (give h).gives = some (.handle h)) :
    ({ e with handle := none, trace := e.trace ++ (e.handle.map give).toList } :
      Executor).Balanced := by
  have htook : ∀ h x, give h ≠ .took x := by
    intro h x heq
    have hgives := hgive h
    rw [heq] at hgives
    cases hgives
  refine hB.give rfl (fun x => ?_) fun x => ?_
  · cases e.handle with
    | none => rfl
    | some h => exact count_eq_zero.mpr fun hmem => htook h x (mem_singleton.mp hmem).symm
  · unfold holds
    cases e.handle with
    | none => rfl
    | some h =>
      simp only [map_some, map_none, toList_some, toList_none,
        count_append, count_cons, count_nil, countP_cons, countP_nil,
        hgive, decide_eq_true_eq, beq_iff_eq, some.injEq]
      omega

theorem Balanced.releaseAfterFailedPrepare :
    e.releaseAfterFailedPrepare.Balanced := hB.closeGuest.handBack _ fun _ => rfl

theorem Balanced.cleanup : (e.cleanup c).Balanced := by
  refine hB.closeGuest.handBack _ fun h => ?_
  split <;> rfl

theorem Balanced.gave_of_took (hnone : e.holds = []) {x : Thing}
    (h : .took x ∈ e.trace) : e.gave x = 1 := by
  have hpos : 0 < e.took x := count_pos_iff.mpr h
  have hbalance := hB.balance x
  have honce := hB.once x
  rw [hnone] at hbalance
  have hcount : ([] : List Thing).count x = 0 := rfl
  omega

end Balanced

/-! ## Each way through `Prepare` -/

/-- How far `startGuest` came: nothing taken, the lease, the lease and the
transport. -/
inductive Started (e : Executor) : Executor → Prop
  | nothing : Started e e
  | lease (l : Nat) : Started e (e.take (.lease l))
  | transport (l t : Nat) : Started e ((e.take (.lease l)).take (.transport t))

variable {p : Profile} {h : Handle}

theorem agentTarget_spec : ∀ out, e.agentTarget c a h = out →
    (∀ err ∈ out.2, err.IsBuild) ∧
    (out.1 = e ∧ out.2 ≠ none ∨ ∃ l, out.1 = e.take (.lease l)) := by
  rintro _ rfl
  unfold agentTarget
  split
  · exact ⟨fun err herr => mem_some.mp herr ▸ isBuild_buildErr _ _, .inl ⟨rfl, nofun⟩⟩
  · split
    · exact ⟨fun err herr => mem_some.mp herr ▸ isBuild_buildErr _ _, .inl ⟨rfl, nofun⟩⟩
    · rename_i l _
      exact ⟨nofun, .inr ⟨l, rfl⟩⟩

theorem guestTarget_spec : ∀ out, e.guestTarget c a p h = out →
    (∀ err ∈ out.2, err.IsBuild) ∧
    (out.1 = e ∧ out.2 ≠ none ∨ ∃ l, out.1 = e.take (.lease l)) := by
  rintro _ rfl
  unfold guestTarget
  split
  · exact agentTarget_spec _ rfl
  · split
    · exact ⟨fun err herr => mem_some.mp herr ▸ isBuild_buildErr _ _, .inl ⟨rfl, nofun⟩⟩
    · rename_i l _
      split
      · refine ⟨fun err herr => ?_, .inr ⟨l, rfl⟩⟩
        obtain ⟨err', -, rfl⟩ := map_eq_some_iff.mp herr
        exact isBuild_buildErr _ _
      · exact ⟨nofun, .inr ⟨l, rfl⟩⟩

theorem waitReady_spec (herr : waitReady a p h = some err) : err.IsBuild := by
  unfold waitReady at herr
  dsimp only at herr
  split at herr
  · cases herr
  · obtain ⟨last, -, rfl⟩ := map_eq_some_iff.mp herr
    exact isBuild_buildErr _ _

theorem makeDirs_spec (herr : makeDirs a = some err) : err.IsBuild := by
  unfold makeDirs at herr
  split at herr
  · cases herr
    exact isBuild_buildErr _ _
  · split at herr
    · cases herr
      exact isBuild_buildErr _ _
    · cases herr

/-- What `startGuest` took is held, and an error of it is a `BuildError`. -/
theorem startGuest_spec : Started e (e.startGuest c a p h).1 ∧
    ∀ err ∈ (e.startGuest c a p h).2, err.IsBuild := by
  unfold startGuest
  split
  · rename_i e' err htarget
    obtain ⟨hbuild, hout⟩ := guestTarget_spec _ htarget
    refine ⟨?_, hbuild⟩
    rcases hout with ⟨rfl, -⟩ | ⟨l, rfl⟩
    · exact .nothing
    · exact .lease l
  · rename_i e' htarget
    obtain ⟨-, ⟨-, hne⟩ | ⟨l, rfl⟩⟩ := guestTarget_spec _ htarget
    · exact absurd rfl hne
    · split
      · exact ⟨.lease l, fun err herr => mem_some.mp herr ▸ isBuild_buildErr _ _⟩
      · rename_i t _
        split
        · rename_i err hready
          exact ⟨.transport l t, fun err' herr => mem_some.mp herr ▸ waitReady_spec hready⟩
        · exact ⟨.transport l t, fun err herr => makeDirs_spec herr⟩

theorem Started.balanced (hs : Started e e') (hB : e.Balanced) (hlease : e.hostDone = none)
    (htr : e.tr = none) (hnewLease : ∀ l, e.took (.lease l) = 0)
    (hnewTr : ∀ t, e.took (.transport t) = 0) : e'.Balanced := by
  cases hs with
  | nothing => exact hB
  | lease l => exact hB.take hlease (hnewLease l)
  | transport l t =>
    refine (hB.take (x := .lease l) hlease (hnewLease l)).take htr ?_
    rw [took_take, hnewTr t, if_neg nofun]

theorem Started.prepared (hs : Started e e') : e'.prepared = e.prepared := by
  cases hs <;> rfl

theorem prepareErr_spec {ended : Option Ended} (h : err.IsBuild) :
    (prepareErr ended err).IsBuild := by
  unfold prepareErr
  split
  · exact ⟨_, _, rfl⟩
  · exact h

/-- An error of `PrepareBuildAndShell` that is no `BuildError` but carries
one. -/
def Wraps (err : GoError) : Prop := err.as.isSome ∧ ¬ err.IsBuild

theorem configureShell_spec (herr : configureShell a = some err) :
    err.as.isSome ∧ ((∀ x ∈ a.shell, ¬ Wraps x) → err.IsBuild) := by
  obtain ⟨x, hx, rfl⟩ := map_eq_some_iff.mp herr
  cases hb : x.as with
  | some b =>
    dsimp only
    refine ⟨hb ▸ rfl, fun hnot => ?_⟩
    by_contra hbuild
    exact hnot x hx ⟨hb ▸ rfl, hbuild⟩
  | none => exact ⟨rfl, fun _ => isBuild_buildErr _ _⟩

/-- Before `Prepare` there is nothing. -/
def Fresh (e : Executor) : Prop := e.prepared = false → e.trace = [] ∧ e.holds = []

theorem vacant_of_holds (hnone : e.holds = []) :
    e.handle = none ∧ e.hostDone = none ∧ e.tr = none := by
  unfold holds at hnone
  cases hh : e.handle <;> cases hl : e.hostDone <;> cases ht : e.tr <;>
    simp [hh, hl, ht] at hnone ⊢

/-- What follows the allocation keeps the balance, and a failure leaves nothing
held. -/
theorem prepareGuest_spec (hB : e.Balanced) (hlease : e.hostDone = none) (htr : e.tr = none)
    (hnewLease : ∀ l, e.took (.lease l) = 0) (hnewTr : ∀ t, e.took (.transport t) = 0) :
    (e.prepareGuest c a p h).1.Balanced ∧
    (e.prepareGuest c a p h).1.prepared = e.prepared ∧
    (∀ err ∈ (e.prepareGuest c a p h).2, err.IsBuild) ∧
    ((e.prepareGuest c a p h).2 ≠ none → (e.prepareGuest c a p h).1.holds = []) := by
  obtain ⟨hstarted, hbuild⟩ := startGuest_spec (e := e) (c := c) (a := a) (p := p) (h := h)
  unfold prepareGuest
  split
  · rename_i e' err hstart
    rw [hstart] at hstarted hbuild
    refine ⟨(hstarted.balanced hB hlease htr hnewLease hnewTr).releaseAfterFailedPrepare,
      hstarted.prepared, fun err' herr => ?_, fun _ => rfl⟩
    exact mem_some.mp herr ▸ prepareErr_spec (hbuild err rfl)
  · rename_i e' hstart
    rw [hstart] at hstarted
    exact ⟨hstarted.balanced hB hlease htr hnewLease hnewTr, hstarted.prepared, nofun,
      fun hne => absurd rfl hne⟩

/-- What one `Prepare` does: it keeps the balance, its error carries a
`BuildError`, and where it fails after its first line it holds nothing. -/
structure PrepareSpec (e : Executor) (a : Answers) (out : Executor × Option GoError) : Prop where
  balanced : out.1.Balanced
  prepared : out.1.prepared = true
  error : ∀ err ∈ out.2, err.as.isSome ∧ ((∀ x ∈ a.shell, ¬ Wraps x) → err.IsBuild)
  again : e.prepared = true → out.1 = e
  failed : e.prepared = false → out.2 ≠ none → out.1.holds = []

theorem PrepareSpec.refused {e e' : Executor} (hB : e'.Balanced) (hprepared : e'.prepared = true)
    (hagain : e.prepared = true → e' = e) (hnone : e.prepared = false → e'.holds = [])
    (hbuild : err.IsBuild) : PrepareSpec e a (e', some err) :=
  ⟨hB, hprepared, fun _ herr => mem_some.mp herr ▸ ⟨hbuild.as, fun _ => hbuild⟩, hagain,
    fun h _ => hnone h⟩

theorem checkJob_spec (herr : checkJob c a = some err) : err.IsBuild := by
  unfold checkJob at herr
  split at herr
  · cases herr
    exact isBuild_buildErr _ _
  · split at herr
    · cases herr
      exact isBuild_buildErr _ _
    · cases herr

theorem resolveProfile_spec (herr : resolveProfile a = .error err) : err.IsBuild := by
  unfold resolveProfile at herr
  split at herr
  · cases herr
  · split at herr
    · cases herr
      exact isBuild_buildErr _ _
    · cases herr
      exact isBuild_buildErr _ _

/-- `Prepare` branch by branch: what is held after each failure. -/
theorem prepare_spec (hB : e.Balanced) (hF : e.Fresh) : PrepareSpec e a (e.prepare c a) := by
  unfold prepare
  cases hprepared : e.prepared with
  | true =>
    exact .refused hB hprepared (fun _ => rfl) (fun h => absurd (hprepared.symm.trans h) nofun)
      ⟨_, _, rfl⟩
  | false =>
    obtain ⟨htrace, hholds⟩ := hF hprepared
    obtain ⟨hhandle, hlease, htr⟩ := vacant_of_holds hholds
    have hB₁ : ({ e with prepared := true } : Executor).Balanced := ⟨hB.balance, hB.once⟩
    have hagain : ∀ {e' : Executor}, e.prepared = true → e' = e := fun h =>
      absurd (hprepared.symm.trans h) nofun
    have hnone : e.prepared = false → ({ e with prepared := true } : Executor).holds = [] :=
      fun _ => hholds
    have hnever : ∀ x, ({ e with prepared := true } : Executor).took x = 0 := by
      intro x
      unfold took
      rw [show ({ e with prepared := true } : Executor).trace = [] from htrace]
      rfl
    rw [if_neg Bool.false_ne_true]
    dsimp only
    split
    · exact .refused hB₁ rfl hagain hnone (isBuild_buildErr _ _)
    cases hjob : checkJob c a with
    | some err => exact .refused hB₁ rfl hagain hnone (checkJob_spec hjob)
    | none =>
    cases hprofile : resolveProfile a with
    | error err => exact .refused hB₁ rfl hagain hnone (resolveProfile_spec hprofile)
    | ok p =>
    cases hshell : configureShell a with
    | some err =>
      exact ⟨hB₁, rfl, fun _ herr => mem_some.mp herr ▸ configureShell_spec hshell, hagain,
        fun h _ => hnone h⟩
    | none =>
    cases a.allocate with
    | error err => exact .refused hB₁ rfl hagain hnone (prepareErr_spec (isBuild_buildErr _ _))
    | ok h =>
      -- the Handle is the first thing taken
      obtain ⟨hbalanced, hstill, hbuild, hfailed⟩ := prepareGuest_spec (c := c) (a := a) (p := p)
        (h := h) (hB₁.take (x := .handle h) hhandle (hnever _)) hlease htr
        (fun l => by rw [took_take, hnever, if_neg nofun])
        (fun t => by rw [took_take, hnever, if_neg nofun])
      exact ⟨hbalanced, hstill, fun err herr => ⟨(hbuild err herr).as, fun _ => hbuild err herr⟩,
        hagain, fun _ => hfailed⟩

/-! ## The whole life -/

/-- What holds between any two calls. -/
structure Inv (e : Executor) : Prop where
  balanced : e.Balanced
  fresh : e.Fresh

theorem new_inv : new.Inv where
  balanced := ⟨fun _ => rfl, fun _ => Nat.zero_le 1⟩
  fresh := fun _ => ⟨rfl, rfl⟩

/-- Every call keeps the balance. -/
theorem call_inv (hI : e.Inv) (l : Call) : (e.call c l).Inv := by
  cases l with
  | prepare a =>
    have hspec : PrepareSpec e a (e.prepare c a) := prepare_spec hI.balanced hI.fresh
    exact ⟨hspec.balanced, fun h => absurd (hspec.prepared.symm.trans h) nofun⟩
  | run failed =>
    cases failed with
    | none => exact hI
    | some x => exact ⟨⟨hI.balanced.balance, hI.balanced.once⟩, hI.fresh⟩
  | finish failed => exact ⟨⟨hI.balanced.balance, hI.balanced.once⟩, hI.fresh⟩
  | cleanup =>
    refine ⟨hI.balanced.cleanup, fun hprepared => ?_⟩
    -- a `Cleanup` before `Prepare` finds nothing
    obtain ⟨htrace, hholds⟩ := hI.fresh hprepared
    obtain ⟨hhandle, hlease, htr⟩ := vacant_of_holds hholds
    refine ⟨?_, rfl⟩
    show (e.cleanup c).trace = []
    unfold Executor.cleanup closeGuest
    simp only [htrace, hhandle, hlease, htr, map_none, toList_none, append_nil]

theorem reach_inv (hs : (calls c).Reach Machine.any e) : e.Inv := by
  refine hs.inv (fun _ h => h ▸ new_inv) fun e l e' hI _ hnext => ?_
  obtain rfl : e.call c l = e' := some.inj hnext
  exact call_inv hI l

/-- Over the whole life of an executor, whatever order its calls come in: no
Handle, lease or transport is given back twice; when `Prepare` fails all that it
took has been given back, and its error carries a `BuildError`; and after
`Cleanup` nothing that was ever taken is left. The error itself is a
`BuildError`, unless the shell's own preparation wrapped one. -/
theorem given_back_once (hs : (calls c).Reach Machine.any e) :
    (∀ x, e.gave x ≤ 1) ∧
    (∀ a err, (e.prepare c a).2 = some err →
      err.as.isSome ∧ ((∀ x ∈ a.shell, ¬ Wraps x) → err.IsBuild) ∧
      ∀ x, .took x ∈ (e.prepare c a).1.trace → .took x ∉ e.trace →
        (e.prepare c a).1.gave x = 1) ∧
    (∀ x, .took x ∈ e.trace → (e.cleanup c).gave x = 1) := by
  have hI := reach_inv hs
  refine ⟨fun x => ?_, fun a err herr => ?_, fun x hx => ?_⟩
  · have hbalance := hI.balanced.balance x
    have honce := hI.balanced.once x
    omega
  · have hspec : PrepareSpec e a (e.prepare c a) := prepare_spec hI.balanced hI.fresh
    obtain ⟨hcarries, hbuild⟩ := hspec.error err herr
    refine ⟨hcarries, hbuild, fun x hx hnew => ?_⟩
    cases hprepared : e.prepared with
    | true => exact absurd (hspec.again hprepared ▸ hx) hnew
    | false =>
      have hne : (e.prepare c a).2 ≠ none := herr ▸ nofun
      exact hspec.balanced.gave_of_took (hspec.failed hprepared hne) hx
  · refine hI.balanced.cleanup.gave_of_took rfl ?_
    exact mem_append_left _ (mem_append_left _ (mem_append_left _ hx))

/-- A Job whose guest never answers. -/
def neverReady : Answers where
  reservation := true
  services := 0
  caches := []
  image := ""
  profile := .ok default
  shell := none
  allocate := .ok default
  lease := .ok 1
  sshKey := none
  transport := .ok 2
  ready := some (.new "connection refused")
  probes := []
  dirs := .ok (0, "")
  ended := none

theorem given_back_once_never_ready :
    (new.prepare ⟨false, true, false, false⟩ neverReady).1.gave (.handle default) = 1 ∧
    (new.prepare ⟨false, true, false, false⟩ neverReady).1.gave (.lease 1) = 1 := by
  obtain ⟨-, hprepare, -⟩ := given_back_once (c := ⟨false, true, false, false⟩)
    ⟨new, rfl, .refl new⟩
  obtain ⟨-, -, hgave⟩ := hprepare neverReady _ rfl
  exact ⟨hgave (.handle default) (by decide) (by decide),
    hgave (.lease 1) (by decide) (by decide)⟩

/-- A Job whose guest answers at once. -/
def readyAtOnce : Answers := { neverReady with ready := none }

/-- **A repeated `Prepare`** fails and leaves what the first one took to `Cleanup`. -/
theorem prepared_again_keeps : ∃ e, (calls ⟨false, true, false, false⟩).Reach Machine.any e ∧
    (e.prepare ⟨false, true, false, false⟩ readyAtOnce).2 =
      some (.typed ⟨.runnerSystemFailure, 0⟩ errPrepared) ∧
    ∀ x ∈ [Thing.handle default, .lease 1],
      .took x ∈ (e.prepare ⟨false, true, false, false⟩ readyAtOnce).1.trace ∧
      (e.prepare ⟨false, true, false, false⟩ readyAtOnce).1.gave x = 0 :=
  ⟨_, Machine.reach_exec (show new = new from rfl)
    (show ((calls ⟨false, true, false, false⟩).exec new [.prepare readyAtOnce]).isSome from rfl),
    rfl, by decide⟩

end Executor

end FlintlockRunner

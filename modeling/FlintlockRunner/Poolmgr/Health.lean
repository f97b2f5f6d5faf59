import FlintlockRunner.Config.Types
import Mathlib.Algebra.BigOperators.Group.List.Basic
import Mathlib.Algebra.Ring.Nat
import Mathlib.Data.List.Basic

/-!
# Pool Manager health

`HealthMonitor` of `poolmgr/health.go`, with the two components that drive it:
the loop of `Run`, which probes the Pool Manager, and the Scheduler's `claim`,
which calls `MarkUnavailable` when a claim cannot reach it.

`MarkUnavailable` is documented to start a period that "any probe or claim that
succeeds in the meantime ends early". A probe does. A claim does not, because
nothing tells the monitor of a claim that succeeds: `successful_claim_overlooked`.
What the monitor says is the history's verdict otherwise, and in no other case
(`healthy_iff_history`).
-/

namespace FlintlockRunner.Poolmgr

open Config

/-! ## The monitor -/

def defaultHealthFailureThreshold : Int := 3
def defaultHealthBackoff : Duration := 30 * second

/-- What of `HealthConfig` the state depends on. -/
structure HealthConfig where
  failureThreshold : Int
  unhealthyFor : Duration

/-- The defaults of `NewHealth`. -/
def HealthConfig.withDefaults (cfg : HealthConfig) : HealthConfig where
  failureThreshold :=
    if cfg.failureThreshold ≤ 0 then defaultHealthFailureThreshold else cfg.failureThreshold
  unhealthyFor := if cfg.unhealthyFor ≤ 0 then defaultHealthBackoff else cfg.unhealthyFor

/-- `HealthMonitor`. The zero time of `unhealthyUntil` is `none`: no reading of
the clock is before it. -/
structure HealthMonitor where
  cfg : HealthConfig
  contacted : Bool
  failures : Nat
  healthy : Bool
  unhealthyUntil : Option Int

namespace HealthMonitor

def newHealth (cfg : HealthConfig) : HealthMonitor := ⟨cfg.withDefaults, false, 0, false, none⟩

variable (h : HealthMonitor)

/-- One more probe failed. -/
def markFailure : HealthMonitor :=
  let failures := h.failures + 1
  { h with
    failures := failures
    healthy := if (failures : Int) ≥ h.cfg.failureThreshold then false else h.healthy }

/-- A probe succeeded. -/
def markHealthy : HealthMonitor :=
  { h with contacted := true, failures := 0, healthy := true, unhealthyUntil := none }

/-- A claim found the Pool Manager unavailable. -/
def markUnavailable (now : Int) : HealthMonitor :=
  { h with unhealthyUntil := some (now + h.cfg.unhealthyFor) }

/-- `Healthy`. -/
def isHealthy (now : Int) : Bool :=
  if !h.healthy then false else !(h.unhealthyUntil.any fun deadline => decide (now < deadline))

/-- One call of `ListPools` by `Run`. Until the first one succeeds it is
`firstContact` that calls, which counts no failures. -/
def probe (ok : Bool) : HealthMonitor :=
  if ok then h.markHealthy else if h.contacted then h.markFailure else h

end HealthMonitor

/-! ## Histories -/

/-- What happens to the monitor: a probe, a `ClaimVM` of the Scheduler that
succeeds or fails as unavailable, and time. -/
inductive HealthEvent
  | probe (ok : Bool)
  | claim (ok : Bool)
  | advance (d : Nat)
  deriving DecidableEq

/-- The monitor and the clock. -/
structure HealthRun where
  now : Int
  monitor : HealthMonitor

/-- One event. The Scheduler's `claim` has nothing to say to the monitor when
it succeeds. -/
def HealthRun.step (s : HealthRun) : HealthEvent → HealthRun
  | .probe ok => { s with monitor := s.monitor.probe ok }
  | .claim true => s
  | .claim false => { s with monitor := s.monitor.markUnavailable s.now }
  | .advance d => { s with now := s.now + d }

/-- A new monitor after a history, which has its most recent event first. -/
def healthAfter (cfg : HealthConfig) (start : Int) : List HealthEvent → HealthRun
  | [] => ⟨start, .newHealth cfg⟩
  | e :: past => (healthAfter cfg start past).step e

/-- `Healthy`, called at the end of a history. -/
def HealthRun.isHealthy (s : HealthRun) : Bool := s.monitor.isHealthy s.now

/-! ## What a history says -/

namespace HealthEvent

/-- How long an event takes. -/
def duration : HealthEvent → Nat
  | .advance d => d
  | _ => 0

/-- A probe that reached the Pool Manager. -/
def probed : HealthEvent → Bool
  | .probe true => true
  | _ => false

/-- A probe or a claim that reached the Pool Manager. -/
def succeeded : HealthEvent → Bool
  | .probe true | .claim true => true
  | _ => false

end HealthEvent

/-- The time a history takes. -/
def elapsed (history : List HealthEvent) : Nat := (history.map HealthEvent.duration).sum

/-- How many probes have failed since the last one that succeeded. -/
def failedProbes (history : List HealthEvent) : Nat :=
  (history.takeWhile fun e => !e.probed).count (.probe false)

/-- A claim failed as unavailable within the last `period`, and nothing that
`ends` the matter has happened since. -/
def Refused (period : Duration) (ends : HealthEvent → Bool) (history : List HealthEvent) : Prop :=
  ∃ since past, history = since ++ .claim false :: past ∧ (elapsed since : Int) < period ∧
    ∀ e ∈ since, ends e = false

/-- The Pool Manager is healthy by the history: a probe has succeeded, fewer
than the threshold have failed since the last that did, and no claim has failed
as unavailable within the period with no success since. -/
def HealthyBy (cfg : HealthConfig) (history : List HealthEvent) : Prop :=
  .probe true ∈ history ∧ (failedProbes history : Int) < cfg.failureThreshold ∧
    ¬ Refused cfg.unhealthyFor HealthEvent.succeeded history

/-- The probes alone call the Pool Manager healthy, and a claim that failed as
unavailable within the period has had a successful claim since, but no
successful probe and no later failure. -/
def Overlooked (cfg : HealthConfig) (history : List HealthEvent) : Prop :=
  .probe true ∈ history ∧ (failedProbes history : Int) < cfg.failureThreshold ∧
    Refused cfg.unhealthyFor HealthEvent.probed history ∧
    ¬ Refused cfg.unhealthyFor HealthEvent.succeeded history

/-! ### The last refusal -/

/-- How long ago the last claim failed as unavailable, if nothing has ended the
matter since. -/
def sinceRefused (ends : HealthEvent → Bool) : List HealthEvent → Option Nat
  | [] => none
  | e :: past =>
    if e = .claim false then some 0
    else if ends e then none
    else (sinceRefused ends past).map (e.duration + ·)

section Refusal

variable {period : Duration} {ends : HealthEvent → Bool}

theorem sinceRefused_le (past : List HealthEvent) : ∀ {since : List HealthEvent},
    (∀ e ∈ since, ends e = false) →
      ∃ d, sinceRefused ends (since ++ .claim false :: past) = some d ∧ d ≤ elapsed since
  | [], _ => ⟨0, rfl, Nat.zero_le _⟩
  | e :: since, hends => by
    obtain ⟨d, hd, hle⟩ := sinceRefused_le past fun e' he' => hends e' (List.mem_cons_of_mem _ he')
    rw [List.cons_append, sinceRefused, hends e List.mem_cons_self, hd]
    split
    · exact ⟨0, rfl, Nat.zero_le _⟩
    · refine ⟨e.duration + d, rfl, ?_⟩
      show _ ≤ (e.duration :: since.map HealthEvent.duration).sum
      rw [List.sum_cons]
      exact Nat.add_le_add_left hle _

theorem refused_of_sinceRefused : ∀ {history : List HealthEvent} {d : Nat},
    sinceRefused ends history = some d →
      ∃ since past, history = since ++ .claim false :: past ∧ elapsed since = d ∧
        ∀ e ∈ since, ends e = false
  | [], _, h => by cases h
  | e :: history, d, h => by
    rw [sinceRefused] at h
    split at h
    · rename_i he
      cases h
      exact ⟨[], history, by rw [he]; rfl, rfl, nofun⟩
    · split at h
      · cases h
      · rename_i hends
        obtain ⟨d', hd', rfl⟩ := Option.map_eq_some_iff.mp h
        obtain ⟨since, past, rfl, rfl, hsince⟩ := refused_of_sinceRefused hd'
        refine ⟨e :: since, past, rfl, List.sum_cons, ?_⟩
        exact List.forall_mem_cons.mpr ⟨Bool.eq_false_iff.mpr hends, hsince⟩

/-- A claim was refused within the period exactly if the last one was. -/
theorem refused_iff {history : List HealthEvent} : Refused period ends history ↔
    ∃ d, sinceRefused ends history = some d ∧ (d : Int) < period := by
  constructor
  · rintro ⟨since, past, rfl, hperiod, hends⟩
    obtain ⟨d, hd, hle⟩ := sinceRefused_le past hends
    exact ⟨d, hd, Int.lt_of_le_of_lt (Int.ofNat_le.mpr hle) hperiod⟩
  · rintro ⟨d, hd, hperiod⟩
    obtain ⟨since, past, hhistory, rfl, hends⟩ := refused_of_sinceRefused hd
    exact ⟨since, past, hhistory, hperiod, hends⟩

instance (period : Duration) (ends : HealthEvent → Bool) (history : List HealthEvent) :
    Decidable (Refused period ends history) :=
  decidable_of_iff ((sinceRefused ends history).any fun d : Nat => decide ((d : Int) < period))
    (by rw [refused_iff, Option.any_eq_true]; simp only [decide_eq_true_eq])

end Refusal

instance (cfg : HealthConfig) (history : List HealthEvent) : Decidable (HealthyBy cfg history) :=
  inferInstanceAs (Decidable (_ ∧ _ ∧ _))

instance (cfg : HealthConfig) (history : List HealthEvent) : Decidable (Overlooked cfg history) :=
  inferInstanceAs (Decidable (_ ∧ _ ∧ _ ∧ _))

/-! ## The monitor follows its history -/

/-- What the monitor's fields are after a history. -/
structure Recalls (cfg : HealthConfig) (history : List HealthEvent) (s : HealthRun) : Prop where
  config : s.monitor.cfg = cfg.withDefaults
  contacted : s.monitor.contacted = true ↔ .probe true ∈ history
  failures : .probe true ∈ history → s.monitor.failures = failedProbes history
  healthy : s.monitor.healthy = true ↔
    .probe true ∈ history ∧ (failedProbes history : Int) < cfg.withDefaults.failureThreshold
  unhealthyUntil : s.monitor.unhealthyUntil
    = (sinceRefused HealthEvent.probed history).map
      fun d : Nat => s.now - d + cfg.withDefaults.unhealthyFor

theorem threshold_pos (cfg : HealthConfig) : 0 < cfg.withDefaults.failureThreshold := by
  unfold HealthConfig.withDefaults
  dsimp only
  split
  · decide
  · omega

section Step

variable {cfg : HealthConfig} {history : List HealthEvent} {s : HealthRun}

theorem Recalls.probeSucceeds (hr : Recalls cfg history s) :
    Recalls cfg (.probe true :: history) (s.step (.probe true)) where
  config := hr.config
  contacted := iff_of_true rfl List.mem_cons_self
  failures _ := rfl
  healthy := iff_of_true rfl ⟨List.mem_cons_self, threshold_pos cfg⟩
  unhealthyUntil := rfl

theorem failedProbes_probe_false : failedProbes (.probe false :: history)
    = failedProbes history + 1 := List.count_cons_self

theorem Recalls.probeFails (hr : Recalls cfg history s) :
    Recalls cfg (.probe false :: history) (s.step (.probe false)) := by
  have hmem : HealthEvent.probe true ∈ .probe false :: history ↔ .probe true ∈ history := by
    simp
  have hrefused : sinceRefused HealthEvent.probed (.probe false :: history)
      = sinceRefused HealthEvent.probed history := by
    show (sinceRefused HealthEvent.probed history).map (0 + ·) = _
    simp
  cases hc : s.monitor.contacted with
  | true =>
    have hin := hr.contacted.mp hc
    have hstep : s.step (.probe false) = { s with monitor := s.monitor.markFailure } := by
      show { s with monitor := s.monitor.probe false } = _
      rw [HealthMonitor.probe, hc]
      rfl
    have hfailures := hr.failures hin
    rw [hstep]
    refine ⟨hr.config, ?_, ?_, ?_, ?_⟩
    · rw [hmem]
      exact hr.contacted
    · intro _
      rw [failedProbes_probe_false, ← hfailures]
      rfl
    · rw [hmem, failedProbes_probe_false]
      show (if ((s.monitor.failures + 1 : Nat) : Int) ≥ s.monitor.cfg.failureThreshold then false
        else s.monitor.healthy) = true ↔ _
      rw [hfailures, hr.config]
      split
      · refine iff_of_false Bool.false_ne_true fun h => ?_
        omega
      · rw [hr.healthy]
        refine and_congr_right fun _ => ?_
        omega
    · rw [hrefused]
      exact hr.unhealthyUntil
  | false =>
    have hnot : HealthEvent.probe true ∉ history := by
      rw [← hr.contacted, hc]
      exact Bool.false_ne_true
    have hstep : s.step (.probe false) = s := by
      show { s with monitor := s.monitor.probe false } = _
      rw [HealthMonitor.probe, hc]
      rfl
    rw [hstep]
    refine ⟨hr.config, ?_, ?_, ?_, ?_⟩
    · rw [hmem]
      exact hr.contacted
    · rw [hmem]
      exact fun h => absurd h hnot
    · rw [hmem, hr.healthy]
      exact iff_of_false (fun h => hnot h.1) fun h => hnot h.1
    · rw [hrefused]
      exact hr.unhealthyUntil

theorem Recalls.quiet (hr : Recalls cfg history s) {e : HealthEvent} {s' : HealthRun}
    (he : ∀ ok, e ≠ .probe ok) (hconfig : s'.monitor.cfg = s.monitor.cfg)
    (hcontacted : s'.monitor.contacted = s.monitor.contacted)
    (hfailures : s'.monitor.failures = s.monitor.failures)
    (hhealthy : s'.monitor.healthy = s.monitor.healthy)
    (hrefused : s'.monitor.unhealthyUntil = (sinceRefused HealthEvent.probed (e :: history)).map
      fun d : Nat => s'.now - d + cfg.withDefaults.unhealthyFor) :
    Recalls cfg (e :: history) s' := by
  have hmem : HealthEvent.probe true ∈ e :: history ↔ .probe true ∈ history := by
    simp [Ne.symm (he true)]
  have hprobed : e.probed = false := by
    cases e with
    | probe ok => exact absurd rfl (he ok)
    | claim ok | advance d => rfl
  have hfailed : failedProbes (e :: history) = failedProbes history := by
    unfold failedProbes
    rw [List.takeWhile_cons_of_pos (by rw [hprobed]; rfl), List.count_cons_of_ne (he false)]
  refine ⟨hconfig.trans hr.config, ?_, ?_, ?_, hrefused⟩
  · rw [hcontacted, hmem]
    exact hr.contacted
  · rw [hmem, hfailures, hfailed]
    exact hr.failures
  · rw [hhealthy, hmem, hfailed]
    exact hr.healthy

theorem Recalls.step (hr : Recalls cfg history s) (e : HealthEvent) :
    Recalls cfg (e :: history) (s.step e) := by
  cases e with
  | probe ok =>
    cases ok with
    | true => exact hr.probeSucceeds
    | false => exact hr.probeFails
  | claim ok =>
    cases ok with
    | true =>
      refine hr.quiet nofun rfl rfl rfl rfl (hr.unhealthyUntil.trans ?_)
      show _ = ((sinceRefused HealthEvent.probed history).map (0 + ·)).map _
      simp [HealthRun.step]
    | false =>
      refine hr.quiet nofun rfl rfl rfl rfl ?_
      show some (s.now + s.monitor.cfg.unhealthyFor)
        = some (s.now - ((0 : Nat) : Int) + cfg.withDefaults.unhealthyFor)
      rw [hr.config, Int.ofNat_zero, Int.sub_zero]
  | advance d =>
    refine hr.quiet nofun rfl rfl rfl rfl (hr.unhealthyUntil.trans ?_)
    show _ = ((sinceRefused HealthEvent.probed history).map (d + ·)).map _
    rw [Option.map_map]
    congr 1
    funext n
    show _ = s.now + (d : Int) - ((d + n : Nat) : Int) + _
    omega

end Step

theorem recalls (cfg : HealthConfig) (start : Int) : ∀ history : List HealthEvent,
    Recalls cfg history (healthAfter cfg start history)
  | [] => by
    refine ⟨rfl, iff_of_false Bool.false_ne_true List.not_mem_nil, nofun, ?_, rfl⟩
    exact iff_of_false Bool.false_ne_true fun h => List.not_mem_nil h.1
  | e :: history => (recalls cfg start history).step e

/-- What `Healthy` says: a refused claim counts until a probe succeeds. -/
theorem isHealthy_iff (cfg : HealthConfig) (start : Int) (history : List HealthEvent) :
    (healthAfter cfg start history).isHealthy = true ↔ .probe true ∈ history ∧
      (failedProbes history : Int) < cfg.withDefaults.failureThreshold ∧
      ¬ Refused cfg.withDefaults.unhealthyFor HealthEvent.probed history := by
  have hr := recalls cfg start history
  generalize healthAfter cfg start history = s at hr ⊢
  have hperiod : (s.monitor.unhealthyUntil.any fun deadline => decide (s.now < deadline)) = true ↔
      Refused cfg.withDefaults.unhealthyFor HealthEvent.probed history := by
    rw [hr.unhealthyUntil, refused_iff]
    cases sinceRefused HealthEvent.probed history with
    | none => simp
    | some d =>
      simp only [Option.map_some, Option.any_some, decide_eq_true_eq, Option.some.injEq,
        exists_eq_left']
      omega
  rw [← hperiod, ← and_assoc, ← hr.healthy, HealthRun.isHealthy, HealthMonitor.isHealthy]
  cases s.monitor.healthy <;> simp

/-- **Pool Manager health matches its history** exactly if no claim that
succeeded is overlooked. -/
theorem healthy_iff_history (cfg : HealthConfig) (start : Int) (history : List HealthEvent) :
    ((healthAfter cfg start history).isHealthy = true ↔ HealthyBy cfg.withDefaults history) ↔
      ¬ Overlooked cfg.withDefaults history := by
  rw [isHealthy_iff]
  unfold HealthyBy Overlooked
  -- a refusal with no success since has no successful probe since, either
  have hweaker : Refused cfg.withDefaults.unhealthyFor HealthEvent.succeeded history →
      Refused cfg.withDefaults.unhealthyFor HealthEvent.probed history := by
    rintro ⟨since, past, hhistory, hperiod, hsince⟩
    refine ⟨since, past, hhistory, hperiod, fun e he => ?_⟩
    have hno := hsince e he
    cases e with
    | probe ok =>
      cases ok with
      | true => cases hno
      | false => rfl
    | claim ok | advance d => rfl
  tauto

/-- The Pool Manager is contacted, and fails a claim. -/
theorem healthy_iff_history_refused :
    (healthAfter ⟨3, 30 * second⟩ 0 [.advance 5, .claim false, .probe true]).isHealthy = false ∧
    ¬ HealthyBy ⟨3, 30 * second⟩ [.advance 5, .claim false, .probe true] := by
  refine ⟨rfl, fun h => ?_⟩
  have hcode := (healthy_iff_history ⟨3, 30 * second⟩ 0 [.advance 5, .claim false, .probe true]).mpr
    (by decide)
  exact Bool.false_ne_true (hcode.mpr h)

/-- **A claim that succeeds is overlooked**: the retry of a refused claim
succeeds a second later, and the Pool Manager stays unhealthy. -/
theorem successful_claim_overlooked :
    HealthyBy ⟨3, 30 * second⟩ [.claim true, .advance 1000000000, .claim false, .probe true] ∧
    (healthAfter ⟨3, 30 * second⟩ 0
      [.claim true, .advance 1000000000, .claim false, .probe true]).isHealthy = false := by
  refine ⟨by decide, rfl⟩

end FlintlockRunner.Poolmgr

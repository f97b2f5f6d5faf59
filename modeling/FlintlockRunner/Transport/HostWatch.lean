import FlintlockRunner.Base.Machine
import FlintlockRunner.Transport.Receive

/-!
# The Host watch (`transport/watchdog.go`)

An operation in a guest may say nothing for hours, so silence alone does not end
it. When half the deadline has passed without a response, the watch asks the Host
about the MicroVM; a Host that does not answer within the other half ends the
operation. A run interleaves the goroutine of the watch with the operation, with
whatever else ends its context, with the Host's answers and with time.

- `silence_bounded`: where nobody dawdles, an operation in flight has heard from its
  Host within the deadline, and the watch does not hang;
- `over_not_failed`: an operation that is over is not failed any more.
-/

namespace FlintlockRunner.Transport

/-- What the watch reads of a `Target`; `within` is the budget of a probe as `%s`
prints it. -/
structure Target where
  hostName : String
  vmUID : String
  host : Bool
  deadline : Int
  within : String

namespace Target

variable (t : Target)

/-- The Host is probed while a command is silent. -/
def watched : Bool := 0 < t.deadline && t.host

/-- The time between two looks. -/
def interval : Int := if t.deadline / 2 ≤ 0 then t.deadline else t.deadline / 2

/-- What is left of the deadline for a probe. -/
def probeTimeout : Int :=
  if t.deadline - t.interval ≤ 0 then t.interval else t.deadline - t.interval

/-- What `fail` records of the error of `probeHost`. -/
def unreachable (err : Err) : Err :=
  .join (.value .streamFailed) (.wrap ("host " ++ t.hostName
    ++ " did not answer for microvm " ++ t.vmUID ++ " within " ++ t.within ++ ": ") err)

theorem interval_add_probeTimeout (ht : t.watched = true) :
    t.interval + t.probeTimeout = max t.deadline 2 ∧ 0 < t.interval ∧ 0 < t.probeTimeout := by
  have hpos : 0 < t.deadline := by simpa using (Bool.and_eq_true_iff.mp ht).1
  simp only [probeTimeout, interval]
  omega

end Target

/-- Where the goroutine of a watch is. -/
inductive WatchPc
  | selecting
  | probing (ends : Int)
  | probed (err : Err)
  | failing (err : Err)
  | cancelling
  | finished
  deriving DecidableEq

/-- `hostWatch`, with its timer, the operation's context, the time, and when the Host
was last heard from, which nothing reads. -/
structure HostWatch where
  now : Int
  heard : Int
  activity : Bool := false
  fires : Int
  pc : WatchPc
  done : Bool := false
  cancelled : Bool := false
  failure : Option Err := none

/-- Starts the watch, unless the settings turn it off. -/
def watchHost (t : Target) (now : Int) : HostWatch where
  now := now
  heard := now
  fires := now + t.interval
  pc := if t.watched then .selecting else .finished

/-- The cases of the `select`. -/
inductive Ready
  | ctx
  | done
  | activity
  | timer

/-- What happens next: `sees` and `go` are the goroutine's, `answers` is its probe. -/
inductive WatchEvent
  | tick (d : Nat)
  | sawResponse
  | stop
  | ctxEnds
  | sees (r : Ready)
  | answers (err : Option Err)
  | go

namespace HostWatch

variable (t : Target) (w : HostWatch)

/-- The cases of the `select` that can be taken. -/
def ready : Ready → Bool
  | .ctx => w.cancelled
  | .done => w.done
  | .activity => w.activity
  | .timer => w.fires ≤ w.now

/-- What the `select` does with a case; `resetTimer` drains a timer that has fired. -/
def take : Ready → HostWatch
  | .ctx | .done => { w with pc := .finished }
  | .activity => { w with activity := false, fires := w.now + t.interval }
  | .timer => { w with pc := .probing (w.now + t.probeTimeout) }

/-- A step of the watch, or of what it watches. -/
def next : WatchEvent → Option HostWatch
  | .tick d => some { w with now := w.now + d }
  | .sawResponse => some { w with activity := true, heard := w.now }
  | .stop => some { w with done := true }
  | .ctxEnds => some { w with cancelled := true }
  | .sees r => if w.pc = .selecting ∧ w.ready r then some (w.take t r) else none
  | .answers err =>
    match w.pc, err with
    | .probing _, none =>
      some { w with pc := .selecting, fires := w.now + t.interval, heard := w.now }
    | .probing _, some err => some { w with pc := .probed err }
    | _, _ => none
  | .go =>
    match w.pc with
    | .probed err => some { w with pc := if w.done || w.cancelled then .finished else .failing err }
    | .failing err => some { w with pc := .cancelling, failure := some (t.unreachable err) }
    | .cancelling => some { w with pc := .finished, cancelled := true }
    | _ => none

/-- The operation has ended, or its context has. -/
def Over : Prop := w.done = true ∨ w.cancelled = true

/-- Nobody dawdles: no time passes while the goroutine can go on, and a probe
returns when its budget or the operation ends. -/
def Prompt (w : HostWatch) : WatchEvent → Prop
  | .tick d =>
    match w.pc with
    | .selecting => (∀ r, w.ready r = false) ∧ w.now + d ≤ w.fires
    | .probing ends => ¬ w.Over ∧ w.now + d ≤ ends
    | .finished => True
    | _ => False
  | _ => True

/-- The goroutine goes on, or time does, without an answer of the Host. -/
def moves : WatchEvent → Bool
  | .sees _ | .answers (some _) | .go => true
  | .tick d => 0 < d
  | _ => false

end HostWatch

/-- Every interleaving of a watch. -/
def hostWatch (t : Target) : Machine HostWatch WatchEvent where
  init w := ∃ now, w = watchHost t now
  next w := w.next t

namespace HostWatch

variable {t : Target} {w w' : HostWatch} {e : WatchEvent}

/-! ## Pacing -/

/-- How long the Host has been silent, by what the goroutine waits for. -/
def Paced (t : Target) (w : HostWatch) : Prop :=
  w.heard ≤ w.now ∧
    match w.pc with
    | .selecting =>
      w.now ≤ w.fires ∧ w.fires ≤ w.heard + t.interval ∧ (w.activity = true → w.heard = w.now)
    | .probing ends => w.now ≤ ends ∧ ends ≤ w.heard + (t.interval + t.probeTimeout)
    | .finished => w.Over
    | _ => w.now ≤ w.heard + (t.interval + t.probeTimeout)

theorem Paced.take {r : Ready} (ht : t.watched = true) (hw : w.Paced t) (hpc : w.pc = .selecting)
    (hr : w.ready r = true) : (w.take t r).Paced t := by
  have hbudget := t.interval_add_probeTimeout ht
  simp only [Paced, hpc] at hw
  obtain ⟨hheard, hnow, hfires, hactive⟩ := hw
  cases r with
  | ctx => exact ⟨hheard, .inr hr⟩
  | done => exact ⟨hheard, .inl hr⟩
  | activity =>
    -- no time has passed since the response
    have hsame := hactive hr
    simp only [Paced, HostWatch.take, hpc]
    refine ⟨hheard, ?_, ?_, nofun⟩ <;> omega
  | timer =>
    simp only [Paced, HostWatch.take]
    omega

/-- Whatever the goroutine waits for, the silence is within the two budgets. -/
theorem Paced.silence (ht : t.watched = true) (hw : w.Paced t) (hne : w.pc ≠ .finished) :
    w.now ≤ w.heard + (t.interval + t.probeTimeout) := by
  have hbudget := t.interval_add_probeTimeout ht
  obtain ⟨-, hw⟩ := hw
  cases hpc : w.pc with
  | finished => exact absurd hpc hne
  | selecting | probing ends =>
    simp only [hpc] at hw
    omega
  | probed err | failing err | cancelling => simpa only [hpc] using hw

/-- Each step keeps the silence within the bound. -/
theorem Paced.next (ht : t.watched = true) (hw : w.Paced t) (hok : Prompt w e)
    (h : w.next t e = some w') : w'.Paced t := by
  have hbudget := t.interval_add_probeTimeout ht
  have hsilence := hw.silence ht
  cases e with
  | sees r =>
    obtain ⟨⟨hpc, hr⟩, ⟨⟩⟩ := Option.ite_none_right_eq_some.mp h
    exact hw.take ht hpc hr
  | tick d =>
    obtain rfl := Option.some.inj h
    simp only [Paced, Prompt] at *
    cases hpc : w.pc with
    | selecting =>
      simp only [hpc] at hw hok
      have hquiet : w.activity = false := hok.1 .activity
      refine ⟨?_, hok.2, hw.2.2.1, fun hact => nomatch hquiet.symm.trans hact⟩
      omega
    | probing ends =>
      simp only [hpc] at hw hok ⊢
      omega
    | finished =>
      simp only [hpc] at hw
      refine ⟨?_, hw.2⟩
      omega
    | probed err | failing err | cancelling => simp only [hpc] at hok
  | sawResponse =>
    obtain rfl := Option.some.inj h
    obtain ⟨hheard, hw⟩ := hw
    refine ⟨Int.le_refl _, ?_⟩
    cases hpc : w.pc with
    | selecting =>
      simp only [hpc] at hw
      exact ⟨hw.1, Int.le_trans hw.2.1 (Int.add_le_add_right hheard _), fun _ => rfl⟩
    | probing ends =>
      simp only [hpc] at hw
      exact ⟨hw.1, Int.le_trans hw.2 (Int.add_le_add_right hheard _)⟩
    | finished =>
      simp only [hpc] at hw
      exact hw
    | probed err | failing err | cancelling => exact Int.le_add_of_nonneg_right (by omega)
  | stop | ctxEnds =>
    obtain rfl := Option.some.inj h
    refine ⟨hw.1, ?_⟩
    cases hpc : w.pc with
    | finished => simp [Over]
    | selecting | probing ends | probed err | failing err | cancelling =>
      simpa only [Paced, hpc] using hw.2
  | answers err =>
    unfold HostWatch.next at h
    dsimp only at h
    split at h
    case h_1 ends hpc =>
      obtain rfl := Option.some.inj h
      exact ⟨Int.le_refl _, Int.le_add_of_nonneg_right (by omega), Int.le_refl _, fun _ => rfl⟩
    case h_2 ends err hpc =>
      obtain rfl := Option.some.inj h
      exact ⟨hw.1, hsilence (hpc ▸ nofun)⟩
    case h_3 => cases h
  | go =>
    unfold HostWatch.next at h
    dsimp only at h
    split at h
    case h_1 err hpc =>
      obtain rfl := Option.some.inj h
      refine ⟨hw.1, ?_⟩
      by_cases hover : (w.done || w.cancelled) = true
      · rw [if_pos hover]
        exact Bool.or_eq_true_iff.mp hover
      · rw [if_neg hover]
        exact hsilence (hpc ▸ nofun)
    case h_2 err hpc =>
      obtain rfl := Option.some.inj h
      exact ⟨hw.1, hsilence (hpc ▸ nofun)⟩
    case h_3 =>
      obtain rfl := Option.some.inj h
      exact ⟨hw.1, .inr rfl⟩
    case h_4 => cases h

theorem paced_reach (ht : t.watched = true) (h : (hostWatch t).Reach Prompt w) : w.Paced t := by
  refine h.inv ?_ fun w e w' hw hok hnext => hw.next ht hok hnext
  rintro w ⟨now, rfl⟩
  have hinterval := (t.interval_add_probeTimeout ht).2.1
  simp only [Paced, watchHost, ht, if_true]
  refine ⟨Int.le_refl _, ?_, Int.le_refl _, nofun⟩
  omega

theorem exists_moves (t : Target) (hpc : w.pc ≠ .finished) :
    ∃ e, moves e = true ∧ Prompt w e ∧ (w.next t e).isSome := by
  cases hpc' : w.pc with
  | finished => exact absurd hpc' hpc
  | selecting =>
    by_cases hready : ∃ r, w.ready r = true
    · obtain ⟨r, hr⟩ := hready
      exact ⟨.sees r, rfl, trivial, by simp [HostWatch.next, hpc', hr]⟩
    · have hnone := fun r => Bool.eq_false_iff.mpr fun hr => hready ⟨r, hr⟩
      have htimer : w.now < w.fires := by simpa [ready] using hnone .timer
      refine ⟨.tick 1, rfl, ?_, rfl⟩
      simp only [Prompt, hpc']
      exact ⟨hnone, htimer⟩
  | probing ends => exact ⟨.answers (some (.new "")), rfl, trivial, by simp [HostWatch.next, hpc']⟩
  | probed err | failing err | cancelling =>
    exact ⟨.go, rfl, trivial, by simp [HostWatch.next, hpc']⟩

/-- **A silent Host ends the operation within the deadline.** An operation in flight
has heard from its Host within the deadline (or 2 ns). A watch only returns when the
operation is over, and until then the goroutine can go on or time can, whatever the
Host does. -/
theorem silence_bounded (ht : t.watched = true) (h : (hostWatch t).Reach Prompt w) :
    (w.Over ∨ w.now ≤ w.heard + max t.deadline 2) ∧ (w.pc = .finished → w.Over) ∧
    (w.pc ≠ .finished → ∃ e, moves e = true ∧ Prompt w e ∧ (w.next t e).isSome) := by
  have hbudget := t.interval_add_probeTimeout ht
  have hw := paced_reach ht h
  have hover : w.pc = .finished → w.Over := fun hpc => by simpa only [Paced, hpc] using hw.2
  refine ⟨?_, hover, exists_moves t⟩
  by_cases hpc : w.pc = .finished
  · exact .inl (hover hpc)
  · have hsilence := hw.silence ht hpc
    exact .inr (by omega)

/-- A Host that is not heard from for the whole of 10 ns, while the watch asks it. -/
theorem silence_bounded_asked : ∃ t w, t.watched = true ∧ (hostWatch t).Reach Prompt w ∧
    w.now = 10 ∧ w.heard = 0 ∧ (w.Over ∨ w.now ≤ w.heard + max t.deadline 2) := by
  let t : Target := ⟨"h", "vm", true, 10, "5ns"⟩
  have h : (hostWatch t).Path Prompt (watchHost t 0)
      { now := 10, heard := 0, fires := 5, pc := .probing 10 } :=
    .head (a := .tick 5) ⟨by rintro ⟨⟩ <;> rfl, by decide⟩ rfl <|
      .head (a := .sees .timer) trivial rfl <|
        .head (a := .tick 5) ⟨by simp [Over, watchHost, take], by decide⟩ rfl (.refl _)
  exact ⟨t, _, rfl, ⟨_, ⟨0, rfl⟩, h⟩, rfl, rfl, (silence_bounded rfl ⟨_, ⟨0, rfl⟩, h⟩).1⟩

/-! ## What is recorded -/

/-- Nothing is recorded any more: the goroutine has returned, or will when it looks
whether the operation is over. -/
def Spent (w : HostWatch) : Prop :=
  w.pc = .finished ∨ w.Over ∧ ∀ err, w.pc ≠ .failing err

/-- A watch that is over reports nothing more. -/
theorem Spent.next (hw : w.Spent) (h : w.next t e = some w') :
    w'.Spent ∧ w'.failure = w.failure ∧ (w.pc = .finished → w'.pc = .finished) := by
  have hover : ∀ {pc}, w.pc = pc → pc ≠ .finished → w.Over ∧ ∀ err, w.pc ≠ .failing err :=
    fun hpc hne => hw.resolve_left (hpc ▸ hne)
  cases e with
  | sees r =>
    obtain ⟨⟨hpc, -⟩, ⟨⟩⟩ := Option.ite_none_right_eq_some.mp h
    have hold := hover hpc nofun
    cases r with
    | ctx | done => exact ⟨.inl rfl, rfl, fun _ => rfl⟩
    | activity => exact ⟨.inr hold, rfl, id⟩
    | timer => exact ⟨.inr ⟨hold.1, nofun⟩, rfl, fun hfin => nomatch hpc.symm.trans hfin⟩
  | tick d | sawResponse =>
    cases h
    exact ⟨hw, rfl, id⟩
  | stop =>
    cases h
    exact ⟨hw.imp_right fun hold => ⟨.inl rfl, hold.2⟩, rfl, id⟩
  | ctxEnds =>
    cases h
    exact ⟨hw.imp_right fun hold => ⟨.inr rfl, hold.2⟩, rfl, id⟩
  | answers err =>
    unfold HostWatch.next at h
    dsimp only at h
    split at h
    case h_1 ends hpc | h_2 ends hpc =>
      cases h
      exact ⟨.inr ⟨(hover hpc nofun).1, nofun⟩, rfl, fun hfin => nomatch hpc.symm.trans hfin⟩
    case h_3 => cases h
  | go =>
    unfold HostWatch.next at h
    dsimp only at h
    split at h
    case h_1 err hpc =>
      cases h
      -- the operation is over, so the error is not recorded
      have hdone : (w.done || w.cancelled) = true := Bool.or_eq_true_iff.mpr (hover hpc nofun).1
      exact ⟨.inl (if_pos hdone), rfl, fun _ => if_pos hdone⟩
    case h_2 err hpc => exact absurd hpc ((hover hpc nofun).2 err)
    case h_3 =>
      cases h
      exact ⟨.inl rfl, rfl, fun _ => rfl⟩
    case h_4 => cases h

/-- **An operation that is over is not failed any more**, unless the goroutine had
looked before it was: a probe that the end of the operation cut short says nothing.
Once the goroutine has returned, which is what `stop` waits for, it does nothing. -/
theorem over_not_failed (hw : w.Over ∧ (∀ err, w.pc ≠ .failing err) ∨ w.pc = .finished)
    (hp : (hostWatch t).Path Machine.any w w') :
    w'.failure = w.failure ∧ (w.pc = .finished → w'.pc = .finished) := by
  have hinv : w'.Spent ∧ w'.failure = w.failure ∧ (w.pc = .finished → w'.pc = .finished) := by
    refine hp.inv (I := fun v => v.Spent ∧ v.failure = w.failure ∧
      (w.pc = .finished → v.pc = .finished)) ?_ ⟨hw.symm, rfl, id⟩
    rintro v e v' ⟨hv, hsame, hpc⟩ - hnext
    obtain ⟨hv', hsame', hpc'⟩ := hv.next hnext
    exact ⟨hv', hsame'.trans hsame, fun h => hpc' (hpc h)⟩
  exact hinv.2

/-- A probe that `stop` cuts short. -/
theorem over_not_failed_cut : ∃ t w w', w.Over ∧ w.pc = .probing 10 ∧
    (hostWatch t).exec w [.answers (some (.new "canceled")), .go] = some w' ∧ w'.failure = none :=
  let t : Target := ⟨"h", "vm", true, 10, "5ns"⟩
  let w : HostWatch := { now := 7, heard := 0, fires := 5, pc := .probing 10, done := true }
  have hp : (hostWatch t).exec w [.answers (some (.new "canceled")), .go] =
    some { w with pc := .finished } := rfl
  ⟨t, w, _, .inl rfl, rfl, hp,
    (over_not_failed (.inl ⟨.inl rfl, fun _ => WatchPc.noConfusion⟩) (Machine.path_of_exec hp)).1⟩

end HostWatch

end FlintlockRunner.Transport

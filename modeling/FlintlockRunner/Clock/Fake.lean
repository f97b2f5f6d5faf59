import FlintlockRunner.Base.Machine
import Mathlib.Data.List.Induction
import Mathlib.Data.List.Pairwise
import Mathlib.Logic.Function.Basic
import Mathlib.Order.Lattice

/-!
# The fake clock (`clock/fake.go`)

`Fake` moves only when it is told to. `Set` fires every timer that falls due, one
after the other, from a list that its own loop removes them from; a timer's channel
has one slot, and a value that finds it full is dropped.

Between the calls a timer on the list is active, its channel is empty and its
deadline lies ahead (`Good`). Inside the loop of `Set` a timer with the deadline
that was just reached may still be on the list, so there its deadline is only not
behind (`Pending`). From this come both that `Set` returns, since each turn of the
loop takes a timer off the list, and that no value is dropped.

Timers are numbered in the order `NewTimer` made them. `seq` is a different number:
it counts the arming of timers, and `Reset` arms a timer again, so that among equal
deadlines the order of firing is the order of creation only where no `Reset` came in
between (`Armed.creation_order`). Times are nanoseconds, without the limits of
`time.Time`.
-/

namespace FlintlockRunner.Clock

open Function List

/-- A timer: its deadline, its place among those armed and its channel of one slot. -/
structure FakeTimer where
  ch : Option Int
  when : Int
  seq : Nat
  active : Bool
  deriving DecidableEq, Repr

/-- `Fake`, with the timers it made. `timers` is the list of the pending ones. -/
structure Fake where
  now : Int
  timers : List Nat
  seq : Nat
  timer : Nat → FakeTimer
  created : Nat

/-- A value put into a timer's channel. -/
abbrev Delivery := Nat × Int

namespace Fake

variable (start : Int)

/-- `NewFake`. -/
def new : Fake := ⟨start, [], 0, fun _ => ⟨none, 0, 0, false⟩, 0⟩

variable (f : Fake) (id : Nat)

/-- `fire`: a value already waiting is left in place. -/
def fire (now : Int) : Fake × List Delivery :=
  match (f.timer id).ch with
  | none =>
    ({ f with timer := Function.update f.timer id { f.timer id with ch := some now } },
      [(id, now)])
  | some _ => (f, [])

variable (d : Int)

/-- Arms a timer; one that is due already fires at once. -/
def armLocked : Fake :=
  let seq := f.seq + 1
  let t := { f.timer id with seq := seq, when := f.now + d }
  if d ≤ 0 then
    (fire { f with seq := seq, timer := Function.update f.timer id { t with active := false } }
      id f.now).1
  else
    { f with
      seq := seq
      timer := Function.update f.timer id { t with active := true }
      timers := f.timers ++ [id] }

/-- `removeLocked`; it reports whether the timer was active. -/
def removeLocked : Fake :=
  if (f.timer id).active then
    { f with
      timer := Function.update f.timer id { f.timer id with active := false }
      timers := f.timers.erase id }
  else f

def newTimer : Fake :=
  armLocked { f with
    timer := Function.update f.timer f.created ⟨none, 0, 0, false⟩
    created := f.created + 1 } f.created d

/-- What `Reset` and a receive do to a channel. -/
def drain : Fake :=
  { f with timer := Function.update f.timer id { f.timer id with ch := none } }

def stop : Fake × Bool := (f.removeLocked id, (f.timer id).active)

def reset : Fake × Bool :=
  (((f.removeLocked id).drain id).armLocked id d, (f.timer id).active)

/-- Whether a timer comes before another in the comparison of `nextDueLocked`. -/
def Before (a b : Nat) : Prop :=
  (f.timer a).when < (f.timer b).when ∨
    (f.timer a).when = (f.timer b).when ∧ (f.timer a).seq < (f.timer b).seq

instance (f : Fake) (a b : Nat) : Decidable (f.Before a b) :=
  inferInstanceAs (Decidable (_ ∨ _))

/-- One turn of the loop of `nextDueLocked`. -/
def better (t : Int) (best : Option Nat) (id : Nat) : Option Nat :=
  if t < (f.timer id).when then best
  else
    match best with
    | none => some id
    | some b => if f.Before id b then some id else best

/-- The due timer that fires next: the earliest, and among equal ones the first armed. -/
def nextDueLocked (t : Int) : Option Nat := f.timers.foldl (f.better t) none

/-- What the loop of `Set` does with the timer it found. -/
def fireNext : Fake × List Delivery :=
  let now := if f.now < (f.timer id).when then (f.timer id).when else f.now
  (removeLocked { f with now := now } id).fire id now

/-- The loop of `Set`; `none` when `fuel` turns were not enough. -/
def setLoop (t : Int) : Nat → Fake → Option (Fake × List Delivery)
  | 0, _ => none
  | fuel + 1, f =>
    match f.nextDueLocked t with
    | none => some (f, [])
    | some id =>
      (setLoop t fuel (f.fireNext id).1).map fun (f', log) => (f', (f.fireNext id).2 ++ log)

/-- `Set`, with the values it delivered. -/
def set (fuel : Nat) (t : Int) : Option (Fake × List Delivery) :=
  (setLoop t fuel f).map fun (f', log) =>
    ({ f' with now := if f'.now < t then t else f'.now }, log)

/-- A call, or a receive from a timer's channel. -/
inductive Op
  | newTimer (d : Int)
  | stop (id : Nat)
  | reset (id : Nat) (d : Int)
  | receive (id : Nat)
  | set (t : Int)
  | advance (d : Int)
  deriving DecidableEq

/-- The clock after a call. One turn of the loop of `Set` for each pending timer is
enough (`set_spec`). -/
def next : Op → Option Fake
  | .newTimer d => some (f.newTimer d)
  | .stop id => if id < f.created then some (f.stop id).1 else none
  | .reset id d => if id < f.created then some (f.reset id d).1 else none
  | .receive id => if (f.timer id).ch = none then none else some (f.drain id)
  | .set t => (f.set (f.timers.length + 1) t).map Prod.fst
  | .advance d => (f.set (f.timers.length + 1) (f.now + d)).map Prod.fst

/-- A fake clock in use. -/
def machine : Machine Fake Op where
  init f := ∃ start, f = new start
  next := next

theorem init_new : machine.init (new start) := ⟨start, rfl⟩

variable {f f' : Fake} {id : Nat} {t : Int}

/-! ## The pending timers -/

/-- What holds of a pending timer, inside the loop of `Set` as well. -/
structure Waits (f : Fake) (id : Nat) : Prop where
  created : id < f.created
  empty : (f.timer id).ch = none
  ahead : f.now ≤ (f.timer id).when
  armed : (f.timer id).seq ≤ f.seq

/-- What holds of the list of the pending timers. -/
structure Pending (f : Fake) : Prop where
  active : ∀ id, (f.timer id).active = true ↔ id ∈ f.timers
  waits : ∀ id ∈ f.timers, f.Waits id
  order : f.timers.Pairwise fun a b => (f.timer a).seq < (f.timer b).seq

/-- Between calls every pending deadline lies ahead. -/
structure Good (f : Fake) : Prop extends Pending f where
  later : ∀ id ∈ f.timers, f.now < (f.timer id).when

theorem Pending.nodup (h : f.Pending) : f.timers.Nodup :=
  h.order.imp fun hseq heq => absurd (congrArg (fun id => (f.timer id).seq) heq) (Nat.ne_of_lt hseq)

theorem Pending.seq_ne (h : f.Pending) {a b : Nat} (ha : a ∈ f.timers) (hb : b ∈ f.timers)
    (hne : a ≠ b) : (f.timer a).seq ≠ (f.timer b).seq := by
  have hsymm : Std.Symm fun a b => (f.timer a).seq ≠ (f.timer b).seq := ⟨fun _ _ => Ne.symm⟩
  exact (h.order.imp Nat.ne_of_lt).forall ha hb hne

theorem good_new : (new start).Good where
  active := by simp [new]
  waits := nofun
  order := .nil
  later := nofun

/-- A timer that nothing was written to waits as it did. -/
theorem Waits.kept (h : f.Waits id) (hcreated : f.created ≤ f'.created)
    (htimer : f'.timer id = f.timer id) (hnow : f'.now ≤ (f.timer id).when)
    (hseq : f.seq ≤ f'.seq) : f'.Waits id := by
  refine ⟨h.created.trans_le hcreated, ?_, ?_, ?_⟩
  · rw [htimer]
    exact h.empty
  · rw [htimer]
    exact hnow
  · rw [htimer]
    exact h.armed.trans hseq

variable {x : FakeTimer} {fuel : Nat}

/-- A timer that is taken off the list, or was not on it, may become anything that
is not active. -/
theorem Pending.drop (h : f.Pending) (id : Nat) (hx : x.active = false) :
    Pending { f with timers := f.timers.erase id, timer := Function.update f.timer id x } := by
  have hmem : ∀ a, a ∈ f.timers.erase id ↔ a ≠ id ∧ a ∈ f.timers := fun a => h.nodup.mem_erase_iff
  have hother : ∀ a ∈ f.timers.erase id, update f.timer id x a = f.timer a :=
    fun a ha => update_of_ne ((hmem a).mp ha).1 x f.timer
  refine ⟨fun a => ?_, fun a ha => ?_, ?_⟩
  · dsimp only
    rw [hmem]
    by_cases ha : a = id
    · simp [ha, hx]
    · simp [ha, h.active]
  · have hwaits := h.waits a ((hmem a).mp ha).2
    exact hwaits.kept le_rfl (hother a ha) hwaits.ahead le_rfl
  · refine (h.order.sublist erase_sublist).imp_of_mem fun {a b} ha hb hlt => ?_
    dsimp only
    rwa [hother a ha, hother b hb]

theorem Good.drop (h : f.Good) (id : Nat) (hx : x.active = false) :
    Good { f with timers := f.timers.erase id, timer := Function.update f.timer id x } := by
  refine ⟨h.toPending.drop id hx, ?_⟩
  intro a ha
  obtain ⟨hne, hmem⟩ := h.nodup.mem_erase_iff.mp ha
  dsimp only
  rw [update_of_ne hne]
  exact h.later a hmem

theorem Good.change (h : f.Good) (hid : id ∉ f.timers) (hx : x.active = false) :
    Good { f with timer := Function.update f.timer id x } := by
  have hdrop := h.drop id hx
  rwa [erase_of_not_mem hid] at hdrop

theorem Pending.inactive (h : f.Pending) (hid : id ∉ f.timers) : (f.timer id).active = false := by
  rw [← Bool.not_eq_true, h.active]
  exact hid

theorem Good.removeLocked (h : f.Good) (id : Nat) : (f.removeLocked id).Good := by
  unfold Fake.removeLocked
  split
  · exact h.drop id rfl
  · exact h

theorem Pending.removeLocked_timers (h : f.Pending) (id : Nat) :
    (f.removeLocked id).timers = f.timers.erase id := by
  unfold Fake.removeLocked
  by_cases hactive : (f.timer id).active = true
  · rw [if_pos hactive]
  · rw [if_neg hactive, erase_of_not_mem (mt (h.active id).mpr hactive)]

theorem Good.drain (h : f.Good) (hid : id ∉ f.timers) : (f.drain id).Good :=
  h.change hid (h.inactive hid)

theorem Good.fire (h : f.Good) (hid : id ∉ f.timers) (now : Int) : (f.fire id now).1.Good := by
  unfold Fake.fire
  split
  · exact h.change hid (h.inactive hid)
  · exact h

theorem Good.tick (h : f.Good) : Good { f with seq := f.seq + 1 } where
  active := h.active
  waits id hid := (h.waits id hid).kept le_rfl rfl (h.waits id hid).ahead (Nat.le_succ _)
  order := h.order
  later := h.later

theorem Good.armLocked (h : f.Good) (hid : id ∉ f.timers) (hcreated : id < f.created)
    (hempty : (f.timer id).ch = none) (d : Int) : (f.armLocked id d).Good := by
  unfold Fake.armLocked
  dsimp only
  split
  · exact (h.tick.change hid rfl).fire hid f.now
  · have hother : ∀ a ∈ f.timers, ∀ x, update f.timer id x a = f.timer a :=
      fun a ha x => update_of_ne (ne_of_mem_of_not_mem ha hid) x f.timer
    have hnew : ∀ {P : Nat → Prop}, (∀ a ∈ f.timers, P a) → P id → ∀ a ∈ f.timers ++ [id], P a :=
      fun hold hlast => forall_mem_append.mpr ⟨hold, forall_mem_singleton.mpr hlast⟩
    refine ⟨⟨fun a => ?_, hnew (fun a ha => ?_) ⟨hcreated, ?_, ?_, ?_⟩, ?_⟩,
      hnew (fun a ha => ?_) ?_⟩
    · by_cases ha : a = id
      · simp [ha]
      · simp [ha, h.active]
    · exact (h.waits a ha).kept le_rfl (hother a ha _) (h.waits a ha).ahead (Nat.le_succ _)
    · simpa using hempty
    · simp only [update_self]
      omega
    · simp
    · -- the new timer has the largest number so far
      refine pairwise_append.mpr ⟨?_, pairwise_singleton _ _, ?_⟩
      · refine h.order.imp_of_mem fun {a b} ha hb hlt => ?_
        dsimp only
        rwa [hother a ha, hother b hb]
      · intro a ha b hb
        dsimp only
        rw [mem_singleton.mp hb, hother a ha, update_self]
        exact Nat.lt_succ_of_le (h.waits a ha).armed
    · dsimp only
      rw [hother a ha]
      exact h.later a ha
    · simp only [update_self]
      omega

theorem Good.newTimer (h : f.Good) (d : Int) : (f.newTimer d).Good := by
  have hid : f.created ∉ f.timers := fun hmem => absurd (h.waits _ hmem).created (Nat.lt_irrefl _)
  have hfresh : Good { f with timer := update f.timer f.created ⟨none, 0, 0, false⟩ } :=
    h.change hid rfl
  have hgrown : Good { f with
      timer := update f.timer f.created ⟨none, 0, 0, false⟩
      created := f.created + 1 } :=
    { hfresh with waits := fun id hmem =>
        have hwaits := hfresh.waits id hmem
        hwaits.kept (Nat.le_succ _) rfl hwaits.ahead le_rfl }
  exact hgrown.armLocked hid (Nat.lt_succ_self _) (by simp) d

theorem Good.reset (h : f.Good) (hid : id < f.created) (d : Int) : (f.reset id d).1.Good := by
  have hgone : id ∉ (f.removeLocked id).timers := by
    rw [h.removeLocked_timers]
    exact h.nodup.not_mem_erase
  have hcreated : id < (f.removeLocked id).created := by
    unfold Fake.removeLocked
    split <;> exact hid
  exact ((h.removeLocked id).drain hgone).armLocked hgone hcreated (by simp [Fake.drain]) d

/-! ## The timer that is next -/

/-- `a` is due and no due timer of `l` comes before it. -/
def First (f : Fake) (t : Int) (l : List Nat) : Option Nat → Prop
  | none => ∀ b ∈ l, t < (f.timer b).when
  | some a => a ∈ l ∧ (f.timer a).when ≤ t ∧
    ∀ b ∈ l, (f.timer b).when ≤ t → ¬ f.Before b a

theorem Before.of_not {a b c : Nat} (hab : f.Before a b) (hcb : ¬ f.Before c b) :
    ¬ f.Before c a := by
  unfold Before at *
  omega

theorem first_better {l : List Nat} {best : Option Nat} (h : f.First t l best) (id : Nat) :
    f.First t (l ++ [id]) (f.better t best id) := by
  have hnew : ∀ {P : Nat → Prop}, (∀ b ∈ l, P b) → P id → ∀ b ∈ l ++ [id], P b :=
    fun hold hlast => forall_mem_append.mpr ⟨hold, forall_mem_singleton.mpr hlast⟩
  have hself : ¬ f.Before id id := by simp [Before]
  have hlast : id ∈ l ++ [id] := mem_append_right _ (mem_singleton_self id)
  unfold better
  by_cases hlate : t < (f.timer id).when
  · rw [if_pos hlate]
    cases best with
    | none => exact hnew h hlate
    | some a =>
      obtain ⟨hmem, hdue, hfirst⟩ := h
      exact ⟨mem_append_left _ hmem, hdue, hnew hfirst fun hle => absurd hlate (not_lt.mpr hle)⟩
  · rw [if_neg hlate]
    cases best with
    | none =>
      refine ⟨hlast, not_lt.mp hlate, hnew (fun b hb hle => ?_) fun _ => hself⟩
      exact absurd (h b hb) (not_lt.mpr hle)
    | some a =>
      obtain ⟨hmem, hdue, hfirst⟩ := h
      dsimp only
      split
      · rename_i hbefore
        refine ⟨hlast, not_lt.mp hlate, hnew (fun b hb hle => ?_) fun _ => hself⟩
        exact hbefore.of_not (hfirst b hb hle)
      · rename_i hafter
        exact ⟨mem_append_left _ hmem, hdue, hnew hfirst fun _ => hafter⟩

theorem nextDueLocked_spec (f : Fake) (t : Int) : f.First t f.timers (f.nextDueLocked t) := by
  unfold nextDueLocked
  induction f.timers using List.reverseRecOn with
  | nil => exact nofun
  | append_singleton l id ih =>
    rw [foldl_append]
    exact first_better ih id

/-! ## The loop of `Set` -/

/-- One turn of the loop: the timer leaves the list and its channel, which was
empty, holds its deadline. -/
theorem Pending.fireNext (h : f.Pending) (hid : id ∈ f.timers) :
    f.fireNext id = ({ f with
      now := (f.timer id).when
      timers := f.timers.erase id
      timer := Function.update f.timer id
        { f.timer id with active := false, ch := some (f.timer id).when } },
      [(id, (f.timer id).when)]) := by
  have hactive := (h.active id).mpr hid
  have hempty := (h.waits id hid).empty
  have hnow : (if f.now < (f.timer id).when then (f.timer id).when else f.now)
      = (f.timer id).when := by
    have := (h.waits id hid).ahead
    split <;> omega
  simp [Fake.fireNext, hnow, Fake.removeLocked, hactive, Fake.fire, hempty]

theorem Pending.fireNext_pending (h : f.Pending) (hfirst : f.First t f.timers (some id)) :
    (f.fireNext id).1.Pending := by
  obtain ⟨hid, hdue, hbefore⟩ := hfirst
  rw [h.fireNext hid]
  have hdrop := h.drop (x := { f.timer id with active := false, ch := some (f.timer id).when })
    id rfl
  refine { hdrop with waits := fun a ha => ?_ }
  obtain ⟨hne, hmem⟩ := h.nodup.mem_erase_iff.mp ha
  refine (hdrop.waits a ha).kept le_rfl rfl ?_ le_rfl
  dsimp only
  rw [update_of_ne hne]
  by_cases hadue : (f.timer a).when ≤ t
  · have hnot := hbefore a hmem hadue
    unfold Before at hnot
    omega
  · omega

/-- What arms no timer leaves the numbers. -/
structure SameSeq (f f' : Fake) : Prop where
  seq : f'.seq = f.seq
  created : f'.created = f.created
  timer : ∀ id, (f'.timer id).seq = (f.timer id).seq

theorem SameSeq.trans {f'' : Fake} (h : SameSeq f f') (h' : SameSeq f' f'') : SameSeq f f'' :=
  ⟨h'.seq.trans h.seq, h'.created.trans h.created, fun id => (h'.timer id).trans (h.timer id)⟩

/-- A timer changes, and its number does not. -/
theorem SameSeq.change (now : Int) (timers : List Nat) (hx : x.seq = (f.timer id).seq) :
    SameSeq f { f with now := now, timers := timers, timer := update f.timer id x } := by
  refine ⟨rfl, rfl, fun a => ?_⟩
  by_cases ha : a = id
  · simp [ha, hx]
  · simp [ha]

/-- What the loop of `Set` comes to. -/
structure Fired (t : Int) (f f' : Fake) (log : List Delivery) : Prop where
  pending : f'.Pending
  timers : ∀ id, id ∈ f'.timers ↔ id ∈ f.timers ∧ t < (f.timer id).when
  delivered : ∀ p, p ∈ log ↔
    p.1 ∈ f.timers ∧ (f.timer p.1).when ≤ t ∧ p.2 = (f.timer p.1).when
  received : ∀ p ∈ log, (f'.timer p.1).ch = some p.2
  others : ∀ id, (id ∈ f.timers → t < (f.timer id).when) → f'.timer id = f.timer id
  order : log.Pairwise fun p q => f.Before p.1 q.1
  low : f.now ≤ f'.now
  high : f'.now ≤ max f.now t
  same : SameSeq f f'

theorem fired_refl (h : f.Pending) (hnone : ∀ id ∈ f.timers, t < (f.timer id).when) :
    Fired t f f [] where
  pending := h
  timers := fun id => ⟨fun hid => ⟨hid, hnone id hid⟩, And.left⟩
  delivered := by
    intro p
    constructor
    · simp
    · rintro ⟨hmem, hdue, -⟩
      exact absurd (hnone p.1 hmem) (by omega)
  received := by simp
  others := fun _ _ => rfl
  order := List.Pairwise.nil
  low := le_refl _
  high := le_max_left _ _
  same := ⟨rfl, rfl, fun _ => rfl⟩

/-- A turn of the loop for the first due timer, and what the loop comes to from
there. -/
theorem Fired.cons (h : f.Pending) (hfirst : f.First t f.timers (some id)) {log : List Delivery}
    (hrest : Fired t (f.fireNext id).1 f' log) : Fired t f f' ((f.fireNext id).2 ++ log) := by
  obtain ⟨hid, hdue, hbefore⟩ := hfirst
  have hmem : ∀ a, a ∈ f.timers.erase id ↔ a ≠ id ∧ a ∈ f.timers := fun a => h.nodup.mem_erase_iff
  have hahead := (h.waits id hid).ahead
  rw [h.fireNext hid] at hrest ⊢
  have hother : ∀ a x, a ≠ id → update f.timer id x a = f.timer a :=
    fun a x ha => update_of_ne ha x f.timer
  have hlog : ∀ p, p ∈ log ↔ p.1 ≠ id ∧
      p.1 ∈ f.timers ∧ (f.timer p.1).when ≤ t ∧ p.2 = (f.timer p.1).when := by
    intro p
    rw [hrest.delivered, hmem, and_assoc]
    refine and_congr_right fun hne => ?_
    dsimp only
    rw [hother p.1 _ hne]
  refine ⟨hrest.pending, ?_, ?_, ?_, ?_, ?_, ?_, ?_,
    (SameSeq.change _ _ (by rfl)).trans hrest.same⟩
  · intro a
    rw [hrest.timers, hmem]
    dsimp only
    by_cases ha : a = id
    · simp [ha, hdue]
    · rw [hother a _ ha]
      simp [ha]
  · rintro ⟨a, v⟩
    rw [singleton_append, mem_cons, hlog]
    by_cases ha : a = id
    · simp [ha, hid, hdue]
    · simp [ha]
  · rw [singleton_append]
    refine forall_mem_cons.mpr ⟨?_, hrest.received⟩
    rw [hrest.others id fun hgone => absurd hgone h.nodup.not_mem_erase]
    simp
  · intro a ha
    have hne : a ≠ id := fun heq => absurd (ha (heq ▸ hid)) (by rw [heq]; omega)
    have hlate : a ∈ f.timers.erase id →
        t < (update f.timer id { f.timer id with
          active := false, ch := some (f.timer id).when } a).when := by
      intro hleft
      rw [hother a _ hne]
      exact ha ((hmem a).mp hleft).2
    rw [hrest.others a hlate]
    exact hother a _ hne
  · rw [singleton_append]
    refine pairwise_cons.mpr ⟨?_, ?_⟩
    · intro p hp
      obtain ⟨hne, hpending, hpdue, -⟩ := (hlog p).mp hp
      have hnot := hbefore p.1 hpending hpdue
      have hseq : (f.timer p.1).seq ≠ (f.timer id).seq := h.seq_ne hpending hid hne
      unfold Before at hnot ⊢
      dsimp only
      omega
    · refine hrest.order.imp_of_mem ?_
      intro p q hp hq hpq
      have hp' := ((hlog p).mp hp).1
      have hq' := ((hlog q).mp hq).1
      unfold Before at hpq ⊢
      dsimp only at hpq
      rwa [hother p.1 _ hp', hother q.1 _ hq'] at hpq
  · exact hahead.trans hrest.low
  · have hhigh := hrest.high
    dsimp only at hhigh
    omega

/-- The loop returns once it has had a turn for every pending timer and one more. -/
theorem setLoop_spec (h : f.Pending) (t : Int) : ∃ f' log,
    (∀ fuel, f.timers.length < fuel → setLoop t fuel f = some (f', log)) ∧ Fired t f f' log := by
  induction hn : f.timers.length using Nat.strongRecOn generalizing f with
  | ind n ih =>
    have hfirst := nextDueLocked_spec f t
    cases hnext : f.nextDueLocked t with
    | none =>
      rw [hnext] at hfirst
      refine ⟨f, [], fun fuel hfuel => ?_, fired_refl h hfirst⟩
      obtain ⟨fuel, rfl⟩ := Nat.exists_eq_succ_of_ne_zero (Nat.ne_zero_of_lt hfuel)
      rw [setLoop, hnext]
    | some id =>
      rw [hnext] at hfirst
      -- the turn takes a timer off the list
      have hlength : (f.fireNext id).1.timers.length < n := by
        have herase := length_erase_of_mem hfirst.1
        have hpos := length_pos_of_mem hfirst.1
        rw [h.fireNext hfirst.1]
        dsimp only
        omega
      obtain ⟨f', log, hloop, hfired⟩ := ih _ hlength (h.fireNext_pending hfirst) rfl
      refine ⟨f', _, fun fuel hfuel => ?_, Fired.cons h hfirst hfired⟩
      obtain ⟨fuel, rfl⟩ := Nat.exists_eq_succ_of_ne_zero (Nat.ne_zero_of_lt hfuel)
      rw [setLoop, hnext]
      dsimp only
      rw [hloop fuel (hlength.trans_le (Nat.le_of_lt_succ hfuel))]
      rfl

/-- `Set` returns once it has had a turn for every pending timer and one more, and
what it comes to does not depend on how many more it is given. -/
theorem set_spec (h : f.Good) (t : Int) : ∃ f' log,
    (∀ fuel, f.timers.length < fuel → f.set fuel t = some (f', log)) ∧
    Fired t f f' log ∧ f'.Good ∧ f'.now = max f.now t := by
  obtain ⟨f₁, log, hloop, hfired⟩ := setLoop_spec h.toPending t
  have hlow := hfired.low
  have hhigh := hfired.high
  have hnow : (if f₁.now < t then t else f₁.now) = max f.now t := by
    split <;> omega
  have hlater : ∀ id ∈ f₁.timers, max f.now t < (f₁.timer id).when := by
    intro id hid
    obtain ⟨hmem, hlate⟩ := (hfired.timers id).mp hid
    have hsame := hfired.others id fun _ => hlate
    have hahead := h.later id hmem
    rw [hsame]
    omega
  have hgood : Good { f₁ with now := max f.now t } :=
    { hfired.pending with
      waits := fun id hid =>
        (hfired.pending.waits id hid).kept le_rfl rfl (le_of_lt (hlater id hid)) le_rfl
      later := hlater }
  refine ⟨{ f₁ with now := max f.now t }, log, ?_, ?_, hgood, rfl⟩
  · intro fuel hfuel
    rw [set, hloop fuel hfuel]
    simp only [Option.map_some, hnow]
  · exact { hfired with
      pending := hgood.toPending
      low := le_max_left _ _
      high := le_refl _
      same := hfired.same.trans ⟨rfl, rfl, fun _ => rfl⟩ }

/-! ## Every run -/

theorem Good.set (h : f.Good) (hset : (f.set (f.timers.length + 1) t).map Prod.fst = some f') :
    f'.Good ∧ f.now ≤ f'.now ∧ SameSeq f f' := by
  obtain ⟨f₁, log, hspec, hfired, hgood, hnow⟩ := set_spec h t
  rw [hspec _ (Nat.lt_succ_self _), Option.map_some] at hset
  cases hset
  exact ⟨hgood, hnow ▸ le_max_left _ _, hfired.same⟩

@[simp] theorem removeLocked_now (f : Fake) (id : Nat) : (f.removeLocked id).now = f.now := by
  unfold removeLocked
  split <;> rfl

@[simp] theorem armLocked_now (f : Fake) (id : Nat) (d : Int) : (f.armLocked id d).now = f.now := by
  unfold armLocked fire
  dsimp only
  split
  · split <;> rfl
  · rfl

/-- Every call keeps the pending timers armed, and none takes the clock back. -/
theorem Good.next (h : f.Good) {op : Op} (hnext : f.next op = some f') :
    f'.Good ∧ f.now ≤ f'.now := by
  cases op with
  | newTimer d =>
    cases hnext
    exact ⟨h.newTimer d, by simp [Fake.newTimer]⟩
  | stop id =>
    obtain ⟨-, ⟨⟩⟩ := Option.ite_none_right_eq_some.mp hnext
    exact ⟨h.removeLocked id, by simp [Fake.stop]⟩
  | reset id d =>
    obtain ⟨hid, ⟨⟩⟩ := Option.ite_none_right_eq_some.mp hnext
    exact ⟨h.reset hid d, by simp [Fake.reset, Fake.drain]⟩
  | receive id =>
    obtain ⟨hfull, hsome⟩ := Option.ite_none_left_eq_some.mp hnext
    cases hsome
    exact ⟨h.drain fun hid => hfull (h.waits id hid).empty, le_refl _⟩
  | set t | advance d =>
    obtain ⟨hgood, hle, -⟩ := h.set hnext
    exact ⟨hgood, hle⟩

theorem good_reach (h : machine.Reach Machine.any f) : f.Good := by
  refine h.inv ?_ fun f op f' hgood _ hnext => (hgood.next hnext).1
  rintro f ⟨start, rfl⟩
  exact good_new start

theorem now_mono (h : f.Good) (hpath : machine.Path Machine.any f f') : f.now ≤ f'.now := by
  have hboth : f'.Good ∧ f.now ≤ f'.now := by
    refine hpath.inv (I := fun g => g.Good ∧ f.now ≤ g.now) ?_ ⟨h, le_refl _⟩
    rintro f₁ op f₂ ⟨hgood, hle⟩ - hnext
    obtain ⟨hgood', hle'⟩ := hgood.next hnext
    exact ⟨hgood', hle.trans hle'⟩
  exact hboth.2

/-! ## The order among equal deadlines

Whether a timer made earlier was armed later than another is a question about the
calls alone (`ResetAfter`), and `seq` answers it (`Armed`). -/

def Op.makes : Op → Bool
  | .newTimer _ => true
  | _ => false

variable (ops : List Op)

/-- How many timers a sequence of calls makes. -/
def made : Nat := ops.countP Op.makes

/-- Timer `a` was Reset when timer `b` was there, and `b` has not been Reset since. -/
def ResetAfter (a b : Nat) : Prop :=
  ∃ before d after, ops = before ++ .reset a d :: after ∧ b < made before ∧
    ∀ d', .reset b d' ∉ after

theorem made_concat (op : Op) : made (ops ++ [op]) = made ops + made [op] :=
  countP_append

variable {ops : List Op}

theorem resetAfter_concat {op : Op} {a b : Nat} :
    ResetAfter (ops ++ [op]) a b ↔
      (∃ d, op = .reset a d) ∧ b < made ops ∨ (∀ d, op ≠ .reset b d) ∧ ResetAfter ops a b := by
  constructor
  · rintro ⟨before, d, after, hops, hmade, hkept⟩
    -- the Reset is the last call, or one of those before it
    rcases eq_nil_or_concat after with rfl | ⟨after, op', rfl⟩
    · obtain ⟨rfl, hop⟩ := append_inj' hops rfl
      exact .inl ⟨⟨d, singleton_inj.mp hop⟩, hmade⟩
    · rw [concat_eq_append, ← cons_append, ← append_assoc] at hops
      obtain ⟨rfl, hop⟩ := append_inj' hops rfl
      obtain rfl := singleton_inj.mp hop
      refine .inr ⟨fun d' heq => hkept d' (by simp [heq]), before, d, after, rfl, hmade, ?_⟩
      exact fun d' hmem => hkept d' (by simp [hmem])
  · rintro (⟨⟨d, rfl⟩, hmade⟩ | ⟨hop, before, d, after, rfl, hmade, hkept⟩)
    · exact ⟨ops, d, [], rfl, hmade, fun _ => not_mem_nil⟩
    · refine ⟨before, d, after ++ [op], by simp, hmade, fun d' hmem => ?_⟩
      rcases mem_append.mp hmem with hmem | hmem
      · exact hkept d' hmem
      · exact hop d' (mem_singleton.mp hmem).symm

/-- What `seq` says about the calls so far. -/
structure Armed (ops : List Op) (f : Fake) : Prop where
  created : f.created = made ops
  le : ∀ id < f.created, (f.timer id).seq ≤ f.seq
  order : ∀ {a b}, a < b → b < f.created →
    ((f.timer b).seq < (f.timer a).seq ↔ ResetAfter ops a b)

/-- What an arming does to the numbers. -/
theorem armLocked_seq (f : Fake) (id : Nat) (d : Int) :
    (f.armLocked id d).seq = f.seq + 1 ∧ (f.armLocked id d).created = f.created ∧
    ((f.armLocked id d).timer id).seq = f.seq + 1 ∧
    ∀ a, a ≠ id → ((f.armLocked id d).timer a).seq = (f.timer a).seq := by
  unfold armLocked fire
  dsimp only
  split
  · split <;> simp +contextual
  · simp +contextual

theorem sameSeq_removeLocked (f : Fake) (id : Nat) : SameSeq f (f.removeLocked id) := by
  unfold removeLocked
  split
  · exact .change _ _ (by rfl)
  · exact ⟨rfl, rfl, fun _ => rfl⟩

theorem Armed.same {op : Op} (h : Armed ops f) (hsame : SameSeq f f')
    (hmade : made [op] = 0) (hop : ∀ id d, op ≠ .reset id d) : Armed (ops ++ [op]) f' := by
  refine ⟨by rw [hsame.created, h.created, made_concat, hmade, Nat.add_zero],
    fun id hid => ?_, fun hab hb => ?_⟩
  · rw [hsame.timer, hsame.seq]
    exact h.le id (hsame.created ▸ hid)
  · rw [hsame.timer, hsame.timer, h.order hab (hsame.created ▸ hb), resetAfter_concat]
    constructor
    · exact fun hreset => .inr ⟨hop _, hreset⟩
    · rintro (⟨⟨d, heq⟩, -⟩ | ⟨-, hreset⟩)
      · exact absurd heq (hop _ d)
      · exact hreset

theorem Armed.newTimer (h : Armed ops f) (d : Int) :
    Armed (ops ++ [.newTimer d]) (f.newTimer d) := by
  unfold Fake.newTimer
  obtain ⟨hseq, hcreated, hnew, hother⟩ := armLocked_seq { f with
    timer := Function.update f.timer f.created ⟨none, 0, 0, false⟩
    created := f.created + 1 } f.created d
  have hkept := fun a (ha : a < f.created) => (hother a (Nat.ne_of_lt ha)).trans
    (congrArg FakeTimer.seq (update_of_ne (Nat.ne_of_lt ha) _ f.timer))
  refine ⟨?_, fun id hid => ?_, fun {a b} hab hb => ?_⟩
  · rw [hcreated, made_concat, ← h.created]
    rfl
  · rw [hseq]
    rw [hcreated] at hid
    rcases Nat.lt_succ_iff_lt_or_eq.mp hid with hid | rfl
    · rw [hkept id hid]
      exact Nat.le_succ_of_le (h.le id hid)
    · rw [hnew]
  · rw [hcreated] at hb
    rw [resetAfter_concat, hkept a (hab.trans_le (Nat.le_of_lt_succ hb))]
    rcases Nat.lt_succ_iff_lt_or_eq.mp hb with hb | rfl
    · rw [hkept b hb, h.order hab hb]
      simp
    · -- the new timer has the largest number, and no call named it
      have hle := h.le a hab
      rw [hnew]
      refine ⟨fun hlt => absurd hlt (by dsimp only; omega), ?_⟩
      rintro (⟨⟨_, heq⟩, -⟩ | ⟨-, before, _, after, hops, hmade, -⟩)
      · cases heq
      · have hcount : made before ≤ made ops := by
          rw [hops, made, made, countP_append]
          exact Nat.le_add_right _ _
        have := h.created
        omega

theorem Armed.reset (h : Armed ops f) (id : Nat) (d : Int) :
    Armed (ops ++ [.reset id d]) (f.reset id d).1 := by
  have hsame : SameSeq f ((f.removeLocked id).drain id) :=
    (sameSeq_removeLocked f id).trans (.change _ _ (by rfl))
  obtain ⟨hseq, hcreated, hnew, hother⟩ := armLocked_seq ((f.removeLocked id).drain id) id d
  unfold Fake.reset
  rw [hsame.seq] at hseq hnew
  rw [hsame.created] at hcreated
  have hkept := fun a ha => (hother a ha).trans (hsame.timer a)
  refine ⟨?_, fun a ha => ?_, fun {a b} hab hb => ?_⟩
  · rw [hcreated, made_concat, ← h.created]
    rfl
  · rw [hseq]
    by_cases heq : a = id
    · rw [heq, hnew]
    · rw [hkept a heq]
      exact Nat.le_succ_of_le (h.le a (hcreated ▸ ha))
  · rw [hcreated] at hb
    rw [resetAfter_concat]
    by_cases ha : a = id
    · -- armed just now, after every other timer
      have hle := h.le b hb
      rw [ha, hnew, hkept b (by omega)]
      exact ⟨fun _ => .inl ⟨⟨d, rfl⟩, h.created ▸ hb⟩, fun _ => by omega⟩
    · rw [hkept a ha]
      by_cases hbid : b = id
      · have hle := h.le a (hab.trans hb)
        rw [hbid, hnew]
        simp [Ne.symm ha]
        omega
      · rw [hkept b hbid, h.order hab hb]
        simp [Ne.symm ha, Ne.symm hbid]

theorem armed_exec {start : Int} (h : machine.exec (new start) ops = some f) :
    Armed ops f := by
  induction ops using List.reverseRecOn generalizing f with
  | nil =>
    cases h
    exact ⟨rfl, fun _ hid => absurd hid (Nat.not_lt_zero _),
      fun _ hb => absurd hb (Nat.not_lt_zero _)⟩
  | append_singleton ops op ih =>
    obtain ⟨g, hg, hnext⟩ := Machine.exec_concat h
    have harmed := ih hg
    have hgood := good_reach ⟨_, init_new start, Machine.path_of_exec hg⟩
    cases op with
    | newTimer d =>
      cases hnext
      exact harmed.newTimer d
    | stop id =>
      obtain ⟨-, ⟨⟩⟩ := Option.ite_none_right_eq_some.mp hnext
      exact harmed.same (sameSeq_removeLocked g id) rfl nofun
    | reset id d =>
      obtain ⟨-, ⟨⟩⟩ := Option.ite_none_right_eq_some.mp hnext
      exact harmed.reset id d
    | receive id =>
      obtain ⟨-, hsome⟩ := Option.ite_none_left_eq_some.mp hnext
      cases hsome
      exact harmed.same (.change _ _ (by rfl)) rfl nofun
    | set t | advance d => exact harmed.same (hgood.set hnext).2.2 rfl nofun

/-- The values of a `Set` come in the order of deadline and creation exactly when no
timer that is due was Reset after one that was made later and has the same deadline. -/
theorem Armed.creation_order {log : List Delivery} (h : Armed ops f)
    (hgood : f.Good) (hfired : Fired t f f' log) :
    log.Pairwise (fun p q => p.2 < q.2 ∨ p.2 = q.2 ∧ p.1 < q.1) ↔
      ∀ a ∈ f.timers, ∀ b ∈ f.timers, a < b → (f.timer a).when = (f.timer b).when →
        (f.timer a).when ≤ t → ¬ ResetAfter ops a b := by
  constructor
  · intro horder a ha b hb hab hwhen hdue hreset
    have hseq := (h.order hab (hgood.waits b hb).created).mpr hreset
    have hmem := fun id hid hle => (hfired.delivered (id, (f.timer id).when)).mpr ⟨hid, hle, rfl⟩
    have hne : (a, (f.timer a).when) ≠ (b, (f.timer b).when) := fun heq =>
      absurd (congrArg Prod.fst heq) (Nat.ne_of_lt hab)
    -- the two values are in the log one way round, and either is impossible
    let R (p q : Delivery) := (p.2 < q.2 ∨ p.2 = q.2 ∧ p.1 < q.1) ∧ f.Before p.1 q.1
    have hsymm : Std.Symm fun p q => R p q ∨ R q p := ⟨fun _ _ => Or.symm⟩
    have hboth : log.Pairwise fun p q => R p q ∨ R q p := (horder.and hfired.order).imp .inl
    have hsome := hboth.forall (hmem a ha hdue) (hmem b hb (hwhen ▸ hdue)) hne
    simp only [R, Before] at hsome
    omega
  · intro hcond
    refine hfired.order.imp_of_mem ?_
    intro p q hp hq hbefore
    obtain ⟨hpm, hpdue, hpw⟩ := (hfired.delivered p).mp hp
    obtain ⟨hqm, -, hqw⟩ := (hfired.delivered q).mp hq
    unfold Before at hbefore
    rw [hpw, hqw]
    rcases hbefore with hlt | ⟨heq, hseq⟩
    · exact .inl hlt
    · refine .inr ⟨heq, ?_⟩
      by_contra hnot
      have hne : q.1 ≠ p.1 := fun h => absurd (congrArg (fun id => (f.timer id).seq) h) (by omega)
      have hqp : q.1 < p.1 := by omega
      exact hcond q.1 hqm p.1 hpm hqp heq.symm (heq ▸ hpdue)
        ((h.order hqp (hgood.waits p.1 hpm).created).mp hseq)

/-- After any sequence of calls `Set` returns. It puts the deadline of each pending
timer that is due into that timer's channel, once and in the order of the deadlines,
and among equal ones in the order in which the timers were last armed. That is the
order in which they were made exactly when no due timer was Reset after a later one
with the same deadline was armed. Later timers stay pending as they are, no other
channel is touched, and the clock reads the later of the two times. The clock never
goes back. -/
theorem fires_like_a_clock {start : Int} {ops : List Op}
    (hf : machine.exec (new start) ops = some f) (t : Int) :
    (∃ f' log, (∀ fuel, f.timers.length < fuel → f.set fuel t = some (f', log)) ∧
      (∀ p, p ∈ log ↔
        p.1 ∈ f.timers ∧ (f.timer p.1).when ≤ t ∧ p.2 = (f.timer p.1).when) ∧
      log.Pairwise (fun p q => f.Before p.1 q.1) ∧
      (log.Pairwise (fun p q => p.2 < q.2 ∨ p.2 = q.2 ∧ p.1 < q.1) ↔
        ∀ a ∈ f.timers, ∀ b ∈ f.timers, a < b → (f.timer a).when = (f.timer b).when →
          (f.timer a).when ≤ t → ¬ ResetAfter ops a b) ∧
      (∀ p ∈ log, (f.timer p.1).ch = none ∧ (f'.timer p.1).ch = some p.2) ∧
      (∀ id, id ∈ f'.timers ↔ id ∈ f.timers ∧ t < (f.timer id).when) ∧
      (∀ id, (id ∈ f.timers → t < (f.timer id).when) → f'.timer id = f.timer id) ∧
      f'.now = max f.now t) ∧
    ∀ f', machine.Path Machine.any f f' → f.now ≤ f'.now := by
  have hgood := good_reach ⟨_, init_new start, Machine.path_of_exec hf⟩
  obtain ⟨f', log, hset, hfired, -, hnow⟩ := set_spec hgood t
  refine ⟨⟨f', log, hset, hfired.delivered, hfired.order,
    (armed_exec hf).creation_order hgood hfired, ?_, hfired.timers, hfired.others, hnow⟩,
    fun f' hpath => now_mono hgood hpath⟩
  intro p hp
  exact ⟨(hgood.waits p.1 ((hfired.delivered p).mp hp).1).empty, hfired.received p hp⟩

/-- A timer that is armed again after a later one was made. -/
def rearmed : List Op := [.newTimer 5, .newTimer 3, .reset 0 3]

/-- Timers of equal deadlines, none armed again, and one that is: the first two fire
in the order in which they were made. -/
theorem fires_like_a_clock_equal : ∃ f f' log,
    machine.exec (new 0) [.newTimer 3, .newTimer 3, .newTimer 5, .reset 2 4] = some f ∧
    f.set 4 4 = some (f', log) ∧ (1, 3) ∈ log ∧
    log.Pairwise fun p q => p.2 < q.2 ∨ p.2 = q.2 ∧ p.1 < q.1 := by
  have hf : machine.exec (new 0) [.newTimer 3, .newTimer 3, .newTimer 5, .reset 2 4] = some _ := rfl
  obtain ⟨⟨f', log, hset, hlog, -, horder, -⟩, -⟩ := fires_like_a_clock hf 4
  refine ⟨_, f', log, hf, hset 4 (by decide), (hlog (1, 3)).mpr (by decide), horder.mpr ?_⟩
  -- only timer 2 was Reset, and none was made after it
  rintro a - b hb hab - - ⟨before, d, after, hops, -⟩
  have hmem : Op.reset a d ∈ before ++ .reset a d :: after := by simp
  rw [← hops] at hmem
  have hlast : b ∈ [0, 1, 2] := hb
  simp at hmem hlast
  omega

/-- The timer made first has the same deadline and fires last. -/
theorem rearmed_fires_last : ∃ f, machine.Reach Machine.any f ∧
    f.timers = [1, 0] ∧ (f.timer 0).when = 3 ∧ (f.timer 1).when = 3 ∧
    (f.set 3 3).map Prod.snd = some [(1, 3), (0, 3)] := by
  have hf := Machine.reach_exec (init_new 0) (show (machine.exec (new 0) rearmed).isSome from rfl)
  exact ⟨_, hf, rfl, rfl, rfl, by decide⟩

end Fake

end FlintlockRunner.Clock

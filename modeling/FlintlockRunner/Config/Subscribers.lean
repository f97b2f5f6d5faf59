import FlintlockRunner.Base.Machine
import FlintlockRunner.Base.Threads
import FlintlockRunner.Config.Reload

/-!
# Reloads and their subscribers

Any number of `Reload` calls on one Reloader. A call swaps under the lock, where
it takes the subscribers there are, and calls them one after the other when it
has released it. So the order in which configurations are published is not the
order in which a subscriber hears of them: `subscriber_left_behind`.

`InOrder` is the condition under which subscribers end on the configuration in
effect: a subscriber is called only while the call that brings it that
configuration is still to come, or is this one.
-/

namespace FlintlockRunner.Config

open Multiset Threads

/-! ## The system -/

/-- A subscriber, by its place in the registration order, and the configuration
it is to be called with. -/
structure Notification where
  config : Config
  sub : Nat
  deriving DecidableEq

/-- The Reloader with its subscribers and the `Reload` calls past their swap,
each with the calls it has still to make. The last two are history: what each
subscriber was last called with, and how many subscribers the last published
configuration was taken to. -/
structure Reloading where
  reloader : Reloader
  subs : Nat
  calls : List (List Notification)
  last : Nat → Option Config
  announced : Nat

/-- What can happen: `Subscribe`, the swap of a `Reload` call, and the next call
of a subscriber by one of the `Reload` calls under way. -/
inductive ReloadLabel
  | subscribe
  | swap (call : ReloadCall)
  | notify (k : Nat)

namespace Reloading

variable (s : Reloading)

def current : Config := s.reloader.current

/-- A `Reload` call has published a configuration and is to call the subscribers
there are. -/
def published (r : Reloader) (cfg : Config) : Reloading :=
  { s with
    reloader := r
    calls := s.calls ++ [(List.range s.subs).map (Notification.mk cfg)]
    announced := s.subs }

/-- One step. -/
def next : ReloadLabel → Option Reloading
  | .subscribe => some { s with subs := s.subs + 1 }
  | .swap call =>
    match s.reloader.swap call with
    | (_, .error _) => some s
    | (r, .ok cfg) => some (s.published r cfg)
  | .notify k =>
    match s.calls[k]? with
    | some (n :: rest) =>
      some { s with
        calls := Threads.advance s.calls k rest [] []
        last := Function.update s.last n.sub (some n.config) }
    | _ => none

/-- The calls of subscribers that are still to be made. -/
def pending : Multiset Notification := Threads.frames s.calls

/-- All `Reload` calls have returned. -/
def Returned : Prop := s.pending = 0

/-- The subscribers that were called at all were last called with the
configuration in effect, and those are the ones it was taken to. -/
def Informed : Prop :=
  ∀ i, s.last i = if i < s.announced then some s.current else none

end Reloading

/-- Runs of the Reloader from before its first `Reload`. -/
def reloads : Machine Reloading ReloadLabel where
  init s := s.calls = [] ∧ s.last = (fun _ => none) ∧ s.announced = 0
  next := Reloading.next

/-- The condition on one step: the configuration in effect is still to be
brought to the subscriber that is called, by this call or by another. -/
def InOrder (s : Reloading) : ReloadLabel → Prop
  | .notify k => ∀ n rest, s.calls[k]? = some (n :: rest) → ⟨s.current, n.sub⟩ ∈ s.pending
  | _ => True

/-! ## The invariant -/

namespace Reloading

/-- Every subscriber that the configuration in effect was taken to has it or is
still to get it. -/
structure Informs (s : Reloading) : Prop where
  announced : s.announced ≤ s.subs
  pending : ∀ n ∈ s.pending, n.sub < s.announced
  silent : ∀ i, s.announced ≤ i → s.last i = none
  due : ∀ i, i < s.announced → s.last i = some s.current ∨ ⟨s.current, i⟩ ∈ s.pending

variable {s s' : Reloading} {l : ReloadLabel}

theorem Informs.informed (hs : s.Informs) (hreturned : s.Returned) : s.Informed := by
  intro i
  split
  · rename_i hi
    refine (hs.due i hi).resolve_right fun hin => ?_
    rw [hreturned] at hin
    exact notMem_zero _ hin
  · rename_i hi
    exact hs.silent i (not_lt.mp hi)

theorem mem_pending_published {r : Reloader} {cfg : Config} {n : Notification} :
    n ∈ (s.published r cfg).pending ↔ n ∈ s.pending ∨ n.config = cfg ∧ n.sub < s.subs := by
  have hnew : n ∈ (List.range s.subs).map (Notification.mk cfg) ↔
      n.config = cfg ∧ n.sub < s.subs := by
    constructor
    · intro h
      obtain ⟨i, hi, rfl⟩ := List.mem_map.mp h
      exact ⟨rfl, List.mem_range.mp hi⟩
    · rintro ⟨rfl, hsub⟩
      exact List.mem_map.mpr ⟨n.sub, List.mem_range.mpr hsub, rfl⟩
  show n ∈ frames (s.calls ++ [(List.range s.subs).map (Notification.mk cfg)]) ↔ _
  rw [frames_append, mem_add, frames_cons, frames_nil, add_zero,
    mem_coe, hnew]
  rfl

theorem notify_spec {k : Nat} (h : s.next (.notify k) = some s') :
    ∃ n rest, s.calls[k]? = some (n :: rest) ∧ s.pending = n ::ₘ s'.pending ∧
      s'.last = Function.update s.last n.sub (some n.config) ∧ s'.current = s.current ∧
      s'.announced = s.announced ∧ s'.subs = s.subs := by
  dsimp only [next] at h
  split at h
  · rename_i n rest hk
    obtain rfl := Option.some.inj h
    obtain ⟨others, hframes, hnew⟩ := frames_split hk
    refine ⟨n, rest, hk, ?_, rfl, rfl, rfl, rfl⟩
    show frames s.calls = n ::ₘ frames (advance s.calls k rest [] [])
    rw [hframes, hnew]
    simp
  · cases h

theorem Informs.notify (hs : s.Informs) {k : Nat} (h : s.next (.notify k) = some s')
    (hok : InOrder s (.notify k)) : s'.Informs := by
  obtain ⟨n, rest, hk, hpending, hlast, hcurrent, hannounced, hsubs⟩ := notify_spec h
  have hnsub : n.sub < s.announced := hs.pending n (hpending ▸ mem_cons_self _ _)
  refine ⟨?_, ?_, ?_, ?_⟩
  · rw [hannounced, hsubs]
    exact hs.announced
  · intro m hm
    rw [hannounced]
    exact hs.pending m (hpending ▸ mem_cons_of_mem hm)
  · intro i hi
    rw [hannounced] at hi
    rw [hlast, Function.update_of_ne (by omega)]
    exact hs.silent i hi
  · intro i hi
    rw [hannounced] at hi
    rw [hcurrent, hlast]
    -- what is pending for a subscriber stays so, but for the call that was made
    have hkept : ⟨s.current, i⟩ ∈ s.pending → n ≠ ⟨s.current, i⟩ →
        ⟨s.current, i⟩ ∈ s'.pending := fun hin hne =>
      (mem_cons.mp (hpending ▸ hin)).resolve_left (Ne.symm hne)
    by_cases hsub : i = n.sub
    · subst hsub
      rw [Function.update_self]
      by_cases hconfig : n.config = s.current
      · exact .inl (congrArg some hconfig)
      · exact .inr (hkept (hok n rest hk) fun heq => hconfig (congrArg Notification.config heq))
    · rw [Function.update_of_ne hsub]
      refine (hs.due i hi).imp_right fun hin => hkept hin ?_
      exact fun heq => hsub (congrArg Notification.sub heq).symm

theorem Informs.next (hs : s.Informs) (h : s.next l = some s') (hok : InOrder s l) :
    s'.Informs := by
  cases l with
  | subscribe =>
    obtain rfl := Option.some.inj h
    exact ⟨hs.announced.trans (Nat.le_succ _), hs.pending, hs.silent, hs.due⟩
  | swap call =>
    dsimp only [Reloading.next] at h
    split at h
    · obtain rfl := Option.some.inj h
      exact hs
    · rename_i r cfg hswap
      obtain rfl := Option.some.inj h
      have hcurrent : r.current = cfg := by
        unfold Reloader.swap at hswap
        split at hswap
        · cases hswap
        · split at hswap
          · cases hswap
          · cases hswap
            rfl
      refine ⟨le_rfl, ?_, fun i hi => hs.silent i (hs.announced.trans hi), ?_⟩
      · intro n hn
        rcases mem_pending_published.mp hn with hn | ⟨-, hn⟩
        · exact (hs.pending n hn).trans_le hs.announced
        · exact hn
      · intro i hi
        exact .inr (mem_pending_published.mpr (.inr ⟨hcurrent, hi⟩))
  | notify k => exact hs.notify h hok

theorem Informs.reach (hs : reloads.Reach InOrder s) : s.Informs := by
  refine hs.inv (I := Informs) ?_ fun t l t' ht hok h => ht.next h hok
  rintro t ⟨hcalls, hlast, hannounced⟩
  refine ⟨hannounced ▸ Nat.zero_le _, ?_, fun i _ => congrFun hlast i, ?_⟩
  · unfold Reloading.pending
    rw [hcalls]
    exact fun n hn => absurd hn (notMem_zero n)
  · rw [hannounced]
    exact fun i hi => absurd hi (Nat.not_lt_zero i)

/-! ## A call out of order -/

/-- A subscriber is not on the configuration in effect, and nothing brings it
there. -/
def Behind (s : Reloading) (i : Nat) : Prop :=
  i < s.announced ∧ s.last i ≠ some s.current ∧ ⟨s.current, i⟩ ∉ s.pending

theorem Behind.notify {i k : Nat} (hb : s.Behind i) (h : s.next (.notify k) = some s') :
    s'.Behind i := by
  obtain ⟨hi, hlast, hpending⟩ := hb
  obtain ⟨n, rest, -, hpending', hlast', hcurrent, hannounced, -⟩ := notify_spec h
  rw [hpending', mem_cons, not_or] at hpending
  refine ⟨hannounced ▸ hi, ?_, hcurrent ▸ hpending.2⟩
  rw [hlast', hcurrent]
  by_cases hsub : i = n.sub
  · subst hsub
    rw [Function.update_self]
    exact fun heq => hpending.1 (by rw [← Option.some.inj heq])
  · rw [Function.update_of_ne hsub]
    exact hlast

/-- The calls under way can all return with no further `Reload`. -/
theorem drains (n : Nat) : ∀ {s : Reloading}, s.pending.card = n →
    ∃ t, reloads.Path (fun _ l => ∃ k, l = .notify k) s t ∧ t.Returned := by
  induction n with
  | zero => exact fun h => ⟨_, .refl _, card_eq_zero.mp h⟩
  | succ n ih =>
    intro s hcard
    have hpos : 0 < s.pending.card := by
      rw [hcard]
      exact Nat.succ_pos n
    obtain ⟨m, hm⟩ := card_pos_iff_exists_mem.mp hpos
    obtain ⟨thread, hthread, hin⟩ := mem_frames.mp hm
    obtain ⟨k, hk⟩ := List.mem_iff_getElem?.mp hthread
    obtain ⟨top, rest, rfl⟩ := List.exists_cons_of_ne_nil (List.ne_nil_of_mem hin)
    have hnext : s.next (.notify k) = some { s with
        calls := advance s.calls k rest [] []
        last := Function.update s.last top.sub (some top.config) } := by
      dsimp only [Reloading.next]
      rw [hk]
    obtain ⟨_, _, -, hpending, -⟩ := notify_spec hnext
    rw [hpending, card_cons] at hcard
    obtain ⟨t, hpath, hreturned⟩ := ih (Nat.succ.inj hcard)
    exact ⟨t, .head ⟨k, rfl⟩ hnext hpath, hreturned⟩

theorem Informs.behind (hs : s.Informs) (h : s.next l = some s') (hok : ¬ InOrder s l) :
    ∃ i, s'.Behind i := by
  cases l with
  | subscribe | swap call => exact absurd trivial hok
  | notify k =>
    obtain ⟨n, rest, hk, hpending, hlast, hcurrent, hannounced, -⟩ := notify_spec h
    have hnot : ⟨s.current, n.sub⟩ ∉ s.pending := by
      intro hin
      refine hok fun n' rest' hk' => ?_
      cases hk.symm.trans hk'
      exact hin
    rw [hpending, mem_cons, not_or] at hnot
    refine ⟨n.sub, ?_, ?_, hcurrent ▸ hnot.2⟩
    · rw [hannounced]
      exact hs.pending n (hpending ▸ mem_cons_self _ _)
    · rw [hlast, hcurrent, Function.update_self]
      exact fun heq => hnot.1 (by rw [← Option.some.inj heq])

end Reloading

/-- **Subscribers end on the current configuration** in every run that calls them
in order: when all `Reload` calls have returned, what a subscriber was last called
with is the configuration in effect. After a step out of order the calls under
way may return with no further `Reload`, and leave a subscriber with another
configuration. -/
theorem subscribers_end_current {s : Reloading} (hs : reloads.Reach InOrder s) :
    (s.Returned → s.Informed) ∧
    ∀ l s', reloads.next s l = some s' → ¬ InOrder s l →
      ∃ t, reloads.Path (fun _ l => ∃ k, l = .notify k) s' t ∧ t.Returned ∧ ¬ t.Informed := by
  have hI := Reloading.Informs.reach hs
  refine ⟨hI.informed, fun l s' h hok => ?_⟩
  obtain ⟨i, hbehind⟩ := hI.behind (l := l) h hok
  obtain ⟨t, hpath, hreturned⟩ := Reloading.drains _ (s := s') rfl
  refine ⟨t, hpath, hreturned, fun hinformed => ?_⟩
  have hbehind' : t.Behind i := by
    refine hpath.inv (I := fun t => t.Behind i) ?_ hbehind
    rintro u _ u' hu ⟨k, rfl⟩ hnext
    exact hu.notify hnext
  refine hbehind'.2.1 ?_
  rw [hinformed i, if_pos hbehind'.1]

/-! ## Two calls -/

theorem next_swap_callOn (s : Reloading) {file : Config} (hinline : file.inventory.file = "")
    (h : Accepted (defaulted file)) :
    reloads.next s (.swap (callOn file)) = some
      (s.published { s.reloader with current := splice s.current (defaulted file) }
        (splice s.current (defaulted file))) := by
  have hload : (callOn file).loader.load s.reloader.path = .ok (defaulted file) := by
    have hloaded := callOn_loaded hinline h s.reloader.path
    unfold ReloadCall.loaded at hloaded
    cases hresult : (callOn file).loader.load s.reloader.path with
    | error err =>
      rw [hresult] at hloaded
      cases hloaded
    | ok loaded =>
      rw [hresult] at hloaded
      exact congrArg Except.ok (Option.some.inj hloaded)
  have hswap : s.reloader.swap (callOn file)
      = ({ s.reloader with current := splice s.current (defaulted file) },
        .ok (splice s.current (defaulted file))) := by
    simp only [Reloader.swap, callOn] at hload ⊢
    rw [hload]
    rfl
  simp only [reloads, Reloading.next, hswap]

/-- One subscriber and no `Reload` yet. -/
def oneSubscriber : Reloading :=
  ⟨⟨"config.yaml", defaulted firstFile⟩, 1, [], fun _ => none, 0⟩

/-- Two `Reload` calls are under way at once, and the subscriber is called in the
order of their swaps. -/
theorem subscribers_end_current_edited : ∃ s, reloads.Reach InOrder s ∧ s.Returned ∧
    s.last 0 = some s.current ∧ s.calls.length = 2 ∧ s.current.profiles.length = 2 := by
  have hstart : reloads.Reach InOrder oneSubscriber := ⟨_, ⟨rfl, rfl, rfl⟩, .refl _⟩
  have hok (s : Reloading) (call : ReloadCall) : InOrder s (.swap call) := trivial
  have hreverted := hstart.tail (hok _ _) (next_swap_callOn _ rfl batteryFile_accepted)
  have hboth := hreverted.tail (hok _ _) (next_swap_callOn _ rfl editedFile_accepted)
  have hfirst := hboth.tail (a := .notify 0) ?_ rfl
  · have hcalled := hfirst.tail (a := .notify 1) ?_ rfl
    · exact ⟨_, hcalled, rfl, (subscribers_end_current hcalled).1 rfl 0, rfl, rfl⟩
    · rintro n rest ⟨⟩
      exact Multiset.mem_singleton_self _
  · rintro n rest ⟨⟩
    exact Reloading.mem_pending_published.mpr (.inr ⟨rfl, Nat.zero_lt_one⟩)

/-- **A subscriber is left behind**: of two `Reload` calls the first to publish
is the last to call the subscriber. -/
theorem subscriber_left_behind : ∃ s c, reloads.Reach Machine.any s ∧ s.Returned ∧
    s.last 0 = some c ∧ c.profiles.length = 2 ∧ s.current.profiles.length = 1 := by
  have hstart : reloads.Reach Machine.any oneSubscriber := ⟨_, ⟨rfl, rfl, rfl⟩, .refl _⟩
  have hedited := next_swap_callOn oneSubscriber rfl editedFile_accepted
  have hfirst := hstart.tail trivial hedited
  have hreverted (s : Reloading) := next_swap_callOn s rfl batteryFile_accepted
  have hsecond := hfirst.tail trivial (hreverted _)
  have hcalled := hsecond.tail (a := .notify 1) trivial rfl
  have hlate := hcalled.tail (a := .notify 0) trivial rfl
  exact ⟨_, _, hlate, rfl, rfl, rfl, rfl⟩

end FlintlockRunner.Config

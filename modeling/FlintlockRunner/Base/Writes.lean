import Mathlib.Data.List.Basic
import Mathlib.Data.List.Induction
import Mathlib.Logic.Function.Basic

/-!
# Logs of writes

A log of writes to a store with any number of keys. What the log leaves at a
key is the last value written there, whatever the store held before
(`after_apply`); so a stretch at the end of a log can be written again without
changing anything (`after_suffix`).
-/

namespace Writes

variable {κ β : Type*} [DecidableEq κ]

/-- The store after a log of writes. -/
def after (f : κ → β) (log : List (κ × β)) : κ → β :=
  log.foldl (fun f w => Function.update f w.1 w.2) f

/-- The last value that a log writes at a key. -/
def last (log : List (κ × β)) (k : κ) : Option β :=
  log.foldl (fun o w => if w.1 = k then some w.2 else o) none

variable (f : κ → β) (log log' : List (κ × β))

theorem after_append : after f (log ++ log') = after (after f log) log' := List.foldl_append ..

theorem after_apply (k : κ) : after f log k = (last log k).getD (f k) := by
  unfold after last
  induction log using List.reverseRecOn with
  | nil => rfl
  | append_singleton log w ih =>
    rw [List.foldl_concat, List.foldl_concat]
    by_cases hk : w.1 = k
    · rw [if_pos hk, ← hk, Function.update_self]
      rfl
    · rw [if_neg hk, Function.update_of_ne (Ne.symm hk), ih]

theorem after_again : after (after f log) log = after f log := by
  funext k
  rw [after_apply, after_apply]
  cases last log k <;> rfl

/-- **The end of a log can be written again.** -/
theorem after_suffix {s : List (κ × β)} (h : s <:+ log) : after (after f log) s = after f log := by
  obtain ⟨before, rfl⟩ := h
  rw [after_append]
  exact after_again _ s

end Writes

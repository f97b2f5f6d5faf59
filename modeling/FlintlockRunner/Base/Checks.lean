import Mathlib.Data.List.AList

/-!
# Checks that report everything they find

A validator that does not stop at the first error: a check answers the list of
what is wrong, and a whole is in order when the lists of its parts are empty.
Loops over a list thread a state through their checks (what was seen so far, to
report repetitions), so what a later element is checked against depends on the
earlier ones. The rules below read a loop that reported nothing back into a
statement about every element, or about every two of them.
-/

namespace Checks

variable {α σ E κ ν : Type}

/-! ## Loops -/

/-- Check the elements of a list in turn, each with its index and with the state
the earlier ones left. -/
def each (check : Nat → α → σ → List E × σ) : Nat → List α → σ → List E × σ
  | _, [], s => ([], s)
  | i, a :: as, s =>
    ((check i a s).1 ++ (each check (i + 1) as (check i a s).2).1,
      (each check (i + 1) as (check i a s).2).2)

/-- Check the elements of a list one by one, each with its index. -/
def all (check : Nat → α → List E) (as : List α) : List E :=
  (each (fun i a (s : Unit) => (check i a, s)) 0 as ()).1

variable {check : Nat → α → σ → List E × σ} {P : α → Prop}

@[simp] theorem each_cons_eq_nil {i : Nat} {a : α} {as : List α} {s : σ} :
    (each check i (a :: as) s).1 = [] ↔
      (check i a s).1 = [] ∧ (each check (i + 1) as (check i a s).2).1 = [] :=
  List.append_eq_nil_iff

/-- What every passing check shows of its element holds of all of them. -/
theorem forall_of_each {as : List α} {s : σ} (shows : ∀ i a s, (check i a s).1 = [] → P a) {i : Nat}
    (h : (each check i as s).1 = []) : ∀ a ∈ as, P a := by
  induction as generalizing i s with
  | nil => exact List.forall_mem_nil _
  | cons b as ih =>
    rw [each_cons_eq_nil] at h
    intro a ha
    rcases List.mem_cons.mp ha with rfl | ha
    · exact shows i a s h.1
    · exact ih h.2 a ha

/-- Errors that a loop's body adds behind the others, and that neither read nor
change its state, can be looked at on their own. -/
theorem each_append_eq_nil_iff (check : Nat → α → σ → List E × σ) {extra : Nat → α → List E}
    (shows : ∀ i a, extra i a = [] ↔ P a) (i : Nat) (as : List α) (s : σ) :
    (each (fun i a s => ((check i a s).1 ++ extra i a, (check i a s).2)) i as s).1 = [] ↔
      (each check i as s).1 = [] ∧ ∀ a ∈ as, P a := by
  induction as generalizing i s with
  | nil => simp [each]
  | cons a as ih =>
    simp only [each_cons_eq_nil, List.append_eq_nil_iff, shows, ih, List.forall_mem_cons]
    tauto

/-! ## Repetitions -/

/-- Report a key that was seen before, by what it was seen with; note it down
otherwise. -/
def unique [DecidableEq κ] (seen : AList fun _ : κ => ν) (key : κ) (mark : ν) (dup : ν → E) :
    List E × AList fun _ : κ => ν :=
  match seen.lookup key with
  | some earlier => ([dup earlier], seen)
  | none => ([], seen.insert key mark)

theorem unique_eq_nil_iff [DecidableEq κ] {seen : AList fun _ : κ => ν} {key : κ} {mark : ν}
    {dup : ν → E} : (unique seen key mark dup).1 = [] ↔ key ∉ seen := by
  unfold unique
  cases h : seen.lookup key with
  | none => simp [AList.lookup_eq_none.mp h]
  | some earlier => simp [AList.lookup_isSome.mp (Option.isSome_of_eq_some h)]

theorem mem_unique [DecidableEq κ] {seen : AList fun _ : κ => ν} {key k : κ} {mark : ν}
    {dup : ν → E} : k ∈ (unique seen key mark dup).2 ↔ k = key ∨ k ∈ seen := by
  unfold unique
  cases h : seen.lookup key with
  | none => simp
  | some earlier =>
    have hmem := AList.lookup_isSome.mp (Option.isSome_of_eq_some h)
    exact ⟨.inr, fun hk => hk.elim (fun heq => heq ▸ hmem) id⟩

/-- When every passing check finds its element's key unseen and leaves it seen,
no two elements of a list that passes have the same key. -/
theorem nodup_of_each (key : α → κ) (seen : σ → κ → Prop)
    (fresh : ∀ i a s, (check i a s).1 = [] → ¬seen s (key a))
    (noted : ∀ i a s, (check i a s).1 = [] →
      seen (check i a s).2 (key a) ∧ ∀ k, seen s k → seen (check i a s).2 k)
    {i : Nat} {as : List α} {s : σ} (h : (each check i as s).1 = []) :
    (as.map key).Nodup ∧ ∀ a ∈ as, ¬seen s (key a) := by
  induction as generalizing i s with
  | nil => exact ⟨List.nodup_nil, List.forall_mem_nil _⟩
  | cons b as ih =>
    rw [each_cons_eq_nil] at h
    obtain ⟨hnodup, hunseen⟩ := ih h.2
    obtain ⟨hnoted, hkept⟩ := noted i b s h.1
    constructor
    · rw [List.map_cons, List.nodup_cons]
      refine ⟨fun hmem => ?_, hnodup⟩
      obtain ⟨a, ha, heq⟩ := List.mem_map.mp hmem
      exact hunseen a ha (heq ▸ hnoted)
    · intro a ha
      rcases List.mem_cons.mp ha with rfl | ha
      · exact fresh i a s h.1
      · exact fun hseen => hunseen a ha (hkept _ hseen)

end Checks

import FlintlockRunner.Base.Int64
import Mathlib.Algebra.Order.Ring.Int

/-!
# Exponential backoff (`internal/clock/clock.go`)

`Exponential.Next` doubles `Base` once per attempt and stops at `Max`, in the 64
bits of a `time.Duration`. A doubling that wraps is found by its sign and answered
with `Max`, which is right when there is a cap. When there is none `Max` is zero,
and so is the answer: the wait grows up to some attempt and is nothing from then
on (`backoff_collapses`).
-/

namespace FlintlockRunner.Clock

/-- `Exponential`; its durations are 64-bit numbers of nanoseconds. -/
structure Exponential where
  base : Int64
  max : Int64
  deriving DecidableEq, Repr

namespace Exponential

variable (e : Exponential)

/-- The loop of `Next`, with the doublings still to make; there is no value when
it has returned `Max`. -/
def doubled : Nat → Int64 → Option Int64
  | 0, d => some d
  | n + 1, d =>
    if 0 < e.max ∧ e.max ≤ d * 2 then none
    else if d * 2 ≤ 0 then none
    else doubled n (d * 2)

/-- `Next`. A negative attempt counts as the first. -/
def next (attempt : Int) : Int64 :=
  match e.doubled attempt.toNat e.base with
  | none => e.max
  | some d => if 0 < e.max ∧ e.max < d then e.max else d

/-! ## The loop -/

variable {e} {n : Nat} {d d' : Int64}

theorem le_mul_two_pow {x : Int} (hx : 0 < x) (n : Nat) : x ≤ x * 2 ^ n :=
  le_mul_of_one_le_right hx.le (one_le_pow₀ (by decide))

theorem doubled_some (hd : 0 < d.toInt) (h : e.doubled n d = some d') :
    d'.toInt = d.toInt * 2 ^ n := by
  induction n generalizing d with
  | zero =>
    cases h
    simp
  | succ n ih =>
    rw [doubled] at h
    split at h
    · cases h
    · split at h
      · cases h
      · rename_i hpos
        rw [Int64.le_iff_toInt_le, not_le] at hpos
        have hfits : d.toInt * 2 < 2 ^ 63 := by
          by_contra hle
          exact absurd (Words.toInt_double_neg (not_lt.mp hle)) (not_lt.mpr hpos.le)
        rw [ih hpos h, Words.toInt_double_of_lt hd.le hfits, pow_succ', mul_assoc]

/-- A loop that returns early has reached the cap or what 64 bits hold. -/
theorem doubled_none (hd : 0 < d.toInt) (h : e.doubled n d = none) :
    (0 < e.max ∧ e.max.toInt ≤ d.toInt * 2 ^ n) ∨ 2 ^ 63 ≤ d.toInt * 2 ^ n := by
  induction n generalizing d with
  | zero => cases h
  | succ n ih =>
    rw [pow_succ', ← mul_assoc]
    rcases lt_or_ge (d.toInt * 2) (2 ^ 63) with hfits | hwraps
    · have hexact := Words.toInt_double_of_lt hd.le hfits
      have hpos : 0 < (d * 2).toInt := by omega
      rw [doubled] at h
      split at h
      · rename_i hcap
        have hle := Int64.le_iff_toInt_le.mp hcap.2
        rw [hexact] at hle
        exact .inl ⟨hcap.1, hle.trans (le_mul_two_pow (by omega) n)⟩
      · split at h
        · rename_i hneg
          exact absurd (Int64.le_iff_toInt_le.mp hneg) (not_le.mpr hpos)
        · rw [← hexact]
          exact ih hpos h
    · exact .inr (hwraps.trans (le_mul_two_pow (by omega) n))

/-! ## `Next` -/

/-- What the answer is, over the integers, once the loop has come to its end. -/
theorem next_toInt (hbase : 0 < e.base) (hmax : 0 ≤ e.max) (attempt : Int) :
    (e.next attempt).toInt =
      if 0 < e.max then min (e.base.toInt * 2 ^ attempt.toNat) e.max.toInt
      else if e.base.toInt * 2 ^ attempt.toNat < 2 ^ 63 then e.base.toInt * 2 ^ attempt.toNat
      else 0 := by
  have hpos : 0 < e.base.toInt := Int64.lt_iff_toInt_lt.mp hbase
  have hlt := e.max.toInt_lt
  unfold next
  cases h : e.doubled attempt.toNat e.base with
  | none =>
    dsimp only
    rcases doubled_none hpos h with ⟨hcap, hle⟩ | hwraps
    · rw [if_pos hcap, min_eq_right hle]
    · split
      · rw [min_eq_right (hlt.le.trans hwraps)]
      · rename_i hnocap
        rw [if_neg (not_lt.mpr hwraps), Int64.le_antisymm (Int64.not_lt.mp hnocap) hmax]
        rfl
  | some d =>
    have heq := doubled_some hpos h
    have hfits := d.toInt_lt
    dsimp only
    split
    · rename_i hcap
      have hle := (Int64.lt_iff_toInt_lt.mp hcap.2).le
      rw [if_pos hcap.1, min_eq_right (heq ▸ hle)]
    · rename_i hcap
      split
      · rename_i hset
        have hle : d.toInt ≤ e.max.toInt := not_lt.mp fun hlt =>
          hcap ⟨hset, Int64.lt_iff_toInt_lt.mpr hlt⟩
        rw [min_eq_left (heq ▸ hle), heq]
      · rw [if_pos (heq ▸ hfits), heq]

/-- Every attempt waits, later ones at least as long, and a cap is kept exactly,
unless the doublings pass what 64 bits hold and there is no cap. -/
theorem next_grows_iff (hbase : 0 < e.base) (hmax : 0 ≤ e.max) {m n : Int} (hmn : m ≤ n) :
    (0 < e.next m ∧ e.next m ≤ e.next n ∧ (0 < e.max → e.next n ≤ e.max) ∧
        (0 < e.max → (e.next n).toInt = min (e.base.toInt * 2 ^ n.toNat) e.max.toInt)) ↔
      0 < e.max ∨ e.base.toInt * 2 ^ n.toNat < 2 ^ 63 := by
  have hpos : 0 < e.base.toInt := Int64.lt_iff_toInt_lt.mp hbase
  have hm := le_mul_two_pow hpos m.toNat
  have hgrows : e.base.toInt * 2 ^ m.toNat ≤ e.base.toInt * 2 ^ n.toNat :=
    mul_le_mul_of_nonneg_left (pow_le_pow_right₀ (by decide) (Int.toNat_le_toNat hmn)) hpos.le
  simp only [Int64.lt_iff_toInt_lt, Int64.le_iff_toInt_le, next_toInt hbase hmax,
    Int64.toInt_zero]
  by_cases hcap : 0 < e.max.toInt
  · simp only [hcap, if_true, true_or, iff_true]
    exact ⟨lt_min (hpos.trans_le hm) hcap, min_le_min_right _ hgrows,
      fun _ => min_le_right _ _, fun _ => trivial⟩
  · simp only [hcap, if_false, false_or, false_implies, and_true]
    constructor
    · rintro ⟨hwaits, hmono⟩
      by_contra hwraps
      rw [if_neg hwraps] at hmono
      exact absurd (hwaits.trans_le hmono) (lt_irrefl 0)
    · intro hfits
      rw [if_pos hfits, if_pos (hgrows.trans_lt hfits)]
      exact ⟨hpos.trans_le hm, hgrows⟩

/-- The policy the Pool Manager client is given: it has a cap, so no number of
attempts takes it out of the 64 bits. -/
theorem next_grows_capped :
    let e : Exponential := ⟨1000000000, 30000000000⟩
    0 < e.next 3 ∧ e.next 3 ≤ e.next 100 ∧ (0 < e.max → e.next 100 ≤ e.max) ∧
      (0 < e.max → (e.next 100).toInt = min (e.base.toInt * 2 ^ 100) e.max.toInt) :=
  (next_grows_iff (by decide) (by decide) (by decide)).mpr (.inl (by decide))

/-- One second, doubled without a cap: the wait before attempt 33 is 272 years,
the wait before attempt 34 is none. -/
theorem backoff_collapses :
    let e : Exponential := ⟨1000000000, 0⟩
    0 < e.base ∧ 0 ≤ e.max ∧ 0 < e.next 33 ∧ e.next 34 = 0 ∧ ¬e.next 33 ≤ e.next 34 := by
  decide +kernel

end Exponential

end FlintlockRunner.Clock

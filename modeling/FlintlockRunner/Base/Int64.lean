import Mathlib.Algebra.BigOperators.Group.List.Basic
import Mathlib.Algebra.Ring.Int.Defs

/-!
# Sums and doublings in 64 bits

Additions and multiplications of `Int64` wrap. On numbers that are not negative:

- a sum is exact when the mathematical sum fits (`toInt_foldl_add`), because
  then every partial sum does;
- a doubling is exact or comes out negative (`toInt_double_neg`), so a test of
  the sign finds every wrap.
-/

namespace Words

variable {a b : Int64}

/-! ## Sums -/

theorem toInt_add_of_lt (ha : 0 ≤ a.toInt) (hb : 0 ≤ b.toInt) (h : a.toInt + b.toInt < 2 ^ 63) :
    (a + b).toInt = a.toInt + b.toInt := by
  rw [Int64.toInt_add]
  exact Int.bmod_eq_of_le (by omega) (by omega)

/-- The mathematical sum. -/
def total (l : List Int64) : Int := (l.map Int64.toInt).sum

@[simp] theorem total_nil : total [] = 0 := rfl

@[simp] theorem total_cons (l : List Int64) : total (a :: l) = a.toInt + total l := by
  simp [total]

theorem total_nonneg {l : List Int64} (h : ∀ a ∈ l, 0 ≤ a.toInt) : 0 ≤ total l := by
  induction l with
  | nil => simp
  | cons a l ih =>
    have ha := h a List.mem_cons_self
    have hl := ih fun b hb => h b (List.mem_cons_of_mem a hb)
    rw [total_cons]
    omega

theorem toInt_foldl_add {l : List Int64} (hl : ∀ b ∈ l, 0 ≤ b.toInt) (ha : 0 ≤ a.toInt)
    (h : a.toInt + total l < 2 ^ 63) : (l.foldl (· + ·) a).toInt = a.toInt + total l := by
  induction l generalizing a with
  | nil => simp
  | cons b l ih =>
    have hb := hl b List.mem_cons_self
    have htail := fun c hc => hl c (List.mem_cons_of_mem b hc)
    have hnonneg := total_nonneg htail
    rw [total_cons] at h ⊢
    have hadd : (a + b).toInt = a.toInt + b.toInt := toInt_add_of_lt ha hb (by omega)
    rw [List.foldl_cons, ih htail (by omega) (by omega), hadd]
    omega

/-! ## Doublings -/

theorem toInt_double_of_lt (ha : 0 ≤ a.toInt) (h : a.toInt * 2 < 2 ^ 63) :
    (a * 2).toInt = a.toInt * 2 := by
  have htwo : (2 : Int64).toInt = 2 := rfl
  rw [Int64.toInt_mul, htwo]
  exact Int.bmod_eq_of_le (by omega) (by omega)

theorem toInt_double_neg (h : 2 ^ 63 ≤ a.toInt * 2) : (a * 2).toInt < 0 := by
  have htwo : (2 : Int64).toInt = 2 := rfl
  have hlt := a.toInt_lt
  rw [Int64.toInt_mul, htwo, Int.bmod_def]
  omega

end Words

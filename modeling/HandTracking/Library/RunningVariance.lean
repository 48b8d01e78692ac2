/-
Mean and squared deviations of a list, and how one more element changes them.

* `sum_eq_length_mul_mean` — the mean, with the count on the other side;
* `sumSqDev_eq` — the squared deviations by the squares alone;
* `mean_concat`, `sumSqDev_concat` — the update of a running computation.
-/
import HandTracking.Library.Numerals
import Mathlib.Algebra.BigOperators.Group.List.Basic
import Mathlib.Algebra.CharZero.Defs
import Mathlib.Algebra.Field.Basic
import Mathlib.Tactic.FieldSimp
import Mathlib.Tactic.LinearCombination
import Mathlib.Tactic.Ring

namespace List

variable {K : Type*} [Field K]

/-- The mean, 0 for no elements. -/
def mean (l : List K) : K := l.sum / l.length

/-- The squared deviations from the mean, summed up. -/
def sumSqDev (l : List K) : K := (l.map fun x => (x - l.mean) ^ 2).sum

variable [CharZero K]

theorem sum_eq_length_mul_mean (l : List K) : l.sum = l.length * l.mean := by
  rcases l.eq_nil_or_concat with rfl | ⟨l, x, rfl⟩
  · simp
  · have hlength : ((l ++ [x]).length : K) ≠ 0 := by
      rw [length_append]
      exact Nat.cast_ne_zero.mpr (Nat.succ_ne_zero _)
    rw [mean]
    field_simp

omit [CharZero K] in
/-- The squared distances from any point. -/
theorem sum_map_sub_sq (l : List K) (m : K) : (l.map fun x => (x - m) ^ 2).sum =
    (l.map (· ^ 2)).sum - 2 * m * l.sum + l.length * m ^ 2 := by
  induction l with
  | nil => simp
  | cons x l ih =>
    rw [map_cons, map_cons, sum_cons, sum_cons, sum_cons, ih, length_cons, Nat.cast_succ]
    ring

theorem sumSqDev_eq (l : List K) : l.sumSqDev = (l.map (· ^ 2)).sum - l.length * l.mean ^ 2 := by
  rw [sumSqDev, sum_map_sub_sq, sum_eq_length_mul_mean l]
  ring

/-- The mean moves towards the new element. -/
theorem mean_concat (l : List K) (x : K) :
    (l ++ [x]).mean = l.mean + (x - l.mean) / (l.length + 1) := by
  have hlength : (l.length : K) + 1 ≠ 0 := Nat.cast_add_one_ne_zero l.length
  have hsum : (l ++ [x]).sum = l.length * l.mean + x := by
    rw [sum_append, sum_singleton, ← sum_eq_length_mul_mean]
  rw [mean, hsum, length_append, length_singleton, Nat.cast_succ]
  field_simp
  ring

/-- The squared deviations grow by the product of the distances to both means. -/
theorem sumSqDev_concat (l : List K) (x : K) :
    (l ++ [x]).sumSqDev = l.sumSqDev + (x - (l ++ [x]).mean) * (x - l.mean) := by
  have hsum : ((l.length : K) + 1) * (l ++ [x]).mean = l.length * l.mean + x := by
    have htotal := sum_eq_length_mul_mean (l ++ [x])
    rw [sum_append, sum_singleton, length_append, length_singleton, Nat.cast_succ,
      sum_eq_length_mul_mean l] at htotal
    exact htotal.symm
  rw [sumSqDev_eq, sumSqDev_eq, map_append, sum_append, map_singleton, sum_singleton,
    length_append, length_singleton, Nat.cast_succ]
  linear_combination -((l ++ [x]).mean + l.mean) * hsum

omit [CharZero K] in
theorem sumSqDev_singleton (x : K) : [x].sumSqDev = 0 := by
  simp [sumSqDev, mean]

end List

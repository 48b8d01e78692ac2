/-
Numbers `a * n + b` with `b` below `n`.

* `Nat.mul_add_lt_mul` — their range;
* `Nat.mul_add_div_of_lt` — the part before the last one, `Nat.mul_add_inj_of_lt` — both parts.
-/
import Mathlib.Data.Nat.Notation

namespace Nat

variable {a b c d m n : ℕ}

theorem mul_add_lt_mul (ha : a < m) (hb : b < n) : a * n + b < m * n := by
  calc a * n + b < a * n + n := Nat.add_lt_add_left hb _
    _ = (a + 1) * n := (Nat.succ_mul a n).symm
    _ ≤ m * n := Nat.mul_le_mul_right n ha

theorem mul_add_div_of_lt (hb : b < n) : (a * n + b) / n = a := by
  rw [Nat.mul_comm, Nat.mul_add_div (Nat.zero_lt_of_lt hb), Nat.div_eq_of_lt hb, Nat.add_zero]

theorem mul_add_inj_of_lt (hb : b < n) (hd : d < n) (h : a * n + b = c * n + d) :
    a = c ∧ b = d := by
  have hfirst : a = c := by
    rw [← mul_add_div_of_lt (a := a) hb, h, mul_add_div_of_lt hd]
  subst hfirst
  exact ⟨rfl, Nat.add_left_cancel h⟩

end Nat

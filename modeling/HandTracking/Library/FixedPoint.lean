/-
Rounding to integers, and integers of a fixed width.

* `towardsZero`, `roundHalfAway` — a conversion of C, and the rounding that is made of it;
* `saturate` — an integer cut to an interval;
* `wrap32` — an integer of 32 bits in two's complement, and `wrap32_between` — where the sums
  between two sums lie.
-/
import Mathlib.Algebra.Order.Floor.Ring
import Mathlib.Tactic.Linarith

section Rounding

variable {K : Type} [Field K] [LinearOrder K] [FloorRing K]

/-- The integer part, with its sign. -/
def towardsZero (x : K) : ℤ := if 0 ≤ x then ⌊x⌋ else ⌈x⌉

theorem towardsZero_of_nonneg {x : K} (h : 0 ≤ x) : towardsZero x = ⌊x⌋ := if_pos h

/-- A negative number that is rounded to 0. -/
theorem towardsZero_of_neg {x : K} (h : x < 0) (hzero : 0 ≤ towardsZero x) :
    towardsZero x = 0 ∧ ⌊x⌋ = -1 := by
  rw [towardsZero, if_neg h.not_ge] at hzero ⊢
  have hceil : ⌈x⌉ = 0 := le_antisymm (Int.ceil_le.mpr (by rw [Int.cast_zero]; exact h.le)) hzero
  refine ⟨hceil, ?_⟩
  have hlower : (-1 : ℤ) < x := Int.lt_ceil.mp (show -1 < ⌈x⌉ by omega)
  rw [Int.floor_eq_iff]
  rw [Int.cast_neg, Int.cast_one] at hlower ⊢
  exact ⟨hlower.le, by rwa [neg_add_cancel]⟩

theorem towardsZero_mono {x y : K} (h : x ≤ y) : towardsZero x ≤ towardsZero y := by
  rw [towardsZero, towardsZero]
  split_ifs with hx hy hy
  · exact Int.floor_mono h
  · exact absurd (hx.trans h) hy
  · -- between them lies 0
    have hceil : ⌈x⌉ ≤ 0 := Int.ceil_le.mpr (by rw [Int.cast_zero]; exact (not_le.mp hx).le)
    exact hceil.trans (Int.floor_nonneg.mpr hy)
  · exact Int.ceil_mono h

variable [IsStrictOrderedRing K]

theorem towardsZero_intCast (n : ℤ) : towardsZero (n : K) = n := by
  rw [towardsZero]
  split_ifs
  · exact Int.floor_intCast n
  · exact Int.ceil_intCast n

/-- The nearest integer, the one further from 0 if there are two. -/
def roundHalfAway (x : K) : ℤ := towardsZero (x + if 0 ≤ x then 1 / 2 else -1 / 2)

theorem roundHalfAway_zero : roundHalfAway (0 : K) = 0 := by
  rw [roundHalfAway, if_pos le_rfl, zero_add, towardsZero_of_nonneg (by norm_num)]
  rw [Int.floor_eq_zero_iff]
  exact ⟨by norm_num, by norm_num⟩

theorem roundHalfAway_mono {x y : K} (h : x ≤ y) : roundHalfAway x ≤ roundHalfAway y := by
  apply towardsZero_mono
  split_ifs with hx hy hy
  · linarith
  · exact absurd (hx.trans h) hy
  · linarith
  · linarith

end Rounding

section Width

/-- The nearest integer of an interval. -/
def saturate (lo hi x : ℤ) : ℤ := min (max x lo) hi

theorem saturate_mono {lo hi x y : ℤ} (h : x ≤ y) : saturate lo hi x ≤ saturate lo hi y :=
  min_le_min_right hi (max_le_max_right lo h)

theorem saturate_of_mem {lo hi x : ℤ} (hlo : lo ≤ x) (hhi : x ≤ hi) : saturate lo hi x = x := by
  rw [saturate, max_eq_left hlo, min_eq_left hhi]

/-- The integer of 32 bits that is congruent to `x`. -/
def wrap32 (x : ℤ) : ℤ := (x + 2147483648) % 4294967296 - 2147483648

theorem wrap32_range (x : ℤ) : -2147483648 ≤ wrap32 x ∧ wrap32 x < 2147483648 := by
  rw [wrap32]
  omega

/-- Sums with numbers of one sign.  If the first and the last are on one side of 0, the ones
between them do not wrap around otherwise. -/
theorem wrap32_between {s a b c : ℤ} (hs : -2147483648 ≤ s ∧ s < 2147483648)
    (hbetween : 0 ≤ a ∧ a ≤ c ∧ c ≤ b ∧ b < 2147483648 ∨
      -2147483648 ≤ b ∧ b ≤ c ∧ c ≤ a ∧ a ≤ 0)
    (hside : 0 ≤ wrap32 (s + a) ∧ 0 ≤ wrap32 (s + b) ∨
      wrap32 (s + a) < -1 ∧ wrap32 (s + b) < -1) :
    min (wrap32 (s + a)) (wrap32 (s + b)) ≤ wrap32 (s + c) ∧
      wrap32 (s + c) ≤ max (wrap32 (s + a)) (wrap32 (s + b)) := by
  simp only [wrap32] at *
  omega

end Width

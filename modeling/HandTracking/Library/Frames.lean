/-
Changes of coordinates between frames.

Each frame has a pose, an invertible map to a common frame; the maps come from any monoid.

* `change P i j` — from the coordinates in `i` to those in `j`;
* `change_self`, `change_mul_change` — changes compose;
* `mul_change_eq_one` — the change back.
-/
import Mathlib.Algebra.Group.Units.Basic

namespace Frames

variable {ι M : Type*} [Monoid M]

/-- The change from one frame to another. -/
def change (P : ι → Mˣ) (i j : ι) : M := ↑((P j)⁻¹ * P i)

variable (P : ι → Mˣ)

@[simp]
theorem change_self (i : ι) : change P i i = 1 := by
  rw [change, inv_mul_cancel, Units.val_one]

theorem change_mul_change (i j k : ι) : change P j k * change P i j = change P i k := by
  rw [change, change, change, ← Units.val_mul, mul_assoc, mul_inv_cancel_left]

theorem mul_change_eq_one (i j : ι) : change P j i * change P i j = 1 := by
  rw [change_mul_change, change_self]

end Frames

/-
Upright rectangles in the plane and their areas.

* `rectangle` — the points between two corners, its border included;
* `area` — the area of a set of points, `iou` — how much two sets overlap;
* `area_rectangle`, `rectangle_inter`, `area_union` — areas by the coordinates of the
  corners, also where the corners are the wrong way round and there is no point between them.
-/
import Mathlib.MeasureTheory.Measure.Lebesgue.Basic
import Mathlib.MeasureTheory.Measure.Real

namespace Plane

open MeasureTheory

/-- A rectangle with its sides. -/
def rectangle (x₁ x₂ y₁ y₂ : ℝ) : Set (ℝ × ℝ) := Set.Icc x₁ x₂ ×ˢ Set.Icc y₁ y₂

/-- The area of a set. -/
noncomputable def area (s : Set (ℝ × ℝ)) : ℝ := volume.real s

/-- The area that two sets share over the area that they cover; nothing over nothing is 0. -/
noncomputable def iou (s t : Set (ℝ × ℝ)) : ℝ := area (s ∩ t) / area (s ∪ t)

variable {x₁ x₂ y₁ y₂ x₁' x₂' y₁' y₂' : ℝ}

theorem area_rectangle :
    area (rectangle x₁ x₂ y₁ y₂) = max (x₂ - x₁) 0 * max (y₂ - y₁) 0 := by
  rw [area, rectangle, measureReal_def, Measure.volume_eq_prod, Measure.prod_prod,
    Real.volume_Icc, Real.volume_Icc, ENNReal.toReal_mul, ENNReal.toReal_ofReal',
    ENNReal.toReal_ofReal']

theorem measurableSet_rectangle : MeasurableSet (rectangle x₁ x₂ y₁ y₂) :=
  measurableSet_Icc.prod measurableSet_Icc

theorem volume_rectangle_ne_top : volume (rectangle x₁ x₂ y₁ y₂) ≠ ⊤ := by
  rw [rectangle, Measure.volume_eq_prod, Measure.prod_prod, Real.volume_Icc, Real.volume_Icc]
  exact ENNReal.mul_ne_top ENNReal.ofReal_ne_top ENNReal.ofReal_ne_top

theorem rectangle_inter :
    rectangle x₁ x₂ y₁ y₂ ∩ rectangle x₁' x₂' y₁' y₂' =
      rectangle (max x₁ x₁') (min x₂ x₂') (max y₁ y₁') (min y₂ y₂') := by
  rw [rectangle, rectangle, Set.prod_inter_prod, Set.Icc_inter_Icc, Set.Icc_inter_Icc]
  rfl

theorem area_union :
    area (rectangle x₁ x₂ y₁ y₂ ∪ rectangle x₁' x₂' y₁' y₂') =
      area (rectangle x₁ x₂ y₁ y₂) + area (rectangle x₁' x₂' y₁' y₂') -
        area (rectangle x₁ x₂ y₁ y₂ ∩ rectangle x₁' x₂' y₁' y₂') := by
  have hm : MeasurableSet (rectangle x₁' x₂' y₁' y₂') := measurableSet_rectangle
  exact eq_sub_of_add_eq
    (measureReal_union_add_inter hm volume_rectangle_ne_top volume_rectangle_ne_top)

end Plane

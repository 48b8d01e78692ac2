/-
The formats of a bounding box: two corners, a corner and the sides, and the center and the sides.

* `bboxXyxy2cs`, `bboxXywh2cs`, `bboxCs2xyxy` — the changes of format;
* `bboxXyxy2cs_corners` — the two ways to the center and the sides agree;
* `bboxCs2xyxy_upper` — the way back adds half the sides to the sides and not to the center;
* `bbox_round_trips_iff` — so it is a way back exactly where the center is equal to the sides.
-/
import HandTracking.CameraModel
import Mathlib.Tactic.LinearCombination
import Mathlib.Tactic.NormNum

namespace Calculator

open Camera

variable {K : Type} [Field K]

/-- A vector of four entries, `Eigen::Vector4f`. -/
abbrev Vec4 (K : Type) := Fin 4 → K

/-! ### Blocks -/

/-- `bbox.block<2, 1>(0, 0)` -/
def lowerBlock (bbox : Vec4 K) : Vec2 K := ![bbox 0, bbox 1]

/-- `bbox.block<2, 1>(2, 0)` -/
def upperBlock (bbox : Vec4 K) : Vec2 K := ![bbox 2, bbox 3]

/-- A vector after both of its blocks were assigned. -/
def ofBlocks (lower upper : Vec2 K) : Vec4 K := ![lower 0, lower 1, upper 0, upper 1]

omit [Field K] in
@[simp] theorem lowerBlock_ofBlocks (a b : Vec2 K) : lowerBlock (ofBlocks a b) = a := by
  funext i
  fin_cases i <;> rfl

omit [Field K] in
@[simp] theorem upperBlock_ofBlocks (a b : Vec2 K) : upperBlock (ofBlocks a b) = b := by
  funext i
  fin_cases i <;> rfl

omit [Field K] in
theorem ofBlocks_eq_iff {a b : Vec2 K} {bbox : Vec4 K} :
    ofBlocks a b = bbox ↔ a = lowerBlock bbox ∧ b = upperBlock bbox := by
  constructor
  · rintro rfl
    exact ⟨(lowerBlock_ofBlocks a b).symm, (upperBlock_ofBlocks a b).symm⟩
  · rintro ⟨rfl, rfl⟩
    funext i
    fin_cases i <;> rfl

/-! ### The formats -/

/-- `bbox_xyxy2cs`: from two corners to the center and the sides. -/
def bboxXyxy2cs (bbox : Vec4 K) : Vec4 K :=
  ofBlocks (fun i => (lowerBlock bbox i + upperBlock bbox i) / 2)
    (upperBlock bbox - lowerBlock bbox)

/-- `bbox_cs2xyxy`: from the center and the sides to two corners. -/
def bboxCs2xyxy (bbox : Vec4 K) : Vec4 K :=
  let scale := upperBlock bbox
  ofBlocks (fun i => lowerBlock bbox i - scale i * 0.5) (fun i => upperBlock bbox i + scale i * 0.5)

/-- `bbox_xywh2cs`: from a corner and the sides to the center and the sides. -/
def bboxXywh2cs (bbox : Vec4 K) : Vec4 K :=
  ofBlocks (fun i => lowerBlock bbox i + upperBlock bbox i * 0.5) (upperBlock bbox)

section

variable [CharZero K]

theorem half_eq : (0.5 : K) = 1 / 2 := by norm_num

/-- A corner and the sides, or that corner and the opposite one. -/
theorem bboxXyxy2cs_corners (corner sides : Vec2 K) :
    bboxXyxy2cs (ofBlocks corner (corner + sides)) = bboxXywh2cs (ofBlocks corner sides) := by
  rw [bboxXyxy2cs, bboxXywh2cs, lowerBlock_ofBlocks, upperBlock_ofBlocks, lowerBlock_ofBlocks,
    upperBlock_ofBlocks, add_sub_cancel_left]
  congr 1
  funext i
  rw [Pi.add_apply, half_eq]
  ring

/-- The corners that `bbox_cs2xyxy` computes for a center and sides. -/
theorem bboxCs2xyxy_upper (center sides : Vec2 K) :
    bboxCs2xyxy (ofBlocks center sides) =
      ofBlocks (fun i => center i - sides i / 2) (fun i => sides i + sides i / 2) := by
  rw [bboxCs2xyxy, lowerBlock_ofBlocks, upperBlock_ofBlocks, half_eq]
  congr 1
  · funext i
    ring
  · funext i
    ring

/-! ### The round trips -/

/-- The lower corner comes back, and the upper one as half again the sides. -/
theorem bboxCs2xyxy_bboxXyxy2cs (bbox : Vec4 K) :
    bboxCs2xyxy (bboxXyxy2cs bbox) = ofBlocks (lowerBlock bbox)
      (fun i => 3 * (upperBlock bbox i - lowerBlock bbox i) / 2) := by
  rw [bboxXyxy2cs, bboxCs2xyxy_upper]
  congr 1
  · funext i
    rw [Pi.sub_apply]
    ring
  · funext i
    rw [Pi.sub_apply]
    ring

theorem bboxXyxy2cs_bboxCs2xyxy (bbox : Vec4 K) :
    bboxXyxy2cs (bboxCs2xyxy bbox) =
      ofBlocks (fun i => (lowerBlock bbox i + upperBlock bbox i) / 2)
        (fun i => 2 * upperBlock bbox i - lowerBlock bbox i) := by
  obtain ⟨a, b, rfl⟩ : ∃ a b, bbox = ofBlocks a b := ⟨_, _, (ofBlocks_eq_iff.mpr ⟨rfl, rfl⟩).symm⟩
  -- the upper corner, seen from the lower one
  have hupper : (fun i => b i + b i / 2) = (fun i => a i - b i / 2) + fun i => 2 * b i - a i := by
    funext i
    rw [Pi.add_apply]
    ring
  rw [bboxCs2xyxy_upper, hupper, bboxXyxy2cs_corners, bboxXywh2cs, half_eq]
  simp only [lowerBlock_ofBlocks, upperBlock_ofBlocks]
  congr 1
  funext i
  ring

omit [Field K] [CharZero K] in
theorem vec2_eq_iff {a b : Vec2 K} : a = b ↔ a 0 = b 0 ∧ a 1 = b 1 := by
  rw [funext_iff, Fin.forall_fin_two]

/-- One and a half times a side from `x` to `y`. -/
theorem threeHalves_eq_iff (x y : K) : 3 * (y - x) / 2 = y ↔ y = 3 * x := by
  rw [div_eq_iff two_ne_zero]
  constructor
  · intro h
    linear_combination h
  · intro h
    linear_combination h

theorem middle_eq_iff (x y : K) : (x + y) / 2 = x ↔ x = y := by
  rw [div_eq_iff two_ne_zero]
  constructor
  · intro h
    linear_combination -h
  · intro h
    linear_combination -h

omit [CharZero K] in
theorem reflected_eq_iff (x y : K) : 2 * y - x = y ↔ x = y := by
  constructor
  · intro h
    linear_combination -h
  · intro h
    linear_combination -h

/-- Each of the two functions undoes the other exactly where the center is equal to the sides;
for two corners: where the upper one is three times the lower one. -/
theorem bbox_round_trips_iff :
    (∀ bbox : Vec4 K, bboxCs2xyxy (bboxXyxy2cs bbox) = bbox ↔
      bbox 2 = 3 * bbox 0 ∧ bbox 3 = 3 * bbox 1) ∧
    ∀ bbox : Vec4 K, bboxXyxy2cs (bboxCs2xyxy bbox) = bbox ↔
      bbox 0 = bbox 2 ∧ bbox 1 = bbox 3 := by
  constructor
  · intro bbox
    rw [bboxCs2xyxy_bboxXyxy2cs, ofBlocks_eq_iff, vec2_eq_iff (b := upperBlock bbox)]
    show _ ∧ (3 * (bbox 2 - bbox 0) / 2 = bbox 2 ∧ 3 * (bbox 3 - bbox 1) / 2 = bbox 3) ↔ _
    rw [threeHalves_eq_iff, threeHalves_eq_iff]
    exact and_iff_right rfl
  · intro bbox
    rw [bboxXyxy2cs_bboxCs2xyxy, ofBlocks_eq_iff, vec2_eq_iff, vec2_eq_iff]
    show ((bbox 0 + bbox 2) / 2 = bbox 0 ∧ (bbox 1 + bbox 3) / 2 = bbox 1) ∧
      (2 * bbox 2 - bbox 0 = bbox 2 ∧ 2 * bbox 3 - bbox 1 = bbox 3) ↔ _
    rw [middle_eq_iff, middle_eq_iff, reflected_eq_iff, reflected_eq_iff, and_self]

end

theorem bbox_round_trips_iff_rat :
    bboxCs2xyxy (bboxXyxy2cs ![50, 50, 150, 150]) = (![50, 50, 150, 150] : Vec4 ℚ) :=
  ((bbox_round_trips_iff (K := ℚ)).1 _).mpr
    ⟨show (150 : ℚ) = 3 * 50 by norm_num, show (150 : ℚ) = 3 * 50 by norm_num⟩

/-- The box of the tests, from (0, 0) to (100, 100), comes back as one to (150, 150). -/
theorem bbox_not_round_trip :
    ¬ ((∀ bbox : Vec4 ℚ, bboxCs2xyxy (bboxXyxy2cs bbox) = bbox) ∧
      ∀ bbox : Vec4 ℚ, bboxXyxy2cs (bboxCs2xyxy bbox) = bbox) := by
  rintro ⟨h, -⟩
  have hupper := congrFun (h ![0, 0, 100, 100]) 2
  rw [bboxCs2xyxy_bboxXyxy2cs] at hupper
  have hvalue : (3 * (100 - 0) / 2 : ℚ) = 100 := hupper
  norm_num at hvalue

end Calculator

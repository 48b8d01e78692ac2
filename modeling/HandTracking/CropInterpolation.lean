/-
The bilinear interpolation of the perspective crop, sixteen pixels at a time.

If no lane is flagged, the vector branch reads two bytes in each of two rows; else the scalar
branch takes each pixel by itself, with zeros outside of the image.  The lanes are flagged by
coordinates that are rounded towards zero, the scalar branch rounds them down.

* `laneValue`, `scalarValue` — a pixel in the two branches, before it is rounded to a byte;
* `laneValue_eq_scalarValue_iff` — when the two are equal;
* `branchesAgree_iff` — the same for a block, and for all images of a size.

A coordinate is exact here, and so is what is computed from it.
-/
import HandTracking.CameraModel
import HandTracking.Library.FixedPoint
import Mathlib.Data.List.ReduceOption
import Mathlib.Data.Rat.Floor
import Mathlib.Tactic.LinearCombination

namespace Camera

/-- A gray image without gaps between its rows. -/
structure GrayImage where
  rows : ℕ
  cols : ℕ
  data : ℤ → ℕ

namespace GrayImage

variable (src : GrayImage)

/-- A byte of the image. -/
def Inside (offset : ℤ) : Prop := 0 ≤ offset ∧ offset < src.rows * src.cols

/-- Where a pixel lies; there is none outside of the image. -/
def offsetAt (x y : ℤ) : Option ℤ :=
  if 0 ≤ x ∧ x < src.cols ∧ 0 ≤ y ∧ y < src.rows then some (y * src.cols + x) else none

theorem inside_of_mem_offsetAt {x y offset : ℤ} (h : offset ∈ src.offsetAt x y) :
    src.Inside offset := by
  rw [offsetAt, Option.mem_def, Option.ite_none_right_eq_some] at h
  obtain ⟨⟨hx, hxc, hy, hyr⟩, heq⟩ := h
  obtain rfl := Option.some.inj heq
  have hrow : y * src.cols + src.cols ≤ src.rows * src.cols := by
    rw [← add_one_mul]
    exact mul_le_mul_of_nonneg_right (by omega) (by omega)
  have hnonneg : 0 ≤ y * src.cols := mul_nonneg hy (by omega)
  exact ⟨by omega, by omega⟩

variable {K : Type} [Field K]

/-- The byte in a column and a row, wherever it lies. -/
def byteAt (x y : ℤ) : K := src.data (y * src.cols + x)

/-- A pixel, 0 outside of the image. -/
def pixelAt (x y : ℤ) : K := ((src.offsetAt x y).elim 0 src.data : ℕ)

theorem pixelAt_inside {x y : ℤ} (hx : 0 ≤ x) (hxc : x < src.cols) (hy : 0 ≤ y)
    (hyr : y < src.rows) : src.pixelAt (K := K) x y = src.byteAt x y := by
  rw [pixelAt, offsetAt, if_pos ⟨hx, hxc, hy, hyr⟩]
  rfl

theorem pixelAt_left {x : ℤ} (hx : x < 0) (y : ℤ) : src.pixelAt (K := K) x y = 0 := by
  rw [pixelAt, offsetAt, if_neg fun h => hx.not_ge h.1]
  exact Nat.cast_zero

theorem pixelAt_above (x : ℤ) {y : ℤ} (hy : y < 0) : src.pixelAt (K := K) x y = 0 := by
  rw [pixelAt, offsetAt, if_neg fun h => hy.not_ge h.2.2.1]
  exact Nat.cast_zero

variable [LinearOrder K] [FloorRing K]

/-! ### The scalar branch -/

/-- The value of `perspective_crop_image_raw` between four pixels; outside of the image they are 0.
-/
def scalarValue (p : Vec2 K) : K :=
  let x1 := ⌊p 0⌋
  let y1 := ⌊p 1⌋
  let x2 := x1 + 1
  let y2 := y1 + 1
  let x2Weight := p 0 - x1
  let y2Weight := p 1 - y1
  let x1Weight := 1 - x2Weight
  let y1Weight := 1 - y2Weight
  (src.pixelAt x1 y1 * x1Weight + src.pixelAt x2 y1 * x2Weight) * y1Weight +
    (src.pixelAt x1 y2 * x1Weight + src.pixelAt x2 y2 * x2Weight) * y2Weight

/-- The bytes that are read for it; instead of one outside it reads a zero of its own. -/
def scalarReads (p : Vec2 K) : List ℤ :=
  let x1 := ⌊p 0⌋
  let y1 := ⌊p 1⌋
  [src.offsetAt x1 y1, src.offsetAt (x1 + 1) y1, src.offsetAt x1 (y1 + 1),
    src.offsetAt (x1 + 1) (y1 + 1)].reduceOption

/-! ### The vector branch -/

/-- `v_is_overflow` in a lane; `vcvtq_s32_f32` and `vrndq_f32` round towards zero. -/
def IsOverflow (p : Vec2 K) : Prop :=
  towardsZero (p 0) < 0 ∨ (src.cols : ℤ) - 1 ≤ towardsZero (p 0) ∨ towardsZero (p 1) < 0 ∨
    (src.rows : ℤ) - 1 ≤ towardsZero (p 1)

instance (p : Vec2 K) : Decidable (src.IsOverflow p) :=
  inferInstanceAs (Decidable (_ ∨ _ ∨ _ ∨ _))

/-- The index of the pixel above and to the left, with the conversion of the vector registers. -/
def laneOffset (p : Vec2 K) : ℤ := towardsZero (p 0) + towardsZero (p 1) * src.cols

/-- The value of `perspective_crop_image` between the four pixels from there. -/
def laneValue (p : Vec2 K) : K :=
  let offset := src.laneOffset p
  let wx1 := p 0 - towardsZero (p 0)
  let wy1 := p 1 - towardsZero (p 1)
  let wx0 := 1 - wx1
  let wy0 := 1 - wy1
  (wx0 * src.data offset + wx1 * src.data (offset + 1)) * wy0 +
    wy1 * (wx0 * src.data (offset + src.cols) + wx1 * src.data (offset + src.cols + 1))

/-- The indices that it reads. -/
def laneReads (p : Vec2 K) : List ℤ :=
  let offset := src.laneOffset p
  [offset, offset + 1, offset + src.cols, offset + src.cols + 1]

/-! ### The block -/

/-- The bilinear values of sixteen pixels. -/
def bilinearBlock (coords : Fin 16 → Vec2 K) : Fin 16 → K :=
  if ∃ i, src.IsOverflow (coords i) then fun i => src.scalarValue (coords i)
  else fun i => src.laneValue (coords i)

/-- The bytes that are read for a pixel of the block. -/
def blockReads (coords : Fin 16 → Vec2 K) (i : Fin 16) : List ℤ :=
  if ∃ i, src.IsOverflow (coords i) then src.scalarReads (coords i)
  else src.laneReads (coords i)

/-- The block has the values of the scalar branch, and both branches read bytes of the image. -/
def BranchesAgree (coords : Fin 16 → Vec2 K) : Prop :=
  src.bilinearBlock coords = (fun i => src.scalarValue (coords i)) ∧
    ∀ i, (∀ offset ∈ src.scalarReads (coords i), src.Inside offset) ∧
      ∀ offset ∈ src.blockReads coords i, src.Inside offset

/-! ### The bytes -/

theorem inside_of_mem_scalarReads {p : Vec2 K} {offset : ℤ} (h : offset ∈ src.scalarReads p) :
    src.Inside offset := by
  rw [scalarReads, List.reduceOption_mem_iff] at h
  simp only [List.mem_cons, List.not_mem_nil, or_false] at h
  rcases h with h | h | h | h
  all_goals exact src.inside_of_mem_offsetAt h.symm

/-- A lane that is not flagged has a next column and a next row. -/
theorem not_isOverflow_iff {p : Vec2 K} : ¬ src.IsOverflow p ↔
    (0 ≤ towardsZero (p 0) ∧ towardsZero (p 0) + 1 < src.cols) ∧
      0 ≤ towardsZero (p 1) ∧ towardsZero (p 1) + 1 < src.rows := by
  rw [IsOverflow]
  omega

theorem inside_of_mem_laneReads {p : Vec2 K} (hp : ¬ src.IsOverflow p) {offset : ℤ}
    (h : offset ∈ src.laneReads p) : src.Inside offset := by
  obtain ⟨⟨hx, hxc⟩, hy, hyr⟩ := src.not_isOverflow_iff.mp hp
  have hrows : (towardsZero (p 1) + 2) * (src.cols : ℤ) ≤ src.rows * src.cols :=
    mul_le_mul_of_nonneg_right (by omega) (by omega)
  have hnonneg : 0 ≤ towardsZero (p 1) * (src.cols : ℤ) := mul_nonneg hy (by omega)
  rw [add_mul] at hrows
  simp only [laneReads, laneOffset, List.mem_cons, List.not_mem_nil, or_false] at h
  rcases h with rfl | rfl | rfl | rfl
  all_goals exact ⟨by omega, by omega⟩

/-! ### The values -/

section Values

variable [IsStrictOrderedRing K]

/-- The bilinear value of four pixels. -/
def interpolate (d : ℤ → ℤ → K) (x y : ℤ) (p : Vec2 K) : K :=
  (d x y * (1 - (p 0 - x)) + d (x + 1) y * (p 0 - x)) * (1 - (p 1 - y)) +
    (d x (y + 1) * (1 - (p 0 - x)) + d (x + 1) (y + 1) * (p 0 - x)) * (p 1 - y)

omit [IsStrictOrderedRing K] in
theorem scalarValue_eq (p : Vec2 K) :
    src.scalarValue p = interpolate src.pixelAt ⌊p 0⌋ ⌊p 1⌋ p := rfl

omit [IsStrictOrderedRing K] in
theorem laneValue_eq (p : Vec2 K) :
    src.laneValue p = interpolate src.byteAt (towardsZero (p 0)) (towardsZero (p 1)) p := by
  have hoffset : src.laneOffset p = towardsZero (p 1) * src.cols + towardsZero (p 0) :=
    add_comm _ _
  have hbelow : src.laneOffset p + src.cols =
      (towardsZero (p 1) + 1) * src.cols + towardsZero (p 0) := by
    rw [hoffset]
    ring
  rw [laneValue, interpolate, hbelow, hoffset]
  simp only [byteAt, add_assoc]
  ring

/-- The difference of the branches at a pixel, by the bytes around it: nothing where the
coordinates are not negative.  Left of the first column the vector branch extends the line through
the first two bytes, the scalar branch the one to 0. -/
def BorderBalanced (p : Vec2 K) : Prop :=
  let d : ℤ → ℤ → K := src.byteAt
  let x := ⌊p 0⌋
  let y := ⌊p 1⌋
  if p 0 < 0 then
    if p 1 < 0 then
      p 0 * (1 - p 1) * d 1 0 + p 1 * (1 - p 0) * d 0 1 + p 0 * p 1 * d 1 1 =
        2 * (p 0 + p 1) * d 0 0
    else (d 1 y - 2 * d 0 y) * (1 - (p 1 - y)) + (d 1 (y + 1) - 2 * d 0 (y + 1)) * (p 1 - y) = 0
  else
    p 1 < 0 →
      (d x 1 - 2 * d x 0) * (1 - (p 0 - x)) + (d (x + 1) 1 - 2 * d (x + 1) 0) * (p 0 - x) = 0

variable {p : Vec2 K} (hp : ¬ src.IsOverflow p)

include hp

theorem laneValue_eq_scalarValue_iff :
    src.laneValue p = src.scalarValue p ↔ src.BorderBalanced p := by
  obtain ⟨⟨hx, hxc⟩, hy, hyr⟩ := src.not_isOverflow_iff.mp hp
  rw [laneValue_eq, scalarValue_eq, BorderBalanced]
  have hinside : ∀ {x y : ℤ}, 0 ≤ x → x < src.cols → 0 ≤ y → y < src.rows →
      src.pixelAt (K := K) x y = src.byteAt x y := src.pixelAt_inside
  have hleft : ∀ y, src.pixelAt (K := K) (-1) y = 0 := src.pixelAt_left (by decide)
  have habove : ∀ x, src.pixelAt (K := K) x (-1) = 0 := fun x => src.pixelAt_above x (by decide)
  -- the branches differ left of the image and above it, where they round to different pixels
  split_ifs with hx0 hy0
  · obtain ⟨htx, hfx⟩ := towardsZero_of_neg hx0 hx
    obtain ⟨hty, hfy⟩ := towardsZero_of_neg hy0 hy
    rw [htx, hfx, hty, hfy, interpolate, interpolate, neg_add_cancel, zero_add,
      hleft, habove, hleft,
      hinside le_rfl (by omega) le_rfl (by omega), Int.cast_zero, Int.cast_neg, Int.cast_one]
    constructor
    · intro h
      linear_combination h
    · intro h
      linear_combination h
  · obtain ⟨htx, hfx⟩ := towardsZero_of_neg hx0 hx
    rw [towardsZero_of_nonneg (not_lt.mp hy0)] at hy hyr ⊢
    rw [htx, hfx, interpolate, interpolate, neg_add_cancel, zero_add, hleft, hleft,
      hinside le_rfl (by omega) hy (by omega),
      hinside le_rfl (by omega) (by omega) hyr, Int.cast_zero, Int.cast_neg, Int.cast_one]
    constructor
    · intro h
      apply mul_left_cancel₀ hx0.ne
      linear_combination h
    · intro h
      linear_combination p 0 * h
  · rw [towardsZero_of_nonneg (not_lt.mp hx0)] at hx hxc ⊢
    by_cases hy0 : p 1 < 0
    · obtain ⟨hty, hfy⟩ := towardsZero_of_neg hy0 hy
      rw [hty, hfy, interpolate, interpolate, neg_add_cancel, zero_add, habove, habove,
        hinside hx (by omega) le_rfl (by omega),
        hinside (by omega) hxc le_rfl (by omega), Int.cast_zero, Int.cast_neg, Int.cast_one]
      refine Iff.trans ⟨fun h => ?_, fun h => ?_⟩ (forall_prop_of_true hy0).symm
      · apply mul_left_cancel₀ hy0.ne
        linear_combination h
      · linear_combination p 1 * h
    · rw [towardsZero_of_nonneg (not_lt.mp hy0)] at hy hyr ⊢
      refine iff_of_true ?_ fun hneg => absurd hneg hy0
      rw [interpolate, interpolate, hinside hx (by omega) hy (by omega),
        hinside (by omega) hxc hy (by omega), hinside hx (by omega) (by omega) hyr,
        hinside (by omega) hxc (by omega) hyr]

/-- In an image of ones only pixels that are not left of it or above it are balanced. -/
theorem nonneg_of_balanced_ones
    (h : BorderBalanced { src with data := fun _ => 1 } p) : 0 ≤ p 0 ∧ 0 ≤ p 1 := by
  obtain ⟨⟨hx, -⟩, hy, -⟩ := src.not_isOverflow_iff.mp hp
  rw [BorderBalanced] at h
  simp only [byteAt, Nat.cast_one] at h
  split_ifs at h with hx0 hy0
  · have hlow : ∀ {z : K}, z < 0 → 0 ≤ towardsZero z → 0 ≤ 1 + z := by
      intro z hz hzero
      have hfloor := Int.floor_le z
      rw [(towardsZero_of_neg hz hzero).2, Int.cast_neg, Int.cast_one] at hfloor
      linarith
    have hproduct : (1 + p 0) * (1 + p 1) < 1 :=
      mul_lt_one_of_nonneg_of_lt_one_left (hlow hx0 hx) (by linarith) (by linarith)
    linarith
  · linarith
  · refine ⟨not_lt.mp hx0, not_lt.mp fun hy0 => ?_⟩
    linarith [h hy0]

end Values

/-! ### All sixteen -/

section Block

variable (coords : Fin 16 → Vec2 K)

theorem balanced_of_nonneg {p : Vec2 K} (h : 0 ≤ p 0 ∧ 0 ≤ p 1) : src.BorderBalanced p := by
  rw [BorderBalanced, if_neg h.1.not_gt]
  exact fun hneg => absurd hneg h.2.not_gt

/-- The branch for the whole block, from what its lanes do. -/
theorem branchesAgree_iff_values :
    src.BranchesAgree coords ↔ (∃ i, src.IsOverflow (coords i)) ∨
      ∀ i, src.laneValue (coords i) = src.scalarValue (coords i) := by
  have hscalar : ∀ i, ∀ offset ∈ src.scalarReads (coords i), src.Inside offset :=
    fun i offset h => src.inside_of_mem_scalarReads h
  by_cases hover : ∃ i, src.IsOverflow (coords i)
  · refine iff_of_true ⟨if_pos hover, fun i => ⟨hscalar i, ?_⟩⟩ (.inl hover)
    rw [blockReads, if_pos hover]
    exact hscalar i
  · have hlane : ∀ i, ∀ offset ∈ src.blockReads coords i, src.Inside offset := by
      intro i
      rw [blockReads, if_neg hover]
      exact fun offset h => src.inside_of_mem_laneReads (fun hi => hover ⟨i, hi⟩) h
    rw [BranchesAgree, bilinearBlock, if_neg hover, or_iff_right hover]
    exact ⟨fun h => congrFun h.1, fun h => ⟨funext h, fun i => ⟨hscalar i, hlane i⟩⟩⟩

variable [IsStrictOrderedRing K]

theorem branchesAgree_iff_balanced :
    src.BranchesAgree coords ↔
      (∃ i, src.IsOverflow (coords i)) ∨ ∀ i, src.BorderBalanced (coords i) := by
  rw [branchesAgree_iff_values]
  by_cases hover : ∃ i, src.IsOverflow (coords i)
  · exact iff_of_true (.inl hover) (.inl hover)
  · rw [or_iff_right hover, or_iff_right hover]
    exact forall_congr' fun i => src.laneValue_eq_scalarValue_iff fun hi => hover ⟨i, hi⟩

/-- **A block that goes through the vector branch has the values of the scalar branch** exactly if
the bytes at the border balance where a coordinate is negative; in all images of a size, exactly if
no coordinate is negative.  Both branches read bytes of the image only. -/
theorem branchesAgree_iff :
    (src.BranchesAgree coords ↔
      (∃ i, src.IsOverflow (coords i)) ∨ ∀ i, src.BorderBalanced (coords i)) ∧
    ((∀ data, BranchesAgree { src with data := data } coords) ↔
      (∃ i, src.IsOverflow (coords i)) ∨ ∀ i, 0 ≤ coords i 0 ∧ 0 ≤ coords i 1) := by
  refine ⟨src.branchesAgree_iff_balanced coords, fun h => ?_, fun h data => ?_⟩
  · have hones := (branchesAgree_iff_balanced _ coords).mp (h fun _ => 1)
    by_cases hover : ∃ i, src.IsOverflow (coords i)
    · exact .inl hover
    · refine .inr fun i => src.nonneg_of_balanced_ones (fun hi => hover ⟨i, hi⟩) ?_
      exact (or_iff_right hover).mp hones i
  · refine (branchesAgree_iff_balanced _ coords).mpr (h.imp_right fun hnonneg i => ?_)
    exact balanced_of_nonneg _ (hnonneg i)

end Block

/-! ### Left of a white image -/

/-- A white image of two rows and two columns. -/
def white : GrayImage := ⟨2, 2, fun _ => 255⟩

/-- Sixteen times half a pixel left of the first. -/
def halfLeft : Fin 16 → Vec2 ℚ := fun _ => ![-1 / 2, 0]

theorem branchesAgree_iff_white :
    (white.BranchesAgree halfLeft ↔
      (∃ i, white.IsOverflow (halfLeft i)) ∨ ∀ i, white.BorderBalanced (halfLeft i)) ∧
    ((∀ data, BranchesAgree { white with data := data } halfLeft) ↔
      (∃ i, white.IsOverflow (halfLeft i)) ∨ ∀ i, 0 ≤ halfLeft i 0 ∧ 0 ≤ halfLeft i 1) :=
  white.branchesAgree_iff halfLeft

/-- The vector branch makes white of a pixel that is half outside. -/
theorem white_values (i : Fin 16) :
    ¬ white.IsOverflow (halfLeft i) ∧ white.laneValue (halfLeft i) = 255 ∧
      white.scalarValue (halfLeft i) = 255 / 2 := by
  show ¬ white.IsOverflow (![-1 / 2, 0] : Vec2 ℚ) ∧ white.laneValue (![-1 / 2, 0] : Vec2 ℚ) = 255 ∧
    white.scalarValue (![-1 / 2, 0] : Vec2 ℚ) = 255 / 2
  decide +kernel

theorem white_branches_differ : ¬ white.BranchesAgree halfLeft := by
  intro h
  rcases (white.branchesAgree_iff_values _).mp h with ⟨i, hover⟩ | hvalues
  · exact (white_values i).1 hover
  · have hequal := hvalues 0
    rw [(white_values 0).2.1, (white_values 0).2.2] at hequal
    norm_num at hequal

end GrayImage

end Camera

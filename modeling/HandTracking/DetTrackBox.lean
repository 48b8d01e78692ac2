/-
The boxes of `HandDetTrackCalculator`: the box around some keypoints, and the check that
enough of a box is in the image.

* `kptsToBbox_tight_iff` — the box is tight exactly if some coordinates are not below
  `FLT_MIN`, from which the maxima start;
* `checkIfRectValid_iff_area` — the check compares the true area exactly if it is not deceived
  by a square that misses the image in both directions: the product of two negative lengths is
  positive.
-/
import HandTracking.HandDetTrack
import HandTracking.Library.Rectangle
import Mathlib.Tactic.Linarith

namespace Calculator

open Camera Landmark

/-! ### The least and the greatest coordinate -/

section Fold

variable {α β : Type*} [LinearOrder β] (f : α → β)

theorem foldl_min_le_start (l : List α) (m : β) : l.foldl (fun m a => min m (f a)) m ≤ m := by
  induction l generalizing m with
  | nil => exact le_rfl
  | cons a l ih => exact (ih _).trans (min_le_left _ _)

theorem foldl_min_le {l : List α} {a : α} (ha : a ∈ l) (m : β) :
    l.foldl (fun m a => min m (f a)) m ≤ f a := by
  induction l generalizing m with
  | nil => cases ha
  | cons b l ih =>
    rcases List.mem_cons.mp ha with rfl | ha
    · exact (foldl_min_le_start f l _).trans (min_le_right _ _)
    · exact ih ha _

theorem foldl_min_eq (l : List α) (m : β) :
    l.foldl (fun m a => min m (f a)) m = m ∨ ∃ a ∈ l, l.foldl (fun m a => min m (f a)) m = f a := by
  induction l generalizing m with
  | nil => exact .inl rfl
  | cons b l ih =>
    rcases ih (min m (f b)) with h | ⟨a, ha, h⟩
    · rw [List.foldl_cons, h]
      rcases min_choice m (f b) with hm | hb
      · exact .inl hm
      · exact .inr ⟨b, List.mem_cons_self, hb⟩
    · exact .inr ⟨a, List.mem_cons_of_mem _ ha, h⟩

/-- The least value is taken exactly if the start is not below all of them. -/
theorem foldl_min_taken_iff (l : List α) (m : β) :
    (∃ a ∈ l, f a = l.foldl (fun m a => min m (f a)) m) ↔ ∃ a ∈ l, f a ≤ m := by
  constructor
  · rintro ⟨a, ha, h⟩
    exact ⟨a, ha, h.trans_le (foldl_min_le_start f l m)⟩
  · rintro ⟨a, ha, hle⟩
    rcases foldl_min_eq f l m with h | ⟨b, hb, h⟩
    · -- then `a` has the value of the start
      exact ⟨a, ha, (hle.trans h.ge).antisymm (foldl_min_le f ha m)⟩
    · exact ⟨b, hb, h.symm⟩

theorem le_foldl_max {l : List α} {a : α} (ha : a ∈ l) (m : β) :
    f a ≤ l.foldl (fun m a => max m (f a)) m :=
  foldl_min_le (β := βᵒᵈ) f ha m

theorem foldl_max_taken_iff (l : List α) (m : β) :
    (∃ a ∈ l, f a = l.foldl (fun m a => max m (f a)) m) ↔ ∃ a ∈ l, m ≤ f a :=
  foldl_min_taken_iff (β := βᵒᵈ) f l m

end Fold

/-! ### The box around some points -/

section Tight

variable {K : Type} [Field K] [LinearOrder K]

/-- All points are in the box, and each of its sides touches one. -/
structure Tight (kps : List (Vec2 K)) (r : DetectRect K) : Prop where
  inside : ∀ p ∈ kps, (r.x ≤ p 0 ∧ p 0 ≤ r.x + r.w) ∧ r.y ≤ p 1 ∧ p 1 ≤ r.y + r.h
  left : ∃ p ∈ kps, p 0 = r.x
  right : ∃ p ∈ kps, p 0 = r.x + r.w
  top : ∃ p ∈ kps, p 1 = r.y
  bottom : ∃ p ∈ kps, p 1 = r.y + r.h

variable (kps : List (Vec2 K))

theorem kptsToBbox_right : (kptsToBbox kps).x + (kptsToBbox kps).w =
    kps.foldl (fun m p => max m (p 0)) fltMin :=
  add_sub_cancel _ _

theorem kptsToBbox_bottom : (kptsToBbox kps).y + (kptsToBbox kps).h =
    kps.foldl (fun m p => max m (p 1)) fltMin :=
  add_sub_cancel _ _

theorem kptsToBbox_inside {p : Vec2 K} (hp : p ∈ kps) :
    ((kptsToBbox kps).x ≤ p 0 ∧ p 0 ≤ (kptsToBbox kps).x + (kptsToBbox kps).w) ∧
      (kptsToBbox kps).y ≤ p 1 ∧ p 1 ≤ (kptsToBbox kps).y + (kptsToBbox kps).h := by
  rw [kptsToBbox_right, kptsToBbox_bottom]
  exact ⟨⟨foldl_min_le (fun p : Vec2 K => p 0) hp _, le_foldl_max (fun p : Vec2 K => p 0) hp _⟩,
    foldl_min_le (fun p : Vec2 K => p 1) hp _, le_foldl_max (fun p : Vec2 K => p 1) hp _⟩

/-- **When the box is tight.**  No `float` is above `FLT_MAX`, but those below `FLT_MIN` are all
that are not positive. -/
theorem kptsToBbox_tight_iff :
    Tight kps (kptsToBbox kps) ↔
      (∃ p ∈ kps, fltMin ≤ p 0) ∧ (∃ p ∈ kps, fltMin ≤ p 1) ∧
        (∃ p ∈ kps, p 0 ≤ fltMax) ∧ ∃ p ∈ kps, p 1 ≤ fltMax := by
  have hleft := foldl_min_taken_iff (fun p : Vec2 K => p 0) kps fltMax
  have hright := foldl_max_taken_iff (fun p : Vec2 K => p 0) kps fltMin
  have htop := foldl_min_taken_iff (fun p : Vec2 K => p 1) kps fltMax
  have hbottom := foldl_max_taken_iff (fun p : Vec2 K => p 1) kps fltMin
  rw [← kptsToBbox_right] at hright
  rw [← kptsToBbox_bottom] at hbottom
  constructor
  · intro h
    exact ⟨hright.mp h.right, hbottom.mp h.bottom, hleft.mp h.left, htop.mp h.top⟩
  · rintro ⟨hr, hb, hl, ht⟩
    exact ⟨fun p hp => kptsToBbox_inside kps hp, hleft.mpr hl, hright.mpr hr, htop.mpr ht,
      hbottom.mpr hb⟩

end Tight

/-- A keypoint to the left of the image and above it: the box reaches to its corner. -/
theorem not_tight_of_negative : ¬ Tight [![-1, -1]] (kptsToBbox [![(-1 : ℝ), -1]]) := by
  intro h
  obtain ⟨p, hp, hright⟩ := h.right
  obtain rfl := List.mem_singleton.mp hp
  rw [kptsToBbox_right] at hright
  -- the greatest coordinate is that of the start
  have hpos : (0 : ℝ) < fltMin := by norm_num [fltMin]
  have hmax : (fltMin : ℝ) ≤ max fltMin (-1) := le_max_left _ _
  have hneg : (-1 : ℝ) = max fltMin (-1) := hright
  linarith

/-! ### The part of a box in the image -/

/-- `rect_size` -/
def rectSize {K : Type} [LinearOrder K] (r : DetectRect K) : K := max r.w r.h

/-- `new_x` -/
def newX {K : Type} [Field K] [LinearOrder K] (r : DetectRect K) : K :=
  r.x + r.w / 2 - rectSize r / 2

/-- `new_y` -/
def newY {K : Type} [Field K] [LinearOrder K] (r : DetectRect K) : K :=
  r.y + r.h / 2 - rectSize r / 2

/-- The points of the square around a box. -/
def square (r : DetectRect ℝ) : Set (ℝ × ℝ) :=
  Plane.rectangle (newX r) (newX r + rectSize r) (newY r) (newY r + rectSize r)

/-- The points of the image. -/
def image (maxWidth maxHeight : ℝ) : Set (ℝ × ℝ) := Plane.rectangle 0 maxWidth 0 maxHeight

/-- How far the interval of length `size` from `start` is away from that from 0 to `limit`: it
is positive exactly if they are apart. -/
def gap {K : Type} [Field K] [LinearOrder K] (limit start size : K) : K :=
  max (start - limit) (-(start + size))

/-- The square misses the image in both directions, and so far that the product of the two
distances passes for an area; and the box is large enough. -/
def Deceives (r : DetectRect ℝ) (maxWidth maxHeight bboxInImageRatioTh minBboxArea : ℝ) : Prop :=
  (0 < gap maxWidth (newX r) (rectSize r) ∧ 0 < gap maxHeight (newY r) (rectSize r)) ∧
    bboxInImageRatioTh * (rectSize r * rectSize r + 1 / 10) <
      gap maxWidth (newX r) (rectSize r) * gap maxHeight (newY r) (rectSize r) ∧
    minBboxArea < r.w * r.h

/-- The length that the code computes for one direction. -/
def validLength {K : Type} [Field K] [LinearOrder K] (limit start size : K) : K :=
  min limit (start + size) - max 0 start

section Area

variable {r : DetectRect ℝ} {maxWidth maxHeight bboxInImageRatioTh minBboxArea : ℝ}

theorem checkIfRectValid_iff :
    checkIfRectValid r maxWidth maxHeight bboxInImageRatioTh minBboxArea = true ↔
      bboxInImageRatioTh < validLength maxWidth (newX r) (rectSize r) *
          validLength maxHeight (newY r) (rectSize r) / (rectSize r * rectSize r + 1 / 10) ∧
        minBboxArea < r.w * r.h :=
  decide_eq_true_iff

theorem area_square_inter_image :
    Plane.area (square r ∩ image maxWidth maxHeight) =
      max (validLength maxWidth (newX r) (rectSize r)) 0 *
        max (validLength maxHeight (newY r) (rectSize r)) 0 := by
  rw [square, image, Plane.rectangle_inter, Plane.area_rectangle, validLength, validLength,
    max_comm (newX r), max_comm (newY r), min_comm _ maxWidth, min_comm _ maxHeight]

/-- Where the interval misses the image its length is the gap, with the wrong sign. -/
theorem validLength_of_gap_pos {limit start size : ℝ} (hlimit : 0 ≤ limit) (hsize : 0 ≤ size)
    (h : 0 < gap limit start size) : validLength limit start size = -gap limit start size := by
  rcases lt_max_iff.mp h with hright | hleft
  · have hgap : gap limit start size = start - limit := max_eq_left (by linarith)
    rw [hgap, validLength, min_eq_left (by linarith), max_eq_right (by linarith)]
    ring
  · have hgap : gap limit start size = -(start + size) := max_eq_right (by linarith)
    rw [hgap, validLength, min_eq_right (by linarith), max_eq_left (by linarith)]
    ring

theorem validLength_nonneg {limit start size : ℝ} (hlimit : 0 ≤ limit) (hsize : 0 ≤ size)
    (h : gap limit start size ≤ 0) : 0 ≤ validLength limit start size := by
  obtain ⟨hright, hleft⟩ := max_le_iff.mp h
  refine sub_nonneg.mpr (max_le (le_min hlimit ?_) (le_min ?_ ?_))
  · linarith
  · linarith
  · linarith

/-- With one length that is not negative the product is as good as the area. -/
theorem lt_mul_iff_of_nonneg {th d u v : ℝ} (hth : 0 < th) (hd : 0 < d) (hu : 0 ≤ u) :
    th < u * v / d ↔ th < max u 0 * max v 0 / d := by
  rw [max_eq_left hu]
  rcases le_total 0 v with hv | hv
  · rw [max_eq_left hv]
  · -- neither quotient is positive
    have hneg : u * v / d ≤ 0 :=
      div_nonpos_of_nonpos_of_nonneg (mul_nonpos_of_nonneg_of_nonpos hu hv) hd.le
    rw [max_eq_right hv, mul_zero, zero_div]
    exact iff_of_false (not_lt.mpr (hneg.trans hth.le)) (not_lt.mpr hth.le)

/-- **When the check compares the true area.** -/
theorem checkIfRectValid_iff_area (hw : 0 ≤ r.w) (hwidth : 0 ≤ maxWidth) (hheight : 0 ≤ maxHeight)
    (hratio : 0 < bboxInImageRatioTh) :
    (checkIfRectValid r maxWidth maxHeight bboxInImageRatioTh minBboxArea = true ↔
      bboxInImageRatioTh < Plane.area (square r ∩ image maxWidth maxHeight) /
          (rectSize r * rectSize r + 1 / 10) ∧ minBboxArea < r.w * r.h) ↔
      ¬ Deceives r maxWidth maxHeight bboxInImageRatioTh minBboxArea := by
  have hsize : 0 ≤ rectSize r := hw.trans (le_max_left _ _)
  have hdenom : 0 < rectSize r * rectSize r + 1 / 10 := by positivity
  rw [checkIfRectValid_iff, area_square_inter_image, Deceives]
  by_cases hx : 0 < gap maxWidth (newX r) (rectSize r)
  · by_cases hy : 0 < gap maxHeight (newY r) (rectSize r)
    · -- the true area is 0, so that the box has to be rejected
      rw [validLength_of_gap_pos hwidth hsize hx, validLength_of_gap_pos hheight hsize hy,
        max_eq_right (neg_nonpos.mpr hx.le), zero_mul, zero_div, neg_mul_neg, lt_div_iff₀ hdenom]
      have hno : ¬ (bboxInImageRatioTh < 0 ∧ minBboxArea < r.w * r.h) :=
        fun h => absurd h.1 (not_lt.mpr hratio.le)
      rw [iff_false_right hno]
      exact not_congr ⟨fun h => ⟨⟨hx, hy⟩, h⟩, fun h => h.2⟩
    -- the height is not negative, so a negative width cannot deceive
    · have hv := validLength_nonneg hheight hsize (not_lt.mp hy)
      rw [mul_comm (validLength _ _ _), mul_comm (max _ _),
        ← lt_mul_iff_of_nonneg hratio hdenom hv]
      exact iff_of_true Iff.rfl fun h => hy h.1.2
  · have hv := validLength_nonneg hwidth hsize (not_lt.mp hx)
    rw [← lt_mul_iff_of_nonneg hratio hdenom hv]
    exact iff_of_true Iff.rfl fun h => hx h.1.1

end Area

/-- A box to the right of an image and below it. -/
def outsideBox : DetectRect ℝ := ⟨1000, 1000, 20, 20⟩

theorem checkIfRectValid_iff_area_outsideBox :
    (checkIfRectValid outsideBox 640 480 (8 / 10) 100 = true ↔
      (8 / 10 : ℝ) < Plane.area (square outsideBox ∩ image 640 480) /
          (rectSize outsideBox * rectSize outsideBox + 1 / 10) ∧
        100 < outsideBox.w * outsideBox.h) ↔
      ¬ Deceives outsideBox 640 480 (8 / 10) 100 :=
  checkIfRectValid_iff_area (by norm_num [outsideBox]) (by norm_num) (by norm_num) (by norm_num)

/-- The box is valid, and its square has no point in common with the image. -/
theorem outsideBox_valid :
    ¬ (checkIfRectValid outsideBox 640 480 (8 / 10) 100 = true ↔
      (8 / 10 : ℝ) < Plane.area (square outsideBox ∩ image 640 480) /
          (rectSize outsideBox * rectSize outsideBox + 1 / 10) ∧
        100 < outsideBox.w * outsideBox.h) := by
  have hsize : rectSize outsideBox = 20 := max_self _
  have hx : newX outsideBox = 1000 := by
    rw [newX, hsize]
    norm_num [outsideBox]
  have hy : newY outsideBox = 1000 := by
    rw [newY, hsize]
    norm_num [outsideBox]
  rw [checkIfRectValid_iff, area_square_inter_image, hx, hy, hsize]
  norm_num [validLength, outsideBox]

end Calculator

/-
The upright crop of a hand: where a point of the image comes to lie in the crop, and back.

* `getAffineTransform` — the transform of `generate_roi_image`, by three pairs of points, and
  `cropPoint` — where the network sees a point of the image;
* `apply_eq_of_agree` — three points that are not on a line determine a transform;
* `apply_generateRoiImage` — both axes are scaled by the width of the crop;
* `keypointBack_cropPoint_iff` — when a point comes back: the way back scales the axes apart;
* `published_iff` — the same for what the two calculators publish.

The trigonometric functions and the transform of the image library are parameters.
-/
import HandTracking.HandLandmark
import HandTracking.OneEuroFilter
import Mathlib.Tactic.FieldSimp
import Mathlib.Tactic.LinearCombination

namespace Landmark

open Camera Calculator

variable {K : Type} [Field K]

/-- A matrix of two rows and three columns. -/
abbrev WarpMat (K : Type) := Fin 2 → Fin 3 → K

/-- Where `warpAffine` brings a point. -/
def WarpMat.apply (m : WarpMat K) (p : Vec2 K) : Vec2 K :=
  fun i => m i 0 * p 0 + m i 1 * p 1 + m i 2

/-- Twice the area of a triangle; it is 0 where its points are on a line. -/
def cross (p : Fin 3 → Vec2 K) : K :=
  (p 1 0 - p 0 0) * (p 2 1 - p 0 1) - (p 1 1 - p 0 1) * (p 2 0 - p 0 0)

/-- `cv::getAffineTransform` brings each point of the first triangle to that of the second, if
there is a transform that does. -/
structure WarpLib (K : Type) [Field K] where
  sin : K → K
  cos : K → K
  sin_zero : sin 0 = 0
  cos_zero : cos 0 = 1
  getAffineTransform : (Fin 3 → Vec2 K) → (Fin 3 → Vec2 K) → WarpMat K
  apply_getAffineTransform : ∀ src dst, cross src ≠ 0 →
    ∀ i, (getAffineTransform src dst).apply (src i) = dst i

/-- The second coordinate is turned like no rotation does, which shows only where the first is
not 0. -/
def getDir (lib : WarpLib K) (srcPoint : Vec2 K) (rotRad : K) : Vec2 K :=
  let sn := lib.sin rotRad
  let cs := lib.cos rotRad
  ![srcPoint 0 * cs - srcPoint 1 * sn, srcPoint 1 * sn + srcPoint 1 * cs]

/-- `get_3rd_point` -/
def get3rdPoint (a b : Vec2 K) : Vec2 K := ![b 0 + b 1 - a 1, b 1 + a 0 - b 0]

/-- `get_affine_transform`, from three points of the box to three of the crop. -/
def getAffineTransform (lib : WarpLib K) (bboxCs : BboxCs K) (shift : Vec2 K) (rot : K)
    (outputH outputW : ℕ) (inv : Bool) : WarpMat K :=
  let rotRad := rot * Predictor.mPi / 180
  let srcP : Vec2 K := ![0, bboxCs.scale 0 * (-1 / 2)]
  let dstP : Vec2 K := ![0, outputW * (-1 / 2)]
  let srcDir := getDir lib srcP rotRad
  let dstDir := getDir lib dstP rotRad
  let src0 : Vec2 K := ![bboxCs.center 0 + bboxCs.scale 0 * shift 0,
    bboxCs.center 1 + bboxCs.scale 1 * shift 1]
  let src1 : Vec2 K := ![bboxCs.center 0 + srcDir 0 + bboxCs.scale 0 * shift 0,
    bboxCs.center 1 + srcDir 1 + bboxCs.scale 1 * shift 1]
  let dst0 : Vec2 K := ![outputW * (1 / 2), outputH * (1 / 2)]
  let dst1 : Vec2 K := ![outputW * (1 / 2) + dstDir 0, outputH * (1 / 2) + dstDir 1]
  let dst := ![dst0, dst1, get3rdPoint dst0 dst1]
  let src := ![src0, src1, get3rdPoint src0 src1]
  if inv then lib.getAffineTransform dst src else lib.getAffineTransform src dst

/-- The transform of `generate_roi_image`. -/
def generateRoiImage (lib : WarpLib K) (bboxCs : BboxCs K) (outputWidth outputHeight : ℕ) :
    WarpMat K :=
  getAffineTransform lib bboxCs 0 0 outputHeight outputWidth false

/-- Where the network sees a point of the image: the crop of a left hand is mirrored. -/
def cropPoint [LinearOrder K] (lib : WarpLib K) (cfg : LandmarkConfig K) (hand : Hand)
    (rect : BboxCs K) (p : Vec2 K) : Vec2 K :=
  let q := (generateRoiImage lib rect cfg.inputWidth cfg.inputHeight).apply p
  match hand with
  | .left => ![cfg.inputWidth - 1 - q 0, q 1]
  | .right => q

/-! ### What determines a transform -/

theorem apply_eq_of_agree {m m' : WarpMat K} {p : Fin 3 → Vec2 K} (hp : cross p ≠ 0)
    (h : ∀ i, m.apply (p i) = m'.apply (p i)) (q : Vec2 K) : m.apply q = m'.apply q := by
  funext i
  have h0 := congrFun (h 0) i
  have h1 := congrFun (h 1) i
  have h2 := congrFun (h 2) i
  simp only [WarpMat.apply] at h0 h1 h2 ⊢
  -- the difference of the transforms is 0 in both directions, and then everywhere
  have hx : cross p * (m i 0 - m' i 0) = 0 := by
    rw [cross]
    linear_combination (p 2 1 - p 0 1) * (h1 - h0) - (p 1 1 - p 0 1) * (h2 - h0)
  have hy : cross p * (m i 1 - m' i 1) = 0 := by
    rw [cross]
    linear_combination (p 1 0 - p 0 0) * (h2 - h0) - (p 2 0 - p 0 0) * (h1 - h0)
  have hx := (mul_eq_zero.mp hx).resolve_left hp
  have hy := (mul_eq_zero.mp hy).resolve_left hp
  linear_combination h0 + (q 0 - p 0 0) * hx + (q 1 - p 0 1) * hy

/-! ### The transform of the crop -/

/-- The center of a square, the middle of its upper side and its upper left corner. -/
def topLeftHalf (center : Vec2 K) (side : K) : Fin 3 → Vec2 K :=
  ![center, ![center 0, center 1 - side / 2], ![center 0 - side / 2, center 1 - side / 2]]

/-- Both triangles hang from the center, and both have the width as their size. -/
theorem generateRoiImage_eq (lib : WarpLib K) (rect : BboxCs K) (w h : ℕ) :
    generateRoiImage lib rect w h =
      lib.getAffineTransform (topLeftHalf rect.center (rect.scale 0))
        (topLeftHalf ![w / 2, h / 2] w) := by
  have hdir : ∀ c : K, getDir lib ![0, c * (-1 / 2)] 0 = ![0, c * (-1 / 2)] := by
    intro c
    simp [getDir, lib.sin_zero, lib.cos_zero]
  rw [generateRoiImage, getAffineTransform]
  simp only [zero_mul, zero_div, hdir, Bool.false_eq_true, if_false]
  congr 1
  · funext i j
    fin_cases i <;> fin_cases j <;> simp [topLeftHalf, get3rdPoint] <;> ring
  · funext i j
    fin_cases i <;> fin_cases j <;> simp [topLeftHalf, get3rdPoint] <;> ring

section Transform

variable [CharZero K]

theorem cross_topLeftHalf {side : K} (h : side ≠ 0) (center : Vec2 K) :
    cross (topLeftHalf center side) ≠ 0 := by
  have heq : cross (topLeftHalf center side) = -(side / 2 * (side / 2)) := by
    simp [cross, topLeftHalf]
  rw [heq]
  exact neg_ne_zero.mpr (mul_ne_zero (div_ne_zero h two_ne_zero) (div_ne_zero h two_ne_zero))

/-- **Both axes are scaled by the width of the crop.** -/
theorem apply_generateRoiImage (lib : WarpLib K) {rect : BboxCs K} (h : rect.scale 0 ≠ 0)
    (outputW outputH : ℕ) (p : Vec2 K) :
    (generateRoiImage lib rect outputW outputH).apply p =
      ![(p 0 - rect.center 0) * outputW / rect.scale 0 + outputW / 2,
        (p 1 - rect.center 1) * outputW / rect.scale 0 + outputH / 2] := by
  let scaled : WarpMat K :=
    ![![outputW / rect.scale 0, 0, outputW / 2 - rect.center 0 * outputW / rect.scale 0],
      ![0, outputW / rect.scale 0, outputH / 2 - rect.center 1 * outputW / rect.scale 0]]
  -- three points decide a transform
  have hagree : ∀ i, (generateRoiImage lib rect outputW outputH).apply
      (topLeftHalf rect.center (rect.scale 0) i) =
        scaled.apply (topLeftHalf rect.center (rect.scale 0) i) := by
    intro i
    rw [generateRoiImage_eq, lib.apply_getAffineTransform _ _ (cross_topLeftHalf h _) i]
    funext j
    fin_cases i <;> fin_cases j <;> simp [topLeftHalf, scaled, WarpMat.apply] <;> field_simp <;>
      ring
  rw [apply_eq_of_agree (cross_topLeftHalf h rect.center) hagree p]
  funext j
  fin_cases j
  · simp [scaled, WarpMat.apply]
    ring
  · simp [scaled, WarpMat.apply]
    ring

end Transform

/-! ### There and back -/

section Back

variable [LinearOrder K] (lib : WarpLib K) (cfg : LandmarkConfig K) (hand : Hand)

/-- A point of the image, seen by the network and brought back. -/
theorem keypointBack_cropPoint [CharZero K] {rect : BboxCs K} (hw : cfg.inputWidth ≠ 0)
    (hh : cfg.inputHeight ≠ 0) (hside : rect.scale 0 ≠ 0) (hsquare : rect.scale 1 = rect.scale 0)
    (p : Vec2 K) :
    keypointBack cfg hand .warpAffine rect (cropPoint lib cfg hand rect p) =
      ![p 0, (p 1 - rect.center 1) * cfg.inputWidth / cfg.inputHeight + rect.center 1] := by
  have hw : (cfg.inputWidth : K) ≠ 0 := Nat.cast_ne_zero.mpr hw
  have hh : (cfg.inputHeight : K) ≠ 0 := Nat.cast_ne_zero.mpr hh
  -- the flip for the left hand is undone by the flip back
  unfold keypointBack cropPoint
  rw [apply_generateRoiImage lib hside, hsquare]
  funext j
  cases hand
  · fin_cases j <;> simp <;> field_simp <;> ring
  · fin_cases j <;> simp <;> field_simp <;> ring

/-- A crop without an extent knows one point only. -/
theorem keypointBack_of_scale_zero {rect : BboxCs K} (h : rect.scale = 0) (kpt : Vec2 K) :
    keypointBack cfg hand .warpAffine rect kpt = rect.center := by
  unfold keypointBack
  rw [h]
  funext j
  fin_cases j <;> simp

theorem scale_getCropBboxShape_zero (bbox : DetectRect K) :
    (getCropBboxShape bbox 0).scale = 0 := by
  funext j
  fin_cases j <;> simp [getCropBboxShape]

end Back

/-- What comes back: all points where the input of the network is square, and else the row of
the center.  Where the box is not expanded at all, its center. -/
def ComesBack [LinearOrder K] (cfg : LandmarkConfig K) (rect : BboxCs K) (p : Vec2 K) : Prop :=
  if cfg.bboxExpandRatio = 0 then p = rect.center
  else cfg.inputWidth = cfg.inputHeight ∨ p 1 = rect.center 1

section Iff

variable [LinearOrder K] [IsStrictOrderedRing K] (lib : WarpLib K) {cfg : LandmarkConfig K}
  {bbox : DetectRect K}

theorem scale_getCropBboxShape_ne_zero {ratio : K} (hw : 0 < bbox.w) (hh : 0 < bbox.h)
    (h : ratio ≠ 0) : (getCropBboxShape bbox ratio).scale 0 ≠ 0 := by
  show max (bbox.w * ratio) (bbox.h * ratio) ≠ 0
  rcases lt_or_gt_of_ne h with hneg | hpos
  · exact (max_lt (mul_neg_of_pos_of_neg hw hneg) (mul_neg_of_pos_of_neg hh hneg)).ne
  · exact (lt_max_of_lt_left (mul_pos hw hpos)).ne'

theorem keypointBack_cropPoint_iff (hand : Hand) (hw : 0 < bbox.w) (hh : 0 < bbox.h)
    (hinputW : 0 < cfg.inputWidth) (hinputH : 0 < cfg.inputHeight) (p : Vec2 K) :
    keypointBack cfg hand .warpAffine (getCropBboxShape bbox cfg.bboxExpandRatio)
        (cropPoint lib cfg hand (getCropBboxShape bbox cfg.bboxExpandRatio) p) = p ↔
      ComesBack cfg (getCropBboxShape bbox cfg.bboxExpandRatio) p := by
  rw [ComesBack]
  split_ifs with hratio
  · rw [hratio, keypointBack_of_scale_zero cfg hand (scale_getCropBboxShape_zero bbox)]
    exact eq_comm
  · have hside := scale_getCropBboxShape_ne_zero hw hh hratio
    rw [keypointBack_cropPoint lib cfg hand hinputW.ne' hinputH.ne' hside rfl]
    set c := (getCropBboxShape bbox cfg.bboxExpandRatio).center 1
    have hheight : (cfg.inputHeight : K) ≠ 0 := Nat.cast_ne_zero.mpr hinputH.ne'
    constructor
    · intro h
      have h1 : (p 1 - c) * cfg.inputWidth / cfg.inputHeight + c = p 1 := congrFun h 1
      -- the distance from the center is scaled by the quotient of the sizes
      have hscaled : (p 1 - c) * ((cfg.inputWidth : K) - cfg.inputHeight) = 0 := by
        field_simp at h1
        linear_combination h1
      rcases mul_eq_zero.mp hscaled with hrow | hsize
      · exact .inr (sub_eq_zero.mp hrow)
      · exact .inl (Nat.cast_injective (sub_eq_zero.mp hsize))
    · intro h
      have h1 : (p 1 - c) * cfg.inputWidth / cfg.inputHeight + c = p 1 := by
        rcases h with hsize | hrow
        · rw [hsize, mul_div_cancel_right₀ _ hheight, sub_add_cancel]
        · rw [hrow, sub_self, zero_mul, zero_div, zero_add]
      funext j
      fin_cases j
      · rfl
      · exact h1

omit [IsStrictOrderedRing K] in
theorem getElem?_keypointsBack (hand : Hand) (rect : BboxCs K)
    (kpts : Fin kAlgoKeypointNum → Vec2 K) (i : Fin kAlgoKeypointNum) :
    (keypointsBack cfg hand .warpAffine rect kpts)[i.val]? =
      some (keypointBack cfg hand .warpAffine rect (kpts i)) := by
  rw [keypointsBack, List.getElem?_ofFn, dif_pos i.isLt]

/-- **A keypoint is published where the network saw it exactly if it comes back**, with one
image at a time and with both. -/
theorem published_iff (hand : Hand) (image : Cam) (bboxes : Cam → DetectRect K)
    (hw : 0 < (bboxes image).w) (hh : 0 < (bboxes image).h) (hinputW : 0 < cfg.inputWidth)
    (hinputH : 0 < cfg.inputHeight) (i : Fin kAlgoKeypointNum) (p : Vec2 K) :
    let rect := getCropBboxShape (bboxes image) cfg.bboxExpandRatio
    (∀ (net : Net K) result,
      net [(.warpAffine image rect, hand = .left)] = some result →
      result.kpts 0 i = cropPoint lib cfg hand rect p →
      ((processSingleHand cfg net hand image (bboxes image) .warpAffine).seen.kpt[i.val]? =
        some p ↔ ComesBack cfg rect p)) ∧
    ∀ (net : Net K) result,
      net [(batchCrop cfg .warpAffine bboxes .lcam, hand = .left),
        (batchCrop cfg .warpAffine bboxes .rcam, hand = .left)] = some result →
      result.kpts (if image = .lcam then 0 else 1) i = cropPoint lib cfg hand rect p →
      ((processBatchHand cfg net hand .warpAffine bboxes image).seen.kpt[i.val]? = some p ↔
        ComesBack cfg rect p) := by
  intro rect
  have hback : keypointBack cfg hand .warpAffine rect (cropPoint lib cfg hand rect p) = p ↔
      ComesBack cfg rect p :=
    keypointBack_cropPoint_iff lib hand hw hh hinputW hinputH p
  constructor
  · intro net result hnet hkpt
    have hpublished : (processSingleHand cfg net hand image (bboxes image) .warpAffine).seen.kpt =
        keypointsBack cfg hand .warpAffine rect (result.kpts 0) := by
      unfold processSingleHand
      dsimp only
      rw [hnet]
    rw [hpublished, getElem?_keypointsBack, hkpt, Option.some_inj]
    exact hback
  · intro net result hnet hkpt
    have hpublished : (processBatchHand cfg net hand .warpAffine bboxes image).seen.kpt =
        keypointsBack cfg hand .warpAffine rect (result.kpts (if image = .lcam then 0 else 1)) := by
      unfold processBatchHand
      dsimp only
      rw [hnet]
      cases image <;> rfl
    rw [hpublished, getElem?_keypointsBack, hkpt, Option.some_inj]
    exact hback

end Iff

/-! ### A crop that is taller than wide -/

/-- The transform between two triangles, by the rule of Cramer. -/
noncomputable def cramer (src dst : Fin 3 → Vec2 ℝ) : WarpMat ℝ := fun i =>
  let slopeX := ((dst 1 i - dst 0 i) * (src 2 1 - src 0 1) -
    (dst 2 i - dst 0 i) * (src 1 1 - src 0 1)) / cross src
  let slopeY := ((dst 2 i - dst 0 i) * (src 1 0 - src 0 0) -
    (dst 1 i - dst 0 i) * (src 2 0 - src 0 0)) / cross src
  ![slopeX, slopeY, dst 0 i - slopeX * src 0 0 - slopeY * src 0 1]

theorem apply_cramer {src : Fin 3 → Vec2 ℝ} (h : cross src ≠ 0) (dst : Fin 3 → Vec2 ℝ)
    (i : Fin 3) : (cramer src dst).apply (src i) = dst i := by
  funext j
  simp only [WarpMat.apply, cramer, Matrix.cons_val]
  -- the middle term is 0 at the first point, and the cross product at the others
  fin_cases i
  · simp
  · field_simp
    rw [cross]
    simp
    ring
  · field_simp
    rw [cross]
    simp
    ring

/-- The library with the sine and the cosine of the real numbers, and Cramer's rule. -/
noncomputable def cramerLib : WarpLib ℝ where
  sin := Real.sin
  cos := Real.cos
  sin_zero := Real.sin_zero
  cos_zero := Real.cos_zero
  getAffineTransform := cramer
  apply_getAffineTransform _ dst h := apply_cramer h dst

/-- A configuration with an input that is higher than wide. -/
noncomputable def tallConfig : LandmarkConfig ℝ :=
  { shiftedConfig with inputWidth := 192, inputHeight := 256 }

/-- A box of 100 pixels in the corner. -/
def hundredBox : DetectRect ℝ := ⟨0, 0, 100, 100⟩

/-- The first keypoint. -/
def wrist : Fin kAlgoKeypointNum := ⟨0, by decide⟩

theorem published_iff_tall :
    (∀ (net : Net ℝ) result,
      net [(.warpAffine .lcam (getCropBboxShape hundredBox 1), true)] = some result →
      result.kpts 0 wrist = cropPoint cramerLib tallConfig .left (getCropBboxShape hundredBox 1) 0 →
      ((processSingleHand tallConfig net .left .lcam hundredBox .warpAffine).seen.kpt[wrist.val]? =
        some 0 ↔ ComesBack tallConfig (getCropBboxShape hundredBox 1) 0)) ∧
    ∀ (net : Net ℝ) result,
      net [(batchCrop tallConfig .warpAffine (fun _ => hundredBox) .lcam, true),
        (batchCrop tallConfig .warpAffine (fun _ => hundredBox) .rcam, true)] = some result →
      result.kpts 0 wrist = cropPoint cramerLib tallConfig .left (getCropBboxShape hundredBox 1) 0 →
      ((processBatchHand tallConfig net .left .warpAffine (fun _ => hundredBox)
          .lcam).seen.kpt[wrist.val]? = some 0 ↔
        ComesBack tallConfig (getCropBboxShape hundredBox 1) 0) :=
  published_iff cramerLib .left .lcam (fun _ => hundredBox)
    (by norm_num [hundredBox]) (by norm_num [hundredBox])
    (show 0 < tallConfig.inputWidth by decide) (show 0 < tallConfig.inputHeight by decide) wrist 0

/-- The upper left corner of the box comes back too low. -/
theorem corner_moves :
    ¬ ∀ (bbox : DetectRect ℝ) (hand : Hand) (p : Vec2 ℝ), 0 < bbox.w → 0 < bbox.h →
      keypointBack tallConfig hand .warpAffine (getCropBboxShape bbox tallConfig.bboxExpandRatio)
        (cropPoint cramerLib tallConfig hand
          (getCropBboxShape bbox tallConfig.bboxExpandRatio) p) = p := by
  intro h
  have hcorner := h hundredBox .right 0 (by norm_num [hundredBox]) (by norm_num [hundredBox])
  have hside : (getCropBboxShape hundredBox tallConfig.bboxExpandRatio).scale 0 ≠ 0 := by
    norm_num [getCropBboxShape, hundredBox, tallConfig, shiftedConfig]
  rw [keypointBack_cropPoint cramerLib tallConfig .right (by decide) (by decide) hside rfl]
    at hcorner
  have hrow := congrFun hcorner 1
  norm_num [getCropBboxShape, hundredBox, tallConfig] at hrow

end Landmark

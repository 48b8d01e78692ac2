/-
The virtual camera of a box: where it looks and what it frames.

* `eyeToWorld_lookAt` — the camera turns about its center and looks at the center of the box;
* `fixAspectRatio_isLeast` — the box that is framed is the smallest of its aspect ratio;
* `cameraIntrinsics_virtualCamera` — the focal lengths and the principal point, which are scaled
  by the longer side of the image and by its width;
* `framesBox_iff` — they fit the image where it is square.
-/
import HandTracking.EigenLaws
import HandTracking.HandLandmark

namespace Landmark

open Camera HandPose Matrix

variable {K : Type} [Field K] [LinearOrder K] [IsStrictOrderedRing K]

/-! ### The view -/

/-- The direction in which a camera looks. -/
def zAxis : Vec3 K := ![0, 0, 1]

omit [LinearOrder K] [IsStrictOrderedRing K] in
theorem zAxis_unit : (zAxis : Vec3 K) ⬝ᵥ zAxis = 1 := by
  simp [zAxis, dotProduct, Fin.sum_univ_three]

/-- A pixel is seen in front of the camera. -/
theorem windowToEye_depth_pos (fns : RealFns K) (lib : CameraLib K) (c : CameraModel K)
    (p : Vec2 K) : 0 < c.windowToEye fns lib p 2 :=
  one_div_pos.mpr (rayNorm_pos fns _)

section View

variable {E : Eigen K} (hE : E.Lawful) {center : Vec3 K} (hcenter : 0 < center 2)

include hE hcenter

/-- The turn to a point in front of the camera. -/
theorem isTurn_lookAt : IsTurn (E.fromTwoVectors zAxis center) zAxis center := by
  apply hE.isTurn_fromTwoVectors
  have hz : center ⬝ᵥ zAxis = center 2 := by
    simp [zAxis, dotProduct, Fin.sum_univ_three]
  exact not_opposite_of_pos (zAxis_unit (K := K) ▸ one_pos) (hz ▸ hcenter)

omit [LinearOrder K] [IsStrictOrderedRing K] hE hcenter in
theorem inverse_inverse_of_center {R : Matrix3 K} :
    ((⟨R, 0⟩ : Isometry3 K).inverse).inverse = ⟨R, 0⟩ := by
  rw [Isometry3.inverse, Isometry3.inverse]
  simp only [mulVec_zero, neg_zero, transpose_transpose]

omit hcenter in
/-- The camera of the eye frame is only turned. -/
theorem inverse_lookAt : (lookAt E center 0).inverse = ⟨E.fromTwoVectors zAxis center, 0⟩ := by
  have hz : E.angleAxis 0 ![0, 0, 1] = 1 := hE.angleAxis_zero zAxis_unit
  rw [lookAt]
  simp only [Isometry3.rotate, hz, Matrix.mul_one, Isometry3.one_linear, Matrix.one_mul,
    Isometry3.one_translation]
  exact inverse_inverse_of_center

/-- The point is on the axis of the turned camera. -/
theorem exists_onAxis_of_isTurn :
    ∃ depth : K, 0 < depth ∧
      (lookAt E center 0).inverse.apply (depth • zAxis) = center := by
  have hturn := isTurn_lookAt hE hcenter
  have hcenter_ne : center ≠ 0 := by
    rintro rfl
    exact lt_irrefl _ hcenter
  have haxis_ne : E.fromTwoVectors zAxis center *ᵥ zAxis ≠ 0 := by
    apply hturn.isRotation.mulVec_ne_zero
    intro hzero
    exact zero_ne_one ((congrFun hzero 2).symm)
  obtain ⟨r, s, hr, hs, heq⟩ := hturn.sameRay.exists_pos haxis_ne hcenter_ne
  refine ⟨r / s, div_pos hr hs, ?_⟩
  rw [inverse_lookAt hE, Isometry3.apply, add_zero, mulVec_smul, div_eq_inv_mul, mul_smul, heq,
    inv_smul_smul₀ hs.ne']

end View

/-! ### The frame -/

/-- The widths of the boxes of an aspect ratio that contain a box of this size. -/
def containingWidths (bboxScale : Vec2 K) (aspectRatio : K) : Set K :=
  {width | bboxScale 0 ≤ width ∧ bboxScale 1 ≤ width / aspectRatio}

/-- The smallest box of the aspect ratio around a box. -/
theorem fixAspectRatio_isLeast (bboxScale : Vec2 K) {aspectRatio : K} (h : 0 < aspectRatio) :
    IsLeast (containingWidths bboxScale aspectRatio) (fixAspectRatio bboxScale aspectRatio 0) := by
  rw [fixAspectRatio]
  split_ifs with hwide
  · exact ⟨⟨le_rfl, ((lt_div_iff₀ h).mpr hwide).le⟩, fun width hwidth => hwidth.1⟩
  · refine ⟨⟨not_lt.mp hwide, ?_⟩, fun width hwidth => (le_div_iff₀ h).mp hwidth.2⟩
    exact (mul_div_cancel_right₀ (bboxScale 1) h.ne').ge

theorem fixAspectRatio_pos {bboxScale : Vec2 K} (hbox : 0 < bboxScale 0) {aspectRatio : K}
    (h : 0 < aspectRatio) : 0 < fixAspectRatio bboxScale aspectRatio 0 :=
  hbox.trans_le (fixAspectRatio_isLeast bboxScale h).1.1

variable {cfg : LandmarkConfig K} (cameraOrig : CameraModel K) (bbox : BboxCs K)

/-- The smaller focal length, scaled by the framed box and by the longer side of the image. -/
theorem cameraIntrinsics_virtualCamera (hw : 0 < cfg.inputWidth) :
    (virtualCameraFromBox cfg cameraOrig bbox).val.cameraIntrinsics =
      let w : K := cfg.inputWidth
      let h : K := cfg.inputHeight
      let f := min cameraOrig.cameraIntrinsics.fx cameraOrig.cameraIntrinsics.fy * w / max w h *
        (w / fixAspectRatio bbox.scale (w / h) 0)
      ⟨f, f, (w - 1) / 2, (w - 1) / 2⟩ := by
  have hw : (0 : K) < cfg.inputWidth := Nat.cast_pos.mpr hw
  have hmax : 0 < max (cfg.inputWidth : K) cfg.inputHeight := lt_max_of_lt_left hw
  have hmin : ∀ fx fy : K, min (fx / max (cfg.inputWidth : K) cfg.inputHeight * cfg.inputWidth)
      (fy / max (cfg.inputWidth : K) cfg.inputHeight * cfg.inputWidth) =
        min fx fy * cfg.inputWidth / max (cfg.inputWidth : K) cfg.inputHeight := by
    intro fx fy
    rw [div_mul_eq_mul_div, div_mul_eq_mul_div, min_div_div_right hmax.le,
      ← min_mul_of_nonneg _ _ hw.le]
  have hhalf : ∀ w : K, 1 / 2 * w - 1 / 2 = (w - 1) / 2 := by
    intro w
    ring
  rw [virtualCameraFromBox, genCropParametersFromPoints]
  simp only [hmin, hhalf]

/-- The camera is turned about the center of the other camera and looks at the center of the box,
its principal point is the center of the image, and it sees the smallest box of the aspect ratio
of the image. -/
def FramesBox (cfg : LandmarkConfig K) (cameraOrig : CameraModel K) (bbox : BboxCs K) : Prop :=
  let virtualCamera := (virtualCameraFromBox cfg cameraOrig bbox).val
  let k := virtualCamera.cameraIntrinsics
  let w : K := cfg.inputWidth
  let h : K := cfg.inputHeight
  (IsRotation virtualCamera.cameraToWorldXf.linear ∧
    virtualCamera.cameraToWorldXf.translation = 0) ∧
  (∃ depth : K, 0 < depth ∧ virtualCamera.eyeToWorld (depth • zAxis) =
    cameraOrig.windowToEye cfg.fns cfg.lib bbox.center) ∧
  (k.cx = (w - 1) / 2 ∧ k.cy = (h - 1) / 2) ∧
  ∃ width, IsLeast (containingWidths bbox.scale (w / h)) width ∧
    k.fx = min cameraOrig.cameraIntrinsics.fx cameraOrig.cameraIntrinsics.fy * w / width ∧
    k.fy = min cameraOrig.cameraIntrinsics.fx cameraOrig.cameraIntrinsics.fy * w / width

/-- The view is right for every box and image. -/
theorem view_virtualCamera (hE : cfg.eigen.Lawful) :
    let virtualCamera := (virtualCameraFromBox cfg cameraOrig bbox).val
    (IsRotation virtualCamera.cameraToWorldXf.linear ∧
      virtualCamera.cameraToWorldXf.translation = 0) ∧
    ∃ depth : K, 0 < depth ∧ virtualCamera.eyeToWorld (depth • zAxis) =
      cameraOrig.windowToEye cfg.fns cfg.lib bbox.center := by
  have hdepth := windowToEye_depth_pos cfg.fns cfg.lib cameraOrig bbox.center
  refine ⟨?_, exists_onAxis_of_isTurn hE hdepth⟩
  show IsRotation (lookAt _ _ 0).inverse.linear ∧ (lookAt _ _ 0).inverse.translation = 0
  rw [inverse_lookAt hE]
  exact ⟨(isTurn_lookAt hE hdepth).isRotation, rfl⟩

/-- The focal lengths are too short where the image is taller than wide. -/
theorem focal_virtualCamera_iff (hx : 0 < cameraOrig.cameraIntrinsics.fx)
    (hy : 0 < cameraOrig.cameraIntrinsics.fy) (hbox : 0 < bbox.scale 0)
    (hw : 0 < cfg.inputWidth) (hh : 0 < cfg.inputHeight) :
    (virtualCameraFromBox cfg cameraOrig bbox).val.cameraIntrinsics.fx =
      min cameraOrig.cameraIntrinsics.fx cameraOrig.cameraIntrinsics.fy * cfg.inputWidth /
        fixAspectRatio bbox.scale (cfg.inputWidth / cfg.inputHeight) 0 ↔
      cfg.inputHeight ≤ cfg.inputWidth := by
  rw [cameraIntrinsics_virtualCamera cameraOrig bbox hw]
  dsimp only
  have hw : (0 : K) < cfg.inputWidth := Nat.cast_pos.mpr hw
  have hh : (0 : K) < cfg.inputHeight := Nat.cast_pos.mpr hh
  have hmax : 0 < max (cfg.inputWidth : K) cfg.inputHeight := lt_max_of_lt_left hw
  have hwidth := fixAspectRatio_pos hbox (div_pos hw hh)
  have hf := lt_min hx hy
  set f := min cameraOrig.cameraIntrinsics.fx cameraOrig.cameraIntrinsics.fy
  set width := fixAspectRatio bbox.scale (cfg.inputWidth / cfg.inputHeight) 0
  have hfactor : f * cfg.inputWidth / max (cfg.inputWidth : K) cfg.inputHeight *
      (cfg.inputWidth / width) =
        f * cfg.inputWidth / width * (cfg.inputWidth / max (cfg.inputWidth : K) cfg.inputHeight) :=
    by ring
  rw [hfactor, mul_eq_left₀ (div_pos (mul_pos hf hw) hwidth).ne', div_eq_one_iff_eq hmax.ne',
    left_eq_sup, Nat.cast_le]

/-- **The virtual camera frames its box exactly where the image is square.** -/
theorem framesBox_iff (hE : cfg.eigen.Lawful) (hx : 0 < cameraOrig.cameraIntrinsics.fx)
    (hy : 0 < cameraOrig.cameraIntrinsics.fy) (hboxW : 0 < bbox.scale 0)
    (hw : 0 < cfg.inputWidth) (hh : 0 < cfg.inputHeight) :
    FramesBox cfg cameraOrig bbox ↔ cfg.inputWidth = cfg.inputHeight := by
  have hk := cameraIntrinsics_virtualCamera cameraOrig bbox hw
  constructor
  · rintro ⟨-, -, ⟨-, hcy⟩, -⟩
    rw [hk] at hcy
    -- the principal point lies where the width puts it
    have hsides : (cfg.inputWidth : K) - 1 = cfg.inputHeight - 1 :=
      (div_left_inj' two_ne_zero).mp hcy
    exact Nat.cast_injective (sub_left_injective hsides)
  · intro hsquare
    obtain ⟨hrigid, haxis⟩ := view_virtualCamera cameraOrig bbox hE
    have hfocal := (focal_virtualCamera_iff cameraOrig bbox hx hy hboxW hw hh).mpr hsquare.ge
    have haspect : (0 : K) < cfg.inputWidth / cfg.inputHeight :=
      div_pos (Nat.cast_pos.mpr hw) (Nat.cast_pos.mpr hh)
    have hequal : (virtualCameraFromBox cfg cameraOrig bbox).val.cameraIntrinsics.fy =
        (virtualCameraFromBox cfg cameraOrig bbox).val.cameraIntrinsics.fx := rfl
    refine ⟨hrigid, haxis, ⟨?_, ?_⟩,
      ⟨_, fixAspectRatio_isLeast bbox.scale haspect, hfocal, hequal.trans hfocal⟩⟩
    · rw [hk]
    · rw [hk, ← hsquare]

/-! ### An image that is taller than wide -/

/-- A configuration with an input that is higher than wide. -/
noncomputable def portraitConfig : LandmarkConfig ℝ :=
  { shiftedConfig with eigen := geometricEigen, inputWidth := 192, inputHeight := 256 }

/-- A box around the principal point of a camera. -/
def axisBox : BboxCs ℝ := ⟨0, ![2, 2]⟩

theorem framesBox_iff_portrait :
    FramesBox portraitConfig (unitCamera .noDistortion .pinhole) axisBox ↔
      portraitConfig.inputWidth = portraitConfig.inputHeight :=
  framesBox_iff _ _ lawful_geometricEigen (show (0 : ℝ) < 1 from one_pos)
    (show (0 : ℝ) < 1 from one_pos) (show (0 : ℝ) < 2 from two_pos)
    (show 0 < 192 by decide) (show 0 < 256 by decide)

/-- The principal point of 192 x 256 is put in row 95.5. -/
theorem portrait_not_framed :
    ¬ FramesBox portraitConfig (unitCamera .noDistortion .pinhole) axisBox := by
  rintro ⟨-, -, ⟨-, hcy⟩, -⟩
  rw [cameraIntrinsics_virtualCamera _ _ (show 0 < 192 by decide)] at hcy
  norm_num [portraitConfig] at hcy

end Landmark

/-
The pose of the right camera, in the coordinate service and in the camera model.

`PipeGraphImpl::Init` sets four of the transforms between five coordinate systems; the
transform between the two cameras is derived from them.  `ConvertCameraInfo` computes it as a
product.

* `setGlobalCameraParams` — `SetGlobalCameraParams`;
* `lcamCvToRcamCv` — `lcam_cv_to_rcam_cv`;
* `stereoExtrinsics_agree` — the derived transform is the product.
-/
import HandTracking.Library.Numerals
import HandTracking.CameraConversion
import HandTracking.CoordTransformService
import HandTracking.PerspectiveCrop

namespace Calibration

open Camera Calculator Coord Matrix

/-- The systems of coordinates. -/
inductive XrealCoordSystem where
  | cvLeftCam
  | glLeftCam
  | glHead
  | glRightCam
  | cvRightCam
  deriving DecidableEq, Repr

/-- `static_cast<std::size_t>` -/
def XrealCoordSystem.index : XrealCoordSystem → Fin 5
  | .cvLeftCam => 0
  | .glLeftCam => 1
  | .glHead => 2
  | .glRightCam => 3
  | .cvRightCam => 4

/-- `GlobalCoordService`: the service of the five systems. -/
abbrev GlobalCoordService (K : Type) := CoordTransformService 5 (Isometry3 K)

section

variable {K : Type} [Field K] [LinearOrder K] [FloorRing K]

/-- `gl_R_cv` of the service; for other methods it has the value `unset`. -/
def serviceGlRcv (unset : Matrix3 K) (generateMethod : ℤ) : Matrix3 K :=
  if generateMethod = 1 then Matrix.diagonal ![1, -1, -1]
  else if generateMethod = 2 then 1
  else unset

/-- `SetGlobalCameraParams`, on a service. -/
def setGlobalCameraParams (fns : RealFns K) (unset : Matrix3 K) (camera : CameraParams K)
    (service : GlobalCoordService K) : Except String (GlobalCoordService K) := do
  let generateMethod := truncate ((camera.params .generateMethod).getD 0 0)
  let glRcv := serviceGlRcv unset generateMethod
  let service ← service.setRotation XrealCoordSystem.cvLeftCam.index
    XrealCoordSystem.glLeftCam.index glRcv 0
  let service ← service.setQuaternion XrealCoordSystem.glRightCam.index
    XrealCoordSystem.glLeftCam.index fns (camera.rotation .glLRglR) (camera.position .glLtglR)
  let service ← service.setQuaternion XrealCoordSystem.glLeftCam.index
    XrealCoordSystem.glHead.index fns (camera.rotation .glHRglL) (camera.position .glHtglL)
  let service ← service.setRotation XrealCoordSystem.cvRightCam.index
    XrealCoordSystem.glRightCam.index glRcv 0
  service.finalize

end

/-- `lcam_cv_to_rcam_cv` -/
def lcamCvToRcamCv {K : Type} [Field K] (service : GlobalCoordService K)
    (points3dSrc : List (Vec3 K)) : List (Vec3 K) :=
  points3dSrc.map (service.getTransform XrealCoordSystem.cvLeftCam.index
    XrealCoordSystem.cvRightCam.index).apply

section

variable {K : Type} [Field K]

/-! ### The flip between the conventions -/

theorem glRcv_orthogonal (generateMethod : ℤ) :
    (glRcv generateMethod : Matrix3 K)ᵀ * glRcv generateMethod = 1 := by
  unfold glRcv
  split_ifs
  · rw [diagonal_transpose, diagonal_mul_diagonal, ← diagonal_one]
    congr 1
    funext i
    fin_cases i <;> simp
  · rw [transpose_one, Matrix.one_mul]

theorem glRcv_involutive (generateMethod : ℤ) :
    (glRcv generateMethod : Matrix3 K) * glRcv generateMethod = 1 := by
  have htranspose : (glRcv generateMethod : Matrix3 K)ᵀ = glRcv generateMethod := by
    unfold glRcv
    split_ifs
    · exact diagonal_transpose _
    · exact transpose_one
  have horthogonal := glRcv_orthogonal (K := K) generateMethod
  rwa [htranspose] at horthogonal

theorem det_glRcv (generateMethod : ℤ) : (glRcv generateMethod : Matrix3 K).det = 1 := by
  unfold glRcv
  split_ifs
  · rw [det_diagonal, Fin.prod_univ_three]
    simp
  · exact det_one

/-- `gl_T_cv` -/
def glTcv (generateMethod : ℤ) : Isometry3 K := (1 : Isometry3 K).rotate (glRcv generateMethod)

theorem rigidTransform_glRcv (generateMethod : ℤ) :
    (rigidTransform (glRcv generateMethod) 0 : Isometry3 K) = glTcv generateMethod := by
  ext1
  · rfl
  · exact add_zero _

theorem glTcv_isRigid (generateMethod : ℤ) : (glTcv generateMethod : Isometry3 K).IsRigid := by
  rw [← rigidTransform_glRcv]
  exact rigidTransform_isRigid (glRcv_orthogonal generateMethod) 0

/-- The flip is its own inverse. -/
theorem glTcv_mul_self (generateMethod : ℤ) :
    (glTcv generateMethod * glTcv generateMethod : Isometry3 K) = 1 := by
  ext1
  · show (1 * glRcv generateMethod) * ((1 : Matrix3 K) * glRcv generateMethod) = 1
    rw [Matrix.one_mul, glRcv_involutive]
  · show _ *ᵥ (0 : Vec3 K) + 0 = 0
    rw [mulVec_zero, add_zero]

/-! ### The derived transform -/

/-- `glH_T_glL` of the service. -/
def CameraParams.glHTglL (camera : CameraParams K) : Isometry3 K :=
  rigidTransform (camera.rotation .glHRglL).toRotationMatrix (camera.position .glHtglL)

/-- The quaternions of the extrinsics have the norm 1. -/
structure CameraParams.UnitRotations (camera : CameraParams K) : Prop where
  glLRglR : (camera.rotation .glLRglR).squaredNorm = 1
  glHRglL : (camera.rotation .glHRglL).squaredNorm = 1

variable {camera : CameraParams K} (h : camera.UnitRotations) (generateMethod : ℤ)

namespace CameraParams.UnitRotations

include h

theorem glLTglR_isRigid : camera.glLTglR.IsRigid :=
  rigidTransform_isRigid (toRotationMatrix_orthogonal h.glLRglR) _

theorem glHTglL_isRigid : camera.glHTglL.IsRigid :=
  rigidTransform_isRigid (toRotationMatrix_orthogonal h.glHRglL) _

end CameraParams.UnitRotations

/-- The poses of the five systems in the left GL camera. -/
def poses : Fin 5 → (Isometry3 K)ˣ :=
  ![(glTcv_isRigid generateMethod).unit, 1, h.glHTglL_isRigid.unit⁻¹, h.glLTglR_isRigid.unit,
    h.glLTglR_isRigid.unit * (glTcv_isRigid generateMethod).unit]

/-- A fresh service after the four calls of `setTransform`. -/
def configured (camera : CameraParams K) (generateMethod : ℤ) : GlobalCoordService K :=
  let cv : Isometry3 K := glTcv generateMethod
  (((CoordTransformService.init.setBoth 0 1 cv cv.inverse).setBoth 3 1 camera.glLTglR
    camera.glLTglR.inverse).setBoth 1 2 camera.glHTglL camera.glHTglL.inverse).setBoth 4 3 cv
    cv.inverse

theorem configured_consistent :
    Consistent (poses h generateMethod) (configured camera generateMethod) := by
  refine (((consistent_init.setBoth (u := (glTcv_isRigid generateMethod).unit) ?_).setBoth
    (u := h.glLTglR_isRigid.unit) ?_).setBoth (u := h.glHTglL_isRigid.unit) ?_).setBoth
    (u := (glTcv_isRigid generateMethod).unit) ?_
  · show _ = 1⁻¹ * (glTcv_isRigid generateMethod).unit
    rw [inv_one, one_mul]
  · show _ = 1⁻¹ * h.glLTglR_isRigid.unit
    rw [inv_one, one_mul]
  · show _ = (h.glHTglL_isRigid.unit⁻¹)⁻¹ * 1
    rw [inv_inv, mul_one]
  · show _ = h.glLTglR_isRigid.unit⁻¹ *
      (h.glLTglR_isRigid.unit * (glTcv_isRigid generateMethod).unit)
    rw [inv_mul_cancel_left]

/-- The entries join every system with the left GL camera. -/
theorem configured_connected (camera : CameraParams K) (generateMethod : ℤ) :
    (configured camera generateMethod).Connected := by
  -- every path goes through system 1, the left GL camera.
  have hdst : ∀ i : Fin 5, Relation.ReflTransGen
      (fun x y => (configured camera generateMethod).transformSet (x, y)) i 1 := by
    intro i
    fin_cases i
    · exact .single rfl
    · exact .refl
    · exact .single rfl
    · exact .single rfl
    · exact .tail (b := 3) (.single rfl) rfl
  have hfrm : ∀ i : Fin 5, Relation.ReflTransGen
      (fun x y => (configured camera generateMethod).transformSet (x, y)) 1 i := by
    intro i
    fin_cases i
    · exact .single rfl
    · exact .refl
    · exact .single rfl
    · exact .single rfl
    · exact .tail (b := 3) (.single rfl) rfl
  intro i j hne
  rcases Relation.reflTransGen_iff_eq_or_transGen.mp ((hdst i).trans (hfrm j)) with heq | hpath
  · exact absurd heq.symm hne
  · exact hpath

variable [LinearOrder K] [FloorRing K]

omit [LinearOrder K] [FloorRing K] in
theorem serviceGlRcv_eq {unset : Matrix3 K} {generateMethod : ℤ}
    (hmethod : generateMethod = 1 ∨ generateMethod = 2) :
    serviceGlRcv unset generateMethod = glRcv generateMethod := by
  rcases hmethod with rfl | rfl
  · rfl
  · rfl

include h in
theorem setGlobalCameraParams_eq [IsStrictOrderedRing K] (fns : RealFns K) (unset : Matrix3 K)
    (hmethod : truncate ((camera.params .generateMethod).getD 0 0) = 1 ∨
      truncate ((camera.params .generateMethod).getD 0 0) = 2) :
    setGlobalCameraParams fns unset camera .init =
      (configured camera (truncate ((camera.params .generateMethod).getD 0 0))).finalize := by
  unfold setGlobalCameraParams
  simp only [serviceGlRcv_eq hmethod]
  rw [CoordTransformService.setRotation_eq_ok (glRcv_orthogonal _) (det_glRcv _)]
  simp only [bind, Except.bind, CoordTransformService.setQuaternion_eq_ok fns h.glLRglR,
    CoordTransformService.setQuaternion_eq_ok fns h.glHRglL,
    CoordTransformService.setRotation_eq_ok (glRcv_orthogonal _) (det_glRcv _)]
  rw [rigidTransform_glRcv]
  rfl

/-- The camera after the left one has the product of the flips and the extrinsics. -/
theorem cameraToWorldXf_rcam {rcam : CameraModel K} (htwo : camera.nrCameras = 2)
    (hrcam : (convertCameraModel (convertCameraInfo camera))[1]? = some rcam) :
    rcam.cameraToWorldXf =
      glTcv (truncate ((camera.params .generateMethod).getD 0 0)) * camera.glLTglR *
        glTcv (truncate ((camera.params .generateMethod).getD 0 0)) := by
  -- with two cameras none is filtered out of the pinhole models.
  have hvalid : (convertCameraInfo camera).valid = fun _ => true := by
    funext cam
    cases cam with
    | lcam => rfl
    | rcam => exact decide_eq_true htwo
  have hmap : ∀ f : (Fin 12 → K) → Distortion K,
      ([Cam.lcam, .rcam].map ((convertCameraInfo camera).camera f))[1]? = some rcam →
        rcam.cameraToWorldXf = (convertCameraInfo camera).cvLTcvR := by
    intro f hf
    obtain rfl := Option.some.inj hf
    rfl
  unfold convertCameraModel at hrcam
  split_ifs at hrcam
  · rw [formatPinholeCameraModel, hvalid] at hrcam
    exact hmap _ hrcam
  · exact hmap _ hrcam
  · exact hmap _ hrcam
  · cases hrcam

/-! ### Both copies -/

omit [LinearOrder K] [FloorRing K] in
/-- The change to the left camera is a flip, the extrinsics and the flip again. -/
theorem change_rcam_lcam (h : camera.UnitRotations) (generateMethod : ℤ) :
    Frames.change (poses h generateMethod) XrealCoordSystem.cvRightCam.index
        XrealCoordSystem.cvLeftCam.index =
      glTcv generateMethod * camera.glLTglR * glTcv generateMethod := by
  have hflip : (glTcv_isRigid (K := K) generateMethod).unit⁻¹ =
      (glTcv_isRigid generateMethod).unit :=
    inv_eq_of_mul_eq_one_right (Units.ext (glTcv_mul_self generateMethod))
  show (((glTcv_isRigid (K := K) generateMethod).unit⁻¹ *
    (h.glLTglR_isRigid.unit * (glTcv_isRigid generateMethod).unit) : (Isometry3 K)ˣ) :
      Isometry3 K) = _
  rw [hflip, ← mul_assoc]
  rfl

omit [LinearOrder K] [FloorRing K] in
/-- The change back is the inverse that a camera applies. -/
theorem change_lcam_rcam (h : camera.UnitRotations) (generateMethod : ℤ) :
    Frames.change (poses h generateMethod) XrealCoordSystem.cvLeftCam.index
        XrealCoordSystem.cvRightCam.index =
      (glTcv generateMethod * camera.glLTglR * glTcv generateMethod).inverse := by
  have hrigid : (glTcv generateMethod * camera.glLTglR * glTcv generateMethod).IsRigid :=
    ((glTcv_isRigid generateMethod).mul h.glLTglR_isRigid).mul (glTcv_isRigid generateMethod)
  have hback := Frames.mul_change_eq_one (poses h generateMethod)
    XrealCoordSystem.cvLeftCam.index XrealCoordSystem.cvRightCam.index
  rw [change_rcam_lcam] at hback
  exact (left_inv_eq_right_inv hrigid.inverse_mul_cancel hback).symm

/-- After the initialisation the service and the camera model of the right camera agree. -/
theorem stereoExtrinsics_agree [IsStrictOrderedRing K] (fns : RealFns K) (unset : Matrix3 K)
    (camera : CameraParams K) (h : camera.UnitRotations) (htwo : camera.nrCameras = 2)
    (hmethod : (camera.params .generateMethod).getD 0 0 = 1 ∨
      (camera.params .generateMethod).getD 0 0 = 2) :
    ∃ service, setGlobalCameraParams fns unset camera .init = .ok service ∧
      ∀ rcam, (convertCameraModel (convertCameraInfo camera))[1]? = some rcam →
        service.getTransform XrealCoordSystem.cvRightCam.index
            XrealCoordSystem.cvLeftCam.index = rcam.cameraToWorldXf ∧
          ∀ points, lcamCvToRcamCv service points = points.map rcam.worldToEye := by
  have htruncate : truncate ((camera.params .generateMethod).getD 0 0) = 1 ∨
      truncate ((camera.params .generateMethod).getD 0 0) = 2 := by
    rcases hmethod with hone | htwo
    · rw [hone]
      exact Or.inl (by simpa using truncate_natCast (K := K) 1)
    · rw [htwo]
      exact Or.inr (by simpa using truncate_natCast (K := K) 2)
  -- `finalize` completes a consistent and connected table, whatever order it searches in.
  obtain ⟨service, hok, hservice⟩ := (configured_consistent h
    (truncate ((camera.params .generateMethod).getD 0 0))).finalize (configured_connected camera _)
  refine ⟨service, (setGlobalCameraParams_eq h fns unset htruncate).trans hok, ?_⟩
  intro rcam hrcam
  have hxf := cameraToWorldXf_rcam htwo hrcam
  constructor
  · rw [hservice _ _ (by decide), change_rcam_lcam, hxf]
  · intro points
    -- the camera applies the inverse, the service an entry of its own.
    have hmap : (service.getTransform XrealCoordSystem.cvLeftCam.index
        XrealCoordSystem.cvRightCam.index).apply = rcam.worldToEye := by
      funext p
      rw [hservice _ _ (by decide), change_lcam_rcam, ← hxf]
      rfl
    rw [lcamCvToRcamCv, hmap]

end

/-! ### Two parallel cameras -/

/-- The cameras differ in the first coordinate only. -/
noncomputable def parallelCameras : CameraParams ℝ where
  params := fun
    | .camResolution => [640, 480]
    | .fc _ => [250, 250]
    | .cc _ => [320, 240]
    | .kc _ => [0, 0, 0, 0]
    | .glHRglL => [1, 0, 0, 0]
    | .glHtglL => [0, 0, 0]
    | .glLRglR => [1, 0, 0, 0]
    | .glLtglR => [1 / 10, 0, 0]
    | .cameraModel => [2]
    | .generateMethod => [1]
  nrCameras := 2

theorem parallelCameras_unitRotations : parallelCameras.UnitRotations := by
  constructor <;> simp [CameraParams.rotation, parallelCameras, HandPose.Quat.squaredNorm]

theorem stereoExtrinsics_agree_parallel :
    ∃ service, setGlobalCameraParams realFns 0 parallelCameras .init = .ok service ∧
      ∀ rcam, (convertCameraModel (convertCameraInfo parallelCameras))[1]? = some rcam →
        service.getTransform XrealCoordSystem.cvRightCam.index
            XrealCoordSystem.cvLeftCam.index = rcam.cameraToWorldXf ∧
          ∀ points, lcamCvToRcamCv service points = points.map rcam.worldToEye :=
  stereoExtrinsics_agree realFns 0 parallelCameras parallelCameras_unitRotations rfl (Or.inl rfl)

end Calibration

/-
The calibration of the glasses, from the device to the camera models.

It goes through lists of numbers with names (`CameraParams`) and through a row of twelve
coefficients (`CamInfo`).  Of the two cameras the left one tells the camera model of both.

* `getCamerasInformation` — `Hmd::GetCamerasInformation`;
* `convertCameraInfo`, `convertCameraModel`;
* `convertCameraModel_matches_iff` — when the models have the coefficients of the device.
-/
import HandTracking.HandRotation
import HandTracking.HandsData
import Mathlib.Data.Rat.Floor

namespace Calibration

open Camera Calculator HandPose

/-- `NRCameraModel`; all values that the code does not tell apart are `other`. -/
inductive NRCameraModel where
  | radial
  | fisheye
  | fisheyeRttp
  | other
  deriving DecidableEq, Repr

/-- `NRCameraDistortion`: the coefficients of the two camera models, side by side. -/
structure NRCameraDistortion (K : Type) where
  cameraModel : NRCameraModel
  radialK1 : K
  radialK2 : K
  radialP1 : K
  radialP2 : K
  radialK3 : K
  fisheyeK1 : K
  fisheyeK2 : K
  fisheyeK3 : K
  fisheyeK4 : K
  fisheyeK5 : K
  fisheyeK6 : K
  fisheyeP1 : K
  fisheyeP2 : K
  fisheyeS1 : K
  fisheyeS2 : K
  fisheyeS3 : K
  fisheyeS4 : K

/-- `NRMat3f`, by its columns. -/
structure NRMat3f (K : Type) where
  column0 : Vec3 K
  column1 : Vec3 K
  column2 : Vec3 K

/-- `NRTransform`: a rotation and a position. -/
structure NRTransform (K : Type) where
  rotation : Quat K
  position : Vec3 K

/-- What the device reports of a camera. -/
structure Component (K : Type) where
  width : ℤ
  height : ℤ
  intrinsic : NRMat3f K
  distortion : NRCameraDistortion K

/-- What the interface of the device returns about the cameras. -/
structure HmdInterface (K : Type) where
  component : Cam → Component K
  /-- from the left camera to the head -/
  extrinsicsLh : NRTransform K
  /-- from the right camera to the left one -/
  extrinsicsLr : NRTransform K

/-- The members of `Hmd` that are set before. -/
structure Hmd where
  cameraModel : ℕ
  generateMethod : ℕ
  nrCameras : ℕ

/-- The keys of `m_params`: `cam_l_fc` and `cam_r_fc` are `fc`. -/
inductive ParamName where
  | camResolution
  | fc (cam : Cam)
  | cc (cam : Cam)
  | kc (cam : Cam)
  | glHRglL
  | glHtglL
  | glLRglR
  | glLtglR
  | cameraModel
  | generateMethod
  deriving DecidableEq, Repr

/-- A key that is missing has the empty list. -/
structure CameraParams (K : Type) where
  params : ParamName → List K
  nrCameras : ℕ

/-! ### Hmd -/

section

variable {K : Type}

/-- `_l_kc` and `_r_kc` -/
def NRCameraDistortion.kc (d : NRCameraDistortion K) : NRCameraModel → List K
  | .radial => [d.radialK1, d.radialK2, d.radialP1, d.radialP2, d.radialK3]
  | .fisheye => [d.fisheyeK1, d.fisheyeK2, d.fisheyeK3, d.fisheyeK4]
  | .fisheyeRttp =>
    [d.fisheyeK1, d.fisheyeK2, d.fisheyeK3, d.fisheyeK4, d.fisheyeK5, d.fisheyeK6,
      d.fisheyeP1, d.fisheyeP2, d.fisheyeS1, d.fisheyeS2, d.fisheyeS3, d.fisheyeS4]
  | .other => []

/-- The coefficients that a camera reports. -/
def NRCameraDistortion.coefficients (d : NRCameraDistortion K) : List K := d.kc d.cameraModel

/-- `GetCamerasInformation` writes the parameters of the camera. -/
def Hmd.hasCam (hmd : Hmd) : Cam → Bool
  | .lcam => true
  | .rcam => hmd.nrCameras = 2

/-- A rotation as the code stores it, the real part first. -/
def rotationParams (T : NRTransform K) : List K :=
  [T.rotation.qw, T.rotation.qx, T.rotation.qy, T.rotation.qz]

/-- A position as the code stores it. -/
def positionParams (T : NRTransform K) : List K := [T.position 0, T.position 1, T.position 2]

/-- `m_camera_model` after the cameras were asked. -/
def Hmd.newCameraModel (hmd : Hmd) : NRCameraModel → ℕ
  | .radial => 1
  | .fisheye => 2
  | .fisheyeRttp => 3
  | .other => hmd.cameraModel

variable [Field K]

/-- `Hmd::GetCamerasInformation`: the named parameters of both cameras. -/
def getCamerasInformation (hmd : Hmd) (device : HmdInterface K) : CameraParams K :=
  let model := (device.component .lcam).distortion.cameraModel
  { params := fun
      | .camResolution =>
        [((device.component .lcam).width : K), ((device.component .lcam).height : K)]
      | .fc cam => if hmd.hasCam cam then
          [(device.component cam).intrinsic.column0 0, (device.component cam).intrinsic.column1 1]
        else []
      | .cc cam => if hmd.hasCam cam then
          [(device.component cam).intrinsic.column2 0, (device.component cam).intrinsic.column2 1]
        else []
      | .kc cam => if hmd.hasCam cam then (device.component cam).distortion.kc model else []
      | .glHRglL => rotationParams device.extrinsicsLh
      | .glHtglL => positionParams device.extrinsicsLh
      | .glLRglR => if hmd.nrCameras = 2 then rotationParams device.extrinsicsLr else [1, 0, 0, 0]
      | .glLtglR => if hmd.nrCameras = 2 then positionParams device.extrinsicsLr else [0, 0, 0]
      | .cameraModel => [(hmd.newCameraModel model : K)]
      | .generateMethod => [(hmd.generateMethod : K)]
    nrCameras := hmd.nrCameras }

end

/-! ### ConvertCameraInfo -/

/-- `CamInfo`, which `ConvertCameraInfo` fills from the named parameters. -/
structure CamInfo (K : Type) where
  cvLTcvR : Isometry3 K
  intrinsics : Cam → Matrix3 K
  distCoeffs : Cam → Fin 12 → K
  cameraType : ℤ
  generateMethod : ℤ
  valid : Cam → Bool
  videoWidth : ℕ
  videoHeight : ℕ

section

variable {K : Type} [Field K]

/-- `gl_R_cv` -/
def glRcv (generateMethod : ℤ) : Matrix3 K :=
  if generateMethod = 1 then Matrix.diagonal ![1, -1, -1] else 1

/-- The quaternion under a key: `w`, `x`, `y` and `z`. -/
def CameraParams.rotation (camera : CameraParams K) (name : ParamName) : Quat K :=
  let q := camera.params name
  { qw := q.getD 0 0, qx := q.getD 1 0, qy := q.getD 2 0, qz := q.getD 3 0 }

/-- A stored position as a vector; a missing entry reads 0. -/
def CameraParams.position (camera : CameraParams K) (name : ParamName) : Vec3 K :=
  let t := camera.params name
  ![t.getD 0 0, t.getD 1 0, t.getD 2 0]

/-- `glL_T_glR` -/
def CameraParams.glLTglR (camera : CameraParams K) : Isometry3 K :=
  ((1 : Isometry3 K).rotate (camera.rotation .glLRglR).toRotationMatrix).pretranslate
    (camera.position .glLtglR)

/-- The matrix of focal lengths and a principal point. -/
def intrinsicMatrix (fc cc : List K) : Matrix3 K :=
  !![fc.getD 0 0, 0, cc.getD 0 0;
     0, fc.getD 1 0, cc.getD 1 0;
     0, 0, 1]

/-- The coefficients written over `cv::Mat::eye(1, 12)`. -/
def distCoeffsOf (kc : List K) : Fin 12 → K := fun k =>
  kc.getD k (if k = 0 then 1 else 0)

variable [LinearOrder K] [FloorRing K]

/-- `(int)` -/
def truncate (x : K) : ℤ := if 0 ≤ x then ⌊x⌋ else ⌈x⌉

/-- The data of a right camera that the device does not have are not read. -/
def convertCameraInfo (camera : CameraParams K) : CamInfo K :=
  let generateMethod := truncate ((camera.params .generateMethod).getD 0 0)
  let glTcv := (1 : Isometry3 K).rotate (glRcv generateMethod)
  { cvLTcvR := glTcv * camera.glLTglR * glTcv
    intrinsics := fun cam => intrinsicMatrix (camera.params (.fc cam)) (camera.params (.cc cam))
    distCoeffs := fun cam => distCoeffsOf (camera.params (.kc cam))
    cameraType := truncate ((camera.params .cameraModel).getD 0 0)
    generateMethod := generateMethod
    valid := fun
      | .lcam => true
      | .rcam => camera.nrCameras = 2
    videoWidth := (truncate ((camera.params .camResolution).getD 0 0)).toNat
    videoHeight := (truncate ((camera.params .camResolution).getD 1 0)).toNat }

end

/-! ### ConvertCameraModel -/

section

variable {K : Type}

/-- `static_cast<CameraType>` -/
def cameraTypeOf : ℤ → CameraType
  | 1 => .pinhole
  | 2 => .fisheye400
  | 3 => .fisheye624
  | _ => .unknown

variable [Field K]

/-- A camera of `cam_info` with one of the distortion models. -/
def CamInfo.camera (info : CamInfo K) (distortion : (Fin 12 → K) → Distortion K) (cam : Cam) :
    CameraModel K where
  cameraIntrinsics :=
    { fx := info.intrinsics cam 0 0
      fy := info.intrinsics cam 1 1
      cx := info.intrinsics cam 0 2
      cy := info.intrinsics cam 1 2 }
  distortionModel := distortion (info.distCoeffs cam)
  cameraToWorldXf := match cam with
    | .lcam => 1
    | .rcam => info.cvLTcvR
  cameraType := cameraTypeOf info.cameraType
  videoWidth := info.videoWidth
  videoHeight := info.videoHeight

/-- The arguments of the constructors, from the row of coefficients. -/
def pinholeOf (d : Fin 12 → K) : Distortion K := .openCVPinhole (d 0) (d 1) (d 2) (d 3) (d 4)

/-- The fisheye distortion of the first four coefficients. -/
def fisheyeOf (d : Fin 12 → K) : Distortion K := .openCVFisheye (d 0) (d 1) (d 2) (d 3)

/-- This constructor takes `p1` and `p2` in the fifth and sixth place. -/
def fisheye624Of (d : Fin 12 → K) : Distortion K :=
  .fisheye624 (d 0) (d 1) (d 2) (d 3) (d 4) (d 5) (d 6) (d 7) (d 8) (d 9) (d 10) (d 11)

/-- `format_pinhole_camera_model`: a camera for each side that is valid. -/
def formatPinholeCameraModel (info : CamInfo K) : List (CameraModel K) :=
  ([Cam.lcam, .rcam].filter info.valid).map (info.camera pinholeOf)

/-- `format_opencv_fisheye_camera_model`: both cameras. -/
def formatOpencvFisheyeCameraModel (info : CamInfo K) : List (CameraModel K) :=
  [Cam.lcam, .rcam].map (info.camera fisheyeOf)

/-- `format_fisheye624_camera_model`: both cameras. -/
def formatFisheye624CameraModel (info : CamInfo K) : List (CameraModel K) :=
  [Cam.lcam, .rcam].map (info.camera fisheye624Of)

/-- `ConvertCameraModel`: the cameras of the type that the configuration names. -/
def convertCameraModel (info : CamInfo K) : List (CameraModel K) :=
  if info.cameraType = 1 then formatPinholeCameraModel info
  else if info.cameraType = 2 then formatOpencvFisheyeCameraModel info
  else if info.cameraType = 3 then formatFisheye624CameraModel info
  else []

end

/-! ### From the device to the models -/

section

variable {K : Type} [Field K]

/-- The model has the intrinsics and the coefficients that a camera reports. -/
def Matches (model : CameraModel K) (c : Component K) : Prop :=
  model.cameraIntrinsics =
      ⟨c.intrinsic.column0 0, c.intrinsic.column1 1, c.intrinsic.column2 0, c.intrinsic.column2 1⟩ ∧
    model.getDistortionParams = c.distortion.coefficients

/-- The cameras that the device has. -/
def Hmd.cams (hmd : Hmd) : List Cam := [Cam.lcam, .rcam].filter hmd.hasCam

/-- One pinhole camera, or two cameras of one of the three models. -/
structure IsCalibration (hmd : Hmd) (device : HmdInterface K) : Prop where
  known : (device.component .lcam).distortion.cameraModel ≠ .other
  nrCameras : hmd.nrCameras = 2 ∨
    hmd.nrCameras = 1 ∧ (device.component .lcam).distortion.cameraModel = .radial
  same : ∀ cam, hmd.hasCam cam → (device.component cam).distortion.cameraModel =
    (device.component .lcam).distortion.cameraModel

/-- Where the constructor takes `p1` and `p2` it gets `k5` and `k6`, and the other way round. -/
def SwappedAgree (d : NRCameraDistortion K) : Prop :=
  d.fisheyeK5 = d.fisheyeP1 ∧ d.fisheyeK6 = d.fisheyeP2

/-- The constructor behind a camera model. -/
def distortionOf : NRCameraModel → (Fin 12 → K) → Distortion K
  | .radial => pinholeOf
  | .fisheye => fisheyeOf
  | .fisheyeRttp => fisheye624Of
  | .other => fun _ => .noDistortion

theorem params_distortionOf_iff (d : NRCameraDistortion K) (model : NRCameraModel) :
    (distortionOf model (distCoeffsOf (d.kc model))).params = d.kc model ↔
      (model = .fisheyeRttp → SwappedAgree d) := by
  cases model with
  | radial => exact iff_of_true rfl fun h => absurd h (by decide)
  | fisheye => exact iff_of_true rfl fun h => absurd h (by decide)
  | other => exact iff_of_true rfl fun h => absurd h (by decide)
  | fisheyeRttp =>
    -- the getter returns them in the order in which they were stored.
    have hparams : ∀ k1 k2 k3 k4 k5 k6 p1 p2 s1 s2 s3 s4 : K,
        [k1, k2, k3, k4, p1, p2, k5, k6, s1, s2, s3, s4] =
          [k1, k2, k3, k4, k5, k6, p1, p2, s1, s2, s3, s4] ↔ k5 = p1 ∧ k6 = p2 := by
      intro k1 k2 k3 k4 k5 k6 p1 p2 s1 s2 s3 s4
      constructor
      · intro h
        simp only [List.cons.injEq, true_and] at h
        exact ⟨h.1.symm, h.2.1.symm⟩
      · rintro ⟨rfl, rfl⟩
        rfl
    rw [forall_prop_of_true rfl]
    exact hparams ..

variable [LinearOrder K] [FloorRing K]

theorem truncate_natCast [IsStrictOrderedRing K] (n : ℕ) : truncate (n : K) = n := by
  rw [truncate, if_pos (Nat.cast_nonneg n), Int.floor_natCast]

variable (hmd : Hmd) (device : HmdInterface K)

theorem cameraType_convertCameraInfo [IsStrictOrderedRing K] :
    (convertCameraInfo (getCamerasInformation hmd device)).cameraType =
      hmd.newCameraModel (device.component .lcam).distortion.cameraModel :=
  truncate_natCast _

theorem valid_convertCameraInfo :
    (convertCameraInfo (getCamerasInformation hmd device)).valid = hmd.hasCam := by
  funext cam
  cases cam <;> rfl

variable {hmd device}

/-- The intrinsics always survive; the coefficients come as they were stored. -/
theorem camera_matches_iff {cam : Cam} (hcam : hmd.hasCam cam)
    (distortion : (Fin 12 → K) → Distortion K) :
    Matches ((convertCameraInfo (getCamerasInformation hmd device)).camera distortion cam)
        (device.component cam) ↔
      (distortion (distCoeffsOf ((device.component cam).distortion.kc
        (device.component .lcam).distortion.cameraModel))).params =
          (device.component cam).distortion.coefficients := by
  have hinfo : (convertCameraInfo (getCamerasInformation hmd device)).distCoeffs cam =
      distCoeffsOf ((device.component cam).distortion.kc
        (device.component .lcam).distortion.cameraModel) := by
    simp only [convertCameraInfo, getCamerasInformation, if_pos hcam]
  rw [← hinfo]
  refine and_iff_right ?_
  simp only [CamInfo.camera, convertCameraInfo, getCamerasInformation, if_pos hcam]
  rfl

/-- The models of both cameras are built in the same way. -/
theorem forall₂_matches_iff (distortion : (Fin 12 → K) → Distortion K) :
    List.Forall₂ Matches
        (hmd.cams.map
          ((convertCameraInfo (getCamerasInformation hmd device)).camera distortion))
        (hmd.cams.map device.component) ↔
      ∀ cam, hmd.hasCam cam → (distortion (distCoeffsOf ((device.component cam).distortion.kc
        (device.component .lcam).distortion.cameraModel))).params =
          (device.component cam).distortion.coefficients := by
  rw [List.forall₂_map_left_iff, List.forall₂_map_right_iff, List.forall₂_same]
  constructor
  · intro h cam hcam
    have hmem : cam ∈ hmd.cams := by
      refine List.mem_filter.mpr ⟨?_, hcam⟩
      cases cam <;> simp
    exact (camera_matches_iff hcam distortion).mp (h cam hmem)
  · intro h cam hmem
    have hcam := (List.mem_filter.mp hmem).2
    exact (camera_matches_iff hcam distortion).mpr (h cam hcam)

omit [Field K] [LinearOrder K] [FloorRing K] in
theorem hasCam_of_ne_radial (h : IsCalibration hmd device)
    (hne : (device.component .lcam).distortion.cameraModel ≠ .radial) (cam : Cam) :
    hmd.hasCam cam := by
  cases cam with
  | lcam => rfl
  | rcam => exact decide_eq_true (h.nrCameras.resolve_right fun hone => hne hone.2)

/-- For each camera of the device there is a model, with the constructor of the camera model. -/
theorem convertCameraModel_eq [IsStrictOrderedRing K] (h : IsCalibration hmd device) :
    convertCameraModel (convertCameraInfo (getCamerasInformation hmd device)) =
      hmd.cams.map ((convertCameraInfo (getCamerasInformation hmd device)).camera
        (distortionOf (device.component .lcam).distortion.cameraModel)) := by
  have htype := cameraType_convertCameraInfo hmd device
  have hcams : (device.component .lcam).distortion.cameraModel ≠ .radial →
      hmd.cams = [.lcam, .rcam] := by
    intro hne
    have hall := hasCam_of_ne_radial h hne
    rw [Hmd.cams, List.filter_eq_self]
    exact fun cam _ => hall cam
  cases hmodel : (device.component .lcam).distortion.cameraModel with
  | other => exact absurd hmodel h.known
  | radial =>
    rw [hmodel] at htype
    have hone : (convertCameraInfo (getCamerasInformation hmd device)).cameraType = 1 := htype
    rw [convertCameraModel, if_pos hone, formatPinholeCameraModel, valid_convertCameraInfo]
    rfl
  | fisheye =>
    rw [hcams (by rw [hmodel]; decide)]
    rw [hmodel] at htype
    have htwo : (convertCameraInfo (getCamerasInformation hmd device)).cameraType = 2 := htype
    rw [convertCameraModel, if_neg (by rw [htwo]; decide), if_pos htwo]
    rfl
  | fisheyeRttp =>
    rw [hcams (by rw [hmodel]; decide)]
    rw [hmodel] at htype
    have hthree : (convertCameraInfo (getCamerasInformation hmd device)).cameraType = 3 := htype
    rw [convertCameraModel, if_neg (by rw [hthree]; decide), if_neg (by rw [hthree]; decide),
      if_pos hthree]
    rfl

theorem convertCameraModel_matches_iff [IsStrictOrderedRing K] (h : IsCalibration hmd device) :
    List.Forall₂ Matches (convertCameraModel (convertCameraInfo (getCamerasInformation hmd device)))
        (hmd.cams.map device.component) ↔
      ((device.component .lcam).distortion.cameraModel = .fisheyeRttp →
        ∀ cam, SwappedAgree (device.component cam).distortion) := by
  -- the list of a camera is stored by the model of the left one, which is the model of both.
  have hcoefficients : ∀ cam, hmd.hasCam cam → (device.component cam).distortion.coefficients =
      (device.component cam).distortion.kc
        (device.component .lcam).distortion.cameraModel := by
    intro cam hcam
    rw [NRCameraDistortion.coefficients, h.same cam hcam]
  rw [convertCameraModel_eq h, forall₂_matches_iff]
  constructor
  · intro hparams hmodel cam
    have hcam := hasCam_of_ne_radial h (by rw [hmodel]; decide) cam
    have hcamParams := hparams cam hcam
    rw [hcoefficients cam hcam] at hcamParams
    exact (params_distortionOf_iff _ _).mp hcamParams hmodel
  · intro hswapped cam hcam
    rw [hcoefficients cam hcam]
    exact (params_distortionOf_iff _ _).mpr fun hmodel => hswapped hmodel cam

end

/-! ### A coefficient that the other does not share -/

/-- Two cameras of the 624 model, with one coefficient. -/
def floraDevice (k5 : ℚ) : HmdInterface ℚ where
  component _ :=
    { width := 640
      height := 480
      intrinsic := ⟨![250, 0, 0], ![0, 250, 0], ![320, 240, 1]⟩
      distortion := ⟨.fisheyeRttp, 0, 0, 0, 0, 0, 0, 0, 0, 0, k5, 0, 0, 0, 0, 0, 0, 0⟩ }
  extrinsicsLh := ⟨⟨0, 0, 0, 1⟩, 0⟩
  extrinsicsLr := ⟨⟨0, 0, 0, 1⟩, ![1 / 10, 0, 0]⟩

/-- A device with two cameras, of the type of flora. -/
def floraHmd : Hmd := ⟨3, 1, 2⟩

theorem isCalibration_flora (k5 : ℚ) : IsCalibration floraHmd (floraDevice k5) where
  known := by
    intro h
    cases h
  nrCameras := Or.inl rfl
  same _ _ := rfl

/-- Two cameras whose `k5` is their `p1` and whose `k6` is their `p2`. -/
def agreeingDevice : HmdInterface ℚ :=
  { floraDevice 0 with
    component := fun cam =>
      { (floraDevice 0).component cam with
        distortion := ⟨.fisheyeRttp, 0, 0, 0, 0, 0, 21 / 100, -3 / 100, 4 / 1000, -1 / 1000,
          7 / 1000, -2 / 1000, 7 / 1000, -2 / 1000, 1 / 1000, 3 / 1000, -4 / 1000, 5 / 1000⟩ } }

theorem isCalibration_agreeing : IsCalibration floraHmd agreeingDevice where
  known := by
    intro h
    cases h
  nrCameras := Or.inl rfl
  same _ _ := rfl

theorem convertCameraModel_matches_iff_agreeing :
    List.Forall₂ Matches
      (convertCameraModel (convertCameraInfo (getCamerasInformation floraHmd agreeingDevice)))
      (floraHmd.cams.map agreeingDevice.component) :=
  (convertCameraModel_matches_iff isCalibration_agreeing).mpr fun _ _ => ⟨rfl, rfl⟩

/-- The model has `k5` in the place of `p1`. -/
theorem floraDevice_coefficients_swapped :
    ¬ ∀ (hmd : Hmd) (device : HmdInterface ℚ), IsCalibration hmd device →
      List.Forall₂ Matches
        (convertCameraModel (convertCameraInfo (getCamerasInformation hmd device)))
        (hmd.cams.map device.component) := by
  intro h
  have hmatches := h floraHmd (floraDevice 1) (isCalibration_flora 1)
  rw [convertCameraModel_eq (isCalibration_flora 1), forall₂_matches_iff] at hmatches
  have hswapped := (params_distortionOf_iff _ _).mp (hmatches .lcam rfl) rfl
  exact absurd hswapped.1 one_ne_zero

end Calibration

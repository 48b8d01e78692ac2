/-
The two landmark calculators: which part of which image the network sees for a hand, and
what is published for it.

`HandLandmarkCalculator` runs the network on one image at a time, and
`HandLandmarkBatchCalculator` on both images of a hand that is in both.  A crop is described
by the points of the image at which its pixels are sampled; the network is any function of
its crops.

* `virtualCameraFromBox` — the virtual camera of a box;
* `handLandmark`, `handLandmarkBatch` — `Process` of the calculators;
* `handLandmark_shows_iff`, `handLandmarkBatch_shows_iff` — when a crop shows the camera it is
  published for, in terms of the vector code;
* `perspectiveCrop_shows_iff` — the same in terms of the models of the cameras.
-/
import HandTracking.HandRotation
import HandTracking.HandsData
import HandTracking.PerspectiveCrop

namespace Landmark

open Camera Calculator

/-- `DetectRect`: a corner and the sides. -/
structure DetectRect (K : Type) where
  x : K
  y : K
  w : K
  h : K

/-- `DetOutputInternal`: a box for each hand in each image. -/
structure DetOutputInternal (K : Type) where
  valid : Hand → Cam → Bool
  rect : Hand → Cam → DetectRect K

/-- The center and the size of a box. -/
structure BboxCs (K : Type) where
  center : Vec2 K
  scale : Vec2 K

/-- How the hand is cut out of the image. -/
inductive CropMethod where
  | warpAffine
  | pcl
  deriving DecidableEq, Repr

/-- A crop of the image of a camera: an upright box, or the points of the image at which the
pixels are sampled. -/
inductive Crop (K : Type) where
  | warpAffine (image : Cam) (rect : BboxCs K)
  | perspective (image : Cam) (coord : ℕ → ℕ → Option (Vec2 K))

/-- The result of the network, for each of its crops. -/
structure Kpt2dResult (K : Type) where
  kpts : ℕ → Fin kAlgoKeypointNum → Vec2 K
  rdepths : List (List K)
  holdLabels : List Bool
  rawFeats : ℕ → List K

/-- The crops as the network gets them, with a flag for the mirrored ones. -/
abbrev Net (K : Type) := List (Crop K × Bool) → Option (Kpt2dResult K)

/-- What the landmark calculator gets from its configuration and from libraries. -/
structure LandmarkConfig (K : Type) [Field K] [LinearOrder K] where
  fns : RealFns K
  lib : CameraLib K
  eigen : HandPose.Eigen K
  camModel : Cam → CameraModel K
  inputWidth : ℕ
  inputHeight : ℕ
  bboxExpandRatio : K

/-- What is published of a hand in a camera, and the crop that the network got for it. -/
structure Published (K : Type) where
  seen : CamKeypoints K
  holdLabel : Bool
  crop : Option (Crop K)

section

variable {K : Type} [Field K] [LinearOrder K]

/-- What is published of a hand that is not processed. -/
def Published.init : Published K := ⟨.init, false, none⟩

/-! ### The virtual camera of a box -/

/-- `GetCropBboxShape` -/
def getCropBboxShape (rect : DetectRect K) (scale : K) : BboxCs K :=
  let side := max (rect.w * scale) (rect.h * scale)
  ⟨![rect.x + rect.w * (1 / 2), rect.y + rect.h * (1 / 2)], ![side, side]⟩

/-- `fix_aspect_ratio`: the shorter side is made longer. -/
def fixAspectRatio (bboxScale : Vec2 K) (aspectRatio : K) : Vec2 K :=
  if bboxScale 1 * aspectRatio < bboxScale 0 then ![bboxScale 0, bboxScale 0 / aspectRatio]
  else ![bboxScale 1 * aspectRatio, bboxScale 1]

/-- `make_look_at_matrix` for a camera at the origin. -/
def lookAt (eigen : HandPose.Eigen K) (center : Vec3 K) (cameraAngle : K) : Isometry3 K :=
  let eyeToWorld : Isometry3 K := 1
  let deltaR := eigen.fromTwoVectors ![0, 0, 1] center
  ((eyeToWorld.rotate deltaR).rotate (eigen.angleAxis cameraAngle ![0, 0, 1])).inverse

/-- `gen_crop_parameters_from_points`, with the virtual intrinsics of `generate_virtual_K`. -/
def genCropParametersFromPoints (cfg : LandmarkConfig K) (cameraOrig : CameraModel K)
    (cropCenter : Vec2 K) (focalMultiplier : K) : PerspectiveCameraModel K :=
  let w : K := cfg.inputWidth
  let h : K := cfg.inputHeight
  let newWorldToEye := lookAt cfg.eigen (cameraOrig.windowToEye cfg.fns cfg.lib cropCenter) 0
  let maxWidth := max w h
  let minF := min (cameraOrig.cameraIntrinsics.fx / maxWidth * w)
    (cameraOrig.cameraIntrinsics.fy / maxWidth * w)
  let camera : CameraModel K :=
    { cameraIntrinsics :=
        ⟨minF * focalMultiplier, minF * focalMultiplier, 1 / 2 * w - 1 / 2, 1 / 2 * w - 1 / 2⟩
      distortionModel := .noDistortion
      cameraToWorldXf := newWorldToEye.inverse
      cameraType := .pinhole
      videoWidth := cfg.inputWidth
      videoHeight := cfg.inputHeight }
  ⟨camera, rfl⟩

/-- `GetVirtualCameraFromBox` -/
def virtualCameraFromBox (cfg : LandmarkConfig K) (cameraOrig : CameraModel K)
    (bbox : BboxCs K) : PerspectiveCameraModel K :=
  let w : K := cfg.inputWidth
  let h : K := cfg.inputHeight
  genCropParametersFromPoints cfg cameraOrig bbox.center (w / fixAspectRatio bbox.scale (w / h) 0)

/-! ### HandLandmarkCalculator -/

/-- A keypoint of the network, mirrored back and brought to the image for an upright crop. -/
def keypointBack (cfg : LandmarkConfig K) (hand : Hand) (cropMethod : CropMethod) (rect : BboxCs K)
    (kpt : Vec2 K) : Vec2 K :=
  let w : K := cfg.inputWidth
  let h : K := cfg.inputHeight
  let x := match hand with
    | .left => w - 1 - kpt 0
    | .right => kpt 0
  match cropMethod with
  | .warpAffine => ![x * rect.scale 0 / w + rect.center 0 - rect.scale 0 * (1 / 2),
      kpt 1 * rect.scale 1 / h + rect.center 1 - rect.scale 1 * (1 / 2)]
  | .pcl => ![x, kpt 1]

/-- All keypoints of a crop, back in the image. -/
def keypointsBack (cfg : LandmarkConfig K) (hand : Hand) (cropMethod : CropMethod)
    (rect : BboxCs K) (kpts : Fin kAlgoKeypointNum → Vec2 K) : List (Vec2 K) :=
  List.ofFn fun i => keypointBack cfg hand cropMethod rect (kpts i)

/-- `HandLandmarkCalculator::ProcessSingleHand`: the perspective crop is taken with the model of
the left camera, and the virtual camera is made for the camera of the image. -/
def processSingleHand (cfg : LandmarkConfig K) (net : Net K) (hand : Hand) (image : Cam)
    (bbox : DetectRect K) (cropMethod : CropMethod) : Published K :=
  let rect := getCropBboxShape bbox cfg.bboxExpandRatio
  let virtualCamera := virtualCameraFromBox cfg (cfg.camModel image) rect
  let crop : Crop K := match cropMethod with
    | .warpAffine => .warpAffine image rect
    | .pcl => .perspective image
        (perspectiveCropImage cfg.fns (cfg.camModel .lcam) virtualCamera cfg.inputWidth)
  let seen : CamKeypoints K :=
    { CamKeypoints.init with
      virtualCamera := if cropMethod = .pcl then some virtualCamera else none }
  match net [(crop, hand = .left)] with
  | none => ⟨seen, false, some crop⟩
  | some result =>
    ⟨{ seen with
        kpt := keypointsBack cfg hand cropMethod rect (result.kpts 0)
        rdepth := match result.rdepths with
          | [] => seen.rdepth
          | rdepth :: _ => rdepth ++ seen.rdepth.drop rdepth.length
        valid := true }, false, some crop⟩

/-- `HandLandmarkCalculator::Process` -/
def handLandmark (cfg : LandmarkConfig K) (net : Net K) (bbox : DetOutputInternal K) (hand : Hand)
    (cam : Cam) : Published K :=
  let cropMethod : CropMethod :=
    if bbox.valid hand .lcam ∧ bbox.valid hand .rcam then .warpAffine else .pcl
  if bbox.valid hand cam then
    processSingleHand cfg net hand cam (bbox.rect hand cam) cropMethod
  else .init

theorem length_kpt_processSingleHand (cfg : LandmarkConfig K) (net : Net K) (hand : Hand)
    (image : Cam) (bbox : DetectRect K) (cropMethod : CropMethod) :
    (processSingleHand cfg net hand image bbox cropMethod).seen.kpt.length = kAlgoKeypointNum := by
  unfold processSingleHand
  dsimp only
  generalize net _ = result
  cases result with
  | none => exact CamKeypoints.length_kpt_init
  | some result => exact List.length_ofFn

/-- The list of keypoints always has its size. -/
theorem length_kpt_handLandmark (cfg : LandmarkConfig K) (net : Net K) (bbox : DetOutputInternal K)
    (hand : Hand) (cam : Cam) :
    (handLandmark cfg net bbox hand cam).seen.kpt.length = kAlgoKeypointNum := by
  unfold handLandmark
  by_cases hbox : bbox.valid hand cam
  · rw [if_pos hbox]
    exact length_kpt_processSingleHand cfg net hand cam _ _
  · rw [if_neg hbox]
    exact CamKeypoints.length_kpt_init

/-! ### HandLandmarkBatchCalculator -/

/-- `mono_valid_bbox_area_` -/
def monoValidBboxArea : K := 15000

/-- `HandLandmarkBatchCalculator::ProcessSingleHand`, with the area check of `Process`. -/
def processSingleHandRaw (cfg : LandmarkConfig K) (net : Net K) (hand : Hand) (image : Cam)
    (bbox : DetectRect K) : Published K :=
  let rect := getCropBboxShape bbox cfg.bboxExpandRatio
  let virtualCamera := virtualCameraFromBox cfg (cfg.camModel image) rect
  let crop : Crop K := .perspective image fun x y =>
    some (perspectiveCropImageRaw cfg.fns cfg.lib (cfg.camModel image) virtualCamera true x y)
  let seen : CamKeypoints K := { CamKeypoints.init with virtualCamera := some virtualCamera }
  match net [(crop, hand = .left), (crop, hand = .left)] with
  | none => ⟨seen, false, some crop⟩
  | some result =>
    ⟨{ seen with
        kpt := keypointsBack cfg hand .pcl rect (result.kpts 0)
        rawFeats := result.rawFeats 0
        predX := List.ofFn fun i => result.kpts 0 i 0
        predY := List.ofFn fun i => result.kpts 0 i 1
        valid := decide (bbox.w * bbox.h < monoValidBboxArea) },
      result.holdLabels.getD 0 false, some crop⟩

/-- The crop of one image in `ProcessBatchHand`. -/
def batchCrop (cfg : LandmarkConfig K) (cropMethod : CropMethod) (bbox : Cam → DetectRect K)
    (image : Cam) : Crop K :=
  let rect := getCropBboxShape (bbox image) cfg.bboxExpandRatio
  match cropMethod with
  | .warpAffine => .warpAffine image rect
  | .pcl => .perspective image (perspectiveCropImage cfg.fns (cfg.camModel image)
      (virtualCameraFromBox cfg (cfg.camModel image) rect) cfg.inputWidth)

/-- `ProcessBatchHand` -/
def processBatchHand (cfg : LandmarkConfig K) (net : Net K) (hand : Hand) (cropMethod : CropMethod)
    (bbox : Cam → DetectRect K) (cam : Cam) : Published K :=
  let rect := getCropBboxShape (bbox cam) cfg.bboxExpandRatio
  let crop := batchCrop cfg cropMethod bbox
  let seen : CamKeypoints K :=
    { CamKeypoints.init with
      virtualCamera := if cropMethod = .pcl then
        some (virtualCameraFromBox cfg (cfg.camModel cam) rect) else none }
  let index := match cam with
    | .lcam => 0
    | .rcam => 1
  match net [(crop .lcam, hand = .left), (crop .rcam, hand = .left)] with
  -- if the call comes back at all: the log statement before the check reads the result
  | none => ⟨seen, false, some (crop cam)⟩
  | some result =>
    ⟨{ seen with
        kpt := keypointsBack cfg hand cropMethod rect (result.kpts index)
        valid := true },
      result.holdLabels.getD 0 false && result.holdLabels.getD 1 false, some (crop cam)⟩

/-- `HandLandmarkBatchCalculator::Process` -/
def handLandmarkBatch (cfg : LandmarkConfig K) (pclAble : Bool) (net : Net K)
    (bbox : DetOutputInternal K) (hand : Hand) (cam : Cam) : Published K :=
  if bbox.valid hand .lcam ∧ bbox.valid hand .rcam then
    processBatchHand cfg net hand (if pclAble then .pcl else .warpAffine) (bbox.rect hand) cam
  else if bbox.valid hand (ownCam hand) ∧ cam = ownCam hand then
    processSingleHandRaw cfg net hand cam (bbox.rect hand cam)
  else .init

/-- The published keypoints as one structure. -/
def kpt2dInternal (out : Hand → Cam → Published K) : Kpt2dInternal K where
  seen hand cam := (out hand cam).seen
  holdLabel hand := (out hand .lcam).holdLabel || (out hand .rcam).holdLabel

/-! ### What a crop shows -/

/-- Every pixel of the crop is sampled, in the image of the camera, at the point to which the
camera sends the ray of the pixel of the virtual camera. -/
def Shows (cfg : LandmarkConfig K) (cam : Cam) (v : PerspectiveCameraModel K)
    (crop : Option (Crop K)) :
    Prop :=
  ∃ coord, crop = some (.perspective cam coord) ∧
    ∀ x < cfg.inputWidth, ∀ y < cfg.inputHeight,
      coord x y = some ((cfg.camModel cam).eyeToWindow cfg.fns cfg.lib
        (pixelRay cfg.fns cfg.lib v x y))

/-- The vector code sends the rays of the virtual camera with the model `src` where the camera
of the image sends them. -/
def LanesAgree (cfg : LandmarkConfig K) (src : CameraModel K) (cam : Cam)
    (v : PerspectiveCameraModel K) : Prop :=
  ∀ x < cfg.inputWidth, ∀ y < cfg.inputHeight,
    laneEyeToWindow cfg.fns src (pixelRay cfg.fns cfg.lib v x y) =
      some ((cfg.camModel cam).eyeToWindow cfg.fns cfg.lib (pixelRay cfg.fns cfg.lib v x y))

/-- No ray of the virtual camera goes backwards; or it would be sampled outside anyway. -/
def DepthsPass (cfg : LandmarkConfig K) (cam : Cam) (v : PerspectiveCameraModel K) : Prop :=
  ∀ x < cfg.inputWidth, ∀ y < cfg.inputHeight,
    0 ≤ pixelRay cfg.fns cfg.lib v x y 2 ∨
      (cfg.camModel cam).eyeToWindow cfg.fns cfg.lib (pixelRay cfg.fns cfg.lib v x y) = ![-1, -1]

variable {cfg : LandmarkConfig K} {cam : Cam} {v : PerspectiveCameraModel K}

theorem shows_perspective_iff {coord : ℕ → ℕ → Option (Vec2 K)} :
    Shows cfg cam v (some (.perspective cam coord)) ↔
      ∀ x < cfg.inputWidth, ∀ y < cfg.inputHeight,
        coord x y = some ((cfg.camModel cam).eyeToWindow cfg.fns cfg.lib
          (pixelRay cfg.fns cfg.lib v x y)) := by
  constructor
  · rintro ⟨coord', hcrop, hshows⟩
    obtain ⟨-, rfl⟩ := Crop.perspective.inj (Option.some.inj hcrop)
    exact hshows
  · intro hshows
    exact ⟨coord, rfl, hshows⟩

/-- A crop by the vector code, with the model `src`. -/
theorem shows_perspectiveCropImage_iff (hwidth : 16 ∣ cfg.inputWidth) (src : CameraModel K) :
    Shows cfg cam v
        (some (.perspective cam (perspectiveCropImage cfg.fns src v cfg.inputWidth))) ↔
      LanesAgree cfg src cam v := by
  rw [shows_perspective_iff]
  refine forall₂_congr fun x hx => forall₂_congr fun y _ => ?_
  rw [perspectiveCropImage_eq cfg.fns cfg.lib src v hwidth hx]

/-- A crop through the maps of the cameras. -/
theorem shows_perspectiveCropImageRaw_iff :
    Shows cfg cam v (some (.perspective cam fun x y =>
        some (perspectiveCropImageRaw cfg.fns cfg.lib (cfg.camModel cam) v true x y))) ↔
      DepthsPass cfg cam v := by
  rw [shows_perspective_iff]
  refine forall₂_congr fun x hx => forall₂_congr fun y _ => ?_
  rw [Option.some.injEq]
  by_cases hdepth : 0 ≤ pixelRay cfg.fns cfg.lib v x y 2
  · rw [perspectiveCropImageRaw_eq _ _ _ _ _ hdepth]
    exact iff_of_true rfl (Or.inl hdepth)
  · have hbehind : true ∧ pixelRay cfg.fns cfg.lib v x y 2 < 0 := ⟨rfl, not_le.mp hdepth⟩
    rw [perspectiveCropImageRaw, if_pos hbehind, or_iff_right hdepth]
    exact eq_comm

variable {net : Net K} {hand : Hand} {image : Cam}

/-- The crop behind keypoints with a virtual camera, in each of the three functions. -/
theorem processSingleHand_crop {bbox : DetectRect K} {cropMethod : CropMethod}
    (hv : (processSingleHand cfg net hand image bbox cropMethod).seen.virtualCamera = some v) :
    (processSingleHand cfg net hand image bbox cropMethod).crop = some (.perspective image
      (perspectiveCropImage cfg.fns (cfg.camModel .lcam) v cfg.inputWidth)) := by
  unfold processSingleHand at hv ⊢
  cases cropMethod with
  | warpAffine =>
    dsimp only at hv
    split at hv
    · cases hv
    · cases hv
  | pcl =>
    dsimp only at hv ⊢
    split at hv
    · obtain rfl := Option.some.inj hv
      rfl
    · obtain rfl := Option.some.inj hv
      rfl

theorem processSingleHandRaw_crop {bbox : DetectRect K}
    (hv : (processSingleHandRaw cfg net hand image bbox).seen.virtualCamera = some v) :
    (processSingleHandRaw cfg net hand image bbox).crop = some (.perspective image fun x y =>
      some (perspectiveCropImageRaw cfg.fns cfg.lib (cfg.camModel image) v true x y)) := by
  unfold processSingleHandRaw at hv ⊢
  dsimp only at hv ⊢
  split at hv
  · obtain rfl := Option.some.inj hv
    rfl
  · obtain rfl := Option.some.inj hv
    rfl

theorem processBatchHand_crop {bbox : Cam → DetectRect K} {cropMethod : CropMethod}
    (hv : (processBatchHand cfg net hand cropMethod bbox image).seen.virtualCamera = some v) :
    (processBatchHand cfg net hand cropMethod bbox image).crop = some (.perspective image
      (perspectiveCropImage cfg.fns (cfg.camModel image) v cfg.inputWidth)) := by
  unfold processBatchHand at hv ⊢
  cases cropMethod with
  | warpAffine =>
    dsimp only at hv
    split at hv
    · cases hv
    · cases hv
  | pcl =>
    dsimp only at hv ⊢
    split at hv
    · obtain rfl := Option.some.inj hv
      rfl
    · obtain rfl := Option.some.inj hv
      rfl

variable {bbox : DetOutputInternal K}

theorem handLandmark_shows_iff (hwidth : 16 ∣ cfg.inputWidth)
    (hv : (handLandmark cfg net bbox hand cam).seen.virtualCamera = some v) :
    Shows cfg cam v (handLandmark cfg net bbox hand cam).crop ↔
      LanesAgree cfg (cfg.camModel .lcam) cam v := by
  unfold handLandmark at hv ⊢
  by_cases hbox : bbox.valid hand cam
  · rw [if_pos hbox] at hv ⊢
    rw [processSingleHand_crop hv]
    exact shows_perspectiveCropImage_iff hwidth _
  · rw [if_neg hbox] at hv
    cases hv

theorem handLandmarkBatch_shows_iff {pclAble : Bool} (hwidth : 16 ∣ cfg.inputWidth)
    (hv : (handLandmarkBatch cfg pclAble net bbox hand cam).seen.virtualCamera = some v) :
    Shows cfg cam v (handLandmarkBatch cfg pclAble net bbox hand cam).crop ↔
      if bbox.valid hand .lcam ∧ bbox.valid hand .rcam then LanesAgree cfg (cfg.camModel cam) cam v
      else DepthsPass cfg cam v := by
  unfold handLandmarkBatch at hv ⊢
  by_cases hboth : bbox.valid hand .lcam ∧ bbox.valid hand .rcam
  · rw [if_pos hboth] at hv ⊢
    rw [if_pos hboth, processBatchHand_crop hv]
    exact shows_perspectiveCropImage_iff hwidth _
  · rw [if_neg hboth] at hv ⊢
    rw [if_neg hboth]
    by_cases hmono : bbox.valid hand (ownCam hand) ∧ cam = ownCam hand
    · rw [if_pos hmono] at hv ⊢
      rw [processSingleHandRaw_crop hv]
      exact shows_perspectiveCropImageRaw_iff
    · rw [if_neg hmono] at hv
      cases hv

/-- The camera of the image has every ray of the virtual camera where the vector code has it for
the model `src`. -/
def ModelsAgree (cfg : LandmarkConfig K) (src : CameraModel K) (cam : Cam)
    (v : PerspectiveCameraModel K) : Prop :=
  ∀ x < cfg.inputWidth, ∀ y < cfg.inputHeight,
    SentAlike cfg.fns cfg.lib src (cfg.camModel cam) (pixelRay cfg.fns cfg.lib v x y)

section Models

variable [IsStrictOrderedRing K]
  (hlib : ∀ kc p, squaredNorm p ≠ 0 →
    cfg.lib.fisheye624Distort kc p = staticDistort cfg.fns kc p)
include hlib

theorem lanesAgree_iff {src : CameraModel K} (hsrc : src.IsSource) :
    LanesAgree cfg src cam v ↔ ModelsAgree cfg src cam v :=
  forall₂_congr fun _ _ => forall₂_congr fun _ _ => laneEyeToWindow_eq_some_iff hlib hsrc _ _

/-- What the crops of the two calculators show whenever keypoints are published with a virtual
camera, as a condition on the models of the cameras. -/
theorem perspectiveCrop_shows_iff (hsrc : ∀ cam, (cfg.camModel cam).IsSource)
    (hwidth : 16 ∣ cfg.inputWidth) :
    ((handLandmark cfg net bbox hand cam).seen.valid →
      (handLandmark cfg net bbox hand cam).seen.virtualCamera = some v →
      (Shows cfg cam v (handLandmark cfg net bbox hand cam).crop ↔
        ModelsAgree cfg (cfg.camModel .lcam) cam v)) ∧
    ∀ pclAble, (handLandmarkBatch cfg pclAble net bbox hand cam).seen.valid →
      (handLandmarkBatch cfg pclAble net bbox hand cam).seen.virtualCamera = some v →
      (Shows cfg cam v (handLandmarkBatch cfg pclAble net bbox hand cam).crop ↔
        if bbox.valid hand .lcam ∧ bbox.valid hand .rcam then
          ModelsAgree cfg (cfg.camModel cam) cam v
        else DepthsPass cfg cam v) := by
  constructor
  · intro _ hv
    rw [handLandmark_shows_iff hwidth hv, lanesAgree_iff hlib (hsrc .lcam)]
  · intro pclAble _ hv
    rw [handLandmarkBatch_shows_iff hwidth hv, lanesAgree_iff hlib (hsrc cam)]

end Models

end

/-! ### Two cameras with different models -/

/-- The functions of Eigen over the real numbers, as far as parallel directions need them. -/
noncomputable def realEigen : HandPose.Eigen ℝ where
  norm p := Real.sqrt (p 0 * p 0 + p 1 * p 1 + p 2 * p 2)
  normalized p i := p i / Real.sqrt (p 0 * p 0 + p 1 * p 1 + p 2 * p 2)
  -- between vectors in the same direction
  fromTwoVectors _ _ := 1
  -- by the angle 0
  angleAxis _ _ := 1
  quaternion _ := ⟨0, 0, 0, 1⟩

/-- The principal point of the right camera is one pixel to the right. -/
noncomputable def shiftedConfig : LandmarkConfig ℝ where
  fns := realFns
  lib := realLib
  eigen := realEigen
  camModel
    | .lcam => unitCamera (.openCVPinhole 0 0 0 0 0) .pinhole
    | .rcam =>
      { unitCamera (.openCVPinhole 0 0 0 0 0) .pinhole with cameraIntrinsics := ⟨1, 1, 1, 0⟩ }
  inputWidth := 16
  inputHeight := 16
  bboxExpandRatio := 1

/-- The right hand in the right image only, around the principal point. -/
def rightBox : DetOutputInternal ℝ where
  valid hand cam := decide (hand = .right ∧ cam = .rcam)
  rect _ _ := ⟨0, -1, 2, 2⟩

/-- A network that finds all keypoints in the corner. -/
def zeroNet : Net ℝ := fun _ => some ⟨fun _ _ => 0, [], [], fun _ => []⟩

/-- Two cameras of one model, with some distortion, at two places. -/
noncomputable def apartConfig : LandmarkConfig ℝ :=
  { shiftedConfig with
    camModel := fun cam =>
      { unitCamera (.openCVPinhole 1 0 0 0 0) .pinhole with
        cameraToWorldXf := if cam = .lcam then 1 else ⟨1, ![1, 0, 0]⟩ } }

/-- The right hand in both images. -/
def bothBox : DetOutputInternal ℝ where
  valid hand _ := decide (hand = .right)
  rect _ _ := ⟨0, -1, 2, 2⟩

theorem perspectiveCrop_shows_iff_apart :
    (∃ v, (handLandmark apartConfig zeroNet rightBox .right .rcam).seen.virtualCamera = some v ∧
      Shows apartConfig .rcam v (handLandmark apartConfig zeroNet rightBox .right .rcam).crop) ∧
    ∃ v, (handLandmarkBatch apartConfig true zeroNet bothBox .right .rcam).seen.virtualCamera =
        some v ∧
      Shows apartConfig .rcam v
        (handLandmarkBatch apartConfig true zeroNet bothBox .right .rcam).crop := by
  have hsrc : ∀ cam, (apartConfig.camModel cam).IsSource := fun _ => ⟨rfl, nofun⟩
  have hmodels : ∀ image v, ModelsAgree apartConfig (apartConfig.camModel image) .rcam v := by
    intro image v x _ y _
    unfold SentAlike
    rw [if_pos (.inl rfl)]
    rfl
  constructor
  · exact ⟨_, rfl, ((perspectiveCrop_shows_iff (fun _ _ _ => rfl) hsrc (by decide)).1 rfl rfl).mpr
      (hmodels .lcam _)⟩
  · refine ⟨_, rfl, ((perspectiveCrop_shows_iff (fun _ _ _ => rfl) hsrc (by decide)).2 true rfl
      rfl).mpr ?_⟩
    rw [if_pos ⟨rfl, rfl⟩]
    exact hmodels .rcam _

/-- The crop of the right image is taken with the model of the left camera. -/
theorem rightImage_cropped_with_leftModel :
    ¬ ∀ (net : Net ℝ) (bbox : DetOutputInternal ℝ) (hand : Hand) (cam : Cam)
      (v : PerspectiveCameraModel ℝ),
      (handLandmark shiftedConfig net bbox hand cam).seen.valid →
      (handLandmark shiftedConfig net bbox hand cam).seen.virtualCamera = some v →
      Shows shiftedConfig cam v (handLandmark shiftedConfig net bbox hand cam).crop := by
  intro h
  have hshows := h zeroNet rightBox .right .rcam _ rfl rfl
  have hagree := (handLandmark_shows_iff (by decide) rfl).mp hshows 0 (by decide) 0 (by decide)
  rw [laneEyeToWindow_pinhole realLib rfl rfl] at hagree
  have hx := congrFun (Option.some.inj hagree) 0
  simp [CameraModel.eyeToWindow, CameraIntrinsics.denormalize, shiftedConfig, unitCamera] at hx

end Landmark

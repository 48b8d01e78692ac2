/-
The network that gets a hand in space from one camera.

The network sees a left hand mirrored.  `PostProcess` mirrors its keypoints back before it solves
for the pose, and the landmark calculator before it publishes them.

* `postProcess`, `inference` — from the tensors of the network to the points in space;
* `res3d_exact` — what the points are where the keypoints are exact;
* `left_keypoints_unmirrored_apart` — the two ways back differ by a pixel.
-/
import HandTracking.HandNimble
import HandTracking.Library.InPlace
import HandTracking.NetHandKpt3D
import HandTracking.HandLandmark

namespace Pose

open Camera Calculator Landmark Matrix

variable {K : Type} [Field K] [LinearOrder K]

/-- What the network puts out in a run. -/
structure NimbleTensors (K : Type) where
  svdPt : Fin 7 → Vec3 K
  angle : JointAngles K
  sigma : Fin 21 → Vec3 K

/-- `MonoHandNimbleOutputs` -/
structure MonoHandNimbleOutputs (K : Type) where
  kpts : Fin 21 → Vec2 K
  res3d : List (Vec3 K)
  kpt3dScore : K

/-- The functions of the libraries, and how they and the network hold their data. -/
structure FloraConfig (K : Type) where
  svd : JacobiSvd K
  exp : K → K
  /-- A product that is written over its factor takes two coefficients at once. -/
  packet : Bool
  /-- `m_packed_bybatch` -/
  packedByBatch : Bool

/-- `input_image_shape_` -/
def inputImageShape : ℕ := 128

/-- `standard_fscale_` -/
def standardFscale : K := 200

/-- The points that `svd_pt` is compared with. -/
def svdSrcPt : Fin 7 → Vec3 K :=
  ![![0, 0, 0], ![0.1, 0, 0], ![0, 0.1, 0], ![0, 0, 0.1], ![-0.07071068, -0.07071068, 0],
    ![-0.07071068, 0, -0.07071068], ![0, -0.07071068, -0.07071068]]

/-- The mirror of the left hand. -/
def flipX : Matrix3 K := !![-1, 0, 0; 0, 1, 0; 0, 0, 1]

omit [LinearOrder K] in
/-- Each row of the flip reads the one it is written over. -/
theorem mulInPlace_flipX (packet : Bool) (R : Matrix3 K) :
    mulInPlace packet flipX R = flipX * R := by
  rw [mulInPlace_eq]
  congr 1
  funext i j
  fin_cases i
  · exact mulInPlace_one_zero packet flipX j
  · show mulInPlace packet flipX 1 1 j = flipX 1 j
    rw [mulInPlace_one_first]
    simp [flipX]
  · show mulInPlace packet flipX 1 2 j = flipX 2 j
    rw [mulInPlace_one_second]
    simp [flipX]

/-- The matrix of the intrinsics. -/
def intrixMatrix (k : CameraIntrinsics K) : Matrix3 K := !![k.fx, 0, k.cx; 0, k.fy, k.cy; 0, 0, 1]

/-- The 26 points of the shape, turned like the hand. -/
def relKpt26 (cfg : FloraConfig K) (isLeft : Bool) (tensors : NimbleTensors K) (i : Fin 26) :
    Vec3 K :=
  let globalRotation := (getTransformWithSvd cfg.svd svdSrcPt tensors.svdPt).linear
  let globalRotation :=
    if isLeft then mulInPlace cfg.packet flipX globalRotation else globalRotation
  let shapeParam : K := 0
  globalRotation *ᵥ decodeHandJoints shapeParam (decodeHandAngle cfg.svd tensors.angle) i

/-- The keypoints of a left hand, mirrored back. -/
def flipKpts (isLeft : Bool) (kpts : Fin 21 → Vec2 K) (i : Fin 21) : Vec2 K :=
  if isLeft then ![inputImageShape - kpts i 0, kpts i 1] else kpts i

/-- The mean of the sigmoids of all numbers of `sigma`. -/
def sigmaScore (exp : K → K) (sigma : Fin 21 → Vec3 K) : K :=
  (∑ i, ∑ j, 1 / (1 + exp (-1 * sigma i j))) / 63

/-- `RTMTinyNimbleDLTFlora::PostProcess` -/
def postProcess (cfg : FloraConfig K) (isLeft : Bool) (virtualCamera : PerspectiveCameraModel K)
    (tensors : NimbleTensors K) (result : MonoHandNimbleOutputs K) : MonoHandNimbleOutputs K :=
  if cfg.packedByBatch then
    let kpts := flipKpts isLeft result.kpts
    let relKpt := relKpt26 cfg isLeft tensors
    let globalKpt := get3dKpt (fun i => relKpt (i.castAdd 5)) kpts
      (intrixMatrix virtualCamera.val.cameraIntrinsics) (calKptWeight cfg.exp tensors.sigma)
    let relKptElse (i : Fin 5) := relKpt (i.natAdd 21) + globalKpt 0
    { kpts := kpts
      res3d := (List.ofFn globalKpt ++ List.ofFn relKptElse).map virtualCamera.val.eyeToWorld
      kpt3dScore := 1 - sigmaScore cfg.exp tensors.sigma }
  else result

/-- `RTMTinyNimbleDLTFlora::Inference`.  The network is any function of its features and their
scale, with what its memory holds in this call. -/
def inference (cfg : FloraConfig K) (runNet : List K → K → Option (NimbleTensors K))
    (baseinput : MonoHandNimbleInputs K) : Option (MonoHandNimbleOutputs K) :=
  let virtualCamera := baseinput.virtualCamera
  let fScale := virtualCamera.val.cameraIntrinsics.fx / standardFscale
  let baseresult : MonoHandNimbleOutputs K :=
    ⟨fun i => ![baseinput.predX.getD i 0, baseinput.predY.getD i 0], [], 0⟩
  (runNet baseinput.rawFeats fScale).map fun tensors =>
    postProcess cfg baseinput.isLeft virtualCamera tensors baseresult

/-! ### Exact keypoints -/

section Exact

variable (cfg : FloraConfig K) (isLeft : Bool) (tensors : NimbleTensors K)

omit [LinearOrder K] in
theorem relKpt26_root : relKpt26 cfg isLeft tensors 0 = 0 := by
  rw [relKpt26, decodeHandJoints_root, mulVec_zero]

omit [LinearOrder K] in
theorem isUnit_intrixMatrix {k : CameraIntrinsics K} (hx : k.fx ≠ 0) (hy : k.fy ≠ 0) :
    IsUnit (intrixMatrix k) := by
  rw [isUnit_iff_isUnit_det, isUnit_iff_ne_zero]
  have hdet : (intrixMatrix k).det = k.fx * k.fy := by
    rw [det_fin_three]
    simp [intrixMatrix]
  rw [hdet]
  exact mul_ne_zero hx hy

/-- **Where the keypoints are exact, all 26 points are**: the last five, which no keypoint shows,
move with the root. -/
theorem res3d_exact (hpacked : cfg.packedByBatch) {virtualCamera : PerspectiveCameraModel K}
    (hx : virtualCamera.val.cameraIntrinsics.fx ≠ 0)
    (hy : virtualCamera.val.cameraIntrinsics.fy ≠ 0) (result : MonoHandNimbleOutputs K)
    (t : Vec3 K)
    (hproject : ∀ i : Fin 21, ProjectsTo (intrixMatrix virtualCamera.val.cameraIntrinsics)
      (relKpt26 cfg isLeft tensors (i.castAdd 5) + t) (flipKpts isLeft result.kpts i))
    (hunit : IsUnit ((matrixA (uvCood (intrixMatrix virtualCamera.val.cameraIntrinsics)
        (flipKpts isLeft result.kpts)))ᵀ * calKptWeight cfg.exp tensors.sigma *
      matrixA (uvCood (intrixMatrix virtualCamera.val.cameraIntrinsics)
        (flipKpts isLeft result.kpts)))) :
    (postProcess cfg isLeft virtualCamera tensors result).res3d =
      List.ofFn fun i : Fin 26 =>
        virtualCamera.val.eyeToWorld (relKpt26 cfg isLeft tensors i + t) := by
  have hlast : intrixMatrix virtualCamera.val.cameraIntrinsics 2 = ![0, 0, 1] := rfl
  have hsolved := get3dKpt_exact (isUnit_intrixMatrix hx hy) hlast _ _ _ t hproject hunit
  rw [postProcess, if_pos hpacked]
  show List.map _ (List.ofFn (get3dKpt _ _ _ _) ++ List.ofFn fun i : Fin 5 =>
    relKpt26 cfg isLeft tensors (i.natAdd 21) + get3dKpt _ _ _ _ 0) = _
  have hroot : relKpt26 cfg isLeft tensors (Fin.castAdd 5 0) = 0 :=
    relKpt26_root cfg isLeft tensors
  rw [hsolved]
  beta_reduce
  rw [hroot, zero_add]
  have happend := List.ofFn_add (m := 21) (n := 5)
    (f := fun i => relKpt26 cfg isLeft tensors i + t)
  exact (congrArg (List.map _) happend.symm).trans List.map_ofFn

end Exact

/-! ### The mirrored keypoints -/

/-- Where `cv::flip` moves the column `p` of an image. -/
def cvFlip (width : ℕ) (p : K) : K := width - 1 - p

/-- The keypoint that is published and the one that is used to solve have the same column: the
one that the flip moved to `x`. -/
def UnmirroredAlike (inputWidth : ℕ) (published : CamKeypoints K)
    (solved : MonoHandNimbleOutputs K) (i : Fin 21) (x : K) : Prop :=
  ∃ kpt, published.kpt[i.val]? = some kpt ∧ solved.kpts i 0 = kpt 0 ∧
    cvFlip inputWidth (kpt 0) = x ∧ cvFlip inputWidth (solved.kpts i 0) = x

section Mirrored

/-- The crop of a box in the image of the only camera that sees the hand. -/
def rawCrop (cfg : LandmarkConfig K) (image : Cam) (bbox : DetectRect K) : Crop K :=
  let virtualCamera :=
    virtualCameraFromBox cfg (cfg.camModel image) (getCropBboxShape bbox cfg.bboxExpandRatio)
  .perspective image fun x y =>
    some (perspectiveCropImageRaw cfg.fns cfg.lib (cfg.camModel image) virtualCamera true x y)

/-- The keypoint of a left hand that is published, and the column that is handed on. -/
theorem processSingleHandRaw_left {cfg : LandmarkConfig K} {net : Net K} {image : Cam}
    {bbox : DetectRect K} {result : Kpt2dResult K}
    (hnet : net [(rawCrop cfg image bbox, true), (rawCrop cfg image bbox, true)] = some result)
    (i : Fin kAlgoKeypointNum) :
    let seen := (processSingleHandRaw cfg net .left image bbox).seen
    seen.kpt[i.val]? = some ![cfg.inputWidth - 1 - result.kpts 0 i 0, result.kpts 0 i 1] ∧
      seen.predX.getD i 0 = result.kpts 0 i 0 := by
  have hcall : net [(rawCrop cfg image bbox, decide (Hand.left = .left)),
      (rawCrop cfg image bbox, decide (Hand.left = .left))] = some result := hnet
  unfold processSingleHandRaw
  dsimp only
  unfold rawCrop at hcall
  rw [hcall]
  constructor
  · exact (List.getElem?_ofFn ..).trans (dif_pos i.isLt)
  · show (List.ofFn fun i => result.kpts 0 i 0).getD i 0 = _
    rw [List.getD_eq_getElem?_getD, List.getElem?_ofFn, dif_pos i.isLt]
    rfl

variable {cfg : FloraConfig K} {runNet : List K → K → Option (NimbleTensors K)}
  {baseinput : MonoHandNimbleInputs K} {outputs : MonoHandNimbleOutputs K}

/-- The column that is used to solve. -/
theorem kpts_inference (hpacked : cfg.packedByBatch) (hleft : baseinput.isLeft)
    (houtputs : inference cfg runNet baseinput = some outputs) (i : Fin 21) :
    outputs.kpts i 0 = inputImageShape - baseinput.predX.getD i 0 := by
  obtain ⟨tensors, -, rfl⟩ := Option.map_eq_some_iff.mp houtputs
  rw [postProcess, if_pos hpacked, hleft]
  rfl

section

variable {lcfg : LandmarkConfig K} (hwidth : lcfg.inputWidth = inputImageShape) {net : Net K}
  {image : Cam} {bbox : DetectRect K} {result : Kpt2dResult K}
  (hnet : net [(rawCrop lcfg image bbox, true), (rawCrop lcfg image bbox, true)] = some result)
  (hpacked : cfg.packedByBatch) (hleft : baseinput.isLeft)
  (hpred : baseinput.predX = (processSingleHandRaw lcfg net .left image bbox).seen.predX)
  (houtputs : inference cfg runNet baseinput = some outputs) (i : Fin kAlgoKeypointNum)

include hwidth hnet hpacked hleft hpred houtputs in
theorem solvedColumn_eq : outputs.kpts i 0 = lcfg.inputWidth - result.kpts 0 i 0 := by
  have hpredX := (processSingleHandRaw_left hnet i).2
  exact (kpts_inference hpacked hleft houtputs i).trans (by rw [hpred, hpredX, hwidth])

omit [LinearOrder K] in
/-- The flip does not move this column to `x`. -/
theorem not_unmirroredAlike {width : ℕ} {published : CamKeypoints K} {x : K}
    (hsolved : outputs.kpts i 0 = width - x) :
    ¬ UnmirroredAlike width published outputs i x := by
  rintro ⟨kpt, -, -, -, hflip⟩
  have hone : (width : K) - 1 - (width - x) = x := hsolved ▸ hflip
  rw [sub_right_comm, sub_sub_cancel, sub_eq_self] at hone
  exact one_ne_zero hone

include hwidth hnet hpacked hleft hpred houtputs in
/-- **The column of a left hand that is solved with lies one pixel to the right** of the one that
is published, which is the one that the flip moved. -/
theorem left_keypoints_unmirrored_apart :
    (∃ kpt, (processSingleHandRaw lcfg net .left image bbox).seen.kpt[i.val]? = some kpt ∧
      cvFlip lcfg.inputWidth (kpt 0) = result.kpts 0 i 0 ∧ outputs.kpts i 0 = kpt 0 + 1) ∧
    ¬ UnmirroredAlike lcfg.inputWidth (processSingleHandRaw lcfg net .left image bbox).seen
      outputs i (result.kpts 0 i 0) := by
  have hsolved := solvedColumn_eq hwidth hnet hpacked hleft hpred houtputs i
  have hkpt := (processSingleHandRaw_left hnet i).1
  refine ⟨⟨_, hkpt, sub_sub_cancel _ _, ?_⟩, not_unmirroredAlike i hsolved⟩
  rw [hsolved]
  show _ = lcfg.inputWidth - 1 - result.kpts 0 i 0 + 1
  ring

end

end Mirrored

/-! ### A keypoint in the first column -/

/-- The landmark calculator with the input of 128 pixels. -/
noncomputable def squareConfig : LandmarkConfig ℝ :=
  { shiftedConfig with inputWidth := 128, inputHeight := 128 }

/-- A box of 100 pixels in the corner. -/
def leftBox : DetectRect ℝ := ⟨0, 0, 100, 100⟩

/-- The keypoints of a left hand in it. -/
noncomputable def leftSeen : CamKeypoints ℝ :=
  (processSingleHandRaw squareConfig zeroNet .left .lcam leftBox).seen

/-- What the network is given for this hand. -/
noncomputable def leftInput : MonoHandNimbleInputs ℝ :=
  ⟨leftSeen.predX, leftSeen.predY, leftSeen.rawFeats, true, unitVirtualCamera⟩

/-- Tensors of one pixel for one pixel. -/
noncomputable def unitFlora : FloraConfig ℝ := ⟨fun _ => (1, 1), Real.exp, true, true⟩

/-- A network that finds everything at the origin. -/
def zeroTensors : NimbleTensors ℝ := ⟨0, 0, 0⟩

/-- What the network puts out for this hand. -/
noncomputable def leftOutputs : MonoHandNimbleOutputs ℝ :=
  postProcess unitFlora true unitVirtualCamera zeroTensors
    ⟨fun i => ![leftSeen.predX.getD i 0, leftSeen.predY.getD i 0], [], 0⟩

/-- The root of the hand. -/
def rootKpt : Fin kAlgoKeypointNum := (0 : Fin 21)

theorem zeroNet_eq (crops : List (Crop ℝ × Bool)) :
    zeroNet crops = some ⟨fun _ _ => 0, [], [], fun _ => []⟩ := rfl

theorem inference_leftInput :
    inference unitFlora (fun _ _ => some zeroTensors) leftInput = some leftOutputs := rfl

theorem left_keypoints_unmirrored_apart_root :
    (∃ kpt, leftSeen.kpt[rootKpt.val]? = some kpt ∧
      cvFlip squareConfig.inputWidth (kpt 0) = 0 ∧ leftOutputs.kpts rootKpt 0 = kpt 0 + 1) ∧
    ¬ UnmirroredAlike squareConfig.inputWidth leftSeen leftOutputs rootKpt 0 :=
  left_keypoints_unmirrored_apart (show squareConfig.inputWidth = inputImageShape from rfl)
    (zeroNet_eq [(rawCrop squareConfig .lcam leftBox, true),
      (rawCrop squareConfig .lcam leftBox, true)])
    (show unitFlora.packedByBatch from rfl) (show leftInput.isLeft from rfl)
    (show leftInput.predX = leftSeen.predX from rfl) inference_leftInput rootKpt

/-- The root is in column 0 of the flipped crop.  It was in column 127, and it is solved for in
column 128. -/
theorem root_not_unmirroredAlike :
    ¬ UnmirroredAlike squareConfig.inputWidth leftSeen leftOutputs rootKpt 0 := by
  apply not_unmirroredAlike
  exact solvedColumn_eq (show squareConfig.inputWidth = inputImageShape from rfl)
    (zeroNet_eq [(rawCrop squareConfig .lcam leftBox, true),
      (rawCrop squareConfig .lcam leftBox, true)])
    (show unitFlora.packedByBatch from rfl) (show leftInput.isLeft from rfl)
    (show leftInput.predX = leftSeen.predX from rfl) inference_leftInput rootKpt

end Pose

/-
The 3-D keypoints of a hand that only one camera sees.

`Keypoint3DSolver` finds the depth of the root for which the bones have their template
lengths.  When the hand was seen by both cameras before, it takes the mean of this depth
and the last one.

* `CostFunctor` — what the solver minimises; the solver itself is a parameter;
* `solveKeypoints` — `Keypoint3DSolver::SolveKeypoints`;
* `monoHandKpt3D` — `MonoHandKpt3DCalculator::Process`;
* `virtualKpt3d_unblended_iff` — when the blending makes no difference.
-/
import HandTracking.HandJoints
import HandTracking.HandLandmark

namespace Mono

open Camera Calculator

/-- A matrix with a point in each row. -/
abbrev Points (n : ℕ) (K : Type) := Fin n → Vec3 K

section

variable {K : Type} [Field K]

/-! ### The cost -/

/-- The rows of the fingers, each with the root before it. -/
def formatKpt3d (p : Points 21 K) : Points 25 K := fun r =>
  if r.val % 5 = 0 then p 0 else p ⟨4 * (r.val / 5) + r.val % 5, by omega⟩

/-- The row of a keypoint in the formatted matrix. -/
def validRow (i : Fin 21) : Fin 25 :=
  if i.val = 0 then 0 else ⟨5 * ((i.val - 1) / 4) + (i.val - 1) % 4 + 1, by omega⟩

/-- `CostFunctor`: what the residuals are computed from. -/
structure CostFunctor (K : Type) where
  normKpt3d : Points 25 K
  relDepth : Fin 25 → K
  bones : Fin 20 → K
  lastKpt3d : Points 25 K
  lastKpt3dWeight : K

/-- The points at a depth of the root. -/
def CostFunctor.kpt3d (c : CostFunctor K) (rootDepth : K) : Points 25 K :=
  fun r => (rootDepth + c.relDepth r) • c.normKpt3d r

/-- The residuals for a depth of the root: the lengths of the bones, and the way from the last root.
-/
def CostFunctor.residual [LinearOrder K] (fns : RealFns K) (c : CostFunctor K) (rootDepth : K) :
    Fin 23 → K := fun r =>
  let kpt3d := c.kpt3d rootDepth
  if h : r.val < 20 then
    let bone : Vec3 K := kpt3d ⟨5 * (r.val / 4) + r.val % 4 + 1, by omega⟩
      - kpt3d ⟨5 * (r.val / 4) + r.val % 4, by omega⟩
    fns.sqrt (bone 0 * bone 0 + bone 1 * bone 1 + bone 2 * bone 2) - c.bones ⟨r.val, h⟩
  else
    -- depth first
    let k : Fin 3 := if r.val = 20 then 2 else if r.val = 21 then 0 else 1
    (kpt3d 0 k - c.lastKpt3d 0 k) * c.lastKpt3dWeight

/-- The solver, from a cost and a start to the root depth and the final cost. -/
abbrev TinySolver (K : Type) := (K → Fin 23 → K) → K → K × K

/-- `template_bones_` -/
def templateBones : Fin 20 → K :=
  ![0.03324628, 0.04288861, 0.02933636, 0.0189692,
    0.08489925, 0.03961091, 0.02224475, 0.01538656,
    0.08044697, 0.04323351, 0.02637224, 0.01726901,
    0.07485605, 0.04020233, 0.02505282, 0.01739206,
    0.07221888, 0.03225046, 0.01788924, 0.01490044]

/-- `converage_cost_th_` -/
def converageCostTh : K := 1 / 1000

/-- The depth change above which two depths are blended. -/
def smoothDepthTh : K := 1 / 50

/-! ### The solver -/

/-- The arguments of `SolveKeypoints` but for the flags. -/
structure SolverInput (K : Type) where
  kpt25d : Points 21 K
  handScale : K
  lastKpt3d : Points 21 K
  lastKpt3dWeight : K
  cameraK : CameraIntrinsics K

namespace SolverInput

variable (input : SolverInput K)

/-- The rays of the keypoints, with the depth 1. -/
def normKpt3d : Points 25 K := fun r =>
  let p := formatKpt3d input.kpt25d r
  let q := input.cameraK.normalize ![p 0, p 1]
  ![q 0, q 1, 1]

/-- The depths of the keypoints behind the root. -/
def relDepth : Fin 25 → K := fun r => formatKpt3d input.kpt25d r 2 * input.handScale

/-- The functor that `Keypoint3DSolver` makes. -/
def costFunctor : CostFunctor K where
  normKpt3d := input.normKpt3d
  relDepth := input.relDepth
  bones := fun b => templateBones b * input.handScale
  lastKpt3d := formatKpt3d input.lastKpt3d
  lastKpt3dWeight := input.lastKpt3dWeight

variable [LinearOrder K] (fns : RealFns K) (solver : TinySolver K)

/-- The root depth that the solver finds, and its cost. -/
def solution : K × K := solver (input.costFunctor.residual fns) (1 / 2)

/-- The keypoints at a root depth. -/
def keypointsAt (flipXAxis : Bool) (root : K) : Points 21 K := fun i =>
  let p := input.costFunctor.kpt3d root (validRow i)
  if flipXAxis then ![-p 0, p 1, p 2] else p

/-- The root depth after the blending with the last one. -/
def blendedRoot (sourceChange : Bool) : K :=
  let root := (input.solution fns solver).1
  if sourceChange ∧ smoothDepthTh < |root - input.lastKpt3d 0 2| then
    (root + input.lastKpt3d 0 2) * (1 / 2)
  else root

/-- `SolveKeypoints`: the keypoints on their rays, if the solution is good enough. -/
def solveKeypoints (flipXAxis sourceChange : Bool) : Option (Points 21 K) :=
  if (input.solution fns solver).2 < converageCostTh then
    some (input.keypointsAt flipXAxis (input.blendedRoot fns solver sourceChange))
  else none

end SolverInput

/-! ### The calculator -/

/-- The transforms of the coordinate service, with the head pose of the frame. -/
structure Transfer (K : Type) where
  recalLcamKpt3dCvWithNewHeadpose : List (Vec3 K) → List (Vec3 K)
  lcamCvToRcamCv : List (Vec3 K) → List (Vec3 K)

/-- What the calculator gets from its configuration and from libraries. -/
structure MonoConfig (K : Type) [Field K] [LinearOrder K] where
  fns : RealFns K
  lib : CameraLib K
  eigen : HandPose.Eigen K
  solver : TinySolver K
  camModel : Cam → CameraModel K

/-- `last_kpt3d_weight_` -/
def lastKpt3dWeight : K := 1 / 10

variable [LinearOrder K]

/-- What `ProcessSingleHand` gives to the solver. -/
def solverInput (transfer : Transfer K) (handScale : K) (seen : CamKeypoints K)
    (virtualCamera : PerspectiveCameraModel K) (image : Cam) (lastKpt3d : List (Vec3 K))
    (lastKpt3dValid : Bool) : SolverInput K :=
  let kpt3dCamPre := transfer.recalLcamKpt3dCvWithNewHeadpose lastKpt3d
  let kpt3dCamPre := if image = .rcam then transfer.lcamCvToRcamCv kpt3dCamPre else kpt3dCamPre
  let kpt3dCamPre := kpt3dCamPre.map virtualCamera.val.worldToEye
  { kpt25d := fun i =>
      let p := seen.kpt.getD i 0
      ![p 0, p 1, seen.rdepth.getD i 0]
    handScale := handScale
    lastKpt3d := if lastKpt3dValid then fun i => kpt3dCamPre.getD i 0 else 0
    lastKpt3dWeight := if lastKpt3dValid then lastKpt3dWeight else 0
    cameraK := virtualCamera.val.cameraIntrinsics }

/-- `ProcessSingleHand` after the solver: to the frame of the left camera, and to 26 joints. -/
def keypointsToWorld (cfg : MonoConfig K) (virtualCamera : PerspectiveCameraModel K) (image : Cam)
    (virtualKpt3d : Points 21 K) : List (Vec3 K) :=
  let kpt3d := (List.ofFn virtualKpt3d).map virtualCamera.val.eyeToWorld
  let kpt3d := if image = .rcam then kpt3d.map (cfg.camModel .rcam).eyeToWorld else kpt3d
  Joints.interpolationTo26Points cfg.eigen kpt3d

/-- The frame of a hand: its last world data, and the scale of the hands. -/
structure MonoFrame (K : Type) where
  kpt2d : Kpt2dInternal K
  transfer : Transfer K
  kpt3dWorldPre : HandsData K
  handScale : K

namespace MonoFrame

variable (cfg : MonoConfig K) (f : MonoFrame K) (hand : Hand) (image : Cam)

/-- The virtual camera of the image, if the hand is to be solved in it alone. -/
def monoCamera : Option (PerspectiveCameraModel K) :=
  let other : Cam := match image with
    | .lcam => .rcam
    | .rcam => .lcam
  if (f.kpt2d.seen hand image).valid ∧ ¬ (f.kpt2d.seen hand other).valid then
    (f.kpt2d.seen hand image).virtualCamera
  else none

/-- The last data of the hand came from both cameras. -/
def sourceChange : Bool := (f.kpt3dWorldPre.hand hand).source = .bino

/-- The input of the solver. -/
def input (virtualCamera : PerspectiveCameraModel K) : SolverInput K :=
  solverInput f.transfer f.handScale (f.kpt2d.seen hand image) virtualCamera image
    (f.kpt3dWorldPre.hand hand).kpt3d (f.kpt3dWorldPre.valid hand)

/-- The keypoints of the solver, for the hand in the image. -/
def virtualKpt3d (virtualCamera : PerspectiveCameraModel K) : Option (Points 21 K) :=
  (f.input hand image virtualCamera).solveKeypoints cfg.fns cfg.solver false (f.sourceChange hand)

/-- The keypoints in the image of the camera itself. -/
def kpt2dOfImage (virtualCamera : PerspectiveCameraModel K) : List (Vec2 K) :=
  (f.kpt2d.seen hand image).kpt.map fun p => (cfg.camModel image).eyeToWindow cfg.fns cfg.lib
    (virtualCamera.val.eyeToWorld (virtualCamera.val.windowToEye cfg.fns cfg.lib p))

/-- The branch of `Process` for a hand in one of the images: only in the image on the side of
the hand are the 2-D keypoints and the error set. -/
def handInImage (data : SingleHandData K × Bool) : SingleHandData K × Bool :=
  match f.monoCamera hand image with
  | none => data
  | some virtualCamera =>
    match f.virtualKpt3d cfg hand image virtualCamera with
    | none => data
    | some virtualKpt3d =>
      let solved : SingleHandData K :=
        { data.1 with
          kpt3d := keypointsToWorld cfg virtualCamera image virtualKpt3d
          source := .mono }
      if image = ownCam hand then
        let kpt2d := f.kpt2dOfImage cfg hand image virtualCamera
        let rmse := Joints.computeMonoRmseWithReprojection cfg.fns cfg.lib solved.kpt3d kpt2d
          (cfg.camModel image)
        ({ solved with
            kpt2d := Function.update solved.kpt2d image kpt2d
            reprojRmse := rmse
            score := rmse }, true)
      else ({ solved with reprojRmse := 0 }, true)

/-- `MonoHandKpt3DCalculator::Process`, for one hand: the image on its side first. -/
def monoHand : SingleHandData K × Bool :=
  f.handInImage cfg hand (otherCam hand) (f.handInImage cfg hand (ownCam hand) (.init, false))

end MonoFrame

/-- `MonoHandKpt3DCalculator::Process` -/
def monoHandKpt3D (cfg : MonoConfig K) (f : MonoFrame K) : HandsData K where
  hand hand := (f.monoHand cfg hand).1
  valid hand := (f.monoHand cfg hand).2

/-! ### What a valid hand has -/

section

variable (cfg : MonoConfig K) (f : MonoFrame K) (hand : Hand)

/-- The solver finds the hand in the image, where no other image shows it. -/
def MonoFrame.SolvedIn (image : Cam) : Prop :=
  ∃ virtualCamera, f.monoCamera hand image = some virtualCamera ∧
    (f.virtualKpt3d cfg hand image virtualCamera).isSome

variable {cfg f hand}

theorem isSome_virtualKpt3d_iff {image : Cam} {virtualCamera : PerspectiveCameraModel K} :
    (f.virtualKpt3d cfg hand image virtualCamera).isSome ↔
      ((f.input hand image virtualCamera).solution cfg.fns cfg.solver).2 < converageCostTh := by
  unfold MonoFrame.virtualKpt3d SolverInput.solveKeypoints
  by_cases hcost : ((f.input hand image virtualCamera).solution cfg.fns cfg.solver).2 <
      converageCostTh
  · rw [if_pos hcost]
    exact iff_of_true rfl hcost
  · rw [if_neg hcost]
    exact iff_of_false Bool.false_ne_true hcost

theorem handInImage_of_not_solvedIn {image : Cam} (h : ¬ f.SolvedIn cfg hand image)
    (data : SingleHandData K × Bool) : f.handInImage cfg hand image data = data := by
  unfold MonoFrame.handInImage
  cases hcamera : f.monoCamera hand image with
  | none => rfl
  | some virtualCamera =>
    have hnone : f.virtualKpt3d cfg hand image virtualCamera = none := by
      rw [← Option.not_isSome_iff_eq_none]
      exact fun hsome => h ⟨virtualCamera, hcamera, hsome⟩
    simp only [hnone]

/-- The data of a hand that was solved in one of the images. -/
theorem handInImage_of_solvedIn {image : Cam} (h : f.SolvedIn cfg hand image)
    (data : SingleHandData K × Bool) :
    (f.handInImage cfg hand image data).2 ∧
      (f.handInImage cfg hand image data).1.kpt3d.length = 26 ∧
      if image = ownCam hand then
        ((f.handInImage cfg hand image data).1.kpt2d image).length =
          (f.kpt2d.seen hand image).kpt.length
      else (f.handInImage cfg hand image data).1.kpt2d = data.1.kpt2d := by
  obtain ⟨virtualCamera, hcamera, hsome⟩ := h
  obtain ⟨kpt3d, hkpt3d⟩ := Option.isSome_iff_exists.mp hsome
  have hlength := Joints.length_interpolationTo26Points cfg.eigen
  simp only [MonoFrame.handInImage, hcamera, hkpt3d]
  by_cases hown : image = ownCam hand
  · rw [if_pos hown, if_pos hown]
    refine ⟨rfl, hlength _, ?_⟩
    dsimp only
    rw [Function.update_self]
    exact List.length_map _
  · rw [if_neg hown, if_neg hown]
    exact ⟨rfl, hlength _, rfl⟩

theorem seen_of_solvedIn {image : Cam} (h : f.SolvedIn cfg hand image) :
    (f.kpt2d.seen hand image).valid ∧ ∀ other ≠ image, ¬ (f.kpt2d.seen hand other).valid := by
  obtain ⟨virtualCamera, hcamera, -⟩ := h
  unfold MonoFrame.monoCamera at hcamera
  by_contra hseen
  rw [if_neg] at hcamera
  · cases hcamera
  · rintro ⟨hvalid, hother⟩
    refine hseen ⟨hvalid, fun other hne => ?_⟩
    -- of two images, the one that is not `image`
    cases image with
    | lcam =>
      cases other with
      | lcam => exact absurd rfl hne
      | rcam => exact hother
    | rcam =>
      cases other with
      | lcam => exact hother
      | rcam => exact absurd rfl hne

/-- A hand is solved in one image at most. -/
theorem not_solvedIn_other (h : f.SolvedIn cfg hand (ownCam hand)) :
    ¬ f.SolvedIn cfg hand (otherCam hand) := by
  intro hother
  exact (seen_of_solvedIn h).2 _ (otherCam_ne_ownCam hand) (seen_of_solvedIn hother).1

/-- Solved in the image on the other side, the hand has no keypoints in an image. -/
theorem monoHand_of_solvedIn_other (h : f.SolvedIn cfg hand (otherCam hand)) :
    (f.monoHand cfg hand).2 ∧ (f.monoHand cfg hand).1.kpt3d.length = 26 ∧
      (f.monoHand cfg hand).1.kpt2d = fun _ => [] := by
  have hown : ¬ f.SolvedIn cfg hand (ownCam hand) := fun hown => not_solvedIn_other hown h
  obtain ⟨hvalid, hlength, hkpt2d⟩ := handInImage_of_solvedIn h (.init, false)
  rw [if_neg (otherCam_ne_ownCam hand)] at hkpt2d
  rw [MonoFrame.monoHand, handInImage_of_not_solvedIn hown]
  exact ⟨hvalid, hlength, hkpt2d⟩

theorem monoHand_valid (h : (f.monoHand cfg hand).2)
    (hother : ¬ f.SolvedIn cfg hand (otherCam hand)) :
    (f.monoHand cfg hand).1.kpt3d.length = 26 ∧
      ¬ (f.kpt2d.seen hand (otherCam hand)).valid ∧
      ((f.monoHand cfg hand).1.kpt2d (ownCam hand)).length =
        (f.kpt2d.seen hand (ownCam hand)).kpt.length := by
  rw [MonoFrame.monoHand, handInImage_of_not_solvedIn hother] at h ⊢
  by_cases hown : f.SolvedIn cfg hand (ownCam hand)
  · obtain ⟨-, hlength, hkpt2d⟩ := handInImage_of_solvedIn hown (.init, false)
    rw [if_pos rfl] at hkpt2d
    exact ⟨hlength, (seen_of_solvedIn hown).2 _ (otherCam_ne_ownCam hand), hkpt2d⟩
  · rw [handInImage_of_not_solvedIn hown] at h
    cases h

end

/-! ### The blending -/

omit [LinearOrder K] in
/-- The depth of the root tells the keypoints apart. -/
theorem keypointsAt_injective (input : SolverInput K) {root root' : K}
    (h : input.keypointsAt false root = input.keypointsAt false root') : root = root' := by
  have hdepth : ∀ r : K, input.keypointsAt false r 0 2 = r + input.relDepth 0 :=
    fun r => mul_one _
  have hrow := congrFun (congrFun h 0) 2
  rw [hdepth, hdepth] at hrow
  exact add_right_cancel hrow

/-- Without last keypoints the mean halves the depth. -/
theorem blendedRoot_eq_iff [IsStrictOrderedRing K] {input : SolverInput K} (fns : RealFns K)
    (solver : TinySolver K) (hlast : input.lastKpt3d 0 2 = 0) (sourceChange : Bool) :
    input.blendedRoot fns solver sourceChange = input.blendedRoot fns solver false ↔
      sourceChange = false ∨ |(input.solution fns solver).1| ≤ smoothDepthTh := by
  have hunblended : input.blendedRoot fns solver false = (input.solution fns solver).1 := by
    simp only [SolverInput.blendedRoot, Bool.false_eq_true, false_and, if_false]
  rw [hunblended, SolverInput.blendedRoot]
  simp only [hlast, sub_zero, add_zero]
  generalize (input.solution fns solver).1 = root
  cases sourceChange with
  | false => exact iff_of_true (if_neg (by simp)) (Or.inl rfl)
  | true =>
    by_cases hfar : smoothDepthTh < |root|
    · rw [if_pos ⟨rfl, hfar⟩]
      have hpos : 0 < |root| := lt_trans (by norm_num [smoothDepthTh]) hfar
      have hroot : root ≠ 0 := abs_pos.mp hpos
      refine iff_of_false ?_ ?_
      · intro hhalf
        exact hroot (by linarith)
      · rintro (hfalse | hnear)
        · cases hfalse
        · exact absurd hfar (not_lt.mpr hnear)
    · rw [if_neg fun h => hfar h.2]
      exact iff_of_true rfl (Or.inr (not_lt.mp hfar))

theorem solveKeypoints_eq_iff [IsStrictOrderedRing K] {input : SolverInput K} (fns : RealFns K)
    (solver : TinySolver K) (hlast : input.lastKpt3d 0 2 = 0) (sourceChange : Bool) :
    input.solveKeypoints fns solver false sourceChange =
        input.solveKeypoints fns solver false false ↔
      sourceChange = false ∨ ¬ (input.solution fns solver).2 < converageCostTh ∨
        |(input.solution fns solver).1| ≤ smoothDepthTh := by
  unfold SolverInput.solveKeypoints
  by_cases hcost : (input.solution fns solver).2 < converageCostTh
  · rw [if_pos hcost, if_pos hcost, Option.some.injEq]
    have hroots : input.keypointsAt false (input.blendedRoot fns solver sourceChange) =
        input.keypointsAt false (input.blendedRoot fns solver false) ↔ _ :=
      ⟨keypointsAt_injective input, congrArg _⟩
    rw [hroots, blendedRoot_eq_iff fns solver hlast]
    exact or_congr_right (or_iff_right (not_not.mpr hcost)).symm
  · rw [if_neg hcost, if_neg hcost]
    exact iff_of_true rfl (Or.inr (Or.inl hcost))

/-- After an invalid hand, for any last world data and any frame. -/
theorem virtualKpt3d_unblended_iff [IsStrictOrderedRing K] (cfg : MonoConfig K) (f : MonoFrame K)
    {hand : Hand} (hinvalid : f.kpt3dWorldPre.valid hand = false) (image : Cam)
    (virtualCamera : PerspectiveCameraModel K) :
    f.virtualKpt3d cfg hand image virtualCamera =
        (f.input hand image virtualCamera).solveKeypoints cfg.fns cfg.solver false false ↔
      (f.kpt3dWorldPre.hand hand).source ≠ .bino ∨
        ¬ ((f.input hand image virtualCamera).solution cfg.fns cfg.solver).2 < converageCostTh ∨
        |((f.input hand image virtualCamera).solution cfg.fns cfg.solver).1| ≤ smoothDepthTh := by
  have hlast : (f.input hand image virtualCamera).lastKpt3d 0 2 = 0 := by
    simp only [MonoFrame.input, solverInput, hinvalid]
    rfl
  have hsource : f.sourceChange hand = false ↔ (f.kpt3dWorldPre.hand hand).source ≠ .bino :=
    decide_eq_false_iff_not
  rw [← hsource]
  exact solveKeypoints_eq_iff cfg.fns cfg.solver hlast _

end

/-! ### A blocked stereo hand before a mono frame -/

/-- A solver that stops at its start. -/
def startSolver : TinySolver ℝ := fun _ start => (start, 0)

/-- Each finger stretched along the axis: the bones have their template lengths at every depth
of the root. -/
def axisDepths : List ℝ :=
  [0, 0.03324628, 0.07613489, 0.10547125, 0.12444045,
    0.08489925, 0.12451016, 0.14675491, 0.16214147,
    0.08044697, 0.12368048, 0.15005272, 0.16732173,
    0.07485605, 0.11505838, 0.14011120, 0.15750326,
    0.07221888, 0.10446934, 0.12235858, 0.13725902]

/-- A configuration in which all cameras are the unit camera. -/
noncomputable def axisConfig : MonoConfig ℝ where
  fns := realFns
  lib := realLib
  eigen := Landmark.realEigen
  solver := startSolver
  camModel _ := unitCamera (.openCVPinhole 0 0 0 0 0) .pinhole

/-- The left hand in the left image; the last world data of the hand is blocked, with the
source of the stereo frame before. -/
def blockedFrame : MonoFrame ℝ where
  kpt2d :=
    { seen := fun _ image =>
        { CamKeypoints.init with
          rdepth := axisDepths
          valid := decide (image = .lcam)
          virtualCamera := some unitVirtualCamera }
      holdLabel := fun _ => false }
  transfer := ⟨id, id⟩
  kpt3dWorldPre :=
    { hand := fun _ => { SingleHandData.init with source := .bino }
      valid := fun _ => false }
  handScale := 1

theorem virtualKpt3d_unblended_iff_blockedFrame :
    blockedFrame.kpt3dWorldPre.valid .left = false ∧
      (blockedFrame.virtualKpt3d axisConfig .left .lcam unitVirtualCamera =
          (blockedFrame.input .left .lcam unitVirtualCamera).solveKeypoints axisConfig.fns
            axisConfig.solver false false ↔
        (blockedFrame.kpt3dWorldPre.hand .left).source ≠ .bino ∨
          ¬ ((blockedFrame.input .left .lcam unitVirtualCamera).solution axisConfig.fns
            axisConfig.solver).2 < converageCostTh ∨
          |((blockedFrame.input .left .lcam unitVirtualCamera).solution axisConfig.fns
            axisConfig.solver).1| ≤ smoothDepthTh) :=
  ⟨rfl, virtualKpt3d_unblended_iff axisConfig blockedFrame rfl .lcam unitVirtualCamera⟩

/-- The root depth of half a metre is halved. -/
theorem blockedFrame_blended :
    ¬ ∀ (f : MonoFrame ℝ) (hand : Hand) (image : Cam) (virtualCamera : PerspectiveCameraModel ℝ),
      f.monoCamera hand image = some virtualCamera → f.kpt3dWorldPre.valid hand = false →
      f.virtualKpt3d axisConfig hand image virtualCamera =
        (f.input hand image virtualCamera).solveKeypoints axisConfig.fns axisConfig.solver false
          false := by
  intro h
  have hunblended := h blockedFrame .left .lcam unitVirtualCamera rfl rfl
  rcases (solveKeypoints_eq_iff axisConfig.fns axisConfig.solver rfl _).mp hunblended with
    hsource | hcost | hnear
  · exact absurd hsource (by decide)
  · exact hcost (by norm_num [converageCostTh, SolverInput.solution, axisConfig, startSolver])
  · have hhalf : |(1 / 2 : ℝ)| ≤ smoothDepthTh := hnear
    norm_num [smoothDepthTh] at hhalf

end Mono

/-
The calculators that get the points of a hand in space from a network.

`HandLiftCalculator` lifts a hand that both cameras see, and
`MonoHandKpt3DNimbleFloraCalculator` a hand that only the camera on its side sees.  After a
change from one of them to the other the hand is moved to where it was, by less in each frame.

* `smoothHand` — the smoothing of the two calculators;
* `monoHandKpt3DNimbleFlora`, `handLift` — their `Process`.
-/
import HandTracking.LiftInputs
import HandTracking.MonoHandKpt3D

namespace Calculator

open Camera HandPose

variable {K : Type} [Field K] [LinearOrder K]

/-- `LiftNetOutputs`, and what is read of `MonoHandNimbleOutputs`. -/
structure NetOutputs (K : Type) where
  res3d : List (Vec3 K)
  kpt3dScore : K

/-- `MonoHandNimbleInputs`, as far as the calculator sets it. -/
structure MonoHandNimbleInputs (K : Type) where
  predX : List K
  predY : List K
  rawFeats : List K
  isLeft : Bool
  virtualCamera : PerspectiveCameraModel K

/-- What the calculators get from their configuration and from libraries. -/
structure Kpt3dConfig (K : Type) [Field K] [LinearOrder K] where
  fns : RealFns K
  lib : CameraLib K
  eigen : Eigen K
  camModel : Cam → CameraModel K
  /-- `model_name_` of the lift calculator -/
  liftNet : Lift.LiftNet

/-- A frame of the two calculators, with what their networks return in it. -/
structure NetFrame (K : Type) where
  kpt2d : Kpt2dInternal K
  transfer : Mono.Transfer K
  kpt3dWorldPre : HandsData K
  timestamp : K
  monoNet : MonoHandNimbleInputs K → Option (NetOutputs K)
  liftNet : Lift.LiftNetInputs K → Option (NetOutputs K)

/-! ### The smoothing -/

/-- `SmoothTotalFrames` -/
def smoothTotalFrames : ℤ := 30

/-- The frames of smoothing that are left to a hand from `source`. -/
def smoothFramesLeft (pre : SingleHandData K) (preValid : Bool) (source other : CamType) : ℤ :=
  if preValid ∧ pre.source = other then smoothTotalFrames
  else if preValid ∧ pre.source = source then
    if 0 < pre.smoothFrames then pre.smoothFrames else 0
  else 0

/-- The smoothing after a switch: for some frames the hand is moved towards its last place. -/
def smoothHand (transfer : Mono.Transfer K) (pre : SingleHandData K) (smoothFrames : ℤ)
    (data : SingleHandData K) : SingleHandData K :=
  if 0 < smoothFrames then
    let kpt3dCamPre := transfer.recalLcamKpt3dCvWithNewHeadpose pre.kpt3d
    let delta : K := smoothFrames / smoothTotalFrames
    let smoothDelta := delta • (kpt3dCamPre.getD 0 0 - data.kpt3d.getD 0 0)
    { data with
      kpt3d := data.kpt3d.map fun p => p + smoothDelta
      smoothFrames := smoothFrames - 1 }
  else { data with smoothFrames := smoothFrames }

omit [LinearOrder K] in
@[simp]
theorem length_kpt3d_smoothHand (transfer : Mono.Transfer K) (pre : SingleHandData K)
    (smoothFrames : ℤ) (data : SingleHandData K) :
    (smoothHand transfer pre smoothFrames data).kpt3d.length = data.kpt3d.length := by
  unfold smoothHand
  split
  · exact List.length_map _
  · rfl

namespace NetFrame

variable (cfg : Kpt3dConfig K) (f : NetFrame K) (hand : Hand)

/-- Smoothing from the last world data of the hand. -/
def smooth (source other : CamType) (data : SingleHandData K) : SingleHandData K :=
  let pre := f.kpt3dWorldPre.hand hand
  smoothHand f.transfer pre (smoothFramesLeft pre (f.kpt3dWorldPre.valid hand) source other) data

/-! ### MonoHandKpt3DNimbleFloraCalculator -/

/-- The virtual camera of the hand, where it is seen by the camera on its side alone. -/
def nimbleCamera : Option (PerspectiveCameraModel K) :=
  if (f.kpt2d.seen hand (ownCam hand)).valid ∧ ¬ (f.kpt2d.seen hand (otherCam hand)).valid then
    (f.kpt2d.seen hand (ownCam hand)).virtualCamera
  else none

/-- `MonoHandNimbleInputs`, from the keypoints of the hand in its own image. -/
def nimbleInputs (virtualCamera : PerspectiveCameraModel K) : MonoHandNimbleInputs K :=
  let seen := f.kpt2d.seen hand (ownCam hand)
  ⟨seen.predX, seen.predY, seen.rawFeats, hand = .left, virtualCamera⟩

/-- The virtual camera and the result of the network for the hand. -/
def nimbleOutputs : Option (PerspectiveCameraModel K × NetOutputs K) :=
  (f.nimbleCamera hand).bind fun virtualCamera =>
    (f.monoNet (f.nimbleInputs hand virtualCamera)).map fun outputs => (virtualCamera, outputs)

/-- The keypoints in the image of the camera itself. -/
def nimbleKpt2d (virtualCamera : PerspectiveCameraModel K) : List (Vec2 K) :=
  (f.kpt2d.seen hand (ownCam hand)).kpt.map fun p =>
    (cfg.camModel (ownCam hand)).eyeToWindow cfg.fns cfg.lib
      (virtualCamera.val.eyeToWorld (virtualCamera.val.windowToEye cfg.fns cfg.lib p))

/-- The result in the frame of the left camera. -/
def nimbleKpt3d (res3d : List (Vec3 K)) : List (Vec3 K) :=
  let kpt3d := Joints.convertTo26Points cfg.eigen res3d (hand = .left)
  match hand with
  | .left => kpt3d
  | .right => kpt3d.map (cfg.camModel .rcam).eyeToWorld

/-- The hand that the network returned, smoothed. -/
def nimbleSolved (virtualCamera : PerspectiveCameraModel K) (outputs : NetOutputs K) :
    SingleHandData K :=
  let data := f.smooth hand .mono .bino
    { SingleHandData.init with
      kpt3d := nimbleKpt3d cfg hand outputs.res3d
      source := .mono
      score := outputs.kpt3dScore + 1 / 10 }
  { data with
    kpt2d := Function.update data.kpt2d (ownCam hand) (f.nimbleKpt2d cfg hand virtualCamera) }

/-- The hand of the mono network, and whether it is valid. -/
def nimbleHand : SingleHandData K × Bool :=
  match f.nimbleOutputs hand with
  | none => (.init, false)
  | some (virtualCamera, outputs) => (f.nimbleSolved cfg hand virtualCamera outputs, true)

/-! ### HandLiftCalculator -/

/-- The result of the lift network for a hand that both cameras see. -/
def liftOutputs : Option (NetOutputs K) :=
  if (f.kpt2d.seen hand .lcam).valid ∧ (f.kpt2d.seen hand .rcam).valid then
    (Lift.liftNetInputs cfg.lib cfg.camModel (f.kpt2d.seen hand) f.timestamp hand).bind f.liftNet
  else none

/-- A hand with all its keypoints in both images goes to the network. -/
theorem exists_liftOutputs (hseen : ∀ cam, (f.kpt2d.seen hand cam).valid = true)
    (hkpt : ∀ cam, kAlgoKeypointNum ≤ (f.kpt2d.seen hand cam).kpt.length) :
    ∃ points : Lift.StereoPoints (Vec3 K), f.liftOutputs cfg hand =
      f.liftNet ⟨fun _ => [], fun c => .ofPoints (points c), f.timestamp, Lift.isLeft hand⟩ := by
  obtain ⟨points, hinputs, -⟩ :=
    Lift.liftNetInputs_spec cfg.lib cfg.camModel f.timestamp hand hkpt
  refine ⟨points, ?_⟩
  rw [liftOutputs, if_pos ⟨hseen _, hseen _⟩, hinputs]
  rfl

variable {cfg f hand}

/-- What is returned comes from a run of the network. -/
theorem exists_liftNet_of_liftOutputs {outputs : NetOutputs K}
    (h : f.liftOutputs cfg hand = some outputs) : ∃ inputs, f.liftNet inputs = some outputs := by
  unfold liftOutputs at h
  split_ifs at h
  obtain ⟨inputs, -, hnet⟩ := Option.bind_eq_some_iff.mp h
  exact ⟨inputs, hnet⟩

variable (cfg f hand)

/-- The score of the network, or one from the reprojection. -/
def liftScore (outputs : NetOutputs K) (kpt3d : List (Vec3 K)) : K :=
  if cfg.liftNet = .gmlpLiftNimble then outputs.kpt3dScore
  else Joints.computeScoreWithReprojection cfg.fns cfg.lib kpt3d (f.kpt2d.seen hand .lcam).kpt
    (f.kpt2d.seen hand .rcam).kpt (cfg.camModel .lcam) (cfg.camModel .rcam)

/-- The keypoints in the two images: those of virtual cameras are made anew. -/
def liftKpt2d (kpt3d : List (Vec3 K)) (cam : Cam) : List (Vec2 K) :=
  if (f.kpt2d.seen hand .lcam).virtualCamera.isSome ∧
      (f.kpt2d.seen hand .rcam).virtualCamera.isSome then
    kpt3d.map ((cfg.camModel cam).worldToWindow cfg.fns cfg.lib)
  else (f.kpt2d.seen hand cam).kpt

/-- The hand that the lift network returned, smoothed; the score is from before the smoothing. -/
def liftSolved (outputs : NetOutputs K) : SingleHandData K :=
  let kpt3d := Joints.convertTo26Points cfg.eigen outputs.res3d (hand = .left)
  let data := f.smooth hand .bino .mono
    { SingleHandData.init with
      kpt3d := kpt3d
      source := .bino
      -- taken before the smoothing moves the points
      score := f.liftScore cfg hand outputs kpt3d
      constrained := cfg.liftNet = .gmlpLiftNimble }
  { data with kpt2d := f.liftKpt2d cfg hand data.kpt3d }

/-- The hand of the lift network, and whether it is valid. -/
def liftHand : SingleHandData K × Bool :=
  match f.liftOutputs cfg hand with
  | none => (.init, false)
  | some outputs => (f.liftSolved cfg hand outputs, true)

end NetFrame

/-- `MonoHandKpt3DNimbleFloraCalculator::Process` -/
def monoHandKpt3DNimbleFlora (cfg : Kpt3dConfig K) (f : NetFrame K) : HandsData K where
  hand hand := (f.nimbleHand cfg hand).1
  valid hand := (f.nimbleHand cfg hand).2

/-- `HandLiftCalculator::Process` -/
def handLift (cfg : Kpt3dConfig K) (f : NetFrame K) : HandsData K where
  hand hand := (f.liftHand cfg hand).1
  valid hand := (f.liftHand cfg hand).2

/-! ### What a valid hand has -/

section

variable (cfg : Kpt3dConfig K) {f : NetFrame K} {hand : Hand}

omit [Field K] [LinearOrder K] in
theorem nimbleCamera_isSome (h : (f.nimbleCamera hand).isSome) :
    ¬ (f.kpt2d.seen hand (otherCam hand)).valid := by
  intro hother
  rw [NetFrame.nimbleCamera, if_neg fun hboth => hboth.2 hother] at h
  cases h

theorem length_nimbleKpt3d (res3d : List (Vec3 K)) :
    (NetFrame.nimbleKpt3d cfg hand res3d).length = 26 := by
  unfold NetFrame.nimbleKpt3d
  cases hand with
  | left => exact Joints.length_convertTo26Points _ _ _
  | right => exact (List.length_map _).trans (Joints.length_convertTo26Points _ _ _)

theorem length_kpt3d_nimbleSolved (virtualCamera : PerspectiveCameraModel K)
    (outputs : NetOutputs K) :
    (f.nimbleSolved cfg hand virtualCamera outputs).kpt3d.length = 26 := by
  show (smoothHand _ _ _ _).kpt3d.length = 26
  rw [length_kpt3d_smoothHand]
  exact length_nimbleKpt3d cfg outputs.res3d

theorem kpt2d_nimbleSolved (virtualCamera : PerspectiveCameraModel K) (outputs : NetOutputs K) :
    (f.nimbleSolved cfg hand virtualCamera outputs).kpt2d (ownCam hand) =
      f.nimbleKpt2d cfg hand virtualCamera :=
  Function.update_self ..

theorem length_kpt3d_liftSolved (outputs : NetOutputs K) :
    (f.liftSolved cfg hand outputs).kpt3d.length = 26 := by
  show (smoothHand _ _ _ _).kpt3d.length = 26
  rw [length_kpt3d_smoothHand]
  exact Joints.length_convertTo26Points _ _ _

/-- A hand of the mono network is not seen by the camera on the other side, and it has the
keypoints of the image of its own. -/
theorem nimbleHand_valid (h : (f.nimbleHand cfg hand).2) :
    (f.nimbleHand cfg hand).1.kpt3d.length = 26 ∧
      ¬ (f.kpt2d.seen hand (otherCam hand)).valid ∧
      ((f.nimbleHand cfg hand).1.kpt2d (ownCam hand)).length =
        (f.kpt2d.seen hand (ownCam hand)).kpt.length := by
  unfold NetFrame.nimbleHand at h ⊢
  cases houtputs : f.nimbleOutputs hand with
  | none =>
    rw [houtputs] at h
    cases h
  | some result =>
    obtain ⟨virtualCamera, outputs⟩ := result
    have hcamera : (f.nimbleCamera hand).isSome := by
      obtain ⟨v, hv, -⟩ := Option.bind_eq_some_iff.mp houtputs
      exact Option.isSome_of_eq_some hv
    refine ⟨length_kpt3d_nimbleSolved cfg virtualCamera outputs, nimbleCamera_isSome hcamera, ?_⟩
    show ((f.nimbleSolved cfg hand virtualCamera outputs).kpt2d (ownCam hand)).length = _
    rw [kpt2d_nimbleSolved]
    exact List.length_map _

/-- A lifted hand has points in both images: as many as in space, or those of the image. -/
theorem liftHand_valid (h : (f.liftHand cfg hand).2) :
    (f.liftHand cfg hand).1.kpt3d.length = 26 ∧
      ∀ cam, ((f.liftHand cfg hand).1.kpt2d cam).length = 26 ∨
        ((f.liftHand cfg hand).1.kpt2d cam).length = (f.kpt2d.seen hand cam).kpt.length := by
  unfold NetFrame.liftHand at h ⊢
  cases houtputs : f.liftOutputs cfg hand with
  | none =>
    rw [houtputs] at h
    cases h
  | some outputs =>
    refine ⟨length_kpt3d_liftSolved cfg outputs, ?_⟩
    intro cam
    show (f.liftKpt2d cfg hand _ cam).length = 26 ∨ (f.liftKpt2d cfg hand _ cam).length = _
    unfold NetFrame.liftKpt2d
    split
    · left
      exact (List.length_map _).trans (length_kpt3d_liftSolved cfg outputs)
    · exact Or.inr rfl

end

end Calculator

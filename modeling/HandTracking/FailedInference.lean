/-
Runs of a network that fail.

`HandLandmarkBatchCalculator::ProcessBatchHand` logs keypoints of the result before it looks at
the status, and there is no result if the run failed.  `LandmarkFilter::Inference` brings the
output back before it returns the status.

* `processBatchHandCall` — `ProcessBatchHand` with the buffers of its caller, and how it ends;
* `processBatchHandCall_published` — the keypoints are those that `processBatchHand` publishes;
* `failedInference_no_effect_iff` — when a failed run has no effect.
-/
import HandTracking.HandLandmark
import HandTracking.LandmarkFilter

namespace Landmark

open Calculator Camera Detect

/-- Why a call ends early. -/
inductive Stop (ε : Type) where
  | status (e : ε)
  /-- A `StatusOr` without a value was accessed. -/
  | badAccess

/-- What the caller gets back from `ProcessBatchHand`. -/
structure BatchBuffers (K : Type) where
  kpt : Cam → List (Vec2 K)
  virtualCamera : Cam → Option (PerspectiveCameraModel K)
  handHoldLabel : Bool

/-- `operator->` of `StatusOr` -/
def arrow {ε α : Type} : Except ε α → Except (Stop ε) α
  | .ok a => .ok a
  | .error _ => .error .badAccess

section

variable {ε K : Type} [Field K] [LinearOrder K]

/-- The arguments of the log statement. -/
def logged (result : Kpt2dResult K) : List K :=
  let first : Fin kAlgoKeypointNum := (0 : Fin 21)
  [result.kpts 0 first 0, result.kpts 0 first 1, result.kpts 1 first 0, result.kpts 1 first 1]

/-- The crops of the two images, mirrored for a left hand. -/
def batchCrops (cfg : LandmarkConfig K) (hand : Hand) (cropMethod : CropMethod)
    (bbox : Cam → DetectRect K) : List (Crop K × Bool) :=
  [(batchCrop cfg cropMethod bbox .lcam, hand = .left),
    (batchCrop cfg cropMethod bbox .rcam, hand = .left)]

/-- `ProcessBatchHand` -/
def processBatchHandCall (cfg : LandmarkConfig K)
    (infer : List (Crop K × Bool) → Except ε (Kpt2dResult K)) (hand : Hand)
    (cropMethod : CropMethod) (bbox : Cam → DetectRect K) (buf : BatchBuffers K) :
    Except (Stop ε) Unit × BatchBuffers K :=
  let rects cam := getCropBboxShape (bbox cam) cfg.bboxExpandRatio
  let buf : BatchBuffers K :=
    { buf with
      virtualCamera := match cropMethod with
        | .warpAffine => buf.virtualCamera
        | .pcl => fun cam => some (virtualCameraFromBox cfg (cfg.camModel cam) (rects cam)) }
  let rsnResult := infer (batchCrops cfg hand cropMethod bbox)
  -- the log statement, whose arguments are evaluated at every level
  match (arrow rsnResult).map logged with
  | .error stop => (.error stop, buf)
  | .ok _ =>
    match rsnResult with
    | .error status => (.error (.status status), buf)
    | .ok result =>
      let index : Cam → ℕ
        | .lcam => 0
        | .rcam => 1
      (.ok (),
        { buf with
          kpt := fun cam => keypointsBack cfg hand cropMethod (rects cam)
            (result.kpts (index cam)) ++ (buf.kpt cam).drop kAlgoKeypointNum
          handHoldLabel := if result.holdLabels = [] then buf.handHoldLabel
            else result.holdLabels.getD 0 false && result.holdLabels.getD 1 false })

/-- Where the run fails, its status is returned and the caller sees no change. -/
def FailureHasNoEffect (cfg : LandmarkConfig K)
    (infer : List (Crop K × Bool) → Except ε (Kpt2dResult K)) (hand : Hand)
    (cropMethod : CropMethod) (bbox : Cam → DetectRect K) (buf : BatchBuffers K) : Prop :=
  ∀ status, infer (batchCrops cfg hand cropMethod bbox) = .error status →
    (processBatchHandCall cfg infer hand cropMethod bbox buf).1 = .error (.status status) ∧
      (processBatchHandCall cfg infer hand cropMethod bbox buf).2.kpt = buf.kpt ∧
      (processBatchHandCall cfg infer hand cropMethod bbox buf).2.handHoldLabel =
        buf.handHoldLabel

variable {cfg : LandmarkConfig K} {infer : List (Crop K × Bool) → Except ε (Kpt2dResult K)}
  {hand : Hand} {cropMethod : CropMethod} {bbox : Cam → DetectRect K}

/-- The buffers of the caller before a hand is processed. -/
def BatchBuffers.init : BatchBuffers K := ⟨fun _ => CamKeypoints.init.kpt, fun _ => none, false⟩

theorem processBatchHandCall_published {result : Kpt2dResult K}
    (hrun : infer (batchCrops cfg hand cropMethod bbox) = .ok result) (cam : Cam) :
    let buf := (processBatchHandCall cfg infer hand cropMethod bbox .init).2
    let published := processBatchHand cfg (fun crops => (infer crops).toOption) hand cropMethod
      bbox cam
    published.seen.kpt = buf.kpt cam ∧ published.seen.virtualCamera = buf.virtualCamera cam ∧
      published.holdLabel = buf.handHoldLabel := by
  have hnet : infer [(batchCrop cfg cropMethod bbox .lcam, decide (hand = .left)),
      (batchCrop cfg cropMethod bbox .rcam, decide (hand = .left))] = .ok result := hrun
  simp only [processBatchHand, processBatchHandCall, hrun, hnet, Except.toOption, arrow,
    Except.map]
  have hnothing : ∀ (cam : Cam) (kpt : List (Vec2 K)),
      kpt ++ ((BatchBuffers.init (K := K)).kpt cam).drop kAlgoKeypointNum = kpt := by
    intro cam kpt
    have hdrop : ((BatchBuffers.init (K := K)).kpt cam).drop kAlgoKeypointNum = [] :=
      List.drop_of_length_le CamKeypoints.length_kpt_init.le
    rw [hdrop, List.append_nil]
  refine ⟨?_, ?_, ?_⟩
  · cases cam with
    | lcam => exact (hnothing .lcam _).symm
    | rcam => exact (hnothing .rcam _).symm
  · cases cropMethod with
    | warpAffine => rfl
    | pcl => rfl
  · split_ifs with hlabels
    · rw [hlabels]
      rfl
    · rfl

/-- After a failed run the program does not come to the check of the status. -/
theorem processBatchHandCall_of_error {status : ε}
    (hrun : infer (batchCrops cfg hand cropMethod bbox) = .error status) (buf : BatchBuffers K) :
    (processBatchHandCall cfg infer hand cropMethod bbox buf).1 = .error .badAccess := by
  simp only [processBatchHandCall, hrun]
  rfl

theorem failureHasNoEffect_iff {buf : BatchBuffers K} :
    FailureHasNoEffect cfg infer hand cropMethod bbox buf ↔
      ∃ result, infer (batchCrops cfg hand cropMethod bbox) = .ok result := by
  constructor
  · intro h
    cases hrun : infer (batchCrops cfg hand cropMethod bbox) with
    | ok result => exact ⟨result, rfl⟩
    | error status =>
      have hend := (h status hrun).1
      rw [processBatchHandCall_of_error hrun] at hend
      cases hend
  · rintro ⟨result, hrun⟩ status herror
    rw [hrun] at herror
    cases herror

variable (ε K) in
/-- `ProcessBatchHand` gives a failed run no effect exactly if it does not fail, and
`LandmarkFilter` exactly if it reads nothing from the output. -/
theorem failedInference_no_effect_iff :
    (∀ (cfg : LandmarkConfig K) (infer : List (Crop K × Bool) → Except ε (Kpt2dResult K))
      (hand : Hand) (cropMethod : CropMethod) (bbox : Cam → DetectRect K) (buf : BatchBuffers K),
        FailureHasNoEffect cfg infer hand cropMethod bbox buf ↔
          ∃ result, infer (batchCrops cfg hand cropMethod bbox) = .ok result) ∧
    ∀ net : LandmarkFilter, net.Unaffected K ↔ net.Idle :=
  ⟨fun _ _ _ _ _ _ => failureHasNoEffect_iff, fun net => net.unaffected_iff⟩

end

/-! ### A run that fails -/

/-- A sequence of six hands with 42 numbers, and one hand. -/
def handFilter : LandmarkFilter where
  itensor := ⟨1, 1, fun _ => ![1, 6, 42]⟩
  itensorPackedByBatch := true
  itensorFormat := .chw
  otensor := ⟨1, 1, fun _ => ![1, 1, 42]⟩
  otensorPackedByBatch := true
  otensorFormat := .chw

theorem failedInference_has_effect :
    (¬ ∀ (infer : List (Crop ℝ × Bool) → Except Unit (Kpt2dResult ℝ)) (hand : Hand)
      (cropMethod : CropMethod) (bbox : Cam → DetectRect ℝ) (buf : BatchBuffers ℝ),
        FailureHasNoEffect shiftedConfig infer hand cropMethod bbox buf) ∧
    ¬ ∀ net : LandmarkFilter, net.Unaffected ℝ := by
  refine ⟨fun h => ?_, fun h => ?_⟩
  · obtain ⟨result, hrun⟩ := failureHasNoEffect_iff.mp
      (h (fun _ => .error ()) .right .pcl (fun _ => ⟨0, 0, 2, 2⟩) .init)
    cases hrun
  · rcases (handFilter.unaffected_iff).mp (h handFilter) with hidle | hidle | hidle
    · cases hidle
    · cases hidle
    · cases hidle

end Landmark

/-
`HandDetTrackCalculator`: on some frames the detector finds the hands, on the others the
predictors move the boxes of the last frame on.

`det_tracker_step_` counts the frames since the detector ran.  It goes back to 0 after
`det_interval_` of them, and 0 lets the detector run on the next frame.

* `DetTrackState.process` — `Process`; a read outside a list is `none`;
* `process_cases` — what a frame does to the counter, and when the detector runs;
* `QuietFrames` — the invariant: how many frames have passed without the detector;
* `detTrack_schedule` — the counter, the detector and the frames without a head pose.
-/
import Mathlib.Algebra.Order.BigOperators.Group.List
import HandTracking.HandFilter
import HandTracking.Library.Numerals

namespace Calculator

open Camera Landmark Predictor

variable {K : Type} [Field K] [LinearOrder K]

/-- The rotation of a head pose; its position is not looked at. -/
structure NRQuatf (K : Type) where
  qx : K
  qy : K
  qz : K
  qw : K

/-- Each part is a number within the limits of `float`, and their norm is 1. -/
def isHeadPoseValid (rotation : NRQuatf K) : Bool :=
  let parts := [rotation.qw, rotation.qx, rotation.qy, rotation.qz]
  if parts.any fun q => q < -fltMax ∨ fltMax < q then false
  else |rotation.qw ^ 2 + rotation.qx ^ 2 + rotation.qy ^ 2 + rotation.qz ^ 2 - 1| ≤ 1 / 10 ^ 6

/-- The box around some points.  The maxima start from the smallest positive number. -/
def kptsToBbox (kps : List (Vec2 K)) : DetectRect K :=
  let minX := kps.foldl (fun m p => min m (p 0)) fltMax
  let minY := kps.foldl (fun m p => min m (p 1)) fltMax
  let maxX := kps.foldl (fun m p => max m (p 0)) fltMin
  let maxY := kps.foldl (fun m p => max m (p 1)) fltMin
  ⟨minX, minY, maxX - minX, maxY - minY⟩

/-- Enough of the square around the box is in the image, and the box is large enough. -/
def checkIfRectValid (rect : DetectRect K) (maxWidth maxHeight bboxInImageRatioTh minBboxArea : K) :
    Bool :=
  let rectSize := max rect.w rect.h
  let cx := rect.x + rect.w / 2
  let cy := rect.y + rect.h / 2
  let newX := cx - rectSize / 2
  let newY := cy - rectSize / 2
  let validX1 := max 0 newX
  let validY1 := max 0 newY
  let validX2 := min maxWidth (newX + rectSize)
  let validY2 := min maxHeight (newY + rectSize)
  let validAreaRatio :=
    (validX2 - validX1) * (validY2 - validY1) / (rectSize * rectSize + 1 / 10)
  bboxInImageRatioTh < validAreaRatio ∧ minBboxArea < rect.w * rect.h

/-- The members that `Open` sets; `optionDetInterval` is the interval of the options. -/
structure DetTrackConfig (K : Type) where
  videoWidth : K
  videoHeight : K
  isMono : Bool
  optionDetInterval : ℤ
  enableTrack : Bool
  solve2d : Predictor.Solver 2 K

namespace DetTrackConfig

variable (cfg : DetTrackConfig K)

/-- `det_interval_` -/
def detInterval {K : Type} (cfg : DetTrackConfig K) : ℤ :=
  if 0 < cfg.optionDetInterval then cfg.optionDetInterval else 4

theorem one_le_detInterval {K : Type} (cfg : DetTrackConfig K) : 1 ≤ cfg.detInterval := by
  rw [detInterval]
  split
  · omega
  · norm_num

/-- `checkIfRectValid` with the size of the video and the bounds of the calculator. -/
def rectValid (rect : DetectRect K) : Bool :=
  checkIfRectValid rect cfg.videoWidth cfg.videoHeight (8 / 10) (10 * 10)

end DetTrackConfig

/-- What comes with a frame.  `inference` is what the detector returns for the images: nothing
on an error, and else the boxes of each image for each hand. -/
structure DetFrame (K : Type) where
  rotation : NRQuatf K
  timestamp : K
  inference : Option (Hand → List (List (DetectRect K)))

/-- The service that the calculators share, and the counter of this one. -/
structure DetTrackState (K : Type) [Field K] [LinearOrder K] where
  service : GlobalPredictorService K
  detTrackerStep : ℤ

/-- What a frame did: whether its head pose was valid, whether the detector was called, and
what was put out. -/
structure FrameLog (K : Type) where
  headPoseValid : Bool
  inferred : Bool
  output : Option (DetOutputInternal K)

namespace DetTrackState

variable (cfg : DetTrackConfig K) (s : DetTrackState K) (f : DetFrame K)

/-- The indices of `lhand_lcam`, `rhand_lcam`, `lhand_rcam` and `rhand_rcam`. -/
def anyBox (valid : Hand → Cam → Bool) : Bool :=
  valid .left .lcam || valid .right .lcam || valid .left .rcam || valid .right .rcam

/-- A box of the last frame, moved with its predictor. -/
def trackBox (i : Hand × Cam) : Option (Filter 2 K × Option (DetectRect K)) :=
  let predictor := s.service.bboxPredictor i
  if (s.service.lastKpt2dPixel.seen i.1 i.2).valid ∧ s.service.lastKpt3dWorld.valid i.1 then do
    let kpt := (s.service.lastKpt3dWorld.hand i.1).kpt2d i.2
    let rootMeas ← kpt[keypoint2dRootId]?
    let r := predictor.trackOnlyPred cfg.solve2d KFPredictor2d.intervals f.timestamp true
    let rect := kptsToBbox (kpt.map fun p => p + r.2 - rootMeas)
    some (r.1, if cfg.rectValid rect then some rect else none)
  else some (predictor, none)

/-- The boxes of the four trackers, if there is one to ask. -/
def trackBoxes : Option (GlobalPredictorService K × (Hand × Cam → Option (DetectRect K))) :=
  if s.detTrackerStep ≠ 0 ∧ cfg.enableTrack ∧
      anyBox fun hand cam => (s.service.bboxPredictor (hand, cam)).isTracked then
    (readFamily (s.trackBox cfg f)).map fun r =>
      ({ s.service with bboxPredictor := fun i => (r i).1 }, fun i => (r i).2)
  else some (s.service, fun _ => none)

/-- A box that is not set has nothing that is read. -/
def bboxOutput (rect : Hand × Cam → Option (DetectRect K)) : DetOutputInternal K where
  valid hand cam := (rect (hand, cam)).isSome
  rect hand cam := (rect (hand, cam)).getD ⟨0, 0, 0, 0⟩

/-- The first box of the image of a camera, when it is valid; a mono device has no right
image. -/
def detectBox (rects : Hand → List (List (DetectRect K))) (i : Hand × Cam) :
    Option (Option (DetectRect K)) :=
  match i.2 with
  | .lcam => (rects i.1)[0]?.map fun image => image.head?.filter cfg.rectValid
  | .rcam =>
    if cfg.isMono then some none
    else (rects i.1)[1]?.map fun image => image.head?.filter cfg.rectValid

/-- All six predictors stop. -/
def stopTracking (service : GlobalPredictorService K) : GlobalPredictorService K :=
  { service with
    predictor := fun hand => { service.predictor hand with
      filter := (service.predictor hand).filter.stopTracking }
    bboxPredictor := fun i => (service.bboxPredictor i).stopTracking }

/-- The end of `Process`: without a valid box tracking stops.  The flags of the 2-D data are
cleared in the copy from `get_last_kpt2d_pixel`, which is dropped. -/
def emit (service : GlobalPredictorService K) (detTrackerStep : ℤ) (headPoseValid inferred : Bool)
    (output : DetOutputInternal K) : DetTrackState K × FrameLog K :=
  (⟨if anyBox output.valid then service else stopTracking service, detTrackerStep⟩,
    ⟨headPoseValid, inferred, some output⟩)

/-- `HandDetTrackCalculator::Process` -/
def process : Option (DetTrackState K × FrameLog K) :=
  let headPoseValid := isHeadPoseValid f.rotation
  let s := if headPoseValid then s else { s with detTrackerStep := 0 }
  (s.trackBoxes cfg f).bind fun (service, boxes) =>
    let output := bboxOutput boxes
    -- there is a tracked hand
    if anyBox output.valid then
      let step := s.detTrackerStep + 1
      some (emit service (if cfg.detInterval < step then 0 else step) headPoseValid false output)
    else if headPoseValid then
      match f.inference with
      | none => some (⟨service, s.detTrackerStep⟩, ⟨headPoseValid, true, none⟩)
      | some rects => (readFamily (detectBox cfg rects)).map fun boxes =>
          emit service 1 headPoseValid true (bboxOutput boxes)
    else some (emit service s.detTrackerStep headPoseValid false output)

end DetTrackState

/-! ### One frame -/

namespace DetTrackState

variable {cfg : DetTrackConfig K} {s s' : DetTrackState K} {f : DetFrame K} {log : FrameLog K}

/-- Without a count of frames nothing is tracked. -/
theorem trackBoxes_of_step_zero (h : s.detTrackerStep = 0) :
    s.trackBoxes cfg f = some (s.service, fun _ => none) := by
  rw [trackBoxes, if_neg]
  rintro ⟨hstep, -⟩
  exact hstep h

theorem trackBoxes_valid {r : GlobalPredictorService K × (Hand × Cam → Option (DetectRect K))}
    (h : s.trackBoxes cfg f = some r) (hany : anyBox (bboxOutput r.2).valid = true) :
    s.detTrackerStep ≠ 0 := by
  intro hstep
  rw [trackBoxes_of_step_zero hstep] at h
  obtain rfl := Option.some.inj h
  exact Bool.false_ne_true hany

/-- Without a head pose the frame is skipped, whatever is tracked. -/
theorem process_of_invalid (h : isHeadPoseValid f.rotation = false) :
    s.process cfg f = some (emit s.service 0 false false (bboxOutput fun _ => none)) := by
  have hboxes : DetTrackState.trackBoxes cfg { s with detTrackerStep := 0 } f =
      some (s.service, fun _ => none) :=
    trackBoxes_of_step_zero rfl
  simp only [process, h, Bool.false_eq_true, if_false]
  rw [hboxes, Option.bind_some]
  rfl

/-- With a head pose the boxes are tracked, or the detector is called. -/
theorem process_of_valid (h : isHeadPoseValid f.rotation = true)
    (hprocess : s.process cfg f = some (s', log)) :
    log.headPoseValid = true ∧
      (log.inferred = false ∧ s.detTrackerStep ≠ 0 ∧
        s'.detTrackerStep =
          (if cfg.detInterval < s.detTrackerStep + 1 then 0 else s.detTrackerStep + 1) ∨
      log.inferred = true ∧
        (s'.detTrackerStep = s.detTrackerStep ∨ s'.detTrackerStep = 1)) := by
  simp only [process, h, if_true] at hprocess
  obtain ⟨⟨service, boxes⟩, hboxes, hprocess⟩ := Option.bind_eq_some_iff.mp hprocess
  dsimp only at hprocess
  split at hprocess
  case isTrue hany =>
    cases hprocess
    exact ⟨rfl, .inl ⟨rfl, trackBoxes_valid hboxes hany, rfl⟩⟩
  case isFalse hnone =>
    cases hinf : f.inference with
    | none =>
      rw [hinf] at hprocess
      cases hprocess
      exact ⟨rfl, .inr ⟨rfl, .inl rfl⟩⟩
    | some rects =>
      rw [hinf] at hprocess
      obtain ⟨boxes', -, hemit⟩ := Option.map_eq_some_iff.mp hprocess
      cases hemit
      exact ⟨rfl, .inr ⟨rfl, .inr rfl⟩⟩

end DetTrackState

/-! ### Runs -/

/-- A frame, or what the other calculators do with the service between two frames. -/
inductive DetEvent (K : Type) [Field K] [LinearOrder K] where
  | frame (f : DetFrame K)
  | service (service : GlobalPredictorService K)

/-- One event: a frame, or a service that somebody else has changed. -/
def detStep (cfg : DetTrackConfig K) (s : DetTrackState K) :
    DetEvent K → Option (DetTrackState K × List (FrameLog K))
  | .frame f => (s.process cfg f).map fun r => (r.1, [r.2])
  | .service service => some ({ s with service := service }, [])

/-- `Open` sets the counter; the service is as it is. -/
def DetTrackState.init (service : GlobalPredictorService K) : DetTrackState K := ⟨service, 0⟩

/-- Frames that had a head pose and went by without the detector. -/
def Quiet (w : List (FrameLog K)) : Prop :=
  ∀ log ∈ w, log.headPoseValid = true ∧ log.inferred = false

/-- The counter is one ahead of the quiet frames before it, and there are never more of them
than the interval. -/
structure QuietFrames (cfg : DetTrackConfig K) (es : List (FrameLog K)) (s : DetTrackState K) :
    Prop where
  nonneg : 0 ≤ s.detTrackerStep
  le : s.detTrackerStep ≤ cfg.detInterval
  ahead : ∀ w, w <:+ es → Quiet w → s.detTrackerStep ≠ 0 → w.length + 1 ≤ s.detTrackerStep
  bounded : ∀ w, w <:+: es → Quiet w → (w.length : ℤ) ≤ cfg.detInterval

section

variable {cfg : DetTrackConfig K} {es : List (FrameLog K)} {s s' : DetTrackState K}
  {log : FrameLog K} {w : List (FrameLog K)}

theorem QuietFrames.init (service : GlobalPredictorService K) :
    QuietFrames cfg [] (DetTrackState.init service) := by
  have hinterval := cfg.one_le_detInterval
  refine ⟨le_rfl, by simp only [DetTrackState.init]; omega, fun w _ _ h => absurd rfl h, ?_⟩
  intro w hw _
  rw [List.infix_nil.mp hw]
  simp only [List.length_nil, Nat.cast_zero]
  omega

omit [Field K] [LinearOrder K] in
/-- A loud frame ends the quiet ones. -/
theorem eq_nil_of_quiet (hlog : ¬(log.headPoseValid = true ∧ log.inferred = false))
    (hw : w <:+ es ++ [log]) (hquiet : Quiet w) : w = [] := by
  rcases List.suffix_concat_iff.mp hw with rfl | ⟨w', rfl, -⟩
  · rfl
  · exact absurd (hquiet log (List.mem_append_right _ (List.mem_singleton_self _))) hlog

/-- A frame that is not quiet sets the counter to 0 or 1, or leaves it. -/
theorem QuietFrames.loud (h : QuietFrames cfg es s)
    (hlog : ¬(log.headPoseValid = true ∧ log.inferred = false))
    (hstep : s'.detTrackerStep = 0 ∨ s'.detTrackerStep = 1 ∨
      s'.detTrackerStep = s.detTrackerStep) : QuietFrames cfg (es ++ [log]) s' := by
  have hinterval := cfg.one_le_detInterval
  have hnonneg := h.nonneg
  have hle := h.le
  refine ⟨by omega, by omega, ?_, ?_⟩
  · intro w hw hquiet hne
    rw [eq_nil_of_quiet hlog hw hquiet, List.length_nil]
    omega
  · intro w hw hquiet
    rcases List.infix_concat_iff.mp hw with hw | hw
    · rw [eq_nil_of_quiet hlog hw hquiet]
      simp only [List.length_nil, Nat.cast_zero]
      omega
    · exact h.bounded w hw hquiet

/-- A quiet frame moves the counter on. -/
theorem QuietFrames.quiet (h : QuietFrames cfg es s) (hne : s.detTrackerStep ≠ 0)
    (hstep : s'.detTrackerStep =
      if cfg.detInterval < s.detTrackerStep + 1 then 0 else s.detTrackerStep + 1) :
    QuietFrames cfg (es ++ [log]) s' := by
  have hnonneg := h.nonneg
  have hle := h.le
  have hsuffix : ∀ w, w <:+ es ++ [log] → Quiet w → (w.length : ℤ) ≤ s.detTrackerStep := by
    intro w hw hquiet
    rcases List.suffix_concat_iff.mp hw with rfl | ⟨w', rfl, hw'⟩
    · simpa using hnonneg
    · have hahead := h.ahead w' hw' (fun l hl => hquiet l (List.mem_append_left _ hl)) hne
      rw [List.length_append, List.length_singleton]
      exact_mod_cast hahead
  refine ⟨?_, ?_, ?_, ?_⟩
  · split at hstep
    · omega
    · omega
  · split at hstep
    · omega
    · omega
  · intro w hw hquiet hne'
    have hw := hsuffix w hw hquiet
    split at hstep
    · exact absurd hstep hne'
    · omega
  · intro w hw hquiet
    rcases List.infix_concat_iff.mp hw with hw | hw
    · exact (hsuffix w hw hquiet).trans hle
    · exact h.bounded w hw hquiet

theorem QuietFrames.frame (h : QuietFrames cfg es s) {f : DetFrame K}
    (hprocess : s.process cfg f = some (s', log)) : QuietFrames cfg (es ++ [log]) s' := by
  cases hvalid : isHeadPoseValid f.rotation with
  | false =>
    rw [DetTrackState.process_of_invalid hvalid] at hprocess
    cases hprocess
    exact h.loud (fun hlog => Bool.false_ne_true hlog.1) (.inl rfl)
  | true =>
    obtain ⟨-, ⟨-, hne, hstep⟩ | ⟨hinferred, hstep⟩⟩ :=
      DetTrackState.process_of_valid hvalid hprocess
    · exact h.quiet hne hstep
    · refine h.loud (fun hlog => ?_) (.inr hstep.symm)
      rw [hinferred] at hlog
      exact Bool.noConfusion hlog.2

theorem quietFrames_run {service : GlobalPredictorService K} {as : List (DetEvent K)}
    (run : Transition.Run (detStep cfg) (fun _ _ => True) (.init service) as es s) :
    QuietFrames cfg es s := by
  refine run.invariant (P := QuietFrames cfg) (.init service) ?_
  intro es s a s' es' h _ hs
  cases a with
  | frame f =>
    obtain ⟨⟨s₁, log⟩, hprocess, hresult⟩ := Option.map_eq_some_iff.mp hs
    cases hresult
    exact h.frame hprocess
  | service service =>
    cases hs
    rw [List.append_nil]
    exact ⟨h.nonneg, h.le, h.ahead, h.bounded⟩

end

/-- All six predictors are stopped. -/
def AllStopped (service : GlobalPredictorService K) : Prop :=
  (∀ hand, (service.predictor hand).filter.isTracked = false) ∧
    ∀ i, (service.bboxPredictor i).isTracked = false

theorem detStep_of_invalid {cfg : DetTrackConfig K} {s : DetTrackState K} {f : DetFrame K}
    (h : isHeadPoseValid f.rotation = false) :
    detStep cfg s (.frame f) =
      some (⟨DetTrackState.stopTracking s.service, 0⟩,
        [⟨false, false, some (DetTrackState.bboxOutput fun _ => none)⟩]) := by
  rw [detStep, DetTrackState.process_of_invalid h]
  rfl

/-- In every run: the counter stays within the interval; of one frame more than the interval,
all with a head pose, the detector is called on one; and a frame without a head pose puts out
no valid hand and leaves all predictors stopped. -/
theorem detTrack_schedule {cfg : DetTrackConfig K} {service : GlobalPredictorService K}
    {as : List (DetEvent K)} {es : List (FrameLog K)} {s : DetTrackState K}
    (run : Transition.Run (detStep cfg) (fun _ _ => True) (.init service) as es s) :
    (0 ≤ s.detTrackerStep ∧ s.detTrackerStep ≤ cfg.detInterval) ∧
    (∀ w, w <:+: es → w.length = cfg.detInterval + 1 → (∀ log ∈ w, log.headPoseValid = true) →
      ∃ log ∈ w, log.inferred = true) ∧
    ∀ f : DetFrame K, isHeadPoseValid f.rotation = false →
      ∃ s' log output, detStep cfg s (.frame f) = some (s', [log]) ∧
        log.headPoseValid = false ∧ log.output = some output ∧
        (∀ hand cam, output.valid hand cam = false) ∧ AllStopped s'.service := by
  have hframes := quietFrames_run run
  refine ⟨⟨hframes.nonneg, hframes.le⟩, ?_, ?_⟩
  · intro w hw hlength hvalid
    by_contra hnone
    push Not at hnone
    have hquiet : Quiet w := fun log hlog =>
      ⟨hvalid log hlog, Bool.not_eq_true _ ▸ hnone log hlog⟩
    have hbounded := hframes.bounded w hw hquiet
    omega
  · intro f hinvalid
    exact ⟨_, _, _, detStep_of_invalid hinvalid, rfl, rfl, fun _ _ => rfl, fun _ => rfl,
      fun _ => rfl⟩

/-! ### A run with a hand that moves -/

/-- The detector runs at least on every third frame. -/
noncomputable def trackConfig : DetTrackConfig ℚ where
  videoWidth := 640
  videoHeight := 480
  isMono := false
  optionDetInterval := 2
  enableTrack := true
  solve2d A B := A⁻¹ * B

/-- The left hand, as the last frame left it: in the left image, and moving to the right. -/
def trackedService : GlobalPredictorService ℚ :=
  { (FilterState.init .flora 0).service with
    bboxPredictor := fun i =>
      if i = (.left, .lcam) then Filter.init.startTracking 0 ⟨![300, 200], ![30, 0]⟩ else .init
    lastKpt2dPixel :=
      { seen := fun hand cam => { CamKeypoints.init with valid := hand = .left ∧ cam = .lcam }
        holdLabel := fun _ => false }
    lastKpt3dWorld :=
      { hand := fun _ => { SingleHandData.init with
          kpt2d := fun _ => (List.replicate 26 ![380, 280]).set keypoint2dRootId ![300, 200] }
        valid := fun hand => hand = .left } }

/-- The detector would find the left hand in the left image. -/
def detectFrame (timestamp : ℚ) : DetFrame ℚ :=
  ⟨⟨0, 0, 0, 1⟩, timestamp,
    some fun hand => [if hand = .left then [⟨300, 200, 80, 80⟩] else [], []]⟩

/-- A frame without a head pose. -/
def lostPoseFrame : DetFrame ℚ := ⟨⟨0, 0, 0, 0⟩, 4 / 30, none⟩

/-- The hand is detected, tracked for two frames, and detected again. -/
def trackRun : List (DetEvent ℚ) :=
  [.frame (detectFrame 0), .service trackedService, .frame (detectFrame (1 / 30)),
    .service trackedService, .frame (detectFrame (2 / 30)), .frame (detectFrame (3 / 30))]

theorem detTrack_schedule_trackRun :
    ∃ r ∈ Transition.exec (detStep trackConfig) (fun _ _ => True)
        (.init (FilterState.init .flora 0).service) trackRun,
      r.2.map (fun log => (log.headPoseValid, log.inferred)) =
        [(true, true), (true, false), (true, false), (true, true)] ∧
      (0 ≤ r.1.detTrackerStep ∧ r.1.detTrackerStep ≤ trackConfig.detInterval) ∧
      (∃ log ∈ r.2.drop 1, log.inferred = true) ∧
      ∃ s' log output, detStep trackConfig r.1 (.frame lostPoseFrame) = some (s', [log]) ∧
        log.headPoseValid = false ∧ log.output = some output ∧
        (∀ hand cam, output.valid hand cam = false) ∧ AllStopped s'.service := by
  obtain ⟨⟨s, es⟩, hexec, hlogs, hlength, hvalid⟩ :
      ∃ r ∈ Transition.exec (detStep trackConfig) (fun _ _ => True)
          (.init (FilterState.init .flora 0).service) trackRun,
        r.2.map (fun log => (log.headPoseValid, log.inferred)) =
          [(true, true), (true, false), (true, false), (true, true)] ∧
        (r.2.drop 1).length = trackConfig.detInterval + 1 ∧
        ∀ log ∈ r.2.drop 1, log.headPoseValid = true := by
    decide +kernel
  obtain ⟨hstep, hwindow, hposeless⟩ := detTrack_schedule (Transition.Run.of_exec hexec)
  exact ⟨_, hexec, hlogs, hstep, hwindow _ (List.drop_suffix 1 es).isInfix hlength hvalid,
    hposeless lostPoseFrame (by decide +kernel)⟩

end Calculator

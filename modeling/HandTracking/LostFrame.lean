/-
The last 2-D data after a frame without a valid hand.

Such a frame clears the four flags of `lastframe_kpt2d`, which is what `get_last_kpt2d_pixel`
returned by value; the data of the service keep theirs until `HandFilterCalculator` sets them
again.

* `flagStep` — the frames and the calls to the service; `lost` remembers a frame without a hand
  since the data were set;
* `process_lastKpt2dPixel` — no frame changes the 2-D data of the service;
* `flagsClear_of_lost` — they are clear after every such frame of a run, if they were before.
-/
import HandTracking.HandDetTrack

namespace Calculator

open Landmark

variable {K : Type} [Field K] [LinearOrder K]

namespace DetTrackState

variable {cfg : DetTrackConfig K} {s s' : DetTrackState K} {f : DetFrame K} {log : FrameLog K}

theorem trackBoxes_lastKpt2dPixel
    {r : GlobalPredictorService K × (Hand × Cam → Option (DetectRect K))}
    (h : s.trackBoxes cfg f = some r) : r.1.lastKpt2dPixel = s.service.lastKpt2dPixel := by
  rw [trackBoxes] at h
  split_ifs at h with htrack
  · obtain ⟨boxes, -, rfl⟩ := Option.map_eq_some_iff.mp h
    rfl
  · obtain rfl := Option.some.inj h
    rfl

theorem emit_lastKpt2dPixel {service : GlobalPredictorService K} {step : ℤ}
    {headPoseValid inferred : Bool} {output : DetOutputInternal K}
    (h : emit service step headPoseValid inferred output = (s', log)) :
    s'.service.lastKpt2dPixel = service.lastKpt2dPixel := by
  obtain ⟨rfl, -⟩ := Prod.mk.inj h
  show (if anyBox output.valid then service else stopTracking service).lastKpt2dPixel = _
  split
  · rfl
  · rfl

/-- A frame reads the 2-D data, and leaves them. -/
theorem process_lastKpt2dPixel (h : s.process cfg f = some (s', log)) :
    s'.service.lastKpt2dPixel = s.service.lastKpt2dPixel := by
  cases hvalid : isHeadPoseValid f.rotation with
  | false =>
    rw [process_of_invalid hvalid] at h
    exact emit_lastKpt2dPixel (Option.some.inj h)
  | true =>
    simp only [process, hvalid, if_true] at h
    obtain ⟨⟨service, boxes⟩, hboxes, h⟩ := Option.bind_eq_some_iff.mp h
    rw [← trackBoxes_lastKpt2dPixel hboxes]
    dsimp only at h ⊢
    split at h
    case isTrue hany =>
      exact emit_lastKpt2dPixel (Option.some.inj h)
    case isFalse hnone =>
      cases hinference : f.inference with
      | none =>
        rw [hinference] at h
        obtain ⟨rfl, -⟩ := Prod.mk.inj (Option.some.inj h)
        rfl
      | some rects =>
        rw [hinference] at h
        obtain ⟨boxes', -, h⟩ := Option.map_eq_some_iff.mp h
        exact emit_lastKpt2dPixel h

end DetTrackState

/-! ### Runs -/

/-- A frame, or what is done with the service between two frames. -/
inductive FlagEvent (K : Type) [Field K] [LinearOrder K] where
  | frame (f : DetFrame K)
  | setLastKpt2dPixel (data : Kpt2dInternal K)
  /-- all but the 2-D data -/
  | others (service : GlobalPredictorService K)

/-- `lost`: since the 2-D data were set, a frame had no valid hand. -/
structure FlagState (K : Type) [Field K] [LinearOrder K] where
  det : DetTrackState K
  lost : Bool

/-- The frame put out boxes, and none is valid. -/
def FrameLog.noValidHand (log : FrameLog K) : Bool :=
  match log.output with
  | some output => !DetTrackState.anyBox output.valid
  | none => false

/-- One event; the mark `lost` stays until the last 2-D data are set again. -/
def flagStep (cfg : DetTrackConfig K) (s : FlagState K) :
    FlagEvent K → Option (FlagState K × List (FrameLog K))
  | .frame f => (s.det.process cfg f).map fun r => (⟨r.1, s.lost || r.2.noValidHand⟩, [r.2])
  | .setLastKpt2dPixel data =>
    some (⟨{ s.det with service := { s.det.service with lastKpt2dPixel := data } }, false⟩, [])
  | .others service =>
    some (⟨{ s.det with service :=
      { service with lastKpt2dPixel := s.det.service.lastKpt2dPixel } }, s.lost⟩, [])

/-- The four flags of the last 2-D data are false. -/
def FlagsClear (service : GlobalPredictorService K) : Prop :=
  ∀ hand cam, (service.lastKpt2dPixel.seen hand cam).valid = false

/-- A frame that loses the hands finds the flags clear. -/
def LosesClear (cfg : DetTrackConfig K) (s : FlagState K) : FlagEvent K → Prop
  | .frame f => ∀ r, s.det.process cfg f = some r → r.2.noValidHand = true →
      FlagsClear s.det.service
  | _ => True

section

variable {cfg : DetTrackConfig K} {s s' : FlagState K}

/-- One frame: the flags are afterwards as they were. -/
theorem flagsClear_frame_iff {f : DetFrame K} {logs : List (FrameLog K)}
    (h : flagStep cfg s (.frame f) = some (s', logs)) :
    FlagsClear s'.det.service ↔ FlagsClear s.det.service := by
  obtain ⟨⟨det, log⟩, hprocess, hresult⟩ := Option.map_eq_some_iff.mp h
  obtain ⟨rfl, -⟩ := Prod.mk.inj hresult
  rw [FlagsClear, FlagsClear, DetTrackState.process_lastKpt2dPixel hprocess]

theorem flagsClear_step {e : FlagEvent K} {logs : List (FrameLog K)}
    (hs : s.lost = true → FlagsClear s.det.service) (he : LosesClear cfg s e)
    (h : flagStep cfg s e = some (s', logs)) : s'.lost = true → FlagsClear s'.det.service := by
  intro hlost
  cases e with
  | frame f =>
    rw [flagsClear_frame_iff h]
    obtain ⟨⟨det, log⟩, hprocess, hresult⟩ := Option.map_eq_some_iff.mp h
    obtain ⟨rfl, -⟩ := Prod.mk.inj hresult
    -- the hands were lost before, or are lost now
    rcases Bool.or_eq_true_iff.mp hlost with hbefore | hnow
    · exact hs hbefore
    · exact he _ hprocess hnow
  | setLastKpt2dPixel data =>
    obtain ⟨rfl, -⟩ := Prod.mk.inj (Option.some.inj h)
    exact absurd hlost Bool.false_ne_true
  | others service =>
    obtain ⟨rfl, -⟩ := Prod.mk.inj (Option.some.inj h)
    exact hs hlost

/-- **In every run** whose frames without a valid hand find the four flags clear, the flags are
clear from such a frame on until the 2-D data are set. -/
theorem flagsClear_of_lost {service : GlobalPredictorService K}
    (hs : Transition.Reachable (flagStep cfg) (LosesClear cfg) ⟨.init service, false⟩ s) :
    s.lost = true → FlagsClear s.det.service :=
  hs.invariant (I := fun s => s.lost = true → FlagsClear s.det.service)
    (fun hlost => absurd hlost Bool.false_ne_true)
    fun _ _ _ _ hinv he hstep => flagsClear_step hinv he hstep

end

/-! ### A frame without a head pose -/

/-- A device with one camera. -/
noncomputable def monoDetConfig : DetTrackConfig ℝ where
  videoWidth := 640
  videoHeight := 480
  isMono := true
  optionDetInterval := 0
  enableTrack := true
  solve2d _ B := B

/-- The left hand was seen in the left image. -/
noncomputable def seenKpt2d : Kpt2dInternal ℝ :=
  { (.init : Kpt2dInternal ℝ) with
    seen := fun hand cam =>
      { (Kpt2dInternal.init : Kpt2dInternal ℝ).seen hand cam with
        valid := decide (hand = .left ∧ cam = .lcam) } }

/-- The norm of the rotation is 0. -/
noncomputable def poselessFrame : DetFrame ℝ := ⟨⟨0, 0, 0, 0⟩, 0, none⟩

theorem isHeadPoseValid_poselessFrame : isHeadPoseValid poselessFrame.rotation = false := by
  norm_num [isHeadPoseValid, poselessFrame, fltMax]

theorem flagStep_poselessFrame (s : FlagState ℝ) :
    flagStep monoDetConfig s (.frame poselessFrame) =
      some (⟨⟨DetTrackState.stopTracking s.det.service, 0⟩, true⟩,
        [⟨false, false, some (DetTrackState.bboxOutput fun _ => none)⟩]) := by
  rw [flagStep, DetTrackState.process_of_invalid isHeadPoseValid_poselessFrame]
  exact congrArg (fun lost => some ((⟨⟨DetTrackState.stopTracking s.det.service, 0⟩, lost⟩,
    [⟨false, false, some (DetTrackState.bboxOutput fun _ => none)⟩]) :
      FlagState ℝ × List (FrameLog ℝ))) (Bool.or_true s.lost)

/-- The flag is set, and the 2-D data are clear again when the frame comes. -/
theorem flagsClear_of_lost_poselessFrame : ∃ s₁ s₂ s₃ log,
    flagStep monoDetConfig ⟨.init (FilterState.init .flora 0).service, false⟩
        (.setLastKpt2dPixel seenKpt2d) = some (s₁, []) ∧ ¬ FlagsClear s₁.det.service ∧
      flagStep monoDetConfig s₁ (.setLastKpt2dPixel .init) = some (s₂, []) ∧
      flagStep monoDetConfig s₂ (.frame poselessFrame) = some (s₃, log) ∧
      FlagsClear s₃.det.service := by
  have run : Transition.Run (flagStep monoDetConfig) (LosesClear monoDetConfig)
      ⟨.init (FilterState.init .flora 0).service, false⟩
      [.setLastKpt2dPixel seenKpt2d, .setLastKpt2dPixel .init, .frame poselessFrame] _ _ :=
    .snoc (.snoc (.single trivial rfl) trivial rfl) (fun _ _ _ _ _ => rfl)
      (flagStep_poselessFrame _)
  exact ⟨_, _, _, _, rfl, fun hclear => Bool.noConfusion (hclear .left .lcam), rfl,
    flagStep_poselessFrame _, flagsClear_of_lost ⟨_, _, run⟩ rfl⟩

/-- The flag that was set is still there when the frame is over. -/
theorem stale_after_poselessFrame :
    ¬ ∀ s : FlagState ℝ, Transition.Reachable (flagStep monoDetConfig) (fun _ _ => True)
        ⟨.init (FilterState.init .flora 0).service, false⟩ s →
      s.lost = true → FlagsClear s.det.service := by
  intro h
  have hset : Transition.Reachable (flagStep monoDetConfig) (fun _ _ => True)
      ⟨.init (FilterState.init .flora 0).service, false⟩ _ :=
    ⟨_, _, .single (a := .setLastKpt2dPixel seenKpt2d) trivial rfl⟩
  have hlost := hset.trans ⟨_, _, .single trivial (flagStep_poselessFrame _)⟩
  exact Bool.noConfusion (h _ hlost rfl .left .lcam)

end Calculator

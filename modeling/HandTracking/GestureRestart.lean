/-
When the gestures after a loss do not depend on what was before it.

For each state that the rules can tell apart there is a first frame whose gesture is another for
another state, so two histories give the same gestures from a loss on exactly if they left the
members alike.

* `homeFrame`, `grabFrame` — frames that show a curl;
* `thumbUpJoints`, `clickJoints`, `victoryJoints`, `touchJoints` — those that show the other
  states;
* `gestures_restart` — the gestures from the first frame on.
-/
import HandTracking.GestureFrames

namespace Gesture

open HandPose Predictor Real

/-! ### Frames that show a curl -/

/-- A gesture is found if its rule is met and none before it. -/
theorem matchGesture_eq_iff {K : Type} [Field K] [LinearOrder K] {f : HandFeature}
    {raw : HandRawFeature K} {gesture : HandGesture} {before after : List HandGesture}
    (horder : gestureOrder = before ++ gesture :: after) (hgesture : gesture ≠ .invalid)
    (hbefore : gestureFunctionMap f raw gesture = true →
      ∀ g ∈ before, gestureFunctionMap f raw g = false) :
    matchGesture f raw = gesture ↔ gestureFunctionMap f raw gesture = true := by
  constructor
  · intro h
    cases hfind : gestureOrder.find? (gestureFunctionMap f raw) with
    | none =>
      rw [matchGesture, hfind] at h
      exact absurd h.symm hgesture
    | some found =>
      rw [matchGesture, hfind] at h
      obtain rfl : found = gesture := h
      exact List.find?_some hfind
  · intro hrule
    -- `find?` stops at the first rule that is met
    have hnone : before.find? (gestureFunctionMap f raw) = none := by
      refine List.find?_eq_none.mpr fun g hg => ?_
      rw [hbefore hrule g hg]
      exact Bool.false_ne_true
    rw [matchGesture, horder, List.find?_append, hnone, List.find?_cons_of_pos hrule]
    rfl

/-- The rule of a pinch comes first. -/
theorem gesture_pinch_iff {K : Type} [Field K] [LinearOrder K] {lib : GestureLib K}
    {th : PinchTh K} {s : GestureRecognitionV2 K} {c : GestureCall K} :
    (predictWithKeypoints3d lib th s c).2 = .pinch ↔
      GestureMatchRule.pinch (s.updatedFeature lib th c) (s.rawFeature lib c) = true := by
  have hbefore : gestureFunctionMap (s.updatedFeature lib th c) (s.rawFeature lib c) .pinch =
      true → ∀ g ∈ [.invalid],
        gestureFunctionMap (s.updatedFeature lib th c) (s.rawFeature lib c) g = false := by
    intro _ g hg
    rw [List.mem_singleton.mp hg]
    rfl
  exact matchGesture_eq_iff rfl HandGesture.noConfusion hbefore

/-- A hand whose fingers are bent by the angles. -/
noncomputable def bentJoints (bend : Fin 5 → ℝ) (i : Fin 5) : Fin 4 → Vec3 ℝ :=
  if i = 0 then bentThumb (bend i) else bentFinger ((8 / 100 : ℝ) • turn 0) (bend i)

section

variable {bend : Fin 5 → ℝ} {isTracked : Bool} {th : PinchTh ℝ} {s : GestureRecognitionV2 ℝ}

theorem length_bentJoints : realLib.eigen.norm (bentJoints bend 2 0) = 8 / 100 :=
  norm_turn (by norm_num) 0

theorem far_bentJoints :
    1 / 5 ≤ (fingersFrame (bentJoints bend) isTracked).pinchDistance realLib := by
  have hheight : (bentJoints bend 1 3 - bentJoints bend 0 3) 2 = 1 / 5 := by
    show bentFinger _ _ 3 2 - bentThumb _ 3 2 = 1 / 5
    simp [bentFinger, bentThumb, finger, phalanx, turn]
    norm_num
  exact le_pinchDistance length_bentJoints hheight

theorem curl_bentJoints (hbend : ∀ i, 0 ≤ bend i ∧ bend i ≤ 120) (i : Fin 5) :
    (s.updatedFeature realLib th (fingersFrame (bentJoints bend) isTracked)).curlFeatures i =
      if i = 0 then updateFingureState (180 - bend i) 140 155 10 (s.feature.curlFeatures i)
      else updateFingureState (180 - bend i) 80 130 10 (s.feature.curlFeatures i) := by
  by_cases hi : i = 0
  · subst hi
    rw [if_pos rfl, curl_bentThumb length_bentJoints rfl (hbend 0).1 (hbend 0).2]
  · rw [if_neg hi, curl_bentFinger length_bentJoints hi (if_neg hi) (hbend i).1 (hbend i).2]

/-- The thumb of the hand is straight up to its last joint. -/
theorem thumbFlexion_bentJoints :
    (s.updatedFeature realLib th (fingersFrame (bentJoints bend) isTracked)).flexionFeatures 0 =
      .open := by
  have hangle : calculateFingureAngles realLib
      ((fingersFrame (bentJoints bend) isTracked).points realLib) 0 1 = 0 := by
    rw [points_fingersFrame length_bentJoints]
    show vector3dAngle realLib (![0, 0, -1 / 5] + phalanx 0 - ![0, 0, -1 / 5])
      (![0, 0, -1 / 5] + phalanx 0 + phalanx 0 - (![0, 0, -1 / 5] + phalanx 0)) = 0
    rw [add_sub_cancel_left, add_sub_cancel_left,
      vector3dAngle_phalanx le_rfl (by norm_num), sub_self]
  rw [GestureRecognitionV2.updatedFeature, HandFeature.flexionFeatures_update, if_pos rfl]
  show updateFingureState (180 - calculateFingureAngles realLib _ 0 1) 120 150 8 _ = .open
  rw [hangle]
  norm_num [updateFingureState]

/-- The middle finger of the hand is level, however it is bent. -/
theorem orientation_bentJoints (hbend : 0 ≤ bend 2 ∧ bend 2 ≤ 120) :
    (s.updatedFeature realLib th (fingersFrame (bentJoints bend) isTracked)).orientation =
      .horizontal := by
  have hcos : 0 ≤ cos (bend 2 / 2 * mPi / 180) := by
    have hthree : (3 : ℝ) < π := pi_gt_three
    refine cos_nonneg_of_neg_pi_div_two_le_of_le ?_ ?_
    · nlinarith [mPi_pos, hbend.1]
    · nlinarith [mPi_pos, mPi_lt_four, hbend.1, hbend.2]
  have hmiddle : phalanx (-(bend 2 / 2)) + phalanx 0 + phalanx (bend 2 / 2) =
      ((1 + 2 * cos (bend 2 / 2 * mPi / 180)) / 100) • turn 0 := by
    funext t
    fin_cases t
    · simp [phalanx, turn, neg_div]
      ring
    · simp [phalanx, turn, neg_div]
    · simp [phalanx, turn]
  have hlevel : (![1, 0, 0] : Vec3 ℝ) = (1 : ℝ) • turn 0 := by
    simp [turn]
  have hangle : vector3dAngle realLib
      ((fingersFrame (bentJoints bend) isTracked).points realLib 2 4 -
        (fingersFrame (bentJoints bend) isTracked).points realLib 2 1) ![1, 0, 0] = 0 := by
    rw [points_fingersFrame length_bentJoints]
    show vector3dAngle realLib ((8 / 100 : ℝ) • turn 0 + phalanx (-(bend 2 / 2)) + phalanx 0 +
      phalanx (bend 2 / 2) - (8 / 100 : ℝ) • turn 0) ![1, 0, 0] = 0
    rw [add_assoc, add_assoc, add_sub_cancel_left, ← add_assoc, hmiddle, hlevel,
      vector3dAngle_turn (by linarith) (by norm_num) le_rfl (by norm_num), sub_self]
  rw [GestureRecognitionV2.updatedFeature, HandFeature.orientation_update]
  show (if _ then HandOrientation.horizontal else _) = _
  refine if_pos (.inl ?_)
  show 0 ≤ vector3dAngle realLib _ _ ∧ vector3dAngle realLib _ _ ≤ 30
  rw [hangle]
  norm_num

/-- The curl of a finger is in the dead band below open, or that of the thumb in the one above
closed; the other fingers are open and the thumb closed. -/
noncomputable def homeFrame (i : Fin 5) : GestureCall ℝ :=
  fingersFrame
    (bentJoints fun j => if j = i then if i = 0 then 40 else 50 else if j = 0 then 90 else 0) false

/-- The curl of a finger is in the dead band above closed, or that of the thumb in the one below
open; the others are closed. -/
noncomputable def grabFrame (i : Fin 5) : GestureCall ℝ :=
  fingersFrame
    (bentJoints fun j => if j = i then if i = 0 then 25 else 100 else if j = 0 then 90 else 120)
    false

theorem curl_homeFrame (i j : Fin 5) :
    (s.updatedFeature realLib th (homeFrame i)).curlFeatures j =
      if j = i then s.feature.curlFeatures j else if j = 0 then .closed else .open := by
  rw [homeFrame, curl_bentJoints fun j => by split_ifs <;> norm_num]
  by_cases hj : j = i
  · subst hj
    rw [if_pos rfl, if_pos rfl]
    split_ifs
    · exact updateFingureState_of_not_decides (by norm_num [Decides])
    · exact updateFingureState_of_not_decides (by norm_num [Decides])
  · rw [if_neg hj, if_neg hj]
    split_ifs
    · norm_num [updateFingureState]
    · norm_num [updateFingureState]

theorem curl_grabFrame (i j : Fin 5) :
    (s.updatedFeature realLib th (grabFrame i)).curlFeatures j =
      if j = i then s.feature.curlFeatures j else .closed := by
  rw [grabFrame, curl_bentJoints fun j => by split_ifs <;> norm_num]
  by_cases hj : j = i
  · subst hj
    rw [if_pos rfl, if_pos rfl]
    split_ifs
    · exact updateFingureState_of_not_decides (by norm_num [Decides])
    · exact updateFingureState_of_not_decides (by norm_num [Decides])
  · rw [if_neg hj, if_neg hj]
    split_ifs
    · norm_num [updateFingureState]
    · norm_num [updateFingureState]

theorem gesture_homeFrame_iff (i : Fin 5) :
    (predictWithKeypoints3d realLib th s (homeFrame i)).2 = .home ↔
      s.feature.curlFeatures i = if i = 0 then .closed else .open := by
  let f := s.updatedFeature realLib th (homeFrame i)
  let raw := s.rawFeature realLib (homeFrame i)
  have hcurl : ∀ j, f.curlFeatures j =
      if j = i then s.feature.curlFeatures j else if j = 0 then .closed else .open :=
    curl_homeFrame i
  have hflexion : f.flexionFeatures 0 = .open := thumbFlexion_bentJoints
  have horientation : f.orientation = .horizontal :=
    orientation_bentJoints (by split_ifs <;> norm_num)
  have hrule : gestureFunctionMap f raw .home = true ↔
      s.feature.curlFeatures i = if i = 0 then .closed else .open := by
    simp only [gestureFunctionMap, GestureMatchRule.home, hflexion, horientation, hcurl]
    fin_cases i <;> simp
  have hbefore : gestureFunctionMap f raw .home = true →
      ∀ g ∈ [.invalid, .pinch, .click, .grab, .thumbUp, .openHand, .victory, .call],
        gestureFunctionMap f raw g = false := by
    -- where the rule is met every curl is known, and no earlier rule is met
    intro hhome
    have hall : ∀ j, f.curlFeatures j = if j = 0 then .closed else .open := by
      intro j
      rw [hcurl j]
      by_cases hj : j = i
      · rw [if_pos hj, hj, hrule.mp hhome]
      · rw [if_neg hj]
    have hpinch : GestureMatchRule.pinch f raw = false := pinch_far far_bentJoints
    simp [gestureFunctionMap, GestureMatchRule.click, GestureMatchRule.grab,
      GestureMatchRule.thumbUp, GestureMatchRule.openHand, GestureMatchRule.victory,
      GestureMatchRule.call, hall, hpinch]
  have horder : gestureOrder =
    [.invalid, .pinch, .click, .grab, .thumbUp, .openHand, .victory, .call] ++ [.home] := rfl
  have hfound := matchGesture_eq_iff horder HandGesture.noConfusion hbefore
  exact hfound.trans hrule

theorem gesture_grabFrame_iff (i : Fin 5) :
    (predictWithKeypoints3d realLib th s (grabFrame i)).2 = .grab ↔
      if i = 0 then s.feature.curlFeatures i ≠ .open else s.feature.curlFeatures i = .closed := by
  let f := s.updatedFeature realLib th (grabFrame i)
  let raw := s.rawFeature realLib (grabFrame i)
  have hcurl : ∀ j, f.curlFeatures j = if j = i then s.feature.curlFeatures j else .closed :=
    curl_grabFrame i
  have hrule : gestureFunctionMap f raw .grab = true ↔
      if i = 0 then s.feature.curlFeatures i ≠ .open
      else s.feature.curlFeatures i = .closed := by
    simp only [gestureFunctionMap, GestureMatchRule.grab, hcurl]
    fin_cases i <;> simp
  have hbefore : gestureFunctionMap f raw .grab = true →
      ∀ g ∈ [.invalid, .pinch, .click], gestureFunctionMap f raw g = false := by
    -- a click needs an open index finger
    intro hgrab
    have hindex : f.curlFeatures 1 = .closed := (of_decide_eq_true hgrab).1
    have hpinch : GestureMatchRule.pinch f raw = false := pinch_far far_bentJoints
    simp [gestureFunctionMap, GestureMatchRule.click, hindex, hpinch]
  have hfound := matchGesture_eq_iff rfl HandGesture.noConfusion hbefore
  exact hfound.trans hrule

end

/-! ### Frames that show the other states -/

/-- Thumb up, at 35° from the index finger. -/
noncomputable def thumbUpJoints : Fin 5 → Fin 4 → Vec3 ℝ :=
  ![finger ((8 / 100 : ℝ) • turn 0) (phalanx 0) ![0, -2 / 100, -1 / 10] ![0, -2 / 100, -1 / 10],
    bentFinger ((9 / 100 : ℝ) • turn 35 - phalanx (-(120 / 2))) 120,
    bentFinger ((8 / 100 : ℝ) • turn 0) 120, bentFinger ((8 / 100 : ℝ) • turn 0) 120,
    bentFinger ((8 / 100 : ℝ) • turn 0) 120]

/-- A click with an open thumb at 20° from the index finger, its tip at the middle finger. -/
noncomputable def clickJoints : Fin 5 → Fin 4 → Vec3 ℝ :=
  ![finger ((7 / 100 : ℝ) • turn 0) (phalanx 0) ((1 / 200 : ℝ) • turn (-60))
      ((1 / 200 : ℝ) • turn (-60)),
    finger ((9 / 100 : ℝ) • turn 20 - ![0, 0, 1 / 10]) ![0, 0, 1 / 10] ![0, 0, 1 / 10]
      ![0, 0, 1 / 10],
    bentFinger ((8 / 100 : ℝ) • turn 0) 120, bentFinger ((8 / 100 : ℝ) • turn 0) 120,
    bentFinger ((8 / 100 : ℝ) • turn 0) 120]

/-- A victory, the index finger at 13° from the middle finger. -/
noncomputable def victoryJoints : Fin 5 → Fin 4 → Vec3 ℝ :=
  ![bentThumb 90, bentFinger ((9 / 100 : ℝ) • turn (-13) - phalanx (-(0 / 2))) 0,
    bentFinger ((8 / 100 : ℝ) • turn 0) 0, bentFinger ((8 / 100 : ℝ) • turn 0) 120,
    bentFinger ((8 / 100 : ℝ) • turn 0) 120]

/-- The tip of the index finger at a distance over that of the thumb. -/
noncomputable def touchJoints (distance : ℝ) : Fin 5 → Fin 4 → Vec3 ℝ :=
  ![bentThumb 90,
    bentFinger (bentThumb 90 3 + ![0, 0, distance] - (3 / 100 : ℝ) • turn 0) 0,
    bentFinger ((8 / 100 : ℝ) • turn 0) 120, bentFinger ((8 / 100 : ℝ) • turn 0) 120,
    bentFinger ((8 / 100 : ℝ) • turn 0) 120]

theorem norm_base : realLib.eigen.norm ((8 / 100 : ℝ) • turn 0) = 8 / 100 :=
  norm_turn (by norm_num) 0

/-- The first two bones of a finger in line. -/
theorem base_add_phalanx : (8 / 100 : ℝ) • turn 0 + phalanx 0 = (9 / 100 : ℝ) • turn 0 := by
  rw [phalanx, ← add_smul]
  norm_num

section

variable {th : PinchTh ℝ} {s : GestureRecognitionV2 ℝ}

theorem isThumbUp_thumbUpJoints :
    (s.rawFeature realLib (fingersFrame thumbUpJoints false)).isThumbUp = true := by
  let c := fingersFrame thumbUpJoints false
  have hpoints : c.points realLib = fun i => Fin.cons 0 (thumbUpJoints i) :=
    points_fingersFrame norm_base
  have hdown (v : Vec3 ℝ) : (v + ![0, -2 / 100, -1 / 10] : Vec3 ℝ) 1 - v 1 < -15 / 1000 := by
    rw [Pi.add_apply, add_sub_cancel_left]
    show (-2 / 100 : ℝ) < -15 / 1000
    norm_num
  show decide (c.points realLib 0 3 1 - c.points realLib 0 2 1 < -15 / 1000 ∧
    c.points realLib 0 4 1 - c.points realLib 0 3 1 < -15 / 1000) = true
  rw [hpoints]
  exact decide_eq_true ⟨hdown _, hdown _⟩

theorem gesture_thumbUpJoints_iff :
    (predictWithKeypoints3d realLib th s (fingersFrame thumbUpJoints false)).2 = .thumbUp ↔
      s.feature.abductionFeatures 0 = .open := by
  let c := fingersFrame thumbUpJoints false
  let f := s.updatedFeature realLib th c
  let raw := s.rawFeature realLib c
  have hthumb : f.curlFeatures 0 = .open := by
    refine curl_open_straightThumb norm_base rfl ?_
    rw [dotProduct, Fin.sum_univ_three]
    show (0 : ℝ) < 0 * 0 + -2 / 100 * (-2 / 100) + -1 / 10 * (-1 / 10)
    norm_num
  have hindex : f.curlFeatures 1 = .closed := curl_closed_bentFinger norm_base (by decide) rfl
  have hmiddle : f.curlFeatures 2 = .closed := curl_closed_bentFinger norm_base (by decide) rfl
  have hring : f.curlFeatures 3 = .closed := curl_closed_bentFinger norm_base (by decide) rfl
  have hpinky : f.curlFeatures 4 = .closed := curl_closed_bentFinger norm_base (by decide) rfl
  have habduction : f.abductionFeatures 0 = s.feature.abductionFeatures 0 := by
    have hangle : c.abductionAngles realLib 0 = 35 - 0 :=
      abductionAngles_fingersFrame norm_base (by norm_num) (by norm_num) (by norm_num)
        (by norm_num) base_add_phalanx (sub_add_cancel ((9 / 100 : ℝ) • turn 35) _)
    rw [thumbAbduction_updatedFeature, hangle]
    exact updateFingureState_of_not_decides (by norm_num [Decides])
  have hup : raw.isThumbUp = true := isThumbUp_thumbUpJoints
  have hpinch : GestureMatchRule.pinch f raw = false := by
    refine pinch_far (le_pinchDistance norm_base ?_)
    simp [thumbUpJoints, bentFinger, finger, phalanx, turn]
    norm_num
  have hrule : gestureFunctionMap f raw .thumbUp = true ↔
      s.feature.abductionFeatures 0 = .open := by
    simp [gestureFunctionMap, GestureMatchRule.thumbUp, hindex, hmiddle, hring, hpinky, hup,
      habduction]
  have hbefore : gestureFunctionMap f raw .thumbUp = true →
      ∀ g ∈ [.invalid, .pinch, .click, .grab], gestureFunctionMap f raw g = false := by
    intro _
    -- an open thumb is no grab
    simp [gestureFunctionMap, GestureMatchRule.click, GestureMatchRule.grab, hindex, hthumb,
      hpinch]
  have hfound := matchGesture_eq_iff rfl HandGesture.noConfusion hbefore
  exact hfound.trans hrule

theorem isThumbClosed_clickJoints :
    (s.rawFeature realLib (fingersFrame clickJoints false)).isThumbClosed = 0 := by
  let c := fingersFrame clickJoints false
  have hpoints : c.points realLib = fun i => Fin.cons 0 (clickJoints i) :=
    points_fingersFrame norm_base
  -- the tip of the thumb is the second joint of the middle finger
  have htip : clickJoints 0 3 = clickJoints 2 1 := by
    show (7 / 100 : ℝ) • turn 0 + phalanx 0 + (1 / 200 : ℝ) • turn (-60) +
      (1 / 200 : ℝ) • turn (-60) = (8 / 100 : ℝ) • turn 0 + phalanx (-(120 / 2))
    norm_num [phalanx]
    module
  show distancePointToLine realLib (c.points realLib 0 4) (c.points realLib 2 4)
    (c.points realLib 2 2) = 0
  rw [hpoints]
  show √(dotProduct (cross (clickJoints 0 3 - clickJoints 2 3) (clickJoints 2 1 - clickJoints 2 3))
    (cross (clickJoints 0 3 - clickJoints 2 3) (clickJoints 2 1 - clickJoints 2 3))) / _ = 0
  rw [htip, cross, cross_self, zero_dotProduct, sqrt_zero, zero_div]

theorem gesture_clickJoints_iff :
    (predictWithKeypoints3d realLib th s (fingersFrame clickJoints false)).2 = .click ↔
      s.feature.abductionFeatures 0 ≠ .closed := by
  let c := fingersFrame clickJoints false
  let f := s.updatedFeature realLib th c
  let raw := s.rawFeature realLib c
  have hthumb : f.curlFeatures 0 = .open := by
    refine curl_open_straightThumb norm_base rfl ?_
    rw [smul_dotProduct, dotProduct_smul, dotProduct_turn, sub_self, zero_mul, zero_div, cos_zero]
    norm_num
  have hindex : f.curlFeatures 1 = .open := by
    -- a straight finger
    have hbone : (0 : ℝ) < dotProduct (![0, 0, 1 / 10] : Vec3 ℝ) ![0, 0, 1 / 10] := by
      rw [dotProduct, Fin.sum_univ_three]
      show (0 : ℝ) < 0 * 0 + 0 * 0 + 1 / 10 * (1 / 10)
      norm_num
    have hangle : curlAngle (c.fingureAngles realLib) 1 = 180 := by
      rw [curlAngle_finger norm_base (by decide) rfl, vector3dAngle_self hbone, sub_zero, sub_zero]
    rw [curlFeatures_updatedFeature, if_neg (by decide), hangle]
    norm_num [updateFingureState]
  have hmiddle : f.curlFeatures 2 = .closed := curl_closed_bentFinger norm_base (by decide) rfl
  have hring : f.curlFeatures 3 = .closed := curl_closed_bentFinger norm_base (by decide) rfl
  have hpinky : f.curlFeatures 4 = .closed := curl_closed_bentFinger norm_base (by decide) rfl
  have habduction : f.abductionFeatures 0 = s.feature.abductionFeatures 0 := by
    have hthumbJoint : clickJoints 0 1 = (8 / 100 : ℝ) • turn 0 := by
      show (7 / 100 : ℝ) • turn 0 + phalanx 0 = _
      rw [phalanx, ← add_smul]
      norm_num
    have hangle : c.abductionAngles realLib 0 = 20 - 0 :=
      abductionAngles_fingersFrame norm_base (by norm_num) (by norm_num) (by norm_num)
        (by norm_num) hthumbJoint (sub_add_cancel ((9 / 100 : ℝ) • turn 20) _)
    -- 20 degrees lie between the thresholds, so the state before stays
    rw [thumbAbduction_updatedFeature, hangle]
    exact updateFingureState_of_not_decides (by norm_num [Decides])
  have hclosed : raw.isThumbClosed < 5 / 100 := by
    rw [isThumbClosed_clickJoints]
    norm_num
  have hfar : 1 / 5 ≤ c.pinchDistance realLib := by
    refine le_pinchDistance norm_base ?_
    simp [clickJoints, finger, phalanx, turn]
    norm_num
  have hopposition : f.oppositionFeatures 1 = .open := indexOpposition_far hfar
  have hpinch : GestureMatchRule.pinch f raw = false := pinch_far hfar
  have hrule : gestureFunctionMap f raw .click = true ↔
      s.feature.abductionFeatures 0 ≠ .closed := by
    simp [gestureFunctionMap, GestureMatchRule.click, hthumb, hindex, hmiddle, hring, hpinky,
      habduction, hclosed, hopposition]
  have hbefore : gestureFunctionMap f raw .click = true →
      ∀ g ∈ [.invalid, .pinch], gestureFunctionMap f raw g = false := by
    intro _
    simp [gestureFunctionMap, hpinch]
  have hfound := matchGesture_eq_iff rfl HandGesture.noConfusion hbefore
  exact hfound.trans hrule

theorem gesture_victoryJoints_iff :
    (predictWithKeypoints3d realLib th s (fingersFrame victoryJoints false)).2 = .victory ↔
      s.feature.abductionFeatures 1 = .open := by
  let c := fingersFrame victoryJoints false
  let f := s.updatedFeature realLib th c
  let raw := s.rawFeature realLib c
  have hthumb : f.curlFeatures 0 = .closed := curl_closed_bentThumb norm_base rfl
  have hindex : f.curlFeatures 1 = .open := curl_open_bentFinger norm_base (by decide) rfl
  have hmiddle : f.curlFeatures 2 = .open := curl_open_bentFinger norm_base (by decide) rfl
  have hring : f.curlFeatures 3 = .closed := curl_closed_bentFinger norm_base (by decide) rfl
  have hpinky : f.curlFeatures 4 = .closed := curl_closed_bentFinger norm_base (by decide) rfl
  have habduction : f.abductionFeatures 1 = s.feature.abductionFeatures 1 := by
    have hmiddleJoint : victoryJoints 2 1 = (9 / 100 : ℝ) • turn 0 := by
      show (8 / 100 : ℝ) • turn 0 + phalanx (-(0 / 2)) = _
      rw [zero_div, neg_zero, base_add_phalanx]
    have hangle : c.abductionAngles realLib 1 = 0 - -13 :=
      abductionAngles_fingersFrame norm_base (by norm_num) (by norm_num) (by norm_num)
        (by norm_num) (sub_add_cancel ((9 / 100 : ℝ) • turn (-13)) _) hmiddleJoint
    -- 13 degrees lie between the thresholds, so the state before stays
    rw [indexAbduction_updatedFeature, hangle]
    exact updateFingureState_of_not_decides (by norm_num [Decides])
  have hpinch : GestureMatchRule.pinch f raw = false := by
    refine pinch_far (le_pinchDistance norm_base ?_)
    simp [victoryJoints, bentFinger, bentThumb, finger, phalanx, turn]
    norm_num
  have hrule : gestureFunctionMap f raw .victory = true ↔
      s.feature.abductionFeatures 1 = .open := by
    simp [gestureFunctionMap, GestureMatchRule.victory, hthumb, hindex, hmiddle, hring, hpinky,
      habduction]
  have hbefore : gestureFunctionMap f raw .victory = true →
      ∀ g ∈ [.invalid, .pinch, .click, .grab, .thumbUp, .openHand],
        gestureFunctionMap f raw g = false := by
    intro _
    simp [gestureFunctionMap, GestureMatchRule.click, GestureMatchRule.grab,
      GestureMatchRule.thumbUp, GestureMatchRule.openHand, hthumb, hindex, hmiddle, hpinch]
  have hfound := matchGesture_eq_iff rfl HandGesture.noConfusion hbefore
  exact hfound.trans hrule

theorem pinchDistance_touchJoints {distance : ℝ} (h : 0 ≤ distance) (isTracked : Bool) :
    (fingersFrame (touchJoints distance) isTracked).pinchDistance realLib = distance := by
  have htips : touchJoints distance 1 3 - touchJoints distance 0 3 = ![0, 0, distance] := by
    show bentThumb 90 3 + ![0, 0, distance] - (3 / 100 : ℝ) • turn 0 + phalanx (-(0 / 2)) +
      phalanx 0 + phalanx (0 / 2) - bentThumb 90 3 = ![0, 0, distance]
    rw [zero_div, neg_zero, phalanx]
    module
  have hsquare : dotProduct (![0, 0, distance] : Vec3 ℝ) ![0, 0, distance] =
      distance * distance := by
    rw [dotProduct, Fin.sum_univ_three]
    show (0 : ℝ) * 0 + 0 * 0 + distance * distance = _
    ring
  rw [pinchDistance_fingersFrame norm_base, htips]
  show √(dotProduct ![0, 0, distance] ![0, 0, distance]) = distance
  rw [hsquare, sqrt_mul_self h]

/-- In the dead band of the pinch: a click, if there was none. -/
theorem gesture_click_iff_opposition :
    (predictWithKeypoints3d realLib th s (fingersFrame (touchJoints (25 / 1000)) false)).2 =
        .click ↔ s.feature.oppositionFeatures 1 ≠ .closed := by
  let c := fingersFrame (touchJoints (25 / 1000)) false
  let f := s.updatedFeature realLib th c
  let raw := s.rawFeature realLib c
  have hthumb : f.curlFeatures 0 = .closed := curl_closed_bentThumb norm_base rfl
  have hindex : f.curlFeatures 1 = .open := curl_open_bentFinger norm_base (by decide) rfl
  have hmiddle : f.curlFeatures 2 = .closed := curl_closed_bentFinger norm_base (by decide) rfl
  have hring : f.curlFeatures 3 = .closed := curl_closed_bentFinger norm_base (by decide) rfl
  have hpinky : f.curlFeatures 4 = .closed := curl_closed_bentFinger norm_base (by decide) rfl
  have hdistance : c.pinchDistance realLib = 25 / 1000 :=
    pinchDistance_touchJoints (by norm_num) false
  have hopposition : f.oppositionFeatures 1 = s.feature.oppositionFeatures 1 := by
    rw [indexOpposition_fingersFrame, hdistance]
    refine updateFingureState_of_not_decides ?_
    rcases pinchTh_fingersFrame th (touchJoints (25 / 1000)) false with hth | hth
    · rw [hth]
      norm_num [Decides]
    · rw [hth]
      norm_num [Decides]
  have hrule : gestureFunctionMap f raw .click = true ↔
      s.feature.oppositionFeatures 1 ≠ .closed := by
    simp [gestureFunctionMap, GestureMatchRule.click, hthumb, hindex, hmiddle, hring, hpinky,
      hopposition]
  have hbefore : gestureFunctionMap f raw .click = true →
      ∀ g ∈ [.invalid, .pinch], gestureFunctionMap f raw g = false := by
    intro hclick
    have hopen : f.oppositionFeatures 1 ≠ .closed := hopposition ▸ hrule.mp hclick
    have hpinch : GestureMatchRule.pinch f raw = false :=
      pinch_eq_false hopen (by rw [hdistance]; norm_num)
    simp [gestureFunctionMap, hpinch]
  have hfound := matchGesture_eq_iff rfl HandGesture.noConfusion hbefore
  exact hfound.trans hrule

/-- Tips that touch are a pinch, whatever was before. -/
theorem gesture_touching {distance : ℝ} (h : 0 ≤ distance) (htouch : distance < 10 / 1000)
    (isTracked : Bool) :
    (predictWithKeypoints3d realLib th s (fingersFrame (touchJoints distance) isTracked)).2 =
      .pinch := by
  let c := fingersFrame (touchJoints distance) isTracked
  let f := s.updatedFeature realLib th c
  let raw := s.rawFeature realLib c
  have hdistance : c.pinchDistance realLib = distance := pinchDistance_touchJoints h isTracked
  have hnear : c.pinchDistance realLib ≤ 15 / 1000 := by
    rw [hdistance]
    linarith
  have hclosed : f.oppositionFeatures 1 = .closed := indexOpposition_near hnear
  have hclose : raw.pinchDistance < 10 / 1000 := lt_of_eq_of_lt hdistance htouch
  have hrule : GestureMatchRule.pinch f raw = true := by
    simp [GestureMatchRule.pinch, hclosed, hclose]
  exact gesture_pinch_iff.mpr hrule

/-- Tips that nearly touch in a frame after a loss are a pinch, if the last gesture was one. -/
theorem gesture_pinch_iff_lastGesture {distance : ℝ} (h : 10 / 1000 ≤ distance)
    (hnear : distance ≤ 15 / 1000) :
    (predictWithKeypoints3d realLib th s (fingersFrame (touchJoints distance) false)).2 =
        .pinch ↔ s.lastGesture = .pinch := by
  let c := fingersFrame (touchJoints distance) false
  let f := s.updatedFeature realLib th c
  let raw := s.rawFeature realLib c
  have hdistance : c.pinchDistance realLib = distance :=
    pinchDistance_touchJoints (le_trans (by norm_num) h) false
  have hclosed : f.oppositionFeatures 1 = .closed :=
    indexOpposition_near (le_of_eq_of_le hdistance hnear)
  have happart : ¬ raw.pinchDistance < 10 / 1000 := not_lt.mpr (h.trans_eq hdistance.symm)
  have hvelocity : ¬ raw.pinchVelocity < -15 / 1000 := by
    show ¬ (0 : ℝ) < -15 / 1000
    norm_num
  have hlast : raw.lastGesture = s.lastGesture := rfl
  have hrule : GestureMatchRule.pinch f raw = true ↔ s.lastGesture = .pinch := by
    simp [GestureMatchRule.pinch, hclosed, happart, hvelocity, hlast]
  exact gesture_pinch_iff.trans hrule

end

/-! ### Histories -/

section

variable {th : PinchTh ℝ} {a b : List (GestureCall ℝ)}

/-- Each state shows in the gesture of a frame of its own. -/
theorem alike_of_restarts (h : Restarts realLib th a b) :
    (afterHistory realLib th a).Alike (afterHistory realLib th b) := by
  let s := afterHistory realLib th a
  let t := afterHistory realLib th b
  have hframe (c : GestureCall ℝ) (hc : c.isTracked = false) :
      (predictWithKeypoints3d realLib th s c).2 = (predictWithKeypoints3d realLib th t c).2 :=
    (List.cons.inj (h c [] hc fun _ hd => absurd hd List.not_mem_nil)).1
  have hshows {c : GestureCall ℝ} (hc : c.isTracked = false) {gesture : HandGesture} {p q : Prop}
      (hs : (predictWithKeypoints3d realLib th s c).2 = gesture ↔ p)
      (ht : (predictWithKeypoints3d realLib th t c).2 = gesture ↔ q) : p ↔ q := by
    rw [← hs, ← ht, hframe c hc]
  have hhome (i : Fin 5) : (s.feature.curlFeatures i = if i = 0 then .closed else .open) ↔
      t.feature.curlFeatures i = if i = 0 then .closed else .open :=
    hshows rfl (gesture_homeFrame_iff i) (gesture_homeFrame_iff i)
  have hgrab (i : Fin 5) :
      (if i = 0 then s.feature.curlFeatures i ≠ .open else s.feature.curlFeatures i = .closed) ↔
        if i = 0 then t.feature.curlFeatures i ≠ .open
        else t.feature.curlFeatures i = .closed :=
    hshows rfl (gesture_grabFrame_iff i) (gesture_grabFrame_iff i)
  -- of the thumb home shows closed and grab open, of the other fingers the other way
  constructor
  · intro i
    by_cases hi : i = 0
    · constructor
      · exact not_iff_not.mp (by simpa only [if_pos hi] using hgrab i)
      · simpa only [if_pos hi] using hhome i
    · constructor
      · simpa only [if_neg hi] using hhome i
      · simpa only [if_neg hi] using hgrab i
  · constructor
    · exact hshows rfl gesture_thumbUpJoints_iff gesture_thumbUpJoints_iff
    · exact not_iff_not.mp (hshows rfl gesture_clickJoints_iff gesture_clickJoints_iff)
  · exact hshows rfl gesture_victoryJoints_iff gesture_victoryJoints_iff
  · exact not_iff_not.mp (hshows rfl gesture_click_iff_opposition gesture_click_iff_opposition)
  · have hlast (s : GestureRecognitionV2 ℝ) :
        (predictWithKeypoints3d realLib th s (fingersFrame (touchJoints (12 / 1000)) false)).2 =
          .pinch ↔ s.lastGesture = .pinch :=
      gesture_pinch_iff_lastGesture (by norm_num) (by norm_num)
    exact hshows rfl (hlast s) (hlast t)

/-- **The gestures from the first frame on.**  They do not depend on what the frame settles; and
of two histories nothing shows in any frames after a loss exactly if they left the members
alike. -/
theorem gestures_restart {K : Type} [Field K] [LinearOrder K] :
    (∀ (lib : GestureLib K) (th : PinchTh K) (a b : List (GestureCall K)) (first : GestureCall K)
        (later : List (GestureCall K)),
      Settles lib th (afterHistory lib th a) (afterHistory lib th b) first →
        gestures lib th a (first :: later) = gestures lib th b (first :: later)) ∧
    ∀ (th : PinchTh ℝ) (a b : List (GestureCall ℝ)),
      Restarts realLib th a b ↔
        (afterHistory realLib th a).Alike (afterHistory realLib th b) :=
  ⟨fun _ _ _ _ _ later h => gestures_eq_of_settles later h,
    fun _ _ _ => ⟨alike_of_restarts, restarts_of_alike⟩⟩

/-- A pinch that goes on leaves what its first frame left. -/
theorem gestures_restart_touching :
    gestures realLib .default [fingersFrame (touchJoints (5 / 1000)) true]
        [fingersFrame (touchJoints (12 / 1000)) false,
          fingersFrame (touchJoints (12 / 1000)) true] =
      gestures realLib .default [fingersFrame (touchJoints (5 / 1000)) true,
          fingersFrame (touchJoints (5 / 1000)) true]
        [fingersFrame (touchJoints (12 / 1000)) false,
          fingersFrame (touchJoints (12 / 1000)) true] := by
  let touch := fingersFrame (touchJoints (5 / 1000)) true
  let s := afterHistory realLib .default [touch]
  let t := afterHistory realLib .default [touch, touch]
  have hcurl (i : Fin 5) : t.feature.curlFeatures i = s.feature.curlFeatures i := curl_again i
  have hthumb : t.feature.abductionFeatures 0 = s.feature.abductionFeatures 0 :=
    thumbAbduction_again
  have hindex : t.feature.abductionFeatures 1 = s.feature.abductionFeatures 1 :=
    indexAbduction_again
  have hnear : touch.pinchDistance realLib ≤ 15 / 1000 := by
    rw [pinchDistance_touchJoints (by norm_num)]
    norm_num
  have hclosed (s : GestureRecognitionV2 ℝ) :
      (s.updatedFeature realLib .default touch).oppositionFeatures 1 = .closed :=
    indexOpposition_near hnear
  have hpinch (s : GestureRecognitionV2 ℝ) :
      (predictWithKeypoints3d realLib .default s touch).2 = .pinch :=
    gesture_touching (by norm_num) (by norm_num) true
  have hsettles : Settles realLib .default s t (fingersFrame (touchJoints (12 / 1000)) false) := by
    constructor
    · intro i
      rw [hcurl i]
      exact .inl (.refl _)
    · rw [hthumb]
      exact .inl (.refl _)
    · rw [hindex]
      exact .inl .rfl
    · exact .inl (iff_of_true (hclosed .init) (hclosed s))
    · exact iff_of_true (hpinch .init) (hpinch s)
    · exact fun htracked => absurd htracked Bool.false_ne_true
  exact gestures_restart.1 realLib .default _ _ _ _ hsettles

/-- The pinch before the loss makes the first frame a pinch. -/
theorem pinch_not_forgotten :
    ¬ ∀ (a b : List (GestureCall ℝ)) (first : GestureCall ℝ) (later : List (GestureCall ℝ)),
      first.isTracked = false → (∀ c ∈ later, c.isTracked = true) →
        gestures realLib .default a (first :: later) =
          gestures realLib .default b (first :: later) := by
  intro h
  let touch := fingersFrame (touchJoints (5 / 1000)) true
  have halike := alike_of_restarts (h [touch] [])
  have hpinch : (afterHistory realLib .default [touch]).lastGesture = .pinch :=
    gesture_touching (by norm_num) (by norm_num) true
  have hinit : (afterHistory realLib .default []).lastGesture = .pinch :=
    halike.lastGesture.mp hpinch
  exact HandGesture.noConfusion hinit

end

end Gesture

/-
Frames from the joints of the fingers, and the states that they set.

Square roots and angles are those of the reals here.  A finger is bent by angles in degrees, so
that its curl is known, and the tips of thumb and index finger are near or far.

* `fingersFrame` — a frame from joints, `points_fingersFrame` — its points;
* `bentFinger`, `bentThumb` — fingers of a given curl;
* `indexOpposition_fingersFrame` — the pinch, from the distance of the tips.
-/
import HandTracking.GestureEpisodes
import Mathlib.Analysis.Real.Pi.Bounds
import Mathlib.Analysis.SpecialFunctions.Trigonometric.Inverse

namespace Gesture

open HandPose Predictor Real

/-- The functions of Eigen over the real numbers, as far as the gestures need them. -/
noncomputable def realLib : GestureLib ℝ where
  eigen :=
    { norm := fun v => √(dotProduct v v)
      normalized := fun v => if 0 < dotProduct v v then (1 / √(dotProduct v v)) • v else v
      fromTwoVectors := fun _ _ => 1
      angleAxis := fun _ _ => 1
      quaternion := fun _ => ⟨0, 0, 0, 1⟩ }
  acos := Real.arccos

/-! ### Angles in degrees -/

/-- The unit vector of the plane at an angle, in the degrees of the code. -/
noncomputable def turn (degrees : ℝ) : Vec3 ℝ :=
  ![cos (degrees * mPi / 180), sin (degrees * mPi / 180), 0]

theorem mPi_pos : (0 : ℝ) < mPi := by
  rw [mPi]
  norm_num

theorem mPi_lt_four : (mPi : ℝ) < 4 := by
  rw [mPi]
  norm_num

theorem dotProduct_turn (d d' : ℝ) :
    dotProduct (turn d) (turn d') = cos ((d' - d) * mPi / 180) := by
  have hangle : (d' - d) * mPi / 180 = d' * mPi / 180 - d * mPi / 180 := by ring
  rw [hangle, cos_sub]
  simp only [turn, dotProduct, Fin.sum_univ_three, Matrix.cons_val]
  ring

theorem norm_turn {r : ℝ} (hr : 0 ≤ r) (d : ℝ) : realLib.eigen.norm (r • turn d) = r := by
  show √(dotProduct (r • turn d) (r • turn d)) = r
  rw [smul_dotProduct, dotProduct_smul, dotProduct_turn, sub_self, zero_mul, zero_div, cos_zero,
    smul_eq_mul, smul_eq_mul, mul_one, sqrt_mul_self hr]

theorem vector3dAngle_turn {r r' d d' : ℝ} (hr : 0 < r) (hr' : 0 < r') (h : d ≤ d')
    (hle : d' - d ≤ 120) : vector3dAngle realLib (r • turn d) (r' • turn d') = d' - d := by
  have hcos : dotProduct (r • turn d) (r' • turn d') /
      (realLib.eigen.norm (r • turn d) * realLib.eigen.norm (r' • turn d')) =
      cos ((d' - d) * mPi / 180) := by
    rw [norm_turn hr.le, norm_turn hr'.le, smul_dotProduct, dotProduct_smul, dotProduct_turn,
      smul_eq_mul, smul_eq_mul, ← mul_assoc, mul_div_cancel_left₀ _ (mul_pos hr hr').ne']
  have hnonneg : 0 ≤ (d' - d) * mPi / 180 :=
    div_nonneg (mul_nonneg (sub_nonneg.mpr h) mPi_pos.le) (by norm_num)
  -- the arc cosine takes the angle back up to 180°
  have hltpi : (d' - d) * mPi / 180 ≤ π := by
    have hthree : (3 : ℝ) < π := pi_gt_three
    nlinarith [mPi_pos, mPi_lt_four]
  rw [vector3dAngle]
  show arccos _ * 180 / mPi = d' - d
  rw [hcos, arccos_cos hnonneg hltpi, div_mul_cancel₀ _ (by norm_num),
    mul_div_cancel_right₀ _ mPi_pos.ne']

theorem vector3dAngle_self {v : Vec3 ℝ} (h : 0 < dotProduct v v) :
    vector3dAngle realLib v v = 0 := by
  rw [vector3dAngle]
  show arccos (dotProduct v v / (√(dotProduct v v) * √(dotProduct v v))) * 180 / mPi = 0
  rw [mul_self_sqrt h.le, div_self h.ne', arccos_one, zero_mul, zero_div]

/-! ### Frames from joints -/

/-- The joints of a finger from its base on. -/
def finger (base first second third : Vec3 ℝ) : Fin 4 → Vec3 ℝ :=
  ![base, base + first, base + first + second, base + first + second + third]

/-- A frame of a moving hand, seen by both cameras; the tip of the thumb is not in the palm. -/
def fingersFrame (joints : Fin 5 → Fin 4 → Vec3 ℝ) (isTracked : Bool) : GestureCall ℝ where
  kpt3d := Fin.cons 0 fun k => joints ⟨k / 4, by omega⟩ ⟨k % 4, by omega⟩
  source := .bino
  keypoints2d k :=
    if k = 4 then ![5, 5] else if k = 6 then ![1, 0] else if k = 17 then ![0, 1] else 0
  isLeftHand := true
  isTracked := isTracked
  handV := 1

section

variable {joints : Fin 5 → Fin 4 → Vec3 ℝ} {isTracked : Bool}

/-- A hand of standard length keeps its joints. -/
theorem points_fingersFrame (hlength : realLib.eigen.norm (joints 2 0) = 8 / 100) :
    (fingersFrame joints isTracked).points realLib = fun i => Fin.cons 0 (joints i) := by
  have hkpt (i : Fin 5) (j : Fin 4) :
      (fingersFrame joints isTracked).kpt3d ⟨i * 4 + j + 1, by omega⟩ = joints i j := by
    have hfinger : (i * 4 + j : ℕ) / 4 = i := by omega
    have hjoint : (i * 4 + j : ℕ) % 4 = j := by omega
    exact congrArg₂ joints (Fin.ext hfinger) (Fin.ext hjoint)
  -- the length from the wrist to the middle finger is the standard one
  have hhand : realLib.eigen.norm ((fingersFrame joints isTracked).kpt3d 9 -
      (fingersFrame joints isTracked).kpt3d 0) = 8 / 100 := by
    show realLib.eigen.norm (joints 2 0 - 0) = 8 / 100
    rw [sub_zero, hlength]
  funext i
  rw [GestureCall.points, hhand, sub_self]
  congr 1
  funext j t
  rw [hkpt]
  show (joints i j t - 0) * (8 / 100) / (8 / 100) = joints i j t
  rw [sub_zero, mul_div_cancel_right₀ _ (by norm_num)]

variable (hlength : realLib.eigen.norm (joints 2 0) = 8 / 100)
include hlength

/-- The angles at the second and the third joint of a finger. -/
theorem curlAngle_finger {i : Fin 5} (hi : i ≠ 0) {base first second third : Vec3 ℝ}
    (h : joints i = finger base first second third) :
    curlAngle ((fingersFrame joints isTracked).fingureAngles realLib) i =
      180 - vector3dAngle realLib first second - vector3dAngle realLib second third := by
  rw [curlAngle, if_neg hi, GestureCall.fingureAngles, points_fingersFrame hlength]
  show 180 - vector3dAngle realLib (joints i 1 - joints i 0) (joints i 2 - joints i 1) -
    (if i = 0 then _
      else vector3dAngle realLib (joints i 2 - joints i 1) (joints i 3 - joints i 2)) = _
  rw [if_neg hi, h]
  show 180 - vector3dAngle realLib (base + first - base)
      (base + first + second - (base + first)) -
    vector3dAngle realLib (base + first + second - (base + first))
      (base + first + second + third - (base + first + second)) = _
  rw [add_sub_cancel_left, add_sub_cancel_left, add_sub_cancel_left]

/-- The angle at the last joint of a thumb that is not bent outwards. -/
theorem curlAngle_thumb {base first second third : Vec3 ℝ}
    (h : joints 0 = finger base first second third)
    (hinwards : 0 ≤ dotProduct (cross second third) (cross base (joints 2 0))) :
    curlAngle ((fingersFrame joints isTracked).fingureAngles realLib) 0 =
      180 - vector3dAngle realLib second third := by
  rw [curlAngle, if_pos rfl, GestureCall.fingureAngles, points_fingersFrame hlength]
  show 180 - vector3dAngleThumb realLib (joints 0 2 - joints 0 1) (joints 0 3 - joints 0 2)
    (joints 0 0 - 0) (joints 2 0 - 0) = _
  rw [h]
  show 180 - vector3dAngleThumb realLib (base + first + second - (base + first))
    (base + first + second + third - (base + first + second)) (base - 0) (joints 2 0 - 0) = _
  rw [add_sub_cancel_left, add_sub_cancel_left, sub_zero, sub_zero, vector3dAngleThumb,
    if_neg (not_lt.mpr hinwards)]

end

/-- A bone of a finger, 1 cm long. -/
noncomputable def phalanx (degrees : ℝ) : Vec3 ℝ := (1 / 100 : ℝ) • turn degrees

/-- A finger that is bent as much at its second joint as at its third. -/
noncomputable def bentFinger (base : Vec3 ℝ) (bend : ℝ) : Fin 4 → Vec3 ℝ :=
  finger base (phalanx (-(bend / 2))) (phalanx 0) (phalanx (bend / 2))

/-- A thumb far from the fingers, bent at its last joint. -/
noncomputable def bentThumb (bend : ℝ) : Fin 4 → Vec3 ℝ :=
  finger ![0, 0, -1 / 5] (phalanx 0) (phalanx 0) (phalanx bend)

theorem vector3dAngle_phalanx {d d' : ℝ} (h : d ≤ d') (hle : d' - d ≤ 120) :
    vector3dAngle realLib (phalanx d) (phalanx d') = d' - d :=
  vector3dAngle_turn (by norm_num) (by norm_num) h hle

section

variable {joints : Fin 5 → Fin 4 → Vec3 ℝ} {isTracked : Bool} {th : PinchTh ℝ}
  {s : GestureRecognitionV2 ℝ} (hlength : realLib.eigen.norm (joints 2 0) = 8 / 100)
include hlength

theorem curl_bentFinger {i : Fin 5} (hi : i ≠ 0) {base : Vec3 ℝ} {bend : ℝ}
    (h : joints i = bentFinger base bend) (hbend : 0 ≤ bend) (hle : bend ≤ 120) :
    (s.updatedFeature realLib th (fingersFrame joints isTracked)).curlFeatures i =
      updateFingureState (180 - bend) 80 130 10 (s.feature.curlFeatures i) := by
  have hangle : curlAngle ((fingersFrame joints isTracked).fingureAngles realLib) i =
      180 - bend := by
    rw [curlAngle_finger hlength hi h, vector3dAngle_phalanx (by linarith) (by linarith),
      vector3dAngle_phalanx (by linarith) (by linarith)]
    ring
  rw [curlFeatures_updatedFeature, if_neg hi, hangle]

theorem curl_bentThumb {bend : ℝ} (h : joints 0 = bentThumb bend) (hbend : 0 ≤ bend)
    (hle : bend ≤ 120) :
    (s.updatedFeature realLib th (fingersFrame joints isTracked)).curlFeatures 0 =
      updateFingureState (180 - bend) 140 155 10 (s.feature.curlFeatures 0) := by
  -- the bend is in the plane of the fingers, in which the base of the thumb has no part
  have hinwards : 0 ≤ dotProduct (cross (phalanx 0) (phalanx bend))
      (cross ![0, 0, -1 / 5] (joints 2 0)) := by
    simp only [cross, cross_apply, phalanx, turn, dotProduct, Fin.sum_univ_three]
    simp
  have hangle : curlAngle ((fingersFrame joints isTracked).fingureAngles realLib) 0 =
      180 - bend := by
    rw [curlAngle_thumb hlength h hinwards, vector3dAngle_phalanx hbend (by linarith), sub_zero]
  rw [curlFeatures_updatedFeature, if_pos rfl, hangle]

theorem curl_open_bentFinger {i : Fin 5} (hi : i ≠ 0) {base : Vec3 ℝ}
    (h : joints i = bentFinger base 0) :
    (s.updatedFeature realLib th (fingersFrame joints isTracked)).curlFeatures i = .open := by
  rw [curl_bentFinger hlength hi h (by norm_num) (by norm_num)]
  norm_num [updateFingureState]

theorem curl_closed_bentFinger {i : Fin 5} (hi : i ≠ 0) {base : Vec3 ℝ}
    (h : joints i = bentFinger base 120) :
    (s.updatedFeature realLib th (fingersFrame joints isTracked)).curlFeatures i = .closed := by
  rw [curl_bentFinger hlength hi h (by norm_num) (by norm_num)]
  norm_num [updateFingureState]

theorem curl_closed_bentThumb (h : joints 0 = bentThumb 90) :
    (s.updatedFeature realLib th (fingersFrame joints isTracked)).curlFeatures 0 = .closed := by
  rw [curl_bentThumb hlength h (by norm_num) (by norm_num)]
  norm_num [updateFingureState]

theorem curl_open_straightThumb {base first second : Vec3 ℝ}
    (h : joints 0 = finger base first second second) (hsecond : 0 < dotProduct second second) :
    (s.updatedFeature realLib th (fingersFrame joints isTracked)).curlFeatures 0 = .open := by
  have hinwards : 0 ≤ dotProduct (cross second second) (cross base (joints 2 0)) := by
    rw [cross, cross_self, zero_dotProduct]
  have hangle : curlAngle ((fingersFrame joints isTracked).fingureAngles realLib) 0 = 180 := by
    rw [curlAngle_thumb hlength h hinwards, vector3dAngle_self hsecond, sub_zero]
  rw [curlFeatures_updatedFeature, if_pos rfl, hangle]
  norm_num [updateFingureState]

theorem abductionAngles_fingersFrame {i : Fin 4} {r r' d d' : ℝ} (hr : 0 < r) (hr' : 0 < r')
    (hd : d ≤ d') (hle : d' - d ≤ 120) (hjoint : joints i.castSucc 1 = r • turn d)
    (hjoint' : joints i.succ 1 = r' • turn d') :
    (fingersFrame joints isTracked).abductionAngles realLib i = d' - d := by
  rw [GestureCall.abductionAngles, points_fingersFrame hlength]
  show vector3dAngle realLib (joints i.castSucc 1 - 0) (joints i.succ 1 - 0) = _
  rw [sub_zero, sub_zero, hjoint, hjoint', vector3dAngle_turn hr hr' hd hle]

theorem pinchDistance_fingersFrame :
    (fingersFrame joints isTracked).pinchDistance realLib =
      realLib.eigen.norm (joints 1 3 - joints 0 3) := by
  rw [GestureCall.pinchDistance, points_fingersFrame hlength]
  rfl

/-- Tips at different heights are apart. -/
theorem le_pinchDistance {height : ℝ} (h : (joints 1 3 - joints 0 3) 2 = height) :
    height ≤ (fingersFrame joints isTracked).pinchDistance realLib := by
  rw [pinchDistance_fingersFrame hlength]
  refine le_sqrt_of_sq_le ?_
  rw [← h, dotProduct, Fin.sum_univ_three]
  nlinarith [sq_nonneg ((joints 1 3 - joints 0 3) 0), sq_nonneg ((joints 1 3 - joints 0 3) 1)]

end

/-- The tip of the thumb is not in the palm. -/
theorem isPinchMasked_fingersFrame (s : GestureRecognitionV2 ℝ) (joints : Fin 5 → Fin 4 → Vec3 ℝ)
    (isTracked isFaceToHead : Bool) :
    s.isPinchMasked (fingersFrame joints isTracked).keypoints2d isFaceToHead = false := by
  have houtside : isInsideTriangle (![5, 5] : Camera.Vec2 ℝ) 0 ![1, 0] ![0, 1] (11 / 10) =
      false := by
    norm_num [isInsideTriangle, dotProduct, Fin.sum_univ_two]
  show (isInsideTriangle ![5, 5] 0 ![1, 0] ![0, 1] (11 / 10) && _ && _ && _) = false
  rw [houtside]
  rfl

/-- The thresholds of a pinch for a hand that moves. -/
theorem pinchTh_fingersFrame (th : PinchTh ℝ) (joints : Fin 5 → Fin 4 → Vec3 ℝ)
    (isTracked : Bool) :
    (fingersFrame joints isTracked).pinchTh realLib th = (26 / 1000, 10 / 1000) ∨
      (fingersFrame joints isTracked).pinchTh realLib th = (23 / 1000, 16 / 1000) := by
  have hmoves : (1 / 10 : ℝ) < (fingersFrame joints isTracked).handV := by
    show (1 / 10 : ℝ) < 1
    norm_num
  rw [GestureCall.pinchTh, decide_eq_true hmoves, HandFeature.oppositionTh]
  split
  · exact .inl rfl
  · rw [if_pos rfl]
    exact .inr rfl

section

variable {joints : Fin 5 → Fin 4 → Vec3 ℝ} {isTracked : Bool} {th : PinchTh ℝ}
  {s : GestureRecognitionV2 ℝ}

theorem indexOpposition_fingersFrame :
    (s.updatedFeature realLib th (fingersFrame joints isTracked)).oppositionFeatures 1 =
      updateFingureState ((fingersFrame joints isTracked).pinchDistance realLib)
        ((fingersFrame joints isTracked).pinchTh realLib th).1 (1 / 10)
        ((fingersFrame joints isTracked).pinchTh realLib th).2
        (s.feature.oppositionFeatures 1) := by
  rw [indexOpposition_updatedFeature, isPinchMasked_fingersFrame, if_neg Bool.false_ne_true]

/-- Tips that are near close the index finger, whatever it was. -/
theorem indexOpposition_near
    (h : (fingersFrame joints isTracked).pinchDistance realLib ≤ 15 / 1000) :
    (s.updatedFeature realLib th (fingersFrame joints isTracked)).oppositionFeatures 1 =
      .closed := by
  rw [indexOpposition_fingersFrame]
  refine if_pos ?_
  rcases pinchTh_fingersFrame th joints isTracked with hth | hth
  · rw [hth]
    linarith
  · rw [hth]
    linarith

/-- Tips that are far open it. -/
theorem indexOpposition_far
    (h : 1 / 5 ≤ (fingersFrame joints isTracked).pinchDistance realLib) :
    (s.updatedFeature realLib th (fingersFrame joints isTracked)).oppositionFeatures 1 =
      .open := by
  rw [indexOpposition_fingersFrame]
  rcases pinchTh_fingersFrame th joints isTracked with hth | hth
  · rw [hth, updateFingureState, if_neg (by linarith), if_neg (by intro; linarith),
      if_pos (by linarith)]
  · rw [hth, updateFingureState, if_neg (by linarith), if_neg (by intro; linarith),
      if_pos (by linarith)]

/-- Without a closed index finger, only tips that touch are a pinch. -/
theorem pinch_eq_false
    (hopen : (s.updatedFeature realLib th (fingersFrame joints isTracked)).oppositionFeatures 1 ≠
      .closed)
    (h : 10 / 1000 ≤ (fingersFrame joints isTracked).pinchDistance realLib) :
    GestureMatchRule.pinch (s.updatedFeature realLib th (fingersFrame joints isTracked))
      (s.rawFeature realLib (fingersFrame joints isTracked)) = false := by
  have hdistance : ¬ (s.rawFeature realLib (fingersFrame joints isTracked)).pinchDistance <
      10 / 1000 := not_lt.mpr h
  rw [GestureMatchRule.pinch]
  simp [hopen, hdistance]

theorem pinch_far (h : 1 / 5 ≤ (fingersFrame joints isTracked).pinchDistance realLib) :
    GestureMatchRule.pinch (s.updatedFeature realLib th (fingersFrame joints isTracked))
      (s.rawFeature realLib (fingersFrame joints isTracked)) = false := by
  refine pinch_eq_false ?_ (le_trans (by norm_num) h)
  rw [indexOpposition_far h]
  exact FingureState.noConfusion

end

end Gesture

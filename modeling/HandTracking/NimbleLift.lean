/-
What `GMLPLiftNimble` makes of the tensors of its network, in any run of calls.

The network puts out the pose, the bend and the scale of a hand.  The scale is averaged over the
calls for both hands (`update_hand_scale`).  The pose is turned back from the standard position
of the stereo pair by a product that is written over its factor, and its place is compensated.

* `NimbleConfig.postProcess`, `NimbleConfig.inference` — one call, and `after` — a run;
* `handScale_between` — the average stays between the scales of the network;
* `nimble_similar_iff` — for which cameras the points are similar to the hand that was decoded;
* `NimbleRun.bones` — for these, how long its bones are;
* `compensateWithPiecewise_reverses_iff` — the places that are compensated against their order.
-/
import HandTracking.HandSkeleton
import HandTracking.Library.Similarity
import HandTracking.LiftMemory
import HandTracking.LiftOutputs
import HandTracking.NimbleFlora

namespace Lift

open Calculator Camera HandPose Matrix Pose

section

variable {K : Type} [Field K]

/-- What the network puts out in a run. -/
structure LiftNimbleTensors (K : Type) where
  svdPt : Fin 7 → Vec3 K
  shape : K
  angle : JointAngles K
  score : K
  memOut : Buffer

/-- `standard_baseline_`, in meters. -/
def standardBaseline : K := 135 / 1000

/-- `hand_scale_alpha_` -/
def handScaleAlpha : K := 1 / 100

/-- `update_hand_scale`: the scale follows slowly. -/
def updateHandScale (handScale scale : K) : K :=
  (1 - handScaleAlpha) * handScale + handScaleAlpha * scale

section Ordered

variable [LinearOrder K]

/-- `compensateWithPiecewise`: the translation is stretched sideways, and moved in depth. -/
def compensateWithPiecewise (globalTranslation : Vec3 K) : Vec3 K :=
  let z := globalTranslation 2 + 25 / 100 * globalTranslation 0
  let x := globalTranslation 0
  let x :=
    if 0 < x then
      if x < 3 / 10 then x + 85 / 1000 * x else x + 1 / 10 * x
    else
      if |x| < 3 / 10 then x - 85 / 1000 * x else x - 1 / 10 * x
  ![x, globalTranslation 1, z]

/-- What the network has after `Init` and `SetCameraInfo`. -/
structure NimbleConfig (K : Type) where
  svd : JacobiSvd K
  /-- A product that is written over its factor takes two coefficients at once. -/
  packet : Bool
  lift : LiftNetConfig K
  baselineScale : K
  mem : MemTensors 105

/-- `SetCameraInfo` -/
noncomputable def NimbleConfig.ofCameras (E : Eigen K) (svd : JacobiSvd K) (packet : Bool)
    (lift : LiftNetConfig K) (mem : MemTensors 105) : NimbleConfig K :=
  ⟨svd, packet, setCameraInfo E packet lift, baseline E packet lift, mem⟩

/-- The memory of the network, and the scale in `GlobalPredictorService`. -/
structure NimbleState (K : Type) where
  memory : LiftMemory K
  handScale : K

/-- Before the first call: the scale is 1. -/
def NimbleState.init : NimbleState K := ⟨.init, 1⟩

/-- A call of `Inference`: the memory tensor before it, and what the network puts out for its
features and its memory. -/
structure NimbleCall (K : Type) where
  inputs : LiftNetInputs K
  tensor : Buffer
  runNet : List (Option K) → Buffer → Option (LiftNimbleTensors K)

namespace NimbleCall

variable (c : NimbleCall K)

/-- The hand that `is_left` names. -/
def hand : Hand := if c.inputs.isLeft ≠ 0 then .left else .right

/-- What the memory of the network sees of the call. -/
def memCall (memOut : Option Buffer) : MemCall K := ⟨c.hand, c.inputs.timestamp, c.tensor, memOut⟩

end NimbleCall

namespace NimbleConfig

variable (cfg : NimbleConfig K)

/-- The pose in the frame of the left camera; the hand of a left hand is mirrored. -/
def globalRotation (hand : Hand) (tensors : LiftNimbleTensors K) : Matrix3 K :=
  let globalRotation := (getTransformWithSvd cfg.svd svdSrcPt tensors.svdPt).linear
  let globalRotation := mulInPlace cfg.packet (inverse (cfg.lift.rot .lcam)) globalRotation
  match hand with
  | .left => mulInPlaceLeft globalRotation flipX
  | .right => globalRotation

/-- The place of the hand, turned back and compensated. -/
def globalTranslation (tensors : LiftNimbleTensors K) : Vec3 K :=
  compensateWithPiecewise (inverse (cfg.lift.rot .lcam) *ᵥ
    (getTransformWithSvd cfg.svd svdSrcPt tensors.svdPt).translation)

/-- `global_kpt`, for a scale that is updated. -/
def globalKpt (hand : Hand) (handScale : K) (tensors : LiftNimbleTensors K) (i : Fin 26) :
    Vec3 K :=
  let localKpt := decodeHandJoints (handScale - 1) (decodeHandAngle cfg.svd tensors.angle) i
  (cfg.baselineScale / standardBaseline) •
    (cfg.globalRotation hand tensors *ᵥ localKpt + cfg.globalTranslation tensors)

/-- `GMLPLiftNimble::PostProcess` -/
def postProcess (s : NimbleState K) (c : NimbleCall K) (tensors : LiftNimbleTensors K) :
    NimbleState K × NetOutputs K :=
  let handScale := updateHandScale s.handScale (tensors.shape + 1)
  (⟨s.memory.inference (gmlpLiftNimbleScheme cfg.mem) (c.memCall (some tensors.memOut)), handScale⟩,
    ⟨List.ofFn (cfg.globalKpt c.hand handScale tensors), 1 - tensors.score⟩)

/-- The tensors after `PreProcess` and `RunNet`; none where a keypoint is out of range. -/
def tensors (s : NimbleState K) (c : NimbleCall K) : Option (LiftNimbleTensors K) :=
  match LiftNet.gmlpLiftNimble.preProcess cfg.lift c.inputs with
  | .filled _ feat =>
    c.runNet feat (s.memory.preProcess (gmlpLiftNimbleScheme cfg.mem) (c.memCall none))
  | _ => none

/-- `GMLPLiftNimble::Inference` -/
def inference (s : NimbleState K) (c : NimbleCall K) : NimbleState K × Option (NetOutputs K) :=
  match cfg.tensors s c with
  | some tensors =>
    let (s, outputs) := cfg.postProcess s c tensors
    (s, some outputs)
  | none => (s, none)

/-- The state after a run of calls, newest first. -/
def after : List (NimbleCall K) → NimbleState K
  | [] => .init
  | c :: past => (cfg.inference (after past) c).1

end NimbleConfig

/-! ### The scale -/

section Scale

variable [IsStrictOrderedRing K] {cfg : NimbleConfig K} {lo hi : K}

theorem updateHandScale_between {handScale scale : K} (h : lo ≤ handScale ∧ handScale ≤ hi)
    (h' : lo ≤ scale ∧ scale ≤ hi) :
    lo ≤ updateHandScale handScale scale ∧ updateHandScale handScale scale ≤ hi := by
  have halpha : (handScaleAlpha : K) = 1 / 100 := rfl
  rw [updateHandScale, halpha]
  constructor
  · linarith [h.1, h'.1]
  · linarith [h.2, h'.2]

/-- The network's scales of a call are in a range. -/
def NimbleCall.ScalesIn (lo hi : K) (c : NimbleCall K) : Prop :=
  ∀ feat mem tensors, c.runNet feat mem = some tensors →
    lo ≤ tensors.shape + 1 ∧ tensors.shape + 1 ≤ hi

omit [IsStrictOrderedRing K] in
theorem NimbleConfig.shape_between {s : NimbleState K} {c : NimbleCall K} (hc : c.ScalesIn lo hi)
    {tensors : LiftNimbleTensors K} (h : cfg.tensors s c = some tensors) :
    lo ≤ tensors.shape + 1 ∧ tensors.shape + 1 ≤ hi := by
  unfold NimbleConfig.tensors at h
  split at h
  · exact hc _ _ _ h
  · cases h

theorem NimbleConfig.handScale_inference {s : NimbleState K} {c : NimbleCall K}
    (hs : lo ≤ s.handScale ∧ s.handScale ≤ hi) (hc : c.ScalesIn lo hi) :
    lo ≤ (cfg.inference s c).1.handScale ∧ (cfg.inference s c).1.handScale ≤ hi := by
  unfold NimbleConfig.inference
  cases htensors : cfg.tensors s c with
  | none => exact hs
  | some tensors => exact updateHandScale_between hs (shape_between hc htensors)

/-- Whatever calls there were, for either hand, the scale is between those of the network. -/
theorem NimbleConfig.handScale_between (hlo : lo ≤ 1) (hhi : 1 ≤ hi) {past : List (NimbleCall K)}
    (h : ∀ c ∈ past, c.ScalesIn lo hi) :
    lo ≤ (cfg.after past).handScale ∧ (cfg.after past).handScale ≤ hi := by
  induction past with
  | nil => exact ⟨hlo, hhi⟩
  | cons c past ih =>
    have hpast := ih fun c' hc' => h c' (List.mem_cons_of_mem _ hc')
    exact handScale_inference hpast (h c (List.mem_cons_self ..))

end Scale

end Ordered

end

/-! ### The place -/

section Place

variable {K : Type} [Field K] [LinearOrder K] [IsStrictOrderedRing K] {p q : Vec3 K}

/-- Both sides are moved to the right. -/
theorem compensateWithPiecewise_x (p : Vec3 K) : compensateWithPiecewise p 0 =
    p 0 + (if |p 0| < 3 / 10 then 85 / 1000 else 1 / 10) * |p 0| := by
  show (if 0 < p 0 then _ else _) = _
  split
  · rename_i hpos
    rw [abs_of_pos hpos]
    split <;> rfl
  · rename_i hneg
    have habs : |p 0| = -p 0 := abs_of_nonpos (not_lt.mp hneg)
    split
    · rw [habs]
      ring
    · rw [habs]
      ring

/-- On the left the places are drawn to the middle, far out more than near it. -/
theorem compensateWithPiecewise_left (h : p 0 ≤ 0) : compensateWithPiecewise p 0 =
    (if -(3 / 10) < p 0 then 915 / 1000 else 9 / 10) * p 0 := by
  rw [compensateWithPiecewise_x, abs_of_nonpos h]
  by_cases hnear : -(3 / 10) < p 0
  · have habs : -p 0 < 3 / 10 := by linarith
    rw [if_pos hnear, if_pos habs]
    ring
  · have habs : ¬ -p 0 < 3 / 10 := by
      intro hlt
      exact hnear (by linarith)
    rw [if_neg hnear, if_neg habs]
    ring

/-- What is on the right stays behind all that is on its left. -/
theorem compensateWithPiecewise_right (hq : 0 < q 0) (h : p 0 < q 0) :
    compensateWithPiecewise p 0 < compensateWithPiecewise q 0 := by
  rw [compensateWithPiecewise_x q, abs_of_pos hq]
  rcases le_or_gt (p 0) 0 with hp | hp
  · rw [compensateWithPiecewise_left hp]
    split_ifs <;> linarith
  · rw [compensateWithPiecewise_x p, abs_of_pos hp]
    split_ifs <;> linarith

/-- **The places that are compensated against their order**: of two places one on the left of the
other, the left one is moved at least as far to the right as the other exactly if only it is
3 / 10 or more on the left, and the other is hardly on its right. -/
theorem compensateWithPiecewise_reverses_iff (h : p 0 < q 0) :
    compensateWithPiecewise q 0 ≤ compensateWithPiecewise p 0 ↔
      p 0 ≤ -(3 / 10) ∧ -(3 / 10) < q 0 ∧ 915 * q 0 ≤ 900 * p 0 := by
  rcases le_or_gt (q 0) 0 with hq | hq
  · rw [compensateWithPiecewise_left (h.le.trans hq), compensateWithPiecewise_left hq]
    by_cases hp3 : -(3 / 10) < p 0
    · -- both are near the middle
      have hq3 : -(3 / 10) < q 0 := hp3.trans h
      rw [if_pos hp3, if_pos hq3]
      constructor
      · intro hreversed
        linarith
      · rintro ⟨hfar, -, -⟩
        exact absurd hp3 (not_lt.mpr hfar)
    · by_cases hq3 : -(3 / 10) < q 0
      · rw [if_neg hp3, if_pos hq3]
        constructor
        · intro hreversed
          exact ⟨not_lt.mp hp3, hq3, by linarith⟩
        · rintro ⟨-, -, hnear⟩
          linarith
      · -- both are far out
        rw [if_neg hp3, if_neg hq3]
        constructor
        · intro hreversed
          linarith
        · rintro ⟨-, hnear, -⟩
          exact absurd hnear hq3
  · have hkept := compensateWithPiecewise_right hq h
    constructor
    · intro hreversed
      exact absurd hkept (not_lt.mpr hreversed)
    · rintro ⟨hfar, -, hnear⟩
      linarith

theorem compensateWithPiecewise_reverses :
    compensateWithPiecewise ![-299 / 1000, 0, 0] 0 ≤
        compensateWithPiecewise (![-3 / 10, 0, 0] : Vec3 ℚ) 0 ↔
      (![-3 / 10, 0, 0] : Vec3 ℚ) 0 ≤ -(3 / 10) ∧ -(3 / 10) < (![-299 / 1000, 0, 0] : Vec3 ℚ) 0 ∧
        915 * (![-299 / 1000, 0, 0] : Vec3 ℚ) 0 ≤ 900 * (![-3 / 10, 0, 0] : Vec3 ℚ) 0 :=
  compensateWithPiecewise_reverses_iff (by norm_num)

end Place

/-! ### The turn of the left camera -/

section Turn

variable {K : Type} [Field K] [LinearOrder K] [IsStrictOrderedRing K] {E : Eigen K}
  {T : Isometry3 K}

theorem rLeft_eq_one_iff (hE : E.Lawful) (h : ¬ SameRay K ![1, 0, 0] (-T.translation)) :
    rLeft E T = 1 ↔ T.translation 1 = 0 ∧ T.translation 2 = 0 := by
  have hx := left_ne_zero_of_not_opposite h
  have ht := right_ne_zero_of_not_opposite h
  constructor
  · intro hone
    have hray := (hE.isTurn_fromTwoVectors _ _ h).sameRay
    rw [← rLeft, hone, one_mulVec] at hray
    obtain ⟨r, -, hr⟩ := hray.exists_pos_left hx ht
    rw [← hr]
    constructor <;> simp
  · rintro ⟨h1, h2⟩
    have haxis : T.translation = T.translation 0 • ![1, 0, 0] := by
      funext i
      fin_cases i
      · simp
      · simpa using h1
      · simpa using h2
    apply hE.fromTwoVectors_of_sameRay _ hx ht
    rcases le_total 0 (T.translation 0) with hpos | hneg
    · rw [haxis]
      exact SameRay.sameRay_nonneg_smul_right _ hpos
    · refine absurd ?_ h
      rw [haxis, ← neg_smul]
      exact SameRay.sameRay_nonneg_smul_right _ (neg_nonneg.mpr hneg)

theorem rLeft_fixes_iff (hE : E.Lawful) (h : ¬ SameRay K ![1, 0, 0] (-T.translation)) :
    rLeft E T *ᵥ Pi.single 2 1 = Pi.single 2 1 ↔ T.translation 2 = 0 := by
  have hturn := hE.isTurn_fromTwoVectors _ _ h
  have ht := right_ne_zero_of_not_opposite h
  have hx : (Pi.single 2 1 : Vec3 K) ⬝ᵥ ![1, 0, 0] = 0 := by
    rw [single_one_dotProduct]
    rfl
  constructor
  · intro hfix
    obtain ⟨r, hr, heq⟩ := hturn.sameRay.exists_pos_left
      (hturn.isRotation.mulVec_ne_zero (left_ne_zero_of_not_opposite h)) ht
    rw [← rLeft] at heq
    have hdot := dotProduct_mulVec_mulVec hturn.isRotation.orthogonal (Pi.single 2 1) ![1, 0, 0]
    rw [← rLeft, hfix, hx] at hdot
    have hz : T.translation 2 = r * ((Pi.single 2 1 : Vec3 K) ⬝ᵥ (rLeft E T *ᵥ ![1, 0, 0])) := by
      rw [single_one_dotProduct, ← heq]
      rfl
    rw [hz, hdot, mul_zero]
  · intro hz
    apply hturn.fixes _ hx
    rw [single_one_dotProduct, hz]

/-- The pose is turned back without distortion for a baseline along the x axis, and where the
coefficients are written by two, across the z axis. -/
theorem mulInPlace_rLeft_iff (hE : E.Lawful) (h : ¬ SameRay K ![1, 0, 0] (-T.translation))
    {packet : Bool} :
    mulInPlace packet (rLeft E T) 1 = rLeft E T ↔
      T.translation 2 = 0 ∧ (packet = true ∨ T.translation 1 = 0) := by
  have hturn := hE.isTurn_fromTwoVectors _ _ h
  refine (mulInPlace_one_eq_iff hturn.isRotation fun v hv => hturn.mulVec_ne_neg h hv).trans ?_
  rw [← rLeft, rLeft_eq_one_iff hE h, rLeft_fixes_iff hE h]
  tauto

end Turn

/-! ### The points of the hand -/

section Points

variable {K : Type} [Field K] [LinearOrder K] {cfg : NimbleConfig K}

omit [LinearOrder K] in
theorem mulInPlaceLeft_flipX (B : Matrix3 K) : mulInPlaceLeft B flipX = B * flipX := by
  have hflip : (flipX : Matrix3 K)ᵀ = flipX := by
    ext i j
    fin_cases i <;> fin_cases j <;> rfl
  rw [mulInPlaceLeft, hflip, mulInPlace_flipX, transpose_mul, transpose_transpose, hflip]

omit [LinearOrder K] in
theorem orthogonal_flipX : (flipX : Matrix3 K)ᵀ * flipX = 1 := by
  ext i j
  fin_cases i <;> fin_cases j <;> simp [flipX, mul_apply, Fin.sum_univ_three]

omit [LinearOrder K] in
/-- The rotation of the network, with the mirror of a left hand, behind what turns it back. -/
theorem globalRotation_eq (hsvd : cfg.svd.Orthogonal) (hand : Hand)
    (tensors : LiftNimbleTensors K) :
    ∃ N : Matrix3 K, Nᵀ * N = 1 ∧ cfg.globalRotation hand tensors =
      mulInPlace cfg.packet (inverse (cfg.lift.rot .lcam)) 1 * N := by
  have horth := orthogonal_getTransformWithSvd hsvd svdSrcPt tensors.svdPt
  cases hand with
  | left =>
    refine ⟨(getTransformWithSvd cfg.svd svdSrcPt tensors.svdPt).linear * flipX, ?_, ?_⟩
    · rw [transpose_mul, Matrix.mul_assoc, ← Matrix.mul_assoc _ _ flipX, horth, Matrix.one_mul,
        orthogonal_flipX]
    · show mulInPlaceLeft (mulInPlace _ _ _) flipX = _
      rw [mulInPlaceLeft_flipX, mulInPlace_eq, Matrix.mul_assoc]
  | right => exact ⟨_, horth, mulInPlace_eq _ _ _⟩

omit [LinearOrder K] in
/-- The joints next to the root are not turned. -/
theorem decodeHandJoints_child (handScale : K) (jointAngles : JointAngles K) (i : Fin 26)
    (joint : Fin 24) (hi : validJointIndex i = joint.succ) (hroot : kintree.parent joint = 0) :
    decodeHandJoints handScale jointAngles i =
      (1 / 1000 * (1 + handScale)) •
        (nimbleTemplateJoints joint.succ - nimbleTemplateJoints 0) := by
  have hbone := @handPoses_translation_sub K _ handScale jointAngles joint
  rw [hroot, handPoses_zero, one_mulVec] at hbone
  rw [decodeHandJoints, hi, handPoses_zero, hbone, smul_smul]

/-- Three of them span the space. -/
theorem isUnit_decodeHandJoints [IsStrictOrderedRing K] {handScale : K} (h : 1 + handScale ≠ 0)
    (jointAngles : JointAngles K) :
    IsUnit (Matrix.of fun k : Fin 3 =>
      decodeHandJoints handScale jointAngles (![1, 23, 24] k)) := by
  have hrows : (Matrix.of fun k : Fin 3 =>
      decodeHandJoints handScale jointAngles (![1, 23, 24] k)) =
      (1 / 1000 * (1 + handScale)) • Matrix.of ![nimbleTemplateJoints 1 - nimbleTemplateJoints 0,
        nimbleTemplateJoints 5 - nimbleTemplateJoints 0,
        nimbleTemplateJoints 10 - nimbleTemplateJoints 0] := by
    have h1 := decodeHandJoints_child handScale jointAngles 1 0 rfl rfl
    have h5 := decodeHandJoints_child handScale jointAngles 23 4 rfl rfl
    have h10 := decodeHandJoints_child handScale jointAngles 24 9 rfl rfl
    funext k
    fin_cases k
    · exact h1
    · exact h5
    · exact h10
  have hscale : (1 / 1000 * (1 + handScale) : K) ≠ 0 := mul_ne_zero (by norm_num) h
  rw [hrows, isUnit_iff_isUnit_det, det_smul, isUnit_iff_ne_zero]
  refine mul_ne_zero (pow_ne_zero _ hscale) ?_
  have h0 : (nimbleTemplateJoints 0 : Vec3 K) = ![9.5550, -22.8580, -102.1520] := rfl
  have h1 : (nimbleTemplateJoints 1 : Vec3 K) = ![35.5118, -40.8386, -91.7473] := rfl
  have h5 : (nimbleTemplateJoints 5 : Vec3 K) = ![27.7471, -27.3750, -85.3739] := rfl
  have h10 : (nimbleTemplateJoints 10 : Vec3 K) = ![17.0778, -22.4696, -81.3793] := rfl
  rw [det_fin_three, h0, h1, h5, h10]
  simp only [of_apply, cons_val, Pi.sub_apply]
  norm_num

omit [LinearOrder K] in
theorem scaled_mul_iff {M N : Matrix3 K} (hN : Nᵀ * N = 1) :
    (∃ k : K, (M * N)ᵀ * (M * N) = k • (1 : Matrix3 K)) ↔
      ∃ k : K, Mᵀ * M = k • (1 : Matrix3 K) := by
  have hNt : N * Nᵀ = 1 := mul_eq_one_comm.mp hN
  have hform : (M * N)ᵀ * (M * N) = Nᵀ * (Mᵀ * M) * N := by
    rw [transpose_mul, Matrix.mul_assoc, Matrix.mul_assoc, Matrix.mul_assoc]
  constructor
  · rintro ⟨k, hk⟩
    refine ⟨k, ?_⟩
    calc Mᵀ * M = (N * Nᵀ) * (Mᵀ * M) * (N * Nᵀ) := by
          rw [hNt, Matrix.one_mul, Matrix.mul_one]
      _ = N * ((M * N)ᵀ * (M * N)) * Nᵀ := by
          rw [hform]
          simp only [Matrix.mul_assoc]
      _ = k • (1 : Matrix3 K) := by
          rw [hk, Matrix.mul_smul, Matrix.mul_one, Matrix.smul_mul, hNt]
  · rintro ⟨k, hk⟩
    refine ⟨k, ?_⟩
    rw [hform, hk, Matrix.mul_smul, Matrix.mul_one, Matrix.smul_mul, hN]

end Points

/-! ### A run -/

section Run

variable {K : Type} [Field K] [LinearOrder K] [IsStrictOrderedRing K] {E : Eigen K}
  {svd : JacobiSvd K} {packet : Bool} {lift : LiftNetConfig K} {mem : MemTensors 105}

theorem inverse_rot_setCameraInfo (hE : E.Lawful)
    (h : ¬ SameRay K ![1, 0, 0] (-(lift.camera .rcam).cameraToWorldXf.translation)) :
    inverse ((setCameraInfo E packet lift).rot .lcam) =
      rLeft E (lift.camera .rcam).cameraToWorldXf := by
  have hdet := (hE.isTurn_fromTwoVectors _ _ h).isRotation.det_eq_one
  show inverse (getRotationsForStandardStereo E packet
    (lift.camera .rcam).cameraToWorldXf).leftR = _
  rw [inverse_eq, leftR_eq, nonsing_inv_nonsing_inv]
  rw [rLeft, hdet]
  exact isUnit_one

/-- The cameras, and a call of a run whose network ran. -/
structure NimbleRun (cfg : NimbleConfig K) (E : Eigen K) (lift : LiftNetConfig K) (lo hi : K)
    (past : List (NimbleCall K)) (c : NimbleCall K) (tensors : LiftNimbleTensors K) : Prop where
  lawful : E.Lawful
  set : ∃ svd packet mem, svd.Orthogonal ∧ cfg = .ofCameras E svd packet lift mem
  /-- The right camera is not straight on the left of the left one. -/
  baseline : ¬ SameRay K ![1, 0, 0] (-(lift.camera .rcam).cameraToWorldXf.translation)
  range : 0 < lo ∧ lo ≤ 1 ∧ 1 ≤ hi
  scales_past : ∀ c ∈ past, c.ScalesIn lo hi
  scales : c.ScalesIn lo hi
  ran : cfg.tensors (cfg.after past) c = some tensors

/-- The cameras for which the pose is turned back without distortion. -/
def NimbleConfig.Undistorted (cfg : NimbleConfig K) (lift : LiftNetConfig K) : Prop :=
  (lift.camera .rcam).cameraToWorldXf.translation 2 = 0 ∧
    (cfg.packet = true ∨ (lift.camera .rcam).cameraToWorldXf.translation 1 = 0)

namespace NimbleRun

variable {cfg : NimbleConfig K} {lo hi : K} {past : List (NimbleCall K)} {c : NimbleCall K}
  {tensors : LiftNimbleTensors K}

theorem inference_eq (h : NimbleRun cfg E lift lo hi past c tensors) :
    cfg.inference (cfg.after past) c =
      ((cfg.postProcess (cfg.after past) c tensors).1,
        some (cfg.postProcess (cfg.after past) c tensors).2) := by
  rw [NimbleConfig.inference, h.ran]

theorem handScale_between (h : NimbleRun cfg E lift lo hi past c tensors) :
    lo ≤ (cfg.inference (cfg.after past) c).1.handScale ∧
      (cfg.inference (cfg.after past) c).1.handScale ≤ hi :=
  NimbleConfig.handScale_inference
    (NimbleConfig.handScale_between h.range.2.1 h.range.2.2 h.scales_past) h.scales

/-- The points that a call returns. -/
theorem outputs_eq (h : NimbleRun cfg E lift lo hi past c tensors) :
    ∃ outputs, (cfg.inference (cfg.after past) c).2 = some outputs ∧
      ∀ i : Fin 26, outputs.res3d.getD i 0 =
        cfg.globalKpt c.hand (cfg.inference (cfg.after past) c).1.handScale tensors i := by
  refine ⟨_, congrArg Prod.snd h.inference_eq, fun i => ?_⟩
  rw [h.inference_eq]
  show (List.ofFn _).getD i 0 = _
  rw [List.getD_eq_getElem?_getD, List.getElem?_ofFn, dif_pos i.isLt]
  rfl

theorem baseline_pos (h : NimbleRun cfg E lift lo hi past c tensors) :
    0 < cfg.baselineScale / standardBaseline := by
  obtain ⟨svd, packet, mem, -, rfl⟩ := h.set
  have hnorm : 0 < E.norm (lift.camera .rcam).cameraToWorldXf.translation :=
    h.lawful.norm_pos (right_ne_zero_of_not_opposite h.baseline)
  exact div_pos hnorm (by norm_num [standardBaseline])

theorem orthogonal (h : NimbleRun cfg E lift lo hi past c tensors) : cfg.svd.Orthogonal := by
  obtain ⟨svd, packet, mem, hsvd, rfl⟩ := h.set
  exact hsvd

theorem globalRotation_eq (h : NimbleRun cfg E lift lo hi past c tensors) :
    ∃ N : Matrix3 K, Nᵀ * N = 1 ∧ cfg.globalRotation c.hand tensors =
      mulInPlace cfg.packet (rLeft E (lift.camera .rcam).cameraToWorldXf) 1 * N := by
  obtain ⟨N, hN, hrot⟩ := Lift.globalRotation_eq h.orthogonal c.hand tensors
  obtain ⟨svd, packet, mem, -, rfl⟩ := h.set
  have hinverse : inverse ((NimbleConfig.ofCameras E svd packet lift mem).lift.rot .lcam) =
      rLeft E (lift.camera .rcam).cameraToWorldXf :=
    inverse_rot_setCameraInfo h.lawful h.baseline
  rw [hinverse] at hrot
  exact ⟨N, hN, hrot⟩

theorem isRotation_rLeft (h : NimbleRun cfg E lift lo hi past c tensors) :
    IsRotation (rLeft E (lift.camera .rcam).cameraToWorldXf) :=
  (h.lawful.isTurn_fromTwoVectors _ _ h.baseline).isRotation

/-- The pose is a multiple of an orthogonal matrix only if nothing distorts it. -/
theorem scaled_globalRotation_iff (h : NimbleRun cfg E lift lo hi past c tensors) :
    (∃ k : K, (cfg.globalRotation c.hand tensors)ᵀ * cfg.globalRotation c.hand tensors =
      k • (1 : Matrix3 K)) ↔ cfg.Undistorted lift := by
  obtain ⟨N, hN, hrot⟩ := h.globalRotation_eq
  rw [hrot, scaled_mul_iff hN]
  exact (mulInPlace_one_scaled_iff h.isRotation_rLeft).trans
    (mulInPlace_rLeft_iff h.lawful h.baseline)

theorem orthogonal_globalRotation (h : NimbleRun cfg E lift lo hi past c tensors)
    (hundistorted : cfg.Undistorted lift) :
    (cfg.globalRotation c.hand tensors)ᵀ * cfg.globalRotation c.hand tensors = 1 := by
  obtain ⟨N, hN, hrot⟩ := h.globalRotation_eq
  have hwritten := (mulInPlace_rLeft_iff h.lawful h.baseline).mpr hundistorted
  rw [hrot, hwritten, transpose_mul, Matrix.mul_assoc, ← Matrix.mul_assoc _ _ N,
    h.isRotation_rLeft.orthogonal, Matrix.one_mul, hN]

/-- The bones that a call returns have the lengths of the template, in the scale of the two
baselines and the one that is kept. -/
theorem bones (fns : RealFns K) (h : NimbleRun cfg E lift lo hi past c tensors)
    (hundistorted : cfg.Undistorted lift) {outputs : NetOutputs K}
    (houtputs : (cfg.inference (cfg.after past) c).2 = some outputs) :
    ∃ scale, lo ≤ scale ∧ scale ≤ hi ∧ ∀ (joint : Fin 24) (i j : Fin 26),
      validJointIndex i = joint.succ → validJointIndex j = kintree.parent joint →
      distance fns (outputs.res3d.getD i 0) (outputs.res3d.getD j 0) =
        cfg.baselineScale / standardBaseline *
          (scale * distance fns (nimbleTemplateJoints joint.succ)
            (nimbleTemplateJoints (kintree.parent joint)) / 1000) := by
  obtain ⟨outputs', houtputs', hpoints⟩ := h.outputs_eq
  rw [houtputs] at houtputs'
  obtain rfl := Option.some.inj houtputs'
  obtain ⟨hlo, hhi⟩ := h.handScale_between
  refine ⟨(cfg.inference (cfg.after past) c).1.handScale, hlo, hhi, fun joint i j hi hj => ?_⟩
  have hpos := lt_of_lt_of_le h.range.1 hlo
  set handScale := (cfg.inference (cfg.after past) c).1.handScale
  have hsub : outputs.res3d.getD i 0 - outputs.res3d.getD j 0 =
      (cfg.baselineScale / standardBaseline) • (cfg.globalRotation c.hand tensors *ᵥ
        (decodeHandJoints (handScale - 1) (decodeHandAngle cfg.svd tensors.angle) i -
          decodeHandJoints (handScale - 1) (decodeHandAngle cfg.svd tensors.angle) j)) := by
    rw [hpoints, hpoints, NimbleConfig.globalKpt, NimbleConfig.globalKpt, ← smul_sub,
      add_sub_add_right_eq_sub, ← mulVec_sub]
  rw [distance_of_sub_eq fns (h.orthogonal_globalRotation hundistorted) _ hsub,
    abs_of_pos h.baseline_pos, distance_parent_child fns _
      (orthogonal_decodeHandAngle h.orthogonal tensors.angle) joint hi hj,
    add_sub_cancel, abs_of_pos hpos]

end NimbleRun

/-- **When a call returns the hand that it decoded**: its 26 points are similar to those of
`decode_hand_joints` for the scale that is kept, whatever calls there were before, exactly for
cameras whose pose is turned back without distortion. -/
theorem nimble_similar_iff {cfg : NimbleConfig K} {lo hi : K} {past : List (NimbleCall K)}
    {c : NimbleCall K} {tensors : LiftNimbleTensors K}
    (h : NimbleRun cfg E lift lo hi past c tensors) :
    ∃ outputs, (cfg.inference (cfg.after past) c).2 = some outputs ∧
      (SimilarTo (fun i : Fin 26 => outputs.res3d.getD i 0)
          (decodeHandJoints ((cfg.inference (cfg.after past) c).1.handScale - 1)
            (decodeHandAngle cfg.svd tensors.angle)) ↔
        cfg.Undistorted lift) := by
  obtain ⟨outputs, houtputs, hpoints⟩ := h.outputs_eq
  refine ⟨outputs, houtputs, ?_⟩
  have hscale : 1 + ((cfg.inference (cfg.after past) c).1.handScale - 1) ≠ 0 := by
    have hpos := lt_of_lt_of_le h.range.1 h.handScale_between.1
    rw [add_sub_cancel]
    exact hpos.ne'
  rw [funext hpoints, ← h.scaled_globalRotation_iff]
  exact similarTo_affine_iff (decodeHandJoints_root _ _) (isUnit_decodeHandJoints hscale _)
    h.baseline_pos.ne' _ _

end Run

/-! ### Cameras side by side -/

section Beside

/-- The right camera stands at `t` and looks the way of the left one. -/
noncomputable def cameraAt (t : Vec3 ℝ) : LiftNetConfig ℝ :=
  { behindConfig with
    camera := fun c =>
      { behindConfig.camera c with cameraToWorldXf := ⟨1, if c = .rcam then t else 0⟩ } }

theorem memTensors_nonempty : 0 < (⟨105, 1, 1⟩ : TensorDims).memSize := by decide

theorem memTensors_fits : (⟨105, 1, 1⟩ : TensorDims).memSize ≤ 105 := by decide

/-- The decomposition of a zero matrix, which is all that is asked for. -/
noncomputable def restConfig (t : Vec3 ℝ) : NimbleConfig ℝ :=
  .ofCameras geometricEigen (fun _ => (1, 1)) false (cameraAt t)
    ⟨⟨105, 1, 1⟩, ⟨105, 1, 1⟩, memTensors_nonempty, rfl, memTensors_fits⟩

/-- A stretched hand at the left camera; the points of the pose are all at their mean. -/
noncomputable def restTensors : LiftNimbleTensors ℝ :=
  ⟨fun _ => (1 / 7 : ℝ) • ∑ i, svdSrcPt i, 0, 0, 0, .zero⟩

/-- A call in which the network returns the hand at rest. -/
noncomputable def restCall (inputs : LiftNetInputs ℝ) : NimbleCall ℝ :=
  ⟨inputs, .zero, fun _ _ => some restTensors⟩

theorem nimbleRun_rest {t : Vec3 ℝ} (ht : 0 < t 0) {inputs : LiftNetInputs ℝ}
    {start : StereoPoints (Vec3 ℝ)} (hread : readCoords inputs = some start) :
    NimbleRun (restConfig t) geometricEigen (cameraAt t) 1 1 [] (restCall inputs) restTensors where
  lawful := lawful_geometricEigen
  set := by
    refine ⟨_, _, _, fun _ => ⟨?_, ?_⟩, rfl⟩
    · rw [transpose_one, Matrix.one_mul]
    · rw [transpose_one, Matrix.one_mul]
  baseline := by
    show ¬ SameRay ℝ ![1, 0, 0] (-t)
    refine not_opposite_of_pos (d := ![1, 0, 0]) (by simp) ?_
    simpa [dotProduct, Fin.sum_univ_three] using ht
  range := ⟨one_pos, le_rfl, le_rfl⟩
  scales_past _ hmem := absurd hmem List.not_mem_nil
  scales _ _ tensors htensors := by
    obtain rfl := Option.some.inj htensors
    simp [restTensors]
  ran := by
    simp only [NimbleConfig.tensors, LiftNet.preProcess, restCall, hread]

/-- Points at the left camera. -/
def zeroInputs : LiftNetInputs ℝ := ⟨fun _ => [], fun _ => .ofPoints fun _ => 0, 0, 0⟩

theorem readCoords_zeroInputs :
    readCoords zeroInputs = some (byCam (fun _ => 0) fun _ => 0) := by
  simp only [readCoords, zeroInputs, CamCoords.read_ofPoints]

/-- A left hand that is a quarter larger than the template. -/
noncomputable def largeCall (inputs : LiftNetInputs ℝ) : NimbleCall ℝ :=
  ⟨{ inputs with isLeft := 1 }, .zero, fun _ _ => some { restTensors with shape := 1 / 4 }⟩

theorem nimbleRun_afterLarge {t : Vec3 ℝ} (ht : 0 < t 0) :
    NimbleRun (restConfig t) geometricEigen (cameraAt t) 1 (5 / 4) [largeCall zeroInputs]
      (restCall zeroInputs) restTensors where
  lawful := lawful_geometricEigen
  set := (nimbleRun_rest ht readCoords_zeroInputs).set
  baseline := (nimbleRun_rest ht readCoords_zeroInputs).baseline
  range := ⟨one_pos, le_rfl, by norm_num⟩
  scales_past c hmem _ _ tensors htensors := by
    obtain rfl := List.mem_singleton.mp hmem
    obtain rfl := Option.some.inj htensors
    norm_num
  scales _ _ tensors htensors := by
    obtain rfl := Option.some.inj htensors
    norm_num [restTensors]
  ran := by
    simp only [NimbleConfig.tensors, LiftNet.preProcess, restCall, readCoords_zeroInputs]

/-- The right camera on the right of the left one, and behind; a larger left hand came before. -/
theorem nimble_similar_iff_afterLarge : ∃ outputs,
    ((restConfig ![1, 0, 1]).inference ((restConfig ![1, 0, 1]).after [largeCall zeroInputs])
      (restCall zeroInputs)).2 = some outputs ∧
      (SimilarTo (fun i : Fin 26 => outputs.res3d.getD i 0)
          (decodeHandJoints (((restConfig ![1, 0, 1]).inference
            ((restConfig ![1, 0, 1]).after [largeCall zeroInputs])
              (restCall zeroInputs)).1.handScale - 1)
            (decodeHandAngle (restConfig ![1, 0, 1]).svd restTensors.angle)) ↔
        (restConfig ![1, 0, 1]).Undistorted (cameraAt ![1, 0, 1])) :=
  nimble_similar_iff (nimbleRun_afterLarge (by simp))

end Beside

end Lift

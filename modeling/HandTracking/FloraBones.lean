/-
The bones of the hands that the flora graph publishes.

A hand that both cameras see is lifted by `GMLPLiftNimble`.  `convert_to_26points` then makes new
points of its palm, the smoothing moves it towards its last place, and it is brought to the world.
The bones of the fingers, and the last one of the thumb, keep the lengths of the network through all
of it.

* `convertTo26PointsOver_stays` — the points that are left as they are;
* `RigidWorld` — the way to the world;
* `LiftedBy` — a frame whose lift network is in a run of `GMLPLiftNimble`;
* `flora_bones` — the bones of a published hand.
-/
import HandTracking.FloraGraph
import HandTracking.KeypointMotion
import HandTracking.NimbleLift
import HandTracking.WorldTransfer

namespace Calculator

open Camera HandPose Joints Lift Matrix Pose

/-! ### The points that stay -/

section Points

variable {K : Type} [Field K]

/-- The points of the fingers, but for the one of the thumb that `middle_palm_joint` moves: of the
bones of the thumb only the last one has both ends among them. -/
def Stays (i : Fin 26) : Prop := i ≠ 0 ∧ i ≠ 2 ∧ i.val < 21

theorem middlePalmJoint_stays (E : Eigen K) (joints : Joint26 K) (leftHand : Bool) {i : Fin 26}
    (hi : Stays i) : middlePalmJoint E joints leftHand i = joints i := by
  obtain ⟨-, h2, hlt⟩ := hi
  have hpalm : ∀ j : Fin 26, 21 ≤ j.val → i ≠ j := by
    rintro j hj rfl
    omega
  unfold middlePalmJoint
  simp only
  rw [Function.update_of_ne (hpalm 23 (by decide)), Function.update_of_ne (hpalm 25 (by decide)),
    Function.update_of_ne (hpalm 24 (by decide)), Function.update_of_ne (hpalm 23 (by decide)),
    Function.update_of_ne (hpalm 22 (by decide)), Function.update_of_ne h2]

/-- Whatever the memory behind the points holds. -/
theorem convertTo26PointsOver_stays (E : Eigen K) (unset : Joint26 K) (input : List (Vec3 K))
    (leftHand : Bool) {i : Fin 26} (hi : Stays i) :
    (convertTo26PointsOver E unset input leftHand)[i.val]? = some (input.getD i (unset i)) := by
  have h21 : i ≠ 21 := by
    rintro rfl
    exact absurd hi.2.2 (by decide)
  rw [convertTo26PointsOver, List.getElem?_ofFn, dif_pos i.isLt]
  show some (middlePalmJoint E _ leftHand i) = _
  rw [middlePalmJoint_stays E _ leftHand hi, Function.update_of_ne hi.1,
    Function.update_of_ne h21]
  rfl

theorem convertTo26Points_stays (E : Eigen K) (input : List (Vec3 K)) (leftHand : Bool)
    {i : Fin 26} (hi : Stays i) :
    (convertTo26Points E input leftHand)[i.val]? = some (input.getD i 0) := by
  rw [← convertTo26PointsOver_zero]
  exact convertTo26PointsOver_stays E 0 input leftHand hi

end Points

/-! ### The calculators behind the network -/

section Moved

variable {K : Type} [Field K] [LinearOrder K]

omit [LinearOrder K] in
/-- The smoothing moves all points alike. -/
theorem exists_kpt3d_smoothHand (transfer : Mono.Transfer K) (pre : SingleHandData K)
    (smoothFrames : ℤ) (data : SingleHandData K) :
    ∃ v, (smoothHand transfer pre smoothFrames data).kpt3d = data.kpt3d.map (· + v) := by
  unfold smoothHand
  split
  · exact ⟨_, rfl⟩
  · refine ⟨0, ?_⟩
    simp

variable {cfg : Kpt3dConfig K} {nf : NetFrame K} {hand : Hand}

/-- A lifted hand after a rigid motion, as a rigid motion of what the network returned. -/
theorem kpt3d_liftSolved_stays (outputs : NetOutputs K) (S : Matrix3 K) (t : Vec3 K) :
    ∃ v, ∀ i, Stays i → ((nf.liftSolved cfg hand outputs).kpt3d.map (move S t)).getD i 0 =
      move S v (outputs.res3d.getD i 0) := by
  obtain ⟨v, hv⟩ := exists_kpt3d_smoothHand nf.transfer (nf.kpt3dWorldPre.hand hand)
    (smoothFramesLeft (nf.kpt3dWorldPre.hand hand) (nf.kpt3dWorldPre.valid hand) .bino .mono)
    { SingleHandData.init with
      kpt3d := convertTo26Points cfg.eigen outputs.res3d (hand = .left)
      source := .bino
      score := nf.liftScore cfg hand outputs
        (convertTo26Points cfg.eigen outputs.res3d (hand = .left))
      constrained := cfg.liftNet = .gmlpLiftNimble }
  have hpoints : (nf.liftSolved cfg hand outputs).kpt3d =
      (convertTo26Points cfg.eigen outputs.res3d (hand = .left)).map (· + v) := hv
  refine ⟨S *ᵥ v + t, fun i hi => ?_⟩
  rw [hpoints, List.map_map, List.getD_eq_getElem?_getD, List.getElem?_map,
    convertTo26Points_stays _ _ _ hi]
  show S *ᵥ (outputs.res3d.getD i 0 + v) + t = S *ᵥ outputs.res3d.getD i 0 + (S *ᵥ v + t)
  rw [mulVec_add, add_assoc]

end Moved

/-! ### The way to the world -/

section World

variable {K : Type} [Field K] {service : Calibration.GlobalCoordService K}
  {headpose : Calibration.NRTransform K} {toWorld : Vec3 K → Vec3 K}

/-- `transfer_from_cvL_to_world`, for entries of the service and a pose of the head that are
rigid. -/
structure RigidWorld (service : Calibration.GlobalCoordService K)
    (headpose : Calibration.NRTransform K) (toWorld : Vec3 K → Vec3 K) : Prop where
  points : ∀ points, points.map toWorld =
    Calibration.transferFromCvLToWorld service headpose points
  leftCam : (service.getTransform Calibration.XrealCoordSystem.cvLeftCam.index
    Calibration.XrealCoordSystem.glLeftCam.index).IsRigid
  head : (service.getTransform Calibration.XrealCoordSystem.glLeftCam.index
    Calibration.XrealCoordSystem.glHead.index).IsRigid
  pose : headpose.rotation.squaredNorm = 1

theorem RigidWorld.exists_move (h : RigidWorld service headpose toWorld) :
    ∃ (S : Matrix3 K) (t : Vec3 K), Sᵀ * S = 1 ∧ toWorld = move S t := by
  set leftCam := service.getTransform Calibration.XrealCoordSystem.cvLeftCam.index
    Calibration.XrealCoordSystem.glLeftCam.index
  set head := service.getTransform Calibration.XrealCoordSystem.glLeftCam.index
    Calibration.XrealCoordSystem.glHead.index
  have hpose : (Calibration.glWTglH headpose).IsRigid := by
    show ((1 : Matrix3 K) * headpose.rotation.toRotationMatrix)ᵀ *
      (1 * headpose.rotation.toRotationMatrix) = 1
    rw [Matrix.one_mul, Coord.toRotationMatrix_orthogonal h.pose]
  have hrigid := (hpose.mul h.head).mul h.leftCam
  refine ⟨_, (Calibration.glWTglH headpose * head * leftCam).translation, hrigid, ?_⟩
  funext p
  have hpoint : [toWorld p] =
      [(Calibration.glWTglH headpose).apply (head.apply (leftCam.apply p))] := h.points [p]
  rw [List.singleton_inj.mp hpoint, Isometry3.apply_apply, Isometry3.apply_apply]
  rfl

end World

/-! ### A run of the graph -/

section Run

variable {K : Type} [Field K] [LinearOrder K] [IsStrictOrderedRing K]

/-- A rigid motion leaves the distances as they are. -/
theorem distance_move (fns : RealFns K) {S : Matrix3 K} (hS : Sᵀ * S = 1) (t p q : Vec3 K) :
    distance fns (move S t p) (move S t q) = distance fns p q := by
  have hsub : move S t p - move S t q = (1 : K) • (S *ᵥ (p - q)) := by
    rw [one_smul, move_sub]
  rw [distance_of_sub_eq fns hS 1 hsub, abs_one, one_mul]

/-- What the lift network of a frame returns, it returns in a run of `GMLPLiftNimble`. -/
def LiftedBy (nimble : NimbleConfig K) (E : Eigen K) (lift : LiftNetConfig K) (lo hi : K)
    (f : FloraFrame K) : Prop :=
  ∀ inputs outputs, f.liftNet inputs = some outputs →
    ∃ past c tensors, NimbleRun nimble E lift lo hi past c tensors ∧ c.inputs = inputs ∧
      (nimble.inference (nimble.after past) c).2 = some outputs

namespace FloraState

variable [FloorRing K] {cfg : FilterConfig K} {order : List Kpt3dStream} {updators : Block.Updators}
  {lastTimestamp : K} {s : FloraState K}

/-- **The bones of a published hand of both cameras**, in any run: those of the fingers, and
the last of the thumb, have the length of the template, in the scale of the two baselines and one
between those of the network. -/
theorem flora_bones (fns : RealFns K) (hs : Transition.Reachable (step cfg order)
    (fun _ _ => True) (.init updators lastTimestamp) s) {f : FloraFrame K} {s' : FloraState K}
    {out : HandsData K} (hstep : s.step cfg order (.frame f) = some (s', [out])) {hand : Hand}
    (hout : out.valid hand = true) (hbino : (out.hand hand).source = .bino)
    {service : Calibration.GlobalCoordService K} {headpose : Calibration.NRTransform K}
    (hworld : RigidWorld service headpose f.toWorld) {nimble : NimbleConfig K} {E : Eigen K}
    {lift : LiftNetConfig K} {lo hi : K}
    (hlift : LiftedBy nimble E lift lo hi f) (hundistorted : nimble.Undistorted lift) :
    ∃ scale, lo ≤ scale ∧ scale ≤ hi ∧ ∀ (joint : Fin 24) (i j : Fin 26), Stays i → Stays j →
      validJointIndex i = joint.succ → validJointIndex j = kintree.parent joint →
      distance fns ((out.hand hand).kpt3d.getD i 0) ((out.hand hand).kpt3d.getD j 0) =
        nimble.baselineScale / standardBaseline *
          (scale * distance fns (nimbleTemplateJoints joint.succ)
            (nimbleTemplateJoints (kintree.parent joint)) / 1000) := by
  obtain ⟨s'', out', hstep', -, hvalid, hhand⟩ :=
    step_frame cfg order f (inv_of_reachable hs)
  rw [hstep'] at hstep
  obtain ⟨rfl, hlist⟩ := Prod.mk.inj (Option.some.inj hstep)
  obtain rfl := List.singleton_inj.mp hlist
  obtain ⟨S, t, hS, hmove⟩ := hworld.exists_move
  obtain ⟨v, hdata⟩ := hhand hand hout
  rw [hvalid] at hout
  rw [hdata] at hbino ⊢
  rcases found_of_blocked hout with ⟨virtualCamera, outputs, -, hfound⟩ |
      ⟨outputs, houtputs, hfound⟩
  · -- a hand of one camera says so
    rw [hfound] at hbino
    exact absurd (hbino.symm.trans (nimbleSolved_source virtualCamera outputs).1) (by decide)
  · obtain ⟨inputs, hnet⟩ := NetFrame.exists_liftNet_of_liftOutputs houtputs
    obtain ⟨past, c, tensors, hrun, -, hinference⟩ := hlift inputs outputs hnet
    obtain ⟨scale, hlo, hhi, hbones⟩ := hrun.bones fns hundistorted hinference
    obtain ⟨w, hpoints⟩ :=
      @kpt3d_liftSolved_stays K _ _ cfg.flora (s.netFrame cfg f) hand outputs S t
    refine ⟨scale, hlo, hhi, fun joint i j hi hj hjoint hparent => ?_⟩
    have hmoved : ∀ k, Stays k →
        ((((s.blocked cfg order f).2.hand hand).kpt3d.map f.toWorld).getD k 0) =
          move S w (outputs.res3d.getD k 0) := by
      intro k hk
      rw [hfound, hmove]
      exact hpoints k hk
    show distance fns ((((s.blocked cfg order f).2.hand hand).kpt3d.map f.toWorld).getD i 0)
      ((((s.blocked cfg order f).2.hand hand).kpt3d.map f.toWorld).getD j 0) = _
    rw [hmoved i hi, hmoved j hj, distance_move fns hS]
    exact hbones joint i j hjoint hparent

end FloraState

end Run

/-! ### A left hand that is lifted -/

section Beside

/-- Where no joint is turned, the hand is that of the template. -/
theorem handPoses_rest (handScale : ℝ) (i : Fin 25) :
    handPoses handScale (fun _ => 1) (List.finRange 24) i = ⟨1, realJoints handScale i⟩ := by
  induction i using kintree.induction with
  | root => rw [handPoses_zero]
  | child i ih =>
    have hrot : jointRot (fun _ => (1 : Matrix3 ℝ)) i.succ = 1 := by
      unfold jointRot
      split <;> rfl
    rw [handPoses_succ, ih, jointRelTransform, hrot]
    refine Isometry3.ext (Matrix.one_mul 1) ?_
    rw [Isometry3.mul_translation, one_mulVec]
    exact sub_add_cancel _ _

theorem decodeHandAngle_rest : decodeHandAngle (fun _ => (1, 1)) (0 : JointAngles ℝ) =
    fun _ => 1 := by
  funext i
  show (1 : Matrix3 ℝ) * (1ᵀ).updateRow 2 ((1 * 1ᵀ : Matrix3 ℝ).det • (1ᵀ : Matrix3 ℝ) 2) = 1
  rw [transpose_one, Matrix.one_mul, Matrix.one_mul, det_one, one_smul, updateRow_eq_self]

/-- The pose of points that are all at their mean. -/
theorem transform_rest :
    getTransformWithSvd (fun _ => (1, 1)) svdSrcPt restTensors.svdPt = 1 := by
  have hmean : (1 / 7 : ℝ) • ∑ _k : Fin 7, (1 / 7 : ℝ) • ∑ i, svdSrcPt i =
      (1 / 7 : ℝ) • ∑ i, (svdSrcPt i : Vec3 ℝ) := by
    rw [Finset.sum_const, Finset.card_univ, Fintype.card_fin, ← Nat.cast_smul_eq_nsmul ℝ,
      smul_smul]
    norm_num
  have hrotation : (1 : Matrix3 ℝ) * diagonal ![1, 1, ((1 : Matrix3 ℝ) * 1ᵀ).det] * 1ᵀ = 1 := by
    rw [transpose_one, Matrix.one_mul, Matrix.one_mul, Matrix.mul_one, det_one]
    ext i j
    fin_cases i <;> fin_cases j <;> rfl
  have hlinear : (getTransformWithSvd (fun _ => (1, 1)) svdSrcPt restTensors.svdPt).linear = 1 := by
    show (1 : Matrix3 ℝ) * (1 * diagonal ![1, 1, ((1 : Matrix3 ℝ) * 1ᵀ).det] * 1ᵀ) = 1
    rw [hrotation, Matrix.one_mul]
  refine Isometry3.ext hlinear ?_
  rw [getTransformWithSvd_translation, hlinear, one_mulVec]
  exact sub_eq_zero.mpr hmean

/-- The right camera on the right of the left one. -/
noncomputable def besideConfig : NimbleConfig ℝ := restConfig ![1, 0, 0]

theorem undistorted_beside : besideConfig.Undistorted (cameraAt ![1, 0, 0]) := ⟨rfl, .inr rfl⟩

theorem nimbleRun_beside {inputs : LiftNetInputs ℝ} {points : StereoPoints (Vec3 ℝ)}
    (hread : readCoords inputs = some points) :
    NimbleRun besideConfig geometricEigen (cameraAt ![1, 0, 0]) 1 1 [] (restCall inputs)
      restTensors :=
  nimbleRun_rest (by simp) hread

theorem globalRotation_beside : besideConfig.globalRotation .left restTensors = flipX := by
  have h := (nimbleRun_beside readCoords_zeroInputs).baseline
  have hone : rLeft geometricEigen ((cameraAt ![1, 0, 0]).camera .rcam).cameraToWorldXf = 1 :=
    (rLeft_eq_one_iff lawful_geometricEigen h).mpr ⟨rfl, rfl⟩
  have hwritten := (mulInPlace_rLeft_iff lawful_geometricEigen h).mpr undistorted_beside
  rw [hone] at hwritten
  have hinverse : inverse (besideConfig.lift.rot .lcam) = 1 :=
    (inverse_rot_setCameraInfo lawful_geometricEigen h).trans hone
  show mulInPlaceLeft (mulInPlace besideConfig.packet (inverse (besideConfig.lift.rot .lcam))
    (getTransformWithSvd (fun _ => (1, 1)) svdSrcPt restTensors.svdPt).linear) flipX = flipX
  rw [mulInPlaceLeft_flipX, hinverse, transform_rest]
  show mulInPlace besideConfig.packet 1 1 * flipX = flipX
  rw [hwritten, Matrix.one_mul]

theorem globalTranslation_beside : besideConfig.globalTranslation restTensors = 0 := by
  show compensateWithPiecewise (_ *ᵥ
    (getTransformWithSvd (fun _ => (1, 1)) svdSrcPt restTensors.svdPt).translation) = 0
  rw [transform_rest]
  show compensateWithPiecewise (_ *ᵥ 0) = 0
  rw [mulVec_zero]
  funext i
  fin_cases i <;> simp [compensateWithPiecewise]

/-- The network lifts every hand to the stretched one. -/
noncomputable def boneFrame : FloraFrame ℝ :=
  { FloraState.bothFrame with
    liftNet := fun inputs =>
      (besideConfig.inference (besideConfig.after []) (restCall inputs)).2 }

theorem liftedBy_boneFrame :
    LiftedBy besideConfig geometricEigen (cameraAt ![1, 0, 0]) 1 1 boneFrame := by
  intro inputs outputs houtputs
  cases hread : readCoords inputs with
  | none =>
    -- the network is not run
    have hnone : besideConfig.tensors (besideConfig.after []) (restCall inputs) = none := by
      simp only [NimbleConfig.tensors, LiftNet.preProcess, restCall, hread]
    have hidle : (besideConfig.inference (besideConfig.after []) (restCall inputs)).2 = none := by
      rw [NimbleConfig.inference, hnone]
    exact absurd (hidle.symm.trans houtputs) (by simp)
  | some points => exact ⟨[], restCall inputs, restTensors, nimbleRun_beside hread, rfl, houtputs⟩

theorem globalKpt_beside (handScale : ℝ) (i : Fin 26) :
    besideConfig.globalKpt .left handScale restTensors i =
      (besideConfig.baselineScale / standardBaseline) • (flipX *ᵥ ((1 / 1000 * handScale) •
        (nimbleTemplateJoints (validJointIndex i) - nimbleTemplateJoints 0))) := by
  have hjoints : decodeHandJoints (handScale - 1) (fun _ => 1) i = (1 / 1000 * handScale) •
      (nimbleTemplateJoints (validJointIndex i) - nimbleTemplateJoints 0) := by
    rw [decodeHandJoints, handPoses_rest, handPoses_rest, realJoints_sub, smul_smul,
      add_sub_cancel]
  rw [NimbleConfig.globalKpt, globalRotation_beside, globalTranslation_beside, add_zero]
  show _ • (flipX *ᵥ decodeHandJoints (handScale - 1)
    (decodeHandAngle (fun _ => (1, 1)) (0 : JointAngles ℝ)) i) = _
  rw [decodeHandAngle_rest, hjoints]

/-- The root is moved away from the middle finger, towards the cameras. -/
theorem outerRoot_near {joints : Joint26 ℝ} (h0 : joints 0 = 0) (h9 : 0 < joints 9 2) :
    outerRoot Landmark.realEigen joints 2 ≤ 1 := by
  set d := joints 0 - joints 9 with hd
  have hz : d 2 = -joints 9 2 := by rw [hd, h0, zero_sub, Pi.neg_apply]
  have hpos : 0 < Real.sqrt (d 0 * d 0 + d 1 * d 1 + d 2 * d 2) := by
    have hx := mul_self_nonneg (d 0)
    have hy := mul_self_nonneg (d 1)
    have hzz : 0 < d 2 * d 2 := by
      rw [hz, neg_mul_neg]
      exact mul_pos h9 h9
    exact Real.sqrt_pos.mpr (by linarith)
  have hroot : outerRoot Landmark.realEigen joints 2 = joints 9 2 + 1.2 * d 2 := by
    show joints 9 2 + 1.2 * Real.sqrt (d 0 * d 0 + d 1 * d 1 + d 2 * d 2) *
      (d 2 / Real.sqrt (d 0 * d 0 + d 1 * d 1 + d 2 * d 2)) = _
    rw [mul_assoc, mul_div_cancel₀ _ hpos.ne']
  rw [hroot, hz]
  linarith

theorem convertTo26Points_root {K : Type} [Field K] (E : Eigen K) (input : List (Vec3 K))
    (leftHand : Bool) :
    (convertTo26Points E input leftHand).getD 0 0 = outerRoot E (ofInput input) := by
  show outerRoot E (Function.update (ofInput input) 21 _) = _
  exact outerRoot_congr E rfl rfl

/-- What the network returns for the frame. -/
noncomputable def boneOutputs (inputs : LiftNetInputs ℝ) : NetOutputs ℝ :=
  (besideConfig.postProcess (besideConfig.after []) (restCall inputs) restTensors).2

theorem liftOutputs_boneFrame : ∃ inputs points, readCoords inputs = some points ∧
    inputs.isLeft = 1 ∧
    (FloraState.start.netFrame rightImageConfig boneFrame).liftOutputs rightImageConfig.flora
      .left = some (boneOutputs inputs) := by
  have hkpt : ∀ cam, kAlgoKeypointNum ≤
      ((FloraState.start.kpt2d rightImageConfig FloraState.bothFrame).seen .left cam).kpt.length :=
    fun cam => (FloraState.length_kpt_kpt2d cam).ge
  obtain ⟨points, hrun⟩ := NetFrame.exists_liftOutputs rightImageConfig.flora
    (FloraState.start.netFrame rightImageConfig boneFrame) .left FloraState.seen_bothFrame hkpt
  have hread : readCoords (⟨fun _ => [], fun c => .ofPoints (points c), 1, isLeft .left⟩ :
      LiftNetInputs ℝ) = some (byCam (points .lcam) (points .rcam)) := by
    simp only [readCoords, CamCoords.read_ofPoints]
  refine ⟨_, _, hread, rfl, ?_⟩
  exact hrun.trans (congrArg Prod.snd (nimbleRun_beside hread).inference_eq)

/-- The points of the network, at a scale that is not negative. -/
theorem res3d_boneOutputs {inputs : LiftNetInputs ℝ} {points : StereoPoints (Vec3 ℝ)}
    (hread : readCoords inputs = some points) (hleft : inputs.isLeft = 1) :
    ∃ c : ℝ, 0 < c ∧ ∀ i : Fin 26, (boneOutputs inputs).res3d.getD i 0 = c • (flipX *ᵥ
      (nimbleTemplateJoints (validJointIndex i) - nimbleTemplateJoints 0)) := by
  have hrun := nimbleRun_beside hread
  have hhand : (restCall inputs).hand = .left := by
    rw [NimbleCall.hand, if_pos]
    show inputs.isLeft ≠ 0
    rw [hleft]
    exact one_ne_zero
  obtain ⟨outputs, houtputs, hpoints⟩ := hrun.outputs_eq
  have hsame : some (boneOutputs inputs) = some outputs :=
    (congrArg Prod.snd hrun.inference_eq).symm.trans houtputs
  obtain rfl := Option.some.inj hsame
  have hscale := lt_of_lt_of_le one_pos hrun.handScale_between.1
  set handScale :=
    (besideConfig.inference (besideConfig.after []) (restCall inputs)).1.handScale
  refine ⟨besideConfig.baselineScale / standardBaseline * (1 / 1000 * handScale),
    mul_pos hrun.baseline_pos (mul_pos (by norm_num) hscale), fun i => ?_⟩
  rw [hpoints, hhand, globalKpt_beside, mulVec_smul, smul_smul]

theorem shown_boneFrame {inputs : LiftNetInputs ℝ} {points : StereoPoints (Vec3 ℝ)}
    (hread : readCoords inputs = some points) (hleft : inputs.isLeft = 1) :
    Shown false ((FloraState.start.netFrame rightImageConfig boneFrame).liftSolved
      rightImageConfig.flora .left (boneOutputs inputs)) := by
  obtain ⟨c, hc, hpoints⟩ := res3d_boneOutputs hread hleft
  have hroot : (boneOutputs inputs).res3d.getD 0 0 = 0 := by
    have h0 := hpoints 0
    have hjoint : validJointIndex 0 = 0 := rfl
    rwa [hjoint, sub_self, mulVec_zero, smul_zero] at h0
  have hmiddle : 0 < (boneOutputs inputs).res3d.getD 9 0 2 := by
    have h9 : (boneOutputs inputs).res3d.getD 9 0 = _ := hpoints 9
    have hjoint : validJointIndex 9 = 11 := rfl
    have hz : (flipX *ᵥ (nimbleTemplateJoints 11 - nimbleTemplateJoints 0) : Vec3 ℝ) 2 =
        -23.0879 - -102.1520 := by
      simp [flipX, mulVec, dotProduct, Fin.sum_univ_three, nimbleTemplateJoints]
    rw [h9, hjoint, Pi.smul_apply, hz, smul_eq_mul]
    exact mul_pos hc (by norm_num)
  refine ⟨?_, .inr (.inl ⟨?_, .inr ?_⟩)⟩
  · show (convertTo26Points Landmark.realEigen (boneOutputs inputs).res3d true).getD 0 0 2 ≤ 1
    rw [convertTo26Points_root]
    exact outerRoot_near hroot hmiddle
  · show (7 / 10 : ℝ) ≤ 1 - 0
    norm_num
  · show (3 / 4 : ℝ) < 1 - 0
    norm_num

/-- The left hand is published. -/
theorem step_boneFrame : ∃ s' out,
    FloraState.start.step rightImageConfig [.kpt3dMono, .kpt3dBino] (.frame boneFrame) =
        some (s', [out]) ∧
      out.valid .left = true ∧ (out.hand .left).source = .bino := by
  obtain ⟨inputs, points, hread, hleft, houtputs⟩ := liftOutputs_boneFrame
  obtain ⟨s', out, hstep, -, hvalid, hhand⟩ := FloraState.step_frame rightImageConfig
    [.kpt3dMono, .kpt3dBino] boneFrame (s := FloraState.start) (Calculator.inv_init .flora 0)
  have hfound : Found rightImageConfig.flora
      (FloraState.start.netFrame rightImageConfig boneFrame) .left _ := .inr ⟨_, houtputs, rfl⟩
  have hall : ∀ t, t ∈ [Kpt3dStream.kpt3dMono, .kpt3dBino] := fun t => by cases t <;> decide
  obtain ⟨hpasses, hdata⟩ := FloraState.blocked_of_found hall hfound
  have hout : out.valid .left = true := by
    rw [hvalid]
    exact hpasses.mpr (shown_boneFrame hread hleft)
  obtain ⟨v, hpublished⟩ := hhand .left hout
  refine ⟨s', out, hstep, hout, ?_⟩
  rw [hpublished]
  show ((FloraState.start.blocked rightImageConfig _ boneFrame).2.hand .left).source = .bino
  rw [hdata]
  exact liftSolved_source _

/-- The world is the left camera. -/
theorem rigidWorld_boneFrame : RigidWorld .init ⟨⟨0, 0, 0, 1⟩, 0⟩ boneFrame.toWorld where
  points points := by
    have hhead : Calibration.glWTglH (⟨⟨0, 0, 0, 1⟩, 0⟩ : Calibration.NRTransform ℝ) = 1 := by
      refine Isometry3.ext ?_ (add_zero _)
      show (1 : Matrix3 ℝ) * HandPose.Quat.toRotationMatrix ⟨0, 0, 0, 1⟩ = 1
      rw [Matrix.one_mul]
      ext i j
      fin_cases i <;> fin_cases j <;> simp [Quat.toRotationMatrix, quaternionMatrix]
    show points.map id = ((points.map (1 : Isometry3 ℝ).apply).map (1 : Isometry3 ℝ).apply).map
      (Calibration.glWTglH ⟨⟨0, 0, 0, 1⟩, 0⟩).apply
    have hidle : (1 : Isometry3 ℝ).apply = id := funext Isometry3.one_apply
    rw [hhead, hidle, List.map_id, List.map_id, List.map_id]
  leftCam := by
    show (1 : Matrix3 ℝ)ᵀ * 1 = 1
    rw [transpose_one, Matrix.one_mul]
  head := by
    show (1 : Matrix3 ℝ)ᵀ * 1 = 1
    rw [transpose_one, Matrix.one_mul]
  pose := by simp [Quat.squaredNorm]

theorem flora_bones_boneFrame : ∃ s' out,
    FloraState.start.step rightImageConfig [.kpt3dMono, .kpt3dBino] (.frame boneFrame) =
        some (s', [out]) ∧ ∃ scale, (1 : ℝ) ≤ scale ∧ scale ≤ 1 ∧
      ∀ (joint : Fin 24) (i j : Fin 26), Stays i → Stays j →
        validJointIndex i = joint.succ → validJointIndex j = kintree.parent joint →
        distance realFns ((out.hand .left).kpt3d.getD i 0) ((out.hand .left).kpt3d.getD j 0) =
          besideConfig.baselineScale / standardBaseline *
            (scale * distance realFns (nimbleTemplateJoints joint.succ)
              (nimbleTemplateJoints (kintree.parent joint)) / 1000) := by
  obtain ⟨s', out, hstep, hout, hbino⟩ := step_boneFrame
  exact ⟨s', out, hstep, FloraState.flora_bones realFns .refl hstep hout hbino
    rigidWorld_boneFrame liftedBy_boneFrame undistorted_beside⟩

end Beside

end Calculator

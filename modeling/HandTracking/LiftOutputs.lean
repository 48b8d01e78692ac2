/-
What `GMLPLiftNet3` returns for the depths of its network.

The keypoints are turned into the standard position of the stereo pair and divided by their
depth; the depths of the network bring them back to points, which are turned back, each camera
by the transpose of its rotation.  The product of this last turn is written over the point,
coefficient by coefficient.

* `gmlpLiftNet3Inference` — `Inference`, with the depths of the network;
* `turnBackError` — what this last turn gets wrong, from the entries of the rotation;
* `gmlpLiftNet3Inference_eq` — the points that exact depths give;
* `gmlpLiftNet3_exact_iff` — the pairs of cameras for which these are always the points that were
  seen.
-/
import HandTracking.LiftInputs
import HandTracking.StereoRectification

namespace Lift

open Camera Calculator HandPose Matrix

section

variable {K : Type} [Field K]

/-- What turning and turning back adds to a vector.  The transpose of the matrix may not undo it,
and the second and third coefficients are computed from coefficients that are turned back already,
which the first factors of the products tell. -/
def turnBackError (A : Matrix3 K) : Matrix3 K :=
  let back := Aᵀ * A
  let first := back 1 + A 0 1 • (back 0 - A 0)
  let second := back 2 + A 0 2 • (back 0 - A 0) + A 1 2 • (first - A 1)
  Matrix.of ![back 0, first, second] - 1

theorem turnBackError_one : turnBackError (1 : Matrix3 K) = 0 := by
  rw [turnBackError, transpose_one, Matrix.one_mul]
  ext i j
  fin_cases i <;> simp

theorem mulVecInPlace_transpose (A : Matrix3 K) (p : Vec3 K) :
    mulVecInPlace false Aᵀ (A *ᵥ p) = p + turnBackError A *ᵥ p := by
  have hback : ∀ i, (Aᵀ *ᵥ (A *ᵥ p)) i = (Aᵀ * A) i ⬝ᵥ p := by
    intro i
    rw [mulVec_mulVec]
    rfl
  have hturned : ∀ i, (A *ᵥ p) i = A i ⬝ᵥ p := fun _ => rfl
  have hfirst : mulVecInPlace false Aᵀ (A *ᵥ p) 1 =
      ((Aᵀ * A) 1 + A 0 1 • ((Aᵀ * A) 0 - A 0)) ⬝ᵥ p := by
    rw [mulVecInPlace_first, if_neg Bool.false_ne_true, hback, hback, hturned, add_dotProduct,
      smul_dotProduct, sub_dotProduct]
    rfl
  rw [turnBackError, sub_mulVec, one_mulVec, add_sub_cancel]
  funext i
  fin_cases i
  · exact hback 0
  · exact hfirst
  · refine (mulVecInPlace_second false Aᵀ (A *ᵥ p)).trans ?_
    rw [hfirst, hback, hback, hturned, hturned, ← sub_dotProduct, ← sub_dotProduct]
    show _ = (_ + A 0 2 • _ + A 1 2 • _) ⬝ᵥ p
    rw [add_dotProduct, add_dotProduct, smul_dotProduct, smul_dotProduct]
    rfl

variable [LinearOrder K]

/-- `SetCameraInfo` -/
noncomputable def setCameraInfo (E : Eigen K) (packet : Bool) (config : LiftNetConfig K) :
    LiftNetConfig K :=
  let r := getRotationsForStandardStereo E packet (config.camera .rcam).cameraToWorldXf
  { config with rot := byCam r.leftR r.rightR }

/-- `baseline_` -/
noncomputable def baseline (E : Eigen K) (packet : Bool) (config : LiftNetConfig K) : K :=
  (getRotationsForStandardStereo E packet (config.camera .rcam).cameraToWorldXf).baseline

/-- `GMLPLiftNet3::PostProcess`: `x` and `y` are what the points of the tensor have left in the
members, and `depth` is the output of the network.  A product of a transposed matrix with a vector
is evaluated coefficient by coefficient in every build. -/
def gmlpLiftNet3PostProcess (config : LiftNetConfig K) (baseline : K)
    (points : StereoPoints (Vec3 K)) (depth : StereoPoints K) : Fin kAlgoKeypointNum → Vec3 K :=
  fun i =>
    let leftDepth := depth .lcam i * baseline
    let rightDepth := depth .rcam i * baseline
    let leftcamXYZ := ![leftDepth * points .lcam i 0, leftDepth * points .lcam i 1, leftDepth]
    let rightcamXYZ := ![rightDepth * points .rcam i 0, rightDepth * points .rcam i 1, rightDepth]
    let leftcamXYZ := mulVecInPlace false (config.rot .lcam)ᵀ leftcamXYZ
    let rightcamXYZ := mulVecInPlace false (config.rot .rcam)ᵀ rightcamXYZ
    let rightcamToLeftXYZ := (config.camera .rcam).cameraToWorldXf.apply rightcamXYZ
    (1 / 2 : K) • leftcamXYZ + (1 - 1 / 2 : K) • rightcamToLeftXYZ

/-- `Inference`, where every access is in range. -/
def gmlpLiftNet3Inference (config : LiftNetConfig K) (baseline : K)
    (net : List (Option K) → Option (StereoPoints K)) (inputs : LiftNetInputs K) :
    Option (Fin kAlgoKeypointNum → Vec3 K) :=
  match LiftNet.gmlpLiftNet3.preProcess config inputs with
  | .filled start feat => (net feat).map fun depth =>
      gmlpLiftNet3PostProcess config baseline (transferToStandardStereoInput config start) depth
  | _ => none

/-! ### Exact depths -/

/-- A point in the frames of the two cameras. -/
def inCamera (config : LiftNetConfig K) (p : Vec3 K) : Cam → Vec3 K
  | .lcam => p
  | .rcam => (config.camera .rcam).cameraToWorldXf.inverse.apply p

/-- A direction in the frames of the two cameras. -/
def directionIn (config : LiftNetConfig K) (q : Vec3 K) : Cam → Vec3 K
  | .lcam => q
  | .rcam => (config.camera .rcam).cameraToWorldXf.linearᵀ *ᵥ q

/-- The pixels of points without the distortion. -/
def undistortedPixels (config : LiftNetConfig K) (points : Fin kAlgoKeypointNum → Vec3 K)
    (c : Cam) : List (Vec2 K) :=
  List.ofFn fun i => (config.camera c).cameraIntrinsics.denormalize
    (project (inCamera config (points i) c))

/-- The depths in the standard position, in units of the baseline. -/
def rectifiedDepths (config : LiftNetConfig K) (baseline : K)
    (points : Fin kAlgoKeypointNum → Vec3 K) : StereoPoints K :=
  fun c i => (config.rot c *ᵥ inCamera config (points i) c) 2 / baseline

/-- A point in front of both cameras in standard position, with an image in both. -/
structure InFront (config : LiftNetConfig K) (p : Vec3 K) : Prop where
  depth : ∀ c, inCamera config p c 2 ≠ 0
  front : ∀ c, 0 < (config.rot c *ᵥ inCamera config p c) 2

/-- Two cameras of pixels, apart from each other. -/
structure StereoPair (config : LiftNetConfig K) : Prop where
  rigid : (config.camera .rcam).cameraToWorldXf.IsRigid
  baseline : (config.camera .rcam).cameraToWorldXf.translation ≠ 0
  focal : ∀ c, (config.camera c).cameraIntrinsics.fx ≠ 0 ∧
    (config.camera c).cameraIntrinsics.fy ≠ 0

/-- The points are in front of both cameras in standard position, the network is fed their
undistorted pixels, and it puts out their exact depths in units of the baseline `b`. -/
structure SeesExactly (config : LiftNetConfig K) (b : K) (points : Fin kAlgoKeypointNum → Vec3 K)
    (inputs : LiftNetInputs K) (net : List (Option K) → Option (StereoPoints K)) : Prop where
  front : ∀ i, InFront config (points i)
  pixels : ∀ c, inputs.inputKpt c = undistortedPixels config points c
  net : ∀ start feat, LiftNet.gmlpLiftNet3.preProcess config inputs = .filled start feat →
    net feat = some (rectifiedDepths config b points)

/-- What the two turns add to a point, in the frame of the left camera. -/
def stereoError (config : LiftNetConfig K) (p : Vec3 K) : Vec3 K :=
  turnBackError (config.rot .lcam) *ᵥ p + (config.camera .rcam).cameraToWorldXf.linear *ᵥ
    (turnBackError (config.rot .rcam) *ᵥ inCamera config p .rcam)

/-- The errors of the two rotations cancel, and that of the right one leaves the baseline, which is
taken in the frame of the right camera, alone. -/
structure TurnsBack (config : LiftNetConfig K) : Prop where
  cancel : turnBackError (config.rot .lcam) + (config.camera .rcam).cameraToWorldXf.linear *
    turnBackError (config.rot .rcam) * (config.camera .rcam).cameraToWorldXf.linearᵀ = 0
  baseline : turnBackError (config.rot .rcam) *ᵥ ((config.camera .rcam).cameraToWorldXf.linearᵀ *ᵥ
    (config.camera .rcam).cameraToWorldXf.translation) = 0

section Exact

variable {config : LiftNetConfig K} {b : K} {p : Vec3 K}
  {points : Fin kAlgoKeypointNum → Vec3 K} {inputs : LiftNetInputs K}
  {net : List (Option K) → Option (StereoPoints K)}

theorem preProcess_undistortedPixels (hpair : StereoPair config)
    (hpixels : ∀ c, inputs.inputKpt c = undistortedPixels config points c) :
    ∃ feat, LiftNet.gmlpLiftNet3.preProcess config inputs =
      .filled (fun c i => homogeneous (project (inCamera config (points i) c))) feat := by
  have hread : readInputKpt config inputs =
      some fun c i => homogeneous (project (inCamera config (points i) c)) := by
    have hnormalize : ∀ c, readAll (inputs.inputKpt c) = some fun i =>
        (config.camera c).cameraIntrinsics.denormalize
          (project (inCamera config (points i) c)) := by
      intro c
      rw [hpixels c, undistortedPixels, readAll_ofFn]
    rw [readInputKpt, readBoth, hnormalize, hnormalize, Option.map_some]
    congr 1
    funext c i
    have hfocal := hpair.focal c
    cases c with
    | lcam =>
      exact congrArg homogeneous (CameraIntrinsics.normalize_denormalize _ hfocal.1 hfocal.2 _)
    | rcam =>
      exact congrArg homogeneous (CameraIntrinsics.normalize_denormalize _ hfocal.1 hfocal.2 _)
  unfold LiftNet.preProcess
  simp only [hread]
  exact ⟨_, rfl⟩

/-- The depths bring back the points of the standard position. -/
theorem depth_mul_transfer (hb : b ≠ 0) (hp : ∀ i, InFront config (points i)) (c : Cam)
    (i : Fin kAlgoKeypointNum) :
    let x := transferToStandardStereoInput config
      (fun c i => homogeneous (project (inCamera config (points i) c))) c i
    let depth := rectifiedDepths config b points c i * b
    ![depth * x 0, depth * x 1, depth] = config.rot c *ᵥ inCamera config (points i) c := by
  intro x depth
  have hpoint := (hp i).depth c
  have hray : homogeneous (project (inCamera config (points i) c)) =
      (inCamera config (points i) c 2)⁻¹ • inCamera config (points i) c := by
    funext k
    fin_cases k
    · exact div_eq_inv_mul _ _
    · exact div_eq_inv_mul _ _
    · exact (inv_mul_cancel₀ hpoint).symm
  -- a turned ray, divided by its depth
  have hx : ∀ k, x k = (config.rot c *ᵥ inCamera config (points i) c) k /
      (config.rot c *ᵥ inCamera config (points i) c) 2 := by
    intro k
    have hturned : config.rot c *ᵥ homogeneous (project (inCamera config (points i) c)) =
        (inCamera config (points i) c 2)⁻¹ • (config.rot c *ᵥ inCamera config (points i) c) := by
      rw [hray, mulVec_smul]
    have hcoeff : x k = (config.rot c *ᵥ homogeneous (project (inCamera config (points i) c))) k /
        (config.rot c *ᵥ homogeneous (project (inCamera config (points i) c))) 2 := by
      fin_cases k <;> rfl
    rw [hcoeff, hturned]
    exact mul_div_mul_left _ _ (inv_ne_zero hpoint)
  have hfront := ((hp i).front c).ne'
  have hdepth : depth = (config.rot c *ᵥ inCamera config (points i) c) 2 :=
    div_mul_cancel₀ _ hb
  rw [hdepth, hx, hx]
  funext k
  fin_cases k
  · exact mul_div_cancel₀ _ hfront
  · exact mul_div_cancel₀ _ hfront
  · rfl

section Ordered

variable [IsStrictOrderedRing K]

/-- What exact depths give. -/
theorem postProcess_rectifiedDepths (hpair : StereoPair config) (hb : b ≠ 0)
    (hp : ∀ i, InFront config (points i)) (i : Fin kAlgoKeypointNum) :
    gmlpLiftNet3PostProcess config b
        (transferToStandardStereoInput config
          fun c i => homogeneous (project (inCamera config (points i) c)))
        (rectifiedDepths config b points) i =
      points i + (1 / 2 : K) • stereoError config (points i) := by
  have hleft := depth_mul_transfer hb hp .lcam i
  have hright := depth_mul_transfer hb hp .rcam i
  have hback : (config.camera .rcam).cameraToWorldXf.apply (inCamera config (points i) .rcam) =
      points i := by
    have hinverse := congrArg (fun S : Isometry3 K => S.apply (points i))
      hpair.rigid.mul_inverse_cancel
    simpa [Isometry3.apply, mulVec_add, mulVec_mulVec, add_assoc, inCamera] using hinverse
  have hadd : ∀ p q : Vec3 K, (config.camera .rcam).cameraToWorldXf.apply (p + q) =
      (config.camera .rcam).cameraToWorldXf.apply p +
        (config.camera .rcam).cameraToWorldXf.linear *ᵥ q := by
    intro p q
    rw [Isometry3.apply, Isometry3.apply, mulVec_add]
    abel
  have hhalf : (1 - 1 / 2 : K) = 1 / 2 := by norm_num
  have hwhole : (1 / 2 : K) + 1 / 2 = 1 := by norm_num
  rw [gmlpLiftNet3PostProcess]
  simp only at hleft hright ⊢
  rw [hleft, hright, mulVecInPlace_transpose, mulVecInPlace_transpose, hadd, hback, stereoError,
    hhalf, smul_add, smul_add, smul_add]
  have hmean : (1 / 2 : K) • inCamera config (points i) .lcam + (1 / 2 : K) • points i =
      points i := by
    show (1 / 2 : K) • points i + (1 / 2 : K) • points i = points i
    rw [← add_smul, hwhole, one_smul]
  rw [add_add_add_comm, hmean]
  rfl

/-- The network's exact depths give the points, each with half the errors. -/
theorem gmlpLiftNet3Inference_eq (hpair : StereoPair config) (hb : b ≠ 0)
    (h : SeesExactly config b points inputs net) :
    gmlpLiftNet3Inference config b net inputs =
      some fun i => points i + (1 / 2 : K) • stereoError config (points i) := by
  obtain ⟨feat, hpre⟩ := preProcess_undistortedPixels hpair h.pixels
  rw [gmlpLiftNet3Inference, hpre]
  simp only
  rw [h.net _ _ hpre, Option.map_some, Option.some_inj]
  funext i
  exact postProcess_rectifiedDepths hpair hb h.front i

/-- They are the points that were seen if the errors cancel in each of them. -/
theorem gmlpLiftNet3Inference_eq_iff (hpair : StereoPair config) (hb : b ≠ 0)
    (h : SeesExactly config b points inputs net) :
    gmlpLiftNet3Inference config b net inputs = some points ↔
      ∀ i, stereoError config (points i) = 0 := by
  have hhalf : (1 / 2 : K) ≠ 0 := by norm_num
  rw [gmlpLiftNet3Inference_eq hpair hb h, Option.some_inj, funext_iff]
  apply forall_congr'
  intro i
  rw [add_eq_left, smul_eq_zero]
  exact or_iff_right hhalf

/-! ### All points -/

omit [LinearOrder K] [IsStrictOrderedRing K] in
theorem inCamera_add (q : Vec3 K) (r : K) (c : Cam) :
    inCamera config (p + r • q) c = inCamera config p c + r • directionIn config q c := by
  cases c with
  | lcam => rfl
  | rcam =>
    rw [inCamera, inCamera, Isometry3.apply, Isometry3.apply, mulVec_add, mulVec_smul]
    exact add_right_comm _ _ _

/-- Numbers that are not 0 stay so when they are moved by little. -/
theorem exists_small {ι : Type} [Finite ι] {a : ι → K} (ha : ∀ i, a i ≠ 0) (d : ι → K) :
    ∃ s, 0 < s ∧ ∀ i, |s * d i| < |a i| := by
  by_cases hι : Nonempty ι
  · obtain ⟨i₀, hmin⟩ := Finite.exists_min fun i => |a i| / (|d i| + 1)
    have hpos : ∀ i, 0 < |d i| + 1 := fun i => by positivity
    have hs : 0 < |a i₀| / (|d i₀| + 1) := div_pos (abs_pos.mpr (ha i₀)) (hpos i₀)
    refine ⟨_, hs, fun i => ?_⟩
    rw [abs_mul, abs_of_pos hs]
    calc |a i₀| / (|d i₀| + 1) * |d i| ≤ |a i| / (|d i| + 1) * |d i| :=
          mul_le_mul_of_nonneg_right (hmin i) (abs_nonneg _)
      _ < |a i| / (|d i| + 1) * (|d i| + 1) :=
          mul_lt_mul_of_pos_left (lt_add_one _) (div_pos (abs_pos.mpr (ha i)) (hpos i))
      _ = |a i| := div_mul_cancel₀ _ (hpos i).ne'
  · exact ⟨1, one_pos, fun i => absurd ⟨i⟩ hι⟩

instance : Finite Cam := Finite.of_surjective (fun b => if b then Cam.lcam else .rcam) fun
  | .lcam => ⟨true, rfl⟩
  | .rcam => ⟨false, rfl⟩

/-- A point next to a point in front of the cameras, in any direction. -/
theorem InFront.exists_add (hp : InFront config p) (q : Vec3 K) :
    ∃ s : K, s ≠ 0 ∧ InFront config (p + s • q) := by
  obtain ⟨s, hs, hsmall⟩ := exists_small
    (a := fun i : Cam × Bool => if i.2 then inCamera config p i.1 2
      else (config.rot i.1 *ᵥ inCamera config p i.1) 2)
    (by
      rintro ⟨c, side⟩
      cases side with
      | true => exact hp.depth c
      | false => exact (hp.front c).ne')
    fun i => if i.2 then directionIn config q i.1 2
      else (config.rot i.1 *ᵥ directionIn config q i.1) 2
  refine ⟨s, hs.ne', ⟨fun c hzero => ?_, fun c => ?_⟩⟩
  · have hc : |s * directionIn config q c 2| < |inCamera config p c 2| := hsmall (c, true)
    have hsum : inCamera config p c 2 + s * directionIn config q c 2 = 0 := by
      rwa [inCamera_add] at hzero
    rw [eq_neg_of_add_eq_zero_left hsum, abs_neg] at hc
    exact lt_irrefl _ hc
  · have hc : |s * (config.rot c *ᵥ directionIn config q c) 2| <
        |(config.rot c *ᵥ inCamera config p c) 2| := hsmall (c, false)
    rw [abs_of_pos (hp.front c)] at hc
    have hge := (abs_lt.mp hc).1
    rw [inCamera_add, mulVec_add, mulVec_smul, Pi.add_apply, Pi.smul_apply, smul_eq_mul]
    linarith

omit [LinearOrder K] [IsStrictOrderedRing K] in
/-- The errors depend on the point by a matrix and a constant. -/
theorem stereoError_eq (config : LiftNetConfig K) (p : Vec3 K) : stereoError config p =
    (turnBackError (config.rot .lcam) + (config.camera .rcam).cameraToWorldXf.linear *
      turnBackError (config.rot .rcam) * (config.camera .rcam).cameraToWorldXf.linearᵀ) *ᵥ p -
      (config.camera .rcam).cameraToWorldXf.linear *ᵥ (turnBackError (config.rot .rcam) *ᵥ
        ((config.camera .rcam).cameraToWorldXf.linearᵀ *ᵥ
          (config.camera .rcam).cameraToWorldXf.translation)) := by
  rw [stereoError, inCamera, Isometry3.apply, Isometry3.inverse_linear,
    Isometry3.inverse_translation, mulVec_add, mulVec_add, mulVec_neg, mulVec_neg, add_mulVec,
    ← mulVec_mulVec, ← mulVec_mulVec]
  abel

omit [LinearOrder K] [IsStrictOrderedRing K] in
theorem TurnsBack.stereoError_eq_zero (h : TurnsBack config) (p : Vec3 K) :
    stereoError config p = 0 := by
  rw [stereoError_eq, h.cancel, h.baseline, zero_mulVec, mulVec_zero, sub_zero]

/-- Errors that vanish for all points in front of the cameras vanish in every direction. -/
theorem turnsBack_of_stereoError (hpair : StereoPair config) (hp : InFront config p)
    (hzero : ∀ p, InFront config p → stereoError config p = 0) : TurnsBack config := by
  set R := (config.camera .rcam).cameraToWorldXf.linear with hR
  set t := (config.camera .rcam).cameraToWorldXf.translation with ht
  set N := turnBackError (config.rot .lcam) + R * turnBackError (config.rot .rcam) * Rᵀ with hN
  have hform : ∀ p, InFront config p →
      N *ᵥ p - R *ᵥ (turnBackError (config.rot .rcam) *ᵥ (Rᵀ *ᵥ t)) = 0 := by
    intro p hp
    rw [← hzero p hp, stereoError_eq]
  have hcancel : N = 0 := by
    apply ext_of_mulVec_single
    intro j
    obtain ⟨s, hs, hnear⟩ := hp.exists_add (Pi.single j 1)
    have hdiff := (hform _ hnear).trans (hform p hp).symm
    rw [mulVec_add, mulVec_smul, sub_left_inj, add_eq_left, smul_eq_zero] at hdiff
    rw [hdiff.resolve_left hs, zero_mulVec]
  refine ⟨hcancel, ?_⟩
  have hbase := hform p hp
  rw [hcancel, zero_mulVec, zero_sub, neg_eq_zero] at hbase
  have hrigid : Rᵀ * R = 1 := hpair.rigid
  rw [← mulVec_transpose_mulVec hrigid (turnBackError (config.rot .rcam) *ᵥ (Rᵀ *ᵥ t)), hbase,
    mulVec_zero]

/-- What the network is fed for a point that all keypoints are at. -/
def inputsAt (config : LiftNetConfig K) (p : Vec3 K) : LiftNetInputs K where
  inputKpt := undistortedPixels config fun _ => p
  mCam _ := ⟨[], [], []⟩
  timestamp := 0
  isLeft := 0

/-- **When exact depths give exact points**: for all points that a pair of cameras sees, if it sees
none or if the errors of its rotations cancel. -/
theorem gmlpLiftNet3_exact_iff {E : Eigen K} (hE : E.Lawful) (packet : Bool)
    {config₀ : LiftNetConfig K} (hpair : StereoPair config₀) :
    let config := setCameraInfo E packet config₀
    let b := baseline E packet config₀
    (∀ points inputs net, SeesExactly config b points inputs net →
      gmlpLiftNet3Inference config b net inputs = some points) ↔
      ((∃ p, InFront config p) → TurnsBack config) := by
  intro config b
  have hpair' : StereoPair config := ⟨hpair.rigid, hpair.baseline, hpair.focal⟩
  have hb : b ≠ 0 := (hE.norm_pos hpair.baseline).ne'
  constructor
  · rintro hexact ⟨p, hp⟩
    refine turnsBack_of_stereoError hpair' hp fun q hq => ?_
    have hsees : SeesExactly config b (fun _ => q) (inputsAt config q)
        fun _ => some (rectifiedDepths config b fun _ => q) :=
      ⟨fun _ => hq, fun _ => rfl, fun _ _ _ => rfl⟩
    exact (gmlpLiftNet3Inference_eq_iff hpair' hb hsees).mp (hexact _ _ _ hsees) ⟨0, by decide⟩
  · intro hback points inputs net hsees
    rw [gmlpLiftNet3Inference_eq_iff hpair' hb hsees]
    exact fun i => (hback ⟨points i, hsees.front i⟩).stereoError_eq_zero (points i)

end Ordered

end Exact

end

/-! ### A camera behind the other -/

section Behind

/-- The right camera stands at distance 1 on the z axis of the left one. -/
noncomputable def behindConfig : LiftNetConfig ℝ where
  camera c :=
    { cameraIntrinsics := ⟨1, 1, 0, 0⟩
      distortionModel := .noDistortion
      cameraToWorldXf := ⟨1, if c = .rcam then ![0, 0, 1] else 0⟩
      cameraType := .pinhole
      videoWidth := 640
      videoHeight := 480 }
  rot _ := 1
  batch := 1
  multishapeNum := 1
  packedByBatch := true

/-- A quarter turn about the y axis, from the x axis to the z axis. -/
def turnToZ : Matrix3 ℝ := !![0, 0, -1; 0, 1, 0; 1, 0, 0]

theorem isRotation_turnToZ : IsRotation turnToZ where
  orthogonal := by
    ext i j
    fin_cases i <;> fin_cases j <;> simp [turnToZ, mul_apply, Fin.sum_univ_three]
  det_eq_one := by simp [turnToZ, det_fin_three]

theorem fromTwoVectors_xAxis_zAxis :
    geometricEigen.fromTwoVectors ![1, 0, 0] ![0, 0, 1] = turnToZ := by
  have hopposite : ¬ SameRay ℝ (![1, 0, 0] : Vec3 ℝ) (-![0, 0, 1]) :=
    not_opposite_of_pos (d := ![1, 0, 1]) (by simp) (by simp)
  refine (lawful_geometricEigen.isTurn_fromTwoVectors _ _ hopposite).unique hopposite
    ⟨isRotation_turnToZ, ?_, ?_⟩
  · have hturned : turnToZ *ᵥ ![1, 0, 0] = ![0, 0, 1] := by
      funext i
      fin_cases i <;> simp [turnToZ, mulVec, dotProduct, Fin.sum_univ_three]
    rw [hturned]
    exact SameRay.refl _
  · intro n hx hz
    have h0 : n 0 = 0 := by simpa [dotProduct, Fin.sum_univ_three] using hx
    have h2 : n 2 = 0 := by simpa [dotProduct, Fin.sum_univ_three] using hz
    funext i
    fin_cases i <;> simp [turnToZ, mulVec, dotProduct, Fin.sum_univ_three, h0, h2]

theorem rot_behindConfig (packet : Bool) (c : Cam) :
    (setCameraInfo geometricEigen packet behindConfig).rot c = turnToZᵀ := by
  let T : Isometry3 ℝ := ⟨1, ![0, 0, 1]⟩
  have hleft : rLeft geometricEigen T = turnToZ := fromTwoVectors_xAxis_zAxis
  have hright : rRight geometricEigen T = turnToZ := by
    rw [rRight, one_mulVec]
    exact fromTwoVectors_xAxis_zAxis
  have hz : leftCamZ geometricEigen T = rightCamZ geometricEigen T := by
    rw [leftCamZ, rightCamZ, hleft, hright]
    exact congrArg (· *ᵥ ![0, 0, 1]) (Matrix.mul_one turnToZ).symm
  have hne : leftCamZ geometricEigen T ≠ 0 := by
    rw [leftCamZ, hleft]
    exact isRotation_turnToZ.mulVec_ne_zero fun hzero => one_ne_zero (congrFun hzero 2)
  have hidle : rRightZ geometricEigen T = 1 := by
    rw [rRightZ, ← hz]
    exact lawful_geometricEigen.fromTwoVectors_of_sameRay (SameRay.refl _) hne hne
  have hwritten : mulInPlace packet 1 (turnToZ * 1) = turnToZ := by
    rw [mulInPlace_eq, (mulInPlace_one_eq_iff .one ?_).mpr (.inl rfl), Matrix.one_mul,
      Matrix.mul_one]
    intro v hv hneg
    rw [one_mulVec] at hneg
    exact hv (self_eq_neg.mp hneg)
  cases c with
  | lcam =>
    show (getRotationsForStandardStereo geometricEigen packet T).leftR = turnToZᵀ
    rw [leftR_eq, hleft, isRotation_turnToZ.inv_eq]
  | rcam =>
    show (getRotationsForStandardStereo geometricEigen packet T).rightR = turnToZᵀ
    rw [rightR_eq, hright, hidle]
    show (mulInPlace packet 1 (turnToZ * 1))⁻¹ * 1 = turnToZᵀ
    rw [hwritten, Matrix.mul_one, isRotation_turnToZ.inv_eq]

/-- A point in front of both cameras. -/
def behindPoint : Vec3 ℝ := ![-1, 0, 2]

theorem inCamera_behind (packet : Bool) (c : Cam) :
    inCamera (setCameraInfo geometricEigen packet behindConfig) behindPoint c =
      match c with
      | .lcam => ![-1, 0, 2]
      | .rcam => ![-1, 0, 1] := by
  cases c with
  | lcam => rfl
  | rcam =>
    show (1 : Matrix3 ℝ)ᵀ *ᵥ ![-1, 0, 2] + -((1 : Matrix3 ℝ)ᵀ *ᵥ ![0, 0, 1]) = ![-1, 0, 1]
    rw [transpose_one, one_mulVec, one_mulVec]
    funext k
    fin_cases k <;> norm_num

theorem inFront_behind (packet : Bool) :
    InFront (setCameraInfo geometricEigen packet behindConfig) behindPoint where
  depth c := by
    rw [inCamera_behind]
    cases c <;> simp
  front c := by
    rw [rot_behindConfig, inCamera_behind]
    cases c <;> simp [turnToZ, mulVec, dotProduct, Fin.sum_univ_three]

theorem stereoPair_behind : StereoPair behindConfig where
  rigid := by
    show (1 : Matrix3 ℝ)ᵀ * 1 = 1
    rw [transpose_one, Matrix.one_mul]
  baseline hzero := one_ne_zero (congrFun hzero 2)
  focal _ := ⟨one_ne_zero, one_ne_zero⟩

theorem gmlpLiftNet3_exact_iff_behind :
    let config := setCameraInfo geometricEigen true behindConfig
    let b := baseline geometricEigen true behindConfig
    (∀ points inputs net, SeesExactly config b points inputs net →
      gmlpLiftNet3Inference config b net inputs = some points) ↔
      ((∃ p, InFront config p) → TurnsBack config) :=
  gmlpLiftNet3_exact_iff lawful_geometricEigen true stereoPair_behind

/-- The third coefficient is computed from the first one after its turn. -/
theorem turnBackError_turnToZ :
    turnBackError turnToZᵀ = !![0, 0, 0; 0, 0, 0; 1, 0, -1] := by
  rw [turnBackError, isRotation_turnToZ.transpose.orthogonal]
  ext i j
  fin_cases i <;> fin_cases j <;> simp [turnToZ]

/-- The points of the camera behind do not come back, however the rotations are computed. -/
theorem exact_depths_move_points :
    ¬ ∃ packet, ∀ (config₀ : LiftNetConfig ℝ) (points : Fin kAlgoKeypointNum → Vec3 ℝ)
      (inputs : LiftNetInputs ℝ) (net : List (Option ℝ) → Option (StereoPoints ℝ)),
      let config := setCameraInfo geometricEigen packet config₀
      let b := baseline geometricEigen packet config₀
      StereoPair config₀ → SeesExactly config b points inputs net →
      gmlpLiftNet3Inference config b net inputs = some points := by
  rintro ⟨packet, hexact⟩
  set config := setCameraInfo geometricEigen packet behindConfig with hconfig
  set b := baseline geometricEigen packet behindConfig with hbaseline
  have hsees : SeesExactly config b (fun _ => behindPoint) (inputsAt config behindPoint)
      fun _ => some (rectifiedDepths config b fun _ => behindPoint) :=
    ⟨fun _ => inFront_behind packet, fun _ => rfl, fun _ _ _ => rfl⟩
  have hpair : StereoPair config := ⟨stereoPair_behind.rigid, stereoPair_behind.baseline,
    stereoPair_behind.focal⟩
  have hb : b ≠ 0 := (lawful_geometricEigen.norm_pos stereoPair_behind.baseline).ne'
  have hpoints := (gmlpLiftNet3Inference_eq_iff hpair hb hsees).mp
    (hexact _ _ _ _ stereoPair_behind hsees) ⟨0, by decide⟩
  have hz := congrFun hpoints 2
  have hlinear : ((setCameraInfo geometricEigen packet behindConfig).camera
      .rcam).cameraToWorldXf.linear = 1 := rfl
  rw [stereoError, hconfig, rot_behindConfig, rot_behindConfig, inCamera_behind, hlinear,
    one_mulVec, turnBackError_turnToZ] at hz
  simp [behindPoint] at hz
  norm_num at hz

end Behind

end Lift

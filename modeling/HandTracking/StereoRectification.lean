/-
The rotations that bring a stereo pair into standard position, `get_rotations_for_standard_stereo`.

Both cameras are turned to look across the baseline, and the right one then about the baseline,
so that its z axis is that of the left one.  This last turn is written over the matrix that it
is multiplied with.

* `getRotationsForStandardStereo` — the two rotations and the baseline;
* `Aligned` — a point has the same y and z in both cameras, and its x differs by the baseline;
* `aligned_iff` — when the pair is aligned.
-/
import HandTracking.EigenLaws
import HandTracking.Library.InPlace

namespace Lift

open HandPose Matrix

section

variable {K : Type} [Field K]

/-- The inverse of a matrix of four rows, the last of them `0 0 0 1`. -/
noncomputable def affineInverse (T : Isometry3 K) : Isometry3 K :=
  ⟨T.linear⁻¹, -(T.linear⁻¹ *ᵥ T.translation)⟩

/-- `StereoRotations`: the rotations of both cameras, and the baseline. -/
structure StereoRotations (K : Type) where
  leftR : Matrix3 K
  rightR : Matrix3 K
  baseline : K

/-- The turn about the baseline is assigned with `noalias` to the matrix that it multiplies;
`packet` says whether the first two coefficients of a column are written at once. -/
noncomputable def getRotationsForStandardStereo (E : Eigen K) (packet : Bool) (T : Isometry3 K) :
    StereoRotations K :=
  let leftT : Isometry3 K := 1
  let rightT := T
  let baselineVec := T.translation
  let leftX : Vec3 K := ![1, 0, 0]
  let rLeft := E.fromTwoVectors leftX baselineVec
  let virtualLeftT : Isometry3 K := ⟨rLeft * leftT.linear, leftT.translation⟩
  let rightX := rightT.linear *ᵥ leftX + rightT.translation - baselineVec
  let rRight := E.fromTwoVectors rightX baselineVec
  let virtualRightT : Isometry3 K := ⟨rRight * rightT.linear, rightT.translation⟩
  let leftZ : Vec3 K := ![0, 0, 1]
  let leftCamZ := virtualLeftT.linear *ᵥ leftZ + virtualLeftT.translation
  let rightCamZ := virtualRightT.linear *ᵥ leftZ + virtualRightT.translation - baselineVec
  let rRightZ := E.fromTwoVectors rightCamZ leftCamZ
  let virtualRightT : Isometry3 K :=
    ⟨mulInPlace packet rRightZ virtualRightT.linear, virtualRightT.translation⟩
  { leftR := (affineInverse virtualLeftT * leftT).linear
    rightR := (affineInverse virtualRightT * rightT).linear
    baseline := E.norm baselineVec }

end

section

variable {K : Type} [Field K] (E : Eigen K) (packet : Bool) (T : Isometry3 K)

/-! ### The rotations -/

/-- The rotations of the two cameras across the baseline, and the directions of their z axes
after them. -/
def rLeft : Matrix3 K := E.fromTwoVectors ![1, 0, 0] T.translation

/-- The turn of the right camera that brings its axis onto the baseline. -/
def rRight : Matrix3 K := E.fromTwoVectors (T.linear *ᵥ ![1, 0, 0]) T.translation

/-- The axis of the left camera, turned. -/
def leftCamZ : Vec3 K := rLeft E T *ᵥ ![0, 0, 1]

/-- The axis of the right camera, turned. -/
def rightCamZ : Vec3 K := (rRight E T * T.linear) *ᵥ ![0, 0, 1]

/-- The turn about the baseline. -/
def rRightZ : Matrix3 K := E.fromTwoVectors (rightCamZ E T) (leftCamZ E T)

theorem leftR_eq : (getRotationsForStandardStereo E packet T).leftR = (rLeft E T)⁻¹ := by
  show (rLeft E T * 1)⁻¹ * 1 = (rLeft E T)⁻¹
  rw [Matrix.mul_one, Matrix.mul_one]

theorem rightR_eq : (getRotationsForStandardStereo E packet T).rightR =
    (mulInPlace packet (rRightZ E T) (rRight E T * T.linear))⁻¹ * T.linear := by
  have hx : T.linear *ᵥ ![1, 0, 0] + T.translation - T.translation = T.linear *ᵥ ![1, 0, 0] :=
    add_sub_cancel_right _ _
  have hz : (rRight E T * T.linear) *ᵥ ![0, 0, 1] + T.translation - T.translation =
      rightCamZ E T := add_sub_cancel_right _ _
  have hleft : (rLeft E T * 1) *ᵥ ![0, 0, 1] + 0 = leftCamZ E T := by
    rw [Matrix.mul_one, add_zero, leftCamZ]
  rw [rRightZ, ← hz, ← hleft, rRight, ← hx]
  rfl

end

/-! ### The third turn -/

section

variable {K : Type} [Field K] [LinearOrder K] [IsStrictOrderedRing K] {E : Eigen K}
  {packet : Bool} {T : Isometry3 K}

/-- No call of `FromTwoVectors` gets a zero vector or opposite directions; so the baseline is
not 0. -/
structure StereoDefined (E : Eigen K) (T : Isometry3 K) : Prop where
  left : ¬ SameRay K ![1, 0, 0] (-T.translation)
  right : ¬ SameRay K (T.linear *ᵥ ![1, 0, 0]) (-T.translation)
  z : ¬ SameRay K (rightCamZ E T) (-leftCamZ E T)

variable (hE : E.Lawful) (hT : IsRotation T.linear) (h : StereoDefined E T)

include hE h

theorem rLeft_mulVec : rLeft E T *ᵥ ![1, 0, 0] = E.normalized T.translation := by
  have hturn := hE.isTurn_fromTwoVectors _ _ h.left
  apply hE.eq_normalized hturn.sameRay _ (right_ne_zero_of_not_opposite h.left)
  rw [dotProduct_mulVec_mulVec hturn.isRotation.orthogonal]
  simp

include hT

theorem rRight_mulVec :
    (rRight E T * T.linear) *ᵥ ![1, 0, 0] = E.normalized T.translation := by
  have hturn := hE.isTurn_fromTwoVectors _ _ h.right
  rw [← mulVec_mulVec]
  apply hE.eq_normalized hturn.sameRay _ (right_ne_zero_of_not_opposite h.left)
  rw [dotProduct_mulVec_mulVec hturn.isRotation.orthogonal,
    dotProduct_mulVec_mulVec hT.orthogonal]
  simp

theorem isRotation_rRight : IsRotation (rRight E T * T.linear) :=
  (hE.isTurn_fromTwoVectors _ _ h.right).isRotation.mul hT

omit hT in
theorem isRotation_rLeft : IsRotation (rLeft E T) :=
  (hE.isTurn_fromTwoVectors _ _ h.left).isRotation

/-- After the first rotations both cameras look across the baseline. -/
theorem camZ_orthogonal :
    T.translation ⬝ᵥ rightCamZ E T = 0 ∧ T.translation ⬝ᵥ leftCamZ E T = 0 := by
  have hne := right_ne_zero_of_not_opposite h.left
  obtain ⟨c, -, hc⟩ := (hE.sameRay_normalized hne).exists_pos_left
    (fun hzero => by simpa [hzero] using hE.dotProduct_normalized hne) hne
  constructor
  · rw [← hc, ← rRight_mulVec hE hT h, rightCamZ, smul_dotProduct,
      dotProduct_mulVec_mulVec (isRotation_rRight hE hT h).orthogonal]
    simp
  · rw [← hc, ← rLeft_mulVec hE h, leftCamZ, smul_dotProduct,
      dotProduct_mulVec_mulVec (isRotation_rLeft hE h).orthogonal]
    simp

theorem rRightZ_translation : rRightZ E T *ᵥ T.translation = T.translation := by
  obtain ⟨hright, hleft⟩ := camZ_orthogonal hE hT h
  exact (hE.isTurn_fromTwoVectors _ _ h.z).fixes _ hright hleft

omit hT in
theorem dotProduct_leftCamZ : leftCamZ E T ⬝ᵥ leftCamZ E T = 1 := by
  rw [leftCamZ, dotProduct_mulVec_mulVec (isRotation_rLeft hE h).orthogonal]
  simp

theorem dotProduct_rightCamZ : rightCamZ E T ⬝ᵥ rightCamZ E T = 1 := by
  rw [rightCamZ, dotProduct_mulVec_mulVec (isRotation_rRight hE hT h).orthogonal]
  simp

/-- The three minimal rotations combine to one frame for both cameras. -/
theorem rRightZ_mul : rRightZ E T * (rRight E T * T.linear) = rLeft E T := by
  have hz := hE.isTurn_fromTwoVectors _ _ h.z
  have hrot := hz.isRotation.mul (isRotation_rRight hE hT h)
  apply hrot.eq_of_agree (isRotation_rLeft hE h) (u := ![1, 0, 0]) (v := ![0, 0, 1])
  · rw [← mulVec_mulVec, rRight_mulVec hE hT h, rLeft_mulVec hE h, hE.normalized_eq, mulVec_smul]
    exact congrArg _ (rRightZ_translation hE hT h)
  · rw [← mulVec_mulVec]
    apply eq_of_sameRay hz.sameRay
    rw [dotProduct_mulVec_mulVec hz.isRotation.orthogonal, dotProduct_leftCamZ hE h]
    exact dotProduct_rightCamZ hE hT h
  · intro hzero
    have hy := congrFun hzero 1
    simp [cross_apply] at hy

theorem rRightZ_eq_one_iff : rRightZ E T = 1 ↔ rightCamZ E T = leftCamZ E T := by
  have hz := hE.isTurn_fromTwoVectors _ _ h.z
  constructor
  · intro hone
    have hray := hz.sameRay
    rw [← rRightZ, hone, one_mulVec] at hray
    apply eq_of_sameRay hray
    rw [dotProduct_rightCamZ hE hT h, dotProduct_leftCamZ hE h]
  · intro heq
    apply hE.fromTwoVectors_of_sameRay (heq ▸ SameRay.refl _)
    · exact left_ne_zero_of_not_opposite h.z
    · exact right_ne_zero_of_not_opposite h.z

/-- Only a baseline along the z axis is turned about without moving the axis. -/
theorem rRightZ_fixes_iff : rRightZ E T *ᵥ Pi.single 2 1 = Pi.single 2 1 ↔
    rRightZ E T = 1 ∨ T.translation 0 = 0 ∧ T.translation 1 = 0 := by
  have hz := hE.isTurn_fromTwoVectors _ _ h.z
  have htranslation := rRightZ_translation hE hT h
  constructor
  · intro hfix
    by_cases hcross : crossProduct T.translation (Pi.single 2 1) = 0
    · right
      have hx := congrFun hcross 0
      have hy := congrFun hcross 1
      simp [cross_apply] at hx hy
      exact ⟨hy, hx⟩
    · left
      apply hz.isRotation.eq_of_agree .one _ _ hcross
      · rw [one_mulVec]
        exact htranslation
      · rw [one_mulVec]
        exact hfix
  · rintro (hone | ⟨h0, h1⟩)
    · rw [hone, one_mulVec]
    · have hsingle : T.translation = T.translation 2 • (Pi.single 2 1 : Vec3 K) := by
        funext i
        fin_cases i
        · simpa using h0
        · simpa using h1
        · simp
      have hne : T.translation 2 ≠ 0 := by
        intro hzero
        apply right_ne_zero_of_not_opposite h.left
        rw [hsingle, hzero, zero_smul]
      rw [hsingle, mulVec_smul] at htranslation
      exact smul_right_injective _ hne htranslation

/-! ### When the pair is aligned -/

omit hE hT h in
/-- A point has the same y and z in both cameras, and its x differs by the baseline. -/
structure Aligned (T : Isometry3 K) (r : StereoRotations K) : Prop where
  left_orthonormal : r.leftRᵀ * r.leftR = 1
  right_orthonormal : r.rightRᵀ * r.rightR = 1
  row : ∀ p, (r.leftR *ᵥ T.apply p) 1 = (r.rightR *ᵥ p) 1
  depth : ∀ p, (r.leftR *ᵥ T.apply p) 2 = (r.rightR *ᵥ p) 2
  disparity : ∀ p, (r.leftR *ᵥ T.apply p) 0 = (r.rightR *ᵥ p) 0 + r.baseline

omit hE hT h in
/-- The z axes agree before the turn about the baseline; or the baseline is along the z axis of
the left camera and the coefficients are written by two. -/
def Untwisted (E : Eigen K) (packet : Bool) (T : Isometry3 K) : Prop :=
  rightCamZ E T = leftCamZ E T ∨ packet = true ∧ T.translation 0 = 0 ∧ T.translation 1 = 0

omit hT in
/-- The left rotation takes the baseline to the x axis. -/
theorem leftR_mulVec_apply (p : Vec3 K) : (rLeft E T)⁻¹ *ᵥ T.apply p =
    ((rLeft E T)ᵀ * T.linear) *ᵥ p + E.norm T.translation • ![1, 0, 0] := by
  have hne := right_ne_zero_of_not_opposite h.left
  have hback : T.translation = E.norm T.translation • (rLeft E T *ᵥ ![1, 0, 0]) := by
    rw [rLeft_mulVec hE h, hE.normalized_eq, smul_smul, mul_inv_cancel₀ (hE.norm_pos hne).ne',
      one_smul]
  have hrot := isRotation_rLeft hE h
  have hbaseline : (rLeft E T)ᵀ *ᵥ T.translation = E.norm T.translation • ![1, 0, 0] := by
    have hturned := congrArg (fun v => (rLeft E T)ᵀ *ᵥ v) hback
    rwa [mulVec_smul, mulVec_transpose_mulVec hrot.orthogonal] at hturned
  rw [hrot.inv_eq, Isometry3.apply, mulVec_add, mulVec_mulVec, hbaseline]

theorem aligned_iff_rightR : Aligned T (getRotationsForStandardStereo E packet T) ↔
    (getRotationsForStandardStereo E packet T).rightR = (rLeft E T)ᵀ * T.linear := by
  have hrot := isRotation_rLeft hE h
  have hleft : (getRotationsForStandardStereo E packet T).leftR = (rLeft E T)⁻¹ :=
    leftR_eq E packet T
  constructor
  · intro haligned
    -- the points of the basis determine the matrix
    apply ext_of_mulVec_single
    intro j
    have hpoint := leftR_mulVec_apply hE h (Pi.single j 1)
    rw [← hleft] at hpoint
    funext i
    fin_cases i
    · have hx := haligned.disparity (Pi.single j 1)
      rw [hpoint] at hx
      simpa [getRotationsForStandardStereo] using hx.symm
    · have hy := haligned.row (Pi.single j 1)
      rw [hpoint] at hy
      simpa using hy.symm
    · have hz := haligned.depth (Pi.single j 1)
      rw [hpoint] at hz
      simpa using hz.symm
  · intro hright
    refine ⟨?_, ?_, ?_, ?_, ?_⟩
    · rw [hleft, hrot.inv_eq]
      exact hrot.transpose.orthogonal
    · rw [hright]
      exact (hrot.transpose.mul hT).orthogonal
    · intro p
      rw [hleft, hright, leftR_mulVec_apply hE h]
      simp
    · intro p
      rw [hleft, hright, leftR_mulVec_apply hE h]
      simp
    · intro p
      rw [hleft, hright, leftR_mulVec_apply hE h]
      simp [getRotationsForStandardStereo]

/-- Nothing but the overwriting keeps the pair from being aligned. -/
theorem aligned_iff_mulInPlace : Aligned T (getRotationsForStandardStereo E packet T) ↔
    mulInPlace packet (rRightZ E T) 1 = rRightZ E T := by
  have hV := isRotation_rRight hE hT h
  have hL := isRotation_rLeft hE h
  rw [aligned_iff_rightR hE hT h, rightR_eq]
  constructor
  · intro heq
    have hinv : (mulInPlace packet (rRightZ E T) (rRight E T * T.linear))⁻¹ = (rLeft E T)ᵀ := by
      have hcancel := congrArg (· * T.linearᵀ) heq
      simp only [Matrix.mul_assoc] at hcancel
      rwa [hT.mul_transpose, Matrix.mul_one, Matrix.mul_one] at hcancel
    have hdet : IsUnit (mulInPlace packet (rRightZ E T) (rRight E T * T.linear)).det := by
      rw [← isUnit_nonsing_inv_det_iff, hinv, hL.transpose.det_eq_one]
      exact isUnit_one
    have hwritten : mulInPlace packet (rRightZ E T) 1 * (rRight E T * T.linear) =
        rRightZ E T * (rRight E T * T.linear) := by
      rw [← mulInPlace_eq, rRightZ_mul hE hT h, ← nonsing_inv_nonsing_inv _ hdet, hinv,
        hL.transpose.inv_eq, transpose_transpose]
    have hcancel := congrArg (· * (rRight E T * T.linear)ᵀ) hwritten
    simp only [Matrix.mul_assoc _ (rRight E T * T.linear)] at hcancel
    rwa [hV.mul_transpose, Matrix.mul_one, Matrix.mul_one] at hcancel
  · intro heq
    rw [mulInPlace_eq, heq, rRightZ_mul hE hT h, hL.inv_eq]

/-- The overwriting does no harm to a turn that is none, nor, where the coefficients are written
by two, to a turn about the z axis. -/
theorem mulInPlace_rRightZ_iff :
    mulInPlace packet (rRightZ E T) 1 = rRightZ E T ↔ Untwisted E packet T := by
  have hz := hE.isTurn_fromTwoVectors _ _ h.z
  refine (mulInPlace_one_eq_iff hz.isRotation fun v hv => hz.mulVec_ne_neg h.z hv).trans ?_
  rw [← rRightZ, rRightZ_fixes_iff hE hT h, rRightZ_eq_one_iff hE hT h, Untwisted]
  constructor
  · rintro (heq | ⟨hpacket, heq | hbaseline⟩)
    · exact .inl heq
    · exact .inl heq
    · exact .inr ⟨hpacket, hbaseline⟩
  · rintro (heq | ⟨hpacket, hbaseline⟩)
    · exact .inl heq
    · exact .inr ⟨hpacket, .inr hbaseline⟩

/-- **The pair is aligned exactly if there is nothing to turn about the baseline**, or the
overwriting does no harm to the turn. -/
theorem aligned_getRotationsForStandardStereo_iff :
    Aligned T (getRotationsForStandardStereo E packet T) ↔ Untwisted E packet T :=
  (aligned_iff_mulInPlace hE hT h).trans (mulInPlace_rRightZ_iff hE hT h)

end

/-! ### Cameras side by side -/

section

variable {R : Matrix3 ℝ}

/-- The right camera stands at distance 1 on the x axis. -/
def sideBySide (R : Matrix3 ℝ) : Isometry3 ℝ := ⟨R, ![1, 0, 0]⟩

theorem fromTwoVectors_xAxis : geometricEigen.fromTwoVectors ![1, 0, 0] ![1, 0, 0] = 1 := by
  have hne : (![1, 0, 0] : Vec3 ℝ) ≠ 0 := fun hzero => one_ne_zero (congrFun hzero 0)
  exact lawful_geometricEigen.fromTwoVectors_of_sameRay (SameRay.refl _) hne hne

theorem leftCamZ_sideBySide : leftCamZ geometricEigen (sideBySide R) = ![0, 0, 1] := by
  rw [leftCamZ, rLeft, sideBySide, fromTwoVectors_xAxis, one_mulVec]

/-- The right camera is turned about the baseline only. -/
theorem rightCamZ_sideBySide (hR : R *ᵥ ![1, 0, 0] = ![1, 0, 0]) :
    rightCamZ geometricEigen (sideBySide R) = R *ᵥ ![0, 0, 1] := by
  rw [rightCamZ, rRight, sideBySide, hR, fromTwoVectors_xAxis, Matrix.one_mul]

theorem stereoDefined_sideBySide (hR : R *ᵥ ![1, 0, 0] = ![1, 0, 0])
    (hz : ¬ SameRay ℝ (R *ᵥ ![0, 0, 1]) (-![0, 0, 1])) :
    StereoDefined geometricEigen (sideBySide R) := by
  have hx : ¬ SameRay ℝ (![1, 0, 0] : Vec3 ℝ) (-![1, 0, 0]) :=
    not_opposite_of_pos (d := ![1, 0, 0]) (by simp) (by simp)
  refine ⟨hx, ?_, ?_⟩
  · show ¬ SameRay ℝ (R *ᵥ ![1, 0, 0]) (-![1, 0, 0])
    rwa [hR]
  · rwa [rightCamZ_sideBySide hR, leftCamZ_sideBySide]

/-- A quarter turn about the z axis. -/
def turnedAside : Matrix3 ℝ := !![0, -1, 0; 1, 0, 0; 0, 0, 1]

theorem isRotation_turnedAside : IsRotation turnedAside where
  orthogonal := by
    ext i j
    fin_cases i <;> fin_cases j <;> simp [turnedAside, mul_apply, Fin.sum_univ_three]
  det_eq_one := by simp [turnedAside, det_fin_three]

theorem turnedAside_mulVec (v : Vec3 ℝ) : turnedAside *ᵥ v = ![-v 1, v 0, v 2] := by
  funext i
  fin_cases i <;> simp [turnedAside, mulVec, dotProduct, Fin.sum_univ_three]

/-- The pair is aligned when the right camera is turned about its line of sight. -/
theorem aligned_getRotationsForStandardStereo_iff_turnedAside :
    Aligned (sideBySide turnedAside)
      (getRotationsForStandardStereo geometricEigen false (sideBySide turnedAside)) := by
  have hx : turnedAside *ᵥ ![1, 0, 0] = ![0, 1, 0] := by
    rw [turnedAside_mulVec]
    simp
  have hz : turnedAside *ᵥ ![0, 0, 1] = ![0, 0, 1] := by
    rw [turnedAside_mulVec]
    simp
  have hopposite : ¬ SameRay ℝ (![0, 1, 0] : Vec3 ℝ) (-![1, 0, 0]) :=
    not_opposite_of_pos (d := ![1, 1, 0]) (by simp) (by simp)
  -- the turn that takes the x axis back leaves the z axis
  have hright : rightCamZ geometricEigen (sideBySide turnedAside) = ![0, 0, 1] := by
    have hturn := lawful_geometricEigen.isTurn_fromTwoVectors _ _ hopposite
    rw [rightCamZ, ← mulVec_mulVec, sideBySide, hz, rRight, hx]
    exact hturn.fixes _ (by simp) (by simp)
  have huntwisted : Untwisted geometricEigen false (sideBySide turnedAside) :=
    .inl (hright.trans leftCamZ_sideBySide.symm)
  refine (aligned_getRotationsForStandardStereo_iff lawful_geometricEigen isRotation_turnedAside
    ⟨?_, ?_, ?_⟩).mpr huntwisted
  · exact not_opposite_of_pos (d := ![1, 0, 0]) (by simp) (by simp [sideBySide])
  · rw [sideBySide, hx]
    exact hopposite
  · rw [hright, leftCamZ_sideBySide]
    exact not_opposite_of_pos (d := ![0, 0, 1]) (by simp) (by simp)

/-- A quarter turn about the x axis. -/
def quarterTurn : Matrix3 ℝ := !![1, 0, 0; 0, 0, -1; 0, 1, 0]

theorem isRotation_quarterTurn : IsRotation quarterTurn where
  orthogonal := by
    ext i j
    fin_cases i <;> fin_cases j <;> simp [quarterTurn, mul_apply, Fin.sum_univ_three]
  det_eq_one := by simp [quarterTurn, det_fin_three]

/-- A right camera that is turned about the baseline is not aligned, however the coefficients
are written. -/
theorem quarterTurn_not_aligned :
    ¬ ∃ packet, ∀ T : Isometry3 ℝ, IsRotation T.linear → StereoDefined geometricEigen T →
      Aligned T (getRotationsForStandardStereo geometricEigen packet T) := by
  rintro ⟨packet, haligned⟩
  have hx : quarterTurn *ᵥ ![1, 0, 0] = ![1, 0, 0] := by
    funext i
    fin_cases i <;> simp [quarterTurn, mulVec, dotProduct, Fin.sum_univ_three]
  have hz : quarterTurn *ᵥ ![0, 0, 1] = ![0, -1, 0] := by
    funext i
    fin_cases i <;> simp [quarterTurn, mulVec, dotProduct, Fin.sum_univ_three]
  have hdefined : StereoDefined geometricEigen (sideBySide quarterTurn) := by
    apply stereoDefined_sideBySide hx
    rw [hz]
    exact not_opposite_of_pos (d := ![0, -1, 1]) (by simp) (by simp)
  have hrot : IsRotation (sideBySide quarterTurn).linear := isRotation_quarterTurn
  have hwritten := (aligned_iff_mulInPlace lawful_geometricEigen hrot hdefined).mp
    (haligned _ hrot hdefined)
  rcases (mulInPlace_rRightZ_iff lawful_geometricEigen hrot hdefined).mp hwritten with
    heq | ⟨-, hbaseline, -⟩
  · rw [rightCamZ_sideBySide hx, hz, leftCamZ_sideBySide] at heq
    exact zero_ne_one (congrFun heq 2)
  · exact one_ne_zero hbaseline

end

end Lift

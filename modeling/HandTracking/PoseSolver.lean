/-
The pose of a hand in space from its relative shape and its keypoints in an image.

`get_3d_kpt` looks for the translation that brings each point of the shape onto the ray of its
keypoint, by weighted least squares.

* `getTransformWithSvd`, `decodeHandAngle` — the rotations, by a singular value decomposition;
* `calKptWeight` — the weights;
* `get3dKpt` — the translated shape;
* `get3dKpt_exact` — where the keypoints are exact, so is the translation.
-/
import HandTracking.CameraModel
import HandTracking.Library.Isometry3
import Mathlib.LinearAlgebra.Matrix.NonsingularInverse

namespace Pose

open Camera Matrix

variable {K : Type} [Field K]

/-! ### The rotations -/

/-- `Eigen::JacobiSVD`: the matrices `u` and `v`. -/
abbrev JacobiSvd (K : Type) := Matrix3 K → Matrix3 K × Matrix3 K

/-- `get_transform_with_svd`: the rigid motion between two lists of points. -/
def getTransformWithSvd (svd : JacobiSvd K) (srcPts dstPts : Fin 7 → Vec3 K) : Isometry3 K :=
  let mean (pts : Fin 7 → Vec3 K) : Vec3 K := (1 / 7 : K) • ∑ i, pts i
  let srcCentered (i : Fin 7) := srcPts i - mean srcPts
  let dstCentered (i : Fin 7) := dstPts i - mean dstPts
  let outerProd : Matrix3 K := fun i j => ∑ k, srcCentered k i * dstCentered k j
  let (u, v) := svd outerProd
  -- the last axis is reversed where the product would be a reflection
  let w : Matrix3 K := diagonal ![1, 1, (v * uᵀ).det]
  let rotation := v * w * uᵀ
  ((1 : Isometry3 K).rotate rotation).pretranslate (mean dstPts - rotation *ᵥ mean srcPts)

/-- The 171 numbers of the angles: 19 matrices, by rows. -/
abbrev JointAngles (K : Type) := Fin 19 → Matrix3 K

/-- `decode_hand_angle`: the nearest rotation of each matrix. -/
def decodeHandAngle (svd : JacobiSvd K) (x : JointAngles K) : JointAngles K := fun i =>
  let (u, v) := svd (x i)
  let vt := vᵀ
  u * vt.updateRow 2 ((u * vt).det • vt 2)

/-- What the documentation of Eigen says of the two matrices. -/
def JacobiSvd.Orthogonal (svd : JacobiSvd K) : Prop :=
  ∀ A, (svd A).1ᵀ * (svd A).1 = 1 ∧ (svd A).2ᵀ * (svd A).2 = 1

theorem det_mul_self_of_orthogonal {M : Matrix3 K} (h : Mᵀ * M = 1) : M.det * M.det = 1 := by
  have hdet := congrArg det h
  rwa [det_mul, det_transpose, det_one] at hdet

/-- A diagonal of signs between orthogonal matrices. -/
theorem orthogonal_signed {M N : Matrix3 K} (hM : Mᵀ * M = 1) (hN : Nᵀ * N = 1) {d : K}
    (hd : d * d = 1) :
    (M * (diagonal ![1, 1, d] : Matrix3 K) * N)ᵀ * (M * (diagonal ![1, 1, d] : Matrix3 K) * N) =
      1 := by
  have hsign : (diagonal ![1, 1, d] : Matrix3 K)ᵀ * diagonal ![1, 1, d] = 1 := by
    rw [diagonal_transpose, diagonal_mul_diagonal, ← diagonal_one]
    congr 1
    funext i
    fin_cases i
    · exact one_mul 1
    · exact one_mul 1
    · exact hd
  rw [transpose_mul, transpose_mul, Matrix.mul_assoc, ← Matrix.mul_assoc _ _ N,
    ← Matrix.mul_assoc _ M, Matrix.mul_assoc _ Mᵀ M, hM, Matrix.mul_one, hsign, Matrix.one_mul, hN]

theorem orthogonal_getTransformWithSvd {svd : JacobiSvd K} (hsvd : svd.Orthogonal)
    (srcPts dstPts : Fin 7 → Vec3 K) :
    (getTransformWithSvd svd srcPts dstPts).linearᵀ *
      (getTransformWithSvd svd srcPts dstPts).linear = 1 := by
  set outerProd : Matrix3 K := fun i j => ∑ k, (srcPts k - (1 / 7 : K) • ∑ l, srcPts l) i *
    (dstPts k - (1 / 7 : K) • ∑ l, dstPts l) j
  obtain ⟨hu, hv⟩ := hsvd outerProd
  have hut : (svd outerProd).1ᵀᵀ * (svd outerProd).1ᵀ = 1 := by
    rw [transpose_transpose]
    exact mul_eq_one_comm.mp hu
  have hvu : ((svd outerProd).2 * (svd outerProd).1ᵀ)ᵀ *
      ((svd outerProd).2 * (svd outerProd).1ᵀ) = 1 := by
    rw [transpose_mul, Matrix.mul_assoc, ← Matrix.mul_assoc _ _ (svd outerProd).1ᵀ, hv,
      Matrix.one_mul, hut]
  have hlinear : (getTransformWithSvd svd srcPts dstPts).linear = (svd outerProd).2 *
      (diagonal ![1, 1, ((svd outerProd).2 * (svd outerProd).1ᵀ).det] : Matrix3 K) *
        (svd outerProd).1ᵀ := Matrix.one_mul _
  rw [hlinear]
  exact orthogonal_signed hv hut (det_mul_self_of_orthogonal hvu)

/-- The means are mapped to each other. -/
theorem getTransformWithSvd_translation (svd : JacobiSvd K) (srcPts dstPts : Fin 7 → Vec3 K) :
    (getTransformWithSvd svd srcPts dstPts).translation = (1 / 7 : K) • ∑ i, dstPts i -
      (getTransformWithSvd svd srcPts dstPts).linear *ᵥ ((1 / 7 : K) • ∑ i, srcPts i) := by
  rw [getTransformWithSvd]
  simp only [Isometry3.pretranslate, Isometry3.rotate, Isometry3.one_linear,
    Isometry3.one_translation, zero_add]
  rw [Matrix.one_mul]

theorem orthogonal_decodeHandAngle {svd : JacobiSvd K} (hsvd : svd.Orthogonal)
    (x : JointAngles K) (i : Fin 19) :
    (decodeHandAngle svd x i)ᵀ * decodeHandAngle svd x i = 1 := by
  obtain ⟨hu, hv⟩ := hsvd (x i)
  have hvt : (svd (x i)).2ᵀᵀ * (svd (x i)).2ᵀ = 1 := by
    rw [transpose_transpose]
    exact mul_eq_one_comm.mp hv
  have huv : ((svd (x i)).1 * (svd (x i)).2ᵀ)ᵀ * ((svd (x i)).1 * (svd (x i)).2ᵀ) = 1 := by
    rw [transpose_mul, Matrix.mul_assoc, ← Matrix.mul_assoc _ _ (svd (x i)).2ᵀ, hu, Matrix.one_mul,
      hvt]
  -- scaling the last row is a diagonal factor
  have hrow : (svd (x i)).2ᵀ.updateRow 2 (((svd (x i)).1 * (svd (x i)).2ᵀ).det • (svd (x i)).2ᵀ 2) =
      (diagonal ![1, 1, ((svd (x i)).1 * (svd (x i)).2ᵀ).det] : Matrix3 K) * (svd (x i)).2ᵀ := by
    ext a b
    rw [diagonal_mul]
    fin_cases a
    · exact (one_mul _).symm
    · exact (one_mul _).symm
    · exact congrFun (updateRow_self ..) b
  have hdecode : decodeHandAngle svd x i = (svd (x i)).1 *
      (diagonal ![1, 1, ((svd (x i)).1 * (svd (x i)).2ᵀ).det] : Matrix3 K) * (svd (x i)).2ᵀ := by
    rw [Matrix.mul_assoc, ← hrow]
    rfl
  rw [hdecode]
  exact orthogonal_signed hu hvt (det_mul_self_of_orthogonal huv)

/-! ### The weights -/

/-- The keypoint that a row belongs to: two rows for each. -/
def kptOfRow (r : Fin 42) : Fin 21 := ⟨r.val / 2, by omega⟩

/-- `cal_kpt_weight`: a weight for each row, from the sigma of its keypoint. -/
def calKptWeight [LinearOrder K] (exp : K → K) (sigma : Fin 21 → Vec3 K) :
    Matrix (Fin 42) (Fin 42) K :=
  let sigmaKpt (i : Fin 21) : K := (sigma i 0 + sigma i 1 + sigma i 2) / 3
  let maxSigma := Finset.univ.sup' Finset.univ_nonempty sigmaKpt
  let expSigmaKpt (i : Fin 21) : K := exp (sigmaKpt i - maxSigma)
  diagonal fun r => expSigmaKpt (kptOfRow r) / (∑ i, expSigmaKpt i) * 21

/-! ### The solver -/

/-- `inverse()` of a matrix of three rows. -/
def inverse (A : Matrix3 K) : Matrix3 K := A.det⁻¹ • A.adjugate

theorem inverse_eq (A : Matrix3 K) : inverse A = A⁻¹ := by
  rw [inverse, inv_def, Ring.inverse_eq_inv']

/-- A keypoint in the normalized image: the first two coordinates of what the inverse of the
intrinsics makes of it. -/
def uvCood (intrixMatrix : Matrix3 K) (cood2d : Fin 21 → Vec2 K) (i : Fin 21) : Vec2 K :=
  let uvHomogeneous := inverse intrixMatrix *ᵥ ![cood2d i 0, cood2d i 1, 1]
  ![uvHomogeneous 0, uvHomogeneous 1]

/-- The matrix `A` of the equations for the translation. -/
def matrixA (uv : Fin 21 → Vec2 K) : Matrix (Fin 42) (Fin 3) K := fun r =>
  if r.val % 2 = 0 then ![-1, 0, uv (kptOfRow r) 0] else ![0, -1, uv (kptOfRow r) 1]

/-- Their right side `B`. -/
def matrixB (hand3dRel : Fin 21 → Vec3 K) (uv : Fin 21 → Vec2 K) : Fin 42 → K := fun r =>
  let i := kptOfRow r
  if r.val % 2 = 0 then hand3dRel i 0 - hand3dRel i 2 * uv i 0
  else hand3dRel i 1 - hand3dRel i 2 * uv i 1

/-- `get_3d_kpt` -/
def get3dKpt (hand3dRel : Fin 21 → Vec3 K) (cood2d : Fin 21 → Vec2 K) (intrixMatrix : Matrix3 K)
    (W : Matrix (Fin 42) (Fin 42) K) : Fin 21 → Vec3 K :=
  let uv := uvCood intrixMatrix cood2d
  let A := matrixA uv
  let B := matrixB hand3dRel uv
  let aTW := Aᵀ * W
  let result := inverse (aTW * A) *ᵥ (aTW *ᵥ B)
  fun i => hand3dRel i + result

/-! ### Exact keypoints -/

/-- The solution of the normal equations is the one that solves all rows, if there is one. -/
theorem normalEquations_exact {n : ℕ} (A : Matrix (Fin n) (Fin 3) K)
    (W : Matrix (Fin n) (Fin n) K) (h : IsUnit (Aᵀ * W * A)) (t : Vec3 K) :
    inverse (Aᵀ * W * A) *ᵥ ((Aᵀ * W) *ᵥ (A *ᵥ t)) = t := by
  rw [inverse_eq, mulVec_mulVec, mulVec_mulVec, Matrix.mul_assoc,
    nonsing_inv_mul _ ((isUnit_iff_isUnit_det _).mp h), one_mulVec]

/-- A point is in front of the camera, and is seen at `uv`. -/
def ProjectsTo [LinearOrder K] (intrixMatrix : Matrix3 K) (p : Vec3 K) (uv : Vec2 K) : Prop :=
  0 < p 2 ∧ uv = project (intrixMatrix *ᵥ p)

section Exact

variable [LinearOrder K] {intrixMatrix : Matrix3 K} (hinv : IsUnit intrixMatrix)
  (hlast : intrixMatrix 2 = ![0, 0, 1])

include hinv hlast

/-- The normalized keypoint lies on the ray of the point. -/
theorem uvCood_of_projectsTo {cood2d : Fin 21 → Vec2 K} {i : Fin 21} {p : Vec3 K}
    (h : ProjectsTo intrixMatrix p (cood2d i)) :
    uvCood intrixMatrix cood2d i = ![p 0 / p 2, p 1 / p 2] := by
  obtain ⟨hdepth, hseen⟩ := h
  have hthird : (intrixMatrix *ᵥ p) 2 = p 2 := by
    show intrixMatrix 2 ⬝ᵥ p = p 2
    rw [hlast]
    simp [dotProduct, Fin.sum_univ_three]
  -- the homogeneous keypoint is the image of the point over its depth
  have hhomogeneous : ![cood2d i 0, cood2d i 1, 1] = (p 2)⁻¹ • (intrixMatrix *ᵥ p) := by
    rw [hseen]
    funext j
    fin_cases j
    · simp [project, hthird, div_eq_inv_mul]
    · simp [project, hthird, div_eq_inv_mul]
    · simp [hthird, inv_mul_cancel₀ hdepth.ne']
  rw [uvCood, inverse_eq]
  rw [hhomogeneous, mulVec_smul, mulVec_mulVec,
    nonsing_inv_mul _ ((isUnit_iff_isUnit_det _).mp hinv), one_mulVec]
  funext j
  fin_cases j
  · exact (div_eq_inv_mul _ _).symm
  · exact (div_eq_inv_mul _ _).symm

/-- The translation solves both rows of each keypoint. -/
theorem matrixB_of_projectsTo {hand3dRel : Fin 21 → Vec3 K} {cood2d : Fin 21 → Vec2 K}
    {t : Vec3 K} (h : ∀ i, ProjectsTo intrixMatrix (hand3dRel i + t) (cood2d i)) :
    matrixB hand3dRel (uvCood intrixMatrix cood2d) =
      matrixA (uvCood intrixMatrix cood2d) *ᵥ t := by
  funext r
  have huv := uvCood_of_projectsTo hinv hlast (h (kptOfRow r))
  have hdepth : hand3dRel (kptOfRow r) 2 + t 2 ≠ 0 := (h (kptOfRow r)).1.ne'
  show _ = matrixA (uvCood intrixMatrix cood2d) r ⬝ᵥ t
  rw [matrixB, matrixA]
  rw [huv]
  split
  · simp [dotProduct, Fin.sum_univ_three]
    field_simp
    ring
  · simp [dotProduct, Fin.sum_univ_three]
    field_simp
    ring

/-- **Exact keypoints give the exact pose.**  The intrinsics may be any invertible ones, and the
weights any for which the equations have one solution. -/
theorem get3dKpt_exact (hand3dRel : Fin 21 → Vec3 K) (cood2d : Fin 21 → Vec2 K)
    (W : Matrix (Fin 42) (Fin 42) K) (t : Vec3 K)
    (hproject : ∀ i, ProjectsTo intrixMatrix (hand3dRel i + t) (cood2d i))
    (hunit : IsUnit ((matrixA (uvCood intrixMatrix cood2d))ᵀ * W *
      matrixA (uvCood intrixMatrix cood2d))) :
    get3dKpt hand3dRel cood2d intrixMatrix W = fun i => hand3dRel i + t := by
  rw [get3dKpt]
  rw [matrixB_of_projectsTo hinv hlast hproject, normalEquations_exact _ W hunit]

end Exact

/-- A hand with its joints at different depths. -/
def fanShape (i : Fin 21) : Vec3 ℚ := ![i.val / 100, (i.val % 5 : ℕ) / 50, (i.val % 3 : ℕ) / 20]

/-- The place of the hand. -/
def fanTranslation : Vec3 ℚ := ![-1 / 10, 1 / 20, 1 / 2]

/-- The intrinsics of its camera. -/
def pixelIntrinsics : Matrix3 ℚ := !![400, 0, 320; 0, 410, 240; 0, 0, 1]

/-- The pixels of its keypoints. -/
def fanKeypoints (i : Fin 21) : Vec2 ℚ :=
  project (pixelIntrinsics *ᵥ (fanShape i + fanTranslation))

/-- The finger tips count less. -/
def fanWeights : Matrix (Fin 42) (Fin 42) ℚ :=
  diagonal fun r => if (kptOfRow r).val % 4 = 0 then 1 / 2 else 3 / 2

theorem isUnit_pixelIntrinsics : IsUnit pixelIntrinsics := by
  rw [isUnit_iff_isUnit_det, pixelIntrinsics, det_fin_three, isUnit_iff_ne_zero]
  decide +kernel

theorem projectsTo_fan (i : Fin 21) :
    ProjectsTo pixelIntrinsics (fanShape i + fanTranslation) (fanKeypoints i) := by
  have hdepth : ∀ i, 0 < (fanShape i + fanTranslation) 2 := by decide +kernel
  exact ⟨hdepth i, rfl⟩

theorem isUnit_fan :
    IsUnit ((matrixA (uvCood pixelIntrinsics fanKeypoints))ᵀ * fanWeights *
      matrixA (uvCood pixelIntrinsics fanKeypoints)) := by
  have huv : uvCood pixelIntrinsics fanKeypoints = fun i =>
      ![(fanShape i + fanTranslation) 0 / (fanShape i + fanTranslation) 2,
        (fanShape i + fanTranslation) 1 / (fanShape i + fanTranslation) 2] :=
    funext fun i => uvCood_of_projectsTo isUnit_pixelIntrinsics rfl (projectsTo_fan i)
  rw [huv, isUnit_iff_isUnit_det, det_fin_three, isUnit_iff_ne_zero]
  decide +kernel

theorem get3dKpt_exact_fan : get3dKpt fanShape fanKeypoints pixelIntrinsics fanWeights =
    fun i => fanShape i + fanTranslation :=
  get3dKpt_exact isUnit_pixelIntrinsics rfl _ _ _ _ projectsTo_fan isUnit_fan

end Pose

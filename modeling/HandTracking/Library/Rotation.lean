/-
Rotations of three-dimensional space.

* `cross_mulVec` — an orthogonal matrix moves a cross product, up to its determinant;
* `IsRotation` — an orthogonal matrix of determinant 1; two of them that agree on two directions
  are equal (`IsRotation.eq_of_agree`);
* `IsTurn` — the rotation from one direction to another that fixes what is orthogonal to both;
  there is one only (`IsTurn.unique`), and it moves with its directions (`IsTurn.conj`);
* `quaternionMatrix` of a unit quaternion is a rotation, and `isTurn_quaternionMatrix` says which
  one is a turn.
-/
import HandTracking.Library.Isometry3
import Mathlib.LinearAlgebra.CrossProduct
import Mathlib.LinearAlgebra.Matrix.DotProduct
import Mathlib.LinearAlgebra.Matrix.ToLinearEquiv
import Mathlib.LinearAlgebra.Ray
import Mathlib.Tactic.Linarith

open Matrix

section CommRing

variable {K : Type} [CommRing K] {M N : Matrix3 K}

theorem transpose_mulVec_cross (M : Matrix3 K) (u v : Vec3 K) :
    Mᵀ *ᵥ crossProduct (M *ᵥ u) (M *ᵥ v) = M.det • crossProduct u v := by
  funext i
  simp only [cross_apply, mulVec, dotProduct, Fin.sum_univ_three, det_fin_three, Pi.smul_apply,
    smul_eq_mul, transpose_apply, cons_val]
  fin_cases i
  · simp
    ring
  · simp
    ring
  · simp
    ring

theorem mulVec_transpose_mulVec (h : Mᵀ * M = 1) (v : Vec3 K) : Mᵀ *ᵥ (M *ᵥ v) = v := by
  rw [mulVec_mulVec, h, one_mulVec]

theorem mulVec_mulVec_transpose (h : Mᵀ * M = 1) (v : Vec3 K) : M *ᵥ (Mᵀ *ᵥ v) = v := by
  rw [mulVec_mulVec, mul_eq_one_comm.mp h, one_mulVec]

/-- The cross product of what an orthogonal matrix has moved. -/
theorem cross_mulVec (h : Mᵀ * M = 1) (u v : Vec3 K) :
    crossProduct (M *ᵥ u) (M *ᵥ v) = M.det • M *ᵥ crossProduct u v := by
  rw [← mulVec_smul, ← transpose_mulVec_cross, mulVec_mulVec_transpose h]

theorem dotProduct_mulVec_mulVec (h : Mᵀ * M = 1) (u v : Vec3 K) :
    (M *ᵥ u) ⬝ᵥ (M *ᵥ v) = u ⬝ᵥ v := by
  rw [dotProduct_mulVec, vecMul_mulVec, h, vecMul_one]

/-- An orthogonal matrix that keeps the orientation. -/
structure IsRotation (M : Matrix3 K) : Prop where
  orthogonal : Mᵀ * M = 1
  det_eq_one : M.det = 1

namespace IsRotation

theorem one : IsRotation (1 : Matrix3 K) := ⟨by rw [transpose_one, Matrix.one_mul], det_one⟩

theorem mul (hM : IsRotation M) (hN : IsRotation N) : IsRotation (M * N) where
  orthogonal := by
    rw [transpose_mul, Matrix.mul_assoc, ← Matrix.mul_assoc Mᵀ, hM.orthogonal, Matrix.one_mul,
      hN.orthogonal]
  det_eq_one := by rw [det_mul, hM.det_eq_one, hN.det_eq_one, one_mul]

theorem mul_transpose (h : IsRotation M) : M * Mᵀ = 1 := mul_eq_one_comm.mp h.orthogonal

theorem transpose (h : IsRotation M) : IsRotation Mᵀ where
  orthogonal := by rw [transpose_transpose, h.mul_transpose]
  det_eq_one := by rw [det_transpose, h.det_eq_one]

theorem inv_eq (h : IsRotation M) : M⁻¹ = Mᵀ := Matrix.inv_eq_left_inv h.orthogonal

theorem cross (h : IsRotation M) (u v : Vec3 K) :
    crossProduct (M *ᵥ u) (M *ᵥ v) = M *ᵥ crossProduct u v := by
  rw [cross_mulVec h.orthogonal, h.det_eq_one, one_smul]

theorem mulVec_ne_zero (h : IsRotation M) {v : Vec3 K} (hv : v ≠ 0) : M *ᵥ v ≠ 0 := by
  intro hzero
  apply hv
  rw [← mulVec_transpose_mulVec h.orthogonal v, hzero, mulVec_zero]

end IsRotation

/-! ### Quaternions -/

theorem quaternionMatrix_mulVec (w : K) (q v : Vec3 K) :
    quaternionMatrix w (q 0) (q 1) (q 2) *ᵥ v =
      v + (2 * w) • crossProduct q v + (2 : K) • crossProduct q (crossProduct q v) := by
  funext i
  fin_cases i
  · simp [quaternionMatrix, mulVec, dotProduct, Fin.sum_univ_three, cross_apply, vecHead]
    ring
  · simp [quaternionMatrix, mulVec, dotProduct, Fin.sum_univ_three, cross_apply, vecHead, vecTail]
    ring
  · simp [quaternionMatrix, mulVec, dotProduct, Fin.sum_univ_three, cross_apply, vecHead, vecTail]
    ring

theorem isRotation_quaternionMatrix {w x y z : K} (h : w * w + x * x + y * y + z * z = 1) :
    IsRotation (quaternionMatrix w x y z) where
  orthogonal := quaternionMatrix_orthogonal h
  det_eq_one := by
    simp only [det_fin_three, quaternionMatrix, of_apply, cons_val]
    linear_combination 4 * (x * x + y * y + z * z) * h

theorem IsRotation.mul_quaternionMatrix (h : IsRotation M) (w : K) (q : Vec3 K) :
    M * quaternionMatrix w (q 0) (q 1) (q 2) =
      quaternionMatrix w ((M *ᵥ q) 0) ((M *ᵥ q) 1) ((M *ᵥ q) 2) * M := by
  apply ext_of_mulVec_single
  intro i
  rw [← mulVec_mulVec, ← mulVec_mulVec, quaternionMatrix_mulVec, quaternionMatrix_mulVec,
    mulVec_add, mulVec_add, mulVec_smul, mulVec_smul, h.cross, h.cross]

end CommRing

section Field

variable {K : Type} [Field K] [LinearOrder K] [IsStrictOrderedRing K] {M N S : Matrix3 K}
  {a b u v : Vec3 K}

theorem cross_ne_zero_of_orthogonal (ha : a ≠ 0) (hu : u ≠ 0) (hau : u ⬝ᵥ a = 0) :
    crossProduct a u ≠ 0 := by
  intro hzero
  have hsq : crossProduct a u ⬝ᵥ crossProduct a u = (a ⬝ᵥ a) * (u ⬝ᵥ u) := by
    rw [cross_dot_cross, hau, mul_zero, sub_zero]
  rw [hzero, zero_dotProduct] at hsq
  rcases mul_eq_zero.mp hsq.symm with h | h
  · exact ha (dotProduct_self_eq_zero.mp h)
  · exact hu (dotProduct_self_eq_zero.mp h)

omit [LinearOrder K] [IsStrictOrderedRing K] in
/-- There is a direction that is orthogonal to two others. -/
theorem exists_orthogonal (a b : Vec3 K) : ∃ n, n ≠ 0 ∧ n ⬝ᵥ a = 0 ∧ n ⬝ᵥ b = 0 := by
  have hdet : (Matrix.of ![a, b, 0]).det = 0 := det_eq_zero_of_row_eq_zero 2 fun _ => rfl
  obtain ⟨n, hn, hzero⟩ := exists_mulVec_eq_zero_iff.mpr hdet
  refine ⟨n, hn, ?_, ?_⟩
  · rw [dotProduct_comm]
    exact congrFun hzero 0
  · rw [dotProduct_comm]
    exact congrFun hzero 1

/-- Rotations that agree on two directions agree. -/
theorem IsRotation.eq_of_agree (hM : IsRotation M) (hN : IsRotation N) (hu : M *ᵥ u = N *ᵥ u)
    (hv : M *ᵥ v = N *ᵥ v) (hne : crossProduct u v ≠ 0) : M = N := by
  have hcross : M *ᵥ crossProduct u v = N *ᵥ crossProduct u v := by
    rw [← hM.cross, ← hN.cross, hu, hv]
  -- the directions and their cross product are a basis
  let P : Matrix3 K := (Matrix.of ![u, v, crossProduct u v])ᵀ
  have hdet : P.det ≠ 0 := by
    have heq : P.det = crossProduct u v ⬝ᵥ crossProduct u v := by
      rw [det_transpose, ← triple_product_permutation, ← triple_product_permutation]
      exact (triple_product_eq_det _ _ _).symm
    rw [heq]
    exact dotProduct_self_eq_zero.not.mpr hne
  have hP : M * P = N * P := by
    ext i j
    fin_cases j
    · exact congrFun hu i
    · exact congrFun hv i
    · exact congrFun hcross i
  have hinv := P.mul_nonsing_inv (isUnit_iff_ne_zero.mpr hdet)
  rw [← Matrix.mul_one M, ← hinv, ← Matrix.mul_assoc, hP, Matrix.mul_assoc, hinv, Matrix.mul_one]

/-- The rotation from the direction of `a` to that of `b` that fixes what is orthogonal to both:
the rotation about their cross product. -/
structure IsTurn (M : Matrix3 K) (a b : Vec3 K) : Prop where
  isRotation : IsRotation M
  sameRay : SameRay K (M *ᵥ a) b
  fixes : ∀ n, n ⬝ᵥ a = 0 → n ⬝ᵥ b = 0 → M *ᵥ n = n

namespace IsTurn

theorem one (h : SameRay K a b) : IsTurn 1 a b where
  isRotation := .one
  sameRay := by rwa [one_mulVec]
  fixes n _ _ := one_mulVec n

/-- A turn moves with its directions. -/
theorem conj (hS : IsRotation S) (h : IsTurn M a b) :
    IsTurn (S * M * Sᵀ) (S *ᵥ a) (S *ᵥ b) where
  isRotation := (hS.mul h.isRotation).mul hS.transpose
  sameRay := by
    rw [← mulVec_mulVec, mulVec_transpose_mulVec hS.orthogonal, ← mulVec_mulVec]
    exact h.sameRay.map (mulVecLin S)
  fixes n ha hb := by
    have hback : ∀ c : Vec3 K, (Sᵀ *ᵥ n) ⬝ᵥ c = n ⬝ᵥ (S *ᵥ c) := by
      intro c
      rw [mulVec_transpose, dotProduct_mulVec]
    rw [← mulVec_mulVec, ← mulVec_mulVec, h.fixes _ ((hback a).trans ha) ((hback b).trans hb),
      mulVec_mulVec_transpose hS.orthogonal]

end IsTurn

theorem left_ne_zero_of_not_opposite (h : ¬ SameRay K a (-b)) : a ≠ 0 := by
  rintro rfl
  exact h (SameRay.zero_left _)

theorem right_ne_zero_of_not_opposite (h : ¬ SameRay K a (-b)) : b ≠ 0 := by
  rintro rfl
  rw [neg_zero] at h
  exact h (SameRay.zero_right _)

/-- Vectors on one side of a plane are not opposite. -/
theorem not_opposite_of_pos {d : Vec3 K} (ha : 0 < a ⬝ᵥ d) (hb : 0 < b ⬝ᵥ d) :
    ¬ SameRay K a (-b) := by
  rintro (rfl | hzero | ⟨r, s, hr, hs, heq⟩)
  · rw [zero_dotProduct] at ha
    exact lt_irrefl _ ha
  · rw [neg_eq_zero.mp hzero, zero_dotProduct] at hb
    exact lt_irrefl _ hb
  · have hdot := congrArg (fun v => v ⬝ᵥ d) heq
    simp only [smul_dotProduct, neg_dotProduct, smul_eq_mul] at hdot
    have hleft := mul_pos hr ha
    have hright := mul_pos hs hb
    linarith

theorem sameRay_of_pos_smul {r s : K} (hr : 0 < r) (hs : 0 < s) (h : SameRay K (r • u) (s • v)) :
    SameRay K u v := by
  have hscaled := (h.pos_smul_left (inv_pos.mpr hr)).pos_smul_right (inv_pos.mpr hs)
  rwa [inv_smul_smul₀ hr.ne', inv_smul_smul₀ hs.ne'] at hscaled

/-- Only the directions matter. -/
theorem IsTurn.of_pos_smul {r s : K} (hr : 0 < r) (hs : 0 < s) (h : IsTurn M (r • a) (s • b)) :
    IsTurn M a b where
  isRotation := h.isRotation
  sameRay := by
    apply sameRay_of_pos_smul hr hs
    rw [← mulVec_smul]
    exact h.sameRay
  fixes n ha hb := h.fixes n (by rw [dotProduct_smul, ha, smul_zero])
    (by rw [dotProduct_smul, hb, smul_zero])

/-- Vectors of one direction and one length are equal. -/
theorem eq_of_sameRay (h : SameRay K u v) (hlength : u ⬝ᵥ u = v ⬝ᵥ v) : u = v := by
  rcases h with rfl | rfl | ⟨r, s, hr, hs, heq⟩
  · rw [zero_dotProduct] at hlength
    exact (dotProduct_self_eq_zero.mp hlength.symm).symm
  · rw [zero_dotProduct] at hlength
    exact dotProduct_self_eq_zero.mp hlength
  · by_cases hzero : u ⬝ᵥ u = 0
    · rw [dotProduct_self_eq_zero.mp hzero,
        dotProduct_self_eq_zero.mp (hlength.symm.trans hzero)]
    · have hsq : r * r * (u ⬝ᵥ u) = s * s * (u ⬝ᵥ u) := by
        have hdot := congrArg (fun w => w ⬝ᵥ w) heq
        simp only [smul_dotProduct, dotProduct_smul, smul_eq_mul] at hdot
        rw [mul_assoc, mul_assoc, hdot, hlength]
      have hrs : r = s := by
        have hmul := mul_right_cancel₀ hzero hsq
        exact (mul_self_inj hr.le hs.le).mp hmul
      rw [hrs] at heq
      exact smul_right_injective _ hs.ne' heq

namespace IsTurn

/-- There is one turn only, but between opposite directions. -/
theorem unique (h : ¬ SameRay K a (-b)) (hM : IsTurn M a b) (hN : IsTurn N a b) : M = N := by
  have ha := left_ne_zero_of_not_opposite h
  have hb := right_ne_zero_of_not_opposite h
  have hsame : M *ᵥ a = N *ᵥ a := by
    apply eq_of_sameRay (hM.sameRay.trans hN.sameRay.symm fun hzero => absurd hzero hb)
    rw [dotProduct_mulVec_mulVec hM.isRotation.orthogonal,
      dotProduct_mulVec_mulVec hN.isRotation.orthogonal]
  obtain ⟨n, hn, hna, hnb⟩ := exists_orthogonal a b
  have hfix : M *ᵥ n = N *ᵥ n := by rw [hM.fixes n hna hnb, hN.fixes n hna hnb]
  exact hM.isRotation.eq_of_agree hN.isRotation hsame hfix
    (cross_ne_zero_of_orthogonal ha hn hna)

end IsTurn

/-- A turn reverses no vector: it would be half a turn. -/
theorem IsTurn.mulVec_ne_neg (hM : IsTurn M a b) (h : ¬ SameRay K a (-b)) {v : Vec3 K}
    (hv : v ≠ 0) : M *ᵥ v ≠ -v := by
  intro hneg
  have horth := hM.isRotation.orthogonal
  obtain ⟨n, hn, hna, hnb⟩ := exists_orthogonal a b
  have hfix := hM.fixes n hna hnb
  have hvn : v ⬝ᵥ n = 0 := by
    have hdot := dotProduct_mulVec_mulVec horth v n
    rw [hneg, hfix, neg_dotProduct] at hdot
    linarith
  -- twice the rotation is none, and so the sum of a vector and its image is fixed
  have hsquare : M * M = 1 := by
    apply (hM.isRotation.mul hM.isRotation).eq_of_agree .one (u := n) (v := v)
    · rw [← mulVec_mulVec, hfix, hfix, one_mulVec]
    · rw [← mulVec_mulVec, hneg, mulVec_neg, hneg, neg_neg, one_mulVec]
    · exact cross_ne_zero_of_orthogonal hn hv hvn
  have hsum : M *ᵥ (a + M *ᵥ a) = a + M *ᵥ a := by
    rw [mulVec_add, mulVec_mulVec, hsquare, one_mulVec, add_comm]
  by_cases hzero : a + M *ᵥ a = 0
  · have hray := hM.sameRay
    rw [eq_neg_of_add_eq_zero_right hzero, sameRay_neg_swap] at hray
    exact h hray
  · have hperp : (a + M *ᵥ a) ⬝ᵥ n = 0 := by
      have hdot := dotProduct_mulVec_mulVec horth a n
      rw [hfix] at hdot
      rw [add_dotProduct, hdot, dotProduct_comm a n, hna, add_zero]
    have hone : M = 1 := by
      apply hM.isRotation.eq_of_agree .one (u := n) (v := a + M *ᵥ a)
      · rw [hfix, one_mulVec]
      · rw [hsum, one_mulVec]
      · exact cross_ne_zero_of_orthogonal hn hzero hperp
    rw [hone, one_mulVec] at hneg
    exact hv (self_eq_neg.mp hneg)

/-- The turn as a quaternion: `k` is a multiple of the cross product of two unit vectors. -/
theorem isTurn_quaternionMatrix {s : K} (hs : s ≠ 0) (ha : a ⬝ᵥ a = 1) (hb : b ⬝ᵥ b = 1)
    (hsq : s * s = 2 * (1 + a ⬝ᵥ b)) :
    IsTurn (quaternionMatrix (s / 2) ((s⁻¹ • crossProduct a b) 0) ((s⁻¹ • crossProduct a b) 1)
      ((s⁻¹ • crossProduct a b) 2)) a b := by
  have hcross : crossProduct a b ⬝ᵥ crossProduct a b = 1 - (a ⬝ᵥ b) * (a ⬝ᵥ b) := by
    rw [cross_dot_cross, ha, hb, dotProduct_comm b a, one_mul]
  have hhalf : 2 * (s / 2) * s⁻¹ = 1 := by
    field_simp
  constructor
  · apply isRotation_quaternionMatrix
    have hnorm : s / 2 * (s / 2) + s⁻¹ * s⁻¹ * (crossProduct a b ⬝ᵥ crossProduct a b) = 1 := by
      rw [hcross]
      field_simp
      linear_combination (s * s - 2 * (1 - a ⬝ᵥ b)) * hsq
    rw [← hnorm]
    simp only [Pi.smul_apply, smul_eq_mul, dotProduct, Fin.sum_univ_three]
    ring
  · -- `a` is moved to `b`
    have hmove : quaternionMatrix (s / 2) ((s⁻¹ • crossProduct a b) 0)
        ((s⁻¹ • crossProduct a b) 1) ((s⁻¹ • crossProduct a b) 2) *ᵥ a = b := by
      have hfirst : crossProduct (s⁻¹ • crossProduct a b) a = s⁻¹ • (b - (a ⬝ᵥ b) • a) := by
        rw [map_smul, LinearMap.smul_apply, cross_cross_eq_smul_sub_smul, ha, one_smul,
          dotProduct_comm b a]
      have hsecond : crossProduct (s⁻¹ • crossProduct a b)
          (crossProduct (s⁻¹ • crossProduct a b) a) =
            -((s⁻¹ * s⁻¹ * (1 - (a ⬝ᵥ b) * (a ⬝ᵥ b))) • a) := by
        rw [cross_cross_eq_smul_sub_smul', smul_dotProduct, dotProduct_comm _ a, dot_self_cross,
          smul_zero, zero_smul, zero_sub, smul_dotProduct, dotProduct_smul, hcross, smul_eq_mul,
          smul_eq_mul, mul_assoc]
      have hcoeff : 2 * (s⁻¹ * s⁻¹ * (1 - (a ⬝ᵥ b) * (a ⬝ᵥ b))) = 1 - a ⬝ᵥ b := by
        field_simp
        linear_combination (a ⬝ᵥ b - 1) * hsq
      rw [quaternionMatrix_mulVec, hsecond, hfirst, smul_smul, hhalf, one_smul, smul_neg, smul_smul,
        hcoeff, sub_smul, one_smul]
      abel
    rw [hmove]
  · intro n hna hnb
    have hzero : crossProduct (s⁻¹ • crossProduct a b) n = 0 := by
      rw [map_smul, LinearMap.smul_apply, cross_cross_eq_smul_sub_smul, dotProduct_comm, hna,
        dotProduct_comm, hnb, zero_smul, zero_smul, sub_zero, smul_zero]
    rw [quaternionMatrix_mulVec, hzero, map_zero, smul_zero, smul_zero, add_zero, add_zero]

end Field

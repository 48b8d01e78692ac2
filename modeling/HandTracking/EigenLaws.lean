/-
What the documentation of Eigen says of the functions in `Eigen`.

* `Eigen.Lawful` — the laws: `fromTwoVectors` is the rotation about the cross product of its
  arguments, and `angleAxis` the quaternion of half the angle;
* `normalized_mulVec`, `fromTwoVectors_mulVec`, `angleAxis_mulVec` — what a rotation of the
  arguments does;
* `geometricEigen` — the functions over the reals, which keep the laws.
-/
import HandTracking.HandRotation
import HandTracking.Library.Rotation
import Mathlib.Analysis.SpecialFunctions.Trigonometric.Basic

namespace HandPose

open Matrix

variable {K : Type} [Field K] [LinearOrder K] [IsStrictOrderedRing K]

/-- What the results rely on: the documented values of the functions of Eigen. -/
structure Eigen.Lawful (E : Eigen K) : Prop where
  norm_nonneg : ∀ v, 0 ≤ E.norm v
  mul_self_norm : ∀ v, E.norm v * E.norm v = v ⬝ᵥ v
  /-- The zero vector stays as it is. -/
  normalized_eq : ∀ v, E.normalized v = (E.norm v)⁻¹ • v
  isTurn_fromTwoVectors : ∀ a b, ¬ SameRay K a (-b) → IsTurn (E.fromTwoVectors a b) a b
  /-- Cosine and sine of half the angle, about a unit vector. -/
  angleAxis_eq : ∀ angle, ∃ w s, w * w + s * s = 1 ∧ (angle = 0 → s = 0) ∧ ∀ n, n ⬝ᵥ n = 1 →
    E.angleAxis angle n = quaternionMatrix w ((s • n) 0) ((s • n) 1) ((s • n) 2)

namespace Eigen.Lawful

variable {E : Eigen K} (hE : E.Lawful) {S : Matrix3 K} {a b v : Vec3 K}

include hE

theorem norm_pos (h : v ≠ 0) : 0 < E.norm v := by
  refine lt_of_le_of_ne (hE.norm_nonneg v) fun hzero => h ?_
  rw [← dotProduct_self_eq_zero, ← hE.mul_self_norm, ← hzero, mul_zero]

theorem norm_mulVec (hS : Sᵀ * S = 1) (v : Vec3 K) : E.norm (S *ᵥ v) = E.norm v := by
  apply (mul_self_inj (hE.norm_nonneg _) (hE.norm_nonneg _)).mp
  rw [hE.mul_self_norm, hE.mul_self_norm, dotProduct_mulVec_mulVec hS]

theorem normalized_mulVec (hS : Sᵀ * S = 1) (v : Vec3 K) :
    E.normalized (S *ᵥ v) = S *ᵥ E.normalized v := by
  rw [hE.normalized_eq, hE.normalized_eq, hE.norm_mulVec hS, mulVec_smul]

theorem dotProduct_normalized (h : v ≠ 0) : E.normalized v ⬝ᵥ E.normalized v = 1 := by
  have hnorm := (hE.norm_pos h).ne'
  rw [hE.normalized_eq, smul_dotProduct, dotProduct_smul, ← hE.mul_self_norm, smul_eq_mul,
    smul_eq_mul, inv_mul_cancel_left₀ hnorm, inv_mul_cancel₀ hnorm]

theorem sameRay_normalized (h : v ≠ 0) : SameRay K (E.normalized v) v := by
  rw [hE.normalized_eq]
  exact (SameRay.refl v).pos_smul_left (inv_pos.mpr (hE.norm_pos h))

/-- A unit vector in the direction of `v` is `v` normalized. -/
theorem eq_normalized (h : SameRay K a v) (ha : a ⬝ᵥ a = 1) (hv : v ≠ 0) : a = E.normalized v := by
  apply eq_of_sameRay (h.trans (hE.sameRay_normalized hv).symm fun hzero => absurd hzero hv)
  rw [ha, hE.dotProduct_normalized hv]

theorem fromTwoVectors_mulVec (hS : IsRotation S) (h : ¬ SameRay K a (-b)) :
    E.fromTwoVectors (S *ᵥ a) (S *ᵥ b) = S * E.fromTwoVectors a b * Sᵀ := by
  have hmoved : ¬ SameRay K (S *ᵥ a) (-(S *ᵥ b)) := by
    intro hray
    apply h
    have hback := hray.map (mulVecLin Sᵀ)
    rwa [mulVecLin_apply, mulVecLin_apply, mulVec_neg, mulVec_transpose_mulVec hS.orthogonal,
      mulVec_transpose_mulVec hS.orthogonal] at hback
  exact (hE.isTurn_fromTwoVectors _ _ hmoved).unique hmoved
    ((hE.isTurn_fromTwoVectors _ _ h).conj hS)

/-- Between vectors of one direction there is nothing to turn. -/
theorem fromTwoVectors_of_sameRay (h : SameRay K a b) (ha : a ≠ 0) (hb : b ≠ 0) :
    E.fromTwoVectors a b = 1 := by
  have hopposite : ¬ SameRay K a (-b) := by
    intro hray
    have hself := h.symm.trans hray fun hzero => absurd hzero ha
    exact hb (eq_zero_of_sameRay_self_neg hself)
  exact (hE.isTurn_fromTwoVectors _ _ hopposite).unique hopposite (.one h)

theorem isRotation_angleAxis (angle : K) (hv : v ⬝ᵥ v = 1) :
    IsRotation (E.angleAxis angle v) := by
  obtain ⟨w, s, hunit, -, heq⟩ := hE.angleAxis_eq angle
  rw [heq v hv]
  apply isRotation_quaternionMatrix
  have hv : v 0 * v 0 + v 1 * v 1 + v 2 * v 2 = 1 := by
    rw [← hv, dotProduct, Fin.sum_univ_three]
  simp only [Pi.smul_apply, smul_eq_mul]
  linear_combination hunit + s * s * hv

theorem angleAxis_mulVec_axis (angle : K) (hv : v ⬝ᵥ v = 1) : E.angleAxis angle v *ᵥ v = v := by
  obtain ⟨w, s, -, -, heq⟩ := hE.angleAxis_eq angle
  have hcross : crossProduct (s • v) v = 0 := by
    rw [map_smul, LinearMap.smul_apply, cross_self, smul_zero]
  rw [heq v hv, quaternionMatrix_mulVec, hcross, map_zero, smul_zero, smul_zero, add_zero, add_zero]

theorem angleAxis_mulVec (hS : IsRotation S) (angle : K) (hv : v ⬝ᵥ v = 1) :
    E.angleAxis angle (S *ᵥ v) = S * E.angleAxis angle v * Sᵀ := by
  obtain ⟨w, s, -, -, heq⟩ := hE.angleAxis_eq angle
  have hmoved : (S *ᵥ v) ⬝ᵥ (S *ᵥ v) = 1 := by
    rw [dotProduct_mulVec_mulVec hS.orthogonal, hv]
  rw [heq v hv, heq _ hmoved, hS.mul_quaternionMatrix, Matrix.mul_assoc, hS.mul_transpose,
    Matrix.mul_one, mulVec_smul]

theorem angleAxis_zero (hv : v ⬝ᵥ v = 1) : E.angleAxis 0 v = 1 := by
  obtain ⟨w, s, -, hzero, heq⟩ := hE.angleAxis_eq 0
  rw [heq v hv, hzero rfl, zero_smul]
  ext i j
  fin_cases i <;> fin_cases j <;> simp [quaternionMatrix]

end Eigen.Lawful

/-! ### Over the reals -/

/-- `FromTwoVectors`, by the half angle between the directions. -/
noncomputable def halfTurn (u v : Vec3 ℝ) : Matrix3 ℝ :=
  let s := √(2 * (1 + u ⬝ᵥ v))
  let q := s⁻¹ • crossProduct u v
  quaternionMatrix (s / 2) (q 0) (q 1) (q 2)

/-- The functions as geometry has them, over the real numbers. -/
noncomputable def geometricEigen : Eigen ℝ where
  norm v := √(v ⬝ᵥ v)
  normalized v := (√(v ⬝ᵥ v))⁻¹ • v
  fromTwoVectors a b := halfTurn ((√(a ⬝ᵥ a))⁻¹ • a) ((√(b ⬝ᵥ b))⁻¹ • b)
  angleAxis angle n :=
    let q := Real.sin (angle / 2) • n
    quaternionMatrix (Real.cos (angle / 2)) (q 0) (q 1) (q 2)
  quaternion _ := ⟨0, 0, 0, 1⟩

theorem dotProduct_self_real_nonneg (v : Vec3 ℝ) : 0 ≤ v ⬝ᵥ v := by
  rw [dotProduct, Fin.sum_univ_three]
  exact add_nonneg (add_nonneg (mul_self_nonneg _) (mul_self_nonneg _)) (mul_self_nonneg _)

theorem dotProduct_scaled {v : Vec3 ℝ} (h : v ≠ 0) :
    ((√(v ⬝ᵥ v))⁻¹ • v) ⬝ᵥ ((√(v ⬝ᵥ v))⁻¹ • v) = 1 := by
  have hsq := Real.mul_self_sqrt (dotProduct_self_real_nonneg v)
  have hne : √(v ⬝ᵥ v) ≠ 0 := by
    intro hzero
    rw [hzero, mul_zero] at hsq
    exact h (dotProduct_self_eq_zero.mp hsq.symm)
  rw [smul_dotProduct, dotProduct_smul, smul_eq_mul, smul_eq_mul]
  nth_rewrite 3 [← hsq]
  rw [inv_mul_cancel_left₀ hne, inv_mul_cancel₀ hne]

/-- Only between opposite unit vectors there is no half turn. -/
theorem isTurn_halfTurn {u v : Vec3 ℝ} (hu : u ⬝ᵥ u = 1) (hv : v ⬝ᵥ v = 1)
    (h : ¬ SameRay ℝ u (-v)) : IsTurn (halfTurn u v) u v := by
  have hpos : 0 < 2 * (1 + u ⬝ᵥ v) := by
    have hsum : (u + v) ⬝ᵥ (u + v) = 2 * (1 + u ⬝ᵥ v) := by
      rw [add_dotProduct, dotProduct_add, dotProduct_add, hu, hv, dotProduct_comm v u]
      ring
    rw [← hsum]
    refine lt_of_le_of_ne (dotProduct_self_real_nonneg _) fun hzero => h ?_
    have hadd := dotProduct_self_eq_zero.mp hzero.symm
    rw [eq_neg_of_add_eq_zero_left hadd]
  exact isTurn_quaternionMatrix (Real.sqrt_pos.mpr hpos).ne' hu hv (Real.mul_self_sqrt hpos.le)

theorem lawful_geometricEigen : geometricEigen.Lawful where
  norm_nonneg v := Real.sqrt_nonneg _
  mul_self_norm v := Real.mul_self_sqrt (dotProduct_self_real_nonneg v)
  normalized_eq v := rfl
  isTurn_fromTwoVectors a b h := by
    have ha := left_ne_zero_of_not_opposite h
    have hb := right_ne_zero_of_not_opposite h
    have hpos : ∀ {v : Vec3 ℝ}, v ≠ 0 → 0 < (√(v ⬝ᵥ v))⁻¹ := by
      intro v hv
      refine inv_pos.mpr (Real.sqrt_pos.mpr (lt_of_le_of_ne (dotProduct_self_real_nonneg v) ?_))
      exact fun hzero => hv (dotProduct_self_eq_zero.mp hzero.symm)
    have hturn := isTurn_halfTurn (dotProduct_scaled ha) (dotProduct_scaled hb) fun hray => by
      rw [← smul_neg] at hray
      exact h (sameRay_of_pos_smul (hpos ha) (hpos hb) hray)
    exact hturn.of_pos_smul (hpos ha) (hpos hb)
  angleAxis_eq angle := by
    refine ⟨Real.cos (angle / 2), Real.sin (angle / 2), ?_, ?_, fun n _ => rfl⟩
    · rw [← sq, ← sq, Real.cos_sq_add_sin_sq]
    · rintro rfl
      rw [zero_div, Real.sin_zero]

end HandPose

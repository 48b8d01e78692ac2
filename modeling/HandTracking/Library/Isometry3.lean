/-
Affine maps of three-dimensional space as pairs of a matrix and a vector.

* `Isometry3` — a monoid under composition, acting on points by `apply`;
* `inverse` — the inverse for an orthogonal matrix, taken by transposition;
* `IsRigid` — the matrix is orthogonal; then `inverse` is the inverse
  (`inverse_mul_cancel`, `mul_inverse_cancel`), and composites are rigid;
* `quaternionMatrix` — the matrix of a quaternion, orthogonal for a unit quaternion.
-/
import HandTracking.Library.Numerals
import Mathlib.LinearAlgebra.Matrix.NonsingularInverse
import Mathlib.Tactic.Abel
import Mathlib.Tactic.LinearCombination

open Matrix

/-- A point or a vector in space. -/
abbrev Vec3 (K : Type) := Fin 3 → K

/-- A linear map of the space. -/
abbrev Matrix3 (K : Type) := Matrix (Fin 3) (Fin 3) K

/-- `Isometry3`: a linear part and a translation. -/
@[ext]
structure Isometry3 (K : Type) where
  linear : Matrix3 K
  translation : Vec3 K

/-- The rotation of the quaternion `w + x i + y j + z k`. -/
def quaternionMatrix {K : Type} [CommRing K] (w x y z : K) : Matrix3 K :=
  !![1 - (2 * y * y + 2 * z * z), 2 * y * x - 2 * z * w, 2 * z * x + 2 * y * w;
     2 * y * x + 2 * z * w, 1 - (2 * x * x + 2 * z * z), 2 * z * y - 2 * x * w;
     2 * z * x - 2 * y * w, 2 * z * y + 2 * x * w, 1 - (2 * x * x + 2 * y * y)]

theorem quaternionMatrix_orthogonal {K : Type} [CommRing K] {w x y z : K}
    (h : w * w + x * x + y * y + z * z = 1) :
    (quaternionMatrix w x y z)ᵀ * quaternionMatrix w x y z = 1 := by
  ext i j
  rw [mul_apply, Fin.sum_univ_three]
  fin_cases i <;> fin_cases j <;> simp [quaternionMatrix]
  · linear_combination 4 * (y * y + z * z) * h
  · linear_combination -(4 * x * y) * h
  · linear_combination -(4 * x * z) * h
  · linear_combination -(4 * x * y) * h
  · linear_combination 4 * (x * x + z * z) * h
  · linear_combination -(4 * y * z) * h
  · linear_combination -(4 * x * z) * h
  · linear_combination -(4 * y * z) * h
  · linear_combination 4 * (x * x + y * y) * h

namespace Isometry3

variable {K : Type} [CommRing K]

instance : One (Isometry3 K) := ⟨⟨1, 0⟩⟩

instance : Mul (Isometry3 K) :=
  ⟨fun T S => ⟨T.linear * S.linear, T.linear *ᵥ S.translation + T.translation⟩⟩

/-- The image of a point. -/
def apply (T : Isometry3 K) (p : Vec3 K) : Vec3 K := T.linear *ᵥ p + T.translation

/-- Rotates the arguments. -/
def rotate (T : Isometry3 K) (R : Matrix3 K) : Isometry3 K := ⟨T.linear * R, T.translation⟩

/-- Translates the values. -/
def pretranslate (T : Isometry3 K) (t : Vec3 K) : Isometry3 K := ⟨T.linear, T.translation + t⟩

/-- The way back, with the transposed linear part. -/
def inverse (T : Isometry3 K) : Isometry3 K :=
  ⟨T.linearᵀ, -(T.linearᵀ *ᵥ T.translation)⟩

@[simp] theorem one_linear : (1 : Isometry3 K).linear = 1 := rfl

@[simp] theorem one_translation : (1 : Isometry3 K).translation = 0 := rfl

@[simp] theorem mul_linear (T S : Isometry3 K) : (T * S).linear = T.linear * S.linear := rfl

@[simp] theorem mul_translation (T S : Isometry3 K) :
    (T * S).translation = T.linear *ᵥ S.translation + T.translation := rfl

@[simp] theorem inverse_linear (T : Isometry3 K) : T.inverse.linear = T.linearᵀ := rfl

@[simp] theorem inverse_translation (T : Isometry3 K) :
    T.inverse.translation = -(T.linearᵀ *ᵥ T.translation) := rfl

instance : Monoid (Isometry3 K) where
  mul_assoc T S U := by
    ext1
    · exact Matrix.mul_assoc ..
    · simp only [mul_linear, mul_translation, mulVec_add, mulVec_mulVec, add_assoc]
  one_mul T := by
    ext1
    · exact Matrix.one_mul _
    · simp only [mul_translation, one_linear, one_translation, one_mulVec, add_zero]
  mul_one T := by
    ext1
    · exact Matrix.mul_one _
    · simp only [mul_translation, one_translation, mulVec_zero, zero_add]

@[simp]
theorem one_apply (p : Vec3 K) : (1 : Isometry3 K).apply p = p := by
  rw [apply, one_linear, one_translation, one_mulVec, add_zero]

theorem apply_apply (T S : Isometry3 K) (p : Vec3 K) : T.apply (S.apply p) = (T * S).apply p := by
  simp only [apply, mul_linear, mul_translation, mulVec_add, mulVec_mulVec, add_assoc]

/-- The matrix is orthogonal. -/
def IsRigid (T : Isometry3 K) : Prop := T.linearᵀ * T.linear = 1

namespace IsRigid

variable {T S : Isometry3 K}

theorem mul_transpose (h : T.IsRigid) : T.linear * T.linearᵀ = 1 := mul_eq_one_comm.mp h

theorem mul (hT : T.IsRigid) (hS : S.IsRigid) : (T * S).IsRigid := by
  have hTS : (T * S).linearᵀ * (T * S).linear =
      S.linearᵀ * (T.linearᵀ * T.linear) * S.linear := by
    rw [mul_linear, transpose_mul]
    simp only [Matrix.mul_assoc]
  rw [IsRigid, hTS, hT, Matrix.mul_one, hS]

theorem inverse_mul_cancel (h : T.IsRigid) : T.inverse * T = 1 := by
  ext1
  · exact h
  · simp only [mul_translation, inverse_linear, inverse_translation, one_translation,
      add_neg_cancel]

theorem mul_inverse_cancel (h : T.IsRigid) : T * T.inverse = 1 := by
  ext1
  · exact h.mul_transpose
  · simp only [mul_translation, inverse_translation, one_translation, mulVec_neg, mulVec_mulVec,
      h.mul_transpose, one_mulVec, neg_add_cancel]

/-- A rigid map as an invertible element. -/
def unit (h : T.IsRigid) : (Isometry3 K)ˣ :=
  ⟨T, T.inverse, h.mul_inverse_cancel, h.inverse_mul_cancel⟩

end IsRigid

end Isometry3

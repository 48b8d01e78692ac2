/-
Lists of points that are similar: all distances have one ratio.

* `SimilarTo` — the notion, on the squares of the distances;
* `similarTo_affine_iff` — points that are moved by an affine map are similar to those before
  exactly if its matrix is a multiple of an orthogonal one, provided they span the space.
-/
import HandTracking.Library.Numerals
import Mathlib.LinearAlgebra.Matrix.NonsingularInverse
import Mathlib.Tactic.LinearCombination

open Matrix

variable {ι n K : Type} [Fintype n] [Field K]

/-- The squares of all distances have one ratio. -/
def SimilarTo (p q : ι → n → K) : Prop :=
  ∃ k, ∀ i j, (p i - p j) ⬝ᵥ (p i - p j) = k * ((q i - q j) ⬝ᵥ (q i - q j))

/-- The square of a difference, by the values of a symmetric form. -/
theorem dotProduct_mulVec_sub {F : Matrix n n K} (hF : Fᵀ = F) (u v : n → K) :
    (u - v) ⬝ᵥ (F *ᵥ (u - v)) = u ⬝ᵥ (F *ᵥ u) + v ⬝ᵥ (F *ᵥ v) - 2 * (u ⬝ᵥ (F *ᵥ v)) := by
  have hsymm : v ⬝ᵥ (F *ᵥ u) = u ⬝ᵥ (F *ᵥ v) := by
    rw [dotProduct_mulVec, ← mulVec_transpose, hF, dotProduct_comm]
  rw [mulVec_sub, sub_dotProduct, dotProduct_sub, dotProduct_sub, hsymm]
  ring

/-- A symmetric form that vanishes on the differences of points that span is 0. -/
theorem eq_zero_of_differences [CharZero K] [DecidableEq n] {F : Matrix n n K} (hF : Fᵀ = F)
    {q : ι → n → K} {o : ι} (ho : q o = 0) {b : n → ι} (hb : IsUnit (Matrix.of fun i => q (b i)))
    (h : ∀ i j, (q i - q j) ⬝ᵥ (F *ᵥ (q i - q j)) = 0) : F = 0 := by
  have hsquare : ∀ i, q i ⬝ᵥ (F *ᵥ q i) = 0 := by
    intro i
    have hi := h i o
    rwa [ho, sub_zero] at hi
  have hproduct : ∀ i j, q i ⬝ᵥ (F *ᵥ q j) = 0 := by
    intro i j
    have hij := h i j
    rw [dotProduct_mulVec_sub hF, hsquare, hsquare, add_zero, zero_sub, neg_eq_zero] at hij
    exact (mul_eq_zero.mp hij).resolve_left two_ne_zero
  set Q : Matrix n n K := Matrix.of fun i => q (b i)
  have hQ : Q * F * Qᵀ = 0 := by
    ext i j
    rw [mul_apply', mul_apply_eq_vecMul, ← dotProduct_mulVec]
    exact hproduct (b i) (b j)
  have hleft : Q * F = 0 := by
    have hunit : IsUnit Qᵀ := (isUnit_transpose Q).mpr hb
    exact (hunit.mul_left_eq_zero).mp hQ
  exact (hb.mul_right_eq_zero).mp hleft

/-- **When an affine map keeps the points similar.** -/
theorem similarTo_affine_iff [CharZero K] [DecidableEq n] {q : ι → n → K} {o : ι} (ho : q o = 0)
    {b : n → ι} (hb : IsUnit (Matrix.of fun i => q (b i))) {f : K} (hf : f ≠ 0)
    (G : Matrix n n K) (t : n → K) :
    SimilarTo (fun i => f • (G *ᵥ q i + t)) q ↔ ∃ k : K, Gᵀ * G = k • (1 : Matrix n n K) := by
  have hdiff : ∀ i j, (f • (G *ᵥ q i + t) - f • (G *ᵥ q j + t)) ⬝ᵥ
      (f • (G *ᵥ q i + t) - f • (G *ᵥ q j + t)) =
        f * f * ((q i - q j) ⬝ᵥ ((Gᵀ * G) *ᵥ (q i - q j))) := by
    intro i j
    rw [← smul_sub, add_sub_add_right_eq_sub, ← mulVec_sub, smul_dotProduct, dotProduct_smul,
      smul_eq_mul, smul_eq_mul, ← mul_assoc, ← mulVec_mulVec, dotProduct_mulVec _ Gᵀ,
      vecMul_transpose]
  constructor
  · rintro ⟨k, hk⟩
    have hF : (f * f) • (Gᵀ * G) - k • (1 : Matrix n n K) = 0 := by
      refine eq_zero_of_differences ?_ ho hb fun i j => ?_
      · rw [transpose_sub, transpose_smul, transpose_smul, transpose_mul, transpose_transpose,
          transpose_one]
      · have hij := hk i j
        rw [hdiff] at hij
        rw [sub_mulVec, smul_mulVec, smul_mulVec, one_mulVec, dotProduct_sub, dotProduct_smul,
          dotProduct_smul, smul_eq_mul, smul_eq_mul, hij, sub_self]
    refine ⟨(f * f)⁻¹ * k, ?_⟩
    rw [mul_smul, ← sub_eq_zero.mp hF, smul_smul, inv_mul_cancel₀ (mul_ne_zero hf hf), one_smul]
  · rintro ⟨k, hk⟩
    refine ⟨f * f * k, fun i j => ?_⟩
    rw [hdiff, hk, smul_mulVec, one_mulVec, dotProduct_smul, smul_eq_mul, ← mul_assoc]

/-
The Kalman filter by its standard equations.

* `KalmanFilter` — the public matrices, with `predict` and `correct`;
* `Solves` — what is expected of the linear solver that gives the gain;
* `IsCovariance` — symmetric with a nonnegative quadratic form; kept by `predict`
  (`errorCovPre_predict_isCovariance`) and `correct` (`errorCovPost_correct_isCovariance`);
* `cross_eq_of_gain_eq` — filters that agree on the measurement and its noise and have
  the same gain have the same covariance between states and measurements.
-/
import Mathlib.LinearAlgebra.Matrix.DotProduct
import Mathlib.LinearAlgebra.Matrix.ToLinearEquiv
import Mathlib.Tactic.Linarith

open Matrix

/-- The filter of `n` state variables and `m` measured ones. -/
structure KalmanFilter (K n m : Type*) where
  statePre : n → K
  statePost : n → K
  transitionMatrix : Matrix n n K
  measurementMatrix : Matrix m n K
  processNoiseCov : Matrix n n K
  measurementNoiseCov : Matrix m m K
  errorCovPre : Matrix n n K
  errorCovPost : Matrix n n K

namespace KalmanFilter

variable {K n m : Type*} [Field K] [Fintype n] [Fintype m]

/-- `predict`: the state and its covariance, propagated by one step. -/
def predict (f : KalmanFilter K n m) : KalmanFilter K n m :=
  let statePre := f.transitionMatrix *ᵥ f.statePost
  let errorCovPre :=
    f.transitionMatrix * f.errorCovPost * f.transitionMatrixᵀ + f.processNoiseCov
  { f with
    statePre := statePre
    statePost := statePre
    errorCovPre := errorCovPre
    errorCovPost := errorCovPre }

/-- The covariance of what the filter expects to measure. -/
def residualCov (f : KalmanFilter K n m) : Matrix m m K :=
  f.measurementMatrix * f.errorCovPre * f.measurementMatrixᵀ + f.measurementNoiseCov

/-- The gain, by a solver of linear systems. -/
def gain (solve : Matrix m m K → Matrix m n K → Matrix m n K) (f : KalmanFilter K n m) :
    Matrix n m K :=
  (solve f.residualCov (f.measurementMatrix * f.errorCovPre))ᵀ

/-- `correct`: the state and its covariance, after a measurement. -/
def correct (solve : Matrix m m K → Matrix m n K → Matrix m n K) (f : KalmanFilter K n m)
    (measurement : m → K) : KalmanFilter K n m :=
  { f with
    statePost :=
      f.statePre + f.gain solve *ᵥ (measurement - f.measurementMatrix *ᵥ f.statePre)
    errorCovPost := f.errorCovPre - f.gain solve * (f.measurementMatrix * f.errorCovPre) }

/-- The solver solves the systems that have exactly one solution. -/
def Solves [DecidableEq m] (solve : Matrix m m K → Matrix m n K → Matrix m n K) : Prop :=
  ∀ (S : Matrix m m K) (B : Matrix m n K), IsUnit S.det → S * solve S B = B

omit [Fintype n] in
theorem solves_inv [DecidableEq m] :
    Solves fun (S : Matrix m m K) (B : Matrix m n K) => S⁻¹ * B := by
  intro S B hS
  rw [← Matrix.mul_assoc, mul_nonsing_inv S hS, Matrix.one_mul]

/-! ### Covariances -/

section

variable [LinearOrder K] [IsStrictOrderedRing K]

/-- A symmetric matrix whose quadratic form is nowhere negative. -/
structure IsCovariance (P : Matrix n n K) : Prop where
  symm : Pᵀ = P
  nonneg : ∀ x, 0 ≤ x ⬝ᵥ P *ᵥ x

omit [IsStrictOrderedRing K] in
theorem isCovariance_zero : IsCovariance (0 : Matrix n n K) where
  symm := transpose_zero
  nonneg x := by rw [zero_mulVec, dotProduct_zero]

theorem IsCovariance.add {P Q : Matrix n n K} (hP : IsCovariance P) (hQ : IsCovariance Q) :
    IsCovariance (P + Q) where
  symm := by rw [transpose_add, hP.symm, hQ.symm]
  nonneg x := by
    rw [add_mulVec, dotProduct_add]
    exact add_nonneg (hP.nonneg x) (hQ.nonneg x)

omit [IsStrictOrderedRing K] in
theorem IsCovariance.congr {P : Matrix n n K} (hP : IsCovariance P) (A : Matrix m n K) :
    IsCovariance (A * P * Aᵀ) where
  symm := by rw [transpose_mul, transpose_mul, transpose_transpose, hP.symm, Matrix.mul_assoc]
  nonneg x := by
    have h := hP.nonneg (Aᵀ *ᵥ x)
    rw [Matrix.mul_assoc, ← mulVec_mulVec, ← mulVec_mulVec, dotProduct_mulVec, ← mulVec_transpose]
    exact h

theorem isCovariance_diagonal [DecidableEq n] {d : n → K} (hd : ∀ i, 0 ≤ d i) :
    IsCovariance (diagonal d) where
  symm := diagonal_transpose d
  nonneg x := by
    rw [dotProduct]
    refine Finset.sum_nonneg fun i _ => ?_
    rw [mulVec_diagonal]
    have : x i * (d i * x i) = d i * (x i * x i) := by ring
    rw [this]
    exact mul_nonneg (hd i) (mul_self_nonneg (x i))

/-- A covariance plus a positive diagonal is invertible. -/
theorem IsCovariance.isUnit_det_add_diagonal [DecidableEq n] {P : Matrix n n K}
    (hP : IsCovariance P) {d : n → K} (hd : ∀ i, 0 < d i) : IsUnit (P + diagonal d).det := by
  rw [isUnit_iff_ne_zero]
  intro hdet
  obtain ⟨v, hv, hzero⟩ := exists_mulVec_eq_zero_iff.mpr hdet
  -- the quadratic form of `v` vanishes, so each of its summands does
  have hsum : v ⬝ᵥ P *ᵥ v + ∑ i, d i * (v i * v i) = 0 := by
    have h : v ⬝ᵥ (P + diagonal d) *ᵥ v = 0 := by rw [hzero, dotProduct_zero]
    rw [add_mulVec, dotProduct_add] at h
    rw [← h, add_right_inj, dotProduct]
    refine Finset.sum_congr rfl fun i _ => ?_
    rw [mulVec_diagonal]
    ring
  have hterm : ∀ i, 0 ≤ d i * (v i * v i) := fun i =>
    mul_nonneg (hd i).le (mul_self_nonneg (v i))
  have hzero' : ∑ i, d i * (v i * v i) = 0 := by
    have h₁ := hP.nonneg v
    have h₂ : 0 ≤ ∑ i, d i * (v i * v i) := Finset.sum_nonneg fun i _ => hterm i
    linarith
  refine hv (funext fun i => ?_)
  have hi := (Finset.sum_eq_zero_iff_of_nonneg fun i _ => hterm i).mp hzero' i (Finset.mem_univ i)
  rcases mul_eq_zero.mp hi with h | h
  · exact absurd h (hd i).ne'
  · exact mul_self_eq_zero.mp h

omit [Fintype m] in
theorem errorCovPre_predict_isCovariance {f : KalmanFilter K n m}
    (hP : IsCovariance f.errorCovPost) (hQ : IsCovariance f.processNoiseCov) :
    IsCovariance f.predict.errorCovPre :=
  (hP.congr f.transitionMatrix).add hQ

variable [DecidableEq m] {solve : Matrix m m K → Matrix m n K → Matrix m n K}
  {f : KalmanFilter K n m} {r : m → K}

/-- The equation of the gain, under a positive diagonal measurement noise. -/
theorem gain_mul_residualCov (hsolve : Solves solve) (hP : IsCovariance f.errorCovPre)
    (hR : f.measurementNoiseCov = diagonal r) (hr : ∀ i, 0 < r i) :
    f.gain solve * f.residualCov = f.errorCovPre * f.measurementMatrixᵀ := by
  have hS : IsUnit f.residualCov.det := by
    rw [residualCov, hR]
    exact (hP.congr f.measurementMatrix).isUnit_det_add_diagonal hr
  have hsymm : f.residualCovᵀ = f.residualCov := by
    rw [residualCov, transpose_add, (hP.congr f.measurementMatrix).symm, hR, diagonal_transpose]
  have h := congrArg transpose (hsolve f.residualCov (f.measurementMatrix * f.errorCovPre) hS)
  rw [transpose_mul, hsymm, transpose_mul, hP.symm] at h
  exact h

/-- The gain of a residual that is given by the residual covariance. -/
theorem gain_mulVec_residualCov (hsolve : Solves solve) (hP : IsCovariance f.errorCovPre)
    (hR : f.measurementNoiseCov = diagonal r) (hr : ∀ i, 0 < r i) (u : m → K) :
    f.gain solve *ᵥ (f.residualCov *ᵥ u) = f.errorCovPre *ᵥ (f.measurementMatrixᵀ *ᵥ u) := by
  rw [mulVec_mulVec, gain_mul_residualCov hsolve hP hR hr, ← mulVec_mulVec]

/-- A corrected covariance is `(1 - G H) P (1 - G H)ᵀ + G R Gᵀ`. -/
theorem errorCovPost_correct [DecidableEq n] (hsolve : Solves solve)
    (hP : IsCovariance f.errorCovPre) (hR : f.measurementNoiseCov = diagonal r)
    (hr : ∀ i, 0 < r i) (z : m → K) :
    (f.correct solve z).errorCovPost =
      (1 - f.gain solve * f.measurementMatrix) * f.errorCovPre *
          (1 - f.gain solve * f.measurementMatrix)ᵀ +
        f.gain solve * f.measurementNoiseCov * (f.gain solve)ᵀ := by
  have hgain := gain_mul_residualCov hsolve hP hR hr
  rw [residualCov, Matrix.mul_add] at hgain
  show f.errorCovPre - f.gain solve * (f.measurementMatrix * f.errorCovPre) = _
  generalize f.gain solve = G at hgain ⊢
  generalize f.measurementMatrix = H at hgain ⊢
  have hGR : G * f.measurementNoiseCov =
      f.errorCovPre * Hᵀ - G * (H * f.errorCovPre * Hᵀ) :=
    eq_sub_of_add_eq' hgain
  rw [hGR, transpose_sub, transpose_one, transpose_mul]
  simp only [Matrix.sub_mul, Matrix.mul_sub, Matrix.one_mul, Matrix.mul_one, Matrix.mul_assoc]
  abel

theorem errorCovPost_correct_isCovariance (hsolve : Solves solve)
    (hP : IsCovariance f.errorCovPre) (hR : f.measurementNoiseCov = diagonal r)
    (hr : ∀ i, 0 < r i) (z : m → K) : IsCovariance (f.correct solve z).errorCovPost := by
  classical
  rw [errorCovPost_correct hsolve hP hR hr]
  refine (hP.congr _).add (IsCovariance.congr ?_ _)
  rw [hR]
  exact isCovariance_diagonal fun i => (hr i).le

/-! ### What the gain tells -/

/-- Filters with the same measurement matrix, the same noise and the same gain have the
same covariance between states and measurements. -/
theorem cross_eq_of_gain_eq {g : KalmanFilter K n m} (hsolve : Solves solve)
    (hf : IsCovariance f.errorCovPre) (hg : IsCovariance g.errorCovPre)
    (hfR : f.measurementNoiseCov = diagonal r) (hgR : g.measurementNoiseCov = diagonal r)
    (hr : ∀ i, 0 < r i) (hH : f.measurementMatrix = g.measurementMatrix)
    (hgain : f.gain solve = g.gain solve) :
    f.errorCovPre * f.measurementMatrixᵀ = g.errorCovPre * g.measurementMatrixᵀ := by
  have hfS := gain_mul_residualCov hsolve hf hfR hr
  have hgS := gain_mul_residualCov hsolve hg hgR hr
  -- `(1 - H G) S = R` for both filters, and `R` is invertible
  have key : ∀ h : KalmanFilter K n m, h.measurementNoiseCov = diagonal r →
      h.gain solve * h.residualCov = h.errorCovPre * h.measurementMatrixᵀ →
      (1 - h.measurementMatrix * h.gain solve) * h.residualCov = diagonal r := by
    intro h hR hS
    rw [Matrix.sub_mul, Matrix.one_mul, Matrix.mul_assoc, hS, ← Matrix.mul_assoc, residualCov, hR,
      add_sub_cancel_left]
  have hf' := key f hfR hfS
  have hg' := key g hgR hgS
  rw [← hH, ← hgain] at hg'
  have hunit : IsUnit (1 - f.measurementMatrix * f.gain solve).det := by
    have hdet := congrArg det hf'
    rw [det_mul, det_diagonal] at hdet
    refine isUnit_of_mul_isUnit_left (y := f.residualCov.det) ?_
    rw [hdet, isUnit_iff_ne_zero]
    exact Finset.prod_ne_zero_iff.mpr fun i _ => (hr i).ne'
  have hS : f.residualCov = g.residualCov := by
    have h := congrArg (fun X => (1 - f.measurementMatrix * f.gain solve)⁻¹ * X)
      (hf'.trans hg'.symm)
    rwa [nonsing_inv_mul_cancel_left _ _ hunit, nonsing_inv_mul_cancel_left _ _ hunit] at h
  rw [← hfS, ← hgS, hgain, hS]

end

end KalmanFilter

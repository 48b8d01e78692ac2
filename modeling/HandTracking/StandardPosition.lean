/-
The pairs of cameras for which exact depths give exact points.

The left rotation brings the baseline to the x axis, and writing the rotation back over a vector
does not undo this unless there is nothing to turn.  Then the right camera can be turned about the
baseline only, and its rotation is none either.

* `turnsBack_iff` — the errors of the rotations cancel exactly if both are the identity.
-/
import HandTracking.LiftOutputs

namespace Lift

open Camera Calculator HandPose Matrix

section

variable {K : Type} [Field K] [LinearOrder K] [IsStrictOrderedRing K]

/-! ### One rotation -/

omit [LinearOrder K] [IsStrictOrderedRing K] in
theorem one_add_turnBackError (A : Matrix3 K) :
    mulInPlace false Aᵀ 1 * A = 1 + turnBackError A := by
  apply ext_of_mulVec_single
  intro j
  rw [← mulVec_mulVec, ← mulVecInPlace_eq, mulVecInPlace_transpose, add_mulVec, one_mulVec]

/-- A rotation that reverses no vector is not undone by writing its transpose over a vector. -/
theorem turnBackError_eq_zero_iff {A : Matrix3 K} (hA : IsRotation A)
    (hreverse : ∀ v, v ≠ 0 → Aᵀ *ᵥ v ≠ -v) : turnBackError A = 0 ↔ A = 1 := by
  refine ⟨fun hzero => ?_, fun hone => by rw [hone, turnBackError_one]⟩
  have hmul := one_add_turnBackError A
  rw [hzero, add_zero] at hmul
  have hwritten : mulInPlace false Aᵀ 1 = Aᵀ :=
    calc mulInPlace false Aᵀ 1 = mulInPlace false Aᵀ 1 * (A * Aᵀ) := by
          rw [hA.mul_transpose, Matrix.mul_one]
      _ = Aᵀ := by rw [← Matrix.mul_assoc, hmul, Matrix.one_mul]
  obtain hone | ⟨hpacket, -⟩ := (mulInPlace_one_eq_iff hA.transpose hreverse).mp hwritten
  · rw [← transpose_transpose A, hone, transpose_one]
  · cases hpacket

/-! ### The left camera -/

/-- Where the error of a turn from `v` to the x axis leaves `v` alone, `v` is along the axis. -/
theorem along_of_turnBackError {B : Matrix3 K} {v : Vec3 K} {n : K} (hB : Bᵀ * B = 1)
    (hv : B *ᵥ ![n, 0, 0] = v) (herror : turnBackError Bᵀ *ᵥ v = 0) :
    v = ![n, 0, 0] ∨ v = ![-n, 0, 0] := by
  have hturned : Bᵀ *ᵥ v = ![n, 0, 0] := by
    rw [← hv, mulVec_transpose_mulVec hB]
  have hwritten := mulVecInPlace_transpose Bᵀ v
  rw [herror, add_zero, hturned, transpose_transpose] at hwritten
  have hcol : ∀ i, v i = B i 0 * n := by
    intro i
    rw [← hv, mulVec, dotProduct, Fin.sum_univ_three]
    simp
  have hfirst := congrFun hwritten 1
  rw [mulVecInPlace_first, hv] at hfirst
  have hsecond := congrFun hwritten 2
  rw [mulVecInPlace_second, hv, hwritten] at hsecond
  have hlength : v 0 * v 0 + v 1 * v 1 + v 2 * v 2 = n * n := by
    have hdot := dotProduct_mulVec_mulVec hB ![n, 0, 0] ![n, 0, 0]
    rw [hv, dotProduct, Fin.sum_univ_three] at hdot
    simpa using hdot
  simp only [Bool.false_eq_true, if_false, Matrix.cons_val_zero] at hfirst
  simp at hsecond
  by_cases hx : v 0 = n
  · have h1 := mul_self_nonneg (v 1)
    have h2 := mul_self_nonneg (v 2)
    rw [hx] at hlength
    have hy : v 1 = 0 := mul_self_eq_zero.mp (by linarith)
    have hz : v 2 = 0 := mul_self_eq_zero.mp (by linarith)
    exact Or.inl ((FinVec.etaExpand_eq v).symm.trans (vec3_eq hx hy hz))
  · have hne : v 0 - n ≠ 0 := sub_ne_zero.mpr hx
    have hy : v 1 = 0 := by
      have hprod : v 1 * (v 0 - n) = 0 := by
        linear_combination n * hfirst + (v 0 - n) * hcol 1
      exact (mul_eq_zero.mp hprod).resolve_right hne
    have hz : v 2 = 0 := by
      have hprod : v 2 * (v 0 - n) = 0 := by
        linear_combination n * hsecond + (v 0 - n) * hcol 2 - n * B 2 1 * hy
      exact (mul_eq_zero.mp hprod).resolve_right hne
    rw [hy, hz, mul_zero, add_zero, add_zero] at hlength
    have hneg := (mul_self_eq_mul_self_iff.mp hlength).resolve_left hx
    exact Or.inr ((FinVec.etaExpand_eq v).symm.trans (vec3_eq hneg hy hz))

/-! ### The right camera -/

variable {packet : Bool} {R P A : Matrix3 K}

omit [LinearOrder K] [IsStrictOrderedRing K] in
theorem col_zero_of_fixed (hfix : P *ᵥ ![1, 0, 0] = ![1, 0, 0]) :
    P 0 0 = 1 ∧ P 1 0 = 0 ∧ P 2 0 = 0 := by
  have hcol : ∀ i, P i 0 = (![1, 0, 0] : Vec3 K) i := by
    intro i
    have hi := congrFun hfix i
    rw [mulVec, dotProduct, Fin.sum_univ_three] at hi
    simpa using hi
  exact ⟨hcol 0, hcol 1, hcol 2⟩

/-- A turn about the x axis, whose transpose is written over it: only the last row is not that of
the identity. -/
theorem mulInPlace_turn (hP : IsRotation P) (hfix : P *ᵥ ![1, 0, 0] = ![1, 0, 0]) :
    mulInPlace packet Pᵀ P =
      !![1, 0, 0; 0, 1, 0; 0, P 1 2 * (1 - P 1 1), P 1 1 * P 1 1] := by
  obtain ⟨h00, h10, h20⟩ := col_zero_of_fixed hfix
  have hsq : P 0 0 * P 0 0 = 1 := by rw [h00, one_mul]
  have h01 : P 0 1 = 0 := hP.eq_zero_of_row hsq (by decide)
  have h02 : P 0 2 = 0 := hP.eq_zero_of_row hsq (by decide)
  have hrow : P 1 0 * P 1 0 + P 1 1 * P 1 1 + P 1 2 * P 1 2 = 1 := hP.row_dotProduct_three 1 1
  rw [h10] at hrow
  have hcol : ∀ i j, (Pᵀ *ᵥ fun k => P k j) i = (1 : Matrix3 K) i j := by
    intro i j
    rw [← hP.orthogonal]
    rfl
  have hfirst : ∀ j, mulInPlace packet Pᵀ P 1 j = (1 : Matrix3 K) 1 j := by
    intro j
    rw [mulInPlace, mulVecInPlace_first, hcol, transpose_apply, h01, zero_mul, ite_self, add_zero]
  have hsecond : ∀ j, mulInPlace packet Pᵀ P 2 j =
      (1 : Matrix3 K) 2 j + P 1 2 * ((1 : Matrix3 K) 1 j - P 1 j) := by
    intro j
    rw [mulInPlace, mulVecInPlace_second, hcol, transpose_apply, h02, zero_mul, add_zero,
      transpose_apply, ← mulInPlace, hfirst]
  ext i j
  fin_cases i
  · exact (hcol 0 j).trans (by fin_cases j <;> rfl)
  · exact (hfirst j).trans (by fin_cases j <;> rfl)
  · refine (hsecond j).trans ?_
    fin_cases j
    · show (1 : Matrix3 K) 2 0 + P 1 2 * ((1 : Matrix3 K) 1 0 - P 1 0) = 0
      rw [h10]
      simp
    · show (1 : Matrix3 K) 2 1 + P 1 2 * ((1 : Matrix3 K) 1 1 - P 1 1) = P 1 2 * (1 - P 1 1)
      simp
    · show (1 : Matrix3 K) 2 2 + P 1 2 * ((1 : Matrix3 K) 1 2 - P 1 2) = P 1 1 * P 1 1
      simp
      linear_combination -hrow

omit [LinearOrder K] [IsStrictOrderedRing K] in
/-- A column of the right rotation, whose last row is that of `R` less some of the one before. -/
theorem column_of_last_row (hR : IsRotation R) {e d : K}
    (hlast : ∀ j, R 2 j = e * R 1 j + d * A 2 j) {k : Fin 3}
    (hk : ∀ j, A 2 k * A 2 j = R 2 k * R 2 j) : e * A 2 k = 0 ∧ A 2 k = d * R 2 k := by
  have h11 : R 1 0 * R 1 0 + R 1 1 * R 1 1 + R 1 2 * R 1 2 = 1 := hR.row_dotProduct_three 1 1
  have h12 : R 1 0 * R 2 0 + R 1 1 * R 2 1 + R 1 2 * R 2 2 = 0 := hR.row_dotProduct_three 1 2
  have h22 : R 2 0 * R 2 0 + R 2 1 * R 2 1 + R 2 2 * R 2 2 = 1 := hR.row_dotProduct_three 2 2
  have hform : ∀ j, A 2 k * R 2 j - e * A 2 k * R 1 j - d * R 2 k * R 2 j = 0 := by
    intro j
    linear_combination A 2 k * hlast j + d * hk j
  constructor
  · linear_combination -(R 1 0 * hform 0 + R 1 1 * hform 1 + R 1 2 * hform 2) +
      (A 2 k - d * R 2 k) * h12 - e * A 2 k * h11
  · linear_combination R 2 0 * hform 0 + R 2 1 * hform 1 + R 2 2 * hform 2 -
      (A 2 k - d * R 2 k) * h22 + e * A 2 k * h12

/-- What it takes for the right rotation to be undone when the baseline is along the x axis. -/
structure RightUndone (R P A : Matrix3 K) : Prop where
  zeroth : R 0 = A 0
  first : R 1 = A 1
  last : ∀ j, R 2 j = P 1 2 * (1 - P 1 1) * R 1 j + P 1 1 * P 1 1 * A 2 j
  ne : P 1 1 ≠ 0
  error : turnBackError A = 0

theorem rightUndone_of_error (hP : IsRotation P) (hfix : P *ᵥ ![1, 0, 0] = ![1, 0, 0])
    (herror : turnBackError ((mulInPlace packet Pᵀ P)⁻¹ * R) = 0) :
    RightUndone R P ((mulInPlace packet Pᵀ P)⁻¹ * R) := by
  have hentries : mulInPlace packet Pᵀ P = _ := mulInPlace_turn hP hfix
  by_cases hdet : IsUnit (mulInPlace packet Pᵀ P).det
  · have hback : mulInPlace packet Pᵀ P * ((mulInPlace packet Pᵀ P)⁻¹ * R) = R := by
      rw [← Matrix.mul_assoc, mul_nonsing_inv _ hdet, Matrix.one_mul]
    set A := (mulInPlace packet Pᵀ P)⁻¹ * R with hA
    rw [hentries] at hback hdet
    have hrows : ∀ i j, R i j = (!![1, 0, 0; 0, 1, 0; 0, P 1 2 * (1 - P 1 1), P 1 1 * P 1 1] *
        A : Matrix3 K) i j := fun i j => by rw [hback]
    have hfirst : R 1 = A 1 := by
      funext j
      rw [hrows, mul_apply, Fin.sum_univ_three]
      simp
    refine ⟨?_, hfirst, fun j => ?_, ?_, herror⟩
    · funext j
      rw [hrows, mul_apply, Fin.sum_univ_three]
      simp
    · rw [hrows, mul_apply, Fin.sum_univ_three, hfirst]
      simp
    · rintro hzero
      rw [det_fin_three] at hdet
      simp [hzero] at hdet
  · rw [nonsing_inv_apply_not_isUnit _ hdet, Matrix.zero_mul] at herror
    have h00 := congrFun (congrFun herror 0) 0
    simp [turnBackError] at h00

namespace RightUndone

variable (h : RightUndone R P A)

include h

omit [LinearOrder K] [IsStrictOrderedRing K] in
/-- Where the products of the columns are those of `R`, so are those of the last row. -/
theorem last_products (hR : IsRotation R) {k : Fin 3} (hk : (Aᵀ * A) k = (1 : Matrix3 K) k)
    (j : Fin 3) : A 2 k * A 2 j = R 2 k * R 2 j := by
  have hA := congrFun hk j
  rw [← hR.orthogonal, mul_apply, mul_apply, Fin.sum_univ_three, Fin.sum_univ_three] at hA
  simp only [transpose_apply] at hA
  rw [← h.zeroth, ← h.first] at hA
  linear_combination hA

omit [LinearOrder K] [IsStrictOrderedRing K] in
theorem gram_zero : (Aᵀ * A) 0 = (1 : Matrix3 K) 0 :=
  sub_eq_zero.mp (congrFun h.error 0)

omit [LinearOrder K] [IsStrictOrderedRing K] in
theorem gram_one (h01 : A 0 1 = 0) : (Aᵀ * A) 1 = (1 : Matrix3 K) 1 := by
  have hone : (Aᵀ * A) 1 + A 0 1 • ((Aᵀ * A) 0 - A 0) - (1 : Matrix3 K) 1 = 0 :=
    congrFun h.error 1
  rwa [h01, zero_smul, add_zero, sub_eq_zero] at hone

omit [LinearOrder K] [IsStrictOrderedRing K] in
/-- The turn about the baseline is none, or half a turn, unless the x axes are along each other. -/
theorem straight_or_along (hR : IsRotation R) :
    P 1 2 * (1 - P 1 1) = 0 ∨ R 1 0 = 0 ∧ R 2 0 = 0 := by
  obtain ⟨hzero, hlast⟩ := column_of_last_row hR h.last (h.last_products hR h.gram_zero)
  by_cases he : P 1 2 * (1 - P 1 1) = 0
  · exact .inl he
  · have hA : A 2 0 = 0 := (mul_eq_zero.mp hzero).resolve_left he
    have hR20 : R 2 0 = 0 := by
      rw [hA] at hlast
      exact (mul_eq_zero.mp hlast.symm).resolve_left (mul_ne_zero h.ne h.ne)
    have hsum := h.last 0
    rw [hA, hR20, mul_zero, add_zero] at hsum
    exact .inr ⟨(mul_eq_zero.mp hsum.symm).resolve_left he, hR20⟩

/-- A right camera that is turned about the baseline only is not undone. -/
theorem straight_of_eq (hR : IsRotation R) (hfix : R *ᵥ ![1, 0, 0] = ![1, 0, 0]) (hPR : P = R) :
    P 1 2 * (1 - P 1 1) = 0 := by
  obtain ⟨h00, h10, h20⟩ := col_zero_of_fixed hfix
  have hsq : R 0 0 * R 0 0 = 1 := by rw [h00, one_mul]
  have h01 : A 0 1 = 0 := by
    rw [← h.zeroth]
    exact hR.eq_zero_of_row hsq (by decide)
  obtain ⟨hzero, hlast⟩ := column_of_last_row hR h.last (h.last_products hR (h.gram_one h01))
  by_contra he
  have hA : A 2 1 = 0 := (mul_eq_zero.mp hzero).resolve_left he
  have h21 : R 2 1 = 0 := by
    rw [hA] at hlast
    exact (mul_eq_zero.mp hlast.symm).resolve_left (mul_ne_zero h.ne h.ne)
  have hrow : R 2 0 * R 2 0 + R 2 1 * R 2 1 + R 2 2 * R 2 2 = 1 := hR.row_dotProduct_three 2 2
  have h22 : Rᵀ 2 2 * Rᵀ 2 2 = 1 := by
    rw [transpose_apply]
    linear_combination hrow - R 2 0 * h20 - R 2 1 * h21
  have h12 : R 1 2 = 0 := hR.transpose.eq_zero_of_row (i := 2) (j := 1) h22 (by decide)
  exact he (by rw [hPR, h12, zero_mul])

end RightUndone

omit [LinearOrder K] [IsStrictOrderedRing K] in
theorem mulVec_of_col {R : Matrix3 K} {x : K} (h00 : R 0 0 = x) (h10 : R 1 0 = 0)
    (h20 : R 2 0 = 0) : R *ᵥ ![1, 0, 0] = ![x, 0, 0] := by
  funext i
  rw [mulVec, dotProduct, Fin.sum_univ_three]
  fin_cases i
  · simpa using h00
  · simpa using h10
  · simpa using h20

/-- A turn about the x axis that has no last row of its own is none, or half a turn. -/
theorem eq_one_or_half_of_straight (hP : IsRotation P) (hfix : P *ᵥ ![1, 0, 0] = ![1, 0, 0])
    (hstraight : P 1 2 * (1 - P 1 1) = 0) : P = 1 ∨ P *ᵥ ![0, 0, 1] = -![0, 0, 1] := by
  obtain ⟨h00, h10, h20⟩ := col_zero_of_fixed hfix
  have hrow : P 1 0 * P 1 0 + P 1 1 * P 1 1 + P 1 2 * P 1 2 = 1 := hP.row_dotProduct_three 1 1
  have h12 : P 1 2 = 0 := by
    obtain h12 | h11 := mul_eq_zero.mp hstraight
    · exact h12
    · rw [h10, ← sub_eq_zero.mp h11] at hrow
      exact mul_self_eq_zero.mp (by linear_combination hrow)
  have h11 : P 1 1 * P 1 1 = 1 := by linear_combination hrow - P 1 0 * h10 - P 1 2 * h12
  have hsq : P 0 0 * P 0 0 = 1 := by rw [h00, one_mul]
  have h02 : P 0 2 = 0 := hP.eq_zero_of_row hsq (by decide)
  have hdet := hP.det_eq_one
  rw [det_fin_three, h00, h10, h20, h12] at hdet
  have hz : P *ᵥ ![0, 0, 1] = ![0, 0, P 2 2] := by
    funext i
    rw [mulVec, dotProduct, Fin.sum_univ_three]
    fin_cases i
    · simpa using h02
    · simpa using h12
    · simp
  obtain hone | hneg := mul_self_eq_one_iff.mp h11
  · left
    have h22 : P 2 2 = 1 := by
      rw [hone] at hdet
      linear_combination hdet
    refine hP.eq_of_agree .one (u := ![1, 0, 0]) (v := ![0, 0, 1]) ?_ ?_ ?_
    · rw [hfix, one_mulVec]
    · rw [hz, h22, one_mulVec]
    · intro hzero
      have hy := congrFun hzero 1
      simp [cross_apply] at hy
  · right
    have h22 : P 2 2 = -1 := by
      rw [hneg] at hdet
      linear_combination -hdet
    rw [hz, h22]
    funext i
    fin_cases i <;> simp

end

/-! ### Both cameras -/

section Pair

variable {K : Type} [Field K] [LinearOrder K] [IsStrictOrderedRing K] {E : Eigen K}
  {packet : Bool} {T : Isometry3 K}

omit [LinearOrder K] [IsStrictOrderedRing K] in
theorem smul_xAxis (n : K) : (![n, 0, 0] : Vec3 K) = n • ![1, 0, 0] := by
  funext i
  fin_cases i <;> simp

/-- The baseline is along the x axis of the left camera. -/
theorem translation_of_leftError (hE : E.Lawful) (h : StereoDefined E T)
    (herror : turnBackError (rLeft E T)⁻¹ *ᵥ T.translation = 0) :
    T.translation = E.norm T.translation • ![1, 0, 0] := by
  have hrot := isRotation_rLeft hE h
  have hpos := hE.norm_pos (right_ne_zero_of_not_opposite h.left)
  have hback : rLeft E T *ᵥ ![E.norm T.translation, 0, 0] = T.translation := by
    rw [smul_xAxis, mulVec_smul, rLeft_mulVec hE h, hE.normalized_eq, smul_smul,
      mul_inv_cancel₀ hpos.ne', one_smul]
  rw [hrot.inv_eq] at herror
  obtain hx | hx := along_of_turnBackError hrot.orthogonal hback herror
  · exact hx.trans (smul_xAxis _)
  · refine absurd ?_ h.left
    rw [hx, smul_xAxis (-E.norm T.translation), neg_smul, neg_neg]
    exact (SameRay.refl _).pos_smul_right hpos

variable (hE : E.Lawful) (hT : IsRotation T.linear) (h : StereoDefined E T)
  (ht : T.translation = E.norm T.translation • ![1, 0, 0])

include hE h ht

theorem rLeft_eq_one : rLeft E T = 1 := by
  have hpos := hE.norm_pos (right_ne_zero_of_not_opposite h.left)
  refine hE.fromTwoVectors_of_sameRay ?_ (left_ne_zero_of_not_opposite h.left)
    (right_ne_zero_of_not_opposite h.left)
  rw [ht]
  exact (SameRay.refl _).pos_smul_right hpos

include hT

/-- The right camera looks along the baseline. -/
theorem rRight_fixes : (rRight E T * T.linear) *ᵥ ![1, 0, 0] = ![1, 0, 0] := by
  have hx := rLeft_mulVec hE h
  rw [rLeft_eq_one hE h ht, one_mulVec] at hx
  rw [rRight_mulVec hE hT h, ← hx]

theorem rRightZ_eq : rRightZ E T = (rRight E T * T.linear)ᵀ := by
  have hmul := rRightZ_mul hE hT h
  rw [rLeft_eq_one hE h ht] at hmul
  rw [← (isRotation_rRight hE hT h).inv_eq, inv_eq_left_inv hmul]

theorem rightError_eq_zero_iff :
    turnBackError (getRotationsForStandardStereo E packet T).rightR = 0 ↔
      (getRotationsForStandardStereo E packet T).rightR = 1 := by
  refine ⟨fun herror => ?_, fun hone => by rw [hone, turnBackError_one]⟩
  have hP := isRotation_rRight hE hT h
  have hfix := rRight_fixes hE hT h ht
  have hpos := hE.norm_pos (right_ne_zero_of_not_opposite h.left)
  rw [rightR_eq, rRightZ_eq hE hT h ht] at herror ⊢
  have hundone := rightUndone_of_error hP hfix herror
  have hstraight : (rRight E T * T.linear) 1 2 * (1 - (rRight E T * T.linear) 1 1) = 0 := by
    obtain hstraight | ⟨h10, h20⟩ := hundone.straight_or_along hT
    · exact hstraight
    · have hrow := hT.transpose.row_dotProduct_three 0 0
      simp only [transpose_apply, h10, h20, mul_zero, add_zero, if_true] at hrow
      obtain hone | hneg := mul_self_eq_one_iff.mp hrow
      · have hfixR : T.linear *ᵥ ![1, 0, 0] = ![1, 0, 0] := mulVec_of_col hone h10 h20
        have hnothing : rRight E T = 1 := by
          have hleft := rLeft_eq_one hE h ht
          rwa [rRight, hfixR, ← rLeft]
        exact hundone.straight_of_eq hT hfixR (by rw [hnothing, Matrix.one_mul])
      · -- the right camera looks away from the left one
        refine absurd ?_ h.right
        rw [mulVec_of_col hneg h10 h20, ht, smul_xAxis (-1), neg_one_smul]
        exact ((SameRay.refl _).pos_smul_right hpos).neg
  obtain hone | hhalf := eq_one_or_half_of_straight hP hfix hstraight
  · rw [hone, transpose_one, mulInPlace_one_one, inv_one, Matrix.one_mul] at herror ⊢
    have hturn := hE.isTurn_fromTwoVectors _ _ h.right
    have hinv : T.linearᵀ = rRight E T := by
      rw [← Matrix.mul_one (rRight E T), ← hT.mul_transpose, ← Matrix.mul_assoc, hone,
        Matrix.one_mul]
    refine (turnBackError_eq_zero_iff hT fun v hv => ?_).mp herror
    rw [hinv]
    exact hturn.mulVec_ne_neg h.right hv
  · refine absurd ?_ h.z
    rw [rightCamZ, hhalf, leftCamZ, rLeft_eq_one hE h ht, one_mulVec]

omit h ht hT in
/-- **The errors cancel exactly if there is nothing to turn**: for a pair for which no call of
`FromTwoVectors` gets opposite directions, the errors of the rotations cancel exactly if both are
the identity. -/
theorem turnsBack_iff {config₀ : LiftNetConfig K}
    (hR : IsRotation (config₀.camera .rcam).cameraToWorldXf.linear)
    (h : StereoDefined E (config₀.camera .rcam).cameraToWorldXf) :
    TurnsBack (setCameraInfo E packet config₀) ↔
      ∀ c, (setCameraInfo E packet config₀).rot c = 1 := by
  set T := (config₀.camera .rcam).cameraToWorldXf with hT
  have hleft : (setCameraInfo E packet config₀).rot .lcam = (rLeft E T)⁻¹ := leftR_eq E packet T
  have hright : (setCameraInfo E packet config₀).rot .rcam =
    (getRotationsForStandardStereo E packet T).rightR := rfl
  have hlinear : ((setCameraInfo E packet config₀).camera .rcam).cameraToWorldXf = T := rfl
  constructor
  · rintro ⟨hcancel, hbaseline⟩
    rw [hlinear] at hcancel hbaseline
    have hmoved : turnBackError ((setCameraInfo E packet config₀).rot .lcam) *ᵥ T.translation =
        0 := by
      rw [eq_neg_of_add_eq_zero_left hcancel, neg_mulVec, ← mulVec_mulVec, ← mulVec_mulVec,
        hbaseline, mulVec_zero, neg_zero]
    rw [hleft] at hmoved
    have ht := translation_of_leftError hE h hmoved
    have hone : (setCameraInfo E packet config₀).rot .lcam = 1 := by
      rw [hleft, rLeft_eq_one hE h ht, inv_one]
    have hzero : turnBackError ((setCameraInfo E packet config₀).rot .rcam) = 0 := by
      rw [hone, turnBackError_one, zero_add] at hcancel
      set D := turnBackError ((setCameraInfo E packet config₀).rot .rcam) with hD
      calc D = T.linearᵀ * (T.linear * D * T.linearᵀ) * T.linear := by
            rw [Matrix.mul_assoc, Matrix.mul_assoc, Matrix.mul_assoc, hR.orthogonal, Matrix.mul_one,
              ← Matrix.mul_assoc, hR.orthogonal, Matrix.one_mul]
        _ = 0 := by rw [hcancel, Matrix.mul_zero, Matrix.zero_mul]
    rintro (_ | _)
    · exact hone
    · rw [hright] at hzero ⊢
      exact (rightError_eq_zero_iff hE hR h ht).mp hzero
  · intro hone
    refine ⟨?_, ?_⟩
    · rw [hone, hone, turnBackError_one, Matrix.mul_zero, Matrix.zero_mul, add_zero]
    · rw [hone, turnBackError_one, zero_mulVec]

end Pair

end Lift

/-
Products that are written over one of their factors.

The coefficients of `A * v` are written over `v` one after the other, and each is computed from
what stands there by then.

* `mulVecInPlace`, `mulInPlace` — the products, `mulInPlace_eq` — a matrix of its own does the
  same at once, and `mulInPlaceLeft` — the product over its left factor;
* `mulInPlace_one_eq_iff` — for a rotation that reverses no vector, when this is its product;
* `mulInPlace_one_scaled_iff` — otherwise it distorts.
-/
import HandTracking.Library.Rotation

open Matrix

variable {K : Type}

/-- `A * v` written over `v`.  With `packet` the first two coefficients are computed before they
are written. -/
def mulVecInPlace [CommRing K] (packet : Bool) (A : Matrix3 K) (v : Vec3 K) : Vec3 K :=
  let first := Function.update v 0 ((A *ᵥ v) 0)
  let second := Function.update first 1 ((A *ᵥ if packet then v else first) 1)
  Function.update second 2 ((A *ᵥ second) 2)

/-- `A * B` written over `B`, by columns. -/
def mulInPlace [CommRing K] (packet : Bool) (A B : Matrix3 K) : Matrix3 K :=
  fun i j => mulVecInPlace packet A (fun k => B k j) i

/-- `B * A` written over `B`.  The rows do not use one another, and in a row the columns go one
by one. -/
def mulInPlaceLeft [CommRing K] (B A : Matrix3 K) : Matrix3 K := (mulInPlace false Aᵀ Bᵀ)ᵀ

section CommRing

variable [CommRing K] (packet : Bool) (A B : Matrix3 K) (v : Vec3 K)

@[simp]
theorem mulVecInPlace_zero : mulVecInPlace packet A v 0 = (A *ᵥ v) 0 := rfl

theorem mulVecInPlace_first : mulVecInPlace packet A v 1 =
    (A *ᵥ v) 1 + if packet then 0 else A 1 0 * ((A *ᵥ v) 0 - v 0) := by
  cases packet with
  | true => exact (add_zero _).symm
  | false =>
    show (A *ᵥ Function.update v 0 ((A *ᵥ v) 0)) 1 = (A *ᵥ v) 1 + A 1 0 * ((A *ᵥ v) 0 - v 0)
    simp only [mulVec, dotProduct, Fin.sum_univ_three, Function.update_self,
      Function.update_of_ne (show (1 : Fin 3) ≠ 0 by decide),
      Function.update_of_ne (show (2 : Fin 3) ≠ 0 by decide)]
    ring

theorem mulVecInPlace_second : mulVecInPlace packet A v 2 =
    (A *ᵥ v) 2 + A 2 0 * ((A *ᵥ v) 0 - v 0) + A 2 1 * (mulVecInPlace packet A v 1 - v 1) := by
  have hlast : mulVecInPlace packet A v 2 = A 2 0 * mulVecInPlace packet A v 0 +
      A 2 1 * mulVecInPlace packet A v 1 + A 2 2 * v 2 := by
    show (A *ᵥ Function.update (Function.update v 0 _) 1 _) 2 = _
    rw [mulVec, dotProduct, Fin.sum_univ_three]
    rfl
  have hproduct : (A *ᵥ v) 2 = A 2 0 * v 0 + A 2 1 * v 1 + A 2 2 * v 2 := by
    rw [mulVec, dotProduct, Fin.sum_univ_three]
  rw [hlast, hproduct, mulVecInPlace_zero]
  ring

theorem mulVec_col_one (i j : Fin 3) : (A *ᵥ fun k => (1 : Matrix3 K) k j) i = A i j := by
  show (A * 1) i j = A i j
  rw [Matrix.mul_one]

/-- Writing over the vector is linear in it. -/
theorem mulVecInPlace_eq : mulVecInPlace packet A v = mulInPlace packet A 1 *ᵥ v := by
  have hzero : mulVecInPlace packet A v 0 = (mulInPlace packet A 1 *ᵥ v) 0 := by
    simp only [mulVec, dotProduct, mulInPlace, mulVecInPlace_zero]
    exact Finset.sum_congr rfl fun j _ => congrArg (· * v j) (mulVec_col_one A 0 j).symm
  have hfirst : mulVecInPlace packet A v 1 = (mulInPlace packet A 1 *ᵥ v) 1 := by
    rw [mulVec, dotProduct, Fin.sum_univ_three]
    simp only [mulInPlace, mulVecInPlace_first, mulVec_col_one]
    cases packet
    · simp [mulVec, dotProduct, Fin.sum_univ_three]
      ring
    · simp [mulVec, dotProduct, Fin.sum_univ_three]
  have hsecond : mulVecInPlace packet A v 2 = (mulInPlace packet A 1 *ᵥ v) 2 := by
    have hfirst := hfirst
    rw [mulVec, dotProduct, Fin.sum_univ_three] at hfirst ⊢
    rw [mulVecInPlace_second, hfirst]
    simp only [mulInPlace, mulVecInPlace_second, mulVec_col_one]
    simp [mulVec, dotProduct, Fin.sum_univ_three]
    ring
  funext i
  fin_cases i
  · exact hzero
  · exact hfirst
  · exact hsecond

theorem mulInPlace_eq : mulInPlace packet A B = mulInPlace packet A 1 * B := by
  ext i j
  show mulVecInPlace packet A (fun k => B k j) i = _
  rw [mulVecInPlace_eq]
  rfl

/-- The rows of the matrix that writes over: the later ones use the earlier ones. -/
theorem mulInPlace_one_zero (j : Fin 3) : mulInPlace packet A 1 0 j = A 0 j :=
  mulVec_col_one A 0 j

theorem mulInPlace_one_first (j : Fin 3) : mulInPlace packet A 1 1 j =
    A 1 j + if packet then 0 else A 1 0 * (A 0 j - (1 : Matrix3 K) 0 j) := by
  rw [mulInPlace, mulVecInPlace_first, mulVec_col_one, mulVec_col_one]

theorem mulInPlace_one_second (j : Fin 3) : mulInPlace packet A 1 2 j =
    A 2 j + A 2 0 * (A 0 j - (1 : Matrix3 K) 0 j) +
      A 2 1 * (mulInPlace packet A 1 1 j - (1 : Matrix3 K) 1 j) := by
  rw [mulInPlace, mulVecInPlace_second, mulVec_col_one, mulVec_col_one]
  rfl

end CommRing

/-! ### Rotations -/

section Rotation

variable [Field K] [LinearOrder K] [IsStrictOrderedRing K] {packet : Bool} {A : Matrix3 K}

omit [LinearOrder K] [IsStrictOrderedRing K] in
/-- The rows of a rotation are orthonormal. -/
theorem IsRotation.row_dotProduct (hA : IsRotation A) (i j : Fin 3) :
    A i ⬝ᵥ A j = if i = j then 1 else 0 := by
  have hmul := congrFun (congrFun hA.mul_transpose i) j
  rw [Matrix.one_apply] at hmul
  exact hmul

/-- The other coefficients in a row with a coefficient of size 1. -/
theorem IsRotation.eq_zero_of_row (hA : IsRotation A) {i j : Fin 3} (h : A i i * A i i = 1)
    (hj : j ≠ i) : A i j = 0 := by
  have hrow : ∑ k, A i k * A i k = 1 := by
    have hnorm := hA.row_dotProduct i i
    rwa [if_pos rfl] at hnorm
  rw [← Finset.add_sum_erase _ _ (Finset.mem_univ i), h, add_eq_left,
    Finset.sum_eq_zero_iff_of_nonneg fun k _ => mul_self_nonneg (A i k)] at hrow
  exact mul_self_eq_zero.mp (hrow j (Finset.mem_erase.mpr ⟨hj, Finset.mem_univ j⟩))

/-- A coefficient of size 1 on the diagonal is 1, and its axis is fixed. -/
theorem IsRotation.mulVec_single_of_row (hA : IsRotation A)
    (hreverse : ∀ v, v ≠ 0 → A *ᵥ v ≠ -v) {i : Fin 3} (h : A i i * A i i = 1) :
    A *ᵥ Pi.single i 1 = Pi.single i 1 := by
  have hcol : ∀ k, k ≠ i → A k i = 0 := by
    intro k hk
    exact hA.transpose.eq_zero_of_row (i := i) h hk
  have hsingle : A *ᵥ Pi.single i 1 = A i i • (Pi.single i 1 : Vec3 K) := by
    funext k
    rw [mulVec_single_one, Pi.smul_apply, smul_eq_mul, Pi.single_apply]
    by_cases hk : k = i
    · rw [hk, if_pos rfl, mul_one]
      rfl
    · rw [if_neg hk, mul_zero]
      exact hcol k hk
  rcases mul_self_eq_one_iff.mp h with hone | hneg
  · rw [hsingle, hone, one_smul]
  · refine absurd ?_ (hreverse (Pi.single i 1) fun hzero => ?_)
    · rw [hsingle, hneg, neg_smul, one_smul]
    · have hi : (Pi.single i 1 : Vec3 K) i = 0 := congrFun hzero i
      rw [Pi.single_eq_same] at hi
      exact one_ne_zero hi

omit [LinearOrder K] [IsStrictOrderedRing K] in
/-- The product of two rows, written out. -/
theorem IsRotation.row_dotProduct_three (hA : IsRotation A) (i j : Fin 3) :
    A i 0 * A j 0 + A i 1 * A j 1 + A i 2 * A j 2 = if i = j then 1 else 0 := by
  rw [← hA.row_dotProduct, dotProduct, Fin.sum_univ_three]

/-- Where the last row is that of the product, it uses none of the others. -/
theorem last_row_eq_zero (hA : IsRotation A) (h : mulInPlace packet A 1 = A) :
    A 2 0 = 0 ∧ A 2 1 = 0 := by
  -- the last row differs from that of the product by a combination of the others
  have hlast : ∀ j, A 2 0 * (A 0 j - (1 : Matrix3 K) 0 j) +
      A 2 1 * (A 1 j - (1 : Matrix3 K) 1 j) = 0 := by
    intro j
    have hj := mulInPlace_one_second packet A j
    rw [congrFun (congrFun h 1) j, congrFun (congrFun h 2) j] at hj
    linear_combination -hj
  have hsq : A 2 0 * A 2 0 + A 2 1 * A 2 1 = 0 := by
    have h0 : A 2 0 * (A 0 0 - 1) + A 2 1 * (A 1 0 - 0) = 0 := hlast 0
    have h1 : A 2 0 * (A 0 1 - 0) + A 2 1 * (A 1 1 - 1) = 0 := hlast 1
    have h2 : A 2 0 * (A 0 2 - 0) + A 2 1 * (A 1 2 - 0) = 0 := hlast 2
    have h02 : A 0 0 * A 2 0 + A 0 1 * A 2 1 + A 0 2 * A 2 2 = 0 := hA.row_dotProduct_three 0 2
    have h12 : A 1 0 * A 2 0 + A 1 1 * A 2 1 + A 1 2 * A 2 2 = 0 := hA.row_dotProduct_three 1 2
    linear_combination A 2 0 * h02 + A 2 1 * h12 - A 2 0 * h0 - A 2 1 * h1 - A 2 2 * h2
  have hnonneg0 := mul_self_nonneg (A 2 0)
  have hnonneg1 := mul_self_nonneg (A 2 1)
  exact ⟨mul_self_eq_zero.mp (by linarith), mul_self_eq_zero.mp (by linarith)⟩

omit [LinearOrder K] [IsStrictOrderedRing K] in
/-- Where the second row is that of the product, it does not use the first. -/
theorem second_row_eq_zero (hA : IsRotation A) (h : mulInPlace false A 1 = A) : A 1 0 = 0 := by
  have hfirst : ∀ j, A 1 0 * (A 0 j - (1 : Matrix3 K) 0 j) = 0 := by
    intro j
    have hj := mulInPlace_one_first false A j
    rw [congrFun (congrFun h 1) j, if_neg Bool.false_ne_true] at hj
    linear_combination -hj
  have h0 : A 1 0 * (A 0 0 - 1) = 0 := hfirst 0
  have h1 : A 1 0 * (A 0 1 - 0) = 0 := hfirst 1
  have h2 : A 1 0 * (A 0 2 - 0) = 0 := hfirst 2
  have h01 : A 0 0 * A 1 0 + A 0 1 * A 1 1 + A 0 2 * A 1 2 = 0 := hA.row_dotProduct_three 0 1
  apply mul_self_eq_zero.mp
  linear_combination A 1 0 * h01 - A 1 0 * h0 - A 1 1 * h1 - A 1 2 * h2

omit [LinearOrder K] [IsStrictOrderedRing K] in
theorem mulInPlace_one_one : mulInPlace packet (1 : Matrix3 K) 1 = 1 := by
  ext i j
  fin_cases i
  · exact mulInPlace_one_zero packet 1 j
  · show mulInPlace packet 1 1 1 j = (1 : Matrix3 K) 1 j
    rw [mulInPlace_one_first]
    simp
  · show mulInPlace packet 1 1 2 j = (1 : Matrix3 K) 2 j
    rw [mulInPlace_one_second]
    simp

omit [LinearOrder K] [IsStrictOrderedRing K] in
theorem mulInPlace_one_of_row (h20 : A 2 0 = 0) (h21 : A 2 1 = 0) : mulInPlace true A 1 = A := by
  ext i j
  fin_cases i
  · exact mulInPlace_one_zero true A j
  · show mulInPlace true A 1 1 j = A 1 j
    rw [mulInPlace_one_first, if_pos rfl, add_zero]
  · show mulInPlace true A 1 2 j = A 2 j
    rw [mulInPlace_one_second, h20, h21, zero_mul, zero_mul, add_zero, add_zero]

/-- **When the product written over a matrix is the product**, for a rotation that reverses no
vector. -/
theorem mulInPlace_one_eq_iff (hA : IsRotation A) (hreverse : ∀ v, v ≠ 0 → A *ᵥ v ≠ -v) :
    mulInPlace packet A 1 = A ↔
      A = 1 ∨ packet = true ∧ A *ᵥ Pi.single 2 1 = Pi.single 2 1 := by
  constructor
  · intro h
    obtain ⟨h20, h21⟩ := last_row_eq_zero hA h
    have h22 := hA.row_dotProduct_three 2 2
    rw [h20, h21, if_pos rfl, zero_mul, zero_add, zero_add] at h22
    have hfix := hA.mulVec_single_of_row hreverse h22
    cases packet with
    | true => exact .inr ⟨rfl, hfix⟩
    | false =>
      have h10 := second_row_eq_zero hA h
      have h12 : A 1 2 = 0 := hA.transpose.eq_zero_of_row (i := 2) h22 (by decide)
      have h11 := hA.row_dotProduct_three 1 1
      rw [h10, h12, if_pos rfl, zero_mul, zero_add, add_zero] at h11
      -- two axes are fixed
      refine .inl (hA.eq_of_agree .one (u := Pi.single 1 1) (v := Pi.single 2 1) ?_ ?_ ?_)
      · rw [hA.mulVec_single_of_row hreverse h11, one_mulVec]
      · rw [hfix, one_mulVec]
      · intro hzero
        have hx := congrFun hzero 0
        simp [cross_apply] at hx
  · rintro (rfl | ⟨rfl, hfix⟩)
    · exact mulInPlace_one_one
    · have h22 : A 2 2 = 1 := by
        have hcol := congrFun hfix 2
        rwa [mulVec_single_one, Pi.single_eq_same] at hcol
      have hsq : A 2 2 * A 2 2 = 1 := by rw [h22, one_mul]
      exact mulInPlace_one_of_row (hA.eq_zero_of_row hsq (by decide))
        (hA.eq_zero_of_row hsq (by decide))

/-! ### Distortion -/

/-- A matrix with orthogonal columns of one length and a row of length 1 has orthonormal rows. -/
theorem row_product_of_scaled {M : Matrix3 K} {k : K} (h : Mᵀ * M = k • (1 : Matrix3 K))
    (hrow : M 0 ⬝ᵥ M 0 = 1) (i j : Fin 3) :
    M i 0 * M j 0 + M i 1 * M j 1 + M i 2 * M j 2 = if i = j then 1 else 0 := by
  have hk : k ≠ 0 := by
    rintro rfl
    have hcol : ∀ l, M 0 l * M 0 l = 0 := by
      intro l
      have hl := congrFun (congrFun h l) l
      rw [zero_smul, mul_apply, Fin.sum_univ_three] at hl
      change M 0 l * M 0 l + M 1 l * M 1 l + M 2 l * M 2 l = 0 at hl
      have h0 := mul_self_nonneg (M 0 l)
      have h1 := mul_self_nonneg (M 1 l)
      have h2 := mul_self_nonneg (M 2 l)
      linarith
    rw [dotProduct, Fin.sum_univ_three, hcol, hcol, hcol, add_zero, add_zero] at hrow
    exact zero_ne_one hrow
  have hinverse : M * (k⁻¹ • Mᵀ) = 1 := by
    rw [mul_eq_one_comm, smul_mul, h, smul_smul, inv_mul_cancel₀ hk, one_smul]
  have hproduct : ∀ a b, M a ⬝ᵥ M b = k * (1 : Matrix3 K) a b := by
    intro a b
    have hab := congrFun (congrFun hinverse a) b
    rw [Matrix.mul_smul] at hab
    exact (inv_mul_eq_iff_eq_mul₀ hk).mp hab
  have hone : k = 1 := by
    rw [← hrow, hproduct, one_apply_eq, mul_one]
  rw [← Fin.sum_univ_three fun l => M i l * M j l, ← dotProduct, hproduct, hone, one_mul,
    one_apply]

/-- Where the product has orthonormal rows, its second row is that of the rotation. -/
theorem second_row_of_orthonormal (hA : IsRotation A)
    (h : A 0 0 * mulInPlace packet A 1 1 0 + A 0 1 * mulInPlace packet A 1 1 1 +
      A 0 2 * mulInPlace packet A 1 1 2 = 0) (j : Fin 3) : mulInPlace packet A 1 1 j = A 1 j := by
  cases packet with
  | true => rw [mulInPlace_one_first, if_pos rfl, add_zero]
  | false =>
    have h00 := hA.row_dotProduct_three 0 0
    have h01 := hA.row_dotProduct_three 0 1
    rw [mulInPlace_one_first, mulInPlace_one_first, mulInPlace_one_first] at h
    simp only [Bool.false_eq_true, if_false, one_apply_eq, if_true,
      one_apply_ne (show (0 : Fin 3) ≠ 1 by decide), one_apply_ne (show (0 : Fin 3) ≠ 2 by decide),
      if_neg (show (0 : Fin 3) ≠ 1 by decide)] at h h00 h01
    have hzero : A 1 0 * (1 - A 0 0) = 0 := by
      linear_combination h - h01 - A 1 0 * h00
    have h10 : A 1 0 = 0 := by
      rcases mul_eq_zero.mp hzero with h10 | h00
      · exact h10
      · have hsq : Aᵀ 0 0 * Aᵀ 0 0 = 1 := by
          rw [transpose_apply, ← sub_eq_zero.mp h00, one_mul]
        exact hA.transpose.eq_zero_of_row hsq (by decide)
    rw [mulInPlace_one_first, h10, zero_mul, ite_self, add_zero]

/-- … and so is its last row. -/
theorem last_row_of_orthonormal (hA : IsRotation A)
    (hfirst : ∀ j, mulInPlace packet A 1 1 j = A 1 j)
    (h02 : A 0 0 * mulInPlace packet A 1 2 0 + A 0 1 * mulInPlace packet A 1 2 1 +
      A 0 2 * mulInPlace packet A 1 2 2 = 0)
    (h12 : A 1 0 * mulInPlace packet A 1 2 0 + A 1 1 * mulInPlace packet A 1 2 1 +
      A 1 2 * mulInPlace packet A 1 2 2 = 0)
    (h22 : mulInPlace packet A 1 2 0 * mulInPlace packet A 1 2 0 +
      mulInPlace packet A 1 2 1 * mulInPlace packet A 1 2 1 +
      mulInPlace packet A 1 2 2 * mulInPlace packet A 1 2 2 = 1) (j : Fin 3) :
    mulInPlace packet A 1 2 j = A 2 j := by
  have hlast : ∀ j, mulInPlace packet A 1 2 j = A 2 j + A 2 0 * (A 0 j - (1 : Matrix3 K) 0 j) +
      A 2 1 * (A 1 j - (1 : Matrix3 K) 1 j) := by
    intro j
    rw [mulInPlace_one_second, hfirst]
  have h0 : mulInPlace packet A 1 2 0 = A 2 0 + A 2 0 * (A 0 0 - 1) + A 2 1 * (A 1 0 - 0) := hlast 0
  have h1 : mulInPlace packet A 1 2 1 = A 2 1 + A 2 0 * (A 0 1 - 0) + A 2 1 * (A 1 1 - 1) := hlast 1
  have h2 : mulInPlace packet A 1 2 2 = A 2 2 + A 2 0 * (A 0 2 - 0) + A 2 1 * (A 1 2 - 0) := hlast 2
  have r00 : A 0 0 * A 0 0 + A 0 1 * A 0 1 + A 0 2 * A 0 2 = 1 := hA.row_dotProduct_three 0 0
  have r11 : A 1 0 * A 1 0 + A 1 1 * A 1 1 + A 1 2 * A 1 2 = 1 := hA.row_dotProduct_three 1 1
  have r22 : A 2 0 * A 2 0 + A 2 1 * A 2 1 + A 2 2 * A 2 2 = 1 := hA.row_dotProduct_three 2 2
  have r01 : A 0 0 * A 1 0 + A 0 1 * A 1 1 + A 0 2 * A 1 2 = 0 := hA.row_dotProduct_three 0 1
  rw [h0, h1, h2] at h02 h12 h22
  -- the length of the last row falls short by what it takes from the others
  have hsq : A 2 0 * A 2 0 + A 2 1 * A 2 1 = 0 := by
    linear_combination 1 / 2 * r22 - 1 / 2 * (A 2 0 * A 2 0) * r00 -
      1 / 2 * (A 2 1 * A 2 1) * r11 - A 2 0 * A 2 1 * r01 - 1 / 2 * h22 + A 2 0 * h02 + A 2 1 * h12
  have hnonneg0 := mul_self_nonneg (A 2 0)
  have hnonneg1 := mul_self_nonneg (A 2 1)
  have h20 : A 2 0 = 0 := mul_self_eq_zero.mp (by linarith)
  have h21 : A 2 1 = 0 := mul_self_eq_zero.mp (by linarith)
  rw [hlast, h20, h21, zero_mul, zero_mul, add_zero, add_zero]

/-- **The product that is written over a matrix distorts it unless it is the product**: it keeps
the ratios of lengths in no other case. -/
theorem mulInPlace_one_scaled_iff (hA : IsRotation A) :
    (∃ k : K, (mulInPlace packet A 1)ᵀ * mulInPlace packet A 1 = k • (1 : Matrix3 K)) ↔
      mulInPlace packet A 1 = A := by
  constructor
  · rintro ⟨k, hk⟩
    have hzero : mulInPlace packet A 1 0 = A 0 := by
      funext j
      exact mulInPlace_one_zero packet A j
    have hrow : mulInPlace packet A 1 0 ⬝ᵥ mulInPlace packet A 1 0 = 1 := by
      rw [hzero, hA.row_dotProduct, if_pos rfl]
    have hproduct := row_product_of_scaled hk hrow
    have h01 := hproduct 0 1
    have h02 := hproduct 0 2
    rw [hzero] at h01 h02
    have hfirst := second_row_of_orthonormal hA h01
    have h12 := hproduct 1 2
    rw [hfirst, hfirst, hfirst] at h12
    have hsecond := last_row_of_orthonormal hA hfirst h02 h12 (hproduct 2 2)
    ext i j
    fin_cases i
    · exact mulInPlace_one_zero packet A j
    · exact hfirst j
    · exact hsecond j
  · intro h
    exact ⟨1, by rw [h, hA.orthogonal, one_smul]⟩

end Rotation

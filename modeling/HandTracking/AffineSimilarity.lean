/-
The transform between a turned box and the crop, for every shift and angle.

`get_affine_transform` draws a triangle at the center of the box and one at the center of the
crop.  The helper that turns their first side is not a rotation, but it turns both alike, and the
triangles stay similar.

* `apply_getAffineTransform_triangles` — the transform between two such triangles;
* `getAffineTransform_apply` — it scales by the width of the crop and turns nothing;
* `getDir_eq_turned_iff` — the helper turns a vector by the angle only if its sine is 0;
* `similarity_and_turned_iff` — both together.
-/
import HandTracking.WarpAffine

namespace Landmark

open Camera

variable {K : Type} [Field K]

/-! ### Triangles -/

/-- A point, the point next to it, and the third that `get_3rd_point` adds. -/
def triangle (a d : Vec2 K) : Fin 3 → Vec2 K := ![a, a + d, get3rdPoint a (a + d)]

/-- The third point does not depend on where the triangle lies. -/
theorem get3rdPoint_add (a d : Vec2 K) :
    get3rdPoint a (a + d) = a + ![d 0 + d 1, d 1 - d 0] := by
  funext i
  fin_cases i
  · show a 0 + d 0 + (a 1 + d 1) - a 1 = a 0 + (d 0 + d 1)
    ring
  · show a 1 + d 1 + a 0 - (a 0 + d 0) = a 1 + (d 1 - d 0)
    ring

theorem cross_triangle (a d : Vec2 K) : cross (triangle a d) = -squaredNorm d := by
  simp only [cross, triangle, get3rdPoint, squaredNorm, Matrix.cons_val, Pi.add_apply]
  ring

/-- The transform that brings `a` to `b` and scales what is around it. -/
def scaledAbout (a b : Vec2 K) (factor : K) : WarpMat K :=
  ![![factor, 0, b 0 - factor * a 0], ![0, factor, b 1 - factor * a 1]]

theorem apply_scaledAbout (a b : Vec2 K) (factor : K) (p : Vec2 K) :
    (scaledAbout a b factor).apply p = b + factor • (p - a) := by
  funext i
  fin_cases i
  · simp [WarpMat.apply, scaledAbout]
    ring
  · simp [WarpMat.apply, scaledAbout]
    ring

theorem apply_scaledAbout_triangle (a b d : Vec2 K) (factor : K) (i : Fin 3) :
    (scaledAbout a b factor).apply (triangle a d i) = triangle b (factor • d) i := by
  rw [apply_scaledAbout]
  fin_cases i
  · simp [triangle]
  · simp [triangle]
  · show b + factor • (get3rdPoint a (a + d) - a) = get3rdPoint b (b + factor • d)
    rw [get3rdPoint_add, get3rdPoint_add, add_sub_cancel_left]
    simp [mul_add, mul_sub]

/-- Two triangles whose sides differ by a factor. -/
theorem apply_getAffineTransform_triangles (lib : WarpLib K) {d : Vec2 K} (hd : squaredNorm d ≠ 0)
    (a b : Vec2 K) (factor : K) (p : Vec2 K) :
    (lib.getAffineTransform (triangle a d) (triangle b (factor • d))).apply p =
      b + factor • (p - a) := by
  have hcross : cross (triangle a d) ≠ 0 := by
    rw [cross_triangle]
    exact neg_ne_zero.mpr hd
  rw [← apply_scaledAbout]
  apply apply_eq_of_agree hcross
  intro i
  rw [lib.apply_getAffineTransform _ _ hcross, apply_scaledAbout_triangle]

/-! ### The transform of the box -/

/-- `float rot_rad = rot * M_PI / 180.` -/
def rotRad (rot : K) : K := rot * Predictor.mPi / 180

/-- The center of the box, moved by parts of its sides. -/
def shiftedCenter (bboxCs : BboxCs K) (shift : Vec2 K) : Vec2 K :=
  ![bboxCs.center 0 + bboxCs.scale 0 * shift 0, bboxCs.center 1 + bboxCs.scale 1 * shift 1]

/-- The center of the output image. -/
def outputCenter (outputH outputW : ℕ) : Vec2 K := ![outputW * (1 / 2), outputH * (1 / 2)]

/-- What `get_dir` makes of a vector that points up. -/
def upTurned (lib : WarpLib K) (rot : K) : Vec2 K := getDir lib ![0, -1 / 2] (rotRad rot)

theorem getDir_up (lib : WarpLib K) (c rot : K) :
    getDir lib ![0, c * (-1 / 2)] (rotRad rot) = c • upTurned lib rot := by
  funext i
  fin_cases i
  · simp [upTurned, getDir]
    ring
  · simp [upTurned, getDir]
    ring

/-- Both first sides are turned by the same function. -/
theorem getAffineTransform_eq (lib : WarpLib K) (bboxCs : BboxCs K) (shift : Vec2 K) (rot : K)
    (outputH outputW : ℕ) (inv : Bool) :
    getAffineTransform lib bboxCs shift rot outputH outputW inv =
      let src := triangle (shiftedCenter bboxCs shift) (bboxCs.scale 0 • upTurned lib rot)
      let dst := triangle (outputCenter outputH outputW) ((outputW : K) • upTurned lib rot)
      if inv then lib.getAffineTransform dst src else lib.getAffineTransform src dst := by
  have hsrc : ![bboxCs.center 0 + getDir lib ![0, bboxCs.scale 0 * (-1 / 2)] (rotRad rot) 0 +
        bboxCs.scale 0 * shift 0,
      bboxCs.center 1 + getDir lib ![0, bboxCs.scale 0 * (-1 / 2)] (rotRad rot) 1 +
        bboxCs.scale 1 * shift 1] =
      shiftedCenter bboxCs shift + bboxCs.scale 0 • upTurned lib rot := by
    rw [getDir_up]
    funext i
    fin_cases i <;> exact add_right_comm _ _ _
  have hdst : ![(outputW : K) * (1 / 2) + getDir lib ![0, (outputW : K) * (-1 / 2)] (rotRad rot) 0,
      outputH * (1 / 2) + getDir lib ![0, (outputW : K) * (-1 / 2)] (rotRad rot) 1] =
      outputCenter outputH outputW + (outputW : K) • upTurned lib rot := by
    rw [getDir_up]
    funext i
    fin_cases i <;> rfl
  simp only [getAffineTransform, ← rotRad.eq_1, hsrc, hdst]
  rfl

section Similarity

variable [LinearOrder K] [IsStrictOrderedRing K] (lib : WarpLib K)
  (hcircle : ∀ x, lib.sin x ^ 2 + lib.cos x ^ 2 = 1)

include hcircle

/-- The sine and the sum of sine and cosine are not both 0. -/
theorem squaredNorm_upTurned_pos (rot : K) : 0 < squaredNorm (upTurned lib rot) := by
  have hcircle := hcircle (rotRad rot)
  set s := lib.sin (rotRad rot)
  set c := lib.cos (rotRad rot)
  have hnorm : squaredNorm (upTurned lib rot) = (s ^ 2 + (s + c) ^ 2) / 4 := by
    simp [squaredNorm, upTurned, getDir]
    ring
  rw [hnorm]
  have hs := sq_nonneg s
  have hsc := sq_nonneg (s + c)
  by_contra hle
  have hs0 : s = 0 := pow_eq_zero_iff two_ne_zero |>.mp (by linarith)
  have hc0 : s + c = 0 := pow_eq_zero_iff two_ne_zero |>.mp (by linarith)
  rw [hs0, zero_add] at hc0
  rw [hs0, hc0] at hcircle
  norm_num at hcircle

theorem squaredNorm_side_ne_zero {c : K} (hc : c ≠ 0) (rot : K) :
    squaredNorm (c • upTurned lib rot) ≠ 0 := by
  have hsq : squaredNorm (c • upTurned lib rot) = c ^ 2 * squaredNorm (upTurned lib rot) := by
    simp only [squaredNorm, Pi.smul_apply, smul_eq_mul]
    ring
  rw [hsq]
  exact mul_ne_zero (pow_ne_zero 2 hc) (squaredNorm_upTurned_pos lib hcircle rot).ne'

variable {bboxCs : BboxCs K} (hside : bboxCs.scale 0 ≠ 0) (shift : Vec2 K) (rot : K)
  (outputH : ℕ) {outputW : ℕ}

include hside in
/-- **The transform is a similarity about the shifted center, whatever the angle.** -/
theorem getAffineTransform_apply (p : Vec2 K) :
    (getAffineTransform lib bboxCs shift rot outputH outputW false).apply p =
      outputCenter outputH outputW +
        (outputW / bboxCs.scale 0) • (p - shiftedCenter bboxCs shift) := by
  rw [getAffineTransform_eq]
  dsimp only
  rw [if_neg Bool.false_ne_true,
    ← apply_getAffineTransform_triangles lib (squaredNorm_side_ne_zero lib hcircle hside rot),
    smul_smul, div_mul_cancel₀ _ hside]

theorem getAffineTransform_inv_apply (hout : outputW ≠ 0) (p : Vec2 K) :
    (getAffineTransform lib bboxCs shift rot outputH outputW true).apply p =
      shiftedCenter bboxCs shift +
        (bboxCs.scale 0 / outputW) • (p - outputCenter outputH outputW) := by
  have hout : (outputW : K) ≠ 0 := Nat.cast_ne_zero.mpr hout
  rw [getAffineTransform_eq]
  dsimp only
  rw [if_pos rfl,
    ← apply_getAffineTransform_triangles lib (squaredNorm_side_ne_zero lib hcircle hout rot),
    smul_smul, div_mul_cancel₀ _ hout]

end Similarity

/-! ### The helper -/

/-- A vector turned by an angle. -/
def turned (lib : WarpLib K) (p : Vec2 K) (rad : K) : Vec2 K :=
  ![p 0 * lib.cos rad - p 1 * lib.sin rad, p 0 * lib.sin rad + p 1 * lib.cos rad]

theorem squaredNorm_turned {lib : WarpLib K} (hcircle : ∀ x, lib.sin x ^ 2 + lib.cos x ^ 2 = 1)
    (p : Vec2 K) (rad : K) : squaredNorm (turned lib p rad) = squaredNorm p := by
  simp only [squaredNorm, turned, Matrix.cons_val]
  linear_combination (p 0 * p 0 + p 1 * p 1) * hcircle rad

theorem getDir_eq_turned_iff (lib : WarpLib K) (rad : K) :
    (∀ p, getDir lib p rad = turned lib p rad) ↔ lib.sin rad = 0 := by
  constructor
  · intro h
    have hx : (0 : K) * lib.sin rad + 0 * lib.cos rad = 1 * lib.sin rad + 0 * lib.cos rad :=
      congrFun (h ![1, 0]) 1
    linear_combination -hx
  · intro h p
    rw [getDir, turned, h]
    simp

/-! ### Both -/

/-- The transform brings `center` to the center of the output, scales every distance by the width
of the output over the side of the box and turns nothing, and `inv` gives the way back; and
`get_dir` turns a vector by the angle and keeps its length. -/
def SimilarAndTurned (lib : WarpLib K) (bboxCs : BboxCs K) (shift : Vec2 K) (rot : K)
    (outputH outputW : ℕ) (center : Vec2 K) : Prop :=
  let m := getAffineTransform lib bboxCs shift rot outputH outputW false
  let back := getAffineTransform lib bboxCs shift rot outputH outputW true
  m.apply center = outputCenter outputH outputW ∧
    (∀ p q, m.apply p - m.apply q = (outputW / bboxCs.scale 0) • (p - q)) ∧
    (∀ p, back.apply (m.apply p) = p ∧ m.apply (back.apply p) = p) ∧
    ∀ p, getDir lib p (rotRad rot) = turned lib p (rotRad rot) ∧
      squaredNorm (getDir lib p (rotRad rot)) = squaredNorm p

/-- A center that does not move by the shift. -/
theorem shiftedCenter_eq_iff {bboxCs : BboxCs K} (hside : bboxCs.scale 0 ≠ 0)
    (hsquare : bboxCs.scale 1 = bboxCs.scale 0) {shift : Vec2 K} :
    bboxCs.center = shiftedCenter bboxCs shift ↔ shift = 0 := by
  constructor
  · intro hcenter
    funext i
    have hi := congrFun hcenter i
    fin_cases i
    · exact (mul_eq_zero.mp (left_eq_add.mp hi)).resolve_left hside
    · exact (mul_eq_zero.mp (left_eq_add.mp hi)).resolve_left (hsquare ▸ hside)
  · rintro rfl
    funext i
    fin_cases i <;> simp [shiftedCenter]

section Turned

variable [LinearOrder K] [IsStrictOrderedRing K] {lib : WarpLib K}
  (hcircle : ∀ x, lib.sin x ^ 2 + lib.cos x ^ 2 = 1) {bboxCs : BboxCs K}
  (hside : bboxCs.scale 0 ≠ 0) {shift : Vec2 K} {rot : K} {outputH outputW : ℕ}
  (hout : outputW ≠ 0)

include hcircle hside hout

/-- The center of the output comes from the shifted center only. -/
theorem apply_eq_outputCenter_iff {center : Vec2 K} :
    (getAffineTransform lib bboxCs shift rot outputH outputW false).apply center =
      outputCenter outputH outputW ↔ center = shiftedCenter bboxCs shift := by
  have hcast : (outputW : K) ≠ 0 := Nat.cast_ne_zero.mpr hout
  rw [getAffineTransform_apply lib hcircle hside, add_eq_left,
    smul_eq_zero_iff_right (div_ne_zero hcast hside), sub_eq_zero]

/-- Without a sine the helper is a turn, and the transform is what it is for every angle. -/
theorem similarAndTurned_of_sin (hsin : lib.sin (rotRad rot) = 0) :
    SimilarAndTurned lib bboxCs shift rot outputH outputW (shiftedCenter bboxCs shift) := by
  have hcast : (outputW : K) ≠ 0 := Nat.cast_ne_zero.mpr hout
  have hm : ∀ p, (getAffineTransform lib bboxCs shift rot outputH outputW false).apply p =
      outputCenter outputH outputW +
        (outputW / bboxCs.scale 0) • (p - shiftedCenter bboxCs shift) :=
    getAffineTransform_apply lib hcircle hside shift rot outputH
  have hback : ∀ p, (getAffineTransform lib bboxCs shift rot outputH outputW true).apply p =
      shiftedCenter bboxCs shift +
        (bboxCs.scale 0 / outputW) • (p - outputCenter outputH outputW) :=
    getAffineTransform_inv_apply lib hcircle shift rot outputH hout
  refine ⟨?_, fun p q => ?_, fun p => ⟨?_, ?_⟩, fun p => ?_⟩
  · rw [hm, sub_self, smul_zero, add_zero]
  · rw [hm, hm, add_sub_add_left_eq_sub, ← smul_sub, sub_sub_sub_cancel_right]
  · rw [hback, hm, add_sub_cancel_left, smul_smul, div_mul_div_cancel₀ hcast, div_self hside,
      one_smul, add_sub_cancel]
  · rw [hm, hback, add_sub_cancel_left, smul_smul, div_mul_div_cancel₀ hside, div_self hcast,
      one_smul, add_sub_cancel]
  · have hturned := (getDir_eq_turned_iff lib (rotRad rot)).mpr hsin p
    exact ⟨hturned, hturned ▸ squaredNorm_turned hcircle p _⟩

end Turned

/-- **The helper turns by the angle only where the sine is 0**; all the rest holds of the center
moved by the shift, and of the center itself where there is no shift. -/
theorem similarity_and_turned_iff [LinearOrder K] [IsStrictOrderedRing K] (lib : WarpLib K)
    (hcircle : ∀ x, lib.sin x ^ 2 + lib.cos x ^ 2 = 1) {bboxCs : BboxCs K}
    (hside : bboxCs.scale 0 ≠ 0) (hsquare : bboxCs.scale 1 = bboxCs.scale 0) (shift : Vec2 K)
    (rot : K) (outputH : ℕ) {outputW : ℕ} (hout : outputW ≠ 0) :
    (SimilarAndTurned lib bboxCs shift rot outputH outputW (shiftedCenter bboxCs shift) ↔
      lib.sin (rotRad rot) = 0) ∧
    (SimilarAndTurned lib bboxCs shift rot outputH outputW bboxCs.center ↔
      lib.sin (rotRad rot) = 0 ∧ shift = 0) := by
  have hsin : ∀ {center}, SimilarAndTurned lib bboxCs shift rot outputH outputW center →
      lib.sin (rotRad rot) = 0 :=
    fun h => (getDir_eq_turned_iff lib _).mp fun p => (h.2.2.2 p).1
  have hall : lib.sin (rotRad rot) = 0 →
      SimilarAndTurned lib bboxCs shift rot outputH outputW (shiftedCenter bboxCs shift) :=
    similarAndTurned_of_sin hcircle hside hout
  refine ⟨⟨hsin, hall⟩, ⟨fun h => ⟨hsin h, ?_⟩, ?_⟩⟩
  · have hcenter := (apply_eq_outputCenter_iff hcircle hside hout).mp h.1
    exact (shiftedCenter_eq_iff hside hsquare).mp hcenter
  · rintro ⟨hzero, hshift⟩
    rw [(shiftedCenter_eq_iff hside hsquare).mpr hshift]
    exact hall hzero

theorem cramerLib_circle (x : ℝ) : cramerLib.sin x ^ 2 + cramerLib.cos x ^ 2 = 1 :=
  Real.sin_sq_add_cos_sq x

/-- A square box at the origin. -/
def unitBox : BboxCs ℝ := ⟨0, ![1, 1]⟩

/-- The angle whose turn is 1. -/
noncomputable def oneRadian : ℝ := 180 / Predictor.mPi

theorem rotRad_oneRadian : rotRad oneRadian = 1 := by
  have hpi : (Predictor.mPi : ℝ) ≠ 0 := by
    norm_num [Predictor.mPi]
  rw [rotRad, oneRadian, div_mul_cancel₀ _ hpi, div_self (by norm_num)]

theorem similarity_and_turned_iff_unitBox :
    (SimilarAndTurned cramerLib unitBox 0 oneRadian 256 192 (shiftedCenter unitBox 0) ↔
      cramerLib.sin (rotRad oneRadian) = 0) ∧
    (SimilarAndTurned cramerLib unitBox 0 oneRadian 256 192 unitBox.center ↔
      cramerLib.sin (rotRad oneRadian) = 0 ∧ (0 : Vec2 ℝ) = 0) :=
  similarity_and_turned_iff cramerLib cramerLib_circle (show (1 : ℝ) ≠ 0 from one_ne_zero)
    (show (1 : ℝ) = 1 from rfl) 0 oneRadian 256 (by decide)

/-- By one radian, without a shift. -/
theorem unitBox_not_turned :
    ¬ SimilarAndTurned cramerLib unitBox 0 oneRadian 256 192 unitBox.center := by
  intro h
  have hsin := (getDir_eq_turned_iff cramerLib _).mp fun p => (h.2.2.2 p).1
  rw [rotRad_oneRadian] at hsin
  exact (Real.sin_pos_of_pos_of_lt_pi one_pos (by linarith [Real.pi_gt_three])).ne' hsin

end Landmark

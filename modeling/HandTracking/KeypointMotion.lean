/-
Keypoints that move, and the 26 joints that are made of them.

`convert_to_26points` and `interpolation_to_26points` fill a vector of 26 points that starts with
what its memory held.  Each of them follows a motion of the keypoints, and a reflection if the
hand is switched, as long as no joint is read before it is set.

* `convertTo26PointsOver`, `interpolationTo26PointsOver` — the functions over a memory;
* `middlePalmJoint_moved`, `getMetacarpalXrJointsV1_moved` — how their parts move;
* `convertTo26Points_moved_iff` — for which lists the functions move with their points.
-/
import HandTracking.EigenLaws
import HandTracking.HandJoints

namespace Joints

open HandPose Matrix

variable {K : Type} [Field K]

/-- The points of a list of at most 26, and the memory behind them. -/
def ofInputOver (unset : Joint26 K) (input : List (Vec3 K)) : Joint26 K :=
  fun i => input.getD i (unset i)

/-- `convert_to_26points` over a memory. -/
def convertTo26PointsOver (E : Eigen K) (unset : Joint26 K) (input : List (Vec3 K))
    (leftHand : Bool) : List (Vec3 K) :=
  let result := ofInputOver unset input
  let result := Function.update result 21 ((1 / 2 : K) • (result 0 + result 9))
  let result := Function.update result 0 (outerRoot E result)
  List.ofFn (middlePalmJoint E result leftHand)

/-- `interpolation_to_26points` over a memory; `interpolationTo26Points` is over zeros. -/
def interpolationTo26PointsOver (E : Eigen K) (unset : Joint26 K) (input : List (Vec3 K)) :
    List (Vec3 K) :=
  let result := ofInputOver unset input
  let result := Function.update result 21 ((1 / 2 : K) • (result 0 + result 9))
  let result := Function.update result 22
    ((1 / 2 : K) • ((1 / 2 : K) • (result 0 - result 9) + (1 / 2 : K) • (result 0 - result 17))
      + result 17)
  List.ofFn (getMetacarpalXrJointsV1 E result)

/-- With zeros in the memory. -/
theorem convertTo26PointsOver_zero (E : Eigen K) (input : List (Vec3 K)) (leftHand : Bool) :
    convertTo26PointsOver E 0 input leftHand = convertTo26Points E input leftHand := rfl

/-! ### A motion of the points -/

section Motion

variable {S : Matrix3 K} {t : Vec3 K}

/-- A point after a motion. -/
def move (S : Matrix3 K) (t p : Vec3 K) : Vec3 K := S *ᵥ p + t

theorem move_sub (p q : Vec3 K) : move S t p - move S t q = S *ᵥ (p - q) := by
  rw [move, move, add_sub_add_right_eq_sub, mulVec_sub]

theorem move_add (p v : Vec3 K) : move S t (p + v) = move S t p + S *ᵥ v := by
  rw [move, move, mulVec_add, add_right_comm]

/-- The middle of two points. -/
theorem move_midpoint (h : (2 : K) ≠ 0) (p q : Vec3 K) :
    move S t ((1 / 2 : K) • (p + q)) = (1 / 2 : K) • (move S t p + move S t q) := by
  have hwhole : (1 / 2 : K) • (t + t) = t := by
    rw [← two_smul K t, smul_smul, one_div, inv_mul_cancel₀ h, one_smul]
  rw [move, move, move, mulVec_smul, mulVec_add, add_add_add_comm, smul_add _ _ (t + t), hwhole]

theorem update_move (joints : Joint26 K) (i : Fin 26) (p : Vec3 K) :
    Function.update (move S t ∘ joints) i (move S t p) =
      move S t ∘ Function.update joints i p :=
  (Function.comp_update _ _ _ _).symm

end Motion

/-! ### The parts -/

section Parts

variable [LinearOrder K] [IsStrictOrderedRing K] {E : Eigen K} (hE : E.Lawful) {S : Matrix3 K}
  (hS : Sᵀ * S = 1) {t : Vec3 K} {leftHand leftHand' : Bool}

/-- The hand is switched by a matrix that changes the orientation, and by no other. -/
def HandMoves (S : Matrix3 K) (leftHand leftHand' : Bool) : Prop :=
  S.det = 1 ∧ leftHand' = leftHand ∨ S.det = -1 ∧ leftHand' = !leftHand

include hE hS

theorem metacarpal_moved (ratio : K) (a root vec : Vec3 K) :
    metacarpal E ratio (move S t a) (move S t root) (S *ᵥ vec) =
      move S t (metacarpal E ratio a root vec) := by
  rw [metacarpal, metacarpal, move_sub, hE.norm_mulVec hS, move_add, mulVec_smul]

/-- The normal of a triangle of points, on the side of the hand. -/
theorem computeNormal_moved (hhand : HandMoves S leftHand leftHand') (a b c : Vec3 K) :
    computeNormal E (move S t a) (move S t b) (move S t c) leftHand' =
      S *ᵥ computeNormal E a b c leftHand := by
  have hcross : ∀ u v : Vec3 K, cross (S *ᵥ u) (S *ᵥ v) = S.det • S *ᵥ cross u v :=
    fun u v => cross_mulVec hS u v
  have hflip : ∀ u v : Vec3 K, -cross u v = cross v u := fun u v => cross_anticomm u v
  rw [computeNormal, computeNormal, move_sub, move_sub]
  rw [← hE.normalized_mulVec hS, hcross, hcross]
  rcases hhand with ⟨hdet, rfl⟩ | ⟨hdet, rfl⟩
  · rw [hdet, one_smul, one_smul]
    split <;> rfl
  · rw [hdet, neg_smul, neg_smul, one_smul, one_smul, ← mulVec_neg, ← mulVec_neg, hflip, hflip]
    cases leftHand <;> rfl

theorem metacarpals_moved (joints : Joint26 K) (root : Vec3 K) :
    metacarpals E (move S t ∘ joints) (move S t root) =
      (move S t (metacarpals E joints root).1, move S t (metacarpals E joints root).2.1,
        move S t (metacarpals E joints root).2.2.1,
        move S t (metacarpals E joints root).2.2.2) := by
  have hvec : ∀ u v : Vec3 K, (2 : K) • (S *ᵥ u) - S *ᵥ v = S *ᵥ ((2 : K) • u - v) := by
    intro u v
    rw [mulVec_sub, mulVec_smul]
  simp only [metacarpals, Function.comp_apply, move_sub, ← mulVec_add, hE.normalized_mulVec hS,
    hvec, metacarpal_moved hE hS]

theorem outerRoot_moved (joints : Joint26 K) :
    outerRoot E (move S t ∘ joints) = move S t (outerRoot E joints) := by
  rw [outerRoot, outerRoot, Function.comp_apply, Function.comp_apply, move_sub,
    hE.norm_mulVec hS, hE.normalized_mulVec hS, move_add, mulVec_smul]

theorem getMetacarpalXrJointsV1_moved (joints : Joint26 K) :
    getMetacarpalXrJointsV1 E (move S t ∘ joints) =
      move S t ∘ getMetacarpalXrJointsV1 E joints := by
  have hvec : ∀ u v : Vec3 K, (2 : K) • (S *ᵥ u) - S *ᵥ v = S *ᵥ ((2 : K) • u - v) := by
    intro u v
    rw [mulVec_sub, mulVec_smul]
  simp only [getMetacarpalXrJointsV1, outerRoot_moved hE hS, Function.comp_apply, move_sub,
    ← mulVec_add, hE.normalized_mulVec hS, hvec, metacarpal_moved hE hS, update_move]

theorem middlePalmJoint_moved (hhand : HandMoves S leftHand leftHand') (joints : Joint26 K) :
    middlePalmJoint E (move S t ∘ joints) leftHand' =
      move S t ∘ middlePalmJoint E joints leftHand := by
  have hsub : ∀ p v : Vec3 K, move S t p - S *ᵥ v = move S t (p - v) := by
    intro p v
    rw [sub_eq_add_neg, sub_eq_add_neg, move_add, mulVec_neg]
  have hmid : ∀ p q : Vec3 K, (1 / 2 : K) • (move S t p + move S t q) =
      move S t ((1 / 2 : K) • (p + q)) := fun p q => (move_midpoint two_ne_zero p q).symm
  simp only [middlePalmJoint, Function.comp_apply, computeNormal_moved hE hS hhand, hsub,
    update_move, metacarpals_moved hE hS, hmid, ← mulVec_smul, ← move_add, move_sub,
    hE.normalized_mulVec hS]

end Parts

/-! ### The lists -/

section Lists

omit [Field K] in
theorem ofInputOver_map (f : Vec3 K → Vec3 K) (unset unset' : Joint26 K) {input : List (Vec3 K)}
    {i : Fin 26} (h : i.val < input.length) :
    ofInputOver unset' (input.map f) i = f (ofInputOver unset input i) := by
  rw [ofInputOver, ofInputOver, List.getD_eq_getElem?_getD, List.getD_eq_getElem?_getD,
    List.getElem?_map, List.getElem?_eq_getElem h]
  rfl

theorem outerRoot_congr (E : Eigen K) {joints joints' : Joint26 K} (h0 : joints 0 = joints' 0)
    (h9 : joints 9 = joints' 9) : outerRoot E joints = outerRoot E joints' := by
  rw [outerRoot, outerRoot, h0, h9]

/-- The metacarpal joint of the middle finger, with what stood in its place. -/
theorem middlePalmJoint_middle (E : Eigen K) (joints : Joint26 K) (leftHand : Bool) :
    middlePalmJoint E joints leftHand 24 =
      (1 / 2 : K) • (metacarpal E 0.6667 (joints 9) (joints 0)
          (E.normalized (joints 0 - joints 9)) + joints 24) +
        (0.005 : K) • computeNormal E (joints 0) (joints 5) (joints 17) leftHand := rfl

/-- The joints from 21 on are all set before they are read. -/
theorem getMetacarpalXrJointsV1_congr (E : Eigen K) {joints joints' : Joint26 K}
    (h : ∀ i : Fin 26, i.val < 21 → joints i = joints' i) :
    getMetacarpalXrJointsV1 E joints = getMetacarpalXrJointsV1 E joints' := by
  have hroot := outerRoot_congr E (h 0 (by decide)) (h 9 (by decide))
  funext i
  simp only [getMetacarpalXrJointsV1, hroot, h 0 (by decide), h 5 (by decide), h 9 (by decide),
    h 13 (by decide), h 17 (by decide)]
  by_cases hi : i.val < 21
  · simp only [Function.update_apply, h i hi]
  · obtain ⟨i, hlt⟩ := i
    interval_cases i <;> first | exact absurd (by decide) hi | rfl

variable [LinearOrder K] [IsStrictOrderedRing K] {E : Eigen K} (hE : E.Lawful) {S : Matrix3 K}
  (hS : Sᵀ * S = 1) (t : Vec3 K) (unset unset' : Joint26 K) {leftHand leftHand' : Bool}
  {input : List (Vec3 K)}

include hE hS

theorem interpolationTo26PointsOver_moved (hlength : input.length = 21) :
    interpolationTo26PointsOver E unset' (input.map (move S t)) =
      (interpolationTo26PointsOver E unset input).map (move S t) := by
  rw [interpolationTo26PointsOver, interpolationTo26PointsOver, List.map_ofFn]
  rw [← getMetacarpalXrJointsV1_moved hE hS]
  congr 1
  apply getMetacarpalXrJointsV1_congr
  intro i hi
  have h21 : i ≠ 21 := by
    rintro rfl
    exact absurd hi (by decide)
  have h22 : i ≠ 22 := by
    rintro rfl
    exact absurd hi (by decide)
  rw [Function.update_of_ne h22, Function.update_of_ne h21, Function.comp_apply,
    Function.update_of_ne h22, Function.update_of_ne h21]
  exact ofInputOver_map _ _ _ (hlength.symm ▸ hi)

/-- What `middle_palm_joint` is given for a list that sets all joints. -/
theorem convertTo26PointsOver_moved (hhand : HandMoves S leftHand leftHand')
    (hset : ofInputOver unset' (input.map (move S t)) = move S t ∘ ofInputOver unset input) :
    convertTo26PointsOver E unset' (input.map (move S t)) leftHand' =
      (convertTo26PointsOver E unset input leftHand).map (move S t) := by
  rw [convertTo26PointsOver, convertTo26PointsOver, List.map_ofFn]
  rw [← middlePalmJoint_moved hE hS hhand, hset]
  simp only [Function.comp_apply, ← move_midpoint (two_ne_zero (α := K)), update_move,
    outerRoot_moved hE hS]

omit [Field K] [LinearOrder K] [IsStrictOrderedRing K] hE hS in
theorem ofInputOver_behind (memory : Joint26 K) {points : List (Vec3 K)} {i : Fin 26}
    (h : points.length ≤ i.val) : ofInputOver memory points i = memory i := by
  rw [ofInputOver, List.getD_eq_getElem?_getD, List.getElem?_eq_none h, Option.getD_none]

omit hE hS in
/-- The joint in place 24 is read by `middle_palm_joint`. -/
theorem eq_of_middlePalmJoint_eq {joints joints' : Joint26 K}
    (hread : ∀ i : Fin 26, i.val < 21 → joints' i = joints i)
    (h : middlePalmJoint E joints' leftHand 24 = middlePalmJoint E joints leftHand 24) :
    joints' 24 = joints 24 := by
  rw [middlePalmJoint_middle, middlePalmJoint_middle, hread 0 (by decide), hread 5 (by decide),
    hread 9 (by decide), hread 17 (by decide)] at h
  have hhalf := smul_right_injective (Vec3 K) (one_div_ne_zero (two_ne_zero (α := K)))
    (add_right_cancel h)
  exact add_left_cancel hhalf

/-- A list of 21 leaves this place as it was. -/
theorem unset_of_moved (hhand : HandMoves S leftHand leftHand') (hlength : input.length = 21)
    (h : convertTo26PointsOver E unset' (input.map (move S t)) leftHand' =
      (convertTo26PointsOver E unset input leftHand).map (move S t)) :
    unset' 24 = move S t (unset 24) := by
  rw [convertTo26PointsOver, convertTo26PointsOver, List.map_ofFn,
    ← middlePalmJoint_moved hE hS hhand] at h
  have hlist : ∀ i : Fin 26, i.val < 21 →
      ofInputOver unset' (input.map (move S t)) i = move S t (ofInputOver unset input i) :=
    fun i hi => ofInputOver_map _ _ _ (hlength.symm ▸ hi)
  have hmap : (input.map (move S t)).length = 21 := by rw [List.length_map, hlength]
  have hmiddle := eq_of_middlePalmJoint_eq ?_ (congrFun (List.ofFn_injective h) 24)
  · rwa [Function.update_of_ne (by decide), Function.update_of_ne (by decide),
      Function.comp_apply, Function.update_of_ne (by decide), Function.update_of_ne (by decide),
      ofInputOver_behind unset' (hmap.trans_le (by decide)),
      ofInputOver_behind unset (hlength.trans_le (by decide))] at hmiddle
  · intro i hi
    have h21 : i ≠ 21 := by
      rintro rfl
      exact absurd hi (by decide)
    rcases eq_or_ne i 0 with rfl | h0
    · rw [Function.update_self, Function.comp_apply, Function.update_self,
        ← outerRoot_moved hE hS]
      apply outerRoot_congr
      · rw [Function.update_of_ne (by decide), Function.comp_apply,
          Function.update_of_ne (by decide), hlist 0 (by decide)]
      · rw [Function.update_of_ne (by decide), Function.comp_apply,
          Function.update_of_ne (by decide), hlist 9 (by decide)]
    · rw [Function.update_of_ne h0, Function.update_of_ne h21, Function.comp_apply,
        Function.update_of_ne h0, Function.update_of_ne h21, hlist i hi]

end Lists

/-! ### The law of motion -/

/-- `convert_to_26points` follows a motion of its points, over what the vectors of the two calls
held before. -/
def ConvertMoves (E : Eigen K) (S : Matrix3 K) (t : Vec3 K) (leftHand leftHand' : Bool)
    (unset unset' : Joint26 K) (input : List (Vec3 K)) : Prop :=
  convertTo26PointsOver E unset' (input.map (move S t)) leftHand' =
    (convertTo26PointsOver E unset input leftHand).map (move S t)

/-- The interpolated points move with the input. -/
def InterpolationMoves (E : Eigen K) (S : Matrix3 K) (t : Vec3 K) (unset unset' : Joint26 K)
    (input : List (Vec3 K)) : Prop :=
  interpolationTo26PointsOver E unset' (input.map (move S t)) =
    (interpolationTo26PointsOver E unset input).map (move S t)

/-- With 26 points the law holds over any memory.  With 21 the joints 22 to 25 are read before
they are set, and it depends on what stood there: over zeros it holds for rotations alone. -/
theorem convertTo26Points_moved_iff [LinearOrder K] [IsStrictOrderedRing K] {E : Eigen K}
    (hE : E.Lawful) {S : Matrix3 K} (hS : Sᵀ * S = 1) (t : Vec3 K) {leftHand leftHand' : Bool}
    (hhand : HandMoves S leftHand leftHand') {input : List (Vec3 K)}
    (hlength : input.length = 21 ∨ input.length = 26) :
    ((∀ unset unset', ConvertMoves E S t leftHand leftHand' unset unset' input) ↔
      input.length = 26) ∧
    (ConvertMoves E S t leftHand leftHand' 0 0 input ↔ input.length = 26 ∨ t = 0) ∧
    (input.length = 21 → ∀ unset unset', InterpolationMoves E S t unset unset' input) := by
  have hfull : input.length = 26 → ∀ unset unset',
      ConvertMoves E S t leftHand leftHand' unset unset' input := by
    intro h26 unset unset'
    apply convertTo26PointsOver_moved hE hS t unset unset' hhand
    funext i
    exact ofInputOver_map _ _ _ (h26.symm ▸ i.isLt)
  refine ⟨⟨fun h => ?_, hfull⟩, ⟨fun h => ?_, ?_⟩, ?_⟩
  · rcases hlength with h21 | h26
    · -- two memories that the motion does not carry into each other
      have hzero := unset_of_moved hE hS t 0 0 hhand h21 (h 0 0)
      have hone := unset_of_moved hE hS t 0 1 hhand h21 (h 0 1)
      exact absurd (congrFun (hone.trans hzero.symm) 0) one_ne_zero
    · exact h26
  · refine hlength.symm.imp_right fun h21 => ?_
    have hzero := unset_of_moved hE hS t 0 0 hhand h21 h
    rw [move, Pi.zero_apply, mulVec_zero, zero_add] at hzero
    exact hzero.symm
  · rintro (h26 | rfl)
    · exact hfull h26 0 0
    · apply convertTo26PointsOver_moved hE hS 0 0 0 hhand
      funext i
      rcases lt_or_ge i.val input.length with hi | hi
      · exact ofInputOver_map _ _ _ hi
      · rw [ofInputOver_behind 0 (by rwa [List.length_map]), Function.comp_apply,
          ofInputOver_behind 0 hi, move, Pi.zero_apply, mulVec_zero, zero_add]
  · intro h21 unset unset'
    exact interpolationTo26PointsOver_moved hE hS t unset unset' h21

/-- 21 points of a palm that is not flat in a line. -/
def parabola : List (Vec3 ℝ) := (List.range 21).map fun i : ℕ => ![(i : ℝ), (i : ℝ) ^ 2, 0]

theorem length_parabola : parabola.length = 21 := by
  rw [parabola, List.length_map, List.length_range]

theorem handMoves_one : HandMoves (1 : Matrix3 ℝ) false false := .inl ⟨det_one, rfl⟩

theorem convertTo26Points_moved_iff_parabola :
    ((∀ unset unset', ConvertMoves geometricEigen 1 ![1, 0, 0] false false unset unset' parabola) ↔
      parabola.length = 26) ∧
    (ConvertMoves geometricEigen 1 ![1, 0, 0] false false 0 0 parabola ↔
      parabola.length = 26 ∨ (![1, 0, 0] : Vec3 ℝ) = 0) ∧
    (parabola.length = 21 → ∀ unset unset',
      InterpolationMoves geometricEigen 1 ![1, 0, 0] unset unset' parabola) :=
  convertTo26Points_moved_iff lawful_geometricEigen (by rw [transpose_one, one_mul]) _
    handMoves_one (.inl length_parabola)

/-- Moved by one unit along x, over zeros. -/
theorem convertTo26Points_parabola_not_moved :
    cross (parabola.getD 5 0 - parabola.getD 0 0) (parabola.getD 17 0 - parabola.getD 0 0) ≠ 0 ∧
      ¬ ConvertMoves geometricEigen 1 ![1, 0, 0] false false 0 0 parabola := by
  constructor
  · intro h
    have hz := congrFun h 2
    simp [parabola, cross, cross_apply] at hz
    norm_num at hz
  · intro h
    have hzero := unset_of_moved lawful_geometricEigen (by rw [transpose_one, one_mul]) _ 0 0
      handMoves_one length_parabola h
    rw [move, Pi.zero_apply, mulVec_zero, zero_add] at hzero
    exact zero_ne_one (congrFun hzero 0)

end Joints

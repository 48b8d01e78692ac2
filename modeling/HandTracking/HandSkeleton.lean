/-
The hand of `decode_hand_joints` as a rigid kinematic chain.

`handPoses` is one pass over the tree of the joints (`kintree`), so each pose is that of its
parent times the relative transform.  The poses are rigid, and the distance of a joint to its
parent is that of the template, scaled.

* `handPoses_succ`, `isRigid_handPoses` — the poses along the tree;
* `distance_handPoses` — the distances of the joints to their parents;
* `handPoses_translation_congr` — who notices that a joint turns;
* `decodeHandJoints_rigid_chain` — the three for the output.
-/
import HandTracking.HandNimble
import HandTracking.Library.ParentTable
import HandTracking.Library.Rotation
import HandTracking.PerspectiveCrop

namespace Pose

open Camera Matrix

/-- `KINTREE_PARENTS` below the root. -/
def kintree : ParentTable 24 where
  parent i := kintreeParents i.succ
  parent_lt := by decide

/-! ### The poses along the tree -/

section Poses

variable {K : Type} [Field K] (handScale : K) (jointAngles : JointAngles K)

theorem handPoses_eq_fill (l : List (Fin 24)) :
    handPoses handScale jointAngles l =
      kintree.fill (fun i pose => pose * jointRelTransform handScale jointAngles i.succ)
        (Function.update 1 0 ⟨1, realJoints handScale 0⟩) l := rfl

theorem handPoses_zero (l : List (Fin 24)) :
    handPoses handScale jointAngles l 0 = ⟨1, realJoints handScale 0⟩ := by
  rw [handPoses_eq_fill, ParentTable.fill_zero, Function.update_self]

theorem handPoses_succ (i : Fin 24) :
    handPoses handScale jointAngles (List.finRange 24) i.succ =
      handPoses handScale jointAngles (List.finRange 24) (kintree.parent i) *
        jointRelTransform handScale jointAngles i.succ := by
  rw [handPoses_eq_fill, ParentTable.fill_finRange_succ]

variable {jointAngles}

theorem jointRot_orthogonal (hrot : ∀ b, (jointAngles b)ᵀ * jointAngles b = 1) (joint : Fin 25) :
    (jointRot jointAngles joint)ᵀ * jointRot jointAngles joint = 1 := by
  unfold jointRot
  split
  · exact hrot _
  · rw [transpose_one, Matrix.one_mul]

theorem isRigid_handPoses (hrot : ∀ b, (jointAngles b)ᵀ * jointAngles b = 1) (i : Fin 25) :
    (handPoses handScale jointAngles (List.finRange 24) i).IsRigid := by
  induction i using kintree.induction with
  | root =>
    rw [handPoses_zero, Isometry3.IsRigid, transpose_one, Matrix.one_mul]
  | child i ih =>
    rw [handPoses_succ]
    exact ih.mul (jointRot_orthogonal hrot i.succ)

/-- The template bone to a joint, scaled: the bone at rest. -/
theorem realJoints_sub (i j : Fin 25) :
    realJoints handScale i - realJoints handScale j =
      (1 + handScale) • (nimbleTemplateJoints i - nimbleTemplateJoints j) := by
  rw [realJoints, realJoints, add_sub_add_right_eq_sub, ← smul_sub, sub_sub_sub_cancel_right]

/-- The bone to a joint, as the pose of its parent turns it. -/
theorem handPoses_translation_sub (i : Fin 24) :
    (handPoses handScale jointAngles (List.finRange 24) i.succ).translation -
        (handPoses handScale jointAngles (List.finRange 24) (kintree.parent i)).translation =
      (1 + handScale) •
        ((handPoses handScale jointAngles (List.finRange 24) (kintree.parent i)).linear *ᵥ
          (nimbleTemplateJoints i.succ - nimbleTemplateJoints (kintree.parent i))) := by
  rw [handPoses_succ, Isometry3.mul_translation, add_sub_cancel_right, ← mulVec_smul,
    ← realJoints_sub]
  rfl

/-! ### A joint that turns -/

/-- The joint that an angle turns is the only one. -/
theorem jointIdBoneDict_injective {joint joint' : Fin 25} {bone : Fin 20}
    (h : jointIdBoneDict joint = some bone) (h' : jointIdBoneDict joint' = some bone) :
    joint = joint' := by
  have htable : ∀ joint joint' : Fin 25, jointIdBoneDict joint = jointIdBoneDict joint' →
      jointIdBoneDict joint = none ∨ joint = joint' := by
    decide
  rcases htable joint joint' (h.trans h'.symm) with hnone | heq
  · rw [h] at hnone
    cases hnone
  · exact heq

theorem jointIdBoneDict_surjective (b : Fin 19) :
    ∃ joint : Fin 24, jointIdBoneDict joint.succ = some b.succ := by
  revert b
  decide

/-- No joint below the root is turned by bone 0, which has no angle. -/
theorem eq_succ_of_jointIdBoneDict {joint : Fin 24} {bone : Fin 20}
    (h : jointIdBoneDict joint.succ = some bone) : bone = (Fin.ofNat 19 (bone.val - 1)).succ := by
  revert bone joint
  decide

theorem jointRot_update_of_ne {joint joint' : Fin 24} {b : Fin 19}
    (hjoint : jointIdBoneDict joint.succ = some b.succ) (hne : joint' ≠ joint) (R : Matrix3 K) :
    jointRot (Function.update jointAngles b R) joint'.succ =
      jointRot jointAngles joint'.succ := by
  unfold jointRot
  cases hbone : jointIdBoneDict joint'.succ with
  | none => rfl
  | some bone =>
    have hangle : Fin.ofNat 19 (bone.val - 1) ≠ b := by
      intro heq
      have hsucc : bone = b.succ := by
        rw [← heq]
        exact eq_succ_of_jointIdBoneDict hbone
      rw [hsucc] at hbone
      exact hne (Fin.succ_injective _ (jointIdBoneDict_injective hbone hjoint))
    exact Function.update_of_ne hangle R jointAngles

/-- A joint stays in its place when it turns, and so does all that is not below it. -/
theorem handPoses_translation_congr {joint : Fin 24} {b : Fin 19}
    (hjoint : jointIdBoneDict joint.succ = some b.succ) (R : Matrix3 K) {i : Fin 25}
    (hi : ¬ kintree.StrictDescendant joint.succ i) :
    (handPoses handScale (Function.update jointAngles b R) (List.finRange 24) i).translation =
      (handPoses handScale jointAngles (List.finRange 24) i).translation := by
  have hstep : ∀ j ≠ joint,
      (fun pose => pose * jointRelTransform handScale (Function.update jointAngles b R) j.succ) =
        fun pose => pose * jointRelTransform handScale jointAngles j.succ := by
    intro j hj
    rw [jointRelTransform, jointRot_update_of_ne hjoint hj]
    rfl
  by_cases heq : i = joint.succ
  · have hparent := ParentTable.fill_congr (Function.update 1 0 ⟨1, realJoints handScale 0⟩) hstep
      (kintree.parent_lt joint).ne (ParentTable.not_strictDescendant_parent joint)
    rw [← handPoses_eq_fill, ← handPoses_eq_fill] at hparent
    rw [heq, handPoses_succ, handPoses_succ, hparent]
    rfl
  · rw [handPoses_eq_fill, handPoses_eq_fill, ParentTable.fill_congr _ hstep heq hi]

end Poses

/-! ### Distances -/

section Distances

variable {K : Type} [Field K] [LinearOrder K] (fns : RealFns K)

/-- The distance of two points, with the root of the library. -/
def distance (p q : Vec3 K) : K := fns.sqrt ((p - q) ⬝ᵥ (p - q))

theorem distance_nonneg (p q : Vec3 K) : 0 ≤ distance fns p q := fns.sqrt_nonneg _

variable [IsStrictOrderedRing K] (handScale : K) {jointAngles : JointAngles K}

/-- A turned and scaled difference. -/
theorem distance_of_sub_eq {p q p' q' : Vec3 K} {S : Matrix3 K} (hS : Sᵀ * S = 1) (c : K)
    (h : p - q = c • (S *ᵥ (p' - q'))) : distance fns p q = |c| * distance fns p' q' := by
  have hnonneg : 0 ≤ (p' - q') ⬝ᵥ (p' - q') :=
    Finset.sum_nonneg fun i _ => mul_self_nonneg ((p' - q') i)
  have hsq : (p - q) ⬝ᵥ (p - q) = c * c * ((p' - q') ⬝ᵥ (p' - q')) := by
    rw [h, smul_dotProduct, dotProduct_smul, dotProduct_mulVec_mulVec hS, smul_eq_mul,
      smul_eq_mul, mul_assoc]
  rw [distance, hsq, fns.sqrt_mul_self_mul c hnonneg]
  rfl

theorem distance_handPoses (hrot : ∀ b, (jointAngles b)ᵀ * jointAngles b = 1) (i : Fin 24) :
    distance fns (handPoses handScale jointAngles (List.finRange 24) i.succ).translation
        (handPoses handScale jointAngles (List.finRange 24) (kintree.parent i)).translation =
      |1 + handScale| *
        distance fns (nimbleTemplateJoints i.succ) (nimbleTemplateJoints (kintree.parent i)) :=
  distance_of_sub_eq fns (isRigid_handPoses handScale hrot (kintree.parent i)) (1 + handScale)
    (handPoses_translation_sub handScale i)

theorem distance_decodeHandJoints (i j : Fin 26) :
    distance fns (decodeHandJoints handScale jointAngles i)
        (decodeHandJoints handScale jointAngles j) =
      distance fns (handPoses handScale jointAngles (List.finRange 24)
          (validJointIndex i)).translation
        (handPoses handScale jointAngles (List.finRange 24) (validJointIndex j)).translation /
        1000 := by
  set poses := handPoses handScale jointAngles (List.finRange 24)
  have hsub : decodeHandJoints handScale jointAngles i - decodeHandJoints handScale jointAngles j =
      (1 / 1000 : K) • ((1 : Matrix3 K) *ᵥ ((poses (validJointIndex i)).translation -
        (poses (validJointIndex j)).translation)) := by
    rw [one_mulVec, decodeHandJoints, decodeHandJoints, ← smul_sub, sub_sub_sub_cancel_right]
  rw [distance_of_sub_eq fns (by rw [transpose_one, Matrix.one_mul]) _ hsub,
    abs_of_pos (by norm_num), one_div, inv_mul_eq_div]

end Distances

/-! ### The chain -/

section Chain

variable {K : Type} [Field K] [LinearOrder K] [IsStrictOrderedRing K] (fns : RealFns K)
  (handScale : K) {jointAngles : JointAngles K}

/-- Every joint is in the output. -/
theorem validJointIndex_surjective (joint : Fin 25) : ∃ i, validJointIndex i = joint := by
  revert joint
  decide

omit [LinearOrder K] [IsStrictOrderedRing K] in
theorem decodeHandJoints_of_root {i : Fin 26} (hi : validJointIndex i = 0) :
    decodeHandJoints handScale jointAngles i = 0 := by
  rw [decodeHandJoints, hi, sub_self, smul_zero]

omit [LinearOrder K] [IsStrictOrderedRing K] in
theorem decodeHandJoints_congr {joint : Fin 24} {b : Fin 19}
    (hjoint : jointIdBoneDict joint.succ = some b.succ) (R : Matrix3 K) {i : Fin 26}
    (hi : ¬ kintree.StrictDescendant joint.succ (validJointIndex i)) :
    decodeHandJoints handScale (Function.update jointAngles b R) i =
      decodeHandJoints handScale jointAngles i := by
  rw [decodeHandJoints, decodeHandJoints, handPoses_translation_congr handScale hjoint R hi,
    handPoses_zero, handPoses_zero]

theorem distance_parent_child (hrot : ∀ b, (jointAngles b)ᵀ * jointAngles b = 1) (joint : Fin 24)
    {i j : Fin 26} (hi : validJointIndex i = joint.succ)
    (hj : validJointIndex j = kintree.parent joint) :
    distance fns (decodeHandJoints handScale jointAngles i)
        (decodeHandJoints handScale jointAngles j) =
      |1 + handScale| * distance fns (nimbleTemplateJoints joint.succ)
        (nimbleTemplateJoints (kintree.parent joint)) / 1000 := by
  rw [distance_decodeHandJoints, hi, hj, distance_handPoses fns handScale hrot]

/-- The output holds every joint, with the root at the origin; the distance of a joint to its
parent is that of the template, scaled; and where one joint turns in another way, only points
strictly below it move. -/
theorem decodeHandJoints_rigid_chain
    (hrot : ∀ b, (jointAngles b)ᵀ * jointAngles b = 1) :
    (∀ joint, ∃ i, validJointIndex i = joint) ∧
      (∀ i, validJointIndex i = 0 → decodeHandJoints handScale jointAngles i = 0) ∧
      (∀ joint i j, validJointIndex i = joint.succ → validJointIndex j = kintree.parent joint →
        distance fns (decodeHandJoints handScale jointAngles i)
            (decodeHandJoints handScale jointAngles j) =
          |1 + handScale| * distance fns (nimbleTemplateJoints joint.succ)
            (nimbleTemplateJoints (kintree.parent joint)) / 1000) ∧
      ∀ b : Fin 19, ∃ joint : Fin 24, jointIdBoneDict joint.succ = some b.succ ∧
        ∀ R i, decodeHandJoints handScale (Function.update jointAngles b R) i ≠
            decodeHandJoints handScale jointAngles i →
          kintree.StrictDescendant joint.succ (validJointIndex i) := by
  refine ⟨validJointIndex_surjective, fun i hi => decodeHandJoints_of_root handScale hi,
    fun joint i j hi hj => distance_parent_child fns handScale hrot joint hi hj, fun b => ?_⟩
  obtain ⟨joint, hjoint⟩ := jointIdBoneDict_surjective b
  refine ⟨joint, hjoint, fun R i hmoved => ?_⟩
  by_contra hbelow
  exact hmoved (decodeHandJoints_congr handScale hjoint R hbelow)

theorem rest_orthogonal (b : Fin 19) :
    ((1 : JointAngles ℝ) b)ᵀ * (1 : JointAngles ℝ) b = 1 := by
  rw [Pi.one_apply, transpose_one, Matrix.one_mul]

/-- One joint is bent by a right angle, the others are at rest. -/
def bentAngles : JointAngles ℝ := Function.update 1 4 !![1, 0, 0; 0, 0, -1; 0, 1, 0]

theorem bentAngles_orthogonal (b : Fin 19) : (bentAngles b)ᵀ * bentAngles b = 1 := by
  by_cases hb : b = 4
  · subst hb
    rw [bentAngles, Function.update_self]
    ext i j
    fin_cases i <;> fin_cases j <;> simp [Matrix.mul_apply, Fin.sum_univ_three]
  · rw [bentAngles, Function.update_of_ne hb]
    exact rest_orthogonal b

/-- The root and the bones of the bent hand, which is a quarter larger than the template. -/
theorem decodeHandJoints_rigid_chain_bent :
    decodeHandJoints (1 / 4) bentAngles 0 = 0 ∧
      ∀ joint i j, validJointIndex i = joint.succ → validJointIndex j = kintree.parent joint →
        distance realFns (decodeHandJoints (1 / 4) bentAngles i)
            (decodeHandJoints (1 / 4) bentAngles j) =
          |1 + 1 / 4| * distance realFns (nimbleTemplateJoints joint.succ)
            (nimbleTemplateJoints (kintree.parent joint)) / 1000 := by
  obtain ⟨-, hroot, hbones, -⟩ :=
    decodeHandJoints_rigid_chain realFns (1 / 4) bentAngles_orthogonal
  exact ⟨hroot 0 rfl, hbones⟩

theorem distance_template_pos :
    0 < distance realFns (nimbleTemplateJoints 1) (nimbleTemplateJoints 0) := by
  apply realFns.sqrt_pos
  set bone : Vec3 ℝ := nimbleTemplateJoints 1 - nimbleTemplateJoints 0 with hbone
  have hx : 0 < bone 0 := by norm_num [hbone, nimbleTemplateJoints]
  have hx2 := mul_pos hx hx
  have hy2 := mul_self_nonneg (bone 1)
  have hz2 := mul_self_nonneg (bone 2)
  rw [dotProduct, Fin.sum_univ_three]
  linarith

/-- At a hand scale below -1 the hand is mirrored, and its distances are not negative. -/
theorem not_decodeHandJoints_signed_scale :
    ¬ ∀ (handScale : ℝ) (jointAngles : JointAngles ℝ),
      (∀ b, (jointAngles b)ᵀ * jointAngles b = 1) →
      ∀ joint i j, validJointIndex i = joint.succ → validJointIndex j = kintree.parent joint →
        distance realFns (decodeHandJoints handScale jointAngles i)
            (decodeHandJoints handScale jointAngles j) =
          (1 + handScale) * distance realFns (nimbleTemplateJoints joint.succ)
            (nimbleTemplateJoints (kintree.parent joint)) / 1000 := by
  intro h
  have hsigned := h (-2) 1 rest_orthogonal 0 1 0 rfl rfl
  have hnonneg := distance_nonneg realFns (decodeHandJoints (-2) 1 1)
    (decodeHandJoints (-2) 1 0)
  have hpos : 0 < distance realFns (nimbleTemplateJoints (Fin.succ 0))
    (nimbleTemplateJoints (kintree.parent 0)) := distance_template_pos
  rw [hsigned] at hnonneg
  linarith

end Chain

end Pose

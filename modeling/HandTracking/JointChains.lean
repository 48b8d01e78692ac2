/-
The rotation of a joint as the product of the turns along its finger.

`jointRotations` overwrites its outputs level by level.  What it leaves in each of them is a
rotation of the first level, and a turn for every bone from there to the next joint
(`chainOf`), whatever was in the output before.

* `computeXrJointRotationV1_eq`, `computeJointRotation_eq` — the outputs as chains;
* `rootRotation_spec`, `rootRotation_moved` — the root rotation;
* `isRotation_chainRotation`, `chainRotation_moved`, `sameRay_chainRotation` — a chain is a
  rotation, it moves with the joints and points to the next joint;
* `joint_rotations_follow_bones` — the three for the two functions.
-/
import HandTracking.EigenLaws

namespace HandPose

open Matrix

section Chains

variable {n : ℕ} [NeZero n]

/-- The first level joint that a chain starts from, but for the root, and its bones with the next
ones, the last first. -/
structure Chain (n : ℕ) where
  base : Option (Fin n)
  steps : List (Fin n × Fin n)

/-- The chain of a joint. -/
def chainOf (i : Fin n) : Chain n :=
  match i.val with
  | 0 => ⟨none, []⟩
  | 1 => ⟨some 1, [(1, 2)]⟩
  | 2 => ⟨some 1, [(2, 3), (1, 2)]⟩
  | 3 | 4 => ⟨some 1, [(3, 4), (2, 3), (1, 2)]⟩
  | 5 => ⟨some 5, [(5, 6)]⟩
  | 6 => ⟨some 5, [(6, 7), (5, 6)]⟩
  | 7 | 8 => ⟨some 5, [(7, 8), (6, 7), (5, 6)]⟩
  | 9 => ⟨some 9, [(9, 10)]⟩
  | 10 => ⟨some 9, [(10, 11), (9, 10)]⟩
  | 11 | 12 => ⟨some 9, [(11, 12), (10, 11), (9, 10)]⟩
  | 13 => ⟨some 13, [(13, 14)]⟩
  | 14 => ⟨some 13, [(14, 15), (13, 14)]⟩
  | 15 | 16 => ⟨some 13, [(15, 16), (14, 15), (13, 14)]⟩
  | 22 => ⟨some 22, [(22, 17)]⟩
  | 17 => ⟨some 22, [(17, 18), (22, 17)]⟩
  | 18 => ⟨some 22, [(18, 19), (17, 18), (22, 17)]⟩
  | 19 | 20 => ⟨some 22, [(19, 20), (18, 19), (17, 18), (22, 17)]⟩
  -- the center of the hand is set before the finger is turned
  | 21 => ⟨some 9, []⟩
  | _ => ⟨some i, []⟩

/-- The joints of the fingers that have a next joint, with it. -/
def boneEdges : List (Fin n × Fin n) :=
  fingers.flatMap (fun (lev1, lev2, lev3, lev4) => [(lev1, lev2), (lev2, lev3), (lev3, lev4)]) ++
    [(19, 20)]

/-- The joint to which a chain points. -/
def tip (base : Fin n) : List (Fin n × Fin n) → Fin n
  | [] => base
  | e :: _ => e.2

/-- Each bone starts where the one before ends. -/
def Linked (base : Fin n) : List (Fin n × Fin n) → Prop
  | [] => True
  | e :: steps => e.1 = tip base steps ∧ Linked base steps

instance decidableLinked (base : Fin n) : ∀ steps, Decidable (Linked base steps)
  | [] => isTrue trivial
  | _ :: steps => @instDecidableAnd _ _ _ (decidableLinked base steps)

/-- What the tables of indices say, for the joints of the first level. -/
structure Skeleton (lev1Index : List (Fin n)) : Prop where
  parent_lev1 : ∀ i ∈ lev1Index, parentIndex i = 0
  thumb_mem : 1 ∈ lev1Index
  base_mem : ∀ i : Fin n, ∀ b ∈ (chainOf i).base, b ∈ lev1Index
  steps_mem : ∀ i : Fin n, ∀ e ∈ (chainOf i).steps, e ∈ boneEdges
  linked : ∀ e ∈ boneEdges (n := n), ∃ b ∈ (chainOf e.1).base,
    Linked b (chainOf e.1).steps ∧ tip b (chainOf e.1).steps = e.2 ∧ parentIndex e.2 = e.1

/-- The bones are gone through one by one, and not all pairs of joints. -/
theorem forall_boneEdges {p : Fin n × Fin n → Prop} [DecidablePred p]
    (h : boneEdges.all fun e => decide (p e)) : ∀ e ∈ boneEdges, p e :=
  fun e he => of_decide_eq_true (List.all_eq_true.mp h e he)

theorem Skeleton.of_all {lev1Index : List (Fin n)}
    (hparent : ∀ i ∈ lev1Index, parentIndex i = 0) (hthumb : 1 ∈ lev1Index)
    (hbase : ∀ i : Fin n, ∀ b ∈ (chainOf i).base, b ∈ lev1Index)
    (hsteps : ∀ i : Fin n, (chainOf i).steps.all fun e => decide (e ∈ boneEdges))
    (hlinked : boneEdges.all fun e : Fin n × Fin n => decide (∃ b ∈ (chainOf e.1).base,
      Linked b (chainOf e.1).steps ∧ tip b (chainOf e.1).steps = e.2 ∧ parentIndex e.2 = e.1)) :
    Skeleton lev1Index where
  parent_lev1 := hparent
  thumb_mem := hthumb
  base_mem := hbase
  steps_mem i e he := of_decide_eq_true (List.all_eq_true.mp (hsteps i) e he)
  linked := forall_boneEdges hlinked

theorem skeleton_lev1Index : Skeleton (n := 23) [1, 5, 9, 13, 22] := by
  apply Skeleton.of_all <;> decide +kernel

theorem skeleton_xrLev1Index : Skeleton (n := 26) [1, 5, 9, 13, 22, 23, 24, 25] := by
  apply Skeleton.of_all <;> decide +kernel

variable {K : Type} [Field K] (E : Eigen K) (joint : Fin n → Vec3 K) (r0 : Matrix3 K)
  (leftHand : Bool)

/-- The rotation of a joint of the first level. -/
def lev1Rotation (i : Fin n) : Matrix3 K :=
  E.fromTwoVectors (joint 9 - joint (parentIndex i)) (bone joint i) * r0

/-- `R_thumb` -/
def thumbRotation : Matrix3 K :=
  let angle : K := if leftHand then 60 else -60
  E.angleAxis (angle / 180 * (314 / 100)) (E.normalized (joint 1 - joint 0))

/-- The rotation that a chain starts from. -/
def baseRotation : Option (Fin n) → Matrix3 K
  | none => r0
  | some i =>
    if i = 1 then thumbRotation E joint leftHand * lev1Rotation E joint r0 i
    else lev1Rotation E joint r0 i

/-- The product of the rotations along a chain, on that of its base. -/
def chainRotation (c : Chain n) : Matrix3 K :=
  c.steps.foldr (fun e r => boneRotation E joint e.1 e.2 * r)
    (baseRotation E joint r0 leftHand c.base)

end Chains

/-! ### The outputs -/

section Outputs

variable {K : Type} [Field K] (E : Eigen K)

theorem computeXrJointRotationV1_eq (joint : Fin 26 → Vec3 K) (leftHand : Bool) (i : Fin 26) :
    computeXrJointRotationV1 E joint leftHand i =
      chainRotation E joint (rootRotation E joint ![0, 0, -1] ![0, 1, 0] leftHand) leftHand
        (chainOf i) := by
  fin_cases i <;> rfl

theorem computeJointRotation_eq (joint : Fin 23 → Vec3 K) (leftHand : Bool) (i : Fin 23) :
    computeJointRotation E joint leftHand i =
      chainRotation E joint (rootRotation E joint ![0, 1, 0] ![0, 0, 1] leftHand) leftHand
        (chainOf i) := by
  fin_cases i <;> rfl

end Outputs

/-! ### The root -/

section Root

variable {n : ℕ} [NeZero n] {K : Type} [Field K] [LinearOrder K] [IsStrictOrderedRing K]
  {E : Eigen K} {joint : Fin n → Vec3 K} {forward up : Vec3 K} {leftHand : Bool} {S : Matrix3 K}
  {t : Vec3 K}

/-- The joints after a motion. -/
def moved (S : Matrix3 K) (t : Vec3 K) (joint : Fin n → Vec3 K) : Fin n → Vec3 K :=
  fun i => S *ᵥ joint i + t

omit [NeZero n] [LinearOrder K] [IsStrictOrderedRing K] in
theorem moved_sub (i j : Fin n) :
    moved S t joint i - moved S t joint j = S *ᵥ (joint i - joint j) := by
  rw [moved, moved, add_sub_add_right_eq_sub, mulVec_sub]

omit [LinearOrder K] [IsStrictOrderedRing K] in
theorem bone_moved (i : Fin n) : bone (moved S t joint) i = S *ᵥ bone joint i := moved_sub i _

/-- `v0_z` -/
def palmNormal (E : Eigen K) (joint : Fin n → Vec3 K) (leftHand : Bool) : Vec3 K :=
  E.normalized (if leftHand then -cross (joint 9 - joint 0) (joint 5 - joint 0)
    else cross (joint 9 - joint 0) (joint 5 - joint 0))

/-- No call for the root rotation gets a zero vector or opposite directions. -/
structure RootDefined (E : Eigen K) (joint : Fin n → Vec3 K) (forward up : Vec3 K)
    (leftHand : Bool) : Prop where
  toFinger : ¬ SameRay K forward (-(joint 9 - joint 0))
  toNormal : ¬ SameRay K (E.fromTwoVectors forward (joint 9 - joint 0) *ᵥ up)
    (-palmNormal E joint leftHand)

variable (hE : E.Lawful)

include hE

theorem palmNormal_orthogonal : palmNormal E joint leftHand ⬝ᵥ (joint 9 - joint 0) = 0 := by
  rw [palmNormal, hE.normalized_eq, smul_dotProduct, dotProduct_comm]
  split
  · rw [dotProduct_neg, cross, dot_self_cross, neg_zero, smul_zero]
  · rw [cross, dot_self_cross, smul_zero]

theorem palmNormal_moved (hS : IsRotation S) :
    palmNormal E (moved S t joint) leftHand = S *ᵥ palmNormal E joint leftHand := by
  rw [palmNormal, palmNormal, moved_sub, moved_sub, ← hE.normalized_mulVec hS.orthogonal]
  split
  · rw [cross, hS.cross, mulVec_neg]
    rfl
  · rw [cross, hS.cross]
    rfl

/-- `forward` is turned to the middle finger, and `up` to the normal of the palm. -/
theorem rootRotation_spec (h : RootDefined E joint forward up leftHand)
    (horth : forward ⬝ᵥ up = 0) :
    IsRotation (rootRotation E joint forward up leftHand) ∧
      SameRay K (rootRotation E joint forward up leftHand *ᵥ forward) (joint 9 - joint 0) ∧
      SameRay K (rootRotation E joint forward up leftHand *ᵥ up)
        (palmNormal E joint leftHand) := by
  have hfirst := hE.isTurn_fromTwoVectors _ _ h.toFinger
  have hsecond := hE.isTurn_fromTwoVectors _ _ h.toNormal
  have heq : rootRotation E joint forward up leftHand =
      E.fromTwoVectors (E.fromTwoVectors forward (joint 9 - joint 0) *ᵥ up)
        (palmNormal E joint leftHand) * E.fromTwoVectors forward (joint 9 - joint 0) := rfl
  rw [heq, ← mulVec_mulVec, ← mulVec_mulVec]
  refine ⟨hsecond.isRotation.mul hfirst.isRotation, ?_, hsecond.sameRay⟩
  -- the second turn is about the direction of the middle finger
  rw [hsecond.fixes]
  · exact hfirst.sameRay
  · rw [dotProduct_mulVec_mulVec hfirst.isRotation.orthogonal, horth]
  · obtain ⟨c, -, hc⟩ := hfirst.sameRay.exists_pos_right
      (hfirst.isRotation.mulVec_ne_zero (left_ne_zero_of_not_opposite h.toFinger))
      (right_ne_zero_of_not_opposite h.toFinger)
    rw [hc, smul_dotProduct, dotProduct_comm, palmNormal_orthogonal hE, smul_zero]

theorem rootRotation_moved (hS : IsRotation S) (h : RootDefined E joint forward up leftHand)
    (h' : RootDefined E (moved S t joint) forward up leftHand) (horth : forward ⬝ᵥ up = 0)
    (hup : up ≠ 0) :
    rootRotation E (moved S t joint) forward up leftHand =
      S * rootRotation E joint forward up leftHand := by
  obtain ⟨hrot, hforward, hnormal⟩ := rootRotation_spec hE h horth
  obtain ⟨hrot', hforward', hnormal'⟩ := rootRotation_spec hE h' horth
  rw [moved_sub] at hforward'
  rw [palmNormal_moved hE hS] at hnormal'
  have hne : S *ᵥ (joint 9 - joint 0) ≠ 0 :=
    hS.mulVec_ne_zero (right_ne_zero_of_not_opposite h.toFinger)
  have hne' : S *ᵥ palmNormal E joint leftHand ≠ 0 :=
    hS.mulVec_ne_zero (right_ne_zero_of_not_opposite h.toNormal)
  have hlength : ∀ v, (rootRotation E (moved S t joint) forward up leftHand *ᵥ v) ⬝ᵥ
      (rootRotation E (moved S t joint) forward up leftHand *ᵥ v) =
        ((S * rootRotation E joint forward up leftHand) *ᵥ v) ⬝ᵥ
          ((S * rootRotation E joint forward up leftHand) *ᵥ v) := by
    intro v
    rw [dotProduct_mulVec_mulVec hrot'.orthogonal,
      dotProduct_mulVec_mulVec (hS.mul hrot).orthogonal]
  apply hrot'.eq_of_agree (hS.mul hrot) (u := forward) (v := up)
  · apply eq_of_sameRay _ (hlength forward)
    have hback := hforward.map (mulVecLin S)
    rw [mulVecLin_apply, mulVecLin_apply, mulVec_mulVec] at hback
    exact hforward'.trans hback.symm fun hzero => absurd hzero hne
  · apply eq_of_sameRay _ (hlength up)
    have hback := hnormal.map (mulVecLin S)
    rw [mulVecLin_apply, mulVecLin_apply, mulVec_mulVec] at hback
    exact hnormal'.trans hback.symm fun hzero => absurd hzero hne'
  · apply cross_ne_zero_of_orthogonal (left_ne_zero_of_not_opposite h.toFinger) hup
    rw [dotProduct_comm, horth]

end Root

/-! ### The laws of the chains -/

section Laws

variable {n : ℕ} [NeZero n] {K : Type} [Field K] [LinearOrder K] [IsStrictOrderedRing K]
  {E : Eigen K} {joint : Fin n → Vec3 K} {forward up : Vec3 K} {lev1Index : List (Fin n)}
  {leftHand : Bool} {S r0 : Matrix3 K} {t : Vec3 K}

/-- No call of `FromTwoVectors` gets a zero vector or opposite directions. -/
structure CallsDefined (E : Eigen K) (joint : Fin n → Vec3 K) (forward up : Vec3 K)
    (lev1Index : List (Fin n)) (leftHand : Bool) : Prop
    extends RootDefined E joint forward up leftHand where
  lev1 : ∀ i ∈ lev1Index, ¬ SameRay K (joint 9 - joint (parentIndex i)) (-bone joint i)
  bones : ∀ e ∈ boneEdges, ¬ SameRay K (bone joint e.1) (-bone joint e.2)

variable (hE : E.Lawful) (hskel : Skeleton lev1Index)
  (h : CallsDefined E joint forward up lev1Index leftHand)

include hE

theorem boneRotation_moved (hS : IsRotation S) {i j : Fin n}
    (h : ¬ SameRay K (bone joint i) (-bone joint j)) :
    boneRotation E (moved S t joint) i j = S * boneRotation E joint i j * Sᵀ := by
  rw [boneRotation, bone_moved, bone_moved, hE.fromTwoVectors_mulVec hS h]
  rfl

include hskel h

omit hE in
theorem thumb_ne_zero : joint 1 - joint 0 ≠ 0 := by
  have hbone := right_ne_zero_of_not_opposite (h.lev1 1 hskel.thumb_mem)
  rwa [bone, hskel.parent_lev1 1 hskel.thumb_mem] at hbone

theorem isRotation_baseRotation (hr0 : IsRotation r0) {b : Option (Fin n)}
    (hb : ∀ i ∈ b, i ∈ lev1Index) : IsRotation (baseRotation E joint r0 leftHand b) := by
  cases b with
  | none => exact hr0
  | some i =>
    have hlev1 : IsRotation (lev1Rotation E joint r0 i) :=
      (hE.isTurn_fromTwoVectors _ _ (h.lev1 i (hb i rfl))).isRotation.mul hr0
    have hthumb : IsRotation (thumbRotation E joint leftHand) :=
      hE.isRotation_angleAxis _ (hE.dotProduct_normalized (thumb_ne_zero hskel h))
    rw [baseRotation]
    split
    · exact hthumb.mul hlev1
    · exact hlev1

theorem baseRotation_moved (hS : IsRotation S) {b : Option (Fin n)}
    (hb : ∀ i ∈ b, i ∈ lev1Index) :
    baseRotation E (moved S t joint) (S * r0) leftHand b =
      S * baseRotation E joint r0 leftHand b := by
  cases b with
  | none => rfl
  | some i =>
    have hlev1 : lev1Rotation E (moved S t joint) (S * r0) i = S * lev1Rotation E joint r0 i := by
      rw [lev1Rotation, lev1Rotation, moved_sub, bone_moved,
        hE.fromTwoVectors_mulVec hS (h.lev1 i (hb i rfl)), Matrix.mul_assoc,
        ← Matrix.mul_assoc Sᵀ, hS.orthogonal, Matrix.one_mul, Matrix.mul_assoc]
    have hthumb : thumbRotation E (moved S t joint) leftHand =
        S * thumbRotation E joint leftHand * Sᵀ := by
      rw [thumbRotation, thumbRotation, moved_sub, hE.normalized_mulVec hS.orthogonal,
        hE.angleAxis_mulVec hS _ (hE.dotProduct_normalized (thumb_ne_zero hskel h))]
    rw [baseRotation, baseRotation, hlev1, hthumb]
    split
    · rw [Matrix.mul_assoc, ← Matrix.mul_assoc Sᵀ, hS.orthogonal, Matrix.one_mul,
        Matrix.mul_assoc]
    · rfl

/-- A bone of a finger is turned to the next one. -/
theorem isTurn_boneRotation {i : Fin n} {e : Fin n × Fin n} (he : e ∈ (chainOf i).steps) :
    IsTurn (boneRotation E joint e.1 e.2) (bone joint e.1) (bone joint e.2) :=
  hE.isTurn_fromTwoVectors _ _ (h.bones e (hskel.steps_mem i e he))

theorem isRotation_chainRotation (hr0 : IsRotation r0) (i : Fin n) :
    IsRotation (chainRotation E joint r0 leftHand (chainOf i)) := by
  have hsteps : ∀ steps : List (Fin n × Fin n), (∀ e ∈ steps, e ∈ (chainOf i).steps) →
      IsRotation (steps.foldr (fun e r => boneRotation E joint e.1 e.2 * r)
        (baseRotation E joint r0 leftHand (chainOf i).base)) := by
    intro steps
    induction steps with
    | nil =>
      intro _
      exact isRotation_baseRotation hE hskel h hr0 (hskel.base_mem i)
    | cons e steps ih =>
      intro hmem
      have he := hmem e List.mem_cons_self
      exact (isTurn_boneRotation hE hskel h he).isRotation.mul
        (ih fun e' he' => hmem e' (List.mem_cons_of_mem _ he'))
  exact hsteps _ fun _ he => he

theorem chainRotation_moved (hS : IsRotation S) (i : Fin n) :
    chainRotation E (moved S t joint) (S * r0) leftHand (chainOf i) =
      S * chainRotation E joint r0 leftHand (chainOf i) := by
  have hsteps : ∀ steps : List (Fin n × Fin n), (∀ e ∈ steps, e ∈ (chainOf i).steps) →
      steps.foldr (fun e r => boneRotation E (moved S t joint) e.1 e.2 * r)
          (baseRotation E (moved S t joint) (S * r0) leftHand (chainOf i).base) =
        S * steps.foldr (fun e r => boneRotation E joint e.1 e.2 * r)
          (baseRotation E joint r0 leftHand (chainOf i).base) := by
    intro steps
    induction steps with
    | nil =>
      intro _
      exact baseRotation_moved hE hskel h hS (hskel.base_mem i)
    | cons e steps ih =>
      intro hmem
      have he := hskel.steps_mem i e (hmem e List.mem_cons_self)
      rw [List.foldr_cons, List.foldr_cons, ih fun e' he' => hmem e' (List.mem_cons_of_mem _ he'),
        boneRotation_moved hE hS (h.bones e he), Matrix.mul_assoc, ← Matrix.mul_assoc Sᵀ,
        hS.orthogonal, Matrix.one_mul, Matrix.mul_assoc]
  exact hsteps _ fun _ he => he

/-- A joint of the first level points along its own bone, until it is turned to the next. -/
theorem sameRay_baseRotation (hforward : SameRay K (r0 *ᵥ forward) (joint 9 - joint 0))
    {i : Fin n} (hi : i ∈ lev1Index) :
    SameRay K (baseRotation E joint r0 leftHand (some i) *ᵥ forward) (bone joint i) := by
  have hdefined := h.lev1 i hi
  have hturn := hE.isTurn_fromTwoVectors _ _ hdefined
  rw [hskel.parent_lev1 i hi] at hturn hdefined
  have hne : joint 9 - joint 0 ≠ 0 := left_ne_zero_of_not_opposite hdefined
  have hlev1 : SameRay K (lev1Rotation E joint r0 i *ᵥ forward) (bone joint i) := by
    rw [lev1Rotation, hskel.parent_lev1 i hi, ← mulVec_mulVec]
    have hmap := hforward.map (mulVecLin (E.fromTwoVectors (joint 9 - joint 0) (bone joint i)))
    rw [mulVecLin_apply, mulVecLin_apply] at hmap
    exact hmap.trans hturn.sameRay fun hzero => absurd hzero (hturn.isRotation.mulVec_ne_zero hne)
  rw [baseRotation]
  split
  · next hthumb =>
    -- the thumb is turned about its own bone
    have hbone : joint 1 - joint 0 = bone joint i := by
      rw [bone, hskel.parent_lev1 i hi, hthumb]
    have hfix : thumbRotation E joint leftHand *ᵥ E.normalized (bone joint i) =
        E.normalized (bone joint i) := by
      rw [thumbRotation, hbone]
      apply hE.angleAxis_mulVec_axis
      exact hE.dotProduct_normalized (right_ne_zero_of_not_opposite hdefined)
    have hbase := right_ne_zero_of_not_opposite hdefined
    have hunit := hlev1.trans (hE.sameRay_normalized hbase).symm fun hzero => absurd hzero hbase
    have hmap := hunit.map (mulVecLin (thumbRotation E joint leftHand))
    rw [mulVecLin_apply, mulVecLin_apply, hfix, mulVec_mulVec] at hmap
    have hnormalized : E.normalized (bone joint i) ≠ 0 := by
      intro hzero
      have hdot := hE.dotProduct_normalized hbase
      rw [hzero, zero_dotProduct] at hdot
      exact zero_ne_one hdot
    exact hmap.trans (hE.sameRay_normalized hbase) fun hzero => absurd hzero hnormalized
  · exact hlev1

/-- A chain points to its tip. -/
theorem sameRay_chainRotation (hforward : SameRay K (r0 *ᵥ forward) (joint 9 - joint 0))
    (e : Fin n × Fin n) (he : e ∈ boneEdges) :
    SameRay K (chainRotation E joint r0 leftHand (chainOf e.1) *ᵥ forward)
      (joint e.2 - joint e.1) := by
  obtain ⟨b, hb, hlinked, htip, hparent⟩ := hskel.linked e he
  have hsteps : ∀ steps : List (Fin n × Fin n), (∀ e' ∈ steps, e' ∈ (chainOf e.1).steps) →
      Linked b steps → SameRay K (steps.foldr (fun e r => boneRotation E joint e.1 e.2 * r)
        (baseRotation E joint r0 leftHand (some b)) *ᵥ forward) (bone joint (tip b steps)) := by
    intro steps
    induction steps with
    | nil =>
      intro _ _
      exact sameRay_baseRotation hE hskel h hforward (hskel.base_mem e.1 b hb)
    | cons e' steps ih =>
      intro hmem hlink
      have hturn := isTurn_boneRotation hE hskel h (hmem e' List.mem_cons_self)
      have hray := ih (fun e'' he'' => hmem e'' (List.mem_cons_of_mem _ he'')) hlink.2
      rw [← hlink.1] at hray
      have hmap := hray.map (mulVecLin (boneRotation E joint e'.1 e'.2))
      rw [mulVecLin_apply, mulVecLin_apply, mulVec_mulVec] at hmap
      have hne := left_ne_zero_of_not_opposite
        (h.bones e' (hskel.steps_mem e.1 e' (hmem e' List.mem_cons_self)))
      exact hmap.trans hturn.sameRay fun hzero =>
        absurd hzero (hturn.isRotation.mulVec_ne_zero hne)
  have hend := hsteps _ (fun _ he' => he') hlinked
  rw [htip, bone, hparent] at hend
  rw [chainRotation, hb]
  exact hend

omit hE hskel h in
/-- The rotations are rotations, they move with the joints, and those of the joints of a finger
point `forward` to the next joint.  `FromTwoVectors` has to be defined for the root rotation of
the moved joints too. -/
structure FollowsBones (E : Eigen K) (rotations : (Fin n → Vec3 K) → Fin n → Matrix3 K)
    (forward up : Vec3 K) (leftHand : Bool) (joint : Fin n → Vec3 K) : Prop where
  isRotation : ∀ i, IsRotation (rotations joint i)
  moved : ∀ S t, IsRotation S → RootDefined E (moved S t joint) forward up leftHand →
    ∀ i, rotations (moved S t joint) i = S * rotations joint i
  points : ∀ e ∈ boneEdges,
    rotations joint e.1 *ᵥ forward = E.normalized (joint e.2 - joint e.1)

theorem followsBones_chainRotation (hunit : forward ⬝ᵥ forward = 1) (horth : forward ⬝ᵥ up = 0)
    (hup : up ≠ 0) :
    FollowsBones E (fun joint i => chainRotation E joint
      (rootRotation E joint forward up leftHand) leftHand (chainOf i)) forward up leftHand
      joint := by
  obtain ⟨hroot, hforward, -⟩ := rootRotation_spec hE h.toRootDefined horth
  refine ⟨isRotation_chainRotation hE hskel h hroot, ?_, ?_⟩
  · intro S t hS hmoved i
    rw [rootRotation_moved hE hS h.toRootDefined hmoved horth hup]
    exact chainRotation_moved hE hskel h hS i
  · intro e he
    apply hE.eq_normalized (sameRay_chainRotation hE hskel h hforward e he)
    · rw [dotProduct_mulVec_mulVec (isRotation_chainRotation hE hskel h hroot e.1).orthogonal,
        hunit]
    · obtain ⟨b, -, -, -, hparent⟩ := hskel.linked e he
      rw [← hparent]
      exact right_ne_zero_of_not_opposite (h.bones e he)

end Laws

/-! ### The two functions -/

section Functions

variable {K : Type} [Field K] [LinearOrder K] [IsStrictOrderedRing K] {E : Eigen K}

theorem followsBones_computeXrJointRotationV1 (hE : E.Lawful) {joint : Fin 26 → Vec3 K}
    {leftHand : Bool} (h : CallsDefined E joint ![0, 0, -1] ![0, 1, 0]
      [1, 5, 9, 13, 22, 23, 24, 25] leftHand) :
    FollowsBones E (fun joint => computeXrJointRotationV1 E joint leftHand) ![0, 0, -1] ![0, 1, 0]
      leftHand joint := by
  have hfun : (fun joint => computeXrJointRotationV1 E joint leftHand) = fun joint i =>
      chainRotation E joint (rootRotation E joint ![0, 0, -1] ![0, 1, 0] leftHand) leftHand
        (chainOf i) := by
    funext joint i
    exact computeXrJointRotationV1_eq E joint leftHand i
  rw [hfun]
  apply followsBones_chainRotation hE skeleton_xrLev1Index h
  · simp [dotProduct, Fin.sum_univ_three]
  · simp [dotProduct, Fin.sum_univ_three]
  · exact fun hzero => one_ne_zero (congrFun hzero 1)

theorem followsBones_computeJointRotation (hE : E.Lawful) {joint : Fin 23 → Vec3 K}
    {leftHand : Bool} (h : CallsDefined E joint ![0, 1, 0] ![0, 0, 1] [1, 5, 9, 13, 22] leftHand) :
    FollowsBones E (fun joint => computeJointRotation E joint leftHand) ![0, 1, 0] ![0, 0, 1]
      leftHand joint := by
  have hfun : (fun joint => computeJointRotation E joint leftHand) = fun joint i =>
      chainRotation E joint (rootRotation E joint ![0, 1, 0] ![0, 0, 1] leftHand) leftHand
        (chainOf i) := by
    funext joint i
    exact computeJointRotation_eq E joint leftHand i
  rw [hfun]
  apply followsBones_chainRotation hE skeleton_lev1Index h
  · simp [dotProduct, Fin.sum_univ_three]
  · simp
  · exact fun hzero => one_ne_zero (congrFun hzero 2)

/-- **The joint rotations follow the bones**, in both functions. -/
theorem joint_rotations_follow_bones (hE : E.Lawful) {joint : Fin 26 → Vec3 K}
    {cvJoint : Fin 23 → Vec3 K} {leftHand : Bool}
    (h : CallsDefined E joint ![0, 0, -1] ![0, 1, 0] [1, 5, 9, 13, 22, 23, 24, 25] leftHand)
    (hcv : CallsDefined E cvJoint ![0, 1, 0] ![0, 0, 1] [1, 5, 9, 13, 22] leftHand) :
    FollowsBones E (fun joint => computeXrJointRotationV1 E joint leftHand) ![0, 0, -1] ![0, 1, 0]
        leftHand joint ∧
      FollowsBones E (fun joint => computeJointRotation E joint leftHand) ![0, 1, 0] ![0, 0, 1]
        leftHand cvJoint :=
  ⟨followsBones_computeXrJointRotationV1 hE h, followsBones_computeJointRotation hE hcv⟩

end Functions

/-! ### A hand with straight fingers -/

section Straight

variable {n : ℕ} [NeZero n] {lev1Index : List (Fin n)} {axis side up : Vec3 ℝ}

/-- How many bones lie before a joint. -/
def level (i : Fin n) : ℕ :=
  match i.val with
  | 0 | 21 => 0
  | 2 | 6 | 10 | 14 | 17 => 2
  | 3 | 7 | 11 | 15 | 18 => 3
  | 4 | 8 | 12 | 16 | 19 => 4
  | 20 => 5
  | _ => 1

/-- All bones along the axis, but for the first one of the index finger. -/
def straightHand (axis side : Vec3 ℝ) (i : Fin n) : Vec3 ℝ :=
  (level i : ℝ) • axis - if i.val = 5 then side else 0

omit [NeZero n] in
theorem straightHand_dotProduct (haxis : axis ⬝ᵥ axis = 1) (hside : side ⬝ᵥ axis = 0)
    (i : Fin n) : straightHand axis side i ⬝ᵥ axis = level i := by
  rw [straightHand, sub_dotProduct, smul_dotProduct, haxis, smul_eq_mul, mul_one]
  split
  · rw [hside, sub_zero]
  · rw [zero_dotProduct, sub_zero]

omit [NeZero n] in
theorem sub_straightHand_pos (haxis : axis ⬝ᵥ axis = 1) (hside : side ⬝ᵥ axis = 0)
    {i j : Fin n} (h : level j < level i) :
    0 < (straightHand axis side i - straightHand axis side j) ⬝ᵥ axis := by
  rw [sub_dotProduct, straightHand_dotProduct haxis hside, straightHand_dotProduct haxis hside,
    sub_pos]
  exact Nat.cast_lt.mpr h

theorem callsDefined_straightHand (haxis : axis ⬝ᵥ axis = 1) (hside : side ⬝ᵥ axis = 0)
    (hup : up ⬝ᵥ up = 1) (hcross : cross (straightHand axis side (9 : Fin n) -
      straightHand axis side (0 : Fin n))
      (straightHand axis side (5 : Fin n) - straightHand axis side (0 : Fin n)) = up)
    (hfinger : straightHand axis side (9 : Fin n) - straightHand axis side (0 : Fin n) = axis)
    (hmiddle : ∀ i ∈ lev1Index, level (parentIndex i) < level (9 : Fin n))
    (hlev1 : ∀ i ∈ lev1Index, level (parentIndex i) < level i)
    (hbones : ∀ e ∈ boneEdges (n := n),
      level (parentIndex e.1) < level e.1 ∧ level (parentIndex e.2) < level e.2) :
    CallsDefined geometricEigen (straightHand axis side) axis up lev1Index false where
  toFinger := by
    rw [hfinger]
    exact not_opposite_of_pos (d := axis) (by rw [haxis]; exact one_pos)
      (by rw [haxis]; exact one_pos)
  toNormal := by
    have hne : axis ≠ 0 := by
      rintro rfl
      rw [zero_dotProduct] at haxis
      exact zero_ne_one haxis
    have hnormal : palmNormal geometricEigen (straightHand axis side : Fin n → Vec3 ℝ) false =
        up := by
      rw [palmNormal, if_neg Bool.false_ne_true, hcross]
      show (√(up ⬝ᵥ up))⁻¹ • up = up
      rw [hup, Real.sqrt_one, inv_one, one_smul]
    rw [hfinger, lawful_geometricEigen.fromTwoVectors_of_sameRay (SameRay.refl axis) hne hne,
      one_mulVec, hnormal]
    exact not_opposite_of_pos (d := up) (by rw [hup]; exact one_pos) (by rw [hup]; exact one_pos)
  lev1 i hi := not_opposite_of_pos (sub_straightHand_pos haxis hside (hmiddle i hi))
    (sub_straightHand_pos haxis hside (hlev1 i hi))
  bones e he := not_opposite_of_pos (sub_straightHand_pos haxis hside (hbones e he).1)
    (sub_straightHand_pos haxis hside (hbones e he).2)

theorem callsDefined_xrStraightHand :
    CallsDefined geometricEigen (straightHand ![0, 0, -1] ![1, 0, 0] : Fin 26 → Vec3 ℝ)
      ![0, 0, -1] ![0, 1, 0] [1, 5, 9, 13, 22, 23, 24, 25] false := by
  apply callsDefined_straightHand
  · simp [dotProduct, Fin.sum_univ_three]
  · simp [dotProduct, Fin.sum_univ_three]
  · simp [dotProduct, Fin.sum_univ_three]
  · simp [straightHand, level, cross, cross_apply]
  · simp [straightHand, level]
  · decide
  · decide
  · apply forall_boneEdges
    decide +kernel

theorem callsDefined_cvStraightHand :
    CallsDefined geometricEigen (straightHand ![0, 1, 0] ![1, 0, 0] : Fin 23 → Vec3 ℝ)
      ![0, 1, 0] ![0, 0, 1] [1, 5, 9, 13, 22] false := by
  apply callsDefined_straightHand
  · simp [dotProduct, Fin.sum_univ_three]
  · simp [dotProduct, Fin.sum_univ_three]
  · simp [dotProduct, Fin.sum_univ_three]
  · simp [straightHand, level, cross, cross_apply]
  · simp [straightHand, level]
  · decide
  · decide
  · apply forall_boneEdges
    decide +kernel

end Straight

theorem joint_rotations_follow_bones_straightHand :
    FollowsBones geometricEigen
        (fun joint => computeXrJointRotationV1 geometricEigen joint false) ![0, 0, -1] ![0, 1, 0]
        false (straightHand ![0, 0, -1] ![1, 0, 0]) ∧
      FollowsBones geometricEigen (fun joint => computeJointRotation geometricEigen joint false)
        ![0, 1, 0] ![0, 0, 1] false (straightHand ![0, 1, 0] ![1, 0, 0]) :=
  joint_rotations_follow_bones lawful_geometricEigen callsDefined_xrStraightHand
    callsDefined_cvStraightHand

end HandPose

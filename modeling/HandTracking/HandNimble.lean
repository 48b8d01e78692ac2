/-
The hand of 25 joints that the angles of the network bend.

* `handPoses` — the pose of each joint, from that of its parent;
* `decodeHandJoints` — the 26 points, in meters from the root.
-/
import HandTracking.PoseSolver

namespace Pose

variable {K : Type} [Field K]

/-- `NIMBLE_TEMPLATE_JOINTS`, in millimeters. -/
def nimbleTemplateJoints : Fin 25 → Vec3 K :=
  ![![9.5550, -22.8580, -102.1520], ![35.5118, -40.8386, -91.7473],
    ![52.8191, -66.0090, -61.6418], ![59.9206, -73.9186, -34.2990],
    ![61.0230, -84.2977, -18.4595], ![27.7471, -27.3750, -85.3739],
    ![40.6270, -39.2609, -24.8645], ![45.2326, -56.6830, 10.4099],
    ![45.3931, -69.4421, 28.6310], ![45.0606, -78.1369, 41.3210],
    ![17.0778, -22.4696, -81.3793], ![20.3420, -33.0670, -23.0879],
    ![17.9202, -51.9830, 15.7123], ![14.9159, -68.0406, 36.4155],
    ![12.5946, -78.9575, 49.5932], ![7.4569, -21.9225, -79.2171],
    ![2.0990, -32.3352, -28.2736], ![-3.9275, -50.1595, 7.2539],
    ![-7.9765, -66.0658, 26.1811], ![-8.7711, -78.5253, 38.2895],
    ![-2.4532, -24.6924, -80.5279], ![-15.2679, -35.1095, -35.4490],
    ![-24.7150, -47.0335, -7.0120], ![-29.8117, -58.5901, 5.6566],
    ![-32.0271, -69.2831, 15.7944]]

/-- `JOINT_ID_BONE_DICT`: the joints that a bone turns. -/
def jointIdBoneDict : Fin 25 → Option (Fin 20) :=
  ![some 0, some 1, some 2, some 3, none, some 4, some 5, some 6, some 7, none, some 8, some 9,
    some 10, some 11, none, some 12, some 13, some 14, some 15, none, some 16, some 17, some 18,
    some 19, none]

/-- `VALID_JOINT_INDEX` -/
def validJointIndex : Fin 26 → Fin 25 :=
  ![0, 1, 2, 3, 4, 6, 7, 8, 9, 11, 12, 13, 14, 16, 17, 18, 19, 21, 22, 23, 24, 0, 20, 5, 10, 15]

/-- `KINTREE_PARENTS`; the root has none and is never asked for it. -/
def kintreeParents : Fin 25 → Fin 25 :=
  ![0, 0, 1, 2, 3, 0, 5, 6, 7, 8, 0, 10, 11, 12, 13, 0, 15, 16, 17, 18, 0, 20, 21, 22, 23]

/-- The joints of the template for a scale of the hand, about the first one. -/
def realJoints (handScale : K) (i : Fin 25) : Vec3 K :=
  (1 + handScale) • (nimbleTemplateJoints i - nimbleTemplateJoints 0) + nimbleTemplateJoints 0

/-- The rotation of a joint; the angles leave out bone 0, which turns the root. -/
def jointRot (jointAngles : JointAngles K) (joint : Fin 25) : Matrix3 K :=
  match jointIdBoneDict joint with
  | some bone => jointAngles (Fin.ofNat 19 (bone.val - 1))
  | none => 1

/-- A joint as its parent sees it. -/
def jointRelTransform (handScale : K) (jointAngles : JointAngles K) (joint : Fin 25) :
    Isometry3 K :=
  ⟨jointRot jointAngles joint,
    realJoints handScale joint - realJoints handScale (kintreeParents joint)⟩

/-- `hand_poses`, after the joints of the list. -/
def handPoses (handScale : K) (jointAngles : JointAngles K) (joints : List (Fin 24)) :
    Fin 25 → Isometry3 K :=
  joints.foldl (fun poses i => Function.update poses i.succ
      (poses (kintreeParents i.succ) * jointRelTransform handScale jointAngles i.succ))
    (Function.update 1 0 ⟨1, realJoints handScale 0⟩)

/-- `decode_hand_joints`: the joints of a pose, from the first one and in metres. -/
def decodeHandJoints (handScale : K) (jointAngles : JointAngles K) (i : Fin 26) : Vec3 K :=
  let poses := handPoses handScale jointAngles (List.finRange 24)
  (1 / 1000 : K) • ((poses (validJointIndex i)).translation - (poses 0).translation)

/-- The first point is the root, and the points are seen from it. -/
theorem decodeHandJoints_root (handScale : K) (jointAngles : JointAngles K) :
    decodeHandJoints handScale jointAngles 0 = 0 := by
  show (1 / 1000 : K) • (_ - _ : Vec3 K) = 0
  rw [show validJointIndex 0 = 0 from rfl, sub_self, smul_zero]

end Pose

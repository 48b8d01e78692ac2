/-
The rotations of the joints of a hand.

`compute_joint_rotation` and `compute_xr_joint_rotation_v1` run the same code over two
skeletons (`jointRotations`); they differ in the root rotation and in the joints of
the first level.

What the code takes from Eigen is a parameter, `Eigen`.
-/
import HandTracking.HandFilters
import HandTracking.Library.Isometry3
import Mathlib.LinearAlgebra.CrossProduct

namespace HandPose

open Matrix

/-- `NRQuatf` -/
structure Quat (K : Type) where
  qx : K
  qy : K
  qz : K
  qw : K

/-- `toRotationMatrix`: the matrix of a quaternion. -/
def Quat.toRotationMatrix {K : Type} [CommRing K] (q : Quat K) : Matrix3 K :=
  quaternionMatrix q.qw q.qx q.qy q.qz

/-- `squaredNorm`: the square of the norm. -/
def Quat.squaredNorm {K : Type} [CommRing K] (q : Quat K) : K :=
  q.qx * q.qx + q.qy * q.qy + q.qz * q.qz + q.qw * q.qw

/-- The functions of Eigen with a square root or an angle in them. -/
structure Eigen (K : Type) where
  norm : Vec3 K → K
  normalized : Vec3 K → Vec3 K
  /-- `FromTwoVectors(a, b).toRotationMatrix()` -/
  fromTwoVectors : Vec3 K → Vec3 K → Matrix3 K
  /-- `AngleAxisf(angle, axis).toRotationMatrix()` -/
  angleAxis : K → Vec3 K → Matrix3 K
  /-- `Quaternionf(rotation)` -/
  quaternion : Matrix3 K → Quat K

variable {n : ℕ} [NeZero n]

/-- `parent_index` and `xr_parent_index`: a key they lack is read as 0, which is also the
parent of the joints of the first level. -/
def parentIndex (i : Fin n) : Fin n :=
  match i.val with
  | 2 => 1
  | 6 => 5
  | 10 => 9
  | 14 => 13
  | 17 => 22
  | 3 => 2
  | 7 => 6
  | 11 => 10
  | 15 => 14
  | 18 => 17
  | 4 => 3
  | 8 => 7
  | 12 => 11
  | 16 => 15
  | 19 => 18
  | 20 => 19
  | _ => 0

/-- The `i`-th joints of the four levels, for the five fingers: `lev1_index` to
`lev4_index`. -/
def fingers : List (Fin n × Fin n × Fin n × Fin n) :=
  [(1, 2, 3, 4), (5, 6, 7, 8), (9, 10, 11, 12), (13, 14, 15, 16), (22, 17, 18, 19)]

variable {K : Type} [Field K] (E : Eigen K) (joint : Fin n → Vec3 K)

/-- `cross`: the cross product. -/
def cross (u v : Vec3 K) : Vec3 K := crossProduct u v

/-- The vector to a joint from its parent. -/
def bone (i : Fin n) : Vec3 K := joint i - joint (parentIndex i)

/-- The rotation from a bone to the next one. -/
def boneRotation (i j : Fin n) : Matrix3 K := E.fromTwoVectors (bone joint i) (bone joint j)

/-- The root rotation: `forward` is turned to the middle finger, then `up` to the normal
of the palm. -/
def rootRotation (forward up : Vec3 K) (leftHand : Bool) : Matrix3 K :=
  let v0Y := joint 9 - joint 0
  let r0Y := E.fromTwoVectors forward v0Y
  let v0ZTemp := cross v0Y (joint 5 - joint 0)
  let v0Z := E.normalized (if leftHand then -v0ZTemp else v0ZTemp)
  E.fromTwoVectors (r0Y *ᵥ up) v0Z * r0Y

/-- The common code of the two functions, after the root rotation `r0`. -/
def jointRotations (lev1Index : List (Fin n)) (r0 : Matrix3 K) (leftHand : Bool) :
    Fin n → Matrix3 K :=
  let rotationsWorld : Fin n → Matrix3 K := Function.update (fun _ => 0) 0 r0
  let rotationsWorld := lev1Index.foldl (fun r lev1 =>
    Function.update r lev1
      (E.fromTwoVectors (joint 9 - joint (parentIndex lev1)) (bone joint lev1) * r0))
    rotationsWorld
  let rotationsWorld := Function.update rotationsWorld 21 (rotationsWorld 9)
  -- the thumb is turned about its first bone
  let angle : K := if leftHand then 60 else -60
  let rThumb := E.angleAxis (angle / 180 * (314 / 100)) (E.normalized (joint 1 - joint 0))
  let rotationsWorld := Function.update rotationsWorld 1 (rThumb * rotationsWorld 1)
  let rotationsWorld := fingers.foldl (fun r (lev1, lev2, _) =>
    Function.update r lev1 (boneRotation E joint lev1 lev2 * r lev1)) rotationsWorld
  let rotationsWorld := fingers.foldl (fun r (_, lev2, lev3, _) =>
    Function.update r lev2 (boneRotation E joint lev2 lev3 * r (parentIndex lev2))) rotationsWorld
  let rotationsWorld := fingers.foldl (fun r (_, _, lev3, lev4) =>
    let r := Function.update r lev3 (boneRotation E joint lev3 lev4 * r (parentIndex lev3))
    Function.update r lev4 (r lev3)) rotationsWorld
  -- the little finger has a fifth joint
  let rotationsWorld := Function.update rotationsWorld 19
    (boneRotation E joint 19 20 * rotationsWorld (parentIndex 19))
  Function.update rotationsWorld 20 (rotationsWorld 19)

/-- `compute_joint_rotation`: the rotations of 23 joints. -/
def computeJointRotation (joint : Fin 23 → Vec3 K) (leftHand : Bool) : Fin 23 → Matrix3 K :=
  jointRotations E joint [1, 5, 9, 13, 22] (rootRotation E joint ![0, 1, 0] ![0, 0, 1] leftHand)
    leftHand

/-- `compute_xr_joint_rotation_v1`: the rotations of 26 joints. -/
def computeXrJointRotationV1 (joint : Fin 26 → Vec3 K) (leftHand : Bool) : Fin 26 → Matrix3 K :=
  jointRotations E joint [1, 5, 9, 13, 22, 23, 24, 25]
    (rootRotation E joint ![0, 0, -1] ![0, 1, 0] leftHand) leftHand

/-- The function of the build. -/
def computeRotation : {fmt : HandJointFormat} → (Fin fmt.keypointNum → Vec3 K) → Bool →
    Fin fmt.keypointNum → Matrix3 K
  | .xreal => computeJointRotation E
  | .openXR => computeXrJointRotationV1 E

end HandPose

/-
From the 21 keypoints of the algorithms to the 26 joints of the interface, and the
distances by which a hand is scored.

* `interpolationTo26Points` — for the keypoints of the mono solver;
* `convertTo26Points` — for the keypoints of the lift networks;
* `computeMonoRmseWithReprojection`, `computeScoreWithReprojection`.
-/
import HandTracking.HandRotation
import HandTracking.HandsData

namespace Joints

open Camera HandPose

variable {K : Type} [Field K]

/-- `std::vector<Vec3f_t> result(26)` -/
abbrev Joint26 (K : Type) := Fin 26 → Vec3 K

/-- The points of a list of at most 26, the rest 0. -/
def ofInput (input : List (Vec3 K)) : Joint26 K := fun i => input.getD i 0

section Geometry

variable (E : Eigen K)

/-- `a` and the distance from it, as far as `ratio` of the way to `root`, along `vec`. -/
def metacarpal (ratio : K) (a root vec : Vec3 K) : Vec3 K := a + (ratio * E.norm (root - a)) • vec

/-- The palm and the metacarpal joints that both functions compute: little, index, middle and
ring. -/
def metacarpals (joints : Joint26 K) (root : Vec3 K) : Vec3 K × Vec3 K × Vec3 K × Vec3 K :=
  let middleVec := E.normalized (root - joints 9)
  let littleVec := E.normalized ((root - joints 9) + (root - joints 17))
  let ringVec := E.normalized ((root - joints 9) + (root - joints 13))
  let indexVec := (2 : K) • middleVec - ringVec
  (metacarpal E 0.6667 (joints 17) root littleVec, metacarpal E 0.6667 (joints 5) root indexVec,
    metacarpal E 0.6667 (joints 9) root middleVec, metacarpal E 0.6667 (joints 13) root ringVec)

/-- The root joint moved out of the palm. -/
def outerRoot (joints : Joint26 K) : Vec3 K :=
  joints 9 + (1.2 * E.norm (joints 0 - joints 9)) • E.normalized (joints 0 - joints 9)

/-- `get_metacarpal_xr_joints_v1` -/
def getMetacarpalXrJointsV1 (joints : Joint26 K) : Joint26 K :=
  -- the direction of the middle finger is taken before the root joint moves
  let middleVec := E.normalized (joints 0 - joints 9)
  let root := outerRoot E joints
  let littleVec := E.normalized ((root - joints 9) + (root - joints 17))
  let ringVec := E.normalized ((root - joints 9) + (root - joints 13))
  let indexVec := (2 : K) • middleVec - ringVec
  let result := Function.update joints 0 root
  let result := Function.update result 21 (metacarpal E 0.333 (joints 9) root middleVec)
  let result := Function.update result 22 (metacarpal E 0.6667 (joints 17) root littleVec)
  let result := Function.update result 23 (metacarpal E 0.6667 (joints 5) root indexVec)
  let result := Function.update result 24 (metacarpal E 0.6667 (joints 9) root middleVec)
  Function.update result 25 (metacarpal E 0.6667 (joints 13) root ringVec)

/-- `computeNormal`: the normal of a triangle, on the side that the hand has it. -/
def computeNormal (a b c : Vec3 K) (leftHand : Bool) : Vec3 K :=
  let ab := b - a
  let ac := c - a
  E.normalized (if leftHand then cross ac ab else cross ab ac)

/-- `middle_palm_joint`: a joint of the thumb and those of the palm are moved along the normals. -/
def middlePalmJoint (input : Joint26 K) (leftHand : Bool) : Joint26 K :=
  let thumbNormal := computeNormal E (input 0) (input 1) (input 21) leftHand
  let joints := Function.update input 2 (input 2 - (0.005 : K) • thumbNormal)
  let (little, index, middle, ring) := metacarpals E joints (joints 0)
  let palmNormal := computeNormal E (joints 0) (joints 5) (joints 17) leftHand
  let moved (metacarpal joint : Vec3 K) : Vec3 K :=
    (1 / 2 : K) • (metacarpal + joint) + (0.005 : K) • palmNormal
  let result := Function.update joints 22 (moved little (joints 22))
  let result := Function.update result 23 (moved index (joints 23))
  let result := Function.update result 24 (moved middle (joints 24))
  let result := Function.update result 25 (moved ring (joints 25))
  Function.update result 23 (result 23 + (0.008 : K) • E.normalized (result 24 - result 23))

/-- `interpolation_to_26points` -/
def interpolationTo26Points (input : List (Vec3 K)) : List (Vec3 K) :=
  let result := ofInput input
  let result := Function.update result 21 ((1 / 2 : K) • (result 0 + result 9))
  let result := Function.update result 22
    ((1 / 2 : K) • ((1 / 2 : K) • (result 0 - result 9) + (1 / 2 : K) • (result 0 - result 17))
      + result 17)
  List.ofFn (getMetacarpalXrJointsV1 E result)

/-- `convert_to_26points` -/
def convertTo26Points (input : List (Vec3 K)) (leftHand : Bool) : List (Vec3 K) :=
  let result := ofInput input
  let result := Function.update result 21 ((1 / 2 : K) • (result 0 + result 9))
  let result := Function.update result 0 (outerRoot E result)
  List.ofFn (middlePalmJoint E result leftHand)

@[simp]
theorem length_interpolationTo26Points (input : List (Vec3 K)) :
    (interpolationTo26Points E input).length = 26 :=
  List.length_ofFn

@[simp]
theorem length_convertTo26Points (input : List (Vec3 K)) (leftHand : Bool) :
    (convertTo26Points E input leftHand).length = 26 :=
  List.length_ofFn

end Geometry

/-! ### Scores -/

section Scores

variable [LinearOrder K] (fns : RealFns K) (lib : CameraLib K)

/-- The squared distance of two keypoints. -/
def squaredDist (a b : List (Vec2 K)) (i : ℕ) : K := squaredNorm (a.getD i 0 - b.getD i 0)

/-- `compute_rmse` over the first 13 keypoints, in units of the size of the hand. -/
def computeRmse (lval rval : List (Vec2 K)) : K :=
  let res := ((List.range 13).map fun i => squaredDist lval rval i).sum
  let rmse := fns.sqrt (res / 26)
  let dist (i j : ℕ) (k : Fin 2) : K := |rval.getD i 0 k - rval.getD j 0 k|
  let distArray := [dist 1 17 0, dist 1 0 0, dist 5 0 0, dist 9 0 0, dist 13 0 0, dist 17 0 0,
    dist 1 17 1, dist 1 0 1, dist 5 0 1, dist 9 0 1, dist 13 0 1, dist 17 0 1]
  rmse / distArray.foldl max (dist 1 17 0)

/-- `compute_mono_rmse_with_reprojection`: the error of the projected points, over the first 13 of
them. -/
def computeMonoRmseWithReprojection (predXyz : List (Vec3 K)) (uvOri : List (Vec2 K))
    (camModel : CameraModel K) : K :=
  let reproj := predXyz.map (camModel.worldToWindow fns lib)
  fns.sqrt ((List.range 13).map fun i => squaredDist reproj uvOri i / 13).sum

/-- `compute_score_with_reprojection`: the worse of the errors in the two images. -/
def computeScoreWithReprojection (predXyz : List (Vec3 K))
    (leftcamUvOri rightcamUvOri : List (Vec2 K))
    (leftCam rightCam : CameraModel K) : K :=
  let leftError := computeRmse fns (predXyz.map (leftCam.worldToWindow fns lib)) leftcamUvOri
  let rightError := computeRmse fns (predXyz.map (rightCam.worldToWindow fns lib)) rightcamUvOri
  1 - max leftError rightError

end Scores

end Joints

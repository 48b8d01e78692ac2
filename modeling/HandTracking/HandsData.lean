/-
The data that the calculators of the hand graph exchange.

* `Kpt2dInternal` — the keypoints of each hand in the image of each camera;
* `HandsData` — the hands in space.

Where the source has a field for each hand, or for each hand and camera
(`lhand_lcam_kpt`), there is one family of them here.
-/
import HandTracking.CameraModel

namespace HandPose

/-- The gestures. -/
inductive HandGesture where
  | invalid
  | pinch
  | click
  | grab
  | thumbUp
  | openHand
  | victory
  | call
  | home
  | maxNum
  deriving DecidableEq, Repr

/-- `CamType`: by how many cameras a hand was seen. -/
inductive CamType where
  | unknown
  | mono
  | bino
  deriving DecidableEq, Repr

end HandPose

namespace Calculator

open Camera HandPose

/-- The two hands. -/
inductive Hand where
  | left
  | right
  deriving DecidableEq, Repr

/-- The two cameras. -/
inductive Cam where
  | lcam
  | rcam
  deriving DecidableEq, Repr

/-- The camera on the side of a hand. -/
def ownCam : Hand → Cam
  | .left => .lcam
  | .right => .rcam

/-- The camera on the other side of the hand. -/
def otherCam : Hand → Cam
  | .left => .rcam
  | .right => .lcam

theorem otherCam_ne_ownCam (hand : Hand) : otherCam hand ≠ ownCam hand := by
  cases hand <;> decide

theorem eq_ownCam_or_otherCam (hand : Hand) (cam : Cam) :
    cam = ownCam hand ∨ cam = otherCam hand := by
  cases hand <;> cases cam <;> decide

/-- `kAlgoKeypointNum` -/
def kAlgoKeypointNum : ℕ := 21

/-- What one camera saw of one hand. -/
structure CamKeypoints (K : Type) where
  kpt : List (Vec2 K)
  rdepth : List K
  virtualCamera : Option (PerspectiveCameraModel K)
  valid : Bool
  rawFeats : List K
  predX : List K
  predY : List K

/-- `Kpt2dInternal`: the keypoints of each hand in each image. -/
structure Kpt2dInternal (K : Type) where
  seen : Hand → Cam → CamKeypoints K
  holdLabel : Hand → Bool

/-- `SingleHandData`: the points of a hand in space, and how they were made. -/
structure SingleHandData (K : Type) where
  kpt3d : List (Vec3 K)
  kpt2d : Cam → List (Vec2 K)
  rootV : Vec3 K
  score : K
  reprojRmse : K
  smoothFrames : ℤ
  gesture : HandGesture
  source : CamType
  constrained : Bool

/-- `HandsData`: both hands, and which of them are valid. -/
structure HandsData (K : Type) where
  hand : Hand → SingleHandData K
  valid : Hand → Bool

variable {K : Type}

/-- The data before a camera is processed: the lists have their size already. -/
def CamKeypoints.init [Zero K] : CamKeypoints K where
  kpt := List.replicate kAlgoKeypointNum 0
  rdepth := List.replicate kAlgoKeypointNum 0
  virtualCamera := none
  valid := false
  rawFeats := []
  predX := []
  predY := []

theorem CamKeypoints.length_kpt_init [Zero K] :
    (CamKeypoints.init (K := K)).kpt.length = kAlgoKeypointNum :=
  List.length_replicate ..

/-- The constructor: no hand is seen. -/
def Kpt2dInternal.init [Zero K] : Kpt2dInternal K where
  seen _ _ := .init
  holdLabel _ := false

/-- The constructor: a hand without points. -/
def SingleHandData.init [Zero K] : SingleHandData K where
  kpt3d := []
  kpt2d _ := []
  rootV := 0
  score := 0
  reprojRmse := 0
  smoothFrames := 0
  gesture := .invalid
  source := .unknown
  constrained := false

/-- The constructor: no hand is valid. -/
def HandsData.init [Zero K] : HandsData K where
  hand _ := .init
  valid _ := false

end Calculator

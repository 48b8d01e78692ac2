/-
`GestureRecognitionV2`: the gesture of a hand from its keypoints.

The angles and distances of the fingers move finger states with dead bands, and the first rule
that the states meet names the gesture.  The states, the last gesture and the last keypoints are
members, and `reset_feature`, which would reset the first two, is not called.

* `updateFingureState` — one state with its dead band;
* `HandFeature.update` — all states of a frame, `GestureMatchRule` — the rules;
* `predictWithKeypoints3d` — a call.

Square roots and angles are those of a parameter.
-/
import HandTracking.HandRotation
import HandTracking.HandsData
import HandTracking.Library.Numerals
import HandTracking.OneEuroFilter

namespace Gesture

open Camera HandPose

/-- The states of a finger. -/
inductive FingureState where
  | unknown
  | open
  | neutral
  | closed
  deriving DecidableEq, Repr

/-- The orientations of a hand. -/
inductive HandOrientation where
  | unknown
  | horizontal
  | vertical
  | other
  deriving DecidableEq, Repr

/-- `FingureFeature`: four states for each finger. -/
structure FingureFeature where
  curl : FingureState
  flexion : FingureState
  abduction : FingureState
  opposition : FingureState
  deriving DecidableEq, Repr

/-- `HandFeature`; the fingers are `thumb`, `index`, `middle`, `ring` and `pinky`. -/
structure HandFeature where
  orientation : HandOrientation
  finger : Fin 5 → FingureFeature

namespace HandFeature

/-- A hand of which nothing is known. -/
def init : HandFeature where
  orientation := .unknown
  finger _ := ⟨.unknown, .unknown, .unknown, .unknown⟩

variable (f : HandFeature) (features : Fin 5 → FingureState)

/-- `get_curl_features`: of all fingers. -/
def curlFeatures : Fin 5 → FingureState := fun i => (f.finger i).curl

/-- `get_flexion_features`: of all fingers. -/
def flexionFeatures : Fin 5 → FingureState := fun i => (f.finger i).flexion

/-- `get_abduction_features`: of all fingers. -/
def abductionFeatures : Fin 5 → FingureState := fun i => (f.finger i).abduction

/-- `get_opposition_features`: of all fingers. -/
def oppositionFeatures : Fin 5 → FingureState := fun i => (f.finger i).opposition

/-- `set_curl_features`: the others stay. -/
def setCurlFeatures : HandFeature :=
  { f with finger := fun i => { f.finger i with curl := features i } }

/-- `set_flexion_features`: the others stay. -/
def setFlexionFeatures : HandFeature :=
  { f with finger := fun i => { f.finger i with flexion := features i } }

/-- `set_abduction_features`: the others stay. -/
def setAbductionFeatures : HandFeature :=
  { f with finger := fun i => { f.finger i with abduction := features i } }

/-- `set_opposition_features`: the others stay. -/
def setOppositionFeatures : HandFeature :=
  { f with finger := fun i => { f.finger i with opposition := features i } }

end HandFeature

/-- `keypoints3d[i][j]`: the root and four joints of each finger. -/
abbrev Fingers (K : Type) := Fin 5 → Fin 5 → Vec3 K

/-- What is computed of a frame before the states. -/
structure HandRawFeature (K : Type) where
  fingureAngles : Fin 5 → Vec3 K
  abductionAngles : Fin 4 → K
  oppositionDistances : Fin 4 → K
  handAngle : K
  isThumbUp : Bool
  isThumbClosed : K
  pinchVelocity : K
  pinchDistance : K
  lastGesture : HandGesture

/-- The functions from elsewhere. -/
structure GestureLib (K : Type) where
  eigen : Eigen K
  acos : K → K

variable {K : Type} [Field K] [LinearOrder K]

/-! ### Angles and distances -/

section

variable (lib : GestureLib K)

/-- `vector3d_angle`: the angle between two vectors, in degrees. -/
def vector3dAngle (x y : Vec3 K) : K :=
  let cosTheta := dotProduct x y / (lib.eigen.norm x * lib.eigen.norm y)
  lib.acos cosTheta * 180 / Predictor.mPi

/-- A tip that is bent outwards has a negative angle. -/
def vector3dAngleThumb (x y x' y' : Vec3 K) : K :=
  let angleValue := vector3dAngle lib x y
  if dotProduct (cross x y) (cross x' y') < 0 then -angleValue else angleValue

/-- `calculate_fingure_angles`: the bends at the three joints of each finger. -/
def calculateFingureAngles (points : Fingers K) : Fin 5 → Vec3 K := fun i =>
  ![vector3dAngle lib (points i 1 - points i 0) (points i 2 - points i 1),
    vector3dAngle lib (points i 2 - points i 1) (points i 3 - points i 2),
    if i = 0 then
      vector3dAngleThumb lib (points i 3 - points i 2) (points i 4 - points i 3)
        (points i 1 - points i 0) (points 2 1 - points 2 0)
    else vector3dAngle lib (points i 3 - points i 2) (points i 4 - points i 3)]

/-- `calculate_opposition_distances`: from the tip of the thumb to the other tips. -/
def calculateOppositionDistances (points : Fingers K) : Fin 4 → K := fun i =>
  lib.eigen.norm (points i.succ 4 - points 0 4)

/-- `calculate_abduction_angles`: between neighbouring fingers. -/
def calculateAbductionAngles (points : Fingers K) : Fin 4 → K := fun i =>
  vector3dAngle lib (points i.castSucc 2 - points i.castSucc 0) (points i.succ 2 - points i.succ 0)

/-- `GetPlaneNormalVectorFrom3Points`: the normal of the plane of three points. -/
def getPlaneNormalVectorFrom3Points (o a b : Vec3 K) : Vec3 K :=
  lib.eigen.normalized (cross (a - o) (b - o))

/-- `from_two_vectors`: the angle between the directions of two vectors, in degrees. -/
def fromTwoVectors (src dst : Vec3 K) : K :=
  lib.acos (dotProduct (lib.eigen.normalized src) (lib.eigen.normalized dst)) / Predictor.mPi * 180

/-- `distancePointToLine`: the distance of `a` from the line through `b` and `c`. -/
def distancePointToLine (a b c : Vec3 K) : K :=
  lib.eigen.norm (cross (a - b) (c - b)) / lib.eigen.norm (c - b)

/-- The palm looks at the head. -/
def isFaceToHead (points : Fingers K) (isLeftHand : Bool) : Bool :=
  let palm :=
    if isLeftHand then getPlaneNormalVectorFrom3Points lib (points 0 0) (points 3 1) (points 1 1)
    else getPlaneNormalVectorFrom3Points lib (points 0 0) (points 1 1) (points 3 1)
  fromTwoVectors lib palm ![0, 0, -1] < 60 ∨ fromTwoVectors lib palm ![0, -1, 0] < 70

end

/-- By the barycentric coordinates in the triangle, scaled about its center. -/
def isInsideTriangle (pt v1 v2 v3 : Vec2 K) (scale : K) : Bool :=
  let mean : Vec2 K := fun t => (v1 t + v2 t + v3 t) / 3
  let v1' : Vec2 K := fun t => (v1 t - mean t) * scale + mean t
  let v2' : Vec2 K := fun t => (v2 t - mean t) * scale + mean t
  let v3' : Vec2 K := fun t => (v3 t - mean t) * scale + mean t
  let dot00 := dotProduct (v2' - v1') (v2' - v1')
  let dot01 := dotProduct (v2' - v1') (v3' - v1')
  let dot02 := dotProduct (v2' - v1') (pt - v1')
  let dot11 := dotProduct (v3' - v1') (v3' - v1')
  let dot12 := dotProduct (v3' - v1') (pt - v1')
  let invDenom := 1 / (dot00 * dot11 - dot01 * dot01)
  let u := (dot11 * dot02 - dot01 * dot12) * invDenom
  let v := (dot00 * dot12 - dot01 * dot02) * invDenom
  0 ≤ u ∧ 0 ≤ v ∧ u + v < 1

/-! ### The finger states -/

/-- In a dead band the state stays. -/
def updateFingureState (value closeTh openTh width : K) (state : FingureState) : FingureState :=
  if value ≤ closeTh - width / 2 then .closed
  else if closeTh + width / 2 < value ∧ value < openTh - width / 2 then .neutral
  else if openTh + width / 2 < value then .open
  else state

/-- The thresholds of a pinch that `Open` sets. -/
structure PinchTh (K : Type) where
  oppositionClosedTh : K
  oppositionThWidth : K

/-- The thresholds before `set_pinch_close_th` is called. -/
def PinchTh.default : PinchTh K := ⟨17 / 1000, 6 / 1000⟩

/-- The angle behind the curl of a finger. -/
def curlAngle (angles : Fin 5 → Vec3 K) (i : Fin 5) : K :=
  if i = 0 then 180 - angles 0 2 else 180 - angles i 1 - angles i 2

namespace HandFeature

variable (f : HandFeature)

/-- `update_curl_feature`: the thumb has thresholds of its own. -/
def updateCurlFeature (angles : Fin 5 → Vec3 K) : HandFeature :=
  let features := f.curlFeatures
  f.setCurlFeatures fun i =>
    if i = 0 then updateFingureState (curlAngle angles i) 140 155 10 (features i)
    else updateFingureState (curlAngle angles i) 80 130 10 (features i)

/-- The states before it are those of the curl. -/
def updateFlexionFeature (angles : Fin 5 → Vec3 K) : HandFeature :=
  let features := f.curlFeatures
  f.setFlexionFeatures fun i =>
    if i = 0 then updateFingureState (180 - angles 0 1) 120 150 8 (features i)
    else updateFingureState (180 - angles i 0) 110 145 8 (features i)

/-- The pinky has no angle of its own. -/
def updateAbductionFeature (angles : Fin 4 → K) : HandFeature :=
  let features := f.abductionFeatures
  f.setAbductionFeatures fun i =>
    if i = 0 then updateFingureState (angles 0) 20 35 2 (features i)
    else if h : i.val < 4 then updateFingureState (angles ⟨i, h⟩) 10 13 2 (features i)
    else features i

/-- The closed threshold of a pinch, and its width. -/
def oppositionTh (th : PinchTh K) (relaxThFlag moveFlag : Bool) : K × K :=
  if relaxThFlag then (26 / 1000, 10 / 1000)
  else if moveFlag then (23 / 1000, 16 / 1000)
  else (th.oppositionClosedTh, th.oppositionThWidth)

/-- `update_opposition_feature`; the thumb has no distance to itself. -/
def updateOppositionFeature (th : PinchTh K) (distances : Fin 4 → K) (relaxThFlag moveFlag : Bool) :
    HandFeature :=
  let features := f.oppositionFeatures
  let closedTh := oppositionTh th relaxThFlag moveFlag
  f.setOppositionFeatures (Fin.cons (features 0) fun id =>
    updateFingureState (distances id) closedTh.1 (1 / 10) closedTh.2 (features id.succ))

/-- The second branch compares 60 with 120. -/
def updateHandOrientation (handAngle : K) : HandFeature :=
  { f with
    orientation :=
      if 0 ≤ handAngle ∧ handAngle ≤ 30 ∨ 150 ≤ handAngle ∧ handAngle ≤ 180 then .horizontal
      else if 60 ≤ handAngle ∧ (60 : K) ≤ 120 then .vertical
      else .other }

/-- `HandFeatureUpdator::update` -/
def update (th : PinchTh K) (fingureAngles : Fin 5 → Vec3 K) (abductionAngles : Fin 4 → K)
    (distances : Fin 4 → K) (handAngle : K) (releaseThFlag isPinchMasked moveFlag : Bool) :
    HandFeature :=
  let f := f.updateCurlFeature fingureAngles
  let f := f.updateFlexionFeature fingureAngles
  let f := f.updateAbductionFeature abductionAngles
  let f :=
    if isPinchMasked then f else f.updateOppositionFeature th distances releaseThFlag moveFlag
  f.updateHandOrientation handAngle

end HandFeature

/-! ### The rules -/

namespace GestureMatchRule

variable (f : HandFeature) (raw : HandRawFeature K)

/-- The rule for a click: the index finger is open, and the three next to it are closed. -/
def click : Bool :=
  f.curlFeatures 1 = .open ∧ f.curlFeatures 2 = .closed ∧ f.curlFeatures 3 = .closed ∧
    f.curlFeatures 4 = .closed ∧ f.oppositionFeatures 1 ≠ .closed ∧
    (f.curlFeatures 0 ≠ .open ∨
      f.abductionFeatures 0 ≠ .closed ∧ raw.isThumbClosed < 5 / 100)

/-- The rule for a grab: the four fingers are closed, and the thumb is not open. -/
def grab (f : HandFeature) : Bool :=
  f.curlFeatures 1 = .closed ∧ f.curlFeatures 2 = .closed ∧ f.curlFeatures 3 = .closed ∧
    f.curlFeatures 4 = .closed ∧ f.curlFeatures 0 ≠ .open

/-- The rule for an open hand. -/
def openHand (f : HandFeature) : Bool :=
  f.curlFeatures 0 = .open ∧ f.curlFeatures 1 ≠ .closed ∧ f.curlFeatures 2 = .open ∧
    f.curlFeatures 3 = .open ∧ f.curlFeatures 4 = .open ∧ f.flexionFeatures 1 ≠ .closed ∧
    f.flexionFeatures 2 = .open ∧ f.flexionFeatures 3 = .open ∧ f.flexionFeatures 4 = .open

/-- A new pinch has to be fast, or very close. -/
def pinch : Bool :=
  let pinchFlag : Bool := f.oppositionFeatures 1 = .closed
  if raw.lastGesture ≠ .pinch then
    pinchFlag ∧ raw.pinchVelocity < -15 / 1000 ∨ raw.pinchDistance < 10 / 1000
  else pinchFlag

/-- The rule for a victory sign: the index and the middle finger are open and apart. -/
def victory (f : HandFeature) : Bool :=
  f.curlFeatures 1 = .open ∧ f.curlFeatures 2 = .open ∧ f.curlFeatures 3 = .closed ∧
    f.curlFeatures 4 ≠ .open ∧ f.abductionFeatures 1 = .open ∧ f.curlFeatures 0 ≠ .open

/-- The rule for a call: the thumb is open, the three middle fingers are closed and the little one
is not. -/
def call (f : HandFeature) : Bool :=
  f.curlFeatures 0 = .open ∧
    (f.curlFeatures 1 = .closed ∨ f.flexionFeatures 1 = .closed) ∧
    (f.curlFeatures 2 = .closed ∨ f.flexionFeatures 2 = .closed) ∧
    (f.curlFeatures 3 = .closed ∨ f.flexionFeatures 3 = .closed) ∧ f.curlFeatures 4 ≠ .closed

/-- The rule for the home gesture: the thumb is closed, the fingers are open and the hand is
horizontal. -/
def home (f : HandFeature) : Bool :=
  (f.curlFeatures 0 = .closed ∨ f.flexionFeatures 0 = .closed) ∧ f.curlFeatures 1 = .open ∧
    f.curlFeatures 2 = .open ∧ f.curlFeatures 3 = .open ∧ f.curlFeatures 4 = .open ∧
    f.orientation = .horizontal

/-- The rule for a thumb up: the fingers are closed, and the thumb stands off upwards. -/
def thumbUp : Bool :=
  f.curlFeatures 1 = .closed ∧ f.curlFeatures 2 = .closed ∧ f.curlFeatures 3 = .closed ∧
    f.curlFeatures 4 = .closed ∧ f.abductionFeatures 0 = .open ∧ raw.isThumbUp

end GestureMatchRule

/-- `GestureFunctionMap`; a gesture that is no key of it is never found. -/
def gestureFunctionMap (f : HandFeature) (raw : HandRawFeature K) : HandGesture → Bool
  | .click => GestureMatchRule.click f raw
  | .grab => GestureMatchRule.grab f
  | .openHand => GestureMatchRule.openHand f
  | .pinch => GestureMatchRule.pinch f raw
  | .victory => GestureMatchRule.victory f
  | .call => GestureMatchRule.call f
  | .home => GestureMatchRule.home f
  | .thumbUp => GestureMatchRule.thumbUp f raw
  | .invalid | .maxNum => false

/-- From `Invalid` to the one before `MaxNum`, in the order of the enumeration. -/
def gestureOrder : List HandGesture :=
  [.invalid, .pinch, .click, .grab, .thumbUp, .openHand, .victory, .call, .home]

/-- The first gesture whose rule is met. -/
def matchGesture (f : HandFeature) (raw : HandRawFeature K) : HandGesture :=
  (gestureOrder.find? (gestureFunctionMap f raw)).getD .invalid

/-! ### Calls -/

/-- The arguments of `predict_with_keypoints3d`, with the members of `hand_data` that it reads:
21 points, and the source. -/
structure GestureCall (K : Type) where
  kpt3d : Fin 21 → Vec3 K
  source : CamType
  keypoints2d : Fin 21 → Vec2 K
  isLeftHand : Bool
  isTracked : Bool
  handV : K

/-- `GestureRecognitionV2`; `lastKpt3d` is none when the source's is empty. -/
structure GestureRecognitionV2 (K : Type) where
  feature : HandFeature
  lastGesture : HandGesture
  lastKpt3d : Option (Fingers K)

/-- Before the first call. -/
def GestureRecognitionV2.init : GestureRecognitionV2 K := ⟨.init, .invalid, none⟩

namespace GestureCall

variable (lib : GestureLib K) (c : GestureCall K)

/-- The points from the root on, for a hand of standard length. -/
def points : Fingers K := fun i =>
  let handLength := lib.eigen.norm (c.kpt3d 9 - c.kpt3d 0)
  Fin.cons (c.kpt3d 0 - c.kpt3d 0) fun j t =>
    (c.kpt3d ⟨i * 4 + j + 1, by omega⟩ t - c.kpt3d 0 t) * (8 / 100) / handLength

end GestureCall

namespace GestureRecognitionV2

variable (lib : GestureLib K) (s : GestureRecognitionV2 K)

/-- The tips are in the triangle of the palm, where a pinch does not show. -/
def isPinchMasked (keypoints2d : Fin 21 → Vec2 K) (isFaceToHead : Bool) : Bool :=
  let inPalm pt := isInsideTriangle pt (keypoints2d 1) (keypoints2d 6) (keypoints2d 17) (11 / 10)
  inPalm (keypoints2d 4) && inPalm (keypoints2d 8) && !isFaceToHead &&
    decide (s.lastGesture = .pinch)

/-- `get_pinch_velocity`: how fast the tips of thumb and index finger move apart; `-1` in the first
frame. -/
def getPinchVelocity (points : Fingers K) : K :=
  match s.lastKpt3d with
  | some last =>
    (lib.eigen.norm (points 1 4 - points 0 4) - lib.eigen.norm (last 1 4 - last 0 4)) / (1 / 30)
  | none => -1

/-- `extract_hand_feature` before the update of the states. -/
def rawFeature (c : GestureCall K) : HandRawFeature K :=
  let points := c.points lib
  { fingureAngles := calculateFingureAngles lib points
    abductionAngles := calculateAbductionAngles lib points
    oppositionDistances := calculateOppositionDistances lib points
    handAngle := vector3dAngle lib (points 2 4 - points 2 1) ![1, 0, 0]
    isThumbUp := points 0 3 1 - points 0 2 1 < -15 / 1000 ∧ points 0 4 1 - points 0 3 1 < -15 / 1000
    isThumbClosed := distancePointToLine lib (points 0 4) (points 2 4) (points 2 2)
    pinchVelocity := if c.isTracked then s.getPinchVelocity lib points else 0
    pinchDistance := calculateOppositionDistances lib points 0
    lastGesture := s.lastGesture }

/-- The states after the call. -/
def updatedFeature (th : PinchTh K) (c : GestureCall K) : HandFeature :=
  let points := c.points lib
  let raw := s.rawFeature lib c
  let toFace := isFaceToHead lib points c.isLeftHand
  s.feature.update th raw.fingureAngles raw.abductionAngles raw.oppositionDistances raw.handAngle
    (toFace || decide (c.source = .mono)) (s.isPinchMasked c.keypoints2d toFace)
    (1 / 10 < c.handV)

end GestureRecognitionV2

/-- `predict_with_keypoints3d`, of whose results the gesture is used. -/
def predictWithKeypoints3d (lib : GestureLib K) (th : PinchTh K) (s : GestureRecognitionV2 K)
    (c : GestureCall K) : GestureRecognitionV2 K × HandGesture :=
  let feature := s.updatedFeature lib th c
  let gesture := matchGesture feature (s.rawFeature lib c)
  (⟨feature, gesture, if c.isTracked then some (c.points lib) else none⟩, gesture)

end Gesture

/-
`HandTrackingXGraph::PopResult`: the hands of a result packet at the time of the
head-mounted display.

* `popHand` — the body of the loop over the hands, `popResult` — the call;
* `popHand_congr`, `popHand_other` — the body reads and writes what belongs to its
  hand, and `queryTime`;
* `queryTime_popHand` — a hand seen by one camera shortens the prediction, and
  `queryTime` is one variable for both hands: the left one shortens it for the right
  one too;
* `sameHand_iff` — when the results of a hand do not depend on the other.

The constraint solver of the hand model, the linear solver and Eigen are parameters.
-/
import HandTracking.HandRotation
import HandTracking.HandsData
import HandTracking.BaseXGraph
import HandTracking.Library.Numerals
import Mathlib.Tactic.Linarith

namespace HandPose

open Predictor

/-- The gestures of the interface. -/
inductive GestureType where
  | unknown
  | openHand
  | grab
  | pinch
  | point
  | victory
  | call
  | system
  | thumbsUp
  deriving DecidableEq, Repr

/-- `GestureMap`; `maxNum` is no key of it and gets the value 0. -/
def gestureMap : HandGesture → GestureType
  | .openHand => .openHand
  | .grab => .grab
  | .pinch => .pinch
  | .click => .point
  | .victory => .victory
  | .call => .call
  | .home => .system
  | .thumbUp => .thumbsUp
  | .invalid => .unknown
  | .maxNum => .openHand

/-- The sides of the interface. -/
inductive HandType where
  | left
  | right
  deriving DecidableEq, Repr

/-- `HandType(i)` -/
def HandType.ofIndex (i : Fin 2) : HandType := if i = 0 then .left else .right

/-- `HandJointType`; −1 is `none`. -/
abbrev HandJointType := Option (Fin 32)

/-- `JOINTS_COUNT` -/
def HandJointFormat.jointsCount : HandJointFormat → ℕ
  | .xreal => 25
  | .openXR => 26

/-- `xreal_2_clay` -/
def xreal2Clay : (fmt : HandJointFormat) → Fin fmt.keypointNum → Fin 32
  | .xreal =>
    ![24, 0, 1, 2, 3, 4, 5, 6, 7, 8, 9, 10, 11, 12, 13, 14, 15, 17, 18, 19, 20, 21, 16]
  | .openXR =>
    ![1, 2, 3, 4, 5, 7, 8, 9, 10, 12, 13, 14, 15, 17, 18, 19, 20, 22, 23, 24, 25, 0, 21, 6, 11, 16]

/-- The data of a hand in the result packet. -/
structure SingleHandData (fmt : HandJointFormat) (K : Type) where
  kpt3d : Fin fmt.keypointNum → Vec3 K
  rotation : Fin fmt.keypointNum → Matrix3 K
  gesture : HandGesture
  source : CamType

/-- `HandsData`; 0 is the left hand. -/
structure HandsData (fmt : HandJointFormat) (K : Type) where
  hand : Fin 2 → SingleHandData fmt K
  valid : Fin 2 → Bool

/-- What `PopResult` reads of the frame that `GetOutputStreamCache` returns. -/
structure OutList (fmt : HandJointFormat) (K : Type) where
  rawTimestamp : ℕ
  handDataPacket : XGraph.Packet (HandsData fmt K)

/-- `NRTransform`: a position and a rotation. -/
structure NRTransform (K : Type) where
  position : Vec3 K
  rotation : Quat K

/-- `HandJointData`: the pose of a joint. -/
structure HandJointData (K : Type) where
  version : ℤ
  handJointType : HandJointType
  handJointPose : NRTransform K

/-- `HandData` of the interface; `pinchStrength` is there in the OpenXR format only. -/
structure HandData (K : Type) where
  version : ℤ
  isTracked : Bool
  confidence : K
  handType : HandType
  gestureType : GestureType
  handJointCount : ℕ
  handJointData : Fin 32 → HandJointData K
  imageTimestampNanos : ℕ
  pinchStrength : K

variable {fmt : HandJointFormat} {K : Type}

namespace HandData

/-- An array element that the caller has set to zero. -/
def zero [Zero K] : HandData K where
  version := 0
  isTracked := false
  confidence := 0
  handType := .left
  gestureType := .openHand
  handJointCount := 0
  handJointData _ := ⟨0, some 0, ⟨0, ⟨0, 0, 0, 0⟩⟩⟩
  imageTimestampNanos := 0
  pinchStrength := 0

/-- The joints that the first loop of `PopResult` marks as invalid. -/
def resetJoints (fmt : HandJointFormat) (out : HandData K) : HandData K :=
  { out with
    handJointData := fun j =>
      if j.val < fmt.jointsCount then
        { out.handJointData j with version := 0, handJointType := none }
      else out.handJointData j }

/-- A joint is written under its number. -/
def setJoint (out : HandData K) (joint : Fin 32) (pose : NRTransform K) : HandData K :=
  let data := { out.handJointData joint with handJointType := some joint, handJointPose := pose }
  { out with handJointData := Function.update out.handJointData joint data }

end HandData

variable [Field K] [LinearOrder K]

/-- What the code takes from elsewhere. -/
structure Externals (K : Type) where
  eigen : Eigen K
  solve : Solver 3 K
  /-- `constraint_hand_v2`, which reads the first 21 points and returns 21. -/
  constraintHandV2 : (Fin 21 → Vec3 K) → Bool → Fin 21 → Vec3 K
  /-- What is read behind the 21 points of that result. -/
  pastEnd : ℕ → Vec3 K

/-- The variables of `PopResult` and the objects it works on.  `handed` records the query
time handed to the predictor of each hand. -/
structure PopState (fmt : HandJointFormat) (K : Type) [Field K] [LinearOrder K] where
  queryTime : K
  predictor : Fin 2 → KFPredictor K
  postFilter : HandFilters fmt K
  outHandArray : Fin 2 → HandData K
  handed : Fin 2 → Option K

/-- `hand_data_packet.Timestamp().Seconds()` -/
def OutList.latestTimestamp (outlist : OutList fmt K) : K :=
  outlist.handDataPacket.timestamp / 1000000

/-- `pinch_stength` -/
def pinchStrength (E : Eigen K) (kpt3d : Fin fmt.keypointNum → Vec3 K) : K :=
  let pinchDistance := E.norm (kpt3d 4 - kpt3d 8)
  1 - (min (max pinchDistance (1 / 100)) (1 / 10) - 1 / 100) / (9 / 100)

/-- In the OpenXR format only. -/
def HandData.setPinchStrength (E : Eigen K) (out : HandData K) :
    {fmt : HandJointFormat} → (Fin fmt.keypointNum → Vec3 K) → HandData K
  | .openXR, kpt3d => { out with pinchStrength := HandPose.pinchStrength E kpt3d }
  | .xreal, _ => out

/-- The query time after a hand seen by the given cameras. -/
def shortened (source : CamType) (latestTimestamp queryTime : K) : K :=
  if source = .mono then latestTimestamp + (queryTime - latestTimestamp) * (25 / 100)
  else queryTime

/-- `root_kf_predicted`, and the state after the prediction. -/
def predictRoot (X : Externals K) (outlist : OutList fmt K) (i : Fin 2) (s : PopState fmt K) :
    PopState fmt K × Vec3 K :=
  let hand := outlist.handDataPacket.value.hand i
  let rootMeas := hand.kpt3d kKeypointRootId
  if (s.predictor i).filter.isTracked then
    let queryTime := shortened hand.source outlist.latestTimestamp s.queryTime
    let result := (s.predictor i).call X.solve (.trackOnlyPred queryTime true, true)
    ({ s with
        queryTime := queryTime
        predictor := Function.update s.predictor i result.1
        handed := Function.update s.handed i (some queryTime) },
      match result.2 with
      | .point pos => pos
      | _ => rootMeas)
  else ({ s with postFilter := s.postFilter.reset i }, rootMeas)

/-- The points that are written, from the points after the filter. -/
def constrained (X : Externals K) (i : Fin 2) (points : Fin fmt.keypointNum → Vec3 K) :
    Fin fmt.keypointNum → Vec3 K :=
  let pointsMano := X.constraintHandV2 (fun k => points (Fin.ofNat _ k.val)) (i = 0)
  fun j => if h : j.val < 21 then pointsMano ⟨j, h⟩ else X.pastEnd j

/-- The joints that are written for a tracked hand. -/
def writeJoints (X : Externals K) (i : Fin 2) (points : Fin fmt.keypointNum → Vec3 K)
    (out : HandData K) : HandData K :=
  let predictedPoints := constrained X i points
  let rotations := computeRotation X.eigen predictedPoints (i = 0)
  (List.finRange fmt.keypointNum).foldl (fun out j =>
    out.setJoint (xreal2Clay fmt j) ⟨predictedPoints j, X.eigen.quaternion (rotations j)⟩) out

/-- The prediction of a tracked hand. -/
def popTracked (X : Externals K) (outlist : OutList fmt K) (i : Fin 2) (s : PopState fmt K) :
    PopState fmt K :=
  let hand := outlist.handDataPacket.value.hand i
  let out := (s.outHandArray i).setPinchStrength X.eigen hand.kpt3d
  let (s, rootKfPredicted) := predictRoot X outlist i s
  let predictedPoints k := hand.kpt3d k + rootKfPredicted - hand.kpt3d kKeypointRootId
  let (postFilter, predictedPoints) := s.postFilter.process i predictedPoints
  let out := { writeJoints X i predictedPoints out with
    imageTimestampNanos := outlist.rawTimestamp }
  { s with
    postFilter := postFilter
    outHandArray := Function.update s.outHandArray i out }

/-- `tracked_internal[i]` -/
def trackedInternal (outlist : OutList fmt K) (predictor : Fin 2 → KFPredictor K) (i : Fin 2) :
    Bool :=
  outlist.handDataPacket.value.valid i && (predictor i).filter.isTracked

/-- The condition of the prediction: `tracked_internal[i] && query_time != 0`. -/
def Predicts (outlist : OutList fmt K) (predictor : Fin 2 → KFPredictor K) (i : Fin 2)
    (queryTime : K) : Prop :=
  trackedInternal outlist predictor i = true ∧ queryTime ≠ 0

instance (outlist : OutList fmt K) (predictor : Fin 2 → KFPredictor K) (i : Fin 2)
    (queryTime : K) : Decidable (Predicts outlist predictor i queryTime) := instDecidableAnd

/-- What is written for every hand. -/
def describeHand (outlist : OutList fmt K) (i : Fin 2) (s : PopState fmt K) : PopState fmt K :=
  let tracked := trackedInternal outlist s.predictor i
  let out : HandData K := { s.outHandArray i with
    version := 0
    gestureType := gestureMap (outlist.handDataPacket.value.hand i).gesture
    handType := .ofIndex i
    handJointCount := fmt.jointsCount
    isTracked := tracked
    confidence := if tracked then 1 else 0 }
  { s with outHandArray := Function.update s.outHandArray i out }

/-- The body of the loop over the hands. -/
def popHand (X : Externals K) (outlist : OutList fmt K) (i : Fin 2) (s : PopState fmt K) :
    PopState fmt K :=
  let s := describeHand outlist i s
  if Predicts outlist s.predictor i s.queryTime then popTracked X outlist i s else s

/-- What a call works on, but the array of the caller. -/
structure PopInput (fmt : HandJointFormat) (K : Type) [Field K] [LinearOrder K] where
  outlist : OutList fmt K
  predictor : Fin 2 → KFPredictor K
  postFilter : HandFilters fmt K

/-- `query_time` at the start. -/
def queryTimeOf (hmdTimeNano : ℕ) : K := hmdTimeNano / 1000000000

/-- The call in front of its loop: the joints are reset, and the time is asked for. -/
def PopInput.start (hmdTimeNano : ℕ) (input : PopInput fmt K) (outHandArray : Fin 2 → HandData K) :
    PopState fmt K where
  queryTime := queryTimeOf hmdTimeNano
  predictor := input.predictor
  postFilter := input.postFilter
  outHandArray i := (outHandArray i).resetJoints fmt
  handed _ := none

/-- The loop over the hands of a frame. -/
def popHands (X : Externals K) (hmdTimeNano : ℕ) (input : PopInput fmt K)
    (outHandArray : Fin 2 → HandData K) : PopState fmt K :=
  popHand X input.outlist 1 (popHand X input.outlist 0 (input.start hmdTimeNano outHandArray))

/-- `PopResult`, with the number of hands it reports. -/
def popResult (X : Externals K) (hmdTimeNano : ℕ) (outlist : Option (OutList fmt K))
    (predictor : Fin 2 → KFPredictor K) (postFilter : HandFilters fmt K)
    (outHandArray : Fin 2 → HandData K) : XGraph.Status × ℕ × PopState fmt K :=
  match outlist with
  | some outlist =>
    (.success, 2, popHands X hmdTimeNano ⟨outlist, predictor, postFilter⟩ outHandArray)
  | none => (.failure, 0,
    { queryTime := queryTimeOf hmdTimeNano
      predictor := predictor
      postFilter := postFilter
      outHandArray := outHandArray
      handed := fun _ => none })

/-! ### What the body of the loop reads and writes -/

/-- The states have the same for one hand; `queryTime` belongs to no hand. -/
structure SameAt (i : Fin 2) (s s' : PopState fmt K) : Prop where
  predictor : s.predictor i = s'.predictor i
  postFilter : s.postFilter i = s'.postFilter i
  outHandArray : s.outHandArray i = s'.outHandArray i
  handed : s.handed i = s'.handed i

/-- The frames have the same for one hand. -/
structure OutList.SameAt (i : Fin 2) (outlist outlist' : OutList fmt K) : Prop where
  hand : outlist.handDataPacket.value.hand i = outlist'.handDataPacket.value.hand i
  valid : outlist.handDataPacket.value.valid i = outlist'.handDataPacket.value.valid i
  timestamp : outlist.handDataPacket.timestamp = outlist'.handDataPacket.timestamp
  rawTimestamp : outlist.rawTimestamp = outlist'.rawTimestamp

section

variable {X : Externals K} {outlist outlist' : OutList fmt K} {i j : Fin 2} {s s' : PopState fmt K}

omit [LinearOrder K] in
theorem OutList.SameAt.latestTimestamp (h : outlist.SameAt i outlist') :
    outlist.latestTimestamp = outlist'.latestTimestamp := by
  rw [OutList.latestTimestamp, OutList.latestTimestamp, h.timestamp]

theorem SameAt.symm (h : SameAt i s s') : SameAt i s' s :=
  ⟨h.predictor.symm, h.postFilter.symm, h.outHandArray.symm, h.handed.symm⟩

theorem SameAt.trans {s₁ s₂ s₃ : PopState fmt K} (h₁ : SameAt i s₁ s₂) (h₂ : SameAt i s₂ s₃) :
    SameAt i s₁ s₃ where
  predictor := h₁.predictor.trans h₂.predictor
  postFilter := h₁.postFilter.trans h₂.postFilter
  outHandArray := h₁.outHandArray.trans h₂.outHandArray
  handed := h₁.handed.trans h₂.handed

/-! The body writes only what belongs to its hand. -/

theorem predictRoot_other (h : j ≠ i) : SameAt j (predictRoot X outlist i s).1 s := by
  rw [predictRoot]
  split
  · exact ⟨Function.update_of_ne h _ _, rfl, rfl, Function.update_of_ne h _ _⟩
  · exact ⟨rfl, HandFilters.reset_other _ h, rfl, rfl⟩

theorem popTracked_other (h : j ≠ i) : SameAt j (popTracked X outlist i s) s := by
  have hroot : SameAt j (predictRoot X outlist i s).1 s := predictRoot_other h
  exact
    { predictor := hroot.predictor
      postFilter := (HandFilters.process_other _ _ h).trans hroot.postFilter
      outHandArray := (Function.update_of_ne h _ _).trans hroot.outHandArray
      handed := hroot.handed }

theorem describeHand_other (h : j ≠ i) : SameAt j (describeHand outlist i s) s :=
  ⟨rfl, rfl, Function.update_of_ne h _ _, rfl⟩

theorem popHand_of_predicts (h : Predicts outlist s.predictor i s.queryTime) :
    popHand X outlist i s = popTracked X outlist i (describeHand outlist i s) :=
  if_pos h

theorem popHand_of_not_predicts (h : ¬ Predicts outlist s.predictor i s.queryTime) :
    popHand X outlist i s = describeHand outlist i s :=
  if_neg h

theorem popHand_other (h : j ≠ i) : SameAt j (popHand X outlist i s) s := by
  by_cases hp : Predicts outlist s.predictor i s.queryTime
  · rw [popHand_of_predicts hp]
    exact (popTracked_other h).trans (describeHand_other h)
  · rw [popHand_of_not_predicts hp]
    exact describeHand_other h

/-! The body reads only what belongs to its hand, and the query time. -/

theorem predictRoot_congr (ho : outlist.SameAt i outlist') (h : SameAt i s s')
    (hq : s.queryTime = s'.queryTime) :
    SameAt i (predictRoot X outlist i s).1 (predictRoot X outlist' i s').1 ∧
      (predictRoot X outlist i s).2 = (predictRoot X outlist' i s').2 := by
  rw [predictRoot, predictRoot, ← ho.hand, ← ho.latestTimestamp, ← h.predictor, ← hq]
  split
  · have hpred : ∀ p : KFPredictor K, Function.update s.predictor i p i =
        Function.update s'.predictor i p i := fun p => by simp
    have hhanded : ∀ q : Option K, Function.update s.handed i q i =
        Function.update s'.handed i q i := fun q => by simp
    exact ⟨⟨hpred _, h.postFilter, h.outHandArray, hhanded _⟩, rfl⟩
  · have hreset : s.postFilter.reset i i = s'.postFilter.reset i i := by
      rw [HandFilters.reset_same, HandFilters.reset_same, h.postFilter]
    exact ⟨⟨h.predictor, hreset, h.outHandArray, h.handed⟩, rfl⟩

theorem popTracked_congr (ho : outlist.SameAt i outlist') (h : SameAt i s s')
    (hq : s.queryTime = s'.queryTime) :
    SameAt i (popTracked X outlist i s) (popTracked X outlist' i s') := by
  -- the predicted root moves all points before they are filtered
  obtain ⟨hroot, hpoint⟩ := predictRoot_congr (X := X) ho h hq
  have hprocess : ∀ points,
      ((predictRoot X outlist i s).1.postFilter.process i points).1 i =
          ((predictRoot X outlist' i s').1.postFilter.process i points).1 i ∧
        ((predictRoot X outlist i s).1.postFilter.process i points).2 =
          ((predictRoot X outlist' i s').1.postFilter.process i points).2 := by
    intro points
    rw [HandFilters.process_same, HandFilters.process_same, HandFilters.process,
      HandFilters.process, hroot.postFilter]
    exact ⟨rfl, rfl⟩
  constructor
  · exact hroot.predictor
  · simp only [popTracked, ← ho.hand, ← hpoint]
    exact (hprocess _).1
  · simp only [popTracked, ← ho.hand, ← hpoint, ← ho.rawTimestamp, ← h.outHandArray,
      Function.update_self, (hprocess _).2]
  · exact hroot.handed

theorem describeHand_congr (ho : outlist.SameAt i outlist') (h : SameAt i s s') :
    SameAt i (describeHand outlist i s) (describeHand outlist' i s') := by
  have htracked : trackedInternal outlist s.predictor i =
      trackedInternal outlist' s'.predictor i := by
    rw [trackedInternal, trackedInternal, ho.valid, h.predictor]
  have hout : (describeHand outlist i s).outHandArray i =
      (describeHand outlist' i s').outHandArray i := by
    rw [describeHand, describeHand, htracked, ho.hand, h.outHandArray]
    simp only [Function.update_self]
  exact ⟨h.predictor, h.postFilter, hout, h.handed⟩

theorem popHand_congr (ho : outlist.SameAt i outlist') (h : SameAt i s s')
    (hq : s.queryTime = s'.queryTime) :
    SameAt i (popHand X outlist i s) (popHand X outlist' i s') := by
  have hd := describeHand_congr ho h
  -- both calls take the same branch
  have hiff : Predicts outlist s.predictor i s.queryTime ↔
      Predicts outlist' s'.predictor i s'.queryTime := by
    rw [Predicts, Predicts, trackedInternal, trackedInternal, ho.valid, h.predictor, hq]
  by_cases hp : Predicts outlist s.predictor i s.queryTime
  · rw [popHand_of_predicts hp, popHand_of_predicts (hiff.mp hp)]
    exact popTracked_congr ho hd hq
  · rw [popHand_of_not_predicts hp, popHand_of_not_predicts (mt hiff.mpr hp)]
    exact hd

/-! ### The query time -/

theorem predictRoot_query (h : trackedInternal outlist s.predictor i = true) :
    let queryTime :=
      shortened (outlist.handDataPacket.value.hand i).source outlist.latestTimestamp s.queryTime
    (predictRoot X outlist i s).1.queryTime = queryTime ∧
      (predictRoot X outlist i s).1.handed i = some queryTime := by
  rw [trackedInternal, Bool.and_eq_true] at h
  rw [predictRoot, if_pos h.2]
  exact ⟨rfl, Function.update_self ..⟩

/-- **What a hand leaves as the query time for the next one.** -/
theorem queryTime_popHand (X : Externals K) (outlist : OutList fmt K) (i : Fin 2)
    (s : PopState fmt K) : (popHand X outlist i s).queryTime =
      if Predicts outlist s.predictor i s.queryTime then
        shortened (outlist.handDataPacket.value.hand i).source outlist.latestTimestamp s.queryTime
      else s.queryTime := by
  by_cases h : Predicts outlist s.predictor i s.queryTime
  · rw [if_pos h, popHand_of_predicts h]
    exact (predictRoot_query (s := describeHand outlist i s) h.1).1
  · rw [if_neg h, popHand_of_not_predicts h]
    rfl

/-- The query time that is handed to the predictor. -/
theorem handed_popHand (X : Externals K) (outlist : OutList fmt K) (i : Fin 2)
    (s : PopState fmt K) : (popHand X outlist i s).handed i =
      if Predicts outlist s.predictor i s.queryTime then
        some (shortened (outlist.handDataPacket.value.hand i).source outlist.latestTimestamp
          s.queryTime)
      else s.handed i := by
  by_cases h : Predicts outlist s.predictor i s.queryTime
  · rw [if_pos h, popHand_of_predicts h]
    exact (predictRoot_query (s := describeHand outlist i s) h.1).2
  · rw [if_neg h, popHand_of_not_predicts h]
    rfl

end

/-! ### The results of one hand -/

/-- The inputs agree on a hand, on its predictor and its filters, and on the time. -/
structure PopInput.AgreeOn (i : Fin 2) (a b : PopInput fmt K) : Prop where
  outlist : a.outlist.SameAt i b.outlist
  predictor : a.predictor i = b.predictor i
  postFilter : a.postFilter i = b.postFilter i

/-- The state after a call with a result. -/
def PopInput.pop (X : Externals K) (hmdTimeNano : ℕ) (input : PopInput fmt K)
    (outHandArray : Fin 2 → HandData K) : PopState fmt K :=
  (popResult X hmdTimeNano (some input.outlist) input.predictor input.postFilter outHandArray).2.2

/-- The calls hand the same query time to the predictor of the hand and write the same
for it. -/
def SameHand (X : Externals K) (hmdTimeNano : ℕ) (i : Fin 2) (a b : PopInput fmt K) : Prop :=
  ∀ out out' : Fin 2 → HandData K, out i = out' i →
    (a.pop X hmdTimeNano out).handed i = (b.pop X hmdTimeNano out').handed i ∧
      (a.pop X hmdTimeNano out).outHandArray i = (b.pop X hmdTimeNano out').outHandArray i

/-- The left hand gets a prediction and is seen by one camera. -/
def PopInput.LeftShortens (hmdTimeNano : ℕ) (input : PopInput fmt K) : Prop :=
  Predicts input.outlist input.predictor 0 (queryTimeOf hmdTimeNano) ∧
    (input.outlist.handDataPacket.value.hand 0).source = .mono

instance (hmdTimeNano : ℕ) (input : PopInput fmt K) : Decidable (input.LeftShortens hmdTimeNano) :=
  instDecidableAnd

section

variable {X : Externals K} {hmdTimeNano : ℕ} {i : Fin 2} {a b : PopInput fmt K}
  {out out' : Fin 2 → HandData K}

theorem PopInput.AgreeOn.start (h : a.AgreeOn i b) (hout : out i = out' i) :
    SameAt i (a.start hmdTimeNano out) (b.start hmdTimeNano out') where
  predictor := h.predictor
  postFilter := h.postFilter
  outHandArray := congrArg (HandData.resetJoints fmt) hout
  handed := rfl

/-- The state between the hands. -/
abbrev PopInput.between (X : Externals K) (hmdTimeNano : ℕ) (input : PopInput fmt K)
    (out : Fin 2 → HandData K) : PopState fmt K :=
  popHand X input.outlist 0 (input.start hmdTimeNano out)

theorem PopInput.between_same (X : Externals K) (hmdTimeNano : ℕ) (input : PopInput fmt K)
    (out : Fin 2 → HandData K) :
    SameAt 1 (input.between X hmdTimeNano out) (input.start hmdTimeNano out) :=
  popHand_other (by decide)

/-- The query time that is left for the right hand. -/
theorem PopInput.queryTime_between (X : Externals K) (hmdTimeNano : ℕ) (input : PopInput fmt K)
    (out : Fin 2 → HandData K) : (input.between X hmdTimeNano out).queryTime =
      if input.LeftShortens hmdTimeNano then
        shortened .mono input.outlist.latestTimestamp (queryTimeOf hmdTimeNano)
      else queryTimeOf hmdTimeNano := by
  rw [between, queryTime_popHand]
  by_cases h : input.LeftShortens hmdTimeNano
  · have hp : Predicts input.outlist (input.start hmdTimeNano out).predictor 0
        (input.start hmdTimeNano out).queryTime := h.1
    rw [if_pos h, if_pos hp, h.2]
    rfl
  · rw [if_neg h]
    split
    next hp =>
      have hsource : (input.outlist.handDataPacket.value.hand 0).source ≠ .mono :=
        fun hs => h ⟨hp, hs⟩
      rw [shortened, if_neg hsource]
      rfl
    next => rfl

theorem PopInput.AgreeOn.between (h : a.AgreeOn 1 b) (hout : out 1 = out' 1) :
    SameAt 1 (a.between X hmdTimeNano out) (b.between X hmdTimeNano out') := by
  have hstart : SameAt 1 (a.start hmdTimeNano out) (b.start hmdTimeNano out') := h.start hout
  have ha := a.between_same X hmdTimeNano out
  have hb := b.between_same X hmdTimeNano out'
  exact ha.trans (hstart.trans hb.symm)

/-- The left hand comes first: nothing of the right one reaches it. -/
theorem PopInput.AgreeOn.sameHand_left (h : a.AgreeOn 0 b) : SameHand X hmdTimeNano 0 a b := by
  intro out out' hout
  have hfirst : SameAt 0 (a.between X hmdTimeNano out) (b.between X hmdTimeNano out') :=
    popHand_congr h.outlist (h.start hout) rfl
  have hsame : SameAt 0 (a.pop X hmdTimeNano out) (b.pop X hmdTimeNano out') :=
    (popHand_other (by decide)).trans (hfirst.trans (popHand_other (by decide)).symm)
  exact ⟨hsame.handed, hsame.outHandArray⟩

/-- The right hand is the same when the left one leaves the same query time. -/
theorem PopInput.AgreeOn.sameAt_right (h : a.AgreeOn 1 b) (hout : out 1 = out' 1)
    (hq : (a.between X hmdTimeNano out).queryTime = (b.between X hmdTimeNano out').queryTime) :
    SameAt 1 (a.pop X hmdTimeNano out) (b.pop X hmdTimeNano out') :=
  popHand_congr h.outlist (h.between hout) hq

/-- Without tracking the query time does not matter. -/
theorem PopInput.AgreeOn.sameAt_right_of_not_tracked (h : a.AgreeOn 1 b) (hout : out 1 = out' 1)
    (htracked : trackedInternal a.outlist a.predictor 1 = false) :
    SameAt 1 (a.pop X hmdTimeNano out) (b.pop X hmdTimeNano out') := by
  have hbetween : SameAt 1 (a.between X hmdTimeNano out) (b.between X hmdTimeNano out') :=
    h.between hout
  have ha : trackedInternal a.outlist (a.between X hmdTimeNano out).predictor 1 = false := by
    rw [trackedInternal, (a.between_same X hmdTimeNano out).predictor]
    exact htracked
  have hb : trackedInternal b.outlist (b.between X hmdTimeNano out').predictor 1 = false := by
    rw [trackedInternal, ← h.outlist.valid, ← hbetween.predictor]
    exact ha
  have hpa : ∀ q : K, ¬ Predicts a.outlist (a.between X hmdTimeNano out).predictor 1 q :=
    fun q hp => Bool.false_ne_true (ha.symm.trans hp.1)
  have hpb : ∀ q : K, ¬ Predicts b.outlist (b.between X hmdTimeNano out').predictor 1 q :=
    fun q hp => Bool.false_ne_true (hb.symm.trans hp.1)
  show SameAt 1 (popHand X a.outlist 1 (a.between X hmdTimeNano out))
    (popHand X b.outlist 1 (b.between X hmdTimeNano out'))
  rw [popHand_of_not_predicts (hpa _), popHand_of_not_predicts (hpb _)]
  exact describeHand_congr h.outlist hbetween

/-- The query time handed to the predictor of a tracked right hand. -/
theorem PopInput.handed_right (X : Externals K) (hmdTimeNano : ℕ) (input : PopInput fmt K)
    (out : Fin 2 → HandData K) (h : trackedInternal input.outlist input.predictor 1 = true) :
    (input.pop X hmdTimeNano out).handed 1 =
      if (input.between X hmdTimeNano out).queryTime ≠ 0 then
        some (shortened (input.outlist.handDataPacket.value.hand 1).source
          input.outlist.latestTimestamp (input.between X hmdTimeNano out).queryTime)
      else none := by
  have hbetween := input.between_same X hmdTimeNano out
  have htracked : trackedInternal input.outlist (input.between X hmdTimeNano out).predictor 1 =
      true := by
    rw [trackedInternal, hbetween.predictor]
    exact h
  have hhanded : (input.between X hmdTimeNano out).handed 1 = none := hbetween.handed
  refine (handed_popHand X input.outlist 1 (input.between X hmdTimeNano out)).trans ?_
  by_cases hq : (input.between X hmdTimeNano out).queryTime ≠ 0
  · rw [if_pos hq, if_pos ⟨htracked, hq⟩]
  · rw [if_neg hq, if_neg fun hp => hq hp.2, hhanded]

variable [IsStrictOrderedRing K]

theorem shortened_injective (source : CamType) (latestTimestamp : K) :
    (shortened source latestTimestamp).Injective := by
  intro q q' h
  by_cases hs : source = .mono
  · rw [shortened, shortened, if_pos hs, if_pos hs] at h
    linarith
  · rwa [shortened, shortened, if_neg hs, if_neg hs] at h

theorem shortened_mono_eq_self_iff {latestTimestamp queryTime : K} :
    shortened .mono latestTimestamp queryTime = queryTime ↔ queryTime = latestTimestamp := by
  rw [shortened, if_pos rfl]
  constructor
  · intro h
    linarith
  · intro h
    linarith

/-- The left hands leave the same query time unless just one of them shortens it. -/
theorem PopInput.AgreeOn.queryTime_between_eq_iff (h : a.AgreeOn 1 b) :
    (a.between X hmdTimeNano out).queryTime = (b.between X hmdTimeNano out').queryTime ↔
      (queryTimeOf hmdTimeNano : K) = a.outlist.latestTimestamp ∨
        (a.LeftShortens hmdTimeNano ↔ b.LeftShortens hmdTimeNano) := by
  rw [queryTime_between, queryTime_between, ← h.outlist.latestTimestamp]
  by_cases ha : a.LeftShortens hmdTimeNano
  · by_cases hb : b.LeftShortens hmdTimeNano
    · -- both left hands take the same off the query time
      rw [if_pos ha, if_pos hb]
      exact iff_of_true rfl (.inr (iff_of_true ha hb))
    · -- only one of them shortens it: that shows unless there is nothing to take off
      rw [if_pos ha, if_neg hb, shortened_mono_eq_self_iff]
      exact (or_iff_left fun hab => hb (hab.mp ha)).symm
  · by_cases hb : b.LeftShortens hmdTimeNano
    · rw [if_neg ha, if_pos hb, eq_comm, shortened_mono_eq_self_iff]
      exact (or_iff_left fun hab => ha (hab.mpr hb)).symm
    · rw [if_neg ha, if_neg hb]
      exact iff_of_true rfl (.inr (iff_of_false ha hb))

/-- A tracked right hand tells the query times that the left hands leave apart. -/
theorem PopInput.AgreeOn.queryTime_between_of_handed (h : a.AgreeOn 1 b)
    (htracked : trackedInternal a.outlist a.predictor 1 = true)
    (hhanded : (a.pop X hmdTimeNano out).handed 1 = (b.pop X hmdTimeNano out').handed 1) :
    (a.between X hmdTimeNano out).queryTime = (b.between X hmdTimeNano out').queryTime := by
  -- `shortened` is injective, so equal times handed on come from equal times left
  have htracked' : trackedInternal b.outlist b.predictor 1 = true := by
    rw [trackedInternal, ← h.outlist.valid, ← h.predictor]
    exact htracked
  rw [handed_right X hmdTimeNano a out htracked, handed_right X hmdTimeNano b out' htracked',
    ← h.outlist.hand, ← h.outlist.latestTimestamp] at hhanded
  by_cases hqa : (a.between X hmdTimeNano out).queryTime ≠ 0
  · by_cases hqb : (b.between X hmdTimeNano out').queryTime ≠ 0
    · rw [if_pos hqa, if_pos hqb, Option.some_inj] at hhanded
      exact shortened_injective _ _ hhanded
    · rw [if_pos hqa, if_neg hqb] at hhanded
      exact absurd hhanded (by simp)
  · by_cases hqb : (b.between X hmdTimeNano out').queryTime ≠ 0
    · rw [if_neg hqa, if_pos hqb] at hhanded
      exact absurd hhanded (by simp)
    · rw [not_not.mp hqa, not_not.mp hqb]

/-- **When a hand does not depend on the other.**  The left hand never does; the right
hand does not exactly when it is not tracked, or asked for the time of the packet, or
when the two left hands shorten the query time alike. -/
theorem sameHand_iff (X : Externals K) (hmdTimeNano : ℕ) (i : Fin 2) (a b : PopInput fmt K)
    (h : a.AgreeOn i b) : SameHand X hmdTimeNano i a b ↔
      i = 0 ∨ trackedInternal a.outlist a.predictor 1 = false ∨
        (queryTimeOf hmdTimeNano : K) = a.outlist.latestTimestamp ∨
        (a.LeftShortens hmdTimeNano ↔ b.LeftShortens hmdTimeNano) := by
  match i, h with
  | 0, h => exact iff_of_true h.sameHand_left (.inl rfl)
  | 1, h =>
    constructor
    · intro hsame
      by_cases htracked : trackedInternal a.outlist a.predictor 1 = true
      · have hhanded := (hsame (fun _ => .zero) (fun _ => .zero) rfl).1
        -- the time handed to the predictor of the right hand tells what the left one left
        have hq := h.queryTime_between_of_handed htracked hhanded
        exact .inr (.inr (h.queryTime_between_eq_iff.mp hq))
      · exact .inr (.inl (Bool.eq_false_of_not_eq_true htracked))
    · intro hcond out out' hout
      -- an untracked hand is only described; a tracked one needs the same query time
      have hsame : SameAt 1 (a.pop X hmdTimeNano out) (b.pop X hmdTimeNano out') := by
        obtain hi | htracked | hq := hcond
        · exact absurd hi (by decide)
        · exact h.sameAt_right_of_not_tracked hout htracked
        · exact h.sameAt_right hout (h.queryTime_between_eq_iff.mpr hq)
      exact ⟨hsame.handed, hsame.outHandArray⟩

end

/-! ### A left hand that changes the right one -/

/-- A right hand that is tracked, next to a left hand of the given validity that one camera
sees, in a packet of the time 1 s. -/
def besideMonoHand (lhandValid : Bool) : PopInput .xreal ℚ where
  outlist :=
    { rawTimestamp := 1000000000
      handDataPacket :=
        { timestamp := 1000000
          value :=
            { hand := fun i => ⟨fun _ => 0, fun _ => 1, .openHand, if i = 0 then .mono else .bino⟩
              valid := fun i => if i = 0 then lhandValid else true } } }
  predictor := fun _ =>
    ⟨Filter.init.startTracking 1 ⟨0, 0⟩, .init 1 (KFPredictor.centerParams .flora)⟩
  postFilter := .init .flora

/-- Stands for the code from elsewhere; the points of each of these hands are all in one place. -/
noncomputable def stillExternals : Externals ℚ where
  eigen := ⟨fun _ => 0, id, fun _ _ => 1, fun _ _ => 1, fun _ => ⟨0, 0, 0, 1⟩⟩
  solve := fun A B => A⁻¹ * B
  constraintHandV2 := fun points _ => points
  pastEnd := fun _ => 0

theorem besideMonoHand_agreeOn :
    (besideMonoHand true).AgreeOn 1 (besideMonoHand false) where
  outlist := ⟨rfl, rfl, rfl, rfl⟩
  predictor := rfl
  postFilter := rfl

/-- At 2 s the predictor of the right hand is asked for 1.25 s when the left hand is valid,
else for 2 s. -/
theorem right_hand_depends_on_left :
    (besideMonoHand true).AgreeOn 1 (besideMonoHand false) ∧
      ¬ SameHand stillExternals 2000000000 1 (besideMonoHand true) (besideMonoHand false) := by
  refine ⟨besideMonoHand_agreeOn, fun hsame => ?_⟩
  have hhanded := (hsame (fun _ => .zero) (fun _ => .zero) rfl).1
  have hq := besideMonoHand_agreeOn.queryTime_between_of_handed rfl hhanded
  obtain hlatest | hiff := besideMonoHand_agreeOn.queryTime_between_eq_iff.mp hq
  · norm_num [queryTimeOf, OutList.latestTimestamp, besideMonoHand] at hlatest
  · have hleft : (besideMonoHand true).LeftShortens 2000000000 :=
      ⟨⟨rfl, by norm_num [queryTimeOf]⟩, rfl⟩
    have hvalid := (hiff.mp hleft).1.1
    exact absurd hvalid (by decide)

/-- Next to another left hand that one camera sees: it grabs, a metre away, and is tracked since
half a second. -/
def besideGrabbingHand : PopInput .xreal ℚ :=
  { besideMonoHand true with
    outlist :=
      { (besideMonoHand true).outlist with
        handDataPacket :=
          { timestamp := 1000000
            value :=
              { hand := fun i =>
                  if i = 0 then ⟨fun _ => ![0, 0, 1], fun _ => 1, .grab, .mono⟩
                  else (besideMonoHand true).outlist.handDataPacket.value.hand i
                valid := fun _ => true } } }
    predictor := fun i =>
      if i = 0 then
        ⟨Filter.init.startTracking (1 / 2) ⟨![0, 0, 1], 0⟩,
          .init 1 (KFPredictor.centerParams .flora)⟩
      else (besideMonoHand true).predictor i }

theorem besideGrabbingHand_agreeOn : (besideMonoHand true).AgreeOn 1 besideGrabbingHand where
  outlist := ⟨rfl, rfl, rfl, rfl⟩
  predictor := rfl
  postFilter := rfl

/-- Next to two left hands that both shorten the query time the right hand is the same. -/
theorem sameHand_iff_two_mono :
    (besideMonoHand true).outlist.handDataPacket.value.hand 0 ≠
        besideGrabbingHand.outlist.handDataPacket.value.hand 0 ∧
      SameHand stillExternals 2000000000 1 (besideMonoHand true) besideGrabbingHand := by
  have hfirst : (besideMonoHand true).LeftShortens 2000000000 :=
    ⟨⟨rfl, by norm_num [queryTimeOf]⟩, rfl⟩
  have hsecond : besideGrabbingHand.LeftShortens 2000000000 :=
    ⟨⟨rfl, by norm_num [queryTimeOf]⟩, rfl⟩
  refine ⟨fun heq => ?_, (sameHand_iff stillExternals 2000000000 1 _ _
    besideGrabbingHand_agreeOn).mpr (.inr (.inr (.inr (iff_of_true hfirst hsecond))))⟩
  exact absurd (congrArg SingleHandData.gesture heq) (by decide)

end HandPose

/-
`HandFilterCalculator`, between the calculators that find the hands in space and the
predictors.

It reads the root of each valid hand in space, and the root of its keypoints in each camera
that sees the hand.  A read outside a list is `none`.

* `GlobalPredictorService` — the predictors, and the data of the last frame;
* `FilterState.process` — `HandFilterCalculator::Process`;
* `step` — a frame from its boxes to the end of the graph, or what other calculators do with
  the predictors between two frames;
* `process_inRange_iff` — when all reads of a frame are within the lists.
-/
import HandTracking.Library.Transition
import HandTracking.NetHandKpt3D
import HandTracking.Predictor
import Mathlib.Data.Fintype.Prod

namespace Calculator

open Camera HandPose Predictor

instance : Fintype Hand := ⟨{.left, .right}, fun h => by cases h <;> decide⟩

instance : Fintype Cam := ⟨{.lcam, .rcam}, fun c => by cases c <;> decide⟩

/-- The results of all of a family of reads. -/
def readFamily {ι V : Type} [Fintype ι] (read : ι → Option V) : Option (ι → V) :=
  if h : ∀ i, (read i).isSome then some fun i => (read i).get (h i) else none

section

variable {ι V : Type} [Fintype ι] {read : ι → Option V}

theorem isSome_readFamily : (readFamily read).isSome ↔ ∀ i, (read i).isSome := by
  unfold readFamily
  by_cases h : ∀ i, (read i).isSome
  · rw [dif_pos h]
    exact iff_of_true rfl h
  · rw [dif_neg h]
    exact iff_of_false Bool.false_ne_true h

theorem readFamily_eq_some {v : ι → V} (h : readFamily read = some v) (i : ι) :
    read i = some (v i) := by
  have hall := isSome_readFamily.mp (Option.isSome_of_eq_some h)
  rw [readFamily, dif_pos hall] at h
  obtain rfl := Option.some.inj h
  exact (Option.some_get (hall i)).symm

theorem isSome_bind_some {W : Type} (r : Option V) (g : V → W) :
    (r.bind fun v => some (g v)).isSome = r.isSome := by
  cases r <;> rfl

end

variable {K : Type} [Field K] [LinearOrder K]

/-- `kKeypointRootId`, of the points in space. -/
def keypointRootId : ℕ := 21

/-- `kKeypoint2dRootId` -/
def keypoint2dRootId : ℕ := 9

/-- `GlobalPredictorService`: the predictors and the last results, which all calculators share. -/
structure GlobalPredictorService (K : Type) [Field K] [LinearOrder K] where
  predictor : Hand → KFPredictor K
  bboxPredictor : Hand × Cam → Filter 2 K
  lastKpt2dPixel : Kpt2dInternal K
  lastKpt3dWorld : HandsData K

/-- The service, and the member of the calculator. -/
structure FilterState (K : Type) [Field K] [LinearOrder K] where
  service : GlobalPredictorService K
  lastTimestamp : K

/-- What the calculators get from their configuration and from libraries. -/
structure FilterConfig (K : Type) [Field K] [LinearOrder K] where
  landmark : Landmark.LandmarkConfig K
  solver : Mono.TinySolver K
  liftNet : Lift.LiftNet
  solve3d : Predictor.Solver 3 K
  solve2d : Predictor.Solver 2 K

/-! ### HandFilterCalculator -/

namespace FilterState

variable (cfg : FilterConfig K) (s : FilterState K) (timestamp : K) (kpt3dWorld : HandsData K)
  (kpt2dData : Kpt2dInternal K)

/-- The velocity between two positions of a root. -/
def measureV {d : ℕ} (root rootPre : Fin d → K) : Fin d → K :=
  fun i => (root i - rootPre i) / (timestamp - s.lastTimestamp)

/-- The tracking of a hand in space. -/
def trackHand (hand : Hand) : Option (SingleHandData K × KFPredictor K) :=
  let predictor := s.service.predictor hand
  let data := kpt3dWorld.hand hand
  if kpt3dWorld.valid hand = false then
    some (data, (predictor.call cfg.solve3d (.stopTracking, false)).1)
  else if predictor.filter.isTracked = false then do
    let root ← data.kpt3d[keypointRootId]?
    some (data, (predictor.call cfg.solve3d (.startTracking timestamp ⟨root, 0⟩, false)).1)
  else if s.service.lastKpt3dWorld.valid hand then do
    let root ← data.kpt3d[keypointRootId]?
    let rootPre ← (s.service.lastKpt3dWorld.hand hand).kpt3d[keypointRootId]?
    let measureV := s.measureV timestamp root rootPre
    some ({ data with rootV := measureV },
      (predictor.call cfg.solve3d (.trackWithCorrect timestamp ⟨root, measureV⟩, false)).1)
  else some (data, predictor)

/-- The tracking of a hand in the image of a camera. -/
def trackBbox (i : Hand × Cam) : Option (Filter 2 K) :=
  let predictor := s.service.bboxPredictor i
  let kpt2d := (kpt3dWorld.hand i.1).kpt2d i.2
  if (kpt2dData.seen i.1 i.2).valid = false ∨ kpt3dWorld.valid i.1 = false then
    some predictor.stopTracking
  else if predictor.isTracked = false then do
    let root ← kpt2d[keypoint2dRootId]?
    some (predictor.startTracking timestamp ⟨root, 0⟩)
  else if (s.service.lastKpt2dPixel.seen i.1 i.2).valid then do
    let root ← kpt2d[keypoint2dRootId]?
    let rootPre ← ((s.service.lastKpt3dWorld.hand i.1).kpt2d i.2)[keypoint2dRootId]?
    let measureV := s.measureV timestamp root rootPre
    some (predictor.trackWithCorrect cfg.solve2d timestamp ⟨root, measureV⟩).1
  else some predictor

/-- `HandFilterCalculator::Process`, and `set_last_kpt3d_world` of the calculator after it. -/
def process : Option (FilterState K × HandsData K) :=
  match readFamily (s.trackHand cfg timestamp kpt3dWorld),
    readFamily (s.trackBbox cfg timestamp kpt3dWorld kpt2dData) with
  | some hands, some bboxes =>
    let output : HandsData K := { hand := fun i => (hands i).1, valid := kpt3dWorld.valid }
    some ({ service :=
              { predictor := fun i => (hands i).2
                bboxPredictor := bboxes
                lastKpt2dPixel := kpt2dData
                lastKpt3dWorld := output }
            lastTimestamp := timestamp }, output)
  | _, _ => none

end FilterState

/-! ### Frames -/

/-- The calculators that make points in space. -/
inductive Producer where
  | monoHandKpt3D
  | monoHandKpt3DNimbleFlora
  | handLift
  deriving DecidableEq, Repr

/-- The boxes of a frame and what the networks return for it, with the calculator behind the
data of each hand. -/
structure Frame (K : Type) where
  bbox : Landmark.DetOutputInternal K
  landmarkNet : Landmark.Net K
  timestamp : K
  transfer : Mono.Transfer K
  handScale : K
  monoNet : MonoHandNimbleInputs K → Option (NetOutputs K)
  liftNet : Lift.LiftNetInputs K → Option (NetOutputs K)
  producer : Hand → Producer
  /-- whether `BlockHardRulesCalculator` leaves a valid hand valid -/
  passes : Hand → Bool
  /-- `transfer_from_cvL_to_world` for one point -/
  toWorld : Vec3 K → Vec3 K

namespace FilterConfig

variable (cfg : FilterConfig K)

/-- The same for `MonoHandKpt3DCalculator`. -/
def mono : Mono.MonoConfig K :=
  ⟨cfg.landmark.fns, cfg.landmark.lib, cfg.landmark.eigen, cfg.solver, cfg.landmark.camModel⟩

/-- The same for the calculators with networks. -/
def kpt3d : Kpt3dConfig K :=
  ⟨cfg.landmark.fns, cfg.landmark.lib, cfg.landmark.eigen, cfg.landmark.camModel, cfg.liftNet⟩

end FilterConfig

namespace Frame

variable (cfg : FilterConfig K) (f : Frame K) (pre : HandsData K)

/-- The output of `HandLandmarkCalculator`. -/
def kpt2d : Kpt2dInternal K :=
  Landmark.kpt2dInternal (Landmark.handLandmark cfg.landmark f.landmarkNet f.bbox)

/-- What `MonoHandKpt3DCalculator` reads of the frame. -/
def monoFrame : Mono.MonoFrame K := ⟨f.kpt2d cfg, f.transfer, pre, f.handScale⟩

/-- What the calculators with networks read of it. -/
def netFrame : NetFrame K := ⟨f.kpt2d cfg, f.transfer, pre, f.timestamp, f.monoNet, f.liftNet⟩

/-- What one of the three calculators puts out. -/
def produced : Producer → HandsData K
  | .monoHandKpt3D => Mono.monoHandKpt3D cfg.mono (f.monoFrame cfg pre)
  | .monoHandKpt3DNimbleFlora => monoHandKpt3DNimbleFlora cfg.kpt3d (f.netFrame cfg pre)
  | .handLift => handLift cfg.kpt3d (f.netFrame cfg pre)

/-- The input of the filter. -/
def kpt3dWorld : HandsData K where
  hand hand :=
    let data := (f.produced cfg pre (f.producer hand)).hand hand
    { data with kpt3d := data.kpt3d.map f.toWorld }
  valid hand := (f.produced cfg pre (f.producer hand)).valid hand && f.passes hand

/-- The data of the hand comes from the solver, which found it in the image of the camera on
the other side. -/
def OnOtherSide (hand : Hand) : Prop :=
  f.producer hand = .monoHandKpt3D ∧ f.passes hand ∧
    (f.monoFrame cfg pre).SolvedIn cfg.mono hand (otherCam hand)

/-- A hand that is valid in space and in a camera has keypoints in the image of the camera. -/
def KeypointsPresent : Prop :=
  ∀ hand cam, (f.kpt3dWorld cfg pre).valid hand → ((f.kpt2d cfg).seen hand cam).valid →
    ((f.kpt3dWorld cfg pre).hand hand).kpt2d cam ≠ []

end Frame

/-- A frame, or what is done with the predictors between two frames. -/
inductive Event (K : Type) where
  | frame (f : Frame K)
  | trackOnlyPred (hand : Hand) (targetTs : K) (updateState withSmooth : Bool)
  | trackOnlyPred2d (i : Hand × Cam) (targetTs : K) (updateState : Bool)
  | stopTracking

/-- One event: a frame, which publishes its hands, or a call to the predictors between two frames.
-/
def step (cfg : FilterConfig K) (s : FilterState K) :
    Event K → Option (FilterState K × List (HandsData K))
  | .frame f =>
    (s.process cfg f.timestamp (f.kpt3dWorld cfg s.service.lastKpt3dWorld) (f.kpt2d cfg)).map
      fun result => (result.1, [result.2])
  | .trackOnlyPred hand targetTs updateState withSmooth =>
    let predictor := ((s.service.predictor hand).call cfg.solve3d
      (.trackOnlyPred targetTs updateState, withSmooth)).1
    some ({ s with service := { s.service with
      predictor := Function.update s.service.predictor hand predictor } }, [])
  | .trackOnlyPred2d i targetTs updateState =>
    let predictor := ((s.service.bboxPredictor i).trackOnlyPred cfg.solve2d
      KFPredictor2d.intervals targetTs updateState).1
    some ({ s with service := { s.service with
      bboxPredictor := Function.update s.service.bboxPredictor i predictor } }, [])
  | .stopTracking =>
    some ({ s with service := { s.service with
      predictor := fun hand =>
        ((s.service.predictor hand).call cfg.solve3d (.stopTracking, false)).1
      bboxPredictor := fun i => (s.service.bboxPredictor i).stopTracking } }, [])

/-- The service before its first frame; the last time stamp is not set. -/
def FilterState.init [IsStrictOrderedRing K] (glassesType : GlassesType) (lastTimestamp : K) :
    FilterState K where
  service :=
    { predictor := fun _ => .init (KFPredictor.centerParams glassesType)
      bboxPredictor := fun _ => .init
      lastKpt2dPixel := .init
      lastKpt3dWorld := .init }
  lastTimestamp := lastTimestamp

/-! ### What the calculators put out -/

section

variable (cfg : FilterConfig K) {f : Frame K} {pre : HandsData K} {hand : Hand}

theorem length_kpt (cam : Cam) : ((f.kpt2d cfg).seen hand cam).kpt.length = 21 :=
  Landmark.length_kpt_handLandmark cfg.landmark f.landmarkNet f.bbox hand cam

theorem length_kpt3d_produced {producer : Producer}
    (h : (f.produced cfg pre producer).valid hand) :
    ((f.produced cfg pre producer).hand hand).kpt3d.length = 26 := by
  cases producer with
  | monoHandKpt3D =>
    by_cases hother : (f.monoFrame cfg pre).SolvedIn cfg.mono hand (otherCam hand)
    · exact (Mono.monoHand_of_solvedIn_other hother).2.1
    · exact (Mono.monoHand_valid h hother).1
  | monoHandKpt3DNimbleFlora => exact (nimbleHand_valid cfg.kpt3d h).1
  | handLift => exact (liftHand_valid cfg.kpt3d h).1

/-- Every calculator sets the keypoints of the images in which a hand is seen, but for a hand
that the solver finds on the other side. -/
theorem length_kpt2d_produced {producer : Producer}
    (h : (f.produced cfg pre producer).valid hand)
    (hother : ¬ (producer = .monoHandKpt3D ∧
      (f.monoFrame cfg pre).SolvedIn cfg.mono hand (otherCam hand)))
    {cam : Cam} (hseen : ((f.kpt2d cfg).seen hand cam).valid) :
    keypoint2dRootId < (((f.produced cfg pre producer).hand hand).kpt2d cam).length := by
  -- a mono hand is seen by one camera, which is its own unless it was solved on the other side.
  have hown : ¬ ((f.kpt2d cfg).seen hand (otherCam hand)).valid → cam = ownCam hand := by
    intro hnot
    rcases eq_ownCam_or_otherCam hand cam with heq | heq
    · exact heq
    · rw [heq] at hseen
      exact absurd hseen hnot
  cases producer with
  | monoHandKpt3D =>
    obtain ⟨-, hnot, hlength⟩ := Mono.monoHand_valid h fun hsolved => hother ⟨rfl, hsolved⟩
    obtain rfl := hown hnot
    exact (by decide : 9 < 21).trans_eq (hlength.trans (length_kpt cfg _)).symm
  | monoHandKpt3DNimbleFlora =>
    obtain ⟨-, hnot, hlength⟩ := nimbleHand_valid cfg.kpt3d h
    obtain rfl := hown hnot
    exact (by decide : 9 < 21).trans_eq (hlength.trans (length_kpt cfg _)).symm
  | handLift =>
    rcases (liftHand_valid cfg.kpt3d h).2 cam with hlength | hlength
    · exact (by decide : 9 < 26).trans_eq hlength.symm
    · exact (by decide : 9 < 21).trans_eq (hlength.trans (length_kpt cfg _)).symm

theorem kpt3dWorld_of_onOtherSide (h : f.OnOtherSide cfg pre hand) :
    (f.kpt3dWorld cfg pre).valid hand ∧ ((f.kpt2d cfg).seen hand (otherCam hand)).valid ∧
      ((f.kpt3dWorld cfg pre).hand hand).kpt2d (otherCam hand) = [] := by
  obtain ⟨hproducer, hpasses, hsolved⟩ := h
  obtain ⟨hvalid, -, hkpt2d⟩ := Mono.monoHand_of_solvedIn_other hsolved
  refine ⟨?_, (Mono.seen_of_solvedIn hsolved).1, ?_⟩
  · simp only [Frame.kpt3dWorld, hproducer, hpasses, Bool.and_true]
    exact hvalid
  · simp only [Frame.kpt3dWorld, hproducer]
    exact congrFun hkpt2d _

theorem length_kpt3d_kpt3dWorld (h : (f.kpt3dWorld cfg pre).valid hand) :
    keypointRootId < ((f.kpt3dWorld cfg pre).hand hand).kpt3d.length := by
  have hvalid := (Bool.and_eq_true_iff.mp h).1
  show keypointRootId < (List.map _ _).length
  rw [List.length_map, length_kpt3d_produced cfg hvalid]
  decide

theorem length_kpt2d_kpt3dWorld (h : (f.kpt3dWorld cfg pre).valid hand)
    (hother : ¬ f.OnOtherSide cfg pre hand) {cam : Cam}
    (hseen : ((f.kpt2d cfg).seen hand cam).valid) :
    keypoint2dRootId < (((f.kpt3dWorld cfg pre).hand hand).kpt2d cam).length := by
  obtain ⟨hvalid, hpasses⟩ := Bool.and_eq_true_iff.mp h
  exact length_kpt2d_produced cfg hvalid (fun hmono => hother ⟨hmono.1, hpasses, hmono.2⟩) hseen

/-- The one hand without keypoints. -/
theorem keypointsPresent_iff :
    f.KeypointsPresent cfg pre ↔ ∀ hand, ¬ f.OnOtherSide cfg pre hand := by
  constructor
  · intro hpresent hand hother
    obtain ⟨hvalid, hseen, hempty⟩ := kpt3dWorld_of_onOtherSide cfg hother
    exact hpresent hand _ hvalid hseen hempty
  · intro h hand cam hvalid hseen hempty
    have hlength := length_kpt2d_kpt3dWorld cfg hvalid (h hand) hseen
    rw [hempty] at hlength
    exact absurd hlength (Nat.not_lt_zero _)

end

/-! ### The reads of the filter -/

/-- Hands that were valid have their points; and a hand tracked in an image was seen in it and
has its keypoints there. -/
structure FilterState.Inv (s : FilterState K) : Prop where
  valid : ∀ hand, s.service.lastKpt3dWorld.valid hand →
    keypointRootId < (s.service.lastKpt3dWorld.hand hand).kpt3d.length
  tracked : ∀ i, (s.service.bboxPredictor i).isTracked →
    (s.service.lastKpt2dPixel.seen i.1 i.2).valid ∧
      keypoint2dRootId < ((s.service.lastKpt3dWorld.hand i.1).kpt2d i.2).length

section

variable (cfg : FilterConfig K) {s : FilterState K} {timestamp : K} {kpt3dWorld : HandsData K}
  {kpt2dData : Kpt2dInternal K}

theorem isSome_trackHand (hs : s.Inv) {hand : Hand} (h : kpt3dWorld.valid hand →
    keypointRootId < (kpt3dWorld.hand hand).kpt3d.length) :
    (s.trackHand cfg timestamp kpt3dWorld hand).isSome := by
  unfold FilterState.trackHand
  dsimp only
  split_ifs with hvalid htracked hpre
  · rfl
  · have hroot := h (Bool.not_eq_false _ ▸ hvalid)
    simp [List.getElem?_eq_getElem hroot]
  · have hroot := h (Bool.not_eq_false _ ▸ hvalid)
    simp [List.getElem?_eq_getElem hroot, List.getElem?_eq_getElem (hs.valid hand hpre)]
  · rfl

/-- The read that can fail is that of the keypoints of the frame. -/
theorem isSome_trackBbox_iff (hs : s.Inv) {i : Hand × Cam} :
    (s.trackBbox cfg timestamp kpt3dWorld kpt2dData i).isSome ↔
      ((kpt2dData.seen i.1 i.2).valid → kpt3dWorld.valid i.1 →
        keypoint2dRootId < ((kpt3dWorld.hand i.1).kpt2d i.2).length) := by
  unfold FilterState.trackBbox
  by_cases hskip : (kpt2dData.seen i.1 i.2).valid = false ∨ kpt3dWorld.valid i.1 = false
  · simp only [if_pos hskip]
    refine iff_of_true rfl fun hseen hvalid => ?_
    rcases hskip with hfalse | hfalse
    · exact absurd hseen (hfalse ▸ Bool.false_ne_true)
    · exact absurd hvalid (hfalse ▸ Bool.false_ne_true)
  · simp only [if_neg hskip]
    push Not at hskip
    simp only [Bool.ne_false_iff.mp hskip.1, Bool.ne_false_iff.mp hskip.2, true_implies]
    by_cases htracked : (s.service.bboxPredictor i).isTracked = false
    · simp [if_pos htracked, isSome_bind_some]
    · obtain ⟨hpre, hlength⟩ := hs.tracked i (Bool.ne_false_iff.mp htracked)
      simp [if_neg htracked, if_pos hpre, List.getElem?_eq_getElem hlength, isSome_bind_some]

/-- Of the data only the velocity changes. -/
theorem trackHand_eq {hand : Hand} {result : SingleHandData K × KFPredictor K}
    (h : s.trackHand cfg timestamp kpt3dWorld hand = some result) :
    ∃ v, result.1 = { kpt3dWorld.hand hand with rootV := v } := by
  unfold FilterState.trackHand at h
  dsimp only at h
  split_ifs at h with hvalid htracked hpre
  · obtain rfl := Option.some.inj h
    exact ⟨_, rfl⟩
  · obtain ⟨root, -, hresult⟩ := Option.bind_eq_some_iff.mp h
    obtain rfl := Option.some.inj hresult
    exact ⟨_, rfl⟩
  · obtain ⟨root, -, hrest⟩ := Option.bind_eq_some_iff.mp h
    obtain ⟨rootPre, -, hresult⟩ := Option.bind_eq_some_iff.mp hrest
    obtain rfl := Option.some.inj hresult
    exact ⟨_, rfl⟩
  · obtain rfl := Option.some.inj h
    exact ⟨_, rfl⟩

theorem trackHand_data {hand : Hand} {result : SingleHandData K × KFPredictor K}
    (h : s.trackHand cfg timestamp kpt3dWorld hand = some result) :
    result.1.kpt3d = (kpt3dWorld.hand hand).kpt3d ∧
      result.1.kpt2d = (kpt3dWorld.hand hand).kpt2d := by
  obtain ⟨v, hresult⟩ := trackHand_eq cfg h
  rw [hresult]
  exact ⟨rfl, rfl⟩

/-- A predictor is only tracked in an image in which the hand is seen. -/
theorem trackBbox_tracked (hs : s.Inv) {i : Hand × Cam} {predictor : Filter 2 K}
    (h : s.trackBbox cfg timestamp kpt3dWorld kpt2dData i = some predictor)
    (htracked : predictor.isTracked) :
    (kpt2dData.seen i.1 i.2).valid ∧
      keypoint2dRootId < ((kpt3dWorld.hand i.1).kpt2d i.2).length := by
  by_cases hskip : (kpt2dData.seen i.1 i.2).valid = false ∨ kpt3dWorld.valid i.1 = false
  · rw [FilterState.trackBbox, if_pos hskip] at h
    obtain rfl := Option.some.inj h
    exact absurd htracked Bool.false_ne_true
  · push Not at hskip
    have hseen := Bool.ne_false_iff.mp hskip.1
    have hvalid := Bool.ne_false_iff.mp hskip.2
    exact ⟨hseen, (isSome_trackBbox_iff cfg hs).mp (Option.isSome_of_eq_some h) hseen hvalid⟩

theorem isSome_process_iff (hs : s.Inv) (h : ∀ hand, kpt3dWorld.valid hand →
    keypointRootId < (kpt3dWorld.hand hand).kpt3d.length) :
    (s.process cfg timestamp kpt3dWorld kpt2dData).isSome ↔
      ∀ hand cam, (kpt2dData.seen hand cam).valid → kpt3dWorld.valid hand →
        keypoint2dRootId < ((kpt3dWorld.hand hand).kpt2d cam).length := by
  -- the reads of the hands cannot fail, so the frame fails exactly where a read of a
  -- bounding box does.
  have hhands : (readFamily (s.trackHand cfg timestamp kpt3dWorld)).isSome :=
    isSome_readFamily.mpr fun hand => isSome_trackHand cfg hs (h hand)
  obtain ⟨hands, hhands⟩ := Option.isSome_iff_exists.mp hhands
  have hbboxes : (readFamily (s.trackBbox cfg timestamp kpt3dWorld kpt2dData)).isSome ↔ _ :=
    isSome_readFamily.trans (forall_congr' fun i => isSome_trackBbox_iff cfg hs)
  rw [Prod.forall] at hbboxes
  rw [← hbboxes, FilterState.process, hhands]
  cases readFamily (s.trackBbox cfg timestamp kpt3dWorld kpt2dData) with
  | none => rfl
  | some bboxes => rfl

/-- What a frame does to each hand and each box. -/
theorem process_eq_some {s' : FilterState K} {output : HandsData K}
    (h : s.process cfg timestamp kpt3dWorld kpt2dData = some (s', output)) :
    (s'.service.lastKpt3dWorld = output ∧ s'.service.lastKpt2dPixel = kpt2dData ∧
      output.valid = kpt3dWorld.valid) ∧
    (∀ hand, s.trackHand cfg timestamp kpt3dWorld hand =
      some (output.hand hand, s'.service.predictor hand)) ∧
    ∀ i, s.trackBbox cfg timestamp kpt3dWorld kpt2dData i = some (s'.service.bboxPredictor i) := by
  unfold FilterState.process at h
  split at h
  case h_2 => cases h
  case h_1 hands bboxes hhands hbboxes =>
    obtain ⟨rfl, rfl⟩ := Prod.mk.inj (Option.some.inj h)
    exact ⟨⟨rfl, rfl, rfl⟩, readFamily_eq_some hhands, readFamily_eq_some hbboxes⟩

theorem inv_process (hs : s.Inv) (h : ∀ hand, kpt3dWorld.valid hand →
    keypointRootId < (kpt3dWorld.hand hand).kpt3d.length)
    {s' : FilterState K} {output : HandsData K}
    (hprocess : s.process cfg timestamp kpt3dWorld kpt2dData = some (s', output)) : s'.Inv := by
  obtain ⟨⟨hworld, hpixel, houtput⟩, hhands, hbboxes⟩ := process_eq_some cfg hprocess
  have hdata := fun hand => trackHand_data cfg (hhands hand)
  constructor
  · intro hand hvalid
    rw [hworld, houtput] at hvalid
    rw [hworld, (hdata hand).1]
    exact h hand hvalid
  · intro i htracked
    rw [hworld, hpixel, (hdata i.1).2]
    exact trackBbox_tracked cfg hs (hbboxes i) htracked

end

/-! ### Runs -/

section

variable (cfg : FilterConfig K)

theorem isTracked_trackOnlyPred (f : Filter 2 K) (targetTs : K) (updateState : Bool) :
    (f.trackOnlyPred cfg.solve2d KFPredictor2d.intervals targetTs updateState).1.isTracked =
      f.isTracked := by
  cases updateState <;> rfl

theorem inv_step {s s' : FilterState K} {e : Event K} {output : List (HandsData K)} (hs : s.Inv)
    (h : step cfg s e = some (s', output)) : s'.Inv := by
  cases e with
  | frame f =>
    obtain ⟨result, hprocess, hresult⟩ := Option.map_eq_some_iff.mp h
    obtain ⟨rfl, -⟩ := Prod.mk.inj hresult
    exact inv_process cfg hs (fun hand => length_kpt3d_kpt3dWorld cfg) hprocess
  | trackOnlyPred hand targetTs updateState withSmooth =>
    obtain ⟨rfl, -⟩ := Prod.mk.inj (Option.some.inj h)
    exact ⟨hs.valid, hs.tracked⟩
  | trackOnlyPred2d i targetTs updateState =>
    obtain ⟨rfl, -⟩ := Prod.mk.inj (Option.some.inj h)
    refine ⟨hs.valid, fun j htracked => hs.tracked j ?_⟩
    dsimp only at htracked
    by_cases hij : j = i
    · subst hij
      rwa [Function.update_self, isTracked_trackOnlyPred] at htracked
    · rwa [Function.update_of_ne hij] at htracked
  | stopTracking =>
    obtain ⟨rfl, -⟩ := Prod.mk.inj (Option.some.inj h)
    exact ⟨hs.valid, fun i htracked => absurd htracked Bool.false_ne_true⟩

theorem isSome_frame_iff {s : FilterState K} (hs : s.Inv) (f : Frame K) :
    (step cfg s (.frame f)).isSome ↔
      ∀ hand, ¬ f.OnOtherSide cfg s.service.lastKpt3dWorld hand := by
  rw [step, Option.isSome_map, isSome_process_iff cfg hs fun hand => length_kpt3d_kpt3dWorld cfg]
  constructor
  · intro h hand hother
    obtain ⟨hvalid, hseen, hempty⟩ := kpt3dWorld_of_onOtherSide cfg hother
    have hlength := h hand _ hseen hvalid
    rw [hempty] at hlength
    exact absurd hlength (Nat.not_lt_zero _)
  · intro h hand cam hseen hvalid
    exact length_kpt2d_kpt3dWorld cfg hvalid (h hand) hseen

variable [IsStrictOrderedRing K]

theorem inv_init (glassesType : GlassesType) (lastTimestamp : K) :
    (FilterState.init glassesType lastTimestamp).Inv :=
  ⟨fun _ hvalid => absurd hvalid Bool.false_ne_true,
    fun _ htracked => absurd htracked Bool.false_ne_true⟩

theorem inv_of_reachable {glassesType : GlassesType} {lastTimestamp : K} {s : FilterState K}
    (hs : Transition.Reachable (step cfg) (fun _ _ => True)
      (.init glassesType lastTimestamp) s) : s.Inv :=
  hs.invariant (inv_init glassesType lastTimestamp)
    fun _ _ _ _ hinv _ hstep => inv_step cfg hinv hstep

/-- In every state of a run, and for every frame. -/
theorem process_inRange_iff (glassesType : GlassesType) (lastTimestamp : K) {s : FilterState K}
    (hs : Transition.Reachable (step cfg) (fun _ _ => True)
      (.init glassesType lastTimestamp) s) (f : Frame K) :
    (f.KeypointsPresent cfg s.service.lastKpt3dWorld ↔
      ∀ hand, ¬ f.OnOtherSide cfg s.service.lastKpt3dWorld hand) ∧
    ((step cfg s (.frame f)).isSome ↔
      ∀ hand, ¬ f.OnOtherSide cfg s.service.lastKpt3dWorld hand) :=
  ⟨keypointsPresent_iff cfg, isSome_frame_iff cfg (inv_of_reachable cfg hs) f⟩

end

/-! ### A left hand in the right image -/

/-- A configuration in which the crops are shifted, with the first start of the solver as its
result. -/
noncomputable def rightImageConfig : FilterConfig ℝ where
  landmark := Landmark.shiftedConfig
  solver := Mono.startSolver
  liftNet := .gmlpLiftNimble
  -- the first frame of a hand is not corrected
  solve3d _ B := B
  solve2d _ B := B

/-- The keypoints are at the principal point of the virtual camera, with the depths of a
stretched hand. -/
noncomputable def rightImageFrame : Frame ℝ where
  bbox :=
    { valid := fun hand cam => decide (hand = .left ∧ cam = .rcam)
      rect := fun _ _ => ⟨0, -1, 2, 2⟩ }
  landmarkNet _ := some ⟨fun _ _ => ![15 / 2, 15 / 2], [Mono.axisDepths], [], fun _ => []⟩
  timestamp := 1
  transfer := ⟨id, id⟩
  handScale := 1
  monoNet _ := none
  liftNet _ := none
  producer _ := .monoHandKpt3D
  passes _ := true
  toWorld := id

theorem process_inRange_iff_rightImage :
    (rightImageFrame.KeypointsPresent rightImageConfig .init ↔
      ∀ hand, ¬ rightImageFrame.OnOtherSide rightImageConfig .init hand) ∧
    ((step rightImageConfig (.init .flora 0) (.frame rightImageFrame)).isSome ↔
      ∀ hand, ¬ rightImageFrame.OnOtherSide rightImageConfig .init hand) :=
  process_inRange_iff rightImageConfig .flora 0 .refl rightImageFrame

theorem rightImageFrame_onOtherSide :
    rightImageFrame.OnOtherSide rightImageConfig .init .left := by
  have hcost : (0 : ℝ) < Mono.converageCostTh := by norm_num [Mono.converageCostTh]
  exact ⟨rfl, rfl, _, rfl, Mono.isSome_virtualKpt3d_iff.mpr hcost⟩

/-- The filter starts to track the hand in the right image, where it has no keypoints. -/
theorem rightImage_outOfRange :
    ¬ ∀ (s : FilterState ℝ) (f : Frame ℝ),
      Transition.Reachable (step rightImageConfig) (fun _ _ => True) (.init .flora 0) s →
      f.KeypointsPresent rightImageConfig s.service.lastKpt3dWorld ∧
        (step rightImageConfig s (.frame f)).isSome := by
  intro h
  have hsome := (h (.init .flora 0) rightImageFrame .refl).2
  exact (isSome_frame_iff rightImageConfig (inv_init .flora 0) rightImageFrame).mp hsome .left
    rightImageFrame_onOtherSide

end Calculator

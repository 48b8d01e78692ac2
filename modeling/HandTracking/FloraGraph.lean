/-
The graph of the flora glasses on the DSP: hands of one camera and hands of both.

The switch drops what the other camera sees of a hand that its own camera does not see.  A hand that
is left goes through one of two networks, and `BlockHardRulesCalculator` puts their streams together
before the filter publishes the hands.  The last published hands are read all over the next frame.

* `monoBinoSwitch` — `MonoBinoSwitchCalculator`;
* `FloraState.step` — a frame, from its boxes to the published hands;
* `step_order` — the order of the two streams makes no difference;
* `flora_inRange` — no frame of a run reads outside of a list;
* `flora_published_iff` — which hands are published, and `flora_seen` — which cameras saw them.
-/
import HandTracking.BlockHardRules
import HandTracking.DetectBoxSmoothing
import HandTracking.HandFilter

namespace Block

open Calculator HandPose

/-! ### The streams of BlockHardRulesCalculator -/

section

variable {K : Type} [Field K] [LinearOrder K] {opts : BlockOptions K} {pre input : HandsData K}
  {s s' : Updators × HandsData K} {inputs inputs' : List (HandsData K)} {hand other : Hand}

/-- The updator of a hand, and its output. -/
def ofHand (s : Updators × HandsData K) (hand : Hand) : HandState × SingleHandData K × Bool :=
  (s.1 hand, s.2.hand hand, s.2.valid hand)

omit [Field K] [LinearOrder K] in
theorem eq_of_ofHand (h : ∀ hand, ofHand s hand = ofHand s' hand) : s = s' := by
  obtain ⟨updators, data, valid⟩ := s
  obtain ⟨updators', data', valid'⟩ := s'
  have hstate : updators = updators' := funext fun hand => (Prod.mk.inj (h hand)).1
  have hdata : data = data' := funext fun hand => (Prod.mk.inj (Prod.mk.inj (h hand)).2).1
  have hvalid : valid = valid' := funext fun hand => (Prod.mk.inj (Prod.mk.inj (h hand)).2).2
  rw [hstate, hdata, hvalid]

/-- What is made of a valid hand. -/
def judged (opts : BlockOptions K) (pre input : HandsData K) (hand : Hand) :
    HandState × SingleHandData K × Bool :=
  let r := opts.check (.ofValid (pre.valid hand)) (input.hand hand)
  (r.1, input.hand hand, r.2)

/-- What an input makes of a hand. -/
def taken (opts : BlockOptions K) (pre : HandsData K) (hand : Hand)
    (v : HandState × SingleHandData K × Bool) (input : HandsData K) :
    HandState × SingleHandData K × Bool :=
  if input.valid hand then judged opts pre input hand else v

theorem ofHand_processHand_self :
    ofHand (opts.processHand pre input s hand) hand =
      taken opts pre hand (ofHand s hand) input := by
  rw [taken, BlockOptions.processHand]
  by_cases hvalid : input.valid hand = true
  · rw [if_pos hvalid, if_pos hvalid]
    simp [ofHand, judged]
  · rw [if_neg hvalid, if_neg hvalid]

theorem ofHand_processHand_of_ne (hne : hand ≠ other) :
    ofHand (opts.processHand pre input s other) hand = ofHand s hand := by
  rw [BlockOptions.processHand]
  by_cases hvalid : input.valid other = true
  · rw [if_pos hvalid]
    simp [ofHand, Function.update_of_ne hne]
  · rw [if_neg hvalid]

/-- Each hand is only touched once for an input. -/
theorem ofHand_input :
    ofHand ([Hand.left, .right].foldl (opts.processHand pre input) s) hand =
      taken opts pre hand (ofHand s hand) input := by
  have hleft : Hand.left ≠ .right := Hand.noConfusion
  show ofHand (opts.processHand pre input (opts.processHand pre input s .left) .right) hand = _
  cases hand with
  | left => rw [ofHand_processHand_of_ne hleft, ofHand_processHand_self]
  | right => rw [ofHand_processHand_self, ofHand_processHand_of_ne hleft.symm]

theorem ofHand_process (updators : Updators) (pre : HandsData K) (inputs : List (HandsData K))
    (hand : Hand) :
    ofHand (opts.process updators pre inputs) hand =
      inputs.foldl (taken opts pre hand) (updators hand, .init, false) := by
  have hall : ∀ s : Updators × HandsData K,
      ofHand (inputs.foldl
        (fun s input => [Hand.left, .right].foldl (opts.processHand pre input) s) s) hand =
        inputs.foldl (taken opts pre hand) (ofHand s hand) := by
    induction inputs with
    | nil => exact fun _ => rfl
    | cons input inputs ih =>
      intro s
      exact (ih _).trans (congrArg (inputs.foldl (taken opts pre hand)) ofHand_input)
  exact hall (updators, .init)

/-- The last input with the hand decides. -/
theorem foldl_taken (opts : BlockOptions K) (pre : HandsData K) (hand : Hand)
    (inputs : List (HandsData K)) (v : HandState × SingleHandData K × Bool) :
    ((∀ input ∈ inputs, input.valid hand = false) ∧ inputs.foldl (taken opts pre hand) v = v) ∨
      ∃ input ∈ inputs, input.valid hand = true ∧
        inputs.foldl (taken opts pre hand) v = judged opts pre input hand := by
  induction inputs generalizing v with
  | nil => exact .inl ⟨List.forall_mem_nil _, rfl⟩
  | cons input inputs ih =>
    rw [List.foldl_cons]
    rcases ih (taken opts pre hand v input) with ⟨hnone, heq⟩ | ⟨last, hlast, hvalid, heq⟩
    · rw [heq, taken]
      by_cases hvalid : input.valid hand = true
      · exact .inr ⟨input, List.mem_cons_self, hvalid, if_pos hvalid⟩
      · refine .inl ⟨List.forall_mem_cons.mpr ⟨Bool.not_eq_true _ ▸ hvalid, hnone⟩, ?_⟩
        rw [if_neg hvalid]
    · exact .inr ⟨last, List.mem_cons_of_mem _ hlast, hvalid, heq⟩

/-- No hand is valid in two inputs. -/
def Exclusive (inputs : List (HandsData K)) : Prop :=
  ∀ a ∈ inputs, ∀ b ∈ inputs, ∀ hand, a.valid hand = true → b.valid hand = true → a = b

/-- Then their order makes no difference. -/
theorem process_perm (hperm : inputs.Perm inputs') (hexclusive : Exclusive inputs)
    (updators : Updators) (pre : HandsData K) :
    opts.process updators pre inputs = opts.process updators pre inputs' := by
  refine eq_of_ofHand fun hand => ?_
  rw [ofHand_process, ofHand_process]
  refine hperm.foldl_eq' (fun a ha b hb v => ?_) _
  rw [taken, taken, taken, taken]
  by_cases hvalid : a.valid hand = true
  · by_cases hvalid' : b.valid hand = true
    · rw [hexclusive a ha b hb hand hvalid hvalid']
    · rw [if_pos hvalid, if_neg hvalid', if_neg hvalid', if_pos hvalid]
  · rw [if_neg hvalid, if_neg hvalid]

theorem valid_process (hinput : input ∈ inputs) (hexclusive : Exclusive inputs)
    (hvalid : input.valid hand = true) (updators : Updators) :
    (opts.process updators pre inputs).2.valid hand =
        opts.passes (pre.valid hand) (input.hand hand) ∧
      (opts.process updators pre inputs).2.hand hand = input.hand hand := by
  have hhand : ofHand (opts.process updators pre inputs) hand = judged opts pre input hand := by
    rw [ofHand_process]
    rcases foldl_taken opts pre hand inputs (updators hand, .init, false) with
      ⟨hnone, -⟩ | ⟨last, hlast, hvalid', heq⟩
    · rw [hnone input hinput] at hvalid
      cases hvalid
    · rw [heq, hexclusive last hlast input hinput hand hvalid' hvalid]
  obtain ⟨-, hdata, hpasses⟩ : _ ∧ _ ∧ _ :=
    ⟨(Prod.mk.inj hhand).1, (Prod.mk.inj (Prod.mk.inj hhand).2).1,
      (Prod.mk.inj (Prod.mk.inj hhand).2).2⟩
  exact ⟨hpasses, hdata⟩

theorem exists_input_of_valid {updators : Updators}
    (h : (opts.process updators pre inputs).2.valid hand = true) :
    ∃ input ∈ inputs, input.valid hand = true := by
  have hhand : (opts.process updators pre inputs).2.valid hand =
      (inputs.foldl (taken opts pre hand) (updators hand, .init, false)).2.2 :=
    congrArg (·.2.2) (ofHand_process updators pre inputs hand)
  rcases foldl_taken opts pre hand inputs (updators hand, .init, false) with
    ⟨-, heq⟩ | ⟨input, hinput, hvalid, -⟩
  · rw [heq] at hhand
    exact absurd (hhand.symm.trans h) Bool.false_ne_true
  · exact ⟨input, hinput, hvalid⟩

end

end Block

namespace Landmark

open Calculator

/-! ### The landmarks of both images -/

section

variable {K : Type} [Field K] [LinearOrder K] {cfg : LandmarkConfig K} {pclAble : Bool}
  {net : Net K} {bbox : DetOutputInternal K} {hand : Hand} {cam : Cam}

theorem length_kpt_handLandmarkBatch :
    (handLandmarkBatch cfg pclAble net bbox hand cam).seen.kpt.length = kAlgoKeypointNum := by
  unfold handLandmarkBatch
  by_cases hboth : bbox.valid hand .lcam = true ∧ bbox.valid hand .rcam = true
  · rw [if_pos hboth]
    unfold processBatchHand
    dsimp only
    generalize net _ = result
    cases result with
    | none => exact CamKeypoints.length_kpt_init
    | some result => exact List.length_ofFn
  · rw [if_neg hboth]
    by_cases hsingle : bbox.valid hand (ownCam hand) = true ∧ cam = ownCam hand
    · rw [if_pos hsingle]
      unfold processSingleHandRaw
      dsimp only
      generalize net _ = result
      cases result with
      | none => exact CamKeypoints.length_kpt_init
      | some result => exact List.length_ofFn
    · rw [if_neg hsingle]
      exact CamKeypoints.length_kpt_init

/-- The network sees both images at once, so both get their keypoints or none does. -/
theorem valid_processBatchHand (cropMethod : CropMethod) (rect : Cam → DetectRect K)
    (cam cam' : Cam) :
    (processBatchHand cfg net hand cropMethod rect cam).seen.valid =
      (processBatchHand cfg net hand cropMethod rect cam').seen.valid := by
  unfold processBatchHand
  dsimp only
  generalize net _ = result
  cases result <;> rfl

theorem valid_processSingleHandRaw {rect : DetectRect K}
    (h : (processSingleHandRaw cfg net hand cam rect).seen.valid = true) :
    rect.w * rect.h < monoValidBboxArea := by
  unfold processSingleHandRaw at h
  dsimp only at h
  generalize net _ = result at h
  cases result with
  | none => exact absurd h Bool.false_ne_true
  | some result => exact of_decide_eq_true h

/-- A hand that is seen by its camera and not by the other one had no box there, and a small one
in the image of its camera. -/
theorem seen_by_own (hown : (handLandmarkBatch cfg pclAble net bbox hand (ownCam hand)).seen.valid)
    (hother : ¬ (handLandmarkBatch cfg pclAble net bbox hand (otherCam hand)).seen.valid) :
    bbox.valid hand (ownCam hand) = true ∧ bbox.valid hand (otherCam hand) = false ∧
      (bbox.rect hand (ownCam hand)).w * (bbox.rect hand (ownCam hand)).h <
        monoValidBboxArea := by
  unfold handLandmarkBatch at hown hother
  by_cases hboth : bbox.valid hand .lcam = true ∧ bbox.valid hand .rcam = true
  · rw [if_pos hboth] at hown hother
    rw [valid_processBatchHand _ _ _ (otherCam hand)] at hown
    exact absurd hown hother
  · rw [if_neg hboth] at hown
    by_cases hsingle : bbox.valid hand (ownCam hand) = true ∧ ownCam hand = ownCam hand
    · rw [if_pos hsingle] at hown
      refine ⟨hsingle.1, ?_, valid_processSingleHandRaw hown⟩
      have hbox := hsingle.1
      cases hand with
      | left => exact Bool.eq_false_iff.mpr fun h => hboth ⟨hbox, h⟩
      | right => exact Bool.eq_false_iff.mpr fun h => hboth ⟨h, hbox⟩
    · rw [if_neg hsingle] at hown
      exact absurd hown Bool.false_ne_true

theorem seen_by_other
    (hother : (handLandmarkBatch cfg pclAble net bbox hand (otherCam hand)).seen.valid)
    (cam : Cam) :
    bbox.valid hand cam = true := by
  unfold handLandmarkBatch at hother
  by_cases hboth : bbox.valid hand .lcam = true ∧ bbox.valid hand .rcam = true
  · cases cam with
    | lcam => exact hboth.1
    | rcam => exact hboth.2
  · rw [if_neg hboth, if_neg fun h => otherCam_ne_ownCam hand h.2] at hother
    exact absurd hother Bool.false_ne_true

end

end Landmark

namespace Calculator

open Block Camera HandPose Landmark Predictor

/-! ### MonoBinoSwitchCalculator -/

/-- `mode_` after `Open`. -/
def switchMode (option : String) : String := if option = "" then "BINO" else option

/-- What is left of what the cameras see of a hand. -/
def switchValid (mode : String) (hand : Hand) (valid : Cam → Bool) : Cam → Bool :=
  if mode = "MONO" then Function.update valid (otherCam hand) false
  else if mode = "BINO" then fun _ => valid .lcam && valid .rcam
  else if mode = "SWITCH" then
    if valid (ownCam hand) = false then Function.update valid (otherCam hand) false else valid
  else valid

/-- `MonoBinoSwitchCalculator::Process` -/
def monoBinoSwitch {K : Type} (mode : String) (bbox : DetOutputInternal K) : DetOutputInternal K :=
  { bbox with valid := fun hand => switchValid mode hand (bbox.valid hand) }

theorem switchValid_own (hand : Hand) (valid : Cam → Bool) :
    switchValid "SWITCH" hand valid (ownCam hand) = valid (ownCam hand) := by
  rw [switchValid, if_neg (by decide), if_neg (by decide), if_pos rfl]
  split_ifs
  · exact Function.update_of_ne (otherCam_ne_ownCam hand).symm _ _
  · rfl

theorem switchValid_other (hand : Hand) (valid : Cam → Bool) :
    switchValid "SWITCH" hand valid (otherCam hand) =
      (valid (ownCam hand) && valid (otherCam hand)) := by
  rw [switchValid, if_neg (by decide), if_neg (by decide), if_pos rfl]
  cases hown : valid (ownCam hand) with
  | false =>
    rw [if_pos rfl]
    exact Function.update_self ..
  | true =>
    rw [if_neg Bool.noConfusion]
    rfl

/-! ### The graph -/

section Graph

variable {K : Type} [Field K] [LinearOrder K]

/-- The boxes of a frame, and what the networks and the services return for it. -/
structure FloraFrame (K : Type) where
  detection : DetOutputInternal K
  landmarkNet : Net K
  timestamp : K
  transfer : Mono.Transfer K
  monoNet : MonoHandNimbleInputs K → Option (NetOutputs K)
  liftNet : Lift.LiftNetInputs K → Option (NetOutputs K)
  /-- `transfer_from_cvL_to_world` for one point -/
  toWorld : Vec3 K → Vec3 K

/-- The streams between the two networks and `BlockHardRulesCalculator`. -/
inductive Kpt3dStream where
  | kpt3dMono
  | kpt3dBino
  deriving DecidableEq, Repr

/-- The members of the calculators, and the services. -/
structure FloraState (K : Type) [Field K] [LinearOrder K] where
  boxes : BoxSmoothing K
  updators : Updators
  filter : FilterState K

/-- The options of `BlockHardRulesCalculator`. -/
def floraOptions : BlockOptions K where
  maxRootDepth := 1
  scoreTh := 725 / 1000
  scoreThWidth := 5 / 100
  rmseTh := 5
  rmseThWidth := 1

/-- `ConvertToWorldCalculator::Process` -/
def convertToWorld {K : Type} (toWorld : Vec3 K → Vec3 K) (data : HandsData K) : HandsData K where
  hand hand :=
    let inputData := data.hand hand
    if data.valid hand then { inputData with kpt3d := inputData.kpt3d.map toWorld } else inputData
  valid := data.valid

/-- The calculators with the network `3d_liftnimble`. -/
def FilterConfig.flora (cfg : FilterConfig K) : Kpt3dConfig K :=
  { cfg.kpt3d with liftNet := .gmlpLiftNimble }

namespace FloraState

variable [FloorRing K] (cfg : FilterConfig K) (order : List Kpt3dStream) (s : FloraState K)
  (f : FloraFrame K)

/-- `kpt3d_world_pre` of all calculators. -/
def pre : HandsData K := s.filter.service.lastKpt3dWorld

/-- The boxes behind the switch and the smoothing. -/
def smoothed : BoxSmoothing K × DetOutputInternal K :=
  s.boxes.process ⟨monoBinoSwitch (switchMode "SWITCH") f.detection, s.pre⟩

/-- The keypoints in the images, from the smoothed boxes. -/
def kpt2d : Kpt2dInternal K :=
  kpt2dInternal (handLandmarkBatch cfg.landmark false f.landmarkNet (s.smoothed f).2)

/-- What the calculators for the points in space read of a frame. -/
def netFrame : NetFrame K :=
  ⟨s.kpt2d cfg f, f.transfer, s.pre, f.timestamp, f.monoNet, f.liftNet⟩

/-- One of the two streams into `BlockHardRulesCalculator`. -/
def stream : Kpt3dStream → HandsData K
  | .kpt3dMono => monoHandKpt3DNimbleFlora cfg.flora (s.netFrame cfg f)
  | .kpt3dBino => handLift cfg.flora (s.netFrame cfg f)

/-- The inputs of `BlockHardRulesCalculator`, in the order in which the graph lists them. -/
def inputs : List (HandsData K) := order.map (s.stream cfg f)

/-- The hands that `BlockHardRulesCalculator` lets through. -/
def blocked : Updators × HandsData K :=
  floraOptions.process s.updators s.pre (s.inputs cfg order f)

/-- These hands in the world. -/
def kpt3dWorld : HandsData K := convertToWorld f.toWorld (s.blocked cfg order f).2

end FloraState

/-- A frame, or what is done with the predictors between two frames. -/
inductive FloraEvent (K : Type) where
  | frame (f : FloraFrame K)
  | trackOnlyPred (hand : Hand) (targetTs : K) (updateState withSmooth : Bool)
  | trackOnlyPred2d (i : Hand × Cam) (targetTs : K) (updateState : Bool)
  | stopTracking

namespace FloraState

variable [FloorRing K] (cfg : FilterConfig K) (order : List Kpt3dStream) (s : FloraState K)

/-- What is done with the predictors. -/
def predict (e : Event K) : Option (FloraState K × List (HandsData K)) :=
  (Calculator.step cfg s.filter e).map fun result => ({ s with filter := result.1 }, result.2)

/-- One event; a frame publishes its hands. -/
def step : FloraEvent K → Option (FloraState K × List (HandsData K))
  | .frame f =>
    (s.filter.process cfg f.timestamp (s.kpt3dWorld cfg order f) (s.kpt2d cfg f)).map fun result =>
      (⟨(s.smoothed f).1, (s.blocked cfg order f).1, result.1⟩, [result.2])
  | .trackOnlyPred hand targetTs updateState withSmooth =>
    s.predict cfg (.trackOnlyPred hand targetTs updateState withSmooth)
  | .trackOnlyPred2d i targetTs updateState =>
    s.predict cfg (.trackOnlyPred2d i targetTs updateState)
  | .stopTracking => s.predict cfg .stopTracking

/-- The calculators after `Open`. -/
def init [IsStrictOrderedRing K] (updators : Updators) (lastTimestamp : K) : FloraState K :=
  ⟨.init, updators, .init .flora lastTimestamp⟩

end FloraState

/-! ### One network for a hand -/

section

variable {cfg : Kpt3dConfig K} {nf : NetFrame K} {hand : Hand}

/-- What a network has found for a hand. -/
def Found (cfg : Kpt3dConfig K) (nf : NetFrame K) (hand : Hand) (data : SingleHandData K) : Prop :=
  (∃ virtualCamera outputs, nf.nimbleOutputs hand = some (virtualCamera, outputs) ∧
    data = nf.nimbleSolved cfg hand virtualCamera outputs) ∨
  ∃ outputs, nf.liftOutputs cfg hand = some outputs ∧ data = nf.liftSolved cfg hand outputs

theorem nimbleHand_eq_iff {data : SingleHandData K} :
    nf.nimbleHand cfg hand = (data, true) ↔
      ∃ virtualCamera outputs, nf.nimbleOutputs hand = some (virtualCamera, outputs) ∧
        data = nf.nimbleSolved cfg hand virtualCamera outputs := by
  unfold NetFrame.nimbleHand
  cases hresult : nf.nimbleOutputs hand with
  | none => simp
  | some result =>
    obtain ⟨virtualCamera, outputs⟩ := result
    simp [eq_comm]

theorem liftHand_eq_iff {data : SingleHandData K} :
    nf.liftHand cfg hand = (data, true) ↔
      ∃ outputs, nf.liftOutputs cfg hand = some outputs ∧
        data = nf.liftSolved cfg hand outputs := by
  unfold NetFrame.liftHand
  cases nf.liftOutputs cfg hand with
  | none => simp
  | some outputs => simp [eq_comm]

omit [Field K] [LinearOrder K] in
theorem seen_of_nimbleOutputs {virtualCamera : PerspectiveCameraModel K} {outputs : NetOutputs K}
    (h : nf.nimbleOutputs hand = some (virtualCamera, outputs)) :
    (nf.kpt2d.seen hand (ownCam hand)).valid = true ∧
      ¬ (nf.kpt2d.seen hand (otherCam hand)).valid = true := by
  obtain ⟨v, hcamera, -⟩ := Option.bind_eq_some_iff.mp h
  unfold NetFrame.nimbleCamera at hcamera
  split_ifs at hcamera with hseen
  exact hseen

theorem seen_of_liftOutputs {outputs : NetOutputs K}
    (h : nf.liftOutputs cfg hand = some outputs) (cam : Cam) :
    (nf.kpt2d.seen hand cam).valid = true := by
  unfold NetFrame.liftOutputs at h
  split_ifs at h with hseen
  cases cam with
  | lcam => exact hseen.1
  | rcam => exact hseen.2

omit [LinearOrder K] in
/-- The smoothing leaves the source and the error as they are. -/
theorem smoothHand_keeps (transfer : Mono.Transfer K) (pre : SingleHandData K) (smoothFrames : ℤ)
    (data : SingleHandData K) :
    (smoothHand transfer pre smoothFrames data).source = data.source ∧
      (smoothHand transfer pre smoothFrames data).reprojRmse = data.reprojRmse := by
  unfold smoothHand
  split_ifs <;> exact ⟨rfl, rfl⟩

/-- A hand of one camera comes without an error. -/
theorem nimbleSolved_source (virtualCamera : PerspectiveCameraModel K) (outputs : NetOutputs K) :
    (nf.nimbleSolved cfg hand virtualCamera outputs).source = .mono ∧
      (nf.nimbleSolved cfg hand virtualCamera outputs).reprojRmse = 0 :=
  smoothHand_keeps ..

theorem liftSolved_source (outputs : NetOutputs K) :
    (nf.liftSolved cfg hand outputs).source = .bino :=
  (smoothHand_keeps ..).1

/-- Near enough, and good enough if both cameras saw it. -/
def Shown (before : Bool) (data : SingleHandData K) : Prop :=
  rootPoint data 2 ≤ 1 ∧ (data.source = .mono ∨
    7 / 10 ≤ data.score ∧ (before = true ∨ 3 / 4 < data.score) ∨
    -5 / 100 < rootPoint data 1 ∧ 6 / 10 < data.score)

/-- The rule for the error does not block any hand of one camera. -/
theorem passes_of_found [IsStrictOrderedRing K] {before : Bool} {data : SingleHandData K}
    (h : Found cfg nf hand data) :
    (floraOptions (K := K)).passes before data = true ↔ Shown before data := by
  rw [passes_iff, Shown]
  refine and_congr_right fun _ => ?_
  rcases h with ⟨virtualCamera, outputs, -, rfl⟩ | ⟨outputs, -, rfl⟩
  · obtain ⟨hsource, hrmse⟩ : (nf.nimbleSolved cfg hand virtualCamera outputs).source = .mono ∧
        (nf.nimbleSolved cfg hand virtualCamera outputs).reprojRmse = 0 :=
      nimbleSolved_source virtualCamera outputs
    simp only [BlockOptions.Holds, BlockOptions.Convinces, hsource, hrmse, floraOptions,
      reduceCtorEq, false_and, or_false, true_or, iff_true]
    constructor
    · norm_num
    · exact .inr (by norm_num)
  · have hsource : (nf.liftSolved cfg hand outputs).source = .bino := liftSolved_source outputs
    have hlow : (725 / 1000 - 5 / 100 / 2 : K) = 7 / 10 := by norm_num
    have hhigh : (725 / 1000 + 5 / 100 / 2 : K) = 3 / 4 := by norm_num
    have hrescued : (7 / 10 - 1 / 10 : K) = 6 / 10 := by norm_num
    simp only [BlockOptions.Holds, BlockOptions.Convinces, BlockOptions.Rescued, hsource,
      floraOptions, hlow, hhigh, hrescued, reduceCtorEq, true_and, false_or]

end

/-! ### One frame -/

namespace FloraState

variable [FloorRing K] {cfg : FilterConfig K} {order order' : List Kpt3dStream} {s : FloraState K}
  {f : FloraFrame K} {hand : Hand}

theorem found_iff {data : SingleHandData K} :
    Found cfg.flora (s.netFrame cfg f) hand data ↔
      ∃ t, (s.stream cfg f t).valid hand = true ∧ (s.stream cfg f t).hand hand = data := by
  rw [Found, ← nimbleHand_eq_iff, ← liftHand_eq_iff]
  constructor
  · rintro (h | h)
    · exact ⟨.kpt3dMono, (Prod.ext_iff.mp h).2, (Prod.ext_iff.mp h).1⟩
    · exact ⟨.kpt3dBino, (Prod.ext_iff.mp h).2, (Prod.ext_iff.mp h).1⟩
  · rintro ⟨t, hvalid, hdata⟩
    cases t with
    | kpt3dMono => exact .inl (Prod.ext hdata hvalid)
    | kpt3dBino => exact .inr (Prod.ext hdata hvalid)

/-- One network needs the other camera, and one must not have it. -/
theorem stream_unique {t t' : Kpt3dStream} (h : (s.stream cfg f t).valid hand = true)
    (h' : (s.stream cfg f t').valid hand = true) : t = t' := by
  have hne : ∀ {data data' : SingleHandData K},
      (s.netFrame cfg f).nimbleHand cfg.flora hand = (data, true) →
        (s.netFrame cfg f).liftHand cfg.flora hand = (data', true) → False := by
    intro data data' hmono hbino
    obtain ⟨v, outputs, hnimble, -⟩ := nimbleHand_eq_iff.mp hmono
    obtain ⟨outputs', hlift, -⟩ := liftHand_eq_iff.mp hbino
    exact (seen_of_nimbleOutputs hnimble).2 (seen_of_liftOutputs hlift _)
  cases t with
  | kpt3dMono =>
    cases t' with
    | kpt3dMono => rfl
    | kpt3dBino => exact (hne (Prod.ext rfl h) (Prod.ext rfl h')).elim
  | kpt3dBino =>
    cases t' with
    | kpt3dMono => exact (hne (Prod.ext rfl h') (Prod.ext rfl h)).elim
    | kpt3dBino => rfl

theorem inputs_exclusive : Exclusive (s.inputs cfg order f) := by
  intro a ha b hb hand hvalid hvalid'
  obtain ⟨t, -, rfl⟩ := List.mem_map.mp ha
  obtain ⟨t', -, rfl⟩ := List.mem_map.mp hb
  rw [stream_unique hvalid hvalid']

theorem blocked_order (horder : order.Perm order') :
    s.blocked cfg order f = s.blocked cfg order' f :=
  process_perm (horder.map _) inputs_exclusive _ _

theorem found_of_blocked (h : (s.blocked cfg order f).2.valid hand = true) :
    Found cfg.flora (s.netFrame cfg f) hand ((s.blocked cfg order f).2.hand hand) := by
  obtain ⟨input, hinput, hvalid⟩ := exists_input_of_valid h
  obtain ⟨t, -, rfl⟩ := List.mem_map.mp hinput
  rw [blocked, (valid_process hinput inputs_exclusive hvalid _).2]
  exact found_iff.mpr ⟨t, hvalid, rfl⟩

/-- What `BlockHardRulesCalculator` lets pass. -/
theorem blocked_of_found [IsStrictOrderedRing K] (hall : ∀ t, t ∈ order) {data : SingleHandData K}
    (hfound : Found cfg.flora (s.netFrame cfg f) hand data) :
    ((s.blocked cfg order f).2.valid hand = true ↔ Shown (s.pre.valid hand) data) ∧
      (s.blocked cfg order f).2.hand hand = data := by
  obtain ⟨t, hvalid, hdata⟩ := found_iff.mp hfound
  have hinput : s.stream cfg f t ∈ s.inputs cfg order f := List.mem_map_of_mem (hall t)
  obtain ⟨hpasses, hhand⟩ : (s.blocked cfg order f).2.valid hand =
        floraOptions.passes (s.pre.valid hand) ((s.stream cfg f t).hand hand) ∧
      (s.blocked cfg order f).2.hand hand = (s.stream cfg f t).hand hand :=
    valid_process hinput inputs_exclusive hvalid s.updators
  rw [hdata] at hpasses hhand
  exact ⟨by rw [hpasses, passes_of_found hfound], hhand⟩

/-! ### The reads of a frame -/

theorem length_kpt3d_found {data : SingleHandData K}
    (h : Found cfg.flora (s.netFrame cfg f) hand data) : data.kpt3d.length = 26 := by
  rcases h with ⟨virtualCamera, outputs, -, rfl⟩ | ⟨outputs, -, rfl⟩
  · exact length_kpt3d_nimbleSolved cfg.flora virtualCamera outputs
  · exact length_kpt3d_liftSolved cfg.flora outputs

theorem length_kpt_kpt2d (cam : Cam) : ((s.kpt2d cfg f).seen hand cam).kpt.length = 21 :=
  length_kpt_handLandmarkBatch

/-- A hand has its keypoints in every image in which it is seen. -/
theorem length_kpt2d_found {data : SingleHandData K}
    (h : Found cfg.flora (s.netFrame cfg f) hand data) {cam : Cam}
    (hseen : ((s.kpt2d cfg f).seen hand cam).valid = true) :
    keypoint2dRootId < (data.kpt2d cam).length := by
  rcases h with hmono | hbino
  · have hhand := nimbleHand_eq_iff.mpr hmono
    obtain ⟨-, hnot, hlength⟩ := nimbleHand_valid cfg.flora (Prod.ext_iff.mp hhand).2
    obtain rfl : cam = ownCam hand := by
      rcases eq_ownCam_or_otherCam hand cam with heq | rfl
      · exact heq
      · exact absurd hseen hnot
    rw [hhand] at hlength
    exact (by decide : 9 < 21).trans_eq (hlength.trans (length_kpt_kpt2d _)).symm
  · have hhand := liftHand_eq_iff.mpr hbino
    have hlengths := (liftHand_valid cfg.flora (Prod.ext_iff.mp hhand).2).2 cam
    rw [hhand] at hlengths
    rcases hlengths with hlength | hlength
    · exact (by decide : 9 < 26).trans_eq hlength.symm
    · exact (by decide : 9 < 21).trans_eq (hlength.trans (length_kpt_kpt2d _)).symm

theorem valid_smoothed (s : FloraState K) (f : FloraFrame K) (hand : Hand) :
    (s.smoothed f).2.valid hand = switchValid "SWITCH" hand (f.detection.valid hand) := rfl

theorem hand_kpt3dWorld (h : (s.kpt3dWorld cfg order f).valid hand = true) :
    (s.kpt3dWorld cfg order f).hand hand =
      { (s.blocked cfg order f).2.hand hand with
        kpt3d := ((s.blocked cfg order f).2.hand hand).kpt3d.map f.toWorld } :=
  if_pos h

variable (cfg order f) in
/-- A frame reads inside of its lists, and what it publishes is what passed the rules. -/
theorem step_frame (hs : s.filter.Inv) :
    ∃ s' out, s.step cfg order (.frame f) = some (s', [out]) ∧ s'.filter.Inv ∧
      out.valid = (s.blocked cfg order f).2.valid ∧ ∀ hand, out.valid hand = true →
        ∃ v, out.hand hand = { (s.blocked cfg order f).2.hand hand with
          kpt3d := ((s.blocked cfg order f).2.hand hand).kpt3d.map f.toWorld, rootV := v } := by
  have hkpt3d : ∀ hand, (s.kpt3dWorld cfg order f).valid hand = true →
      keypointRootId < ((s.kpt3dWorld cfg order f).hand hand).kpt3d.length := by
    intro hand hvalid
    rw [hand_kpt3dWorld hvalid]
    show keypointRootId < (List.map _ _).length
    rw [List.length_map, length_kpt3d_found (found_of_blocked hvalid)]
    decide
  have hkpt2d : ∀ hand cam, ((s.kpt2d cfg f).seen hand cam).valid = true →
      (s.kpt3dWorld cfg order f).valid hand = true →
        keypoint2dRootId < (((s.kpt3dWorld cfg order f).hand hand).kpt2d cam).length := by
    intro hand cam hseen hvalid
    rw [hand_kpt3dWorld hvalid]
    exact length_kpt2d_found (found_of_blocked hvalid) hseen
  have hsome : (s.filter.process cfg f.timestamp (s.kpt3dWorld cfg order f)
      (s.kpt2d cfg f)).isSome := (isSome_process_iff cfg hs hkpt3d).mpr hkpt2d
  obtain ⟨⟨filter, out⟩, hprocess⟩ := Option.isSome_iff_exists.mp hsome
  obtain ⟨⟨-, -, hvalid⟩, hhands, -⟩ := process_eq_some cfg hprocess
  refine ⟨⟨(s.smoothed f).1, (s.blocked cfg order f).1, filter⟩, out, ?_,
    inv_process cfg hs hkpt3d hprocess, hvalid, fun hand hout => ?_⟩
  · rw [step, hprocess]
    rfl
  · obtain ⟨v, hdata⟩ := trackHand_eq cfg (hhands hand)
    have hworld : (s.kpt3dWorld cfg order f).valid hand = true := hvalid ▸ hout
    rw [hand_kpt3dWorld hworld] at hdata
    exact ⟨v, hdata⟩

/-! ### A left hand that both cameras see -/

/-- The points of an upright hand, half a metre in front of the left camera. -/
noncomputable def uprightHand : List (Vec3 ℝ) :=
  List.ofFn fun i : Fin 26 => ![0, -(i.val / 100), 1 / 2]

/-- The network finds an upright hand, with a high score. -/
noncomputable def bothFrame : FloraFrame ℝ where
  detection := ⟨fun hand _ => decide (hand = .left), fun _ _ => ⟨0, 0, 0, 0⟩⟩
  landmarkNet := zeroNet
  timestamp := 1
  transfer := ⟨id, id⟩
  monoNet _ := none
  liftNet _ := some ⟨uprightHand, 1⟩
  toWorld := id

/-- A start in which no hand is tracked. -/
noncomputable def start : FloraState ℝ := .init (fun _ => .lost) 0

theorem valid_bothFrame (cam : Cam) : (start.smoothed bothFrame).2.valid .left cam = true := by
  rw [valid_smoothed]
  rcases eq_ownCam_or_otherCam .left cam with rfl | rfl
  · rw [switchValid_own]
    rfl
  · rw [switchValid_other]
    rfl

theorem seen_bothFrame (cam : Cam) :
    ((start.kpt2d rightImageConfig bothFrame).seen .left cam).valid = true := by
  show (handLandmarkBatch rightImageConfig.landmark false zeroNet (start.smoothed bothFrame).2 .left
    cam).seen.valid = true
  rw [handLandmarkBatch, if_pos ⟨valid_bothFrame _, valid_bothFrame _⟩]
  rfl

theorem liftOutputs_bothFrame :
    (start.netFrame rightImageConfig bothFrame).liftOutputs rightImageConfig.flora .left =
      some ⟨uprightHand, 1⟩ := by
  have hkpt : ∀ cam, kAlgoKeypointNum ≤
      ((start.kpt2d rightImageConfig bothFrame).seen .left cam).kpt.length :=
    fun cam => (length_kpt_kpt2d cam).ge
  obtain ⟨points, hnet⟩ := NetFrame.exists_liftOutputs rightImageConfig.flora
    (start.netFrame rightImageConfig bothFrame) .left seen_bothFrame hkpt
  exact hnet

/-- The root of the hand stays in its plane. -/
theorem root_bothFrame :
    rootPoint ((start.netFrame rightImageConfig bothFrame).liftSolved rightImageConfig.flora .left
      ⟨uprightHand, 1⟩) 2 = 1 / 2 := by
  show (Joints.convertTo26Points realEigen uprightHand true).getD 0 0 2 = 1 / 2
  set joints : Joints.Joint26 ℝ := Function.update (Joints.ofInput uprightHand) 21
    ((1 / 2 : ℝ) • (Joints.ofInput uprightHand 0 + Joints.ofInput uprightHand 9)) with hjoints
  have hroot : joints 0 2 = 1 / 2 := rfl
  have hmiddle : joints 9 2 = 1 / 2 := rfl
  show Joints.outerRoot realEigen joints 2 = 1 / 2
  have hdepth : (realEigen.normalized (joints 0 - joints 9)) 2 = 0 := by
    show (joints 0 2 - joints 9 2) / _ = 0
    rw [hroot, hmiddle, sub_self, zero_div]
  show joints 9 2 + _ * (realEigen.normalized (joints 0 - joints 9)) 2 = 1 / 2
  rw [hdepth, mul_zero, add_zero, hmiddle]

theorem found_bothFrame :
    Found rightImageConfig.flora (start.netFrame rightImageConfig bothFrame) .left
      ((start.netFrame rightImageConfig bothFrame).liftSolved rightImageConfig.flora .left
        ⟨uprightHand, 1⟩) :=
  .inr ⟨_, liftOutputs_bothFrame, rfl⟩

theorem shown_bothFrame :
    Shown false ((start.netFrame rightImageConfig bothFrame).liftSolved rightImageConfig.flora .left
      ⟨uprightHand, 1⟩) := by
  have hscore : ((start.netFrame rightImageConfig bothFrame).liftSolved rightImageConfig.flora .left
    ⟨uprightHand, 1⟩).score = 1 := rfl
  rw [Shown, root_bothFrame, hscore]
  exact ⟨by norm_num, .inr (.inl ⟨by norm_num, .inr (by norm_num)⟩)⟩

/-- The left hand is published. -/
theorem step_bothFrame : ∃ s' out,
    start.step rightImageConfig [.kpt3dMono, .kpt3dBino] (.frame bothFrame) = some (s', [out]) ∧
      out.valid .left = true := by
  obtain ⟨s', out, hstep, -, hvalid, -⟩ := step_frame rightImageConfig [.kpt3dMono, .kpt3dBino]
    bothFrame (s := start) (Calculator.inv_init .flora 0)
  refine ⟨s', out, hstep, ?_⟩
  rw [hvalid]
  exact (blocked_of_found (fun t => by cases t <;> decide) found_bothFrame).1.mpr shown_bothFrame

/-! ### Runs -/

omit [FloorRing K] in
theorem inv_predict {e : Event K} (hs : s.filter.Inv) {s' : FloraState K} {out : List (HandsData K)}
    (h : s.predict cfg e = some (s', out)) : s'.filter.Inv := by
  obtain ⟨result, hstep, hresult⟩ := Option.map_eq_some_iff.mp h
  obtain ⟨rfl, -⟩ := Prod.mk.inj hresult
  exact Calculator.inv_step cfg hs hstep

theorem inv_step {e : FloraEvent K} (hs : s.filter.Inv) {s' : FloraState K}
    {out : List (HandsData K)} (h : s.step cfg order e = some (s', out)) : s'.filter.Inv := by
  cases e with
  | frame f =>
    obtain ⟨s'', out', hstep, hinv, -⟩ := step_frame cfg order f hs
    rw [hstep] at h
    obtain ⟨rfl, -⟩ := Prod.mk.inj (Option.some.inj h)
    exact hinv
  | trackOnlyPred hand targetTs updateState withSmooth => exact inv_predict hs h
  | trackOnlyPred2d i targetTs updateState => exact inv_predict hs h
  | stopTracking => exact inv_predict hs h

/-- **The order of the two streams makes no difference**, whatever the last world data are. -/
theorem step_order (cfg : FilterConfig K) (horder : order.Perm order') (s : FloraState K)
    (e : FloraEvent K) : s.step cfg order e = s.step cfg order' e := by
  cases e with
  | frame f => rw [step, step, kpt3dWorld, kpt3dWorld, blocked_order horder]
  | trackOnlyPred hand targetTs updateState withSmooth => rfl
  | trackOnlyPred2d i targetTs updateState => rfl
  | stopTracking => rfl

theorem step_order_bothFrame :
    start.step rightImageConfig [.kpt3dMono, .kpt3dBino] (.frame bothFrame) =
      start.step rightImageConfig [.kpt3dBino, .kpt3dMono] (.frame bothFrame) :=
  step_order rightImageConfig (.swap _ _ _) start (.frame bothFrame)

variable [IsStrictOrderedRing K] {updators : Updators} {lastTimestamp : K}

theorem inv_of_reachable (hs : Transition.Reachable (step cfg order) (fun _ _ => True)
    (.init updators lastTimestamp) s) : s.filter.Inv :=
  hs.invariant (I := fun s => s.filter.Inv) (Calculator.inv_init .flora lastTimestamp)
    fun _ _ _ _ hinv _ hstep => inv_step hinv hstep

/-- **The filter never reads outside of a list**: it finds the roots of all hands in every run. -/
theorem flora_inRange (hs : Transition.Reachable (step cfg order) (fun _ _ => True)
    (.init updators lastTimestamp) s) (e : FloraEvent K) : (s.step cfg order e).isSome := by
  cases e with
  | frame f =>
    obtain ⟨s', out, hstep, -⟩ := step_frame cfg order f (inv_of_reachable hs)
    exact Option.isSome_of_eq_some hstep
  | trackOnlyPred hand targetTs updateState withSmooth => rfl
  | trackOnlyPred2d i targetTs updateState => rfl
  | stopTracking => rfl

theorem flora_inRange_bothFrame :
    (start.step rightImageConfig [.kpt3dMono, .kpt3dBino] (.frame bothFrame)).isSome :=
  flora_inRange .refl (.frame bothFrame)

/-- **The published hands** are those that a network finds, if they are near, and good enough when
both cameras saw them; and they are published as they were found, in the world. -/
theorem flora_published_iff (hs : Transition.Reachable (step cfg order) (fun _ _ => True)
    (.init updators lastTimestamp) s) (hall : ∀ t, t ∈ order) (f : FloraFrame K) :
    ∃ s' out, s.step cfg order (.frame f) = some (s', [out]) ∧ ∀ hand,
      (out.valid hand = true ↔ ∃ data, Found cfg.flora (s.netFrame cfg f) hand data ∧
        Shown (s.pre.valid hand) data) ∧
      ∀ data, Found cfg.flora (s.netFrame cfg f) hand data → out.valid hand = true →
        ∃ v, out.hand hand = { data with kpt3d := data.kpt3d.map f.toWorld, rootV := v } := by
  obtain ⟨s', out, hstep, -, hvalid, hhand⟩ := step_frame cfg order f (inv_of_reachable hs)
  refine ⟨s', out, hstep, fun hand => ⟨?_, fun data hfound hout => ?_⟩⟩
  · rw [hvalid]
    constructor
    · intro h
      have hfound := found_of_blocked h
      exact ⟨_, hfound, (blocked_of_found hall hfound).1.mp h⟩
    · rintro ⟨data, hfound, hshown⟩
      exact (blocked_of_found hall hfound).1.mpr hshown
  · obtain ⟨v, hdata⟩ := hhand hand hout
    rw [(blocked_of_found hall hfound).2] at hdata
    exact ⟨v, hdata⟩

theorem flora_published_iff_bothFrame :
    ∃ s' out, start.step rightImageConfig [.kpt3dMono, .kpt3dBino] (.frame bothFrame) =
        some (s', [out]) ∧ ∀ hand,
      (out.valid hand = true ↔ ∃ data,
        Found rightImageConfig.flora (start.netFrame rightImageConfig bothFrame) hand data ∧
          Shown (start.pre.valid hand) data) ∧
      ∀ data, Found rightImageConfig.flora (start.netFrame rightImageConfig bothFrame) hand data →
        out.valid hand = true →
          ∃ v, out.hand hand =
            { data with kpt3d := data.kpt3d.map bothFrame.toWorld, rootV := v } :=
  flora_published_iff .refl (fun t => by cases t <;> decide) bothFrame

/-- **The cameras that saw the published hands**: always the one on the side of the hand, and the
other one exactly if the hand comes from the network for both. -/
theorem flora_seen (hs : Transition.Reachable (step cfg order) (fun _ _ => True)
    (.init updators lastTimestamp) s) {f : FloraFrame K} {s' : FloraState K} {out : HandsData K}
    (hstep : s.step cfg order (.frame f) = some (s', [out])) {hand : Hand}
    (hout : out.valid hand = true) :
    f.detection.valid hand (ownCam hand) = true ∧
      (((out.hand hand).source = .bino ∧ f.detection.valid hand (otherCam hand) = true) ∨
        ((out.hand hand).source = .mono ∧ f.detection.valid hand (otherCam hand) = false ∧
          ((s.smoothed f).2.rect hand (ownCam hand)).w *
            ((s.smoothed f).2.rect hand (ownCam hand)).h < monoValidBboxArea)) := by
  obtain ⟨s'', out', hstep', -, hvalid, hhand⟩ :=
    step_frame cfg order f (inv_of_reachable hs)
  rw [hstep'] at hstep
  obtain ⟨rfl, hlist⟩ := Prod.mk.inj (Option.some.inj hstep)
  obtain rfl := List.singleton_inj.mp hlist
  obtain ⟨v, hdata⟩ := hhand hand hout
  rw [hvalid] at hout
  have hsource : (out'.hand hand).source = ((s.blocked cfg order f).2.hand hand).source := by
    rw [hdata]
  rcases found_of_blocked hout with ⟨virtualCamera, outputs, hnimble, hfound⟩ |
      ⟨outputs, hlift, hfound⟩
  · obtain ⟨hseen, hnot⟩ := seen_of_nimbleOutputs hnimble
    obtain ⟨hown, hother, harea⟩ := seen_by_own hseen hnot
    rw [valid_smoothed, switchValid_own] at hown
    rw [valid_smoothed, switchValid_other, hown, Bool.true_and] at hother
    refine ⟨hown, .inr ⟨?_, hother, harea⟩⟩
    rw [hsource, hfound]
    exact (nimbleSolved_source virtualCamera outputs).1
  · have hboth := seen_by_other (seen_of_liftOutputs hlift (otherCam hand))
    have hown := hboth (ownCam hand)
    have hother := hboth (otherCam hand)
    rw [valid_smoothed, switchValid_own] at hown
    rw [valid_smoothed, switchValid_other, hown, Bool.true_and] at hother
    refine ⟨hown, .inl ⟨?_, hother⟩⟩
    rw [hsource, hfound]
    exact liftSolved_source outputs

theorem flora_seen_bothFrame : ∃ s' out,
    start.step rightImageConfig [.kpt3dMono, .kpt3dBino] (.frame bothFrame) = some (s', [out]) ∧
      out.valid .left = true ∧ bothFrame.detection.valid .left .lcam = true ∧
      (((out.hand .left).source = .bino ∧ bothFrame.detection.valid .left .rcam = true) ∨
        ((out.hand .left).source = .mono ∧ bothFrame.detection.valid .left .rcam = false ∧
          ((start.smoothed bothFrame).2.rect .left .lcam).w *
            ((start.smoothed bothFrame).2.rect .left .lcam).h < monoValidBboxArea)) := by
  obtain ⟨s', out, hstep, hvalid⟩ := step_bothFrame
  exact ⟨s', out, hstep, hvalid, flora_seen .refl hstep hvalid⟩

end FloraState

end Graph

end Calculator

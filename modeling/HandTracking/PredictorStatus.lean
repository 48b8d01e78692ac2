/-
What `HandFilterCalculator::Process` does to the six predictors, whatever their state.

* `Fed` — the calls of a frame: none, a stop, or a start or a correction at the time of the frame
  with the root of one hand in one camera or in space;
* `trackHand_fed`, `trackBbox_fed` — the predictors are fed so, and tracked afterwards exactly
  if the hand is there;
* `predictors_follow` — all six of them in one call.
-/
import HandTracking.HandFilter

namespace Calculator

open Camera Predictor

variable {K : Type} [Field K]

/-- The calls of a frame to one predictor.  `points` are those of the frame, and `pre` those of
the frame before, at `lastTimestamp`. -/
inductive Fed {d : ℕ} (timestamp lastTimestamp : K) (points pre : List (Fin d → K)) (rootId : ℕ) :
    List (Call d K) → Prop
  | nothing : Fed timestamp lastTimestamp points pre rootId []
  | stop : Fed timestamp lastTimestamp points pre rootId [.stopTracking]
  | start {root : Fin d → K} : points[rootId]? = some root →
      Fed timestamp lastTimestamp points pre rootId [.startTracking timestamp ⟨root, 0⟩]
  | correct {root rootPre : Fin d → K} : points[rootId]? = some root →
      pre[rootId]? = some rootPre →
      Fed timestamp lastTimestamp points pre rootId [.trackWithCorrect timestamp
        ⟨root, fun i => (root i - rootPre i) / (timestamp - lastTimestamp)⟩]

variable [LinearOrder K] (cfg : FilterConfig K) {s : FilterState K} {timestamp : K}
  {kpt3dWorld : HandsData K} {kpt2dData : Kpt2dInternal K}

/-- The predictor of a hand in space. -/
theorem trackHand_fed {hand : Hand} {result : SingleHandData K × KFPredictor K}
    (h : s.trackHand cfg timestamp kpt3dWorld hand = some result) :
    result.2.filter.isTracked = kpt3dWorld.valid hand ∧
      ∃ calls, Fed timestamp s.lastTimestamp (kpt3dWorld.hand hand).kpt3d
          (s.service.lastKpt3dWorld.hand hand).kpt3d keypointRootId calls ∧
        result.2 = after (KFPredictor.call cfg.solve3d) (s.service.predictor hand)
          (calls.map fun c => (c, false)) := by
  unfold FilterState.trackHand at h
  dsimp only at h
  split_ifs at h with hvalid htracked hpre
  · obtain rfl := Option.some.inj h
    exact ⟨hvalid.symm, _, .stop, rfl⟩
  · obtain ⟨root, hroot, hresult⟩ := Option.bind_eq_some_iff.mp h
    obtain rfl := Option.some.inj hresult
    exact ⟨(Bool.ne_false_iff.mp hvalid).symm, _, .start hroot, rfl⟩
  · obtain ⟨root, hroot, hrest⟩ := Option.bind_eq_some_iff.mp h
    obtain ⟨rootPre, hrootPre, hresult⟩ := Option.bind_eq_some_iff.mp hrest
    obtain rfl := Option.some.inj hresult
    -- a correction leaves the status
    exact ⟨(Bool.ne_false_iff.mp htracked).trans (Bool.ne_false_iff.mp hvalid).symm, _,
      .correct hroot hrootPre, rfl⟩
  · obtain rfl := Option.some.inj h
    exact ⟨(Bool.ne_false_iff.mp htracked).trans (Bool.ne_false_iff.mp hvalid).symm, _, .nothing,
      rfl⟩

/-- The predictor of a hand in the image of a camera. -/
theorem trackBbox_fed {i : Hand × Cam} {predictor : Filter 2 K}
    (h : s.trackBbox cfg timestamp kpt3dWorld kpt2dData i = some predictor) :
    predictor.isTracked = ((kpt2dData.seen i.1 i.2).valid && kpt3dWorld.valid i.1) ∧
      ∃ calls, Fed timestamp s.lastTimestamp ((kpt3dWorld.hand i.1).kpt2d i.2)
          ((s.service.lastKpt3dWorld.hand i.1).kpt2d i.2) keypoint2dRootId calls ∧
        predictor = after (KFPredictor2d.call cfg.solve2d) (s.service.bboxPredictor i) calls := by
  unfold FilterState.trackBbox at h
  dsimp only at h
  split_ifs at h with hskip htracked hpre
  · obtain rfl := Option.some.inj h
    have hnone : ((kpt2dData.seen i.1 i.2).valid && kpt3dWorld.valid i.1) = false :=
      Bool.and_eq_false_iff.mpr hskip
    exact ⟨hnone.symm, _, .stop, rfl⟩
  all_goals
    push Not at hskip
    have hboth : ((kpt2dData.seen i.1 i.2).valid && kpt3dWorld.valid i.1) = true :=
      Bool.and_eq_true_iff.mpr ⟨Bool.ne_false_iff.mp hskip.1, Bool.ne_false_iff.mp hskip.2⟩
  · obtain ⟨root, hroot, hresult⟩ := Option.bind_eq_some_iff.mp h
    obtain rfl := Option.some.inj hresult
    exact ⟨hboth.symm, _, .start hroot, rfl⟩
  · obtain ⟨root, hroot, hrest⟩ := Option.bind_eq_some_iff.mp h
    obtain ⟨rootPre, hrootPre, hresult⟩ := Option.bind_eq_some_iff.mp hrest
    obtain rfl := Option.some.inj hresult
    exact ⟨(Bool.ne_false_iff.mp htracked).trans hboth.symm, _, .correct hroot hrootPre, rfl⟩
  · obtain rfl := Option.some.inj h
    exact ⟨(Bool.ne_false_iff.mp htracked).trans hboth.symm, _, .nothing, rfl⟩

/-- **All predictors after a call**, from whatever state: each is tracked exactly if its hand is
there, and it is fed what is its own. -/
theorem predictors_follow {s' : FilterState K} {output : HandsData K}
    (h : s.process cfg timestamp kpt3dWorld kpt2dData = some (s', output)) :
    (∀ hand, (s'.service.predictor hand).filter.isTracked = kpt3dWorld.valid hand ∧
      ∃ calls, Fed timestamp s.lastTimestamp (kpt3dWorld.hand hand).kpt3d
          (s.service.lastKpt3dWorld.hand hand).kpt3d keypointRootId calls ∧
        s'.service.predictor hand = after (KFPredictor.call cfg.solve3d)
          (s.service.predictor hand) (calls.map fun c => (c, false))) ∧
    ∀ i, (s'.service.bboxPredictor i).isTracked =
        ((kpt2dData.seen i.1 i.2).valid && kpt3dWorld.valid i.1) ∧
      ∃ calls, Fed timestamp s.lastTimestamp ((kpt3dWorld.hand i.1).kpt2d i.2)
          ((s.service.lastKpt3dWorld.hand i.1).kpt2d i.2) keypoint2dRootId calls ∧
        s'.service.bboxPredictor i =
          after (KFPredictor2d.call cfg.solve2d) (s.service.bboxPredictor i) calls := by
  obtain ⟨-, hhands, hbboxes⟩ := process_eq_some cfg h
  exact ⟨fun hand => trackHand_fed cfg (hhands hand), fun i => trackBbox_fed cfg (hbboxes i)⟩

/-! ### A left hand that the left camera sees -/

/-- A left hand at the origin, and no right one. -/
noncomputable def leftHandWorld : HandsData ℝ where
  hand _ := { SingleHandData.init with
    kpt3d := List.replicate 26 0
    kpt2d := fun _ => List.replicate 21 0 }
  valid hand := decide (hand = .left)

/-- The left image shows hands. -/
noncomputable def leftHandKpt2d : Kpt2dInternal ℝ :=
  { (.init : Kpt2dInternal ℝ) with
    seen := fun hand cam =>
      { (Kpt2dInternal.init : Kpt2dInternal ℝ).seen hand cam with valid := decide (cam = .lcam) } }

/-- The left hand is tracked from then on in space and in the left image, and no other is. -/
theorem predictors_follow_leftHand :
    ∃ s' output, (FilterState.init .flora 0).process rightImageConfig 1 leftHandWorld
        leftHandKpt2d = some (s', output) ∧
      (∀ hand, (s'.service.predictor hand).filter.isTracked = decide (hand = .left)) ∧
      ∀ i, (s'.service.bboxPredictor i).isTracked =
        (decide (i.2 = .lcam) && decide (i.1 = .left)) := by
  have hsome : ((FilterState.init .flora 0).process rightImageConfig 1 leftHandWorld
      leftHandKpt2d).isSome = true := by
    refine (isSome_process_iff rightImageConfig (inv_init .flora 0) ?_).mpr ?_
    · intro hand _
      show keypointRootId < (List.replicate 26 (0 : Vec3 ℝ)).length
      decide
    · intro hand cam _ _
      show keypoint2dRootId < (List.replicate 21 (0 : Vec2 ℝ)).length
      decide
  obtain ⟨⟨s', output⟩, hprocess⟩ := Option.isSome_iff_exists.mp hsome
  obtain ⟨hhands, hbboxes⟩ := predictors_follow rightImageConfig hprocess
  exact ⟨s', output, hprocess, fun hand => (hhands hand).1, fun i => (hbboxes i).1⟩

end Calculator

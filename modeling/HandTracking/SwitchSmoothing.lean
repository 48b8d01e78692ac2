/-
A hand that changes between the calculator for one camera and that for two is moved over in 30
frames: it starts where it was, and each frame leaves less of the distance.

`smoothFrames` is published with the hand, and the next frame reads it there, whichever
calculator the hand goes through then.

* `Smoothed` — what a frame makes of the raw points of a hand and of the counter;
* `Counting` — the invariant of the published data;
* `smoothed_produced` — one frame of either calculator, `counting_step` — what it publishes;
* `switch_smoothing` — every frame of every run.

The root of a hand is here its first point, as in `recal_lcam_kpt3d_cv_with_new_headpose(..)[0]`.
-/
import HandTracking.HandFilter

namespace Calculator

open Camera HandPose Predictor

variable {K : Type}

/-- The frames of smoothing before the one of this frame is taken off: all of them after a
change of the source, and none after a frame without the hand. -/
def framesBefore (pre : SingleHandData K) (preValid : Bool) (source : CamType) : ℤ :=
  if preValid then if pre.source = source then pre.smoothFrames else 30 else 0

/-- What is put out for the `raw` points of a hand seen by `source`, after `pre`. -/
structure Smoothed [Field K] (pre : SingleHandData K) (preValid : Bool) (source : CamType)
    (preRoot : Vec3 K) (raw : List (Vec3 K)) (data : SingleHandData K) : Prop where
  sourceSet : data.source = source
  range : 0 ≤ data.smoothFrames ∧ data.smoothFrames ≤ 29
  switched : preValid → pre.source ≠ source → data.smoothFrames = 29
  continued : preValid → pre.source = source →
    data.smoothFrames = max (pre.smoothFrames - 1) 0
  lost : preValid = false → data.smoothFrames = 0
  length : data.kpt3d.length = 26
  points : data.kpt3d = raw.map fun p =>
    p + ((framesBefore pre preValid source : K) / 30) • (preRoot - raw.getD 0 0)
  finished : framesBefore pre preValid source = 0 → data.kpt3d = raw

/-- The counter of published data is in range, and a valid hand has a source. -/
structure Counting (data : SingleHandData K) (valid : Bool) : Prop where
  range : 0 ≤ data.smoothFrames ∧ data.smoothFrames ≤ 29
  sourceKnown : valid → data.source = .mono ∨ data.source = .bino

theorem counting_init [Zero K] : Counting (SingleHandData.init (K := K)) false :=
  ⟨⟨le_rfl, Int.natCast_nonneg 29⟩, fun hvalid => absurd hvalid Bool.false_ne_true⟩

/-! ### One frame -/

section Frame

variable {pre : SingleHandData K} {preValid : Bool} {source other : CamType}

theorem smoothFramesLeft_eq (hne : source ≠ other)
    (hsource : preValid → pre.source = source ∨ pre.source = other)
    (hrange : 0 ≤ pre.smoothFrames) :
    smoothFramesLeft pre preValid source other = framesBefore pre preValid source := by
  rw [smoothFramesLeft, framesBefore]
  cases preValid with
  | false => rfl
  | true =>
    rcases hsource rfl with h | h
    · simp only [h, hne, and_false, if_false, and_true, if_true]
      split_ifs with hpos
      · rfl
      · omega
    · simp [h, hne.symm, smoothTotalFrames]

theorem framesBefore_of_eq (hvalid : preValid = true) (h : pre.source = source) :
    framesBefore pre preValid source = pre.smoothFrames := by
  rw [framesBefore, if_pos hvalid, if_pos h]

theorem framesBefore_of_ne (hvalid : preValid = true) (h : pre.source ≠ source) :
    framesBefore pre preValid source = 30 := by
  rw [framesBefore, if_pos hvalid, if_neg h]

theorem framesBefore_of_lost (hvalid : preValid = false) :
    framesBefore pre preValid source = 0 := by
  rw [framesBefore, hvalid, if_neg Bool.false_ne_true]

theorem framesBefore_range (hrange : 0 ≤ pre.smoothFrames ∧ pre.smoothFrames ≤ 29) :
    0 ≤ framesBefore pre preValid source ∧ framesBefore pre preValid source ≤ 30 := by
  cases hvalid : preValid with
  | false => simp [framesBefore_of_lost]
  | true =>
    by_cases h : pre.source = source
    · rw [framesBefore_of_eq rfl h]
      omega
    · rw [framesBefore_of_ne rfl h]
      omega

variable [Field K]

/-- The counter goes down by one, and stays at 0. -/
theorem smoothFrames_smoothHand (transfer : Mono.Transfer K) {k : ℤ} (hk : 0 ≤ k)
    (data : SingleHandData K) :
    (smoothHand transfer pre k data).smoothFrames = max (k - 1) 0 := by
  rw [smoothHand]
  split_ifs with hpos
  · show k - 1 = max (k - 1) 0
    omega
  · show k = max (k - 1) 0
    omega

theorem kpt3d_smoothHand (transfer : Mono.Transfer K) {k : ℤ} (hk : 0 ≤ k)
    (data : SingleHandData K) :
    (smoothHand transfer pre k data).kpt3d = data.kpt3d.map fun p => p + ((k : K) / 30) •
      ((transfer.recalLcamKpt3dCvWithNewHeadpose pre.kpt3d).getD 0 0 - data.kpt3d.getD 0 0) := by
  rw [smoothHand]
  split_ifs with hpos
  · have htotal : ((smoothTotalFrames : ℤ) : K) = 30 := Int.cast_ofNat 30
    simp only [htotal]
  -- without frames left the points stay where they are
  · obtain rfl : k = 0 := le_antisymm (not_lt.mp hpos) hk
    simp

/-- Where the root was in the last frame. -/
def NetFrame.preRoot (f : NetFrame K) (hand : Hand) : Vec3 K :=
  (f.transfer.recalLcamKpt3dCvWithNewHeadpose (f.kpt3dWorldPre.hand hand).kpt3d).getD 0 0

/-- One frame of smoothing, from the other source or from the same. -/
theorem smoothed_smooth [LinearOrder K] {f : NetFrame K} {hand : Hand}
    (hcounting : Counting (f.kpt3dWorldPre.hand hand) (f.kpt3dWorldPre.valid hand))
    (hne : source ≠ other)
    (hsources : ∀ c : CamType, c = .mono ∨ c = .bino → c = source ∨ c = other)
    (data : SingleHandData K) (hdata : data.source = source) (hlength : data.kpt3d.length = 26) :
    Smoothed (f.kpt3dWorldPre.hand hand) (f.kpt3dWorldPre.valid hand) source (f.preRoot hand)
      data.kpt3d (f.smooth hand source other data) := by
  have hleft := smoothFramesLeft_eq hne (fun h => hsources _ (hcounting.sourceKnown h))
    hcounting.range.1
  obtain ⟨hnonneg, hle⟩ : 0 ≤ framesBefore (f.kpt3dWorldPre.hand hand)
        (f.kpt3dWorldPre.valid hand) source ∧
      framesBefore (f.kpt3dWorldPre.hand hand) (f.kpt3dWorldPre.valid hand) source ≤ 30 :=
    framesBefore_range hcounting.range
  -- a frame takes one off, and no frame goes below zero
  have hframes : (f.smooth hand source other data).smoothFrames = max (framesBefore
      (f.kpt3dWorldPre.hand hand) (f.kpt3dWorldPre.valid hand) source - 1) 0 := by
    rw [NetFrame.smooth, hleft, smoothFrames_smoothHand _ hnonneg]
  have hpoints : (f.smooth hand source other data).kpt3d = data.kpt3d.map fun p =>
      p + ((framesBefore (f.kpt3dWorldPre.hand hand) (f.kpt3dWorldPre.valid hand) source : K) /
        30) • (f.preRoot hand - data.kpt3d.getD 0 0) := by
    rw [NetFrame.smooth, hleft, kpt3d_smoothHand _ hnonneg]
    rfl
  constructor
  · rw [← hdata, NetFrame.smooth, smoothHand]
    split_ifs <;> rfl
  · rw [hframes]
    omega
  · intro hvalid h
    rw [hframes, framesBefore_of_ne hvalid h]
    rfl
  · intro hvalid h
    rw [hframes, framesBefore_of_eq hvalid h]
  · intro hvalid
    rw [hframes, framesBefore_of_lost hvalid]
    rfl
  · rw [hpoints, List.length_map, hlength]
  · exact hpoints
  · intro hzero
    rw [hpoints, hzero]
    simp

/-- The points in the images are set afterwards. -/
theorem Smoothed.withKpt2d {preRoot : Vec3 K} {raw : List (Vec3 K)} {data : SingleHandData K}
    (h : Smoothed pre preValid source preRoot raw data) (kpt2d : Cam → List (Vec2 K)) :
    Smoothed pre preValid source preRoot raw { data with kpt2d := kpt2d } :=
  ⟨h.sourceSet, h.range, h.switched, h.continued, h.lost, h.length, h.points, h.finished⟩

end Frame

section Run

variable [Field K] [LinearOrder K] (cfg : FilterConfig K) {f : Frame K} {pre : HandsData K}
  {hand : Hand}

/-- The points that the network of a calculator finds, and their source. -/
def Frame.raw (f : Frame K) (pre : HandsData K) (hand : Hand) :
    Producer → Option (List (Vec3 K) × CamType)
  | .handLift => ((f.netFrame cfg pre).liftOutputs cfg.kpt3d hand).map fun outputs =>
      (Joints.convertTo26Points cfg.kpt3d.eigen outputs.res3d (hand = .left), .bino)
  | .monoHandKpt3DNimbleFlora => ((f.netFrame cfg pre).nimbleOutputs hand).map fun outputs =>
      (NetFrame.nimbleKpt3d cfg.kpt3d hand outputs.2.res3d, .mono)
  | .monoHandKpt3D => none

/-- **One frame of either calculator.** -/
theorem smoothed_produced {producer : Producer} (hproducer : producer ≠ .monoHandKpt3D)
    (hcounting : Counting (pre.hand hand) (pre.valid hand)) :
    (∃ raw source, f.raw cfg pre hand producer = some (raw, source) ∧
      (source = .mono ∨ source = .bino) ∧ (f.produced cfg pre producer).valid hand = true ∧
      Smoothed (pre.hand hand) (pre.valid hand) source ((f.netFrame cfg pre).preRoot hand) raw
        ((f.produced cfg pre producer).hand hand)) ∨
    (f.produced cfg pre producer).valid hand = false ∧
      (f.produced cfg pre producer).hand hand = .init := by
  have hpre : Counting ((f.netFrame cfg pre).kpt3dWorldPre.hand hand)
      ((f.netFrame cfg pre).kpt3dWorldPre.valid hand) := hcounting
  cases producer with
  | monoHandKpt3D => exact absurd rfl hproducer
  | monoHandKpt3DNimbleFlora =>
    cases houtputs : (f.netFrame cfg pre).nimbleOutputs hand with
    | none =>
      have hhand : (f.netFrame cfg pre).nimbleHand cfg.kpt3d hand = (.init, false) := by
        rw [NetFrame.nimbleHand, houtputs]
      exact .inr ⟨congrArg Prod.snd hhand, congrArg Prod.fst hhand⟩
    | some result =>
      obtain ⟨virtualCamera, outputs⟩ := result
      have hhand : (f.netFrame cfg pre).nimbleHand cfg.kpt3d hand =
          ((f.netFrame cfg pre).nimbleSolved cfg.kpt3d hand virtualCamera outputs, true) := by
        rw [NetFrame.nimbleHand, houtputs]
      have hraw : f.raw cfg pre hand .monoHandKpt3DNimbleFlora =
          some (NetFrame.nimbleKpt3d cfg.kpt3d hand outputs.res3d, .mono) := by
        rw [Frame.raw, houtputs]
        rfl
      refine .inl ⟨_, _, hraw, .inl rfl, congrArg Prod.snd hhand, ?_⟩
      rw [show (f.produced cfg pre .monoHandKpt3DNimbleFlora).hand hand = _ from
        congrArg Prod.fst hhand]
      have hlength : (NetFrame.nimbleKpt3d cfg.kpt3d hand outputs.res3d).length = 26 :=
        length_nimbleKpt3d cfg.kpt3d outputs.res3d
      let data : SingleHandData K :=
        { SingleHandData.init with
          kpt3d := NetFrame.nimbleKpt3d cfg.kpt3d hand outputs.res3d
          source := .mono
          score := outputs.kpt3dScore + 1 / 10 }
      -- the points in the images are set after the smoothing
      exact (smoothed_smooth hpre (by decide) (fun c hc => hc) data rfl hlength).withKpt2d _
  | handLift =>
    cases houtputs : (f.netFrame cfg pre).liftOutputs cfg.kpt3d hand with
    | none =>
      have hhand : (f.netFrame cfg pre).liftHand cfg.kpt3d hand = (.init, false) := by
        rw [NetFrame.liftHand, houtputs]
      exact .inr ⟨congrArg Prod.snd hhand, congrArg Prod.fst hhand⟩
    | some outputs =>
      have hhand : (f.netFrame cfg pre).liftHand cfg.kpt3d hand =
          ((f.netFrame cfg pre).liftSolved cfg.kpt3d hand outputs, true) := by
        rw [NetFrame.liftHand, houtputs]
      have hraw : f.raw cfg pre hand .handLift =
          some (Joints.convertTo26Points cfg.kpt3d.eigen outputs.res3d (hand = .left), .bino) := by
        rw [Frame.raw, houtputs]
        rfl
      refine .inl ⟨_, _, hraw, .inr rfl, congrArg Prod.snd hhand, ?_⟩
      rw [show (f.produced cfg pre .handLift).hand hand = _ from congrArg Prod.fst hhand]
      have hlength := Joints.length_convertTo26Points cfg.kpt3d.eigen outputs.res3d (hand = .left)
      let kpt3d := Joints.convertTo26Points cfg.kpt3d.eigen outputs.res3d (hand = .left)
      let data : SingleHandData K :=
        { SingleHandData.init with
          kpt3d := kpt3d
          source := .bino
          score := (f.netFrame cfg pre).liftScore cfg.kpt3d hand outputs kpt3d
          constrained := cfg.kpt3d.liftNet = .gmlpLiftNimble }
      exact (smoothed_smooth hpre (by decide) (fun c hc => hc.symm) data rfl
        hlength).withKpt2d _

/-- The hand goes through one of the two calculators. -/
def ThroughEither (hand : Hand) : Event K → Prop
  | .frame f => f.producer hand ≠ .monoHandKpt3D
  | _ => True

/-- What a frame publishes of a hand is what its calculator put out, in the world and with its
velocity; and a rule may have taken the hand for invalid. -/
theorem published_frame (hand : Hand) {s s' : FilterState K} {output : List (HandsData K)}
    (h : step cfg s (.frame f) = some (s', output)) :
    (s'.service.lastKpt3dWorld.valid hand = true →
      (f.produced cfg s.service.lastKpt3dWorld (f.producer hand)).valid hand = true) ∧
    ∃ v, s'.service.lastKpt3dWorld.hand hand =
      { (f.produced cfg s.service.lastKpt3dWorld (f.producer hand)).hand hand with
        kpt3d := ((f.produced cfg s.service.lastKpt3dWorld (f.producer hand)).hand hand).kpt3d.map
          f.toWorld
        rootV := v } := by
  obtain ⟨⟨s₁, output₁⟩, hprocess, hresult⟩ := Option.map_eq_some_iff.mp h
  obtain ⟨rfl, -⟩ := Prod.mk.inj hresult
  obtain ⟨⟨hworld, -, houtput⟩, hhands, -⟩ := process_eq_some cfg hprocess
  rw [hworld, houtput]
  exact ⟨fun hvalid => (Bool.and_eq_true_iff.mp hvalid).1, trackHand_eq cfg (hhands hand)⟩

theorem counting_step {s s' : FilterState K} {e : Event K} {output : List (HandsData K)}
    (hs : Counting (s.service.lastKpt3dWorld.hand hand) (s.service.lastKpt3dWorld.valid hand))
    (he : ThroughEither hand e) (h : step cfg s e = some (s', output)) :
    Counting (s'.service.lastKpt3dWorld.hand hand) (s'.service.lastKpt3dWorld.valid hand) := by
  cases e with
  | frame f =>
    obtain ⟨hvalid, v, hhand⟩ := published_frame cfg hand h
    rw [hhand]
    rcases smoothed_produced cfg (f := f) he hs with
      ⟨raw, source, -, hsource, -, hsmoothed⟩ | ⟨hinvalid, hinit⟩
    · refine ⟨hsmoothed.range, fun _ => ?_⟩
      rcases hsource with rfl | rfl
      · exact .inl hsmoothed.sourceSet
      · exact .inr hsmoothed.sourceSet
    · -- nothing was put out, and nothing is published
      constructor
      · rw [hinit]
        exact (counting_init (K := K)).range
      · intro hpublished
        exact absurd (hinvalid.symm.trans (hvalid hpublished)) Bool.false_ne_true
  | trackOnlyPred hand targetTs updateState withSmooth =>
    obtain ⟨rfl, -⟩ := Prod.mk.inj (Option.some.inj h)
    exact hs
  | trackOnlyPred2d i targetTs updateState =>
    obtain ⟨rfl, -⟩ := Prod.mk.inj (Option.some.inj h)
    exact hs
  | stopTracking =>
    obtain ⟨rfl, -⟩ := Prod.mk.inj (Option.some.inj h)
    exact hs

variable [IsStrictOrderedRing K]

/-- **In every run** of frames in which a hand goes through either calculator: the counter is in
range after every frame, and where the hand is found its points are the raw ones, moved towards
the root of the last frame. -/
theorem switch_smoothing (glassesType : GlassesType) (lastTimestamp : K) {s s' : FilterState K}
    (hs : Transition.Reachable (step cfg) (fun _ e => ThroughEither hand e)
      (.init glassesType lastTimestamp) s)
    (hf : f.producer hand ≠ .monoHandKpt3D) {output : List (HandsData K)}
    (h : step cfg s (.frame f) = some (s', output)) :
    let pre := s.service.lastKpt3dWorld
    let published := s'.service.lastKpt3dWorld
    let produced := f.produced cfg pre (f.producer hand)
    (0 ≤ (published.hand hand).smoothFrames ∧ (published.hand hand).smoothFrames ≤ 29) ∧
    (produced.valid hand = true → ∃ raw source,
      f.raw cfg pre hand (f.producer hand) = some (raw, source) ∧
      Smoothed (pre.hand hand) (pre.valid hand) source ((f.netFrame cfg pre).preRoot hand) raw
        (produced.hand hand)) ∧
    ((published.hand hand).smoothFrames = (produced.hand hand).smoothFrames ∧
      (published.hand hand).source = (produced.hand hand).source ∧
      (published.hand hand).kpt3d = (produced.hand hand).kpt3d.map f.toWorld) := by
  intro pre published produced
  have hcounting : Counting (pre.hand hand) (pre.valid hand) :=
    hs.invariant
      (I := fun s => Counting (s.service.lastKpt3dWorld.hand hand)
        (s.service.lastKpt3dWorld.valid hand))
      counting_init fun _ _ _ _ hinv he hstep => counting_step cfg hinv he hstep
  refine ⟨(counting_step (e := .frame f) cfg hcounting hf h).range, ?_, ?_⟩
  · intro hvalid
    rcases smoothed_produced cfg (f := f) hf hcounting with
      ⟨raw, source, hraw, -, -, hsmoothed⟩ | ⟨hinvalid, -⟩
    · exact ⟨raw, source, hraw, hsmoothed⟩
    · exact absurd (hinvalid.symm.trans hvalid) Bool.false_ne_true
  · obtain ⟨-, v, hhand⟩ := published_frame cfg hand h
    rw [show published.hand hand = _ from hhand]
    exact ⟨rfl, rfl, rfl⟩

end Run

/-! ### A left hand that comes into the right image -/

/-- The same configuration with solvers that invert. -/
noncomputable def switchConfig : FilterConfig ℝ :=
  { rightImageConfig with
    solve3d := fun A B => A⁻¹ * B
    solve2d := fun A B => A⁻¹ * B }

/-- The points of an upright hand at a distance from the left camera. -/
noncomputable def handAt (distance : ℝ) : List (Vec3 ℝ) :=
  List.ofFn fun i : Fin 26 => ![0, -(i.val / 100), distance]

/-- One camera sees the hand. -/
noncomputable def leftImageFrame : Frame ℝ :=
  { rightImageFrame with
    bbox :=
      { valid := fun hand cam => decide (hand = .left ∧ cam = .lcam)
        rect := fun _ cam => if cam = .lcam then ⟨-1, -1, 2, 2⟩ else ⟨0, -1, 2, 2⟩ }
    monoNet := fun _ => some ⟨handAt (1 / 2), 0⟩
    producer := fun _ => .monoHandKpt3DNimbleFlora }

/-- In the next frame both cameras see it, and the other network finds it further away. -/
noncomputable def bothImagesFrame : Frame ℝ :=
  { leftImageFrame with
    bbox := { leftImageFrame.bbox with valid := fun hand _ => decide (hand = .left) }
    timestamp := 31 / 30
    liftNet := fun _ => some ⟨handAt (3 / 5), 1⟩
    producer := fun _ => .handLift }

theorem isSome_step {s : FilterState ℝ} (hs : s.Inv) {f : Frame ℝ}
    (hf : ∀ hand, f.producer hand ≠ .monoHandKpt3D) :
    (step switchConfig s (.frame f)).isSome = true :=
  (isSome_frame_iff switchConfig hs f).mpr fun hand hother => hf hand hother.1

/-- The network for two cameras runs. -/
theorem liftOutputs_bothImagesFrame (pre : HandsData ℝ) :
    (bothImagesFrame.netFrame switchConfig pre).liftOutputs switchConfig.kpt3d .left =
      some ⟨handAt (3 / 5), 1⟩ := by
  have hkpt : ∀ cam, kAlgoKeypointNum ≤
      ((bothImagesFrame.kpt2d switchConfig).seen .left cam).kpt.length :=
    fun cam => (length_kpt switchConfig cam).ge
  have hseen (cam : Cam) : ((bothImagesFrame.kpt2d switchConfig).seen .left cam).valid = true := by
    cases cam <;> rfl
  obtain ⟨points, hnet⟩ := NetFrame.exists_liftOutputs switchConfig.kpt3d
    (bothImagesFrame.netFrame switchConfig pre) .left hseen hkpt
  exact hnet

/-- The hand changes from the one network to the other, and is where it was. -/
theorem switch_smoothing_bothImages : ∃ s output s' output',
    step switchConfig (.init .flora 0) (.frame leftImageFrame) = some (s, output) ∧
      (s.service.lastKpt3dWorld.hand .left).source = .mono ∧
      step switchConfig s (.frame bothImagesFrame) = some (s', output') ∧
      (s'.service.lastKpt3dWorld.hand .left).source = .bino ∧
      (s'.service.lastKpt3dWorld.hand .left).smoothFrames = 29 := by
  have hleft : ∀ hand, leftImageFrame.producer hand ≠ .monoHandKpt3D := by
    intro hand hproducer
    cases hproducer
  have hboth : ∀ hand, bothImagesFrame.producer hand ≠ .monoHandKpt3D := by
    intro hand hproducer
    cases hproducer
  obtain ⟨⟨s, output⟩, hstep⟩ := Option.isSome_iff_exists.mp (isSome_step (inv_init .flora 0) hleft)
  obtain ⟨⟨s', output'⟩, hstep'⟩ := Option.isSome_iff_exists.mp
    (isSome_step (inv_step switchConfig (inv_init .flora 0) hstep) hboth)
  -- the hand of the first frame is published, and comes from one camera
  have hmono : (s.service.lastKpt3dWorld.hand .left).source = .mono :=
    (switch_smoothing switchConfig .flora 0 .refl (hleft .left) hstep).2.2.2.1
  have hvalid : s.service.lastKpt3dWorld.valid .left = true := by
    have hmap := hstep
    rw [step] at hmap
    obtain ⟨⟨s₁, output₁⟩, hprocess, hresult⟩ := Option.map_eq_some_iff.mp hmap
    obtain ⟨rfl, -⟩ := Prod.mk.inj hresult
    obtain ⟨⟨hworld, -, hpublished⟩, -⟩ := process_eq_some switchConfig hprocess
    rw [hworld, hpublished]
    rfl
  have hrun : Transition.Run (step switchConfig) (fun _ e => ThroughEither .left e)
      (.init .flora 0) [.frame leftImageFrame] output s := .single (hleft .left) hstep
  obtain ⟨-, hsmoothed, hframes, hsource, -⟩ :=
    switch_smoothing switchConfig .flora 0 ⟨_, _, hrun⟩ (hboth .left) hstep'
  have houtputs := liftOutputs_bothImagesFrame s.service.lastKpt3dWorld
  have hproduced : (bothImagesFrame.produced switchConfig s.service.lastKpt3dWorld
      .handLift).valid .left = true := by
    show ((bothImagesFrame.netFrame switchConfig s.service.lastKpt3dWorld).liftHand
      switchConfig.kpt3d .left).2 = true
    rw [NetFrame.liftHand, houtputs]
  obtain ⟨raw, source, hraw, hmoved⟩ := hsmoothed hproduced
  obtain rfl : CamType.bino = source := by
    have hfound : bothImagesFrame.raw switchConfig s.service.lastKpt3dWorld .left .handLift =
        some (raw, source) := hraw
    rw [Frame.raw, houtputs] at hfound
    exact (Prod.mk.inj (Option.some.inj hfound)).2
  refine ⟨s, output, s', output', hstep, hmono, hstep', hsource.trans hmoved.sourceSet,
    hframes.trans (hmoved.switched hvalid ?_)⟩
  rw [hmono]
  decide

end Calculator

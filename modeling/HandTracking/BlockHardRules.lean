/-
`BlockHardRulesCalculator`: hands that are too far away or too uncertain are not valid.

A hand of both cameras is judged by its score and a hand of one camera by its error, each with a
dead band, in which the hand stays as it was in the last world data.  A hand that is not high up may
have a score that is lower by 0.1.

* `HandState.update` — `HandStateUpdator::update`;
* `BlockOptions.process` — `Process`, `process_valid_iff` — what it lets pass;
* `BlockOptions.run` — frames in which the world data are the last output;
* `blockRules_hysteresis` — hands stay valid in the dead band, better hands stay valid, and the
  other hand makes no difference.
-/
import HandTracking.HandsData
import Mathlib.Tactic.Linarith
import Mathlib.Tactic.NormNum

namespace Block

open Calculator HandPose

variable {K : Type} [Field K] [LinearOrder K]

/-- The options of the calculator. -/
structure BlockOptions (K : Type) where
  maxRootDepth : K
  scoreTh : K
  scoreThWidth : K
  rmseTh : K
  rmseThWidth : K

/-- The state of a `HandStateUpdator`. -/
inductive HandState where
  | lost
  | tracking
  deriving DecidableEq, Repr

/-- `last_state` of an updator after `update`, which is also its result. -/
def HandState.update (opts : BlockOptions K) (lastState : HandState) (handSource : CamType)
    (score : K) : HandState :=
  if handSource = .bino then
    if score < opts.scoreTh - opts.scoreThWidth / 2 then .lost
    else if opts.scoreTh + opts.scoreThWidth / 2 < score then .tracking
    else lastState
  else
    if opts.rmseTh + opts.rmseThWidth / 2 < score then .lost
    else if score < opts.rmseTh - opts.rmseThWidth / 2 then .tracking
    else lastState

/-- `HandState(static_cast<int>(valid))` -/
def HandState.ofValid (valid : Bool) : HandState := if valid then .tracking else .lost

/-- `kpt3d[root_index]` -/
def rootPoint (data : SingleHandData K) : Vec3 K := data.kpt3d.getD 0 0

/-- The states of the updators of both hands. -/
abbrev Updators := Hand → HandState

namespace BlockOptions

variable (opts : BlockOptions K)

/-- A hand below the line of sight may have a lower score. -/
def Rescued (data : SingleHandData K) : Prop :=
  -5 / 100 < rootPoint data 1 ∧ opts.scoreTh - opts.scoreThWidth / 2 - 1 / 10 < data.score

instance (data : SingleHandData K) : Decidable (opts.Rescued data) :=
  inferInstanceAs (Decidable (_ ∧ _))

/-- The rules for one hand: the state of its updator, and whether it passes. -/
def check (lastState : HandState) (data : SingleHandData K) : HandState × Bool :=
  if opts.maxRootDepth < rootPoint data 2 then (lastState, false)
  else
    match data.source with
    | .mono =>
      let state := lastState.update opts .mono data.reprojRmse
      (state, state ≠ .lost)
    | .bino =>
      let state := lastState.update opts .bino data.score
      (state, if state = .lost then opts.Rescued data else true)
    | .unknown => (lastState, true)

/-- One hand of one input. -/
def processHand (pre input : HandsData K) (s : Updators × HandsData K) (hand : Hand) :
    Updators × HandsData K :=
  if input.valid hand then
    let r := opts.check (.ofValid (pre.valid hand)) (input.hand hand)
    (Function.update s.1 hand r.1,
      { hand := Function.update s.2.hand hand (input.hand hand)
        valid := Function.update s.2.valid hand r.2 })
  else s

/-- `Process`, with the last world data and the inputs of all streams. -/
def process (updators : Updators) (pre : HandsData K) (inputs : List (HandsData K)) :
    Updators × HandsData K :=
  inputs.foldl (fun s input => [Hand.left, .right].foldl (opts.processHand pre input) s)
    (updators, .init)

/-- Frames with one stream, where the last world data are as valid as the last output. -/
def run (s : Updators × HandsData K) (inputs : List (HandsData K)) : Updators × HandsData K :=
  inputs.foldl (fun s input => opts.process s.1 s.2 [input]) s

/-! ### One frame -/

/-- Whether a hand passes that was valid before or not. -/
def passes (before : Bool) (data : SingleHandData K) : Bool := (opts.check (.ofValid before) data).2

theorem processHand_same (pre input : HandsData K) (s : Updators × HandsData K) (hand : Hand) :
    ((opts.processHand pre input s hand).2.valid hand =
        if input.valid hand then
          opts.passes (pre.valid hand) (input.hand hand)
        else s.2.valid hand) ∧
      (opts.processHand pre input s hand).2.hand hand =
        if input.valid hand then input.hand hand else s.2.hand hand := by
  rw [processHand]
  by_cases hvalid : input.valid hand = true
  · rw [if_pos hvalid, if_pos hvalid, if_pos hvalid]
    exact ⟨Function.update_self .., Function.update_self ..⟩
  · rw [if_neg hvalid, if_neg hvalid, if_neg hvalid]
    exact ⟨rfl, rfl⟩

theorem processHand_other (pre input : HandsData K) (s : Updators × HandsData K)
    {hand other : Hand} (hne : hand ≠ other) :
    (opts.processHand pre input s other).2.valid hand = s.2.valid hand ∧
      (opts.processHand pre input s other).2.hand hand = s.2.hand hand := by
  rw [processHand]
  split_ifs
  · exact ⟨Function.update_of_ne hne _ _, Function.update_of_ne hne _ _⟩
  · exact ⟨rfl, rfl⟩

/-- What comes out of a hand depends on this hand, and on whether it was valid. -/
theorem process_singleton (updators : Updators) (pre input : HandsData K) (hand : Hand) :
    ((opts.process updators pre [input]).2.valid hand =
        (input.valid hand && opts.passes (pre.valid hand) (input.hand hand))) ∧
      (opts.process updators pre [input]).2.hand hand =
        if input.valid hand then input.hand hand else .init := by
  have hempty : (if input.valid hand then
      opts.passes (pre.valid hand) (input.hand hand) else false) =
        (input.valid hand && opts.passes (pre.valid hand) (input.hand hand)) := by
    cases input.valid hand <;> rfl
  rw [← hempty]
  show (opts.processHand pre input (opts.processHand pre input (updators, .init) .left)
      .right).2.valid hand = _ ∧
    (opts.processHand pre input (opts.processHand pre input (updators, .init) .left)
      .right).2.hand hand = _
  have hleft : Hand.left ≠ .right := Hand.noConfusion
  cases hand with
  | left =>
    obtain ⟨hvalid, hhand⟩ := opts.processHand_other pre input
      (opts.processHand pre input (updators, .init) .left) hleft
    rw [hvalid, hhand]
    exact opts.processHand_same pre input (updators, .init) .left
  | right =>
    obtain ⟨hvalid, hhand⟩ := opts.processHand_other pre input (updators, .init) hleft.symm
    have hsame := opts.processHand_same pre input
      (opts.processHand pre input (updators, .init) .left) .right
    rwa [hvalid, hhand] at hsame

end BlockOptions

/-! ### The rules -/

section

variable {opts : BlockOptions K} {before : Bool} {data data' : SingleHandData K}

theorem HandState.ofValid_ne_lost : HandState.ofValid before ≠ .lost ↔ before = true := by
  cases before with
  | false => exact iff_of_false (fun h => h rfl) Bool.false_ne_true
  | true => exact iff_of_true HandState.noConfusion rfl

theorem HandState.update_bino_ne_lost (opts : BlockOptions K) (lastState : HandState) (score : K) :
    lastState.update opts .bino score ≠ .lost ↔
      opts.scoreTh - opts.scoreThWidth / 2 ≤ score ∧
        (lastState ≠ .lost ∨ opts.scoreTh + opts.scoreThWidth / 2 < score) := by
  rw [HandState.update, if_pos rfl]
  by_cases hlow : score < opts.scoreTh - opts.scoreThWidth / 2
  · rw [if_pos hlow]
    exact iff_of_false (fun h => h rfl) fun h => h.1.not_gt hlow
  · rw [if_neg hlow, and_iff_right (not_lt.mp hlow)]
    by_cases hhigh : opts.scoreTh + opts.scoreThWidth / 2 < score
    · rw [if_pos hhigh]
      exact iff_of_true HandState.noConfusion (.inr hhigh)
    · rw [if_neg hhigh]
      exact (or_iff_left hhigh).symm

theorem HandState.update_mono_ne_lost (opts : BlockOptions K) (lastState : HandState) (rmse : K) :
    lastState.update opts .mono rmse ≠ .lost ↔
      rmse ≤ opts.rmseTh + opts.rmseThWidth / 2 ∧
        (lastState ≠ .lost ∨ rmse < opts.rmseTh - opts.rmseThWidth / 2) := by
  rw [HandState.update, if_neg CamType.noConfusion]
  by_cases hhigh : opts.rmseTh + opts.rmseThWidth / 2 < rmse
  · rw [if_pos hhigh]
    exact iff_of_false (fun h => h rfl) fun h => h.1.not_gt hhigh
  · rw [if_neg hhigh, and_iff_right (not_lt.mp hhigh)]
    by_cases hlow : rmse < opts.rmseTh - opts.rmseThWidth / 2
    · rw [if_pos hlow]
      exact iff_of_true HandState.noConfusion (.inr hlow)
    · rw [if_neg hlow]
      exact (or_iff_left hlow).symm

/-- The score or the error is not on the wrong side of its dead band. -/
def BlockOptions.Holds (opts : BlockOptions K) (data : SingleHandData K) : Prop :=
  match data.source with
  | .mono => data.reprojRmse ≤ opts.rmseTh + opts.rmseThWidth / 2
  | .bino => opts.scoreTh - opts.scoreThWidth / 2 ≤ data.score
  | .unknown => True

/-- It is on the right side. -/
def BlockOptions.Convinces (opts : BlockOptions K) (data : SingleHandData K) : Prop :=
  match data.source with
  | .mono => data.reprojRmse < opts.rmseTh - opts.rmseThWidth / 2
  | .bino => opts.scoreTh + opts.scoreThWidth / 2 < data.score
  | .unknown => True

/-- The rules: a hand that is near passes in its dead band if it was valid before, and on the right
side of it, or if it is rescued. -/
theorem passes_iff : opts.passes before data = true ↔
    rootPoint data 2 ≤ opts.maxRootDepth ∧
      (opts.Holds data ∧ (before = true ∨ opts.Convinces data) ∨
        data.source = .bino ∧ opts.Rescued data) := by
  rw [BlockOptions.passes, BlockOptions.check, BlockOptions.Holds, BlockOptions.Convinces]
  by_cases hfar : opts.maxRootDepth < rootPoint data 2
  · rw [if_pos hfar]
    exact iff_of_false Bool.false_ne_true fun h => h.1.not_gt hfar
  · rw [if_neg hfar, and_iff_right (not_lt.mp hfar)]
    cases hsource : data.source with
    | unknown => exact iff_of_true rfl (.inl ⟨trivial, .inr trivial⟩)
    | mono =>
      have hstate := HandState.update_mono_ne_lost opts (.ofValid before) data.reprojRmse
      rw [HandState.ofValid_ne_lost] at hstate
      simp only [decide_eq_true_eq, hstate, reduceCtorEq, false_and, or_false]
    | bino =>
      have hstate := HandState.update_bino_ne_lost opts (.ofValid before) data.score
      rw [HandState.ofValid_ne_lost] at hstate
      simp only [true_and]
      rw [← hstate]
      by_cases hlost : HandState.update opts (.ofValid before) .bino data.score = .lost
      · rw [if_pos hlost]
        exact decide_eq_true_iff.trans (or_iff_right (fun h => h hlost)).symm
      · rw [if_neg hlost]
        exact iff_of_true rfl (.inl hlost)

/-- The same hand, with a score that is no lower and an error that is no higher. -/
structure NoWorse (data data' : SingleHandData K) : Prop where
  source : data'.source = data.source
  kpt3d : data'.kpt3d = data.kpt3d
  score : data.score ≤ data'.score
  reprojRmse : data'.reprojRmse ≤ data.reprojRmse

theorem NoWorse.holds (h : NoWorse data data') (hholds : opts.Holds data) : opts.Holds data' := by
  rw [BlockOptions.Holds] at hholds ⊢
  rw [h.source]
  cases hsource : data.source with
  | unknown => trivial
  | mono =>
    rw [hsource] at hholds
    exact h.reprojRmse.trans hholds
  | bino =>
    rw [hsource] at hholds
    exact hholds.trans h.score

theorem NoWorse.convinces (h : NoWorse data data') (hright : opts.Convinces data) :
    opts.Convinces data' := by
  rw [BlockOptions.Convinces] at hright ⊢
  rw [h.source]
  cases hsource : data.source with
  | unknown => trivial
  | mono =>
    rw [hsource] at hright
    exact h.reprojRmse.trans_lt hright
  | bino =>
    rw [hsource] at hright
    exact hright.trans_le h.score

theorem NoWorse.rescued (h : NoWorse data data') (hrescued : opts.Rescued data) :
    opts.Rescued data' := by
  have hroot : rootPoint data' = rootPoint data := congrArg (·.getD 0 0) h.kpt3d
  rw [BlockOptions.Rescued, hroot]
  exact ⟨hrescued.1, hrescued.2.trans_le h.score⟩

/-- A better hand passes where the other one does, also if it was valid before and that was not. -/
theorem NoWorse.passes {before' : Bool} (h : NoWorse data data')
    (hbefore : before = true → before' = true) (hpasses : opts.passes before data = true) :
    opts.passes before' data' = true := by
  have hroot : rootPoint data' = rootPoint data := congrArg (·.getD 0 0) h.kpt3d
  obtain ⟨hnear, hrules⟩ := passes_iff.mp hpasses
  refine passes_iff.mpr ⟨hroot ▸ hnear, ?_⟩
  rcases hrules with ⟨hholds, hcase⟩ | ⟨hsource, hrescued⟩
  · exact .inl ⟨h.holds hholds, hcase.imp hbefore h.convinces⟩
  · exact .inr ⟨h.source.trans hsource, h.rescued hrescued⟩

/-- Near enough, and not on the wrong side of the dead band. -/
def BlockOptions.Keeps (opts : BlockOptions K) (data : SingleHandData K) : Prop :=
  rootPoint data 2 ≤ opts.maxRootDepth ∧ opts.Holds data

theorem passes_of_keeps (h : opts.Keeps data) : opts.passes true data = true :=
  passes_iff.mpr ⟨h.1, .inl ⟨h.2, .inl rfl⟩⟩

end

/-! ### Runs -/

section

variable {opts : BlockOptions K} {hand : Hand} {s s' : Updators × HandsData K}
  {inputs inputs' : List (HandsData K)}

/-- The outputs, or inputs, have the same hand. -/
def SameHand (hand : Hand) (data data' : HandsData K) : Prop :=
  data.valid hand = data'.valid hand ∧ data.hand hand = data'.hand hand

/-- The second frame has the hand exactly if the first one has it, and no worse. -/
def HandNoWorse (hand : Hand) (input input' : HandsData K) : Prop :=
  input.valid hand = input'.valid hand ∧ NoWorse (input.hand hand) (input'.hand hand)

theorem run_cons (s : Updators × HandsData K) (input : HandsData K) (inputs : List (HandsData K)) :
    opts.run s (input :: inputs) = opts.run (opts.process s.1 s.2 [input]) inputs :=
  rfl

/-- A valid hand stays valid for as long as it is not on the wrong side. -/
theorem valid_run_of_keeps (hvalid : s.2.valid hand = true)
    (hkeeps : ∀ input ∈ inputs, input.valid hand = true ∧ opts.Keeps (input.hand hand)) :
    (opts.run s inputs).2.valid hand = true := by
  induction inputs generalizing s with
  | nil => exact hvalid
  | cons input inputs ih =>
    obtain ⟨⟨hinput, hkeep⟩, hlater⟩ := List.forall_mem_cons.mp hkeeps
    rw [run_cons]
    refine ih ?_ hlater
    rw [(opts.process_singleton s.1 s.2 input hand).1, hinput, hvalid, passes_of_keeps hkeep]
    rfl

/-- Of two runs, the one with the better hand has it valid wherever the other one has. -/
theorem valid_run_of_noWorse (hinputs : List.Forall₂ (HandNoWorse hand) inputs inputs')
    (hvalid : s.2.valid hand = true → s'.2.valid hand = true) :
    (opts.run s inputs).2.valid hand = true → (opts.run s' inputs').2.valid hand = true := by
  induction hinputs generalizing s s' with
  | nil => exact hvalid
  | @cons input input' inputs inputs' hinput _ ih =>
    rw [run_cons, run_cons]
    refine ih ?_
    rw [(opts.process_singleton s.1 s.2 input hand).1,
      (opts.process_singleton s'.1 s'.2 input' hand).1, Bool.and_eq_true, Bool.and_eq_true]
    rintro ⟨hseen, hpasses⟩
    exact ⟨hinput.1.symm.trans hseen, hinput.2.passes hvalid hpasses⟩

/-- Neither the other hand nor the states of the updators make a difference. -/
theorem sameHand_run (hinputs : List.Forall₂ (SameHand hand) inputs inputs')
    (hsame : SameHand hand s.2 s'.2) :
    SameHand hand (opts.run s inputs).2 (opts.run s' inputs').2 := by
  induction hinputs generalizing s s' with
  | nil => exact hsame
  | @cons input input' inputs inputs' hinput _ ih =>
    rw [run_cons, run_cons]
    refine ih ?_
    obtain ⟨hvalid, hhand⟩ := opts.process_singleton s.1 s.2 input hand
    obtain ⟨hvalid', hhand'⟩ := opts.process_singleton s'.1 s'.2 input' hand
    rw [SameHand, hvalid, hvalid', hhand, hhand', hinput.1, hinput.2, hsame.1]
    exact ⟨rfl, rfl⟩

end

/-- The rules in every run, for either hand and all options: a valid hand stays valid in its dead
band and on the right side of it; with a better hand it is valid wherever it was; and the other hand
makes no difference. -/
theorem blockRules_hysteresis (opts : BlockOptions K) (hand : Hand) :
    (∀ (s : Updators × HandsData K) (inputs : List (HandsData K)), s.2.valid hand = true →
      (∀ input ∈ inputs, input.valid hand = true ∧ opts.Keeps (input.hand hand)) →
        (opts.run s inputs).2.valid hand = true) ∧
    (∀ (s s' : Updators × HandsData K) (inputs inputs' : List (HandsData K)),
      (s.2.valid hand = true → s'.2.valid hand = true) →
      List.Forall₂ (HandNoWorse hand) inputs inputs' →
        (opts.run s inputs).2.valid hand = true → (opts.run s' inputs').2.valid hand = true) ∧
    ∀ (s s' : Updators × HandsData K) (inputs inputs' : List (HandsData K)),
      SameHand hand s.2 s'.2 → List.Forall₂ (SameHand hand) inputs inputs' →
        SameHand hand (opts.run s inputs).2 (opts.run s' inputs').2 :=
  ⟨fun _ _ hvalid hkeeps => valid_run_of_keeps hvalid hkeeps,
    fun _ _ _ _ hvalid hinputs => valid_run_of_noWorse hinputs hvalid,
    fun _ _ _ _ hsame hinputs => sameHand_run hinputs hsame⟩

/-! ### A hand in its dead band -/

/-- Options with a narrow gap between the thresholds. -/
def narrowOptions : BlockOptions ℚ := ⟨1, 5 / 10, 2 / 10, 10, 4⟩

/-- A stereo hand high up, half a metre away. -/
def scoredHand (score : ℚ) : HandsData ℚ where
  hand _ := { SingleHandData.init with
    kpt3d := [![0, -1, 1 / 2]], score := score, source := .bino }
  valid _ := true

theorem keeps_scoredHand {score : ℚ} (h : 4 / 10 ≤ score) (hand : Hand) :
    narrowOptions.Keeps ((scoredHand score).hand hand) := by
  constructor
  · show (1 / 2 : ℚ) ≤ 1
    norm_num
  · show (5 / 10 - 2 / 10 / 2 : ℚ) ≤ score
    linarith

theorem blockRules_hysteresis_scored :
    (narrowOptions.run (fun _ => .lost, scoredHand 1)
      [scoredHand (6 / 10), scoredHand (4 / 10)]).2.valid .left = true := by
  refine (blockRules_hysteresis narrowOptions .left).1 _ _ rfl fun input hinput => ?_
  rcases List.mem_pair.mp hinput with rfl | rfl
  · exact ⟨rfl, keeps_scoredHand (by norm_num) .left⟩
  · exact ⟨rfl, keeps_scoredHand (by norm_num) .left⟩

end Block

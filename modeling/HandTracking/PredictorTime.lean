/-
The time a Kalman predictor takes its state to be at.

`last_correct_time_` should be the time to which `statePost` has been propagated.  A
prediction that updates the state is propagated to the valid time, but records the time
that was asked for.

* `applied`, `applied_predict` — the time step a call applies to the state;
* `lastCorrectTime_iff` — the recorded time is right exactly as long as no prediction
  that updates the state is capped;
* `capped_prediction` — a prediction for one second moves the state by 40 milliseconds.
-/
import HandTracking.Library.Transition
import HandTracking.Predictor

namespace Predictor

open Matrix Transition

variable {d : ℕ} {K : Type} [Field K] [LinearOrder K]
  {solve : Solver d K} {intervals : Intervals K} {f : Filter d K}

namespace Filter

/-- The time step by which a call propagates the state. -/
def applied (intervals : Intervals K) (f : Filter d K) : Call d K → Option K
  | .trackWithCorrect targetTs _ => some (f.dtSeconds targetTs)
  | .trackOnlyPred targetTs true =>
    some (f.dtSeconds (f.getValidPredictTimeLength intervals targetTs))
  | _ => none

/-- The prediction is for a time beyond the valid one. -/
def Capped (intervals : Intervals K) (f : Filter d K) (targetTs : K) : Prop :=
  f.predictTimeInterval intervals < (targetTs - f.lastMeasureTime) * predictLengthRatio

/-- A call, with the time step it applies. -/
def step (solve : Solver d K) (intervals : Intervals K) (f : Filter d K) (c : Call d K) :
    Option (Filter d K × List K) :=
  some ((f.call solve intervals c).1, (f.applied intervals c).toList)

end Filter

/-- The call does not restart the predictor. -/
def NoRestart : Call d K → Prop
  | .startTracking _ _ => False
  | _ => True

/-- The call is no capped prediction that updates the state. -/
def NotCapped (intervals : Intervals K) (f : Filter d K) : Call d K → Prop
  | .trackOnlyPred targetTs true => ¬f.Capped intervals targetTs
  | _ => True

/-- The state a call predicts is the one before it, propagated by the applied time step
with the transition matrix of this step; the other calls but a restart keep the state. -/
theorem applied_predict (c : Call d K) :
    (∀ dt ∈ f.applied intervals c, (f.call solve intervals c).1.kfImpl.statePre =
      Filter.transition f.kfImpl.transitionMatrix dt *ᵥ f.kfImpl.statePost) ∧
    (f.applied intervals c = none → NoRestart c →
      (f.call solve intervals c).1.kfImpl.statePost = f.kfImpl.statePost) := by
  cases c with
  | startTracking ts meas => exact ⟨fun dt h => (Option.not_mem_none dt h).elim, fun _ h => h.elim⟩
  | trackWithCorrect ts meas => exact ⟨fun dt h => (by cases h; rfl), fun h => (by cases h)⟩
  | trackOnlyPred ts update =>
    cases update with
    | true => exact ⟨fun dt h => (by cases h; rfl), fun h => (by cases h)⟩
    | false => exact ⟨fun dt h => (Option.not_mem_none dt h).elim, fun _ _ => rfl⟩
  | getTrackingStatus => exact ⟨fun dt h => (Option.not_mem_none dt h).elim, fun _ _ => rfl⟩
  | stopTracking => exact ⟨fun dt h => (Option.not_mem_none dt h).elim, fun _ _ => rfl⟩

variable [IsStrictOrderedRing K]

/-- The valid time is the one asked for, or an earlier one. -/
theorem getValidPredictTimeLength_cases (f : Filter d K) (targetTs : K) :
    (¬f.Capped intervals targetTs →
      f.getValidPredictTimeLength intervals targetTs = targetTs) ∧
    (f.Capped intervals targetTs →
      f.getValidPredictTimeLength intervals targetTs < targetTs) := by
  rw [Filter.Capped, Filter.getValidPredictTimeLength, Filter.predictLengthRatio, mul_one]
  constructor
  · intro h
    rw [min_eq_left (not_lt.mp h), sub_add_cancel]
  · intro h
    rw [min_eq_right h.le]
    linarith

/-- A call that is not capped sets the clock forward by the time step it applies. -/
theorem step_notCapped {c : Call d K} {f' : Filter d K} {es : List K} (hr : NoRestart c)
    (hc : NotCapped intervals f c) (h : f.step solve intervals c = some (f', es)) :
    f'.lastCorrectTime = f.lastCorrectTime + es.sum := by
  obtain ⟨rfl, rfl⟩ := Prod.mk.inj (Option.some.inj h)
  cases c with
  | startTracking ts meas => exact hr.elim
  | trackWithCorrect ts meas =>
    show ts = f.lastCorrectTime + [f.dtSeconds ts].sum
    rw [List.sum_singleton, Filter.dtSeconds, add_sub_cancel]
  | trackOnlyPred ts update =>
    cases update with
    | true =>
      show ts = f.lastCorrectTime +
        [f.dtSeconds (f.getValidPredictTimeLength intervals ts)].sum
      rw [(getValidPredictTimeLength_cases f ts).1 hc, List.sum_singleton, Filter.dtSeconds,
        add_sub_cancel]
    | false => exact (add_zero f.lastCorrectTime).symm
  | getTrackingStatus => exact (add_zero f.lastCorrectTime).symm
  | stopTracking => exact (add_zero f.lastCorrectTime).symm

/-- A capped prediction sets the clock further forward than the state. -/
theorem step_capped {c : Call d K} {f' : Filter d K} {es : List K}
    (hc : ¬NotCapped intervals f c) (h : f.step solve intervals c = some (f', es)) :
    f.lastCorrectTime + es.sum < f'.lastCorrectTime := by
  obtain ⟨rfl, rfl⟩ := Prod.mk.inj (Option.some.inj h)
  cases c with
  | trackOnlyPred ts update =>
    cases update with
    | true =>
      have hlt := (getValidPredictTimeLength_cases f ts).2 (not_not.mp hc)
      show f.lastCorrectTime +
        [f.dtSeconds (f.getValidPredictTimeLength intervals ts)].sum < ts
      rw [List.sum_singleton, Filter.dtSeconds, add_sub_cancel]
      exact hlt
    | false => exact absurd trivial hc
  | startTracking ts meas => exact absurd trivial hc
  | trackWithCorrect ts meas => exact absurd trivial hc
  | getTrackingStatus => exact absurd trivial hc
  | stopTracking => exact absurd trivial hc

namespace KFPredictor

/-- A call of the predictor with smoother, with the time step its filter applies. -/
def step (solve : Solver 3 K) (p : KFPredictor K) (c : SmoothCall K) :
    Option (KFPredictor K × List K) :=
  some ((KFPredictor.call solve p c).1, (p.filter.applied KFPredictor.intervals c.1).toList)

omit [IsStrictOrderedRing K] in
/-- The filter of the predictor makes the step of a filter. -/
theorem step_filter {solve : Solver 3 K} {p p' : KFPredictor K} {c : SmoothCall K} {es : List K}
    (h : step solve p c = some (p', es)) :
    p.filter.step solve KFPredictor.intervals c.1 = some (p'.filter, es) := by
  obtain ⟨rfl, rfl⟩ := Prod.mk.inj (Option.some.inj h)
  obtain ⟨c, smooth⟩ := c
  cases c <;> cases smooth <;> rfl

end KFPredictor

/-! ### Every run -/

/-- **The recorded time is right as long as no prediction is capped, and only so
long.**  For both predictors, in whatever state they were, and for every run of calls
after a `start_tracking`: `last_correct_time_` is the start time plus the time steps
applied to the state if and only if no prediction of the run that updates the state is
capped. -/
theorem lastCorrectTime_iff (solve₃ : Solver 3 K) (solve₂ : Solver 2 K) :
    (∀ (p : KFPredictor K) ts meas smooth as es p',
      Run (KFPredictor.step solve₃) (fun _ c => NoRestart c.1)
        (KFPredictor.call solve₃ p (.startTracking ts meas, smooth)).1 as es p' →
      (p'.filter.lastCorrectTime = ts + es.sum ↔
        Run (KFPredictor.step solve₃)
          (fun p c => NoRestart c.1 ∧ NotCapped KFPredictor.intervals p.filter c.1)
          (KFPredictor.call solve₃ p (.startTracking ts meas, smooth)).1 as es p')) ∧
    (∀ (f : Filter 2 K) ts meas as es f',
      Run (Filter.step solve₂ KFPredictor2d.intervals) (fun _ c => NoRestart c)
        (KFPredictor2d.call solve₂ f (.startTracking ts meas)).1 as es f' →
      (f'.lastCorrectTime = ts + es.sum ↔
        Run (Filter.step solve₂ KFPredictor2d.intervals)
          (fun f c => NoRestart c ∧ NotCapped KFPredictor2d.intervals f c)
          (KFPredictor2d.call solve₂ f (.startTracking ts meas)).1 as es f')) := by
  constructor
  · intro p ts meas smooth as es p' run
    -- the clock of the run is `last_correct_time_`, its trace the time steps applied
    exact run.clock_eq_iff (fun p => p.filter.lastCorrectTime)
      (fun p c p' es hr hc hs => step_notCapped hr hc (KFPredictor.step_filter hs))
      (fun p c p' es _ hc hs => step_capped hc (KFPredictor.step_filter hs))
  · intro f ts meas as es f' run
    exact run.clock_eq_iff (fun f => f.lastCorrectTime)
      (fun f c f' es hr hc hs => step_notCapped hr hc hs)
      (fun f c f' es _ hc hs => step_capped hc hs)

/-- A predictor that was started at time 0 in the origin. -/
def started : Filter 2 ℚ := Filter.startTracking .init 0 ⟨0, 0⟩

/-- The hand stands still. -/
theorem started_predictTimeInterval :
    started.predictTimeInterval KFPredictor2d.intervals = 4 / 100 := by
  have hstill : ∑ i, started.kfImpl.statePost (sVX i) ^ 2 = 0 := by
    refine Finset.sum_eq_zero fun i _ => ?_
    show (0 : ℚ) ^ 2 = 0
    norm_num
  rw [Filter.predictTimeInterval, hstill, if_pos (by norm_num), KFPredictor2d.intervals]

/-- A prediction for the next ten milliseconds. -/
theorem lastCorrectTime_iff_short :
    (started.call (fun S B => S⁻¹ * B) KFPredictor2d.intervals
        (.trackOnlyPred (1 / 100) true)).1.lastCorrectTime =
      0 + ((started.applied KFPredictor2d.intervals
        (.trackOnlyPred (1 / 100) true)).toList).sum := by
  have hc : ¬started.Capped KFPredictor2d.intervals (1 / 100) := by
    rw [Filter.Capped, started_predictTimeInterval, show started.lastMeasureTime = 0 from rfl,
      Filter.predictLengthRatio]
    norm_num
  exact ((lastCorrectTime_iff (fun S B => S⁻¹ * B) (fun S B => S⁻¹ * B)).2 .init 0 ⟨0, 0⟩
    [.trackOnlyPred (1 / 100) true] _ _ (Run.single trivial rfl)).mpr
    (Run.single ⟨trivial, hc⟩ rfl)

/-- A prediction for the next second: the state is propagated by 40 milliseconds, the
recorded time by the second. -/
theorem capped_prediction :
    ∃ es f, Run (Filter.step (fun S B => S⁻¹ * B) KFPredictor2d.intervals) (fun _ c => NoRestart c)
        started [.trackOnlyPred 1 true] es f ∧
      es.sum = 4 / 100 ∧ f.lastCorrectTime = 1 := by
  refine ⟨_, _, Run.single trivial rfl, ?_, rfl⟩
  show [started.dtSeconds
    (started.getValidPredictTimeLength KFPredictor2d.intervals 1)].sum = 4 / 100
  rw [List.sum_singleton, Filter.getValidPredictTimeLength, started_predictTimeInterval,
    Filter.dtSeconds, show started.lastMeasureTime = 0 from rfl,
    show started.lastCorrectTime = 0 from rfl, Filter.predictLengthRatio]
  norm_num

end Predictor

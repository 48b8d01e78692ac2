/-
The Kalman predictors `KFPredictor` and `KFPredictor2d`.

Both run the same code on three and on two coordinates; `Filter d` is their common
part.  The state of the filter is position, velocity and acceleration, of which the
position and the velocity are measured.

* `startTracking`, `trackWithCorrect`, `trackOnlyPred`, `stopTracking` — the calls;
* `KFPredictor2d`, `KFPredictor` — the two predictors, the second one with a smoother
  of its predictions;
* `Call`, `call`, `after`, `outputs` — histories of calls and what they return.

Time is a field with a linear order in the place of `double` and `float`.
-/
import HandTracking.Library.KalmanFilter
import HandTracking.OneEuroFilter

namespace Predictor

open Matrix

/-- Position, velocity and acceleration in `d` coordinates. -/
abbrev StateVar (d : ℕ) := Fin d ⊕ Fin d ⊕ Fin d

/-- Position and velocity in `d` coordinates. -/
abbrev MeasVar (d : ℕ) := Fin d ⊕ Fin d

variable {d : ℕ} {K : Type}

/-- `S_X`, `S_Y`, `S_Z` -/
@[match_pattern] abbrev sX (i : Fin d) : StateVar d := .inl i

/-- `S_VX`, `S_VY`, `S_VZ` -/
@[match_pattern] abbrev sVX (i : Fin d) : StateVar d := .inr (.inl i)

/-- `S_AX`, `S_AY`, `S_AZ` -/
@[match_pattern] abbrev sAX (i : Fin d) : StateVar d := .inr (.inr i)

/-- The measured state variables, in the order of the measurement. -/
def measured : MeasVar d → StateVar d
  | .inl i => sX i
  | .inr i => sVX i

/-- `PredictorState`: a position and its speed. -/
structure PredictorState (d : ℕ) (K : Type) where
  pos : Fin d → K
  vec : Fin d → K

/-- The linear solver of OpenCV, for the systems of `correct`. -/
abbrev Solver (d : ℕ) (K : Type) :=
  Matrix (MeasVar d) (MeasVar d) K → Matrix (MeasVar d) (StateVar d) K →
    Matrix (MeasVar d) (StateVar d) K

/-- The members of a predictor, but its smoother. -/
structure Filter (d : ℕ) (K : Type) where
  kfImpl : KalmanFilter K (StateVar d) (MeasVar d)
  lastCorrectTime : K
  lastMeasureTime : K
  isTracked : Bool
  momentum : Fin d → K

/-- `predict_time_interval_vec`, indexed by `hand_static_state`: a moving hand has the
first and longest interval. -/
structure Intervals (K : Type) where
  moving : K
  almostStatic : K
  static : K

variable [Field K]

/-- A state as a measurement of the filter. -/
def PredictorState.measurement (meas : PredictorState d K) : MeasVar d → K
  | .inl i => meas.pos i
  | .inr i => meas.vec i

/-- `H`: one row for each measured variable. -/
def measurementMatrix : Matrix (MeasVar d) (StateVar d) K :=
  of fun r c => if c = measured r then 1 else 0

/-- The diagonal of `Q`. -/
def processNoise : StateVar d → K
  | sX _ => 1
  | _ => 1 / 10

namespace Filter

/-- The matrices that are set anew; the covariances of the error are not among them. -/
def resetKalmanFilter (f : Filter d K) : Filter d K :=
  { f with kfImpl := { f.kfImpl with
      transitionMatrix := 1
      measurementMatrix := Predictor.measurementMatrix
      processNoiseCov := diagonal processNoise
      measurementNoiseCov := diagonal fun _ => 1 / 10000 } }

/-- `init`: a new `cv::KalmanFilter`, whose covariances of the error are zero. -/
def init : Filter d K :=
  resetKalmanFilter
    { kfImpl :=
        { statePre := 0
          statePost := 0
          transitionMatrix := 1
          measurementMatrix := 0
          processNoiseCov := 1
          measurementNoiseCov := 1
          errorCovPre := 0
          errorCovPost := 0 }
      lastCorrectTime := 0
      lastMeasureTime := 0
      isTracked := false
      momentum := 0 }

/-- `start_tracking`: the filter starts from the measurement, without acceleration. -/
def startTracking (f : Filter d K) (targetTs : K) (meas : PredictorState d K) : Filter d K :=
  let f := f.resetKalmanFilter
  let state : StateVar d → K
    | sX i => meas.pos i
    | sVX i => meas.vec i
    | sAX _ => 0
  { f with
    kfImpl := { f.kfImpl with statePost := state, statePre := state }
    lastCorrectTime := targetTs
    lastMeasureTime := targetTs
    momentum := meas.pos
    isTracked := true }

/-- `stop_tracking` -/
def stopTracking (f : Filter d K) : Filter d K := { f with isTracked := false }

/-- `dt_seconds` of `update_transition_matrix` -/
def dtSeconds (f : Filter d K) (targetTs : K) : K := targetTs - f.lastCorrectTime

/-- `predict`: the state one step later. -/
def predict (f : Filter d K) : Filter d K × PredictorState d K :=
  let kfImpl := f.kfImpl.predict
  ({ f with kfImpl := kfImpl },
    ⟨fun i => kfImpl.statePre (sX i), fun i => kfImpl.statePre (sVX i)⟩)

/-- `correct`: the state after a measurement; the position is smoothed. -/
def correct (solve : Solver d K) (f : Filter d K) (meas : PredictorState d K) :
    Filter d K × PredictorState d K :=
  let kfImpl := f.kfImpl.correct solve meas.measurement
  let momentum i := 6 / 10 * f.momentum i + (1 - 6 / 10) * kfImpl.statePost (sX i)
  ({ f with kfImpl := kfImpl, momentum := momentum },
    ⟨momentum, fun i => kfImpl.statePost (sVX i)⟩)

variable [LinearOrder K]

/-- The entries of the transition matrix for a time step `dt`; the others stay. -/
def transition (A : Matrix (StateVar d) (StateVar d) K) (dt : K) :
    Matrix (StateVar d) (StateVar d) K
  | sX i, sVX j => if i = j then dt else A (sX i) (sVX j)
  | sVX i, sAX j => if i = j then |dt| else A (sVX i) (sAX j)
  | sX i, sAX j => if i = j then 1 / 2 * |dt| * dt else A (sX i) (sAX j)
  | r, c => A r c

/-- `update_transition_matrix`: the time since the last correction. -/
def updateTransitionMatrix (f : Filter d K) (targetTs : K) : Filter d K :=
  { f with kfImpl := { f.kfImpl with
      transitionMatrix := transition f.kfImpl.transitionMatrix (f.dtSeconds targetTs) } }

/-- `track_with_correct`: a prediction and its correction. -/
def trackWithCorrect (solve : Solver d K) (f : Filter d K) (targetTs : K)
    (meas : PredictorState d K) : Filter d K × (Fin d → K) :=
  let f := (f.updateTransitionMatrix targetTs).predict.1
  let (f, cpred) := f.correct solve meas
  ({ f with lastCorrectTime := targetTs, lastMeasureTime := targetTs }, cpred.pos)

/-- `predict_length_ratio_` -/
def predictLengthRatio : K := 1

/-- `predict_time_interval_vec[hand_static_state]`: the speed of the hand is compared
with the thresholds 0.1 and 0.2 by the squares. -/
def predictTimeInterval (intervals : Intervals K) (f : Filter d K) : K :=
  let handSpeedSq := ∑ i, f.kfImpl.statePost (sVX i) ^ 2
  if handSpeedSq < (1 / 10) ^ 2 then intervals.static
  else if handSpeedSq < (2 / 10) ^ 2 then intervals.almostStatic
  else intervals.moving

/-- `get_valid_predict_time_length`: the time to predict for, at most an interval after the last
measurement. -/
def getValidPredictTimeLength (intervals : Intervals K) (f : Filter d K) (targetTs : K) : K :=
  min ((targetTs - f.lastMeasureTime) * predictLengthRatio) (f.predictTimeInterval intervals) +
    f.lastMeasureTime

/-- `track_only_pred`: a prediction, which is kept if `updateState` says so. -/
def trackOnlyPred (solve : Solver d K) (intervals : Intervals K) (f : Filter d K) (targetTs : K)
    (updateState : Bool) : Filter d K × (Fin d → K) :=
  let validTargetTs := f.getValidPredictTimeLength intervals targetTs
  let f := f.updateTransitionMatrix validTargetTs
  if updateState then
    let (f, pred) := f.predict
    let f := (f.correct solve pred).1
    ({ f with lastCorrectTime := targetTs }, pred.pos)
  else
    let predState := f.kfImpl.transitionMatrix *ᵥ f.kfImpl.statePost
    (f, fun i => predState (sX i))

end Filter

/-! ### Histories of calls -/

/-- The calls of a predictor. -/
inductive Call (d : ℕ) (K : Type) where
  | startTracking (targetTs : K) (meas : PredictorState d K)
  | trackWithCorrect (targetTs : K) (meas : PredictorState d K)
  | trackOnlyPred (targetTs : K) (updateState : Bool)
  | getTrackingStatus
  | stopTracking

/-- What a call returns. -/
inductive Output (d : ℕ) (K : Type) where
  | done
  | point (pos : Fin d → K)
  | status (isTracked : Bool)

variable [LinearOrder K]

/-- One call and what it returns. -/
def Filter.call (solve : Solver d K) (intervals : Intervals K) (f : Filter d K) :
    Call d K → Filter d K × Output d K
  | .startTracking targetTs meas => (f.startTracking targetTs meas, .done)
  | .trackWithCorrect targetTs meas =>
    let (f, pos) := f.trackWithCorrect solve targetTs meas
    (f, .point pos)
  | .trackOnlyPred targetTs updateState =>
    let (f, pos) := f.trackOnlyPred solve intervals targetTs updateState
    (f, .point pos)
  | .getTrackingStatus => (f, .status f.isTracked)
  | .stopTracking => (f.stopTracking, .done)

namespace KFPredictor2d

/-- The intervals of `KFPredictor2d`. -/
def intervals : Intervals K := ⟨1 / 10, 8 / 100, 4 / 100⟩

/-- A call of `KFPredictor2d`. -/
def call (solve : Solver 2 K) : Filter 2 K → Call 2 K → Filter 2 K × Output 2 K :=
  Filter.call solve intervals

end KFPredictor2d

/-- `KFPredictor`: its predictions of one point are smoothed on demand. -/
structure KFPredictor (K : Type) [Field K] [LinearOrder K] where
  filter : Filter 3 K
  predictSmoother : SeqManager3D 1 K

/-- The glasses whose parameters differ. -/
inductive GlassesType where
  | flora
  | ella
  deriving DecidableEq, Repr

namespace KFPredictor

/-- The parameters of `reset_predict_smoother` for each coordinate. -/
def centerParams [IsStrictOrderedRing K] (glassesType : GlassesType) (c : Fin 3) :
    OneEuroParams K where
  freq := 60
  mincutoff := 1 / 10
  beta := match glassesType with
    | .flora => 20
    | .ella => 10
  dcutoff := if c = 2 then 5 / 10 else 8 / 10
  freq_pos := sixty_pos
  mincutoff_pos := by positivity
  beta_nonneg := by cases glassesType <;> positivity
  dcutoff_pos := by split_ifs <;> positivity

/-- The intervals of `KFPredictor`. -/
def intervals : Intervals K := ⟨1 / 10, 8 / 100, 3 / 100⟩

/-- A predictor that tracks nothing. -/
def init (params : Fin 3 → OneEuroParams K) : KFPredictor K where
  filter := .init
  predictSmoother := .init 1 params

/-- A call, with `with_smooth` for `track_only_pred`. -/
abbrev SmoothCall (K : Type) := Call 3 K × Bool

/-- A call of `KFPredictor`, whose result may be smoothed. -/
def call (solve : Solver 3 K) (p : KFPredictor K) : SmoothCall K → KFPredictor K × Output 3 K
  | (.startTracking targetTs meas, _) =>
    (⟨p.filter.startTracking targetTs meas, p.predictSmoother.reset⟩, .done)
  | (.trackOnlyPred targetTs updateState, withSmooth) =>
    let pred := p.filter.trackOnlyPred solve intervals targetTs updateState
    if withSmooth then
      let smoothed := p.predictSmoother.getFilterHandData fun _ => pred.2
      (⟨pred.1, smoothed.1⟩, .point (smoothed.2 0))
    else (⟨pred.1, p.predictSmoother⟩, .point pred.2)
  | (c, _) =>
    let result := p.filter.call solve intervals c
    (⟨result.1, p.predictSmoother⟩, result.2)

end KFPredictor

/-- The state after a history of calls. -/
def after {σ γ o : Type} (call : σ → γ → σ × o) : σ → List γ → σ :=
  List.foldl fun s c => (call s c).1

/-- What the calls of a history return. -/
def outputs {σ γ o : Type} (call : σ → γ → σ × o) : σ → List γ → List o
  | _, [] => []
  | s, c :: cs => (call s c).2 :: outputs call (call s c).1 cs

section Histories

variable {σ γ o p : Type} {call : σ → γ → σ × o} {s : σ} {h : List γ}

/-- What a call of some kind brings about, and every call keeps, is there after a history with
such a call. -/
theorem after_of_mem {P : σ → Prop} {p : γ → Prop}
    (hstep : ∀ s c, p c ∨ P s → P (call s c).1) (hsome : (∃ c ∈ h, p c) ∨ P s) :
    P (after call s h) := by
  induction h generalizing s with
  | nil => exact hsome.resolve_left fun ⟨c, hc, _⟩ => List.not_mem_nil hc
  | cons c h ih =>
    refine ih ?_
    rcases hsome with ⟨d, hd, hkind⟩ | hthere
    · rcases List.mem_cons.mp hd with rfl | hd
      · exact .inr (hstep s d (.inl hkind))
      · exact .inl ⟨d, hd, hkind⟩
    · exact .inr (hstep s c (.inr hthere))

/-- What can be seen of the state stays, if only calls of some kind change it and there is none
of them. -/
theorem view_after_eq (view : σ → p) {P : γ → Prop}
    (hstep : ∀ s c, ¬ P c → view (call s c).1 = view s) (hnone : ∀ c ∈ h, ¬ P c) :
    view (after call s h) = view s := by
  induction h generalizing s with
  | nil => rfl
  | cons c h ih =>
    have hrest : view (after call (call s c).1 h) = view (call s c).1 :=
      ih fun d hd => hnone d (List.mem_cons_of_mem c hd)
    exact hrest.trans (hstep s c (hnone c List.mem_cons_self))

end Histories

section TwoRuns

variable {σ γ o p : Type} {call : σ → γ → σ × o} {R : σ → σ → Prop} {view : o → p} {s t : σ}

/-- States in a relation that the calls preserve are not told apart by what can be seen of
the outputs. -/
theorem map_outputs_eq_of_rel (hR : ∀ s t c, R s t →
      view (call s c).2 = view (call t c).2 ∧ R (call s c).1 (call t c).1)
    (h : R s t) (k : List γ) : (outputs call s k).map view = (outputs call t k).map view := by
  induction k generalizing s t with
  | nil => rfl
  | cons c k ih =>
    obtain ⟨hview, hrel⟩ := hR s t c h
    rw [outputs, outputs, List.map_cons, List.map_cons, hview, ih hrel]

theorem outputs_eq_of_rel (hR : ∀ s t c, R s t →
      (call s c).2 = (call t c).2 ∧ R (call s c).1 (call t c).1)
    (h : R s t) (k : List γ) : outputs call s k = outputs call t k := by
  have hmap : (outputs call s k).map id = (outputs call t k).map id :=
    map_outputs_eq_of_rel hR h k
  rwa [List.map_id, List.map_id] at hmap

end TwoRuns

end Predictor

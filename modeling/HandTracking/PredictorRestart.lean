/-
What a Kalman predictor remembers across `start_tracking`.

A restart sets everything that later calls read, but for the covariance of the error:
`reset_kalman_fileter` leaves `errorCovPost` as it was.

* `outputs_eq_of_errorCovPost` — two filters with the same covariance return the same
  after a restart;
* `errorCovPost_eq_of_outputs` — and only then: a correction and three predictions tell
  the gain, the gains for two time steps tell the covariance;
* `restart_forgets` — both directions, for every two histories of both predictors;
* `restart_remembers` — a correction that tells a used predictor from a new one.
-/
import HandTracking.Predictor

namespace Predictor

open Matrix KalmanFilter

variable {d : ℕ} {K : Type} [Field K] [LinearOrder K]
  {solve : Solver d K} {intervals : Intervals K} {f g : Filter d K}

/-! ### A restart sets everything else -/

/-- The predicted covariance is computed anew before it is read. -/
def Filter.forget (f : Filter d K) : Filter d K :=
  { f with kfImpl := { f.kfImpl with errorCovPre := 0 } }

variable (solve intervals) in
theorem call_forget (f : Filter d K) (c : Call d K) :
    (f.call solve intervals c).2 = (f.forget.call solve intervals c).2 ∧
      (f.call solve intervals c).1.forget = (f.forget.call solve intervals c).1.forget := by
  cases c with
  | startTracking ts meas => exact ⟨rfl, rfl⟩
  | trackWithCorrect ts meas => exact ⟨rfl, rfl⟩
  | trackOnlyPred ts update => cases update <;> exact ⟨rfl, rfl⟩
  | getTrackingStatus => exact ⟨rfl, rfl⟩
  | stopTracking => exact ⟨rfl, rfl⟩

variable (solve intervals) in
theorem call_eq_of_forget (h : f.forget = g.forget) (c : Call d K) :
    (f.call solve intervals c).2 = (g.call solve intervals c).2 ∧
      (f.call solve intervals c).1.forget = (g.call solve intervals c).1.forget := by
  obtain ⟨hf, hf'⟩ := call_forget solve intervals f c
  obtain ⟨hg, hg'⟩ := call_forget solve intervals g c
  rw [hf, hg, hf', hg', h]
  exact ⟨rfl, rfl⟩

theorem outputs_eq_of_forget (h : f.forget = g.forget) (k : List (Call d K)) :
    outputs (Filter.call solve intervals) f k = outputs (Filter.call solve intervals) g k :=
  outputs_eq_of_rel (R := fun f g => f.forget = g.forget)
    (fun _ _ c h => call_eq_of_forget solve intervals h c) h k

omit [LinearOrder K] in
theorem startTracking_forget (h : f.kfImpl.errorCovPost = g.kfImpl.errorCovPost) (ts : K)
    (meas : PredictorState d K) :
    (f.startTracking ts meas).forget = (g.startTracking ts meas).forget := by
  simp only [Filter.forget, Filter.startTracking, Filter.resetKalmanFilter, h]

theorem outputs_eq_of_errorCovPost (h : f.kfImpl.errorCovPost = g.kfImpl.errorCovPost) (ts : K)
    (meas : PredictorState d K) (k : List (Call d K)) :
    outputs (Filter.call solve intervals) f (.startTracking ts meas :: k) =
      outputs (Filter.call solve intervals) g (.startTracking ts meas :: k) := by
  rw [outputs, outputs]
  exact congrArg _ (outputs_eq_of_forget (startTracking_forget h ts meas) k)

/-! ### The covariances of a reachable filter -/

variable [IsStrictOrderedRing K]

/-- The noises are those of `reset_kalman_fileter`, the error has a covariance. -/
structure Filter.Sound (f : Filter d K) : Prop where
  processNoise : IsCovariance f.kfImpl.processNoiseCov
  measurementNoise : f.kfImpl.measurementNoiseCov = diagonal fun _ => 1 / 10000
  errorCov : IsCovariance f.kfImpl.errorCovPost

theorem noise_pos : ∀ i : MeasVar d, (0 : K) < (fun _ => 1 / 10000) i := fun _ => by positivity

theorem processNoise_nonneg (i : StateVar d) : (0 : K) ≤ processNoise i := by
  rcases i with i | i | i <;> simp only [processNoise] <;> positivity

theorem resetKalmanFilter_sound (h : IsCovariance f.kfImpl.errorCovPost) :
    f.resetKalmanFilter.Sound where
  processNoise := isCovariance_diagonal processNoise_nonneg
  measurementNoise := rfl
  errorCov := h

theorem init_sound : (Filter.init : Filter d K).Sound :=
  resetKalmanFilter_sound isCovariance_zero

theorem startTracking_sound (h : f.Sound) (ts : K) (meas : PredictorState d K) :
    (f.startTracking ts meas).Sound :=
  ⟨(resetKalmanFilter_sound h.errorCov).processNoise, rfl, h.errorCov⟩

/-- A prediction for a time step followed by a correction keeps the covariance. -/
theorem correct_predict_sound (hsolve : Solves solve) (h : f.Sound) (ts : K)
    (meas : PredictorState d K) :
    (((f.updateTransitionMatrix ts).predict.1.correct solve meas).1).Sound := by
  have hpre : IsCovariance (f.updateTransitionMatrix ts).kfImpl.predict.errorCovPre :=
    errorCovPre_predict_isCovariance h.errorCov h.processNoise
  exact ⟨h.processNoise, h.measurementNoise, errorCovPost_correct_isCovariance hsolve hpre
    h.measurementNoise noise_pos meas.measurement⟩

theorem call_sound (hsolve : Solves solve) (h : f.Sound) (c : Call d K) :
    (f.call solve intervals c).1.Sound := by
  cases c with
  | startTracking ts meas => exact startTracking_sound h ts meas
  | trackWithCorrect ts meas =>
    have hs := correct_predict_sound hsolve h ts meas
    exact ⟨hs.processNoise, hs.measurementNoise, hs.errorCov⟩
  | trackOnlyPred ts update =>
    cases update with
    | true =>
      have hs := correct_predict_sound hsolve h (f.getValidPredictTimeLength intervals ts)
        (f.updateTransitionMatrix (f.getValidPredictTimeLength intervals ts)).predict.2
      exact ⟨hs.processNoise, hs.measurementNoise, hs.errorCov⟩
    | false => exact ⟨h.processNoise, h.measurementNoise, h.errorCov⟩
  | getTrackingStatus => exact h
  | stopTracking => exact ⟨h.processNoise, h.measurementNoise, h.errorCov⟩

theorem after_sound (hsolve : Solves solve) (h : List (Call d K)) :
    (after (Filter.call solve intervals) .init h).Sound := by
  have key : ∀ (h : List (Call d K)) (f : Filter d K), f.Sound →
      (after (Filter.call solve intervals) f h).Sound := by
    intro h
    induction h with
    | nil => exact fun f hf => hf
    | cons c h ih => exact fun f hf => ih _ (call_sound hsolve hf c)
  exact key h .init init_sound

/-! ### What a restarted filter shows -/

omit [IsStrictOrderedRing K] in
theorem transition_transition (A : Matrix (StateVar d) (StateVar d) K) (t dt : K) :
    Filter.transition (Filter.transition A t) dt = Filter.transition A dt := by
  ext r c
  rcases r with i | i | i <;> rcases c with j | j | j <;> simp only [Filter.transition] <;>
    split_ifs <;> rfl

omit [IsStrictOrderedRing K] in
theorem transition_one_mulVec_sX (dt : K) (x : StateVar d → K) (i : Fin d) :
    (Filter.transition 1 dt *ᵥ x) (sX i) =
      x (sX i) + dt * x (sVX i) + 1 / 2 * |dt| * dt * x (sAX i) := by
  simp [mulVec, dotProduct, Filter.transition, Matrix.one_apply, add_assoc]

omit [IsStrictOrderedRing K] in
theorem transition_one_mulVec_sVX (dt : K) (x : StateVar d → K) (i : Fin d) :
    (Filter.transition 1 dt *ᵥ x) (sVX i) = x (sVX i) + |dt| * x (sAX i) := by
  simp [mulVec, dotProduct, Filter.transition, Matrix.one_apply]

omit [IsStrictOrderedRing K] in
theorem transition_one_transpose_mulVec (dt : K) (x : StateVar d → K) (i : Fin d) :
    ((Filter.transition 1 dt)ᵀ *ᵥ x) (sX i) = x (sX i) ∧
      ((Filter.transition 1 dt)ᵀ *ᵥ x) (sVX i) = dt * x (sX i) + x (sVX i) ∧
      ((Filter.transition 1 dt)ᵀ *ᵥ x) (sAX i) =
        1 / 2 * |dt| * dt * x (sX i) + |dt| * x (sVX i) + x (sAX i) := by
  refine ⟨?_, ?_, ?_⟩ <;>
    simp [mulVec, dotProduct, Filter.transition, Matrix.one_apply, eq_comm, add_assoc]

theorem transition_one_zero : Filter.transition 1 (0 : K) = (1 : Matrix (StateVar d) _ K) := by
  ext r c
  rcases r with i | i | i <;> rcases c with j | j | j <;>
    simp [Filter.transition, Matrix.one_apply]

/-- The velocities after a time step of one second. -/
theorem transition_one_one_sVX {A : Matrix (StateVar d) (StateVar d) K}
    (hA : A = Filter.transition 1 1) (P : Matrix (StateVar d) (StateVar d) K) (i j : Fin d) :
    (A * P * Aᵀ) (sVX i) (sVX j) =
      P (sVX i) (sVX j) + P (sAX i) (sVX j) + (P (sVX i) (sAX j) + P (sAX i) (sAX j)) := by
  simp [hA, Matrix.mul_apply, Filter.transition, Matrix.one_apply]

/-- The filter after a restart at time 0 in the origin and a prediction for time `t`. -/
def Filter.restarted (f : Filter d K) (t : K) : KalmanFilter K (StateVar d) (MeasVar d) :=
  (((f.startTracking 0 ⟨0, 0⟩).updateTransitionMatrix t).predict.1).kfImpl

/-- A restart in the origin, a correction at time `t` and a prediction `dt` later. -/
def probe (t dt : K) (z : MeasVar d → K) : List (Call d K) :=
  [.startTracking 0 ⟨0, 0⟩, .trackWithCorrect t ⟨fun i => z (.inl i), fun i => z (.inr i)⟩,
    .trackOnlyPred (t + dt) false]

/-- All the intervals exceed 20 milliseconds. -/
def Intervals.Long (intervals : Intervals K) : Prop :=
  2 / 100 ≤ intervals.moving ∧ 2 / 100 ≤ intervals.almostStatic ∧ 2 / 100 ≤ intervals.static

omit [IsStrictOrderedRing K] in
theorem Intervals.Long.le (hI : intervals.Long) (f : Filter d K) :
    2 / 100 ≤ f.predictTimeInterval intervals := by
  rw [Filter.predictTimeInterval]
  split_ifs
  · exact hI.2.2
  · exact hI.2.1
  · exact hI.1

omit [IsStrictOrderedRing K] in
/-- The corrected state is the gain applied to the measurement. -/
theorem restarted_correct_statePost (f : Filter d K) (t : K) (z : MeasVar d → K) :
    ((f.restarted t).correct solve z).statePost = (f.restarted t).gain solve *ᵥ z := by
  have hpre : (f.restarted t).statePre = 0 := by
    show Filter.transition 1 _ *ᵥ _ = 0
    rw [← mulVec_zero (Filter.transition 1 _)]
    congr 1
    funext i
    rcases i with i | i | i <;> rfl
  rw [KalmanFilter.correct]
  dsimp only
  rw [hpre, mulVec_zero, sub_zero, zero_add]

omit [IsStrictOrderedRing K] in
variable (solve) in
/-- The last prediction of a probe, as long as it is not capped. -/
theorem probe_output (hI : intervals.Long) (f : Filter d K) (t : K) {dt : K}
    (hdt : dt ≤ 2 / 100) (z : MeasVar d → K) :
    (outputs (Filter.call solve intervals) f (probe t dt z))[2]? =
      some (.point fun i => ((f.restarted t).gain solve *ᵥ z) (sX i) +
        dt * ((f.restarted t).gain solve *ᵥ z) (sVX i) +
        1 / 2 * |dt| * dt * ((f.restarted t).gain solve *ᵥ z) (sAX i)) := by
  set f₂ := ((f.startTracking 0 ⟨0, 0⟩).trackWithCorrect solve t
    ⟨fun i => z (.inl i), fun i => z (.inr i)⟩).1 with hf₂
  -- the intervals exceed `dt`, so the cap does not change the target
  have hvalid : f₂.getValidPredictTimeLength intervals (t + dt) = t + dt := by
    have hle := hI.le f₂
    rw [Filter.getValidPredictTimeLength, Filter.predictLengthRatio,
      show f₂.lastMeasureTime = t from rfl, add_sub_cancel_left, mul_one,
      min_eq_left (hdt.trans hle), add_comm]
  have hdts : f₂.dtSeconds (t + dt) = dt := by
    rw [Filter.dtSeconds, show f₂.lastCorrectTime = t from rfl, add_sub_cancel_left]
  -- a restart in the origin predicts 0, so the correction is the gain alone
  have hpost : f₂.kfImpl.statePost = (f.restarted t).gain solve *ᵥ z := by
    rw [← restarted_correct_statePost]
    show ((f.restarted t).correct solve _).statePost = _
    congr 2
    funext i
    rcases i with i | i <;> rfl
  have hmat : f₂.kfImpl.transitionMatrix =
      Filter.transition 1 ((f.startTracking 0 ⟨0, 0⟩).dtSeconds t) := rfl
  show some (Output.point (f₂.trackOnlyPred solve intervals (t + dt) false).2) = _
  congr 2
  funext i
  show ((f₂.updateTransitionMatrix
    (f₂.getValidPredictTimeLength intervals (t + dt))).kfImpl.transitionMatrix *ᵥ
      f₂.kfImpl.statePost) (sX i) = _
  rw [hvalid, Filter.updateTransitionMatrix]
  dsimp only
  rw [hdts, hmat, transition_transition, transition_one_mulVec_sX, hpost]

/-- Three predictions tell position, velocity and acceleration. -/
theorem eq_of_predictions {x y : StateVar d → K}
    (h : ∀ dt : K, dt ≤ 2 / 100 → ∀ i,
      x (sX i) + dt * x (sVX i) + 1 / 2 * |dt| * dt * x (sAX i) =
        y (sX i) + dt * y (sVX i) + 1 / 2 * |dt| * dt * y (sAX i)) : x = y := by
  have h₀ := h 0 (by positivity)
  have h₁ := h (1 / 100) (by linarith [show (0 : K) < 1 / 100 by positivity])
  have h₂ := h (2 / 100) le_rfl
  -- the time steps 0, 1/100 and 2/100 give three equations for each coordinate
  have habs₁ : |(1 / 100 : K)| = 1 / 100 := abs_of_pos (by positivity)
  have habs₂ : |(2 / 100 : K)| = 2 / 100 := abs_of_pos (by positivity)
  have hpos : ∀ i, x (sX i) = y (sX i) := fun i => by simpa using h₀ i
  have hacc : ∀ i, x (sAX i) = y (sAX i) := fun i => by
    have e₁ := h₁ i
    have e₂ := h₂ i
    rw [habs₁] at e₁
    rw [habs₂] at e₂
    linarith [hpos i]
  funext k
  rcases k with i | i | i
  · exact hpos i
  · have e₁ := h₁ i
    rw [habs₁] at e₁
    linarith [hpos i, hacc i]
  · exact hacc i

/-- A restart makes the filters equal: they return the same afterwards. -/
def RestartEqual (solve : Solver d K) (intervals : Intervals K) (f g : Filter d K) : Prop :=
  ∀ ts meas k, outputs (Filter.call solve intervals) f (.startTracking ts meas :: k) =
    outputs (Filter.call solve intervals) g (.startTracking ts meas :: k)

theorem gain_eq_of_outputs (hI : intervals.Long) (h : RestartEqual solve intervals f g) (t : K) :
    (f.restarted t).gain solve = (g.restarted t).gain solve := by
  -- the third output of a probe with any measurement shows the gain applied to it
  refine mulVec_injective (funext fun z => eq_of_predictions fun dt hdt i => ?_)
  have hout := congrArg (fun l => l[2]?) (h 0 ⟨0, 0⟩ (probe t dt z).tail)
  have hf := probe_output solve hI f t hdt z
  have hg := probe_output solve hI g t hdt z
  have heq := Option.some_inj.mp (hf.symm.trans (hout.trans hg))
  exact congrFun (Output.point.inj heq) i

omit [LinearOrder K] [IsStrictOrderedRing K] in
/-- The covariances with the measured variables are columns of the covariance. -/
theorem mul_measurementMatrix_transpose {k : KalmanFilter K (StateVar d) (MeasVar d)}
    (hk : k.measurementMatrix = measurementMatrix) (r : StateVar d) (c : MeasVar d) :
    (k.errorCovPre * k.measurementMatrixᵀ) r c = k.errorCovPre r (measured c) := by
  rw [hk, Matrix.mul_apply, Finset.sum_eq_single (measured c)]
  · simp [measurementMatrix]
  · intro k _ hk
    simp [measurementMatrix, hk]
  · intro hc
    exact absurd (Finset.mem_univ _) hc

theorem cross_eq_of_outputs (hsolve : Solves solve) (hI : intervals.Long) (hf : f.Sound)
    (hg : g.Sound) (h : RestartEqual solve intervals f g) (t : K) (r : StateVar d) (c : MeasVar d) :
    (f.restarted t).errorCovPre r (measured c) = (g.restarted t).errorCovPre r (measured c) := by
  have hf' := startTracking_sound hf 0 ⟨0, 0⟩
  have hg' := startTracking_sound hg 0 ⟨0, 0⟩
  have hcross := cross_eq_of_gain_eq hsolve
    (errorCovPre_predict_isCovariance hf'.errorCov hf'.processNoise :
      IsCovariance (f.restarted t).errorCovPre)
    (errorCovPre_predict_isCovariance hg'.errorCov hg'.processNoise :
      IsCovariance (g.restarted t).errorCovPre)
    hf'.measurementNoise hg'.measurementNoise noise_pos rfl (gain_eq_of_outputs hI h t)
  have hrc := congrFun (congrFun hcross r) c
  have hf'' := mul_measurementMatrix_transpose (rfl : (f.restarted t).measurementMatrix = _) r c
  have hg'' := mul_measurementMatrix_transpose (rfl : (g.restarted t).measurementMatrix = _) r c
  exact hf''.symm.trans (hrc.trans hg'')

omit [IsStrictOrderedRing K] in
theorem predicted_errorCovPre (f : Filter d K) (ts t : K) (meas : PredictorState d K) :
    (((f.startTracking ts meas).updateTransitionMatrix t).predict.1).kfImpl.errorCovPre =
      Filter.transition 1 (t - ts) * f.kfImpl.errorCovPost * (Filter.transition 1 (t - ts))ᵀ +
        diagonal processNoise := rfl

omit [IsStrictOrderedRing K] in
theorem restarted_errorCovPre (f : Filter d K) (t : K) :
    (f.restarted t).errorCovPre =
      Filter.transition 1 t * f.kfImpl.errorCovPost * (Filter.transition 1 t)ᵀ +
        diagonal processNoise := by
  rw [Filter.restarted, predicted_errorCovPre, sub_zero]

/-- **Filters that return the same after a restart have the same covariance.**  The
gain for a time step of zero tells all of it but the accelerations, the gain for one
second tells these. -/
theorem errorCovPost_eq_of_outputs (hsolve : Solves solve) (hI : intervals.Long) (hf : f.Sound)
    (hg : g.Sound) (h : RestartEqual solve intervals f g) :
    f.kfImpl.errorCovPost = g.kfImpl.errorCovPost := by
  set P := f.kfImpl.errorCovPost with hP
  set P' := g.kfImpl.errorCovPost with hP'
  -- at the time step 0 the predicted covariance is the old one and the noise
  have hcol : ∀ r (c : MeasVar d), P r (measured c) = P' r (measured c) := by
    intro r c
    have hc := cross_eq_of_outputs hsolve hI hf hg h 0 r c
    rw [restarted_errorCovPre, restarted_errorCovPre, transition_one_zero, transpose_one,
      Matrix.one_mul, Matrix.mul_one,
      Matrix.one_mul, Matrix.mul_one, Matrix.add_apply, Matrix.add_apply] at hc
    exact add_right_cancel hc
  have hsymm : ∀ r c, P r c = P c r := fun r c => congrFun (congrFun hf.errorCov.symm c) r
  have hsymm' : ∀ r c, P' r c = P' c r := fun r c => congrFun (congrFun hg.errorCov.symm c) r
  have hrow : ∀ (r : MeasVar d) c, P (measured r) c = P' (measured r) c := by
    intro r c
    rw [hsymm, hsymm', hcol]
  -- after one second the covariance of the velocities contains that of the accelerations
  have hacc : ∀ i j : Fin d, P (sAX i) (sAX j) = P' (sAX i) (sAX j) := by
    intro i j
    have hc := cross_eq_of_outputs hsolve hI hf hg h 1 (sVX i) (.inr j)
    rw [restarted_errorCovPre, restarted_errorCovPre, Matrix.add_apply, Matrix.add_apply] at hc
    have hc' := add_right_cancel hc
    have hv := transition_one_one_sVX rfl P i j
    have hv' := transition_one_one_sVX rfl P' i j
    have hsum := hv.symm.trans (hc'.trans hv')
    have e₁ := hrow (.inr i) (sVX j)
    have e₂ := hcol (sAX i) (.inr j)
    have e₃ := hrow (.inr i) (sAX j)
    simp only [measured] at e₁ e₂ e₃
    linarith
  ext r c
  rcases c with j | j | j
  · exact hcol r (.inl j)
  · exact hcol r (.inr j)
  · rcases r with i | i | i
    · exact hrow (.inl i) (sAX j)
    · exact hrow (.inr i) (sAX j)
    · exact hacc i j

/-! ### The smoother -/

namespace KFPredictor

variable {solve : Solver 3 K} {p q : KFPredictor K}

omit [IsStrictOrderedRing K] in
theorem call_filter (p : KFPredictor K) (c : SmoothCall K) :
    (KFPredictor.call solve p c).1.filter = (p.filter.call solve KFPredictor.intervals c.1).1 := by
  obtain ⟨c, smooth⟩ := c
  cases c <;> cases smooth <;> rfl

omit [IsStrictOrderedRing K] in
theorem after_filter (p : KFPredictor K) (h : List (SmoothCall K)) :
    (after (KFPredictor.call solve) p h).filter =
      after (Filter.call solve KFPredictor.intervals) p.filter (h.map Prod.fst) := by
  induction h generalizing p with
  | nil => rfl
  | cons c h ih =>
    have hc := ih (KFPredictor.call solve p c).1
    rw [call_filter] at hc
    exact hc

omit [IsStrictOrderedRing K] in
variable (solve) in
/-- Without smoothing the predictor returns what its filter does. -/
theorem outputs_not_smooth (p : KFPredictor K) (k : List (Call 3 K)) :
    outputs (KFPredictor.call solve) p (k.map fun c => (c, false)) =
      outputs (Filter.call solve KFPredictor.intervals) p.filter k := by
  induction k generalizing p with
  | nil => rfl
  | cons c k ih =>
    have hc := ih (KFPredictor.call solve p (c, false)).1
    rw [call_filter] at hc
    have hout : (KFPredictor.call solve p (c, false)).2 =
        (p.filter.call solve KFPredictor.intervals c).2 := by
      cases c <;> rfl
    rw [List.map_cons, outputs, outputs, hout, hc]

omit [IsStrictOrderedRing K] in
theorem after_sameParams (params : Fin 3 → OneEuroParams K) (h : List (SmoothCall K)) :
    (after (KFPredictor.call solve) (.init params) h).predictSmoother.SameParams
      (.init 1 params) := by
  have hcall : ∀ (p : KFPredictor K) (c : SmoothCall K),
      (KFPredictor.call solve p c).1.predictSmoother.SameParams p.predictSmoother := by
    rintro p ⟨c, smooth⟩
    cases c <;> cases smooth <;> exact fun i c => rfl
  have key : ∀ (h : List (SmoothCall K)) (p : KFPredictor K),
      (after (KFPredictor.call solve) p h).predictSmoother.SameParams p.predictSmoother := by
    intro h
    induction h with
    | nil => exact fun p i c => rfl
    | cons c h ih => exact fun p i j => (ih _ i j).trans (hcall p c i j)
  exact key h (.init params)

/-- The predictors return the same from now on. -/
structure Alike (p q : KFPredictor K) : Prop where
  filter : p.filter.forget = q.filter.forget
  predictSmoother : SeqManager3D.Alike p.predictSmoother q.predictSmoother

omit [IsStrictOrderedRing K] in
theorem Alike.call (h : p.Alike q) (c : SmoothCall K) :
    (KFPredictor.call solve p c).2 = (KFPredictor.call solve q c).2 ∧
      (KFPredictor.call solve p c).1.Alike (KFPredictor.call solve q c).1 := by
  obtain ⟨hout, hforget⟩ := call_eq_of_forget solve KFPredictor.intervals h.filter c.1
  rw [← call_filter, ← call_filter] at hforget
  obtain ⟨c, smooth⟩ := c
  cases c with
  | startTracking ts meas =>
    exact ⟨rfl, hforget, fun i j => OneEuroFilter.reset_alike (h.predictSmoother i j).params⟩
  | trackWithCorrect ts meas => exact ⟨hout, hforget, h.predictSmoother⟩
  | trackOnlyPred ts update =>
    cases smooth with
    | false => exact ⟨hout, hforget, h.predictSmoother⟩
    | true =>
      have hpos : (p.filter.trackOnlyPred solve KFPredictor.intervals ts update).2 =
          (q.filter.trackOnlyPred solve KFPredictor.intervals ts update).2 := Output.point.inj hout
      obtain ⟨hsmooth, hpoint⟩ := h.predictSmoother.getFilterHandData
        fun _ => (p.filter.trackOnlyPred solve KFPredictor.intervals ts update).2
      refine ⟨?_, hforget, ?_⟩
      · show Output.point ((p.predictSmoother.getFilterHandData _).2 0) =
          Output.point ((q.predictSmoother.getFilterHandData _).2 0)
        rw [hpoint, hpos]
      · show SeqManager3D.Alike (p.predictSmoother.getFilterHandData _).1
          (q.predictSmoother.getFilterHandData _).1
        rw [← hpos]
        exact hsmooth
  | getTrackingStatus => exact ⟨hout, hforget, h.predictSmoother⟩
  | stopTracking => exact ⟨rfl, hforget, h.predictSmoother⟩

omit [IsStrictOrderedRing K] in
theorem Alike.outputs (h : p.Alike q) (k : List (SmoothCall K)) :
    Predictor.outputs (KFPredictor.call solve) p k =
      Predictor.outputs (KFPredictor.call solve) q k :=
  outputs_eq_of_rel (R := Alike) (fun _ _ c h => h.call c) h k

omit [IsStrictOrderedRing K] in
variable (solve) in
/-- A restart makes predictors alike that have the same covariance. -/
theorem startTracking_alike (h : p.filter.kfImpl.errorCovPost = q.filter.kfImpl.errorCovPost)
    (hparams : p.predictSmoother.SameParams q.predictSmoother) (ts : K)
    (meas : PredictorState 3 K) (smooth : Bool) :
    (KFPredictor.call solve p (.startTracking ts meas, smooth)).1.Alike
      (KFPredictor.call solve q (.startTracking ts meas, smooth)).1 :=
  ⟨startTracking_forget h ts meas, SeqManager3D.reset_alike hparams⟩

theorem intervals_long : (KFPredictor.intervals : Intervals K).Long := by
  refine ⟨?_, ?_, ?_⟩ <;> norm_num [KFPredictor.intervals]

end KFPredictor

theorem KFPredictor2d.intervals_long : (KFPredictor2d.intervals : Intervals K).Long := by
  refine ⟨?_, ?_, ?_⟩ <;> norm_num [KFPredictor2d.intervals]

/-! ### What a correction leaves -/

section

variable {k : KalmanFilter K (StateVar d) (MeasVar d)} {p : StateVar d → K}

theorem measured_injective : Function.Injective (measured : MeasVar d → StateVar d) := by
  intro r c h
  rcases r with i | i <;> rcases c with j | j <;> simp [measured] at h ⊢ <;> exact h

/-- The gain of a diagonal covariance. -/
theorem gain_of_diagonal (hsolve : Solves solve) (hp : ∀ i, 0 ≤ p i)
    (hP : k.errorCovPre = diagonal p) (hH : k.measurementMatrix = measurementMatrix)
    (hR : k.measurementNoiseCov = diagonal fun _ => 1 / 10000) (r : StateVar d) (c : MeasVar d) :
    k.gain solve r c = if r = measured c then p r / (p r + 1 / 10000) else 0 := by
  -- the measured variables are different ones, so the residuals are independent
  have hS : k.residualCov = diagonal fun c => p (measured c) + 1 / 10000 := by
    ext c c'
    have hc : (k.measurementMatrix * (k.errorCovPre * k.measurementMatrixᵀ)) c c' =
        (k.errorCovPre * k.measurementMatrixᵀ) (measured c) c' := by
      rw [hH, Matrix.mul_apply, Finset.sum_eq_single (measured c)]
      · simp [measurementMatrix]
      · intro b _ hb
        simp [measurementMatrix, hb]
      · intro hb
        exact absurd (Finset.mem_univ _) hb
    rw [residualCov, Matrix.add_apply, Matrix.mul_assoc, hc, mul_measurementMatrix_transpose hH, hP,
      hR]
    by_cases hcc : c = c'
    · rw [hcc, diagonal_apply_eq, diagonal_apply_eq, diagonal_apply_eq]
    · rw [diagonal_apply_ne _ fun h => hcc (measured_injective h), diagonal_apply_ne _ hcc,
        diagonal_apply_ne _ hcc, add_zero]
  have hgain := gain_mul_residualCov hsolve (by rw [hP]; exact isCovariance_diagonal hp) hR
    noise_pos
  have hrc := congrFun (congrFun hgain r) c
  rw [hS, mul_diagonal, mul_measurementMatrix_transpose hH, hP] at hrc
  have hpos : p (measured c) + 1 / 10000 ≠ 0 :=
    (add_pos_of_nonneg_of_pos (hp _) (by positivity)).ne'
  rw [eq_div_of_mul_eq hpos hrc]
  by_cases h : r = measured c
  · rw [if_pos h, h, diagonal_apply_eq]
  · rw [if_neg h, diagonal_apply_ne _ h, zero_div]

/-- The variances that a correction leaves of `p`. -/
def corrected (p : StateVar d → K) : StateVar d → K
  | sAX i => p (sAX i)
  | r => p r - p r / (p r + 1 / 10000) * p r

omit [LinearOrder K] [IsStrictOrderedRing K] in
theorem corrected_measured (p : StateVar d → K) (m : MeasVar d) :
    corrected p (measured m) =
      p (measured m) - p (measured m) / (p (measured m) + 1 / 10000) * p (measured m) := by
  rcases m with i | i <;> rfl

theorem errorCovPost_of_diagonal (hsolve : Solves solve) (hp : ∀ i, 0 ≤ p i)
    (hP : k.errorCovPre = diagonal p) (hH : k.measurementMatrix = measurementMatrix)
    (hR : k.measurementNoiseCov = diagonal fun _ => 1 / 10000) (z : MeasVar d → K) :
    (k.correct solve z).errorCovPost = diagonal (corrected p) := by
  have hgain := gain_of_diagonal hsolve hp hP hH hR
  -- the measurement matrix picks the rows of the measured variables
  have hHP : ∀ m c, (k.measurementMatrix * k.errorCovPre) m c =
      if c = measured m then p c else 0 := by
    intro m c
    rw [hP, mul_diagonal, hH]
    simp [measurementMatrix]
  -- one measured variable contributes to its own row, none to those of the accelerations
  have hmeasured : ∀ m c, (k.gain solve * (k.measurementMatrix * k.errorCovPre)) (measured m) c =
      p (measured m) / (p (measured m) + 1 / 10000) * if c = measured m then p c else 0 := by
    intro m c
    rw [Matrix.mul_apply, Finset.sum_eq_single m]
    · rw [hgain, if_pos rfl, hHP]
    · intro m' _ hm
      rw [hgain, if_neg fun h => hm (measured_injective h).symm, zero_mul]
    · intro hm
      exact absurd (Finset.mem_univ _) hm
  have hacc : ∀ i c, (k.gain solve * (k.measurementMatrix * k.errorCovPre)) (sAX i) c = 0 := by
    intro i c
    rw [Matrix.mul_apply]
    refine Finset.sum_eq_zero fun m _ => ?_
    rw [hgain, if_neg (by rcases m with j | j <;> simp [measured]), zero_mul]
  have hrow : ∀ m c, (k.correct solve z).errorCovPost (measured m) c =
      diagonal (corrected p) (measured m) c := by
    intro m c
    show k.errorCovPre (measured m) c - _ = _
    rw [hmeasured, hP]
    by_cases hc : c = measured m
    · rw [hc, if_pos rfl, diagonal_apply_eq, diagonal_apply_eq, corrected_measured]
    · rw [if_neg hc, mul_zero, sub_zero, diagonal_apply_ne' _ hc, diagonal_apply_ne' _ hc]
  ext r c
  rcases r with i | i | i
  · exact hrow (.inl i) c
  · exact hrow (.inr i) c
  · -- nothing is subtracted from the row of an acceleration
    show k.errorCovPre (sAX i) c - _ = _
    rw [hacc, sub_zero, hP]
    by_cases hc : c = sAX i
    · rw [hc, diagonal_apply_eq, diagonal_apply_eq, corrected]
    · rw [diagonal_apply_ne' _ hc, diagonal_apply_ne' _ hc]

end

/-- A restart and a correction at once. -/
def used (ts : K) (meas corrected : PredictorState d K) : List (Call d K) :=
  [.startTracking ts meas, .trackWithCorrect ts corrected]

variable (intervals) in
/-- The covariance depends neither on the time nor on what was measured. -/
theorem after_used (hsolve : Solves solve) (ts : K) (meas meas' : PredictorState d K) :
    (after (Filter.call solve intervals) .init (used ts meas meas') :
      Filter d K).kfImpl.errorCovPost = diagonal (corrected processNoise) := by
  have hP : (((Filter.init.startTracking ts meas).updateTransitionMatrix ts).predict.1 :
      Filter d K).kfImpl.errorCovPre = diagonal processNoise := by
    have hzero : (Filter.init : Filter d K).kfImpl.errorCovPost = 0 := rfl
    rw [predicted_errorCovPre, sub_self, transition_one_zero, hzero, Matrix.one_mul,
      Matrix.zero_mul, zero_add]
  exact errorCovPost_of_diagonal hsolve processNoise_nonneg hP rfl rfl _

/-! ### Every two histories -/

/-- **A restart forgets everything but the covariance of the error.**  For both
predictors and every two histories of calls: everything that is returned from a
`start_tracking` on is the same after both exactly when both have left the same
`errorCovPost`. -/
theorem restart_forgets {solve₃ : Solver 3 K} {solve₂ : Solver 2 K} (hsolve₃ : Solves solve₃)
    (hsolve₂ : Solves solve₂) (params : Fin 3 → OneEuroParams K) :
    (∀ h₁ h₂ : List (KFPredictor.SmoothCall K),
      (∀ ts meas smooth k,
        outputs (KFPredictor.call solve₃)
            (after (KFPredictor.call solve₃) (.init params) h₁)
            ((.startTracking ts meas, smooth) :: k) =
          outputs (KFPredictor.call solve₃)
            (after (KFPredictor.call solve₃) (.init params) h₂)
            ((.startTracking ts meas, smooth) :: k)) ↔
      (after (KFPredictor.call solve₃) (.init params) h₁).filter.kfImpl.errorCovPost =
        (after (KFPredictor.call solve₃) (.init params) h₂).filter.kfImpl.errorCovPost) ∧
    (∀ h₁ h₂ : List (Call 2 K),
      (∀ ts meas k,
        outputs (KFPredictor2d.call solve₂) (after (KFPredictor2d.call solve₂) .init h₁)
            (.startTracking ts meas :: k) =
          outputs (KFPredictor2d.call solve₂) (after (KFPredictor2d.call solve₂) .init h₂)
            (.startTracking ts meas :: k)) ↔
      (after (KFPredictor2d.call solve₂) .init h₁).kfImpl.errorCovPost =
        (after (KFPredictor2d.call solve₂) .init h₂).kfImpl.errorCovPost) := by
  constructor
  · intro h₁ h₂
    constructor
    · intro hout
      have hsound : ∀ h, (after (KFPredictor.call solve₃) (.init params) h).filter.Sound := by
        intro h
        rw [KFPredictor.after_filter]
        exact after_sound hsolve₃ _
      refine errorCovPost_eq_of_outputs hsolve₃ KFPredictor.intervals_long (hsound h₁)
        (hsound h₂) ?_
      intro ts meas k
      -- without smoothing the outputs are those of the filter behind the predictor
      have h := hout ts meas false (k.map fun c => (c, false))
      have h₁ := KFPredictor.outputs_not_smooth solve₃
        (after (KFPredictor.call solve₃) (.init params) h₁) (.startTracking ts meas :: k)
      have h₂ := KFPredictor.outputs_not_smooth solve₃
        (after (KFPredictor.call solve₃) (.init params) h₂) (.startTracking ts meas :: k)
      exact h₁.symm.trans (h.trans h₂)
    · intro hcov ts meas smooth k
      -- both were made with the same parameters, and a restart resets the rest
      have hparams : SeqManager3D.SameParams
          (after (KFPredictor.call solve₃) (.init params) h₁).predictSmoother
          (after (KFPredictor.call solve₃) (.init params) h₂).predictSmoother := fun i c =>
        (KFPredictor.after_sameParams params h₁ i c).trans
          (KFPredictor.after_sameParams params h₂ i c).symm
      have halike := KFPredictor.startTracking_alike solve₃ hcov hparams ts meas smooth
      rw [outputs, outputs, halike.outputs k]
      rfl
  · intro h₁ h₂
    constructor
    · intro hout
      exact errorCovPost_eq_of_outputs hsolve₂ KFPredictor2d.intervals_long (after_sound hsolve₂ h₁)
        (after_sound hsolve₂ h₂) hout
    · intro hcov ts meas k
      exact outputs_eq_of_errorCovPost hcov ts meas k

/-- Predictors that were started and corrected at two times and in two places, one of them
stopped: a later start, a correction and a prediction give the same. -/
theorem restart_forgets_used :
    outputs (KFPredictor.call fun S B => S⁻¹ * B)
        (after (KFPredictor.call fun S B => S⁻¹ * B)
          (.init (KFPredictor.centerParams .flora) : KFPredictor ℚ)
          ((used 0 ⟨0, 0⟩ ⟨1, 0⟩).map fun c => (c, false)))
        [(.startTracking 9 ⟨0, 0⟩, false), (.trackWithCorrect 10 ⟨1, 1⟩, false),
          (.trackOnlyPred 11 true, true)] =
      outputs (KFPredictor.call fun S B => S⁻¹ * B)
        (after (KFPredictor.call fun S B => S⁻¹ * B)
          (.init (KFPredictor.centerParams .flora) : KFPredictor ℚ)
          ((used 5 ⟨2, 0⟩ ⟨3, 1⟩ ++ [.stopTracking] : List (Call 3 ℚ)).map fun c => (c, false)))
        [(.startTracking 9 ⟨0, 0⟩, false), (.trackWithCorrect 10 ⟨1, 1⟩, false),
          (.trackOnlyPred 11 true, true)] := by
  refine ((restart_forgets solves_inv solves_inv (KFPredictor.centerParams .flora)).1 _ _).mpr ?_
    9 ⟨0, 0⟩ false _
  rw [KFPredictor.after_filter, KFPredictor.after_filter]
  have hused : ∀ ts meas meas', (after (Filter.call (fun S B => S⁻¹ * B) KFPredictor.intervals)
      .init (used ts meas meas') : Filter 3 ℚ).kfImpl.errorCovPost =
        diagonal (corrected processNoise) :=
    after_used KFPredictor.intervals solves_inv
  exact (hused 0 ⟨0, 0⟩ ⟨1, 0⟩).trans (hused 5 ⟨2, 0⟩ ⟨3, 1⟩).symm

/-! ### A used predictor -/

section

variable {p : StateVar d → K} {α β : K}

/-- A combination of the measured variables: positions by `α`, velocities by `β`. -/
def combination (α β : K) : MeasVar d → K
  | .inl _ => α
  | .inr _ => β

omit [LinearOrder K] [IsStrictOrderedRing K] in
theorem measurementMatrix_transpose_mulVec (u : MeasVar d → K) (m : MeasVar d) :
    (measurementMatrixᵀ *ᵥ u) (measured m) = u m := by
  rw [mulVec, dotProduct, Finset.sum_eq_single m]
  · simp [measurementMatrix]
  · intro m' _ hm
    simp [measurementMatrix, measured_injective.ne hm.symm]
  · intro hm
    exact absurd (Finset.mem_univ _) hm

omit [LinearOrder K] [IsStrictOrderedRing K] in
theorem measurementMatrix_transpose_mulVec_sAX (u : MeasVar d → K) (i : Fin d) :
    (measurementMatrixᵀ *ᵥ u) (sAX i) = 0 := by
  rw [mulVec, dotProduct]
  refine Finset.sum_eq_zero fun m _ => ?_
  rcases m with j | j <;> simp [measurementMatrix, measured]

/-- What a filter with diagonal covariances predicts one second after a restart of a combination of
the measured variables. -/
theorem restarted_mulVec (hP : f.kfImpl.errorCovPost = diagonal p) (i : Fin d) :
    ((f.restarted 1).errorCovPre *ᵥ (measurementMatrixᵀ *ᵥ combination α β)) (sX i) =
        (p (sX i) + p (sVX i) + p (sAX i) / 4 + 1) * α + (p (sVX i) + p (sAX i) / 2) * β ∧
      ((f.restarted 1).errorCovPre *ᵥ (measurementMatrixᵀ *ᵥ combination α β)) (sVX i) =
        (p (sVX i) + p (sAX i) / 2) * α + (p (sVX i) + p (sAX i) + 1 / 10) * β := by
  set w := measurementMatrixᵀ *ᵥ combination (d := d) α β with hw
  have hX : ∀ j, w (sX j) = α := fun j =>
    measurementMatrix_transpose_mulVec (combination α β) (.inl j)
  have hVX : ∀ j, w (sVX j) = β := fun j =>
    measurementMatrix_transpose_mulVec (combination α β) (.inr j)
  have hAX : ∀ j, w (sAX j) = 0 := measurementMatrix_transpose_mulVec_sAX (combination α β)
  have hstep : ∀ k, ((f.restarted 1).errorCovPre *ᵥ w) k =
      (Filter.transition 1 1 *ᵥ fun r => p r * ((Filter.transition 1 1)ᵀ *ᵥ w) r) k +
        processNoise k * w k := by
    intro k
    rw [restarted_errorCovPre, hP, add_mulVec, Pi.add_apply, Matrix.mul_assoc, ← mulVec_mulVec,
      ← mulVec_mulVec, mulVec_diagonal]
    congr 3
    funext r
    exact mulVec_diagonal ..
  obtain ⟨htX, htVX, htAX⟩ := transition_one_transpose_mulVec (1 : K) w i
  rw [abs_one] at htAX
  constructor
  · rw [hstep, transition_one_mulVec_sX, htX, htVX, htAX, hX, hVX, hAX, abs_one, processNoise]
    ring
  · rw [hstep, transition_one_mulVec_sVX, htVX, htAX, hX, hVX, hAX, abs_one]
    simp only [processNoise]
    ring

omit [LinearOrder K] [IsStrictOrderedRing K] in
theorem measurementMatrix_mulVec (x : StateVar d → K) (m : MeasVar d) :
    (measurementMatrix *ᵥ x) m = x (measured m) := by
  simp [mulVec, dotProduct, measurementMatrix]

/-- The gain for a measurement that the residual covariance makes of a combination. -/
theorem restarted_gain (hsolve : Solves solve) (hp : ∀ i, 0 ≤ p i)
    (hP : f.kfImpl.errorCovPost = diagonal p) (z : MeasVar d → K)
    (hpos : ∀ i, (p (sX i) + p (sVX i) + p (sAX i) / 4 + 1) * α +
      (p (sVX i) + p (sAX i) / 2) * β + 1 / 10000 * α = z (.inl i))
    (hvel : ∀ i, (p (sVX i) + p (sAX i) / 2) * α +
      (p (sVX i) + p (sAX i) + 1 / 10) * β + 1 / 10000 * β = z (.inr i)) (i : Fin d) :
    ((f.restarted 1).gain solve *ᵥ z) (sX i) = z (.inl i) - 1 / 10000 * α := by
  have hcov : IsCovariance (f.restarted 1).errorCovPre := by
    rw [restarted_errorCovPre, hP]
    exact ((isCovariance_diagonal hp).congr _).add (isCovariance_diagonal processNoise_nonneg)
  have hz : z = (f.restarted 1).residualCov *ᵥ combination α β := by
    funext m
    have hm : ((f.restarted 1).residualCov *ᵥ combination α β) m =
        ((f.restarted 1).errorCovPre *ᵥ (measurementMatrixᵀ *ᵥ combination α β)) (measured m) +
          1 / 10000 * combination α β m := by
      show ((measurementMatrix * (f.restarted 1).errorCovPre * measurementMatrixᵀ +
        diagonal fun _ => 1 / 10000) *ᵥ combination α β) m = _
      rw [add_mulVec, Pi.add_apply, Matrix.mul_assoc, ← mulVec_mulVec, ← mulVec_mulVec,
        measurementMatrix_mulVec, mulVec_diagonal]
    rw [hm]
    rcases m with i | i
    · rw [measured, (restarted_mulVec hP i).1]
      exact (hpos i).symm
    · rw [measured, (restarted_mulVec hP i).2]
      exact (hvel i).symm
  have hgain := gain_mulVec_residualCov hsolve hcov rfl noise_pos (combination α β)
  rw [← hz] at hgain
  have hi := (congrFun hgain (sX i)).trans (restarted_mulVec hP i).1
  rw [hi, ← hpos i]
  ring

end

/-- A restart in the origin and, one second later, a correction by one in each coordinate. -/
def again : List (Call d K) := [.startTracking 0 ⟨0, 0⟩, .trackWithCorrect 1 ⟨fun _ => 1, 0⟩]

variable (intervals) in
/-- What the correction returns, from diagonal covariances: the solution of the equations of the
residual tells it. -/
theorem outputs_again (hsolve : Solves solve) {p : StateVar d → K} (hp : ∀ i, 0 ≤ p i)
    (hP : f.kfImpl.errorCovPost = diagonal p) (α β : K)
    (hpos : ∀ i, (p (sX i) + p (sVX i) + p (sAX i) / 4 + 1) * α +
      (p (sVX i) + p (sAX i) / 2) * β + 1 / 10000 * α = 1)
    (hvel : ∀ i, (p (sVX i) + p (sAX i) / 2) * α +
      (p (sVX i) + p (sAX i) + 1 / 10) * β + 1 / 10000 * β = 0) :
    outputs (Filter.call solve intervals) f again =
      [.done, .point fun _ => (1 - 6 / 10) * (1 - 1 / 10000 * α)] := by
  have hpost : (((f.startTracking 0 ⟨0, 0⟩).trackWithCorrect solve 1
      ⟨fun _ => 1, 0⟩).1).kfImpl.statePost =
        (f.restarted 1).gain solve *ᵥ PredictorState.measurement ⟨fun _ => 1, 0⟩ :=
    restarted_correct_statePost f 1 _
  show [Output.done, Output.point fun i => 6 / 10 * (0 : K) + (1 - 6 / 10) *
    (((f.startTracking 0 ⟨0, 0⟩).trackWithCorrect solve 1
      ⟨fun _ => 1, 0⟩).1).kfImpl.statePost (sX i)] = _
  rw [hpost]
  congr 3
  funext i
  rw [restarted_gain hsolve hp hP _ hpos hvel i, mul_zero, zero_add]
  rfl

/-- A new predictor and a used one return different positions after the same restart and
correction. -/
theorem restart_remembers :
    outputs (KFPredictor2d.call fun S B => S⁻¹ * B)
        (after (KFPredictor2d.call fun S B => S⁻¹ * B) (.init : Filter 2 ℚ) []) again ≠
      outputs (KFPredictor2d.call fun S B => S⁻¹ * B)
        (after (KFPredictor2d.call fun S B => S⁻¹ * B) (.init : Filter 2 ℚ)
          (used 0 ⟨0, 0⟩ ⟨0, 0⟩)) again := by
  intro h
  have hzero : (Filter.init : Filter 2 ℚ).kfImpl.errorCovPost = diagonal fun _ => 0 :=
    diagonal_zero.symm
  have hcorrected : ∀ i : StateVar 2, (0 : ℚ) ≤ corrected processNoise i := by
    intro i
    rcases i with i | i | i <;> norm_num [corrected, processNoise]
  have hnew := outputs_again KFPredictor2d.intervals solves_inv (fun _ => le_rfl) hzero
    (10000 / 10001) 0 (fun _ => by norm_num) fun _ => by norm_num
  -- the correction has left 1 / 10001 and 1 / 10010, and of the acceleration all
  have hused := outputs_again KFPredictor2d.intervals solves_inv hcorrected
    (after_used KFPredictor2d.intervals solves_inv 0 ⟨0, 0⟩ ⟨0, 0⟩)
    (200420140010000 / 202977986285251) (-50155015000000 / 202977986285251)
    (fun i => by norm_num [corrected, processNoise])
    fun i => by norm_num [corrected, processNoise]
  have heq := hnew.symm.trans (h.trans hused)
  have hpoint := (List.cons.inj (List.cons.inj heq).2).1
  have h0 := congrFun (Output.point.inj hpoint) 0
  norm_num at h0

end Predictor

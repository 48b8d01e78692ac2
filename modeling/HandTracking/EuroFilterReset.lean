/-
A One Euro filter after `reset` and a new one.

* `frequencyAfter` — the frequency that calls leave behind, from their timestamps;
* `TimedEuroFilter.Alike`, `outputs_eq_of_alike` — filters that give the same results from
  now on;
* `freq_eq_of_outputs_eq` — two values without timestamps tell frequencies apart;
* `reset_eq_init_iff` — when a filter after `reset` is like a new one.

`reset` leaves `freq_` at what the timestamps made of it, and the constructor leaves
`lasttime_` unset.
-/
import HandTracking.TimedEuroFilter

namespace Predictor

variable {K : Type} [Field K] [LinearOrder K]

namespace TimedEuroFilter

/-- One call. -/
def call (f : TimedEuroFilter K) : EuroCall K → TimedEuroFilter K
  | .filter value timestamp => (f.filter value timestamp).1
  | .reset => f.reset

/-- The calls one after another. -/
def run (f : TimedEuroFilter K) (calls : List (EuroCall K)) : TimedEuroFilter K :=
  calls.foldl call f

/-- The results of calls with values and timestamps. -/
def outputs : TimedEuroFilter K → List (K × K) → List (Option K)
  | _, [] => []
  | f, (value, timestamp) :: calls =>
      (f.filter value timestamp).2 :: outputs (f.filter value timestamp).1 calls

/-- The frequency after calls; their values do not count. -/
def frequencyAfter : K → K → List (EuroCall K) → K
  | freq, _, [] => freq
  | freq, lasttime, .filter _ timestamp :: calls =>
      frequencyAfter (nextFreq freq lasttime timestamp) timestamp calls
  | freq, _, .reset :: calls => frequencyAfter freq undefinedTime calls

theorem run_params (f : TimedEuroFilter K) (calls : List (EuroCall K)) :
    (f.run calls).params = f.params := by
  induction calls generalizing f with
  | nil => rfl
  | cons c calls ih =>
    refine (ih (f.call c)).trans ?_
    cases c with
    | filter value timestamp => exact f.filter_params value timestamp
    | reset => rfl

theorem run_freq (f : TimedEuroFilter K) (calls : List (EuroCall K)) :
    (f.run calls).freq = frequencyAfter f.freq f.lasttime calls := by
  induction calls generalizing f with
  | nil => rfl
  | cons c calls ih =>
    refine (ih (f.call c)).trans ?_
    cases c with
    | filter value timestamp =>
      rw [call, filter_freq, filter_lasttime]
      rfl
    | reset => rfl

/-! ### Filters that give the same results -/

/-- Filters that give the same results from now on. -/
structure Alike (f g : TimedEuroFilter K) : Prop where
  params : f.params = g.params
  freq : f.freq = g.freq
  lasttime : f.lasttime = g.lasttime
  x : f.x.Alike g.x
  dx : f.dx.Alike g.dx

end TimedEuroFilter

omit [Field K] [LinearOrder K] in
theorem LowPassFilter.Alike.of_not_initialized {f g : LowPassFilter K}
    (hf : f.initialized = false) (hg : g.initialized = false) : f.Alike g where
  initialized := hf.trans hg.symm
  y h := Bool.noConfusion (hf.symm.trans h)
  s h := Bool.noConfusion (hf.symm.trans h)

/-- `setAlpha` looks at the factor only. -/
theorem LowPassFilter.Alike.checkedFilter {f g : LowPassFilter K} (h : f.Alike g)
    (value alpha : K) :
    (f.checkedFilter value alpha = none ∧ g.checkedFilter value alpha = none) ∨
      ∃ f' g' result, f.checkedFilter value alpha = some (f', result) ∧
        g.checkedFilter value alpha = some (g', result) ∧ f'.Alike g' := by
  by_cases hout : alpha ≤ 0 ∨ 1 < alpha
  · exact Or.inl ⟨f.checkedFilter_of_refused value hout, g.checkedFilter_of_refused value hout⟩
  · obtain ⟨hpos, hle⟩ := not_or.mp hout
    have hin : 0 < alpha ∧ alpha ≤ 1 := ⟨not_le.mp hpos, not_lt.mp hle⟩
    obtain ⟨halike, hresult⟩ := h.filterWithAlpha value alpha
    refine Or.inr ⟨_, _, (f.filterWithAlpha value alpha).2, ?_, ?_, halike⟩
    · exact f.checkedFilter_of_range value hin
    · rw [hresult]
      exact g.checkedFilter_of_range value hin

namespace TimedEuroFilter

theorem Alike.filter {f g : TimedEuroFilter K} (h : f.Alike g) (value timestamp : K) :
    (f.filter value timestamp).1.Alike (g.filter value timestamp).1 ∧
      (f.filter value timestamp).2 = (g.filter value timestamp).2 := by
  obtain ⟨p, freq, x, dx, lasttime⟩ := f
  obtain ⟨p', freq', x', dx', lasttime'⟩ := g
  obtain ⟨rfl, rfl, rfl, hx, hdx⟩ := h
  have hdvalue : (if x'.initialized = true then
        (value - x'.y) * nextFreq freq lasttime timestamp else 0) =
      if x.initialized = true then (value - x.y) * nextFreq freq lasttime timestamp else 0 := by
    rw [← hx.initialized]
    split_ifs with hused
    · rw [hx.y hused]
    · rfl
  simp only [TimedEuroFilter.filter, hdvalue]
  obtain ⟨hf, hg⟩ | ⟨d, d', e, hf, hg, hd⟩ := hdx.checkedFilter
    (if x.initialized = true then (value - x.y) * nextFreq freq lasttime timestamp else 0)
    (alpha (nextFreq freq lasttime timestamp) p.dcutoff)
  · simp only [hf, hg]
    exact ⟨⟨rfl, rfl, rfl, hx, hdx⟩, trivial⟩
  · simp only [hf, hg]
    obtain ⟨hf, hg⟩ | ⟨r, r', result, hf, hg, hr⟩ := hx.checkedFilter value
      (alpha (nextFreq freq lasttime timestamp) (p.mincutoff + p.beta * |e|))
    · simp only [hf, hg]
      exact ⟨⟨rfl, rfl, rfl, hx, hd⟩, trivial⟩
    · simp only [hf, hg]
      exact ⟨⟨rfl, rfl, rfl, hr, hd⟩, trivial⟩

theorem outputs_eq_of_alike {f g : TimedEuroFilter K} (h : f.Alike g) (calls : List (K × K)) :
    f.outputs calls = g.outputs calls := by
  induction calls generalizing f g with
  | nil => rfl
  | cons c calls ih =>
    obtain ⟨hnext, hresult⟩ := h.filter c.1 c.2
    rw [outputs, outputs, hresult, ih hnext]

/-- No values have been filtered since the constructor or `reset`. -/
structure Unused (f : TimedEuroFilter K) : Prop where
  x : f.x.initialized = false
  dx : f.dx.initialized = false

theorem unused_init (p : EuroParams K) (unset : K) : (init p unset).Unused := ⟨rfl, rfl⟩

theorem unused_reset (f : TimedEuroFilter K) : f.reset.Unused := ⟨rfl, rfl⟩

theorem Unused.alike {f g : TimedEuroFilter K} (hf : f.Unused) (hg : g.Unused)
    (hparams : f.params = g.params) (hfreq : f.freq = g.freq)
    (hlasttime : f.lasttime = g.lasttime) : f.Alike g where
  params := hparams
  freq := hfreq
  lasttime := hlasttime
  x := .of_not_initialized hf.x hg.x
  dx := .of_not_initialized hf.dx hg.dx

/-! ### Two values tell frequencies apart -/

/-- The cutoff for the second of two values, the first being 0. -/
def secondCutoff (p : EuroParams K) (freq value : K) : K :=
  p.mincutoff + p.beta * |alpha freq p.dcutoff * (value * freq)|

variable [IsStrictOrderedRing K]

/-- The last value was 0, and so was the speed. -/
structure AtZero (f : TimedEuroFilter K) : Prop where
  used : f.x.initialized = true
  y : f.x.y = 0
  s : f.x.s = 0
  speedUsed : f.dx.initialized = true
  speed : f.dx.s = 0

theorem Unused.filter_zero {f : TimedEuroFilter K} (h : f.Unused) {timestamp : K}
    (hfreq : 0 < nextFreq f.freq f.lasttime timestamp) :
    (f.filter 0 timestamp).2 = some 0 ∧ (f.filter 0 timestamp).1.AtZero := by
  have hnot : ¬ f.x.initialized = true := by simp [h.x]
  have hnotd : ¬ f.dx.initialized = true := by simp [h.dx]
  have hdvalue : f.dvalue 0 timestamp = 0 := if_neg hnot
  have hedvalue : (f.edvalue 0 timestamp).2 = 0 := by
    have hresult : (f.edvalue 0 timestamp).2 = f.dvalue 0 timestamp := if_neg hnotd
    rw [hresult, hdvalue]
  have hfiltered : (f.filtered 0 timestamp).2 = 0 := if_neg hnot
  -- at speed 0 the cutoff is the least one, whatever its slope
  have hcutoff : 0 < f.cutoff 0 timestamp := by
    rw [cutoff, hedvalue, abs_zero, mul_zero, add_zero]
    exact f.params.mincutoff_pos
  rw [f.filter_of_freq_pos hfreq hcutoff]
  exact ⟨congrArg some hfiltered, rfl, rfl, hfiltered, rfl, hedvalue⟩

theorem AtZero.filter {f : TimedEuroFilter K} (h : f.AtZero) {value timestamp : K}
    (hfreq : 0 < nextFreq f.freq f.lasttime timestamp)
    (hcutoff : 0 < secondCutoff f.params (nextFreq f.freq f.lasttime timestamp) value) :
    (f.filter value timestamp).2 = some (alpha (nextFreq f.freq f.lasttime timestamp)
      (secondCutoff f.params (nextFreq f.freq f.lasttime timestamp) value) * value) := by
  have hdvalue : f.dvalue value timestamp =
      value * nextFreq f.freq f.lasttime timestamp := by
    rw [dvalue, if_pos h.used, h.y, sub_zero]
  have hedvalue : (f.edvalue value timestamp).2 =
      alpha (nextFreq f.freq f.lasttime timestamp) f.params.dcutoff *
        (value * nextFreq f.freq f.lasttime timestamp) := by
    have hresult : (f.edvalue value timestamp).2 =
        alpha (nextFreq f.freq f.lasttime timestamp) f.params.dcutoff *
          f.dvalue value timestamp +
        (1 - alpha (nextFreq f.freq f.lasttime timestamp) f.params.dcutoff) * f.dx.s :=
      if_pos h.speedUsed
    rw [hresult, h.speed, mul_zero, add_zero, hdvalue]
  have hcut : f.cutoff value timestamp =
      secondCutoff f.params (nextFreq f.freq f.lasttime timestamp) value := by
    rw [cutoff, hedvalue, secondCutoff]
  have hfiltered : (f.filtered value timestamp).2 =
      alpha (nextFreq f.freq f.lasttime timestamp) (f.cutoff value timestamp) * value +
        (1 - alpha (nextFreq f.freq f.lasttime timestamp) (f.cutoff value timestamp)) * f.x.s :=
    if_pos h.used
  rw [f.filter_of_freq_pos hfreq (hcut ▸ hcutoff)]
  show some (f.filtered value timestamp).2 = _
  rw [hfiltered, h.s, mul_zero, add_zero, hcut]

/-- What an unused filter returns for 0 and one more value, without timestamps. -/
theorem Unused.outputs_pair {f : TimedEuroFilter K} (h : f.Unused) (hfreq : 0 < f.freq)
    {value : K} (hcutoff : 0 < secondCutoff f.params f.freq value) :
    f.outputs [(0, undefinedTime), (value, undefinedTime)] =
      [some 0, some (alpha f.freq (secondCutoff f.params f.freq value) * value)] := by
  have hnext : nextFreq f.freq f.lasttime undefinedTime = f.freq := nextFreq_untimed
  obtain ⟨hfirst, hzero⟩ := h.filter_zero (hnext.symm ▸ hfreq)
  have hfreq' : nextFreq (f.filter 0 undefinedTime).1.freq (f.filter 0 undefinedTime).1.lasttime
      undefinedTime = f.freq := by
    rw [nextFreq_untimed, filter_freq, hnext]
  have hsecond := hzero.filter (hfreq'.symm ▸ hfreq) (by rwa [hfreq', filter_params])
  rw [outputs, outputs, outputs, hfirst, hsecond, hfreq', filter_params]

/-- A small value gives a positive cutoff. -/
theorem secondCutoff_pos {p : EuroParams K} {freq value : K} (hfreq : 0 < freq)
    (hvalue : 0 < value) (hsmall : |p.beta| * (value * freq) < p.mincutoff) :
    0 < secondCutoff p freq value := by
  have halpha := alpha_range hfreq p.dcutoff_pos
  have hspeed : 0 < value * freq := mul_pos hvalue hfreq
  have hle : |alpha freq p.dcutoff * (value * freq)| ≤ value * freq := by
    rw [abs_of_pos (mul_pos halpha.1 hspeed)]
    exact mul_le_of_le_one_left hspeed.le halpha.2
  have hbeta : |p.beta| * |alpha freq p.dcutoff * (value * freq)| ≤ |p.beta| * (value * freq) :=
    mul_le_mul_of_nonneg_left hle (abs_nonneg _)
  have hneg : -(|p.beta| * |alpha freq p.dcutoff * (value * freq)|) ≤
      p.beta * |alpha freq p.dcutoff * (value * freq)| := by
    rw [← neg_mul]
    exact mul_le_mul_of_nonneg_right (neg_abs_le _) (abs_nonneg _)
  rw [secondCutoff]
  linarith

/-- Equal smoothing factors at two frequencies have cutoffs in their ratio. -/
theorem mul_freq_of_alpha_eq {freq freq' cutoff cutoff' : K} (hfreq : 0 < freq)
    (hfreq' : 0 < freq') (hcutoff : 0 < cutoff) (hcutoff' : 0 < cutoff')
    (h : alpha freq cutoff = alpha freq' cutoff') : cutoff * freq' = cutoff' * freq := by
  have hpi : (0 : K) < mPi := mPi_pos
  rw [alpha_eq hfreq hcutoff, alpha_eq hfreq' hcutoff',
    div_eq_div_iff (by positivity) (by positivity)] at h
  have htwo : 2 * mPi * (cutoff * freq') = 2 * mPi * (cutoff' * freq) := by linarith
  exact mul_left_cancel₀ (by positivity) htwo

theorem secondCutoff_two_mul (p : EuroParams K) (freq value : K) :
    secondCutoff p freq (2 * value) = 2 * secondCutoff p freq value - p.mincutoff := by
  have htwo : alpha freq p.dcutoff * (2 * value * freq) =
      2 * (alpha freq p.dcutoff * (value * freq)) := by ring
  rw [secondCutoff, secondCutoff, htwo, abs_mul, abs_two]
  ring

/-- A value that is small at two frequencies. -/
theorem exists_small_value (p : EuroParams K) {freq freq' : K} (hfreq : 0 < freq)
    (hfreq' : 0 < freq') : ∃ value : K, 0 < value ∧
      |p.beta| * (2 * value * freq) < p.mincutoff ∧
      |p.beta| * (2 * value * freq') < p.mincutoff := by
  let scale := |p.beta| * (freq + freq') + 1
  have hbeta : 0 ≤ |p.beta| := abs_nonneg _
  have hmin := p.mincutoff_pos
  have hscale : 0 < scale := by positivity
  have hone : |p.beta| * freq < scale := by
    have hother : 0 ≤ |p.beta| * freq' := by positivity
    show |p.beta| * freq < |p.beta| * (freq + freq') + 1
    linarith
  have hone' : |p.beta| * freq' < scale := by
    have hother : 0 ≤ |p.beta| * freq := by positivity
    show |p.beta| * freq' < |p.beta| * (freq + freq') + 1
    linarith
  have hless {f : K} (h : |p.beta| * f < scale) :
      |p.beta| * (2 * (p.mincutoff / (2 * scale)) * f) < p.mincutoff := by
    have heq : |p.beta| * (2 * (p.mincutoff / (2 * scale)) * f) =
        p.mincutoff * (|p.beta| * f / scale) := by
      field_simp
    rw [heq]
    exact mul_lt_of_lt_one_right hmin ((div_lt_one hscale).mpr h)
  exact ⟨p.mincutoff / (2 * scale), by positivity, hless hone, hless hone'⟩

/-- **Unused filters that return the same for two values** without timestamps have the same
frequency. -/
theorem freq_eq_of_outputs_eq {f g : TimedEuroFilter K} (hf : f.Unused) (hg : g.Unused)
    (hparams : f.params = g.params) (hfreq : 0 < f.freq) (hfreq' : 0 < g.freq)
    (h : ∀ value, f.outputs [(0, undefinedTime), (value, undefinedTime)] =
      g.outputs [(0, undefinedTime), (value, undefinedTime)]) : f.freq = g.freq := by
  let p := f.params
  have hratio (value : K) (hvalue : 0 < value) (hsmall : |p.beta| * (value * f.freq) < p.mincutoff)
      (hsmall' : |p.beta| * (value * g.freq) < p.mincutoff) :
      secondCutoff p f.freq value * g.freq = secondCutoff p g.freq value * f.freq := by
    have hcutoff := secondCutoff_pos hfreq hvalue hsmall
    have hcutoff' := secondCutoff_pos hfreq' hvalue hsmall'
    have hout := h value
    rw [hf.outputs_pair hfreq hcutoff, hg.outputs_pair hfreq' (hparams ▸ hcutoff'),
      ← hparams] at hout
    simp only [List.cons.injEq, Option.some.injEq, true_and, and_true] at hout
    exact mul_freq_of_alpha_eq hfreq hfreq' hcutoff hcutoff'
      (mul_right_cancel₀ hvalue.ne' hout)
  obtain ⟨value, hvalue, hsmall, hsmall'⟩ := exists_small_value p hfreq hfreq'
  have hhalf {freq : K} (hpos : 0 < freq) (h : |p.beta| * (2 * value * freq) < p.mincutoff) :
      |p.beta| * (value * freq) < p.mincutoff := by
    refine lt_of_le_of_lt (mul_le_mul_of_nonneg_left ?_ (abs_nonneg _)) h
    exact mul_le_mul_of_nonneg_right (by linarith) hpos.le
  have hone := hratio value hvalue (hhalf hfreq hsmall) (hhalf hfreq' hsmall')
  have htwo := hratio (2 * value) (by linarith) hsmall hsmall'
  -- twice the value adds the speed part once more, and leaves the least cutoff as it is
  rw [secondCutoff_two_mul, secondCutoff_two_mul, sub_mul, sub_mul, mul_assoc, mul_assoc,
    hone] at htwo
  exact (mul_left_cancel₀ p.mincutoff_pos.ne' (sub_right_inj.mp htwo)).symm

/-- A call that returns has a positive frequency. -/
theorem nextFreq_pos_of_returns {f : TimedEuroFilter K} {value timestamp result : K}
    (h : (f.filter value timestamp).2 = some result) :
    0 < nextFreq f.freq f.lasttime timestamp := by
  by_contra hnot
  rw [f.filter_of_freq_nonpos value (not_lt.mp hnot)] at h
  cases h

/-- A new filter that returns what a filter after `reset` does has `UndefinedTime` to begin
with: it would throw at the time that it found in `lasttime_`. -/
theorem unset_eq_of_returns {f : TimedEuroFilter K} (h : f.Unused) (hfreq : 0 < f.freq)
    (hlasttime : f.lasttime = undefinedTime) {p : EuroParams K} {fresh : K}
    (hsame : (f.filter 0 fresh).2 = ((init p fresh).filter 0 fresh).2) :
    fresh = undefinedTime := by
  by_contra hfresh
  have hnext : 0 < nextFreq f.freq f.lasttime fresh := by
    rw [hlasttime, nextFreq_of_unset]
    exact hfreq
  have hreturns := (h.filter_zero hnext).1
  rw [hsame, filter_init_eq_none hfresh hfresh le_rfl 0] at hreturns
  cases hreturns

/-- **A filter after `reset` is like a new one exactly when** the timestamps brought the frequency
back and the constructor happened to find `UndefinedTime` in `lasttime_`. -/
theorem reset_eq_init_iff (p : EuroParams K) (unset fresh : K) (history : List (EuroCall K)) :
    (∀ calls, ((init p unset).run history).reset.outputs calls = (init p fresh).outputs calls) ↔
      fresh = undefinedTime ∧ frequencyAfter p.freq unset history = p.freq := by
  have hunused := unused_reset ((init p unset).run history)
  have hnew := unused_init p fresh
  have hparams : ((init p unset).run history).reset.params = (init p fresh).params :=
    run_params (init p unset) history
  have hfreq : ((init p unset).run history).reset.freq = frequencyAfter p.freq unset history :=
    run_freq (init p unset) history
  constructor
  · intro h
    have hfirst (value timestamp : K) :
        (((init p unset).run history).reset.filter value timestamp).2 =
          ((init p fresh).filter value timestamp).2 := by
      have hout := h [(value, timestamp)]
      simpa only [outputs, List.cons.injEq, and_true] using hout
    -- a new filter returns for a value without a timestamp, so the other one does
    have hpos : 0 < ((init p unset).run history).reset.freq := by
      have huntimed : nextFreq p.freq fresh undefinedTime = p.freq := nextFreq_untimed
      have hreturns := (hnew.filter_zero (huntimed.symm ▸ p.freq_pos)).1
      have hnext := nextFreq_pos_of_returns ((hfirst 0 undefinedTime).trans hreturns)
      rwa [nextFreq_untimed] at hnext
    refine ⟨unset_eq_of_returns hunused hpos rfl (hfirst 0 fresh), ?_⟩
    rw [← hfreq]
    exact freq_eq_of_outputs_eq hunused hnew hparams hpos p.freq_pos fun value => h _
  · rintro ⟨hfresh, hback⟩ calls
    exact outputs_eq_of_alike
      (hunused.alike hnew hparams (hfreq.trans hback) hfresh.symm) calls

theorem reset_eq_init_iff_plain :
    (∀ calls, ((init plainParams (-1)).run [.filter 5 (-1)]).reset.outputs calls =
        (init plainParams (-1)).outputs calls) ↔
      (-1 : ℚ) = undefinedTime ∧ frequencyAfter 100 (-1) [EuroCall.filter (5 : ℚ) (-1)] = 100 :=
  reset_eq_init_iff plainParams (-1) (-1) [.filter 5 (-1)]

/-- One second between timestamps leaves a filter of 100 Hz at 1 Hz. -/
theorem not_reset_eq_init :
    ¬ ∀ (p : EuroParams ℚ) (unset fresh : ℚ) (history : List (EuroCall ℚ)) (calls : List (ℚ × ℚ)),
      ((init p unset).run history).reset.outputs calls = (init p fresh).outputs calls := by
  intro h
  let history : List (EuroCall ℚ) := [.filter 0 0, .filter 0 1]
  have hfreq : ((init plainParams (-1)).run history).reset.freq = 1 := by
    rw [reset_freq, run_freq]
    norm_num [history, frequencyAfter, nextFreq, undefinedTime, init, plainParams]
  have heq := freq_eq_of_outputs_eq
    (unused_reset ((init plainParams (-1)).run history)) (unused_init plainParams (-1))
    (run_params (init plainParams (-1)) history) (by rw [hfreq]; norm_num) plainParams.freq_pos
    fun value => h plainParams (-1) (-1) history _
  rw [hfreq] at heq
  norm_num [init, plainParams] at heq

end TimedEuroFilter

end Predictor

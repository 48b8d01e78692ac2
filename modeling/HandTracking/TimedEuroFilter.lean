/-
The One Euro filter called with timestamps, with the exceptions of `setAlpha`.

* `TimedEuroFilter` — the filter; `lasttime_` holds anything before the first call or `reset`;
* `alpha_eq`, `alpha_refused` — the smoothing factors that a frequency gives;
* `filter_of_freq_pos`, `filter_of_freq_nonpos` — what a call does;
* `filter_untimed` — without timestamps it is the filter of `SeqManager3D`;
* `inRange_iff` — when all results are between the values since the last `reset`.

The frequency of two equal timestamps is infinite, which is written 0: no other division of
the code gives it.
-/
import HandTracking.OneEuroFilter

namespace Predictor

variable {K : Type} [Field K] [LinearOrder K]

/-- `LowPassFilter::setAlpha`, which throws outside of `(0, 1]`. -/
def LowPassFilter.setAlpha (f : LowPassFilter K) (alpha : K) : Option (LowPassFilter K) :=
  if alpha ≤ 0 ∨ 1 < alpha then none else some { f with a := alpha }

/-- `LowPassFilter::filterWithAlpha` with the exception of `setAlpha`. -/
def LowPassFilter.checkedFilter (f : LowPassFilter K) (value alpha : K) :
    Option (LowPassFilter K × K) :=
  (f.setAlpha alpha).map (·.filter value)

theorem LowPassFilter.checkedFilter_of_range {alpha : K} (f : LowPassFilter K) (value : K)
    (h : 0 < alpha ∧ alpha ≤ 1) :
    f.checkedFilter value alpha = some (f.filterWithAlpha value alpha) := by
  have hin : ¬ (alpha ≤ 0 ∨ 1 < alpha) :=
    fun hout => hout.elim (not_le.mpr h.1) (not_lt.mpr h.2)
  rw [checkedFilter, setAlpha, if_neg hin]
  rfl

theorem LowPassFilter.checkedFilter_of_refused {alpha : K} (f : LowPassFilter K) (value : K)
    (h : alpha ≤ 0 ∨ 1 < alpha) : f.checkedFilter value alpha = none := by
  rw [checkedFilter, setAlpha, if_pos h]
  rfl

/-- `UndefinedTime` -/
def undefinedTime : K := -1

/-- What the constructor checks of its arguments; `setBeta` takes anything. -/
structure EuroParams (K : Type) [Field K] [LinearOrder K] where
  freq : K
  mincutoff : K
  beta : K
  dcutoff : K
  freq_pos : 0 < freq
  mincutoff_pos : 0 < mincutoff
  dcutoff_pos : 0 < dcutoff

/-- `OneEuroFilter`, with the frequency that the timestamps change. -/
structure TimedEuroFilter (K : Type) [Field K] [LinearOrder K] where
  params : EuroParams K
  freq : K
  x : LowPassFilter K
  dx : LowPassFilter K
  lasttime : K

namespace TimedEuroFilter

/-- `OneEuroFilter::alpha`; an infinite frequency and a cutoff of 0 give the factor 0. -/
def alpha (freq cutoff : K) : K :=
  if freq = 0 ∨ cutoff = 0 then 0
  else
    let te := 1 / freq
    let tau := 1 / (2 * mPi * cutoff)
    1 / (1 + tau / te)

/-- The constructor; it does not set `lasttime_`, where `unset` is found. -/
def init (p : EuroParams K) (unset : K) : TimedEuroFilter K where
  params := p
  freq := p.freq
  x := .init (alpha p.freq p.mincutoff)
  dx := .init (alpha p.freq p.dcutoff)
  lasttime := unset

/-- `OneEuroFilter::reset`, which leaves the frequency as it is. -/
def reset (f : TimedEuroFilter K) : TimedEuroFilter K :=
  { f with x := f.x.reset, dx := f.dx.reset, lasttime := undefinedTime }

/-- The sampling frequency, updated based on timestamps. -/
def nextFreq (freq lasttime timestamp : K) : K :=
  if lasttime ≠ undefinedTime ∧ timestamp ≠ undefinedTime then 1 / (timestamp - lasttime)
  else freq

/-- `OneEuroFilter::filter`; no result when `setAlpha` throws, which leaves the fields that were
set before as they are. -/
def filter (f : TimedEuroFilter K) (value timestamp : K) : TimedEuroFilter K × Option K :=
  let f := { f with freq := nextFreq f.freq f.lasttime timestamp, lasttime := timestamp }
  let dvalue := if f.x.initialized then (value - f.x.y) * f.freq else 0
  match f.dx.checkedFilter dvalue (alpha f.freq f.params.dcutoff) with
  | none => (f, none)
  | some (dx, edvalue) =>
    let f := { f with dx := dx }
    let cutoff := f.params.mincutoff + f.params.beta * |edvalue|
    match f.x.checkedFilter value (alpha f.freq cutoff) with
    | none => (f, none)
    | some (x, result) => ({ f with x := x }, some result)

@[simp]
theorem reset_freq (f : TimedEuroFilter K) : f.reset.freq = f.freq := rfl

theorem nextFreq_of_unset {freq timestamp : K} : nextFreq freq undefinedTime timestamp = freq :=
  if_neg fun h => h.1 rfl

theorem nextFreq_untimed {freq lasttime : K} : nextFreq freq lasttime undefinedTime = freq :=
  if_neg fun h => h.2 rfl

theorem filter_params (f : TimedEuroFilter K) (value timestamp : K) :
    (f.filter value timestamp).1.params = f.params := by
  simp only [filter]
  split
  · rfl
  · split <;> rfl

theorem filter_freq (f : TimedEuroFilter K) (value timestamp : K) :
    (f.filter value timestamp).1.freq = nextFreq f.freq f.lasttime timestamp := by
  simp only [filter]
  split
  · rfl
  · split <;> rfl

theorem filter_lasttime (f : TimedEuroFilter K) (value timestamp : K) :
    (f.filter value timestamp).1.lasttime = timestamp := by
  simp only [filter]
  split
  · rfl
  · split <;> rfl

end TimedEuroFilter

/-! ### The range of the smoothing factor -/

namespace TimedEuroFilter

variable [IsStrictOrderedRing K]

theorem alpha_eq {freq cutoff : K} (hfreq : 0 < freq) (hcutoff : 0 < cutoff) :
    alpha freq cutoff = 2 * mPi * cutoff / (2 * mPi * cutoff + freq) := by
  have hpi : (0 : K) < mPi := mPi_pos
  have hne : ¬ (freq = 0 ∨ cutoff = 0) := fun h => h.elim hfreq.ne' hcutoff.ne'
  rw [alpha, if_neg hne]
  field_simp

/-- A positive frequency and a positive cutoff pass the check. -/
theorem alpha_range {freq cutoff : K} (hfreq : 0 < freq) (hcutoff : 0 < cutoff) :
    0 < alpha freq cutoff ∧ alpha freq cutoff ≤ 1 := by
  have hpi : (0 : K) < mPi := mPi_pos
  rw [alpha_eq hfreq hcutoff]
  constructor
  · positivity
  · rw [div_le_one (by positivity)]
    exact le_add_of_nonneg_right hfreq.le

/-- No other frequency passes it, with a positive cutoff. -/
theorem alpha_refused {freq cutoff : K} (hfreq : freq ≤ 0) (hcutoff : 0 < cutoff) :
    alpha freq cutoff ≤ 0 ∨ 1 < alpha freq cutoff := by
  have hpi : (0 : K) < mPi := mPi_pos
  rcases hfreq.eq_or_lt with hzero | hneg
  · left
    rw [alpha, if_pos (Or.inl hzero)]
  · have hne : ¬ (freq = 0 ∨ cutoff = 0) := fun h => h.elim hneg.ne hcutoff.ne'
    have htau : 1 / (2 * mPi * cutoff) / (1 / freq) = freq / (2 * mPi * cutoff) := by
      field_simp
    have hquot : freq / (2 * mPi * cutoff) < 0 := div_neg_of_neg_of_pos hneg (by positivity)
    rw [alpha, if_neg hne]
    show 1 / (1 + 1 / (2 * mPi * cutoff) / (1 / freq)) ≤ 0 ∨
      1 < 1 / (1 + 1 / (2 * mPi * cutoff) / (1 / freq))
    rw [htau]
    -- the sign of the denominator decides on which side the factor is
    rcases le_or_gt (1 + freq / (2 * mPi * cutoff)) 0 with hden | hden
    · exact Or.inl (one_div_nonpos.mpr hden)
    · exact Or.inr ((one_lt_one_div hden (by linarith)))

end TimedEuroFilter

/-! ### What a call does -/

namespace TimedEuroFilter

/-- The variation per second, from the raw values. -/
def dvalue (f : TimedEuroFilter K) (value timestamp : K) : K :=
  if f.x.initialized then (value - f.x.y) * nextFreq f.freq f.lasttime timestamp else 0

/-- The filtered variation, where it passes the check. -/
def edvalue (f : TimedEuroFilter K) (value timestamp : K) : LowPassFilter K × K :=
  f.dx.filterWithAlpha (f.dvalue value timestamp)
    (alpha (nextFreq f.freq f.lasttime timestamp) f.params.dcutoff)

/-- The cutoff for a value. -/
def cutoff (f : TimedEuroFilter K) (value timestamp : K) : K :=
  f.params.mincutoff + f.params.beta * |(f.edvalue value timestamp).2|

/-- The filtered value, where it passes the check. -/
def filtered (f : TimedEuroFilter K) (value timestamp : K) : LowPassFilter K × K :=
  f.x.filterWithAlpha value
    (alpha (nextFreq f.freq f.lasttime timestamp) (f.cutoff value timestamp))

variable [IsStrictOrderedRing K]

/-- A call with a positive frequency and a positive cutoff returns. -/
theorem filter_of_freq_pos (f : TimedEuroFilter K) {value timestamp : K}
    (hfreq : 0 < nextFreq f.freq f.lasttime timestamp) (hcutoff : 0 < f.cutoff value timestamp) :
    f.filter value timestamp =
      ({ f with
          freq := nextFreq f.freq f.lasttime timestamp
          lasttime := timestamp
          dx := (f.edvalue value timestamp).1
          x := (f.filtered value timestamp).1 },
        some (f.filtered value timestamp).2) := by
  have hdx := f.dx.checkedFilter_of_range (f.dvalue value timestamp)
    (alpha_range hfreq f.params.dcutoff_pos)
  have hx := f.x.checkedFilter_of_range value (alpha_range hfreq hcutoff)
  rw [dvalue] at hdx
  rw [cutoff, edvalue, dvalue] at hx
  simp only [filter, hdx, hx]
  rfl

/-- A frequency that is not positive makes the first check of a call throw. -/
theorem filter_of_freq_nonpos (f : TimedEuroFilter K) (value : K) {timestamp : K}
    (hfreq : nextFreq f.freq f.lasttime timestamp ≤ 0) : (f.filter value timestamp).2 = none := by
  have hdx := f.dx.checkedFilter_of_refused (f.dvalue value timestamp)
    (alpha_refused hfreq f.params.dcutoff_pos)
  rw [dvalue] at hdx
  simp only [filter, hdx]

theorem cutoff_pos {f : TimedEuroFilter K} (hbeta : 0 ≤ f.params.beta) (value timestamp : K) :
    0 < f.cutoff value timestamp :=
  add_pos_of_pos_of_nonneg f.params.mincutoff_pos (mul_nonneg hbeta (abs_nonneg _))

end TimedEuroFilter

/-! ### Calls without timestamps -/

/-- The filter of `SeqManager3D`, at some time. -/
def OneEuroFilter.timed (f : OneEuroFilter K) (lasttime : K) : TimedEuroFilter K where
  params := ⟨f.params.freq, f.params.mincutoff, f.params.beta, f.params.dcutoff,
    f.params.freq_pos, f.params.mincutoff_pos, f.params.dcutoff_pos⟩
  freq := f.params.freq
  x := f.x
  dx := f.dx
  lasttime := lasttime

variable [IsStrictOrderedRing K]

omit [IsStrictOrderedRing K] in
theorem OneEuroFilter.alpha_timed (p : OneEuroParams K) {cutoff : K} (h : 0 < cutoff) :
    TimedEuroFilter.alpha p.freq cutoff = alpha p cutoff := by
  have hne : ¬ (p.freq = 0 ∨ cutoff = 0) := fun hor => hor.elim p.freq_pos.ne' h.ne'
  rw [TimedEuroFilter.alpha, if_neg hne]
  rfl

/-- **Without timestamps the checks always pass** and the frequency stays. -/
theorem OneEuroFilter.filter_untimed (f : OneEuroFilter K) (lasttime value : K) :
    (f.timed lasttime).filter value undefinedTime =
      ((f.filter value).1.timed undefinedTime, some (f.filter value).2) := by
  have hnext : TimedEuroFilter.nextFreq (f.timed lasttime).freq (f.timed lasttime).lasttime
      undefinedTime = f.params.freq :=
    TimedEuroFilter.nextFreq_untimed
  have hedvalue : (f.timed lasttime).edvalue value undefinedTime =
      f.dx.filterWithAlpha (f.dvalue value) (alpha f.params f.params.dcutoff) := by
    rw [TimedEuroFilter.edvalue, TimedEuroFilter.dvalue, hnext]
    rw [← alpha_timed f.params f.params.dcutoff_pos]
    rfl
  have hcutoff : (f.timed lasttime).cutoff value undefinedTime = f.cutoff value := by
    rw [TimedEuroFilter.cutoff, hedvalue]
    rfl
  have hpos : 0 < f.cutoff value := cutoff_pos f.params _
  have hfiltered : (f.timed lasttime).filtered value undefinedTime =
      f.x.filterWithAlpha value (alpha f.params (f.cutoff value)) := by
    rw [TimedEuroFilter.filtered, hnext, hcutoff, alpha_timed f.params hpos]
    rfl
  have hcall := (f.timed lasttime).filter_of_freq_pos (hnext ▸ f.params.freq_pos) (hcutoff ▸ hpos)
  rw [hcall, hedvalue, hfiltered, hnext]
  rfl

/-! ### The range of the results -/

/-- A call of `filter` or `reset`. -/
inductive EuroCall (K : Type) where
  | filter (value timestamp : K)
  | reset

omit [Field K] [IsStrictOrderedRing K] in
/-- Between the least and the greatest of the values. -/
def Within (values : List K) (result : K) : Prop :=
  ∃ lo ∈ values, ∃ hi ∈ values, lo ≤ result ∧ result ≤ hi

/-- No call throws, and the results are within the values since the last `reset`; `values` are
the ones before the calls. -/
def InRange : TimedEuroFilter K → List K → List (EuroCall K) → Prop
  | _, _, [] => True
  | f, values, .filter value timestamp :: calls =>
      (∃ result, (f.filter value timestamp).2 = some result ∧ Within (value :: values) result) ∧
        InRange (f.filter value timestamp).1 (value :: values) calls
  | f, _, .reset :: calls => InRange f.reset [] calls

/-- The values come without timestamps or with timestamps that are not negative and later than
the last one since `reset`, `last`. -/
def Timely : K → List (EuroCall K) → Prop
  | _, [] => True
  | last, .filter _ timestamp :: calls =>
      if timestamp = undefinedTime then Timely last calls
      else 0 ≤ timestamp ∧ last < timestamp ∧ Timely timestamp calls
  | _, .reset :: calls => Timely undefinedTime calls

/-- A first call with a timestamp comes after what `lasttime_` holds. -/
def FirstAfter (unset : K) : List (EuroCall K) → Prop
  | .filter _ timestamp :: _ => timestamp = undefinedTime ∨ unset < timestamp
  | _ => True

/-- A mean of the last result and a new value is within the values. -/
theorem within_blend {values : List K} {s alpha : K} (h : Within values s)
    (halpha : 0 < alpha ∧ alpha ≤ 1) (value : K) :
    Within (value :: values) (alpha * value + (1 - alpha) * s) := by
  obtain ⟨lo, hlo, hi, hhi, hle, hge⟩ := h
  have hmean : alpha * value + (1 - alpha) * s = s + alpha * (value - s) := by ring
  have hmean' : alpha * value + (1 - alpha) * s = value + (1 - alpha) * (s - value) := by ring
  have hone : 0 ≤ 1 - alpha := sub_nonneg.mpr halpha.2
  rcases le_total value s with hvalue | hvalue
  · refine ⟨value, List.mem_cons_self, hi, List.mem_cons_of_mem _ hhi, ?_, ?_⟩
    · rw [hmean']
      exact le_add_of_nonneg_right (mul_nonneg hone (sub_nonneg.mpr hvalue))
    · rw [hmean]
      have hdown := mul_nonpos_of_nonneg_of_nonpos halpha.1.le (sub_nonpos.mpr hvalue)
      linarith
  · refine ⟨lo, List.mem_cons_of_mem _ hlo, value, List.mem_cons_self, ?_, ?_⟩
    · rw [hmean]
      have hup := mul_nonneg halpha.1.le (sub_nonneg.mpr hvalue)
      linarith
    · rw [hmean']
      have hdown := mul_nonpos_of_nonneg_of_nonpos hone (sub_nonpos.mpr hvalue)
      linarith

omit [Field K] [IsStrictOrderedRing K] in
theorem within_self (value : K) (values : List K) : Within (value :: values) value :=
  ⟨value, List.mem_cons_self, value, List.mem_cons_self, le_rfl, le_rfl⟩

/-- What the calls keep: a frequency that passes the check, and a last result that is within the
values since the last `reset`. -/
structure Steady (f : TimedEuroFilter K) (values : List K) : Prop where
  beta_nonneg : 0 ≤ f.params.beta
  freq_pos : 0 < f.freq
  within : f.x.initialized = true → Within values f.x.s

namespace Steady

variable {f : TimedEuroFilter K} {values : List K}

omit [IsStrictOrderedRing K] in
theorem init {p : EuroParams K} (hbeta : 0 ≤ p.beta) (unset : K) :
    Steady (TimedEuroFilter.init p unset) [] where
  beta_nonneg := hbeta
  freq_pos := p.freq_pos
  within h := Bool.noConfusion h

omit [IsStrictOrderedRing K] in
theorem reset (h : Steady f values) : Steady f.reset [] where
  beta_nonneg := h.beta_nonneg
  freq_pos := h.freq_pos
  within h := Bool.noConfusion h

/-- The frequency stays positive when the timestamps increase. -/
theorem nextFreq_pos (h : Steady f values) {timestamp : K}
    (htime : f.lasttime = undefinedTime ∨ timestamp = undefinedTime ∨ f.lasttime < timestamp) :
    0 < TimedEuroFilter.nextFreq f.freq f.lasttime timestamp := by
  rcases htime with hunset | huntimed | hlater
  · rw [hunset, TimedEuroFilter.nextFreq_of_unset]
    exact h.freq_pos
  · rw [huntimed, TimedEuroFilter.nextFreq_untimed]
    exact h.freq_pos
  · rw [TimedEuroFilter.nextFreq]
    split_ifs
    · exact one_div_pos.mpr (sub_pos.mpr hlater)
    · exact h.freq_pos

/-- **One call** with a later timestamp returns within the values. -/
theorem filter (h : Steady f values) (value : K) {timestamp : K}
    (htime : f.lasttime = undefinedTime ∨ timestamp = undefinedTime ∨ f.lasttime < timestamp) :
    (∃ result, (f.filter value timestamp).2 = some result ∧ Within (value :: values) result) ∧
      Steady (f.filter value timestamp).1 (value :: values) := by
  have hfreq := h.nextFreq_pos htime
  have hcutoff := TimedEuroFilter.cutoff_pos h.beta_nonneg value timestamp
  have halpha := TimedEuroFilter.alpha_range hfreq hcutoff
  have hwithin : Within (value :: values) (f.filtered value timestamp).2 := by
    show Within (value :: values) (if f.x.initialized = true then _ else value)
    split_ifs with hused
    · exact within_blend (h.within hused) halpha value
    · exact within_self value values
  rw [f.filter_of_freq_pos hfreq hcutoff]
  exact ⟨⟨_, rfl, hwithin⟩, h.beta_nonneg, hfreq, fun _ => hwithin⟩

end Steady

/-- The calls after one whose time is known. -/
theorem inRange_of_steady {f : TimedEuroFilter K} {values : List K} {last : K}
    {calls : List (EuroCall K)} (h : Steady f values)
    (hlast : f.lasttime = undefinedTime ∨ f.lasttime = last) (htimely : Timely last calls) :
    InRange f values calls := by
  induction calls generalizing f values last with
  | nil => trivial
  | cons call calls ih =>
    cases call with
    | reset => exact ih h.reset (Or.inl rfl) htimely
    | filter value timestamp =>
      have hafter := f.filter_lasttime value timestamp
      rw [Timely] at htimely
      split_ifs at htimely with huntimed
      · obtain ⟨hresult, hsteady⟩ := h.filter value (Or.inr (Or.inl huntimed))
        exact ⟨hresult, ih hsteady (Or.inl (hafter.trans huntimed)) htimely⟩
      · obtain ⟨-, hlater, hnext⟩ := htimely
        have htime : f.lasttime = undefinedTime ∨ timestamp = undefinedTime ∨
            f.lasttime < timestamp :=
          hlast.imp_right fun heq => Or.inr (lt_of_eq_of_lt heq hlater)
        obtain ⟨hresult, hsteady⟩ := h.filter value htime
        exact ⟨hresult, ih hsteady (Or.inr hafter) hnext⟩

/-- A first timestamp that is not after what `lasttime_` holds makes the call throw. -/
theorem filter_init_eq_none {p : EuroParams K} {unset timestamp : K}
    (hunset : unset ≠ undefinedTime) (htimed : timestamp ≠ undefinedTime)
    (h : timestamp ≤ unset) (value : K) :
    ((TimedEuroFilter.init p unset).filter value timestamp).2 = none := by
  refine TimedEuroFilter.filter_of_freq_nonpos _ value ?_
  show TimedEuroFilter.nextFreq p.freq unset timestamp ≤ 0
  rw [TimedEuroFilter.nextFreq, if_pos ⟨hunset, htimed⟩]
  exact one_div_nonpos.mpr (sub_nonpos.mpr h)

/-- **All results are in range exactly when** a first timestamp comes after what the constructor
left in `lasttime_`. -/
theorem inRange_iff {p : EuroParams K} (hbeta : 0 ≤ p.beta) (unset : K)
    {calls : List (EuroCall K)} (htimely : Timely undefinedTime calls) :
    InRange (.init p unset) [] calls ↔ FirstAfter unset calls := by
  have hsteady := Steady.init hbeta unset
  cases calls with
  | nil => exact Iff.rfl
  | cons call calls =>
    cases call with
    | reset =>
      refine iff_of_true ?_ trivial
      show InRange (TimedEuroFilter.init p unset).reset [] calls
      exact inRange_of_steady hsteady.reset (Or.inl rfl) htimely
    | filter value timestamp =>
      have hafter := (TimedEuroFilter.init p unset).filter_lasttime value timestamp
      constructor
      · rintro ⟨⟨result, hresult, -⟩, -⟩
        by_contra hnot
        obtain ⟨htimed, hbefore⟩ := not_or.mp hnot
        rw [Timely, if_neg htimed] at htimely
        -- an unset time of -1 would be before every timestamp
        have hunset : unset ≠ undefinedTime := fun heq => hbefore (heq ▸ htimely.2.1)
        rw [filter_init_eq_none hunset htimed (not_lt.mp hbefore)] at hresult
        cases hresult
      · intro hfirst
        obtain ⟨hresult, hnext⟩ := hsteady.filter value (Or.inr hfirst)
        refine ⟨hresult, ?_⟩
        rw [Timely] at htimely
        split_ifs at htimely with huntimed
        · exact inRange_of_steady hnext (Or.inl (hafter.trans huntimed)) htimely
        · exact inRange_of_steady hnext (Or.inr hafter) htimely.2.2

/-- A filter at 100 Hz that does not follow the speed. -/
def plainParams : EuroParams ℚ where
  freq := 100
  mincutoff := 1
  beta := 0
  dcutoff := 1
  freq_pos := by norm_num
  mincutoff_pos := by norm_num
  dcutoff_pos := by norm_num

theorem inRange_iff_plain :
    InRange (.init plainParams 2) [] [.filter 5 3, .filter 6 4, .reset, .filter 7 0] ↔
      FirstAfter 2 [EuroCall.filter (5 : ℚ) 3, .filter 6 4, .reset, .filter 7 0] := by
  refine inRange_iff le_rfl 2 ?_
  norm_num [Timely, undefinedTime]

/-- A new filter whose `lasttime_` happens to be 2 throws at the time 1. -/
theorem not_inRange :
    ¬ ∀ (p : EuroParams ℚ) (unset : ℚ) (calls : List (EuroCall ℚ)), 0 ≤ p.beta →
      Timely undefinedTime calls → InRange (.init p unset) [] calls := by
  intro h
  have htimely : Timely undefinedTime [EuroCall.filter (1 : ℚ) 1] := by
    norm_num [Timely, undefinedTime]
  obtain ⟨⟨result, hresult, -⟩, -⟩ := h plainParams 2 [.filter 1 1] le_rfl htimely
  have hthrows : ((TimedEuroFilter.init plainParams 2).filter 1 1).2 = none := by
    refine filter_init_eq_none ?_ ?_ ?_ 1
    · norm_num [undefinedTime]
    · norm_num [undefinedTime]
    · norm_num
  rw [hthrows] at hresult
  cases hresult

end Predictor

/-
The One Euro filter and the smoother of 3D points.

* `LowPassFilter`, `OneEuroFilter`, `SeqManager3D` — the filters;
* `alpha_pos`, `alpha_lt_one` — the smoothing factors pass the range check of
  `setAlpha`, whose exception is therefore left out;
* `filter_lt` — a filter that was used stays behind, `filter_of_not_initialized` — a new one
  does not;
* `Alike` — filters that give the same results from now on: what a filter holds
  before its first value does not count;
* `Agree` — filters that no values tell apart, `agree_iff_filter_eq`;
* `SeqManager3D.reset_alike` — `reset` forgets everything but the parameters.
-/
import HandTracking.Library.Numerals
import Mathlib.Algebra.Order.Field.Basic
import Mathlib.Data.Fin.VecNotation
import Mathlib.Tactic.FieldSimp
import Mathlib.Tactic.Linarith
import Mathlib.Tactic.NormNum
import Mathlib.Tactic.Positivity
import Mathlib.Tactic.Ring

namespace Predictor

variable {K : Type} [Field K] [LinearOrder K]

/-- The parameters of one `OneEuroFilter`.  Its constructor throws unless the frequency
and the cutoffs are positive. -/
structure OneEuroParams (K : Type) [Field K] [LinearOrder K] where
  freq : K
  mincutoff : K
  beta : K
  dcutoff : K
  freq_pos : 0 < freq
  mincutoff_pos : 0 < mincutoff
  beta_nonneg : 0 ≤ beta
  dcutoff_pos : 0 < dcutoff

/-- The frequency of all smoothers. -/
theorem sixty_pos [IsStrictOrderedRing K] : (0 : K) < 60 := by positivity

/-- `M_PI` -/
def mPi : K := 3141592653589793 / 1000000000000000

theorem mPi_pos [IsStrictOrderedRing K] : (0 : K) < mPi := by
  rw [mPi]
  positivity

/-- `LowPassFilter`; `y` is the last raw value. -/
structure LowPassFilter (K : Type) where
  y : K
  a : K
  s : K
  initialized : Bool

namespace LowPassFilter

/-- The constructor. -/
def init (alpha : K) : LowPassFilter K where
  y := 0
  a := alpha
  s := 0
  initialized := false

/-- `LowPassFilter::filter`; the first value passes as it is. -/
def filter (f : LowPassFilter K) (value : K) : LowPassFilter K × K :=
  let result := if f.initialized then f.a * value + (1 - f.a) * f.s else value
  ({ f with y := value, s := result, initialized := true }, result)

/-- `LowPassFilter::filterWithAlpha` -/
def filterWithAlpha (f : LowPassFilter K) (value alpha : K) : LowPassFilter K × K :=
  { f with a := alpha }.filter value

/-- `LowPassFilter::reset`: the next value is a first one again. -/
def reset (f : LowPassFilter K) : LowPassFilter K := { f with initialized := false }

end LowPassFilter

/-- `OneEuroFilter`, called without timestamps as `SeqManager3D` does: `freq_` stays. -/
structure OneEuroFilter (K : Type) [Field K] [LinearOrder K] where
  params : OneEuroParams K
  x : LowPassFilter K
  dx : LowPassFilter K

namespace OneEuroFilter

/-- The smoothing factor of a cutoff frequency. -/
def alpha (p : OneEuroParams K) (cutoff : K) : K :=
  let te := 1 / p.freq
  let tau := 1 / (2 * mPi * cutoff)
  1 / (1 + tau / te)

/-- The constructor. -/
def init (p : OneEuroParams K) : OneEuroFilter K where
  params := p
  x := .init (alpha p p.mincutoff)
  dx := .init (alpha p p.dcutoff)

/-- `OneEuroFilter::reset` -/
def reset (f : OneEuroFilter K) : OneEuroFilter K :=
  { f with x := f.x.reset, dx := f.dx.reset }

/-- The variation per second since the last raw value. -/
def dvalue (f : OneEuroFilter K) (value : K) : K :=
  if f.x.initialized then (value - f.x.y) * f.params.freq else 0

/-- `OneEuroFilter::filter`: the filtered speed sets the cutoff for the value. -/
def filter (f : OneEuroFilter K) (value : K) : OneEuroFilter K × K :=
  let edvalue := f.dx.filterWithAlpha (f.dvalue value) (alpha f.params f.params.dcutoff)
  let cutoff := f.params.mincutoff + f.params.beta * |edvalue.2|
  let result := f.x.filterWithAlpha value (alpha f.params cutoff)
  ({ f with x := result.1, dx := edvalue.1 }, result.2)

end OneEuroFilter

/-- `SeqManager3D`: a filter for each coordinate of each of `n` points. -/
abbrev SeqManager3D (n : ℕ) (K : Type) [Field K] [LinearOrder K] :=
  Fin n → Fin 3 → OneEuroFilter K

namespace SeqManager3D

variable {n : ℕ}

/-- The constructor: the parameters depend on the coordinate. -/
def init (n : ℕ) (params : Fin 3 → OneEuroParams K) : SeqManager3D n K :=
  fun _ c => .init (params c)

/-- `SeqManager3D::reset` -/
def reset (m : SeqManager3D n K) : SeqManager3D n K := fun i c => (m i c).reset

/-- `getFilterHandData`: each coordinate through its filter. -/
def getFilterHandData (m : SeqManager3D n K) (kpt3d : Fin n → Fin 3 → K) :
    SeqManager3D n K × (Fin n → Fin 3 → K) :=
  (fun i c => ((m i c).filter (kpt3d i c)).1, fun i c => ((m i c).filter (kpt3d i c)).2)

end SeqManager3D

/-! ### The range of the smoothing factor -/

section

variable [IsStrictOrderedRing K]

theorem tau_div_te_pos (p : OneEuroParams K) {cutoff : K} (h : 0 < cutoff) :
    0 < 1 / (2 * mPi * cutoff) / (1 / p.freq) := by
  have hfreq := p.freq_pos
  have hpi : (0 : K) < mPi := mPi_pos
  positivity

theorem alpha_pos (p : OneEuroParams K) {cutoff : K} (h : 0 < cutoff) :
    0 < OneEuroFilter.alpha p cutoff := by
  have hpos := tau_div_te_pos p h
  rw [OneEuroFilter.alpha]
  positivity

theorem alpha_lt_one (p : OneEuroParams K) {cutoff : K} (h : 0 < cutoff) :
    OneEuroFilter.alpha p cutoff < 1 := by
  have hpos := tau_div_te_pos p h
  rw [OneEuroFilter.alpha, div_lt_one (by positivity)]
  exact lt_add_of_pos_right 1 hpos

/-- The cutoff that `filter` computes is positive. -/
theorem cutoff_pos (p : OneEuroParams K) (edvalue : K) : 0 < p.mincutoff + p.beta * |edvalue| :=
  add_pos_of_pos_of_nonneg p.mincutoff_pos (mul_nonneg p.beta_nonneg (abs_nonneg edvalue))

end

/-! ### Filters that were used -/

namespace OneEuroFilter

/-- The filtered speed that a value would give; it sets the cutoff. -/
def speed (f : OneEuroFilter K) (value : K) : K :=
  (f.dx.filterWithAlpha (f.dvalue value) (alpha f.params f.params.dcutoff)).2

/-- The cutoff for a value. -/
def cutoff (f : OneEuroFilter K) (value : K) : K :=
  f.params.mincutoff + f.params.beta * |f.speed value|

theorem filter_eq (f : OneEuroFilter K) (value : K) : (f.filter value).2 =
    if f.x.initialized then
      alpha f.params (f.cutoff value) * value + (1 - alpha f.params (f.cutoff value)) * f.x.s
    else value :=
  rfl

theorem initialized_filter (f : OneEuroFilter K) (value : K) :
    (f.filter value).1.x.initialized = true := rfl

/-- A filter that was not used passes the value on. -/
theorem filter_of_not_initialized {f : OneEuroFilter K} (h : f.x.initialized = false) (value : K) :
    (f.filter value).2 = value :=
  if_neg (Bool.not_eq_true _ ▸ h)

/-- What a filter takes off a step away from where it is. -/
theorem sub_filter {f : OneEuroFilter K} (hused : f.x.initialized = true) (value : K) :
    value - (f.filter value).2 = (1 - alpha f.params (f.cutoff value)) * (value - f.x.s) := by
  rw [filter_eq, if_pos hused]
  ring

variable [IsStrictOrderedRing K]

theorem alpha_cutoff_lt_one (f : OneEuroFilter K) (value : K) :
    alpha f.params (f.cutoff value) < 1 :=
  alpha_lt_one f.params (cutoff_pos f.params (f.speed value))

/-- A filter that was used stays behind a value that rises. -/
theorem filter_lt {f : OneEuroFilter K} (hused : f.x.initialized = true) {value : K}
    (h : f.x.s < value) : (f.filter value).2 < value := by
  have hbehind : 0 < value - (f.filter value).2 := by
    rw [sub_filter hused]
    exact mul_pos (sub_pos.mpr (alpha_cutoff_lt_one f value)) (sub_pos.mpr h)
  exact sub_pos.mp hbehind

end OneEuroFilter

/-! ### Filters that give the same results -/

/-- Before the first value the contents of a filter do not count. -/
structure LowPassFilter.Alike (f g : LowPassFilter K) : Prop where
  initialized : f.initialized = g.initialized
  y : f.initialized = true → f.y = g.y
  s : f.initialized = true → f.s = g.s

namespace LowPassFilter

omit [Field K] [LinearOrder K] in
theorem reset_alike (f g : LowPassFilter K) : f.reset.Alike g.reset where
  initialized := rfl
  y h := Bool.noConfusion h
  s h := Bool.noConfusion h

omit [LinearOrder K] in
theorem Alike.filterWithAlpha {f g : LowPassFilter K} (h : f.Alike g) (value alpha : K) :
    (f.filterWithAlpha value alpha).1.Alike (g.filterWithAlpha value alpha).1 ∧
      (f.filterWithAlpha value alpha).2 = (g.filterWithAlpha value alpha).2 := by
  have hres : (f.filterWithAlpha value alpha).2 = (g.filterWithAlpha value alpha).2 := by
    show (if f.initialized = true then alpha * value + (1 - alpha) * f.s else value) =
      if g.initialized = true then alpha * value + (1 - alpha) * g.s else value
    rw [← h.initialized]
    by_cases hi : f.initialized = true
    · rw [if_pos hi, if_pos hi, h.s hi]
    · rw [if_neg hi, if_neg hi]
  exact ⟨⟨rfl, fun _ => rfl, fun _ => hres⟩, hres⟩

end LowPassFilter

/-- Filters that give the same results from now on. -/
structure OneEuroFilter.Alike (f g : OneEuroFilter K) : Prop where
  params : f.params = g.params
  x : f.x.Alike g.x
  dx : f.dx.Alike g.dx

namespace OneEuroFilter

theorem reset_alike {f g : OneEuroFilter K} (h : f.params = g.params) :
    f.reset.Alike g.reset :=
  ⟨h, LowPassFilter.reset_alike _ _, LowPassFilter.reset_alike _ _⟩

theorem Alike.filter {f g : OneEuroFilter K} (h : f.Alike g) (value : K) :
    (f.filter value).1.Alike (g.filter value).1 ∧ (f.filter value).2 = (g.filter value).2 := by
  have hd : f.dvalue value = g.dvalue value := by
    rw [dvalue, dvalue, ← h.x.initialized, ← h.params]
    by_cases hi : f.x.initialized = true
    · rw [if_pos hi, if_pos hi, h.x.y hi]
    · rw [if_neg hi, if_neg hi]
  -- the filtered speed sets the cutoff, so it is compared before the value
  obtain ⟨hdx, he⟩ := h.dx.filterWithAlpha (f.dvalue value) (alpha f.params f.params.dcutoff)
  have hx := h.x.filterWithAlpha value (alpha f.params (f.params.mincutoff + f.params.beta *
    |(f.dx.filterWithAlpha (f.dvalue value) (alpha f.params f.params.dcutoff)).2|))
  rw [OneEuroFilter.filter, OneEuroFilter.filter, ← hd, ← h.params, ← he]
  exact ⟨⟨rfl, hx.1, hdx⟩, hx.2⟩

end OneEuroFilter

/-! ### Filters that cannot be told apart -/

namespace OneEuroFilter

/-- No values make a difference: the filters are at the same point, with the same speeds where
the cutoff depends on them. -/
structure Agree (f g : OneEuroFilter K) : Prop where
  params : f.params = g.params
  initialized : f.x.initialized = g.x.initialized
  s : f.x.initialized = true → f.x.s = g.x.s
  speed : f.params.beta ≠ 0 → ∀ value, f.speed value = g.speed value

theorem Agree.refl (f : OneEuroFilter K) : f.Agree f := ⟨rfl, rfl, fun _ => rfl, fun _ _ => rfl⟩

theorem speed_filter (f : OneEuroFilter K) (value next : K) : (f.filter value).1.speed next =
    alpha f.params f.params.dcutoff * ((next - value) * f.params.freq) +
      (1 - alpha f.params f.params.dcutoff) * f.speed value :=
  rfl

theorem Agree.filter {f g : OneEuroFilter K} (h : f.Agree g) (value : K) :
    (f.filter value).1.Agree (g.filter value).1 ∧ (f.filter value).2 = (g.filter value).2 := by
  have hcutoff : f.cutoff value = g.cutoff value := by
    rw [cutoff, cutoff, ← h.params]
    by_cases hbeta : f.params.beta = 0
    · rw [hbeta, zero_mul, zero_mul]
    · rw [h.speed hbeta]
  have hresult : (f.filter value).2 = (g.filter value).2 := by
    rw [filter_eq, filter_eq, hcutoff, h.params, ← h.initialized]
    by_cases hused : f.x.initialized = true
    · rw [if_pos hused, if_pos hused, h.s hused]
    · rw [if_neg hused, if_neg hused]
  refine ⟨⟨h.params, rfl, fun _ => hresult, ?_⟩, hresult⟩
  intro hbeta next
  rw [speed_filter, speed_filter, h.params, h.speed hbeta]

/-- The speed rises with the value. -/
theorem speed_sub_speed {f : OneEuroFilter K} (hx : f.x.initialized = true)
    (hdx : f.dx.initialized = true) (v w : K) : f.speed v - f.speed w =
      alpha f.params f.params.dcutoff * f.params.freq * (v - w) := by
  have hspeed (v : K) : f.speed v =
      alpha f.params f.params.dcutoff * ((v - f.x.y) * f.params.freq) +
        (1 - alpha f.params f.params.dcutoff) * f.dx.s := by
    have hvalue : f.dvalue v = (v - f.x.y) * f.params.freq := if_pos hx
    have hresult : f.speed v = alpha f.params f.params.dcutoff * f.dvalue v +
        (1 - alpha f.params f.params.dcutoff) * f.dx.s := if_pos hdx
    rw [hresult, hvalue]
  rw [hspeed, hspeed]
  ring

variable [IsStrictOrderedRing K]

/-- A higher cutoff smooths less. -/
theorem alpha_injective (p : OneEuroParams K) {c c' : K} (hc : 0 < c) (hc' : 0 < c')
    (h : alpha p c = alpha p c') : c = c' := by
  have hpi : (0 : K) < mPi := mPi_pos
  have hfreq := p.freq_pos
  have htau : 1 / (2 * mPi * c) / (1 / p.freq) = 1 / (2 * mPi * c') / (1 / p.freq) := by
    have hpos := tau_div_te_pos p hc
    have hpos' := tau_div_te_pos p hc'
    rw [alpha, alpha, div_eq_div_iff (by positivity) (by positivity), one_mul, one_mul] at h
    exact (add_left_cancel h).symm
  field_simp at htau
  exact htau.symm

/-- The speeds are positive for values that are large enough. -/
theorem exists_speed_pos {f g : OneEuroFilter K} (hf : f.x.initialized = true)
    (hfd : f.dx.initialized = true) (hg : g.x.initialized = true) (hgd : g.dx.initialized = true)
    (hparams : f.params = g.params) : ∃ value, f.x.s < value ∧ 0 < f.speed value ∧
      0 < g.speed value := by
  let slope := alpha f.params f.params.dcutoff * f.params.freq
  have hslope : 0 < slope := mul_pos (alpha_pos f.params f.params.dcutoff_pos) f.params.freq_pos
  let value := |f.x.s| + |f.speed 0| / slope + |g.speed 0| / slope + 1
  have hvalue : slope * value = slope * |f.x.s| + |f.speed 0| + |g.speed 0| + slope := by
    show slope * (|f.x.s| + |f.speed 0| / slope + |g.speed 0| / slope + 1) = _
    field_simp
  have hfs : f.speed value = f.speed 0 + slope * value := by
    have hsub := speed_sub_speed hf hfd value 0
    rw [sub_zero] at hsub
    exact sub_eq_iff_eq_add'.mp hsub
  have hgs : g.speed value = g.speed 0 + slope * value := by
    have hsub := speed_sub_speed hg hgd value 0
    rw [sub_zero, ← hparams] at hsub
    exact sub_eq_iff_eq_add'.mp hsub
  have hs : 0 ≤ slope * |f.x.s| := mul_nonneg hslope.le (abs_nonneg _)
  have hf0 : 0 ≤ |f.speed 0| := abs_nonneg _
  have hg0 : 0 ≤ |g.speed 0| := abs_nonneg _
  refine ⟨value, ?_, ?_, ?_⟩
  · have hfirst : 0 ≤ |f.speed 0| / slope := div_nonneg hf0 hslope.le
    have hsecond : 0 ≤ |g.speed 0| / slope := div_nonneg hg0 hslope.le
    have habs : f.x.s ≤ |f.x.s| := le_abs_self _
    show f.x.s < |f.x.s| + |f.speed 0| / slope + |g.speed 0| / slope + 1
    linarith
  · rw [hfs, hvalue]
    linarith [neg_abs_le (f.speed 0)]
  · rw [hgs, hvalue]
    linarith [neg_abs_le (g.speed 0)]

/-- Filters that were used and return the same for every value agree. -/
theorem agree_of_filter_eq {f g : OneEuroFilter K} (hparams : f.params = g.params)
    (hf : f.x.initialized = true) (hfd : f.dx.initialized = true) (hg : g.x.initialized = true)
    (hgd : g.dx.initialized = true) (h : ∀ value, (f.filter value).2 = (g.filter value).2) :
    f.Agree g := by
  -- a filter returns the value where it is, and no other
  have hs : f.x.s = g.x.s := by
    have hstays := sub_filter hf f.x.s
    rw [sub_self, mul_zero, h, sub_filter hg f.x.s] at hstays
    have hne : 1 - alpha g.params (g.cutoff f.x.s) ≠ 0 :=
      (sub_pos.mpr (alpha_cutoff_lt_one g f.x.s)).ne'
    exact sub_eq_zero.mp ((mul_eq_zero.mp hstays).resolve_left hne)
  refine ⟨hparams, hf.trans hg.symm, fun _ => hs, fun hbeta w => ?_⟩
  obtain ⟨value, hvalue, hfpos, hgpos⟩ := exists_speed_pos hf hfd hg hgd hparams
  have hcutoff : f.cutoff value = g.cutoff value := by
    have hstep := sub_filter hf value
    rw [h, sub_filter hg value, ← hs] at hstep
    have halpha := sub_right_inj.mp (mul_right_cancel₀ (sub_pos.mpr hvalue).ne' hstep)
    rw [← hparams] at halpha
    refine (alpha_injective f.params ?_ ?_ halpha).symm
    · rw [cutoff, ← hparams]
      exact cutoff_pos f.params _
    · exact cutoff_pos f.params _
  have hspeed : f.speed value = g.speed value := by
    rw [cutoff, cutoff, ← hparams, abs_of_pos hfpos, abs_of_pos hgpos] at hcutoff
    exact mul_left_cancel₀ hbeta (add_left_cancel hcutoff)
  have hfw := speed_sub_speed hf hfd value w
  rw [hspeed, hparams, ← speed_sub_speed hg hgd value w] at hfw
  exact sub_right_inj.mp hfw

/-- Values and speeds have been filtered together. -/
def InStep (f : OneEuroFilter K) : Prop := f.dx.initialized = f.x.initialized

omit [IsStrictOrderedRing K] in
theorem inStep_filter (f : OneEuroFilter K) (value : K) : (f.filter value).1.InStep := rfl

/-- **One value tells filters apart** that do not agree. -/
theorem agree_iff_filter_eq {f g : OneEuroFilter K} (hparams : f.params = g.params)
    (hf : f.InStep) (hg : g.InStep) :
    f.Agree g ↔ ∀ value, (f.filter value).2 = (g.filter value).2 := by
  constructor
  · exact fun h value => (h.filter value).2
  · intro h
    by_cases hfused : f.x.initialized = true
    · by_cases hgused : g.x.initialized = true
      · exact agree_of_filter_eq hparams hfused (hf.trans hfused) hgused (hg.trans hgused) h
      · have hlt := filter_lt hfused (lt_add_one f.x.s)
        rw [h, filter_of_not_initialized (Bool.not_eq_true _ ▸ hgused)] at hlt
        exact absurd hlt (lt_irrefl _)
    · by_cases hgused : g.x.initialized = true
      · have hlt := filter_lt hgused (lt_add_one g.x.s)
        rw [← h, filter_of_not_initialized (Bool.not_eq_true _ ▸ hfused)] at hlt
        exact absurd hlt (lt_irrefl _)
      · have hnone {f : OneEuroFilter K} (hstep : f.InStep) (hused : ¬ f.x.initialized = true)
            (value : K) : f.speed value = 0 := by
          have hdx : ¬ f.dx.initialized = true := hstep ▸ hused
          have hspeed : f.speed value = f.dvalue value := if_neg hdx
          exact hspeed.trans (if_neg hused)
        refine ⟨hparams, ?_, fun hused => absurd hused hfused, fun _ value => ?_⟩
        · rw [Bool.eq_false_of_not_eq_true hfused, Bool.eq_false_of_not_eq_true hgused]
        · rw [hnone hf hfused, hnone hg hgused]

end OneEuroFilter

namespace SeqManager3D

variable {n : ℕ}

/-- The filters of all coordinates are alike. -/
def Alike (m m' : SeqManager3D n K) : Prop := ∀ i c, (m i c).Alike (m' i c)

/-- The managers were made with the same parameters. -/
def SameParams (m m' : SeqManager3D n K) : Prop := ∀ i c, (m i c).params = (m' i c).params

/-- **`reset` forgets everything but the parameters.** -/
theorem reset_alike {m m' : SeqManager3D n K} (h : m.SameParams m') : Alike m.reset m'.reset :=
  fun i c => OneEuroFilter.reset_alike (h i c)

theorem Alike.getFilterHandData {m m' : SeqManager3D n K} (h : Alike m m')
    (kpt3d : Fin n → Fin 3 → K) :
    Alike (m.getFilterHandData kpt3d).1 (m'.getFilterHandData kpt3d).1 ∧
      (m.getFilterHandData kpt3d).2 = (m'.getFilterHandData kpt3d).2 :=
  ⟨fun i c => ((h i c).filter (kpt3d i c)).1,
    funext fun i => funext fun c => ((h i c).filter (kpt3d i c)).2⟩

end SeqManager3D

end Predictor

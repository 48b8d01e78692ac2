/-
`calculate_95th_percentile`: interpolation between two neighbours of the sorted data.

The rank is 95 hundredths of the number of data and counts from 1.  For one datum it lies below 1,
and the index of the lower neighbour wraps around.

* `calculate95thPercentile` — the code, `none` for an access out of range;
* `exists_rank` — from two data on, the ranks are in range and depend on the number of data only;
* `safeAndMonotone_iff` — the non-empty data for which the result is safe, bounded and monotone;
* `Statistic.percentile95_eq_none_iff` — the runs of a `Statistic` after which it is not safe.
-/
import HandTracking.Library.Numerals
import HandTracking.Library.OrderStatistics
import HandTracking.Library.UnsignedLoop
import HandTracking.Statistic
import Mathlib.Algebra.Order.Floor.Ring
import Mathlib.Data.Rat.Floor
import Mathlib.Tactic.Linarith
import Mathlib.Tactic.NormNum

namespace Reporter

variable {K : Type} [Field K] [LinearOrder K] [FloorRing K]

/-- `static_cast<int>` of what is not negative. -/
def castInt (k : K) : ℤ := if ⌊k⌋ < 2 ^ 31 then ⌊k⌋ else -2 ^ 31

/-- `calculate_95th_percentile`, with the index 0 less 1 at the top of `size_t`. -/
def calculate95thPercentile (data : List K) : Option K :=
  if data.isEmpty then some (-1)
  else
    let n := data.length
    let k : K := n * (95 / 100)
    let newData := data.insertionSort (· ≤ ·)
    if k = castInt k then
      newData[sizeMinusOne ⌊k⌋₊]?
    else do
      let lowerIndex := ⌊k⌋₊
      let upperIndex := lowerIndex + 1
      let lowerValue ← newData[sizeMinusOne lowerIndex]?
      let upperValue ← newData[sizeMinusOne upperIndex]?
      let fraction := k - lowerIndex
      some (lowerValue + fraction * (upperValue - lowerValue))

variable [IsStrictOrderedRing K]

/-- Where the cast finds an integer, there is none between. -/
theorem eq_floor_of_eq_castInt {k : K} (hk : 0 ≤ k) (h : k = castInt k) : k = ⌊k⌋₊ := by
  rw [castInt] at h
  split_ifs at h with hsmall
  · rw [natCast_floor_eq_intCast_floor hk]
    exact h
  · push_cast at h
    linarith

/-- The rank and the next one are ranks of the data. -/
theorem floor_rank_bounds {n : ℕ} (hn : 2 ≤ n) :
    1 ≤ ⌊(n : K) * (95 / 100)⌋₊ ∧ ⌊(n : K) * (95 / 100)⌋₊ < n := by
  have htwo : (2 : K) ≤ n := by exact_mod_cast hn
  constructor
  · refine Nat.le_floor ?_
    rw [Nat.cast_one]
    linarith
  · rw [Nat.floor_lt (by linarith)]
    linarith

/-- The result lies between two neighbours, the same ones for all data of a length. -/
theorem exists_rank {n : ℕ} (hn : 2 ≤ n) : ∃ (m : ℕ) (f : K), m + 1 < n ∧ 0 ≤ f ∧ f ≤ 1 ∧
    ∀ data : List K, data.length = n → ∃ lower upper : K,
      (data.insertionSort (· ≤ ·))[m]? = some lower ∧
      (data.insertionSort (· ≤ ·))[m + 1]? = some upper ∧
      calculate95thPercentile data = some (lower + f * (upper - lower)) := by
  obtain ⟨hone, hlt⟩ := floor_rank_bounds (K := K) hn
  have hrank : (0 : K) ≤ n * (95 / 100) := by positivity
  have hfloor := Nat.floor_le hrank
  have hnext := Nat.lt_floor_add_one ((n : K) * (95 / 100))
  refine ⟨⌊(n : K) * (95 / 100)⌋₊ - 1, n * (95 / 100) - ⌊(n : K) * (95 / 100)⌋₊, by omega,
    by linarith, by linarith, ?_⟩
  rintro data rfl
  set m := ⌊(data.length : K) * (95 / 100)⌋₊ with hm
  have hlength : (data.insertionSort (· ≤ ·)).length = data.length :=
    List.length_insertionSort _ data
  obtain ⟨lower, hlower⟩ : ∃ lower, (data.insertionSort (· ≤ ·))[m - 1]? = some lower :=
    ⟨_, List.getElem?_eq_getElem (by omega)⟩
  obtain ⟨upper, hupper⟩ : ∃ upper, (data.insertionSort (· ≤ ·))[m]? = some upper :=
    ⟨_, List.getElem?_eq_getElem (by omega)⟩
  refine ⟨lower, upper, hlower, by rwa [Nat.sub_add_cancel hone], ?_⟩
  have hdata : ¬ data.isEmpty = true := by
    rw [List.isEmpty_iff_length_eq_zero]
    omega
  rw [calculate95thPercentile, if_neg hdata]
  by_cases hk : (data.length : K) * (95 / 100) = castInt ((data.length : K) * (95 / 100))
  · -- at an integer rank the interpolation would add nothing
    have hfraction := eq_floor_of_eq_castInt hrank hk
    rw [← hm] at hfraction
    simp only [if_pos hk, ← hm, sizeMinusOne_of_pos hone, hlower]
    rw [← hfraction, sub_self, zero_mul, add_zero]
  · have hnextIndex : sizeMinusOne (m + 1) = m := sizeMinusOne_of_pos (Nat.succ_pos m)
    simp only [if_neg hk, ← hm, sizeMinusOne_of_pos hone, hnextIndex, hlower, hupper]
    rfl

/-- The accesses are in range, the result lies between two of the data, and it does not decrease
with any of them. -/
def SafeAndMonotone (data : List K) : Prop :=
  ∃ r, calculate95thPercentile data = some r ∧ (∃ x ∈ data, x ≤ r) ∧ (∃ x ∈ data, r ≤ x) ∧
    ∀ data', List.Forall₂ (· ≤ ·) data data' →
      ∃ r', calculate95thPercentile data' = some r' ∧ r ≤ r'

theorem safeAndMonotone_of_two {data : List K} (hn : 2 ≤ data.length) : SafeAndMonotone data := by
  obtain ⟨m, f, hm, hf0, hf1, hrank⟩ := exists_rank (K := K) hn
  obtain ⟨lower, upper, hlower, hupper, hresult⟩ := hrank data rfl
  have hle : lower ≤ upper := by
    obtain ⟨hi, rfl⟩ := List.getElem?_eq_some_iff.mp hlower
    obtain ⟨hj, rfl⟩ := List.getElem?_eq_some_iff.mp hupper
    exact List.pairwise_iff_getElem.mp (List.pairwise_insertionSort _ data) m (m + 1) hi hj
      (Nat.lt_succ_self m)
  have hmem : ∀ {i : ℕ} {x : K}, (data.insertionSort (· ≤ ·))[i]? = some x → x ∈ data :=
    fun hx => (List.mem_insertionSort _).mp (List.mem_of_getElem? hx)
  refine ⟨_, hresult, ⟨lower, hmem hlower, ?_⟩, ⟨upper, hmem hupper, ?_⟩, fun data' hdata => ?_⟩
  · have hstep : 0 ≤ f * (upper - lower) := mul_nonneg hf0 (sub_nonneg.mpr hle)
    linarith
  · have hrest : 0 ≤ (1 - f) * (upper - lower) :=
      mul_nonneg (sub_nonneg.mpr hf1) (sub_nonneg.mpr hle)
    linarith
  · obtain ⟨lower', upper', hlower', hupper', hresult'⟩ := hrank data' hdata.length_eq.symm
    -- both neighbours are at least as great in the greater data
    have hsorted := List.forall₂_insertionSort hdata
    have hlow : lower ≤ lower' := hsorted.getElem?_le hlower hlower'
    have hup : upper ≤ upper' := hsorted.getElem?_le hupper hupper'
    refine ⟨_, hresult', ?_⟩
    have hfirst : 0 ≤ (1 - f) * (lower' - lower) :=
      mul_nonneg (sub_nonneg.mpr hf1) (sub_nonneg.mpr hlow)
    have hsecond : 0 ≤ f * (upper' - upper) := mul_nonneg hf0 (sub_nonneg.mpr hup)
    linarith

/-- The rank of one datum lies below 1. -/
theorem calculate95thPercentile_singleton (x : K) : calculate95thPercentile [x] = none := by
  have hfloor : ⌊(95 / 100 : K)⌋ = 0 := by
    rw [Int.floor_eq_zero_iff]
    constructor <;> norm_num
  have hnat : ⌊(95 / 100 : K)⌋₊ = 0 := by
    rw [← Int.floor_toNat, hfloor]
    rfl
  have hcast : ¬ (95 / 100 : K) = castInt (95 / 100 : K) := by
    rw [castInt, hfloor]
    norm_num
  simp [calculate95thPercentile, hcast, hnat, sizeMinusOne]

/-- **One datum is too few.** -/
theorem safeAndMonotone_iff {data : List K} (hdata : data ≠ []) :
    SafeAndMonotone data ↔ 2 ≤ data.length := by
  refine ⟨fun h => ?_, safeAndMonotone_of_two⟩
  by_contra hshort
  have hpos := List.length_pos_iff.mpr hdata
  obtain ⟨x, rfl⟩ := List.length_eq_one_iff.mp (show data.length = 1 by omega)
  obtain ⟨r, hr, -⟩ := h
  rw [calculate95thPercentile_singleton] at hr
  cases hr

theorem safeAndMonotone_iff_pair : SafeAndMonotone [(3 : ℚ), 1] ↔ 2 ≤ [(3 : ℚ), 1].length :=
  safeAndMonotone_iff (by simp)

/-- One datum has no percentile. -/
theorem not_safeAndMonotone : ¬ ∀ data : List ℚ, data ≠ [] → SafeAndMonotone data := by
  intro h
  obtain ⟨r, hr, -⟩ := h [5] (by simp)
  rw [calculate95thPercentile_singleton] at hr
  cases hr

/-! ### `percentile_95` -/

namespace Statistic

omit [FloorRing K] [IsStrictOrderedRing K] in
theorem step_data (s : Statistic K) (c : StatCall K) : (s.step c).data = valuesNext s.data c := by
  cases c with
  | push x =>
    show (s.push x).data = s.data ++ [x]
    rw [push]
    split_ifs <;> rfl
  | clear => rfl

omit [FloorRing K] [IsStrictOrderedRing K] in
/-- The data are the values since `Clear` or the constructor. -/
theorem run_data (s : Statistic K) (calls : List (StatCall K)) :
    (calls.foldl step s).data = calls.foldl valuesNext s.data := by
  induction calls generalizing s with
  | nil => rfl
  | cons c calls ih =>
    rw [List.foldl_cons, List.foldl_cons, ih, step_data]

/-- The percentile of the values of a `Statistic`. -/
def percentile95 (s : Statistic K) : Option K := calculate95thPercentile s.data

/-- In a run it reads out of range exactly after the first value. -/
theorem percentile95_eq_none_iff (unset : Statistic K) (calls : List (StatCall K)) :
    (calls.foldl step (new unset)).percentile95 = none ↔
      (calls.foldl valuesNext []).length = 1 := by
  have hdata : (calls.foldl step (new unset)).data = calls.foldl valuesNext [] :=
    run_data (new unset) calls
  rw [percentile95, hdata]
  generalize calls.foldl valuesNext [] = data
  rcases Nat.lt_trichotomy data.length 1 with hempty | hone | htwo
  · obtain rfl := List.length_eq_zero_iff.mp (show data.length = 0 by omega)
    simp [calculate95thPercentile]
  · obtain ⟨x, rfl⟩ := List.length_eq_one_iff.mp hone
    simp [calculate95thPercentile_singleton]
  · obtain ⟨r, hr, -⟩ := safeAndMonotone_of_two htwo
    rw [hr]
    constructor
    · intro h
      cases h
    · intro hone
      omega

end Statistic

end Reporter

/-
`Statistic`: running count, mean, variance, sum and maximum.

The constructor leaves `counter_`, `total_impl_`, `mean_` and `ssd_` unset.  `Clear` sets the
counter, so that the next value sets the mean and the sum anew, but it leaves the sum until then;
and the maximum starts from -100.

* `Statistic` — the members, `push`, `clear` and the accessors;
* `Right` — what the accessors should give for some values;
* `Tracks` — what the members hold, `Tracks.push` — Welford's update keeps it;
* `right_iff` — where the members give the right values;
* `allRight_iff` — the runs in which they do in every state.
-/
import HandTracking.Library.Numerals
import HandTracking.Library.RunningVariance
import Mathlib.Algebra.Order.Field.Basic
import Mathlib.Data.Int.Order.Lemmas
import Mathlib.Tactic.Linarith
import Mathlib.Tactic.NormNum

namespace Reporter

variable {K : Type} [Field K] [LinearOrder K]

/-- `++counter_` on an `int`. -/
def increment (counter : ℤ) : ℤ := Int.bmod (counter + 1) (2 ^ 32)

/-- `Statistic`: the counter, the sums and the values. -/
structure Statistic (K : Type) where
  counter : ℤ
  totalImpl : K
  mean : K
  ssd : K
  max : K
  data : List K

namespace Statistic

/-- The constructor; the other members hold what was found in their place. -/
def new (unset : Statistic K) : Statistic K := { unset with max := -100, data := [] }

/-- `Clear`, which leaves the mean and the sums as they are. -/
def clear (s : Statistic K) : Statistic K := { s with counter := 0, data := [], max := -100 }

/-- `Push`: the mean and the sum of squares are updated by the new value. -/
def push (s : Statistic K) (x : K) : Statistic K :=
  let counter := increment s.counter
  let max := if x > s.max then x else s.max
  if counter = 1 then
    { counter, max, mean := x, ssd := 0, totalImpl := x, data := s.data ++ [x] }
  else
    let mean := s.mean + (x - s.mean) / counter
    { counter, max, mean
      ssd := s.ssd + (x - mean) * (x - s.mean)
      totalImpl := s.totalImpl + x
      data := s.data ++ [x] }

/-- The number of values. -/
def dataCount (s : Statistic K) : ℤ := s.counter

/-- Their mean, 0 if there are none. -/
def getMean (s : Statistic K) : K := if 0 < s.counter then s.mean else 0

/-- Their variance, 0 if there are fewer than two. -/
def variance (s : Statistic K) : K := if 1 < s.counter then s.ssd / (s.counter - 1) else 0

/-- Their sum. -/
def total (s : Statistic K) : K := s.totalImpl

/-- Their maximum, and at least -100. -/
def getMax (s : Statistic K) : K := s.max

end Statistic

theorem Statistic.push_counter (s : Statistic K) (x : K) :
    (s.push x).counter = increment s.counter := by
  rw [push]
  split_ifs <;> rfl

theorem Statistic.push_max (s : Statistic K) (x : K) :
    (s.push x).max = if x > s.max then x else s.max := by
  rw [push]
  split_ifs <;> rfl

/-! ### What the accessors should give -/

/-- The accessors agree with the definitions; no values have no maximum. -/
structure Right (s : Statistic K) (values : List K) : Prop where
  count : s.dataCount = values.length
  mean : s.getMean = values.mean
  variance : s.variance =
    if values.length < 2 then 0 else values.sumSqDev / (values.length - 1)
  total : s.total = values.sum
  max : values ≠ [] → s.getMax ∈ values ∧ ∀ x ∈ values, x ≤ s.getMax

/-- What the members hold after some values. -/
structure Tracks (s : Statistic K) (values : List K) : Prop where
  counter : s.counter = values.length
  mean : values ≠ [] → s.mean = values.mean
  ssd : values ≠ [] → s.ssd = values.sumSqDev
  total : values ≠ [] → s.totalImpl = values.sum
  max_mem : s.max = -100 ∨ s.max ∈ values
  le_max : -100 ≤ s.max ∧ ∀ x ∈ values, x ≤ s.max

/-- The counter stands a value more. -/
theorem increment_eq_iff (n : ℕ) : increment n = (n + 1 : ℕ) ↔ n + 1 < 2 ^ 31 := by
  rw [increment]
  constructor
  · intro h
    have hlt : Int.bmod ((n : ℤ) + 1) (2 ^ 32) < (2 ^ 32 + 1) / 2 := Int.bmod_lt (by decide)
    rw [h] at hlt
    omega
  · intro h
    rw [Int.bmod_eq_of_le (by omega) (by omega)]
    rfl

namespace Tracks

variable {s : Statistic K} {values : List K} [IsStrictOrderedRing K]

omit [IsStrictOrderedRing K] in
theorem of_empty (hcounter : s.counter = 0) (hmax : s.max = -100) : Tracks s [] where
  counter := hcounter
  mean h := absurd rfl h
  ssd h := absurd rfl h
  total h := absurd rfl h
  max_mem := Or.inl hmax
  le_max := ⟨hmax.ge, fun _ hx => absurd hx List.not_mem_nil⟩

omit [IsStrictOrderedRing K] in
theorem clear (s : Statistic K) : Tracks s.clear [] := of_empty rfl rfl

omit [IsStrictOrderedRing K] in
theorem new {unset : Statistic K} (h : unset.counter = 0) : Tracks (.new unset) [] := of_empty h rfl

omit [IsStrictOrderedRing K] in
/-- The maximum so far is that of the values and -100. -/
theorem le_push_max (h : Tracks s values) (x : K) :
    ((s.push x).max = -100 ∨ (s.push x).max ∈ values ++ [x]) ∧
      -100 ≤ (s.push x).max ∧ ∀ y ∈ values ++ [x], y ≤ (s.push x).max := by
  obtain ⟨hlow, hle⟩ := h.le_max
  rw [Statistic.push_max]
  split_ifs with hgt
  · refine ⟨Or.inr (by simp), hlow.trans (le_of_lt hgt), fun y hy => ?_⟩
    rcases List.mem_append.mp hy with hy | hy
    · exact (hle y hy).trans (le_of_lt hgt)
    · exact (List.mem_singleton.mp hy).le
  · refine ⟨h.max_mem.imp_right fun hmem => List.mem_append_left _ hmem, hlow, fun y hy => ?_⟩
    rcases List.mem_append.mp hy with hy | hy
    · exact hle y hy
    · exact (List.mem_singleton.mp hy).trans_le (not_lt.mp hgt)

/-- **Welford's update.** -/
theorem push_moments (h : Tracks s values) (hcount : values.length + 1 < 2 ^ 31) (x : K) :
    (s.push x).mean = (values ++ [x]).mean ∧ (s.push x).ssd = (values ++ [x]).sumSqDev ∧
      (s.push x).totalImpl = (values ++ [x]).sum := by
  have hcounter : increment s.counter = (values.length + 1 : ℕ) := by
    rw [h.counter]
    exact (increment_eq_iff values.length).mpr hcount
  by_cases hvalues : values = []
  · -- the first value sets all members anew
    subst hvalues
    have hone : increment s.counter = 1 := hcounter
    rw [Statistic.push, if_pos hone]
    refine ⟨?_, ?_, ?_⟩
    · simp [List.mean]
    · exact (List.sumSqDev_singleton x).symm
    · simp
  · have hlength : 0 < values.length := List.length_pos_iff.mpr hvalues
    have hne : ¬ increment s.counter = 1 := by
      rw [hcounter]
      omega
    have hmean : s.mean + (x - s.mean) / (increment s.counter : K) = (values ++ [x]).mean := by
      rw [hcounter, h.mean hvalues, List.mean_concat, Int.cast_natCast, Nat.cast_succ]
    have hssd : s.ssd + (x - (values ++ [x]).mean) * (x - s.mean) =
        (values ++ [x]).sumSqDev := by
      rw [List.sumSqDev_concat, h.ssd hvalues, h.mean hvalues]
    have htotal : s.totalImpl + x = (values ++ [x]).sum := by
      rw [h.total hvalues, List.sum_append, List.sum_singleton]
    rw [Statistic.push, if_neg hne]
    show s.mean + (x - s.mean) / (increment s.counter : K) = _ ∧
      s.ssd + (x - (s.mean + (x - s.mean) / (increment s.counter : K))) * (x - s.mean) = _ ∧ _
    rw [hmean]
    exact ⟨rfl, hssd, htotal⟩

theorem push (h : Tracks s values) (hcount : values.length + 1 < 2 ^ 31) (x : K) :
    Tracks (s.push x) (values ++ [x]) where
  counter := by
    rw [Statistic.push_counter, h.counter, List.length_append, List.length_singleton]
    exact (increment_eq_iff values.length).mpr hcount
  mean _ := (h.push_moments hcount x).1
  ssd _ := (h.push_moments hcount x).2.1
  total _ := (h.push_moments hcount x).2.2
  max_mem := (h.le_push_max x).1
  le_max := (h.le_push_max x).2

omit [IsStrictOrderedRing K] in
/-- The accessors are right but for a sum that was left and a maximum that was not reached. -/
theorem right_iff (h : Tracks s values) :
    Right s values ↔ (values = [] → s.totalImpl = 0) ∧ (values ≠ [] → s.max ∈ values) := by
  constructor
  · intro hr
    refine ⟨fun hvalues => ?_, fun hvalues => (hr.max hvalues).1⟩
    have htotal : s.totalImpl = values.sum := hr.total
    rw [htotal, hvalues, List.sum_nil]
  · rintro ⟨hleft, hreached⟩
    have hpos : 0 < s.counter ↔ values ≠ [] := by
      rw [h.counter, ← List.length_pos_iff]
      omega
    have htwo : 1 < s.counter ↔ ¬ values.length < 2 := by
      rw [h.counter]
      omega
    refine ⟨h.counter, ?_, ?_, ?_, fun hvalues => ⟨hreached hvalues, h.le_max.2⟩⟩
    · rw [Statistic.getMean]
      by_cases hvalues : values = []
      · rw [if_neg fun h => hpos.mp h hvalues, hvalues]
        simp [List.mean]
      · rw [if_pos (hpos.mpr hvalues), h.mean hvalues]
    · rw [Statistic.variance]
      by_cases hshort : values.length < 2
      · rw [if_neg fun h => htwo.mp h hshort, if_pos hshort]
      · have hvalues : values ≠ [] := List.length_pos_iff.mp (by omega)
        rw [if_pos (htwo.mpr hshort), if_neg hshort, h.ssd hvalues, h.counter, Int.cast_natCast]
    · by_cases hvalues : values = []
      · rw [hvalues]
        exact hleft hvalues
      · exact h.total hvalues

end Tracks

/-! ### Runs -/

/-- A call that changes a `Statistic`. -/
inductive StatCall (K : Type) where
  | push (x : K)
  | clear

/-- The `Statistic` after a call. -/
def Statistic.step (s : Statistic K) : StatCall K → Statistic K
  | .push x => s.push x
  | .clear => s.clear

/-- The values since the last `Clear` or the constructor, after one more call. -/
def valuesNext (values : List K) : StatCall K → List K
  | .push x => values ++ [x]
  | .clear => []

/-- The accessors are right now and after each of the calls. -/
def AllRight : Statistic K → List K → List (StatCall K) → Prop
  | s, values, [] => Right s values
  | s, values, c :: calls => Right s values ∧ AllRight (s.step c) (valuesNext values c) calls

/-- The first value after `Clear` or the constructor is not below -100, the counter does not run
over, and `Clear` finds a sum of 0. -/
def Suits : List K → List (StatCall K) → Prop
  | _, [] => True
  | values, .push x :: calls =>
      (values = [] → -100 ≤ x) ∧ values.length + 1 < 2 ^ 31 ∧ Suits (values ++ [x]) calls
  | values, .clear :: calls => values.sum = 0 ∧ Suits [] calls

theorem AllRight.right {s : Statistic K} {values : List K} {calls : List (StatCall K)}
    (h : AllRight s values calls) : Right s values := by
  cases calls with
  | nil => exact h
  | cons c calls => exact h.1

section

variable [IsStrictOrderedRing K] {s : Statistic K} {values : List K}

/-- One `Push`. -/
theorem Right.push_iff (h : Tracks s values) (hr : Right s values) (x : K) :
    Right (s.push x) (values ++ [x]) ↔ (values = [] → -100 ≤ x) ∧ values.length + 1 < 2 ^ 31 := by
  have hcount : (s.push x).dataCount = (values ++ [x]).length ↔ values.length + 1 < 2 ^ 31 := by
    rw [Statistic.dataCount, Statistic.push_counter, h.counter, List.length_append]
    exact increment_eq_iff values.length
  constructor
  · intro hnext
    have hsmall := hcount.mp hnext.count
    refine ⟨fun hvalues => ?_, hsmall⟩
    have htracks := h.push hsmall x
    have hreached := (htracks.right_iff.mp hnext).2 (by simp)
    rw [hvalues] at hreached
    rw [← List.mem_singleton.mp hreached]
    exact htracks.le_max.1
  · rintro ⟨hfirst, hsmall⟩
    refine (h.push hsmall x).right_iff.mpr ⟨fun hnil => by simp at hnil, fun _ => ?_⟩
    rw [Statistic.push_max]
    split_ifs with hgt
    · simp
    · by_cases hvalues : values = []
      · -- nothing was above -100 before
        subst hvalues
        have hold : s.max = -100 := h.max_mem.resolve_right List.not_mem_nil
        have hx : s.max = x := le_antisymm (hold.trans_le (hfirst rfl)) (not_lt.mp hgt)
        simp [hx]
      · exact List.mem_append_left _ (hr.max hvalues).1

omit [IsStrictOrderedRing K] in
/-- `Clear` leaves the sum. -/
theorem Right.clear_iff (hr : Right s values) : Right s.clear [] ↔ values.sum = 0 := by
  have hleft : s.clear.totalImpl = values.sum := hr.total
  rw [(Tracks.clear s).right_iff, hleft]
  constructor
  · exact fun h => h.1 rfl
  · exact fun h => ⟨fun _ => h, fun hne => absurd rfl hne⟩

theorem allRight_iff_suits (h : Tracks s values) (hr : Right s values) (calls : List (StatCall K)) :
    AllRight s values calls ↔ Suits values calls := by
  induction calls generalizing s values with
  | nil => exact iff_of_true hr trivial
  | cons c calls ih =>
    cases c with
    | push x =>
      have hpush := Right.push_iff h hr x
      constructor
      · rintro ⟨-, hrest⟩
        have hnext : AllRight (s.push x) (values ++ [x]) calls := hrest
        obtain ⟨hfirst, hsmall⟩ := hpush.mp hnext.right
        exact ⟨hfirst, hsmall, (ih (h.push hsmall x) hnext.right).mp hnext⟩
      · rintro ⟨hfirst, hsmall, hrest⟩
        exact ⟨hr, (ih (h.push hsmall x) (hpush.mpr ⟨hfirst, hsmall⟩)).mpr hrest⟩
    | clear =>
      have hclear := Right.clear_iff hr
      constructor
      · rintro ⟨-, hrest⟩
        have hnext : AllRight s.clear [] calls := hrest
        exact ⟨hclear.mp hnext.right, (ih (Tracks.clear s) hnext.right).mp hnext⟩
      · rintro ⟨hsum, hrest⟩
        exact ⟨hr, (ih (Tracks.clear s) (hclear.mpr hsum)).mpr hrest⟩

/-- **The accessors are right in every state of a run exactly when** the constructor found zeros in
the counter and the sum and the calls suit it. -/
theorem allRight_iff (unset : Statistic K) (calls : List (StatCall K)) :
    AllRight (.new unset) [] calls ↔
      unset.counter = 0 ∧ unset.totalImpl = 0 ∧ Suits [] calls := by
  constructor
  · intro h
    have hcounter : unset.counter = 0 := h.right.count
    have htotal : unset.totalImpl = 0 := h.right.total
    have htracks := Tracks.new hcounter
    exact ⟨hcounter, htotal, (allRight_iff_suits htracks h.right calls).mp h⟩
  · rintro ⟨hcounter, htotal, hsuits⟩
    have htracks := Tracks.new hcounter
    have hr : Right (.new unset) [] :=
      htracks.right_iff.mpr ⟨fun _ => htotal, fun hne => absurd rfl hne⟩
    exact (allRight_iff_suits htracks hr calls).mpr hsuits

end

/-- Zeros in all members. -/
def zeroed : Statistic ℚ := ⟨0, 0, 0, 0, 0, []⟩

theorem allRight_iff_zeroed :
    AllRight (.new zeroed) [] [.push 3, .push (-500), .push 497, .clear, .push (-100)] ↔
      zeroed.counter = 0 ∧ zeroed.totalImpl = 0 ∧
        Suits [] [StatCall.push (3 : ℚ), .push (-500), .push 497, .clear, .push (-100)] :=
  allRight_iff zeroed _

/-- The maximum of the one value -200 is given as -100. -/
theorem not_allRight :
    ¬ ∀ (unset : Statistic ℚ) (calls : List (StatCall ℚ)), AllRight (.new unset) [] calls := by
  intro h
  have htracks : Tracks (.new zeroed) [] := Tracks.new rfl
  obtain ⟨hr, hnext⟩ := h zeroed [.push (-200)]
  have hlow := ((Right.push_iff htracks hr (-200)).mp hnext).1 rfl
  norm_num at hlow

end Reporter

/-
The softmax of the rows of a tensor, plain and with vectors of four lanes.

Both write `exp (x - max) / sum` to each element of a row, where `max` is the largest element
of the row and `sum` the sum of the exponentials.  The vector code takes blocks of 16 and of
4; what is left of a row after them counts for the maximum and is divided by the sum, and
nothing else is done to it.

* `softmaxLastDimNaive`, `softmaxLastDimAsm` — the two functions, exact, with a function for
  `exp`;
* `softmaxSingleLaneAsm_eq` — what the vector code leaves in a row;
* `softmaxLastDim_agree_iff` — the two agree exactly when there is no such rest.
-/
import Mathlib.Algebra.BigOperators.Field
import Mathlib.Algebra.Order.BigOperators.Group.Finset
import Mathlib.Analysis.SpecialFunctions.Exp
import HandTracking.Library.BlockLoop
import HandTracking.Library.Lanes
import HandTracking.Library.Numerals

namespace Softmax

open Lanes

section Code

variable {K : Type*} [Field K] [LinearOrder K] (exp : K → K)

/-! ### The plain code -/

/-- The first loop of `softmax_single_lane_inplace`. -/
def rowMaxNaive (input : ℤ → K) (inputPtr size : ℤ) : K :=
  (forBlocks 1 size (fun i m => max m (input (inputPtr + i))) 0 (-fltMax)).2

/-- The second loop: the output with the exponentials, and their sum. -/
def rowExpNaive (input : ℤ → K) (inputPtr : ℤ) (output : ℤ → K) (outputPtr size : ℤ) (m : K) :
    (ℤ → K) × K :=
  (forBlocks 1 size
    (fun i (s : (ℤ → K) × K) =>
      let output := Function.update s.1 (outputPtr + i) (exp (input (inputPtr + i) - m))
      (output, s.2 + output (outputPtr + i)))
    0 (output, 0)).2

/-- The third loop. -/
def rowDivNaive (output : ℤ → K) (outputPtr size : ℤ) (sum : K) : ℤ → K :=
  (forBlocks 1 size
    (fun i output => Function.update output (outputPtr + i) (output (outputPtr + i) / sum))
    0 output).2

/-- `softmax_single_lane_inplace` without vectors: the maximum, the exponentials and the quotients
of a row. -/
def softmaxSingleLaneInplace (input : ℤ → K) (inputPtr : ℤ) (output : ℤ → K)
    (outputPtr size : ℤ) : ℤ → K :=
  let r := rowExpNaive exp input inputPtr output outputPtr size (rowMaxNaive input inputPtr size)
  rowDivNaive r.1 outputPtr size r.2

/-- `softmax_last_dim_naive`: row by row. -/
def softmaxLastDimNaive (input output : ℤ → K) (dims : Fin 3 → ℤ) : ℤ → K :=
  (forBlocks 1 (dims 0 * dims 1)
    (fun priorIdx output => softmaxSingleLaneInplace exp input (priorIdx * dims 2) output
      (priorIdx * dims 2) (dims 2))
    0 output).2

/-! ### The vector code -/

/-- `exp_ps` of one vector. -/
def expPs (x : Float32x4 K) : Float32x4 K := fun l => exp (x l)

/-- `exp_ps` of 16 elements, which adds to the sum. -/
def expPs16 (output : ℤ → K) (outputPtr : ℤ) (input : ℤ → K) (inputPtr : ℤ) (maxvalue sum : K) :
    (ℤ → K) × K :=
  let maxv := vdupqN maxvalue
  let x := expPs exp (vsubq (vld1q input inputPtr) maxv)
  let y := expPs exp (vsubq (vld1q input (inputPtr + 4)) maxv)
  let z := expPs exp (vsubq (vld1q input (inputPtr + 8)) maxv)
  let w := expPs exp (vsubq (vld1q input (inputPtr + 12)) maxv)
  let output := vst1q output outputPtr x
  let output := vst1q output (outputPtr + 4) y
  let output := vst1q output (outputPtr + 8) z
  let output := vst1q output (outputPtr + 12) w
  (output, sum + vaddvq (vaddq (vaddq (vaddq x y) z) w))

/-- The first two loops of `softmax_single_lane_asm`. -/
def rowMaxAsm (input : ℤ → K) (inputPtr size : ℤ) : K :=
  let r := forBlocks 4 size (fun i maxx4 => vmaxq maxx4 (vld1q input (inputPtr + i))) 0
    (vdupqN (-fltMax))
  (forBlocks 1 size
    (fun i m => if m < input (inputPtr + i) then input (inputPtr + i) else m)
    r.1 (vmaxvq r.2)).2

/-- The loops over blocks of 16 and then of 4. -/
def rowExpAsm (input : ℤ → K) (inputPtr : ℤ) (output : ℤ → K) (outputPtr size : ℤ) (m : K) :
    (ℤ → K) × K :=
  let r := forBlocks 16 size
    (fun i (s : (ℤ → K) × K) =>
      expPs16 exp s.1 (outputPtr + i) input (inputPtr + i) m s.2)
    0 (output, 0)
  (forBlocks 4 size
    (fun i (s : (ℤ → K) × K) =>
      let tmpOutput := expPs exp (vsubq (vld1q input (inputPtr + i)) (vdupqN m))
      (vst1q s.1 (outputPtr + i) tmpOutput, s.2 + vaddvq tmpOutput))
    r.1 r.2).2

/-- The last two loops. -/
def rowDivAsm (output : ℤ → K) (outputPtr size : ℤ) (sum : K) : ℤ → K :=
  let div := 1 / sum
  let r := forBlocks 4 size
    (fun i output => vst1q output (outputPtr + i) (vmulqN (vld1q output (outputPtr + i)) div))
    0 output
  (forBlocks 1 size
    (fun i output => Function.update output (outputPtr + i) (output (outputPtr + i) / sum))
    r.1 r.2).2

/-- `softmax_single_lane_asm`: the same with vectors of four lanes. -/
def softmaxSingleLaneAsm (input : ℤ → K) (inputPtr : ℤ) (output : ℤ → K)
    (outputPtr size : ℤ) : ℤ → K :=
  let r := rowExpAsm exp input inputPtr output outputPtr size (rowMaxAsm input inputPtr size)
  rowDivAsm r.1 outputPtr size r.2

/-- `softmax_last_dim_asm`: row by row. -/
def softmaxLastDimAsm (input output : ℤ → K) (dims : Fin 3 → ℤ) : ℤ → K :=
  (forBlocks 1 (dims 0 * dims 1)
    (fun priorIdx output => softmaxSingleLaneAsm exp input (priorIdx * dims 2) output
      (priorIdx * dims 2) (dims 2))
    0 output).2

end Code

/-! ### One row -/

section RowMax

variable {K : Type*} [Field K] [LinearOrder K] (input : ℤ → K) (inputPtr : ℤ)

/-- The elements that count for the maximum, after the first `n` of the row. -/
def rowEntries (n : ℕ) : Set K := {x | x = -fltMax ∨ ∃ k < n, x = input (inputPtr + k)}

variable {input inputPtr}

theorem isGreatest_rowEntries_zero : IsGreatest (rowEntries input inputPtr 0) (-fltMax) := by
  refine ⟨.inl rfl, ?_⟩
  rintro x (rfl | ⟨k, hk, -⟩)
  · exact le_rfl
  · exact absurd hk (Nat.not_lt_zero k)

theorem isGreatest_rowEntries_succ {n : ℕ} {m : K}
    (h : IsGreatest (rowEntries input inputPtr n) m) :
    IsGreatest (rowEntries input inputPtr (n + 1)) (max m (input (inputPtr + n))) := by
  have hunion : rowEntries input inputPtr (n + 1) =
      insert (input (inputPtr + n)) (rowEntries input inputPtr n) := by
    ext x
    constructor
    · rintro (hx | ⟨k, hk, hx⟩)
      · exact .inr (.inl hx)
      · rcases Nat.lt_succ_iff_lt_or_eq.mp hk with hlt | rfl
        · exact .inr (.inr ⟨k, hlt, hx⟩)
        · exact .inl hx
    · rintro (hx | hx | ⟨k, hk, hx⟩)
      · exact .inr ⟨n, Nat.lt_succ_self n, hx⟩
      · exact .inl hx
      · exact .inr ⟨k, Nat.lt_succ_of_lt hk, hx⟩
  rw [hunion, max_comm]
  exact h.insert _

theorem isGreatest_rowEntries_add_four {n : ℕ} {m : K}
    (h : IsGreatest (rowEntries input inputPtr n) m) :
    IsGreatest (rowEntries input inputPtr (n + 4))
      (max m (vmaxvq (vld1q input (inputPtr + n)))) := by
  have hunion : rowEntries input inputPtr (n + 4) =
      rowEntries input inputPtr n ∪ Set.range (vld1q input (inputPtr + n)) := by
    ext x
    constructor
    · rintro (hx | ⟨k, hk, hx⟩)
      · exact .inl (.inl hx)
      · by_cases hlt : k < n
        · exact .inl (.inr ⟨k, hlt, hx⟩)
        · refine .inr ⟨⟨k - n, by omega⟩, ?_⟩
          rw [vld1q, hx]
          congr 1
          push_cast
          omega
    · rintro ((hx | ⟨k, hk, hx⟩) | ⟨l, hx⟩)
      · exact .inl hx
      · exact .inr ⟨k, by omega, hx⟩
      · refine .inr ⟨n + l, by omega, ?_⟩
        rw [← hx, vld1q]
        push_cast
        rw [add_assoc]
  rw [hunion]
  exact h.union (isGreatest_vmaxvq _)

/-- The two maxima of a row are the same. -/
theorem rowMaxAsm_eq (size : ℤ) :
    rowMaxAsm input inputPtr size = rowMaxNaive input inputPtr size := by
  have hnaive : IsGreatest (rowEntries input inputPtr size.toNat)
      (rowMaxNaive input inputPtr size) := by
    have hrule := forBlocks_rule (P := fun i m => IsGreatest (rowEntries input inputPtr i) m)
      1 size (fun i m => max m (input (inputPtr + i)))
      (fun i m _ h => isGreatest_rowEntries_succ h) isGreatest_rowEntries_zero
    rw [forBlocks_one_fst _ _ (Nat.zero_le _)] at hrule
    exact hrule
  have hasm : IsGreatest (rowEntries input inputPtr size.toNat)
      (rowMaxAsm input inputPtr size) := by
    set r := forBlocks 4 size (fun i maxx4 => vmaxq maxx4 (vld1q input (inputPtr + i))) 0
      (vdupqN (-fltMax)) with hr
    have hblocks : IsGreatest (rowEntries input inputPtr r.1) (vmaxvq r.2) := by
      refine forBlocks_rule (P := fun i m => IsGreatest (rowEntries input inputPtr i) (vmaxvq m))
        4 size _ (fun i m _ h => ?_) ?_
      · rw [vmaxvq_vmaxq]
        exact isGreatest_rowEntries_add_four h
      · rw [vmaxvq_vdupqN]
        exact isGreatest_rowEntries_zero
    have hle : r.1 ≤ size.toNat := by
      rw [hr, forBlocks_fst (by norm_num) _ _ (Nat.zero_le _)]
      omega
    have hrule := forBlocks_rule (P := fun i m => IsGreatest (rowEntries input inputPtr i) m)
      1 size (fun i m => if m < input (inputPtr + i) then input (inputPtr + i) else m)
      (fun i m _ h => by
        rw [← max_def_lt]
        exact isGreatest_rowEntries_succ h) hblocks
    rw [forBlocks_one_fst _ _ hle] at hrule
    exact hrule
  exact hasm.unique hnaive

end RowMax

section RowExp

variable {K : Type*} [Field K] (exp : K → K) (input : ℤ → K) (inputPtr : ℤ) (output : ℤ → K)
  (outputPtr : ℤ) (size : ℤ) (m : K)

/-- The exponentials of a row. -/
def rowExp (k : ℕ) : K := exp (input (inputPtr + k) - m)

/-- The first `n` exponentials are written and summed up. -/
def expWritten (n : ℕ) : (ℤ → K) × K :=
  (written output outputPtr (rowExp exp input inputPtr m) n,
    ∑ k ∈ Finset.range n, rowExp exp input inputPtr m k)

theorem expWritten_zero :
    expWritten exp input inputPtr output outputPtr m 0 = (output, 0) := by
  rw [expWritten, written_zero, Finset.sum_range_zero]

variable {exp input inputPtr output outputPtr m} in
theorem expWritten_of_lt {k n : ℕ} (hk : k < n) :
    (expWritten exp input inputPtr output outputPtr m n).1 (outputPtr + k) =
      rowExp exp input inputPtr m k :=
  written_of_lt hk

variable {exp input inputPtr output outputPtr m} in
theorem expWritten_of_le {k n : ℕ} (hk : n ≤ k) :
    (expWritten exp input inputPtr output outputPtr m n).1 (outputPtr + k) =
      output (outputPtr + k) :=
  written_of_le hk

variable {exp input inputPtr output outputPtr m} in
theorem expWritten_of_outside {x : ℤ} {n : ℕ} (hx : x < outputPtr ∨ outputPtr + n ≤ x) :
    (expWritten exp input inputPtr output outputPtr m n).1 x = output x :=
  written_of_outside hx

theorem rowExpNaive_eq : rowExpNaive exp input inputPtr output outputPtr size m =
    expWritten exp input inputPtr output outputPtr m size.toNat := by
  have hloop := forBlocks_eq Nat.one_pos
    (fun i (s : (ℤ → K) × K) =>
      let output := Function.update s.1 (outputPtr + i) (exp (input (inputPtr + i) - m))
      (output, s.2 + output (outputPtr + i)))
    (expWritten exp input inputPtr output outputPtr m) (Nat.zero_le size.toNat) fun j _ => by
      refine Prod.ext ?_ ?_
      · exact update_written output outputPtr (rowExp exp input inputPtr m) j
      · simp only [expWritten, Function.update_self, Finset.sum_range_succ, rowExp]
  rw [expWritten_zero] at hloop
  rw [rowExpNaive, hloop]
  simp

theorem vst1q_expWritten (n : ℕ) :
    let x := expPs exp (vsubq (vld1q input (inputPtr + n)) (vdupqN m))
    (vst1q (expWritten exp input inputPtr output outputPtr m n).1 (outputPtr + n) x,
      (expWritten exp input inputPtr output outputPtr m n).2 + vaddvq x) =
    expWritten exp input inputPtr output outputPtr m (n + 4) := by
  have hx : ∀ l : Fin 4, expPs exp (vsubq (vld1q input (inputPtr + n)) (vdupqN m)) l =
      rowExp exp input inputPtr m (n + l) := by
    intro l
    simp only [expPs, vsubq, vld1q, vdupqN, rowExp]
    push_cast
    rw [add_assoc]
  refine Prod.ext (vst1q_written output outputPtr _ n hx) ?_
  show _ + vaddvq _ = _
  rw [expWritten, expWritten, sum_range_add_four, vaddvq_eq_sum]
  exact congrArg _ (Finset.sum_congr rfl fun l _ => hx l)

/-- A block of 16 is four blocks of 4. -/
theorem expPs16_expWritten (n : ℕ) :
    expPs16 exp (expWritten exp input inputPtr output outputPtr m n).1 (outputPtr + n) input
      (inputPtr + n) m (expWritten exp input inputPtr output outputPtr m n).2 =
    expWritten exp input inputPtr output outputPtr m (n + 16) := by
  have hblock := vst1q_expWritten exp input inputPtr output outputPtr m
  obtain ⟨hx, hxsum⟩ := Prod.ext_iff.mp (hblock n)
  obtain ⟨hy, hysum⟩ := Prod.ext_iff.mp (hblock (n + 4))
  obtain ⟨hz, hzsum⟩ := Prod.ext_iff.mp (hblock (n + 8))
  obtain ⟨hw, hwsum⟩ := Prod.ext_iff.mp (hblock (n + 12))
  simp only [Nat.cast_add, Nat.cast_ofNat, ← add_assoc] at hx hxsum hy hysum hz hzsum hw hwsum
  refine Prod.ext ?_ ?_
  · simp only [expPs16]
    rw [hx, hy, hz, hw]
  · simp only [expPs16]
    rw [← hwsum, ← hzsum, ← hysum, ← hxsum]
    simp only [vaddvq, vaddq]
    ring

theorem rowExpAsm_eq : rowExpAsm exp input inputPtr output outputPtr size m =
    expWritten exp input inputPtr output outputPtr m (4 * (size.toNat / 4)) := by
  have hblocks := forBlocks_eq (show 0 < 16 by norm_num)
    (fun i (s : (ℤ → K) × K) => expPs16 exp s.1 (outputPtr + i) input (inputPtr + i) m s.2)
    (expWritten exp input inputPtr output outputPtr m) (Nat.zero_le size.toNat)
    fun j _ => expPs16_expWritten exp input inputPtr output outputPtr m j
  rw [expWritten_zero, Nat.zero_add, Nat.sub_zero] at hblocks
  have hloop := forBlocks_eq (show 0 < 4 by norm_num)
    (fun i (s : (ℤ → K) × K) =>
      let tmpOutput := expPs exp (vsubq (vld1q input (inputPtr + i)) (vdupqN m))
      (vst1q s.1 (outputPtr + i) tmpOutput, s.2 + vaddvq tmpOutput))
    (expWritten exp input inputPtr output outputPtr m)
    (show 16 * (size.toNat / 16) ≤ size.toNat by omega)
    fun j _ => vst1q_expWritten exp input inputPtr output outputPtr m j
  have hend : 16 * (size.toNat / 16) + 4 * ((size.toNat - 16 * (size.toNat / 16)) / 4) =
      4 * (size.toNat / 4) := by
    omega
  rw [hend] at hloop
  simp only [rowExpAsm]
  rw [hblocks, hloop]

/-! ### The division -/

theorem rowDivNaive_eq (sum : K) : rowDivNaive output outputPtr size sum =
    written output outputPtr (fun k => output (outputPtr + k) / sum) size.toNat := by
  have hloop := forBlocks_eq Nat.one_pos
    (fun i output => Function.update output (outputPtr + i) (output (outputPtr + i) / sum))
    (written output outputPtr fun k => output (outputPtr + k) / sum)
    (Nat.zero_le size.toNat) fun j _ => by
      rw [written_of_le le_rfl]
      exact update_written output outputPtr (fun k => output (outputPtr + k) / sum) j
  rw [written_zero] at hloop
  rw [rowDivNaive, hloop]
  simp

theorem rowDivAsm_eq (sum : K) : rowDivAsm output outputPtr size sum =
    written output outputPtr (fun k => output (outputPtr + k) / sum) size.toNat := by
  set g := written output outputPtr fun k => output (outputPtr + k) / sum with hg
  have hblocks := forBlocks_eq (show 0 < 4 by norm_num)
    (fun i output =>
      vst1q output (outputPtr + i) (vmulqN (vld1q output (outputPtr + i)) (1 / sum)))
    g (Nat.zero_le size.toNat) fun j _ => by
      refine vst1q_written output outputPtr _ j fun l => ?_
      have hread : g j (outputPtr + j + l) = output (outputPtr + (j + l : ℕ)) := by
        rw [add_assoc, ← Nat.cast_add]
        exact written_of_le (Nat.le_add_right j l)
      rw [vmulqN, vld1q, hread, mul_one_div]
  have hzero : g 0 = output := written_zero ..
  rw [hzero, Nat.zero_add, Nat.sub_zero] at hblocks
  have hloop := forBlocks_eq Nat.one_pos
    (fun i output => Function.update output (outputPtr + i) (output (outputPtr + i) / sum))
    g (show 4 * (size.toNat / 4) ≤ size.toNat by omega) fun j _ => by
      rw [hg, written_of_le le_rfl]
      exact update_written output outputPtr (fun k => output (outputPtr + k) / sum) j
  rw [Nat.div_one, Nat.one_mul, Nat.add_sub_cancel' (by omega)] at hloop
  simp only [rowDivAsm]
  rw [hblocks, hloop]

end RowExp

/-! ### Whole rows -/

section Rows

variable {K : Type*} [Field K] [LinearOrder K] (exp : K → K) (input : ℤ → K) (inputPtr : ℤ)
  (output : ℤ → K) (outputPtr : ℤ) (size : ℤ) {k : ℕ}

/-- The sum of the first `n` exponentials of a row. -/
def rowSum (n : ℕ) : K :=
  ∑ k ∈ Finset.range n, rowExp exp input inputPtr (rowMaxNaive input inputPtr size) k

theorem softmaxSingleLaneInplace_eq (hk : k < size.toNat) :
    softmaxSingleLaneInplace exp input inputPtr output outputPtr size (outputPtr + k) =
      rowExp exp input inputPtr (rowMaxNaive input inputPtr size) k /
        rowSum exp input inputPtr size size.toNat := by
  simp only [softmaxSingleLaneInplace]
  rw [rowDivNaive_eq, written_of_lt hk, rowExpNaive_eq, expWritten_of_lt hk]
  rfl

/-- The elements of the blocks are divided by their sum, and so is what was in the rest. -/
theorem softmaxSingleLaneAsm_eq (hk : k < size.toNat) :
    softmaxSingleLaneAsm exp input inputPtr output outputPtr size (outputPtr + k) =
      (if k < 4 * (size.toNat / 4) then
        rowExp exp input inputPtr (rowMaxNaive input inputPtr size) k
      else output (outputPtr + k)) / rowSum exp input inputPtr size (4 * (size.toNat / 4)) := by
  simp only [softmaxSingleLaneAsm]
  rw [rowDivAsm_eq, written_of_lt hk, rowExpAsm_eq, rowMaxAsm_eq]
  split
  · rename_i hlt
    rw [expWritten_of_lt hlt]
    rfl
  · rename_i hle
    rw [expWritten_of_le (Nat.le_of_not_lt hle)]
    rfl

variable {x : ℤ}

theorem softmaxSingleLaneInplace_of_outside
    (hx : x < outputPtr ∨ outputPtr + size.toNat ≤ x) :
    softmaxSingleLaneInplace exp input inputPtr output outputPtr size x = output x := by
  simp only [softmaxSingleLaneInplace]
  rw [rowDivNaive_eq, written_of_outside hx, rowExpNaive_eq, expWritten_of_outside hx]

theorem softmaxSingleLaneAsm_of_outside (hx : x < outputPtr ∨ outputPtr + size.toNat ≤ x) :
    softmaxSingleLaneAsm exp input inputPtr output outputPtr size x = output x := by
  simp only [softmaxSingleLaneAsm]
  rw [rowDivAsm_eq, written_of_outside hx, rowExpAsm_eq, expWritten_of_outside (by omega)]

end Rows

/-- A loop over the rows that fills each of them and leaves the others as they are. -/
theorem forRows_eq {K : Type*} {priorDims lastDim : ℤ} {row : ℕ → (ℤ → K) → ℤ → K}
    {f : ℕ → ℕ → K}
    (hrow : ∀ (p : ℕ) out (c : ℕ), (c : ℤ) < lastDim → row p out (p * lastDim + c) = f p c)
    (hframe : ∀ (p : ℕ) out x, x < p * lastDim ∨ p * lastDim + lastDim.toNat ≤ x →
      row p out x = out x)
    (out : ℤ → K) {r c : ℕ} (hr : (r : ℤ) < priorDims) (hc : (c : ℤ) < lastDim) :
    (forBlocks 1 priorDims row 0 out).2 (r * lastDim + c) = f r c := by
  have hrule := forBlocks_rule 1 priorDims row (i := 0) (s := out)
    (P := fun p out => ∀ r < p, out (r * lastDim + c) = f r c)
    (fun p out _ h r hlt => ?_) fun r hlt => absurd hlt (Nat.not_lt_zero r)
  · rw [forBlocks_one_fst row out (Nat.zero_le _)] at hrule
    exact hrule r (by omega)
  · rcases Nat.lt_succ_iff_lt_or_eq.mp hlt with hlt | rfl
    · -- a row further up ends before this one begins
      rw [hframe p out _ (.inl ?_)]
      · exact h r hlt
      · have hnext : (r + 1 : ℤ) * lastDim ≤ p * lastDim :=
          mul_le_mul_of_nonneg_right (by omega) (by omega)
        rw [add_mul, one_mul] at hnext
        omega
    · exact hrow r out c hc

/-! ### The two agree -/

/-- Every element of the output is the same, whatever the output held before. -/
def Agree (input : ℤ → ℝ) (dims : Fin 3 → ℤ) : Prop :=
  ∀ (output output' : ℤ → ℝ) (r c : ℕ), (r : ℤ) < dims 0 * dims 1 → (c : ℤ) < dims 2 →
    softmaxLastDimAsm Real.exp input output dims (r * dims 2 + c) =
      softmaxLastDimNaive Real.exp input output' dims (r * dims 2 + c)

/-- The element `c` of row `r`. -/
noncomputable def element (input : ℤ → ℝ) (dims : Fin 3 → ℤ) (r c : ℕ) : ℝ :=
  rowExp Real.exp input (r * dims 2) (rowMaxNaive input (r * dims 2) (dims 2)) c /
    rowSum Real.exp input (r * dims 2) (dims 2) (dims 2).toNat

/-- The maximum cancels. -/
theorem rowExp_div_sum (input : ℤ → ℝ) (inputPtr : ℤ) (m : ℝ) (k n : ℕ) :
    rowExp Real.exp input inputPtr m k /
        ∑ j ∈ Finset.range n, rowExp Real.exp input inputPtr m j =
      Real.exp (input (inputPtr + k)) /
        ∑ j ∈ Finset.range n, Real.exp (input (inputPtr + j)) := by
  have hshift : ∀ j : ℕ, rowExp Real.exp input inputPtr m j =
      Real.exp (input (inputPtr + j)) / Real.exp m := fun j => Real.exp_sub _ _
  simp only [hshift]
  rw [← Finset.sum_div, div_div_div_cancel_right₀ (Real.exp_ne_zero m)]

theorem element_pos (input : ℤ → ℝ) {dims : Fin 3 → ℤ} (r c : ℕ) (hlast : 0 < dims 2) :
    0 < element input dims r c := by
  have hsum : 0 < rowSum Real.exp input (r * dims 2) (dims 2) (dims 2).toNat :=
    Finset.sum_pos (fun _ _ => Real.exp_pos _) ⟨0, Finset.mem_range.mpr (by omega)⟩
  exact div_pos (Real.exp_pos _) hsum

theorem softmaxLastDimNaive_eq (input output : ℤ → ℝ) {dims : Fin 3 → ℤ} {r c : ℕ}
    (hr : (r : ℤ) < dims 0 * dims 1) (hc : (c : ℤ) < dims 2) :
    softmaxLastDimNaive Real.exp input output dims (r * dims 2 + c) = element input dims r c := by
  rw [softmaxLastDimNaive]
  refine forRows_eq (f := element input dims) (fun p out c hc => ?_) (fun p out x hx => ?_)
    output hr hc
  · exact softmaxSingleLaneInplace_eq Real.exp input _ out _ _ (by omega)
  · exact softmaxSingleLaneInplace_of_outside Real.exp input _ out _ _ hx

theorem softmaxLastDim_agree_of_dvd {input : ℤ → ℝ} {dims : Fin 3 → ℤ} (hdvd : 4 ∣ dims 2) :
    Agree input dims := by
  intro output output' r c hr hc
  rw [softmaxLastDimNaive_eq input output' hr hc]
  have hlast : 4 * ((dims 2).toNat / 4) = (dims 2).toNat := by omega
  rw [softmaxLastDimAsm]
  refine forRows_eq (f := element input dims) (fun p out c hc => ?_) (fun p out x hx => ?_)
    output hr hc
  · rw [softmaxSingleLaneAsm_eq Real.exp input _ out _ _ (by omega), hlast, if_pos (by omega),
      element]
  · exact softmaxSingleLaneAsm_of_outside Real.exp input _ out _ _ hx

/-- The rows after the first one leave it as it is. -/
theorem softmaxLastDimAsm_first (input output : ℤ → ℝ) {dims : Fin 3 → ℤ} {c : ℕ}
    (hprior : 0 < dims 0 * dims 1) (hc : (c : ℤ) < dims 2) :
    softmaxLastDimAsm Real.exp input output dims c =
      softmaxSingleLaneAsm Real.exp input 0 output 0 (dims 2) c := by
  have hrule := forBlocks_rule 1 (dims 0 * dims 1)
    (fun priorIdx output => softmaxSingleLaneAsm Real.exp input (priorIdx * dims 2) output
      (priorIdx * dims 2) (dims 2)) (i := 0) (s := output)
    (P := fun p out => (p = 0 → out = output) ∧
      (0 < p → out c = softmaxSingleLaneAsm Real.exp input 0 output 0 (dims 2) c))
    (fun p out _ h => ⟨fun hp => absurd hp (Nat.succ_ne_zero p), fun _ => ?_⟩)
    ⟨fun _ => rfl, fun hp => absurd hp (lt_irrefl 0)⟩
  · rw [forBlocks_one_fst _ output (Nat.zero_le _)] at hrule
    exact hrule.2 (by omega)
  · rcases Nat.eq_zero_or_pos p with rfl | hp
    · rw [h.1 rfl, Nat.cast_zero, zero_mul]
    · have hmul : dims 2 ≤ p * dims 2 := by
        nlinarith [show (1 : ℤ) ≤ p by omega]
      rw [softmaxSingleLaneAsm_of_outside _ _ _ _ _ _ (.inl (by omega)), h.2 hp]

theorem not_agree_of_rest {input : ℤ → ℝ} {dims : Fin 3 → ℤ} (hprior : 0 < dims 0 * dims 1)
    (hlast : 0 < dims 2) (hdvd : ¬4 ∣ dims 2) : ¬Agree input dims := by
  intro h
  have hrest := h (fun _ => 0) (fun _ => 0) 0 (4 * ((dims 2).toNat / 4)) (by omega) (by omega)
  have hrow := softmaxSingleLaneAsm_eq Real.exp input 0 (fun _ => 0) 0 (dims 2)
    (k := 4 * ((dims 2).toNat / 4)) (by omega)
  -- in a buffer of zeros the rest of the first row stays 0
  rw [if_neg (lt_irrefl _), zero_div, zero_add] at hrow
  rw [softmaxLastDimNaive_eq input _ (by omega) (by omega), Nat.cast_zero, zero_mul, zero_add,
    softmaxLastDimAsm_first input _ hprior (by omega), hrow] at hrest
  exact (element_pos input 0 _ hlast).ne hrest

/-- The vector code agrees with the plain one exactly when there are no rows or the vectors of
four cover them. -/
theorem softmaxLastDim_agree_iff (input : ℤ → ℝ) (dims : Fin 3 → ℤ) :
    Agree input dims ↔ dims 0 * dims 1 ≤ 0 ∨ dims 2 ≤ 0 ∨ 4 ∣ dims 2 := by
  constructor
  · intro h
    by_contra hnot
    push Not at hnot
    exact not_agree_of_rest hnot.1 hnot.2.1 hnot.2.2 h
  · rintro (hprior | hlast | hdvd)
    · intro output output' r c hr _
      omega
    · intro output output' r c _ hc
      omega
    · exact softmaxLastDim_agree_of_dvd hdvd

/-- A row of five zeros: the last element should be a fifth, and the vector code leaves the 0
that was there. -/
theorem row_of_five_differs : ¬Agree (fun _ => 0) ![1, 1, 5] :=
  not_agree_of_rest (by decide) (by decide) (by decide)

end Softmax

/-
The table of bilinear weights: four shorts for each of the 32 x 32 fractions of a pixel.

A weight of 1 does not fit into a short.  The four weights of the fraction 0 then miss their sum
by one, and the code that corrects such a sum looks behind the four for the place.

* `initInterTab2D` — the table, cell after cell;
* `initInterTab2D_eq` — its entries, `tabWeight`;
* `tabWeight_column`, `tabWeight_row` — the sums of two of them.
-/
import HandTracking.Library.FixedPoint
import Mathlib.Data.Rat.Floor
import Mathlib.Tactic.IntervalCases
import Mathlib.Tactic.LinearCombination

namespace Warp

/-- `SATURATE_CAST_SHORT` -/
def saturateCastShort (x : ℤ) : ℤ := saturate (-32768) 32767 x

/-- `INTER_REMAP_COEF_SCALE` -/
def interRemapCoefScale : ℤ := 32768

/-- `initInterTab1D`: the two weights of a fraction. -/
def interTab1D (i k : ℕ) : ℚ :=
  let scale : ℚ := 1 / 32
  if k = 0 then 1 - i * scale else i * scale

/-- The weight `k` of the cell `n`, in a row `n / 32` and a column `n % 32` of fractions. -/
def cellWeight (n k : ℕ) : ℤ :=
  saturateCastShort
    (towardsZero (interTab1D (n / 32) (k / 2) * interTab1D (n % 32) (k % 2) * interRemapCoefScale))

/-- One cell of the table is filled. -/
def writeCell (itab : ℕ → ℤ) (n : ℕ) : ℕ → ℤ := fun p =>
  if 4 * n ≤ p ∧ p < 4 * n + 4 then cellWeight n (p - 4 * n) else itab p

/-- The largest and the smallest entry from the fourth of a cell on, as the code looks for them. -/
def extremes (itab : ℕ → ℤ) (n : ℕ) : ℕ × ℕ :=
  [3, 4, 5, 6].foldl (fun (M, m) k =>
    if itab (4 * n + k) < itab (4 * n + m) then (M, k)
    else if itab (4 * n + M) < itab (4 * n + k) then (k, m)
    else (M, m)) (3, 3)

/-- Corrects the sum of a cell. -/
def fixCell (itab : ℕ → ℤ) (n : ℕ) : ℕ → ℤ :=
  let isum := itab (4 * n) + itab (4 * n + 1) + itab (4 * n + 2) + itab (4 * n + 3)
  if isum ≠ interRemapCoefScale then
    let diff := isum - interRemapCoefScale
    let (M, m) := extremes itab n
    let k := if diff < 0 then M else m
    Function.update itab (4 * n + k) (itab (4 * n + k) - diff)
  else itab

/-- The first `n` cells, in a memory of zeros. -/
def fillCells (n : ℕ) : ℕ → ℤ := (List.range n).foldl (fun itab n => fixCell (writeCell itab n) n) 0

/-- `BilinearTab_i` -/
def initInterTab2D : ℕ → ℤ := fillCells 1024

/-! ### Its entries -/

/-- The two weights of a fraction, in parts of 32. -/
def part (i k : ℕ) : ℤ := if k = 0 then 32 - i else i

/-- A weight of the cell `n`; in the first cell they are those of a corner, short of one. -/
def tabWeight (n k : ℕ) : ℤ :=
  if n = 0 then if k = 0 then 32767 else if k = 3 then 1 else 0
  else part (n / 32) (k / 2) * part (n % 32) (k % 2) * 32

theorem interTab1D_eq (i k : ℕ) : interTab1D i k = part i k * (1 / 32) := by
  rw [interTab1D, part]
  split_ifs
  · push_cast
    ring
  · rw [Int.cast_natCast]

/-- The weights are exact in parts of a thousand. -/
theorem cellWeight_eq (n k : ℕ) :
    cellWeight n k = saturateCastShort (part (n / 32) (k / 2) * part (n % 32) (k % 2) * 32) := by
  have hexact : interTab1D (n / 32) (k / 2) * interTab1D (n % 32) (k % 2) * interRemapCoefScale =
      ((part (n / 32) (k / 2) * part (n % 32) (k % 2) * 32 : ℤ) : ℚ) := by
    rw [interTab1D_eq, interTab1D_eq, interRemapCoefScale]
    push_cast
    ring
  rw [cellWeight, hexact, towardsZero_intCast]

theorem cellWeight_zero (k : ℕ) (hk : k < 4) : cellWeight 0 k = if k = 0 then 32767 else 0 := by
  rw [cellWeight_eq]
  interval_cases k <;> rfl

theorem part_nonneg {i k : ℕ} (hi : i < 32) : 0 ≤ part i k ∧ part i k ≤ 32 := by
  rw [part]
  split_ifs <;> omega

theorem part_add (i : ℕ) : part i 0 + part i 1 = 32 := by
  rw [part, part, if_pos rfl, if_neg one_ne_zero]
  omega

theorem part_le_of_ne_zero {i k : ℕ} (hi : i < 32) (h : i ≠ 0) : part i k ≤ 31 := by
  rw [part]
  split_ifs <;> omega

/-- Only the first cell has a weight of 1. -/
theorem part_mul_part_le {n : ℕ} (hn : n ≠ 0) (h : n < 1024) (k : ℕ) :
    part (n / 32) (k / 2) * part (n % 32) (k % 2) ≤ 992 := by
  have hrow := part_nonneg (i := n / 32) (k := k / 2) (by omega)
  have hcol := part_nonneg (i := n % 32) (k := k % 2) (by omega)
  rcases eq_or_ne (n / 32) 0 with hzero | hne
  · have hcol' := part_le_of_ne_zero (i := n % 32) (k := k % 2) (by omega) (by omega)
    exact (mul_le_mul hrow.2 hcol' hcol.1 (by decide)).trans (by decide)
  · have hrow' := part_le_of_ne_zero (k := k / 2) (show n / 32 < 32 by omega) hne
    exact mul_le_mul hrow' hcol.2 hcol.1 (by decide)

theorem tabWeight_nonneg {n : ℕ} (h : n < 1024) (k : ℕ) : 0 ≤ tabWeight n k := by
  rw [tabWeight]
  have hproduct := mul_nonneg (part_nonneg (i := n / 32) (k := k / 2) (by omega)).1
    (part_nonneg (i := n % 32) (k := k % 2) (by omega)).1
  split_ifs <;> omega

theorem tabWeight_le {n : ℕ} (h : n < 1024) (k : ℕ) : tabWeight n k ≤ 32767 := by
  rw [tabWeight]
  split_ifs with hn
  · decide
  · decide
  · decide
  · have hproduct := part_mul_part_le hn h k
    omega

/-- All cells but the first are written as they stay. -/
theorem cellWeight_eq_tabWeight {n : ℕ} (hn : n ≠ 0) (h : n < 1024) (k : ℕ) :
    cellWeight n k = tabWeight n k := by
  have hnonneg := tabWeight_nonneg h k
  have hle := tabWeight_le h k
  rw [tabWeight, if_neg hn] at hnonneg hle ⊢
  rw [cellWeight_eq]
  exact saturate_of_mem (by omega) hle

section Sums

variable {n : ℕ} (hn : n ≠ 0)

include hn

/-- The weights of the left pixels. -/
theorem tabWeight_column : tabWeight n 0 + tabWeight n 2 = 1024 * part (n % 32) 0 := by
  have h0 : tabWeight n 0 = part (n / 32) 0 * part (n % 32) 0 * 32 := if_neg hn
  have h2 : tabWeight n 2 = part (n / 32) 1 * part (n % 32) 0 * 32 := if_neg hn
  rw [h0, h2]
  linear_combination 32 * part (n % 32) 0 * part_add (n / 32)

/-- The weights of the upper pixels. -/
theorem tabWeight_row : tabWeight n 0 + tabWeight n 1 = 1024 * part (n / 32) 0 := by
  have h0 : tabWeight n 0 = part (n / 32) 0 * part (n % 32) 0 * 32 := if_neg hn
  have h1 : tabWeight n 1 = part (n / 32) 0 * part (n % 32) 1 * 32 := if_neg hn
  rw [h0, h1]
  linear_combination 32 * part (n / 32) 0 * part_add (n % 32)

theorem tabWeight_sum :
    tabWeight n 0 + tabWeight n 1 + tabWeight n 2 + tabWeight n 3 = interRemapCoefScale := by
  have hupper := tabWeight_row hn
  have h2 : tabWeight n 2 = part (n / 32) 1 * part (n % 32) 0 * 32 := if_neg hn
  have h3 : tabWeight n 3 = part (n / 32) 1 * part (n % 32) 1 * 32 := if_neg hn
  rw [hupper, h2, h3, interRemapCoefScale]
  linear_combination 32 * part (n / 32) 1 * part_add (n % 32) + 1024 * part_add (n / 32)

end Sums

/-! ### The loop -/

theorem fillCells_succ (n : ℕ) : fillCells (n + 1) = fixCell (writeCell (fillCells n) n) n := by
  rw [fillCells, List.range_succ, List.foldl_append]
  rfl

theorem writeCell_add (itab : ℕ → ℤ) (n : ℕ) {k : ℕ} (hk : k < 4) :
    writeCell itab n (4 * n + k) = cellWeight n k := by
  rw [writeCell, if_pos ⟨by omega, by omega⟩, Nat.add_sub_cancel_left]

/-- The first cell misses its sum: the 1 goes to its last weight. -/
theorem fillCells_one (p : ℕ) :
    fillCells 1 p = if p = 0 then 32767 else if p = 3 then 1 else 0 := by
  have hwritten : writeCell 0 0 = fun p => if p = 0 then 32767 else 0 := by
    funext p
    rw [writeCell]
    split_ifs with hp hzero hzero
    · rw [hzero]
      exact cellWeight_zero 0 (by decide)
    · rw [cellWeight_zero (p - 4 * 0) (by omega), if_neg (by omega)]
    · omega
    · rfl
  have hfixed : fixCell (fun p => if p = 0 then 32767 else 0) 0 =
      Function.update (fun p => if p = 0 then 32767 else 0) 3 1 := by
    simp [fixCell, extremes, interRemapCoefScale]
  rw [show fillCells 1 = fixCell (writeCell 0 0) 0 from rfl, hwritten, hfixed,
    Function.update_apply]
  split_ifs <;> omega

/-- The other cells have their sum and are left as they are written. -/
theorem fixCell_writeCell {n : ℕ} (hn : n ≠ 0) (h : n < 1024) (itab : ℕ → ℤ) :
    fixCell (writeCell itab n) n = writeCell itab n := by
  have hsum := tabWeight_sum hn
  have hcell : ∀ k, k < 4 → writeCell itab n (4 * n + k) = tabWeight n k := fun k hk =>
    (writeCell_add itab n hk).trans (cellWeight_eq_tabWeight hn h k)
  rw [fixCell, hcell 1 (by decide), hcell 2 (by decide), hcell 3 (by decide),
    show writeCell itab n (4 * n) = tabWeight n 0 from hcell 0 (by decide), hsum]
  exact if_neg fun hne => hne rfl

/-- The cells before `n`, and zeros behind them. -/
theorem fillCells_eq {n : ℕ} (hn : n + 1 ≤ 1024) (p : ℕ) :
    fillCells (n + 1) p = if p < 4 * (n + 1) then tabWeight (p / 4) (p % 4) else 0 := by
  induction n with
  | zero =>
    rw [fillCells_one]
    split_ifs with hp hlt hthree
    · rw [hp]
      rfl
    · omega
    · rw [hthree]
      rfl
    · omega
    · rw [show p / 4 = 0 by omega, tabWeight, if_pos rfl, if_neg (by omega), if_neg (by omega)]
    · rfl
  | succ n ih =>
    rw [fillCells_succ, fixCell_writeCell (by omega) (by omega), writeCell, ih (by omega)]
    split_ifs with hcell hlt hbefore
    · rw [cellWeight_eq_tabWeight (by omega) (by omega)]
      rw [show p / 4 = n + 1 by omega, show p % 4 = p - 4 * (n + 1) by omega]
    · omega
    · rfl
    · omega
    · omega
    · rfl

/-- **The entries of the table.** -/
theorem initInterTab2D_eq {n : ℕ} (hn : n < 1024) {k : ℕ} (hk : k < 4) :
    initInterTab2D (4 * n + k) = tabWeight n k := by
  rw [initInterTab2D, fillCells_eq (n := 1023) le_rfl, if_pos (by omega)]
  rw [show (4 * n + k) / 4 = n by omega, show (4 * n + k) % 4 = k by omega]

end Warp

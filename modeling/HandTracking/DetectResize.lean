/-
How `PreProcess` and `PreProcessSingle` bring an image to the size of the network.

On Android an image that is to be shrunk to no more than two fifths goes through `NrResize`, a
vector kernel that makes two rows out of five; all others go through `cv::resize`.  The kernel
weights the pixels by how much of them lies in the block of 2.5 x 2.5 pixels that becomes one
element.  Its loop leaves out the last two rows.

* `areaHalf`, `nrResize`, `fillTensor` — the code;
* `areaHalf_eq` — the kernel computes areas;
* `nrResize_eq` — the memory after `NrResize`;
* `nrResize_matches` — all rows but the last two are right, for an image of 2.5 times the size;
* `nrResize_path_iff` — when the claim for the whole tensor holds.
-/
import HandTracking.DetectInference
import HandTracking.Library.Lanes
import Mathlib.Tactic.NormNum

namespace Detect

open Lanes

/-! ### The kernel -/

section Kernel

/-- The first half of `table`: pixels that lie in the block of one element. -/
def wholeIdx : Fin 16 → ℕ := ![0, 1, 16, 17, 3, 4, 19, 20, 5, 6, 21, 22, 8, 9, 24, 25]

/-- The second half: pixels that two elements share. -/
def sharedIdx : Fin 16 → ℕ := ![2, 18, 32, 33, 2, 18, 35, 36, 7, 23, 37, 38, 7, 23, 40, 41]

/-- The pixels that four elements share. -/
def cornerBytes (v7 : Bytes) : Bytes := fun l =>
  if l = 0 ∨ l = 4 then v7 2 else if l = 8 ∨ l = 12 then v7 7 else 0

/-- The weighted sums with `udot`. -/
def weighDot (whole shared corner : Bytes) : Fin 4 → ℕ :=
  udot (udot 0 whole fun _ => 16) shared (fun _ => 8) + udot 0 corner fun _ => 4

/-- The weighted sums with `uaddlp` and `mla`. -/
def weighAdd (whole shared corner : Bytes) : Fin 4 → ℕ :=
  mla (mla 0 (uaddlp (uaddlpBytes whole)) 16) (uaddlp (uaddlpBytes shared)) 8 +
    mla 0 (uaddlp (uaddlpBytes corner)) 4

/-- The sums for four elements of two rows, from ten bytes of five rows. -/
def areaHalf (isdotsupport : Bool) (src : ℕ → BitVec 8) (x0 scolstep : ℕ) :
    (Fin 4 → ℕ) × (Fin 4 → ℕ) :=
  let x3 := x0 + scolstep
  let x4 := x3 + scolstep
  let x5 := x4 + scolstep
  let x10 := x5 + scolstep
  let v5 := ld1 src x0
  let v6 := ld1 src x3
  let v7 := ld1 src x4
  let v8 := ld1 src x5
  let v9 := ld1 src x10
  let weigh := if isdotsupport then weighDot else weighAdd
  (weigh (tbl [v5, v6] wholeIdx) (tbl [v5, v6, v7] sharedIdx) (cornerBytes v7),
    weigh (tbl [v8, v9] wholeIdx) (tbl [v8, v9, v7] sharedIdx) (cornerBytes v7))

/-- `subs`, `bne`: the body is entered first, and a count of 0 wraps around. -/
def kernelPasses (colscount : ℕ) : ℕ := if colscount = 0 then 2 ^ 32 else colscount

variable {K : Type} [Field K] [LinearOrder K] [FloorRing K]

/-- From the sums to the elements; `fcvtau` rounds halves away from zero. -/
def normalize (alpha beta : K) (v : Fin 4 → ℕ) : Float32x4 K := fun l =>
  beta + round ((v l : K) / 100) * alpha

/-- One pass of the loop of `resize_area_v82_norm_8`: eight elements of two rows. -/
def norm8Pass (isdotsupport : Bool) (src : ℕ → BitVec 8) (input : ℕ) (output : ℤ)
    (scolstep dcols : ℕ) (alpha beta : K) (mem : ℤ → K) (t : ℕ) : ℤ → K :=
  let a := areaHalf isdotsupport src (input + 20 * t) scolstep
  let b := areaHalf isdotsupport src (input + 20 * t + 10) scolstep
  let x1 := output + 8 * t
  let x11 := output + dcols + 8 * t
  let mem := vst1q mem x1 (normalize alpha beta a.1)
  let mem := vst1q mem (x1 + 4) (normalize alpha beta b.1)
  let mem := vst1q mem x11 (normalize alpha beta a.2)
  vst1q mem (x11 + 4) (normalize alpha beta b.2)

/-- `resize_area_v82_norm_8`, and `resize_area_v81_norm_8` without `udot`. -/
def resizeAreaNorm8 (isdotsupport : Bool) (src : ℕ → BitVec 8) (input : ℕ) (output : ℤ)
    (colscount scolstep dcols : ℕ) (alpha beta : K) (mem : ℤ → K) : ℤ → K :=
  (List.range (kernelPasses colscount)).foldl
    (norm8Pass isdotsupport src input output scolstep dcols alpha beta) mem

/-- `resize_area_v82` and `resize_area_v81`. -/
def resizeArea (isdotsupport : Bool) (src : ℕ → BitVec 8) (input : ℕ) (output : ℤ)
    (colscount scolstep dcols : ℕ) (mem : ℤ → K) : ℤ → K :=
  (List.range (kernelPasses colscount)).foldl
    (fun mem t =>
      let a := areaHalf isdotsupport src (input + 10 * t) scolstep
      let mem := vst1q mem (output + 4 * t) (normalize 1 0 a.1)
      vst1q mem (output + dcols + 4 * t) (normalize 1 0 a.2))
    mem

/-- `NrResize`: a change of the size by 2.5, with the mean and the norm applied. -/
def nrResize (isdotsupport : Bool) (src : ℕ → BitVec 8) (dst : ℤ) (drows dcols : ℕ)
    (alpha' mean norm : K) (mem : ℤ → K) : ℤ → K :=
  let scolstep := 5 * dcols / 2
  if 1 / 100 < alpha' - 1 ∨ 1 / 100 < mean - 0 ∨ 1 / 100 < norm - 1 then
    let alpha := 1 / alpha' / norm
    let beta := -mean / norm
    let colscount := dcols / 8
    (List.range (drows / 2 - 1)).foldl
      (fun mem i =>
        resizeAreaNorm8 isdotsupport src (i * scolstep * 5) (dst + i * dcols * 2) colscount
          scolstep dcols alpha beta mem)
      mem
  else
    let colscount := dcols / 4
    (List.range (drows / 2 - 1)).foldl
      (fun mem i =>
        resizeArea isdotsupport src (i * scolstep * 5) (dst + i * dcols * 2) colscount scolstep
          dcols mem)
      mem

end Kernel

/-! ### `PreProcess` -/

section Fill

variable {K : Type} [Field K] [LinearOrder K]

/-- The interpolation that `cv::resize` is asked for. -/
inductive Interpolation where
  | area
  | linear
  deriving DecidableEq, Repr

/-- The condition for `NrResize`; `android` is how the library was built.  The ratios of an empty
image are infinite. -/
def takesNrResize (K : Type) [Field K] [LinearOrder K] (android : Bool) (height width : ℕ)
    (img : Image) : Prop :=
  android = true ∧ (0 < img.cols ∧ (width : K) / img.cols - 4 / 10 < 1 / 10 ^ 5) ∧
    0 < img.rows ∧ (height : K) / img.rows - 4 / 10 < 1 / 10 ^ 5

instance (android : Bool) (height width : ℕ) (img : Image) :
    Decidable (takesNrResize K android height width img) := by
  unfold takesNrResize
  infer_instance

variable [FloorRing K]

/-- What one image leaves in its part of the input tensor.  `cvResize` is `cv::resize`. -/
def fillTensor (android isdotsupport : Bool)
    (cvResize : Image → ℕ → ℕ → Interpolation → ℕ → BitVec 8) (height width : ℕ) (img : Image)
    (mem : ℤ → K) : ℤ → K :=
  let mean : K := 0
  let norm : K := 255
  if takesNrResize K android height width img then
    nrResize isdotsupport img.data 0 height width 1 mean norm mem
  else
    let ratio := min ((width : K) / img.cols) ((height : K) / img.rows)
    let tmp := if ratio < 1 then Interpolation.area else .linear
    written mem 0 (fun k => (((cvResize img height width tmp k).toNat : K) - mean) / norm)
      (height * width)

end Fill

/-! ### Areas

In halves of a pixel: pixel `y` covers the halves `2 * y` and `2 * y + 1`, and element `r` the
five from `5 * r` on. -/

section Area

/-- How many halves of pixel `y` lie in element `r`. -/
def overlap (r y : ℕ) : ℕ := min (2 * y + 2) (5 * r + 5) - max (2 * y) (5 * r)

/-- The sum over a block, in quarters of a pixel. -/
def areaSum (px : ℕ → ℕ → ℕ) (r c : ℕ) : ℕ :=
  ∑ a ∈ Finset.range 5, ∑ b ∈ Finset.range 5,
    overlap r (5 * (r / 2) + a) * overlap c (5 * (c / 2) + b) *
      px (5 * (r / 2) + a) (5 * (c / 2) + b)

theorem overlap_add (i r y : ℕ) : overlap (2 * i + r) (5 * i + y) = overlap r y := by
  unfold overlap
  omega

/-- A block of the rows from `2 * i` and the columns from `4 * j`. -/
theorem areaSum_add (px : ℕ → ℕ → ℕ) (i j r c : ℕ) :
    areaSum px (2 * i + r) (4 * j + c) =
      areaSum (fun a b => px (5 * i + a) (10 * j + b)) r c := by
  unfold areaSum
  have hi : 5 * ((2 * i + r) / 2) = 5 * i + 5 * (r / 2) := by omega
  have hj : 5 * ((4 * j + c) / 2) = 5 * (2 * j) + 5 * (c / 2) := by omega
  refine Finset.sum_congr rfl fun a _ => Finset.sum_congr rfl fun b _ => ?_
  rw [hi, hj, Nat.add_assoc, Nat.add_assoc, overlap_add, show 4 * j + c = 2 * (2 * j) + c by ring,
    overlap_add, show 5 * (2 * j) + (5 * (c / 2) + b) = 10 * j + (5 * (c / 2) + b) by ring]

theorem weighDot_eq (whole shared corner : Bytes) :
    weighDot whole shared corner = weighAdd whole shared corner := by
  unfold weighDot weighAdd
  rw [udot_const, udot_const, udot_const]
  rfl

/-- Two whole rows and one shared row. -/
theorem weighAdd_eq (v5 v6 v7 : Bytes) :
    weighAdd (tbl [v5, v6] wholeIdx) (tbl [v5, v6, v7] sharedIdx) (cornerBytes v7) =
      ![16 * ((v5 0).toNat + (v5 1).toNat + (v6 0).toNat + (v6 1).toNat) +
          8 * ((v5 2).toNat + (v6 2).toNat + (v7 0).toNat + (v7 1).toNat) + 4 * (v7 2).toNat,
        16 * ((v5 3).toNat + (v5 4).toNat + (v6 3).toNat + (v6 4).toNat) +
          8 * ((v5 2).toNat + (v6 2).toNat + (v7 3).toNat + (v7 4).toNat) + 4 * (v7 2).toNat,
        16 * ((v5 5).toNat + (v5 6).toNat + (v6 5).toNat + (v6 6).toNat) +
          8 * ((v5 7).toNat + (v6 7).toNat + (v7 5).toNat + (v7 6).toNat) + 4 * (v7 7).toNat,
        16 * ((v5 8).toNat + (v5 9).toNat + (v6 8).toNat + (v6 9).toNat) +
          8 * ((v5 7).toNat + (v6 7).toNat + (v7 8).toNat + (v7 9).toNat) + 4 * (v7 7).toNat] := by
  funext l
  fin_cases l
  · simp [weighAdd, mla, uaddlp, uaddlpBytes, tbl, wholeIdx, sharedIdx, cornerBytes, Fin.ofNat]
    ring
  · simp [weighAdd, mla, uaddlp, uaddlpBytes, tbl, wholeIdx, sharedIdx, cornerBytes, Fin.ofNat]
    ring
  · simp [weighAdd, mla, uaddlp, uaddlpBytes, tbl, wholeIdx, sharedIdx, cornerBytes, Fin.ofNat]
    ring
  · simp [weighAdd, mla, uaddlp, uaddlpBytes, tbl, wholeIdx, sharedIdx, cornerBytes, Fin.ofNat]
    ring

/-- The kernel computes four times the areas in quarters, which is 100 for a whole block. -/
theorem areaHalf_eq (isdotsupport : Bool) (src : ℕ → BitVec 8) (x0 scolstep : ℕ) (l : Fin 4) :
    (areaHalf isdotsupport src x0 scolstep).1 l =
        4 * areaSum (fun a b => (src (x0 + a * scolstep + b)).toNat) 0 l ∧
      (areaHalf isdotsupport src x0 scolstep).2 l =
        4 * areaSum (fun a b => (src (x0 + a * scolstep + b)).toNat) 1 l := by
  have hweigh : (if isdotsupport then weighDot else weighAdd) = weighAdd := by
    split
    · funext whole shared corner
      exact weighDot_eq whole shared corner
    · rfl
  have h2 : x0 + scolstep + scolstep = x0 + 2 * scolstep := by ring
  have h3 : x0 + 2 * scolstep + scolstep = x0 + 3 * scolstep := by ring
  have h4 : x0 + 3 * scolstep + scolstep = x0 + 4 * scolstep := by ring
  unfold areaHalf
  simp only [hweigh, weighAdd_eq, h2, h3, h4, ld1, areaSum, Finset.sum_range_succ,
    Finset.sum_range_zero]
  constructor
  · fin_cases l
    · simp [overlap]
      ring
    · simp [overlap]
      ring
    · simp [overlap]
      ring
    · simp [overlap]
      ring
  · fin_cases l
    · simp [overlap]
      ring
    · simp [overlap]
      ring
    · simp [overlap]
      ring
    · simp [overlap]
      ring

end Area

/-! ### The memory after `NrResize` -/

section Memory

variable {K : Type} {dcols : ℕ}

/-- The rows `2 * i` and `2 * i + 1` up to column `n`. -/
def rowsWritten (e : ℕ → K) (dcols : ℕ) (dst : ℤ) (i : ℕ) (mem : ℤ → K) (n : ℕ) : ℤ → K :=
  written (written mem (dst + i * dcols * 2) (fun k => e (2 * i * dcols + k)) n)
    (dst + i * dcols * 2 + dcols) (fun k => e ((2 * i + 1) * dcols + k)) n

/-- Two rows behind `2 * i` rows. -/
theorem rowsWritten_written (e : ℕ → K) (dst : ℤ) (i : ℕ) (mem : ℤ → K) :
    rowsWritten e dcols dst i (written mem dst e (2 * i * dcols)) dcols =
      written mem dst e (2 * (i + 1) * dcols) := by
  have hfirst : dst + (i : ℤ) * dcols * 2 = dst + ((2 * i * dcols : ℕ) : ℤ) := by
    push_cast
    ring
  have hsecond : dst + ((2 * i * dcols : ℕ) : ℤ) + dcols =
      dst + ((2 * i * dcols + dcols : ℕ) : ℤ) := by
    push_cast
    ring
  have hrow : ∀ k, e ((2 * i + 1) * dcols + k) = e (2 * i * dcols + dcols + k) := by
    intro k
    congr 1
    ring
  unfold rowsWritten
  simp only [hfirst, hsecond, hrow]
  rw [written_append, written_append]
  congr 1
  ring

variable [Field K] [LinearOrder K] [FloorRing K] {src : ℕ → BitVec 8} {scolstep : ℕ}
  {alpha beta : K}

/-- Element `n` of the result, row by row. -/
def kernelElement (src : ℕ → BitVec 8) (scolstep dcols : ℕ) (alpha beta : K) (n : ℕ) : K :=
  beta + round (((4 * areaSum (fun y x => (src (y * scolstep + x)).toNat) (n / dcols)
    (n % dcols) : ℕ) : K) / 100) * alpha

/-- The four elements from column `4 * j` of the rows `2 * i` and `2 * i + 1`. -/
theorem normalize_areaHalf (isdotsupport : Bool) (src : ℕ → BitVec 8) (scolstep : ℕ)
    (alpha beta : K) (i j : ℕ) (l : Fin 4) (hl : 4 * j + l < dcols) :
    normalize alpha beta (areaHalf isdotsupport src (i * scolstep * 5 + 10 * j) scolstep).1 l =
        kernelElement src scolstep dcols alpha beta (2 * i * dcols + (4 * j + l)) ∧
      normalize alpha beta (areaHalf isdotsupport src (i * scolstep * 5 + 10 * j) scolstep).2 l =
        kernelElement src scolstep dcols alpha beta ((2 * i + 1) * dcols + (4 * j + l)) := by
  have hpx : ∀ a b, (5 * i + a) * scolstep + (10 * j + b) =
      i * scolstep * 5 + 10 * j + a * scolstep + b := by
    intro a b
    ring
  have hsum := fun r => areaSum_add (fun y x => (src (y * scolstep + x)).toNat) i j r l
  simp only [hpx] at hsum
  obtain ⟨hfst, hsnd⟩ := areaHalf_eq isdotsupport src (i * scolstep * 5 + 10 * j) scolstep l
  unfold normalize kernelElement
  constructor
  · rw [hfst, ← hsum, Nat.mul_add_div_of_lt hl, Nat.mul_add_mod_of_lt hl, Nat.add_zero]
  · rw [hsnd, ← hsum, Nat.mul_add_div_of_lt hl, Nat.mul_add_mod_of_lt hl]

theorem norm8Pass_eq (isdotsupport : Bool) (mem : ℤ → K) (dst : ℤ) (i : ℕ) {t : ℕ}
    (ht : 8 * t + 8 ≤ dcols) :
    norm8Pass isdotsupport src (i * scolstep * 5) (dst + i * dcols * 2) scolstep dcols alpha beta
        (rowsWritten (kernelElement src scolstep dcols alpha beta) dcols dst i mem (8 * t)) t =
      rowsWritten (kernelElement src scolstep dcols alpha beta) dcols dst i mem
        (8 * (t + 1)) := by
  have hptr : ∀ base : ℤ, base + 8 * (t : ℤ) = base + ((8 * t : ℕ) : ℤ) := by
    intro base
    push_cast
    rfl
  have hptr' : ∀ base : ℤ, base + ((8 * t : ℕ) : ℤ) + 4 = base + ((8 * t + 4 : ℕ) : ℤ) := by
    intro base
    push_cast
    ring
  have ha := fun l : Fin 4 =>
    normalize_areaHalf isdotsupport src scolstep alpha beta i (2 * t) l
      (show 4 * (2 * t) + l < dcols by omega)
  have hb := fun l : Fin 4 =>
    normalize_areaHalf isdotsupport src scolstep alpha beta i (2 * t + 1) l
      (show 4 * (2 * t + 1) + l < dcols by omega)
  have hcol : i * scolstep * 5 + 10 * (2 * t) = i * scolstep * 5 + 20 * t := by ring
  have hcol' : i * scolstep * 5 + 10 * (2 * t + 1) = i * scolstep * 5 + 20 * t + 10 := by ring
  have hel : ∀ l : Fin 4, 4 * (2 * t) + (l : ℕ) = 8 * t + l := by
    intro l
    ring
  have hel' : ∀ l : Fin 4, 4 * (2 * t + 1) + (l : ℕ) = 8 * t + 4 + l := by
    intro l
    ring
  simp only [hcol, hel] at ha
  simp only [hcol', hel'] at hb
  unfold norm8Pass rowsWritten
  simp only [hptr, hptr']
  -- the first row is stored below the second, which is there up to column `8 * t`
  rw [vst1q_written_of_disjoint (by omega), vst1q_written mem _ _ _ fun l => (ha l).1,
    vst1q_written_of_disjoint (by omega), vst1q_written mem _ _ _ fun l => (hb l).1,
    vst1q_written _ _ _ _ fun l => (ha l).2, vst1q_written _ _ _ _ fun l => (hb l).2]
  rfl

/-- Two whole rows. -/
theorem resizeAreaNorm8_eq (isdotsupport : Bool) {m : ℕ} (hm : 0 < m) (hd : dcols = 8 * m)
    (mem : ℤ → K) (dst : ℤ) (i : ℕ) :
    resizeAreaNorm8 isdotsupport src (i * scolstep * 5) (dst + i * dcols * 2) m scolstep dcols
        alpha beta mem =
      rowsWritten (kernelElement src scolstep dcols alpha beta) dcols dst i mem dcols := by
  unfold resizeAreaNorm8 kernelPasses
  rw [if_neg hm.ne']
  suffices h : ∀ t ≤ m, (List.range t).foldl
      (norm8Pass isdotsupport src (i * scolstep * 5) (dst + i * dcols * 2) scolstep dcols alpha
        beta) mem =
      rowsWritten (kernelElement src scolstep dcols alpha beta) dcols dst i mem (8 * t) by
    rw [h m le_rfl, ← hd]
  intro t
  induction t with
  | zero =>
    intro _
    unfold rowsWritten
    rw [Nat.mul_zero, written_zero, written_zero]
    rfl
  | succ t ih =>
    intro ht
    rw [List.range_succ, List.foldl_append, ih (Nat.le_of_succ_le ht), List.foldl_cons,
      List.foldl_nil, norm8Pass_eq _ _ _ _ (by omega)]

/-- All rows but the last two are written. -/
theorem nrResize_eq (isdotsupport : Bool) {k m : ℕ} (hm : 0 < m) (norm : K)
    (hnorm : 1 / 100 < norm - 1) (mem : ℤ → K) (dst : ℤ) :
    nrResize isdotsupport src dst (2 * k) (8 * m) 1 0 norm mem =
      written mem dst
        (kernelElement src (20 * m) (8 * m) (1 / 1 / norm) (-0 / norm))
        (2 * (k - 1) * (8 * m)) := by
  have hstep : 5 * (8 * m) / 2 = 20 * m := by omega
  have hcount : 8 * m / 8 = m := by omega
  have hrows : 2 * k / 2 - 1 = k - 1 := by omega
  unfold nrResize
  rw [if_pos (.inr (.inr hnorm))]
  simp only [hstep, hcount, hrows]
  induction k - 1 with
  | zero => rw [Nat.mul_zero, Nat.zero_mul, written_zero, List.range_zero, List.foldl_nil]
  | succ n ih =>
    rw [List.range_succ, List.foldl_append, ih, List.foldl_cons, List.foldl_nil,
      resizeAreaNorm8_eq isdotsupport hm rfl, rowsWritten_written]

end Memory

/-! ### The area average -/

section Average

variable {K : Type} [Field K]

/-- The average of the image over the block of 2.5 x 2.5 pixels of an element. -/
def areaAverage (K : Type) [Field K] (img : Image) (r c : ℕ) : K :=
  ((∑ y ∈ Finset.range img.rows, ∑ x ∈ Finset.range img.cols,
    overlap r y * overlap c x * (img.data (y * img.cols + x)).toNat : ℕ) : K) / 25

theorem overlap_of_lt {r y : ℕ} (h : y < 5 * (r / 2)) : overlap r y = 0 := by
  unfold overlap
  omega

theorem overlap_of_le {r y : ℕ} (h : 5 * (r / 2) + 5 ≤ y) : overlap r y = 0 := by
  unfold overlap
  omega

/-- Only five pixels have a part in an element. -/
theorem sum_overlap {r n : ℕ} (hn : 5 * (r / 2) + 5 ≤ n) (f : ℕ → ℕ) :
    ∑ y ∈ Finset.range n, overlap r y * f y =
      ∑ a ∈ Finset.range 5, overlap r (5 * (r / 2) + a) * f (5 * (r / 2) + a) := by
  have hsub : Finset.Ico (5 * (r / 2)) (5 * (r / 2) + 5) ⊆ Finset.range n := by
    intro y hy
    rw [Finset.mem_Ico] at hy
    exact Finset.mem_range.mpr (by omega)
  rw [← Finset.sum_subset hsub fun y _ hy => ?_, Finset.sum_Ico_eq_sum_range,
    Nat.add_sub_cancel_left]
  rw [Finset.mem_Ico, not_and_or, not_le, not_lt] at hy
  rcases hy with hy | hy
  · rw [overlap_of_lt hy, Nat.zero_mul]
  · rw [overlap_of_le hy, Nat.zero_mul]

theorem areaAverage_eq {img : Image} {r c : ℕ} (hr : 5 * (r / 2) + 5 ≤ img.rows)
    (hc : 5 * (c / 2) + 5 ≤ img.cols) :
    areaAverage K img r c =
      ((areaSum (fun y x => (img.data (y * img.cols + x)).toNat) r c : ℕ) : K) / 25 := by
  unfold areaAverage areaSum
  simp only [Nat.mul_assoc, ← Finset.mul_sum]
  rw [sum_overlap hr]
  simp only [sum_overlap hc]

variable [LinearOrder K] [FloorRing K]

/-- The tensor holds the rounded averages, divided by 255. -/
def MatchesAreaResize (height width : ℕ) (img : Image) (mem : ℤ → K) : Prop :=
  ∀ y < height, ∀ x < width,
    mem ((y * width + x : ℕ) : ℤ) = round (areaAverage K img y x) / 255

theorem kernelElement_eq (src : ℕ → BitVec 8) (scolstep dcols n : ℕ) :
    kernelElement src scolstep dcols (1 / 1 / 255 : K) (-0 / 255) n =
      round (((areaSum (fun y x => (src (y * scolstep + x)).toNat) (n / dcols) (n % dcols) : ℕ) :
        K) / 25) / 255 := by
  unfold kernelElement
  have hsum : ((4 * areaSum (fun y x => (src (y * scolstep + x)).toNat) (n / dcols)
      (n % dcols) : ℕ) : K) / 100 =
      ((areaSum (fun y x => (src (y * scolstep + x)).toNat) (n / dcols) (n % dcols) : ℕ) : K) /
        25 := by
    push_cast
    rw [div_eq_div_iff (by norm_num) (by norm_num)]
    ring
  rw [hsum]
  ring

variable [IsStrictOrderedRing K]

theorem hundredth_lt_norm : (1 / 100 : K) < 255 - 1 := by norm_num

variable (isdotsupport : Bool) {k m : ℕ} (hm : 0 < m)
include hm

/-- For an image of 2.5 times the size, all rows but the last two are right. -/
theorem nrResize_matches {img : Image} (hcols : img.cols = 20 * m) (hrows : img.rows = 5 * k)
    (mem : ℤ → K) {y x : ℕ} (hy : y < 2 * (k - 1)) (hx : x < 8 * m) :
    nrResize isdotsupport img.data 0 (2 * k) (8 * m) 1 0 255 mem ((y * (8 * m) + x : ℕ) : ℤ) =
      round (areaAverage K img y x) / 255 := by
  have hlt : y * (8 * m) + x < 2 * (k - 1) * (8 * m) := Nat.mul_add_lt_mul hy hx
  have hrow : 5 * (y / 2) + 5 ≤ img.rows := by omega
  have hcol : 5 * (x / 2) + 5 ≤ img.cols := by omega
  rw [nrResize_eq isdotsupport hm 255 hundredth_lt_norm, ← zero_add ((y * (8 * m) + x : ℕ) : ℤ),
    written_of_lt hlt, kernelElement_eq, Nat.mul_add_div_of_lt hx, Nat.mul_add_mod_of_lt hx,
    areaAverage_eq hrow hcol, hcols]

/-- The last two rows stay as they were. -/
theorem nrResize_last_rows (src : ℕ → BitVec 8) (mem : ℤ → K) {y x : ℕ}
    (hy : 2 * (k - 1) ≤ y) :
    nrResize isdotsupport src 0 (2 * k) (8 * m) 1 0 255 mem ((y * (8 * m) + x : ℕ) : ℤ) =
      mem ((y * (8 * m) + x : ℕ) : ℤ) := by
  have hle : 2 * (k - 1) * (8 * m) ≤ y * (8 * m) + x :=
    (Nat.mul_le_mul_right _ hy).trans (Nat.le_add_right _ _)
  rw [nrResize_eq isdotsupport hm 255 hundredth_lt_norm, ← zero_add ((y * (8 * m) + x : ℕ) : ℤ),
    written_of_le hle]

end Average

/-! ### The tensor -/

section Tensor

variable {K : Type} [Field K] [LinearOrder K] [FloorRing K]

/-- If `NrResize` is taken, the image has 2.5 times the size of the tensor, and every element is
right whatever was there before. -/
def FastPathRight (android : Bool) (height width : ℕ) (img : Image)
    (after : DetState (ℤ → K) → ℤ → K) : Prop :=
  takesNrResize K android height width img →
    (2 * img.cols = 5 * width ∧ 2 * img.rows = 5 * height) ∧
      ∀ st, MatchesAreaResize height width img (after st)

variable [IsStrictOrderedRing K] {android : Bool} (isdotsupport : Bool)
  (cvResize : Image → ℕ → ℕ → Interpolation → ℕ → BitVec 8) {img : Image} {height width : ℕ}

/-- An element of the last row is not what it should be after every memory. -/
theorem not_matches_of_takes (hheight : Even height) (hpos : 0 < height) (hwidth : 8 ∣ width)
    (hwpos : 0 < width) (htakes : takesNrResize K android height width img) :
    ∃ mem : ℤ → K, ¬MatchesAreaResize height width img
      (fillTensor android isdotsupport cvResize height width img mem) := by
  obtain ⟨k, rfl⟩ := hheight.exists_two_nsmul
  obtain ⟨m, rfl⟩ := hwidth
  rw [smul_eq_mul] at *
  refine ⟨fun _ => round (areaAverage K img (2 * k - 1) 0) / 255 + 1, fun hmatch => ?_⟩
  have hlast := hmatch (2 * k - 1) (by omega) 0 hwpos
  unfold fillTensor at hlast
  rw [if_pos htakes, nrResize_last_rows isdotsupport (by omega) img.data _ (by omega)] at hlast
  exact absurd hlast (ne_of_gt (lt_add_one _))

theorem fastPathRight_iff (hheight : Even height) (hwidth : 8 ∣ width)
    {after : DetState (ℤ → K) → ℤ → K} {m b : ℕ}
    (hafter : ∀ st : DetState (ℤ → K),
      after st = fillTensor android isdotsupport cvResize height width img (st.slots m b)) :
    FastPathRight android height width img after ↔ ¬takesNrResize K android height width img := by
  constructor
  · intro hright htakes
    obtain ⟨⟨hcols, hrows⟩, hmatch⟩ := hright htakes
    have hwpos : 0 < width := by
      have hc : 0 < img.cols := htakes.2.1.1
      omega
    have hpos : 0 < height := by
      have hr : 0 < img.rows := htakes.2.2.1
      omega
    obtain ⟨mem, hmem⟩ :=
      not_matches_of_takes isdotsupport cvResize hheight hpos hwidth hwpos htakes
    have hall := hmatch ⟨fun _ _ => mem, 0, 0⟩
    rw [hafter] at hall
    exact hmem hall
  · intro hnot htakes
    exact absurd htakes hnot

/-- The two functions are right for an image exactly if it does not go through `NrResize`. -/
theorem nrResize_path_iff (net : HandDetectNet K) (android isdotsupport : Bool)
    (cvResize : Image → ℕ → ℕ → Interpolation → ℕ → BitVec 8) (imgs : List Image) (m : ℕ)
    (img : Image) (height width : ℕ)
    (hheight : net.itensorFormat.height (net.itensor.mDims m) = height) (heven : Even height)
    (hwidth : net.itensorFormat.width (net.itensor.mDims m) = width) (hwidth8 : 8 ∣ width) :
    (∀ i, net.itensor.mBatch * net.itensor.mMultishapeNum = imgs.length →
      imgs[i]? = some img → i / net.itensor.mBatch = m →
      (FastPathRight android height width img
          (fun st : DetState (ℤ → K) =>
            (net.preProcess (fillTensor android isdotsupport cvResize) imgs st).slots m
              (i % net.itensor.mBatch)) ↔
        ¬takesNrResize K android height width img)) ∧
    ∀ batchn, net.sessionBatch * net.itensor.mMultishapeNum = imgs.length →
      m < net.itensor.mMultishapeNum →
      imgs[net.itensor.mMultishapeNum * batchn + m]? = some img →
      (FastPathRight android height width img
          (fun st : DetState (ℤ → K) =>
            (net.preProcessSingle (fillTensor android isdotsupport cvResize) imgs batchn
              st).slots m 0) ↔
        ¬takesNrResize K android height width img) := by
  subst hheight hwidth
  constructor
  · rintro i hn hi rfl
    have hafter (st : DetState (ℤ → K)) :
        (net.preProcess (fillTensor android isdotsupport cvResize) imgs st).slots
            (i / net.itensor.mBatch) (i % net.itensor.mBatch) =
          net.fillSlot (fillTensor android isdotsupport cvResize) (i / net.itensor.mBatch) img
            (st.slots (i / net.itensor.mBatch) (i % net.itensor.mBatch)) :=
      HandDetectNet.preProcess_slots hn hi
    exact fastPathRight_iff isdotsupport cvResize heven hwidth8 hafter
  · intro batchn hn hm hi
    have hafter (st : DetState (ℤ → K)) :
        (net.preProcessSingle (fillTensor android isdotsupport cvResize) imgs batchn
            st).slots m 0 =
          net.fillSlot (fillTensor android isdotsupport cvResize) m img (st.slots m 0) :=
      HandDetectNet.preProcessSingle_slots hn hm hi
    exact fastPathRight_iff isdotsupport cvResize heven hwidth8 hafter

end Tensor

/-! ### Two small images -/

section Small

/-- A black image. -/
def blank (cols rows : ℕ) : Image := ⟨cols, rows, fun _ => 0⟩

/-- One input tensor of 8 columns and 4 rows. -/
def tinyNet : HandDetectNet ℚ where
  itensorFormat := .hwc
  otensorFormat := .hwc
  itensor := ⟨1, 1, fun _ => ![4, 8, 1]⟩
  otensor := ⟨1, 1, fun _ => ![1, 1, 7]⟩
  netBatch1 := false
  sessionBatch := 1
  behindGridAnchor _ := ⟨0, 0, 0, 0⟩

/-- A library that makes black images. -/
def noResize (_ : Image) (_ _ : ℕ) (_ : Interpolation) (_ : ℕ) : BitVec 8 := 0

/-- An image of twice the size goes through `cv::resize`. -/
theorem nrResize_path_double :
    FastPathRight true 4 8 (blank 16 8) (fun st : DetState (ℤ → ℚ) =>
        (tinyNet.preProcess (fillTensor true true noResize) [blank 16 8] st).slots 0 0) ∧
      FastPathRight true 4 8 (blank 16 8) (fun st : DetState (ℤ → ℚ) =>
        (tinyNet.preProcessSingle (fillTensor true true noResize) [blank 16 8] 0 st).slots 0
          0) := by
  have hnot : ¬takesNrResize ℚ true 4 8 (blank 16 8) := by
    norm_num [takesNrResize, blank]
  obtain ⟨hbatch, hsingle⟩ := nrResize_path_iff tinyNet true true noResize [blank 16 8] 0
    (blank 16 8) 4 8 rfl ⟨2, rfl⟩ rfl ⟨1, rfl⟩
  exact ⟨(hbatch 0 rfl rfl rfl).mpr hnot, (hsingle 0 rfl Nat.one_pos rfl).mpr hnot⟩

/-- One of 2.5 times the size goes through `NrResize`, which leaves out two rows of four. -/
theorem nrResize_path_wrong :
    ¬FastPathRight true 4 8 (blank 20 10) (fun st : DetState (ℤ → ℚ) =>
      (tinyNet.preProcess (fillTensor true true noResize) [blank 20 10] st).slots 0 0) := by
  have htakes : takesNrResize ℚ true 4 8 (blank 20 10) := by
    norm_num [takesNrResize, blank]
  have hafter (st : DetState (ℤ → ℚ)) :
      (tinyNet.preProcess (fillTensor true true noResize) [blank 20 10] st).slots 0 0 =
        fillTensor true true noResize 4 8 (blank 20 10) (st.slots 0 0) :=
    HandDetectNet.preProcess_slots_zero rfl rfl rfl
  have hiff := fastPathRight_iff true noResize ⟨2, rfl⟩ ⟨1, rfl⟩ hafter
  exact fun hright => hiff.mp hright htakes

end Small

end Detect

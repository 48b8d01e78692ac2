/-
The keypoints that `RSNTiny::PostProcess` reads off square heatmaps.

A keypoint is the mean of the columns and the rows of its heatmap under the softmax, as parts of
the size of the heatmap.  `Init` takes the second and the third size of the output tensor for
the size of a heatmap and the number of the keypoints.  With the channels last they are; with
the channels first they are the height and the width.

* `meanCol`, `meanRow` — what a heatmap says, and that it lies inside;
* `Heatmaps.process_eq` — the keypoints, for what the softmax leaves in its buffer;
* `Heatmaps.right_of` — sizes for which they are the means;
* `Heatmaps.rsnTiny_right_iff` — in both layouts they are exactly if there are as many keypoints
  as columns, and the vectors of four cover the heatmaps where the code uses them.
-/
import HandTracking.RsnTiny

namespace Rsn

open Camera Detect Rtm

/-! ### Means -/

/-- A sum over a flat heatmap, row by row. -/
theorem sum_range_rows {M : Type*} [AddCommMonoid M] (f : ℕ → M) (m n : ℕ) :
    ∑ i ∈ Finset.range (m * n), f i =
      ∑ r ∈ Finset.range m, ∑ c ∈ Finset.range n, f (r * n + c) := by
  induction m with
  | zero => simp
  | succ m ih => rw [Nat.succ_mul, Finset.sum_range_add, ih, Finset.sum_range_succ]

section Means

variable (heat : ℕ → ℕ → ℝ) (size : ℕ)

/-- The softmax of a heatmap, at one row and column. -/
noncomputable def weight (r c : ℕ) : ℝ :=
  Real.exp (heat r c) /
    ∑ r ∈ Finset.range size, ∑ c ∈ Finset.range size, Real.exp (heat r c)

/-- The mean of `column / size`. -/
noncomputable def meanCol : ℝ :=
  ∑ r ∈ Finset.range size, ∑ c ∈ Finset.range size, weight heat size r c * (c / size)

/-- The mean of `row / size`. -/
noncomputable def meanRow : ℝ :=
  ∑ r ∈ Finset.range size, ∑ c ∈ Finset.range size, weight heat size r c * (r / size)

variable {heat size}

theorem sum_exp_pos (hsize : 0 < size) :
    0 < ∑ r ∈ Finset.range size, ∑ c ∈ Finset.range size, Real.exp (heat r c) := by
  have hne : (Finset.range size).Nonempty := ⟨0, Finset.mem_range.mpr hsize⟩
  exact Finset.sum_pos (fun _ _ => Finset.sum_pos (fun _ _ => Real.exp_pos _) hne) hne

theorem weight_pos (hsize : 0 < size) (r c : ℕ) : 0 < weight heat size r c :=
  div_pos (Real.exp_pos _) (sum_exp_pos hsize)

variable (heat) in
theorem sum_weight (hsize : 0 < size) :
    ∑ r ∈ Finset.range size, ∑ c ∈ Finset.range size, weight heat size r c = 1 := by
  simp only [weight, ← Finset.sum_div]
  exact div_self (sum_exp_pos hsize).ne'

/-- A mean of parts of the size is one. -/
theorem mean_mem (place : ℕ → ℕ → ℕ)
    (hplace : ∀ r < size, ∀ c < size, place r c < size) (hsize : 0 < size) :
    ∑ r ∈ Finset.range size, ∑ c ∈ Finset.range size,
      weight heat size r c * ((place r c : ℝ) / size) ∈ Set.Ico (0 : ℝ) 1 := by
  have hpos : (0 : ℝ) < size := by exact_mod_cast hsize
  have hne : (Finset.range size).Nonempty := ⟨0, Finset.mem_range.mpr hsize⟩
  refine ⟨Finset.sum_nonneg fun r _ => Finset.sum_nonneg fun c _ => ?_, ?_⟩
  · exact mul_nonneg (weight_pos hsize r c).le (div_nonneg (Nat.cast_nonneg _) hpos.le)
  · rw [← sum_weight heat hsize]
    refine Finset.sum_lt_sum_of_nonempty hne fun r hr =>
      Finset.sum_lt_sum_of_nonempty hne fun c hc => ?_
    have hlt : (place r c : ℝ) / size < 1 := by
      rw [div_lt_one hpos]
      exact_mod_cast hplace r (Finset.mem_range.mp hr) c (Finset.mem_range.mp hc)
    exact mul_lt_of_lt_one_right (weight_pos hsize r c) hlt

theorem meanCol_mem (hsize : 0 < size) : meanCol heat size ∈ Set.Ico (0 : ℝ) 1 :=
  mean_mem (fun _ c => c) (fun _ _ _ hc => hc) hsize

theorem meanRow_mem (hsize : 0 < size) : meanRow heat size ∈ Set.Ico (0 : ℝ) 1 :=
  mean_mem (fun r _ => r) (fun _ hr _ _ => hr) hsize

end Means

/-! ### Networks with square heatmaps -/

/-- The sizes of a network with square heatmaps, and its batch. -/
structure Heatmaps where
  mBatch : ℕ
  keypoints : ℕ
  size : ℕ
  inputShape : ℕ
  mBatch_pos : 0 < mBatch
  keypoints_pos : 0 < keypoints
  size_pos : 0 < size
  inputShape_pos : 0 < inputShape

namespace Heatmaps

variable (n : Heatmaps) (android : Bool) (format : TensorFormat)

/-- The network after `Init`. -/
noncomputable def net : RsnNet ℝ :=
  init true n.mBatch n.inputShape format (format.mDims n.keypoints n.size n.size)
    (softmaxLastDim Real.exp android)

/-- The output tensor for the heatmaps `heat`, and what lies behind it. -/
def memory (heat : ℕ → ℕ → ℕ → ℕ → ℝ) (behind : ℕ → ℝ) : ℕ → ℝ :=
  store format n.mBatch n.keypoints n.size n.size heat behind

/-- What the heatmaps of one element of the batch say. -/
noncomputable def means (heat : ℕ → ℕ → ℕ → ℝ) : List (Vec2 ℝ) :=
  (List.range n.keypoints).map fun i : ℕ =>
    ![meanCol (heat i) n.size * n.inputShape, meanRow (heat i) n.size * n.inputShape]

/-- What the elements of a row are divided by. -/
noncomputable def divisor (input : ℤ → ℝ) (size : ℤ) : ℝ :=
  if android then (Softmax.rowExpAsm Real.exp input 0 0 0 size (Softmax.rowMaxAsm input 0 size)).2
  else (Softmax.rowExpNaive Real.exp input 0 0 0 size (Softmax.rowMaxNaive input 0 size)).2

/-- For all heatmaps, whatever lies behind them and is left in the buffers, the keypoints are the
means, inside of the image, and no heatmap is divided by 0. -/
def Right : Prop :=
  (∀ input : ℤ → ℝ, divisor android input (n.size * n.size) ≠ 0) ∧
    ∀ (heat : ℕ → ℕ → ℕ → ℕ → ℝ) (behind : ℕ → ℝ) (kpts : List (List (Vec2 ℝ)))
      (buf : Buffers ℝ), ∀ b < n.mBatch,
        ((n.net android format).postProcess (n.memory format heat behind) kpts buf).1[b]? =
            some (n.means (heat b)) ∧
          ∀ p ∈ n.means (heat b), ∀ k, p k ∈ Set.Ico (0 : ℝ) n.inputShape

/-- Both layouts of the same heatmaps give the same keypoints. -/
def Same : Prop :=
  ∀ (heat : ℕ → ℕ → ℕ → ℕ → ℝ) (behind behind' : ℕ → ℝ) (kpts : List (List (Vec2 ℝ)))
    (buf buf' : Buffers ℝ),
      ((n.net android .chw).postProcess (n.memory .chw heat behind) kpts buf).1 =
        ((n.net android .hwc).postProcess (n.memory .hwc heat behind') kpts buf').1

/-! ### The heatmaps reach the softmax -/

variable {n android format}

theorem means_mem {heat : ℕ → ℕ → ℕ → ℝ} {p : Vec2 ℝ} (hp : p ∈ n.means heat) (k : Fin 2) :
    p k ∈ Set.Ico (0 : ℝ) n.inputShape := by
  obtain ⟨i, -, rfl⟩ := List.mem_map.mp hp
  have hpos : (0 : ℝ) < n.inputShape := by exact_mod_cast n.inputShape_pos
  have hscale : ∀ {x : ℝ}, x ∈ Set.Ico (0 : ℝ) 1 →
      x * n.inputShape ∈ Set.Ico (0 : ℝ) n.inputShape := fun hx =>
    ⟨mul_nonneg hx.1 hpos.le, mul_lt_of_lt_one_left hpos hx.2⟩
  fin_cases k
  · exact hscale (meanCol_mem n.size_pos)
  · exact hscale (meanRow_mem n.size_pos)

theorem outputShape_net (hlast : format = .hwc ∨ n.keypoints = n.size) :
    (n.net android format).outputShape = n.size := by
  rcases hlast with rfl | hsame
  · rfl
  · cases format with
    | hwc => rfl
    | chw => rfl

theorem keypointNum_net (hlast : format = .hwc ∨ n.keypoints = n.size) :
    (n.net android format).keypointNum = n.keypoints := by
  rcases hlast with rfl | hsame
  · rfl
  · cases format with
    | hwc => rfl
    | chw => exact hsame.symm

theorem heatmaps_apply {heat : ℕ → ℕ → ℕ → ℕ → ℝ} {behind : ℕ → ℝ} (outputsNCHW : ℤ → ℝ)
    {b i r c : ℕ} (hb : b < n.mBatch) (hi : i < n.keypoints) (hr : r < n.size) (hc : c < n.size) :
    (n.net android format).heatmaps (n.memory format heat behind) b outputsNCHW
      ↑(i * (n.size * n.size) + (r * n.size + c)) = heat b i r c := by
  have hslot : store format n.mBatch n.keypoints n.size n.size heat behind
      (b * n.size * n.size * n.keypoints +
        cellIdx format (format.mDims n.keypoints n.size n.size) r c i) = heat b i r c :=
    store_slot hb hi hr hc
  cases format with
  | chw =>
    rw [slot_cellIdx_chw] at hslot
    rw [← hslot]
    show store .chw _ _ _ _ heat behind (b * n.size * n.size * n.keypoints +
      Int.toNat ↑(i * (n.size * n.size) + (r * n.size + c))) = _
    rw [Int.toNat_natCast]
    congr 1
    ring
  | hwc =>
    have harea : r * n.size + c < n.size * n.size := Nat.mul_add_lt_mul hr hc
    rw [slot_cellIdx_hwc] at hslot
    show nhwc2nchw (fun x => n.memory .hwc heat behind (b * n.size * n.size * n.keypoints +
      x.toNat)) outputsNCHW 1 n.keypoints (n.size * n.size) _ = _
    rw [nhwc2nchw_apply _ outputsNCHW hi harea, ← hslot]
    show store .hwc _ _ _ _ heat behind (b * n.size * n.size * n.keypoints +
      Int.toNat ↑((r * n.size + c) * n.keypoints + i)) = _
    rw [Int.toNat_natCast]
    congr 1
    ring

theorem coeffs_net (hsame : (n.net android format).outputShape = n.size) {w : ℕ}
    (hw : w < n.size) : (n.net android format).coeffs w = w / n.size := by
  have hdims : (format.mDims n.keypoints n.size n.size) 1 = n.size := hsame
  show (linspace 0 1 ((format.mDims n.keypoints n.size n.size) 1)).getD (Int.toNat w) 0 = _
  rw [hdims, Int.toNat_natCast, linspace, List.getD_eq_getElem?_getD, List.getElem?_map,
    List.getElem?_range hw]
  show 0 + (w : ℝ) * ((1 - 0) / n.size) = _
  rw [zero_add, sub_zero, mul_one_div]

/-- The keypoints, for what the softmax leaves in its buffer. -/
theorem process_eq (hlast : format = .hwc ∨ n.keypoints = n.size) {mem : ℕ → ℝ} {b : ℕ}
    {rsnkpt : List (Vec2 ℝ)} {buf : Buffers ℝ} (v : ℕ → ℕ → ℕ → ℝ)
    (hv : ∀ i < n.keypoints, ∀ r < n.size, ∀ c < n.size,
      (n.net android format).softmaxed
        ((n.net android format).heatmaps mem b buf.outputsNCHW) buf
          ↑(i * n.size * n.size + r * n.size + c) = v i r c) :
    ((n.net android format).process mem b rsnkpt buf).1 =
      (List.range n.keypoints).map fun i : ℕ =>
        ![(∑ r ∈ Finset.range n.size, ∑ c ∈ Finset.range n.size, v i r c * (c / n.size)) *
            n.inputShape,
          (∑ r ∈ Finset.range n.size, ∑ c ∈ Finset.range n.size, v i r c * (r / n.size)) *
            n.inputShape] := by
  have hshape : (n.net android format).outputShape = n.size := outputShape_net hlast
  have hnum : (n.net android format).keypointNum = n.keypoints := keypointNum_net hlast
  rw [RsnNet.process_fst, hnum]
  refine List.map_congr_left fun i hi => ?_
  have hi := List.mem_range.mp hi
  have hik : i < (n.net android format).keypointNum := hnum.symm ▸ hi
  rw [RsnNet.ipr_col _ _ _ _ _ hik, RsnNet.ipr_row _ _ _ _ _ hik, hshape]
  -- the columns are weighed by their places, and then the rows
  have hcol : ∑ c ∈ Finset.range n.size, (∑ r ∈ Finset.range n.size,
      (n.net android format).softmaxed
        ((n.net android format).heatmaps mem b buf.outputsNCHW) buf
          ↑(i * n.size * n.size + r * n.size + c)) * (n.net android format).coeffs c =
      ∑ r ∈ Finset.range n.size, ∑ c ∈ Finset.range n.size, v i r c * (c / n.size) := by
    rw [Finset.sum_comm]
    refine Finset.sum_congr rfl fun c hc => ?_
    have hc := Finset.mem_range.mp hc
    rw [coeffs_net hshape hc, Finset.sum_mul]
    exact Finset.sum_congr rfl fun r hr => by rw [hv i hi r (Finset.mem_range.mp hr) c hc]
  have hrow : ∑ r ∈ Finset.range n.size, (∑ c ∈ Finset.range n.size,
      (n.net android format).softmaxed
        ((n.net android format).heatmaps mem b buf.outputsNCHW) buf
          ↑(i * n.size * n.size + r * n.size + c)) * (n.net android format).coeffs r =
      ∑ r ∈ Finset.range n.size, ∑ c ∈ Finset.range n.size, v i r c * (r / n.size) := by
    refine Finset.sum_congr rfl fun r hr => ?_
    have hr := Finset.mem_range.mp hr
    rw [coeffs_net hshape hr, Finset.sum_mul]
    exact Finset.sum_congr rfl fun c hc => by rw [hv i hi r hr c (Finset.mem_range.mp hc)]
  rw [hcol, hrow]
  rfl

/-! ### The softmax of a heatmap -/

/-- The vectors of four cover the heatmaps. -/
theorem four_dvd_area (heven : 2 ∣ n.size) : (4 : ℤ) ∣ n.size * n.size := by
  obtain ⟨k, hk⟩ := heven
  exact ⟨k * k, by rw [hk]; push_cast; ring⟩

theorem softmaxLastDim_apply (hdvd : android → (4 : ℤ) ∣ n.size * n.size) (input out : ℤ → ℝ)
    {k i j : ℕ} (hi : i < k) (hj : j < n.size * n.size) :
    softmaxLastDim Real.exp android input out ![1, k, n.size * n.size]
        ↑(i * (n.size * n.size) + j) =
      Real.exp (input ↑(i * (n.size * n.size) + j)) /
        ∑ j ∈ Finset.range (n.size * n.size),
          Real.exp (input ↑(i * (n.size * n.size) + j)) := by
  set dims : Fin 3 → ℤ := ![1, k, n.size * n.size] with hdims
  have hprior : (i : ℤ) < dims 0 * dims 1 := by
    show (i : ℤ) < 1 * k
    omega
  have hsize : dims 2 = ((n.size * n.size : ℕ) : ℤ) := (Nat.cast_mul _ _).symm
  have hrow : (j : ℤ) < dims 2 := by
    rw [hsize]
    exact_mod_cast hj
  have hplace : ∀ j : ℕ, ((i * (n.size * n.size) + j : ℕ) : ℤ) = i * dims 2 + j := by
    intro j
    rw [hsize]
    push_cast
    ring
  have helement : softmaxLastDim Real.exp android input out dims (i * dims 2 + j) =
      Softmax.element input dims i j := by
    cases android with
    | false => exact Softmax.softmaxLastDimNaive_eq input out hprior hrow
    | true =>
      have hagree : Softmax.Agree input dims := Softmax.softmaxLastDim_agree_of_dvd (hdvd rfl)
      exact (hagree out out i j hprior hrow).trans
        (Softmax.softmaxLastDimNaive_eq input out hprior hrow)
  simp only [hplace]
  rw [helement, Softmax.element, Softmax.rowSum, Softmax.rowExp_div_sum]
  simp only [hsize, Int.toNat_natCast]

theorem softmaxed_net (hlast : format = .hwc ∨ n.keypoints = n.size)
    (heven : android → 2 ∣ n.size) {heat : ℕ → ℕ → ℕ → ℕ → ℝ} {behind : ℕ → ℝ}
    (buf : Buffers ℝ) {b i r c : ℕ} (hb : b < n.mBatch) (hi : i < n.keypoints) (hr : r < n.size)
    (hc : c < n.size) :
    (n.net android format).softmaxed
        ((n.net android format).heatmaps (n.memory format heat behind) b buf.outputsNCHW) buf
          ↑(i * n.size * n.size + r * n.size + c) =
      weight (heat b i) n.size r c := by
  have harea : r * n.size + c < n.size * n.size := Nat.mul_add_lt_mul hr hc
  have hplace : i * n.size * n.size + r * n.size + c =
      i * (n.size * n.size) + (r * n.size + c) := by
    ring
  rw [RsnNet.softmaxed, keypointNum_net hlast, outputShape_net hlast, hplace]
  refine (softmaxLastDim_apply (fun h => four_dvd_area (heven h)) _ _ hi harea).trans ?_
  rw [heatmaps_apply _ hb hi hr hc, sum_range_rows, weight]
  congr 1
  refine Finset.sum_congr rfl fun r hr => Finset.sum_congr rfl fun c hc => ?_
  rw [heatmaps_apply _ hb hi (Finset.mem_range.mp hr) (Finset.mem_range.mp hc)]

/-! ### Sizes that are right -/

theorem divisor_eq (android : Bool) (input : ℤ → ℝ) (size : ℕ) :
    divisor android input size = ∑ j ∈ Finset.range (if android then 4 * (size / 4) else size),
      Softmax.rowExp Real.exp input 0 (Softmax.rowMaxNaive input 0 size) j := by
  cases android with
  | false =>
    rw [divisor, if_neg Bool.false_ne_true, Softmax.rowExpNaive_eq]
    rfl
  | true =>
    rw [divisor, if_pos rfl, Softmax.rowExpAsm_eq, Softmax.rowMaxAsm_eq]
    rfl

theorem divisor_ne_zero (heven : android → 2 ∣ n.size) (input : ℤ → ℝ) :
    divisor android input (n.size * n.size) ≠ 0 := by
  have harea : ((n.size : ℤ) * n.size) = ((n.size * n.size : ℕ) : ℤ) := (Nat.cast_mul _ _).symm
  have hpos : 0 < n.size * n.size := Nat.mul_pos n.size_pos n.size_pos
  rw [harea, divisor_eq]
  refine (Finset.sum_pos (fun _ _ => Real.exp_pos _) ⟨0, Finset.mem_range.mpr ?_⟩).ne'
  split_ifs with h
  · have hdvd := four_dvd_area (n := n) (heven h)
    omega
  · exact hpos

theorem right_of (hlast : format = .hwc ∨ n.keypoints = n.size) (heven : android → 2 ∣ n.size) :
    n.Right android format := by
  refine ⟨divisor_ne_zero heven, fun heat behind kpts buf b hb =>
    ⟨?_, fun p hp k => means_mem hp k⟩⟩
  obtain ⟨rsnkpt, buf', hvalue, -⟩ := (n.net android format).postProcess_getElem rfl
    (n.memory format heat behind) kpts buf hb
  rw [hvalue, process_eq hlast (fun i => weight (heat b i) n.size) fun i hi r hr c hc =>
    softmaxed_net hlast heven buf' hb hi hr hc]
  rfl

/-! ### Sizes that are not -/

/-- There is one list entry for each column. -/
theorem eq_of_right_chw (hright : n.Right android .chw) : n.keypoints = n.size := by
  obtain ⟨hvalue, -⟩ := hright.2 (fun _ _ _ _ => 0) (fun _ => 0) [] Buffers.zero 0 n.mBatch_pos
  obtain ⟨rsnkpt, buf', hprocess, -⟩ := (n.net android .chw).postProcess_getElem rfl
    (n.memory .chw (fun _ _ _ _ => 0) fun _ => 0) [] Buffers.zero n.mBatch_pos
  rw [hprocess, RsnNet.process_fst] at hvalue
  have hlength := congrArg List.length (Option.some.inj hvalue)
  rw [means, List.length_map, List.length_map, List.length_range, List.length_range] at hlength
  exact hlength.symm

/-- An odd square leaves one element to the rest. -/
theorem area_odd (hodd : ¬2 ∣ n.size) :
    4 * (n.size * n.size / 4) + 1 = n.size * n.size := by
  obtain ⟨k, hk⟩ : ∃ k, n.size = 2 * k + 1 := ⟨n.size / 2, by omega⟩
  have hsq : n.size * n.size = 4 * (k * k + k) + 1 := by
    rw [hk]
    ring
  omega

/-- The first softmax of zeros in a buffer of zeros. -/
theorem softmaxed_zero (hlast : format = .hwc ∨ n.keypoints = n.size) {r c : ℕ}
    (hr : r < n.size) (hc : c < n.size) :
    (n.net true format).softmaxed
        ((n.net true format).heatmaps (n.memory format (fun _ _ _ _ => 0) fun _ => 0) 0 0)
          Buffers.zero ↑(0 * n.size * n.size + r * n.size + c) =
      if r * n.size + c < 4 * (n.size * n.size / 4) then
        1 / ((4 * (n.size * n.size / 4) : ℕ) : ℝ) else 0 := by
  set input := (n.net true format).heatmaps (n.memory format (fun _ _ _ _ => 0) fun _ => 0) 0 0
  set q := 4 * (n.size * n.size / 4) with hq
  have harea : r * n.size + c < n.size * n.size := Nat.mul_add_lt_mul hr hc
  have hone : ∀ j < n.size * n.size, Real.exp (input (0 + j)) = 1 := by
    intro j hj
    have hcell : input ↑(0 * (n.size * n.size) + (j / n.size * n.size + j % n.size)) = 0 :=
      heatmaps_apply 0 n.mBatch_pos n.keypoints_pos (Nat.div_lt_of_lt_mul hj)
        (Nat.mod_lt j n.size_pos)
    rw [Nat.zero_mul, Nat.zero_add, Nat.div_add_mod'] at hcell
    rw [zero_add, hcell, Real.exp_zero]
  have hdims : ((n.size * n.size : ℕ) : ℤ) = n.size * n.size := Nat.cast_mul _ _
  have hprior : (0 : ℤ) < 1 * n.keypoints := by
    have hpos := n.keypoints_pos
    omega
  have hplace : 0 * n.size * n.size + r * n.size + c = r * n.size + c := by ring
  rw [RsnNet.softmaxed, keypointNum_net hlast, outputShape_net hlast, hplace, ← hdims]
  show Softmax.softmaxLastDimAsm Real.exp input (fun _ => 0)
    ![1, n.keypoints, ((n.size * n.size : ℕ) : ℤ)] _ = _
  have hcell : ((r * n.size + c : ℕ) : ℤ) < ((n.size * n.size : ℕ) : ℤ) := by
    exact_mod_cast harea
  rw [Softmax.softmaxLastDimAsm_first input _ hprior hcell]
  have hrow := Softmax.softmaxSingleLaneAsm_eq Real.exp input 0 (fun _ => 0) 0
    ((n.size * n.size : ℕ) : ℤ) (k := r * n.size + c) (by omega)
  rw [zero_add, Int.toNat_natCast, ← hq] at hrow
  refine hrow.trans ?_
  -- the cells behind the last vector of four stay 0
  split_ifs with hlt
  · rw [Softmax.rowSum, Softmax.rowExp_div_sum, hone _ harea,
      Finset.sum_congr rfl fun j hj => hone j (by rw [Finset.mem_range] at hj; omega),
      Finset.sum_const, Finset.card_range, nsmul_one]
  · rw [zero_div]

/-- A mean of columns over the flat heatmap. -/
theorem sum_mul_column (v : ℕ → ℝ) (size : ℕ) :
    ∑ r ∈ Finset.range size, ∑ c ∈ Finset.range size, v (r * size + c) * ((c : ℝ) / size) =
      ∑ j ∈ Finset.range (size * size), v j * (((j % size : ℕ) : ℝ) / size) := by
  rw [sum_range_rows]
  refine Finset.sum_congr rfl fun r _ => Finset.sum_congr rfl fun c hc => ?_
  rw [Nat.mul_add_mod_of_lt (Finset.mem_range.mp hc)]

theorem sum_columns {size : ℕ} (hsize : 0 < size) :
    ∑ j ∈ Finset.range (size * size), ((j % size : ℕ) : ℝ) / size =
      size * (size - 1) / 2 := by
  have hpos : (size : ℝ) ≠ 0 := by exact_mod_cast hsize.ne'
  have hrow : ∑ c ∈ Finset.range size, (c : ℝ) = size * (size - 1) / 2 := by
    have hgauss : (∑ c ∈ Finset.range size, c) * 2 = size * (size - 1) :=
      Finset.sum_range_id_mul_two size
    have hcast := congrArg (Nat.cast : ℕ → ℝ) hgauss
    push_cast [Nat.cast_sub (show 1 ≤ size from hsize)] at hcast
    linarith
  have hsum := sum_mul_column (fun _ => 1) size
  simp only [one_mul] at hsum
  rw [← hsum, Finset.sum_const, Finset.card_range, nsmul_eq_mul, ← Finset.sum_div, hrow]
  field_simp

/-- The mean of all columns. -/
theorem meanCol_zero {size : ℕ} (hsize : 0 < size) :
    meanCol (fun _ _ => 0) size = 1 / (size * size) * (size * (size - 1) / 2) := by
  have hweight : ∀ r c, weight (fun _ _ => 0) size r c = 1 / (size * size) := by
    intro r c
    simp [weight]
  simp only [meanCol, hweight]
  rw [sum_mul_column fun _ => 1 / ((size : ℝ) * size), ← Finset.mul_sum, sum_columns hsize]

/-- The mean without the last element. -/
theorem sum_rest {size q : ℕ} (hsize : 0 < size) (hq : q + 1 = size * size) :
    ∑ r ∈ Finset.range size, ∑ c ∈ Finset.range size,
        (if r * size + c < q then 1 / (q : ℝ) else 0) * ((c : ℝ) / size) =
      1 / q * (size * (size - 1) / 2 - (size - 1) / size) := by
  have hlast : q % size = size - 1 := by
    obtain ⟨s, rfl⟩ : ∃ s, size = s + 1 := ⟨size - 1, by omega⟩
    have hrows : q = s * (s + 1) + s := by
      have hsq : (s + 1) * (s + 1) = s * (s + 1) + s + 1 := by ring
      omega
    rw [hrows, Nat.mul_add_mod_of_lt (Nat.lt_succ_self s)]
    rfl
  have hcolumns := sum_columns hsize
  rw [← hq, Finset.sum_range_succ, hlast, Nat.cast_sub (show 1 ≤ size from hsize),
    Nat.cast_one] at hcolumns
  rw [sum_mul_column fun j => if j < q then 1 / (q : ℝ) else 0, ← hq, Finset.sum_range_succ,
    if_neg (lt_irrefl q), zero_mul, add_zero, ← hcolumns, add_sub_cancel_right, Finset.mul_sum]
  refine Finset.sum_congr rfl fun j hj => ?_
  rw [if_pos (Finset.mem_range.mp hj)]

/-- The last element counts: it is in the last column. -/
theorem rest_ne {s q : ℝ} (hs : 1 < s) (hq : q + 1 = s * s) :
    1 / q * (s * (s - 1) / 2 - (s - 1) / s) ≠ 1 / (s * s) * (s * (s - 1) / 2) := by
  have hs0 : s ≠ 0 := by linarith
  have hq0 : q ≠ 0 := by nlinarith
  have hleft : 1 / q * (s * (s - 1) / 2 - (s - 1) / s) =
      (s - 1) / (2 * s) * ((s * s - 2) / q) := by
    field_simp
  have hright : 1 / (s * s) * (s * (s - 1) / 2) = (s - 1) / (2 * s) * 1 := by
    field_simp
  intro h
  rw [hleft, hright] at h
  have hfactor : (s - 1) / (2 * s) ≠ 0 :=
    div_ne_zero (by linarith) (mul_ne_zero two_ne_zero hs0)
  have hratio := mul_left_cancel₀ hfactor h
  rw [div_eq_one_iff_eq hq0] at hratio
  linarith

/-- The vector code takes the last element of an odd heatmap for 0. -/
theorem not_right_of_odd (hlast : format = .hwc ∨ n.keypoints = n.size) (hodd : ¬2 ∣ n.size) :
    ¬n.Right true format := by
  rintro ⟨hdivisor, hright⟩
  obtain hone | hmany : n.size = 1 ∨ 1 < n.size := by
    have hpos := n.size_pos
    omega
  · -- the only element is the rest, and the sum has no summand
    refine hdivisor (fun _ => 0) ?_
    rw [hone]
    exact divisor_eq true (fun _ => 0) 1
  · obtain ⟨hvalue, -⟩ := hright (fun _ _ _ _ => 0) (fun _ => 0) [] Buffers.zero 0 n.mBatch_pos
    obtain ⟨rsnkpt, buf', hprocess, hbuf⟩ := (n.net true format).postProcess_getElem rfl
      (n.memory format (fun _ _ _ _ => 0) fun _ => 0) [] Buffers.zero n.mBatch_pos
    rw [hprocess, hbuf rfl, process_eq hlast _ fun i hi r hr c hc => rfl] at hvalue
    have hkpt := List.map_inj_left.mp (Option.some.inj hvalue) 0
      (List.mem_range.mpr n.keypoints_pos)
    have hcol := mul_right_cancel₀ (Nat.cast_ne_zero.mpr n.inputShape_pos.ne')
      (congrFun hkpt 0)
    have hrest : ∑ r ∈ Finset.range n.size, ∑ c ∈ Finset.range n.size,
        (n.net true format).softmaxed
          ((n.net true format).heatmaps (n.memory format (fun _ _ _ _ => 0) fun _ => 0) 0 0)
            Buffers.zero ↑(0 * n.size * n.size + r * n.size + c) * ((c : ℝ) / n.size) =
        meanCol (fun _ _ => 0) n.size := hcol
    rw [Finset.sum_congr rfl fun r hr => Finset.sum_congr rfl fun c hc => by
      rw [softmaxed_zero hlast (Finset.mem_range.mp hr) (Finset.mem_range.mp hc)],
      sum_rest n.size_pos (area_odd hodd), meanCol_zero n.size_pos] at hrest
    have harea : ((4 * (n.size * n.size / 4) : ℕ) : ℝ) + 1 = n.size * n.size := by
      exact_mod_cast area_odd hodd
    exact rest_ne (by exact_mod_cast hmany) harea hrest

theorem right_iff : n.Right android format ↔
    (format = .hwc ∨ n.keypoints = n.size) ∧ (android → 2 ∣ n.size) := by
  constructor
  · intro hright
    have hlast : format = .hwc ∨ n.keypoints = n.size := by
      cases format with
      | hwc => exact Or.inl rfl
      | chw => exact Or.inr (eq_of_right_chw hright)
    refine ⟨hlast, fun handroid => ?_⟩
    subst handroid
    by_contra hodd
    exact not_right_of_odd hlast hodd hright
  · exact fun h => right_of h.1 h.2

/-- Layouts that are both right are the same. -/
theorem same_of_right (hchw : n.Right android .chw) (hhwc : n.Right android .hwc) :
    n.Same android := by
  intro heat behind behind' kpts buf buf'
  refine List.ext_getElem? fun b => ?_
  by_cases hb : b < n.mBatch
  · exact (hchw.2 heat behind kpts buf b hb).1.trans (hhwc.2 heat behind' kpts buf' b hb).1.symm
  · rw [List.getElem?_eq_none, List.getElem?_eq_none]
    · rw [RsnNet.length_postProcess _ rfl]
      exact Nat.le_of_not_lt hb
    · rw [RsnNet.length_postProcess _ rfl]
      exact Nat.le_of_not_lt hb

/-- The keypoints are right in a layout exactly if the network reads the sizes where they are and
leaves no element of a heatmap to the rest; in both layouts, and the same, exactly if there are
as many keypoints as columns. -/
theorem rsnTiny_right_iff (n : Heatmaps) (android : Bool) :
    (∀ format, n.Right android format ↔
      (format = .hwc ∨ n.keypoints = n.size) ∧ (android → 2 ∣ n.size)) ∧
    ((n.Right android .chw ∧ n.Right android .hwc ∧ n.Same android) ↔
      n.keypoints = n.size ∧ (android → 2 ∣ n.size)) := by
  refine ⟨fun format => right_iff, fun ⟨hchw, hhwc, _⟩ => ?_, fun ⟨hsame, heven⟩ => ?_⟩
  · exact ⟨eq_of_right_chw hchw, (right_iff.mp hhwc).2⟩
  · have hchw : n.Right android .chw := right_of (Or.inr hsame) heven
    have hhwc : n.Right android .hwc := right_of (Or.inl rfl) heven
    exact ⟨hchw, hhwc, same_of_right hchw hhwc⟩

end Heatmaps

/-- One crop of 128 pixels, and the 21 joints of a hand in heatmaps of 32 rows and columns. -/
def hand : Heatmaps := ⟨1, 21, 32, 128, by decide, by decide, by decide, by decide⟩

/-- With the channels first, 32 keypoints are read off the 21 heatmaps. -/
theorem hand_chw_not_right :
    ¬ ∀ (n : Heatmaps) (android : Bool),
      n.Right android .chw ∧ n.Right android .hwc ∧ n.Same android := by
  intro h
  have hsame := Heatmaps.eq_of_right_chw (h hand false).1
  exact absurd hsame (by decide)

end Rsn

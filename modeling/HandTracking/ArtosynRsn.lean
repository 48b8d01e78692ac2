/-
Keypoints from heatmaps on the NPU, `ArtosynRSNTiny::PostProcess`.

The network copies the blocked tensor of its heatmaps into a buffer with the channels first,
and then does what `RSNTiny` does with its own.  So its keypoints are the means of the heatmaps,
whatever the blocks are, and the same as those of `RSNTiny` with the channels last.

* `storeData` — the three loops of the copy, and `storeData_apply`, what they leave;
* `ArtosynRSNTiny.postProcess` — the code;
* `ArtosynRSNTiny.postProcess_means` — the keypoints.
-/
import HandTracking.ArtosynDetect
import HandTracking.HeatmapMeans

namespace Rsn

open Camera Detect Lanes Rtm Xengine

/-! ### The network -/

section Code

variable {K : Type} [Field K]

/-- What the loops leave in `storedata`. -/
def storeData (feat : OutputTensor K) (batchTotal batchI : ℕ) : ℤ → K :=
  forInts feat.channels (fun idxC storedata =>
    forInts feat.height (fun idxI storedata =>
      forInts feat.width (fun idxJ storedata =>
        Function.update storedata
          ↑(idxC * feat.height * feat.width + idxI * feat.width + idxJ)
          (feat.elementAt batchTotal batchI idxI idxJ idxC)) storedata) storedata) 0

/-- The network after `Init`, and the tensor `"feat"` after a run. -/
structure ArtosynRSNTiny (K : Type) where
  mBatch : ℕ
  inputShape : ℕ
  feat : OutputTensor K
  softmaxLastDim : (ℤ → K) → (ℤ → K) → (Fin 3 → ℤ) → ℤ → K

namespace ArtosynRSNTiny

variable (net : ArtosynRSNTiny K)

/-- `Init` reads the sizes of `ipr` from the tensor. -/
def sized : RsnNet K where
  packedByBatch := false
  mBatch := net.mBatch
  otensorFormat := .chw
  mDims := ![net.feat.channels, net.feat.height, net.feat.width]
  inputShape := net.inputShape
  outputShape := net.feat.width
  keypointNum := net.feat.channels
  mulCoeff := linspace 0 1 net.feat.width
  softmaxLastDim := net.softmaxLastDim

/-- The body of the loop over the batch. -/
def process (batchI : ℕ) (rsnkpt : List (Vec2 K)) (buf : Buffers K) :
    List (Vec2 K) × Buffers K :=
  let k := net.sized.keypointNum
  let r := net.sized.ipr (storeData net.feat net.mBatch batchI) 0 0 buf
  ((List.range k).foldl (fun rsnkpt i =>
      rsnkpt.set i ![r.1 i * net.inputShape, r.2.1 i * net.inputShape]) (resize rsnkpt k 0), r.2.2)

/-- `PostProcess`: the keypoints of each image of the batch, in its part of the buffers. -/
def postProcess (kpts : List (List (Vec2 K))) (buf : Buffers K) :
    List (List (Vec2 K)) × Buffers K :=
  (List.range net.mBatch).foldl (fun s batchI =>
      let r := net.process batchI (s.1.getD batchI []) s.2
      (s.1.set batchI r.1, r.2))
    (resize kpts net.mBatch [], buf)

end ArtosynRSNTiny

end Code

/-! ### The copy -/

section Copy

variable {K : Type} [Field K] (feat : OutputTensor K) (batchTotal batchI : ℕ)

/-- The elements with the channels first. -/
def channelsFirst (k : ℕ) : K :=
  feat.elementAt batchTotal batchI (k / feat.width % feat.height) (k % feat.width)
    (k / feat.width / feat.height)

omit [Field K] in
theorem channelsFirst_apply {c i j : ℕ} (hi : i < feat.height) (hj : j < feat.width) :
    channelsFirst feat batchTotal batchI ((c * feat.height + i) * feat.width + j) =
      feat.elementAt batchTotal batchI i j c := by
  rw [channelsFirst, Nat.mul_add_div_of_lt hj, Nat.mul_add_mod_of_lt hj, Nat.mul_add_mod_of_lt hi,
    Nat.mul_add_div_of_lt hi]

/-- The places come one after the other. -/
theorem storeData_eq :
    storeData feat batchTotal batchI =
      written 0 0 (channelsFirst feat batchTotal batchI)
        (feat.channels * (feat.height * feat.width)) := by
  set f := channelsFirst feat batchTotal batchI with hf
  refine forInts_eq (fun c => written 0 0 f (c * (feat.height * feat.width))) ?_ fun c _ => ?_
  · rw [Nat.zero_mul, written_zero]
  -- the rows of a channel
  have hchannel : (c + 1) * (feat.height * feat.width) =
      (c * feat.height + feat.height) * feat.width := by ring
  rw [hchannel]
  refine forInts_eq (fun i => written 0 0 f ((c * feat.height + i) * feat.width)) ?_ fun i hi => ?_
  · rw [Nat.add_zero, Nat.mul_assoc]
  -- the elements of a row
  have hrow : (c * feat.height + (i + 1)) * feat.width =
      (c * feat.height + i) * feat.width + feat.width := by ring
  rw [hrow]
  refine forInts_eq (fun j => written 0 0 f ((c * feat.height + i) * feat.width + j)) rfl
    fun j hj => ?_
  have hplace : c * feat.height * feat.width + i * feat.width + j =
      (c * feat.height + i) * feat.width + j := by ring
  rw [hplace, ← channelsFirst_apply feat batchTotal batchI hi hj, ← hf]
  have hnext := update_written 0 0 f ((c * feat.height + i) * feat.width + j)
  rw [zero_add] at hnext
  exact hnext

theorem storeData_apply {c i j : ℕ} (hc : c < feat.channels) (hi : i < feat.height)
    (hj : j < feat.width) :
    storeData feat batchTotal batchI ↑((c * feat.height + i) * feat.width + j) =
      feat.elementAt batchTotal batchI i j c := by
  have hlt : (c * feat.height + i) * feat.width + j <
      feat.channels * (feat.height * feat.width) := by
    rw [← Nat.mul_assoc]
    exact Nat.mul_add_lt_mul (Nat.mul_add_lt_mul hc hi) hj
  have hvalue : written 0 0 (channelsFirst feat batchTotal batchI)
      (feat.channels * (feat.height * feat.width))
      (0 + ((c * feat.height + i) * feat.width + j : ℕ)) = _ := written_of_lt hlt
  rw [storeData_eq, ← channelsFirst_apply feat batchTotal batchI hi hj, ← hvalue, zero_add]

end Copy

/-! ### The loop over the batch -/

/-- A loop that sets elements to values that do not depend on what it carries along. -/
theorem fst_foldl_set {α σ : Type} (step : ℕ → α → σ → α × σ) (v : ℕ → α) (d : α) (bs : List ℕ)
    (hv : ∀ b ∈ bs, ∀ a s, (step b a s).1 = v b) (l : List α) (s : σ) :
    (bs.foldl (fun s b =>
        let r := step b (s.1.getD b d) s.2
        (s.1.set b r.1, r.2)) (l, s)).1 =
      bs.foldl (fun l b => l.set b (v b)) l := by
  induction bs generalizing l s with
  | nil => rfl
  | cons b bs ih =>
    rw [List.foldl_cons, List.foldl_cons, ih fun b hb => hv b (List.mem_cons_of_mem _ hb),
      hv b List.mem_cons_self]

namespace ArtosynRSNTiny

theorem process_fst {K : Type} [Field K] (net : ArtosynRSNTiny K) (batchI : ℕ)
    (rsnkpt : List (Vec2 K)) (buf : Buffers K) :
    (net.process batchI rsnkpt buf).1 = (List.range net.sized.keypointNum).map fun i : ℕ =>
      ![(net.sized.ipr (storeData net.feat net.mBatch batchI) 0 0 buf).1 i * net.inputShape,
        (net.sized.ipr (storeData net.feat net.mBatch batchI) 0 0 buf).2.1 i *
          net.inputShape] := by
  have hloop := foldl_set_range (fun i : ℕ =>
    ![(net.sized.ipr (storeData net.feat net.mBatch batchI) 0 0 buf).1 i * net.inputShape,
      (net.sized.ipr (storeData net.feat net.mBatch batchI) 0 0 buf).2.1 i * net.inputShape])
    (resize rsnkpt net.sized.keypointNum 0)
  rw [length_resize] at hloop
  exact hloop

/-! ### The keypoints -/

variable {n : Heatmaps} {android : Bool} {heat : ℕ → ℕ → ℕ → ℕ → ℝ} {net : ArtosynRSNTiny ℝ}

/-- The network has the sizes of `n`, and its tensor holds the heatmaps. -/
structure Holds (net : ArtosynRSNTiny ℝ) (n : Heatmaps) (android : Bool)
    (heat : ℕ → ℕ → ℕ → ℕ → ℝ) : Prop where
  batch : net.mBatch = n.mBatch
  input : net.inputShape = n.inputShape
  channels : net.feat.channels = n.keypoints
  height : net.feat.height = n.size
  width : net.feat.width = n.size
  softmax : net.softmaxLastDim = Rtm.softmaxLastDim Real.exp android
  stores : ∃ l : Blocking, l.batchTotal = n.mBatch ∧
    net.feat.Stores l fun batch row column keypoint => heat batch keypoint row column

theorem Holds.storeData_apply (h : net.Holds n android heat) {b i r c : ℕ} (hb : b < n.mBatch)
    (hi : i < n.keypoints) (hr : r < n.size) (hc : c < n.size) :
    storeData net.feat net.mBatch b ↑(i * (n.size * n.size) + (r * n.size + c)) =
      heat b i r c := by
  obtain ⟨l, hl, hstores⟩ := h.stores
  rw [← h.channels] at hi
  have hplace : i * (n.size * n.size) + (r * n.size + c) =
      (i * net.feat.height + r) * net.feat.width + c := by
    rw [h.height, h.width]
    ring
  rw [hplace, Rsn.storeData_apply _ _ _ hi (by rwa [h.height]) (by rwa [h.width]), h.batch]
  exact hstores.elementAt_of_lt hl hb (by rwa [h.height]) (by rwa [h.width]) hi

theorem Holds.softmaxed_eq (h : net.Holds n android heat) (heven : android → 2 ∣ n.size)
    (buf : Buffers ℝ) {b i r c : ℕ} (hb : b < n.mBatch) (hi : i < n.keypoints) (hr : r < n.size)
    (hc : c < n.size) :
    net.sized.softmaxed (storeData net.feat net.mBatch b) buf
        ↑(i * n.size * n.size + r * n.size + c) =
      weight (heat b i) n.size r c := by
  have harea : r * n.size + c < n.size * n.size := Nat.mul_add_lt_mul hr hc
  have hplace : i * n.size * n.size + r * n.size + c =
      i * (n.size * n.size) + (r * n.size + c) := by
    ring
  have hsoftmax : net.sized.softmaxed (storeData net.feat net.mBatch b) buf =
      Rtm.softmaxLastDim Real.exp android (storeData net.feat net.mBatch b) buf.hmSoftmax
        ![1, n.keypoints, n.size * n.size] := by
    show net.softmaxLastDim _ _ ![1, net.feat.channels, net.feat.width * net.feat.width] = _
    rw [h.softmax, h.channels, h.width]
  rw [hsoftmax, hplace, Heatmaps.softmaxLastDim_apply
    (fun ha => Heatmaps.four_dvd_area (heven ha)) _ _ hi harea, h.storeData_apply hb hi hr hc,
    sum_range_rows, weight]
  congr 1
  refine Finset.sum_congr rfl fun r hr => Finset.sum_congr rfl fun c hc => ?_
  rw [h.storeData_apply hb hi (Finset.mem_range.mp hr) (Finset.mem_range.mp hc)]

theorem Holds.coeffs_eq (h : net.Holds n android heat) {w : ℕ} (hw : w < n.size) :
    net.sized.coeffs w = w / n.size := by
  have hmul : net.sized.mulCoeff = linspace 0 1 n.size := by rw [← h.width]; rfl
  rw [RsnNet.coeffs, hmul, Int.toNat_natCast, linspace, List.getD_eq_getElem?_getD,
    List.getElem?_map, List.getElem?_range hw]
  show 0 + (w : ℝ) * ((1 - 0) / n.size) = _
  rw [zero_add, sub_zero, mul_one_div]

theorem Holds.process_eq (h : net.Holds n android heat) (heven : android → 2 ∣ n.size) {b : ℕ}
    (hb : b < n.mBatch) (rsnkpt : List (Vec2 ℝ)) (buf : Buffers ℝ) :
    (net.process b rsnkpt buf).1 = n.means (heat b) := by
  have hnum : net.sized.keypointNum = n.keypoints := h.channels
  have hshape : net.sized.outputShape = n.size := h.width
  rw [process_fst, hnum, Heatmaps.means, h.input]
  refine List.map_congr_left fun i hi => ?_
  have hi := List.mem_range.mp hi
  have hik : i < net.sized.keypointNum := hnum.symm ▸ hi
  rw [RsnNet.ipr_col _ _ _ _ _ hik, RsnNet.ipr_row _ _ _ _ _ hik, hshape, meanCol, meanRow]
  have hcol : ∑ c ∈ Finset.range n.size, (∑ r ∈ Finset.range n.size,
      net.sized.softmaxed (storeData net.feat net.mBatch b) buf
        ↑(i * n.size * n.size + r * n.size + c)) * net.sized.coeffs c =
      ∑ r ∈ Finset.range n.size, ∑ c ∈ Finset.range n.size,
        weight (heat b i) n.size r c * (c / n.size) := by
    rw [Finset.sum_comm]
    refine Finset.sum_congr rfl fun c hc => ?_
    have hc := Finset.mem_range.mp hc
    rw [h.coeffs_eq hc, Finset.sum_mul]
    exact Finset.sum_congr rfl fun r hr => by
      rw [h.softmaxed_eq heven buf hb hi (Finset.mem_range.mp hr) hc]
  have hrow : ∑ r ∈ Finset.range n.size, (∑ c ∈ Finset.range n.size,
      net.sized.softmaxed (storeData net.feat net.mBatch b) buf
        ↑(i * n.size * n.size + r * n.size + c)) * net.sized.coeffs r =
      ∑ r ∈ Finset.range n.size, ∑ c ∈ Finset.range n.size,
        weight (heat b i) n.size r c * (r / n.size) := by
    refine Finset.sum_congr rfl fun r hr => ?_
    have hr := Finset.mem_range.mp hr
    rw [h.coeffs_eq hr, Finset.sum_mul]
    exact Finset.sum_congr rfl fun c hc => by
      rw [h.softmaxed_eq heven buf hb hi hr (Finset.mem_range.mp hc)]
  rw [hcol, hrow]

theorem Holds.postProcess_eq (h : net.Holds n android heat) (heven : android → 2 ∣ n.size)
    (kpts : List (List (Vec2 ℝ))) (buf : Buffers ℝ) :
    (net.postProcess kpts buf).1 = (List.range n.mBatch).map fun b => n.means (heat b) := by
  have hvalue : ∀ b ∈ List.range net.mBatch, ∀ rsnkpt buf,
      (net.process b rsnkpt buf).1 = n.means (heat b) := fun b hb =>
    h.process_eq heven (h.batch ▸ List.mem_range.mp hb)
  have hset := foldl_set_range (fun b => n.means (heat b)) (resize kpts net.mBatch [])
  rw [length_resize] at hset
  rw [← h.batch, ← hset]
  exact fst_foldl_set net.process (fun b => n.means (heat b)) [] (List.range net.mBatch) hvalue _ _

theorem postProcess_hwc (heven : android → 2 ∣ n.size) (behind : ℕ → ℝ)
    (kpts : List (List (Vec2 ℝ))) (buf : Buffers ℝ) :
    ((n.net android .hwc).postProcess (n.memory .hwc heat behind) kpts buf).1 =
      (List.range n.mBatch).map fun b => n.means (heat b) := by
  obtain ⟨-, hright⟩ := Heatmaps.right_of (n := n) (.inl rfl) heven
  have hlength := (n.net android .hwc).length_postProcess rfl (n.memory .hwc heat behind) kpts buf
  refine List.ext_getElem? fun b => ?_
  rcases Nat.lt_or_ge b n.mBatch with hb | hb
  · rw [(hright heat behind kpts buf b hb).1, List.getElem?_map, List.getElem?_range hb]
    rfl
  · rw [List.getElem?_eq_none (hlength.le.trans hb), List.getElem?_eq_none]
    rwa [List.length_map, List.length_range]

/-- **The keypoints do not depend on the blocks.**  They are the means of the heatmaps, which are
also those that `RSNTiny` reads off the same heatmaps with the channels last. -/
theorem postProcess_means (h : net.Holds n android heat) (heven : android → 2 ∣ n.size)
    (kpts : List (List (Vec2 ℝ))) (buf : Buffers ℝ) :
    (net.postProcess kpts buf).1 = (List.range n.mBatch).map (fun b => n.means (heat b)) ∧
      ∀ (behind : ℕ → ℝ) (kpts' : List (List (Vec2 ℝ))) (buf' : Buffers ℝ),
        (net.postProcess kpts buf).1 =
          ((n.net android .hwc).postProcess (n.memory .hwc heat behind) kpts' buf').1 := by
  have hmeans := h.postProcess_eq heven kpts buf
  exact ⟨hmeans, fun behind kpts' buf' =>
    hmeans.trans (postProcess_hwc heven behind kpts' buf').symm⟩

theorem squares_last : 0 ≤ 1 := Nat.le_succ 0

theorem squares_row : 2 * 1 ≤ 2 := Nat.le_refl 2

theorem squares_image : 2 * 2 ≤ 4 := Nat.le_refl 4

/-- Two heatmaps of 2 × 2, each a block. -/
def twoSquares : Blocking where
  batchTotal := 1
  height := 2
  width := 2
  kNormNum := 2
  kSizeNorm := 1
  kSizeLast := 0
  rowStep := 2
  imageStep := 4
  norm_pos := Nat.one_pos
  last_le := squares_last
  row_le := squares_row
  image_le := squares_image

/-- One image with two heatmaps of two rows and two columns. -/
def twoHeatmaps : Heatmaps := ⟨1, 2, 2, 2, Nat.one_pos, Nat.two_pos, Nat.two_pos, Nat.two_pos⟩

/-- The network for them, over the real numbers. -/
noncomputable def ofTwoHeatmaps : ArtosynRSNTiny ℝ where
  mBatch := 1
  inputShape := 2
  feat := ⟨⟨16, 2, 0, 1, 8⟩, 2, 2, 2, fun i => i⟩
  softmaxLastDim := Rtm.softmaxLastDim Real.exp true

theorem holds_ofTwoHeatmaps :
    ofTwoHeatmaps.Holds twoHeatmaps true fun batch keypoint row column =>
      OutputTensor.valuesIn twoSquares (fun i => (i : ℝ)) batch row column keypoint where
  batch := rfl
  input := rfl
  channels := by decide
  height := by decide
  width := by decide
  softmax := rfl
  stores := ⟨twoSquares, rfl, by constructor <;> decide, by decide, by decide, by decide,
    by decide, fun _ => rfl⟩

theorem postProcess_means_twoHeatmaps :
    let heat := fun batch keypoint row column =>
      OutputTensor.valuesIn twoSquares (fun i => (i : ℝ)) batch row column keypoint
    (ofTwoHeatmaps.postProcess [] Buffers.zero).1 =
        (List.range 1).map (fun b => twoHeatmaps.means (heat b)) ∧
      ∀ (behind : ℕ → ℝ) (kpts' : List (List (Vec2 ℝ))) (buf' : Buffers ℝ),
        (ofTwoHeatmaps.postProcess [] Buffers.zero).1 =
          ((twoHeatmaps.net true .hwc).postProcess (twoHeatmaps.memory .hwc heat behind) kpts'
            buf').1 :=
  postProcess_means holds_ofTwoHeatmaps (fun _ => by decide) [] Buffers.zero

end ArtosynRSNTiny

end Rsn

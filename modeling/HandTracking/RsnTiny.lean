/-
Keypoints as the mean place of a heatmap, `RSNTiny::PostProcess`.

The stages of `ipr` work on flat buffers: the softmax of each heatmap, its sums over the rows and
over the columns, the products with the coordinates and the sums of these.

* `reduceSumW_apply`, `reduceSumH_apply`, `elementwiseMultHm_apply`, `nhwc2nchw_apply` — what the
  stages leave in the buffers;
* `ipr_col`, `ipr_row` — the two results of a heatmap, in terms of the elements of the softmax;
* `postProcess_getElem` — the keypoints of one element of the batch.
-/
import HandTracking.DetectLayout
import HandTracking.RtmTiny

namespace Rsn

open Camera Detect Lanes Rtm

/-! ### The stages -/

section Stages

variable {K : Type} [Field K]

/-- `reduce_sum_w`: the sums over the rows. -/
def reduceSumW (input output : ℤ → K) (numChannels height width : ℕ) : ℤ → K :=
  forInts numChannels (fun c output =>
    forInts height (fun h output =>
      let sum := forInts width
        (fun w sum => sum + input ↑(c * height * width + h * width + w)) 0
      Function.update output (c * height + h) sum) output) output

/-- `reduce_sum_h`: the sums over the columns. -/
def reduceSumH (input output : ℤ → K) (numChannels height width : ℕ) : ℤ → K :=
  forInts numChannels (fun c output =>
    forInts width (fun w output =>
      let sum := forInts height
        (fun h sum => sum + input ↑(c * height * width + h * width + w)) 0
      Function.update output (c * width + w) sum) output) output

/-- `elementwise_mult` of the memory behind the pointers. -/
def elementwiseMult (a : ℤ → K) (aPtr : ℤ) (b : ℤ → K) (c : ℤ → K) (cPtr : ℤ) (size : ℕ) :
    ℤ → K :=
  forInts size (fun i c => Function.update c (cPtr + i) (a (aPtr + i) * b i)) c

/-- `elementwise_mult_hm`: each channel times the coefficients. -/
def elementwiseMultHm (hmInput coeffs hmOutput : ℤ → K) (channels size : ℕ) : ℤ → K :=
  let colSize := size / channels
  forInts channels (fun c hmOutput =>
    elementwiseMult hmInput (c * colSize) coeffs hmOutput (c * colSize) colSize) hmOutput

/-- `NHWC2NCHW` -/
def nhwc2nchw (source dest : ℤ → K) (b c area : ℕ) : ℤ → K :=
  let sourceBatchsize := c * area
  let destBatchSize := sourceBatchsize
  forInts b (fun bi dest =>
    forInts area (fun i dest =>
      forInts c (fun ci dest =>
        Function.update dest ↑(bi * destBatchSize + i + ci * area)
          (source ↑(bi * sourceBatchsize + i * c + ci))) dest) dest) dest

end Stages

/-! ### The network -/

/-- The buffers of the network. -/
structure Buffers (K : Type) where
  hmSoftmax : ℤ → K
  hmReduceCol : ℤ → K
  hmReduceRow : ℤ → K
  hmReduceColRow : ℤ → K
  hmReduceRowCol : ℤ → K
  outputsNCHW : ℤ → K

/-- The network after `Init`. -/
structure RsnNet (K : Type) where
  packedByBatch : Bool
  mBatch : ℕ
  otensorFormat : TensorFormat
  mDims : Fin 3 → ℕ
  inputShape : ℕ
  outputShape : ℕ
  keypointNum : ℕ
  mulCoeff : List K
  softmaxLastDim : (ℤ → K) → (ℤ → K) → (Fin 3 → ℤ) → ℤ → K

section Net

variable {K : Type} [Field K]

/-- `Init`: the sizes are read from the dimensions 1 and 2, whatever their order means. -/
def init (packedByBatch : Bool) (mBatch inputShape : ℕ) (otensorFormat : TensorFormat)
    (mDims : Fin 3 → ℕ) (softmaxLastDim : (ℤ → K) → (ℤ → K) → (Fin 3 → ℤ) → ℤ → K) : RsnNet K where
  packedByBatch := packedByBatch
  mBatch := mBatch
  otensorFormat := otensorFormat
  mDims := mDims
  inputShape := inputShape
  outputShape := mDims 1
  keypointNum := mDims 2
  mulCoeff := linspace 0 1 (mDims 1)
  softmaxLastDim := softmaxLastDim

/-- The buffers after `Init`. -/
def Buffers.zero : Buffers K := ⟨0, 0, 0, 0, 0, 0⟩

namespace RsnNet

variable (net : RsnNet K)

/-- The members of a vector of floats, as memory. -/
def coeffs : ℤ → K := fun i => net.mulCoeff.getD i.toNat 0

/-- The results for the columns and the rows, and the buffers after that. -/
def ipr (inputHm kptXOut kptYOut : ℤ → K) (buf : Buffers K) : (ℤ → K) × (ℤ → K) × Buffers K :=
  let k := net.keypointNum
  let s := net.outputShape
  let hmSoftmax := net.softmaxLastDim inputHm buf.hmSoftmax ![1, k, s * s]
  let hmReduceCol := reduceSumH hmSoftmax buf.hmReduceCol k s s
  let hmReduceRow := reduceSumW hmSoftmax buf.hmReduceRow k s s
  let hmReduceColRow :=
    elementwiseMultHm hmReduceCol net.coeffs buf.hmReduceColRow k (k * s)
  let hmReduceRowCol :=
    elementwiseMultHm hmReduceRow net.coeffs buf.hmReduceRowCol k (k * s)
  (reduceSumW hmReduceColRow kptXOut k 1 s, reduceSumH hmReduceRowCol kptYOut k s 1,
    ⟨hmSoftmax, hmReduceCol, hmReduceRow, hmReduceColRow, hmReduceRowCol, buf.outputsNCHW⟩)

/-- The body of the loops: the keypoints of one element of the batch, and the buffers. -/
def process (mem : ℕ → K) (batchI : ℕ) (rsnkpt : List (Vec2 K)) (buf : Buffers K) :
    List (Vec2 K) × Buffers K :=
  let c := net.otensorFormat.channels net.mDims
  let h := net.otensorFormat.height net.mDims
  let w := net.otensorFormat.width net.mDims
  let data : ℤ → K := fun x => mem (batchI * h * w * c + x.toNat)
  let rsnkpt := if rsnkpt.length ≠ net.keypointNum then resize rsnkpt net.keypointNum 0 else rsnkpt
  let r := match net.otensorFormat with
    | .chw => net.ipr data 0 0 buf
    | .hwc =>
      let outputsNCHW := nhwc2nchw data buf.outputsNCHW 1 c (h * w)
      net.ipr outputsNCHW 0 0 { buf with outputsNCHW := outputsNCHW }
  ((List.range net.keypointNum).foldl (fun rsnkpt i =>
      rsnkpt.set i ![r.1 i * net.inputShape, r.2.1 i * net.inputShape]) rsnkpt, r.2.2)

/-- `PostProcess`, for the one tensor that the network has. -/
def postProcess (mem : ℕ → K) (kpts : List (List (Vec2 K))) (buf : Buffers K) :
    List (List (Vec2 K)) × Buffers K :=
  if net.packedByBatch then
    (List.range net.mBatch).foldl (fun s batchI =>
        let r := net.process mem batchI (s.1.getD batchI []) s.2
        (s.1.set batchI r.1, r.2))
      (resize kpts net.mBatch [], buf)
  else (kpts, buf)

end RsnNet

end Net

/-! ### What the stages compute -/

section Values

variable {K : Type} [Field K]

omit [Field K] in
/-- A loop that fills a row. -/
theorem forInts_update (output : ℤ → K) (base : ℤ) (f : ℕ → K) (n : ℕ) :
    forInts n (fun i output => Function.update output (base + i) (f i)) output =
      written output base f n :=
  forInts_eq (written output base f) (written_zero output base f).symm
    fun j _ => update_written output base f j

omit [Field K] in
/-- A loop over rows that are filled one after the other. -/
theorem forInts_rows (output : ℤ → K) (f : ℕ → ℕ → K) {rows n : ℕ} {r c : ℕ} (hr : r < rows)
    (hc : c < n) :
    forInts rows (fun r output => written output (r * n : ℕ) (f r) n) output ↑(r * n + c) =
      f r c := by
  have hrow : (forBlocks 1 (rows : ℤ) (fun r output => written output (r * n : ℕ) (f r) n) 0
      output).2 (r * (n : ℤ) + c) = f r c := by
    refine Softmax.forRows_eq (fun p out c hc => ?_) (fun p out x hx => ?_) output
      (show (r : ℤ) < rows by omega) (show (c : ℤ) < n by omega)
    · have hlt : written out (p * n : ℕ) (f p) n ((p * n : ℕ) + c) = f p c :=
        written_of_lt (by omega)
      push_cast at hlt ⊢
      exact hlt
    · refine written_of_outside ?_
      rw [Int.toNat_natCast] at hx
      push_cast
      exact hx
  push_cast
  exact hrow

theorem reduceSumW_apply (input output : ℤ → K) {numChannels height : ℕ} (width : ℕ) {c h : ℕ}
    (hc : c < numChannels) (hh : h < height) :
    reduceSumW input output numChannels height width ↑(c * height + h) =
      ∑ w ∈ Finset.range width, input ↑(c * height * width + h * width + w) := by
  have hrows : reduceSumW input output numChannels height width =
      forInts numChannels (fun c output => written output (c * height : ℕ)
        (fun h => ∑ w ∈ Finset.range width, input ↑(c * height * width + h * width + w)) height)
        output := by
    unfold reduceSumW
    congr 1
    funext c output
    simp only [forInts_sum]
    rw [← forInts_update]
    push_cast
    rfl
  rw [hrows]
  exact forInts_rows output
    (fun c h => ∑ w ∈ Finset.range width, input ↑(c * height * width + h * width + w)) hc hh

theorem reduceSumH_apply (input output : ℤ → K) {numChannels width : ℕ} (height : ℕ) {c w : ℕ}
    (hc : c < numChannels) (hw : w < width) :
    reduceSumH input output numChannels height width ↑(c * width + w) =
      ∑ h ∈ Finset.range height, input ↑(c * height * width + h * width + w) := by
  have hrows : reduceSumH input output numChannels height width =
      forInts numChannels (fun c output => written output (c * width : ℕ)
        (fun w => ∑ h ∈ Finset.range height, input ↑(c * height * width + h * width + w)) width)
        output := by
    unfold reduceSumH
    congr 1
    funext c output
    simp only [forInts_sum]
    rw [← forInts_update]
    push_cast
    rfl
  rw [hrows]
  exact forInts_rows output
    (fun c w => ∑ h ∈ Finset.range height, input ↑(c * height * width + h * width + w)) hc hw

theorem elementwiseMultHm_apply (hmInput coeffs hmOutput : ℤ → K) {channels colSize : ℕ} {c i : ℕ}
    (hc : c < channels) (hi : i < colSize) :
    elementwiseMultHm hmInput coeffs hmOutput channels (channels * colSize) ↑(c * colSize + i) =
      hmInput ↑(c * colSize + i) * coeffs i := by
  have hsize : channels * colSize / channels = colSize :=
    Nat.mul_div_cancel_left colSize (Nat.zero_lt_of_lt hc)
  have hrows : elementwiseMultHm hmInput coeffs hmOutput channels (channels * colSize) =
      forInts channels (fun c output => written output (c * colSize : ℕ)
        (fun i => hmInput ↑(c * colSize + i) * coeffs i) colSize) hmOutput := by
    simp only [elementwiseMultHm, hsize]
    congr 1
    funext c output
    rw [elementwiseMult, ← forInts_update]
    push_cast
    rfl
  rw [hrows]
  exact forInts_rows hmOutput (fun c i => hmInput ↑(c * colSize + i) * coeffs i) hc hi

/-- The first `n` cells are where they belong. -/
def Placed (source : ℤ → K) (c area n : ℕ) (dest : ℤ → K) : Prop :=
  ∀ i < n, i < area → ∀ ci < c, dest ↑(ci * area + i) = source ↑(i * c + ci)

omit [Field K] in
theorem Placed.cell {source out : ℤ → K} {c area i : ℕ} (h : Placed source c area i out)
    (hi : i < area) : Placed source c area (i + 1)
      (forInts c (fun ci dest => Function.update dest ↑(0 * (c * area) + i + ci * area)
        (source ↑(0 * (c * area) + i * c + ci))) out) := by
  -- the channels that are written already, and the cells before this one
  let P (m : ℕ) (out : ℤ → K) : Prop := Placed source c area i out ∧
    ∀ ci < m, out ↑(ci * area + i) = source ↑(i * c + ci)
  have hloop : P c (forInts c (fun ci dest =>
      Function.update dest ↑(0 * (c * area) + i + ci * area)
        (source ↑(0 * (c * area) + i * c + ci))) out) := by
    refine forInts_rule (P := P) ⟨h, fun ci hci => absurd hci (Nat.not_lt_zero ci)⟩
      fun m _ out hout => ?_
    have hplace : 0 * (c * area) + i + m * area = m * area + i := by omega
    have hsource : 0 * (c * area) + i * c + m = i * c + m := by omega
    rw [hplace, hsource]
    refine ⟨fun j hj hja cj hcj => ?_, fun cj hcj => ?_⟩
    · have hne : cj * area + j ≠ m * area + i := fun heq => by
        have hmod := congrArg (· % area) heq
        simp only [Nat.mul_add_mod_self_right, Nat.mod_eq_of_lt hja, Nat.mod_eq_of_lt hi] at hmod
        omega
      rw [Function.update_of_ne (by exact_mod_cast hne)]
      exact hout.1 j hj hja cj hcj
    · rcases Nat.lt_succ_iff_lt_or_eq.mp hcj with hlt | rfl
      · have hne : cj * area + i ≠ m * area + i := fun heq => by
          have hmul : cj * area = m * area := by omega
          exact hlt.ne (Nat.eq_of_mul_eq_mul_right (Nat.zero_lt_of_lt hi) hmul)
        rw [Function.update_of_ne (by exact_mod_cast hne)]
        exact hout.2 cj hlt
      · rw [Function.update_self]
  intro j hj hja cj hcj
  rcases Nat.lt_succ_iff_lt_or_eq.mp hj with hlt | rfl
  · exact hloop.1 j hlt hja cj hcj
  · exact hloop.2 cj hcj

omit [Field K] in
/-- The channels come first: every element goes to a place of its own. -/
theorem nhwc2nchw_apply (source dest : ℤ → K) {c area : ℕ} {ci i : ℕ} (hc : ci < c)
    (hi : i < area) :
    nhwc2nchw source dest 1 c area ↑(ci * area + i) = source ↑(i * c + ci) := by
  let P (n : ℕ) (out : ℤ → K) : Prop := n = 1 → Placed source c area area out
  have hone : P 1 (nhwc2nchw source dest 1 c area) := by
    refine forInts_rule (P := P) (fun h => absurd h (by decide)) fun n hn out _ _ => ?_
    obtain rfl : n = 0 := by omega
    exact forInts_rule (P := Placed source c area) (fun i hi => absurd hi (Nat.not_lt_zero i))
      fun i hi out h => h.cell hi
  exact hone rfl i hi hi ci hc

end Values

/-! ### The results of a heatmap -/

section Ipr

variable {K : Type} [Field K] (net : RsnNet K) (inputHm kptXOut kptYOut : ℤ → K) (buf : Buffers K)

namespace RsnNet

/-- The softmax of all heatmaps. -/
def softmaxed : ℤ → K :=
  net.softmaxLastDim inputHm buf.hmSoftmax ![1, net.keypointNum, net.outputShape * net.outputShape]

variable {c : ℕ} (hc : c < net.keypointNum)

include hc

/-- The sums over the rows, weighted with the columns. -/
theorem ipr_col :
    (net.ipr inputHm kptXOut kptYOut buf).1 c =
      ∑ w ∈ Finset.range net.outputShape, (∑ h ∈ Finset.range net.outputShape,
        net.softmaxed inputHm buf
          ↑(c * net.outputShape * net.outputShape + h * net.outputShape + w)) * net.coeffs w := by
  have hsum := reduceSumW_apply (elementwiseMultHm (reduceSumH (net.softmaxed inputHm buf)
    buf.hmReduceCol net.keypointNum net.outputShape net.outputShape) net.coeffs buf.hmReduceColRow
      net.keypointNum (net.keypointNum * net.outputShape)) kptXOut net.outputShape hc
        (show 0 < 1 from Nat.one_pos)
  rw [Nat.mul_one, Nat.add_zero] at hsum
  refine hsum.trans (Finset.sum_congr rfl fun w hw => ?_)
  have hw := Finset.mem_range.mp hw
  rw [Nat.zero_mul, Nat.add_zero, elementwiseMultHm_apply _ _ _ hc hw,
    reduceSumH_apply _ _ _ hc hw]

/-- The sums over the columns, weighted with the rows. -/
theorem ipr_row :
    (net.ipr inputHm kptXOut kptYOut buf).2.1 c =
      ∑ h ∈ Finset.range net.outputShape, (∑ w ∈ Finset.range net.outputShape,
        net.softmaxed inputHm buf
          ↑(c * net.outputShape * net.outputShape + h * net.outputShape + w)) * net.coeffs h := by
  have hsum := reduceSumH_apply (elementwiseMultHm (reduceSumW (net.softmaxed inputHm buf)
    buf.hmReduceRow net.keypointNum net.outputShape net.outputShape) net.coeffs buf.hmReduceRowCol
      net.keypointNum (net.keypointNum * net.outputShape)) kptYOut net.outputShape hc
        (show 0 < 1 from Nat.one_pos)
  rw [Nat.mul_one, Nat.add_zero] at hsum
  refine hsum.trans (Finset.sum_congr rfl fun h hh => ?_)
  have hh := Finset.mem_range.mp hh
  rw [Nat.mul_one, Nat.mul_one, Nat.add_zero, elementwiseMultHm_apply _ _ _ hc hh,
    reduceSumW_apply _ _ _ hc hh]

end RsnNet

end Ipr

/-! ### The loops over the keypoints and the batch -/

section Loops

variable {K : Type} [Field K]

namespace RsnNet

variable (net : RsnNet K)

/-- The heatmaps of one element of the batch, as `ipr` gets them. -/
def heatmaps (mem : ℕ → K) (batchI : ℕ) (outputsNCHW : ℤ → K) : ℤ → K :=
  let c := net.otensorFormat.channels net.mDims
  let h := net.otensorFormat.height net.mDims
  let w := net.otensorFormat.width net.mDims
  let data : ℤ → K := fun x => mem (batchI * h * w * c + x.toNat)
  match net.otensorFormat with
  | .chw => data
  | .hwc => nhwc2nchw data outputsNCHW 1 c (h * w)

theorem process_fst (mem : ℕ → K) (batchI : ℕ) (rsnkpt : List (Vec2 K)) (buf : Buffers K) :
    (net.process mem batchI rsnkpt buf).1 = (List.range net.keypointNum).map fun i : ℕ =>
      ![(net.ipr (net.heatmaps mem batchI buf.outputsNCHW) 0 0 buf).1 i * net.inputShape,
        (net.ipr (net.heatmaps mem batchI buf.outputsNCHW) 0 0 buf).2.1 i * net.inputShape] := by
  have hsized : (if rsnkpt.length ≠ net.keypointNum then resize rsnkpt net.keypointNum 0
      else rsnkpt).length = net.keypointNum := by
    split_ifs with hsize
    · exact length_resize ..
    · exact not_not.mp hsize
  have hloop := foldl_set_range (fun i : ℕ =>
    ![(net.ipr (net.heatmaps mem batchI buf.outputsNCHW) 0 0 buf).1 i * net.inputShape,
      (net.ipr (net.heatmaps mem batchI buf.outputsNCHW) 0 0 buf).2.1 i * net.inputShape])
    (if rsnkpt.length ≠ net.keypointNum then resize rsnkpt net.keypointNum 0 else rsnkpt)
  rw [hsized] at hloop
  rw [← hloop]
  unfold process heatmaps
  cases net.otensorFormat with
  | chw => rfl
  | hwc => rfl

/-- Each element of the batch is processed once, the first one with the buffers as they were. -/
theorem postProcess_getElem (hpacked : net.packedByBatch) (mem : ℕ → K)
    (kpts : List (List (Vec2 K))) (buf : Buffers K) {b : ℕ} (hb : b < net.mBatch) :
    ∃ rsnkpt buf', (net.postProcess mem kpts buf).1[b]? =
      some (net.process mem b rsnkpt buf').1 ∧ (b = 0 → buf' = buf) := by
  set step := fun (s : List (List (Vec2 K)) × Buffers K) batchI =>
    let r := net.process mem batchI (s.1.getD batchI []) s.2
    (s.1.set batchI r.1, r.2) with hstep
  have hloop : ∀ m ≤ net.mBatch,
      ((List.range m).foldl step (resize kpts net.mBatch [], buf)).1.length = net.mBatch ∧
        (m = 0 → ((List.range m).foldl step (resize kpts net.mBatch [], buf)).2 = buf) ∧
        ∀ b < m, ∃ rsnkpt buf',
          ((List.range m).foldl step (resize kpts net.mBatch [], buf)).1[b]? =
            some (net.process mem b rsnkpt buf').1 ∧ (b = 0 → buf' = buf) := by
    intro m
    induction m with
    | zero => exact fun _ => ⟨length_resize .., fun _ => rfl, fun b hb => absurd hb (by omega)⟩
    | succ m ih =>
      intro hm
      obtain ⟨hlength, hbuf, hdone⟩ := ih (by omega)
      rw [List.range_succ, List.foldl_append, List.foldl_cons, List.foldl_nil]
      set s := (List.range m).foldl step (resize kpts net.mBatch [], buf)
      refine ⟨by rw [hstep, List.length_set, hlength], fun h => absurd h (by omega), fun b hb => ?_⟩
      by_cases hbm : b = m
      · subst hbm
        refine ⟨s.1.getD b [], s.2, ?_, hbuf⟩
        show (s.1.set b _)[b]? = _
        rw [List.getElem?_set_self (by omega)]
      · obtain ⟨rsnkpt, buf', hvalue, hfirst⟩ := hdone b (by omega)
        refine ⟨rsnkpt, buf', ?_, hfirst⟩
        show (s.1.set m _)[b]? = _
        rw [List.getElem?_set_ne (Ne.symm hbm), hvalue]
  rw [postProcess, if_pos hpacked]
  exact (hloop net.mBatch le_rfl).2.2 b hb

theorem length_postProcess (hpacked : net.packedByBatch) (mem : ℕ → K)
    (kpts : List (List (Vec2 K))) (buf : Buffers K) :
    (net.postProcess mem kpts buf).1.length = net.mBatch := by
  rw [postProcess, if_pos hpacked]
  refine List.foldlRecOn (motive := fun s : List (List (Vec2 K)) × Buffers K =>
    s.1.length = net.mBatch) _ _ (length_resize kpts net.mBatch []) fun s hs batchI _ => ?_
  show (s.1.set batchI _).length = net.mBatch
  rw [List.length_set, hs]

end RsnNet

end Loops

end Rsn

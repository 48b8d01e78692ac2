/-
The detector on the NPU: boxes out of tensors whose channels lie in blocks.

`ArtosynHandDetectNetv2` reads every value of its two output tensors through
`ArtosynNpuGetEntryIndex`.  As long as a tensor has less than 2³¹ bytes, the place that it gives is
the one where the NPU has put the value, and the boxes do not depend on the blocks.

* `OutputTensor.elementAt` — a value of a tensor, as the code reads it;
* `OutputTensor.Stores` — a tensor that holds given values, in the blocks of a layout;
* `ArtosynHandDetectNetv2.postProcess` — the code;
* `ArtosynHandDetectNetv2.postProcess_stored` — the boxes, in terms of the values.
-/
import HandTracking.HandDetect
import HandTracking.NpuLayout

namespace Xengine

open Int32

/-! ### Output tensors -/

/-- An output tensor: the members of its `m_artosyn_dims`, and the memory at its `m_viraddr`. -/
structure OutputTensor (K : Type) where
  dims : ArtosynTensorDims
  u32OriChannels : UInt32
  u32Height : UInt32
  u32Width : UInt32
  viraddr : ℤ → K

namespace OutputTensor

variable {K : Type} (tensor : OutputTensor K)

/-- The passes of a loop up to a number that is taken as `int`. -/
def passes (n : UInt32) : ℕ := n.toInt32.toInt.toNat

/-- The passes over the channels of a tensor. -/
def channels : ℕ := passes tensor.u32OriChannels

/-- The passes over its rows. -/
def height : ℕ := passes tensor.u32Height

/-- The passes over its columns. -/
def width : ℕ := passes tensor.u32Width

/-- The value at a place, with the index for a `float` of four bytes. -/
def elementAt (batchTotal batch h w c : ℕ) : K :=
  tensor.viraddr (artosynNpuGetEntryIndex (Int32.ofNat batch) (Int32.ofNat batchTotal)
    (Int32.ofNat h) (Int32.ofNat w) (Int32.ofNat c) 4 tensor.dims).toInt

/-- The tensor holds the values `t batch h w c` in the blocks of `l`.  The last block may be larger
than the channels that are left for it. -/
structure Stores (l : Blocking) (t : ℕ → ℕ → ℕ → ℕ → K) : Prop where
  describes : l.Describes tensor.dims 4
  fits : l.bytes 4 < 2 ^ 31
  height_eq : tensor.height = l.height
  width_eq : tensor.width = l.width
  channels_le : tensor.channels ≤ l.kNormNum * l.kSizeNorm + l.kSizeLast
  value : ∀ e : l.Element, tensor.viraddr e.index = t e.batch e.h e.w e.c

/-- The values of a memory. -/
def valuesIn (l : Blocking) (viraddr : ℤ → K) (batch h w c : ℕ) : K :=
  let block := c / l.kSizeNorm
  viraddr ↑((block * l.batchTotal + batch) * l.imageStep +
    (h * l.rowStep + (w * l.kSize block + c % l.kSizeNorm)))

end OutputTensor

/-! ### The values are found -/

namespace Blocking.Element

variable {l : Blocking} (e : l.Element)

include e in
theorem imageStep_pos : 0 < l.imageStep := by
  have hlt := e.inImage_lt
  omega

include e in
theorem step_le_bytes {u : ℕ} : l.batchTotal * l.imageStep * u ≤ l.bytes u := by
  have hblock := e.block_lt
  exact Nat.le_mul_of_pos_left _ (by omega)

include e in
theorem batchTotal_le_bytes {u : ℕ} (hu : 0 < u) : l.batchTotal ≤ l.bytes u := by
  calc l.batchTotal ≤ l.batchTotal * l.imageStep := Nat.le_mul_of_pos_right _ e.imageStep_pos
    _ ≤ l.batchTotal * l.imageStep * u := Nat.le_mul_of_pos_right _ hu
    _ ≤ l.bytes u := e.step_le_bytes

theorem index_lt_bytes {u : ℕ} (hu : 0 < u) : e.index < l.bytes u := by
  calc e.index ≤ e.index * u := Nat.le_mul_of_pos_right _ hu
    _ < l.bytes u := e.index_mul_lt hu

theorem w_le_index : e.w ≤ e.index := by
  have hsize : 0 < l.kSize e.block := by
    have hlt := e.channel_lt
    omega
  calc e.w ≤ e.w * l.kSize e.block := Nat.le_mul_of_pos_right _ hsize
    _ ≤ e.inRow := Nat.le_add_right _ _
    _ ≤ e.inImage := Nat.le_add_left _ _
    _ ≤ e.index := Nat.le_add_left _ _

theorem h_le_index : e.h ≤ e.index := by
  have hrow : 0 < l.rowStep := by
    have hlt := e.inRow_lt
    omega
  calc e.h ≤ e.h * l.rowStep := Nat.le_mul_of_pos_right _ hrow
    _ ≤ e.inImage := Nat.le_add_right _ _
    _ ≤ e.index := Nat.le_add_left _ _

/-- A block is at least as large as its channels. -/
theorem c_lt_bytes {u : ℕ} (hu : 0 < u) : e.c < l.bytes u := by
  have hmod : e.channel < l.kSizeNorm := Nat.mod_lt _ l.norm_pos
  have hsplit : e.block * l.kSizeNorm + e.channel = e.c := Nat.div_add_mod' _ _
  calc e.c < l.blocks * l.kSizeNorm := by
        rw [← hsplit]
        exact Nat.mul_add_lt_mul e.block_lt hmod
    _ ≤ l.blocks * (l.batchTotal * l.imageStep) :=
        Nat.mul_le_mul_left _ (Nat.le_trans e.norm_le_row e.row_le_step)
    _ ≤ l.blocks * (l.batchTotal * l.imageStep * u) :=
        Nat.mul_le_mul_left _ (Nat.le_mul_of_pos_right _ hu)

end Blocking.Element

theorem isNat_ofNat {n : ℕ} (h : n < 2 ^ 31) : (Int32.ofNat n).IsNat n := Int32.toInt_ofNat_of_lt h

namespace OutputTensor

variable {K : Type} {tensor : OutputTensor K} {l : Blocking} {t : ℕ → ℕ → ℕ → ℕ → K}

theorem Stores.elementAt_eq (h : tensor.Stores l t) (e : l.Element) :
    tensor.elementAt l.batchTotal e.batch e.h e.w e.c = t e.batch e.h e.w e.c := by
  have hu : 0 < 4 := h.describes.unit_pos
  have hfits := h.fits
  -- all numbers are smaller than the tensor
  have htotal := e.batchTotal_le_bytes hu
  have hbatch := e.batch_lt
  have hindex := e.index_lt_bytes hu
  have hh := e.h_le_index
  have hw := e.w_le_index
  have hc := e.c_lt_bytes hu
  have hplace := artosynNpuGetEntryIndex_isNat h.describes hfits e
    (isNat_ofNat (show e.batch < 2 ^ 31 by omega))
    (isNat_ofNat (show l.batchTotal < 2 ^ 31 by omega)) (isNat_ofNat (show e.h < 2 ^ 31 by omega))
    (isNat_ofNat (show e.w < 2 ^ 31 by omega)) (isNat_ofNat (show e.c < 2 ^ 31 by omega))
    (isNat_ofNat (show 4 < 2 ^ 31 by omega))
  rw [elementAt, ← h.value e, ← hplace]
  rfl

/-- The same, for a place inside of the sizes that the code reads. -/
theorem Stores.elementAt_of_lt (h : tensor.Stores l t) {batchTotal batch y x c : ℕ}
    (hl : l.batchTotal = batchTotal) (hbatch : batch < batchTotal) (hy : y < tensor.height)
    (hx : x < tensor.width) (hc : c < tensor.channels) :
    tensor.elementAt batchTotal batch y x c = t batch y x c := by
  subst hl
  exact h.elementAt_eq ⟨batch, y, x, c, hbatch, h.height_eq ▸ hy, h.width_eq ▸ hx,
    hc.trans_le h.channels_le⟩

end OutputTensor

end Xengine

namespace Detect

open Calculator Xengine

/-! ### The detector -/

section Code

variable {K : Type} [Field K]

/-- What `Init` writes to `grid_anchor`. -/
def artosynGridAnchor (gridH gridW : ℕ) : List (GridAnchor K) :=
  (List.range gridH).flatMap fun i =>
    (List.range gridW).map fun j => ⟨-1 / 2 + j, -1 / 2 + i, 31, 68⟩

/-- The members that `Init` sets, and the output tensors after a run of the network. -/
structure ArtosynHandDetectNetv2 (K : Type) where
  mBatch : ℕ
  /-- The blob `"images"`. -/
  imagesHeight : ℕ
  imagesWidth : ℕ
  /-- The first blob. -/
  blobHeight : ℕ
  blobWidth : ℕ
  outputBox : OutputTensor K
  outputCls : OutputTensor K
  /-- What lies behind the end of `grid_anchor`. -/
  behindGridAnchor : ℕ → GridAnchor K

namespace ArtosynHandDetectNetv2

variable (net : ArtosynHandDetectNetv2 K)

/-- The columns of the grid, as `Init` chooses them by the shape of the input. -/
def gridW : ℕ := if net.imagesWidth < net.imagesHeight then 12 else 16

/-- The rows of the grid. -/
def gridH : ℕ := if net.imagesWidth < net.imagesHeight then 16 else 12

/-- An anchor of the grid; an index behind it reads what lies in the memory there. -/
def gridAnchor (i : ℕ) : GridAnchor K :=
  ((artosynGridAnchor net.gridH net.gridW)[i]?).getD (net.behindGridAnchor i)

variable [LinearOrder K]

/-- What the code makes of the values of a cell. -/
def cellRect (coord cls : ℕ → K) (p : ℕ × ℕ) : Option (DetectRect K) :=
  let score := cls 0
  let isLeft := decide (cls 2 * score < cls 1 * score)
  if scoreThreshold < score then
    some (toRect (net.gridAnchor (p.1 * net.outputBox.width + p.2)) coord score (cls 1) (cls 2)
      isLeft)
  else none

/-- What one cell adds to `tmp_result`. -/
def candidate (batchI : ℕ) (p : ℕ × ℕ) : Option (DetectRect K) :=
  net.cellRect (net.outputBox.elementAt net.mBatch batchI p.1 p.2)
    (net.outputCls.elementAt net.mBatch batchI p.1 p.2) p

/-- The boxes of one image before `nms`. -/
def tmpResult (batchI : ℕ) : List (DetectRect K) :=
  (cells net.outputCls.height net.outputCls.width).filterMap (net.candidate batchI)

variable [FloorRing K]

/-- `PostProcess`: the candidates of each image of the batch, suppressed and scaled back to the
image. -/
def postProcess (originImgHeight originImgWidth : ℕ) (result : List (Hands K)) :
    List (Hands K) :=
  let s := scaling net.blobHeight net.blobWidth originImgHeight originImgWidth
  (List.range net.mBatch).foldl
    (fun result batchI =>
      result.modify batchI fun hands => pushRects s hands (net.tmpResult batchI))
    (resize net.mBatch result)

end ArtosynHandDetectNetv2

end Code

/-! ### The boxes of the values -/

namespace ArtosynHandDetectNetv2

variable {K : Type} [Field K] [LinearOrder K] {net : ArtosynHandDetectNetv2 K}

/-- The tensors hold the boxes and the confidences that the network gives for the cells. -/
structure Holds (net : ArtosynHandDetectNetv2 K) (box cls : ℕ → ℕ → ℕ → ℕ → K) : Prop where
  box : ∃ l : Blocking, l.batchTotal = net.mBatch ∧ net.outputBox.Stores l box
  cls : ∃ l : Blocking, l.batchTotal = net.mBatch ∧ net.outputCls.Stores l cls
  four_le : 4 ≤ net.outputBox.channels
  three_le : 3 ≤ net.outputCls.channels
  height_le : net.outputCls.height ≤ net.outputBox.height
  width_le : net.outputCls.width ≤ net.outputBox.width

variable {box cls : ℕ → ℕ → ℕ → ℕ → K}

theorem cellRect_congr {coord coord' cls cls' : ℕ → K} (hcoord : ∀ i < 4, coord i = coord' i)
    (hcls : ∀ i < 3, cls i = cls' i) (p : ℕ × ℕ) :
    net.cellRect coord cls p = net.cellRect coord' cls' p := by
  simp only [cellRect, hcls 0 (by omega), hcls 1 (by omega), hcls 2 (by omega),
    toRect_congr hcoord]

theorem Holds.tmpResult_eq (h : net.Holds box cls) {b : ℕ} (hb : b < net.mBatch) :
    net.tmpResult b = (cells net.outputCls.height net.outputCls.width).filterMap fun p =>
      net.cellRect (box b p.1 p.2) (cls b p.1 p.2) p := by
  obtain ⟨lbox, hlbox, hbox⟩ := h.box
  obtain ⟨lcls, hlcls, hcls⟩ := h.cls
  refine List.filterMap_congr fun p hp => ?_
  obtain ⟨hy, hx⟩ := mem_cells.mp hp
  refine cellRect_congr (fun i hi => ?_) (fun i hi => ?_) p
  · exact hbox.elementAt_of_lt hlbox hb (hy.trans_le h.height_le) (hx.trans_le h.width_le)
      (hi.trans_le h.four_le)
  · exact hcls.elementAt_of_lt hlcls hb hy hx (hi.trans_le h.three_le)

theorem nmsSuppressed_of_mem_tmpResult {batchI : ℕ} {r : DetectRect K}
    (hr : r ∈ net.tmpResult batchI) : r.nmsSuppressed = false := by
  obtain ⟨p, -, hp⟩ := List.mem_filterMap.mp hr
  obtain ⟨-, hp⟩ := Option.ite_none_right_eq_some.mp hp
  exact Option.some.inj hp ▸ rfl

variable [FloorRing K] [IsStrictOrderedRing K]

theorem postProcess_eq (originImgHeight originImgWidth : ℕ) (result : List (Hands K)) :
    net.postProcess originImgHeight originImgWidth result =
      (List.range net.mBatch).map fun b hand =>
        if (result.getD b fun _ => []) hand = [] then
          ((leading hand (net.tmpResult b)).map (scaleCoords
            (scaling net.blobHeight net.blobWidth originImgHeight originImgWidth))).toList
        else (result.getD b fun _ => []) hand := by
  unfold postProcess resize
  rw [foldl_modify_map_range]
  exact List.map_congr_left fun b _ => funext fun hand =>
    pushRects_eq (fun _ => nmsSuppressed_of_mem_tmpResult) _ hand

/-- **The boxes do not depend on the blocks.**  In each image, a hand that has no box yet gets the
one of its most confident cell. -/
theorem postProcess_stored (h : net.Holds box cls) (originImgHeight originImgWidth : ℕ)
    (result : List (Hands K)) :
    net.postProcess originImgHeight originImgWidth result =
      (List.range net.mBatch).map fun b hand =>
        if (result.getD b fun _ => []) hand = [] then
          ((leading hand ((cells net.outputCls.height net.outputCls.width).filterMap fun p =>
            net.cellRect (box b p.1 p.2) (cls b p.1 p.2) p)).map (scaleCoords
              (scaling net.blobHeight net.blobWidth originImgHeight originImgWidth))).toList
        else (result.getD b fun _ => []) hand := by
  rw [postProcess_eq]
  refine List.map_congr_left fun b hb => funext fun hand => ?_
  rw [h.tmpResult_eq (List.mem_range.mp hb)]

/-- Two cells with four channels, in blocks of three. -/
def fourChannels : Blocking := ⟨1, 1, 2, 1, 3, 1, 6, 6, by decide, by decide, by decide, by decide⟩

/-- Two cells with three channels, in blocks of two. -/
def threeChannels : Blocking := ⟨1, 1, 2, 1, 2, 1, 4, 4, by decide, by decide, by decide, by decide⟩

/-- The second cell has a confidence of 2/3. -/
def twoCells : ArtosynHandDetectNetv2 ℚ where
  mBatch := 1
  imagesHeight := 480
  imagesWidth := 640
  blobHeight := 480
  blobWidth := 640
  outputBox := ⟨⟨24, 1, 1, 3, 24⟩, 4, 1, 2, fun i => i / 8⟩
  outputCls := ⟨⟨16, 1, 1, 2, 16⟩, 3, 1, 2, fun i => i / 3⟩
  behindGridAnchor _ := ⟨0, 0, 0, 0⟩

theorem holds_twoCells :
    twoCells.Holds (OutputTensor.valuesIn fourChannels fun i => i / 8)
      (OutputTensor.valuesIn threeChannels fun i => i / 3) where
  box := ⟨fourChannels, rfl, by constructor <;> decide, by decide, by decide, by decide, by decide,
    fun _ => rfl⟩
  cls := ⟨threeChannels, rfl, by constructor <;> decide, by decide, by decide, by decide,
    by decide, fun _ => rfl⟩
  four_le := by decide
  three_le := by decide
  height_le := by decide
  width_le := by decide

theorem postProcess_stored_twoCells :
    twoCells.postProcess 480 640 [] =
      (List.range 1).map fun b hand =>
        if (([] : List (Hands ℚ)).getD b fun _ => []) hand = [] then
          ((leading hand ((cells 1 2).filterMap fun p =>
            twoCells.cellRect (OutputTensor.valuesIn fourChannels (fun i => i / 8) b p.1 p.2)
              (OutputTensor.valuesIn threeChannels (fun i => i / 3) b p.1 p.2) p)).map
                (scaleCoords (scaling 480 640 480 640))).toList
        else (([] : List (Hands ℚ)).getD b fun _ => []) hand :=
  postProcess_stored holds_twoCells 480 640 []

end ArtosynHandDetectNetv2

end Detect

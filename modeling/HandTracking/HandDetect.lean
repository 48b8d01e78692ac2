/-
The detectors `HandDetectNet` and `HandDetectNetv2`: how boxes come out of the output tensors.

A cell of the output grid with enough confidence gives a box.  The boxes are sorted by
confidence, a box that overlaps a better one of the same hand is suppressed, and for each hand
the first that is left is scaled to the image.

* `HandDetectNet.candidate`, `HandDetectNetv2.candidate` — the box of a cell;
* `nms`, `pushRects` — the boxes of an image;
* `pushRects_eq` — all that comes of it: the most confident box of a hand;
* `Leads` — the same, said of the cells.
-/
import Mathlib.Algebra.Order.Floor.Ring
import HandTracking.HandLandmark
import HandTracking.Library.FirstBest
import HandTracking.Library.MixedRadix
import HandTracking.Library.Numerals

namespace Detect

open Calculator

/-- The two layouts of a tensor. -/
inductive TensorFormat where
  | chw
  | hwc
  deriving DecidableEq, Repr

namespace TensorFormat

/-- The number of channels, from the dimensions in the order of the layout. -/
def channels : TensorFormat → (Fin 3 → ℕ) → ℕ
  | chw, mDims => mDims 0
  | hwc, mDims => mDims 2

/-- The number of rows. -/
def height : TensorFormat → (Fin 3 → ℕ) → ℕ
  | chw, mDims => mDims 1
  | hwc, mDims => mDims 0

/-- The number of columns. -/
def width : TensorFormat → (Fin 3 → ℕ) → ℕ
  | chw, mDims => mDims 2
  | hwc, mDims => mDims 1

end TensorFormat

/-- The memory of a tensor has `mBatch` times the elements of `mDims`, one after the other. -/
structure IoTensors where
  mBatch : ℕ
  mMultishapeNum : ℕ
  mDims : ℕ → Fin 3 → ℕ

/-- `GridAnchor`: a cell of the grid and the size of its boxes. -/
structure GridAnchor (K : Type) where
  gridX : K
  gridY : K
  anchorRw : K
  anchorRh : K

/-- The box of a detector, with all its members. -/
structure DetectRect (K : Type) extends Landmark.DetectRect K where
  confidence : K
  leftConfidence : K
  rightConfidence : K
  isLeft : Bool
  nmsSuppressed : Bool

/-- One element of `images_lhand_rects` and the element of `images_rhand_rects` beside it. -/
abbrev Hands (K : Type) := Hand → List (DetectRect K)

/-- The pixels from one cell to the next. -/
def gridStride : ℕ := 16

/-- `FEATURE_NUM` -/
def featureNum : ℕ := 7

section Code

variable {K : Type} [Field K] [LinearOrder K]

/-- The threshold for the scores. -/
def scoreThreshold : K := 1 / 2

/-- The threshold for the overlap. -/
def iouThreshold : K := 9 / 20

/-- What `Init` writes to `grid_anchor`. -/
def initGridAnchor (gridH gridW : ℕ) : List (GridAnchor K) :=
  (List.range gridH).flatMap fun i =>
    (List.range gridW).map fun j => ⟨-1 / 2 + j, -1 / 2 + i, 33, 30⟩

/-- The members that `Init` sets. -/
structure HandDetectNet (K : Type) where
  itensorFormat : TensorFormat
  otensorFormat : TensorFormat
  itensor : IoTensors
  otensor : IoTensors
  netBatch1 : Bool
  sessionBatch : ℕ
  /-- What lies behind the end of `grid_anchor`. -/
  behindGridAnchor : ℕ → GridAnchor K

namespace HandDetectNet

variable (net : HandDetectNet K)

/-- The rows of the grid, as `Init` computes them. -/
def gridH : ℕ := net.itensorFormat.height (net.itensor.mDims 0) / gridStride

/-- The columns of the grid. -/
def gridW : ℕ := net.itensorFormat.width (net.itensor.mDims 0) / gridStride

/-- An anchor of the grid; an index behind it reads what lies in the memory there. -/
def gridAnchor (i : ℕ) : GridAnchor K :=
  ((initGridAnchor net.gridH net.gridW)[i]?).getD (net.behindGridAnchor i)

end HandDetectNet

/-! ### The box of a cell -/

/-- Where the element of channel `ch` of a cell lies. -/
def cellIdx (format : TensorFormat) (mDims : Fin 3 → ℕ) (idxI idxJ ch : ℕ) : ℕ :=
  match format with
  | .hwc => idxI * format.width mDims * format.channels mDims + idxJ * format.channels mDims + ch
  | .chw => ch * format.height mDims * format.width mDims + idxI * format.width mDims + idxJ

/-- The rectangle of a cell, in the pixels of the input tensor. -/
def toRect (anchor : GridAnchor K) (coord : ℕ → K) (confidence leftConfidence rightConfidence : K)
    (isLeft : Bool) : DetectRect K :=
  let w := (coord 2 * 2) ^ 2 * anchor.anchorRw
  let h := (coord 3 * 2) ^ 2 * anchor.anchorRh
  { x := (coord 0 * 2 + anchor.gridX) * gridStride - w / 2
    y := (coord 1 * 2 + anchor.gridY) * gridStride - h / 2
    w, h, confidence, leftConfidence, rightConfidence, isLeft
    nmsSuppressed := false }

/-- What one cell adds to `tmp_result`: a box, or nothing. -/
def HandDetectNet.candidate (net : HandDetectNet K) (mDims : Fin 3 → ℕ) (data : ℕ → K)
    (p : ℕ × ℕ) : Option (DetectRect K) :=
  let val := fun ch => data (cellIdx net.otensorFormat mDims p.1 p.2 ch)
  let score := val 4
  let isLeft := decide (val 6 * score < val 5 * score)
  if scoreThreshold < score then
    some (toRect (net.gridAnchor (p.1 * net.otensorFormat.width mDims + p.2)) val score (val 5)
      (val 6) isLeft)
  else none

/-- `HandDetectNetv2` has two output tensors. -/
structure HandDetectNetv2 (K : Type) extends HandDetectNet K where
  /-- `GetOutputTensorIndex("output_box")` -/
  indexBox : ℕ
  /-- `GetOutputTensorIndex("output_cls")` -/
  indexCls : ℕ

/-- The channel where `PostProcess` looks for the confidence; left and right come after it. -/
def TensorFormat.clsChannel : TensorFormat → ℕ
  | hwc => 0
  | chw => 1

/-- A cell with the given confidences and the given box. -/
def candidateOf (anchor : GridAnchor K) (coord : ℕ → K) (objScore clsLeft clsRight : K) :
    Option (DetectRect K) :=
  let leftScore := clsLeft * objScore
  let rightScore := clsRight * objScore
  let isLeft := decide (rightScore < leftScore)
  let score := if isLeft then leftScore else rightScore
  if scoreThreshold < score then some (toRect anchor coord score clsLeft clsRight isLeft) else none

/-- The candidate of a cell, from the two output tensors. -/
def HandDetectNetv2.candidate (net : HandDetectNetv2 K) (boxDims clsDims : Fin 3 → ℕ)
    (boxData clsData : ℕ → K) (p : ℕ × ℕ) : Option (DetectRect K) :=
  let cls := fun k =>
    clsData (cellIdx net.otensorFormat clsDims p.1 p.2 (net.otensorFormat.clsChannel + k))
  candidateOf (net.gridAnchor (p.1 * net.otensorFormat.width boxDims + p.2))
    (fun i => boxData (cellIdx net.otensorFormat boxDims p.1 p.2 i)) (cls 0) (cls 1) (cls 2)

/-! ### The boxes of an image -/

/-- The overlap of two boxes of one hand; boxes of different hands never overlap. -/
def getIouExt (a b : DetectRect K) : K :=
  if a.isLeft ≠ b.isLeft then -1 / 10
  else if b.x + b.w < a.x then 0
  else if b.y + b.h < a.y then 0
  else if a.x + a.w < b.x then 0
  else if a.y + a.h < b.y then 0
  else
    let colInt := min (a.x + a.w) (b.x + b.w) - max a.x b.x
    let rowInt := min (a.y + a.h) (b.y + b.h) - max a.y b.y
    let intersection := colInt * rowInt
    let area1 := a.w * a.h
    let area2 := b.w * b.h
    intersection / (area1 + area2 - intersection)

/-- What the inner loop of `nms` does to `boxb`. -/
def suppress (th : K) (boxa boxb : DetectRect K) : DetectRect K :=
  if boxb.nmsSuppressed then boxb
  else if th < getIouExt boxa boxb then { boxb with nmsSuppressed := true }
  else boxb

/-- One round of the outer loop of `nms`, for the boxes behind `boxa`. -/
def suppressAll (th : K) (boxa : DetectRect K) (rect : List (DetectRect K)) :
    List (DetectRect K) :=
  if boxa.nmsSuppressed then rect else rect.map (suppress th boxa)

theorem length_suppressAll (th : K) (boxa : DetectRect K) (rect : List (DetectRect K)) :
    (suppressAll th boxa rect).length = rect.length := by
  unfold suppressAll
  split
  · rfl
  · exact List.length_map _

/-- The outer loop of `nms`. -/
def nmsLoop (th : K) : List (DetectRect K) → List (DetectRect K)
  | [] => []
  | boxa :: rect => boxa :: nmsLoop th (suppressAll th boxa rect)
termination_by rect => rect.length
decreasing_by rw [length_suppressAll]; exact Nat.lt_succ_self _

/-- `nms`, for the threshold `th` -/
def nms (rect : List (DetectRect K)) (th : K) : List (DetectRect K) :=
  nmsLoop th (rect.insertionSort fun a b => b.confidence ≤ a.confidence)

/-- `std::round`: halves go away from zero. -/
def round [FloorRing K] (x : K) : K :=
  if 0 ≤ x then (⌊x + 1 / 2⌋ : K) else -(⌊-x + 1 / 2⌋ : K)

/-- How an image lies in the input tensor. -/
structure Scaling (K : Type) where
  minRatio : K
  padx : K
  pady : K

/-- The ratio and the padding, for an image of the given size. -/
def scaling (height width originImgHeight originImgWidth : ℕ) : Scaling K :=
  let minRatio := min ((width : K) / originImgWidth) ((height : K) / originImgHeight)
  { minRatio
    padx := (width - originImgWidth * minRatio) / 2
    pady := (height - originImgHeight * minRatio) / 2 }

/-- A rectangle in the pixels of the image. -/
def scaleCoords [FloorRing K] (s : Scaling K) (iter : DetectRect K) : DetectRect K :=
  { iter with
    x := round ((iter.x - s.padx) / s.minRatio)
    y := round ((iter.y - s.pady) / s.minRatio)
    w := round (iter.w / s.minRatio)
    h := round (iter.h / s.minRatio) }

/-- One round of the last loop of `PostProcess`. -/
def pushRect [FloorRing K] (s : Scaling K) (hands : Hands K) (iter : DetectRect K) : Hands K :=
  if iter.nmsSuppressed then hands
  else
    let iter := scaleCoords s iter
    if iter.isLeft = true ∧ (hands .left).length = 0 then
      Function.update hands .left (hands .left ++ [iter])
    else if iter.isLeft = false ∧ (hands .right).length = 0 then
      Function.update hands .right (hands .right ++ [iter])
    else hands

/-- The boxes that `nms` leaves, appended to those of their hands. -/
def pushRects [FloorRing K] (s : Scaling K) (hands : Hands K) (tmpResult : List (DetectRect K)) :
    Hands K :=
  (nms tmpResult iouThreshold).foldl (pushRect s) hands

/-- The cells, row by row. -/
def cells (h w : ℕ) : List (ℕ × ℕ) :=
  (List.range h).flatMap fun idxI => (List.range w).map fun idxJ => (idxI, idxJ)

/-- `resize` of the two vectors. -/
def resize (n : ℕ) (result : List (Hands K)) : List (Hands K) :=
  (List.range n).map fun i => result.getD i fun _ => []

/-! ### `PostProcess` -/

variable [FloorRing K]

namespace HandDetectNet

variable (net : HandDetectNet K) (originImgHeight originImgWidth : ℕ) (mem : ℕ → ℕ → K)

/-- The size of the network input as read for the output tensor `multiI`. -/
def scaling (multiI : ℕ) : Scaling K :=
  Detect.scaling (net.itensorFormat.height (net.itensor.mDims multiI))
    (net.itensorFormat.width (net.itensor.mDims multiI)) originImgHeight originImgWidth

/-- The boxes of one image in one output tensor, before `nms`. -/
def tmpResult (multiI batchI : ℕ) : List (DetectRect K) :=
  let mDims := net.otensor.mDims multiI
  let c := net.otensorFormat.channels mDims
  let h := net.otensorFormat.height mDims
  let w := net.otensorFormat.width mDims
  (cells h w).filterMap (net.candidate mDims fun i => mem multiI (batchI * h * w * c + i))

/-- One image in one output tensor. -/
def postTensor (multiI batchI : ℕ) (hands : Hands K) : Hands K :=
  let mDims := net.otensor.mDims multiI
  let c := net.otensorFormat.channels mDims
  let h := net.otensorFormat.height mDims
  let w := net.otensorFormat.width mDims
  if c ≠ featureNum ∨ h ≠ net.gridH ∨ w ≠ net.gridW then hands
  else
    pushRects (net.scaling originImgHeight originImgWidth multiI) hands
      (net.tmpResult mem multiI batchI)

/-- `PostProcess`: the candidates of each tensor and image, after `nms`. -/
def postProcess (result : List (Hands K)) : List (Hands K) :=
  (List.range net.otensor.mMultishapeNum).foldl
    (fun result multiI =>
      (List.range net.otensor.mBatch).foldl
        (fun result batchI =>
          result.modify batchI
            (net.postTensor originImgHeight originImgWidth mem multiI batchI))
        result)
    (resize net.otensor.mBatch result)

/-- `PostProcessSingle`: the tensors of one run, for its image. -/
def postProcessSingle (result : List (Hands K)) (batchn : ℕ) : List (Hands K) :=
  (List.range net.otensor.mMultishapeNum).foldl
    (fun result multiI =>
      result.modify batchn (net.postTensor originImgHeight originImgWidth mem multiI 0))
    result

end HandDetectNet

namespace HandDetectNetv2

variable (net : HandDetectNetv2 K) (originImgHeight originImgWidth : ℕ) (mem : ℕ → ℕ → K)

/-- The cells of one image. -/
def cell (batchI : ℕ) : ℕ × ℕ → Option (DetectRect K) :=
  let boxDims := net.otensor.mDims net.indexBox
  let clsDims := net.otensor.mDims net.indexCls
  let boxMem := batchI * net.otensorFormat.height boxDims * net.otensorFormat.width boxDims *
    net.otensorFormat.channels boxDims
  let clsMem := batchI * net.otensorFormat.height clsDims * net.otensorFormat.width clsDims *
    net.otensorFormat.channels clsDims
  net.candidate boxDims clsDims (fun i => mem net.indexBox (boxMem + i))
    fun i => mem net.indexCls (clsMem + i)

/-- The boxes of one image before `nms`. -/
def tmpResult (batchI : ℕ) : List (DetectRect K) :=
  let clsDims := net.otensor.mDims net.indexCls
  (cells (net.otensorFormat.height clsDims) (net.otensorFormat.width clsDims)).filterMap
    (net.cell mem batchI)

/-- The rectangles of one image of the batch. -/
def postTensor (batchI : ℕ) (hands : Hands K) : Hands K :=
  pushRects (net.scaling originImgHeight originImgWidth 0) hands (net.tmpResult mem batchI)

/-- `PostProcess` of `HandDetectNetv2`, with one list for each image of the batch. -/
def postProcess (result : List (Hands K)) : List (Hands K) :=
  (List.range net.otensor.mBatch).foldl
    (fun result batchI =>
      result.modify batchI (net.postTensor originImgHeight originImgWidth mem batchI))
    (resize net.otensor.mBatch result)

end HandDetectNetv2

end Code

/-! ### What the suppression leaves

The first box of a hand in the sorted list is never suppressed: only boxes of the other hand
stand before it. -/

section Nms

variable {K : Type}

/-- The hand of a rectangle. -/
def DetectRect.hand (r : DetectRect K) : Hand := if r.isLeft then .left else .right

theorem hand_eq_iff {r r' : DetectRect K} : r.hand = r'.hand ↔ r.isLeft = r'.isLeft := by
  unfold DetectRect.hand
  cases r.isLeft <;> cases r'.isLeft <;> simp

variable [Field K] [LinearOrder K]

@[simp] theorem suppress_hand (th : K) (a b : DetectRect K) :
    (suppress th a b).hand = b.hand := by
  unfold suppress
  split
  · rfl
  · split <;> rfl

section

-- `-0.1` stands for the overlap of boxes of different hands
variable {th : K} (hth : -1 / 10 ≤ th)
include hth

/-- A box of the other hand stays as it is. -/
theorem suppress_of_hand_ne {a b : DetectRect K} (h : a.hand ≠ b.hand) :
    suppress th a b = b := by
  have hside : a.isLeft ≠ b.isLeft := fun heq => h (hand_eq_iff.mpr heq)
  unfold suppress getIouExt
  rw [if_pos hside, if_neg (not_lt.mpr hth), ite_self]

theorem find?_suppressAll {a : DetectRect K} {hand : Hand} (h : a.hand ≠ hand)
    (rect : List (DetectRect K)) :
    (suppressAll th a rect).find? (·.hand = hand) = rect.find? (·.hand = hand) := by
  unfold suppressAll
  split
  · rfl
  · induction rect with
    | nil => rfl
    | cons b rect ih =>
      rw [List.map_cons, List.find?_cons, List.find?_cons, ih, suppress_hand]
      by_cases hb : b.hand = hand
      · rw [suppress_of_hand_ne hth fun heq => h (heq.trans hb)]
      · simp [hb]

theorem find?_nmsLoop (hand : Hand) (rect : List (DetectRect K))
    (h : ∀ r ∈ rect.find? (·.hand = hand), r.nmsSuppressed = false) :
    (nmsLoop th rect).find? (fun r => r.nmsSuppressed = false ∧ r.hand = hand) =
      rect.find? (·.hand = hand) := by
  induction rect using nmsLoop.induct th with
  | case1 => rw [nmsLoop]; rfl
  | case2 boxa rect ih =>
    rw [nmsLoop, List.find?_cons, List.find?_cons]
    by_cases hb : boxa.hand = hand
    · have hfree : boxa.nmsSuppressed = false := h boxa (by simp [hb])
      simp [hb, hfree]
    · have hrest := find?_suppressAll hth hb rect
      simp only [hb, and_false, decide_false]
      rw [ih, hrest]
      intro r hr
      rw [hrest] at hr
      exact h r (by simpa [hb] using hr)

end

variable [IsStrictOrderedRing K]

theorem neg_tenth_le_iouThreshold : (-1 / 10 : K) ≤ iouThreshold := by
  unfold iouThreshold
  norm_num

/-- The most confident box of a hand, the first one if there are several. -/
def leading (hand : Hand) (tmpResult : List (DetectRect K)) : Option (DetectRect K) :=
  (tmpResult.filter (·.hand = hand)).argmax (·.confidence)

theorem find?_nms (hand : Hand) {tmpResult : List (DetectRect K)}
    (h : ∀ r ∈ tmpResult, r.nmsSuppressed = false) :
    (nms tmpResult iouThreshold).find? (fun r => r.nmsSuppressed = false ∧ r.hand = hand) =
      leading hand tmpResult := by
  have hsort := List.find?_insertionSort (fun r : DetectRect K => r.confidence) (·.hand = hand)
    tmpResult
  rw [nms, find?_nmsLoop neg_tenth_le_iouThreshold, hsort]
  · rfl
  · intro r hr
    rw [hsort] at hr
    exact h r (List.mem_filter.mp (List.argmax_mem hr)).1

end Nms

/-! ### The first box of each hand is pushed -/

section Push

variable {K : Type} [Field K] [LinearOrder K] [FloorRing K] {s : Scaling K}

variable [IsStrictOrderedRing K] in
theorem abs_round_sub_le (x : K) : |round x - x| ≤ 1 / 2 := by
  unfold round
  rw [abs_le]
  split
  · have hle := Int.floor_le (x + 1 / 2)
    have hlt := Int.lt_floor_add_one (x + 1 / 2)
    constructor <;> linarith
  · have hle := Int.floor_le (-x + 1 / 2)
    have hlt := Int.lt_floor_add_one (-x + 1 / 2)
    constructor <;> linarith

variable [IsStrictOrderedRing K] in
theorem round_ne_of_lt {x y : K} (h : 1 < |x - y|) : round x ≠ round y := by
  intro heq
  have hx := abs_le.mp (abs_round_sub_le x)
  have hy := abs_le.mp (abs_round_sub_le y)
  rw [heq] at hx
  rcases lt_abs.mp h with h | h <;> linarith

@[simp] theorem scaleCoords_hand (s : Scaling K) (r : DetectRect K) :
    (scaleCoords s r).hand = r.hand := rfl

theorem pushRect_apply (hands : Hands K) (iter : DetectRect K) (hand : Hand) :
    pushRect s hands iter hand =
      if iter.nmsSuppressed = false ∧ iter.hand = hand ∧ hands hand = [] then
        [scaleCoords s iter]
      else hands hand := by
  unfold pushRect DetectRect.hand
  cases hsup : iter.nmsSuppressed with
  | true => simp
  | false =>
    cases hleft : iter.isLeft with
    | true =>
      by_cases hl : hands .left = []
      · cases hand <;> simp [scaleCoords, hleft, hl]
      · cases hand <;> simp [scaleCoords, hleft, hl]
    | false =>
      by_cases hr : hands .right = []
      · cases hand <;> simp [scaleCoords, hleft, hr]
      · cases hand <;> simp [scaleCoords, hleft, hr]

theorem foldl_pushRect (rect : List (DetectRect K)) (hands : Hands K) (hand : Hand) :
    rect.foldl (pushRect s) hands hand =
      if hands hand = [] then
        ((rect.find? fun r => r.nmsSuppressed = false ∧ r.hand = hand).map
          (scaleCoords s)).toList
      else hands hand := by
  induction rect generalizing hands with
  | nil =>
    rw [List.foldl_nil, List.find?_nil]
    split
    · next h => exact h
    · rfl
  | cons iter rect ih =>
    rw [List.foldl_cons, ih, List.find?_cons, pushRect_apply]
    by_cases hempty : hands hand = []
    · by_cases hpush : iter.nmsSuppressed = false ∧ iter.hand = hand
      · simp [hempty, hpush]
      · have hnot : ¬(iter.nmsSuppressed = false ∧ iter.hand = hand ∧ hands hand = []) :=
          fun h => hpush ⟨h.1, h.2.1⟩
        rw [if_neg hnot, if_pos hempty, if_pos hempty]
        simp only [hpush, decide_false]
    · simp [hempty]

variable [IsStrictOrderedRing K]

theorem pushRects_eq {tmpResult : List (DetectRect K)}
    (h : ∀ r ∈ tmpResult, r.nmsSuppressed = false) (hands : Hands K) (hand : Hand) :
    pushRects s hands tmpResult hand =
      if hands hand = [] then ((leading hand tmpResult).map (scaleCoords s)).toList
      else hands hand := by
  rw [pushRects, foldl_pushRect, find?_nms hand h]

end Push

/-! ### The leading cell -/

section Leading

variable {K : Type}

/-- The order of the two loops over the cells. -/
def Before (p q : ℕ × ℕ) : Prop := p.1 < q.1 ∨ p.1 = q.1 ∧ p.2 < q.2

theorem Before.asymm {p q : ℕ × ℕ} (h : Before p q) : ¬Before q p := by
  unfold Before at *
  omega

theorem mem_cells {h w : ℕ} {p : ℕ × ℕ} : p ∈ cells h w ↔ p.1 < h ∧ p.2 < w := by
  obtain ⟨y, x⟩ := p
  simp [cells]

theorem pairwise_cells (h w : ℕ) : (cells h w).Pairwise Before := by
  rw [cells, List.pairwise_flatMap]
  constructor
  · intro y _
    rw [List.pairwise_map]
    exact List.pairwise_lt_range.imp fun hlt => .inr ⟨rfl, hlt⟩
  · refine List.pairwise_lt_range.imp fun hlt p hp q hq => ?_
    obtain ⟨x, -, rfl⟩ := List.mem_map.mp hp
    obtain ⟨x', -, rfl⟩ := List.mem_map.mp hq
    exact .inl hlt

variable {h w : ℕ} {cand : ℕ × ℕ → Option (DetectRect K)} {hand : Hand}

/-- The boxes, each with its cell. -/
def withCells (cand : ℕ × ℕ → Option (DetectRect K)) (l : List (ℕ × ℕ)) :
    List ((ℕ × ℕ) × DetectRect K) :=
  l.filterMap fun p => (cand p).map (p, ·)

theorem map_snd_withCells (cand : ℕ × ℕ → Option (DetectRect K)) (l : List (ℕ × ℕ)) :
    (withCells cand l).map Prod.snd = l.filterMap cand := by
  rw [withCells, List.map_filterMap]
  congr 1
  funext p
  cases cand p <;> rfl

theorem mem_withCells {a : (ℕ × ℕ) × DetectRect K} :
    a ∈ withCells cand (cells h w) ↔ (a.1.1 < h ∧ a.1.2 < w) ∧ cand a.1 = some a.2 := by
  obtain ⟨p, r⟩ := a
  rw [withCells, List.mem_filterMap]
  constructor
  · rintro ⟨q, hq, hr⟩
    obtain ⟨r', hr', heq⟩ := Option.map_eq_some_iff.mp hr
    obtain ⟨rfl, rfl⟩ := Prod.ext_iff.mp heq
    exact ⟨mem_cells.mp hq, hr'⟩
  · rintro ⟨hp, hr⟩
    exact ⟨p, mem_cells.mpr hp, by rw [hr]; rfl⟩

theorem pairwise_withCells (h w : ℕ) (cand : ℕ × ℕ → Option (DetectRect K)) :
    (withCells cand (cells h w)).Pairwise fun a b => Before a.1 b.1 := by
  rw [withCells, List.pairwise_filterMap]
  refine (pairwise_cells h w).imp fun hpq a ha b hb => ?_
  obtain ⟨_, _, rfl⟩ := Option.map_eq_some_iff.mp ha
  obtain ⟨_, _, rfl⟩ := Option.map_eq_some_iff.mp hb
  exact hpq

variable [LinearOrder K]

/-- The cell `p` gives the box `r` of the hand, no cell before it one as confident, and no cell
behind it a more confident one. -/
structure Leads (h w : ℕ) (cand : ℕ × ℕ → Option (DetectRect K)) (hand : Hand) (p : ℕ × ℕ)
    (r : DetectRect K) : Prop where
  mem : p.1 < h ∧ p.2 < w
  cand_eq : cand p = some r
  hand_eq : r.hand = hand
  best : ∀ q, q.1 < h ∧ q.2 < w → ∀ r', cand q = some r' → r'.hand = hand →
    r'.confidence ≤ r.confidence ∧ (Before q p → r'.confidence < r.confidence)

/-- No cell gives a box of the hand. -/
def NoLeader (h w : ℕ) (cand : ℕ × ℕ → Option (DetectRect K)) (hand : Hand) : Prop :=
  ∀ p, p.1 < h ∧ p.2 < w → ∀ r, cand p = some r → r.hand ≠ hand

theorem leading_filterMap (hand : Hand) (cand : ℕ × ℕ → Option (DetectRect K))
    (l : List (ℕ × ℕ)) :
    leading hand (l.filterMap cand) =
      (((withCells cand l).filter (·.2.hand = hand)).argmax (·.2.confidence)).map Prod.snd := by
  rw [leading, ← map_snd_withCells, List.filter_map, List.argmax_map]
  rfl

theorem leading_eq_some_iff {r : DetectRect K} :
    leading hand ((cells h w).filterMap cand) = some r ↔ ∃ p, Leads h w cand hand p r := by
  have hpair := (pairwise_withCells h w cand).filter (·.2.hand = hand)
  have hiff := fun m => List.argmax_eq_some_iff_of_pairwise (f := fun a => a.2.confidence) (m := m)
    (fun _ _ => Before.asymm) hpair
  rw [leading_filterMap, Option.map_eq_some_iff]
  constructor
  · rintro ⟨⟨p, r⟩, hr, rfl⟩
    obtain ⟨hmem, hbest⟩ := (hiff _).mp hr
    obtain ⟨hp, hhand⟩ := List.mem_filter.mp hmem
    obtain ⟨hp, hcand⟩ := mem_withCells.mp hp
    refine ⟨p, hp, hcand, of_decide_eq_true hhand, fun q hq r' hr' hhand' => ?_⟩
    exact hbest (q, r') (List.mem_filter.mpr ⟨mem_withCells.mpr ⟨hq, hr'⟩, decide_eq_true hhand'⟩)
  · rintro ⟨p, hp⟩
    refine ⟨(p, r), (hiff _).mpr ⟨?_, fun a ha => ?_⟩, rfl⟩
    · exact List.mem_filter.mpr ⟨mem_withCells.mpr ⟨hp.mem, hp.cand_eq⟩, decide_eq_true hp.hand_eq⟩
    · obtain ⟨ha, hhand⟩ := List.mem_filter.mp ha
      obtain ⟨ha, hcand⟩ := mem_withCells.mp ha
      exact hp.best a.1 ha a.2 hcand (of_decide_eq_true hhand)

theorem leading_eq_none_iff :
    leading hand ((cells h w).filterMap cand) = none ↔ NoLeader h w cand hand := by
  rw [leading, List.argmax_eq_none, List.filter_eq_nil_iff]
  constructor
  · intro hnone p hp r hr hhand
    exact hnone r (List.mem_filterMap.mpr ⟨p, mem_cells.mpr hp, hr⟩) (decide_eq_true hhand)
  · intro hnone r hr hhand
    obtain ⟨p, hp, hcand⟩ := List.mem_filterMap.mp hr
    exact hnone p (mem_cells.mp hp) r hcand (of_decide_eq_true hhand)

variable [Field K] [FloorRing K]

theorem map_eq_map_iff {α β γ : Type} {f : α → γ} {g : β → γ} {a : Option α} {b : Option β} :
    a.map f = b.map g ↔
      a = none ∧ b = none ∨ ∃ x y, a = some x ∧ b = some y ∧ f x = g y := by
  cases a <;> cases b <;> simp

/-- Neither has a box of the hand, or the boxes of the two leading cells are scaled to the
same. -/
def SameLeader (h w : ℕ) (cand : ℕ × ℕ → Option (DetectRect K)) (s : Scaling K)
    (h' w' : ℕ) (cand' : ℕ × ℕ → Option (DetectRect K)) (s' : Scaling K) (hand : Hand) : Prop :=
  NoLeader h w cand hand ∧ NoLeader h' w' cand' hand ∨
    ∃ p r p' r', Leads h w cand hand p r ∧ Leads h' w' cand' hand p' r' ∧
      scaleCoords s r = scaleCoords s' r'

theorem map_leading_eq_iff {s s' : Scaling K} {h' w' : ℕ}
    {cand' : ℕ × ℕ → Option (DetectRect K)} :
    (leading hand ((cells h w).filterMap cand)).map (scaleCoords s) =
        (leading hand ((cells h' w').filterMap cand')).map (scaleCoords s') ↔
      SameLeader h w cand s h' w' cand' s' hand := by
  rw [map_eq_map_iff, leading_eq_none_iff, leading_eq_none_iff]
  refine or_congr_right ⟨?_, ?_⟩
  · rintro ⟨r, r', hr, hr', heq⟩
    obtain ⟨p, hp⟩ := leading_eq_some_iff.mp hr
    obtain ⟨p', hp'⟩ := leading_eq_some_iff.mp hr'
    exact ⟨p, r, p', r', hp, hp', heq⟩
  · rintro ⟨p, r, p', r', hp, hp', heq⟩
    exact ⟨r, r', leading_eq_some_iff.mpr ⟨p, hp⟩, leading_eq_some_iff.mpr ⟨p', hp'⟩, heq⟩

end Leading

/-! ### Image by image -/

section Images

theorem toList_injective {α : Type} : Function.Injective (Option.toList : Option α → List α) :=
  Function.LeftInverse.injective (g := List.head?) fun _ => Option.head?_toList

/-- The elements below `m` are done, and the next one is. -/
theorem modify_map_range {α : Type} (n m : ℕ) (f : α → α) {done todo : ℕ → α}
    (hf : f (todo m) = done m) :
    ((List.range n).map fun b => if b < m then done b else todo b).modify m f =
      (List.range n).map fun b => if b < m + 1 then done b else todo b := by
  refine List.ext_getElem (by simp) fun b hb _ => ?_
  rw [List.getElem_modify, List.getElem_map, List.getElem_map, List.getElem_range]
  rcases lt_trichotomy b m with hlt | rfl | hlt
  · rw [if_neg hlt.ne', if_pos hlt, if_pos (Nat.lt_succ_of_lt hlt)]
  · rw [if_pos rfl, if_neg (lt_irrefl b), if_pos (Nat.lt_succ_self b), hf]
  · rw [if_neg hlt.ne, if_neg (by omega), if_neg (by omega)]

theorem map_range_of_le {α : Type} {n m : ℕ} (h : n ≤ m) (done todo : ℕ → α) :
    ((List.range n).map fun b => if b < m then done b else todo b) = (List.range n).map done :=
  List.map_congr_left fun _ hb => if_pos ((List.mem_range.mp hb).trans_le h)

theorem foldl_modify_map_range {α : Type} (n : ℕ) (f : ℕ → α → α) (g : ℕ → α) :
    (List.range n).foldl (fun l b => l.modify b (f b)) ((List.range n).map g) =
      (List.range n).map fun b => f b (g b) := by
  suffices h : ∀ m ≤ n,
      (List.range m).foldl (fun l b => l.modify b (f b)) ((List.range n).map g) =
        (List.range n).map fun b => if b < m then f b (g b) else g b by
    rw [h n le_rfl, map_range_of_le le_rfl]
  intro m
  induction m with
  | zero => simp
  | succ m ih =>
    intro hm
    rw [List.range_succ, List.foldl_append, ih (Nat.le_of_succ_le hm), List.foldl_cons,
      List.foldl_nil, modify_map_range n m (f m) rfl]

theorem foldl_foldl_modify {α : Type} (m n : ℕ) (f : ℕ → ℕ → α → α) (g : ℕ → α) :
    (List.range m).foldl
        (fun l k => (List.range n).foldl (fun l b => l.modify b (f k b)) l)
        ((List.range n).map g) =
      (List.range n).map fun b => (List.range m).foldl (fun a k => f k b a) (g b) := by
  induction m with
  | zero => rfl
  | succ m ih =>
    rw [List.range_succ, List.foldl_append, ih, List.foldl_cons, List.foldl_nil,
      foldl_modify_map_range]
    exact List.map_congr_left fun b _ => by rw [List.foldl_append, List.foldl_cons, List.foldl_nil]

end Images

/-! ### What `PostProcess` gives -/

section PostProcess

variable {K : Type} [Field K]

/-- Only the first four elements count. -/
theorem toRect_congr {anchor : GridAnchor K} {coord coord' : ℕ → K} {c l r : K} {isLeft : Bool}
    (h : ∀ i < 4, coord i = coord' i) :
    toRect anchor coord c l r isLeft = toRect anchor coord' c l r isLeft := by
  unfold toRect
  rw [h 0 (by omega), h 1 (by omega), h 2 (by omega), h 3 (by omega)]

variable [LinearOrder K]

/-- Only the seven channels of the cell count. -/
theorem HandDetectNet.candidate_congr (net : HandDetectNet K) {mDims : Fin 3 → ℕ}
    {data data' : ℕ → K} {p : ℕ × ℕ}
    (h : ∀ ch < 7, data (cellIdx net.otensorFormat mDims p.1 p.2 ch) =
      data' (cellIdx net.otensorFormat mDims p.1 p.2 ch)) :
    net.candidate mDims data p = net.candidate mDims data' p := by
  simp only [HandDetectNet.candidate, h 4 (by omega), h 5 (by omega), h 6 (by omega),
    toRect_congr fun ch (hch : ch < 4) => h ch (by omega)]

theorem candidateOf_congr {anchor : GridAnchor K} {coord coord' : ℕ → K} {o l r : K}
    (h : ∀ i < 4, coord i = coord' i) :
    candidateOf anchor coord o l r = candidateOf anchor coord' o l r := by
  simp only [candidateOf, toRect_congr h]

theorem HandDetectNet.nmsSuppressed_of_candidate (net : HandDetectNet K) {mDims : Fin 3 → ℕ}
    {data : ℕ → K} {p : ℕ × ℕ} {r : DetectRect K} (h : net.candidate mDims data p = some r) :
    r.nmsSuppressed = false := by
  unfold HandDetectNet.candidate at h
  obtain ⟨-, h⟩ := Option.ite_none_right_eq_some.mp h
  exact Option.some.inj h ▸ rfl

theorem nmsSuppressed_of_candidateOf {anchor : GridAnchor K} {coord : ℕ → K}
    {objScore clsLeft clsRight : K} {r : DetectRect K}
    (h : candidateOf anchor coord objScore clsLeft clsRight = some r) :
    r.nmsSuppressed = false := by
  unfold candidateOf at h
  obtain ⟨-, h⟩ := Option.ite_none_right_eq_some.mp h
  exact Option.some.inj h ▸ rfl

theorem HandDetectNet.nmsSuppressed_of_mem_tmpResult {net : HandDetectNet K} {mem : ℕ → ℕ → K}
    {multiI batchI : ℕ} {r : DetectRect K} (hr : r ∈ net.tmpResult mem multiI batchI) :
    r.nmsSuppressed = false := by
  obtain ⟨p, -, hp⟩ := List.mem_filterMap.mp hr
  exact net.nmsSuppressed_of_candidate hp

theorem HandDetectNetv2.nmsSuppressed_of_mem_tmpResult {net : HandDetectNetv2 K}
    {mem : ℕ → ℕ → K} {batchI : ℕ} {r : DetectRect K} (hr : r ∈ net.tmpResult mem batchI) :
    r.nmsSuppressed = false := by
  obtain ⟨p, -, hp⟩ := List.mem_filterMap.mp hr
  exact nmsSuppressed_of_candidateOf hp

variable [FloorRing K] [IsStrictOrderedRing K]

theorem HandDetectNetv2.postProcess_nil (net : HandDetectNetv2 K)
    (originImgHeight originImgWidth : ℕ) (mem : ℕ → ℕ → K) :
    net.postProcess originImgHeight originImgWidth mem [] =
      (List.range net.otensor.mBatch).map fun b hand =>
        ((leading hand (net.tmpResult mem b)).map
          (scaleCoords (net.scaling originImgHeight originImgWidth 0))).toList := by
  unfold postProcess resize
  rw [foldl_modify_map_range]
  refine List.map_congr_left fun b _ => funext fun hand => ?_
  rw [List.getD_nil, postTensor, pushRects_eq fun _ => nmsSuppressed_of_mem_tmpResult,
    if_pos rfl]

end PostProcess

end Detect

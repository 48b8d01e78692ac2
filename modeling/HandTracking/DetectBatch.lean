/-
One batch of images or one image after the other.

The network is one function of an image, so that both ways see the same output tensors.  The
boxes of a batch are all scaled with the size of its last image; one by one each image has its
own size.  And one by one `HandDetectNetv2` reads its two tensors with the `PostProcessSingle`
of `HandDetectNet`, which looks for a tensor of seven channels.

* `outputMemory` — the output tensors of a batch;
* `FirstLeads` — the leading cell in the first output tensor that has one;
* `HandDetectNet.batch_agree_iff`, `HandDetectNetv2.batch_agree_iff` — when both ways give the
  same boxes.
-/
import HandTracking.DetectInference

namespace Detect

open Calculator

/-- Whole images as slots. -/
def fillImage (_height _width : ℕ) (img _slot : Image) : Image := img

section Code

variable {K : Type}

/-- What `Init` makes of `dont_batch` and the batch of the session. -/
def HandDetectNet.init (net : HandDetectNet K) (dontBatch : Bool) (batch : ℕ) : HandDetectNet K :=
  if dontBatch = true ∧ 1 < batch then
    { net with
      itensor := { net.itensor with mBatch := 1 }
      otensor := { net.otensor with mBatch := 1 }
      sessionBatch := batch
      netBatch1 := true }
  else
    { net with
      itensor := { net.itensor with mBatch := batch }
      otensor := { net.otensor with mBatch := batch }
      netBatch1 := false }

/-- `HandDetectNetv2::Init` -/
def HandDetectNetv2.init (net : HandDetectNetv2 K) (dontBatch : Bool) (batch : ℕ) :
    HandDetectNetv2 K :=
  { net with toHandDetectNet := net.toHandDetectNet.init dontBatch batch }

namespace HandDetectNet

variable (net : HandDetectNet K)

/-- The elements of one image in an output tensor. -/
def outputSize (i : ℕ) : ℕ :=
  net.otensorFormat.height (net.otensor.mDims i) * net.otensorFormat.width (net.otensor.mDims i) *
    net.otensorFormat.channels (net.otensor.mDims i)

variable (network : Image → ℕ → ℕ → K) (behind : ℕ → ℕ → K)

/-- The output tensors after a run on a batch: `network img i` is tensor `i` for the image. -/
def outputMemory (batch : List Image) (i e : ℕ) : K :=
  if net.outputSize i = 0 then behind i e
  else
    match batch[e / net.outputSize i]? with
    | some img => network img i (e % net.outputSize i)
    | none => behind i e

/-- A run that handles each image by itself. -/
def runEach : RunNet Image K := fun slots =>
  (.ok, net.outputMemory network behind ((List.range net.itensor.mBatch).map (slots 0)))

end HandDetectNet

end Code

/-! ### The session -/

section Init

namespace HandDetectNet

variable {K : Type} (net : HandDetectNet K)

theorem init_mMultishapeNum (dontBatch : Bool) (n : ℕ) :
    (net.init dontBatch n).itensor.mMultishapeNum = net.itensor.mMultishapeNum := by
  unfold init
  split
  · rfl
  · rfl

theorem init_netBatch1 {n : ℕ} (hn : 1 < n) : (net.init true n).netBatch1 = true := by
  unfold init
  rw [if_pos ⟨rfl, hn⟩]

/-- A session for at most one image is the same with `dont_batch`. -/
theorem init_of_le {n : ℕ} (hn : n ≤ 1) : net.init true n = net.init false n := by
  unfold init
  rw [if_neg fun h => absurd h.2 (not_lt.mpr hn), if_neg fun h => Bool.false_ne_true h.1]

end HandDetectNet

end Init

/-! ### The output tensors of one image -/

section Cells

variable {K : Type}

theorem cellIdx_lt {format : TensorFormat} {mDims : Fin 3 → ℕ} {y x ch : ℕ}
    (hy : y < format.height mDims) (hx : x < format.width mDims)
    (hch : ch < format.channels mDims) :
    cellIdx format mDims y x ch <
      format.height mDims * format.width mDims * format.channels mDims := by
  cases format with
  | hwc =>
    calc y * TensorFormat.width .hwc mDims * TensorFormat.channels .hwc mDims +
          x * TensorFormat.channels .hwc mDims + ch =
        (y * TensorFormat.width .hwc mDims + x) * TensorFormat.channels .hwc mDims + ch := by ring
      _ < _ := Nat.mul_add_lt_mul (Nat.mul_add_lt_mul hy hx) hch
  | chw =>
    calc ch * TensorFormat.height .chw mDims * TensorFormat.width .chw mDims +
          y * TensorFormat.width .chw mDims + x =
        (ch * TensorFormat.height .chw mDims + y) * TensorFormat.width .chw mDims + x := by ring
      _ < TensorFormat.channels .chw mDims * TensorFormat.height .chw mDims *
          TensorFormat.width .chw mDims := Nat.mul_add_lt_mul (Nat.mul_add_lt_mul hch hy) hx
      _ = _ := by ring

namespace HandDetectNet

variable (net : HandDetectNet K) {network : Image → ℕ → ℕ → K} {behind : ℕ → ℕ → K}
  {batch : List Image}

theorem outputMemory_slot {i b e : ℕ} {img : Image} (he : e < net.outputSize i)
    (hb : batch[b]? = some img) :
    net.outputMemory network behind batch i (b * net.outputSize i + e) = network img i e := by
  unfold outputMemory
  rw [if_neg (by omega), Nat.mul_add_div_of_lt he, Nat.mul_add_mod_of_lt he, hb]

variable [Field K] [LinearOrder K]

/-- The cells of tensor `multiI`, as `PostProcessSingle` reads them. -/
def imageCell (network : Image → ℕ → ℕ → K) (img : Image) (multiI : ℕ) :
    ℕ × ℕ → Option (DetectRect K) :=
  net.candidate (net.otensor.mDims multiI) (network img multiI)

/-- `PostProcess` reads a tensor inside the part of the image. -/
theorem tmpResult_of_slot {mem : ℕ → ℕ → K} {multiI b : ℕ} {data : ℕ → K}
    (hdec : net.decodable multiI)
    (hslot : ∀ e < net.outputSize multiI, mem multiI (b * net.outputSize multiI + e) = data e) :
    net.tmpResult mem multiI b =
      (cells net.gridH net.gridW).filterMap (net.candidate (net.otensor.mDims multiI) data) := by
  obtain ⟨hc, hh, hw⟩ := hdec
  unfold tmpResult
  simp only [hh, hw]
  refine List.filterMap_congr fun p hp => net.candidate_congr fun ch hch => ?_
  have hp := mem_cells.mp hp
  have hlt : cellIdx net.otensorFormat (net.otensor.mDims multiI) p.1 p.2 ch <
      net.outputSize multiI :=
    cellIdx_lt (by omega) (by omega) (by rw [hc]; exact hch)
  have hbase : b * net.gridH * net.gridW * net.otensorFormat.channels (net.otensor.mDims multiI) =
      b * net.outputSize multiI := by
    rw [outputSize, hh, hw]
    ring
  rw [hbase]
  exact hslot _ hlt

theorem tmpResult_outputMemory {multiI b : ℕ} {img : Image} (hdec : net.decodable multiI)
    (hb : batch[b]? = some img) :
    net.tmpResult (net.outputMemory network behind batch) multiI b =
      (cells net.gridH net.gridW).filterMap (net.imageCell network img multiI) :=
  net.tmpResult_of_slot hdec fun _ he => net.outputMemory_slot he hb

/-- The box of a hand in an image, with the tensor it comes from. -/
def imageFound (network : Image → ℕ → ℕ → K) (img : Image) (hand : Hand) (n : ℕ) :
    Option (ℕ × DetectRect K) :=
  (List.range n).findSome? fun multiI =>
    if net.decodable multiI then
      (leading hand ((cells net.gridH net.gridW).filterMap
        (net.imageCell network img multiI))).map (multiI, ·)
    else none

theorem found_outputMemory {b : ℕ} {img : Image} (hb : batch[b]? = some img) (hand : Hand)
    (n : ℕ) :
    net.found (net.outputMemory network behind batch) b hand n =
      net.imageFound network img hand n := by
  unfold found imageFound
  congr 1
  funext multiI
  split
  · next hdec => rw [net.tmpResult_outputMemory hdec hb]
  · rfl

/-- The leading cell of a hand is in tensor `multiI`, and no tensor before has one. -/
structure FirstLeads (network : Image → ℕ → ℕ → K) (img : Image) (hand : Hand) (n multiI : ℕ)
    (r : DetectRect K) : Prop where
  lt : multiI < n
  decodable : net.decodable multiI
  leads : ∃ p, Leads net.gridH net.gridW (net.imageCell network img multiI) hand p r
  first : ∀ m < multiI, net.decodable m →
    NoLeader net.gridH net.gridW (net.imageCell network img m) hand

/-- No tensor has a cell of the hand. -/
def NothingFound (network : Image → ℕ → ℕ → K) (img : Image) (hand : Hand) (n : ℕ) : Prop :=
  ∀ m < n, net.decodable m → NoLeader net.gridH net.gridW (net.imageCell network img m) hand

variable {net} {img : Image} {hand : Hand} {n : ℕ}

theorem imageFound_succ :
    net.imageFound network img hand (n + 1) =
      (net.imageFound network img hand n).or
        (if net.decodable n then
          (leading hand ((cells net.gridH net.gridW).filterMap
            (net.imageCell network img n))).map (n, ·)
        else none) := by
  unfold imageFound
  rw [List.range_succ, List.findSome?_append, List.findSome?_singleton]

theorem imageFound_eq_none_iff :
    net.imageFound network img hand n = none ↔ net.NothingFound network img hand n := by
  induction n with
  | zero => exact ⟨fun _ m hm => absurd hm (Nat.not_lt_zero m), fun _ => rfl⟩
  | succ n ih =>
    rw [imageFound_succ, Option.or_eq_none_iff, ih]
    constructor
    · rintro ⟨hbefore, hn⟩ m hm hdec
      rcases Nat.lt_succ_iff_lt_or_eq.mp hm with hlt | rfl
      · exact hbefore m hlt hdec
      · rw [if_pos hdec, Option.map_eq_none_iff] at hn
        exact leading_eq_none_iff.mp hn
    · intro hnone
      refine ⟨fun m hm => hnone m (Nat.lt_succ_of_lt hm), ?_⟩
      by_cases hdec : net.decodable n
      · rw [if_pos hdec, leading_eq_none_iff.mpr (hnone n (Nat.lt_succ_self n) hdec)]
        rfl
      · exact if_neg hdec

theorem imageFound_eq_some_iff {multiI : ℕ} {r : DetectRect K} :
    net.imageFound network img hand n = some (multiI, r) ↔
      net.FirstLeads network img hand n multiI r := by
  induction n with
  | zero =>
    constructor
    · intro h
      cases h
    · intro h
      exact absurd h.lt (Nat.not_lt_zero multiI)
  | succ n ih =>
    rw [imageFound_succ, Option.or_eq_some_iff, ih, imageFound_eq_none_iff]
    constructor
    · rintro (h | ⟨hnone, hn⟩)
      · exact ⟨Nat.lt_succ_of_lt h.lt, h.decodable, h.leads, h.first⟩
      · obtain ⟨hdec, hn⟩ := Option.ite_none_right_eq_some.mp hn
        obtain ⟨r', hr', heq⟩ := Option.map_eq_some_iff.mp hn
        obtain ⟨rfl, rfl⟩ := Prod.ext_iff.mp heq
        exact ⟨Nat.lt_succ_self n, hdec, leading_eq_some_iff.mp hr', hnone⟩
    · intro h
      rcases Nat.lt_succ_iff_lt_or_eq.mp h.lt with hlt | rfl
      · exact .inl ⟨hlt, h.decodable, h.leads, h.first⟩
      · refine .inr ⟨h.first, ?_⟩
        rw [if_pos h.decodable, leading_eq_some_iff.mpr h.leads]
        rfl

end HandDetectNet

end Cells

/-! ### The batch -/

section Batch

variable {K : Type}

theorem map_range_eq_map {α : Type} {imgs : List Image} {f : ℕ → α} {g : Image → α} :
    (List.range imgs.length).map f = imgs.map g ↔
      ∀ b img, imgs[b]? = some img → f b = g img := by
  constructor
  · intro heq b img hb
    obtain ⟨hlt, rfl⟩ := List.getElem?_eq_some_iff.mp hb
    have hget := congrArg (fun l : List α => l[b]?) heq
    simpa [hlt] using hget
  · intro h
    refine List.ext_getElem (by simp) fun b hb hb' => ?_
    rw [List.length_map] at hb'
    rw [List.getElem_map, List.getElem_range, List.getElem_map]
    exact h b _ (List.getElem?_eq_getElem hb')

namespace HandDetectNet

variable (net : HandDetectNet K) {network : Image → ℕ → ℕ → K} {behind : ℕ → ℕ → K}
  {imgs : List Image} {st : DetState Image}

/-- After `PreProcess` the slots hold the images, and the size is that of the last. -/
theorem preProcess_images (hshape : net.itensor.mMultishapeNum = 1)
    (hn : imgs.length = net.itensor.mBatch) :
    (List.range net.itensor.mBatch).map ((net.preProcess fillImage imgs st).slots 0) = imgs := by
  rw [← hn, (map_range_eq_map (g := id)).mpr fun b img hb =>
      preProcess_slots_zero hshape hn hb,
    List.map_id]

theorem inferBatch_images {last : Image}
    (postProcess : ℕ → ℕ → (ℕ → ℕ → K) → List (Hands K) → List (Hands K))
    (hshape : net.itensor.mMultishapeNum = 1) (hn : imgs.length = net.itensor.mBatch)
    (hlast : imgs.getLast? = some last) :
    (net.inferBatch fillImage imgs postProcess (net.runEach network behind) st []).2.1 =
      postProcess last.rows last.cols (net.outputMemory network behind imgs) [] := by
  unfold inferBatch runEach
  simp only [net.preProcess_images hshape hn, preProcess_origin hshape hn hlast]

variable [Field K] [LinearOrder K] [FloorRing K]

/-- The boxes of an image, scaled to `size`. -/
def imageBoxes (net : HandDetectNet K) (network : Image → ℕ → ℕ → K) (size img : Image) :
    Hands K := fun hand =>
  ((net.imageFound network img hand net.otensor.mMultishapeNum).map
    (net.toImage size.rows size.cols)).toList

/-- The boxes of an image do not depend on the batch. -/
theorem imageBoxes_init (dontBatch : Bool) (n : ℕ) :
    (net.init dontBatch n).imageBoxes network = net.imageBoxes network := by
  unfold init
  split
  · rfl
  · rfl

variable [IsStrictOrderedRing K]

theorem postProcess_outputMemory {last : Image} (hn : imgs.length = net.otensor.mBatch) :
    net.postProcess last.rows last.cols (net.outputMemory network behind imgs) [] =
      imgs.map (net.imageBoxes network last) := by
  rw [postProcess_nil, ← hn]
  refine map_range_eq_map.mpr fun b img hb => funext fun hand => ?_
  unfold boxes imageBoxes
  rw [net.found_outputMemory hb]

/-- One after the other, each image is run and scaled by itself. -/
theorem inferBatch1_images (hshape : net.itensor.mMultishapeNum = 1)
    (hbatch : net.itensor.mBatch = 1) (hn : imgs.length = net.sessionBatch) :
    (net.inferBatch1 fillImage (fun _ => net.runEach network behind) imgs st []).2.1 =
      imgs.map fun img => net.imageBoxes network img img := by
  rw [inferBatch1_eq, ← hn]
  refine map_range_eq_map.mpr fun b img hb => funext fun hand => ?_
  have hpass : net.passState fillImage imgs st (b + 1) =
      net.writeImage fillImage 0 0 img (net.passState fillImage imgs st b) :=
    preProcessSingle_eq hshape hn hb
  have hslots : (List.range net.itensor.mBatch).map
      ((net.passState fillImage imgs st (b + 1)).slots 0) = [img] := by
    rw [hbatch, hpass]
    rfl
  have hfound : net.found (net.outputMemory network behind [img]) 0 hand
      net.otensor.mMultishapeNum = net.imageFound network img hand net.otensor.mMultishapeNum :=
    net.found_outputMemory rfl hand _
  simp only [passBoxes, passRun, runEach, hslots, boxes, imageBoxes, hfound]
  rw [hpass]
  rfl

end HandDetectNet

end Batch

/-! ### Both ways -/

section Agree

variable {K : Type} [Field K] [LinearOrder K] [FloorRing K]

/-- The rectangles of a call, for a session that has as many slots as there are images. -/
def HandDetectNet.rectangles (net : HandDetectNet K) (dontBatch : Bool)
    (network : Image → ℕ → ℕ → K) (behind : ℕ → ℕ → K) (imgs : List Image)
    (st : DetState Image) : List (Hands K) :=
  let session := net.init dontBatch imgs.length
  (session.inference fillImage (fun _ => session.runEach network behind) imgs st []).2.1

/-- The rectangles of one call, for a network that is told the images of its batch. -/
def HandDetectNetv2.rectangles (net : HandDetectNetv2 K) (dontBatch : Bool)
    (network : Image → ℕ → ℕ → K) (behind : ℕ → ℕ → K) (imgs : List Image)
    (st : DetState Image) : List (Hands K) :=
  let session := net.init dontBatch imgs.length
  (session.inference fillImage (fun _ => session.runEach network behind) imgs st []).2.1

variable [IsStrictOrderedRing K] {network : Image → ℕ → ℕ → K} {behind : ℕ → ℕ → K}
  {imgs : List Image} {last : Image}

namespace HandDetectNet

variable {net : HandDetectNet K}

theorem rectangles_batch (hshape : net.itensor.mMultishapeNum = 1)
    (hlast : imgs.getLast? = some last) (st : DetState Image) :
    net.rectangles false network behind imgs st = imgs.map (net.imageBoxes network last) := by
  calc net.rectangles false network behind imgs st =
      (net.init false imgs.length).postProcess last.rows last.cols
        ((net.init false imgs.length).outputMemory network behind imgs) [] :=
      (net.init false imgs.length).inferBatch_images _ (by rw [init_mMultishapeNum, hshape]) rfl
        hlast
    _ = imgs.map ((net.init false imgs.length).imageBoxes network last) :=
      (net.init false imgs.length).postProcess_outputMemory rfl
    _ = imgs.map (net.imageBoxes network last) := by rw [imageBoxes_init]

theorem inferBatch1_init (hshape : net.itensor.mMultishapeNum = 1) (hn : 1 < imgs.length)
    (st : DetState Image) :
    ((net.init true imgs.length).inferBatch1 fillImage
      (fun _ => (net.init true imgs.length).runEach network behind) imgs st []).2.1 =
      imgs.map fun img => net.imageBoxes network img img := by
  have hsession : (net.init true imgs.length).itensor.mBatch = 1 ∧
      (net.init true imgs.length).sessionBatch = imgs.length := by
    unfold init
    rw [if_pos ⟨rfl, hn⟩]
    exact ⟨rfl, rfl⟩
  rw [inferBatch1_images _ (by rw [init_mMultishapeNum, hshape]) hsession.1 hsession.2.symm,
    imageBoxes_init]

theorem rectangles_oneByOne (hshape : net.itensor.mMultishapeNum = 1) (hn : 1 < imgs.length)
    (st : DetState Image) :
    net.rectangles true network behind imgs st =
      imgs.map fun img => net.imageBoxes network img img := by
  unfold rectangles inference
  simp only [net.init_netBatch1 hn, if_true]
  exact inferBatch1_init hshape hn st

theorem rectangles_nil (dontBatch : Bool) (st : DetState Image) :
    net.rectangles dontBatch network behind [] st = [] := by
  have hinit : net.init dontBatch 0 = net.init false 0 := by
    cases dontBatch with
    | false => rfl
    | true => exact net.init_of_le (Nat.zero_le 1)
  unfold rectangles
  rw [List.length_nil, hinit]
  show (net.init false 0).postProcess _ _ _ [] = []
  rw [postProcess_nil]
  rfl

/-- The rectangles of a batch that is scaled with the size of `last`, against one by one. -/
theorem batch_agree_iff (hshape : net.itensor.mMultishapeNum = 1) (st st' : DetState Image) :
    net.rectangles false network behind imgs st = net.rectangles true network behind imgs st' ↔
      ∀ last ∈ imgs.getLast?, ∀ img ∈ imgs, ∀ hand m r,
        net.FirstLeads network img hand net.otensor.mMultishapeNum m r →
          net.toImage last.rows last.cols (m, r) = net.toImage img.rows img.cols (m, r) := by
  cases hlast : imgs.getLast? with
  | none =>
    obtain rfl := List.getLast?_eq_none_iff.mp hlast
    constructor
    · intro _ last h
      cases h
    · intro _
      rw [rectangles_nil, rectangles_nil]
  | some last =>
    have hsame : net.rectangles true network behind imgs st' =
        imgs.map fun img => net.imageBoxes network img img := by
      rcases Nat.lt_or_ge 1 imgs.length with hn | hn
      · exact rectangles_oneByOne hshape hn st'
      · -- a single image is the last one
        obtain ⟨img, rfl⟩ := List.length_eq_one_iff.mp
          (Nat.le_antisymm hn (List.length_pos_of_mem (List.mem_of_getLast? hlast)))
        obtain rfl : img = last := Option.some.inj hlast
        unfold rectangles
        rw [net.init_of_le hn]
        exact rectangles_batch hshape hlast st'
    rw [rectangles_batch hshape hlast, hsame, List.map_inj_left]
    simp only [Option.mem_some_iff, forall_eq']
    refine forall₂_congr fun img _ => ?_
    rw [funext_iff]
    refine forall_congr' fun hand => ?_
    unfold imageBoxes
    rw [toList_injective.eq_iff]
    constructor
    · intro heq m r hr
      rw [imageFound_eq_some_iff.mpr hr] at heq
      exact Option.some.inj heq
    · intro hsize
      cases hfound : net.imageFound network img hand net.otensor.mMultishapeNum with
      | none => rfl
      | some a => exact congrArg some (hsize a.1 a.2 (imageFound_eq_some_iff.mp hfound))

end HandDetectNet

namespace HandDetectNetv2

variable {net : HandDetectNetv2 K}

/-- The cells of image `b` of a batch, and how they are scaled. -/
def batchCell (net : HandDetectNetv2 K) (network : Image → ℕ → ℕ → K) (behind : ℕ → ℕ → K)
    (imgs : List Image) (b : ℕ) : ℕ × ℕ → Option (DetectRect K) :=
  net.cell (net.outputMemory network behind imgs) b

/-- The height of the class tensor. -/
def clsH (net : HandDetectNetv2 K) : ℕ := net.otensorFormat.height (net.otensor.mDims net.indexCls)

/-- The width of the class tensor. -/
def clsW (net : HandDetectNetv2 K) : ℕ := net.otensorFormat.width (net.otensor.mDims net.indexCls)

theorem rectangles_batch (hshape : net.itensor.mMultishapeNum = 1)
    (hlast : imgs.getLast? = some last) (st : DetState Image) :
    net.rectangles false network behind imgs st =
      (List.range imgs.length).map fun b hand =>
        ((leading hand ((cells net.clsH net.clsW).filterMap
          (net.batchCell network behind imgs b))).map
            (fun r => net.toImage last.rows last.cols (0, r))).toList := by
  calc net.rectangles false network behind imgs st =
      (net.init false imgs.length).postProcess last.rows last.cols
        ((net.init false imgs.length).outputMemory network behind imgs) [] :=
      (net.init false imgs.length).inferBatch_images _ (by exact hshape) rfl hlast
    _ = _ := HandDetectNetv2.postProcess_nil _ _ _ _

theorem rectangles_oneByOne (hshape : net.itensor.mMultishapeNum = 1) (hn : 1 < imgs.length)
    (st : DetState Image) :
    net.rectangles true network behind imgs st =
      imgs.map fun img => net.imageBoxes network img img := by
  have hmode : (net.init true imgs.length).netBatch1 = true := net.toHandDetectNet.init_netBatch1 hn
  unfold rectangles inference
  simp only [hmode, if_true]
  exact HandDetectNet.inferBatch1_init hshape hn st

theorem rectangles_nil (st : DetState Image) : net.rectangles false network behind [] st = [] :=
  let session := net.init false 0
  let st := session.preProcess fillImage [] st
  HandDetectNetv2.postProcess_nil session st.originImgHeight st.originImgWidth
    (session.runEach network behind st.slots).2

/-- For at most one image there is no difference. -/
theorem rectangles_of_le (hshape : net.itensor.mMultishapeNum = 1) (hn : imgs.length ≤ 1)
    (st st' : DetState Image) :
    net.rectangles false network behind imgs st = net.rectangles true network behind imgs st' := by
  have hinit : net.init true imgs.length = net.init false imgs.length := by
    unfold init
    rw [net.init_of_le hn]
  have htrue : net.rectangles true network behind imgs st' =
      net.rectangles false network behind imgs st' := by
    unfold rectangles
    rw [hinit]
  rw [htrue]
  cases hlast : imgs.getLast? with
  | some last => rw [rectangles_batch hshape hlast, rectangles_batch hshape hlast]
  | none =>
    obtain rfl := List.getLast?_eq_none_iff.mp hlast
    rw [rectangles_nil, rectangles_nil]

/-- The rectangles of a batch that `HandDetectNetv2` reads and that is scaled with the size of
`last`, against images read by `HandDetectNet` one by one. -/
theorem batch_agree_iff (hshape : net.itensor.mMultishapeNum = 1) (st st' : DetState Image) :
    net.rectangles false network behind imgs st = net.rectangles true network behind imgs st' ↔
      (1 < imgs.length → ∀ last ∈ imgs.getLast?, ∀ b img, imgs[b]? = some img → ∀ hand,
        NoLeader net.clsH net.clsW (net.batchCell network behind imgs b) hand ∧
            net.NothingFound network img hand net.otensor.mMultishapeNum ∨
          ∃ r m r', (∃ p, Leads net.clsH net.clsW (net.batchCell network behind imgs b) hand p r) ∧
            net.FirstLeads network img hand net.otensor.mMultishapeNum m r' ∧
            net.toImage last.rows last.cols (0, r) = net.toImage img.rows img.cols (m, r')) := by
  rcases Nat.lt_or_ge 1 imgs.length with hn | hn
  · have hlast := List.getLast?_eq_some_getLast (List.ne_nil_of_length_pos (Nat.zero_lt_of_lt hn))
    rw [rectangles_batch hshape hlast, rectangles_oneByOne hshape hn, hlast, map_range_eq_map]
    simp only [hn, forall_const, Option.mem_some_iff, forall_eq']
    refine forall_congr' fun b => forall₂_congr fun img _ => ?_
    rw [funext_iff]
    refine forall_congr' fun hand => ?_
    unfold HandDetectNet.imageBoxes
    rw [toList_injective.eq_iff, map_eq_map_iff, leading_eq_none_iff,
      HandDetectNet.imageFound_eq_none_iff]
    refine or_congr_right ⟨?_, ?_⟩
    · rintro ⟨r, a, hr, ha, heq⟩
      exact ⟨r, a.1, a.2, leading_eq_some_iff.mp hr, HandDetectNet.imageFound_eq_some_iff.mp ha,
        heq⟩
    · rintro ⟨r, m, r', hr, hr', heq⟩
      exact ⟨r, (m, r'), leading_eq_some_iff.mpr hr,
        HandDetectNet.imageFound_eq_some_iff.mpr hr', heq⟩
  · exact ⟨fun _ h => absurd h (not_lt.mpr hn), fun _ => rectangles_of_le hshape hn st st'⟩

end HandDetectNetv2

end Agree

end Detect

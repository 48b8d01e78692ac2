/-
Whether what a call of a detector gives comes from its own images.

The input tensor is kept from one call to the next.  A list of the wrong length is not written
into it, and `NrResize` leaves two rows of what was there; the network then sees images of calls
before.  With `net_batch1` the status of the last run hides that of the others, and the
`PostProcess` of `HandDetectNetv2` reads behind output tensors that are too small for it.

* `runNet`, `call`, `afterCalls` — the network, one call, and the calls before it;
* `Covered` — a call with none of these;
* `inputs_preProcess`, `inputs_passState` — the network sees the same after all histories;
* `inference_fromThisCall` — so the boxes are the same, one list a hand for each image.
-/
import HandTracking.BatchSizes
import HandTracking.DetectResize

namespace Detect

open Calculator Lanes

section Code

variable {K : Type}

/-- How a run goes: its status, and what lies behind the output tensors. -/
structure RunOutcome (K : Type) where
  status : Status
  behind : ℕ → ℕ → K

/-- A call of `Inference`: its images, and how its runs go. -/
structure Call (K : Type) where
  baseinput : List Image
  outcomes : ℕ → RunOutcome K

namespace HandDetectNet

variable (net : HandDetectNet K)

/-- How many images are written. -/
def imageCount : ℕ := if net.netBatch1 then net.sessionBatch else net.itensor.mBatch

/-- How often the network runs in a call. -/
def runCount : ℕ := if net.netBatch1 then net.sessionBatch else 1

/-- The elements of one image in an input tensor, which has one channel. -/
def inputSize (m : ℕ) : ℕ :=
  net.itensorFormat.height (net.itensor.mDims m) * net.itensorFormat.width (net.itensor.mDims m)

/-- What the network sees. -/
def inputs [Zero K] (slots : ℕ → ℕ → ℤ → K) (m b e : ℕ) : K :=
  if m < net.itensor.mMultishapeNum ∧ b < net.itensor.mBatch ∧ e < net.inputSize m then
    slots m b e
  else 0

/-- `network` is the function that the network computes. -/
def runNet [Zero K] (network : (ℕ → ℕ → ℕ → K) → ℕ → ℕ → K) (outcome : RunOutcome K) :
    RunNet (ℤ → K) K := fun slots =>
  (outcome.status, fun i e =>
    if e < net.otensor.mBatch * net.outputSize i then network (net.inputs slots) i e
    else outcome.behind i e)

variable [Field K] [LinearOrder K] [FloorRing K] (fill : ℕ → ℕ → Image → (ℤ → K) → ℤ → K)
  (network : (ℕ → ℕ → ℕ → K) → ℕ → ℕ → K)

/-- A call with a new result. -/
def call (c : Call K) (st : DetState (ℤ → K)) :
    DetState (ℤ → K) × List (Hands K) × Status :=
  net.inference fill (fun i => net.runNet network (c.outcomes i)) c.baseinput st []

/-- One call after the other. -/
def afterCalls (calls : List (Call K)) (st : DetState (ℤ → K)) : DetState (ℤ → K) :=
  calls.foldl (fun st c => (net.call fill network c st).1) st

end HandDetectNet

namespace HandDetectNetv2

variable [Field K] [LinearOrder K] [FloorRing K] (net : HandDetectNetv2 K)
  (fill : ℕ → ℕ → Image → (ℤ → K) → ℤ → K) (network : (ℕ → ℕ → ℕ → K) → ℕ → ℕ → K)

/-- One call of `Inference`, with what its runs return and leave behind. -/
def call (c : Call K) (st : DetState (ℤ → K)) :
    DetState (ℤ → K) × List (Hands K) × Status :=
  net.inference fill (fun i => net.runNet network (c.outcomes i)) c.baseinput st []

/-- The input tensor and its sizes after some calls. -/
def afterCalls (calls : List (Call K)) (st : DetState (ℤ → K)) : DetState (ℤ → K) :=
  calls.foldl (fun st c => (net.call fill network c st).1) st

end HandDetectNetv2

/-! ### What a call has to give, and when -/

/-- At most one box for each hand, and one of that hand. -/
def Own (hands : Hands K) : Prop :=
  ∀ hand, (hands hand).length ≤ 1 ∧ ∀ r ∈ hands hand, r.hand = hand

/-- What holds for a call that returns OK, and for the same images after other calls. -/
structure FromThisCall (runs : ℕ) (c : Call K)
    (res res' : DetState (ℤ → K) × List (Hands K) × Status) : Prop where
  status : res.2.2 = .ok → ∀ i < runs, (c.outcomes i).status = .ok
  length : res.2.2 = .ok → res.2.1.length = c.baseinput.length
  own : res.2.2 = .ok → ∀ hands ∈ res.2.1, Own hands
  same : res.2.2 = .ok → res'.2.2 = .ok → res.2.1 = res'.2.1

/-- As many images as there are slots, no run that fails, and no image that leaves a part of its
slot as it was.  One after the other the images share a slot, and the first one counts. -/
structure HandDetectNet.Covered [Field K] [LinearOrder K] (net : HandDetectNet K) (android : Bool)
    (c : Call K) : Prop where
  shape : net.itensor.mMultishapeNum = 1
  length : c.baseinput.length = net.imageCount
  status : ∀ i < net.runCount, (c.outcomes i).status = .ok
  resized : ∀ img ∈ if net.netBatch1 then c.baseinput.take 1 else c.baseinput,
    ¬takesNrResize K android (net.itensorFormat.height (net.itensor.mDims 0))
      (net.itensorFormat.width (net.itensor.mDims 0)) img

/-- `PostProcess` reads inside the two output tensors. -/
def HandDetectNetv2.ReadsInside (net : HandDetectNetv2 K) : Prop :=
  ∀ y < net.clsH, ∀ x < net.clsW,
    (∀ k < 3, cellIdx net.otensorFormat (net.otensor.mDims net.indexCls) y x
      (net.otensorFormat.clsChannel + k) < net.outputSize net.indexCls) ∧
    ∀ i < 4, cellIdx net.otensorFormat (net.otensor.mDims net.indexBox) y x i <
      net.outputSize net.indexBox

/-- The condition for one call of `HandDetectNetv2`: that of `HandDetectNet`, and boxes inside the
tensor. -/
structure HandDetectNetv2.Covered [Field K] [LinearOrder K] (net : HandDetectNetv2 K)
    (android : Bool) (c : Call K) : Prop extends net.toHandDetectNet.Covered android c where
  inside : net.netBatch1 = false → c.baseinput = [] ∨ net.ReadsInside

end Code

/-! ### One slot -/

section Slot

variable {K : Type} [Field K] [LinearOrder K] [FloorRing K] {mem mem' : ℤ → K} {x : ℤ}

theorem norm8Pass_agree (h : mem x = mem' x) (isdotsupport : Bool) (src : ℕ → BitVec 8)
    (input : ℕ) (output : ℤ) (scolstep dcols : ℕ) (alpha beta : K) (t : ℕ) :
    norm8Pass isdotsupport src input output scolstep dcols alpha beta mem t x =
      norm8Pass isdotsupport src input output scolstep dcols alpha beta mem' t x :=
  vst1q_agree (vst1q_agree (vst1q_agree (vst1q_agree h _ _) _ _) _ _) _ _

/-- Where two memories agree, they do so after `NrResize`. -/
theorem nrResize_agree (h : mem x = mem' x) (isdotsupport : Bool) (src : ℕ → BitVec 8) (dst : ℤ)
    (drows dcols : ℕ) (alpha' mean norm : K) :
    nrResize isdotsupport src dst drows dcols alpha' mean norm mem x =
      nrResize isdotsupport src dst drows dcols alpha' mean norm mem' x := by
  unfold nrResize
  split
  · refine List.foldl_rel (r := fun m m' : ℤ → K => m x = m' x) h fun i _ m m' hm => ?_
    exact List.foldl_rel (r := fun m m' : ℤ → K => m x = m' x) hm fun t _ m m' hm =>
      norm8Pass_agree hm _ _ _ _ _ _ _ _ t
  · refine List.foldl_rel (r := fun m m' : ℤ → K => m x = m' x) h fun i _ m m' hm => ?_
    exact List.foldl_rel (r := fun m m' : ℤ → K => m x = m' x) hm fun t _ m m' hm =>
      vst1q_agree (vst1q_agree hm _ _) _ _

variable (android isdotsupport : Bool)
  (cvResize : Image → ℕ → ℕ → Interpolation → ℕ → BitVec 8) {height width : ℕ} {img : Image}

theorem fillTensor_agree (h : mem x = mem' x) :
    fillTensor android isdotsupport cvResize height width img mem x =
      fillTensor android isdotsupport cvResize height width img mem' x := by
  unfold fillTensor
  split
  · exact nrResize_agree h _ _ _ _ _ _ _ _
  · exact written_agree h

/-- Without `NrResize` the whole slot is written. -/
theorem fillTensor_of_not_takes (hnot : ¬takesNrResize K android height width img) {e : ℕ}
    (he : e < height * width) (mem mem' : ℤ → K) :
    fillTensor android isdotsupport cvResize height width img mem e =
      fillTensor android isdotsupport cvResize height width img mem' e := by
  unfold fillTensor
  rw [if_neg hnot, if_neg hnot, ← zero_add (e : ℤ), written_of_lt he, written_of_lt he]

end Slot

/-! ### What the network sees -/

section Inputs

variable {K : Type} [Field K] [LinearOrder K] [FloorRing K] (net : HandDetectNet K)
  (android isdotsupport : Bool) (cvResize : Image → ℕ → ℕ → Interpolation → ℕ → BitVec 8)
  {imgs : List Image} (st st' : DetState (ℤ → K))

namespace HandDetectNet

/-- A batch. -/
theorem inputs_preProcess (hshape : net.itensor.mMultishapeNum = 1)
    (hlen : imgs.length = net.itensor.mBatch)
    (hnot : ∀ img ∈ imgs, ¬takesNrResize K android
      (net.itensorFormat.height (net.itensor.mDims 0))
      (net.itensorFormat.width (net.itensor.mDims 0)) img) :
    net.inputs (net.preProcess (fillTensor android isdotsupport cvResize) imgs st).slots =
      net.inputs (net.preProcess (fillTensor android isdotsupport cvResize) imgs st').slots := by
  funext m b e
  unfold inputs
  split
  · next h =>
    obtain ⟨hm, hb, he⟩ := h
    obtain rfl : m = 0 := by omega
    have hlt : b < imgs.length := hlen.symm ▸ hb
    have hget : imgs[b]? = some imgs[b] := List.getElem?_eq_getElem hlt
    rw [preProcess_slots_zero hshape hlen hget, preProcess_slots_zero hshape hlen hget]
    exact fillTensor_of_not_takes android isdotsupport cvResize
      (hnot _ (List.getElem_mem hlt)) he _ _
  · rfl

/-- One image after the other: the first one fills the slot, and what the next ones leave is the
same in both. -/
theorem slots_passState (hshape : net.itensor.mMultishapeNum = 1)
    (hlen : imgs.length = net.sessionBatch)
    (hnot : ∀ img ∈ imgs.take 1, ¬takesNrResize K android
      (net.itensorFormat.height (net.itensor.mDims 0))
      (net.itensorFormat.width (net.itensor.mDims 0)) img) {n : ℕ} (hn : n < imgs.length)
    {e : ℕ} (he : e < net.inputSize 0) :
    (net.passState (fillTensor android isdotsupport cvResize) imgs st (n + 1)).slots 0 0 e =
      (net.passState (fillTensor android isdotsupport cvResize) imgs st' (n + 1)).slots 0 0 e := by
  have hpass {n : ℕ} (hn : n < imgs.length) (st : DetState (ℤ → K)) :
      (net.passState (fillTensor android isdotsupport cvResize) imgs st (n + 1)).slots 0 0 =
        net.fillSlot (fillTensor android isdotsupport cvResize) 0 imgs[n]
          ((net.passState (fillTensor android isdotsupport cvResize) imgs st n).slots 0 0) := by
    rw [passState, preProcessSingle_eq hshape hlen (List.getElem?_eq_getElem hn),
      writeImage_slots_self]
  induction n with
  | zero =>
    have hfirst : imgs[0] ∈ imgs.take 1 := by
      rw [List.take_one, List.head?_eq_getElem?, List.getElem?_eq_getElem hn]
      exact List.mem_singleton_self _
    rw [hpass hn, hpass hn]
    exact fillTensor_of_not_takes android isdotsupport cvResize (hnot _ hfirst) he _ _
  | succ n ih =>
    rw [hpass hn, hpass hn]
    exact fillTensor_agree android isdotsupport cvResize (ih (Nat.lt_of_succ_lt hn))

theorem inputs_passState (hshape : net.itensor.mMultishapeNum = 1) (hbatch : net.itensor.mBatch = 1)
    (hlen : imgs.length = net.sessionBatch)
    (hnot : ∀ img ∈ imgs.take 1, ¬takesNrResize K android
      (net.itensorFormat.height (net.itensor.mDims 0))
      (net.itensorFormat.width (net.itensor.mDims 0)) img) {n : ℕ} (hn : n < imgs.length) :
    net.inputs (net.passState (fillTensor android isdotsupport cvResize) imgs st (n + 1)).slots =
      net.inputs
        (net.passState (fillTensor android isdotsupport cvResize) imgs st' (n + 1)).slots := by
  funext m b e
  unfold inputs
  split
  · next h =>
    obtain ⟨hm, hb, he⟩ := h
    obtain rfl : m = 0 := by omega
    obtain rfl : b = 0 := by omega
    exact net.slots_passState android isdotsupport cvResize st st' hshape hlen hnot hn he
  · rfl

end HandDetectNet

end Inputs

/-! ### The boxes -/

section Boxes

variable {K : Type}

theorem own_toList {o : Hand → Option (DetectRect K)} (h : ∀ hand, ∀ r ∈ o hand, r.hand = hand) :
    Own fun hand => (o hand).toList := by
  intro hand
  constructor
  · cases ho : o hand <;> simp
  · intro r hr
    exact h hand r (Option.mem_toList.mp hr)

/-- What the network gives for an image depends only on what it sees. -/
theorem HandDetectNet.runNet_agree [Zero K] {net : HandDetectNet K}
    {network : (ℕ → ℕ → ℕ → K) → ℕ → ℕ → K} {slots slots' : ℕ → ℕ → ℤ → K}
    (hsee : net.inputs slots = net.inputs slots') (outcome outcome' : RunOutcome K) {b : ℕ}
    (hb : b < net.otensor.mBatch) (i e : ℕ) (he : e < net.outputSize i) :
    (net.runNet network outcome slots).2 i (b * net.outputSize i + e) =
      (net.runNet network outcome' slots').2 i (b * net.outputSize i + e) := by
  have hlt : b * net.outputSize i + e < net.otensor.mBatch * net.outputSize i :=
    Nat.mul_add_lt_mul hb he
  calc (net.runNet network outcome slots).2 i (b * net.outputSize i + e)
      = network (net.inputs slots) i (b * net.outputSize i + e) := if_pos hlt
    _ = network (net.inputs slots') i (b * net.outputSize i + e) := by rw [hsee]
    _ = (net.runNet network outcome' slots').2 i (b * net.outputSize i + e) := (if_pos hlt).symm

theorem hand_of_leading [LinearOrder K] {hand : Hand} {tmpResult : List (DetectRect K)}
    {r : DetectRect K} (h : leading hand tmpResult = some r) : r.hand = hand :=
  of_decide_eq_true (List.mem_filter.mp (List.argmax_mem h)).2

variable [Field K] [LinearOrder K]

theorem HandDetectNet.hand_of_found (net : HandDetectNet K) {mem : ℕ → ℕ → K} {b : ℕ}
    {hand : Hand} {n : ℕ} {a : ℕ × DetectRect K} (h : net.found mem b hand n = some a) :
    a.2.hand = hand := by
  obtain ⟨multiI, -, h⟩ := List.exists_of_findSome?_eq_some h
  obtain ⟨-, h⟩ := Option.ite_none_right_eq_some.mp h
  obtain ⟨r, hr, rfl⟩ := Option.map_eq_some_iff.mp h
  exact hand_of_leading hr

/-- Only the part of the image counts. -/
theorem HandDetectNet.found_congr (net : HandDetectNet K) {mem mem' : ℕ → ℕ → K} {b : ℕ}
    (h : ∀ i, ∀ e < net.outputSize i,
      mem i (b * net.outputSize i + e) = mem' i (b * net.outputSize i + e))
    (hand : Hand) (n : ℕ) : net.found mem b hand n = net.found mem' b hand n := by
  unfold found
  congr 1
  funext multiI
  split
  · next hdec =>
    rw [net.tmpResult_of_slot hdec (h multiI), net.tmpResult_of_slot hdec fun _ _ => rfl]
  · rfl

/-- The same for the tensors of `HandDetectNetv2`. -/
theorem HandDetectNetv2.tmpResult_congr (net : HandDetectNetv2 K) {mem mem' : ℕ → ℕ → K} {b : ℕ}
    (hinside : net.ReadsInside)
    (h : ∀ i, ∀ e < net.outputSize i,
      mem i (b * net.outputSize i + e) = mem' i (b * net.outputSize i + e)) :
    net.tmpResult mem b = net.tmpResult mem' b := by
  have hbase : ∀ i, b * net.otensorFormat.height (net.otensor.mDims i) *
      net.otensorFormat.width (net.otensor.mDims i) *
      net.otensorFormat.channels (net.otensor.mDims i) = b * net.outputSize i := by
    intro i
    unfold HandDetectNet.outputSize
    ring
  refine List.filterMap_congr fun p hp => ?_
  obtain ⟨hcls, hbox⟩ := hinside p.1 (mem_cells.mp hp).1 p.2 (mem_cells.mp hp).2
  unfold cell candidate
  simp only [hbase, h _ _ (hcls 0 (by omega)), h _ _ (hcls 1 (by omega)),
    h _ _ (hcls 2 (by omega))]
  exact candidateOf_congr fun i hi => h _ _ (hbox i hi)

variable [FloorRing K]

theorem own_leading (s : Scaling K) (tmpResult : List (DetectRect K)) :
    Own fun hand => ((leading hand tmpResult).map (scaleCoords s)).toList := by
  refine own_toList fun hand r hr => ?_
  obtain ⟨r', hr', rfl⟩ := Option.map_eq_some_iff.mp hr
  rw [scaleCoords_hand, hand_of_leading hr']

theorem HandDetectNet.boxes_congr (net : HandDetectNet K) {mem mem' : ℕ → ℕ → K} {b : ℕ}
    (h : ∀ i, ∀ e < net.outputSize i,
      mem i (b * net.outputSize i + e) = mem' i (b * net.outputSize i + e))
    (originImgHeight originImgWidth : ℕ) :
    net.boxes originImgHeight originImgWidth mem b =
      net.boxes originImgHeight originImgWidth mem' b := by
  funext hand
  unfold boxes
  rw [net.found_congr h]

theorem HandDetectNet.own_boxes (net : HandDetectNet K) (originImgHeight originImgWidth : ℕ)
    (mem : ℕ → ℕ → K) (b : ℕ) : Own (net.boxes originImgHeight originImgWidth mem b) := by
  refine own_toList fun hand r hr => ?_
  obtain ⟨a, ha, rfl⟩ := Option.map_eq_some_iff.mp hr
  unfold toImage
  rw [scaleCoords_hand, net.hand_of_found ha]

end Boxes

/-! ### The calls -/

section Calls

variable {K : Type}

/-- What `Init` makes sure of. -/
structure HandDetectNet.Session (net : HandDetectNet K) : Prop where
  mBatch : net.otensor.mBatch = net.itensor.mBatch
  single : net.netBatch1 = true → net.itensor.mBatch = 1 ∧ 0 < net.sessionBatch

theorem HandDetectNet.session_init (net : HandDetectNet K) (dontBatch : Bool) (batch : ℕ) :
    (net.init dontBatch batch).Session := by
  unfold init
  split
  · next h => exact ⟨rfl, fun _ => ⟨rfl, Nat.zero_lt_of_lt h.2⟩⟩
  · exact ⟨rfl, fun h => absurd h Bool.false_ne_true⟩

theorem HandDetectNet.imageCount_batch {net : HandDetectNet K} (hsession : net.Session)
    (hbatch : net.netBatch1 = false) : net.imageCount = net.otensor.mBatch := by
  unfold imageCount
  rw [hbatch, if_neg Bool.false_ne_true, hsession.mBatch]

/-- The results are lists of boxes, one for each image. -/
theorem fromThisCall_of_map {runs n : ℕ} {c : Call K}
    {res res' : DetState (ℤ → K) × List (Hands K) × Status} {hands hands' : ℕ → Hands K}
    (hstatus : res.2.2 = .ok → ∀ i < runs, (c.outcomes i).status = .ok)
    (hlen : res.2.2 = .ok → c.baseinput.length = n)
    (hres : res.2.2 = .ok → res.2.1 = (List.range n).map hands)
    (hres' : res'.2.2 = .ok → res'.2.1 = (List.range n).map hands') (hown : ∀ b, Own (hands b))
    (hsame : res.2.2 = .ok → res'.2.2 = .ok → ∀ b < n, hands b = hands' b) :
    FromThisCall runs c res res' where
  status := hstatus
  length hok := by rw [hres hok, List.length_map, List.length_range, hlen hok]
  own hok := by
    intro h hh
    rw [hres hok] at hh
    obtain ⟨b, -, rfl⟩ := List.mem_map.mp hh
    exact hown b
  same hok hok' := by
    rw [hres hok, hres' hok']
    exact List.map_congr_left fun b hb => hsame hok hok' b (List.mem_range.mp hb)

/-- The status that `Inference` returns. -/
def HandDetectNet.LastOk (net : HandDetectNet K) (c : Call K) : Prop :=
  (c.outcomes (net.runCount - 1)).status = .ok

variable [Field K] [LinearOrder K] [FloorRing K]

namespace HandDetectNet

variable {net : HandDetectNet K} {fill : ℕ → ℕ → Image → (ℤ → K) → ℤ → K}
  {network : (ℕ → ℕ → ℕ → K) → ℕ → ℕ → K} {c : Call K} {st : DetState (ℤ → K)}

theorem call_batch (hbatch : net.netBatch1 = false) :
    net.call fill network c st =
      net.inferBatch fill c.baseinput net.postProcess (net.runNet network (c.outcomes 0)) st
        [] := by
  unfold call inference
  rw [hbatch, if_neg Bool.false_ne_true]

theorem passBoxes_of_ok {b : ℕ} (hok : (c.outcomes b).status = .ok) :
    net.passBoxes fill (fun i => net.runNet network (c.outcomes i)) c.baseinput st b =
      net.boxes (net.passState fill c.baseinput st (b + 1)).originImgHeight
        (net.passState fill c.baseinput st (b + 1)).originImgWidth
        (net.runNet network (c.outcomes b)
          (net.passState fill c.baseinput st (b + 1)).slots).2 0 := by
  unfold passBoxes passRun
  have hrun : (net.runNet network (c.outcomes b)
      (net.passState fill c.baseinput st (b + 1)).slots).1 = .ok := hok
  rw [hrun]

theorem own_passBoxes (runs : ℕ → RunNet (ℤ → K) K) (imgs : List Image) (b : ℕ) :
    Own (net.passBoxes fill runs imgs st b) := by
  unfold passBoxes
  split
  · exact net.own_boxes _ _ _ _
  · exact own_toList fun _ _ hr => absurd hr (Option.not_mem_none _)

variable (android isdotsupport : Bool)
  (cvResize : Image → ℕ → ℕ → Interpolation → ℕ → BitVec 8) {imgs : List Image}
  {outcomes outcomes' : ℕ → RunOutcome K}

/-- A batch, for a `PostProcess` that makes the boxes of each image from its part of the output
tensors. -/
theorem fromThisCall_inferBatch (hsession : net.Session) (hbatch : net.netBatch1 = false)
    (hcov : net.LastOk ⟨imgs, outcomes⟩ → net.Covered android ⟨imgs, outcomes⟩)
    {postProcess : ℕ → ℕ → (ℕ → ℕ → K) → List (Hands K) → List (Hands K)}
    {hands : ℕ → ℕ → (ℕ → ℕ → K) → ℕ → Hands K}
    (hpost : ∀ h w mem, postProcess h w mem [] =
      (List.range net.otensor.mBatch).map (hands h w mem))
    (hown : ∀ h w mem b, Own (hands h w mem b))
    (hcongr : net.LastOk ⟨imgs, outcomes⟩ → ∀ b < net.otensor.mBatch, ∀ mem mem' : ℕ → ℕ → K,
      (∀ i, ∀ e < net.outputSize i,
        mem i (b * net.outputSize i + e) = mem' i (b * net.outputSize i + e)) →
      ∀ h w, hands h w mem b = hands h w mem' b)
    (st st' : DetState (ℤ → K)) :
    FromThisCall net.runCount ⟨imgs, outcomes⟩
      (net.inferBatch (fillTensor android isdotsupport cvResize) imgs postProcess
        (net.runNet network (outcomes 0)) st [])
      (net.inferBatch (fillTensor android isdotsupport cvResize) imgs postProcess
        (net.runNet network (outcomes' 0)) st' []) := by
  have himages : net.imageCount = net.otensor.mBatch := imageCount_batch hsession hbatch
  have hlast (hok : (outcomes 0).status = .ok) : net.LastOk ⟨imgs, outcomes⟩ := by
    unfold LastOk runCount
    rw [hbatch, if_neg Bool.false_ne_true]
    exact hok
  have hres (outcomes : ℕ → RunOutcome K) (st : DetState (ℤ → K))
      (hok : (outcomes 0).status = .ok) :
      (net.inferBatch (fillTensor android isdotsupport cvResize) imgs postProcess
        (net.runNet network (outcomes 0)) st []).2.1 =
        (List.range net.otensor.mBatch).map
          (hands (net.preProcess (fillTensor android isdotsupport cvResize) imgs
              st).originImgHeight
            (net.preProcess (fillTensor android isdotsupport cvResize) imgs st).originImgWidth
            (net.runNet network (outcomes 0)
              (net.preProcess (fillTensor android isdotsupport cvResize) imgs st).slots).2) := by
    have hrun : (net.runNet network (outcomes 0)
        (net.preProcess (fillTensor android isdotsupport cvResize) imgs st).slots).1 = .ok := hok
    unfold inferBatch
    simp only [hrun]
    exact hpost _ _ _
  -- the slots and the outputs of the two calls are compared image by image
  refine fromThisCall_of_map (fun hok => (hcov (hlast hok)).status)
    (fun hok => (hcov (hlast hok)).length.trans himages) (hres _ _) (hres _ _)
    (fun b => hown _ _ _ b) fun hok _ b hb => ?_
  have hc := hcov (hlast hok)
  have hlen : imgs.length = net.itensor.mBatch :=
    (hc.length.trans himages).trans hsession.mBatch
  have hresized := hc.resized
  rw [hbatch, if_neg Bool.false_ne_true] at hresized
  have hne : imgs ≠ [] := List.ne_nil_of_length_pos (by rw [hlen, ← hsession.mBatch]; omega)
  have horigin (st : DetState (ℤ → K)) :
      (net.preProcess (fillTensor android isdotsupport cvResize) imgs st).originImgHeight =
          (imgs.getLast hne).rows ∧
        (net.preProcess (fillTensor android isdotsupport cvResize) imgs st).originImgWidth =
          (imgs.getLast hne).cols :=
    preProcess_origin hc.shape hlen (List.getLast?_eq_getLast_of_ne_nil hne)
  have hsee := net.inputs_preProcess android isdotsupport cvResize st st' hc.shape hlen hresized
  rw [(horigin st).1, (horigin st).2, (horigin st').1, (horigin st').2]
  exact hcongr (hlast hok) b hb _ _ (runNet_agree hsee _ _ hb) _ _

variable [IsStrictOrderedRing K]

theorem call_single (hsingle : net.netBatch1 = true) :
    net.call fill network c st =
      (net.passState fill c.baseinput st net.sessionBatch,
        (List.range net.sessionBatch).map
          (net.passBoxes fill (fun i => net.runNet network (c.outcomes i)) c.baseinput st),
        net.passStatus fill (fun i => net.runNet network (c.outcomes i)) c.baseinput st
          net.sessionBatch) := by
  unfold call inference
  rw [if_pos hsingle, inferBatch1_eq]

/-- The status of the last run is returned. -/
theorem status_call (hsession : net.Session) :
    (net.call fill network c st).2.2 = (c.outcomes (net.runCount - 1)).status := by
  unfold runCount
  cases hmode : net.netBatch1 with
  | true =>
    obtain ⟨n, hn⟩ := Nat.exists_eq_add_one.mpr (hsession.single hmode).2
    rw [call_single hmode, if_pos rfl, hn]
    rfl
  | false =>
    rw [call_batch hmode, if_neg Bool.false_ne_true]
    rfl

theorem lastOk_of_call (hsession : net.Session) (hok : (net.call fill network c st).2.2 = .ok) :
    net.LastOk c :=
  (status_call hsession).symm.trans hok

/-- A call that returns OK gives lists for as many images as there are slots. -/
theorem length_call (hsession : net.Session) (hok : net.LastOk c) :
    (net.call fill network c st).2.1.length = net.imageCount := by
  cases hmode : net.netBatch1 with
  | true =>
    rw [call_single hmode, List.length_map, List.length_range, imageCount, hmode, if_pos rfl]
  | false =>
    have hrun : (net.runNet network (c.outcomes 0)
        (net.preProcess fill c.baseinput st).slots).1 = .ok := by
      unfold LastOk runCount at hok
      rwa [hmode, if_neg Bool.false_ne_true] at hok
    rw [call_batch hmode, imageCount_batch hsession hmode]
    unfold inferBatch
    simp only [hrun]
    rw [postProcess_nil, List.length_map, List.length_range]

theorem fromThisCall_single (hsession : net.Session) (hsingle : net.netBatch1 = true)
    (hcov : net.LastOk ⟨imgs, outcomes⟩ → net.Covered android ⟨imgs, outcomes⟩)
    (hcov' : net.LastOk ⟨imgs, outcomes'⟩ → net.Covered android ⟨imgs, outcomes'⟩)
    (st st' : DetState (ℤ → K)) :
    FromThisCall net.runCount ⟨imgs, outcomes⟩
      (net.call (fillTensor android isdotsupport cvResize) network ⟨imgs, outcomes⟩ st)
      (net.call (fillTensor android isdotsupport cvResize) network ⟨imgs, outcomes'⟩ st') := by
  have hcount : net.runCount = net.sessionBatch := if_pos hsingle
  have himages : net.imageCount = net.sessionBatch := if_pos hsingle
  have hmBatch : net.itensor.mBatch = 1 := (hsession.single hsingle).1
  refine fromThisCall_of_map (fun hok => (hcov (lastOk_of_call hsession hok)).status)
    (fun hok => (hcov (lastOk_of_call hsession hok)).length.trans himages)
    (fun _ => by rw [call_single hsingle]) (fun _ => by rw [call_single hsingle])
    (fun b => own_passBoxes _ _ b) fun hok hok' b hb => ?_
  have hc := hcov (lastOk_of_call hsession hok)
  have hc' := hcov' (lastOk_of_call hsession hok')
  have hlen : imgs.length = net.sessionBatch := hc.length.trans himages
  have hlt : b < imgs.length := hlen.symm ▸ hb
  have hresized := hc.resized
  rw [if_pos hsingle] at hresized
  have hpass (st : DetState (ℤ → K)) :
      net.passState (fillTensor android isdotsupport cvResize) imgs st (b + 1) =
        net.writeImage (fillTensor android isdotsupport cvResize) 0 0 imgs[b]
          (net.passState (fillTensor android isdotsupport cvResize) imgs st b) :=
    preProcessSingle_eq hc.shape hlen (List.getElem?_eq_getElem hlt)
  have hheight (st : DetState (ℤ → K)) :
      (net.passState (fillTensor android isdotsupport cvResize) imgs st (b + 1)).originImgHeight =
        imgs[b].rows := by rw [hpass]; rfl
  have hwidth (st : DetState (ℤ → K)) :
      (net.passState (fillTensor android isdotsupport cvResize) imgs st (b + 1)).originImgWidth =
        imgs[b].cols := by rw [hpass]; rfl
  have hsee := net.inputs_passState android isdotsupport cvResize st st' hc.shape hmBatch hlen
    hresized hlt
  have hb0 : 0 < net.otensor.mBatch := by
    rw [hsession.mBatch, hmBatch]
    exact Nat.one_pos
  rw [passBoxes_of_ok (c := ⟨imgs, outcomes⟩) (hc.status b (hcount.symm ▸ hb)),
    passBoxes_of_ok (c := ⟨imgs, outcomes'⟩) (hc'.status b (hcount.symm ▸ hb)),
    hheight, hwidth, hheight, hwidth]
  exact net.boxes_congr (runNet_agree hsee _ _ hb0) _ _

theorem call_fromThisCall (hsession : net.Session)
    (hcov : net.LastOk ⟨imgs, outcomes⟩ → net.Covered android ⟨imgs, outcomes⟩)
    (hcov' : net.LastOk ⟨imgs, outcomes'⟩ → net.Covered android ⟨imgs, outcomes'⟩)
    (st st' : DetState (ℤ → K)) :
    FromThisCall net.runCount ⟨imgs, outcomes⟩
      (net.call (fillTensor android isdotsupport cvResize) network ⟨imgs, outcomes⟩ st)
      (net.call (fillTensor android isdotsupport cvResize) network ⟨imgs, outcomes'⟩ st') := by
  cases hmode : net.netBatch1 with
  | true =>
    exact fromThisCall_single android isdotsupport cvResize hsession hmode hcov hcov' st st'
  | false =>
    rw [call_batch hmode, call_batch hmode]
    exact fromThisCall_inferBatch android isdotsupport cvResize hsession hmode hcov
      (fun h w mem => net.postProcess_nil h w mem) net.own_boxes
      (fun _ _ _ _ _ hslot _ _ => net.boxes_congr hslot _ _) st st'

end HandDetectNet

/-- One after the other `HandDetectNetv2` does what `HandDetectNet` does, and a batch goes through
its own `PostProcess`. -/
theorem HandDetectNetv2.call_fromThisCall {net : HandDetectNetv2 K}
    {network : (ℕ → ℕ → ℕ → K) → ℕ → ℕ → K} (android isdotsupport : Bool)
    (cvResize : Image → ℕ → ℕ → Interpolation → ℕ → BitVec 8) {imgs : List Image}
    {outcomes outcomes' : ℕ → RunOutcome K} [IsStrictOrderedRing K] (hsession : net.Session)
    (hcov : net.LastOk ⟨imgs, outcomes⟩ → net.Covered android ⟨imgs, outcomes⟩)
    (hcov' : net.LastOk ⟨imgs, outcomes'⟩ → net.Covered android ⟨imgs, outcomes'⟩)
    (st st' : DetState (ℤ → K)) :
    FromThisCall net.runCount ⟨imgs, outcomes⟩
      (net.call (fillTensor android isdotsupport cvResize) network ⟨imgs, outcomes⟩ st)
      (net.call (fillTensor android isdotsupport cvResize) network ⟨imgs, outcomes'⟩ st') := by
  have hcall (outcomes : ℕ → RunOutcome K) (st : DetState (ℤ → K)) :
      net.call (fillTensor android isdotsupport cvResize) network ⟨imgs, outcomes⟩ st =
        if net.netBatch1 then
          net.toHandDetectNet.call (fillTensor android isdotsupport cvResize) network
            ⟨imgs, outcomes⟩ st
        else
          net.inferBatch (fillTensor android isdotsupport cvResize) imgs net.postProcess
            (net.runNet network (outcomes 0)) st [] := by
    unfold call inference HandDetectNet.call HandDetectNet.inference
    cases net.netBatch1 with
    | true => rfl
    | false => rfl
  rw [hcall, hcall]
  cases hmode : net.netBatch1 with
  | true =>
    rw [if_pos rfl, if_pos rfl]
    exact HandDetectNet.fromThisCall_single android isdotsupport cvResize hsession hmode
      (fun hok => (hcov hok).toCovered) (fun hok => (hcov' hok).toCovered) st st'
  | false =>
    rw [if_neg Bool.false_ne_true, if_neg Bool.false_ne_true]
    refine HandDetectNet.fromThisCall_inferBatch android isdotsupport cvResize hsession hmode
      (fun hok => (hcov hok).toCovered) (fun h w mem => net.postProcess_nil h w mem)
      (fun _ _ _ _ => own_leading _ _) (fun hok b hb mem mem' hslot h w => ?_) st st'
    rcases (hcov hok).inside hmode with hnil | hinside
    · have hlen : imgs.length = net.otensor.mBatch :=
        (hcov hok).length.trans (HandDetectNet.imageCount_batch hsession hmode)
      rw [show imgs = [] from hnil, List.length_nil] at hlen
      omega
    · rw [net.tmpResult_congr hinside hslot]

/-! ### Two histories -/

section Histories

variable (fill : ℕ → ℕ → Image → (ℤ → K) → ℤ → K) (network : (ℕ → ℕ → ℕ → K) → ℕ → ℕ → K)
  (st : DetState (ℤ → K)) (calls calls' : List (Call K)) (imgs : List Image)
  (outcomes outcomes' : ℕ → RunOutcome K)

/-- A call for the same images after `calls` and after `calls'`. -/
def HandDetectNet.Independent (net : HandDetectNet K) : Prop :=
  FromThisCall net.runCount ⟨imgs, outcomes⟩
    (net.call fill network ⟨imgs, outcomes⟩ (net.afterCalls fill network calls st))
    (net.call fill network ⟨imgs, outcomes'⟩ (net.afterCalls fill network calls' st))

/-- The rectangles of a call do not depend on the calls before it. -/
def HandDetectNetv2.Independent (net : HandDetectNetv2 K) : Prop :=
  FromThisCall net.runCount ⟨imgs, outcomes⟩
    (net.call fill network ⟨imgs, outcomes⟩ (net.afterCalls fill network calls st))
    (net.call fill network ⟨imgs, outcomes'⟩ (net.afterCalls fill network calls' st))

end Histories

/-- Both detectors: if the calls that return OK have as many images as there are slots, no run
that fails, and write and read whole tensors, then the calls before do not matter. -/
theorem inference_independent [IsStrictOrderedRing K] (net : HandDetectNet K)
    (netv2 : HandDetectNetv2 K) (dontBatch : Bool) (batch : ℕ) (android isdotsupport : Bool)
    (cvResize : Image → ℕ → ℕ → Interpolation → ℕ → BitVec 8)
    (network networkv2 : (ℕ → ℕ → ℕ → K) → ℕ → ℕ → K) (st : DetState (ℤ → K))
    (calls calls' : List (Call K)) (imgs : List Image) (outcomes outcomes' : ℕ → RunOutcome K) :
    (((net.init dontBatch batch).LastOk ⟨imgs, outcomes⟩ →
          (net.init dontBatch batch).Covered android ⟨imgs, outcomes⟩) →
        ((net.init dontBatch batch).LastOk ⟨imgs, outcomes'⟩ →
          (net.init dontBatch batch).Covered android ⟨imgs, outcomes'⟩) →
        (net.init dontBatch batch).Independent (fillTensor android isdotsupport cvResize) network
          st calls calls' imgs outcomes outcomes') ∧
      (((netv2.init dontBatch batch).LastOk ⟨imgs, outcomes⟩ →
          (netv2.init dontBatch batch).Covered android ⟨imgs, outcomes⟩) →
        ((netv2.init dontBatch batch).LastOk ⟨imgs, outcomes'⟩ →
          (netv2.init dontBatch batch).Covered android ⟨imgs, outcomes'⟩) →
        (netv2.init dontBatch batch).Independent (fillTensor android isdotsupport cvResize)
          networkv2 st calls calls' imgs outcomes outcomes') := by
  constructor
  · intro hcov hcov'
    exact HandDetectNet.call_fromThisCall android isdotsupport cvResize
      (net.session_init dontBatch batch) hcov hcov' _ _
  · intro hcov hcov'
    exact HandDetectNetv2.call_fromThisCall android isdotsupport cvResize
      (netv2.toHandDetectNet.session_init dontBatch batch) hcov hcov' _ _

end Calls

/-! ### Small calls -/

section SmallCalls

/-- Input tensors full of zeros. -/
def black : DetState (ℤ → ℚ) := ⟨fun _ _ _ => 0, 0, 0⟩

/-- Every run succeeds. -/
def allOk (_ : ℕ) : RunOutcome ℚ := ⟨.ok, 0⟩

/-- The first run fails. -/
def firstFails (i : ℕ) : RunOutcome ℚ := ⟨if i = 0 then .error else .ok, 0⟩

/-- A network that copies its input. -/
def copyNetwork (inputs : ℕ → ℕ → ℕ → ℚ) (_ e : ℕ) : ℚ := inputs 0 0 e

theorem readsInside_smallNetv2 : (smallNetv2.init false 1).ReadsInside := by
  unfold HandDetectNetv2.ReadsInside
  decide

theorem covered_smallNet (o : ℕ → RunOutcome ℚ) (ho : (o 0).status = .ok) :
    (smallNet.init false 1).Covered false ⟨[square 16], o⟩ where
  shape := rfl
  length := rfl
  status i hi := by
    obtain rfl : i = 0 := Nat.lt_one_iff.mp hi
    exact ho
  resized := fun _ _ h => Bool.false_ne_true h.1

/-- One image, at first and after another one. -/
theorem inference_independent_square :
    (smallNet.init false 1).Independent (fillTensor false false noResize) copyNetwork black []
        [⟨[square 32], allOk⟩] [square 16] allOk allOk ∧
      (smallNetv2.init false 1).Independent (fillTensor false false noResize) copyNetwork black []
        [⟨[square 32], allOk⟩] [square 16] allOk allOk := by
  obtain ⟨hv1, hv2⟩ := inference_independent smallNet smallNetv2 false 1 false false noResize
    copyNetwork copyNetwork black [] [⟨[square 32], allOk⟩] [square 16] allOk allOk
  have hcov := covered_smallNet allOk rfl
  have hcovv2 : (smallNetv2.init false 1).Covered false ⟨[square 16], allOk⟩ :=
    ⟨⟨hcov.shape, hcov.length, hcov.status, hcov.resized⟩, fun _ => .inr readsInside_smallNetv2⟩
  exact ⟨hv1 (fun _ => hcov) fun _ => hcov, hv2 (fun _ => hcovv2) fun _ => hcovv2⟩

/-- Two images one after the other, of which the run of the first one fails; and a call without
images, which gives the boxes of what is in the input tensor. -/
theorem inference_dependent :
    ¬(smallNet.init true 2).Independent (fillTensor false false noResize) copyNetwork black [] []
        [square 16, square 16] firstFails firstFails ∧
      ¬(smallNet.init false 1).Independent (fillTensor false false noResize) copyNetwork black []
        [] [] allOk allOk := by
  constructor
  · intro hind
    have hok : ((smallNet.init true 2).call (fillTensor false false noResize) copyNetwork
        ⟨[square 16, square 16], firstFails⟩ black).2.2 = .ok :=
      HandDetectNet.status_call (smallNet.session_init true 2)
    exact absurd (hind.status hok 0 Nat.two_pos) (by decide)
  · intro hind
    have hsession := smallNet.session_init false 1
    have hok : ((smallNet.init false 1).call (fillTensor false false noResize) copyNetwork
        ⟨[], allOk⟩ black).2.2 = .ok := HandDetectNet.status_call hsession
    have hlen : ((smallNet.init false 1).call (fillTensor false false noResize) copyNetwork
        ⟨[], allOk⟩ black).2.1.length = 1 :=
      HandDetectNet.length_call hsession (HandDetectNet.lastOk_of_call hsession hok)
    exact absurd (hlen.symm.trans (hind.length hok)) (by decide)

end SmallCalls

end Detect

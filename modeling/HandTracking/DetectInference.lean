/-
`Inference` of the detectors: the images are written to the input tensor, the network runs,
and boxes come out of the output tensors.

A session runs all images as one batch, or with `net_batch1` one after the other through one
slot of the input tensor.  A list of the wrong length is not written at all, and the network
runs on what is there.

The memory of a slot is a type `σ` and what an image leaves in it a function, so that the same
definitions serve for the real input tensor and for a network that is handed whole images.

* `HandDetectNet.inference`, `HandDetectNetv2.inference` — a call;
* `preProcess_slots`, `preProcessSingle_slots` — the slots after the images are written;
* `inferBatch1_eq` — what the loop over the images gives, whichever runs fail;
* `found` — the box of a hand that `PostProcessSingle` finds in the output tensors.
-/
import HandTracking.HandDetect

namespace Detect

open Calculator

/-- `m_mat` of an 8-bit grayscale image, its rows one after the other. -/
structure Image where
  cols : ℕ
  rows : ℕ
  data : ℕ → BitVec 8

/-- The status that the session returns. -/
inductive Status where
  | ok
  | error
  deriving DecidableEq, Repr

/-- The members that change: `slots multi_i batch_i` is the memory of an input tensor, and the
sizes are those of the image that was written last. -/
structure DetState (σ : Type) where
  slots : ℕ → ℕ → σ
  originImgHeight : ℕ
  originImgWidth : ℕ

/-- `RunNet`: the status, and the memory of the output tensors after a run on these inputs. -/
abbrev RunNet (σ K : Type) := (ℕ → ℕ → σ) → Status × (ℕ → ℕ → K)

section Code

variable {σ K : Type} (fill : ℕ → ℕ → Image → σ → σ)

namespace HandDetectNet

variable (net : HandDetectNet K)

/-- One image is written: `fill height width img` is what it leaves in a slot. -/
def writeImage (multiI batchI : ℕ) (img : Image) (st : DetState σ) : DetState σ where
  slots m b :=
    if m = multiI ∧ b = batchI then
      fill (net.itensorFormat.height (net.itensor.mDims multiI))
        (net.itensorFormat.width (net.itensor.mDims multiI)) img (st.slots m b)
    else st.slots m b
  originImgHeight := img.rows
  originImgWidth := img.cols

/-- `PreProcess`: each image is written to its place in the batch. -/
def preProcess (netInput : List Image) (st : DetState σ) : DetState σ :=
  let ai := net.itensor.mBatch * net.itensor.mMultishapeNum
  let bi := netInput.length
  if ai ≠ bi then st
  else
    netInput.zipIdx.foldl
      (fun st p =>
        net.writeImage fill (p.2 / net.itensor.mBatch) (p.2 % net.itensor.mBatch) p.1 st)
      st

/-- `PreProcessSingle`: the images of one run of a batch of one. -/
def preProcessSingle (netInput : List Image) (batchn : ℕ) (st : DetState σ) : DetState σ :=
  let ai := net.sessionBatch * net.itensor.mMultishapeNum
  let bi := netInput.length
  if ai ≠ bi then st
  else
    (List.range net.itensor.mMultishapeNum).foldl
      (fun st i =>
        match netInput[net.itensor.mMultishapeNum * batchn + i]? with
        | some img => net.writeImage fill i 0 img st
        | none => st)
      st

variable [Field K] [LinearOrder K] [FloorRing K] (runs : ℕ → RunNet σ K)
  (baseinput : List Image)

/-- One pass of the loop of `Inference` with `net_batch1`. -/
def inferPass (i : ℕ) (s : DetState σ × List (Hands K) × Status) :
    DetState σ × List (Hands K) × Status :=
  let st := net.preProcessSingle fill baseinput i s.1
  let ret := runs i st.slots
  let baseresult :=
    match ret.1 with
    | .ok => net.postProcessSingle st.originImgHeight st.originImgWidth ret.2 s.2.1 i
    | .error => s.2.1
  (st, baseresult, ret.1)

/-- `Inference` with `net_batch1`; `runs i` is the run of pass `i`. -/
def inferBatch1 (st : DetState σ) (baseresult : List (Hands K)) :
    DetState σ × List (Hands K) × Status :=
  (List.range net.sessionBatch).foldl (fun s i => net.inferPass fill runs baseinput i s)
    (st, resize net.sessionBatch baseresult, .ok)

/-- `Inference` without `net_batch1`. -/
def inferBatch (postProcess : ℕ → ℕ → (ℕ → ℕ → K) → List (Hands K) → List (Hands K))
    (run : RunNet σ K) (st : DetState σ) (baseresult : List (Hands K)) :
    DetState σ × List (Hands K) × Status :=
  let st := net.preProcess fill baseinput st
  let ret := run st.slots
  let baseresult :=
    match ret.1 with
    | .ok => postProcess st.originImgHeight st.originImgWidth ret.2 baseresult
    | .error => resize net.otensor.mBatch baseresult
  (st, baseresult, ret.1)

/-- `Inference`: one run for the batch, or one for each image. -/
def inference (st : DetState σ) (baseresult : List (Hands K)) :
    DetState σ × List (Hands K) × Status :=
  if net.netBatch1 then net.inferBatch1 fill runs baseinput st baseresult
  else net.inferBatch fill baseinput net.postProcess (runs 0) st baseresult

end HandDetectNet

/-- The same with the own `PostProcess`; the loop uses what is inherited. -/
def HandDetectNetv2.inference [Field K] [LinearOrder K] [FloorRing K] (net : HandDetectNetv2 K)
    (runs : ℕ → RunNet σ K) (baseinput : List Image) (st : DetState σ)
    (baseresult : List (Hands K)) : DetState σ × List (Hands K) × Status :=
  if net.netBatch1 then net.inferBatch1 fill runs baseinput st baseresult
  else net.inferBatch fill baseinput net.postProcess (runs 0) st baseresult

end Code

/-! ### The input tensors after `PreProcess`

As many images as the session has slots: image `i` goes to slot `i % m_batch` of the tensor
`i / m_batch`. -/

section PreProcess

variable {σ K : Type} {fill : ℕ → ℕ → Image → σ → σ} (net : HandDetectNet K)

namespace HandDetectNet

/-- What an image leaves in a slot of an input tensor. -/
def fillSlot (fill : ℕ → ℕ → Image → σ → σ) (net : HandDetectNet K) (multiI : ℕ) (img : Image)
    (slot : σ) : σ :=
  fill (net.itensorFormat.height (net.itensor.mDims multiI))
    (net.itensorFormat.width (net.itensor.mDims multiI)) img slot

/-- Images are written from slot `k` on. -/
def writeFrom (fill : ℕ → ℕ → Image → σ → σ) (net : HandDetectNet K) (k : ℕ)
    (imgs : List Image) (st : DetState σ) : DetState σ :=
  (imgs.zipIdx k).foldl
    (fun st p =>
      net.writeImage fill (p.2 / net.itensor.mBatch) (p.2 % net.itensor.mBatch) p.1 st)
    st

variable {net} {k : ℕ} {imgs : List Image} {st : DetState σ}

theorem writeImage_slots_self (m b : ℕ) (img : Image) (st : DetState σ) :
    (net.writeImage fill m b img st).slots m b = net.fillSlot fill m img (st.slots m b) :=
  if_pos ⟨rfl, rfl⟩

theorem writeImage_slots_of_ne {m b m' b' : ℕ} (h : ¬(m = m' ∧ b = b')) (img : Image)
    (st : DetState σ) : (net.writeImage fill m' b' img st).slots m b = st.slots m b :=
  if_neg h

theorem writeFrom_cons {img : Image} :
    net.writeFrom fill k (img :: imgs) st =
      net.writeFrom fill (k + 1) imgs
        (net.writeImage fill (k / net.itensor.mBatch) (k % net.itensor.mBatch) img st) := by
  unfold writeFrom
  rw [List.zipIdx_cons, List.foldl_cons]

/-- The slots in front stay. -/
theorem writeFrom_slots_of_lt {i : ℕ} (hi : i < k) :
    (net.writeFrom fill k imgs st).slots (i / net.itensor.mBatch) (i % net.itensor.mBatch) =
      st.slots (i / net.itensor.mBatch) (i % net.itensor.mBatch) := by
  induction imgs generalizing k st with
  | nil => rfl
  | cons img imgs ih =>
    have hne : ¬(i / net.itensor.mBatch = k / net.itensor.mBatch ∧
        i % net.itensor.mBatch = k % net.itensor.mBatch) := by
      rintro ⟨hdiv, hmod⟩
      have hi' := Nat.div_add_mod i net.itensor.mBatch
      rw [hdiv, hmod, Nat.div_add_mod] at hi'
      omega
    rw [writeFrom_cons, ih (Nat.lt_succ_of_lt hi), writeImage_slots_of_ne hne]

theorem writeFrom_slots {j : ℕ} {img : Image} (hj : imgs[j]? = some img) :
    (net.writeFrom fill k imgs st).slots ((k + j) / net.itensor.mBatch)
        ((k + j) % net.itensor.mBatch) =
      net.fillSlot fill ((k + j) / net.itensor.mBatch) img
        (st.slots ((k + j) / net.itensor.mBatch) ((k + j) % net.itensor.mBatch)) := by
  induction imgs generalizing k j st with
  | nil => cases hj
  | cons img' imgs ih =>
    rw [writeFrom_cons]
    cases j with
    | zero =>
      obtain rfl : img' = img := Option.some.inj hj
      rw [writeFrom_slots_of_lt (by omega)]
      exact writeImage_slots_self _ _ img' st
    | succ j =>
      have hne : ¬((k + (j + 1)) / net.itensor.mBatch = k / net.itensor.mBatch ∧
          (k + (j + 1)) % net.itensor.mBatch = k % net.itensor.mBatch) := by
        rintro ⟨hdiv, hmod⟩
        have hk := Nat.div_add_mod (k + (j + 1)) net.itensor.mBatch
        rw [hdiv, hmod, Nat.div_add_mod] at hk
        omega
      have hrest := @ih (k + 1)
        (net.writeImage fill (k / net.itensor.mBatch) (k % net.itensor.mBatch) img' st) j hj
      rw [show k + 1 + j = k + (j + 1) by omega, writeImage_slots_of_ne hne] at hrest
      exact hrest

/-- The size of the last image is kept. -/
theorem writeFrom_origin {img : Image} (hlast : imgs.getLast? = some img) :
    (net.writeFrom fill k imgs st).originImgHeight = img.rows ∧
      (net.writeFrom fill k imgs st).originImgWidth = img.cols := by
  obtain ⟨imgs, rfl⟩ := List.getLast?_eq_some_iff.mp hlast
  unfold writeFrom
  rw [List.zipIdx_append, List.foldl_append, List.zipIdx_singleton, List.foldl_cons,
    List.foldl_nil]
  exact ⟨rfl, rfl⟩

theorem preProcess_eq
    (hn : net.itensor.mBatch * net.itensor.mMultishapeNum = imgs.length) :
    net.preProcess fill imgs st = net.writeFrom fill 0 imgs st := by
  unfold preProcess
  exact if_neg (not_not.mpr hn)

theorem preProcess_slots (hn : net.itensor.mBatch * net.itensor.mMultishapeNum = imgs.length)
    {i : ℕ} {img : Image} (hi : imgs[i]? = some img) :
    (net.preProcess fill imgs st).slots (i / net.itensor.mBatch) (i % net.itensor.mBatch) =
      net.fillSlot fill (i / net.itensor.mBatch) img
        (st.slots (i / net.itensor.mBatch) (i % net.itensor.mBatch)) := by
  have hslots : (net.writeFrom fill 0 imgs st).slots ((0 + i) / net.itensor.mBatch)
        ((0 + i) % net.itensor.mBatch) =
      net.fillSlot fill ((0 + i) / net.itensor.mBatch) img
        (st.slots ((0 + i) / net.itensor.mBatch) ((0 + i) % net.itensor.mBatch)) :=
    writeFrom_slots hi
  rwa [Nat.zero_add, ← preProcess_eq hn] at hslots

/-- With one input tensor, image `b` goes to slot `b`. -/
theorem preProcess_slots_zero (hshape : net.itensor.mMultishapeNum = 1)
    (hn : imgs.length = net.itensor.mBatch) {b : ℕ} {img : Image} (hb : imgs[b]? = some img) :
    (net.preProcess fill imgs st).slots 0 b = net.fillSlot fill 0 img (st.slots 0 b) := by
  have hlt : b < net.itensor.mBatch := by
    rw [← hn]
    exact (List.getElem?_eq_some_iff.mp hb).1
  have hslots : (net.preProcess fill imgs st).slots (b / net.itensor.mBatch)
        (b % net.itensor.mBatch) =
      net.fillSlot fill (b / net.itensor.mBatch) img
        (st.slots (b / net.itensor.mBatch) (b % net.itensor.mBatch)) :=
    preProcess_slots (by rw [hshape, Nat.mul_one, hn]) hb
  rwa [Nat.div_eq_of_lt hlt, Nat.mod_eq_of_lt hlt] at hslots

/-- The size of the last image counts. -/
theorem preProcess_origin (hshape : net.itensor.mMultishapeNum = 1)
    (hn : imgs.length = net.itensor.mBatch) {last : Image} (hlast : imgs.getLast? = some last) :
    (net.preProcess fill imgs st).originImgHeight = last.rows ∧
      (net.preProcess fill imgs st).originImgWidth = last.cols := by
  rw [preProcess_eq (by rw [hshape, Nat.mul_one, hn])]
  exact writeFrom_origin hlast

/-- Pass `batchn` writes the slots 0 with one image for each input tensor. -/
theorem preProcessSingle_slots
    (hn : net.sessionBatch * net.itensor.mMultishapeNum = imgs.length) {batchn m : ℕ}
    (hm : m < net.itensor.mMultishapeNum) {img : Image}
    (hi : imgs[net.itensor.mMultishapeNum * batchn + m]? = some img) :
    (net.preProcessSingle fill imgs batchn st).slots m 0 =
      net.fillSlot fill m img (st.slots m 0) := by
  unfold preProcessSingle
  rw [if_neg (not_not.mpr hn)]
  suffices h : ∀ n, ((List.range n).foldl
      (fun st i =>
        match imgs[net.itensor.mMultishapeNum * batchn + i]? with
        | some img => net.writeImage fill i 0 img st
        | none => st) st).slots m 0 =
      if m < n then net.fillSlot fill m img (st.slots m 0) else st.slots m 0 by
    rw [h, if_pos hm]
  intro n
  induction n with
  | zero => rfl
  | succ n ih =>
    rw [List.range_succ, List.foldl_append, List.foldl_cons, List.foldl_nil]
    rcases eq_or_ne n m with rfl | hne
    · rw [hi, writeImage_slots_self, ih, if_neg (lt_irrefl n), if_pos (Nat.lt_succ_self n)]
    · have hstep : (if m < n then net.fillSlot fill m img (st.slots m 0) else st.slots m 0) =
          if m < n + 1 then net.fillSlot fill m img (st.slots m 0) else st.slots m 0 :=
        if_congr (by omega) rfl rfl
      rw [← hstep, ← ih]
      split
      · exact writeImage_slots_of_ne (fun h => hne h.1.symm) _ _
      · rfl

theorem preProcessSingle_eq (hshape : net.itensor.mMultishapeNum = 1)
    (hn : imgs.length = net.sessionBatch) {b : ℕ} {img : Image} (hb : imgs[b]? = some img) :
    net.preProcessSingle fill imgs b st = net.writeImage fill 0 0 img st := by
  unfold preProcessSingle
  rw [if_neg (by rw [hshape, Nat.mul_one, hn]; simp), hshape]
  simp [hb]

end HandDetectNet

end PreProcess

/-! ### The boxes of one image

`PostProcessSingle` goes through the output tensors, and for each hand the first tensor with a
box of it counts. -/

section Found

variable {K : Type} [Field K] [LinearOrder K]

namespace HandDetectNet

variable (net : HandDetectNet K)

/-- The tensors that `PostProcess` does not skip. -/
def decodable (multiI : ℕ) : Prop :=
  net.otensorFormat.channels (net.otensor.mDims multiI) = featureNum ∧
    net.otensorFormat.height (net.otensor.mDims multiI) = net.gridH ∧
    net.otensorFormat.width (net.otensor.mDims multiI) = net.gridW

instance (multiI : ℕ) : Decidable (net.decodable multiI) := by
  unfold decodable
  infer_instance

/-- The box of a hand, with the tensor it comes from. -/
def found (mem : ℕ → ℕ → K) (batchI : ℕ) (hand : Hand) (n : ℕ) : Option (ℕ × DetectRect K) :=
  (List.range n).findSome? fun multiI =>
    if net.decodable multiI then (leading hand (net.tmpResult mem multiI batchI)).map (multiI, ·)
    else none

theorem found_succ (mem : ℕ → ℕ → K) (batchI : ℕ) (hand : Hand) (n : ℕ) :
    net.found mem batchI hand (n + 1) =
      (net.found mem batchI hand n).or
        (if net.decodable n then (leading hand (net.tmpResult mem n batchI)).map (n, ·)
        else none) := by
  unfold found
  rw [List.range_succ, List.findSome?_append, List.findSome?_singleton]

variable [FloorRing K] (originImgHeight originImgWidth : ℕ)

/-- A box, scaled to the image as its tensor says. -/
def toImage (a : ℕ × DetectRect K) : DetectRect K :=
  scaleCoords (net.scaling originImgHeight originImgWidth a.1) a.2

variable (mem : ℕ → ℕ → K)

/-- One image in all output tensors. -/
def postHands (batchI : ℕ) (hands : Hands K) : Hands K :=
  (List.range net.otensor.mMultishapeNum).foldl
    (fun hands multiI => net.postTensor originImgHeight originImgWidth mem multiI batchI hands)
    hands

/-- The boxes of pass `batchn` go to element `batchn`. -/
theorem postProcessSingle_eq (result : List (Hands K)) (batchn : ℕ) :
    net.postProcessSingle originImgHeight originImgWidth mem result batchn =
      result.modify batchn (net.postHands originImgHeight originImgWidth mem 0) := by
  unfold postProcessSingle postHands
  induction net.otensor.mMultishapeNum with
  | zero => exact (List.modify_id batchn result).symm
  | succ n ih =>
    rw [List.range_succ, List.foldl_append, ih, List.foldl_cons, List.foldl_nil,
      List.modify_modify_eq]
    congr 1
    funext hands
    simp

variable [IsStrictOrderedRing K]

theorem postTensor_apply (multiI batchI : ℕ) (hands : Hands K) (hand : Hand) :
    net.postTensor originImgHeight originImgWidth mem multiI batchI hands hand =
      if hands hand = [] ∧ net.decodable multiI then
        ((leading hand (net.tmpResult mem multiI batchI)).map
          (scaleCoords (net.scaling originImgHeight originImgWidth multiI))).toList
      else hands hand := by
  unfold postTensor
  by_cases hdec : net.decodable multiI
  · have hsizes : ¬(net.otensorFormat.channels (net.otensor.mDims multiI) ≠ featureNum ∨
        net.otensorFormat.height (net.otensor.mDims multiI) ≠ net.gridH ∨
        net.otensorFormat.width (net.otensor.mDims multiI) ≠ net.gridW) := by
      obtain ⟨hc, hh, hw⟩ := hdec
      simp [hc, hh, hw]
    rw [if_neg hsizes, pushRects_eq fun _ => nmsSuppressed_of_mem_tmpResult]
    simp [hdec]
  · have hsizes : net.otensorFormat.channels (net.otensor.mDims multiI) ≠ featureNum ∨
        net.otensorFormat.height (net.otensor.mDims multiI) ≠ net.gridH ∨
        net.otensorFormat.width (net.otensor.mDims multiI) ≠ net.gridW := by
      rw [decodable, not_and_or, not_and_or] at hdec
      exact hdec
    rw [if_pos hsizes, if_neg fun h => hdec h.2]

theorem foldl_postTensor (batchI : ℕ) (hand : Hand) (n : ℕ) :
    (List.range n).foldl
        (fun hands multiI =>
          net.postTensor originImgHeight originImgWidth mem multiI batchI hands)
        (fun _ => []) hand =
      ((net.found mem batchI hand n).map (net.toImage originImgHeight originImgWidth)).toList := by
  induction n with
  | zero => rfl
  | succ n ih =>
    rw [List.range_succ, List.foldl_append, List.foldl_cons, List.foldl_nil, postTensor_apply, ih,
      found_succ]
    cases hfound : net.found mem batchI hand n with
    | some a => simp
    | none =>
      by_cases hdec : net.decodable n
      · rw [if_pos ⟨rfl, hdec⟩, if_pos hdec, Option.none_or, Option.map_map]
        rfl
      · rw [if_neg fun h => hdec h.2, if_neg hdec]
        rfl

/-- The boxes of one image. -/
def boxes (batchI : ℕ) : Hands K := fun hand =>
  ((net.found mem batchI hand net.otensor.mMultishapeNum).map
    (net.toImage originImgHeight originImgWidth)).toList

theorem postHands_nil (batchI : ℕ) :
    net.postHands originImgHeight originImgWidth mem batchI (fun _ => []) =
      net.boxes originImgHeight originImgWidth mem batchI :=
  funext fun hand => net.foldl_postTensor originImgHeight originImgWidth mem batchI hand _

theorem postProcess_nil :
    net.postProcess originImgHeight originImgWidth mem [] =
      (List.range net.otensor.mBatch).map (net.boxes originImgHeight originImgWidth mem) := by
  unfold postProcess resize
  rw [foldl_foldl_modify]
  exact List.map_congr_left fun b _ => net.postHands_nil originImgHeight originImgWidth mem b

end HandDetectNet

end Found

/-! ### The loop over the images -/

section Loop

variable {σ K : Type} [Field K] [LinearOrder K] [FloorRing K]

namespace HandDetectNet

variable (fill : ℕ → ℕ → Image → σ → σ) (net : HandDetectNet K) (runs : ℕ → RunNet σ K)
  (baseinput : List Image) (st : DetState σ)

/-- The members after some passes. -/
def passState : ℕ → DetState σ
  | 0 => st
  | n + 1 => net.preProcessSingle fill baseinput n (passState n)

/-- The run of a pass. -/
def passRun (n : ℕ) : Status × (ℕ → ℕ → K) :=
  runs n (net.passState fill baseinput st (n + 1)).slots

/-- The status that is left after some passes. -/
def passStatus : ℕ → Status
  | 0 => .ok
  | n + 1 => (net.passRun fill runs baseinput st n).1

/-- The boxes of the image of a pass: none if its run failed. -/
def passBoxes (n : ℕ) : Hands K :=
  let s := net.passState fill baseinput st (n + 1)
  match (net.passRun fill runs baseinput st n).1 with
  | .ok =>
    net.boxes s.originImgHeight s.originImgWidth (net.passRun fill runs baseinput st n).2 0
  | .error => fun _ => []

variable [IsStrictOrderedRing K]

theorem inferBatch1_eq :
    net.inferBatch1 fill runs baseinput st [] =
      (net.passState fill baseinput st net.sessionBatch,
        (List.range net.sessionBatch).map (net.passBoxes fill runs baseinput st),
        net.passStatus fill runs baseinput st net.sessionBatch) := by
  suffices h : ∀ m ≤ net.sessionBatch,
      (List.range m).foldl (fun s i => net.inferPass fill runs baseinput i s)
        (st, resize net.sessionBatch [], .ok) =
      (net.passState fill baseinput st m,
        (List.range net.sessionBatch).map fun b =>
          if b < m then net.passBoxes fill runs baseinput st b else fun _ => [],
        net.passStatus fill runs baseinput st m) by
    rw [inferBatch1, h _ le_rfl, map_range_of_le le_rfl]
  intro m
  induction m with
  | zero =>
    intro _
    simp [resize, passState, passStatus]
  | succ m ih =>
    intro hm
    rw [List.range_succ, List.foldl_append, ih (Nat.le_of_succ_le hm), List.foldl_cons,
      List.foldl_nil, inferPass]
    refine Prod.ext rfl (Prod.ext ?_ rfl)
    -- the pass changes its own element, and that only if its run succeeds
    cases hret : (net.passRun fill runs baseinput st m).1 with
    | ok =>
      have hboxes : net.postHands (net.passState fill baseinput st (m + 1)).originImgHeight
          (net.passState fill baseinput st (m + 1)).originImgWidth
          (net.passRun fill runs baseinput st m).2 0 (fun _ => []) =
          net.passBoxes fill runs baseinput st m := by
        unfold passBoxes
        rw [hret]
        exact net.postHands_nil _ _ _ 0
      rw [← modify_map_range net.sessionBatch m _ hboxes, ← postProcessSingle_eq]
      simp only [passRun, passState] at hret
      simp only [hret]
      rfl
    | error =>
      have hboxes : id (fun _ => []) = net.passBoxes fill runs baseinput st m := by
        unfold passBoxes
        rw [hret]
        rfl
      rw [← modify_map_range net.sessionBatch m id hboxes, List.modify_id]
      simp only [passRun, passState] at hret
      simp only [hret]

end HandDetectNet

end Loop

end Detect

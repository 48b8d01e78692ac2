/-
The outputs of the keypoint network, `RTMTiny::PostProcess` and `RTMTinyFlora::PostProcess`.

Both go over the tensors of the output, and for each of them over the elements of the batch.
What a tensor is for is told by its name: the scores of a held object, the raw features, or one
coordinate of the keypoints as a distribution over the columns of a heatmap.

* `processTensor` — one tensor for one element of the batch, for each of the two networks;
* `foldl_processTensor_perm` — the keypoints, the depths and the features are the same in every
  order of the tensors;
* `rtmTiny_holdLabels` — the hold label of `RTMTiny` is that of its tensor, in every order;
* `rtmTinyFlora_right_iff` — `RTMTinyFlora` forgets a held object at the next tensor.
-/
import HandTracking.CameraModel
import HandTracking.Softmax

namespace Rtm

open Camera

variable {K : Type}

/-- `linspace` of `common/math.h`, without its end. -/
def linspace [Field K] (start stop : K) (numPoints : ℕ) : List K :=
  let step := (stop - start) / numPoints
  (List.range numPoints).map fun i : ℕ => start + i * step

/-! ### Tensors and results -/

/-- A tensor of floats: its name, its dimensions and its memory. -/
structure OutTensor (K : Type) where
  mName : String
  mDims : ℕ → ℕ
  data : ℕ → K

/-- The floats of one element of the batch. -/
def OutTensor.floats (t : OutTensor K) (batchI : ℕ) : List K :=
  let channel := t.mDims 0
  let width := t.mDims 1
  let height := t.mDims 2
  let memSize := channel * height * width
  (List.range memSize).map fun j => t.data (batchI * height * width * channel + j)

/-- `Kpt2dResult`: one list for each image of the batch. -/
structure Kpt2dResult (K : Type) where
  kpts : List (List (Vec2 K)) := []
  scores : List (List K) := []
  rdepths : List (List K) := []
  holdLabels : List Bool := []
  rawFeats : List (List K) := []

/-- The members of a `Kpt2dResult` at one element of the batch. -/
structure Kpt2dEntry (K : Type) where
  kpts : List (Vec2 K)
  rdepths : List K
  holdLabel : Bool
  rawFeats : List K

/-- The network, with what `Init` reads from its first tensors. -/
structure RtmNet (K : Type) where
  packedByBatch : Bool
  mBatch : ℕ
  inputShape : ℕ
  keypointNum : ℕ
  mulCoeff : List K
  handLabelClsThr : K
  /-- `softmax_last_dim`, on either platform. -/
  softmaxLastDim : (ℤ → K) → (ℤ → K) → (Fin 3 → ℤ) → ℤ → K

/-- The two versions of `softmax_last_dim`. -/
def softmaxLastDim [Field K] [LinearOrder K] (exp : K → K) (android : Bool) :
    (ℤ → K) → (ℤ → K) → (Fin 3 → ℤ) → ℤ → K :=
  if android then Softmax.softmaxLastDimAsm exp else Softmax.softmaxLastDimNaive exp

/-- `Init`: the first tensor of each side tells the sizes. -/
def init [Field K] (packedByBatch : Bool) (mBatch : ℕ) (itensor : ℕ → ℕ) (otensor : OutTensor K)
    (softmaxLastDim : (ℤ → K) → (ℤ → K) → (Fin 3 → ℤ) → ℤ → K) : RtmNet K where
  packedByBatch := packedByBatch
  mBatch := mBatch
  inputShape := itensor 1
  keypointNum := otensor.mDims 0
  mulCoeff := linspace 0 1 (otensor.mDims 1)
  handLabelClsThr := 1
  softmaxLastDim := softmaxLastDim

section Process

variable [Field K]

/-- `std::inner_product` with the coefficients. -/
def innerProduct (mulCoeff : List K) (data : ℕ → K) : K :=
  (mulCoeff.zipIdx.map fun c => c.1 * data c.2).sum

/-- `std::vector::resize` -/
def resize {α : Type} (l : List α) (n : ℕ) (a : α) : List α :=
  l.take n ++ List.replicate (n - l.length) a

namespace RtmNet

variable (net : RtmNet K)

/-- The mean column of heatmap `i`, between 0 and 1. -/
def expectation (t : OutTensor K) (batchI i : ℕ) : K :=
  let channel := 1
  let height := t.mDims 0
  let width := t.mDims 1
  let data : ℤ → K := fun x => t.data (batchI * height * width * channel + x.toNat)
  let kptSoftmaxData := net.softmaxLastDim data (fun _ => 0) ![1, height, width]
  innerProduct net.mulCoeff fun j => kptSoftmaxData (i * width + j)

/-- The buffers get the size of the hand. -/
def sized (e : Kpt2dEntry K) : Kpt2dEntry K :=
  if e.kpts.length ≠ net.keypointNum then
    { e with
      kpts := resize e.kpts net.keypointNum 0
      rdepths := resize e.rdepths net.keypointNum 0 }
  else e

/-- The loop over the keypoints, for one of them. -/
def processKeypoint (t : OutTensor K) (batchI : ℕ) (e : Kpt2dEntry K) (i : ℕ) : Kpt2dEntry K :=
  let e :=
    if t.mName = "feat_x" then
      { e with
        kpts := e.kpts.modify i fun p => ![net.expectation t batchI i * net.inputShape, p 1] }
    else e
  let e :=
    if t.mName = "feat_y" then
      { e with
        kpts := e.kpts.modify i fun p => ![p 0, net.expectation t batchI i * net.inputShape] }
    else e
  if t.mName = "feat_z" then
    { e with rdepths := e.rdepths.set i ((net.expectation t batchI i - 0.5) * 0.4) }
  else e

/-- The end of the body of the loops, for a tensor with heatmaps. -/
def processFeature (t : OutTensor K) (batchI : ℕ) (e : Kpt2dEntry K) : Kpt2dEntry K :=
  (List.range net.keypointNum).foldl (net.processKeypoint t batchI) (net.sized e)

variable [LinearOrder K]

/-- The score of a held object, with the threshold. -/
def processHeld (t : OutTensor K) (batchI : ℕ) (e : Kpt2dEntry K) : Kpt2dEntry K :=
  let e := { e with holdLabel := false }
  if net.handLabelClsThr < t.data batchI then { e with holdLabel := true } else e

/-- The body of the loops of `RTMTiny::PostProcess`. -/
def processTensor (t : OutTensor K) (batchI : ℕ) (e : Kpt2dEntry K) : Kpt2dEntry K :=
  if t.mName = "hold_cls" then net.processHeld t batchI e
  else net.processFeature t batchI e

/-- The body of the loops of `RTMTinyFlora::PostProcess`. -/
def processTensorFlora (t : OutTensor K) (batchI : ℕ) (e : Kpt2dEntry K) : Kpt2dEntry K :=
  let e := { e with holdLabel := false }
  if t.mName = "held_cls" then net.processHeld t batchI e
  else if t.mName = "raw_feats" then { e with rawFeats := t.floats batchI }
  else net.processFeature t batchI e

end RtmNet

/-! ### The loops -/

/-- The resized members, element by element. -/
def Kpt2dResult.entries (result : Kpt2dResult K) (mBatch : ℕ) (b : Fin mBatch) : Kpt2dEntry K where
  kpts := result.kpts.getD b []
  rdepths := result.rdepths.getD b []
  holdLabel := result.holdLabels.getD b false
  rawFeats := result.rawFeats.getD b []

/-- The loops over the tensors and the batch. -/
def processTensors {mBatch : ℕ} (process : OutTensor K → ℕ → Kpt2dEntry K → Kpt2dEntry K)
    (tensors : List (OutTensor K)) (entries : Fin mBatch → Kpt2dEntry K) :
    Fin mBatch → Kpt2dEntry K :=
  tensors.foldl
    (fun entries t => (List.finRange mBatch).foldl
      (fun entries b => Function.update entries b (process t b (entries b))) entries)
    entries

variable [LinearOrder K]

/-- `RTMTiny::PostProcess`; the raw features are not its own. -/
def RtmNet.postProcess (net : RtmNet K) (tensors : List (OutTensor K)) (result : Kpt2dResult K) :
    Kpt2dResult K :=
  if net.packedByBatch then
    let entries := processTensors net.processTensor tensors (result.entries net.mBatch)
    { result with
      kpts := List.ofFn fun b => (entries b).kpts
      rdepths := List.ofFn fun b => (entries b).rdepths
      holdLabels := List.ofFn fun b => (entries b).holdLabel }
  else result

/-- `RTMTinyFlora::PostProcess` -/
def RtmNet.postProcessFlora (net : RtmNet K) (tensors : List (OutTensor K))
    (result : Kpt2dResult K) : Kpt2dResult K :=
  if net.packedByBatch then
    let entries := processTensors net.processTensorFlora tensors (result.entries net.mBatch)
    { result with
      kpts := List.ofFn fun b => (entries b).kpts
      rdepths := List.ofFn fun b => (entries b).rdepths
      holdLabels := List.ofFn fun b => (entries b).holdLabel
      rawFeats := List.ofFn fun b => (entries b).rawFeats }
  else result

end Process

/-! ### One tensor at a time -/

section Loops

/-- A loop that works on each element of the batch by itself. -/
theorem foldl_update_self {ι α : Type} [DecidableEq ι] (f : ι → α → α) {l : List ι}
    (hl : l.Nodup) (s : ι → α) (b : ι) :
    l.foldl (fun s b => Function.update s b (f b (s b))) s b =
      if b ∈ l then f b (s b) else s b := by
  induction l generalizing s with
  | nil => rfl
  | cons a l ih =>
    obtain ⟨ha, hl⟩ := List.nodup_cons.mp hl
    rw [List.foldl_cons, ih hl]
    by_cases hb : b = a
    · subst hb
      rw [if_neg ha, if_pos List.mem_cons_self, Function.update_self]
    · rw [Function.update_of_ne hb]
      simp [hb]

theorem processTensors_apply {mBatch : ℕ}
    (process : OutTensor K → ℕ → Kpt2dEntry K → Kpt2dEntry K) (tensors : List (OutTensor K))
    (entries : Fin mBatch → Kpt2dEntry K) (b : Fin mBatch) :
    processTensors process tensors entries b =
      tensors.foldl (fun e t => process t b e) (entries b) := by
  induction tensors generalizing entries with
  | nil => rfl
  | cons t tensors ih =>
    have hloop := foldl_update_self (fun b : Fin mBatch => process t b)
      (List.nodup_finRange mBatch) entries b
    rw [if_pos (List.mem_finRange b)] at hloop
    exact (ih _).trans (congrArg (tensors.foldl fun e t => process t b e) hloop)

theorem modify_mapIdx {α : Type} (l : List α) (f : ℕ → α → α) (m : ℕ) (g : α → α) :
    (l.mapIdx f).modify m g = l.mapIdx fun i a => if i = m then g (f i a) else f i a := by
  apply List.ext_getElem?
  intro i
  rw [List.getElem?_modify, List.getElem?_mapIdx, List.getElem?_mapIdx]
  by_cases hi : m = i
  · subst hi
    simp [Function.comp_def]
  · simp [hi, Ne.symm hi]

theorem mapIdx_self {α : Type} (l : List α) : l.mapIdx (fun _ a => a) = l := by
  apply List.ext_getElem?
  intro i
  rw [List.getElem?_mapIdx]
  exact Option.map_id'

theorem length_resize {α : Type} (l : List α) (n : ℕ) (a : α) : (resize l n a).length = n := by
  simp only [resize, List.length_append, List.length_take, List.length_replicate]
  omega

/-- Two writes that do not both happen. -/
theorem write_comm {α : Type} {P Q : Prop} [Decidable P] [Decidable Q] (h : ¬ (P ∧ Q))
    (a b c : α) : (if P then a else if Q then b else c) = if Q then b else if P then a else c := by
  by_cases hP : P
  · have hQ : ¬ Q := fun hQ => h ⟨hP, hQ⟩
    rw [if_pos hP, if_neg hQ, if_pos hP]
  · rw [if_neg hP, if_neg hP]

/-- Lists that are written index by index. -/
theorem mapIdx_comm {α : Type} {f g : ℕ → α → α} (hfg : ∀ i a, f i (g i a) = g i (f i a)) (n : ℕ)
    (l : List α) :
    (l.mapIdx fun i a => if i < n then g i a else a).mapIdx
        (fun i a => if i < n then f i a else a) =
      (l.mapIdx fun i a => if i < n then f i a else a).mapIdx
        fun i a => if i < n then g i a else a := by
  apply List.ext_getElem?
  intro i
  simp only [List.getElem?_mapIdx, Option.map_map]
  congr 1
  funext a
  by_cases hi : i < n
  · simp only [Function.comp_apply, if_pos hi, hfg]
  · simp only [Function.comp_apply, if_neg hi]

end Loops

/-! ### What a tensor writes -/

section Writes

variable [Field K] (net : RtmNet K) (t : OutTensor K) (batchI : ℕ)

namespace RtmNet

/-- What a tensor writes to the pixel of a keypoint. -/
def writeKpt (i : ℕ) (p : Vec2 K) : Vec2 K :=
  if t.mName = "feat_x" then ![net.expectation t batchI i * net.inputShape, p 1]
  else if t.mName = "feat_y" then ![p 0, net.expectation t batchI i * net.inputShape]
  else p

/-- What it writes to the depth of a keypoint. -/
def writeDepth (i : ℕ) (r : K) : K :=
  if t.mName = "feat_z" then (net.expectation t batchI i - 0.5) * 0.4 else r

theorem processKeypoint_eq (e : Kpt2dEntry K) (i : ℕ) :
    net.processKeypoint t batchI e i =
      { e with
        kpts := e.kpts.modify i (net.writeKpt t batchI i)
        rdepths := e.rdepths.modify i (net.writeDepth t batchI i) } := by
  have hid : ∀ {α : Type} (l : List α) (f : α → α), (∀ a, f a = a) → l.modify i f = l := by
    intro α l f hf
    rw [show f = id from funext hf, List.modify_id]
  unfold processKeypoint writeKpt writeDepth
  by_cases hx : t.mName = "feat_x"
  · have hz : ("feat_x" : String) ≠ "feat_z" := by decide
    have hy : ("feat_x" : String) ≠ "feat_y" := by decide
    simp only [hx, if_true, if_neg hz, if_neg hy]
    rw [hid e.rdepths _ fun _ => rfl]
  · by_cases hy : t.mName = "feat_y"
    · have hz : ("feat_y" : String) ≠ "feat_z" := by decide
      have hx' : ("feat_y" : String) ≠ "feat_x" := by decide
      simp only [hy, if_true, if_neg hz, if_neg hx']
      rw [hid e.rdepths _ fun _ => rfl]
    · simp only [if_neg hx, if_neg hy]
      rw [hid e.kpts _ fun _ => rfl]
      split_ifs with hz
      · rw [List.set_eq_modify]
      · rw [hid e.rdepths _ fun _ => rfl]

/-- The keypoints after a tensor with heatmaps. -/
def featureKpts (kpts : List (Vec2 K)) : List (Vec2 K) :=
  (if kpts.length ≠ net.keypointNum then resize kpts net.keypointNum 0 else kpts).mapIdx
    fun i p => if i < net.keypointNum then net.writeKpt t batchI i p else p

/-- The depths; whether they are resized is told by the keypoints. -/
def featureDepths (kpts : List (Vec2 K)) (rdepths : List K) : List K :=
  (if kpts.length ≠ net.keypointNum then resize rdepths net.keypointNum 0 else rdepths).mapIdx
    fun i r => if i < net.keypointNum then net.writeDepth t batchI i r else r

theorem foldl_processKeypoint (e : Kpt2dEntry K) (m : ℕ) :
    (List.range m).foldl (net.processKeypoint t batchI) e =
      { e with
        kpts := e.kpts.mapIdx fun i p => if i < m then net.writeKpt t batchI i p else p
        rdepths := e.rdepths.mapIdx fun i r =>
          if i < m then net.writeDepth t batchI i r else r } := by
  induction m with
  | zero =>
    simp only [Nat.not_lt_zero, if_false, mapIdx_self]
    rfl
  | succ m ih =>
    have hnext : ∀ {α : Type} (f : ℕ → α → α) (i : ℕ) (a : α),
        (if i = m then f m (if i < m then f i a else a) else if i < m then f i a else a) =
          if i < m + 1 then f i a else a := by
      intro α f i a
      by_cases him : i = m
      · subst him
        simp
      · have hiff : i < m ↔ i < m + 1 := by omega
        simp only [if_neg him, hiff]
    rw [List.range_succ, List.foldl_append, ih, List.foldl_cons, List.foldl_nil,
      processKeypoint_eq]
    simp only [modify_mapIdx, hnext]

theorem processFeature_eq (e : Kpt2dEntry K) :
    net.processFeature t batchI e =
      { e with
        kpts := net.featureKpts t batchI e.kpts
        rdepths := net.featureDepths t batchI e.kpts e.rdepths } := by
  rw [processFeature, foldl_processKeypoint]
  unfold sized featureKpts featureDepths
  split_ifs with hsize
  · rfl
  · rfl

/-- A keypoint, coordinate by coordinate. -/
theorem writeKpt_eq (i : ℕ) (p : Vec2 K) :
    net.writeKpt t batchI i p =
      ![if t.mName = "feat_x" then net.expectation t batchI i * net.inputShape else p 0,
        if t.mName = "feat_y" then net.expectation t batchI i * net.inputShape else p 1] := by
  have hp : p = ![p 0, p 1] := by
    funext k
    fin_cases k <;> rfl
  unfold writeKpt
  by_cases hx : t.mName = "feat_x"
  · have hy : ("feat_x" : String) ≠ "feat_y" := by decide
    rw [if_pos hx, if_pos hx, hx, if_neg hy]
  · rw [if_neg hx, if_neg hx]
    split_ifs with hy
    · rfl
    · exact hp

variable {t} {t' : OutTensor K} (h : t.mName ≠ t'.mName)

include h

omit [Field K] in
theorem not_both_named (name : String) : ¬ (t.mName = name ∧ t'.mName = name) :=
  fun hboth => h (hboth.1.trans hboth.2.symm)

theorem writeKpt_comm (i : ℕ) (p : Vec2 K) :
    net.writeKpt t batchI i (net.writeKpt t' batchI i p) =
      net.writeKpt t' batchI i (net.writeKpt t batchI i p) := by
  simp only [writeKpt_eq]
  funext k
  fin_cases k
  · exact write_comm (not_both_named h "feat_x") _ _ _
  · exact write_comm (not_both_named h "feat_y") _ _ _

theorem writeDepth_comm (i : ℕ) (r : K) :
    net.writeDepth t batchI i (net.writeDepth t' batchI i r) =
      net.writeDepth t' batchI i (net.writeDepth t batchI i r) :=
  write_comm (not_both_named h "feat_z") _ _ _

omit h in
theorem length_featureKpts (kpts : List (Vec2 K)) :
    (net.featureKpts t batchI kpts).length = net.keypointNum := by
  rw [featureKpts, List.length_mapIdx]
  split_ifs with hsize
  · exact length_resize ..
  · exact not_not.mp hsize

theorem featureKpts_comm (kpts : List (Vec2 K)) :
    net.featureKpts t batchI (net.featureKpts t' batchI kpts) =
      net.featureKpts t' batchI (net.featureKpts t batchI kpts) := by
  -- the second of the two finds keypoints of the right number
  have hsized : ∀ (t : OutTensor K) {l : List (Vec2 K)}, l.length = net.keypointNum →
      net.featureKpts t batchI l =
        l.mapIdx fun i p => if i < net.keypointNum then net.writeKpt t batchI i p else p := by
    intro t l hl
    rw [featureKpts, if_neg (not_not.mpr hl)]
  rw [hsized t (length_featureKpts net batchI kpts), hsized t' (length_featureKpts net batchI kpts)]
  exact mapIdx_comm (writeKpt_comm net batchI h) net.keypointNum _

theorem featureDepths_comm (kpts : List (Vec2 K)) (rdepths : List K) :
    net.featureDepths t batchI (net.featureKpts t' batchI kpts)
        (net.featureDepths t' batchI kpts rdepths) =
      net.featureDepths t' batchI (net.featureKpts t batchI kpts)
        (net.featureDepths t batchI kpts rdepths) := by
  have hsized : ∀ (t : OutTensor K) {l : List (Vec2 K)} (rdepths : List K),
      l.length = net.keypointNum → net.featureDepths t batchI l rdepths =
        rdepths.mapIdx fun i r =>
          if i < net.keypointNum then net.writeDepth t batchI i r else r := by
    intro t l rdepths hl
    rw [featureDepths, if_neg (not_not.mpr hl)]
  rw [hsized t _ (length_featureKpts net batchI kpts),
    hsized t' _ (length_featureKpts net batchI kpts)]
  exact mapIdx_comm (writeDepth_comm net batchI h) net.keypointNum _

end RtmNet

end Writes

/-! ### All tensors -/

section Runs

variable [Field K] [LinearOrder K] (net : RtmNet K) {t t' : OutTensor K} (b : ℕ)

/-- Without the hold label. -/
def Kpt2dEntry.forget (e : Kpt2dEntry K) : Kpt2dEntry K := { e with holdLabel := false }

namespace RtmNet

/-- What a tensor does apart from the hold label. -/
theorem forget_processTensorFlora (t : OutTensor K) (e : Kpt2dEntry K) :
    (net.processTensorFlora t b e).forget =
      if t.mName = "held_cls" then e.forget
      else if t.mName = "raw_feats" then { e.forget with rawFeats := t.floats b }
      else
        { e.forget with
          kpts := net.featureKpts t b e.kpts
          rdepths := net.featureDepths t b e.kpts e.rdepths } := by
  unfold processTensorFlora processHeld
  split_ifs with hheld hscore hraw
  · rfl
  · rfl
  · rfl
  · rw [processFeature_eq]
    rfl

theorem forget_processTensorFlora_forget (t : OutTensor K) (e : Kpt2dEntry K) :
    (net.processTensorFlora t b e.forget).forget = (net.processTensorFlora t b e).forget := by
  rw [forget_processTensorFlora, forget_processTensorFlora]
  rfl

/-- Tensors of different names work on different parts of the result. -/
theorem forget_processTensorFlora_comm (h : t.mName ≠ t'.mName) (e : Kpt2dEntry K) :
    (net.processTensorFlora t b (net.processTensorFlora t' b e).forget).forget =
      (net.processTensorFlora t' b (net.processTensorFlora t b e).forget).forget := by
  simp only [forget_processTensorFlora net b]
  by_cases hheld : t.mName = "held_cls"
  · simp only [if_pos hheld]
    split_ifs <;> rfl
  · by_cases hheld' : t'.mName = "held_cls"
    · simp only [if_pos hheld']
      split_ifs <;> rfl
    · simp only [if_neg hheld, if_neg hheld']
      by_cases hraw : t.mName = "raw_feats"
      · have hraw' : t'.mName ≠ "raw_feats" := fun heq => h (hraw.trans heq.symm)
        simp only [if_pos hraw, if_neg hraw']
        rfl
      · by_cases hraw' : t'.mName = "raw_feats"
        · simp only [if_neg hraw, if_pos hraw']
          rfl
        · simp only [if_neg hraw, if_neg hraw']
          show (⟨_, _, _, _⟩ : Kpt2dEntry K) = ⟨_, _, _, _⟩
          congr 1
          · exact featureKpts_comm net b h e.kpts
          · exact featureDepths_comm net b h e.kpts e.rdepths

/-- Apart from the hold label, a run over the tensors does not depend on their order. -/
theorem foldl_processTensor_perm {tensors tensors' : List (OutTensor K)}
    (hperm : tensors'.Perm tensors) (hnames : (tensors.map OutTensor.mName).Nodup)
    (e : Kpt2dEntry K) :
    (tensors'.foldl (fun e t => net.processTensorFlora t b e) e).forget =
      (tensors.foldl (fun e t => net.processTensorFlora t b e) e).forget := by
  have hforget : ∀ tensors : List (OutTensor K),
      (tensors.foldl (fun e t => net.processTensorFlora t b e) e).forget =
        tensors.foldl (fun e t => (net.processTensorFlora t b e).forget) e.forget := by
    intro tensors
    exact (List.foldl_hom Kpt2dEntry.forget fun e t =>
      forget_processTensorFlora_forget net b t e).symm
  rw [hforget, hforget]
  refine hperm.foldl_eq' (fun t ht t' ht' e => ?_) e.forget
  by_cases heq : t = t'
  · rw [heq]
  · have hname : t'.mName ≠ t.mName := fun hname =>
      heq (List.inj_on_of_nodup_map hnames (hperm.mem_iff.mp ht) (hperm.mem_iff.mp ht') hname.symm)
    exact forget_processTensorFlora_comm net b hname e

/-! ### The hold label -/

/-- The label after one tensor does not know of the one before. -/
theorem holdLabel_processTensorFlora (t : OutTensor K) (e : Kpt2dEntry K) :
    (net.processTensorFlora t b e).holdLabel =
      decide (t.mName = "held_cls" ∧ net.handLabelClsThr < t.data b) := by
  unfold processTensorFlora processHeld
  split_ifs with hheld hscore hraw
  · exact (decide_eq_true ⟨hheld, hscore⟩).symm
  · exact (decide_eq_false fun h => hscore h.2).symm
  · exact (decide_eq_false fun h => hheld h.1).symm
  · rw [processFeature_eq]
    exact (decide_eq_false fun h => hheld h.1).symm

theorem holdLabel_foldl_concat (tensors : List (OutTensor K)) (t : OutTensor K)
    (e : Kpt2dEntry K) :
    ((tensors ++ [t]).foldl (fun e t => net.processTensorFlora t b e) e).holdLabel =
      decide (t.mName = "held_cls" ∧ net.handLabelClsThr < t.data b) := by
  rw [List.foldl_append]
  exact holdLabel_processTensorFlora net b t _

theorem holdLabel_processTensor (t : OutTensor K) (e : Kpt2dEntry K) :
    (net.processTensor t b e).holdLabel =
      if t.mName = "hold_cls" then decide (net.handLabelClsThr < t.data b) else e.holdLabel := by
  unfold processTensor processHeld
  split_ifs with hheld hscore
  · exact (decide_eq_true hscore).symm
  · exact (decide_eq_false hscore).symm
  · rw [processFeature_eq]

/-- In `RTMTiny` only the tensor of the scores writes the label. -/
theorem holdLabel_foldl_processTensor {tensors : List (OutTensor K)} {held : OutTensor K}
    (hheld : held ∈ tensors) (hname : held.mName = "hold_cls")
    (hnames : (tensors.map OutTensor.mName).Nodup) (e : Kpt2dEntry K) :
    (tensors.foldl (fun e t => net.processTensor t b e) e).holdLabel =
      decide (net.handLabelClsThr < held.data b) := by
  induction tensors using List.reverseRecOn with
  | nil => exact absurd hheld List.not_mem_nil
  | append_singleton tensors t ih =>
    rw [List.foldl_append, List.foldl_cons, List.foldl_nil, holdLabel_processTensor]
    rw [List.map_append, List.nodup_append] at hnames
    rcases List.mem_append.mp hheld with hmem | hmem
    · have hne : t.mName ≠ "hold_cls" := by
        intro heq
        exact hnames.2.2 _ (List.mem_map_of_mem hmem) _ (List.mem_singleton_self _)
          (hname.trans heq.symm)
      rw [if_neg hne]
      exact ih hmem hnames.1
    · obtain rfl := List.mem_singleton.mp hmem
      rw [if_pos hname]

end RtmNet

end Runs

/-! ### The results -/

section Results

variable [Field K] [LinearOrder K] (net : RtmNet K)

namespace RtmNet

/-- The label of each element of the batch tells if its score exceeds the threshold. -/
def HoldLabelsRight (held : OutTensor K) (result : Kpt2dResult K) : Prop :=
  ∀ b < net.mBatch, result.holdLabels[b]? = some (decide (net.handLabelClsThr < held.data b))

/-- Keypoints, depths and features are the same in every order of the tensors. -/
def OrderIndependent (tensors : List (OutTensor K)) (result : Kpt2dResult K) : Prop :=
  ∀ tensors' : List (OutTensor K), tensors'.Perm tensors →
    (net.postProcessFlora tensors' result).kpts = (net.postProcessFlora tensors result).kpts ∧
    (net.postProcessFlora tensors' result).rdepths =
      (net.postProcessFlora tensors result).rdepths ∧
    (net.postProcessFlora tensors' result).rawFeats =
      (net.postProcessFlora tensors result).rawFeats

variable {net} {tensors : List (OutTensor K)} {held : OutTensor K}

theorem orderIndependent (hnames : (tensors.map OutTensor.mName).Nodup) (result : Kpt2dResult K) :
    net.OrderIndependent tensors result := by
  intro tensors' hperm
  unfold postProcessFlora
  by_cases hpacked : net.packedByBatch = true
  · have hentry : ∀ b : Fin net.mBatch,
        (processTensors net.processTensorFlora tensors' (result.entries net.mBatch) b).forget =
          (processTensors net.processTensorFlora tensors (result.entries net.mBatch) b).forget := by
      intro b
      rw [processTensors_apply, processTensors_apply]
      exact foldl_processTensor_perm net b hperm hnames _
    simp only [if_pos hpacked]
    refine ⟨?_, ?_, ?_⟩
    · refine congrArg List.ofFn (funext fun b => ?_)
      have hkpts := congrArg Kpt2dEntry.kpts (hentry b)
      exact hkpts
    · refine congrArg List.ofFn (funext fun b => ?_)
      have hrdepths := congrArg Kpt2dEntry.rdepths (hentry b)
      exact hrdepths
    · refine congrArg List.ofFn (funext fun b => ?_)
      have hrawFeats := congrArg Kpt2dEntry.rawFeats (hentry b)
      exact hrawFeats
  · simp only [if_neg hpacked, and_self]

theorem holdLabels_postProcessFlora (hpacked : net.packedByBatch) (result : Kpt2dResult K)
    {b : ℕ} (hb : b < net.mBatch) :
    (net.postProcessFlora tensors result).holdLabels[b]? =
      some (tensors.foldl (fun e t => net.processTensorFlora t b e)
        (result.entries net.mBatch ⟨b, hb⟩)).holdLabel := by
  rw [postProcessFlora, if_pos hpacked]
  show (List.ofFn fun b => (processTensors net.processTensorFlora tensors
    (result.entries net.mBatch) b).holdLabel)[b]? = _
  rw [List.getElem?_ofFn, dif_pos hb, processTensors_apply]

theorem holdLabels_postProcess (hpacked : net.packedByBatch) (result : Kpt2dResult K)
    {b : ℕ} (hb : b < net.mBatch) :
    (net.postProcess tensors result).holdLabels[b]? =
      some (tensors.foldl (fun e t => net.processTensor t b e)
        (result.entries net.mBatch ⟨b, hb⟩)).holdLabel := by
  rw [postProcess, if_pos hpacked]
  show (List.ofFn fun b => (processTensors net.processTensor tensors
    (result.entries net.mBatch) b).holdLabel)[b]? = _
  rw [List.getElem?_ofFn, dif_pos hb, processTensors_apply]

/-- In `RTMTiny` the place of the tensor does not matter. -/
theorem rtmTiny_holdLabels (hpacked : net.packedByBatch)
    (hnames : (tensors.map OutTensor.mName).Nodup) (hheld : held ∈ tensors)
    (hname : held.mName = "hold_cls") (result : Kpt2dResult K) :
    net.HoldLabelsRight held (net.postProcess tensors result) := by
  intro b hb
  rw [holdLabels_postProcess hpacked result hb,
    holdLabel_foldl_processTensor net b hheld hname hnames]

/-- Every tensor that comes after the scores takes the labels away. -/
theorem holdLabelsRight_iff (hpacked : net.packedByBatch)
    (hnames : (tensors.map OutTensor.mName).Nodup) (hheld : held ∈ tensors)
    (hname : held.mName = "held_cls") (result : Kpt2dResult K) :
    net.HoldLabelsRight held (net.postProcessFlora tensors result) ↔
      tensors.getLast? = some held ∨ ∀ b < net.mBatch, held.data b ≤ net.handLabelClsThr := by
  obtain ⟨front, last, rfl⟩ : ∃ front last, tensors = front ++ [last] :=
    ⟨_, _, (List.dropLast_append_getLast (List.ne_nil_of_mem hheld)).symm⟩
  have hlabel : ∀ {b : ℕ}, b < net.mBatch →
      (net.postProcessFlora (front ++ [last]) result).holdLabels[b]? =
        some (decide (last.mName = "held_cls" ∧ net.handLabelClsThr < last.data b)) := by
    intro b hb
    rw [holdLabels_postProcessFlora hpacked result hb, holdLabel_foldl_concat]
  rw [List.getLast?_concat, Option.some_inj]
  by_cases hlast : last = held
  · subst hlast
    refine iff_of_true (fun b hb => ?_) (Or.inl rfl)
    rw [hlabel hb]
    simp only [hname, true_and]
  · have hother : last.mName ≠ "held_cls" := fun heq => hlast
      (List.inj_on_of_nodup_map hnames (List.mem_append_right _ (List.mem_singleton_self last))
        hheld (heq.trans hname.symm))
    have hfalse : ∀ {b : ℕ}, b < net.mBatch →
        ((net.postProcessFlora (front ++ [last]) result).holdLabels[b]? =
          some (decide (net.handLabelClsThr < held.data b)) ↔
            held.data b ≤ net.handLabelClsThr) := by
      intro b hb
      rw [hlabel hb]
      simp only [hother, false_and, decide_false, Option.some_inj]
      rw [eq_comm, decide_eq_false_iff_not, not_lt]
    rw [or_iff_right hlast]
    exact forall₂_congr fun b hb => hfalse hb

/-- `RTMTinyFlora` is right exactly if the scores are the last tensor or none of them exceeds the
threshold. -/
theorem rtmTinyFlora_right_iff (hpacked : net.packedByBatch)
    (hnames : (tensors.map OutTensor.mName).Nodup) (hheld : held ∈ tensors)
    (hname : held.mName = "held_cls") (result : Kpt2dResult K) :
    (net.HoldLabelsRight held (net.postProcessFlora tensors result) ∧
        net.OrderIndependent tensors result) ↔
      tensors.getLast? = some held ∨ ∀ b < net.mBatch, held.data b ≤ net.handLabelClsThr := by
  rw [holdLabelsRight_iff hpacked hnames hheld hname result]
  exact and_iff_left (orderIndependent hnames result)

end RtmNet

end Results

/-! ### A held object -/

/-- The heatmaps of the columns, which say nothing. -/
def featX : OutTensor ℝ := ⟨"feat_x", fun i => [21, 256].getD i 0, fun _ => 0⟩

/-- An object is held, with the score 2. -/
def heldCls : OutTensor ℝ := ⟨"held_cls", fun i => [1].getD i 0, fun _ => 2⟩

/-- A batch of one crop of 128 pixels. -/
noncomputable def heldNet : RtmNet ℝ :=
  init true 1 (fun _ => 128) featX (softmaxLastDim Real.exp true)

theorem heldCls_last_names : ([featX, heldCls].map OutTensor.mName).Nodup := by
  show ["feat_x", "held_cls"].Nodup
  decide

theorem heldCls_first_names : ([heldCls, featX].map OutTensor.mName).Nodup := by
  show ["held_cls", "feat_x"].Nodup
  decide

theorem rtmTinyFlora_right_iff_last :
    (heldNet.HoldLabelsRight heldCls (heldNet.postProcessFlora [featX, heldCls] {}) ∧
        heldNet.OrderIndependent [featX, heldCls] {}) ↔
      [featX, heldCls].getLast? = some heldCls ∨
        ∀ b < heldNet.mBatch, heldCls.data b ≤ heldNet.handLabelClsThr :=
  RtmNet.rtmTinyFlora_right_iff rfl heldCls_last_names
    (List.mem_cons_of_mem featX (List.mem_singleton_self heldCls)) rfl {}

/-- The heatmaps after the scores take the label away. -/
theorem heldCls_first_not_right :
    ¬ ∀ tensors : List (OutTensor ℝ), (tensors.map OutTensor.mName).Nodup → heldCls ∈ tensors →
      heldNet.HoldLabelsRight heldCls (heldNet.postProcessFlora tensors {}) := by
  intro h
  have hright := h [heldCls, featX] heldCls_first_names List.mem_cons_self
  rw [RtmNet.holdLabelsRight_iff rfl heldCls_first_names List.mem_cons_self rfl] at hright
  rcases hright with hlast | hscore
  · have hname : "feat_x" = "held_cls" := congrArg OutTensor.mName (Option.some.inj hlast)
    exact absurd hname (by decide)
  · have hle : (2 : ℝ) ≤ 1 := hscore 0 Nat.one_pos
    norm_num at hle

end Rtm

/-
The two layouts of the output tensors of `HandDetectNetv2`.

In the layout with the channels last the confidence of a cell is read from channel 0 and the
two sides from 1 and 2; in the layout with the channels first they are read from 1, 2 and 3.
A tensor of three channels has no channel 3: what is read there is the next image of the
batch, or what lies behind the tensor.

* `store_slot` — where the memory holds an element, in both layouts;
* `OutputTensors.tmpResult_eq` — the boxes, in terms of the logical tensors;
* `OutputTensors.postProcess_agree_iff_sameLeader` — when the two layouts give the same boxes;
* `OutputTensors.ReadAlike` — the same as a condition on the class tensor, whatever the boxes are
  (`postProcess_agree_iff`).
-/
import HandTracking.HandDetect
import Mathlib.Tactic.NormNum

namespace Detect

open Calculator

/-! ### Tensors in memory -/

section Store

variable {α : Type}

/-- The sizes of `m_dims`. -/
def TensorFormat.mDims (c h w : ℕ) : TensorFormat → Fin 3 → ℕ
  | .chw => ![c, h, w]
  | .hwc => ![h, w, c]

variable {format : TensorFormat} {c h w : ℕ}

@[simp] theorem channels_mDims : format.channels (format.mDims c h w) = c := by
  cases format <;> rfl

@[simp] theorem height_mDims : format.height (format.mDims c h w) = h := by
  cases format <;> rfl

@[simp] theorem width_mDims : format.width (format.mDims c h w) = w := by
  cases format <;> rfl

/-- `t b ch y x` is the element of image `b`, channel `ch`, row `y` and column `x`. -/
def store (format : TensorFormat) (batch c h w : ℕ) (t : ℕ → ℕ → ℕ → ℕ → α) (behind : ℕ → α)
    (i : ℕ) : α :=
  if i < batch * h * w * c then
    match format with
    | .hwc => t (i / c / w / h) (i % c) (i / c / w % h) (i / c % w)
    | .chw => t (i / w / h / c) (i / w / h % c) (i / w % h) (i % w)
  else behind i

theorem slot_cellIdx_hwc (b y x ch : ℕ) :
    b * h * w * c + cellIdx .hwc (TensorFormat.mDims c h w .hwc) y x ch =
      ((b * h + y) * w + x) * c + ch := by
  simp only [cellIdx, channels_mDims, width_mDims]
  ring

theorem slot_cellIdx_chw (b y x ch : ℕ) :
    b * h * w * c + cellIdx .chw (TensorFormat.mDims c h w .chw) y x ch =
      ((b * c + ch) * h + y) * w + x := by
  simp only [cellIdx, height_mDims, width_mDims]
  ring

theorem store_slot {batch : ℕ} {t : ℕ → ℕ → ℕ → ℕ → α} {behind : ℕ → α} {b ch y x : ℕ}
    (hb : b < batch) (hch : ch < c) (hy : y < h) (hx : x < w) :
    store format batch c h w t behind
      (b * h * w * c + cellIdx format (format.mDims c h w) y x ch) = t b ch y x := by
  cases format with
  | hwc =>
    have hlt : ((b * h + y) * w + x) * c + ch < batch * h * w * c :=
      Nat.mul_add_lt_mul (Nat.mul_add_lt_mul (Nat.mul_add_lt_mul hb hy) hx) hch
    rw [slot_cellIdx_hwc, store, if_pos hlt]
    simp only [Nat.mul_add_div_of_lt hch, Nat.mul_add_mod_of_lt hch, Nat.mul_add_div_of_lt hx,
      Nat.mul_add_mod_of_lt hx, Nat.mul_add_div_of_lt hy, Nat.mul_add_mod_of_lt hy]
  | chw =>
    have hlt : ((b * c + ch) * h + y) * w + x < batch * h * w * c := by
      calc ((b * c + ch) * h + y) * w + x < batch * c * h * w :=
            Nat.mul_add_lt_mul (Nat.mul_add_lt_mul (Nat.mul_add_lt_mul hb hch) hy) hx
        _ = batch * h * w * c := by ring
    rw [slot_cellIdx_chw, store, if_pos hlt]
    simp only [Nat.mul_add_div_of_lt hch, Nat.mul_add_mod_of_lt hch, Nat.mul_add_div_of_lt hx,
      Nat.mul_add_mod_of_lt hx, Nat.mul_add_div_of_lt hy, Nat.mul_add_mod_of_lt hy]

/-- Behind the last channel of an image lies the first channel of the next one. -/
theorem slot_cellIdx_chw_succ (b y x : ℕ) :
    b * h * w * c + cellIdx .chw (TensorFormat.mDims c h w .chw) y x c =
      (b + 1) * h * w * c + cellIdx .chw (TensorFormat.mDims c h w .chw) y x 0 := by
  rw [slot_cellIdx_chw, slot_cellIdx_chw]
  ring

end Store

/-! ### The two output tensors -/

/-- The box and the class tensor of `HandDetectNetv2`, whatever their layout. -/
structure OutputTensors (K : Type) where
  batch : ℕ
  h : ℕ
  w : ℕ
  boxC : ℕ
  clsC : ℕ
  four_le_boxC : 4 ≤ boxC
  three_le_clsC : 3 ≤ clsC
  box : ℕ → ℕ → ℕ → ℕ → K
  cls : ℕ → ℕ → ℕ → ℕ → K

/-- The input tensor, and what lies behind the memory of the vectors and tensors. -/
structure Surroundings (K : Type) where
  inputH : ℕ
  inputW : ℕ
  behindGridAnchor : ℕ → GridAnchor K
  behindBox : ℕ → K
  behindCls : ℕ → K

namespace OutputTensors

variable {K : Type} (t : OutputTensors K) (m : Surroundings K)

/-- The session of a vendor whose tensors have the layout `format`. -/
def session (format : TensorFormat) : HandDetectNetv2 K where
  itensorFormat := format
  otensorFormat := format
  itensor := ⟨t.batch, 1, fun _ => format.mDims 1 m.inputH m.inputW⟩
  otensor := ⟨t.batch, 2, fun i => format.mDims (if i = 0 then t.boxC else t.clsC) t.h t.w⟩
  netBatch1 := false
  sessionBatch := 1
  behindGridAnchor := m.behindGridAnchor
  indexBox := 0
  indexCls := 1

/-- The memory behind the two output tensors, for the values of `t`. -/
def memory (format : TensorFormat) (i : ℕ) : ℕ → K :=
  if i = 0 then store format t.batch t.boxC t.h t.w t.box m.behindBox
  else store format t.batch t.clsC t.h t.w t.cls m.behindCls

/-- The class tensor as the layout with the channels first is read. -/
def clsAt (b ch : ℕ) (p : ℕ × ℕ) : K :=
  if ch < t.clsC then t.cls b ch p.1 p.2
  else if b + 1 < t.batch then t.cls (b + 1) 0 p.1 p.2
  else m.behindCls (b * t.h * t.w * t.clsC +
    cellIdx .chw (TensorFormat.mDims t.clsC t.h t.w .chw) p.1 p.2 ch)

variable {t m} in
/-- Up to channel 2 the class tensor is read as it is in both layouts, and only the layout with
the channels first is read further. -/
theorem memory_cls {format : TensorFormat} {b ch : ℕ} {p : ℕ × ℕ} (hb : b < t.batch)
    (hp : p.1 < t.h ∧ p.2 < t.w) (hch : ch < 3 ∨ format = .chw ∧ ch = 3) :
    t.memory m format 1 (b * t.h * t.w * t.clsC +
      cellIdx format (format.mDims t.clsC t.h t.w) p.1 p.2 ch) = t.clsAt m b ch p := by
  have hthree := t.three_le_clsC
  unfold memory clsAt
  rw [if_neg one_ne_zero]
  by_cases hlt : ch < t.clsC
  · rw [if_pos hlt, store_slot hb hlt hp.1 hp.2]
  · obtain ⟨rfl, hch⟩ := hch.resolve_left fun hlt' => hlt (hlt'.trans_le hthree)
    obtain rfl : ch = t.clsC := by omega
    rw [if_neg hlt]
    by_cases hnext : b + 1 < t.batch
    · rw [if_pos hnext, slot_cellIdx_chw_succ, store_slot hnext (by omega) hp.1 hp.2]
    · -- the last image: this is behind the tensor
      have hend : t.batch * t.h * t.w * t.clsC ≤ b * t.h * t.w * t.clsC +
          cellIdx .chw (TensorFormat.mDims t.clsC t.h t.w .chw) p.1 p.2 t.clsC := by
        rw [slot_cellIdx_chw_succ, show b + 1 = t.batch by omega]
        exact Nat.le_add_right _ _
      rw [if_neg hnext, store, if_neg (not_lt.mpr hend)]

section Read

variable [Field K]

variable {t m} in
theorem gridAnchor_session (format : TensorFormat) (i : ℕ) :
    (t.session m format).gridAnchor i = (t.session m .hwc).gridAnchor i := by
  simp [HandDetectNet.gridAnchor, HandDetectNet.gridH, HandDetectNet.gridW, session]

variable [LinearOrder K]

/-- A cell of image `b` whose confidence is in channel `k`, left and right in the next two. -/
def cell (k b : ℕ) (p : ℕ × ℕ) : Option (DetectRect K) :=
  candidateOf ((t.session m .hwc).gridAnchor (p.1 * t.w + p.2)) (fun i => t.box b i p.1 p.2)
    (t.clsAt m b k p) (t.clsAt m b (k + 1) p) (t.clsAt m b (k + 2) p)

variable {t m} {b : ℕ}

theorem tmpResult_eq (format : TensorFormat) (hb : b < t.batch) :
    (t.session m format).tmpResult (t.memory m format) b =
      (cells t.h t.w).filterMap (t.cell m format.clsChannel b) := by
  have hread : ∀ p ∈ cells t.h t.w,
      (t.session m format).candidate (format.mDims t.boxC t.h t.w) (format.mDims t.clsC t.h t.w)
        (fun i => t.memory m format 0 (b * t.h * t.w * t.boxC + i))
        (fun i => t.memory m format 1 (b * t.h * t.w * t.clsC + i)) p =
      t.cell m format.clsChannel b p := by
    intro p hp
    have hp := mem_cells.mp hp
    have hbox : ∀ i < 4, t.memory m format 0 (b * t.h * t.w * t.boxC +
        cellIdx format (format.mDims t.boxC t.h t.w) p.1 p.2 i) = t.box b i p.1 p.2 := by
      intro i hi
      exact store_slot hb (hi.trans_le t.four_le_boxC) hp.1 hp.2
    have hcls : ∀ k < 3, t.memory m format 1 (b * t.h * t.w * t.clsC +
        cellIdx format (format.mDims t.clsC t.h t.w) p.1 p.2 (format.clsChannel + k)) =
        t.clsAt m b (format.clsChannel + k) p := by
      intro k hk
      refine memory_cls hb hp ?_
      cases format with
      | hwc => exact .inl (by simpa [TensorFormat.clsChannel] using hk)
      | chw =>
        rcases Nat.lt_succ_iff_lt_or_eq.mp hk with hlt | rfl
        · exact .inl (by simp only [TensorFormat.clsChannel]; omega)
        · exact .inr ⟨rfl, rfl⟩
    have hanchor := gridAnchor_session (t := t) (m := m) format (p.1 * t.w + p.2)
    unfold HandDetectNetv2.candidate cell
    rw [← hanchor]
    simp only [session, width_mDims]
    rw [candidateOf_congr hbox, hcls 0 (by norm_num), hcls 1 (by norm_num),
      hcls 2 (by norm_num), Nat.add_zero]
  unfold HandDetectNetv2.tmpResult HandDetectNetv2.cell
  simp only [session, if_true, one_ne_zero, if_false, height_mDims, width_mDims, channels_mDims]
  exact List.filterMap_congr hread

end Read

/-! ### When the layouts agree -/

variable [Field K] [LinearOrder K] [FloorRing K] [IsStrictOrderedRing K]
  (originImgHeight originImgWidth : ℕ)

/-- The scaling to the image. -/
def toImage : Scaling K := scaling m.inputH m.inputW originImgHeight originImgWidth

theorem postProcess_eq (format : TensorFormat) :
    (t.session m format).postProcess originImgHeight originImgWidth (t.memory m format) [] =
      (List.range t.batch).map fun b hand =>
        ((leading hand ((cells t.h t.w).filterMap (t.cell m format.clsChannel b))).map
          (scaleCoords (toImage m originImgHeight originImgWidth))).toList := by
  rw [HandDetectNetv2.postProcess_nil]
  refine List.map_congr_left fun b hb => funext fun hand => ?_
  rw [tmpResult_eq format (List.mem_range.mp hb)]
  congr 2
  simp [HandDetectNet.scaling, session, toImage]

/-- The layouts agree exactly if for each image and hand the leading cell of the confidences in
channel 0, with the sides in 1 and 2, and the leading cell of those in channel 1, with the sides
in 2 and 3, come out as the same box. -/
theorem postProcess_agree_iff_sameLeader :
    (t.session m .chw).postProcess originImgHeight originImgWidth (t.memory m .chw) [] =
        (t.session m .hwc).postProcess originImgHeight originImgWidth (t.memory m .hwc) [] ↔
      ∀ b < t.batch, ∀ hand,
        SameLeader t.h t.w (t.cell m 1 b) (toImage m originImgHeight originImgWidth)
          t.h t.w (t.cell m 0 b) (toImage m originImgHeight originImgWidth) hand := by
  rw [postProcess_eq, postProcess_eq, List.map_inj_left]
  refine forall_congr' fun b => ?_
  rw [List.mem_range]
  refine imp_congr_right fun _ => ?_
  rw [funext_iff]
  refine forall_congr' fun hand => ?_
  rw [toList_injective.eq_iff, map_leading_eq_iff]
  rfl

end OutputTensors

/-! ### Which cells see a hand -/

/-- The channel of a side, counted from that of the confidence. -/
def sideChannel : Hand → ℕ
  | .left => 1
  | .right => 2

theorem Before.of_ne {p q : ℕ × ℕ} (h : p ≠ q) : Before p q ∨ Before q p := by
  unfold Before
  rw [Ne, Prod.ext_iff, not_and_or] at h
  omega

namespace OutputTensors

section Cls

variable {K : Type} [Field K] [LinearOrder K] (t : OutputTensors K) (m : Surroundings K)

/-- The score of a hand in a cell of image `b` whose confidence is in channel `k`. -/
def score (k b : ℕ) (hand : Hand) (p : ℕ × ℕ) : K :=
  t.clsAt m b (k + sideChannel hand) p * t.clsAt m b k p

/-- Read from channel `k` on, the cell is a candidate for the hand. -/
def Sees (k b : ℕ) (hand : Hand) (p : ℕ × ℕ) : Prop :=
  scoreThreshold < t.score m k b hand p ∧
    (hand = .left ↔ t.score m k b .right p < t.score m k b .left p)

/-- The first of the candidates with the highest score. -/
structure LeadsAt (k b : ℕ) (hand : Hand) (p : ℕ × ℕ) : Prop where
  mem : p.1 < t.h ∧ p.2 < t.w
  sees : t.Sees m k b hand p
  best : ∀ q, q.1 < t.h ∧ q.2 < t.w → t.Sees m k b hand q →
    t.score m k b hand q ≤ t.score m k b hand p ∧
      (Before q p → t.score m k b hand q < t.score m k b hand p)

/-- Neither reading of image `b` has a candidate for the hand. -/
def NeitherSees (b : ℕ) (hand : Hand) : Prop :=
  ∀ p, p.1 < t.h ∧ p.2 < t.w → ¬t.Sees m 0 b hand p ∧ ¬t.Sees m 1 b hand p

/-- In image `b` neither reading has a candidate for the left hand, and for the right hand there is
none either, or the same cell leads in both and has the same in the first four channels. -/
structure ReadAlike (b : ℕ) : Prop where
  left : t.NeitherSees m b .left
  right : t.NeitherSees m b .right ∨
    ∃ p, t.LeadsAt m 0 b .right p ∧ t.LeadsAt m 1 b .right p ∧
      ∀ k < 3, t.clsAt m b k p = t.clsAt m b (k + 1) p

/-- The same class tensor with another box tensor. -/
def withBox (box : ℕ → ℕ → ℕ → ℕ → K) : OutputTensors K := { t with box := box }

/-- The box of a candidate. -/
def rectAt (k b : ℕ) (hand : Hand) (p : ℕ × ℕ) : DetectRect K :=
  toRect ((t.session m .hwc).gridAnchor (p.1 * t.w + p.2)) (fun i => t.box b i p.1 p.2)
    (t.score m k b hand p) (t.clsAt m b (k + 1) p) (t.clsAt m b (k + 2) p) (hand = .left)

variable {t m} {k b : ℕ} {hand : Hand} {p q : ℕ × ℕ}

theorem cell_eq_some_iff {r : DetectRect K} :
    t.cell m k b p = some r ∧ r.hand = hand ↔
      t.Sees m k b hand p ∧ r = t.rectAt m k b hand p := by
  unfold cell candidateOf Sees rectAt score sideChannel
  dsimp only
  by_cases hleft : t.clsAt m b (k + 2) p * t.clsAt m b k p <
      t.clsAt m b (k + 1) p * t.clsAt m b k p
  · cases hand with
    | left =>
      simp only [hleft, decide_true, if_true, Option.ite_none_right_eq_some, Option.some_inj]
      constructor
      · rintro ⟨⟨hscore, rfl⟩, _⟩
        exact ⟨⟨hscore, trivial⟩, rfl⟩
      · rintro ⟨⟨hscore, _⟩, rfl⟩
        exact ⟨⟨hscore, rfl⟩, rfl⟩
    | right =>
      simp only [hleft, decide_true, if_true, Option.ite_none_right_eq_some, Option.some_inj]
      constructor
      · rintro ⟨⟨_, rfl⟩, hhand⟩
        cases hhand
      · rintro ⟨⟨_, hside⟩, _⟩
        cases hside.mpr trivial
  · cases hand with
    | left =>
      simp only [hleft, decide_false, Bool.false_eq_true, if_false, Option.ite_none_right_eq_some,
        Option.some_inj]
      constructor
      · rintro ⟨⟨_, rfl⟩, hhand⟩
        cases hhand
      · rintro ⟨⟨_, hside⟩, _⟩
        exact (hside.mp trivial).elim
    | right =>
      simp only [hleft, decide_false, Bool.false_eq_true, if_false, Option.ite_none_right_eq_some,
        Option.some_inj]
      constructor
      · rintro ⟨⟨hscore, rfl⟩, _⟩
        exact ⟨⟨hscore, iff_of_false (by simp) id⟩, by simp⟩
      · rintro ⟨⟨hscore, _⟩, rfl⟩
        exact ⟨⟨hscore, by simp⟩, rfl⟩

theorem leads_iff {r : DetectRect K} :
    Leads t.h t.w (t.cell m k b) hand p r ↔
      t.LeadsAt m k b hand p ∧ r = t.rectAt m k b hand p := by
  constructor
  · intro h
    obtain ⟨hsees, rfl⟩ := cell_eq_some_iff.mp ⟨h.cand_eq, h.hand_eq⟩
    refine ⟨⟨h.mem, hsees, fun q hq hq' => ?_⟩, rfl⟩
    obtain ⟨hcell, hhand⟩ := cell_eq_some_iff.mpr ⟨hq', rfl⟩
    exact h.best q hq _ hcell hhand
  · rintro ⟨h, rfl⟩
    obtain ⟨hcell, hhand⟩ := cell_eq_some_iff.mpr ⟨h.sees, rfl⟩
    refine ⟨h.mem, hcell, hhand, fun q hq r hr hhand' => ?_⟩
    obtain ⟨hsees, rfl⟩ := cell_eq_some_iff.mp ⟨hr, hhand'⟩
    exact h.best q hq hsees

theorem noLeader_iff :
    NoLeader t.h t.w (t.cell m k b) hand ↔
      ∀ p, p.1 < t.h ∧ p.2 < t.w → ¬t.Sees m k b hand p := by
  constructor
  · intro h p hp hsees
    obtain ⟨hcell, hhand⟩ := cell_eq_some_iff.mpr ⟨hsees, rfl⟩
    exact h p hp _ hcell hhand
  · intro h p hp r hr hhand
    exact h p hp (cell_eq_some_iff.mp ⟨hr, hhand⟩).1

theorem LeadsAt.unique (hp : t.LeadsAt m k b hand p) (hq : t.LeadsAt m k b hand q) : p = q := by
  by_contra hne
  have hpq := hq.best p hp.mem hp.sees
  have hqp := hp.best q hq.mem hq.sees
  rcases Before.of_ne hne with h | h
  · exact (hpq.2 h).not_ge hqp.1
  · exact (hqp.2 h).not_ge hpq.1

omit [LinearOrder K] in
theorem score_of_clsAt (h : ∀ k < 3, t.clsAt m b k p = t.clsAt m b (k + 1) p) (hand : Hand) :
    t.score m 1 b hand p = t.score m 0 b hand p := by
  have h0 := h 0 (by omega)
  have h1 := h 1 (by omega)
  have h2 := h 2 (by omega)
  cases hand with
  | left => simp only [score, sideChannel, h0, h1, Nat.reduceAdd]
  | right => simp only [score, sideChannel, h0, h1, h2, Nat.reduceAdd]

omit [LinearOrder K] in
/-- Where the channels are the same, the box is the same. -/
theorem rectAt_of_clsAt (h : ∀ k < 3, t.clsAt m b k p = t.clsAt m b (k + 1) p) (hand : Hand) :
    t.rectAt m 1 b hand p = t.rectAt m 0 b hand p := by
  have h1 := h 1 (by omega)
  have h2 := h 2 (by omega)
  simp only [rectAt, score_of_clsAt h hand, h1, h2, Nat.reduceAdd]

/-- No cell whose first four channels are the same is a candidate for the left hand. -/
theorem not_sees_left_of_clsAt (h : ∀ k < 3, t.clsAt m b k p = t.clsAt m b (k + 1) p) :
    ¬t.Sees m 0 b .left p := by
  rintro ⟨_, hside⟩
  have hlt := hside.mp rfl
  have h1 : t.clsAt m b 1 p = t.clsAt m b 2 p := h 1 (by omega)
  simp only [score, sideChannel, Nat.zero_add, h1] at hlt
  exact lt_irrefl _ hlt

end Cls

/-! ### The layouts, whatever the boxes are -/

section Boxes

variable {K : Type} [Field K] [LinearOrder K] [FloorRing K] [IsStrictOrderedRing K]
  {t : OutputTensors K} {m : Surroundings K} {b : ℕ} {hand : Hand} {p p' : ℕ × ℕ}
  {s : Scaling K}

omit [IsStrictOrderedRing K] in
theorem ReadAlike.sameLeader (h : t.ReadAlike m b) (hand : Hand) :
    SameLeader t.h t.w (t.cell m 1 b) s t.h t.w (t.cell m 0 b) s hand := by
  have of_neither (h : t.NeitherSees m b hand) :
      SameLeader t.h t.w (t.cell m 1 b) s t.h t.w (t.cell m 0 b) s hand :=
    .inl ⟨noLeader_iff.mpr fun p hp => (h p hp).2, noLeader_iff.mpr fun p hp => (h p hp).1⟩
  cases hand with
  | left => exact of_neither h.left
  | right =>
    rcases h.right with hnone | ⟨p, hp, hp', hsame⟩
    · exact of_neither hnone
    · exact .inr ⟨p, _, p, _, leads_iff.mpr ⟨hp', rfl⟩, leads_iff.mpr ⟨hp, rfl⟩,
        by rw [rectAt_of_clsAt hsame]⟩

omit [IsStrictOrderedRing K] in
theorem SameLeader.neither_or {m : Surroundings K}
    (h : SameLeader t.h t.w (t.cell m 1 b) s t.h t.w (t.cell m 0 b) s hand) :
    t.NeitherSees m b hand ∨ ∃ p p', t.LeadsAt m 0 b hand p ∧ t.LeadsAt m 1 b hand p' ∧
      scaleCoords s (t.rectAt m 1 b hand p') = scaleCoords s (t.rectAt m 0 b hand p) := by
  rcases h with ⟨hnone', hnone⟩ | ⟨p', _, p, _, hp', hp, heq⟩
  · exact .inl fun p hp => ⟨noLeader_iff.mp hnone p hp, noLeader_iff.mp hnone' p hp⟩
  · obtain ⟨hlead', rfl⟩ := leads_iff.mp hp'
    obtain ⟨hlead, rfl⟩ := leads_iff.mp hp
    exact .inr ⟨p, p', hlead, hlead', heq⟩

omit [FloorRing K] [IsStrictOrderedRing K] in
/-- Which cells lead does not depend on the boxes. -/
theorem LeadsAt.of_withBox {k : ℕ} {box : ℕ → ℕ → ℕ → ℕ → K}
    (h : (t.withBox box).LeadsAt m k b hand p) : t.LeadsAt m k b hand p :=
  ⟨h.mem, h.sees, h.best⟩

/-- The two leading boxes tell the channels that were read. -/
theorem clsAt_of_rectAt (hp : t.LeadsAt m 0 b hand p) (hp' : t.LeadsAt m 1 b hand p')
    (heq : scaleCoords s (t.rectAt m 1 b hand p') = scaleCoords s (t.rectAt m 0 b hand p)) :
    ∀ k < 3, t.clsAt m b k p = t.clsAt m b (k + 1) p' := by
  have hleft : t.clsAt m b 2 p' = t.clsAt m b 1 p := congrArg DetectRect.leftConfidence heq
  have hright : t.clsAt m b 3 p' = t.clsAt m b 2 p := congrArg DetectRect.rightConfidence heq
  have hscore : t.score m 1 b hand p' = t.score m 0 b hand p :=
    congrArg DetectRect.confidence heq
  have hpos : 0 < t.score m 0 b hand p := by
    have hthreshold : (0 : K) < scoreThreshold := by
      unfold scoreThreshold
      norm_num
    exact hthreshold.trans hp.sees.1
  -- the score is not 0, so the side can be cancelled
  have hconf : t.clsAt m b 1 p' = t.clsAt m b 0 p := by
    cases hand with
    | left =>
      simp only [score, sideChannel, Nat.reduceAdd, hleft] at hscore hpos
      exact mul_left_cancel₀ (left_ne_zero_of_mul hpos.ne') hscore
    | right =>
      simp only [score, sideChannel, Nat.reduceAdd, hright] at hscore hpos
      exact mul_left_cancel₀ (left_ne_zero_of_mul hpos.ne') hscore
  intro k hk
  interval_cases k
  · exact hconf.symm
  · exact hleft.symm
  · exact hright.symm

/-- A box tensor that gives two cells boxes apart from each other. -/
theorem exists_box_apart (t : OutputTensors K) (m : Surroundings K) (b : ℕ) (hand : Hand)
    (hratio : s.minRatio ≠ 0) (hne : p ≠ p') :
    ∃ box, scaleCoords s ((t.withBox box).rectAt m 1 b hand p') ≠
      scaleCoords s ((t.withBox box).rectAt m 0 b hand p) := by
  set anchor := (t.session m .hwc).gridAnchor (p.1 * t.w + p.2)
  set anchor' := (t.session m .hwc).gridAnchor (p'.1 * t.w + p'.2)
  -- all boxes are empty, and that of `p` is two pixels from that of `p'`
  set away : K := s.minRatio / gridStride + (anchor'.gridX - anchor.gridX) / 2 with haway
  let box : ℕ → ℕ → ℕ → ℕ → K := fun _ i y x => if i = 0 ∧ (y, x) = p then away else 0
  refine ⟨box, fun heq => ?_⟩
  have hx : round (((box b 0 p'.1 p'.2 * 2 + anchor'.gridX) * gridStride -
        (box b 2 p'.1 p'.2 * 2) ^ 2 * anchor'.anchorRw / 2 - s.padx) / s.minRatio) =
      round (((box b 0 p.1 p.2 * 2 + anchor.gridX) * gridStride -
        (box b 2 p.1 p.2 * 2) ^ 2 * anchor.anchorRw / 2 - s.padx) / s.minRatio) :=
    congrArg (fun r : DetectRect K => r.x) heq
  have hempty : ∀ q : ℕ × ℕ, box b 2 q.1 q.2 = 0 := fun q => if_neg fun h => by simp at h
  have hthere : box b 0 p.1 p.2 = away := if_pos ⟨rfl, rfl⟩
  have hnot : box b 0 p'.1 p'.2 = 0 := if_neg fun h => hne.symm h.2
  rw [hempty, hempty, hthere, hnot] at hx
  refine round_ne_of_lt ?_ hx
  have hdiff : ((0 * 2 + anchor'.gridX) * gridStride - (0 * 2) ^ 2 * anchor'.anchorRw / 2 -
        s.padx) / s.minRatio -
      ((away * 2 + anchor.gridX) * gridStride - (0 * 2) ^ 2 * anchor.anchorRw / 2 - s.padx) /
        s.minRatio = -2 := by
    have hstride : (gridStride : K) ≠ 0 := by
      unfold gridStride
      norm_num
    rw [haway]
    field_simp
    ring
  rw [hdiff]
  norm_num

omit [FloorRing K] in
theorem minRatio_pos {h w : ℕ} (hh : 0 < m.inputH) (hw : 0 < m.inputW) (hh' : 0 < h)
    (hw' : 0 < w) : (toImage m h w).minRatio ≠ 0 := by
  have hpos : (0 : K) < (toImage m h w).minRatio :=
    lt_min (div_pos (Nat.cast_pos.mpr hw) (Nat.cast_pos.mpr hw'))
      (div_pos (Nat.cast_pos.mpr hh) (Nat.cast_pos.mpr hh'))
  exact hpos.ne'

/-- `PostProcess` gives the same with the channels first as with the channels last. -/
def LayoutsAgree (t : OutputTensors K) (m : Surroundings K) (originImgHeight originImgWidth : ℕ) :
    Prop :=
  (t.session m .chw).postProcess originImgHeight originImgWidth (t.memory m .chw) [] =
    (t.session m .hwc).postProcess originImgHeight originImgWidth (t.memory m .hwc) []

/-- If the layouts agree whatever the boxes are, the class tensor is read alike. -/
theorem readAlike_of_agree {h w : ℕ} (hratio : (toImage m h w).minRatio ≠ 0)
    (hagree : ∀ box, LayoutsAgree (t.withBox box) m h w) (hb : b < t.batch) : t.ReadAlike m b := by
  have hleader : ∀ hand box, t.NeitherSees m b hand ∨
      ∃ p p', t.LeadsAt m 0 b hand p ∧ t.LeadsAt m 1 b hand p' ∧
        scaleCoords (toImage m h w) ((t.withBox box).rectAt m 1 b hand p') =
          scaleCoords (toImage m h w) ((t.withBox box).rectAt m 0 b hand p) := by
    intro hand box
    have hsame := (postProcess_agree_iff_sameLeader (t.withBox box) m h w).mp (hagree box) b hb hand
    rcases SameLeader.neither_or hsame with hnone | ⟨p, p', hp, hp', heq⟩
    · exact .inl hnone
    · exact .inr ⟨p, p', hp.of_withBox, hp'.of_withBox, heq⟩
  have hboth : ∀ hand, t.NeitherSees m b hand ∨
      ∃ p, t.LeadsAt m 0 b hand p ∧ t.LeadsAt m 1 b hand p ∧
        ∀ k < 3, t.clsAt m b k p = t.clsAt m b (k + 1) p := by
    intro hand
    rcases hleader hand t.box with hnone | ⟨p, p', hp, hp', heq⟩
    · exact .inl hnone
    · -- with boxes far apart, the two leading cells have to be one
      obtain rfl : p = p' := by
        by_contra hne
        obtain ⟨box, hapart⟩ := exists_box_apart t m b hand hratio hne
        rcases hleader hand box with hnone | ⟨q, q', hq, hq', heq⟩
        · exact (hnone p hp.mem).1 hp.sees
        · rw [hq.unique hp, hq'.unique hp'] at heq
          exact hapart heq
      exact .inr ⟨p, hp, hp', clsAt_of_rectAt hp hp' heq⟩
  refine ⟨(hboth .left).resolve_right ?_, hboth .right⟩
  rintro ⟨p, hp, _, hsame⟩
  exact not_sees_left_of_clsAt hsame hp.sees

/-- The two layouts agree if the class tensor is read alike from channel 0 and from channel 1 on;
and only then they agree whatever the boxes are. -/
theorem postProcess_agree_iff (t : OutputTensors K) (m : Surroundings K)
    (originImgHeight originImgWidth : ℕ) :
    ((∀ b < t.batch, t.ReadAlike m b) → LayoutsAgree t m originImgHeight originImgWidth) ∧
      (0 < m.inputH → 0 < m.inputW → 0 < originImgHeight → 0 < originImgWidth →
        (∀ box, LayoutsAgree (t.withBox box) m originImgHeight originImgWidth) →
          ∀ b < t.batch, t.ReadAlike m b) := by
  constructor
  · intro halike
    refine (postProcess_agree_iff_sameLeader t m _ _).mpr fun b hb hand => ?_
    exact (halike b hb).sameLeader hand
  · intro hh hw hh' hw' hagree b hb
    exact readAlike_of_agree (minRatio_pos hh hw hh' hw') hagree hb

end Boxes

/-- Two square tensors of 16 rows, with zeros behind everything. -/
def zeros : Surroundings ℚ where
  inputH := 16
  inputW := 16
  behindGridAnchor _ := ⟨0, 0, 0, 0⟩
  behindBox _ := 0
  behindCls _ := 0

/-- One row of two cells, both with the same in all four channels, the first with more. -/
def allAlike : OutputTensors ℚ where
  batch := 1
  h := 1
  w := 2
  boxC := 4
  clsC := 4
  four_le_boxC := le_rfl
  three_le_clsC := by norm_num
  box _ _ _ _ := 1 / 2
  cls _ _ _ x := if x = 0 then 1 else 4 / 5

theorem allAlike_agrees : LayoutsAgree allAlike zeros 16 16 := by
  refine (postProcess_agree_iff allAlike zeros 16 16).1 fun b _ => ?_
  have hcls : ∀ k < 4, ∀ p : ℕ × ℕ, allAlike.clsAt zeros b k p = if p.2 = 0 then 1 else 4 / 5 := by
    intro k hk p
    exact if_pos hk
  have hscore : ∀ k < 2, ∀ hand p, allAlike.score zeros k b hand p =
      if p.2 = 0 then 1 else 16 / 25 := by
    intro k hk hand p
    have hside : sideChannel hand ≤ 2 := by cases hand <;> decide
    unfold score
    rw [hcls _ (by omega), hcls _ (by omega)]
    split <;> norm_num
  have hleft : ∀ k < 2, ∀ p, ¬allAlike.Sees zeros k b .left p := by
    rintro k hk p ⟨_, hside⟩
    have hlt := hside.mp rfl
    rw [hscore k hk, hscore k hk] at hlt
    exact lt_irrefl _ hlt
  have hlead : ∀ k < 2, allAlike.LeadsAt zeros k b .right (0, 0) := by
    intro k hk
    refine ⟨⟨by decide, by decide⟩, ⟨?_, ?_⟩, fun q hq _ => ⟨?_, ?_⟩⟩
    · rw [hscore k hk]
      norm_num [scoreThreshold]
    · rw [hscore k hk, hscore k hk]
      simp
    · rw [hscore k hk, hscore k hk]
      split <;> norm_num
    · rintro (hlt | ⟨_, hlt⟩)
      · exact absurd hlt (Nat.not_lt_zero _)
      · exact absurd hlt (Nat.not_lt_zero _)
  refine ⟨fun p _ => ⟨hleft 0 (by omega) p, hleft 1 (by omega) p⟩, .inr ⟨(0, 0), hlead 0 (by omega),
    hlead 1 (by omega), fun k hk => ?_⟩⟩
  rw [hcls k (by omega), hcls (k + 1) (by omega)]

/-! ### A left hand that is lost -/

/-- One cell of confidence 1, all of it for a left hand. -/
def leftHand : OutputTensors ℚ where
  batch := 1
  h := 1
  w := 1
  boxC := 4
  clsC := 3
  four_le_boxC := le_rfl
  three_le_clsC := le_rfl
  box _ _ _ _ := 1 / 2
  cls _ ch _ _ := if ch = 2 then 0 else 1

/-- With the channels last the hand is found, with the channels first it is not. -/
theorem leftHand_differs : ¬LayoutsAgree leftHand zeros 16 16 := by
  intro heq
  unfold LayoutsAgree at heq
  rw [postProcess_eq, postProcess_eq, List.map_inj_left] at heq
  have hleft := congrFun (heq 0 (List.mem_range.mpr Nat.one_pos)) .left
  rw [toList_injective.eq_iff] at hleft
  have hchw : leftHand.cell zeros 1 0 (0, 0) = none := by
    norm_num [cell, candidateOf, clsAt, leftHand, zeros, scoreThreshold]
  have hhwc : ∃ r, leftHand.cell zeros 0 0 (0, 0) = some r ∧ r.hand = .left := by
    norm_num [cell, candidateOf, clsAt, leftHand, zeros, scoreThreshold, DetectRect.hand, toRect]
  obtain ⟨r, hr, hhand⟩ := hhwc
  have hcells : cells leftHand.h leftHand.w = [(0, 0)] := rfl
  rw [hcells] at hleft
  simp [TensorFormat.clsChannel, hchw, hr, leading, hhand] at hleft

end OutputTensors

end Detect

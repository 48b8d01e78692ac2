/-
Which images give the same boxes in one batch as one by one.

In a batch `HandDetectNet` scales the boxes of every image with the size of the last one.  So a
batch whose images have one size is as good as its images one by one, and for a batch with two
sizes some network shows the difference: a box of many pixels, or one whose corner lies where
`round` goes up or down.  `HandDetectNetv2` reads its batch from two tensors of which none has
seven channels; one by one it looks for a tensor of seven channels and finds no hand.

* `scaling_eq_iff` — the scaling tells the size of the image;
* `exists_round_ne` — `round` tells two numbers apart, if both are moved to the right place;
* `exists_box_ne` — so does a box two scalings;
* `batch_agree_of_sameSize`, `sameSize_of_batch_agree` — batches of one size;
* `inference_agree_iff` — both detectors.
-/
import HandTracking.DetectBatch
import HandTracking.DetectLayout
import Mathlib.Algebra.Order.Archimedean.Basic
import Mathlib.Tactic.FieldSimp
import Mathlib.Tactic.NormNum

namespace Detect

open Calculator

/-! ### Scalings -/

section Scalings

variable {K : Type} [Field K] [LinearOrder K] [IsStrictOrderedRing K]

theorem minRatio_scaling_pos {height width rows cols : ℕ} (hh : 0 < height) (hw : 0 < width)
    (hr : 0 < rows) (hc : 0 < cols) : 0 < (scaling height width rows cols : Scaling K).minRatio :=
  lt_min (div_pos (Nat.cast_pos.mpr hw) (Nat.cast_pos.mpr hc))
    (div_pos (Nat.cast_pos.mpr hh) (Nat.cast_pos.mpr hr))

/-- The scaling tells the size of the image. -/
theorem scaling_eq_iff {height width rows cols rows' cols' : ℕ} (hh : 0 < height) (hw : 0 < width)
    (hr : 0 < rows) (hc : 0 < cols) :
    (scaling height width rows cols : Scaling K) = scaling height width rows' cols' ↔
      rows = rows' ∧ cols = cols' := by
  constructor
  · intro heq
    have hpos := minRatio_scaling_pos (K := K) hh hw hr hc
    have hratio := congrArg Scaling.minRatio heq
    have hpadx := congrArg Scaling.padx heq
    have hpady := congrArg Scaling.pady heq
    set s : Scaling K := scaling height width rows cols with hs
    set s' : Scaling K := scaling height width rows' cols' with hs'
    have hx : ((width : K) - cols * s.minRatio) / 2 = (width - cols' * s.minRatio) / 2 := by
      calc ((width : K) - cols * s.minRatio) / 2 = s.padx := rfl
        _ = s'.padx := hpadx
        _ = (width - cols' * s'.minRatio) / 2 := rfl
        _ = (width - cols' * s.minRatio) / 2 := by rw [hratio]
    have hy : ((height : K) - rows * s.minRatio) / 2 = (height - rows' * s.minRatio) / 2 := by
      calc ((height : K) - rows * s.minRatio) / 2 = s.pady := rfl
        _ = s'.pady := hpady
        _ = (height - rows' * s'.minRatio) / 2 := rfl
        _ = (height - rows' * s.minRatio) / 2 := by rw [hratio]
    have hcols : (cols : K) * s.minRatio = cols' * s.minRatio := by linarith
    have hrows : (rows : K) * s.minRatio = rows' * s.minRatio := by linarith
    exact ⟨Nat.cast_injective (mul_right_cancel₀ hpos.ne' hrows),
      Nat.cast_injective (mul_right_cancel₀ hpos.ne' hcols)⟩
  · rintro ⟨rfl, rfl⟩
    rfl

variable [FloorRing K]

/-- Below `1 / 2` nothing is rounded up to 1. -/
theorem round_lt_one {x : K} (h : x < 1 / 2) : round x < 1 := by
  unfold round
  split
  · have hfloor : ⌊x + 1 / 2⌋ < 1 := Int.floor_lt.mpr (by push_cast; linarith)
    exact_mod_cast hfloor
  · next hneg =>
    have hfloor : 0 ≤ ⌊-x + 1 / 2⌋ := Int.floor_nonneg.mpr (by linarith)
    have hcast : (0 : K) ≤ (⌊-x + 1 / 2⌋ : K) := by exact_mod_cast hfloor
    linarith

theorem round_half : round (1 / 2 : K) = 1 := by
  have hhalves : (1 / 2 : K) + 1 / 2 = 1 := by norm_num
  unfold round
  rw [if_pos (by norm_num), hhalves, Int.floor_one, Int.cast_one]

/-- Two numbers can be moved to where `round` tells them apart. -/
theorem exists_round_ne {a b : K} (h : a ≠ b) : ∃ t, round (t - a) ≠ round (t - b) := by
  wlog hlt : a < b generalizing a b
  · obtain ⟨t, ht⟩ := this h.symm (lt_of_le_of_ne (not_lt.mp hlt) h.symm)
    exact ⟨t, ht.symm⟩
  refine ⟨a + 1 / 2, ?_⟩
  have hup : a + 1 / 2 - a = 1 / 2 := by ring
  have hdown : round (a + 1 / 2 - b) < 1 := round_lt_one (by linarith)
  rw [hup, round_half]
  exact hdown.ne'

/-- Two different ratios scale some width of a box apart. -/
theorem exists_width_ne {a b : K} (h : a ≠ b) :
    ∃ c : K, round ((c * 2) ^ 2 * 33 / a) ≠ round ((c * 2) ^ 2 * 33 / b) := by
  have hinv : 0 < |a⁻¹ - b⁻¹| := abs_pos.mpr (sub_ne_zero.mpr fun heq => h (inv_injective heq))
  obtain ⟨n, hn⟩ := exists_nat_gt (|a⁻¹ - b⁻¹|⁻¹)
  refine ⟨n, round_ne_of_lt ?_⟩
  have hone : 1 < n * |a⁻¹ - b⁻¹| := by
    calc (1 : K) = |a⁻¹ - b⁻¹|⁻¹ * |a⁻¹ - b⁻¹| := (inv_mul_cancel₀ hinv.ne').symm
      _ < n * |a⁻¹ - b⁻¹| := mul_lt_mul_of_pos_right hn hinv
  have hpos : 0 < n := Nat.cast_pos.mp ((inv_pos.mpr hinv).trans hn)
  have hsq : (n : K) ≤ ((n : K) * 2) ^ 2 * 33 := by
    have hcast : (1 : K) ≤ n := Nat.one_le_cast.mpr hpos
    nlinarith
  have hdiff : ((n : K) * 2) ^ 2 * 33 / a - ((n : K) * 2) ^ 2 * 33 / b =
      ((n : K) * 2) ^ 2 * 33 * (a⁻¹ - b⁻¹) := by
    rw [div_eq_mul_inv, div_eq_mul_inv]
    ring
  rw [hdiff, abs_mul, abs_of_nonneg (by positivity)]
  exact hone.trans_le (mul_le_mul_of_nonneg_right hsq hinv.le)

/-- A corner that two paddings scale apart. -/
theorem exists_corner_ne {ratio pad pad' : K} (hratio : ratio ≠ 0) (h : pad ≠ pad') (grid : K) :
    ∃ c : K, round (((c * 2 + grid) * gridStride - pad) / ratio) ≠
      round (((c * 2 + grid) * gridStride - pad') / ratio) := by
  obtain ⟨t, ht⟩ := exists_round_ne (a := pad / ratio) (b := pad' / ratio)
    fun heq => h ((div_left_inj' hratio).mp heq)
  have hstride : (gridStride : K) ≠ 0 := by
    unfold gridStride
    norm_num
  have hcorner : ∀ q : K,
      (((t * ratio / gridStride - grid) / 2 * 2 + grid) * gridStride - q) / ratio =
        t - q / ratio := by
    intro q
    field_simp
    ring
  refine ⟨(t * ratio / gridStride - grid) / 2, ?_⟩
  rw [hcorner, hcorner]
  exact ht

/-- Some box of a cell is scaled to two different boxes by two different scalings. -/
theorem exists_box_ne {s s' : Scaling K} (hs : s.minRatio ≠ 0) (hne : s ≠ s')
    {anchor : GridAnchor K} (hanchor : anchor.anchorRw = 33) (c l r : K) (isLeft : Bool) :
    ∃ coord : ℕ → K, scaleCoords s (toRect anchor coord c l r isLeft) ≠
      scaleCoords s' (toRect anchor coord c l r isLeft) := by
  by_cases hratio : s.minRatio = s'.minRatio
  · -- an empty box whose corner is rounded up for one padding and down for the other
    by_cases hpadx : s.padx = s'.padx
    · have hpady : s.pady ≠ s'.pady := by
        intro hpady
        obtain ⟨ratio, padx, pady⟩ := s
        obtain ⟨ratio', padx', pady'⟩ := s'
        exact hne (Scaling.mk.injEq .. |>.mpr ⟨hratio, hpadx, hpady⟩)
      obtain ⟨y, hy⟩ := exists_corner_ne hs hpady anchor.gridY
      refine ⟨fun i => if i = 1 then y else 0, fun heq => hy ?_⟩
      simpa [scaleCoords, toRect, ← hratio] using
        congrArg (fun r : DetectRect K => r.y) heq
    · obtain ⟨x, hx⟩ := exists_corner_ne hs hpadx anchor.gridX
      refine ⟨fun i => if i = 0 then x else 0, fun heq => hx ?_⟩
      simpa [scaleCoords, toRect, ← hratio] using
        congrArg (fun r : DetectRect K => r.x) heq
  · obtain ⟨w, hw⟩ := exists_width_ne hratio
    refine ⟨fun i => if i = 2 then w else 0, fun heq => hw ?_⟩
    simpa [scaleCoords, toRect, hanchor] using congrArg (fun r : DetectRect K => r.w) heq

end Scalings

/-! ### A network with one kind of box -/

section OneBox

variable {K : Type} [Field K] [LinearOrder K] (net : HandDetectNet K)

/-- Output tensor `multiI` has in every cell what `channel` says, the others have 0. -/
def uniformNetwork (multiI : ℕ) (channel : ℕ → K) : Image → ℕ → ℕ → K := fun _ i =>
  if i = multiI then
    store net.otensorFormat 1 featureNum net.gridH net.gridW (fun _ ch _ _ => channel ch) 0
  else 0

/-- A left hand of full confidence, with the box `coord`. -/
def leftChannels (coord : ℕ → K) (ch : ℕ) : K :=
  if ch < 4 then coord ch else if ch = 6 then 0 else 1

variable {net} {multiI : ℕ}

theorem cellIdx_eq_of_sizes {format : TensorFormat} {mDims mDims' : Fin 3 → ℕ}
    (hc : format.channels mDims = format.channels mDims')
    (hh : format.height mDims = format.height mDims')
    (hw : format.width mDims = format.width mDims') (y x ch : ℕ) :
    cellIdx format mDims y x ch = cellIdx format mDims' y x ch := by
  simp only [cellIdx, hc, hh, hw]

omit [LinearOrder K] in
theorem uniformNetwork_cell (hdec : net.decodable multiI) (channel : ℕ → K) (img : Image)
    {y x ch : ℕ} (hy : y < net.gridH) (hx : x < net.gridW) (hch : ch < featureNum) :
    uniformNetwork net multiI channel img multiI
      (cellIdx net.otensorFormat (net.otensor.mDims multiI) y x ch) = channel ch := by
  obtain ⟨hc, hh, hw⟩ := hdec
  have hidx : cellIdx net.otensorFormat (net.otensor.mDims multiI) y x ch =
      0 * net.gridH * net.gridW * featureNum +
        cellIdx net.otensorFormat (net.otensorFormat.mDims featureNum net.gridH net.gridW) y x
          ch := by
    have hsame := cellIdx_eq_of_sizes (hc.trans channels_mDims.symm) (hh.trans height_mDims.symm)
      (hw.trans width_mDims.symm) y x ch
    rw [hsame]
    omega
  rw [hidx, uniformNetwork, if_pos rfl, store_slot Nat.one_pos hch hy hx]

variable [IsStrictOrderedRing K]

/-- The first cell of the tensor leads. -/
theorem firstLeads_uniformNetwork (hdec : net.decodable multiI) {n : ℕ} (hlt : multiI < n)
    (hh : 0 < net.gridH) (hw : 0 < net.gridW) (coord : ℕ → K) (img : Image) :
    net.FirstLeads (uniformNetwork net multiI (leftChannels coord)) img .left n multiI
      (toRect (net.gridAnchor 0) coord 1 1 0 true) := by
  have hcell : ∀ p : ℕ × ℕ, p.1 < net.gridH → p.2 < net.gridW →
      net.imageCell (uniformNetwork net multiI (leftChannels coord)) img multiI p =
        some (toRect (net.gridAnchor (p.1 * net.gridW + p.2)) coord 1 1 0 true) := by
    intro p hy hx
    have hval : ∀ ch < 7, uniformNetwork net multiI (leftChannels coord) img multiI
        (cellIdx net.otensorFormat (net.otensor.mDims multiI) p.1 p.2 ch) = leftChannels coord ch :=
      fun ch hch => uniformNetwork_cell hdec (leftChannels coord) img hy hx hch
    have hbox : ∀ ch < 4, uniformNetwork net multiI (leftChannels coord) img multiI
        (cellIdx net.otensorFormat (net.otensor.mDims multiI) p.1 p.2 ch) = coord ch :=
      fun ch hch => (hval ch (by omega)).trans (if_pos hch)
    have hthreshold : (scoreThreshold : K) < 1 := by
      unfold scoreThreshold
      norm_num
    simp only [HandDetectNet.imageCell, HandDetectNet.candidate, toRect_congr hbox,
      hval 4 (by omega), hval 5 (by omega), hval 6 (by omega), hdec.2.2]
    simp [leftChannels, hthreshold]
  refine ⟨hlt, hdec, ⟨(0, 0), ⟨hh, hw⟩, ?_, rfl, fun q hq r hr _ => ?_⟩, ?_⟩
  · simpa using hcell (0, 0) hh hw
  · rw [hcell q hq.1 hq.2] at hr
    obtain rfl := Option.some.inj hr
    exact ⟨le_rfl, fun hbefore => by rcases hbefore with h | h <;> omega⟩
  · -- the tensors before it are all 0
    intro m hm _ p _ r hr
    have hzero : uniformNetwork net multiI (leftChannels coord) img m = 0 := if_neg hm.ne
    have hthreshold : ¬(scoreThreshold : K) < 0 := by
      unfold scoreThreshold
      norm_num
    simp [HandDetectNet.imageCell, HandDetectNet.candidate, hzero, hthreshold] at hr

omit [LinearOrder K] [IsStrictOrderedRing K] in
theorem anchorRw_gridAnchor (hh : 0 < net.gridH) (hw : 0 < net.gridW) :
    (net.gridAnchor 0).anchorRw = 33 := by
  obtain ⟨h, hh⟩ := Nat.exists_eq_succ_of_ne_zero hh.ne'
  obtain ⟨w, hw⟩ := Nat.exists_eq_succ_of_ne_zero hw.ne'
  simp [HandDetectNet.gridAnchor, initGridAnchor, hh, hw, List.range_succ_eq_map]

end OneBox

/-! ### Images of one size -/

/-- Images of one size. -/
def SameSize (img last : Image) : Prop := img.rows = last.rows ∧ img.cols = last.cols

section SameSize

variable {K : Type} [Field K] [LinearOrder K]

namespace HandDetectNet

variable (net : HandDetectNet K)

/-- No cell of the image has enough confidence. -/
def NoCandidate (network : Image → ℕ → ℕ → K) (img : Image) : Prop :=
  ∀ multiI < net.otensor.mMultishapeNum, net.decodable multiI →
    ∀ y < net.gridH, ∀ x < net.gridW,
      network img multiI (cellIdx net.otensorFormat (net.otensor.mDims multiI) y x 4) ≤
        scoreThreshold

/-- There is an output tensor that is read, and its input size and its grid are not empty. -/
def Reads : Prop :=
  ∃ multiI < net.otensor.mMultishapeNum, net.decodable multiI ∧ 0 < net.gridH ∧ 0 < net.gridW ∧
    0 < net.itensorFormat.height (net.itensor.mDims multiI) ∧
    0 < net.itensorFormat.width (net.itensor.mDims multiI)

variable {net} {network : Image → ℕ → ℕ → K} {img : Image}

theorem NoCandidate.nothingFound (h : net.NoCandidate network img) (hand : Hand) :
    net.NothingFound network img hand net.otensor.mMultishapeNum := by
  intro m hm hdec p hp r hr
  have hle := h m hm hdec p.1 hp.1 p.2 hp.2
  simp [imageCell, candidate, not_lt.mpr hle] at hr

theorem NothingFound.not_firstLeads {hand : Hand} {n m : ℕ} {r : DetectRect K}
    (h : net.NothingFound network img hand n) : ¬net.FirstLeads network img hand n m r := by
  intro hlead
  obtain ⟨p, hp⟩ := hlead.leads
  exact h m hlead.lt hlead.decodable p hp.mem r hp.cand_eq hp.hand_eq

end HandDetectNet

namespace HandDetectNetv2

/-- No cell of the batch has a hand of enough confidence. -/
def NoCandidate (net : HandDetectNetv2 K) (network : Image → ℕ → ℕ → K) (behind : ℕ → ℕ → K)
    (imgs : List Image) : Prop :=
  ∀ b < imgs.length, ∀ p : ℕ × ℕ, p.1 < net.clsH ∧ p.2 < net.clsW →
    net.batchCell network behind imgs b p = none

end HandDetectNetv2

variable [FloorRing K] [IsStrictOrderedRing K] {network : Image → ℕ → ℕ → K} {behind : ℕ → ℕ → K}
  {imgs : List Image}

namespace HandDetectNet

variable {net : HandDetectNet K}

/-- A batch is as good as its images one by one if each image has the size of the last one or no
candidate. -/
theorem batch_agree_of_sameSize (hshape : net.itensor.mMultishapeNum = 1) (st st' : DetState Image)
    (h : ∀ last ∈ imgs.getLast?, ∀ img ∈ imgs, SameSize img last ∨ net.NoCandidate network img) :
    net.rectangles false network behind imgs st = net.rectangles true network behind imgs st' := by
  refine (batch_agree_iff hshape st st').mpr fun last hlast img himg hand m r hr => ?_
  rcases h last hlast img himg with ⟨hrows, hcols⟩ | hnone
  · rw [hrows, hcols]
  · exact absurd hr (hnone.nothingFound hand).not_firstLeads

/-- Two sizes in a batch, and some network sees it. -/
theorem sameSize_of_batch_agree (hshape : net.itensor.mMultishapeNum = 1) (st st' : DetState Image)
    (hreads : net.Reads) (hsizes : ∀ img ∈ imgs, 0 < img.rows ∧ 0 < img.cols)
    (h : ∀ network, net.rectangles false network behind imgs st =
      net.rectangles true network behind imgs st') :
    ∀ last ∈ imgs.getLast?, ∀ img ∈ imgs, SameSize img last := by
  intro last hlast img himg
  by_contra hne
  obtain ⟨m, hm, hdec, hgridH, hgridW, hheight, hwidth⟩ := hreads
  obtain ⟨hrows, hcols⟩ := hsizes last (List.mem_of_getLast? hlast)
  have hscaling : net.scaling last.rows last.cols m ≠ net.scaling img.rows img.cols m := by
    intro heq
    obtain ⟨heqRows, heqCols⟩ := (scaling_eq_iff hheight hwidth hrows hcols).mp heq
    exact hne ⟨heqRows.symm, heqCols.symm⟩
  obtain ⟨coord, hcoord⟩ := exists_box_ne (minRatio_scaling_pos hheight hwidth hrows hcols).ne'
    hscaling (anchorRw_gridAnchor hgridH hgridW) 1 1 0 true
  have hleads := firstLeads_uniformNetwork hdec hm hgridH hgridW coord img
  exact hcoord ((batch_agree_iff hshape st st').mp (h _) last hlast img himg .left m _ hleads)

end HandDetectNet

namespace HandDetectNetv2

variable {net : HandDetectNetv2 K}

omit [FloorRing K] [IsStrictOrderedRing K] in
theorem NoCandidate.noLeader (h : net.NoCandidate network behind imgs) {b : ℕ} {img : Image}
    (hb : imgs[b]? = some img) (hand : Hand) :
    NoLeader net.clsH net.clsW (net.batchCell network behind imgs b) hand := by
  intro p hp r hr
  rw [h b (List.getElem?_eq_some_iff.mp hb).1 p hp] at hr
  cases hr

omit [FloorRing K] [IsStrictOrderedRing K] in
theorem nothingFound_of_channels
    (h : ∀ i < net.otensor.mMultishapeNum,
      net.otensorFormat.channels (net.otensor.mDims i) ≠ featureNum)
    (img : Image) (hand : Hand) :
    net.NothingFound network img hand net.otensor.mMultishapeNum :=
  fun m hm hdec => absurd hdec.1 (h m hm)

theorem batch_agree_of_noCandidate (hshape : net.itensor.mMultishapeNum = 1)
    (st st' : DetState Image)
    (h : imgs.length ≤ 1 ∨ net.NoCandidate network behind imgs ∧
      ∀ img ∈ imgs, net.toHandDetectNet.NoCandidate network img) :
    net.rectangles false network behind imgs st = net.rectangles true network behind imgs st' := by
  refine (batch_agree_iff hshape st st').mpr fun hn last _ b img hb hand => ?_
  rcases h with hle | ⟨hnone, hnone'⟩
  · omega
  · exact .inl ⟨hnone.noLeader hb hand,
      (hnone' img (List.mem_of_getElem? hb)).nothingFound hand⟩

/-- Without a tensor of seven channels a batch of two or more images agrees only if it has no
hand. -/
theorem batch_agree_iff_noCandidate (hshape : net.itensor.mMultishapeNum = 1)
    (st st' : DetState Image)
    (hchannels : ∀ i < net.otensor.mMultishapeNum,
      net.otensorFormat.channels (net.otensor.mDims i) ≠ featureNum) :
    net.rectangles false network behind imgs st = net.rectangles true network behind imgs st' ↔
      imgs.length ≤ 1 ∨ net.NoCandidate network behind imgs := by
  constructor
  · intro hagree
    rcases Nat.lt_or_ge 1 imgs.length with hn | hn
    · right
      intro b hb p hp
      have hlast := List.getLast?_eq_some_getLast
        (List.ne_nil_of_length_pos (Nat.zero_lt_of_lt hn))
      have hboth := (batch_agree_iff hshape st st').mp hagree hn _ hlast b _
        (List.getElem?_eq_getElem hb)
      by_contra hsome
      obtain ⟨r, hr⟩ := Option.ne_none_iff_exists'.mp hsome
      rcases hboth r.hand with ⟨hnone, _⟩ | ⟨_, m, r', _, hfirst, _⟩
      · exact hnone p hp r hr rfl
      · exact (nothingFound_of_channels hchannels _ _).not_firstLeads hfirst
    · exact .inl hn
  · intro h
    refine batch_agree_of_noCandidate hshape st st' (h.imp_right fun hnone => ⟨hnone, ?_⟩)
    exact fun img _ m hm hdec => absurd hdec.1 (hchannels m hm)

end HandDetectNetv2

/-- A batch of `HandDetectNet` is as good as its images one by one if each image has the size of
the last one or no candidate; and if it is so for all networks, the images have one size.  A batch
of `HandDetectNetv2` is as good for at most one image, or if there is no candidate at all; and
where no tensor has seven channels, only then. -/
theorem inference_agree_iff (net : HandDetectNet K) (hshape : net.itensor.mMultishapeNum = 1)
    (netv2 : HandDetectNetv2 K) (hshapev2 : netv2.itensor.mMultishapeNum = 1)
    (behind : ℕ → ℕ → K) (imgs : List Image) (st st' : DetState Image) :
    ((∀ network, (∀ last ∈ imgs.getLast?, ∀ img ∈ imgs,
          SameSize img last ∨ net.NoCandidate network img) →
        net.rectangles false network behind imgs st =
          net.rectangles true network behind imgs st') ∧
      (net.Reads → (∀ img ∈ imgs, 0 < img.rows ∧ 0 < img.cols) →
        (∀ network, net.rectangles false network behind imgs st =
          net.rectangles true network behind imgs st') →
        ∀ last ∈ imgs.getLast?, ∀ img ∈ imgs, SameSize img last)) ∧
    ((∀ network, (imgs.length ≤ 1 ∨ netv2.NoCandidate network behind imgs ∧
          ∀ img ∈ imgs, netv2.toHandDetectNet.NoCandidate network img) →
        netv2.rectangles false network behind imgs st =
          netv2.rectangles true network behind imgs st') ∧
      ((∀ i < netv2.otensor.mMultishapeNum,
          netv2.otensorFormat.channels (netv2.otensor.mDims i) ≠ featureNum) →
        ∀ network, netv2.rectangles false network behind imgs st =
            netv2.rectangles true network behind imgs st' ↔
          imgs.length ≤ 1 ∨ netv2.NoCandidate network behind imgs)) :=
  ⟨⟨fun _ => HandDetectNet.batch_agree_of_sameSize hshape st st',
      fun hreads hsizes => HandDetectNet.sameSize_of_batch_agree hshape st st' hreads hsizes⟩,
    fun _ => HandDetectNetv2.batch_agree_of_noCandidate hshapev2 st st',
    fun hchannels _ => HandDetectNetv2.batch_agree_iff_noCandidate hshapev2 st st' hchannels⟩

end SameSize

/-! ### Two images -/

section TwoImages

/-- A square image. -/
def square (n : ℕ) : Image := ⟨n, n, fun _ => 0⟩

/-- Input tensors before the first call, with no image in them. -/
def noImages : DetState Image := ⟨fun _ _ => square 0, 0, 0⟩

/-- One cell, with an output tensor of seven channels. -/
def smallNet : HandDetectNet ℚ where
  itensorFormat := .hwc
  otensorFormat := .hwc
  itensor := ⟨1, 1, fun _ => ![16, 16, 1]⟩
  otensor := ⟨1, 1, fun _ => ![1, 1, 7]⟩
  netBatch1 := false
  sessionBatch := 1
  behindGridAnchor _ := ⟨0, 0, 0, 0⟩

/-- The same cell in two output tensors. -/
def smallNetv2 : HandDetectNetv2 ℚ where
  toHandDetectNet :=
    { smallNet with otensor := ⟨1, 2, fun i => if i = 0 then ![1, 1, 4] else ![1, 1, 3]⟩ }
  indexBox := 0
  indexCls := 1

/-- A left hand in every image. -/
def leftNetwork (_ : Image) (_ e : ℕ) : ℚ := if e < 4 then 1 / 2 else if e < 6 then 1 else 0

/-- A network that finds a left hand in every cell. -/
def leftNetworkv2 (_ : Image) (i e : ℕ) : ℚ := if i = 0 then 1 / 2 else if e < 2 then 1 else 0

/-- A network that finds nothing. -/
def noNetwork (_ : Image) (_ _ : ℕ) : ℚ := 0

theorem leads_one {K : Type} [LinearOrder K] {cand : ℕ × ℕ → Option (DetectRect K)} {hand : Hand}
    {r : DetectRect K} (hr : cand (0, 0) = some r) (hhand : r.hand = hand) :
    Leads 1 1 cand hand (0, 0) r := by
  refine ⟨⟨Nat.one_pos, Nat.one_pos⟩, hr, hhand, fun q hq r' hr' _ => ?_⟩
  obtain rfl : q = (0, 0) := Prod.ext (Nat.lt_one_iff.mp hq.1) (Nat.lt_one_iff.mp hq.2)
  rw [hr] at hr'
  obtain rfl := Option.some.inj hr'
  exact ⟨le_rfl, fun h => absurd h h.asymm⟩

/-- No tensor of `HandDetectNetv2` has seven channels. -/
theorem not_channels_smallNetv2 (m : ℕ) :
    smallNetv2.otensorFormat.channels (smallNetv2.otensor.mDims m) ≠ featureNum := by
  show ¬(if m = 0 then ![1, 1, 4] else ![1, 1, 3] : Fin 3 → ℕ) 2 = 7
  split
  · decide
  · decide

/-- Hands in large images only. -/
def largeNetwork (img : Image) (i e : ℕ) : ℚ := if img.rows = 32 then leftNetwork img i e else 0

/-- Hands in two large images of a batch of three are scaled as one by one, but not those of every
network; and the batch of `HandDetectNetv2` without hands is as good. -/
theorem inference_agree_largeNetwork :
    smallNet.rectangles false largeNetwork 0 [square 16, square 32, square 32] noImages =
        smallNet.rectangles true largeNetwork 0 [square 16, square 32, square 32] noImages ∧
      (¬∀ network, smallNet.rectangles false network 0 [square 16, square 32, square 32] noImages =
        smallNet.rectangles true network 0 [square 16, square 32, square 32] noImages) ∧
      smallNetv2.rectangles false noNetwork 0 [square 16, square 32, square 32] noImages =
        smallNetv2.rectangles true noNetwork 0 [square 16, square 32, square 32] noImages := by
  obtain ⟨⟨henough, honly⟩, _, hv2⟩ := inference_agree_iff smallNet rfl smallNetv2 rfl 0
    [square 16, square 32, square 32] noImages noImages
  refine ⟨henough largeNetwork ?_, fun hall => ?_, (hv2 ?_ noNetwork).mpr (.inr ?_)⟩
  · intro last hlast img himg
    obtain rfl : square 32 = last := Option.some.inj hlast
    simp only [List.mem_cons, List.not_mem_nil, or_false, or_self] at himg
    rcases himg with rfl | rfl
    · exact .inr fun m _ _ y _ x _ => by norm_num [largeNetwork, square, scoreThreshold]
    · exact .inl ⟨rfl, rfl⟩
  · have hsizes : ∀ img ∈ [square 16, square 32, square 32], 0 < img.rows ∧ 0 < img.cols := by
      simp [square]
    have hsame := honly ⟨0, Nat.one_pos, ⟨rfl, rfl, rfl⟩, by decide, by decide, by decide,
      by decide⟩ hsizes hall (square 32) rfl (square 16) (by simp)
    exact absurd hsame.1 (by decide)
  · intro i _ hc
    exact not_channels_smallNetv2 i hc
  · intro b _ p _
    have hzero : smallNetv2.outputMemory noNetwork 0 [square 16, square 32, square 32] = 0 := by
      funext i e
      unfold HandDetectNet.outputMemory
      split
      · rfl
      · split
        · rfl
        · rfl
    unfold HandDetectNetv2.batchCell
    rw [hzero]
    norm_num [HandDetectNetv2.cell, HandDetectNetv2.candidate, candidateOf, scoreThreshold]

/-- A small image before a large one: its box is scaled with the size of the large one.  And
one by one `HandDetectNetv2` finds nothing in its tensors. -/
theorem squares_differ :
    smallNet.rectangles false leftNetwork 0 [square 16, square 32] noImages ≠
        smallNet.rectangles true leftNetwork 0 [square 16, square 32] noImages ∧
      smallNetv2.rectangles false leftNetworkv2 0 [square 16, square 32] noImages ≠
        smallNetv2.rectangles true leftNetworkv2 0 [square 16, square 32] noImages := by
  constructor
  · intro heq
    have hcell : ∃ r, smallNet.imageCell leftNetwork (square 16) 0 (0, 0) = some r ∧
        r.hand = .left ∧ r.w = 33 := by
      norm_num [HandDetectNet.imageCell, HandDetectNet.candidate, cellIdx, leftNetwork, smallNet,
        TensorFormat.width, TensorFormat.channels, HandDetectNet.gridAnchor, HandDetectNet.gridH,
        HandDetectNet.gridW, TensorFormat.height, gridStride, initGridAnchor, toRect,
        scoreThreshold, DetectRect.hand]
    obtain ⟨r, hr, hhand, hw⟩ := hcell
    have hfirst : smallNet.FirstLeads leftNetwork (square 16) .left 1 0 r :=
      ⟨Nat.one_pos, ⟨rfl, rfl, rfl⟩, ⟨(0, 0), leads_one hr hhand⟩,
        fun m hm => absurd hm (Nat.not_lt_zero m)⟩
    have hsize := (HandDetectNet.batch_agree_iff rfl noImages noImages).mp heq (square 32) rfl
      (square 16) (by simp) .left 0 r hfirst
    have hwidth := congrArg (fun r : DetectRect ℚ => r.w) hsize
    norm_num [HandDetectNet.toImage, scaleCoords, HandDetectNet.scaling, scaling, smallNet, square,
      TensorFormat.width, TensorFormat.height, hw, round] at hwidth
  · intro heq
    have hread : ∃ anchor coord, smallNetv2.batchCell leftNetworkv2 0 [square 16, square 32] 0
        (0, 0) = candidateOf anchor coord 1 1 0 := ⟨_, _, rfl⟩
    obtain ⟨anchor, coord, hread⟩ := hread
    have hcell : ∃ r, candidateOf anchor coord 1 1 0 = some r ∧ r.hand = .left := by
      norm_num [candidateOf, scoreThreshold, toRect, DetectRect.hand]
    obtain ⟨r, hr, hhand⟩ := hcell
    have hboth := (HandDetectNetv2.batch_agree_iff rfl noImages noImages).mp heq (by simp)
      (square 32) rfl 0 (square 16) rfl .left
    rcases hboth with ⟨hnone, -⟩ | ⟨_, m, _, -, hfirst, -⟩
    · exact hnone (0, 0) ⟨Nat.one_pos, Nat.one_pos⟩ r (hread.trans hr) hhand
    · exact not_channels_smallNetv2 m hfirst.decodable.1

end TwoImages

end Detect

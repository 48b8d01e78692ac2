/-
`DetectBoxSmoothingCalculator`: the sides of the boxes go through One Euro filters.

For a hand that was not there in the last frame the calculator calls `SeqManager::reset`, which
clears the saved sequence.  The filters, which the boxes go through, are not in it.

* `SeqManager`, `BoxSmoothing.process` — the filters of a hand in a camera, and `Process`;
* `SeqManager.Agree` — managers that give the same boxes from now on, `agree_step` for a frame;
* `box_smoothing_restarts` — when a frame without the hand before it starts anew.
-/
import HandTracking.HandLandmark
import HandTracking.OneEuroFilter
import HandTracking.Predictor
import Mathlib.Algebra.Order.Floor.Ring

namespace Predictor

open Landmark

variable {K : Type} [Field K] [LinearOrder K]

/-- `BoxData`: a box and its score. -/
structure BoxData (K : Type) where
  score : K
  bboxXywh : DetectRect ℤ

/-- `KptData`: a keypoint and its score. -/
structure KptData (K : Type) where
  score : K
  kpt2d : Fin 2 → K

/-- `HandStepData`: what the smoothing knows of a hand in one frame. -/
structure HandStepData (K : Type) where
  bbox : BoxData K
  kpt : List (KptData K)

/-- `SeqManager`; the filters of a box are the last four. -/
structure SeqManager (K : Type) [Field K] [LinearOrder K] where
  handDataSavedSeq : List (HandStepData K)
  oneEuroFilterList : Fin 46 → OneEuroFilter K

/-- The conversion of a `float` or `double` to `int` drops the fraction. -/
def toInt [FloorRing K] (value : K) : ℤ := if 0 ≤ value then ⌊value⌋ else ⌈value⌉

/-- The parameters with which `SeqManager` makes its filters. -/
def boxParams [IsStrictOrderedRing K] : OneEuroParams K where
  freq := 30
  mincutoff := 4
  beta := 5 / 1000
  dcutoff := 5
  freq_pos := by positivity
  mincutoff_pos := by positivity
  beta_nonneg := by positivity
  dcutoff_pos := by positivity

namespace SeqManager

/-- The constructor: nothing is saved, and all filters are new. -/
def init [IsStrictOrderedRing K] : SeqManager K where
  handDataSavedSeq := []
  oneEuroFilterList _ := .init boxParams

/-- `SeqManager::reset`, which leaves the filters as they are. -/
def reset (m : SeqManager K) : SeqManager K := { m with handDataSavedSeq := [] }

/-- One coordinate, from whole pixels to whole pixels. -/
def filterInt [FloorRing K] (m : SeqManager K) (i : Fin 46) (value : ℤ) : SeqManager K × ℤ :=
  let result := (m.oneEuroFilterList i).filter value
  ({ m with oneEuroFilterList := Function.update m.oneEuroFilterList i result.1 },
    toInt result.2)

/-- The score that comes with the box is not looked at. -/
def getFilterBoxData [FloorRing K] (m : SeqManager K) (bbox : DetectRect K) :
    SeqManager K × DetectRect K :=
  let x1 := toInt bbox.x
  let x2 := toInt (bbox.x + bbox.w)
  let y1 := toInt bbox.y
  let y2 := toInt (bbox.y + bbox.h)
  let x1r := m.filterInt 42 x1
  let y1r := x1r.1.filterInt 43 y1
  let x2r := y1r.1.filterInt 44 x2
  let y2r := x2r.1.filterInt 45 y2
  (y2r.1, ⟨x1r.2, y1r.2, (x2r.2 - x1r.2 : ℤ), (y2r.2 - y1r.2 : ℤ)⟩)

end SeqManager

/-! ### Whole pixels -/

section

variable [FloorRing K]

theorem toInt_intCast [IsStrictOrderedRing K] (n : ℤ) : toInt (n : K) = n := by
  rw [toInt, Int.floor_intCast, Int.ceil_intCast, ite_self]

theorem toInt_lt {value : K} {n : ℤ} (hn : 0 < n) (h : value < n) : toInt value < n := by
  rw [toInt]
  split_ifs with hnonneg
  · exact Int.floor_lt.mpr h
  · have hceil : ⌈value⌉ ≤ 0 := Int.ceil_le.mpr (by exact_mod_cast (not_le.mp hnonneg).le)
    exact lt_of_le_of_lt hceil hn

end

/-! ### Managers that give the same boxes -/

namespace SeqManager

/-- The saved sequence does not count. -/
def Agree (m m' : SeqManager K) : Prop :=
  ∀ i, (m.oneEuroFilterList i).Agree (m'.oneEuroFilterList i)

/-- **`reset` leaves the filters as they are.** -/
theorem reset_agree_iff {m m' : SeqManager K} : m.reset.Agree m'.reset ↔ m.Agree m' := Iff.rfl

variable [FloorRing K] {m m' : SeqManager K}

theorem Agree.filterInt (h : m.Agree m') (i : Fin 46) (value : ℤ) :
    (m.filterInt i value).1.Agree (m'.filterInt i value).1 ∧
      (m.filterInt i value).2 = (m'.filterInt i value).2 := by
  obtain ⟨hfilter, hvalue⟩ := (h i).filter (value : K)
  refine ⟨?_, congrArg toInt hvalue⟩
  intro j
  by_cases hj : j = i
  · subst hj
    simpa only [SeqManager.filterInt, Function.update_self] using hfilter
  · simpa only [SeqManager.filterInt, Function.update_of_ne hj] using h j

theorem Agree.getFilterBoxData (h : m.Agree m') (bbox : DetectRect K) :
    (m.getFilterBoxData bbox).1.Agree (m'.getFilterBoxData bbox).1 ∧
      (m.getFilterBoxData bbox).2 = (m'.getFilterBoxData bbox).2 := by
  obtain ⟨hx1, hx1r⟩ := h.filterInt 42 (toInt bbox.x)
  obtain ⟨hy1, hy1r⟩ := hx1.filterInt 43 (toInt bbox.y)
  obtain ⟨hx2, hx2r⟩ := hy1.filterInt 44 (toInt (bbox.x + bbox.w))
  obtain ⟨hy2, hy2r⟩ := hx2.filterInt 45 (toInt (bbox.y + bbox.h))
  refine ⟨hy2, ?_⟩
  rw [SeqManager.getFilterBoxData, SeqManager.getFilterBoxData]
  dsimp only
  rw [hx1r, hy1r, hx2r, hy2r]

/-- The filter of the left side is used. -/
def Used (m : SeqManager K) : Prop := (m.oneEuroFilterList 42).x.initialized = true

theorem used_getFilterBoxData (m : SeqManager K) (bbox : DetectRect K) :
    (m.getFilterBoxData bbox).1.Used := by
  rw [Used, SeqManager.getFilterBoxData]
  dsimp only [SeqManager.filterInt]
  rw [Function.update_of_ne (by decide), Function.update_of_ne (by decide),
    Function.update_of_ne (by decide), Function.update_self]
  exact OneEuroFilter.initialized_filter _ _

end SeqManager

end Predictor

namespace Calculator

open Landmark Predictor

variable {K : Type} [Field K] [LinearOrder K]

/-- The boxes of a frame, and `kpt3d_world_pre`. -/
structure BoxFrame (K : Type) where
  bbox : DetOutputInternal K
  kpt3dWorldPre : HandsData K

/-- `m_seq_lcam_lhand` and the others. -/
abbrev BoxSmoothing (K : Type) [Field K] [LinearOrder K] := Hand → Cam → SeqManager K

namespace BoxSmoothing

/-- A new manager for each hand in each image. -/
def init [IsStrictOrderedRing K] : BoxSmoothing K := fun _ _ => .init

variable [FloorRing K]

/-- What a frame does for a hand in a camera. -/
def smoothHand (s : BoxSmoothing K) (f : BoxFrame K) (hand : Hand) (cam : Cam) :
    SeqManager K × DetectRect K :=
  let seq := if f.kpt3dWorldPre.valid hand then s hand cam else (s hand cam).reset
  if f.bbox.valid hand cam then seq.getFilterBoxData (f.bbox.rect hand cam)
  else (seq, f.bbox.rect hand cam)

/-- `DetectBoxSmoothingCalculator::Process` -/
def process (s : BoxSmoothing K) (f : BoxFrame K) : BoxSmoothing K × DetOutputInternal K :=
  (fun hand cam => (s.smoothHand f hand cam).1,
    { f.bbox with rect := fun hand cam => (s.smoothHand f hand cam).2 })

/-! ### One frame -/

variable {s t : BoxSmoothing K} {f : BoxFrame K} {hand : Hand} {cam : Cam}

/-- The boxes of a hand in an output. -/
def boxes {K : Type} (hand : Hand) (output : DetOutputInternal K) : Cam → DetectRect K :=
  output.rect hand

theorem agree_smoothHand (h : (s hand cam).Agree (t hand cam)) (f : BoxFrame K) :
    (s.smoothHand f hand cam).1.Agree (t.smoothHand f hand cam).1 ∧
      (s.smoothHand f hand cam).2 = (t.smoothHand f hand cam).2 := by
  -- a reset does not bring the filters together, and does not part them
  have hseq : SeqManager.Agree
      (if f.kpt3dWorldPre.valid hand then s hand cam else (s hand cam).reset)
      (if f.kpt3dWorldPre.valid hand then t hand cam else (t hand cam).reset) := by
    split
    · exact h
    · exact SeqManager.reset_agree_iff.mpr h
  rw [smoothHand, smoothHand]
  split
  · exact hseq.getFilterBoxData _
  · exact ⟨hseq, rfl⟩

theorem agree_step (h : ∀ cam, (s hand cam).Agree (t hand cam)) (f : BoxFrame K) :
    boxes hand (s.process f).2 = boxes hand (t.process f).2 ∧
      ∀ cam, ((s.process f).1 hand cam).Agree ((t.process f).1 hand cam) :=
  ⟨funext fun cam => (agree_smoothHand (h cam) f).2, fun cam => (agree_smoothHand (h cam) f).1⟩

theorem used_step (h : f.bbox.valid hand cam = true ∨ (s hand cam).Used) :
    ((s.process f).1 hand cam).Used := by
  show (s.smoothHand f hand cam).1.Used
  rw [smoothHand]
  split
  case isTrue => exact SeqManager.used_getFilterBoxData _ _
  case isFalse hvalid =>
    have hused := h.resolve_left hvalid
    show SeqManager.Used (if _ then _ else _)
    split
    · exact hused
    · exact hused

theorem oneEuroFilterList_step (h : f.bbox.valid hand cam = false) :
    ((s.process f).1 hand cam).oneEuroFilterList = (s hand cam).oneEuroFilterList := by
  show (s.smoothHand f hand cam).1.oneEuroFilterList = _
  rw [smoothHand]
  rw [h, if_neg Bool.false_ne_true]
  split
  · rfl
  · rfl

/-! ### Histories -/

variable {a b : List (BoxFrame K)}

theorem used_after (h : (∃ f ∈ a, f.bbox.valid hand cam = true) ∨ (s hand cam).Used) :
    (after process s a hand cam).Used :=
  after_of_mem (P := fun s : BoxSmoothing K => (s hand cam).Used)
    (p := fun f : BoxFrame K => f.bbox.valid hand cam = true)
    (fun _ _ h => used_step h) h

theorem oneEuroFilterList_after (h : ∀ f ∈ a, f.bbox.valid hand cam = false) :
    (after process s a hand cam).oneEuroFilterList = (s hand cam).oneEuroFilterList := by
  refine view_after_eq (fun s : BoxSmoothing K => (s hand cam).oneEuroFilterList)
    (P := fun f : BoxFrame K => f.bbox.valid hand cam = true) ?_ ?_
  · exact fun _ _ hnot => oneEuroFilterList_step (Bool.not_eq_true _ ▸ hnot)
  · exact fun f hf => Bool.not_eq_true _ ▸ h f hf

/-- No frame had a valid box of the hand. -/
def NeverSeen (hand : Hand) (a : List (BoxFrame K)) : Prop :=
  ∀ f ∈ a, ∀ cam, f.bbox.valid hand cam = false

variable [IsStrictOrderedRing K]

/-- From a frame on before which the hand was not there, both histories give the same boxes. -/
def Restarts (hand : Hand) (a b : List (BoxFrame K)) : Prop :=
  ∀ f later, f.kpt3dWorldPre.valid hand = false →
    (outputs process (after process init a) (f :: later)).map (boxes hand) =
      (outputs process (after process init b) (f :: later)).map (boxes hand)

theorem restarts_of_agree
    (h : ∀ cam, (after process init a hand cam).Agree (after process init b hand cam)) :
    Restarts hand a b :=
  fun f later _ => map_outputs_eq_of_rel
    (R := fun s t : BoxSmoothing K => ∀ cam, (s hand cam).Agree (t hand cam))
    (fun _ _ f h => agree_step h f) h (f :: later)

theorem agree_of_neverSeen (ha : NeverSeen hand a) (hb : NeverSeen hand b) (cam : Cam) :
    (after process init a hand cam).Agree (after process init b hand cam) := by
  intro i
  rw [oneEuroFilterList_after fun f hf => ha f hf cam,
    oneEuroFilterList_after fun f hf => hb f hf cam]
  exact .refl _

/-- Against a history that never saw the hand, every box that was filtered is still there. -/
theorem restarts_iff_of_neverSeen (hb : NeverSeen hand b) :
    Restarts hand a b ↔ NeverSeen hand a := by
  constructor
  · intro h
    by_contra hseen
    obtain ⟨g, hg, cam, hvalid⟩ : ∃ g ∈ a, ∃ cam, g.bbox.valid hand cam = true := by
      simpa only [NeverSeen, not_forall, Bool.not_eq_false, exists_prop] using hseen
    have hused : (after process init a hand cam).Used := used_after (.inl ⟨g, hg, hvalid⟩)
    let left := (after process init a hand cam).oneEuroFilterList 42
    -- a left side to the right of where the filter is
    let v : ℤ := max 1 (⌊left.x.s⌋ + 1)
    have hpos : 0 < v := lt_of_lt_of_le Int.zero_lt_one (le_max_left _ _)
    have hlt : left.x.s < (v : K) :=
      Int.floor_lt.mp (lt_of_lt_of_le (Int.lt_succ _) (le_max_right _ _))
    let probe : BoxFrame K := ⟨⟨fun _ _ => true, fun _ _ => ⟨v, 0, 0, 0⟩⟩, .init⟩
    have hboxes := h probe [] rfl
    have hx := congrArg (fun r : Cam → DetectRect K => (r cam).x) (List.cons.inj hboxes).1
    have hboth : toInt (left.filter ((toInt (v : K) : ℤ) : K)).2 =
        toInt (((after process init b hand cam).oneEuroFilterList 42).filter
          ((toInt (v : K) : ℤ) : K)).2 := Int.cast_injective hx
    rw [toInt_intCast, oneEuroFilterList_after fun f hf => hb f hf cam,
      OneEuroFilter.filter_of_not_initialized (f := (init hand cam).oneEuroFilterList 42) rfl,
      toInt_intCast] at hboth
    exact absurd hboth (toInt_lt hpos (OneEuroFilter.filter_lt hused hlt)).ne
  · intro ha
    exact restarts_of_agree (agree_of_neverSeen ha hb)

/-- **When box smoothing restarts.**  Two histories give the same boxes if they left the filters
of the hand agree in both cameras; and where one of them never saw the hand, exactly if the other
did not see it either. -/
theorem box_smoothing_restarts (hand : Hand) (a b : List (BoxFrame K)) :
    ((∀ cam, (after process init a hand cam).Agree (after process init b hand cam)) →
      Restarts hand a b) ∧
    (NeverSeen hand b → (Restarts hand a b ↔ NeverSeen hand a)) :=
  ⟨restarts_of_agree, restarts_iff_of_neverSeen⟩

/-! ### A left hand that was seen once -/

/-- One box of the hand, in the left image. -/
def seenFrame (hand : Hand) : BoxFrame ℚ where
  bbox :=
    { valid := fun side cam => decide (side = hand ∧ cam = .lcam)
      rect := fun _ _ => ⟨0, 0, 100, 100⟩ }
  kpt3dWorldPre := .init

theorem neverSeen_right : NeverSeen .left [seenFrame .right] := by
  intro f hf cam
  obtain rfl := List.mem_singleton.mp hf
  have hne : ¬(Hand.left = .right ∧ cam = .lcam) := fun h => Hand.noConfusion h.1
  exact decide_eq_false hne

/-- The hand was seen once, in the one history between two frames without it: what comes is smoothed
alike then, and not as if the hand had never been seen. -/
theorem box_smoothing_restarts_left :
    Restarts .left [seenFrame .left] [seenFrame .right, seenFrame .left, seenFrame .right] ∧
      ¬ Restarts .left [seenFrame .left] [seenFrame .right] := by
  constructor
  · refine (box_smoothing_restarts .left _ _).1 fun cam i => ?_
    cases cam with
    | lcam => exact .refl _
    | rcam => exact .refl _
  · rw [(box_smoothing_restarts .left [seenFrame .left] [seenFrame .right]).2 neverSeen_right]
    exact fun hnever => Bool.noConfusion (hnever _ List.mem_cons_self .lcam)

theorem left_box_not_forgotten :
    ¬ ∀ (hand : Hand) (a b : List (BoxFrame ℚ)), Restarts hand a b := by
  intro h
  have hnever : NeverSeen .left [seenFrame .left] :=
    (restarts_iff_of_neverSeen fun _ hf => absurd hf List.not_mem_nil).mp
      (h .left [seenFrame .left] [])
  exact Bool.noConfusion (hnever _ List.mem_cons_self .lcam)

end BoxSmoothing

end Calculator

/-
The filters of `PopResult`: one for each coordinate of each keypoint of a hand,
applied to the keypoints relative to the root.

* `HandJointFormat` — the build: 23 keypoints, or 26 in the OpenXR format;
* `HandFilters` — three filter managers for each hand: for the palm, for the index
  finger and for the rest;
* `process`, `reset` — the calls; they leave the other hand alone
  (`process_other`, `reset_other`), and `process` also the root
  (`HandSideFilters.process_root`).

Where the source tells the hands apart by `hand_side == 0`, the left hand is the
index 0 of a family.
-/
import HandTracking.Predictor
import Mathlib.Data.Finset.Sort

namespace HandPose

open Predictor

/-- `ENABLE_OPENXR_HANDJOINT_FORMAT` -/
inductive HandJointFormat where
  | xreal
  | openXR
  deriving DecidableEq, Repr

/-- `k3DAlgoStdKeypointNum`, and `EZXR_DEFINED_JOINTS` -/
def HandJointFormat.keypointNum : HandJointFormat → ℕ
  | .xreal => 23
  | .openXR => 26

instance (fmt : HandJointFormat) : NeZero fmt.keypointNum :=
  ⟨by cases fmt <;> decide⟩

variable {fmt : HandJointFormat}

/-- `kKeypointRootId` -/
def kKeypointRootId : Fin fmt.keypointNum := 21

/-- `kPalmKeypointIndexSet`: the keypoints of the palm. -/
def kPalmKeypointIndexSet : (fmt : HandJointFormat) → Finset (Fin fmt.keypointNum)
  | .xreal => {0, 1, 5, 9, 13, 17, 22}
  | .openXR => {0, 1, 5, 9, 13, 17, 22, 23, 24, 25}

/-- `kIndexFingerIndexSet`: those of the index finger, but for its root. -/
def kIndexFingerIndexSet (fmt : HandJointFormat) : Finset (Fin fmt.keypointNum) := {6, 7, 8}

/-- The keypoints of the last branch of the loops of `process`. -/
def restKeypointIndexSet (fmt : HandJointFormat) : Finset (Fin fmt.keypointNum) :=
  Finset.univ.filter fun i =>
    i ≠ kKeypointRootId ∧ i ∉ kPalmKeypointIndexSet fmt ∧ i ∉ kIndexFingerIndexSet fmt

variable {K : Type} [Field K] [LinearOrder K]

/-- The filter managers of one hand. -/
structure HandSideFilters (fmt : HandJointFormat) (K : Type) [Field K] [LinearOrder K] where
  seq3dIndex : SeqManager3D (kIndexFingerIndexSet fmt).card K
  seq3dHand : SeqManager3D (restKeypointIndexSet fmt).card K
  seq3dPalm : SeqManager3D (kPalmKeypointIndexSet fmt).card K

/-- `HandFilters` -/
abbrev HandFilters (fmt : HandJointFormat) (K : Type) [Field K] [LinearOrder K] :=
  Fin 2 → HandSideFilters fmt K

/-! ### The parameters -/

section

variable [IsStrictOrderedRing K]

/-- The parameters for the palm, for one of the coordinates. -/
def palmParams (glassesType : GlassesType) (c : Fin 3) : OneEuroParams K where
  freq := 60
  mincutoff := match glassesType with
    | .flora => if c = 2 then 2 / 10 else 4 / 10
    | .ella => if c = 2 then 1 / 10 else 2 / 10
  beta := match glassesType with
    | .flora => if c = 2 then 10 else 25
    | .ella => if c = 2 then 10 else 15
  dcutoff := if c = 2 then 1 else 2
  freq_pos := sixty_pos
  mincutoff_pos := by cases glassesType <;> dsimp only <;> split_ifs <;> positivity
  beta_nonneg := by cases glassesType <;> dsimp only <;> split_ifs <;> positivity
  dcutoff_pos := by split_ifs <;> positivity

/-- The parameters for the other fingers, which are those of the palm. -/
def otherFingerParams (glassesType : GlassesType) (c : Fin 3) : OneEuroParams K :=
  palmParams glassesType c

/-- The parameters for the index finger. -/
def indexFingerParams (glassesType : GlassesType) (c : Fin 3) : OneEuroParams K where
  freq := 60
  mincutoff := if c = 2 then 1 / 10 else 2 / 10
  beta := match glassesType with
    | .flora => if c = 2 then 10 else 20
    | .ella => if c = 2 then 10 else 15
  dcutoff := if c = 2 then 1 else 2
  freq_pos := sixty_pos
  mincutoff_pos := by split_ifs <;> positivity
  beta_nonneg := by cases glassesType <;> dsimp only <;> split_ifs <;> positivity
  dcutoff_pos := by split_ifs <;> positivity

end

/-- Filters the points of a set, which stand in their order. -/
def filterGroup {n : ℕ} (s : Finset (Fin n)) (m : SeqManager3D s.card K) (rel : Fin n → Fin 3 → K) :
    SeqManager3D s.card K × (s → Fin 3 → K) :=
  let order := s.orderIsoOfFin rfl
  let filtered := m.getFilterHandData fun q => rel (order q)
  (filtered.1, fun i => filtered.2 (order.symm i))

/-- `HandFilters::process` on the managers of the given hand. -/
def HandSideFilters.process (side : HandSideFilters fmt K)
    (point3d : Fin fmt.keypointNum → Fin 3 → K) :
    HandSideFilters fmt K × (Fin fmt.keypointNum → Fin 3 → K) :=
  let rootPoint := point3d kKeypointRootId
  let rel i := point3d i - rootPoint
  let indexPoints := filterGroup (kIndexFingerIndexSet fmt) side.seq3dIndex rel
  let relPoints := filterGroup (restKeypointIndexSet fmt) side.seq3dHand rel
  let palmPoints := filterGroup (kPalmKeypointIndexSet fmt) side.seq3dPalm rel
  (⟨indexPoints.1, relPoints.1, palmPoints.1⟩, fun i =>
    if hroot : i = kKeypointRootId then rootPoint
    else if hpalm : i ∈ kPalmKeypointIndexSet fmt then rootPoint + palmPoints.2 ⟨i, hpalm⟩
    else if hindex : i ∈ kIndexFingerIndexSet fmt then rootPoint + indexPoints.2 ⟨i, hindex⟩
    else rootPoint + relPoints.2
      ⟨i, Finset.mem_filter.mpr ⟨Finset.mem_univ i, hroot, hpalm, hindex⟩⟩)

/-- The root passes unfiltered. -/
theorem HandSideFilters.process_root (side : HandSideFilters fmt K)
    (point3d : Fin fmt.keypointNum → Fin 3 → K) :
    (side.process point3d).2 kKeypointRootId = point3d kKeypointRootId :=
  dif_pos rfl

/-- All three managers are reset. -/
def HandSideFilters.reset (side : HandSideFilters fmt K) : HandSideFilters fmt K :=
  ⟨side.seq3dIndex.reset, side.seq3dHand.reset, side.seq3dPalm.reset⟩

namespace HandFilters

/-- `HandFilters::init`: new filters for both hands. -/
def init [IsStrictOrderedRing K] (glassesType : GlassesType) : HandFilters fmt K := fun _ =>
  { seq3dIndex := .init _ (indexFingerParams glassesType)
    seq3dHand := .init _ (otherFingerParams glassesType)
    seq3dPalm := .init _ (palmParams glassesType) }

/-- `HandFilters::process` for one hand. -/
def process (handSide : Fin 2) (filters : HandFilters fmt K)
    (point3d : Fin fmt.keypointNum → Fin 3 → K) :
    HandFilters fmt K × (Fin fmt.keypointNum → Fin 3 → K) :=
  let result := (filters handSide).process point3d
  (Function.update filters handSide result.1, result.2)

/-- `HandFilters::reset` for one hand. -/
def reset (handSide : Fin 2) (filters : HandFilters fmt K) : HandFilters fmt K :=
  Function.update filters handSide (filters handSide).reset

variable {handSide other : Fin 2} (filters : HandFilters fmt K)
  (point3d : Fin fmt.keypointNum → Fin 3 → K)

@[simp]
theorem process_same :
    (process handSide filters point3d).1 handSide = ((filters handSide).process point3d).1 :=
  Function.update_self ..

@[simp]
theorem reset_same : reset handSide filters handSide = (filters handSide).reset :=
  Function.update_self ..

/-- The filters of the other hand stay as they are. -/
theorem process_other (h : other ≠ handSide) :
    (process handSide filters point3d).1 other = filters other :=
  Function.update_of_ne h _ _

theorem reset_other (h : other ≠ handSide) : reset handSide filters other = filters other :=
  Function.update_of_ne h _ _

end HandFilters

end HandPose

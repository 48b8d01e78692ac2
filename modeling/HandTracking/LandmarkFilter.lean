/-
The filter of the keypoints, `LandmarkFilter` and `LandmarkFilterCalculator`.

The last keypoints of a hand in a camera are brought to the middle and to size 1, the network
runs on them, and its output is brought back.  `Inference` returns the status of the run and
brings the output back whatever it is; the calculator does not look at the status.

* `LandmarkFilter.inference`, `LandmarkFilter.process` — the two functions;
* `LandmarkFilter.inference_result` — the keypoints after a call, failed or not;
* `LandmarkFilter.unaffected_iff` — networks whose failed runs leave the keypoints alone;
* `LandmarkFilter.process_seen` — what the calculator publishes of a hand.
-/
import HandTracking.DetectInference
import HandTracking.HandsData
import HandTracking.RtmTiny

namespace Landmark

open Calculator Camera Detect Rtm

/-- The network after `Init`. -/
structure LandmarkFilter where
  itensor : IoTensors
  itensorPackedByBatch : Bool
  itensorFormat : TensorFormat
  otensor : IoTensors
  otensorPackedByBatch : Bool
  otensorFormat : TensorFormat

/-- The memory of the input tensors, and the members that a call changes. -/
structure FilterState (K : Type) where
  inputs : ℕ → ℕ → K
  absScale : List K
  mCenterUv : Vec2 K
  mScale : K

/-- `RunNet`: the status, and the memory of the output tensors after the run. -/
abbrev FilterRun (K : Type) := (ℕ → ℕ → K) → Detect.Status × (ℕ → ℕ → K)

/-! ### The network -/

section Code

variable {K : Type} [Field K] [LinearOrder K]

namespace LandmarkFilter

variable (net : LandmarkFilter)

/-- The keypoints of the sequence, in the memory of the tensor. -/
def writeSeq (netInput : List (List (Vec2 K))) (center : Vec2 K) (scale : K) (temp : ℕ → K) :
    ℕ → K :=
  (List.range netInput.length).foldl (fun temp i =>
    (List.range kAlgoKeypointNum).foldl (fun temp p =>
      let kpt := (netInput.getD i []).getD p 0
      let temp := Function.update temp (i * 42 + p * 2) ((kpt 0 - center 0) / scale)
      Function.update temp (i * 42 + p * 2 + 1) ((kpt 1 - center 1) / scale)) temp) temp

/-- `PreProcess`: the keypoints of the window, relative to one of the newest and scaled. -/
def preProcess (netInput : List (List (Vec2 K))) (st : FilterState K) : FilterState K :=
  let ai := net.itensor.mBatch * net.itensor.mMultishapeNum
  let bi := 1
  if ai ≠ bi ∨ net.itensorPackedByBatch = false then st
  else
    -- the only pass of the loop, with `i = 0`
    let multiI := 0 / net.itensor.mBatch
    let batchI := 0 % net.itensor.mBatch
    let mDims := net.itensor.mDims multiI
    let memSize := net.itensorFormat.height mDims * net.itensorFormat.width mDims *
      net.itensorFormat.channels mDims
    let inputKptS := netInput.headD []
    let mCenterUv := inputKptS.getD 9 0
    let absScale := inputKptS.zipIdx.foldl (fun absScale p =>
      (absScale.set (p.2 * 2) |p.1 0 - mCenterUv 0|).set (p.2 * 2 + 1) |p.1 1 - mCenterUv 1|)
      st.absScale
    let mScale := (absScale.drop 1).foldl max (absScale.headD 0)
    let temp := writeSeq netInput mCenterUv mScale fun x =>
      st.inputs multiI (batchI * memSize + x)
    { inputs := fun m x =>
        if m = multiI ∧ batchI * memSize ≤ x then temp (x - batchI * memSize) else st.inputs m x
      absScale := absScale
      mCenterUv := mCenterUv
      mScale := mScale }

/-- A keypoint in the output for one element of the batch. -/
def outputKpt (mem : ℕ → ℕ → K) (st : FilterState K) (multiI batchI i : ℕ) : Vec2 K :=
  let mDims := net.otensor.mDims multiI
  let data x := mem multiI (batchI * net.otensorFormat.height mDims *
    net.otensorFormat.width mDims * net.otensorFormat.channels mDims + x)
  ![data (i * 2) * st.mScale + st.mCenterUv 0, data (i * 2 + 1) * st.mScale + st.mCenterUv 1]

/-- The body of the loops of `PostProcess`. -/
def readKpts (mem : ℕ → ℕ → K) (st : FilterState K) (result : List (Vec2 K)) (multiI batchI : ℕ) :
    List (Vec2 K) :=
  (List.range kAlgoKeypointNum).foldl
    (fun result i => result.set i (net.outputKpt mem st multiI batchI i))
    (resize result kAlgoKeypointNum 0)

/-- `PostProcess`: the keypoints of the tensors, one over the other. -/
def postProcess (mem : ℕ → ℕ → K) (st : FilterState K) (result : List (Vec2 K)) :
    List (Vec2 K) :=
  if net.otensorPackedByBatch = false then result
  else
    (List.range net.otensor.mMultishapeNum).foldl (fun result multiI =>
      (List.range net.otensor.mBatch).foldl (fun result batchI =>
        net.readKpts mem st result multiI batchI) result) result

/-- `Inference`: the members, the keypoints of the caller and the status. -/
def inference (run : FilterRun K) (baseinput : List (List (Vec2 K))) (st : FilterState K)
    (baseresult : List (Vec2 K)) : FilterState K × List (Vec2 K) × Detect.Status :=
  let st := net.preProcess baseinput st
  let ret := run st.inputs
  (st, net.postProcess ret.2 st baseresult, ret.1)

end LandmarkFilter

/-! ### The calculator -/

/-- `mWindowLength` of `SeqManager2D` -/
def windowLength : ℕ := 16

/-- `updateSeq2D`: the newest keypoints at the end; a window that is not full is filled with them.
-/
def updateSeq2D (seq : List (List (Vec2 K))) (kpt2d : List (Vec2 K)) : List (List (Vec2 K)) :=
  if seq.length = windowLength then seq.drop 1 ++ [kpt2d]
  else List.replicate windowLength kpt2d

/-- The six newest keypoints of a window, the last ones first. -/
def getSeq (seq : List (List (Vec2 K))) : List (List (Vec2 K)) :=
  [15, 14, 13, 12, 11, 10].map fun i => seq.getD i []

/-- The members of `LandmarkFilterCalculator`, with those of its network. -/
structure FilterCalculator (K : Type) where
  seq : Hand → Cam → List (List (Vec2 K))
  st : FilterState K

namespace LandmarkFilter

variable (net : LandmarkFilter) (runs : Hand → Cam → FilterRun K) (input : Kpt2dInternal K)

/-- The window of one hand in one image. -/
def setSeq (filter : FilterCalculator K) (slot : Hand × Cam) (seq : List (List (Vec2 K))) :
    FilterCalculator K :=
  { filter with seq := fun hand cam => if (hand, cam) = slot then seq else filter.seq hand cam }

/-- The keypoints of one hand in one image. -/
def setSeen (output : Kpt2dInternal K) (slot : Hand × Cam) (seen : CamKeypoints K) :
    Kpt2dInternal K :=
  { output with seen := fun hand cam => if (hand, cam) = slot then seen else output.seen hand cam }

/-- One hand in one camera; the status is dropped. -/
def processSlot (s : FilterCalculator K × Kpt2dInternal K) (slot : Hand × Cam) :
    FilterCalculator K × Kpt2dInternal K :=
  let seen := input.seen slot.1 slot.2
  if seen.valid then
    let out := s.2.seen slot.1 slot.2
    let seq := updateSeq2D (s.1.seq slot.1 slot.2) seen.kpt
    let r := net.inference (runs slot.1 slot.2) (getSeq seq) s.1.st out.kpt
    (setSeq { s.1 with st := r.1 } slot seq,
      setSeen s.2 slot { out with kpt := r.2.1, valid := true })
  else (setSeq s.1 slot [], s.2)

/-- `LandmarkFilterCalculator::Process` -/
def process (filter : FilterCalculator K) : FilterCalculator K × Kpt2dInternal K :=
  [(.left, .lcam), (.left, .rcam), (.right, .rcam), (.right, .lcam)].foldl
    (net.processSlot runs input) (filter, input)

end LandmarkFilter

end Code

/-! ### The keypoints after a call -/

section Calls

variable {K : Type} [Field K]

namespace LandmarkFilter

variable (net : LandmarkFilter)

/-- The keypoints in the output for one element of the batch. -/
def outputKpts (mem : ℕ → ℕ → K) (st : FilterState K) (multiI batchI : ℕ) : List (Vec2 K) :=
  (List.range kAlgoKeypointNum).map (net.outputKpt mem st multiI batchI)

/-- Nothing is read from the output. -/
def Idle : Prop :=
  net.otensorPackedByBatch = false ∨ net.otensor.mMultishapeNum = 0 ∨ net.otensor.mBatch = 0

theorem readKpts_eq (mem : ℕ → ℕ → K) (st : FilterState K) (result : List (Vec2 K))
    (multiI batchI : ℕ) :
    net.readKpts mem st result multiI batchI = net.outputKpts mem st multiI batchI := by
  have hloop := foldl_set_range (net.outputKpt mem st multiI batchI)
    (resize result kAlgoKeypointNum 0)
  rw [length_resize] at hloop
  exact hloop

theorem postProcess_of_idle (hidle : net.Idle) (mem : ℕ → ℕ → K) (st : FilterState K)
    (result : List (Vec2 K)) : net.postProcess mem st result = result := by
  unfold postProcess
  split_ifs with hpacked
  · rfl
  · rcases hidle with hidle | hnone | hnone
    · exact absurd hidle hpacked
    · rw [hnone]
      rfl
    · rw [hnone]
      exact List.foldl_fixed' (fun _ => rfl) _

/-- The last element of the batch, in the last tensor, is what is left. -/
theorem postProcess_of_not_idle (hidle : ¬net.Idle) (mem : ℕ → ℕ → K) (st : FilterState K)
    (result : List (Vec2 K)) :
    net.postProcess mem st result =
      net.outputKpts mem st (net.otensor.mMultishapeNum - 1) (net.otensor.mBatch - 1) := by
  unfold Idle at hidle
  push Not at hidle
  obtain ⟨hpacked, hshapes, hbatch⟩ := hidle
  obtain ⟨m, hm⟩ := Nat.exists_eq_succ_of_ne_zero hshapes
  obtain ⟨b, hb⟩ := Nat.exists_eq_succ_of_ne_zero hbatch
  have hpass : ∀ (result : List (Vec2 K)) (multiI : ℕ),
      (List.range (b + 1)).foldl
        (fun result batchI => net.readKpts mem st result multiI batchI) result =
          net.outputKpts mem st multiI b := by
    intro result multiI
    rw [List.range_succ, List.foldl_append, List.foldl_cons, List.foldl_nil, readKpts_eq]
  unfold postProcess
  rw [if_neg hpacked, hm, hb, List.range_succ (n := m), List.foldl_append, List.foldl_cons,
    List.foldl_nil]
  exact hpass _ m

variable [LinearOrder K]

/-- The status of the run does not matter. -/
theorem inference_result (run : FilterRun K) (baseinput : List (List (Vec2 K)))
    (st : FilterState K) (baseresult : List (Vec2 K)) (hidle : ¬net.Idle) :
    (net.inference run baseinput st baseresult).2.1 =
      net.outputKpts (run (net.preProcess baseinput st).inputs).2 (net.preProcess baseinput st)
        (net.otensor.mMultishapeNum - 1) (net.otensor.mBatch - 1) :=
  net.postProcess_of_not_idle hidle _ _ _

variable (K) in
/-- A failed run leaves the keypoints of the caller as they are. -/
def Unaffected : Prop :=
  ∀ (run : FilterRun K) (baseinput : List (List (Vec2 K))) (st : FilterState K)
    (baseresult : List (Vec2 K)), (net.inference run baseinput st baseresult).2.2 = .error →
      (net.inference run baseinput st baseresult).2.1 = baseresult

theorem unaffected_iff : net.Unaffected K ↔ net.Idle := by
  constructor
  · intro hunaffected
    by_contra hidle
    have hkpts := hunaffected (fun _ => (.error, fun _ _ => 0)) [] ⟨fun _ _ => 0, [], 0, 0⟩ [] rfl
    rw [net.inference_result _ _ _ _ hidle] at hkpts
    have hlength := congrArg List.length hkpts
    rw [outputKpts, List.length_map, List.length_range] at hlength
    exact Nat.succ_ne_zero 20 hlength
  · intro hidle run baseinput st baseresult _
    exact net.postProcess_of_idle hidle _ _ _

end LandmarkFilter

end Calls

/-! ### What is published -/

namespace LandmarkFilter

variable {K : Type}

theorem setSeen_self (output : Kpt2dInternal K) (hand : Hand) (cam : Cam) (seen : CamKeypoints K) :
    (setSeen output (hand, cam) seen).seen hand cam = seen :=
  if_pos rfl

theorem setSeen_of_ne (output : Kpt2dInternal K) {hand : Hand} {cam : Cam} {slot : Hand × Cam}
    (seen : CamKeypoints K) (hne : (hand, cam) ≠ slot) :
    (setSeen output slot seen).seen hand cam = output.seen hand cam :=
  if_neg hne

variable [Field K] [LinearOrder K] {net : LandmarkFilter} {runs : Hand → Cam → FilterRun K}
  {input : Kpt2dInternal K} {hand : Hand} {cam : Cam}

theorem processSlot_of_not_valid (s : FilterCalculator K × Kpt2dInternal K)
    (hvalid : (input.seen hand cam).valid = false) :
    (net.processSlot runs input s (hand, cam)).2 = s.2 := by
  rw [processSlot, hvalid]
  rfl

theorem processSlot_of_valid (s : FilterCalculator K × Kpt2dInternal K)
    (hvalid : (input.seen hand cam).valid) :
    (net.processSlot runs input s (hand, cam)).2 =
      setSeen s.2 (hand, cam) { s.2.seen hand cam with
        kpt := (net.inference (runs hand cam)
          (getSeq (updateSeq2D (s.1.seq hand cam) (input.seen hand cam).kpt)) s.1.st
            (s.2.seen hand cam).kpt).2.1
        valid := true } := by
  rw [processSlot, hvalid]
  rfl

theorem processSlot_seen_of_ne (s : FilterCalculator K × Kpt2dInternal K) {slot : Hand × Cam}
    (hne : (hand, cam) ≠ slot) :
    (net.processSlot runs input s slot).2.seen hand cam = s.2.seen hand cam := by
  obtain ⟨hand', cam'⟩ := slot
  cases hvalid : (input.seen hand' cam').valid with
  | false => rw [processSlot_of_not_valid s hvalid]
  | true =>
    rw [processSlot_of_valid s hvalid]
    exact setSeen_of_ne _ _ hne

theorem foldl_processSlot_seen_of_notMem {slots : List (Hand × Cam)} (hmem : (hand, cam) ∉ slots)
    (s : FilterCalculator K × Kpt2dInternal K) :
    (slots.foldl (net.processSlot runs input) s).2.seen hand cam = s.2.seen hand cam := by
  induction slots generalizing s with
  | nil => rfl
  | cons slot slots ih =>
    obtain ⟨hne, hmem⟩ := not_or.mp (List.mem_cons.not.mp hmem)
    rw [List.foldl_cons, ih hmem, processSlot_seen_of_ne s hne]

theorem mem_slots (hand : Hand) (cam : Cam) :
    ∃ front back, [(Hand.left, Cam.lcam), (.left, .rcam), (.right, .rcam), (.right, .lcam)] =
      front ++ (hand, cam) :: back ∧ (hand, cam) ∉ front ∧ (hand, cam) ∉ back := by
  cases hand <;> cases cam
  · exact ⟨[], _, rfl, by decide, by decide⟩
  · exact ⟨[_], _, rfl, by decide, by decide⟩
  · exact ⟨[_, _, _], _, rfl, by decide, by decide⟩
  · exact ⟨[_, _], _, rfl, by decide, by decide⟩

/-- A hand that is not seen is published as it is; of one that is seen the keypoints are those of
a call of the network, on some state of its members. -/
theorem process_seen (filter : FilterCalculator K) (hand : Hand) (cam : Cam) :
    ((input.seen hand cam).valid = false →
      (net.process runs input filter).2.seen hand cam = input.seen hand cam) ∧
    ((input.seen hand cam).valid → ∃ seq st,
      (net.process runs input filter).2.seen hand cam = { input.seen hand cam with
        kpt := (net.inference (runs hand cam) seq st (input.seen hand cam).kpt).2.1
        valid := true }) := by
  obtain ⟨front, back, hslots, hfront, hback⟩ := mem_slots hand cam
  rw [process, hslots, List.foldl_append, List.foldl_cons,
    foldl_processSlot_seen_of_notMem hback]
  set s := front.foldl (net.processSlot runs input) (filter, input)
  have hseen : s.2.seen hand cam = input.seen hand cam :=
    foldl_processSlot_seen_of_notMem hfront _
  refine ⟨fun hvalid => ?_, fun hvalid =>
    ⟨getSeq (updateSeq2D (s.1.seq hand cam) (input.seen hand cam).kpt), s.1.st, ?_⟩⟩
  · rw [processSlot_of_not_valid s hvalid, hseen]
  · rw [processSlot_of_valid s hvalid, setSeen_self, hseen]

/-- What the output tensors hold after the run is published, also if it failed. -/
theorem process_kpt_of_not_idle (hidle : ¬net.Idle) (filter : FilterCalculator K)
    (hvalid : (input.seen hand cam).valid) :
    ∃ seq st, ((net.process runs input filter).2.seen hand cam).kpt =
      net.outputKpts (runs hand cam (net.preProcess seq st).inputs).2 (net.preProcess seq st)
        (net.otensor.mMultishapeNum - 1) (net.otensor.mBatch - 1) := by
  obtain ⟨seq, st, hseen⟩ := (net.process_seen filter hand cam).2 hvalid
  rw [hseen]
  exact ⟨seq, st, net.inference_result _ _ _ _ hidle⟩

theorem process_of_idle (hidle : net.Idle) (filter : FilterCalculator K) (hand : Hand)
    (cam : Cam) : (net.process runs input filter).2.seen hand cam = input.seen hand cam := by
  cases hvalid : (input.seen hand cam).valid with
  | false => exact (net.process_seen filter hand cam).1 hvalid
  | true =>
    obtain ⟨seq, st, hseen⟩ := (net.process_seen filter hand cam).2 hvalid
    rw [hseen, ← hvalid]
    exact congrArg (fun kpt => { input.seen hand cam with kpt := kpt })
      (net.postProcess_of_idle hidle _ _ _)

end LandmarkFilter

end Landmark

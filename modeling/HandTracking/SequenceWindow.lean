/-
The sequences of keypoints that `LandmarkFilterCalculator` keeps.

`SeqManager2D` holds the last 16 frames since its reset; the first one fills it.  The network of the
filter gets the last six of them, newest first.  A frame in which the hand is not valid resets the
sequence of the hand in the camera.

* `seqAfter` — the sequence after a run of calls, `framesSince` — the frames that it should hold;
* `seqAfter_eq` — it is the window over these frames;
* `framesSeen` — the frames of a hand in a camera since it was invalid;
* `sequence_window` — what `getSeq` returns, in any run and for the calculator.
-/
import HandTracking.LandmarkFilter
import HandTracking.Library.Window
import Mathlib.Data.List.GetD

namespace Landmark

open Calculator Camera

variable {K : Type}

/-! ### The sequence -/

/-- A call of `SeqManager2D` that changes the sequence. -/
inductive SeqCall (K : Type) where
  | update (kpt2d : List (Vec2 K))
  | reset

/-- A call on a window. -/
def SeqCall.apply (seq : List (List (Vec2 K))) : SeqCall K → List (List (Vec2 K))
  | .update kpt2d => updateSeq2D seq kpt2d
  | .reset => []

/-- `mHandDataSeq` of a new manager after a run of calls. -/
def seqAfter (calls : List (SeqCall K)) : List (List (Vec2 K)) := calls.foldl SeqCall.apply []

/-- The frames since the last reset. -/
def framesSince (calls : List (SeqCall K)) : List (List (Vec2 K)) :=
  calls.foldl (fun frames call =>
    match call with
    | .update kpt2d => frames ++ [kpt2d]
    | .reset => []) []

theorem seqAfter_concat (calls : List (SeqCall K)) (call : SeqCall K) :
    seqAfter (calls ++ [call]) = call.apply (seqAfter calls) :=
  List.foldl_concat ..

theorem framesSince_update (calls : List (SeqCall K)) (kpt2d : List (Vec2 K)) :
    framesSince (calls ++ [.update kpt2d]) = framesSince calls ++ [kpt2d] :=
  List.foldl_concat ..

theorem framesSince_reset (calls : List (SeqCall K)) : framesSince (calls ++ [.reset]) = [] :=
  List.foldl_concat ..

/-- An update moves the window on, and fills it with the first frame. -/
theorem updateSeq2D_window (frames : List (List (Vec2 K))) (kpt2d : List (Vec2 K)) :
    updateSeq2D (window windowLength frames) kpt2d =
      window windowLength (frames ++ [kpt2d]) := by
  rw [updateSeq2D]
  by_cases hframes : frames = []
  · rw [hframes, List.nil_append, window_singleton, window_nil]
    exact if_neg (Nat.zero_ne_add_one 15)
  · rw [length_window _ hframes, if_pos rfl]
    exact (window_concat (Nat.zero_lt_succ 15) hframes kpt2d).symm

theorem seqAfter_eq (calls : List (SeqCall K)) :
    seqAfter calls = window windowLength (framesSince calls) := by
  induction calls using List.reverseRecOn with
  | nil => rfl
  | append_singleton calls call ih =>
    rw [seqAfter_concat, ih]
    cases call with
    | update kpt2d =>
      rw [framesSince_update]
      exact updateSeq2D_window _ kpt2d
    | reset =>
      rw [framesSince_reset]
      rfl

/-- The reads of `getSeq` are the six at the far end. -/
theorem getSeq_eq {seq : List (List (Vec2 K))} (hlength : seq.length = windowLength) :
    getSeq seq = seq.reverse.take 6 := by
  have hindex : [15, 14, 13, 12, 11, 10] = (List.range 6).map fun k => windowLength - 1 - k := rfl
  rw [getSeq, hindex, List.map_map]
  refine List.ext_getElem ?_ fun k hk hk' => ?_
  · rw [List.length_map, List.length_range, List.length_take, List.length_reverse, hlength]
    rfl
  · rw [List.length_map, List.length_range] at hk
    have hread : windowLength - 1 - k < seq.length := by
      rw [hlength, windowLength]
      omega
    rw [List.getElem_map, List.getElem_range, List.getElem_take, List.getElem_reverse]
    simp only [Function.comp_apply, List.getD_eq_getElem _ _ hread, hlength]

theorem getSeq_window {frames : List (List (Vec2 K))} (hframes : frames ≠ []) :
    getSeq (window windowLength frames) = newest 6 frames := by
  rw [getSeq_eq (length_window _ hframes), take_reverse_window (by decide)]

theorem length_seqAfter (calls : List (SeqCall K)) :
    (seqAfter calls).length = if framesSince calls = [] then 0 else windowLength := by
  rw [seqAfter_eq]
  by_cases hframes : framesSince calls = []
  · rw [if_pos hframes, hframes]
    rfl
  · rw [if_neg hframes, length_window _ hframes]

theorem getSeq_update (calls : List (SeqCall K)) (kpt2d : List (Vec2 K)) :
    getSeq (seqAfter (calls ++ [.update kpt2d])) =
      newest 6 (framesSince (calls ++ [.update kpt2d])) := by
  rw [seqAfter_eq, getSeq_window]
  rw [framesSince_update]
  exact List.append_ne_nil_of_right_ne_nil _ (List.cons_ne_nil _ _)

/-! ### The calculator -/

/-- A frame for the calculator, with what the runs of the network do in it. -/
structure FilterFrame (K : Type) where
  runs : Hand → Cam → FilterRun K
  input : Kpt2dInternal K

/-- The keypoints of a hand in a camera since the last frame in which it was not valid. -/
def framesSeen (frames : List (FilterFrame K)) (hand : Hand) (cam : Cam) :
    List (List (Vec2 K)) :=
  ((frames.reverse.takeWhile fun f => (f.input.seen hand cam).valid).reverse).map fun f =>
    (f.input.seen hand cam).kpt

theorem framesSeen_valid (frames : List (FilterFrame K)) {f : FilterFrame K} {hand : Hand}
    {cam : Cam} (hvalid : (f.input.seen hand cam).valid) :
    framesSeen (frames ++ [f]) hand cam =
      framesSeen frames hand cam ++ [(f.input.seen hand cam).kpt] := by
  have htake := List.takeWhile_cons_of_pos (p := fun f => (f.input.seen hand cam).valid)
    (l := frames.reverse) hvalid
  rw [framesSeen, List.reverse_concat, htake, List.reverse_cons, List.map_append]
  rfl

theorem framesSeen_invalid (frames : List (FilterFrame K)) {f : FilterFrame K} {hand : Hand}
    {cam : Cam} (hvalid : (f.input.seen hand cam).valid = false) :
    framesSeen (frames ++ [f]) hand cam = [] := by
  have htake := List.takeWhile_cons_of_neg (p := fun f => (f.input.seen hand cam).valid)
    (l := frames.reverse) (Bool.eq_false_iff.mp hvalid)
  rw [framesSeen, List.reverse_concat, htake]
  rfl

namespace LandmarkFilter

variable [Field K] [LinearOrder K] (net : LandmarkFilter)

/-- The members of the calculator after `Open` and a run of frames; those of the network may be
anything after `Open`. -/
def afterFrames (st : FilterState K) (frames : List (FilterFrame K)) : FilterCalculator K :=
  frames.foldl (fun filter f => (net.process f.runs f.input filter).1) ⟨fun _ _ => [], st⟩

theorem afterFrames_concat (st : FilterState K) (frames : List (FilterFrame K))
    (f : FilterFrame K) : net.afterFrames st (frames ++ [f]) =
      (net.process f.runs f.input (net.afterFrames st frames)).1 :=
  List.foldl_concat ..

variable {net} {runs : Hand → Cam → FilterRun K} {input : Kpt2dInternal K}

theorem processSlot_seq (s : FilterCalculator K × Kpt2dInternal K) (hand : Hand) (cam : Cam) :
    (net.processSlot runs input s (hand, cam)).1.seq hand cam =
      if (input.seen hand cam).valid then
        updateSeq2D (s.1.seq hand cam) (input.seen hand cam).kpt
      else [] := by
  rw [processSlot]
  split_ifs
  · exact if_pos rfl
  · exact if_pos rfl

theorem processSlot_seq_of_ne (s : FilterCalculator K × Kpt2dInternal K) {hand : Hand} {cam : Cam}
    {slot : Hand × Cam} (hne : (hand, cam) ≠ slot) :
    (net.processSlot runs input s slot).1.seq hand cam = s.1.seq hand cam := by
  rw [processSlot]
  split_ifs
  · exact if_neg hne
  · exact if_neg hne

theorem foldl_processSlot_seq_of_notMem {hand : Hand} {cam : Cam} {slots : List (Hand × Cam)}
    (hmem : (hand, cam) ∉ slots) (s : FilterCalculator K × Kpt2dInternal K) :
    (slots.foldl (net.processSlot runs input) s).1.seq hand cam = s.1.seq hand cam := by
  induction slots generalizing s with
  | nil => rfl
  | cons slot slots ih =>
    obtain ⟨hne, hmem⟩ := not_or.mp (List.mem_cons.not.mp hmem)
    rw [List.foldl_cons, ih hmem, processSlot_seq_of_ne s hne]

/-- A call for one hand in one camera: the other three leave its sequence and its output alone. -/
theorem exists_processSlot (net : LandmarkFilter) (runs : Hand → Cam → FilterRun K)
    (input : Kpt2dInternal K) (filter : FilterCalculator K) (hand : Hand) (cam : Cam) :
    ∃ s : FilterCalculator K × Kpt2dInternal K,
      s.1.seq hand cam = filter.seq hand cam ∧ s.2.seen hand cam = input.seen hand cam ∧
        (net.process runs input filter).1.seq hand cam =
          (net.processSlot runs input s (hand, cam)).1.seq hand cam ∧
        (net.process runs input filter).2.seen hand cam =
          (net.processSlot runs input s (hand, cam)).2.seen hand cam := by
  obtain ⟨front, back, hslots, hfront, hback⟩ := mem_slots hand cam
  refine ⟨front.foldl (net.processSlot runs input) (filter, input),
    foldl_processSlot_seq_of_notMem hfront _, foldl_processSlot_seen_of_notMem hfront _, ?_, ?_⟩
  · rw [process, hslots, List.foldl_append, List.foldl_cons,
      foldl_processSlot_seq_of_notMem hback]
  · rw [process, hslots, List.foldl_append, List.foldl_cons,
      foldl_processSlot_seen_of_notMem hback]

/-- Each sequence is the window over the frames since the hand was not valid in the camera. -/
theorem seq_afterFrames (st : FilterState K) (frames : List (FilterFrame K)) (hand : Hand)
    (cam : Cam) : (net.afterFrames st frames).seq hand cam =
      window windowLength (framesSeen frames hand cam) := by
  induction frames using List.reverseRecOn with
  | nil => rfl
  | append_singleton frames f ih =>
    obtain ⟨s, hseq, -, hprocess, -⟩ :=
      exists_processSlot net f.runs f.input (net.afterFrames st frames) hand cam
    rw [afterFrames_concat, hprocess, processSlot_seq, hseq, ih]
    cases hvalid : (f.input.seen hand cam).valid with
    | false =>
      rw [if_neg Bool.false_ne_true, framesSeen_invalid frames hvalid]
      rfl
    | true => rw [if_pos rfl, framesSeen_valid frames hvalid, updateSeq2D_window]

/-- What the calculator publishes of a valid hand is computed from the newest six frames, which it
has in the sequence of the hand in the camera. -/
theorem process_seen_newest (st : FilterState K) (frames : List (FilterFrame K))
    (f : FilterFrame K) {hand : Hand} {cam : Cam} (hvalid : (f.input.seen hand cam).valid) :
    let processed := net.process f.runs f.input (net.afterFrames st frames)
    (processed.1.seq hand cam).length = windowLength ∧
      getSeq (processed.1.seq hand cam) = newest 6 (framesSeen (frames ++ [f]) hand cam) ∧
      ∃ st', processed.2.seen hand cam =
        { f.input.seen hand cam with
          kpt := (net.inference (f.runs hand cam) (getSeq (processed.1.seq hand cam)) st'
            (f.input.seen hand cam).kpt).2.1
          valid := true } := by
  intro processed
  have hwindow : processed.1.seq hand cam =
      window windowLength (framesSeen (frames ++ [f]) hand cam) := by
    rw [← seq_afterFrames, afterFrames_concat]
  have hframes : framesSeen (frames ++ [f]) hand cam ≠ [] := by
    rw [framesSeen_valid frames hvalid]
    exact List.append_ne_nil_of_right_ne_nil _ (List.cons_ne_nil _ _)
  rw [hwindow]
  refine ⟨length_window _ hframes, getSeq_window hframes, ?_⟩
  obtain ⟨s, hseq, hseen, -, hprocess⟩ :=
    exists_processSlot net f.runs f.input (net.afterFrames st frames) hand cam
  refine ⟨s.1.st, ?_⟩
  rw [hprocess, processSlot_of_valid s hvalid, setSeen_self, hseq, hseen, seq_afterFrames,
    updateSeq2D_window, framesSeen_valid frames hvalid]

end LandmarkFilter

variable (K) in
/-- The sequence is empty or full, and after an update `getSeq` returns the newest six frames since
the reset, for every run of calls.  The calculator calls it on full sequences only, and what it
gets of them are frames since the hand was last not valid. -/
theorem sequence_window [Field K] [LinearOrder K] :
    (∀ calls : List (SeqCall K),
      (seqAfter calls).length = if framesSince calls = [] then 0 else windowLength) ∧
    (∀ (calls : List (SeqCall K)) (kpt2d : List (Vec2 K)),
      getSeq (seqAfter (calls ++ [.update kpt2d])) =
        newest 6 (framesSince (calls ++ [.update kpt2d]))) ∧
    ∀ (net : LandmarkFilter) (st : FilterState K) (frames : List (FilterFrame K))
      (f : FilterFrame K) (hand : Hand) (cam : Cam), (f.input.seen hand cam).valid →
        let processed := net.process f.runs f.input (net.afterFrames st frames)
        (processed.1.seq hand cam).length = windowLength ∧
          getSeq (processed.1.seq hand cam) = newest 6 (framesSeen (frames ++ [f]) hand cam) ∧
          ∃ st', processed.2.seen hand cam =
            { f.input.seen hand cam with
              kpt := (net.inference (f.runs hand cam) (getSeq (processed.1.seq hand cam)) st'
                (f.input.seen hand cam).kpt).2.1
              valid := true } :=
  ⟨length_seqAfter, getSeq_update, fun _ st frames f _ _ hvalid =>
    LandmarkFilter.process_seen_newest st frames f hvalid⟩

/-- A network for sequences of six frames. -/
def sequenceFilter : LandmarkFilter where
  itensor := ⟨1, 1, fun _ => ![1, 6, 42]⟩
  itensorPackedByBatch := true
  itensorFormat := .chw
  otensor := ⟨1, 1, fun _ => ![1, 1, 42]⟩
  otensorPackedByBatch := true
  otensorFormat := .chw

/-- Both hands in both cameras, or none, with their keypoints apart by a distance. -/
def seenFrame (valid : Bool) (distance : ℚ) : FilterFrame ℚ where
  runs _ _ mem := (.ok, mem)
  input :=
    { seen := fun _ _ => { CamKeypoints.init with
        kpt := List.ofFn fun i : Fin kAlgoKeypointNum => ![distance * i.val, distance]
        valid := valid }
      holdLabel := fun _ => false }

/-- The sequence holds the two frames since the one without the hand; the first fills it. -/
theorem sequence_window_seen :
    let frames := [seenFrame true 1, seenFrame false 2, seenFrame true 3]
    let filter := sequenceFilter.afterFrames ⟨fun _ _ => 0, [], 0, 0⟩ frames
    let kpt := fun distance => ((seenFrame true distance).input.seen .left .lcam).kpt
    ∃ st', (sequenceFilter.process (seenFrame true 4).runs (seenFrame true 4).input filter).2.seen
        .left .lcam =
      { (seenFrame true 4).input.seen .left .lcam with
        kpt := (sequenceFilter.inference ((seenFrame true 4).runs .left .lcam)
          [kpt 4, kpt 3, kpt 3, kpt 3, kpt 3, kpt 3] st' (kpt 4)).2.1
        valid := true } := by
  intro frames filter kpt
  obtain ⟨-, hnewest, st', hseen⟩ := (sequence_window ℚ).2.2 sequenceFilter
    ⟨fun _ _ => 0, [], 0, 0⟩ frames (seenFrame true 4) .left .lcam rfl
  rw [hnewest] at hseen
  exact ⟨st', hseen⟩

end Landmark

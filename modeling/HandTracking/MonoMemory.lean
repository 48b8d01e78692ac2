/-
The temporal memory of the network for a hand that one camera sees.

`RTMTinyNimbleDLTFlora` keeps its memory as the stereo networks do (`LiftMemory`).  The time
stamp it compares is `MonoHandNimbleInputs::timestamp`, and `Process` of
`MonoHandKpt3DNimbleFloraCalculator` never sets it: here it is any number, for each call.

* `MonoFrame.calls` — the calls of the network in one frame;
* `lastRun_callsOf` — the last run of a hand, by frames;
* `monoMemory_fed_iff` — when the network is fed the memory that is due by frame times.
-/
import HandTracking.LiftInputs
import HandTracking.LiftMemory

namespace Lift

open Calculator

/-- A frame, and what the network does in it. -/
structure MonoFrame (K : Type) where
  kpt2d : Kpt2dInternal K
  inputTimestamp : K
  /-- What the unset field holds in the call for a hand. -/
  unsetTimestamp : Hand → K
  tensor : Hand → Buffer
  memOut : Hand → Option Buffer

/-- How the memory of `RTMTinyNimbleDLTFlora` is fed and kept. -/
def rtmTinyNimbleScheme (packedByBatch : Bool) (d : MemTensors 384) : MemScheme where
  bytesIn := 4 * d.memIn.memSize
  bytesOut := 4 * d.memOut.memSize
  fedFrom hand := hand
  stores := packedByBatch

section

variable {K : Type}

namespace MonoFrame

/-- `Process` calls the network for the hand. -/
def runs (f : MonoFrame K) (hand : Hand) : Bool :=
  (f.kpt2d.seen hand (ownCam hand)).valid && !(f.kpt2d.seen hand (otherCam hand)).valid &&
    (f.kpt2d.seen hand (ownCam hand)).virtualCamera.isSome

/-- The call of the network for a hand. -/
def call (f : MonoFrame K) (hand : Hand) : MemCall K where
  hand := hand
  timestamp := f.unsetTimestamp hand
  tensor := f.tensor hand
  memOut := f.memOut hand

/-- The call for a hand, if it is made. -/
def handCall (f : MonoFrame K) (hand : Hand) : List (MemCall K) :=
  if f.runs hand then [f.call hand] else []

/-- The calls of a frame, newest first: the left hand goes first. -/
def calls (f : MonoFrame K) : List (MemCall K) := f.handCall .right ++ f.handCall .left

/-- The calls of a frame before the one for `hand`. -/
def callsBefore (f : MonoFrame K) : Hand → List (MemCall K)
  | .left => []
  | .right => f.handCall .left

end MonoFrame

/-- All calls of some frames, in their order. -/
def callsOf (frames : List (MonoFrame K)) : List (MemCall K) := frames.flatMap MonoFrame.calls

/-- The memory that the network is fed for a hand in the frame `f` after the frames of `past`,
newest first. -/
def monoFed [Field K] [LinearOrder K] (scheme : MemScheme) (past : List (MonoFrame K))
    (f : MonoFrame K) (hand : Hand) : Buffer :=
  (LiftMemory.after scheme (f.callsBefore hand ++ callsOf past)).preProcess scheme (f.call hand)

/-- The last frame in which the network put out a memory for the hand. -/
def lastFrame (hand : Hand) : List (MonoFrame K) → Option (MonoFrame K × Buffer)
  | [] => none
  | f :: past =>
    match f.memOut hand with
    | some memOut => if f.runs hand then some (f, memOut) else lastFrame hand past
    | none => lastFrame hand past

/-- The memory that is due by the times of the frames. -/
def monoDue [Field K] [LinearOrder K] (past : List (MonoFrame K)) (f : MonoFrame K)
    (hand : Hand) : Buffer :=
  match lastFrame hand past with
  | some (f', memOut) =>
    if f.inputTimestamp - f'.inputTimestamp < resetMemTime then memOut else .zero
  | none => .zero

/-! ### The calls of a run -/

theorem lastRun_handCall_of_ne (f : MonoFrame K) {hand hand' : Hand} (h : hand' ≠ hand)
    (past : List (MemCall K)) : lastRun hand (f.handCall hand' ++ past) = lastRun hand past := by
  unfold MonoFrame.handCall
  cases f.runs hand' with
  | false => rfl
  | true => exact lastRun_cons_of_ne h past

theorem lastRun_handCall (f : MonoFrame K) (hand : Hand) (past : List (MemCall K)) :
    lastRun hand (f.handCall hand ++ past) =
      match f.memOut hand with
      | some memOut =>
        if f.runs hand then some (f.unsetTimestamp hand, memOut) else lastRun hand past
      | none => lastRun hand past := by
  unfold MonoFrame.handCall
  cases f.runs hand with
  | false => cases f.memOut hand <;> rfl
  | true => exact lastRun_cons_self (f.call hand) past

/-- The other hand's call of the same frame does not count. -/
theorem lastRun_callsBefore (f : MonoFrame K) (hand : Hand) (past : List (MemCall K)) :
    lastRun hand (f.callsBefore hand ++ past) = lastRun hand past := by
  cases hand with
  | left => rfl
  | right => exact lastRun_handCall_of_ne f (by decide) past

theorem lastRun_callsOf (hand : Hand) (past : List (MonoFrame K)) :
    lastRun hand (callsOf past) =
      (lastFrame hand past).map fun run => (run.1.unsetTimestamp hand, run.2) := by
  induction past with
  | nil => rfl
  | cons f past ih =>
    have hcalls : lastRun hand (callsOf (f :: past)) =
        lastRun hand (f.handCall hand ++ callsOf past) := by
      show lastRun hand ((f.handCall .right ++ f.handCall .left) ++ callsOf past) = _
      rw [List.append_assoc]
      cases hand with
      | left => rw [lastRun_handCall_of_ne f (by decide)]
      | right => rw [lastRun_handCall, lastRun_handCall, lastRun_handCall_of_ne f (by decide)]
    rw [hcalls, lastRun_handCall, lastFrame, ih]
    cases f.memOut hand with
    | none => rfl
    | some memOut => cases f.runs hand <;> rfl

/-! ### When it is what is due -/

variable [Field K] [LinearOrder K]

/-- The unset time stamps call the last memory as fresh as the times of the frames do, and
the network keeps it; or the memory is 0. -/
def UnsetTimestampsAgree (packedByBatch : Bool) (d : MemTensors 384) (past : List (MonoFrame K))
    (f : MonoFrame K) (hand : Hand) : Prop :=
  match lastFrame hand past with
  | some (f', memOut) =>
    (packedByBatch ∧ f.unsetTimestamp hand - f'.unsetTimestamp hand < resetMemTime ↔
      f.inputTimestamp - f'.inputTimestamp < resetMemTime) ∨
    Buffer.EqOn 0 d.bytes memOut .zero
  | none => True

/-- What is fed, by the unset time stamps. -/
theorem eqOn_monoFed (packedByBatch : Bool) (d : MemTensors 384) (past : List (MonoFrame K))
    (f : MonoFrame K) (hand : Hand) :
    Buffer.EqOn 0 d.bytes (monoFed (rtmTinyNimbleScheme packedByBatch d) past f hand)
      (match lastFrame hand past with
        | some (f', memOut) =>
          if packedByBatch ∧ f.unsetTimestamp hand - f'.unsetTimestamp hand < resetMemTime then
            memOut
          else .zero
        | none => .zero) := by
  cases packedByBatch with
  | false =>
    have hzero : monoFed (rtmTinyNimbleScheme false d) past f hand =
        (f.tensor hand).memcpy .zero d.bytes := by
      rw [monoFed, after_of_not_stores _ rfl]
      exact ite_self _
    rw [hzero]
    cases lastFrame hand past with
    | none => exact fun _ _ hlast => Buffer.memcpy_of_lt hlast
    | some run =>
      simp only [Bool.false_eq_true, false_and, if_false]
      exact fun _ _ hlast => Buffer.memcpy_of_lt hlast
  | true =>
    have hin : (rtmTinyNimbleScheme true d).bytesIn ≤ d.bytes := le_rfl
    have hout : (rtmTinyNimbleScheme true d).bytesOut = d.bytes :=
      congrArg (4 * ·) d.sameSize.symm
    -- the whole memory is copied in and out
    have hfed := (eqOn_due_iff (rtmTinyNimbleScheme true d) rfl hin
      (f.callsBefore hand ++ callsOf past) (f.call hand)).mpr
      ⟨fun _ _ _ hlast => Buffer.memcpy_of_lt (hout ▸ hlast), Buffer.eqOn_empty _ _ _⟩
    refine hfed.trans ?_
    show Buffer.EqOn 0 d.bytes
      (due hand (f.unsetTimestamp hand) (f.callsBefore hand ++ callsOf past)) _
    rw [due, lastRun_callsBefore, lastRun_callsOf]
    cases lastFrame hand past with
    | none => exact fun _ _ _ => rfl
    | some run =>
      simp only [true_and, Option.map_some]
      exact fun _ _ _ => rfl

theorem eqOn_monoDue_iff (packedByBatch : Bool) (d : MemTensors 384) (past : List (MonoFrame K))
    (f : MonoFrame K) (hand : Hand) :
    Buffer.EqOn 0 d.bytes (monoFed (rtmTinyNimbleScheme packedByBatch d) past f hand)
        (monoDue past f hand) ↔ UnsetTimestampsAgree packedByBatch d past f hand := by
  have hfed := eqOn_monoFed packedByBatch d past f hand
  have hiff := fun b : Buffer => (⟨hfed.symm.trans, hfed.trans⟩ :
    Buffer.EqOn 0 d.bytes (monoFed (rtmTinyNimbleScheme packedByBatch d) past f hand) b ↔ _)
  rw [hiff, monoDue, UnsetTimestampsAgree]
  cases lastFrame hand past with
  | none => exact iff_of_true (fun _ _ _ => rfl) trivial
  | some run => exact Buffer.eqOn_ite_zero_iff

/-- In any run of frames, for each hand of the next one. -/
theorem monoMemory_fed_iff (packedByBatch : Bool) (d : MemTensors 384) (past : List (MonoFrame K))
    (f : MonoFrame K) :
    ∀ hand, Buffer.EqOn 0 d.bytes (monoFed (rtmTinyNimbleScheme packedByBatch d) past f hand)
        (monoDue past f hand) ↔ UnsetTimestampsAgree packedByBatch d past f hand :=
  eqOn_monoDue_iff packedByBatch d past f

end

/-- The left hand in the left camera, with an output of all ones and an unset time stamp that
happens to be 0. -/
def leftFrame (inputTimestamp : ℚ) : MonoFrame ℚ where
  kpt2d :=
    { seen := fun _ c =>
        { CamKeypoints.init with
          valid := c = .lcam
          virtualCamera := some ⟨idealCamera, rfl⟩ }
      holdLabel := fun _ => false }
  inputTimestamp := inputTimestamp
  unsetTimestamp _ := 0
  tensor _ := .zero
  memOut _ := some fun _ => 255#8

/-- The second frame is a second later, and the network still feeds the old memory. -/
theorem monoMemory_fed_stale :
    ¬ ∀ (d : MemTensors 384) (past : List (MonoFrame ℚ)) (f : MonoFrame ℚ) (hand : Hand),
      (f :: past).Pairwise (fun later earlier => earlier.inputTimestamp < later.inputTimestamp) →
      f.runs hand →
      Buffer.EqOn 0 d.bytes (monoFed (rtmTinyNimbleScheme true d) past f hand)
        (monoDue past f hand) := by
  intro h
  have hfed := h ⟨⟨384, 1, 1⟩, ⟨384, 1, 1⟩, by decide, by decide, by decide⟩ [leftFrame 1]
    (leftFrame 2) .left (by simp [leftFrame]) rfl
  rcases (eqOn_monoDue_iff _ _ _ _ _).mp hfed with hsame | hzero
  · -- two seconds and one are apart by more than the reset time
    have hfresh := hsame.mp (by norm_num [leftFrame, resetMemTime])
    norm_num [leftFrame, resetMemTime] at hfresh
  · exact absurd (hzero 0 le_rfl (by decide)) (by decide)

end Lift

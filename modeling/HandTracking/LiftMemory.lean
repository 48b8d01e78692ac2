/-
The temporal memory of the lift networks.

A network takes a memory tensor and puts one out.  Between two runs the output is kept for
each hand (`PostProcess`), and the next run of the hand starts from it unless it is older
than `reset_mem_time` (`PreProcess`).  The networks do this in the same way with different
byte counts, which are the fields of a `MemScheme`.

* `LiftMemory.preProcess`, `LiftMemory.postProcess` — the two copies;
* `due` — the memory that a run should start from;
* `after_memHand`, `after_lastTime` — what is kept after a run of calls;
* `eqOn_due_iff` — when a scheme feeds what is due;
* `liftMemory_fed_iff` — the two stereo networks.
-/
import HandTracking.HandsData
import HandTracking.Library.Buffer
import Mathlib.Algebra.Order.Ring.Rat

namespace Lift

open Calculator

/-- How a network copies its memory; sizes are in bytes. -/
structure MemScheme where
  bytesIn : ℕ
  bytesOut : ℕ
  /-- The hand whose memory a run of a hand starts from. -/
  fedFrom : Hand → Hand
  /-- `PostProcess` reaches the copy. -/
  stores : Bool

/-- The memory of a lift network for each hand, and when it was written. -/
structure LiftMemory (K : Type) where
  memHand : Hand → Buffer
  lastTime : Hand → K

/-- One call of `Inference`. -/
structure MemCall (K : Type) where
  hand : Hand
  timestamp : K
  /-- The memory of the input tensor before the call. -/
  tensor : Buffer
  /-- The memory that the network puts out, if `RunNet` succeeds. -/
  memOut : Option Buffer

section

variable {K : Type} [Field K]

/-- `reset_mem_time`, in seconds. -/
def resetMemTime : K := 1 / 20

namespace LiftMemory

/-- Before the first call. -/
def init : LiftMemory K where
  memHand _ := .zero
  lastTime _ := 0

/-- The memory tensor that the network runs on. -/
def preProcess [LinearOrder K] (scheme : MemScheme) (s : LiftMemory K) (c : MemCall K) : Buffer :=
  if c.timestamp - s.lastTime c.hand < resetMemTime then
    c.tensor.memcpy (s.memHand (scheme.fedFrom c.hand)) scheme.bytesIn
  else c.tensor.memset scheme.bytesIn

/-- `PostProcess`: the memory that the run returned is kept for the hand. -/
def postProcess (scheme : MemScheme) (s : LiftMemory K) (c : MemCall K) (memOut : Buffer) :
    LiftMemory K :=
  if scheme.stores then
    { memHand := Function.update s.memHand c.hand
        ((s.memHand c.hand).memcpy memOut scheme.bytesOut)
      lastTime := Function.update s.lastTime c.hand c.timestamp }
  else s

/-- `Inference`; a run that fails keeps nothing. -/
def inference (scheme : MemScheme) (s : LiftMemory K) (c : MemCall K) : LiftMemory K :=
  match c.memOut with
  | some memOut => s.postProcess scheme c memOut
  | none => s

/-- The state after a run of calls, newest first. -/
def after (scheme : MemScheme) : List (MemCall K) → LiftMemory K
  | [] => init
  | c :: past => (after scheme past).inference scheme c

end LiftMemory

/-! ### What the history says -/

/-- The time and the output of the last successful run of a hand; the calls are newest
first. -/
def lastRun (hand : Hand) : List (MemCall K) → Option (K × Buffer)
  | [] => none
  | c :: past =>
    match c.memOut with
    | some memOut => if c.hand = hand then some (c.timestamp, memOut) else lastRun hand past
    | none => lastRun hand past

omit [Field K] in
theorem lastRun_cons_of_ne {c : MemCall K} {hand : Hand} (h : c.hand ≠ hand)
    (past : List (MemCall K)) : lastRun hand (c :: past) = lastRun hand past := by
  rw [lastRun]
  cases c.memOut with
  | none => rfl
  | some memOut => exact if_neg h

omit [Field K] in
theorem lastRun_cons_self (c : MemCall K) (past : List (MemCall K)) :
    lastRun c.hand (c :: past) =
      match c.memOut with
      | some memOut => some (c.timestamp, memOut)
      | none => lastRun c.hand past := by
  rw [lastRun]
  cases c.memOut with
  | none => rfl
  | some memOut => exact if_pos rfl

/-- The output of the last run, and zeros before the first. -/
def lastOut (hand : Hand) (past : List (MemCall K)) : Buffer :=
  ((lastRun hand past).map Prod.snd).getD .zero

/-- The time of the last run, and 0 before the first. -/
def lastTime (hand : Hand) (past : List (MemCall K)) : K :=
  ((lastRun hand past).map Prod.fst).getD 0

/-- The memory that a run of a hand should start from. -/
def due [LinearOrder K] (hand : Hand) (timestamp : K) (past : List (MemCall K)) : Buffer :=
  match lastRun hand past with
  | some (last, memOut) => if timestamp - last < resetMemTime then memOut else .zero
  | none => .zero

theorem due_eq [LinearOrder K] (hand : Hand) (timestamp : K) (past : List (MemCall K)) :
    due hand timestamp past =
      if timestamp - lastTime hand past < resetMemTime then lastOut hand past else .zero := by
  unfold due lastTime lastOut
  cases lastRun hand past with
  | none => exact (ite_self Buffer.zero).symm
  | some run => rfl

/-! ### What is kept -/

variable (scheme : MemScheme)

/-- Of each hand the last output is kept, as far as it is copied. -/
theorem after_memHand (hstores : scheme.stores) (past : List (MemCall K)) (hand : Hand) :
    (LiftMemory.after scheme past).memHand hand =
      Buffer.zero.memcpy (lastOut hand past) scheme.bytesOut := by
  induction past with
  | nil => exact (Buffer.memcpy_self _ _).symm
  | cons c past ih =>
    unfold LiftMemory.after LiftMemory.inference lastOut lastRun
    cases hout : c.memOut with
    | none => exact ih
    | some memOut =>
      simp only [LiftMemory.postProcess, hstores, if_pos]
      by_cases hhand : c.hand = hand
      · subst hhand
        rw [Function.update_self, if_pos rfl, ih]
        exact Buffer.memcpy_memcpy ..
      · rw [Function.update_of_ne (Ne.symm hhand), if_neg hhand]
        exact ih

theorem after_lastTime (hstores : scheme.stores) (past : List (MemCall K)) (hand : Hand) :
    (LiftMemory.after scheme past).lastTime hand = lastTime hand past := by
  induction past with
  | nil => rfl
  | cons c past ih =>
    unfold LiftMemory.after LiftMemory.inference lastTime lastRun
    cases hout : c.memOut with
    | none => exact ih
    | some memOut =>
      simp only [LiftMemory.postProcess, hstores, if_pos]
      by_cases hhand : c.hand = hand
      · subst hhand
        rw [Function.update_self, if_pos rfl]
        rfl
      · rw [Function.update_of_ne (Ne.symm hhand), if_neg hhand]
        exact ih

/-- Without `stores` nothing is kept. -/
theorem after_of_not_stores (hstores : scheme.stores = false) (past : List (MemCall K)) :
    LiftMemory.after scheme past = .init := by
  induction past with
  | nil => rfl
  | cons c past ih =>
    unfold LiftMemory.after LiftMemory.inference LiftMemory.postProcess
    rw [ih]
    cases c.memOut with
    | none => rfl
    | some memOut => exact if_neg (by simp [hstores])

variable [LinearOrder K]

/-- The fed memory is what is due, if the bytes that the copy brings are, and the bytes of the
tensor behind them. -/
theorem eqOn_due_iff (hstores : scheme.stores) {size : ℕ} (hsize : scheme.bytesIn ≤ size)
    (past : List (MemCall K)) (c : MemCall K) :
    Buffer.EqOn 0 size ((LiftMemory.after scheme past).preProcess scheme c)
        (due c.hand c.timestamp past) ↔
      (c.timestamp - lastTime c.hand past < resetMemTime →
        Buffer.EqOn 0 scheme.bytesIn
          (Buffer.zero.memcpy (lastOut (scheme.fedFrom c.hand) past) scheme.bytesOut)
          (lastOut c.hand past)) ∧
      Buffer.EqOn scheme.bytesIn size c.tensor (due c.hand c.timestamp past) := by
  rw [LiftMemory.preProcess, after_lastTime scheme hstores, after_memHand scheme hstores, due_eq]
  by_cases hfresh : c.timestamp - lastTime c.hand past < resetMemTime
  · rw [if_pos hfresh, if_pos hfresh, Buffer.eqOn_memcpy_iff hsize]
    exact ⟨fun h => ⟨fun _ => h.1, h.2⟩, fun h => ⟨h.1 hfresh, h.2⟩⟩
  · rw [if_neg hfresh, if_neg hfresh, Buffer.memset, Buffer.eqOn_memcpy_iff hsize]
    exact ⟨fun h => ⟨fun hold => absurd hold hfresh, h.2⟩, fun h => ⟨fun _ _ _ => rfl, h.2⟩⟩

end

/-! ### The stereo networks -/

/-- The dimensions of a tensor. -/
structure TensorDims where
  channels : ℕ
  height : ℕ
  width : ℕ

/-- The number of floats. -/
def TensorDims.memSize (d : TensorDims) : ℕ := d.height * d.width * d.channels

/-- The two memory tensors of a network that keeps `capacity` floats for each hand. -/
structure MemTensors (capacity : ℕ) where
  memIn : TensorDims
  memOut : TensorDims
  nonempty : 0 < memOut.memSize
  sameSize : memIn.memSize = memOut.memSize
  fits : memOut.memSize ≤ capacity

/-- The size of the memory, in bytes. -/
def MemTensors.bytes {capacity : ℕ} (d : MemTensors capacity) : ℕ := 4 * d.memIn.memSize

theorem TensorDims.channels_pos {d : TensorDims} (h : 0 < d.memSize) : 0 < d.channels :=
  Nat.pos_of_ne_zero fun hzero => h.ne' (by rw [TensorDims.memSize, hzero, Nat.mul_zero])

theorem TensorDims.channels_le {d : TensorDims} (h : 0 < d.memSize) : d.channels ≤ d.memSize :=
  Nat.le_mul_of_pos_left _ (Nat.pos_of_mul_pos_right h)

/-- The sizes are numbers of floats, given to `memcpy` as numbers of bytes, and both hands
start from the memory of the right hand. -/
def gmlpLiftNet3Scheme (d : MemTensors 86) : MemScheme where
  bytesIn := d.memIn.memSize
  bytesOut := d.memOut.memSize
  fedFrom _ := .right
  stores := true

/-- The size of the output is its number of channels. -/
def gmlpLiftNimbleScheme (d : MemTensors 105) : MemScheme where
  bytesIn := 4 * d.memIn.memSize
  bytesOut := 4 * d.memOut.channels
  fedFrom hand := hand
  stores := decide (0 < d.memOut.channels ∧ d.memOut.channels ≤ 105)

section

variable {K : Type} [Field K] [LinearOrder K]

/-- The network feeds what is due: on the copied quarter of the bytes, for the left hand, the
memory of the right hand agrees with it, and behind them the tensor does. -/
def GMLPLiftNet3Feeds (d : MemTensors 86) (past : List (MemCall K)) (c : MemCall K) : Prop :=
  (c.hand = .left → c.timestamp - lastTime .left past < resetMemTime →
    Buffer.EqOn 0 d.memIn.memSize (lastOut .right past) (lastOut .left past)) ∧
  Buffer.EqOn d.memIn.memSize d.bytes c.tensor (due c.hand c.timestamp past)

/-- The network feeds what is due: the floats behind the channels are 0 in it. -/
def GMLPLiftNimbleFeeds (d : MemTensors 105) (past : List (MemCall K)) (c : MemCall K) : Prop :=
  c.timestamp - lastTime c.hand past < resetMemTime →
    Buffer.EqOn (4 * d.memOut.channels) d.bytes .zero (lastOut c.hand past)

theorem gmlpLiftNet3_fed_iff (d : MemTensors 86) (past : List (MemCall K)) (c : MemCall K) :
    Buffer.EqOn 0 d.bytes ((LiftMemory.after (gmlpLiftNet3Scheme d) past).preProcess
        (gmlpLiftNet3Scheme d) c) (due c.hand c.timestamp past) ↔
      GMLPLiftNet3Feeds d past c := by
  have hbytes : d.memIn.memSize ≤ d.bytes := Nat.le_mul_of_pos_left _ (by decide)
  rw [eqOn_due_iff (gmlpLiftNet3Scheme d) rfl hbytes past c, GMLPLiftNet3Feeds]
  -- the bytes behind the copied quarter are the tensor's in both; on the quarter only the
  -- source of the copy matters.
  refine and_congr_left fun _ => ?_
  have hcopied : ∀ b : Buffer,
      Buffer.EqOn 0 d.memIn.memSize (Buffer.zero.memcpy b d.memOut.memSize) (lastOut c.hand past) ↔
        Buffer.EqOn 0 d.memIn.memSize b (lastOut c.hand past) := by
    intro b
    rw [← d.sameSize, Buffer.eqOn_memcpy_iff le_rfl]
    exact and_iff_left (Buffer.eqOn_empty _ _ _)
  simp only [gmlpLiftNet3Scheme, hcopied]
  cases hhand : c.hand with
  | left => exact ⟨fun h _ => h, fun h => h rfl⟩
  | right => exact ⟨fun _ hleft => Hand.noConfusion hleft, fun _ _ _ _ _ => rfl⟩

theorem gmlpLiftNimble_fed_iff (d : MemTensors 105) (past : List (MemCall K)) (c : MemCall K) :
    Buffer.EqOn 0 d.bytes ((LiftMemory.after (gmlpLiftNimbleScheme d) past).preProcess
        (gmlpLiftNimbleScheme d) c) (due c.hand c.timestamp past) ↔
      GMLPLiftNimbleFeeds d past c := by
  have hchannels := TensorDims.channels_le d.nonempty
  have hstores : (gmlpLiftNimbleScheme d).stores := by
    have hpos := TensorDims.channels_pos d.nonempty
    have hfits := d.fits
    exact decide_eq_true ⟨hpos, by omega⟩
  have hin : (gmlpLiftNimbleScheme d).bytesIn ≤ d.bytes := le_rfl
  rw [eqOn_due_iff (gmlpLiftNimbleScheme d) hstores hin past c, GMLPLiftNimbleFeeds]
  -- the whole tensor is copied
  have hbehind : Buffer.EqOn (gmlpLiftNimbleScheme d).bytesIn d.bytes c.tensor
      (due c.hand c.timestamp past) := Buffer.eqOn_empty _ _ _
  rw [and_iff_left hbehind]
  refine imp_congr_right fun _ => ?_
  have hsize : 4 * d.memOut.channels ≤ d.bytes := by
    have hsame := d.sameSize
    unfold MemTensors.bytes
    omega
  refine (Buffer.eqOn_memcpy_iff hsize).trans ?_
  exact and_iff_right fun _ _ _ => rfl

/-- What the stereo networks are fed in any run of calls, for any hand and time stamp. -/
theorem liftMemory_fed_iff (past : List (MemCall K)) (c : MemCall K) :
    (∀ d : MemTensors 86,
      Buffer.EqOn 0 d.bytes ((LiftMemory.after (gmlpLiftNet3Scheme d) past).preProcess
          (gmlpLiftNet3Scheme d) c) (due c.hand c.timestamp past) ↔
        GMLPLiftNet3Feeds d past c) ∧
    ∀ d : MemTensors 105,
      Buffer.EqOn 0 d.bytes ((LiftMemory.after (gmlpLiftNimbleScheme d) past).preProcess
          (gmlpLiftNimbleScheme d) c) (due c.hand c.timestamp past) ↔
        GMLPLiftNimbleFeeds d past c :=
  ⟨fun d => gmlpLiftNet3_fed_iff d past c, fun d => gmlpLiftNimble_fed_iff d past c⟩

end

/-- A left hand whose memory is all ones, one hundredth of a second ago. -/
def leftRun : MemCall ℚ := ⟨.left, 1, .zero, some fun _ => 255#8⟩

/-- Tensors of 86 channels. -/
def memTensors : MemTensors 86 := ⟨⟨86, 1, 1⟩, ⟨86, 1, 1⟩, by decide, by decide, by decide⟩

/-- The left hand runs twice within the time, and the second run starts from the memory of the
right hand, which is all 0. -/
theorem leftHand_fed_rightMemory :
    ¬ ∀ (d : MemTensors 86) (past : List (MemCall ℚ)) (c : MemCall ℚ),
      Buffer.EqOn 0 d.bytes ((LiftMemory.after (gmlpLiftNet3Scheme d) past).preProcess
          (gmlpLiftNet3Scheme d) c) (due c.hand c.timestamp past) := by
  intro h
  have hfeeds := (gmlpLiftNet3_fed_iff memTensors [leftRun] ⟨.left, 101 / 100, .zero, none⟩).mp
    (h _ _ _)
  have hfirst := hfeeds.1 rfl (by norm_num [lastTime, lastRun, leftRun, resetMemTime]) 0 le_rfl
    (by decide)
  exact absurd hfirst (by decide)

end Lift

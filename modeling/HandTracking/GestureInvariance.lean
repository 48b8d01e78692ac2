/-
Gestures do not depend on where the hand is and how large.

`predict_with_keypoints3d` takes the root off each keypoint and brings the hand to a standard length
before it does anything else, and it keeps the points that it stores for the next call in this form.

* `GestureCall.moved` — the same call for a hand elsewhere, of another size;
* `points_moved` — the normalised points are the same, `predict_moved` — and all the rest;
* `gestures_moved` — runs with a place and a size of their own in each frame.
-/
import HandTracking.EigenLaws
import HandTracking.GestureFrames

namespace Gesture

open Matrix HandPose Predictor

/-- What is asked of the norm of the library. -/
structure GestureLib.LawfulNorm {K : Type} [Field K] [LinearOrder K] (lib : GestureLib K) :
    Prop where
  nonneg : ∀ v, 0 ≤ lib.eigen.norm v
  mul_self : ∀ v, lib.eigen.norm v * lib.eigen.norm v = v ⬝ᵥ v

section

variable {K : Type} [Field K] [LinearOrder K]

/-- The call for the hand scaled by `scale` and then translated. -/
def GestureCall.moved (c : GestureCall K) (scale : K) (translation : Vec3 K) : GestureCall K :=
  { c with kpt3d := fun k => scale • c.kpt3d k + translation }

/-- A call, and another place and size for its hand. -/
structure MovedFrame (K : Type) where
  call : GestureCall K
  scale : K
  translation : Vec3 K

/-- The frame after its motion. -/
def MovedFrame.moved (f : MovedFrame K) : GestureCall K := f.call.moved f.scale f.translation

variable [IsStrictOrderedRing K] {lib : GestureLib K} (hnorm : lib.LawfulNorm) {scale : K}
  (hscale : 0 < scale)
include hnorm hscale

theorem GestureLib.LawfulNorm.norm_smul (v : Vec3 K) :
    lib.eigen.norm (scale • v) = scale * lib.eigen.norm v := by
  apply (mul_self_inj (hnorm.nonneg _) (mul_nonneg hscale.le (hnorm.nonneg v))).mp
  calc lib.eigen.norm (scale • v) * lib.eigen.norm (scale • v)
      = (scale • v) ⬝ᵥ (scale • v) := hnorm.mul_self _
    _ = scale * scale * (v ⬝ᵥ v) := by
      rw [smul_dotProduct, dotProduct_smul, smul_eq_mul, smul_eq_mul, mul_assoc]
    _ = scale * lib.eigen.norm v * (scale * lib.eigen.norm v) := by
      rw [← hnorm.mul_self v, mul_mul_mul_comm]

/-- The root and the length of the hand move along. -/
theorem points_moved (c : GestureCall K) (translation : Vec3 K) :
    (c.moved scale translation).points lib = c.points lib := by
  have hsub (k k' : Fin 21) : (c.moved scale translation).kpt3d k -
      (c.moved scale translation).kpt3d k' = scale • (c.kpt3d k - c.kpt3d k') := by
    show scale • c.kpt3d k + translation - (scale • c.kpt3d k' + translation) = _
    rw [add_sub_add_right_eq_sub, smul_sub]
  have hlength : lib.eigen.norm ((c.moved scale translation).kpt3d 9 -
      (c.moved scale translation).kpt3d 0) =
        scale * lib.eigen.norm (c.kpt3d 9 - c.kpt3d 0) := by
    rw [hsub, hnorm.norm_smul hscale]
  funext i
  rw [GestureCall.points, GestureCall.points, hlength, sub_self, sub_self]
  congr 1
  funext j t
  have hkpt := congrFun (hsub ⟨i * 4 + j + 1, by omega⟩ 0) t
  rw [Pi.sub_apply, Pi.smul_apply, Pi.sub_apply, smul_eq_mul] at hkpt
  rw [hkpt, mul_assoc, mul_div_mul_left _ _ hscale.ne']

/-- A call reads the keypoints in no other way. -/
theorem predict_moved (th : PinchTh K) (s : GestureRecognitionV2 K) (c : GestureCall K)
    (translation : Vec3 K) :
    predictWithKeypoints3d lib th s (c.moved scale translation) =
      predictWithKeypoints3d lib th s c := by
  have hpoints := points_moved hnorm hscale c translation
  have hraw : s.rawFeature lib (c.moved scale translation) = s.rawFeature lib c := by
    rw [GestureRecognitionV2.rawFeature, hpoints]
    rfl
  have hupdated : s.updatedFeature lib th (c.moved scale translation) =
      s.updatedFeature lib th c := by
    rw [GestureRecognitionV2.updatedFeature, hpoints, hraw]
    rfl
  rw [predictWithKeypoints3d, hraw, hupdated, hpoints]
  rfl

end

section

variable {K : Type} [Field K] [LinearOrder K] [IsStrictOrderedRing K]

variable {lib : GestureLib K} (hnorm : lib.LawfulNorm) (th : PinchTh K)
  {frames : List (MovedFrame K)} (hscale : ∀ f ∈ frames, 0 < f.scale)
include hnorm hscale

/-- A run with the hands elsewhere, from any members on. -/
theorem run_moved (s : GestureRecognitionV2 K) :
    outputs (predictWithKeypoints3d lib th) s (frames.map MovedFrame.moved) =
        outputs (predictWithKeypoints3d lib th) s (frames.map MovedFrame.call) ∧
      after (predictWithKeypoints3d lib th) s (frames.map MovedFrame.moved) =
        after (predictWithKeypoints3d lib th) s (frames.map MovedFrame.call) := by
  induction frames generalizing s with
  | nil => exact ⟨rfl, rfl⟩
  | cons f frames ih =>
    obtain ⟨hfirst, hlater⟩ := List.forall_mem_cons.mp hscale
    have hstep : predictWithKeypoints3d lib th s f.moved =
        predictWithKeypoints3d lib th s f.call := predict_moved hnorm hfirst th s f.call _
    obtain ⟨houtputs, hafter⟩ := ih hlater (predictWithKeypoints3d lib th s f.call).1
    constructor
    · rw [List.map_cons, List.map_cons, outputs, outputs, hstep, houtputs]
    · rw [List.map_cons, List.map_cons, after, List.foldl_cons, List.foldl_cons, hstep]
      exact hafter

/-- The gestures, and all finger states with what else the calls leave, for every run: the hand of
each frame may be at a place and of a size of its own. -/
theorem gestures_moved :
    gestures lib th [] (frames.map MovedFrame.moved) =
        gestures lib th [] (frames.map MovedFrame.call) ∧
      afterHistory lib th (frames.map MovedFrame.moved) =
        afterHistory lib th (frames.map MovedFrame.call) :=
  run_moved hnorm th hscale .init

end

theorem realLib_lawfulNorm : realLib.LawfulNorm where
  nonneg _ := Real.sqrt_nonneg _
  mul_self v := Real.mul_self_sqrt (dotProduct_self_real_nonneg v)

/-- A hand of twice the size, one metre away. -/
noncomputable def largeFrame : MovedFrame ℝ where
  call := fingersFrame (fun _ => bentFinger ((8 / 100 : ℝ) • turn 0) 0) true
  scale := 2
  translation := ![0, 0, 1]

/-- The same hand as a fist, of half the size and to the side. -/
noncomputable def smallFrame : MovedFrame ℝ where
  call := fingersFrame (fun _ => bentFinger ((8 / 100 : ℝ) • turn 0) 120) true
  scale := 1 / 2
  translation := ![-1 / 10, 1 / 20, 1 / 2]

/-- Each of the two frames has a motion of its own. -/
theorem gestures_moved_twoFrames :
    gestures realLib .default [] ([largeFrame, smallFrame].map MovedFrame.moved) =
        gestures realLib .default [] ([largeFrame, smallFrame].map MovedFrame.call) ∧
      afterHistory realLib .default ([largeFrame, smallFrame].map MovedFrame.moved) =
        afterHistory realLib .default ([largeFrame, smallFrame].map MovedFrame.call) := by
  refine gestures_moved realLib_lawfulNorm .default fun f hf => ?_
  rcases List.mem_pair.mp hf with rfl | rfl
  · exact two_pos
  · exact one_half_pos

end Gesture

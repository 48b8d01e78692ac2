/-
Calls that begin a pinch.

A pinch begins if the tips of thumb and index finger touch, or if the index finger is closed and
the tips come closer fast enough.  How fast is the change since the tracked call before; without
one `get_pinch_velocity` says -1, which is fast enough.

* `FirstTracked` — tracked calls without a tracked one before them;
* `pinchVelocity_lt_iff` — when the tips are fast enough;
* `predict_pinch_iff` — the calls that begin a pinch;
* `pinch_entered_iff` — the calls that begin one by closing only.
-/
import HandTracking.GestureRestart

namespace Gesture

open HandPose

variable {K : Type} [Field K] [LinearOrder K]

/-- A tracked call whose predecessor, if there is one, is not tracked. -/
def FirstTracked (history : List (GestureCall K)) (c : GestureCall K) : Prop :=
  c.isTracked ∧ ∀ last ∈ history.getLast?, last.isTracked = false

section

variable (lib : GestureLib K) (th : PinchTh K)

/-- The tips are closer than in a tracked call, by more than 0.015 in 1/30 seconds. -/
def GestureCall.NarrowerThan (c last : GestureCall K) : Prop :=
  last.isTracked ∧ 15 / 1000 / 30 < last.pinchDistance lib - c.pinchDistance lib

/-- The distance of the tips closes the index finger, or leaves it closed. -/
def GestureRecognitionV2.ClosesIndex (s : GestureRecognitionV2 K) (c : GestureCall K) : Prop :=
  updateFingureState (c.pinchDistance lib) (c.pinchTh lib th).1 (1 / 10) (c.pinchTh lib th).2
    (s.feature.oppositionFeatures 1) = .closed

/-- A pinch that begins with the call begins by touching or by closing. -/
def EntersByClosing (history : List (GestureCall K)) (c : GestureCall K) : Prop :=
  let s := afterHistory lib th history
  let r := predictWithKeypoints3d lib th s c
  s.lastGesture ≠ .pinch → r.2 = .pinch →
    c.pinchDistance lib < 10 / 1000 ∨
      r.1.feature.oppositionFeatures 1 = .closed ∧ ∃ last ∈ history, c.NarrowerThan lib last

end

section

variable {lib : GestureLib K} {th : PinchTh K} {history : List (GestureCall K)} {c : GestureCall K}

/-- The keypoints of the call before, if it was tracked. -/
theorem lastKpt3d_afterHistory (lib : GestureLib K) (th : PinchTh K)
    (history : List (GestureCall K)) :
    (afterHistory lib th history).lastKpt3d =
      history.getLast?.bind fun last =>
        if last.isTracked then some (last.points lib) else none := by
  induction history using List.reverseRecOn with
  | nil => rfl
  | append_singleton history last _ =>
    rw [afterHistory_concat, List.getLast?_concat]
    rfl

theorem getPinchVelocity_of_tracked {last : GestureCall K} (hmem : last ∈ history.getLast?)
    (hbefore : last.isTracked) :
    (afterHistory lib th history).getPinchVelocity lib (c.points lib) =
      (c.pinchDistance lib - last.pinchDistance lib) / (1 / 30) := by
  have hstored := lastKpt3d_afterHistory lib th history
  rw [Option.mem_def.mp hmem, Option.bind_some, if_pos hbefore] at hstored
  rw [GestureRecognitionV2.getPinchVelocity, hstored]
  rfl

theorem getPinchVelocity_of_firstTracked (hfirst : FirstTracked history c) :
    (afterHistory lib th history).getPinchVelocity lib (c.points lib) = -1 := by
  have hstored : (afterHistory lib th history).lastKpt3d = none := by
    rw [lastKpt3d_afterHistory, Option.bind_eq_none_iff]
    intro last hmem
    rw [hfirst.2 last hmem, if_neg Bool.false_ne_true]
  rw [GestureRecognitionV2.getPinchVelocity, hstored]

/-- Of a hand that is in no pinch the index finger is not masked. -/
theorem indexOpposition_of_not_pinch {s : GestureRecognitionV2 K} (hlast : s.lastGesture ≠ .pinch) :
    (s.updatedFeature lib th c).oppositionFeatures 1 = .closed ↔ s.ClosesIndex lib th c := by
  have hmasked : s.isPinchMasked c.keypoints2d (c.toFace lib) = false := by
    rw [GestureRecognitionV2.isPinchMasked, decide_eq_false hlast, Bool.and_false]
  rw [indexOpposition_updatedFeature, hmasked, if_neg Bool.false_ne_true]
  exact Iff.rfl

variable [IsStrictOrderedRing K]

theorem velocity_lt_iff (d last : K) :
    (d - last) / (1 / 30) < -15 / 1000 ↔ 15 / 1000 / 30 < last - d := by
  rw [div_lt_iff₀ (by norm_num)]
  constructor
  · intro h
    linarith
  · intro h
    linarith

/-- The tips are fast enough compared with a tracked call before, and always without one. -/
theorem pinchVelocity_lt_iff :
    ((afterHistory lib th history).rawFeature lib c).pinchVelocity < -15 / 1000 ↔
      FirstTracked history c ∨
        c.isTracked ∧ ∃ last ∈ history.getLast?, c.NarrowerThan lib last := by
  show (if c.isTracked then (afterHistory lib th history).getPinchVelocity lib (c.points lib)
    else 0) < _ ↔ _
  by_cases htracked : c.isTracked = true
  · rw [if_pos htracked]
    by_cases hbefore : ∃ last ∈ history.getLast?, last.isTracked = true
    · obtain ⟨last, hmem, hbefore⟩ := hbefore
      rw [getPinchVelocity_of_tracked hmem hbefore, velocity_lt_iff]
      constructor
      · exact fun hnarrower => .inr ⟨htracked, last, hmem, hbefore, hnarrower⟩
      · rintro (hfirst | ⟨-, last', hmem', hnarrower⟩)
        · have hlost := hfirst.2 last hmem
          exact absurd (hbefore.symm.trans hlost) Bool.false_ne_true.symm
        · obtain rfl := Option.mem_unique hmem hmem'
          exact hnarrower.2
    · -- without a tracked call before, -1 is below the threshold
      have hfirst : FirstTracked history c :=
        ⟨htracked, fun last hmem => Bool.eq_false_iff.mpr fun h => hbefore ⟨last, hmem, h⟩⟩
      rw [getPinchVelocity_of_firstTracked hfirst]
      exact iff_of_true (by norm_num) (.inl hfirst)
  · rw [if_neg htracked]
    refine iff_of_false (not_lt.mpr (by norm_num)) ?_
    rintro (hfirst | hclosing)
    · exact htracked hfirst.1
    · exact htracked hclosing.1

/-- A pinch begins by touching, or with a closed index finger and fast tips. -/
theorem predict_pinch_iff (hlast : (afterHistory lib th history).lastGesture ≠ .pinch) :
    (predictWithKeypoints3d lib th (afterHistory lib th history) c).2 = .pinch ↔
      (afterHistory lib th history).ClosesIndex lib th c ∧
          (FirstTracked history c ∨
            c.isTracked ∧ ∃ last ∈ history.getLast?, c.NarrowerThan lib last) ∨
        c.pinchDistance lib < 10 / 1000 := by
  have hraw : ((afterHistory lib th history).rawFeature lib c).lastGesture ≠ .pinch := hlast
  rw [gesture_pinch_iff, GestureMatchRule.pinch]
  simp only [if_pos hraw, decide_eq_true_eq, indexOpposition_of_not_pinch hlast,
    pinchVelocity_lt_iff]
  exact Iff.rfl

/-- Away from a first tracked call, the tracked call right before shows the closing. -/
theorem entered_of_not_firstTracked (hfirst : ¬FirstTracked history c)
    (hlast : (afterHistory lib th history).lastGesture ≠ .pinch)
    (hpinch : (predictWithKeypoints3d lib th (afterHistory lib th history) c).2 = .pinch) :
    c.pinchDistance lib < 10 / 1000 ∨
      (predictWithKeypoints3d lib th (afterHistory lib th history) c).1.feature.oppositionFeatures
          1 = .closed ∧
        ∃ last ∈ history.getLast?, c.NarrowerThan lib last := by
  rcases (predict_pinch_iff hlast).mp hpinch with ⟨hcloses, hfast⟩ | htouch
  · rcases hfast with hcase | ⟨-, hnarrower⟩
    · exact absurd hcase hfirst
    · exact .inr ⟨(indexOpposition_of_not_pinch hlast).mpr hcloses, hnarrower⟩
  · exact .inl htouch

/-- A first tracked call begins a pinch whenever the index finger is closed. -/
theorem entersByClosing_iff : EntersByClosing lib th history c ↔
    (FirstTracked history c → (afterHistory lib th history).lastGesture = .pinch ∨
      c.pinchDistance lib < 10 / 1000 ∨ ¬(afterHistory lib th history).ClosesIndex lib th c ∨
        ∃ last ∈ history, c.NarrowerThan lib last) := by
  constructor
  · intro henters hfirst
    by_cases hlast : (afterHistory lib th history).lastGesture = .pinch
    · exact .inl hlast
    · by_cases hcloses : (afterHistory lib th history).ClosesIndex lib th c
      · have hpinch := (predict_pinch_iff hlast).mpr (.inl ⟨hcloses, .inl hfirst⟩)
        rcases henters hlast hpinch with htouch | ⟨-, hnarrower⟩
        · exact .inr (.inl htouch)
        · exact .inr (.inr (.inr hnarrower))
      · exact .inr (.inr (.inl hcloses))
  · intro hwhen hlast hpinch
    by_cases hfirst : FirstTracked history c
    · rcases (predict_pinch_iff hlast).mp hpinch with ⟨hcloses, -⟩ | htouch
      · rcases hwhen hfirst with hcase | htouch | hopen | hnarrower
        · exact absurd hcase hlast
        · exact .inl htouch
        · exact absurd hcloses hopen
        · exact .inr ⟨(indexOpposition_of_not_pinch hlast).mpr hcloses, hnarrower⟩
      · exact .inl htouch
    · rcases entered_of_not_firstTracked hfirst hlast hpinch with htouch | ⟨hclosed, hnarrower⟩
      · exact .inl htouch
      · obtain ⟨last, hmem, hnarrower⟩ := hnarrower
        exact .inr ⟨hclosed, last, List.mem_of_getLast? hmem, hnarrower⟩

/-- **How pinches begin**, after every history.  With the call that begins one it is by closing
exactly if the call is no first tracked one, or the index finger is not closed in it, or one of
the calls before was wider; and if it is no first tracked one, the call right before was. -/
theorem pinch_entered_iff (lib : GestureLib K) (th : PinchTh K) (history : List (GestureCall K))
    (c : GestureCall K) :
    (EntersByClosing lib th history c ↔
      (FirstTracked history c → (afterHistory lib th history).lastGesture = .pinch ∨
        c.pinchDistance lib < 10 / 1000 ∨ ¬(afterHistory lib th history).ClosesIndex lib th c ∨
          ∃ last ∈ history, c.NarrowerThan lib last)) ∧
    (¬FirstTracked history c → (afterHistory lib th history).lastGesture ≠ .pinch →
      (predictWithKeypoints3d lib th (afterHistory lib th history) c).2 = .pinch →
        c.pinchDistance lib < 10 / 1000 ∨
          (predictWithKeypoints3d lib th (afterHistory lib th history)
              c).1.feature.oppositionFeatures 1 = .closed ∧
            ∃ last ∈ history.getLast?, c.NarrowerThan lib last) :=
  ⟨entersByClosing_iff, entered_of_not_firstTracked⟩

end

/-! ### Tips that close, and tips that rest -/

/-- The tips are 12 mm apart. -/
noncomputable def nearFrame (isTracked : Bool) : GestureCall ℝ :=
  fingersFrame (touchJoints (12 / 1000)) isTracked

/-- The tips are 20 cm apart. -/
noncomputable def farFrame : GestureCall ℝ := fingersFrame (touchJoints (1 / 5)) true

theorem pinchDistance_nearFrame (isTracked : Bool) :
    (nearFrame isTracked).pinchDistance realLib = 12 / 1000 :=
  pinchDistance_touchJoints (by norm_num) isTracked

theorem closesIndex_nearFrame {s : GestureRecognitionV2 ℝ} (hlast : s.lastGesture ≠ .pinch)
    (isTracked : Bool) : s.ClosesIndex realLib .default (nearFrame isTracked) := by
  have hnear : (nearFrame isTracked).pinchDistance realLib ≤ 15 / 1000 := by
    rw [pinchDistance_nearFrame]
    norm_num
  exact (indexOpposition_of_not_pinch hlast).mp (indexOpposition_near hnear)

theorem lastGesture_farFrame :
    (afterHistory realLib (.default : PinchTh ℝ) [farFrame]).lastGesture ≠ .pinch := by
  intro hlast
  have hrule := gesture_pinch_iff.mp hlast
  rw [farFrame, pinch_far (pinchDistance_touchJoints (by norm_num) true).ge] at hrule
  exact Bool.false_ne_true hrule

theorem narrower_nearFrame : (nearFrame true).NarrowerThan realLib farFrame := by
  have hfar : farFrame.pinchDistance realLib = 1 / 5 :=
    pinchDistance_touchJoints (by norm_num) true
  refine ⟨rfl, ?_⟩
  rw [hfar, pinchDistance_nearFrame]
  norm_num

/-- Tips that close begin a pinch. -/
theorem predict_nearFrame :
    (predictWithKeypoints3d realLib .default (afterHistory realLib .default [farFrame])
      (nearFrame true)).2 = .pinch :=
  (predict_pinch_iff lastGesture_farFrame).mpr (.inl ⟨closesIndex_nearFrame lastGesture_farFrame
    true, .inr ⟨rfl, farFrame, rfl, narrower_nearFrame⟩⟩)

theorem pinch_entered_iff_nearFrame :
    (nearFrame true).pinchDistance realLib < 10 / 1000 ∨
      (predictWithKeypoints3d realLib .default (afterHistory realLib .default [farFrame])
          (nearFrame true)).1.feature.oppositionFeatures 1 = .closed ∧
        ∃ last ∈ [farFrame].getLast?, (nearFrame true).NarrowerThan realLib last :=
  (pinch_entered_iff realLib .default [farFrame] (nearFrame true)).2
    (fun hfirst => Bool.false_ne_true (hfirst.2 farFrame rfl).symm) lastGesture_farFrame
    predict_nearFrame

/-- The hand appears and does not move; with the second frame a pinch begins. -/
theorem nearFrame_not_closing :
    ¬ ∀ (history : List (GestureCall ℝ)) (c : GestureCall ℝ),
      EntersByClosing realLib .default history c := by
  intro h
  have hfirst : FirstTracked [nearFrame false] (nearFrame true) := by
    refine ⟨rfl, fun last hmem => ?_⟩
    obtain rfl := Option.some.inj hmem
    rfl
  have hnot : (afterHistory realLib (.default : PinchTh ℝ) [nearFrame false]).lastGesture ≠
      .pinch := by
    intro hpinch
    have hinit := (gesture_pinch_iff_lastGesture (by norm_num) (by norm_num)).mp hpinch
    exact HandGesture.noConfusion hinit
  rcases entersByClosing_iff.mp (h [nearFrame false] (nearFrame true)) hfirst with
    hlast | htouch | hopen | hnarrower
  · exact hnot hlast
  · rw [pinchDistance_nearFrame] at htouch
    norm_num at htouch
  · exact hopen (closesIndex_nearFrame hnot true)
  · -- the only call before was not tracked
    obtain ⟨last, hmem, htracked, -⟩ := hnarrower
    rw [List.mem_singleton.mp hmem] at htracked
    exact Bool.false_ne_true htracked

end Gesture

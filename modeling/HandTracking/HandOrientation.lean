/-
The orientation of a hand by the angle of its middle finger to the horizontal.

A hand that points the other way has the angle `180 - a`.  The intervals of the code are those of
`mirroredOrientation` but for one bound: the second branch has no upper one, and hands between 120°
and 150° are vertical.

* `mirroredOrientation` — the intervals with all their bounds;
* `updateHandOrientation_eq_iff` — where the code keeps to them;
* `rightOrientation_iff` — the angles at which the two directions of the hand are alike.
-/
import HandTracking.GestureRecognition
import Mathlib.Tactic.Linarith
import Mathlib.Tactic.NormNum

namespace Gesture

open HandPose

variable {K : Type} [Field K] [LinearOrder K]

/-- The classes of the angles between 0 and 180. -/
def mirroredOrientation (a : K) : HandOrientation :=
  if a ≤ 30 ∨ 150 ≤ a then .horizontal
  else if 60 ≤ a ∧ a ≤ 120 then .vertical
  else .other

/-- The orientation is that of the class, and the same for the other direction of the hand. -/
def HandFeature.RightOrientation (f : HandFeature) (a : K) : Prop :=
  (f.updateHandOrientation a).orientation = (f.updateHandOrientation (180 - a)).orientation ∧
    (f.updateHandOrientation a).orientation = mirroredOrientation a

section

variable [IsStrictOrderedRing K] {f : HandFeature} {a : K}

theorem sub_horizontal_iff (a : K) : 180 - a ≤ 30 ∨ 150 ≤ 180 - a ↔ a ≤ 30 ∨ 150 ≤ a := by
  constructor
  · rintro (h | h)
    · exact .inr (by linarith)
    · exact .inl (by linarith)
  · rintro (h | h)
    · exact .inr (by linarith)
    · exact .inl (by linarith)

theorem mirroredOrientation_sub (a : K) :
    mirroredOrientation (180 - a) = mirroredOrientation a := by
  have hvertical : 60 ≤ 180 - a ∧ 180 - a ≤ 120 ↔ 60 ≤ a ∧ a ≤ 120 := by
    constructor
    · rintro ⟨hlow, hhigh⟩
      exact ⟨by linarith, by linarith⟩
    · rintro ⟨hlow, hhigh⟩
      exact ⟨by linarith, by linarith⟩
  simp only [mirroredOrientation, sub_horizontal_iff, hvertical]

/-- The branches that are left: of the second only the lower bound. -/
theorem orientation_updateHandOrientation (h0 : 0 ≤ a) (h180 : a ≤ 180) :
    (f.updateHandOrientation a).orientation =
      if a ≤ 30 ∨ 150 ≤ a then .horizontal else if 60 ≤ a then .vertical else .other := by
  have hhorizontal : 0 ≤ a ∧ a ≤ 30 ∨ 150 ≤ a ∧ a ≤ 180 ↔ a ≤ 30 ∨ 150 ≤ a := by
    rw [and_iff_right h0, and_iff_left h180]
  have hvertical : 60 ≤ a ∧ (60 : K) ≤ 120 ↔ 60 ≤ a := and_iff_left (by norm_num)
  simp only [HandFeature.updateHandOrientation, hhorizontal, hvertical]

theorem horizontal_iff (h0 : 0 ≤ a) (h180 : a ≤ 180) :
    (f.updateHandOrientation a).orientation = .horizontal ↔ a ≤ 30 ∨ 150 ≤ a := by
  rw [orientation_updateHandOrientation h0 h180]
  by_cases hhorizontal : a ≤ 30 ∨ 150 ≤ a
  · rw [if_pos hhorizontal]
    exact iff_of_true rfl hhorizontal
  · rw [if_neg hhorizontal]
    refine iff_of_false ?_ hhorizontal
    by_cases hvertical : 60 ≤ a
    · rw [if_pos hvertical]
      exact HandOrientation.noConfusion
    · rw [if_neg hvertical]
      exact HandOrientation.noConfusion

theorem updateHandOrientation_eq_iff (h0 : 0 ≤ a) (h180 : a ≤ 180) :
    (f.updateHandOrientation a).orientation = mirroredOrientation a ↔ ¬(120 < a ∧ a < 150) := by
  rw [orientation_updateHandOrientation h0 h180, mirroredOrientation]
  by_cases hhorizontal : a ≤ 30 ∨ 150 ≤ a
  · rw [if_pos hhorizontal, if_pos hhorizontal]
    refine iff_of_true rfl fun ⟨hlow, hhigh⟩ => ?_
    rcases hhorizontal with h | h
    · linarith
    · linarith
  · obtain ⟨-, hhigh⟩ := not_or.mp hhorizontal
    rw [if_neg hhorizontal, if_neg hhorizontal]
    by_cases hvertical : 60 ≤ a
    · rw [if_pos hvertical]
      by_cases hupper : a ≤ 120
      · rw [if_pos ⟨hvertical, hupper⟩]
        exact iff_of_true rfl fun h => h.1.not_ge hupper
      · -- the class is `other` here, and the code does not look
        rw [if_neg fun h => hupper h.2]
        exact iff_of_false HandOrientation.noConfusion
          fun h => h ⟨not_le.mp hupper, not_le.mp hhigh⟩
    · rw [if_neg hvertical, if_neg fun h => hvertical h.1]
      exact iff_of_true rfl fun h => hvertical (by linarith)

/-- `Home` looks for a horizontal hand only. -/
theorem home_updateHandOrientation_sub (h0 : 0 ≤ a) (h180 : a ≤ 180) :
    GestureMatchRule.home (f.updateHandOrientation (180 - a)) =
      GestureMatchRule.home (f.updateHandOrientation a) := by
  have hmirror : (f.updateHandOrientation (180 - a)).orientation = .horizontal ↔
      (f.updateHandOrientation a).orientation = .horizontal := by
    rw [horizontal_iff (by linarith) (by linarith), horizontal_iff h0 h180, sub_horizontal_iff]
  simp only [GestureMatchRule.home, hmirror]
  rfl

/-- The orientation of a hand and of the mirrored one, for every state before: it is right exactly
away from the angles between 30° and 60° and between 120° and 150°.  The rule of `Home` never sees
a difference. -/
theorem rightOrientation_iff (f : HandFeature) {a : K} (h0 : 0 ≤ a) (h180 : a ≤ 180) :
    (f.RightOrientation a ↔ ¬(30 < a ∧ a < 60) ∧ ¬(120 < a ∧ a < 150)) ∧
      GestureMatchRule.home (f.updateHandOrientation (180 - a)) =
        GestureMatchRule.home (f.updateHandOrientation a) := by
  refine ⟨?_, home_updateHandOrientation_sub h0 h180⟩
  have hmirror : (f.updateHandOrientation (180 - a)).orientation = mirroredOrientation a ↔
      ¬(30 < a ∧ a < 60) := by
    rw [← mirroredOrientation_sub, updateHandOrientation_eq_iff (by linarith) (by linarith)]
    refine not_congr ⟨?_, ?_⟩
    · rintro ⟨hlow, hhigh⟩
      exact ⟨by linarith, by linarith⟩
    · rintro ⟨hlow, hhigh⟩
      exact ⟨by linarith, by linarith⟩
  rw [HandFeature.RightOrientation, ← hmirror, ← updateHandOrientation_eq_iff (f := f) h0 h180]
  constructor
  · rintro ⟨hsame, hclass⟩
    exact ⟨hsame.symm.trans hclass, hclass⟩
  · rintro ⟨hother, hclass⟩
    exact ⟨hclass.trans hother.symm, hclass⟩

end

theorem rightOrientation_iff_upright :
    (HandFeature.init.RightOrientation (90 : ℚ) ↔
        ¬((30 : ℚ) < 90 ∧ (90 : ℚ) < 60) ∧ ¬((120 : ℚ) < 90 ∧ (90 : ℚ) < 150)) ∧
      GestureMatchRule.home (HandFeature.init.updateHandOrientation (180 - 90 : ℚ)) =
        GestureMatchRule.home (HandFeature.init.updateHandOrientation (90 : ℚ)) :=
  rightOrientation_iff HandFeature.init (by norm_num) (by norm_num)

/-- A hand at 135° is vertical. -/
theorem not_rightOrientation :
    ¬ ∀ (f : HandFeature) (a : ℚ), 0 ≤ a → a ≤ 180 → f.RightOrientation a := by
  intro h
  have hclass := (h .init 135 (by norm_num) (by norm_num)).2
  rw [updateHandOrientation_eq_iff (by norm_num) (by norm_num)] at hclass
  exact hclass ⟨by norm_num, by norm_num⟩

end Gesture

/-
The finger states after a run of `HandFeatureUpdator::update`.

Each state should be the trace of one angle: the angle sets it, or in a dead band leaves it as it
is.  The states of the curl and of the abduction are.  Those of the flexion start from the curl of
the frame, so that a flexion in a dead band shows the curl instead of the flexion before it.

* `hysteresis` — the state after a list of angles;
* `updates` — the states after a run of calls, `eq_hysteresis_of_step` — those that are traces;
* `fingureHistories_iff` — the runs after which all states are traces of their own angles;
* `afterHistory_feature` — the states of `GestureRecognitionV2` are those of such a run.
-/
import HandTracking.GestureEpisodes

namespace Gesture

open HandPose

variable {K : Type} [Field K] [LinearOrder K]

/-! ### Traces -/

/-- The state that a list of values leaves. -/
def hysteresis (closeTh openTh width : K) (values : List K) : FingureState :=
  values.foldl (fun state value => updateFingureState value closeTh openTh width state) .unknown

theorem hysteresis_concat (closeTh openTh width : K) (values : List K) (value : K) :
    hysteresis closeTh openTh width (values ++ [value]) =
      updateFingureState value closeTh openTh width
        (hysteresis closeTh openTh width values) := by
  rw [hysteresis, List.foldl_append]
  rfl

/-- The arguments of a call of `update`, and the thresholds of a pinch at its time. -/
structure UpdateCall (K : Type) where
  th : PinchTh K
  fingureAngles : Fin 5 → Vec3 K
  abductionAngles : Fin 4 → K
  distances : Fin 4 → K
  handAngle : K
  releaseThFlag : Bool
  isPinchMasked : Bool
  moveFlag : Bool

/-- One update of a feature, with the angles and thresholds of the call. -/
def HandFeature.updateBy (f : HandFeature) (u : UpdateCall K) : HandFeature :=
  f.update u.th u.fingureAngles u.abductionAngles u.distances u.handAngle u.releaseThFlag
    u.isPinchMasked u.moveFlag

/-- The states of a new `HandFeatureUpdator` after a run of calls. -/
def updates (us : List (UpdateCall K)) : HandFeature := us.foldl HandFeature.updateBy .init

theorem updates_concat (us : List (UpdateCall K)) (u : UpdateCall K) :
    updates (us ++ [u]) = (updates us).updateBy u := by
  rw [updates, List.foldl_append]
  rfl

/-- The angle behind the flexion of a finger. -/
def flexionAngle (angles : Fin 5 → Vec3 K) (i : Fin 5) : K :=
  if i = 0 then 180 - angles 0 1 else 180 - angles i 0

section Histories

variable (us : List (UpdateCall K)) (i : Fin 5)

/-- The state of the curl by its own angles. -/
def curlHistory : FingureState :=
  let values := us.map fun u => curlAngle u.fingureAngles i
  if i = 0 then hysteresis 140 155 10 values else hysteresis 80 130 10 values

/-- The state of the flexion of a finger as the trace of its own angles. -/
def flexionHistory : FingureState :=
  let values := us.map fun u => flexionAngle u.fingureAngles i
  if i = 0 then hysteresis 120 150 8 values else hysteresis 110 145 8 values

/-- The pinky has no angle. -/
def abductionHistory : FingureState :=
  if h : i.val < 4 then
    let values := us.map fun u => u.abductionAngles ⟨i, h⟩
    if i = 0 then hysteresis 20 35 2 values else hysteresis 10 13 2 values
  else hysteresis (10 : K) 13 2 []

end Histories

/-- The angle of the flexion is in no dead band. -/
def UpdateCall.DecidesFlexion (u : UpdateCall K) (i : Fin 5) : Prop :=
  if i = 0 then Decides (flexionAngle u.fingureAngles i) 120 150 8
  else Decides (flexionAngle u.fingureAngles i) 110 145 8

/-! ### The states after a run -/

/-- A state that each call sets by one value and leaves in a dead band. -/
theorem eq_hysteresis_of_step (state : HandFeature → FingureState) {value : UpdateCall K → K}
    {closeTh openTh width : K} (hinit : state .init = .unknown)
    (hstep : ∀ f u, state (f.updateBy u) =
      updateFingureState (value u) closeTh openTh width (state f)) (us : List (UpdateCall K)) :
    state (updates us) = hysteresis closeTh openTh width (us.map value) := by
  induction us using List.reverseRecOn with
  | nil => exact hinit
  | append_singleton us u ih =>
    rw [updates_concat, hstep, ih, List.map_append, List.map_singleton, hysteresis_concat]

theorem curlFeatures_updates (us : List (UpdateCall K)) (i : Fin 5) :
    (updates us).curlFeatures i = curlHistory us i := by
  rw [curlHistory]
  by_cases hi : i = 0
  · rw [if_pos hi]
    refine eq_hysteresis_of_step (fun f => f.curlFeatures i) rfl (fun f u => ?_) us
    rw [HandFeature.updateBy, HandFeature.curlFeatures_update]
    exact if_pos hi
  · rw [if_neg hi]
    refine eq_hysteresis_of_step (fun f => f.curlFeatures i) rfl (fun f u => ?_) us
    rw [HandFeature.updateBy, HandFeature.curlFeatures_update]
    exact if_neg hi

theorem abductionFeatures_updates (us : List (UpdateCall K)) (i : Fin 5) :
    (updates us).abductionFeatures i = abductionHistory us i := by
  rw [abductionHistory]
  by_cases hangle : i.val < 4
  · rw [dif_pos hangle]
    by_cases hi : i = 0
    · subst hi
      rw [if_pos rfl]
      refine eq_hysteresis_of_step (fun f => f.abductionFeatures 0) rfl (fun f u => ?_) us
      rw [HandFeature.updateBy, HandFeature.abductionFeatures_update]
      rfl
    · rw [if_neg hi]
      refine eq_hysteresis_of_step (fun f => f.abductionFeatures i) rfl (fun f u => ?_) us
      rw [HandFeature.updateBy, HandFeature.abductionFeatures_update]
      exact (if_neg hi).trans (dif_pos hangle)
  · -- no call changes the state of the pinky
    rw [dif_neg hangle]
    refine List.foldlRecOn (motive := fun f : HandFeature => f.abductionFeatures i = .unknown)
      us HandFeature.updateBy rfl fun f hf u _ => ?_
    have hi : i ≠ 0 := fun hi => hangle (hi ▸ Nat.zero_lt_succ 3)
    rw [HandFeature.updateBy, HandFeature.abductionFeatures_update]
    exact ((if_neg hi).trans (dif_neg hangle)).trans hf

/-- The state of the flexion before a call does not matter; that of the curl after it does. -/
theorem flexionFeatures_updates_concat (us : List (UpdateCall K)) (u : UpdateCall K) (i : Fin 5) :
    (updates (us ++ [u])).flexionFeatures i =
      if i = 0 then
        updateFingureState (flexionAngle u.fingureAngles i) 120 150 8 (curlHistory (us ++ [u]) i)
      else
        updateFingureState (flexionAngle u.fingureAngles i) 110 145 8
          (curlHistory (us ++ [u]) i) := by
  rw [← curlFeatures_updates, updates_concat, HandFeature.updateBy,
    HandFeature.flexionFeatures_update]
  by_cases hi : i = 0
  · rw [if_pos hi, if_pos hi, flexionAngle, if_pos hi]
  · rw [if_neg hi, if_neg hi, flexionAngle, if_neg hi]

theorem flexionFeatures_updates_concat_iff (us : List (UpdateCall K)) (u : UpdateCall K)
    (i : Fin 5) :
    (updates (us ++ [u])).flexionFeatures i = flexionHistory (us ++ [u]) i ↔
      u.DecidesFlexion i ∨ curlHistory (us ++ [u]) i = flexionHistory us i := by
  rw [flexionFeatures_updates_concat, flexionHistory, flexionHistory, List.map_append,
    List.map_singleton, UpdateCall.DecidesFlexion, or_comm]
  by_cases hi : i = 0
  · simp only [if_pos hi]
    rw [hysteresis_concat]
    exact updateFingureState_iff Eq.refl
  · simp only [if_neg hi]
    rw [hysteresis_concat]
    exact updateFingureState_iff Eq.refl

/-- After every run the states of curl and abduction are traces of their own angles.  Those of
the flexion are exactly if for each finger the last angle is in no dead band, or the curl happens
to be in the state that the flexion had before. -/
theorem fingureHistories_iff (us : List (UpdateCall K)) :
    (∀ i, (updates us).curlFeatures i = curlHistory us i ∧
      (updates us).abductionFeatures i = abductionHistory us i) ∧
    ((∀ i, (updates us).flexionFeatures i = flexionHistory us i) ↔
      ∀ front u, us = front ++ [u] → ∀ i,
        u.DecidesFlexion i ∨ curlHistory us i = flexionHistory front i) := by
  refine ⟨fun i => ⟨curlFeatures_updates us i, abductionFeatures_updates us i⟩, ?_⟩
  cases us using List.reverseRecOn with
  | nil =>
    refine iff_of_true (fun i => ?_) fun front u hus => ?_
    · rw [flexionHistory]
      split_ifs
      · rfl
      · rfl
    · exact absurd hus.symm (List.append_ne_nil_of_right_ne_nil front (List.cons_ne_nil u []))
  | append_singleton us u =>
    constructor
    · intro h front u' hus i
      obtain ⟨rfl, hu⟩ := List.append_inj' hus rfl
      obtain rfl := List.singleton_inj.mp hu
      exact (flexionFeatures_updates_concat_iff us u i).mp (h i)
    · exact fun h i => (flexionFeatures_updates_concat_iff us u i).mpr (h us u rfl i)

/-! ### A flexion that shows the curl -/

/-- All fingers are straight; those behind the thumb are at 110° to the palm. -/
def straightFingers : UpdateCall ℚ where
  th := .default
  fingureAngles _ := ![70, 0, 0]
  abductionAngles _ := 0
  distances _ := 1
  handAngle := 0
  releaseThFlag := false
  isPinchMasked := false
  moveFlag := false

/-- The first angle of the index finger is in a dead band, and its flexion is open. -/
theorem straightFingers_flexion :
    ¬ ∀ (us : List (UpdateCall ℚ)) (i : Fin 5),
      (updates us).flexionFeatures i = flexionHistory us i := by
  intro h
  rcases (flexionFeatures_updates_concat_iff [] straightFingers 1).mp (h [straightFingers] 1) with
    hdecides | hcurl
  · rw [UpdateCall.DecidesFlexion, if_neg (by decide)] at hdecides
    norm_num [Decides, flexionAngle, straightFingers] at hdecides
  · have hopen : curlHistory [straightFingers] 1 = .open := by
      show updateFingureState ((180 : ℚ) - 0 - 0) 80 130 10 .unknown = .open
      norm_num [updateFingureState]
    have hunknown : flexionHistory ([] : List (UpdateCall ℚ)) 1 = .unknown := rfl
    rw [List.nil_append, hopen, hunknown] at hcurl
    cases hcurl

/-! ### The states of the recognition -/

namespace GestureRecognitionV2

variable (lib : GestureLib K) (th : PinchTh K)

/-- The arguments of the update in a call. -/
def updateCall (s : GestureRecognitionV2 K) (c : GestureCall K) : UpdateCall K where
  th := th
  fingureAngles := c.fingureAngles lib
  abductionAngles := c.abductionAngles lib
  distances := calculateOppositionDistances lib (c.points lib)
  handAngle := vector3dAngle lib (c.points lib 2 4 - c.points lib 2 1) ![1, 0, 0]
  releaseThFlag := c.toFace lib || decide (c.source = .mono)
  isPinchMasked := s.isPinchMasked c.keypoints2d (c.toFace lib)
  moveFlag := 1 / 10 < c.handV

theorem updatedFeature_eq_updateBy (s : GestureRecognitionV2 K) (c : GestureCall K) :
    s.updatedFeature lib th c = s.feature.updateBy (s.updateCall lib th c) :=
  rfl

end GestureRecognitionV2

/-- The states after a history are those after a run of updates with its angles. -/
theorem afterHistory_feature (lib : GestureLib K) (th : PinchTh K)
    (history : List (GestureCall K)) : ∃ us : List (UpdateCall K),
      us.map UpdateCall.fingureAngles = history.map (GestureCall.fingureAngles lib) ∧
      us.map UpdateCall.abductionAngles = history.map (GestureCall.abductionAngles lib) ∧
      (afterHistory lib th history).feature = updates us := by
  induction history using List.reverseRecOn with
  | nil => exact ⟨[], rfl, rfl, rfl⟩
  | append_singleton history c ih =>
    obtain ⟨us, hfingure, habduction, hfeature⟩ := ih
    refine ⟨us ++ [(afterHistory lib th history).updateCall lib th c], ?_, ?_, ?_⟩
    · rw [List.map_append, List.map_append, hfingure]
      rfl
    · rw [List.map_append, List.map_append, habduction]
      rfl
    · rw [afterHistory_concat, updates_concat, ← hfeature]
      exact GestureRecognitionV2.updatedFeature_eq_updateBy lib th _ c

end Gesture

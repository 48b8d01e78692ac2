/-
The gestures after a hand was lost.

The first frame after a loss is not tracked: it clears the last keypoints, and nothing else of
what was before.  A finger state is left over where the value of the frame is in a dead band.

* `Decides` — a value outside the dead bands, `updateFingureState_iff`;
* `Alike` — members that the rules do not tell apart, `Similar` — with the last keypoints;
* `Settles` — a frame after which two members are similar, `similar_predict` for the frame;
* `gestures_eq_of_settles` — the gestures from the first frame on.
-/
import HandTracking.GestureRecognition
import HandTracking.Predictor

namespace Gesture

open HandPose Predictor

variable {K : Type} [Field K] [LinearOrder K]

/-! ### Dead bands -/

/-- The value is in no dead band. -/
def Decides (value closeTh openTh width : K) : Prop :=
  value ≤ closeTh - width / 2 ∨ (closeTh + width / 2 < value ∧ value < openTh - width / 2) ∨
    openTh + width / 2 < value

/-- **What is left over of a state**: nothing exactly if the value decides.  Of two states only
what `R` tells apart matters. -/
theorem updateFingureState_iff {R : FingureState → FingureState → Prop}
    (hR : ∀ state, R state state) {value closeTh openTh width : K}
    {state state' : FingureState} : R (updateFingureState value closeTh openTh width state)
        (updateFingureState value closeTh openTh width state') ↔
      R state state' ∨ Decides value closeTh openTh width := by
  rw [updateFingureState, updateFingureState, Decides]
  by_cases hclosed : value ≤ closeTh - width / 2
  · rw [if_pos hclosed, if_pos hclosed]
    exact iff_of_true (hR .closed) (.inr (.inl hclosed))
  · rw [if_neg hclosed, if_neg hclosed]
    by_cases hneutral : closeTh + width / 2 < value ∧ value < openTh - width / 2
    · rw [if_pos hneutral, if_pos hneutral]
      exact iff_of_true (hR .neutral) (.inr (.inr (.inl hneutral)))
    · rw [if_neg hneutral, if_neg hneutral]
      by_cases hopen : openTh + width / 2 < value
      · rw [if_pos hopen, if_pos hopen]
        exact iff_of_true (hR .open) (.inr (.inr (.inr hopen)))
      · rw [if_neg hopen, if_neg hopen]
        refine (or_iff_left ?_).symm
        rintro (h | h | h)
        · exact hclosed h
        · exact hneutral h
        · exact hopen h

theorem updateFingureState_of_not_decides {value closeTh openTh width : K} {state : FingureState}
    (h : ¬ Decides value closeTh openTh width) :
    updateFingureState value closeTh openTh width state = state := by
  simp only [Decides, not_or] at h
  rw [updateFingureState, if_neg h.1, if_neg h.2.1, if_neg h.2.2]

/-- The same value again changes nothing. -/
theorem updateFingureState_again (value closeTh openTh width : K) (state : FingureState) :
    updateFingureState value closeTh openTh width
        (updateFingureState value closeTh openTh width state) =
      updateFingureState value closeTh openTh width state := by
  by_cases h : Decides value closeTh openTh width
  · exact (updateFingureState_iff Eq.refl).mpr (.inr h)
  · rw [updateFingureState_of_not_decides h, updateFingureState_of_not_decides h]

/-- The rules compare a curl or a flexion with open and with closed only. -/
structure FingureState.Alike (state state' : FingureState) : Prop where
  isOpen : state = .open ↔ state' = .open
  isClosed : state = .closed ↔ state' = .closed

theorem FingureState.Alike.refl (state : FingureState) : state.Alike state where
  isOpen := .rfl
  isClosed := .rfl

/-! ### The states after an update -/

namespace HandFeature

variable {f f' : HandFeature} {th : PinchTh K} {fingureAngles : Fin 5 → Vec3 K}
  {abductionAngles distances : Fin 4 → K} {handAngle : K}
  {releaseThFlag isPinchMasked moveFlag : Bool}

theorem curlFeatures_update (i : Fin 5) :
    (f.update th fingureAngles abductionAngles distances handAngle releaseThFlag isPinchMasked
        moveFlag).curlFeatures i =
      (f.updateCurlFeature fingureAngles).curlFeatures i := by
  cases isPinchMasked <;> rfl

/-- The states of the flexion come from those of the curl. -/
theorem flexionFeatures_update (i : Fin 5) :
    let updated := f.update th fingureAngles abductionAngles distances handAngle releaseThFlag
      isPinchMasked moveFlag
    updated.flexionFeatures i =
      if i = 0 then
        updateFingureState (180 - fingureAngles 0 1) 120 150 8 (updated.curlFeatures i)
      else updateFingureState (180 - fingureAngles i 0) 110 145 8 (updated.curlFeatures i) := by
  cases isPinchMasked <;> rfl

theorem abductionFeatures_update (i : Fin 5) :
    (f.update th fingureAngles abductionAngles distances handAngle releaseThFlag isPinchMasked
        moveFlag).abductionFeatures i =
      (f.updateAbductionFeature abductionAngles).abductionFeatures i := by
  cases isPinchMasked <;> rfl

theorem oppositionFeatures_update (i : Fin 5) :
    (f.update th fingureAngles abductionAngles distances handAngle releaseThFlag isPinchMasked
        moveFlag).oppositionFeatures i =
      if isPinchMasked then f.oppositionFeatures i
      else
        (f.updateOppositionFeature th distances releaseThFlag moveFlag).oppositionFeatures i := by
  cases isPinchMasked <;> rfl

theorem orientation_update :
    (f.update th fingureAngles abductionAngles distances handAngle releaseThFlag isPinchMasked
        moveFlag).orientation = (f.updateHandOrientation handAngle).orientation := by
  cases isPinchMasked <;> rfl

/-- The rules do not tell the features apart. -/
structure Alike (f f' : HandFeature) : Prop where
  curl : ∀ i, (f.curlFeatures i).Alike (f'.curlFeatures i)
  flexion : ∀ i, (f.flexionFeatures i).Alike (f'.flexionFeatures i)
  thumbAbduction : (f.abductionFeatures 0).Alike (f'.abductionFeatures 0)
  indexAbduction : f.abductionFeatures 1 = .open ↔ f'.abductionFeatures 1 = .open
  indexOpposition : f.oppositionFeatures 1 = .closed ↔ f'.oppositionFeatures 1 = .closed
  orientation : f.orientation = f'.orientation

end HandFeature

/-- Of the last gesture the rules look only at whether it was a pinch. -/
theorem matchGesture_congr {f f' : HandFeature} (h : f.Alike f') {raw : HandRawFeature K}
    {lastGesture : HandGesture} (hlast : raw.lastGesture = .pinch ↔ lastGesture = .pinch) :
    matchGesture f raw = matchGesture f' { raw with lastGesture := lastGesture } := by
  have hcurlOpen i := (h.curl i).isOpen
  have hcurlClosed i := (h.curl i).isClosed
  have hflexionOpen i := (h.flexion i).isOpen
  have hflexionClosed i := (h.flexion i).isClosed
  have hmap : gestureFunctionMap f raw =
      gestureFunctionMap f' { raw with lastGesture := lastGesture } := by
    funext gesture
    cases gesture with
    | invalid => rfl
    | maxNum => rfl
    | pinch =>
      simp only [gestureFunctionMap, GestureMatchRule.pinch, h.indexOpposition, ne_eq, hlast]
    | click =>
      simp only [gestureFunctionMap, GestureMatchRule.click, hcurlOpen, hcurlClosed, ne_eq,
        h.thumbAbduction.isClosed, h.indexOpposition]
    | grab => simp only [gestureFunctionMap, GestureMatchRule.grab, hcurlOpen, hcurlClosed, ne_eq]
    | thumbUp =>
      simp only [gestureFunctionMap, GestureMatchRule.thumbUp, hcurlClosed, h.thumbAbduction.isOpen]
    | openHand =>
      simp only [gestureFunctionMap, GestureMatchRule.openHand, hcurlOpen, hcurlClosed,
        hflexionOpen, hflexionClosed, ne_eq]
    | victory =>
      simp only [gestureFunctionMap, GestureMatchRule.victory, hcurlOpen, hcurlClosed,
        h.indexAbduction, ne_eq]
    | call =>
      simp only [gestureFunctionMap, GestureMatchRule.call, hcurlOpen, hcurlClosed,
        hflexionClosed, ne_eq]
    | home =>
      simp only [gestureFunctionMap, GestureMatchRule.home, hcurlOpen, hcurlClosed,
        hflexionClosed, h.orientation]
  rw [matchGesture, matchGesture, hmap]

/-! ### One frame -/

namespace GestureCall

variable (lib : GestureLib K) (th : PinchTh K) (c : GestureCall K)

/-- `is_face_to_head` of the call. -/
def toFace : Bool := isFaceToHead lib (c.points lib) c.isLeftHand

/-- The angles of the fingers in the call. -/
def fingureAngles : Fin 5 → Vec3 K := calculateFingureAngles lib (c.points lib)

/-- The angles between neighbouring fingers in the call. -/
def abductionAngles : Fin 4 → K := calculateAbductionAngles lib (c.points lib)

/-- The distance of the tips of thumb and index finger. -/
def pinchDistance : K := calculateOppositionDistances lib (c.points lib) 0

/-- The thresholds of the pinch for the frame. -/
def pinchTh : K × K :=
  HandFeature.oppositionTh th (c.toFace lib || decide (c.source = .mono)) (1 / 10 < c.handV)

/-- The frame sets the curl of a finger, whatever it was. -/
def DecidesCurl (i : Fin 5) : Prop :=
  if i = 0 then Decides (curlAngle (c.fingureAngles lib) i) 140 155 10
  else Decides (curlAngle (c.fingureAngles lib) i) 80 130 10

end GestureCall

/-- The rules do not tell the members apart. -/
structure GestureRecognitionV2.Alike (s t : GestureRecognitionV2 K) : Prop where
  curl : ∀ i, (s.feature.curlFeatures i).Alike (t.feature.curlFeatures i)
  thumbAbduction : (s.feature.abductionFeatures 0).Alike (t.feature.abductionFeatures 0)
  indexAbduction : s.feature.abductionFeatures 1 = .open ↔ t.feature.abductionFeatures 1 = .open
  indexOpposition :
    s.feature.oppositionFeatures 1 = .closed ↔ t.feature.oppositionFeatures 1 = .closed
  lastGesture : s.lastGesture = .pinch ↔ t.lastGesture = .pinch

/-- The members give the same gestures from now on. -/
structure Similar (s t : GestureRecognitionV2 K) : Prop extends s.Alike t where
  lastKpt3d : s.lastKpt3d = t.lastKpt3d

/-- The members are alike where the frame leaves something of them. -/
structure Settles (lib : GestureLib K) (th : PinchTh K) (s t : GestureRecognitionV2 K)
    (c : GestureCall K) : Prop where
  curl : ∀ i, (s.feature.curlFeatures i).Alike (t.feature.curlFeatures i) ∨ c.DecidesCurl lib i
  thumbAbduction : (s.feature.abductionFeatures 0).Alike (t.feature.abductionFeatures 0) ∨
    Decides (c.abductionAngles lib 0) 20 35 2
  indexAbduction :
    (s.feature.abductionFeatures 1 = .open ↔ t.feature.abductionFeatures 1 = .open) ∨
      Decides (c.abductionAngles lib 1) 10 13 2
  indexOpposition :
    (s.feature.oppositionFeatures 1 = .closed ↔ t.feature.oppositionFeatures 1 = .closed) ∨
      s.isPinchMasked c.keypoints2d (c.toFace lib) = false ∧
        Decides (c.pinchDistance lib) (c.pinchTh lib th).1 (1 / 10) (c.pinchTh lib th).2
  lastGesture : s.lastGesture = .pinch ↔ t.lastGesture = .pinch
  lastKpt3d : c.isTracked = true → s.lastKpt3d = t.lastKpt3d

section

variable {lib : GestureLib K} {th : PinchTh K} {s t : GestureRecognitionV2 K} {c : GestureCall K}

theorem GestureRecognitionV2.Alike.settles (h : s.Alike t)
    (hlast : c.isTracked = true → s.lastKpt3d = t.lastKpt3d) : Settles lib th s t c where
  curl i := .inl (h.curl i)
  thumbAbduction := .inl h.thumbAbduction
  indexAbduction := .inl h.indexAbduction
  indexOpposition := .inl h.indexOpposition
  lastGesture := h.lastGesture
  lastKpt3d := hlast

theorem isPinchMasked_congr (h : s.lastGesture = .pinch ↔ t.lastGesture = .pinch)
    (keypoints2d : Fin 21 → Camera.Vec2 K) (isFaceToHead : Bool) :
    s.isPinchMasked keypoints2d isFaceToHead = t.isPinchMasked keypoints2d isFaceToHead := by
  rw [GestureRecognitionV2.isPinchMasked, GestureRecognitionV2.isPinchMasked,
    decide_eq_decide.mpr h]

/-- Apart from the last gesture, what is computed of a frame is the same. -/
theorem rawFeature_congr (h : c.isTracked = true → s.lastKpt3d = t.lastKpt3d) :
    t.rawFeature lib c = { s.rawFeature lib c with lastGesture := t.lastGesture } := by
  have hvelocity : (if c.isTracked then t.getPinchVelocity lib (c.points lib) else 0) =
      if c.isTracked then s.getPinchVelocity lib (c.points lib) else 0 := by
    by_cases htracked : c.isTracked = true
    · rw [if_pos htracked, if_pos htracked, GestureRecognitionV2.getPinchVelocity,
        GestureRecognitionV2.getPinchVelocity, h htracked]
    · rw [if_neg htracked, if_neg htracked]
  rw [GestureRecognitionV2.rawFeature, GestureRecognitionV2.rawFeature, hvelocity]

/-! The states of a frame, each from the state before it. -/

theorem curlFeatures_updatedFeature (i : Fin 5) :
    (s.updatedFeature lib th c).curlFeatures i =
      if i = 0 then updateFingureState (curlAngle (c.fingureAngles lib) i) 140 155 10
        (s.feature.curlFeatures i)
      else updateFingureState (curlAngle (c.fingureAngles lib) i) 80 130 10
        (s.feature.curlFeatures i) := by
  rw [GestureRecognitionV2.updatedFeature, HandFeature.curlFeatures_update]
  rfl

theorem thumbAbduction_updatedFeature : (s.updatedFeature lib th c).abductionFeatures 0 =
    updateFingureState (c.abductionAngles lib 0) 20 35 2 (s.feature.abductionFeatures 0) := by
  rw [GestureRecognitionV2.updatedFeature, HandFeature.abductionFeatures_update]
  rfl

theorem indexAbduction_updatedFeature : (s.updatedFeature lib th c).abductionFeatures 1 =
    updateFingureState (c.abductionAngles lib 1) 10 13 2 (s.feature.abductionFeatures 1) := by
  rw [GestureRecognitionV2.updatedFeature, HandFeature.abductionFeatures_update]
  rfl

theorem indexOpposition_updatedFeature : (s.updatedFeature lib th c).oppositionFeatures 1 =
    if s.isPinchMasked c.keypoints2d (c.toFace lib) then s.feature.oppositionFeatures 1
    else updateFingureState (c.pinchDistance lib) (c.pinchTh lib th).1 (1 / 10)
      (c.pinchTh lib th).2 (s.feature.oppositionFeatures 1) := by
  rw [GestureRecognitionV2.updatedFeature, HandFeature.oppositionFeatures_update]
  rfl

/-! The same frame again changes none of them. -/

theorem curl_again (i : Fin 5) :
    ((predictWithKeypoints3d lib th s c).1.updatedFeature lib th c).curlFeatures i =
      (s.updatedFeature lib th c).curlFeatures i := by
  have hbefore : (predictWithKeypoints3d lib th s c).1.feature = s.updatedFeature lib th c := rfl
  rw [curlFeatures_updatedFeature, hbefore, curlFeatures_updatedFeature]
  split_ifs
  · exact updateFingureState_again ..
  · exact updateFingureState_again ..

theorem thumbAbduction_again :
    ((predictWithKeypoints3d lib th s c).1.updatedFeature lib th c).abductionFeatures 0 =
      (s.updatedFeature lib th c).abductionFeatures 0 := by
  have hbefore : (predictWithKeypoints3d lib th s c).1.feature = s.updatedFeature lib th c := rfl
  rw [thumbAbduction_updatedFeature, hbefore, thumbAbduction_updatedFeature]
  exact updateFingureState_again ..

theorem indexAbduction_again :
    ((predictWithKeypoints3d lib th s c).1.updatedFeature lib th c).abductionFeatures 1 =
      (s.updatedFeature lib th c).abductionFeatures 1 := by
  have hbefore : (predictWithKeypoints3d lib th s c).1.feature = s.updatedFeature lib th c := rfl
  rw [indexAbduction_updatedFeature, hbefore, indexAbduction_updatedFeature]
  exact updateFingureState_again ..

/-! Two members in one frame. -/

theorem curl_updatedFeature (h : Settles lib th s t c) (i : Fin 5) :
    ((s.updatedFeature lib th c).curlFeatures i).Alike
      ((t.updatedFeature lib th c).curlFeatures i) := by
  rw [curlFeatures_updatedFeature, curlFeatures_updatedFeature]
  have hcurl := h.curl i
  rw [GestureCall.DecidesCurl] at hcurl
  by_cases hi : i = 0
  · rw [if_pos hi] at hcurl
    rw [if_pos hi, if_pos hi]
    exact (updateFingureState_iff FingureState.Alike.refl).mpr hcurl
  · rw [if_neg hi] at hcurl
    rw [if_neg hi, if_neg hi]
    exact (updateFingureState_iff FingureState.Alike.refl).mpr hcurl

/-- The flexion comes from the curl of the frame, so it is alike where that is. -/
theorem flexion_updatedFeature (h : Settles lib th s t c) (i : Fin 5) :
    ((s.updatedFeature lib th c).flexionFeatures i).Alike
      ((t.updatedFeature lib th c).flexionFeatures i) := by
  have hcurl := curl_updatedFeature h i
  rw [GestureRecognitionV2.updatedFeature, GestureRecognitionV2.updatedFeature] at hcurl ⊢
  rw [HandFeature.flexionFeatures_update, HandFeature.flexionFeatures_update]
  by_cases hi : i = 0
  · rw [if_pos hi, if_pos hi]
    exact (updateFingureState_iff FingureState.Alike.refl).mpr (.inl hcurl)
  · rw [if_neg hi, if_neg hi]
    exact (updateFingureState_iff FingureState.Alike.refl).mpr (.inl hcurl)

/-- **The rules see the same** of the two members in a frame that settles them. -/
theorem alike_updatedFeature (h : Settles lib th s t c) :
    (s.updatedFeature lib th c).Alike (t.updatedFeature lib th c) where
  curl := curl_updatedFeature h
  flexion := flexion_updatedFeature h
  thumbAbduction := by
    rw [thumbAbduction_updatedFeature, thumbAbduction_updatedFeature]
    exact (updateFingureState_iff FingureState.Alike.refl).mpr h.thumbAbduction
  indexAbduction := by
    rw [indexAbduction_updatedFeature, indexAbduction_updatedFeature]
    exact (updateFingureState_iff (R := fun x y => x = .open ↔ y = .open) fun _ => .rfl).mpr
      h.indexAbduction
  indexOpposition := by
    have hmasks := isPinchMasked_congr h.lastGesture c.keypoints2d (c.toFace lib)
    rw [indexOpposition_updatedFeature, indexOpposition_updatedFeature, ← hmasks]
    split
    case isTrue hmasked =>
      -- nothing is set, so the states have to be alike
      refine h.indexOpposition.resolve_right ?_
      rintro ⟨hnot, -⟩
      exact Bool.false_ne_true (hnot.symm.trans hmasked)
    case isFalse hnot =>
      exact (updateFingureState_iff (R := fun x y => x = .closed ↔ y = .closed) fun _ => .rfl).mpr
        (h.indexOpposition.imp_right And.right)
  orientation := by
    rw [GestureRecognitionV2.updatedFeature, GestureRecognitionV2.updatedFeature,
      HandFeature.orientation_update, HandFeature.orientation_update]
    rfl

theorem similar_predict (h : Settles lib th s t c) :
    (predictWithKeypoints3d lib th s c).2 = (predictWithKeypoints3d lib th t c).2 ∧
      Similar (predictWithKeypoints3d lib th s c).1 (predictWithKeypoints3d lib th t c).1 := by
  have hfeature := alike_updatedFeature h
  have hgesture : (predictWithKeypoints3d lib th s c).2 =
      (predictWithKeypoints3d lib th t c).2 := by
    show matchGesture _ _ = matchGesture _ (t.rawFeature lib c)
    rw [rawFeature_congr h.lastKpt3d]
    exact matchGesture_congr hfeature h.lastGesture
  have halike : (predictWithKeypoints3d lib th s c).1.Alike
      (predictWithKeypoints3d lib th t c).1 := by
    constructor
    · exact hfeature.curl
    · exact hfeature.thumbAbduction
    · exact hfeature.indexAbduction
    · exact hfeature.indexOpposition
    · show (predictWithKeypoints3d lib th s c).2 = .pinch ↔
        (predictWithKeypoints3d lib th t c).2 = .pinch
      rw [hgesture]
  exact ⟨hgesture, halike, rfl⟩

theorem outputs_eq_of_similar (h : Similar s t) (frames : List (GestureCall K)) :
    outputs (predictWithKeypoints3d lib th) s frames =
      outputs (predictWithKeypoints3d lib th) t frames := by
  refine outputs_eq_of_rel (R := Similar) ?_ h frames
  intro s t c hsimilar
  have hsettles : Settles lib th s t c :=
    hsimilar.toAlike.settles fun _ => hsimilar.lastKpt3d
  exact similar_predict hsettles

end

/-! ### Histories -/

/-- The members after a history. -/
def afterHistory (lib : GestureLib K) (th : PinchTh K) (history : List (GestureCall K)) :
    GestureRecognitionV2 K :=
  after (predictWithKeypoints3d lib th) .init history

theorem afterHistory_concat (lib : GestureLib K) (th : PinchTh K)
    (history : List (GestureCall K)) (c : GestureCall K) :
    afterHistory lib th (history ++ [c]) =
      (predictWithKeypoints3d lib th (afterHistory lib th history) c).1 :=
  List.foldl_concat ..

/-- The gestures of the frames after a history. -/
def gestures (lib : GestureLib K) (th : PinchTh K) (history frames : List (GestureCall K)) :
    List HandGesture :=
  outputs (predictWithKeypoints3d lib th) (afterHistory lib th history) frames

/-- **The gestures from the first frame on**, after two histories whose members it settles. -/
theorem gestures_eq_of_settles {lib : GestureLib K} {th : PinchTh K} {a b : List (GestureCall K)}
    {first : GestureCall K} (later : List (GestureCall K))
    (h : Settles lib th (afterHistory lib th a) (afterHistory lib th b) first) :
    gestures lib th a (first :: later) = gestures lib th b (first :: later) := by
  obtain ⟨hgesture, hsimilar⟩ := similar_predict h
  rw [gestures, gestures, outputs, outputs, hgesture, outputs_eq_of_similar hsimilar]

/-- Both histories give the same gestures from a frame after a loss on. -/
def Restarts (lib : GestureLib K) (th : PinchTh K) (a b : List (GestureCall K)) : Prop :=
  ∀ (first : GestureCall K) (later : List (GestureCall K)),
    first.isTracked = false → (∀ c ∈ later, c.isTracked = true) →
      gestures lib th a (first :: later) = gestures lib th b (first :: later)

theorem restarts_of_alike {lib : GestureLib K} {th : PinchTh K} {a b : List (GestureCall K)}
    (h : (afterHistory lib th a).Alike (afterHistory lib th b)) : Restarts lib th a b := by
  intro first later hfirst _
  refine gestures_eq_of_settles later (h.settles fun htracked => ?_)
  exact absurd (hfirst.symm.trans htracked) Bool.false_ne_true

end Gesture

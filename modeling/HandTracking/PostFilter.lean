/-
The post filter over runs of `PopResult`.

`PopResult` calls `post_filter_->reset` only for a hand whose predictor is not tracked, and only
inside the branch for hands whose predictor is: a lost hand leaves its filters as they are.

* `fed` — the points that a call feeds to the filters of a hand, `fed_congr` — which do not
  depend on the filters;
* `postFilter_popHand` — what a call makes of the filters;
* `HandSideFilters.filterOf` — the filter of a coordinate of a keypoint;
* `HandSideFilters.Agree` — filters that no points tell apart, `agree_run` for a call;
* `post_filter_restarts` — when a hand that was lost starts anew.
-/
import HandTracking.PopResult

namespace HandPose

open Predictor

variable {fmt : HandJointFormat} {K : Type} [Field K] [LinearOrder K]

/-! ### The filters of a hand -/

/-- Each point goes through its own filters. -/
theorem filterGroup_apply {n : ℕ} {s : Finset (Fin n)} (m : SeqManager3D s.card K)
    (rel : Fin n → Fin 3 → K) (i : s) (c : Fin 3) : (filterGroup s m rel).2 i c =
      ((m ((s.orderIsoOfFin rfl).symm i) c).filter (rel i c)).2 := by
  show ((m ((s.orderIsoOfFin rfl).symm i) c).filter
    (rel (s.orderIsoOfFin rfl ((s.orderIsoOfFin rfl).symm i)) c)).2 = _
  rw [OrderIso.apply_symm_apply]

theorem filterGroup_filters {n : ℕ} {s : Finset (Fin n)} (m : SeqManager3D s.card K)
    (rel : Fin n → Fin 3 → K) (i : s) (c : Fin 3) :
    (filterGroup s m rel).1 ((s.orderIsoOfFin rfl).symm i) c =
      ((m ((s.orderIsoOfFin rfl).symm i) c).filter (rel i c)).1 := by
  show ((m ((s.orderIsoOfFin rfl).symm i) c).filter
    (rel (s.orderIsoOfFin rfl ((s.orderIsoOfFin rfl).symm i)) c)).1 = _
  rw [OrderIso.apply_symm_apply]

namespace HandSideFilters

variable {side side' : HandSideFilters fmt K} {k : Fin fmt.keypointNum} {c : Fin 3}

/-- The filter of a coordinate of a keypoint other than the root. -/
def filterOf (side : HandSideFilters fmt K) (k : Fin fmt.keypointNum) (hroot : k ≠ kKeypointRootId)
    (c : Fin 3) : OneEuroFilter K :=
  if hpalm : k ∈ kPalmKeypointIndexSet fmt then
    side.seq3dPalm (((kPalmKeypointIndexSet fmt).orderIsoOfFin rfl).symm ⟨k, hpalm⟩) c
  else if hindex : k ∈ kIndexFingerIndexSet fmt then
    side.seq3dIndex (((kIndexFingerIndexSet fmt).orderIsoOfFin rfl).symm ⟨k, hindex⟩) c
  else
    side.seq3dHand (((restKeypointIndexSet fmt).orderIsoOfFin rfl).symm
      ⟨k, Finset.mem_filter.mpr ⟨Finset.mem_univ k, hroot, hpalm, hindex⟩⟩) c

theorem filterOf_process (side : HandSideFilters fmt K) (points : Fin fmt.keypointNum → Vec3 K)
    (hroot : k ≠ kKeypointRootId) : (side.process points).1.filterOf k hroot c =
      ((side.filterOf k hroot c).filter ((points k - points kKeypointRootId) c)).1 := by
  rw [filterOf, filterOf]
  let rel i := points i - points kKeypointRootId
  split_ifs with hpalm hindex
  · exact filterGroup_filters side.seq3dPalm rel ⟨k, hpalm⟩ c
  · exact filterGroup_filters side.seq3dIndex rel ⟨k, hindex⟩ c
  · exact filterGroup_filters side.seq3dHand rel ⟨k, _⟩ c

theorem process_apply (side : HandSideFilters fmt K) (points : Fin fmt.keypointNum → Vec3 K)
    (hroot : k ≠ kKeypointRootId) : (side.process points).2 k c = points kKeypointRootId c +
      ((side.filterOf k hroot c).filter ((points k - points kKeypointRootId) c)).2 := by
  have hbranch : (side.process points).2 k = _ := dif_neg hroot
  rw [hbranch, filterOf]
  split_ifs with hpalm hindex
  · rw [Pi.add_apply, filterGroup_apply]
  · rw [Pi.add_apply, filterGroup_apply]
  · rw [Pi.add_apply, filterGroup_apply]

/-- No points tell the filters apart. -/
def Agree (side side' : HandSideFilters fmt K) : Prop :=
  ∀ k (hroot : k ≠ kKeypointRootId) c, (side.filterOf k hroot c).Agree (side'.filterOf k hroot c)

theorem Agree.refl (side : HandSideFilters fmt K) : side.Agree side :=
  fun _ _ _ => .refl _

theorem Agree.process (h : side.Agree side') (points : Fin fmt.keypointNum → Vec3 K) :
    (side.process points).1.Agree (side'.process points).1 ∧
      (side.process points).2 = (side'.process points).2 := by
  constructor
  · intro k hroot c
    rw [filterOf_process, filterOf_process]
    exact ((h k hroot c).filter _).1
  -- the root is not filtered
  · funext k c
    by_cases hroot : k = kKeypointRootId
    · rw [hroot, process_root, process_root]
    · rw [process_apply _ _ hroot, process_apply _ _ hroot, ((h k hroot c).filter _).2]

end HandSideFilters

/-! ### One hand of one call -/

section

variable {X : Externals K} {outlist : OutList fmt K} {i : Fin 2} {s s' : PopState fmt K}

/-- The points that go to the filters, if the hand is predicted. -/
def fed (X : Externals K) (outlist : OutList fmt K) (i : Fin 2) (s : PopState fmt K) :
    Option (Fin fmt.keypointNum → Vec3 K) :=
  if Predicts outlist s.predictor i s.queryTime then
    let kpt3d := (outlist.handDataPacket.value.hand i).kpt3d
    some fun k => kpt3d k + (predictRoot X outlist i (describeHand outlist i s)).2 -
      kpt3d kKeypointRootId
  else none

/-- The points that come back from the filters. -/
def filtered (X : Externals K) (outlist : OutList fmt K) (i : Fin 2) (s : PopState fmt K) :
    Option (Fin fmt.keypointNum → Vec3 K) :=
  (fed X outlist i s).map fun points =>
    ((predictRoot X outlist i (describeHand outlist i s)).1.postFilter.process i points).2

/-- **The reset is not reached**: the predictor of a predicted hand is tracked. -/
theorem postFilter_predictRoot (h : trackedInternal outlist s.predictor i = true) :
    (predictRoot X outlist i s).1.postFilter = s.postFilter := by
  rw [trackedInternal, Bool.and_eq_true] at h
  rw [predictRoot, if_pos h.2]

theorem root_congr (h : trackedInternal outlist s.predictor i = true)
    (hp : s.predictor i = s'.predictor i) (hq : s.queryTime = s'.queryTime) :
    (predictRoot X outlist i s).2 = (predictRoot X outlist i s').2 := by
  rw [trackedInternal, Bool.and_eq_true] at h
  rw [predictRoot, predictRoot, if_pos h.2, if_pos (hp ▸ h.2)]
  dsimp only
  rw [hp, hq]

/-- What is fed depends on the predictor and the query time. -/
theorem fed_congr (hp : s.predictor i = s'.predictor i) (hq : s.queryTime = s'.queryTime) :
    fed X outlist i s = fed X outlist i s' := by
  have hiff : Predicts outlist s.predictor i s.queryTime ↔
      Predicts outlist s'.predictor i s'.queryTime := by
    rw [Predicts, Predicts, trackedInternal, trackedInternal, hp, hq]
  by_cases h : Predicts outlist s.predictor i s.queryTime
  · have hroot : (predictRoot X outlist i (describeHand outlist i s)).2 =
        (predictRoot X outlist i (describeHand outlist i s')).2 :=
      root_congr (s := describeHand outlist i s) h.1 hp hq
    rw [fed, fed, if_pos h, if_pos (hiff.mp h), hroot]
  · rw [fed, fed, if_neg h, if_neg (mt hiff.mpr h)]

/-- What a call makes of the filters of a hand. -/
theorem postFilter_popHand (X : Externals K) (outlist : OutList fmt K) (i : Fin 2)
    (s : PopState fmt K) : (popHand X outlist i s).postFilter i =
      match fed X outlist i s with
      | some points => ((s.postFilter i).process points).1
      | none => s.postFilter i := by
  by_cases h : Predicts outlist s.predictor i s.queryTime
  · have hkept : (predictRoot X outlist i (describeHand outlist i s)).1.postFilter =
        s.postFilter :=
      postFilter_predictRoot (s := describeHand outlist i s) h.1
    rw [popHand_of_predicts h, fed, if_pos h, popTracked]
    dsimp only
    rw [HandFilters.process_same, hkept]
  · rw [popHand_of_not_predicts h, fed, if_neg h]
    rfl

/-- What comes back from them. -/
theorem filtered_eq (X : Externals K) (outlist : OutList fmt K) (i : Fin 2)
    (s : PopState fmt K) : filtered X outlist i s =
      (fed X outlist i s).map fun points => ((s.postFilter i).process points).2 := by
  by_cases h : Predicts outlist s.predictor i s.queryTime
  · have hkept : (predictRoot X outlist i (describeHand outlist i s)).1.postFilter =
        s.postFilter :=
      postFilter_predictRoot (s := describeHand outlist i s) h.1
    rw [filtered, hkept]
    rfl
  · rw [filtered, fed, if_neg h]
    rfl

end

/-! ### Calls -/

/-- A call, with the packet and the predictors that it finds. -/
structure PopCall (fmt : HandJointFormat) (K : Type) [Field K] [LinearOrder K] where
  hmdTimeNano : ℕ
  outlist : Option (OutList fmt K)
  predictor : Fin 2 → KFPredictor K
  outHandArray : Fin 2 → HandData K

/-- The filters after a call that feeds the given points, and what they return. -/
def HandSideFilters.feed (side : HandSideFilters fmt K) :
    Option (Fin fmt.keypointNum → Vec3 K) →
      HandSideFilters fmt K × Option (Fin fmt.keypointNum → Vec3 K)
  | some points => ((side.process points).1, some (side.process points).2)
  | none => (side, none)

theorem HandSideFilters.Agree.feed {side side' : HandSideFilters fmt K} (h : side.Agree side')
    (points : Option (Fin fmt.keypointNum → Vec3 K)) :
    (side.feed points).1.Agree (side'.feed points).1 ∧
      (side.feed points).2 = (side'.feed points).2 := by
  cases points with
  | none => exact ⟨h, rfl⟩
  | some points =>
    obtain ⟨hside, hpoints⟩ := h.process points
    exact ⟨hside, congrArg some hpoints⟩

namespace PopCall

/-- The state in which the loop comes to a hand. -/
def reached (X : Externals K) (c : PopCall fmt K) (outlist : OutList fmt K)
    (filters : HandFilters fmt K) : Fin 2 → PopState fmt K
  | 0 => PopInput.start c.hmdTimeNano ⟨outlist, c.predictor, filters⟩ c.outHandArray
  | 1 => PopInput.between X c.hmdTimeNano ⟨outlist, c.predictor, filters⟩ c.outHandArray

/-- A call of `PopResult`, of which the filtered points of one hand are seen. -/
def run (X : Externals K) (i : Fin 2) (filters : HandFilters fmt K) (c : PopCall fmt K) :
    HandFilters fmt K × Option (Fin fmt.keypointNum → Vec3 K) :=
  ((popResult X c.hmdTimeNano c.outlist c.predictor filters c.outHandArray).2.2.postFilter,
    c.outlist.bind fun outlist => filtered X outlist i (c.reached X outlist filters i))

/-- What is fed to the filters of a hand. -/
def points (X : Externals K) (i : Fin 2) (c : PopCall fmt K) (filters : HandFilters fmt K) :
    Option (Fin fmt.keypointNum → Vec3 K) :=
  c.outlist.bind fun outlist => fed X outlist i (c.reached X outlist filters i)

/-- `query_time` when the loop comes to a hand. -/
def queryTime (c : PopCall fmt K) (outlist : OutList fmt K) : Fin 2 → K
  | 0 => queryTimeOf c.hmdTimeNano
  | 1 =>
    if Predicts outlist c.predictor 0 (queryTimeOf c.hmdTimeNano) ∧
        (outlist.handDataPacket.value.hand 0).source = .mono then
      shortened .mono outlist.latestTimestamp (queryTimeOf c.hmdTimeNano)
    else queryTimeOf c.hmdTimeNano

/-- The hand is predicted, and filtered. -/
def PredictsHand (i : Fin 2) (c : PopCall fmt K) : Prop :=
  ∃ outlist, c.outlist = some outlist ∧ Predicts outlist c.predictor i (c.queryTime outlist i)

/-- The hand is lost: it is not valid in the packet, or its predictor is not tracked. -/
def Loses (i : Fin 2) (c : PopCall fmt K) : Prop :=
  ∃ outlist, c.outlist = some outlist ∧ trackedInternal outlist c.predictor i = false

variable {X : Externals K} {c : PopCall fmt K} {outlist : OutList fmt K} {i : Fin 2}
  {filters filters' : HandFilters fmt K}

theorem predictor_reached : (c.reached X outlist filters i).predictor i = c.predictor i :=
  match i with
  | 0 => rfl
  | 1 => (PopInput.between_same X c.hmdTimeNano ⟨outlist, c.predictor, filters⟩
      c.outHandArray).predictor

theorem postFilter_reached : (c.reached X outlist filters i).postFilter i = filters i :=
  match i with
  | 0 => rfl
  | 1 => (PopInput.between_same X c.hmdTimeNano ⟨outlist, c.predictor, filters⟩
      c.outHandArray).postFilter

theorem queryTime_reached :
    (c.reached X outlist filters i).queryTime = c.queryTime outlist i :=
  match i with
  | 0 => rfl
  | 1 => PopInput.queryTime_between X c.hmdTimeNano ⟨outlist, c.predictor, filters⟩
      c.outHandArray

/-- The points do not depend on the filters. -/
theorem points_congr (X : Externals K) (i : Fin 2) (c : PopCall fmt K)
    (filters filters' : HandFilters fmt K) : c.points X i filters = c.points X i filters' := by
  have hfed : ∀ outlist, fed X outlist i (c.reached X outlist filters i) =
      fed X outlist i (c.reached X outlist filters' i) := by
    intro outlist
    refine fed_congr ?_ ?_
    · rw [predictor_reached, predictor_reached]
    · rw [queryTime_reached, queryTime_reached]
  rw [points, points, funext hfed]

theorem isSome_points : (c.points X i filters).isSome ↔ c.PredictsHand i := by
  rw [points, PredictsHand]
  cases c.outlist with
  | none => exact iff_of_false Bool.false_ne_true fun ⟨_, h, _⟩ => nomatch h
  | some outlist =>
    have hiff : Predicts outlist (c.reached X outlist filters i).predictor i
        (c.reached X outlist filters i).queryTime ↔
        Predicts outlist c.predictor i (c.queryTime outlist i) := by
      rw [queryTime_reached, Predicts, Predicts, trackedInternal, trackedInternal,
        predictor_reached]
    rw [Option.bind_some, fed]
    by_cases h : Predicts outlist c.predictor i (c.queryTime outlist i)
    · rw [if_pos (hiff.mpr h)]
      exact iff_of_true rfl ⟨outlist, rfl, h⟩
    · rw [if_neg (mt hiff.mp h)]
      refine iff_of_false Bool.false_ne_true ?_
      rintro ⟨_, hsome, hp⟩
      cases hsome
      exact h hp

/-- **A call feeds the filters of a hand, and does nothing else to them.** -/
theorem run_eq (X : Externals K) (i : Fin 2) (filters : HandFilters fmt K) (c : PopCall fmt K) :
    ((c.run X i filters).1 i, (c.run X i filters).2) =
      (filters i).feed (c.points X i filters) := by
  obtain ⟨hmdTimeNano, outlist, predictor, out⟩ := c
  cases outlist with
  | none => rfl
  | some outlist =>
    let c : PopCall fmt K := ⟨hmdTimeNano, some outlist, predictor, out⟩
    have hpop : (c.run X i filters).1 i =
        (popHand X outlist i (c.reached X outlist filters i)).postFilter i :=
      match i with
      | 0 => (popHand_other (by decide)).postFilter
      | 1 => rfl
    have hseen : (c.run X i filters).2 =
        filtered X outlist i (c.reached X outlist filters i) := rfl
    have hpoints : c.points X i filters = fed X outlist i (c.reached X outlist filters i) := rfl
    show ((c.run X i filters).1 i, (c.run X i filters).2) = (filters i).feed _
    rw [hpop, hseen, postFilter_popHand, filtered_eq, postFilter_reached]
    cases hfed : fed X outlist i (c.reached X outlist filters i) with
    | none => rw [show c.points X i filters = none from hfed]; rfl
    | some points => rw [show c.points X i filters = some points from hfed]; rfl

theorem agree_run (h : (filters i).Agree (filters' i)) (c : PopCall fmt K) :
    (c.run X i filters).2 = (c.run X i filters').2 ∧
      ((c.run X i filters).1 i).Agree ((c.run X i filters').1 i) := by
  have hrun := Prod.mk.inj (run_eq X i filters c)
  have hrun' := Prod.mk.inj (run_eq X i filters' c)
  obtain ⟨hside, hpoints⟩ := h.feed (c.points X i filters)
  rw [hrun.1, hrun.2, hrun'.1, hrun'.2, points_congr X i c filters' filters]
  exact ⟨hpoints, hside⟩

/-! ### Filters that were used -/

/-- Every filter was used. -/
def Used (side : HandSideFilters fmt K) : Prop :=
  ∀ k (hroot : k ≠ kKeypointRootId) d, (side.filterOf k hroot d).x.initialized = true

theorem used_process (side : HandSideFilters fmt K) (points : Fin fmt.keypointNum → Vec3 K) :
    Used (side.process points).1 := by
  intro k hroot d
  rw [HandSideFilters.filterOf_process]
  exact OneEuroFilter.initialized_filter _ _

theorem used_run (h : c.PredictsHand i ∨ Used (filters i)) : Used ((c.run X i filters).1 i) := by
  have hrun := Prod.mk.inj (run_eq X i filters c)
  rw [hrun.1]
  cases hpoints : c.points X i filters with
  | none =>
    have hiff : (c.points X i filters).isSome ↔ c.PredictsHand i := isSome_points
    have hnot : ¬ c.PredictsHand i := by
      rw [← hiff, hpoints]
      exact Bool.false_ne_true
    exact h.resolve_left hnot
  | some points => exact used_process _ _

theorem postFilter_run (h : ¬ c.PredictsHand i) : (c.run X i filters).1 i = filters i := by
  have hnone : c.points X i filters = none := by
    rw [← Option.not_isSome_iff_eq_none]
    exact mt isSome_points.mp h
  have hrun := Prod.mk.inj (run_eq X i filters c)
  rw [hrun.1, hnone]

/-- The filters before the call return what is seen of it. -/
theorem filtered_run {points : Fin fmt.keypointNum → Vec3 K}
    (h : c.points X i filters' = some points) :
    (c.run X i filters).2 = some ((filters i).process points).2 := by
  have hrun := Prod.mk.inj (run_eq X i filters c)
  rw [hrun.2, points_congr X i c filters filters', h]

theorem not_predictsHand_of_loses (h : c.Loses i) : ¬ c.PredictsHand i := by
  rintro ⟨outlist, hsome, hpredicts⟩
  obtain ⟨outlist', hsome', htracked⟩ := h
  obtain rfl := Option.some.inj (hsome.symm.trans hsome')
  exact Bool.false_ne_true (htracked.symm.trans hpredicts.1)

/-! ### Histories -/

variable {a b : List (PopCall fmt K)}

theorem used_after (h : (∃ c ∈ a, c.PredictsHand i) ∨ Used (filters i)) :
    Used (after (run X i) filters a i) :=
  after_of_mem (P := fun filters : HandFilters fmt K => Used (filters i)) (p := PredictsHand i)
    (fun _ _ h => used_run h) h

theorem postFilter_after (h : ∀ c ∈ a, ¬ c.PredictsHand i) :
    after (run X i) filters a i = filters i :=
  view_after_eq (fun filters : HandFilters fmt K => filters i) (P := PredictsHand i)
    (fun _ _ h => postFilter_run h) h

variable [IsStrictOrderedRing K] {glassesType : GlassesType}

/-- The filters come from those that `init` makes. -/
structure Made (glassesType : GlassesType) (side : HandSideFilters fmt K) : Prop where
  params : ∀ k (hroot : k ≠ kKeypointRootId) d, (side.filterOf k hroot d).params =
    ((HandFilters.init glassesType 0).filterOf k hroot d).params
  inStep : ∀ k (hroot : k ≠ kKeypointRootId) d, (side.filterOf k hroot d).InStep

/-- No filter of `init` was used. -/
theorem filterOf_init {k : Fin fmt.keypointNum} (hroot : k ≠ kKeypointRootId) (d : Fin 3) :
    ((HandFilters.init glassesType i : HandSideFilters fmt K).filterOf k hroot d).InStep ∧
      ((HandFilters.init glassesType i : HandSideFilters fmt K).filterOf k hroot
        d).x.initialized = false := by
  rw [HandSideFilters.filterOf]
  split_ifs
  · exact ⟨rfl, rfl⟩
  · exact ⟨rfl, rfl⟩
  · exact ⟨rfl, rfl⟩

theorem made_init : Made glassesType (HandFilters.init glassesType i : HandSideFilters fmt K) where
  params _ _ _ := rfl
  inStep _ hroot d := (filterOf_init hroot d).1

theorem made_run (h : Made glassesType (filters i)) :
    Made glassesType ((c.run X i filters).1 i) := by
  have hrun := Prod.mk.inj (run_eq X i filters c)
  rw [hrun.1]
  cases c.points X i filters with
  | none => exact h
  | some points =>
    constructor
    · intro k hroot d
      show (((filters i).process points).1.filterOf k hroot d).params = _
      rw [HandSideFilters.filterOf_process, ← h.params k hroot d]
      rfl
    · intro k hroot d
      show (((filters i).process points).1.filterOf k hroot d).InStep
      rw [HandSideFilters.filterOf_process]
      exact OneEuroFilter.inStep_filter _ _

theorem made_after (X : Externals K) (a : List (PopCall fmt K)) :
    Made glassesType (after (run X i) (.init glassesType) a i) :=
  after_of_mem (P := fun filters : HandFilters fmt K => Made glassesType (filters i))
    (p := fun _ => False) (fun _ _ h => made_run (h.resolve_left id)) (.inr made_init)

/-- From a packet on in which the hand is lost, both histories give the same points. -/
def Restarts (X : Externals K) (glassesType : GlassesType) (i : Fin 2)
    (a b : List (PopCall fmt K)) : Prop :=
  ∀ c later, c.Loses i →
    outputs (run X i) (after (run X i) (.init glassesType) a) (c :: later) =
      outputs (run X i) (after (run X i) (.init glassesType) b) (c :: later)

theorem restarts_of_agree
    (h : (after (run X i) (.init glassesType) a i).Agree
      (after (run X i) (.init glassesType) b i)) : Restarts X glassesType i a b :=
  fun c later _ => outputs_eq_of_rel
    (R := fun filters filters' : HandFilters fmt K => (filters i).Agree (filters' i))
    (fun _ _ c h => agree_run h c) h (c :: later)

/-- A call for a hand with its fingers at a distance from the root. -/
def probe (i : Fin 2) (valid : Bool) (distance : K) : PopCall fmt K where
  hmdTimeNano := 1000000000
  outlist := some
    { rawTimestamp := 0
      handDataPacket :=
        { timestamp := 0
          value :=
            { hand := fun _ =>
                { kpt3d := fun k _ => if k = kKeypointRootId then 0 else distance
                  rotation := fun _ => 1
                  gesture := .openHand
                  source := .bino }
              valid := fun j => decide (j = i) && valid } } }
  predictor _ := ⟨Filter.init.startTracking 0 ⟨0, 0⟩, .init 1 (KFPredictor.centerParams .flora)⟩
  outHandArray _ := .zero

variable {valid : Bool} {distance : K}

theorem queryTime_probe (outlist : OutList fmt K)
    (hsource : (outlist.handDataPacket.value.hand 0).source = .bino) :
    (probe i valid distance : PopCall fmt K).queryTime outlist i = 1 := by
  have hone : (queryTimeOf 1000000000 : K) = 1 := by norm_num [queryTimeOf]
  fin_cases i
  · exact hone
  · show (probe 1 valid distance : PopCall fmt K).queryTime outlist 1 = 1
    rw [queryTime, if_neg]
    · exact hone
    · rw [hsource]
      exact fun h => CamType.noConfusion h.2

theorem loses_probe : (probe i false distance : PopCall fmt K).Loses i :=
  ⟨_, rfl, by simp [trackedInternal]⟩

theorem predictsHand_probe : (probe i true distance : PopCall fmt K).PredictsHand i := by
  let c : PopCall fmt K := probe i true distance
  have htracked : (c.predictor i).filter.isTracked = true := rfl
  refine ⟨_, rfl, ?_, ?_⟩
  · show (decide (i = i) && true && (c.predictor i).filter.isTracked) = true
    rw [htracked, decide_eq_true rfl]
    rfl
  · rw [queryTime_probe _ rfl]
    exact one_ne_zero

omit [IsStrictOrderedRing K] in
/-- The prediction moves all points with the root. -/
theorem points_sub_root {points : Fin fmt.keypointNum → Vec3 K}
    (hpoints : c.points X i filters = some points) (houtlist : c.outlist = some outlist)
    (k : Fin fmt.keypointNum) : points k - points kKeypointRootId =
      (outlist.handDataPacket.value.hand i).kpt3d k -
        (outlist.handDataPacket.value.hand i).kpt3d kKeypointRootId := by
  rw [PopCall.points, houtlist, Option.bind_some, fed] at hpoints
  split at hpoints
  · obtain rfl := Option.some.inj hpoints
    show _ + _ - _ - (_ + _ - _) = _
    abel
  · exact nomatch hpoints

/-- **Nothing else restarts**: two packets show where the filters do not agree. -/
theorem agree_of_restarts (h : Restarts X glassesType i a b) :
    (after (run X i) (.init glassesType) a i).Agree
      (after (run X i) (.init glassesType) b i) := by
  let fa : HandFilters fmt K := after (run X i) (.init glassesType) a
  let fb : HandFilters fmt K := after (run X i) (.init glassesType) b
  have ha : Made glassesType (fa i) := made_after X a
  have hb : Made glassesType (fb i) := made_after X b
  intro k hroot d
  have hparams : ((fa i).filterOf k hroot d).params = ((fb i).filterOf k hroot d).params :=
    (ha.params k hroot d).trans (hb.params k hroot d).symm
  refine (OneEuroFilter.agree_iff_filter_eq hparams (ha.inStep k hroot d)
    (hb.inStep k hroot d)).mpr fun value => ?_
  -- the hand is lost, and comes back with its joints at the value
  let c : PopCall fmt K := probe i true value
  have houtputs := h (probe i false 0) [c] loses_probe
  have hlost : ¬ (probe i false 0 : PopCall fmt K).PredictsHand i :=
    not_predictsHand_of_loses loses_probe
  have hsome : (c.points X i fa).isSome := isSome_points.mpr predictsHand_probe
  obtain ⟨points, hpoints⟩ := Option.isSome_iff_exists.mp hsome
  have hdistance : (points k - points kKeypointRootId) d = value := by
    rw [points_sub_root hpoints rfl]
    show (if k = kKeypointRootId then 0 else value) - (if _ then 0 else value) = value
    rw [if_pos rfl, if_neg hroot, sub_zero]
  have hsecond : (c.run X i ((probe i false 0).run X i fa).1).2 =
      (c.run X i ((probe i false 0).run X i fb).1).2 :=
    (List.cons.inj (List.cons.inj houtputs).2).1
  rw [filtered_run hpoints, filtered_run hpoints, postFilter_run hlost,
    postFilter_run hlost] at hsecond
  have hjoint := congrFun (congrFun (Option.some.inj hsecond) k) d
  rw [HandSideFilters.process_apply _ _ hroot, HandSideFilters.process_apply _ _ hroot,
    hdistance] at hjoint
  exact add_left_cancel hjoint

/-- Against a history that never predicted the hand, every prediction is still there. -/
theorem restarts_iff_of_neverPredicted (hb : ∀ c ∈ b, ¬ c.PredictsHand i) :
    Restarts X glassesType i a b ↔ ∀ c ∈ a, ¬ c.PredictsHand i := by
  constructor
  · intro h
    by_contra hpredicted
    push Not at hpredicted
    let fa : HandFilters fmt K := after (run X i) (.init glassesType) a
    -- any joint shows it; this one is in the middle of the index finger
    have hroot : (8 : Fin fmt.keypointNum) ≠ kKeypointRootId := by cases fmt <;> decide
    have hused : Used (fa i) := used_after (.inl hpredicted)
    have hagree := agree_of_restarts h 8 hroot 0
    have hfirst := hagree.initialized
    rw [postFilter_after hb, (filterOf_init hroot 0).2, hused 8 hroot 0] at hfirst
    exact Bool.noConfusion hfirst
  · intro ha
    refine restarts_of_agree ?_
    rw [postFilter_after ha, postFilter_after hb]
    exact .refl _

/-- **When the post filter restarts.**  From a packet on in which the hand is lost, two histories
give the same points exactly if no points tell the filters apart that they left; and where one of
them never predicted the hand, exactly if the other did not either. -/
theorem post_filter_restarts (X : Externals K) (glassesType : GlassesType) (i : Fin 2)
    (a b : List (PopCall fmt K)) :
    (Restarts X glassesType i a b ↔ (after (run X i) (.init glassesType) a i).Agree
      (after (run X i) (.init glassesType) b i)) ∧
    ((∀ c ∈ b, ¬ c.PredictsHand i) →
      (Restarts X glassesType i a b ↔ ∀ c ∈ a, ¬ c.PredictsHand i)) :=
  ⟨⟨agree_of_restarts, restarts_of_agree⟩, restarts_iff_of_neverPredicted⟩

end PopCall

/-! ### A left hand that was predicted once -/

/-- The hand was predicted once, in the one history between two packets in which it is lost: what
comes is filtered alike then, and not as if the hand had never been predicted. -/
theorem post_filter_restarts_left :
    let seen : PopCall .xreal ℚ := PopCall.probe 0 true 0
    let lost : PopCall .xreal ℚ := PopCall.probe 0 false 0
    PopCall.Restarts stillExternals .flora 0 [seen] [lost, seen, lost] ∧
      ¬ PopCall.Restarts stillExternals .flora 0 [seen] [lost] := by
  intro seen lost
  have hlost : ¬ lost.PredictsHand 0 := PopCall.not_predictsHand_of_loses PopCall.loses_probe
  constructor
  · refine (PopCall.post_filter_restarts stillExternals .flora 0 _ _).1.mpr ?_
    let start : HandFilters .xreal ℚ := .init .flora
    have hfirst : (start 0).Agree ((lost.run stillExternals 0 start).1 0) := by
      rw [PopCall.postFilter_run hlost]
      exact .refl _
    show ((seen.run stillExternals 0 start).1 0).Agree ((lost.run stillExternals 0
      (seen.run stillExternals 0 (lost.run stillExternals 0 start).1).1).1 0)
    rw [PopCall.postFilter_run hlost]
    exact (PopCall.agree_run hfirst seen).2
  · rw [(PopCall.post_filter_restarts stillExternals .flora 0 [seen] [lost]).2 fun c hc =>
      List.mem_singleton.mp hc ▸ hlost]
    exact fun hnever => hnever _ List.mem_cons_self PopCall.predictsHand_probe

theorem left_hand_not_forgotten : ¬ ∀ (i : Fin 2) (a b : List (PopCall .xreal ℚ)),
    PopCall.Restarts stillExternals .flora i a b := by
  intro h
  have hnever := (PopCall.restarts_iff_of_neverPredicted fun _ hc => absurd hc List.not_mem_nil).mp
    (h 0 [PopCall.probe 0 true 0] [])
  exact hnever _ List.mem_cons_self PopCall.predictsHand_probe

end HandPose

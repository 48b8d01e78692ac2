/-
Keypoints between the left camera and the world.

Both directions go through the head: the steps between camera and head are entries of the
coordinate service, the last one is the pose of the head.

* `calLcamKpt3dCvToWorld`, `recalLcamKpt3dCvWithNewHeadpose` — the two directions;
* `ServiceCall`, `runCalls` — what the service is set by;
* `Reciprocal` — two entries that undo each other, and `runCalls_reciprocal`: a pair that was set
  stays so, whatever is set or derived later;
* `world_round_trip` — back in the camera the points are where they were.
-/
import HandTracking.StereoExtrinsics

namespace Calibration

open Camera Calculator Coord Matrix

/-! ### The two directions -/

section Transfer

variable {K : Type} [Field K] (service : GlobalCoordService K)

/-- `GlobalCoordService::transform` -/
def transform (frm dst : XrealCoordSystem) (points : List (Vec3 K)) : List (Vec3 K) :=
  points.map (service.getTransform frm.index dst.index).apply

/-- `TransferCVToGL` -/
def transferCVToGL (point3dSrc : List (Vec3 K)) : List (Vec3 K) :=
  transform service .cvLeftCam .glLeftCam point3dSrc

/-- `TransferLeftCamToHead` -/
def transferLeftCamToHead (point3dSrc : List (Vec3 K)) : List (Vec3 K) :=
  transform service .glLeftCam .glHead point3dSrc

/-- `TransferGLtoCV` -/
def transferGLtoCV (point3dSrc : List (Vec3 K)) : List (Vec3 K) :=
  transform service .glLeftCam .cvLeftCam point3dSrc

/-- `TransferHeadToLeftCam` -/
def transferHeadToLeftCam (point3dSrc : List (Vec3 K)) : List (Vec3 K) :=
  transform service .glHead .glLeftCam point3dSrc

/-- `glW_T_glH` -/
def glWTglH (extrinsicTransHeadWorld : NRTransform K) : Isometry3 K :=
  ((1 : Isometry3 K).rotate extrinsicTransHeadWorld.rotation.toRotationMatrix).pretranslate
    extrinsicTransHeadWorld.position

/-- `TransferHeadToWorld`, with the pose of the head. -/
def transferHeadToWorld (extrinsicTransHeadWorld : NRTransform K) (point3dSrc : List (Vec3 K)) :
    List (Vec3 K) :=
  point3dSrc.map (glWTglH extrinsicTransHeadWorld).apply

/-- `TransferWorldToHead`, with the pose of the head. -/
def transferWorldToHead (extrinsicTransHeadWorld : NRTransform K) (point3dSrc : List (Vec3 K)) :
    List (Vec3 K) :=
  let glHTglW := (glWTglH extrinsicTransHeadWorld).inverse
  point3dSrc.map glHTglW.apply

/-- `cal_lcam_kpt3d_cv_to_world`: over the head to the world. -/
def calLcamKpt3dCvToWorld (extrinsicWorld : NRTransform K) (points3dSrc : List (Vec3 K)) :
    List (Vec3 K) :=
  let pointCam := transferCVToGL service points3dSrc
  let pointHd := transferLeftCamToHead service pointCam
  transferHeadToWorld extrinsicWorld pointHd

/-- `recal_lcam_kpt3d_cv_with_new_headpose`: from the world over the head. -/
def recalLcamKpt3dCvWithNewHeadpose (extrinsicWorld : NRTransform K)
    (points3dSrc : List (Vec3 K)) : List (Vec3 K) :=
  let pointHd := transferWorldToHead extrinsicWorld points3dSrc
  let pointCam := transferHeadToLeftCam service pointHd
  transferGLtoCV service pointCam

/-- `transfer_from_cvL_to_world` of `ConvertToWorldCalculator`. -/
def transferFromCvLToWorld (headpose : NRTransform K) (pointsLcamCv : List (Vec3 K)) :
    List (Vec3 K) :=
  let pointsLcamGl := transferCVToGL service pointsLcamCv
  let pointsHead := transferLeftCamToHead service pointsLcamGl
  transferHeadToWorld headpose pointsHead

end Transfer

/-! ### Pairs of entries that undo each other -/

section Reciprocal

variable {M : Type} [Monoid M] {N : ℕ}

/-- Both entries between two systems are set, and each undoes the other. -/
structure Reciprocal (s : CoordTransformService N M) (i j : Fin N) : Prop where
  there_set : s.transformSet (i, j)
  back_set : s.transformSet (j, i)
  back_there : s.transforms (j, i) * s.transforms (i, j) = 1
  there_back : s.transforms (i, j) * s.transforms (j, i) = 1

variable {s s' : CoordTransformService N M} {i j : Fin N}

theorem Reciprocal.symm (h : Reciprocal s i j) : Reciprocal s j i :=
  ⟨h.back_set, h.there_set, h.there_back, h.back_there⟩

theorem Reciprocal.of_keeps (h : Reciprocal s i j) (hkeeps : s.Keeps s') : Reciprocal s' i j := by
  obtain ⟨hset, hthere⟩ := hkeeps _ h.there_set
  obtain ⟨hset', hback⟩ := hkeeps _ h.back_set
  refine ⟨hset, hset', ?_, ?_⟩
  · rw [hthere, hback, h.back_there]
  · rw [hthere, hback, h.there_back]

/-- A pair that is set with a transform and its inverse. -/
theorem reciprocal_setBoth (hne : i ≠ j) {t t' : M} (hback : t' * t = 1) (hthere : t * t' = 1) :
    Reciprocal (s.setBoth i j t t') i j := by
  have hpair : (i, j) ≠ (j, i) := fun heq => hne (Prod.mk.inj heq).1
  have ht : (s.setBoth i j t t').transforms (i, j) = t := by
    show Function.update (Function.update s.transforms (i, j) t) (j, i) t' (i, j) = t
    rw [Function.update_of_ne hpair, Function.update_self]
  have ht' : (s.setBoth i j t t').transforms (j, i) = t' := Function.update_self ..
  refine ⟨?_, Function.update_self .., ?_, ?_⟩
  · show Function.update (Function.update s.transformSet (i, j) true) (j, i) true (i, j) = true
    rw [Function.update_of_ne hpair, Function.update_self]
  · rw [ht, ht', hback]
  · rw [ht, ht', hthere]

/-- The pair of two systems, in either order. -/
def SamePair (i j frm dst : Fin N) : Prop := frm = i ∧ dst = j ∨ frm = j ∧ dst = i

/-- Another pair leaves the entries as they are. -/
theorem Reciprocal.setBoth_of_not_samePair (h : Reciprocal s i j) {frm dst : Fin N}
    (hpair : ¬ SamePair i j frm dst) (t t' : M) : Reciprocal (s.setBoth frm dst t t') i j := by
  have hentry : ∀ {β : Type} (f : Fin N × Fin N → β) (x x' : β) (e : Fin N × Fin N),
      e = (i, j) ∨ e = (j, i) →
        Function.update (Function.update f (frm, dst) x) (dst, frm) x' e = f e := by
    intro β f x x' e he
    have hne : e ≠ (dst, frm) := by
      rintro rfl
      rcases he with heq | heq
      · exact hpair (Or.inr ⟨(Prod.mk.inj heq).2, (Prod.mk.inj heq).1⟩)
      · exact hpair (Or.inl ⟨(Prod.mk.inj heq).2, (Prod.mk.inj heq).1⟩)
    have hne' : e ≠ (frm, dst) := by
      rintro rfl
      rcases he with heq | heq
      · exact hpair (Or.inl (Prod.mk.inj heq))
      · exact hpair (Or.inr (Prod.mk.inj heq))
    rw [Function.update_of_ne hne, Function.update_of_ne hne']
  have hthere := hentry s.transforms t t' (i, j) (Or.inl rfl)
  have hback := hentry s.transforms t t' (j, i) (Or.inr rfl)
  constructor
  · exact (hentry s.transformSet true true (i, j) (Or.inl rfl)).trans h.there_set
  · exact (hentry s.transformSet true true (j, i) (Or.inr rfl)).trans h.back_set
  · exact (congrArg₂ (· * ·) hback hthere).trans h.back_there
  · exact (congrArg₂ (· * ·) hthere hback).trans h.there_back

theorem reciprocal_of_samePair (hne : i ≠ j) {frm dst : Fin N} (hpair : SamePair i j frm dst)
    {t t' : M} (hback : t' * t = 1) (hthere : t * t' = 1) :
    Reciprocal (s.setBoth frm dst t t') i j := by
  rcases hpair with ⟨rfl, rfl⟩ | ⟨rfl, rfl⟩
  · exact reciprocal_setBoth hne hback hthere
  · exact (reciprocal_setBoth hne.symm hback hthere).symm

end Reciprocal

/-! ### The calls that set the service -/

section Calls

variable {K : Type} [Field K] [LinearOrder K]

/-- A call of a function of `GlobalCoordService`. -/
inductive ServiceCall (K : Type)
  | setRotation (frm dst : XrealCoordSystem) (rotation : Matrix3 K) (translation : Vec3 K)
  | setQuaternion (frm dst : XrealCoordSystem) (rotation : HandPose.Quat K) (translation : Vec3 K)
  | finalize

/-- One call, which may throw. -/
def ServiceCall.run (fns : RealFns K) (s : GlobalCoordService K) :
    ServiceCall K → Except String (GlobalCoordService K)
  | .setRotation frm dst rotation translation =>
    s.setRotation frm.index dst.index rotation translation
  | .setQuaternion frm dst rotation translation =>
    s.setQuaternion frm.index dst.index fns rotation translation
  | .finalize => s.finalize

/-- The calls one after another, up to the first one that throws. -/
def runCalls (fns : RealFns K) (s : GlobalCoordService K) (calls : List (ServiceCall K)) :
    Except String (GlobalCoordService K) :=
  calls.foldlM (ServiceCall.run fns) s

/-- The rotation is exact, where the service tolerates a small error. -/
def ServiceCall.Exact : ServiceCall K → Prop
  | .setRotation _ _ rotation _ => rotationᵀ * rotation = 1
  | .setQuaternion _ _ rotation _ => rotation.squaredNorm = 1
  | .finalize => True

/-- What a call sets: the two systems and the transform. -/
def ServiceCall.sets : ServiceCall K → Option (Fin 5 × Fin 5 × Isometry3 K)
  | .setRotation frm dst rotation translation =>
    some (frm.index, dst.index, rigidTransform rotation translation)
  | .setQuaternion frm dst rotation translation =>
    some (frm.index, dst.index, rigidTransform rotation.toRotationMatrix translation)
  | .finalize => none

variable {fns : RealFns K} {s s' : GlobalCoordService K} {c : ServiceCall K}

/-- A call that returns has set a rigid transform and its inverse, or derived entries. -/
theorem ServiceCall.run_ok (hexact : c.Exact) (h : c.run fns s = .ok s') :
    (∃ frm dst T, c.sets = some (frm, dst, T) ∧ T.IsRigid ∧ s' = s.setBoth frm dst T T.inverse) ∨
      c = .finalize ∧ s.finalize = .ok s' := by
  cases c with
  | setRotation frm dst rotation translation =>
    rw [run, CoordTransformService.setRotation] at h
    split_ifs at h
    exact Or.inl ⟨_, _, _, rfl, rigidTransform_isRigid hexact translation,
      (Except.ok.inj h).symm⟩
  | setQuaternion frm dst rotation translation =>
    rw [run, CoordTransformService.setQuaternion] at h
    split_ifs at h
    exact Or.inl ⟨_, _, _, rfl,
      rigidTransform_isRigid (toRotationMatrix_orthogonal hexact) translation,
      (Except.ok.inj h).symm⟩
  | finalize => exact Or.inr ⟨rfl, h⟩

/-- A pair stays reciprocal under every call. -/
theorem Reciprocal.run {i j : Fin 5} (hs : Reciprocal s i j) (hne : i ≠ j) (hexact : c.Exact)
    (h : c.run fns s = .ok s') : Reciprocal s' i j := by
  rcases ServiceCall.run_ok hexact h with ⟨frm, dst, T, -, hT, rfl⟩ | ⟨-, hfinalize⟩
  · by_cases hpair : SamePair i j frm dst
    · exact reciprocal_of_samePair hne hpair hT.inverse_mul_cancel hT.mul_inverse_cancel
    · exact hs.setBoth_of_not_samePair hpair T T.inverse
  · exact hs.of_keeps (CoordTransformService.finalize_keeps hfinalize)

/-- A call sets the pair of two systems. -/
def SetsPair (calls : List (ServiceCall K)) (i j : Fin 5) : Prop :=
  ∃ c ∈ calls, ∃ frm dst T, c.sets = some (frm, dst, T) ∧ SamePair i j frm dst

theorem runCalls_cons {calls : List (ServiceCall K)} (h : runCalls fns s (c :: calls) = .ok s') :
    ∃ s₁, c.run fns s = .ok s₁ ∧ runCalls fns s₁ calls = .ok s' := by
  rw [runCalls, List.foldlM_cons] at h
  cases hrun : c.run fns s with
  | error message =>
    rw [hrun] at h
    cases h
  | ok s₁ =>
    rw [hrun] at h
    exact ⟨s₁, rfl, h⟩

/-- After the calls a pair that one of them sets is reciprocal, and so is one that was so. -/
theorem runCalls_reciprocal {calls : List (ServiceCall K)} {i j : Fin 5} (hne : i ≠ j)
    (hexact : ∀ c ∈ calls, c.Exact) (h : runCalls fns s calls = .ok s')
    (hs : Reciprocal s i j ∨ SetsPair calls i j) : Reciprocal s' i j := by
  induction calls generalizing s with
  | nil =>
    obtain rfl := Except.ok.inj h
    rcases hs with hs | ⟨c, hc, -⟩
    · exact hs
    · exact absurd hc List.not_mem_nil
  | cons c calls ih =>
    obtain ⟨s₁, hrun, hrest⟩ := runCalls_cons h
    have hc := hexact c List.mem_cons_self
    refine ih (fun c' hc' => hexact c' (List.mem_cons_of_mem c hc')) hrest ?_
    rcases hs with hs | ⟨c', hc', frm, dst, T, hsets, hpair⟩
    · exact Or.inl (hs.run hne hc hrun)
    · rcases List.mem_cons.mp hc' with rfl | hmem
      · -- the call itself sets the pair
        rcases ServiceCall.run_ok hc hrun with ⟨frm', dst', T', hsets', hT, rfl⟩ | ⟨rfl, -⟩
        · obtain ⟨rfl, rfl, rfl⟩ : frm = frm' ∧ dst = dst' ∧ T = T' := by
            simpa using hsets.symm.trans hsets'
          exact Or.inl (reciprocal_of_samePair hne hpair hT.inverse_mul_cancel
            hT.mul_inverse_cancel)
        · cases hsets
      · exact Or.inr ⟨c', hmem, frm, dst, T, hsets, hpair⟩

/-! ### Calls that fit to one pose for each system -/

/-- The transform that a call sets is the change between two of the frames. -/
def ServiceCall.Fits (P : Fin 5 → (Isometry3 K)ˣ) (c : ServiceCall K) : Prop :=
  ∀ frm dst T, c.sets = some (frm, dst, T) → T = Frames.change P frm dst

variable {P : Fin 5 → (Isometry3 K)ˣ}

theorem consistent_run (hs : Consistent P s) (hexact : c.Exact) (hfits : c.Fits P)
    (h : c.run fns s = .ok s') : Consistent P s' := by
  rcases ServiceCall.run_ok hexact h with ⟨frm, dst, T, hsets, hT, rfl⟩ | ⟨-, hfinalize⟩
  · have hthere := hfits frm dst T hsets
    have hback : T.inverse = Frames.change P dst frm := by
      have hchange := Frames.mul_change_eq_one P dst frm
      rw [← hthere] at hchange
      exact left_inv_eq_right_inv hT.inverse_mul_cancel hchange
    exact (hs.setTransformInternal hthere).setTransformInternal hback
  · exact (CoordTransformService.finalize_ok (fun _ _ _ _ hs hi hdst => hs.derive hi hdst) hs
      hfinalize).1

theorem runCalls_consistent {calls : List (ServiceCall K)} (hexact : ∀ c ∈ calls, c.Exact)
    (hfits : ∀ c ∈ calls, c.Fits P) (h : runCalls fns s calls = .ok s') (hs : Consistent P s) :
    Consistent P s' := by
  induction calls generalizing s with
  | nil =>
    obtain rfl := Except.ok.inj h
    exact hs
  | cons c calls ih =>
    obtain ⟨s₁, hrun, hrest⟩ := runCalls_cons h
    have hc := consistent_run hs (hexact c List.mem_cons_self) (hfits c List.mem_cons_self) hrun
    exact ih (fun c' hc' => hexact c' (List.mem_cons_of_mem c hc'))
      (fun c' hc' => hfits c' (List.mem_cons_of_mem c hc')) hrest hc

/-- No call takes an entry away. -/
theorem run_grows (hexact : c.Exact) (h : c.run fns s = .ok s') {e : Fin 5 × Fin 5}
    (he : s.transformSet e) : s'.transformSet e := by
  rcases ServiceCall.run_ok hexact h with ⟨frm, dst, T, -, -, rfl⟩ | ⟨-, hfinalize⟩
  · show Function.update (Function.update s.transformSet (frm, dst) true) (dst, frm) true e = true
    rw [Function.update_apply, Function.update_apply, he, ite_self, ite_self]
  · exact (CoordTransformService.finalize_keeps hfinalize e he).1

/-- After a `finalize` all entries are set. -/
theorem runCalls_complete {calls : List (ServiceCall K)} {i j : Fin 5} (hne : i ≠ j)
    (hexact : ∀ c ∈ calls, c.Exact) (h : runCalls fns s calls = .ok s')
    (hset : .finalize ∈ calls ∨ s.transformSet (i, j)) : s'.transformSet (i, j) := by
  induction calls generalizing s with
  | nil =>
    obtain rfl := Except.ok.inj h
    exact hset.resolve_left List.not_mem_nil
  | cons c calls ih =>
    obtain ⟨s₁, hrun, hrest⟩ := runCalls_cons h
    have hc := hexact c List.mem_cons_self
    refine ih (fun c' hc' => hexact c' (List.mem_cons_of_mem c hc')) hrest ?_
    rcases hset with hmem | hset
    · rcases List.mem_cons.mp hmem with rfl | hmem
      · exact Or.inr ((CoordTransformService.finalize_ok (Q := fun _ => True)
          (fun _ _ _ _ _ _ _ => trivial) trivial hrun).2 i j hne)
      · exact Or.inl hmem
    · exact Or.inr (run_grows hc hrun hset)

omit [LinearOrder K] in
/-- On a consistent table all pairs are reciprocal. -/
theorem reciprocal_of_consistent {i j : Fin 5} (hs : Consistent P s) (hij : s.transformSet (i, j))
    (hji : s.transformSet (j, i)) : Reciprocal s i j := by
  refine ⟨hij, hji, ?_, ?_⟩
  · rw [hs i j hij, hs j i hji, Frames.mul_change_eq_one]
  · rw [hs i j hij, hs j i hji, Frames.mul_change_eq_one]

/-- The calls of a calibration: they end with all entries known, and either set the two pairs
between camera and head, as `SetGlobalCameraParams` does, or fit to one pose for each system. -/
structure Calibrates (calls : List (ServiceCall K)) : Prop where
  exact_rotations : ∀ c ∈ calls, c.Exact
  finalized : .finalize ∈ calls
  fits : (SetsPair calls XrealCoordSystem.cvLeftCam.index XrealCoordSystem.glLeftCam.index ∧
      SetsPair calls XrealCoordSystem.glLeftCam.index XrealCoordSystem.glHead.index) ∨
    ∃ P, ∀ c ∈ calls, c.Fits P

theorem Calibrates.reciprocal {calls : List (ServiceCall K)} (h : Calibrates calls)
    (hrun : runCalls fns .init calls = .ok s) :
    Reciprocal s XrealCoordSystem.cvLeftCam.index XrealCoordSystem.glLeftCam.index ∧
      Reciprocal s XrealCoordSystem.glLeftCam.index XrealCoordSystem.glHead.index := by
  rcases h.fits with ⟨hcv, hhead⟩ | ⟨P, hfits⟩
  · exact ⟨runCalls_reciprocal (by decide) h.exact_rotations hrun (Or.inr hcv),
      runCalls_reciprocal (by decide) h.exact_rotations hrun (Or.inr hhead)⟩
  · have hconsistent := runCalls_consistent h.exact_rotations hfits hrun consistent_init
    have hset : ∀ {i j : Fin 5}, i ≠ j → s.transformSet (i, j) := fun hne =>
      runCalls_complete hne h.exact_rotations hrun (Or.inl h.finalized)
    exact ⟨reciprocal_of_consistent hconsistent (hset (by decide)) (hset (by decide)),
      reciprocal_of_consistent hconsistent (hset (by decide)) (hset (by decide))⟩

end Calls

/-! ### The calls of the pipeline -/

section Pipeline

variable {K : Type} [Field K] [LinearOrder K] [FloorRing K]

/-- The calls of `SetGlobalCameraParams`. -/
def globalCameraCalls (unset : Matrix3 K) (camera : CameraParams K) : List (ServiceCall K) :=
  let glRcv := serviceGlRcv unset (truncate ((camera.params .generateMethod).getD 0 0))
  [.setRotation .cvLeftCam .glLeftCam glRcv 0,
    .setQuaternion .glRightCam .glLeftCam (camera.rotation .glLRglR) (camera.position .glLtglR),
    .setQuaternion .glLeftCam .glHead (camera.rotation .glHRglL) (camera.position .glHtglL),
    .setRotation .cvRightCam .glRightCam glRcv 0, .finalize]

theorem setGlobalCameraParams_eq_runCalls (fns : RealFns K) (unset : Matrix3 K)
    (camera : CameraParams K) (service : GlobalCoordService K) :
    setGlobalCameraParams fns unset camera service =
      runCalls fns service (globalCameraCalls unset camera) := by
  simp only [runCalls, globalCameraCalls, List.foldlM_cons, List.foldlM_nil, bind_pure]
  rfl

/-- Any number of initialisations, one after another on the one service. -/
theorem calibrates_pipeline (unset : Matrix3 K) {cameras : List (CameraParams K)}
    (hne : cameras ≠ []) (hunit : ∀ camera ∈ cameras, camera.UnitRotations)
    (hmethod : ∀ camera ∈ cameras, truncate ((camera.params .generateMethod).getD 0 0) = 1 ∨
      truncate ((camera.params .generateMethod).getD 0 0) = 2) :
    Calibrates (cameras.flatMap (globalCameraCalls unset)) := by
  obtain ⟨camera, cameras', rfl⟩ := List.exists_cons_of_ne_nil hne
  have hfirst : ∀ c ∈ globalCameraCalls unset camera,
      c ∈ (camera :: cameras').flatMap (globalCameraCalls unset) :=
    fun c hc => List.mem_flatMap.mpr ⟨camera, List.mem_cons_self, hc⟩
  constructor
  · intro c hc
    obtain ⟨camera', hcamera', hc⟩ := List.mem_flatMap.mp hc
    have hflip : (serviceGlRcv unset
        (truncate ((camera'.params .generateMethod).getD 0 0)))ᵀ * serviceGlRcv unset
          (truncate ((camera'.params .generateMethod).getD 0 0)) = 1 := by
      rw [serviceGlRcv_eq (hmethod camera' hcamera')]
      exact glRcv_orthogonal _
    simp only [globalCameraCalls, List.mem_cons, List.not_mem_nil, or_false] at hc
    rcases hc with rfl | rfl | rfl | rfl | rfl
    · exact hflip
    · exact (hunit camera' hcamera').glLRglR
    · exact (hunit camera' hcamera').glHRglL
    · exact hflip
    · trivial
  · exact hfirst _ (by simp [globalCameraCalls])
  · refine Or.inl ⟨?_, ?_⟩
    · exact ⟨_, hfirst _ (by simp only [globalCameraCalls]; exact List.mem_cons_self), _, _, _,
        rfl, Or.inl ⟨rfl, rfl⟩⟩
    · exact ⟨_, hfirst (.setQuaternion .glLeftCam .glHead (camera.rotation .glHRglL)
        (camera.position .glHtglL)) (by simp [globalCameraCalls]), _, _, _, rfl,
        Or.inl ⟨rfl, rfl⟩⟩

end Pipeline

/-! ### The round trip -/

section RoundTrip

variable {K : Type} [Field K]

/-- One map after another that it undoes. -/
theorem map_apply_map_apply {T S : Isometry3 K} (h : S * T = 1) (points : List (Vec3 K)) :
    (points.map T.apply).map S.apply = points := by
  have hundo : ∀ p, S.apply (T.apply p) = p := by
    intro p
    rw [Isometry3.apply_apply, h, Isometry3.one_apply]
  rw [List.map_map]
  calc points.map (S.apply ∘ T.apply) = points.map id := List.map_congr_left fun p _ => hundo p
    _ = points := List.map_id points

theorem transform_transform {service : GlobalCoordService K} {i j : XrealCoordSystem}
    (h : Reciprocal service i.index j.index) (points : List (Vec3 K)) :
    transform service j i (transform service i j points) = points :=
  map_apply_map_apply h.back_there points

theorem glWTglH_isRigid {headpose : NRTransform K} (h : headpose.rotation.squaredNorm = 1) :
    (glWTglH headpose).IsRigid :=
  rigidTransform_isRigid (toRotationMatrix_orthogonal h) headpose.position

theorem transferWorldToHead_transferHeadToWorld {headpose : NRTransform K}
    (h : headpose.rotation.squaredNorm = 1) (points : List (Vec3 K)) :
    transferWorldToHead headpose (transferHeadToWorld headpose points) = points :=
  map_apply_map_apply (glWTglH_isRigid h).inverse_mul_cancel points

/-- On a service whose two pairs between camera and head undo each other. -/
theorem recal_cal {service : GlobalCoordService K}
    (hcv : Reciprocal service XrealCoordSystem.cvLeftCam.index XrealCoordSystem.glLeftCam.index)
    (hhead : Reciprocal service XrealCoordSystem.glLeftCam.index XrealCoordSystem.glHead.index)
    {headpose : NRTransform K} (hunit : headpose.rotation.squaredNorm = 1)
    (points : List (Vec3 K)) :
    recalLcamKpt3dCvWithNewHeadpose service headpose
      (calLcamKpt3dCvToWorld service headpose points) = points := by
  -- from the inside out: world and head, head and camera, the two conventions of the camera
  calc recalLcamKpt3dCvWithNewHeadpose service headpose
        (calLcamKpt3dCvToWorld service headpose points)
      = transferGLtoCV service (transferHeadToLeftCam service
          (transferLeftCamToHead service (transferCVToGL service points))) := by
        rw [recalLcamKpt3dCvWithNewHeadpose, calLcamKpt3dCvToWorld,
          transferWorldToHead_transferHeadToWorld hunit]
    _ = transferGLtoCV service (transferCVToGL service points) :=
        congrArg (transferGLtoCV service) (transform_transform hhead _)
    _ = points := transform_transform hcv points

/-- The calculator and the function of `NR_Transfer` compute the same. -/
theorem transferFromCvLToWorld_eq (service : GlobalCoordService K) (headpose : NRTransform K)
    (points : List (Vec3 K)) :
    transferFromCvLToWorld service headpose points =
      calLcamKpt3dCvToWorld service headpose points := rfl

variable [LinearOrder K]

/-- World points that were computed with the pose of a head come back to where they were in the
left camera, for every calibration of the service. -/
theorem world_round_trip (fns : RealFns K) {calls : List (ServiceCall K)}
    (hcalls : Calibrates calls) {service : GlobalCoordService K}
    (hrun : runCalls fns .init calls = .ok service) {headpose : NRTransform K}
    (hunit : headpose.rotation.squaredNorm = 1) (points : List (Vec3 K)) :
    recalLcamKpt3dCvWithNewHeadpose service headpose
        (calLcamKpt3dCvToWorld service headpose points) = points ∧
      recalLcamKpt3dCvWithNewHeadpose service headpose
        (transferFromCvLToWorld service headpose points) = points := by
  obtain ⟨hcv, hhead⟩ := hcalls.reciprocal hrun
  rw [transferFromCvLToWorld_eq]
  exact ⟨recal_cal hcv hhead hunit points, recal_cal hcv hhead hunit points⟩

end RoundTrip

/-! ### Two parallel cameras -/

/-- A head that is turned by half a turn, one meter above the origin. -/
def turnedHead : NRTransform ℝ where
  rotation := ⟨0, 0, 1, 0⟩
  position := ![0, 1, 0]

theorem turnedHead_unit : turnedHead.rotation.squaredNorm = 1 := by
  simp [turnedHead, HandPose.Quat.squaredNorm]

theorem parallelCameras_method :
    truncate ((parallelCameras.params .generateMethod).getD 0 0) = 1 := by
  show truncate (1 : ℝ) = 1
  simpa using truncate_natCast (K := ℝ) 1

theorem exists_runCalls_parallelCameras : ∃ service,
    runCalls realFns .init ([parallelCameras].flatMap (globalCameraCalls 0)) = .ok service := by
  obtain ⟨service, hok, -⟩ := (configured_consistent parallelCameras_unitRotations
    (truncate ((parallelCameras.params .generateMethod).getD 0 0))).finalize
      (configured_connected parallelCameras _)
  refine ⟨service, ?_⟩
  rw [List.flatMap_singleton, ← setGlobalCameraParams_eq_runCalls,
    setGlobalCameraParams_eq parallelCameras_unitRotations realFns 0
      (Or.inl parallelCameras_method), hok]

theorem world_round_trip_parallel : ∃ service,
    runCalls realFns .init ([parallelCameras].flatMap (globalCameraCalls 0)) = .ok service ∧
      recalLcamKpt3dCvWithNewHeadpose service turnedHead
        (calLcamKpt3dCvToWorld service turnedHead [![0, 0, 1], ![1, 2, 3]]) =
          [![0, 0, 1], ![1, 2, 3]] := by
  obtain ⟨service, hrun⟩ := exists_runCalls_parallelCameras
  have hcalls := calibrates_pipeline (K := ℝ) 0 (List.cons_ne_nil parallelCameras [])
    (fun camera hcamera => List.mem_singleton.mp hcamera ▸ parallelCameras_unitRotations)
    (fun camera hcamera => List.mem_singleton.mp hcamera ▸ Or.inl parallelCameras_method)
  exact ⟨service, hrun, (world_round_trip realFns hcalls hrun turnedHead_unit _).1⟩

end Calibration

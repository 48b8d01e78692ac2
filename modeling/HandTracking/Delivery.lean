/-
Each frame is delivered to each group at most once, and only when it is complete.

* `Effect.pushed_cases` — only a callback inside `MoveOutputCache` pushes, and it
  leaves it by pushing;
* `Pushed` — the trace of the pushes against the table of the callbacks;
* `delivery` — the contract, for every run in which a stream delivers a timestamp at
  most once.
-/
import HandTracking.FrameInvariants

namespace XGraph

open Transition

variable {P : Type} {L : Layout} {s s' : RunningGraph P} {a : Action P} {es es' : List Event}

/-! ### Pushes -/

/-- The group and the frame of each push of a trace. -/
def pushes (es : List Event) : List (ℕ × ℕ) :=
  es.filterMap fun
    | .pushed _ g f => some (g, f)
    | _ => none

theorem mem_pushes {g f : ℕ} : (g, f) ∈ pushes es ↔ ∃ i, .pushed i g f ∈ es := by
  rw [pushes, List.mem_filterMap]
  constructor
  · rintro ⟨e, he, heq⟩
    cases e <;> simp at heq
    obtain ⟨rfl, rfl⟩ := heq
    exact ⟨_, he⟩
  · rintro ⟨i, he⟩
    exact ⟨_, he, rfl⟩

/-- A step pushes nothing, or it is the step by which a callback leaves
`MoveOutputCache`. -/
theorem Effect.pushed_cases (h : Effect L s a es s') :
    (∀ i g f, .pushed i g f ∉ es) ∨
    ∃ i cb f, s.callBacks[i]? = some cb ∧ cb.pc.Pending f ∧
      es = [.pushed i (L.groudIndex cb.outputPacksOrder) f] ∧
      s'.callBacks = s.callBacks.set i { cb with pc := .checking } := by
  cases h with
  | @pushed i cb f _ hi pc =>
    refine Or.inr ⟨i, cb, f, hi, ?_, rfl, rfl⟩
    exact Or.inr (pc.imp And.left id)
  | registered => exact Or.inl (by simp)
  | notRegistered => exact Or.inl (by simp)
  | cleared => exact Or.inl (by simp)
  | called => exact Or.inl (by simp)
  | unmatched => exact Or.inl (by simp)
  | matched => exact Or.inl (by split_ifs <;> simp)
  | tested => exact Or.inl (by simp)
  | dropped => exact Or.inl (by simp)
  | waits => exact Or.inl (by simp)
  | checked => exact Or.inl (by simp)
  | cleaned => exact Or.inl (by simp)
  | gotNothing => exact Or.inl (by simp)
  | asked => exact Or.inl (by simp)
  | got => exact Or.inl (by simp)
  | setGraphStarted => exact Or.inl (by simp)

/-- A callback that has left `MoveOutputCache` keeps its locals and stays outside. -/
theorem Shape.past (h : Shape L s a es s') {i : ℕ} {cb : CallBack P}
    (hi : s.callBacks[i]? = some cb) (hpc : cb.pc.Past) :
    ∃ cb', s'.callBacks[i]? = some cb' ∧ cb'.outputPacksOrder = cb.outputPacksOrder ∧
      cb'.packet = cb.packet ∧ cb'.matched = cb.matched ∧ cb'.pc.Past := by
  cases h with
  | registered _ _ calls => exact ⟨cb, calls ▸ hi, rfl, rfl, rfl, hpc⟩
  | called _ calls =>
    have hlt : i < s.callBacks.length := (List.getElem?_eq_some_iff.mp hi).choose
    exact ⟨cb, by rw [calls, List.getElem?_append_left hlt, hi], rfl, rfl, rfl, hpc⟩
  | @matched j c _ _ _ hj pc _ _ _ _ _ _ calls =>
    have hij : i ≠ j := by
      rintro rfl
      obtain rfl := Option.some_inj.mp (hi.symm.trans hj)
      rw [pc] at hpc
      simp [Pc.Past] at hpc
    exact ⟨cb, by rw [calls, getElem?_set_of_some hj, if_neg hij, hi], rfl, rfl, rfl, hpc⟩
  | @advanced j c pc' _ hj _ pending calls =>
    by_cases hij : i = j
    · subst hij
      obtain rfl := Option.some_inj.mp (hi.symm.trans hj)
      refine ⟨{ cb with pc := pc' }, by rw [calls, getElem?_set_of_some hj, if_pos rfl],
        rfl, rfl, rfl, ?_⟩
      rcases pending with h | h | h | ⟨f, hold, _⟩
      · exact Or.inl h
      · exact Or.inr (Or.inl h)
      · exact Or.inr (Or.inr h)
      · exact absurd hold hpc.not_pending
    · exact ⟨cb, by rw [calls, getElem?_set_of_some hj, if_neg hij, hi], rfl, rfl, rfl, hpc⟩
  | quiet calls => exact ⟨cb, calls ▸ hi, rfl, rfl, rfl, hpc⟩

/-- Each frame is pushed to a group at most once, and the callback that pushed it has
handed it on and has left `MoveOutputCache`. -/
structure Pushed (L : Layout) (es : List Event) (s : RunningGraph P) : Prop where
  nodup : (pushes es).Nodup
  done : ∀ i g f, .pushed i g f ∈ es → ∃ cb, s.callBacks[i]? = some cb ∧
    L.groudIndex cb.outputPacksOrder = g ∧ cb.handsOn = true ∧ cb.matched.cache = some f ∧
    cb.pc.Past

theorem pushed_init : Pushed L [] (.init : RunningGraph P) where
  nodup := List.nodup_nil
  done i g f h := by cases h

theorem Pushed.step (hp : Pushed L es s) (hs : Sound L es s) (h : Effect L s a es' s') :
    Pushed L (es ++ es') s' := by
  have hkeep : ∀ i g f, .pushed i g f ∈ es → ∃ cb, s'.callBacks[i]? = some cb ∧
      L.groudIndex cb.outputPacksOrder = g ∧ cb.handsOn = true ∧
      cb.matched.cache = some f ∧ cb.pc.Past := by
    intro i g f he
    obtain ⟨cb, hi, hg, hands, hf, hpast⟩ := hp.done i g f he
    obtain ⟨cb', hi', ho, _, hm, hpast'⟩ := (h.shape hs.fresh).past hi hpast
    exact ⟨cb', hi', by rw [ho, hg], by rw [CallBack.handsOn, hm]; exact hands,
      by rw [hm, hf], hpast'⟩
  rcases h.pushed_cases with hnone | ⟨i, cb, f, hi, hpc, rfl, calls⟩
  · have hnil : pushes es' = [] := by
      refine List.eq_nil_iff_forall_not_mem.mpr ?_
      rintro ⟨g, f⟩ hmem
      obtain ⟨i, he⟩ := mem_pushes.mp hmem
      exact hnone i g f he
    refine ⟨?_, fun i g f he => ?_⟩
    · rw [pushes, List.filterMap_append]
      show (pushes es ++ pushes es').Nodup
      rw [hnil, List.append_nil]
      exact hp.nodup
    · exact hkeep i g f ((List.mem_append.mp he).resolve_right (hnone i g f))
  · obtain ⟨hands, hf⟩ := hs.handed.pending i cb f hi hpc
    refine ⟨?_, fun j g f' he => ?_⟩
    · rw [pushes, List.filterMap_append]
      show (pushes es ++ [(L.groudIndex cb.outputPacksOrder, f)]).Nodup
      rw [List.nodup_append]
      refine ⟨hp.nodup, List.nodup_singleton _, ?_⟩
      rintro x hx y hy rfl
      rw [List.mem_singleton] at hy
      subst hy
      -- the callback that pushed the frame before is the same one, but it has left
      obtain ⟨j, he⟩ := mem_pushes.mp hx
      obtain ⟨cb', hj, hg, hands', hf', hpast⟩ := hp.done j _ f he
      obtain rfl := hs.handed.unique j i cb' cb f hj hi hands' hands hf' hf hg
      obtain rfl := Option.some_inj.mp (hi.symm.trans hj)
      exact hpast.not_pending hpc
    · rcases List.mem_append.mp he with he | he
      · exact hkeep j g f' he
      · rw [List.mem_singleton] at he
        obtain ⟨rfl, rfl, rfl⟩ := Event.pushed.inj he
        exact ⟨{ cb with pc := .checking }, by rw [calls, getElem?_set_of_some hi, if_pos rfl],
          rfl, hands, hf, Or.inl rfl⟩

theorem pushed_of_run (hL : L.Synced) {as : List (Action P)}
    (run : Run (step L) (AtMostOnce L) .init as es s) : Sound L es s ∧ Pushed L es s := by
  refine run.invariant (P := fun es s => Sound L es s ∧ Pushed L es s)
    ⟨sound_init, pushed_init⟩ ?_
  intro es s a s' es' hs ha hstep
  have heff := step_effect hstep
  exact ⟨hs.1.step hL ha heff, hs.2.step hs.1 heff⟩

/-- A callback outside `MoveOutputCache` never pushes any more. -/
theorem past_never_pushes {ok : RunningGraph P → Action P → Prop} {as : List (Action P)} {i : ℕ}
    {cb : CallBack P} (run : Run (step L) ok s as es s') (hfresh : Fresh s)
    (hi : s.callBacks[i]? = some cb) (hpast : cb.pc.Past) (g f : ℕ) : .pushed i g f ∉ es := by
  have key : Fresh s' ∧ (∃ cb, s'.callBacks[i]? = some cb ∧ cb.pc.Past) ∧
      ∀ g f, .pushed i g f ∉ es := by
    refine run.invariant (P := fun es s' => Fresh s' ∧
      (∃ cb, s'.callBacks[i]? = some cb ∧ cb.pc.Past) ∧ ∀ g f, .pushed i g f ∉ es)
      ⟨hfresh, ⟨cb, hi, hpast⟩, fun g f h => by cases h⟩ ?_
    rintro es s a s' es' ⟨hfresh, ⟨cb, hi, hpast⟩, hno⟩ _ hstep
    have heff := step_effect hstep
    obtain ⟨cb', hi', _, _, _, hpast'⟩ := (heff.shape hfresh).past hi hpast
    refine ⟨heff.fresh hfresh, ⟨cb', hi', hpast'⟩, fun g f he => ?_⟩
    rcases List.mem_append.mp he with he | he
    · exact hno g f he
    · rcases heff.pushed_cases with hnone | ⟨j, c, f', hj, hpc, rfl, _⟩
      · exact hnone i g f he
      · obtain ⟨rfl, _⟩ := Event.pushed.inj (List.mem_singleton.mp he)
        obtain rfl := Option.some_inj.mp (hi.symm.trans hj)
        exact hpast.not_pending hpc
  exact key.2.2 g f

/-- A callback that finds no frame goes on to the test of the cache size. -/
theorem step_unmatched {i : ℕ} {cb : CallBack P} (hi : s.callBacks[i]? = some cb)
    (hpc : cb.pc = .matching)
    (hnone : s.graph.inferenceStreamCache.find? cb.packet.timestamp = none)
    (h : step L s (.runCallBack i) = some (s', es)) :
    es = [] ∧ s'.callBacks[i]? = some { cb with matched := {}, pc := .checking } := by
  rw [step, hi, Option.bind_some, RunningGraph.runCallBack, hpc] at h
  simp only [matchStream_none hnone, Option.some_inj, Prod.mk.injEq] at h
  obtain ⟨rfl, rfl⟩ := h
  refine ⟨rfl, ?_⟩
  show (s.callBacks.set i _)[i]? = _
  rw [getElem?_set_of_some hi, if_pos rfl]

/-! ### The contract -/

/-- At a push every stream of the group has delivered the frame's timestamp, and the
packets it delivered are stored at its own index. -/
theorem Sound.at_push (hs : Sound L es s) (h : Effect L s a es' s') {i g f : ℕ}
    (he : .pushed i g f ∈ es') :
    ∃ t, .registered t f ∈ es ∧ ∀ o < L.outputStreamNum, L.groudIndex o = g →
      ∃ cb ∈ s.callBacks, cb.outputPacksOrder = o ∧ cb.packet.timestamp = t ∧
        cb.matched.cache = some f ∧ (s.graph.heap f).outputPacks[o]? = some (some cb.packet) := by
  rcases h.pushed_cases with hnone | ⟨j, c, f', hj, hpc, rfl, _⟩
  · exact absurd he (hnone i g f)
  · obtain ⟨rfl, rfl, rfl⟩ := Event.pushed.inj (List.mem_singleton.mp he)
    obtain ⟨hands, hf⟩ := hs.handed.pending i c f hj hpc
    refine ⟨_, hs.recorded.matched i c f hj hf, fun o ho hg => ?_⟩
    obtain ⟨k, cb, hk, rfl, hfk⟩ := hs.handed.complete i c f hj hands hf o ho hg
    refine ⟨cb, List.mem_of_getElem? hk, rfl, ?_, hfk, hs.filled.packs k cb f hk hfk⟩
    exact hs.recorded.unique _ _ f (hs.recorded.matched k cb f hk hfk)
      (hs.recorded.matched i c f hj hf)

/-- A callback caches nothing. -/
theorem Shape.cached_of_runCallBack {i : ℕ} (h : Shape L s (.runCallBack i) es s') {t : Int}
    {f : ℕ} (hf : s'.graph.inferenceStreamCache.find? t = some f) :
    s.graph.inferenceStreamCache.find? t = some f := by
  refine (h.cached_cases hf).resolve_left fun hreg => ?_
  cases h with
  | registered action => cases action
  | called _ _ _ old => exact old t f hreg
  | matched _ _ _ _ _ _ _ _ _ _ _ _ _ old => exact old t f hreg
  | advanced _ _ _ _ _ _ _ _ old => exact old t f hreg
  | quiet _ _ _ _ old => exact old t f hreg

/-- At a step of a callback outside the clean-up, a cached frame leaves the cache
exactly when the last stream delivers it. -/
theorem Sound.leaves_cache_iff (hs : Sound L es s) (hs' : Sound L (es ++ es') s') {i f : ℕ}
    {cb : CallBack P} (hi : s.callBacks[i]? = some cb) (hpc : cb.pc ≠ .cleaning)
    (h : Effect L s (.runCallBack i) es' s') {t : Int}
    (hf : s.graph.inferenceStreamCache.find? t = some f) :
    s'.graph.inferenceStreamCache.find? t = none ↔
      ∀ o < L.outputStreamNum, Delivered s' f o := by
  have hn : 0 < L.outputStreamNum := (Nat.zero_le _).trans_lt (hs.distinct.lt i cb hi)
  rcases hf' : s'.graph.inferenceStreamCache.find? t with _ | f'
  · refine ⟨fun _ => ?_, fun _ => rfl⟩
    cases h with
    | @matched _ c f₀ m frame hi' _ found hframe =>
      change OrderedMap.find? (if _ then _ else _) t = none at hf'
      -- only a full frame is taken out of the cache
      split_ifs at hf' with hfull
      · have ht : t = c.packet.timestamp := by
          rw [OrderedMap.find?_erase] at hf'
          split_ifs at hf' with ht
          · exact ht
          · rw [hf] at hf'
            cases hf'
        subst ht
        obtain rfl := Option.some_inj.mp (hf.symm.trans found)
        obtain ⟨D, hD, hmem⟩ := hs'.filled.set f (hs.recorded.lt _ f (hs.recorded.cached _ f hf))
        intro o ho
        refine (hmem o).mp ((hD.full_iff).mp ?_ o ho)
        show (Function.update s.graph.heap f frame f).full = true
        rw [Function.update_self]
        exact hfull
      · rw [hf] at hf'
        cases hf'
    | @cleaned _ c hi' hpc' =>
      obtain rfl := Option.some_inj.mp (hi.symm.trans hi')
      exact absurd hpc' hpc
    | unmatched => exact absurd (hf.symm.trans hf') (by simp)
    | tested => exact absurd (hf.symm.trans hf') (by simp)
    | pushed => exact absurd (hf.symm.trans hf') (by simp)
    | dropped => exact absurd (hf.symm.trans hf') (by simp)
    | waits => exact absurd (hf.symm.trans hf') (by simp)
    | checked => exact absurd (hf.symm.trans hf') (by simp)
  · refine ⟨fun h => absurd h (by simp), fun hall => ?_⟩
    have hold := (h.shape hs.fresh).cached_of_runCallBack hf'
    obtain rfl := Option.some_inj.mp (hold.symm.trans hf)
    -- a frame in the cache still misses a stream
    obtain ⟨o, ho, hnot⟩ := hs'.live t f' hf' hn
    exact absurd (hall o ho) hnot

/-- **Delivery.**  In every run in which a stream delivers a timestamp at most once:
a frame is pushed to a group at most once; at the push every stream of the group has
delivered the timestamp the frame was registered under, and its packet is stored at
its index; a callback takes a frame out of the cache, the clean-up apart, exactly when
every stream has delivered it; and a callback that finds no frame never pushes. -/
theorem delivery (hL : L.Synced) {as : List (Action P)}
    (run : Run (step L) (AtMostOnce L) .init as es s) :
    (pushes es).Nodup ∧
    (∀ a s' es', AtMostOnce L s a → step L s a = some (s', es') →
      ∀ i g f, .pushed i g f ∈ es' → ∃ t, .registered t f ∈ es ∧
        ∀ o < L.outputStreamNum, L.groudIndex o = g → ∃ cb ∈ s.callBacks,
          cb.outputPacksOrder = o ∧ cb.packet.timestamp = t ∧ cb.matched.cache = some f ∧
          (s.graph.heap f).outputPacks[o]? = some (some cb.packet)) ∧
    (∀ (i : ℕ) (cb : CallBack P) s' es', s.callBacks[i]? = some cb → cb.pc ≠ .cleaning →
      step L s (.runCallBack i) = some (s', es') →
      ∀ t f, s.graph.inferenceStreamCache.find? t = some f →
        (s'.graph.inferenceStreamCache.find? t = none ↔
          ∀ o < L.outputStreamNum, Delivered s' f o)) ∧
    ∀ (i : ℕ) (cb : CallBack P) s₁ es₁ as₂ es₂ s₂, s.callBacks[i]? = some cb →
      cb.pc = .matching → s.graph.inferenceStreamCache.find? cb.packet.timestamp = none →
      step L s (.runCallBack i) = some (s₁, es₁) → Run (step L) (AtMostOnce L) s₁ as₂ es₂ s₂ →
      ∀ g f, .pushed i g f ∉ es ++ es₁ ++ es₂ := by
  obtain ⟨hs, hp⟩ := pushed_of_run hL run
  refine ⟨hp.nodup, ?_, ?_, ?_⟩
  · intro a s' es' _ hstep i g f he
    exact hs.at_push (step_effect hstep) he
  · intro i cb s' es' hi hpc hstep t f hf
    have heff := step_effect hstep
    have hok : AtMostOnce L s (.runCallBack i) := trivial
    exact hs.leaves_cache_iff (hs.step hL hok heff) hi hpc heff hf
  · intro i cb s₁ es₁ as₂ es₂ s₂ hi hpc hnone hstep run₂ g f he
    have hfresh₁ := (step_effect hstep).fresh hs.fresh
    obtain ⟨rfl, hi₁⟩ := step_unmatched hi hpc hnone hstep
    rw [List.append_nil] at he
    -- the callback has pushed nothing while it was matching, and does not afterwards
    rcases List.mem_append.mp he with he | he
    · obtain ⟨cb', hi', _, _, _, hpast⟩ := hp.done i g f he
      obtain rfl := Option.some_inj.mp (hi.symm.trans hi')
      rw [hpc] at hpast
      simp [Pc.Past] at hpast
    · exact past_never_pushes run₂ hfresh₁ hi₁ (Or.inl rfl) g f he

/-- A frame of stamp 7 delivered by both streams of the recording layout, first by
`record_result`: each of its two groups gets it once. -/
def recordFirst : List (Action Unit) :=
  [.setInputStreamCache 7000 7, .callBackInferenceResult 1 ⟨7, ()⟩,
    .callBackInferenceResult 0 ⟨7, ()⟩, .runCallBack 0, .runCallBack 1, .runCallBack 1,
    .runCallBack 1, .runCallBack 0, .runCallBack 0]

theorem delivery_recordFirst :
    (pushes ((exec (step (.handTrackingInit ["hand_result", "record_result"] true))
      (AtMostOnce (.handTrackingInit ["hand_result", "record_result"] true)) .init
      recordFirst).get rfl).2).Nodup :=
  (delivery (Layout.handTrackingInit_synced (by decide) (by decide)) (Run.of_exec_get rfl)).1

example : (exec (step (.handTrackingInit ["hand_result", "record_result"] true))
    (AtMostOnce (.handTrackingInit ["hand_result", "record_result"] true)) .init
    recordFirst).map (fun r => pushes r.2) = some [(0, 0), (1, 0)] := rfl

end XGraph

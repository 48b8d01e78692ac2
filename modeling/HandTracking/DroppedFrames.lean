/-
The clean-up of dropped frames, and the frames it loses.

With one group, a callback that finds 30 frames in the cache removes every frame
older than its own: such a frame is taken to have been dropped by the flow control of
the graph.  That is right as long as every stream is past the removed frames
(`CleanSafe`).  A stream that lags behind may still deliver to one of them, and then
the frame is never pushed.

* `Fate` — what can become of a registered frame: it is still cached, it was handed
  on, or a stream that has not delivered it is past it;
* `droppedFrames` — when every clean-up is safe, no frame is lost for which all
  streams deliver, and no packet arrives for a removed frame;
* `lagging_loses_frame` — thirty frames and a stream that lags behind.
-/
import HandTracking.InFlightCache
import HandTracking.BlockedOutput

namespace XGraph

open Transition

variable {P : Type} {L : Layout} {s s' : RunningGraph P} {a : Action P} {es es' : List Event}

/-- Stream `o` is past the timestamp `t`: a callback of the stream with this timestamp
or a greater one has looked for its frame. -/
def IsPast (s : RunningGraph P) (o : ℕ) (t : Int) : Prop :=
  ∃ cb ∈ s.callBacks, cb.outputPacksOrder = o ∧ t ≤ cb.packet.timestamp ∧ cb.pc ≠ .matching

/-- The step is not a clean-up that removes a frame some stream is not past yet. -/
def CleanSafe (L : Layout) (s : RunningGraph P) : Action P → Prop
  | .runCallBack i => ∀ cb ∈ s.callBacks[i]?, cb.pc = .cleaning →
      ∀ e ∈ s.graph.inferenceStreamCache.entries, e.1 < cb.packet.timestamp →
        ∀ o < L.outputStreamNum, IsPast s o e.1
  | _ => True

/-- The callbacks of a stream are serial, the graph is not stopped, and every clean-up
is safe. -/
def Careful (L : Layout) (s : RunningGraph P) (a : Action P) : Prop :=
  Serial L s a ∧ NotStopped s a ∧ CleanSafe L s a

instance (s : RunningGraph P) (o : ℕ) (t : Int) : Decidable (IsPast s o t) :=
  inferInstanceAs (Decidable (∃ cb ∈ s.callBacks, cb.outputPacksOrder = o ∧
    t ≤ cb.packet.timestamp ∧ cb.pc ≠ .matching))

instance (L : Layout) (s : RunningGraph P) : ∀ a, Decidable (CleanSafe L s a)
  | .runCallBack i => inferInstanceAs (Decidable (∀ cb ∈ s.callBacks[i]?, cb.pc = .cleaning →
      ∀ e ∈ s.graph.inferenceStreamCache.entries, e.1 < cb.packet.timestamp →
        ∀ o < L.outputStreamNum, IsPast s o e.1))
  | .setInputStreamCache _ _ => .isTrue trivial
  | .clearInputStreamCache _ => .isTrue trivial
  | .callBackInferenceResult _ _ => .isTrue trivial
  | .getOutputStreamCache _ _ => .isTrue trivial
  | .runConsumer _ => .isTrue trivial
  | .setGraphStarted _ => .isTrue trivial

instance [DecidableEq P] (L : Layout) (s : RunningGraph P) (a : Action P) :
    Decidable (Careful L s a) :=
  inferInstanceAs (Decidable (Serial L s a ∧ NotStopped s a ∧ CleanSafe L s a))

/-- The layout has one group, which covers its oldest frame when it is full. -/
structure SingleGroup (L : Layout) : Prop where
  single : L.groudSize = 1
  cover : (L.cleanPolicy 0).cleanPolicy = .fullLoopCover

theorem baseInit_singleGroup (names : List String) : SingleGroup (.baseInit names) where
  single := Layout.groudSize_baseInit names
  cover := rfl

/-- A callback after a step: it keeps its stream and packet, and once it has looked for
its frame it has looked for it. -/
theorem Shape.calls_mono (h : Shape L s a es s') {j : ℕ} {c : CallBack P}
    (hj : s.callBacks[j]? = some c) :
    ∃ c', s'.callBacks[j]? = some c' ∧ c'.outputPacksOrder = c.outputPacksOrder ∧
      c'.packet = c.packet ∧ (c.pc ≠ .matching → c'.pc ≠ .matching) := by
  cases h with
  | registered _ _ calls => exact ⟨c, calls ▸ hj, rfl, rfl, id⟩
  | called _ calls =>
    have hlt : j < s.callBacks.length := (List.getElem?_eq_some_iff.mp hj).choose
    exact ⟨c, by rw [calls, List.getElem?_append_left hlt, hj], rfl, rfl, id⟩
  | @matched i cb cb' f _ hi pc _ order packet _ _ _ calls =>
    by_cases hji : j = i
    · subst hji
      obtain rfl := Option.some_inj.mp (hi.symm.trans hj)
      exact ⟨cb', by rw [calls, getElem?_set_of_some hi, if_pos rfl], order, packet,
        fun hne => absurd pc hne⟩
    · exact ⟨c, by rw [calls, getElem?_set_of_some hi, if_neg hji, hj], rfl, rfl, id⟩
  | @advanced i cb pc' _ hi _ pending calls =>
    by_cases hji : j = i
    · subst hji
      obtain rfl := Option.some_inj.mp (hi.symm.trans hj)
      refine ⟨{ cb with pc := pc' }, by rw [calls, getElem?_set_of_some hi, if_pos rfl],
        rfl, rfl, fun _ => ?_⟩
      rcases pending with rfl | rfl | rfl | ⟨f, _, rfl | rfl⟩ <;> simp
    · exact ⟨c, by rw [calls, getElem?_set_of_some hi, if_neg hji, hj], rfl, rfl, id⟩
  | quiet calls => exact ⟨c, calls ▸ hj, rfl, rfl, id⟩

/-- A stream that is past a timestamp stays past it. -/
theorem IsPast.step (h : Shape L s a es s') {o : ℕ} {t : Int} (hp : IsPast s o t) :
    IsPast s' o t := by
  obtain ⟨c, hc, ho, ht, hpc⟩ := hp
  obtain ⟨j, hj⟩ := List.mem_iff_getElem?.mp hc
  obtain ⟨c', hj', ho', hp', hpc'⟩ := h.calls_mono hj
  exact ⟨c', List.mem_of_getElem? hj', ho'.trans ho, by rw [hp']; exact ht, hpc' hpc⟩

/-- A stream that is past a timestamp is not called with it again. -/
theorem IsPast.ne_of_called {o : ℕ} {t : Int} (hp : IsPast s o t) {p : Packet P}
    (ha : Serial L s (.callBackInferenceResult o p)) : p.timestamp ≠ t := by
  obtain ⟨c, hc, ho, ht, _⟩ := hp
  have hlt := (ha.2 c hc ho).2
  omega

/-- A stream that is past a timestamp has no callback that still has to look for a
frame of it. -/
theorem IsPast.ne_of_matching {o : ℕ} {t : Int} (hp : IsPast s o t) (hord : InOrder s) {j : ℕ}
    {c : CallBack P} (hj : s.callBacks[j]? = some c) (ho : c.outputPacksOrder = o)
    (hpc : c.pc = .matching) : c.packet.timestamp ≠ t := by
  obtain ⟨d, hd, hod, ht, hne⟩ := hp
  obtain ⟨k, hk⟩ := List.mem_iff_getElem?.mp hd
  rcases lt_trichotomy j k with hlt | rfl | hgt
  · have hret := (hord j k c d hlt hj hk (ho.trans hod.symm)).1
    rw [hpc] at hret
    cases hret
  · obtain rfl := Option.some_inj.mp (hj.symm.trans hk)
    exact absurd hpc hne
  · have hlt := (hord k j d c hgt hk hj (hod.trans ho.symm)).2
    omega

/-! ### What becomes of a frame -/

/-- In state `s₁` callback `i` has not looked for its frame yet, or is not called yet. -/
def Later (s₁ : RunningGraph P) (i : ℕ) : Prop :=
  ∀ cb, s₁.callBacks[i]? = some cb → cb.pc = .matching

/-- What has become of the frame `f` registered under `t` in state `s₁`: the callbacks
of its timestamp have stored their packets in it and it is still cached; some callback
is about to push it; it was pushed; or it is gone, and a stream that has not delivered
it is past its timestamp. -/
inductive Fate (L : Layout) (s₁ : RunningGraph P) (t : Int) (f : ℕ) (es : List Event)
    (s : RunningGraph P) : Prop
  | cached (found : s.graph.inferenceStreamCache.find? t = some f)
      (stored : ∀ (i : ℕ) (cb : CallBack P), Later s₁ i → s.callBacks[i]? = some cb →
        cb.packet.timestamp = t → cb.pc ≠ .matching → cb.matched.cache = some f)
  | pending {j : ℕ} {cb : CallBack P} (hj : s.callBacks[j]? = some cb) (hpc : cb.pc.Pending f)
  | pushed {i : ℕ} (event : .pushed i 0 f ∈ es)
  | passed {o : ℕ} (ho : o < L.outputStreamNum) (past : IsPast s o t)
      (absent : ∀ (i : ℕ) (cb : CallBack P), Later s₁ i → s.callBacks[i]? = some cb →
        cb.outputPacksOrder = o → cb.packet.timestamp ≠ t)

section

variable {s₁ : RunningGraph P} {t : Int} {f : ℕ} {es₀ : List Event}

/-- The step of another callback leaves a pending one where it is. -/
theorem pending_set {i j : ℕ} {cb c c' : CallBack P} (hj : s.callBacks[j]? = some cb)
    (hpc : cb.pc.Pending f) (hi : s.callBacks[i]? = some c) (hji : j ≠ i)
    (calls : s'.callBacks = s.callBacks.set i c') :
    ∃ (j : ℕ) (cb : CallBack P), s'.callBacks[j]? = some cb ∧ cb.pc.Pending f :=
  ⟨j, cb, by rw [calls, getElem?_set_of_some hi, if_neg hji, hj], hpc⟩

theorem ne_of_not_pending {i j : ℕ} {cb c : CallBack P} (hj : s.callBacks[j]? = some cb)
    (hpc : cb.pc.Pending f) (hi : s.callBacks[i]? = some c) (hne : ¬c.pc.Pending f) : j ≠ i := by
  rintro rfl
  obtain rfl := Option.some_inj.mp (hj.symm.trans hi)
  exact hne hpc

/-- In a started graph with one group that covers its oldest frame, a callback inside
`MoveOutputCache` goes on until it has pushed its frame. -/
theorem pending_step (hL : SingleGroup L) (started : s.graph.graphStarted = true)
    (heff : Effect L s a es s') {j : ℕ} {cb : CallBack P} (hj : s.callBacks[j]? = some cb)
    (hpc : cb.pc.Pending f) :
    (∃ (j : ℕ) (cb : CallBack P), s'.callBacks[j]? = some cb ∧ cb.pc.Pending f) ∨
      ∃ i, .pushed i 0 f ∈ es := by
  cases heff with
  | called =>
    have hlt : j < s.callBacks.length := (List.getElem?_eq_some_iff.mp hj).choose
    exact Or.inl ⟨j, cb, by rw [List.getElem?_append_left hlt, hj], hpc⟩
  | unmatched hi pc =>
    exact Or.inl
      (pending_set hj hpc hi (ne_of_not_pending hj hpc hi (by simp [pc, Pc.Pending])) rfl)
  | matched hi pc =>
    exact Or.inl
      (pending_set hj hpc hi (ne_of_not_pending hj hpc hi (by simp [pc, Pc.Pending])) rfl)
  | @tested i c f' hi pc =>
    by_cases hji : j = i
    · subst hji
      obtain rfl := Option.some_inj.mp (hj.symm.trans hi)
      obtain rfl : f' = f := by simpa [pc, Pc.Pending] using hpc
      refine Or.inl ⟨j, _, (getElem?_set_of_some hi j).trans (if_pos rfl), ?_⟩
      exact Or.inr (Or.inl (if_pos started))
    · exact Or.inl (pending_set hj hpc hi hji rfl)
  | @pushed i c f' list hi pc =>
    by_cases hji : j = i
    · subst hji
      obtain rfl := Option.some_inj.mp (hj.symm.trans hi)
      obtain rfl : f' = f := by
        rcases pc with ⟨pc, _⟩ | pc
        · simpa [pc, Pc.Pending] using hpc
        · simpa [pc, Pc.Pending] using hpc
      rw [Layout.groudIndex_of_single hL.single]
      exact Or.inr ⟨j, List.mem_singleton_self _⟩
    · exact Or.inl (pending_set hj hpc hi hji rfl)
  | @dropped i c f' hi pc hmove =>
    rw [Layout.groudIndex_of_single hL.single] at hmove
    -- a list that covers its oldest frame always takes the new one
    obtain ⟨l', hl'⟩ := StreamCacheCleanStrategy.move_loopCover hL.cover
    rw [hl'] at hmove
    cases hmove
  | @waits i c f' hi pc hmove =>
    rw [Layout.groudIndex_of_single hL.single] at hmove
    -- and nobody waits in front of it
    have hblock := (StreamCacheCleanStrategy.move_wait hmove).1
    rw [hL.cover] at hblock
    cases hblock
  | checked hi pc =>
    exact Or.inl
      (pending_set hj hpc hi (ne_of_not_pending hj hpc hi (by simp [pc, Pc.Pending])) rfl)
  | cleaned hi pc =>
    exact Or.inl
      (pending_set hj hpc hi (ne_of_not_pending hj hpc hi (by simp [pc, Pc.Pending])) rfl)
  | registered => exact Or.inl ⟨j, cb, hj, hpc⟩
  | notRegistered => exact Or.inl ⟨j, cb, hj, hpc⟩
  | cleared => exact Or.inl ⟨j, cb, hj, hpc⟩
  | gotNothing => exact Or.inl ⟨j, cb, hj, hpc⟩
  | asked => exact Or.inl ⟨j, cb, hj, hpc⟩
  | got => exact Or.inl ⟨j, cb, hj, hpc⟩
  | setGraphStarted => exact Or.inl ⟨j, cb, hj, hpc⟩

/-- As long as the frame is cached, the callbacks of its timestamp store their packets
in it. -/
theorem stored_step (h : Shape L s a es s')
    (found : s.graph.inferenceStreamCache.find? t = some f)
    (stored : ∀ (i : ℕ) (cb : CallBack P), Later s₁ i → s.callBacks[i]? = some cb →
      cb.packet.timestamp = t → cb.pc ≠ .matching → cb.matched.cache = some f)
    {i : ℕ} {cb' : CallBack P} (hlater : Later s₁ i) (hi : s'.callBacks[i]? = some cb')
    (ht : cb'.packet.timestamp = t) (hpc : cb'.pc ≠ .matching) : cb'.matched.cache = some f := by
  cases h with
  | registered _ _ calls => exact stored i cb' hlater (calls ▸ hi) ht hpc
  | called _ calls =>
    rw [calls] at hi
    rcases getElem?_concat hi with hi | ⟨_, rfl⟩
    · exact stored i cb' hlater hi ht hpc
    · exact absurd rfl hpc
  | @matched j c c' f₀ _ hj _ found₀ _ packet hcache _ _ calls =>
    rw [calls, getElem?_set_of_some hj] at hi
    split_ifs at hi with hij
    · obtain rfl := Option.some_inj.mp hi
      rw [← packet, ht, found] at found₀
      rw [hcache, ← found₀]
    · exact stored i cb' hlater hi ht hpc
  | @advanced j c pc' _ hj _ _ calls _ _ _ _ missed =>
    rw [calls, getElem?_set_of_some hj] at hi
    split_ifs at hi with hij
    · obtain rfl := Option.some_inj.mp hi
      subst hij
      refine stored i c hlater hj ht fun hm => ?_
      have hnone := missed hm
      change c.packet.timestamp = t at ht
      rw [ht, found] at hnone
      cases hnone
    · exact stored i cb' hlater hi ht hpc
  | quiet calls => exact stored i cb' hlater (calls ▸ hi) ht hpc

/-- With one group, the callback that completes a frame goes on to push it. -/
theorem pending_of_finished (hL : SingleGroup L) (heff : Effect L s a es s') {i : ℕ}
    (he : .finished i f ∈ es) : ∃ cb, s'.callBacks[i]? = some cb ∧ cb.pc.Pending f := by
  cases heff with
  | @matched j c f' m frame hi _ _ _ _ hands =>
    split_ifs at he with hfull
    · obtain ⟨rfl, rfl⟩ := Event.finished.inj (List.mem_singleton.mp he)
      rw [groudComplete, if_pos hL.single, hfull] at hands
      exact ⟨_, (getElem?_set_of_some hi i).trans (if_pos rfl), Or.inl (if_pos hands)⟩
    · simp at he
  | _ => simp at he

/-- The clean-up removes frames older than that of its callback. -/
theorem removed_of_cleaned (heff : Effect L s a es s') (he : .cleaned t f ∈ es) :
    ∃ (i : ℕ) (cb : CallBack P), a = .runCallBack i ∧ s.callBacks[i]? = some cb ∧
      cb.pc = .cleaning ∧ s.graph.inferenceStreamCache.find? t = some f ∧
      t < cb.packet.timestamp := by
  cases heff with
  | @cleaned i cb hi pc =>
    obtain ⟨e, hmem, heq⟩ := List.mem_map.mp he
    obtain ⟨rfl, rfl⟩ := Event.cleaned.inj heq
    obtain ⟨hin, hout⟩ := OrderedMap.mem_removed.mp hmem
    refine ⟨i, cb, rfl, hi, pc, hin, ?_⟩
    rw [find?_cleanMediapipeDroped] at hout
    split_ifs at hout with hlt
    · exact hlt
    · rw [hin] at hout
      cases hout
  | matched => split_ifs at he <;> simp at he
  | _ => simp at he

/-- At a safe clean-up every stream is past the removed frames. -/
theorem CleanSafe.isPast {i : ℕ} {cb : CallBack P} (ha : CleanSafe L s (.runCallBack i))
    (hi : s.callBacks[i]? = some cb) (hpc : cb.pc = .cleaning)
    (hf : s.graph.inferenceStreamCache.find? t = some f) (hlt : t < cb.packet.timestamp) {o : ℕ}
    (ho : o < L.outputStreamNum) : IsPast s o t :=
  ha cb hi hpc (t, f) (OrderedMap.find?_eq_some_iff.mp hf) hlt o ho

theorem Fate.of_removed (hL : SingleGroup L) (hO : Ordered L es₀ s) (hn : 0 < L.outputStreamNum)
    (ha : Careful L s a) (heff : Effect L s a es' s')
    (found : s.graph.inferenceStreamCache.find? t = some f)
    (stored : ∀ (i : ℕ) (cb : CallBack P), Later s₁ i → s.callBacks[i]? = some cb →
      cb.packet.timestamp = t → cb.pc ≠ .matching → cb.matched.cache = some f)
    (gone : s'.graph.inferenceStreamCache.find? t ≠ some f)
    (hevict : .evicted t f ∉ es') (hclear : .cleared t ∉ es') : Fate L s₁ t f es s' := by
  have hshape := heff.shape hO.sound.fresh
  obtain ⟨e, he, hrem⟩ : ∃ e ∈ es', e.Removes t f := by
    by_contra hno
    push Not at hno
    exact gone (heff.cached found hno)
  cases e with
  | evicted t' f' =>
    obtain ⟨rfl, rfl⟩ := hrem
    exact absurd he hevict
  | cleared t' =>
    obtain rfl : t' = t := hrem
    exact absurd he hclear
  | finished i f' =>
    obtain rfl : f' = f := hrem
    obtain ⟨cb, hi, hpc⟩ := pending_of_finished hL heff he
    exact .pending hi hpc
  | cleaned t' f' =>
    obtain ⟨rfl, rfl⟩ := hrem
    obtain ⟨i, cb, rfl, hi, hpc, _, hlt⟩ := removed_of_cleaned heff he
    -- some stream has not delivered the frame, and all of them are past it
    obtain ⟨o, ho, hnot⟩ := hO.sound.live t' f' found hn
    have hpast := ha.2.2.isPast hi hpc found hlt ho
    refine .passed ho (hpast.step hshape) fun j c' hlater hj hco ht => ?_
    rcases hshape.calls_cases hj with ⟨c, hc, hco', hcp⟩ | ⟨_, hact⟩
    · have hct : c.packet.timestamp = t' := by rw [hcp, ht]
      have hpc' : c.pc ≠ .matching := fun hm =>
        hpast.ne_of_matching hO.inOrder hc (hco'.trans hco) hm hct
      exact hnot ⟨j, c, hc, hco'.trans hco, stored j c hlater hc hct hpc'⟩
    · cases hact
  | registered t' f' => exact hrem.elim
  | pushed i g f' => exact hrem.elim
  | got g r ret => exact hrem.elim

theorem Fate.step (hL : SingleGroup L) (hO : Ordered L es₀ s) (hn : 0 < L.outputStreamNum)
    (started : s.graph.graphStarted = true) (ha : Careful L s a) (heff : Effect L s a es' s')
    (hevict : .evicted t f ∉ es') (hclear : .cleared t ∉ es') (h : Fate L s₁ t f es s) :
    Fate L s₁ t f (es ++ es') s' := by
  have hshape := heff.shape hO.sound.fresh
  cases h with
  | cached found stored =>
    by_cases hstill : s'.graph.inferenceStreamCache.find? t = some f
    · exact .cached hstill fun i cb hlater hi ht hpc =>
        stored_step hshape found stored hlater hi ht hpc
    · exact .of_removed hL hO hn ha heff found stored hstill hevict hclear
  | pending hj hpc =>
    rcases pending_step hL started heff hj hpc with ⟨j', cb', hj', hpc'⟩ | ⟨i, he⟩
    · exact .pending hj' hpc'
    · exact .pushed (List.mem_append_right _ he)
  | pushed event => exact .pushed (List.mem_append_left _ event)
  | passed ho past absent =>
    refine .passed ho (past.step hshape) fun i cb' hlater hi hco => ?_
    rcases hshape.calls_cases hi with ⟨cb, hcb, hco', hcp⟩ | ⟨_, rfl⟩
    · rw [← hcp]
      exact absent i cb hlater hcb (hco'.trans hco)
    · subst hco
      exact past.ne_of_called ha.1

/-- When every stream has delivered the frame and returned, it was pushed. -/
theorem Fate.pushed_of_delivered (hO : Ordered L es₀ s) (hreg : .registered t f ∈ es₀)
    (hn : 0 < L.outputStreamNum) (h : Fate L s₁ t f es s)
    (hall : ∀ o < L.outputStreamNum, ∃ (i : ℕ) (cb : CallBack P), Later s₁ i ∧
      s.callBacks[i]? = some cb ∧ cb.outputPacksOrder = o ∧ cb.packet.timestamp = t ∧
      cb.pc = .returned) : ∃ i, .pushed i 0 f ∈ es := by
  cases h with
  | cached found stored =>
    obtain ⟨o, ho, hnot⟩ := hO.sound.live t f found hn
    obtain ⟨i, cb, hlater, hi, hco, ht, hpc⟩ := hall o ho
    exact absurd ⟨i, cb, hi, hco, stored i cb hlater hi ht (by simp [hpc])⟩ hnot
  | @pending j cb hj hpc =>
    obtain ⟨_, hcache⟩ := hO.sound.handed.pending j cb f hj hpc
    have ht := hO.sound.recorded.unique _ _ f (hO.sound.recorded.matched j cb f hj hcache) hreg
    obtain ⟨i, c, _, hi, hco, hct, hret⟩ := hall _ (hO.sound.distinct.lt j cb hj)
    obtain rfl := hO.sound.distinct.inj i j c cb hi hj hco (hct.trans ht.symm)
    obtain rfl := Option.some_inj.mp (hi.symm.trans hj)
    rw [hret] at hpc
    simp [Pc.Pending] at hpc
  | pushed event => exact ⟨_, event⟩
  | passed ho _ absent =>
    obtain ⟨i, cb, hlater, hi, hco, ht, _⟩ := hall _ ho
    exact absurd ht (absent i cb hlater hi hco)

theorem started_step (started : s.graph.graphStarted = true) (ha : NotStopped s a)
    (heff : Effect L s a es s') : s'.graph.graphStarted = true := by
  cases heff with
  | @setGraphStarted b =>
    cases b with
    | true => rfl
    | false => exact absurd rfl ha
  | _ => exact started

/-- A frame that its own registration did not evict is cached, and no callback has
looked for it. -/
theorem fate_registered {raw : ℕ} {s₂ : RunningGraph P} {es₂ : List Event}
    (heff : Effect L s₁ (.setInputStreamCache raw t) es₂ s₂) (hreg : .registered t f ∈ es₂)
    (hevict : .evicted t f ∉ es₂) :
    Fate L s₁ t f [] s₂ ∧ s₂.graph.graphStarted = true := by
  cases heff with
  | registered started fresh =>
    obtain rfl : f = s₁.graph.heapSize := by simpa using hreg
    refine ⟨.cached ?_ fun i cb hlater hi _ hpc => absurd (hlater cb hi) hpc, started⟩
    have hins : (s₁.graph.inferenceStreamCache.insert t s₁.graph.heapSize).find? t =
        some s₁.graph.heapSize := by
      rw [OrderedMap.find?_insert, if_pos rfl, fresh, Option.getD_none]
    show (cleanGraphNoResultInferenceCache _ t).find? t = _
    rcases hc : (cleanGraphNoResultInferenceCache
        (s₁.graph.inferenceStreamCache.insert t s₁.graph.heapSize) t).find? t with _ | f'
    · have hmem := OrderedMap.mem_removed (e := (t, s₁.graph.heapSize)).mpr ⟨hins, hc⟩
      exact absurd (List.mem_cons_of_mem _ (List.mem_map.mpr ⟨_, hmem, rfl⟩)) hevict
    · rw [← hins]
      exact (OrderedMap.find?_eraseFrontWhile_sub hc).symm
  | notRegistered => cases hreg

theorem fate_of_run (hsync : L.Synced) (hL : SingleGroup L) (hO : Ordered L es₀ s)
    (hn : 0 < L.outputStreamNum) (started : s.graph.graphStarted = true) (h : Fate L s₁ t f [] s)
    {as : List (Action P)} (run : Run (step L) (Careful L) s as es s')
    (hevict : .evicted t f ∉ es) (hclear : .cleared t ∉ es) :
    Ordered L (es₀ ++ es) s' ∧ Fate L s₁ t f es s' := by
  have key : Ordered L (es₀ ++ es) s' ∧ s'.graph.graphStarted = true ∧
      (.evicted t f ∉ es → .cleared t ∉ es → Fate L s₁ t f es s') := by
    refine run.invariant (P := fun es s' => Ordered L (es₀ ++ es) s' ∧
      s'.graph.graphStarted = true ∧ (.evicted t f ∉ es → .cleared t ∉ es → Fate L s₁ t f es s'))
      ⟨by rwa [List.append_nil], started, fun _ _ => h⟩ ?_
    rintro es s a s' es' ⟨hO, started, hfate⟩ ha hstep
    have heff := step_effect hstep
    refine ⟨by rw [← List.append_assoc]; exact hO.step hsync ha.1 heff,
      started_step started ha.2.1 heff, fun hevict hclear => ?_⟩
    rw [List.mem_append, not_or] at hevict hclear
    exact (hfate hevict.1 hclear.1).step hL hO hn started ha heff hevict.2 hclear.2
  exact ⟨key.1, key.2.2 hevict hclear⟩

/-- No stream is called again with a timestamp they are all past. -/
theorem not_called_again {as : List (Action P)} (hfresh : Fresh s)
    (hpast : ∀ o < L.outputStreamNum, IsPast s o t) (run : Run (step L) (Serial L) s as es s') :
    ∀ o p, .callBackInferenceResult o p ∈ as → p.timestamp ≠ t := by
  have key : Fresh s' ∧ (∀ o < L.outputStreamNum, IsPast s' o t) ∧
      ∀ o p, .callBackInferenceResult o p ∈ as → p.timestamp ≠ t := by
    induction run with
    | nil => exact ⟨hfresh, hpast, fun o p h => absurd h List.not_mem_nil⟩
    | @snoc as es s a s' es' _ ha hstep ih =>
      obtain ⟨hfresh, hpast, hno⟩ := ih
      have heff := step_effect hstep
      refine ⟨heff.fresh hfresh, fun o ho => (hpast o ho).step (heff.shape hfresh),
        fun o p hmem => ?_⟩
      rcases List.mem_append.mp hmem with hmem | hmem
      · exact hno o p hmem
      · obtain rfl := List.mem_singleton.mp hmem
        exact (hpast o ha.1).ne_of_called ha
  exact key.2.2

end

/-! ### Every run -/

/-- **No frame is lost when every clean-up is safe.**  In the default layout, in every
run in which the callbacks of each stream are serial, the graph is not stopped and the
clean-ups are safe: a frame that is neither evicted nor taken back and that every
stream delivers after its registration is pushed; and no packet arrives any more for a
frame that a clean-up removes. -/
theorem droppedFrames (names : List String) (hn : names ≠ []) {as₁ : List (Action P)}
    {es₁ : List Event} {s₁ : RunningGraph P}
    (run₁ : Run (step (.baseInit names)) (Careful (.baseInit names)) .init as₁ es₁ s₁) :
    (∀ raw t f s₂ es₂ as₃ es₃ s₃,
      step (.baseInit names) s₁ (.setInputStreamCache raw t) = some (s₂, es₂) →
      .registered t f ∈ es₂ →
      Run (step (.baseInit names)) (Careful (.baseInit names)) s₂ as₃ es₃ s₃ →
      .evicted t f ∉ es₂ ++ es₃ → .cleared t ∉ es₃ →
      (∀ o < names.length, ∃ (i : ℕ) (cb : CallBack P), Later s₁ i ∧
        s₃.callBacks[i]? = some cb ∧ cb.outputPacksOrder = o ∧ cb.packet.timestamp = t ∧
        cb.pc = .returned) →
      ∃ i, .pushed i 0 f ∈ es₃) ∧
    (∀ i s₂ es₂ t f as₃ es₃ s₃, Careful (.baseInit names) s₁ (.runCallBack i) →
      step (.baseInit names) s₁ (.runCallBack i) = some (s₂, es₂) → .cleaned t f ∈ es₂ →
      Run (step (.baseInit names)) (Serial (.baseInit names)) s₂ as₃ es₃ s₃ →
      (∀ cb ∈ s₂.callBacks, cb.pc = .matching → cb.packet.timestamp ≠ t) ∧
      ∀ o p, .callBackInferenceResult o p ∈ as₃ → p.timestamp ≠ t) := by
  have hsync : (Layout.baseInit names).Synced := Layout.baseInit_synced names
  have hpos : 0 < (Layout.baseInit names).outputStreamNum := List.length_pos_iff.mpr hn
  have hO₁ := ordered_of_run hsync (run₁.mono fun s a ha => ha.1)
  constructor
  · intro raw t f s₂ es₂ as₃ es₃ s₃ hstep hreg run₃ hevict hclear hall
    rw [List.mem_append, not_or] at hevict
    have heff := step_effect hstep
    have hserial : Serial (.baseInit names) s₁ (.setInputStreamCache raw t) := trivial
    have hO₂ := hO₁.step hsync hserial heff
    -- the fate of the frame is followed from its registration on
    obtain ⟨hfate, started⟩ := fate_registered heff hreg hevict.1
    obtain ⟨hO₃, hfate₃⟩ := fate_of_run hsync (baseInit_singleGroup names) hO₂ hpos started hfate
      run₃ hevict.2 hclear
    exact hfate₃.pushed_of_delivered hO₃
      (List.mem_append_left _ (List.mem_append_right _ hreg)) hpos hall
  · intro i s₂ es₂ t f as₃ es₃ s₃ ha hstep hclean run₃
    have heff := step_effect hstep
    have hshape := heff.shape hO₁.sound.fresh
    obtain ⟨j, cb, hact, hj, hpc, hf, hlt⟩ := removed_of_cleaned heff hclean
    obtain rfl := Action.runCallBack.inj hact
    -- when a clean-up is safe, all callbacks of the timestamp are past
    have hpast : ∀ o < (Layout.baseInit names).outputStreamNum, IsPast s₂ o t := fun o ho =>
      (ha.2.2.isPast hj hpc hf hlt ho).step hshape
    have hO₂ := hO₁.step hsync ha.1 heff
    refine ⟨fun c hc hm => ?_, not_called_again hO₂.sound.fresh hpast run₃⟩
    obtain ⟨k, hk⟩ := List.mem_iff_getElem?.mp hc
    exact (hpast _ (hO₂.sound.distinct.lt k c hk)).ne_of_matching hO₂.inOrder hk rfl hm

/-- The default layout for two output streams. -/
abbrev twoStreams : Layout := .baseInit ["a", "b"]

/-- The frames of the timestamps from 1 to `n` are registered. -/
def registerFrames (n : ℕ) : List (Action Unit) :=
  (List.range n).map fun k => .setInputStreamCache (1000 + k) (k + 1)

/-- Of 31 frames the graph has dropped all but the last, and both streams find it. -/
def deliverLast : List (Action Unit) :=
  [.callBackInferenceResult 0 ⟨31, ()⟩, .runCallBack 0, .runCallBack 0,
    .callBackInferenceResult 1 ⟨31, ()⟩, .runCallBack 1]

/-- The frame is pushed, and the next one comes. -/
def pushLast : List (Action Unit) :=
  [.runCallBack 1, .runCallBack 1, .runCallBack 1, .setInputStreamCache 1031 32,
    .callBackInferenceResult 0 ⟨32, ()⟩, .runCallBack 2]

set_option synthInstance.maxSize 2000 in
/-- The clean-up of the first stream removes the dropped frames, and the last one is pushed. -/
theorem droppedFrames_thirtyOne :
    (∃ es s s' es' es'' s'', Run (step twoStreams) (Careful twoStreams) .init
        (registerFrames 30) es s ∧
      step twoStreams s (.setInputStreamCache 1030 31) = some (s', es') ∧
      Run (step twoStreams) (Careful twoStreams) s' (deliverLast ++ .runCallBack 0 :: pushLast)
        es'' s'' ∧
      .cleaned 1 0 ∈ es'' ∧ ∃ i, .pushed i 0 30 ∈ es'') ∧
    ∃ es s s' es', Run (step twoStreams) (Careful twoStreams) .init
        (registerFrames 31 ++ deliverLast) es s ∧
      step twoStreams s (.runCallBack 0) = some (s', es') ∧ .cleaned 1 0 ∈ es' ∧
      (∀ cb ∈ s'.callBacks, cb.pc = .matching → cb.packet.timestamp ≠ 1) ∧
      ∀ o p, .callBackInferenceResult o p ∈ pushLast → p.timestamp ≠ 1 := by
  constructor
  · obtain ⟨⟨s, es⟩, hexec, ⟨s', es'⟩, hstep, ⟨s'', es''⟩, hexec', hnone, hreg, hclean, hevict,
        hclear, ⟨cb, hcb, hreturned⟩, cb', hcb', hreturned'⟩ :
        ∃ r ∈ exec (step twoStreams) (Careful twoStreams) .init (registerFrames 30),
          ∃ r' ∈ step twoStreams r.1 (.setInputStreamCache 1030 31),
            ∃ r'' ∈ exec (step twoStreams) (Careful twoStreams) r'.1
              (deliverLast ++ .runCallBack 0 :: pushLast),
            r.1.callBacks = [] ∧ .registered 31 30 ∈ r'.2 ∧ .cleaned 1 0 ∈ r''.2 ∧
              .evicted 31 30 ∉ r'.2 ++ r''.2 ∧ .cleared 31 ∉ r''.2 ∧
              (∃ cb ∈ r''.1.callBacks[0]?, cb.outputPacksOrder = 0 ∧ cb.packet.timestamp = 31 ∧
                cb.pc = .returned) ∧
              ∃ cb ∈ r''.1.callBacks[1]?, cb.outputPacksOrder = 1 ∧ cb.packet.timestamp = 31 ∧
                cb.pc = .returned := by
      decide +kernel
    have hlater : ∀ i, Later s i := by
      intro i cb hcb
      rw [show s.callBacks = [] from hnone] at hcb
      cases hcb
    have hpushed := (droppedFrames ["a", "b"] (by decide) (Run.of_exec hexec)).1 1030 31 30 s' es'
      _ es'' s'' hstep hreg (Run.of_exec hexec') hevict hclear
    refine ⟨es, s, s', es', es'', s'', Run.of_exec hexec, hstep, Run.of_exec hexec', hclean,
      hpushed fun o ho => ?_⟩
    rcases o with _ | _ | o
    · exact ⟨0, cb, hlater 0, hcb, hreturned⟩
    · exact ⟨1, cb', hlater 1, hcb', hreturned'⟩
    · have : o + 2 < 2 := ho
      omega
  · obtain ⟨⟨s, es⟩, hexec, ⟨s', es'⟩, hstep, ⟨s'', es''⟩, hexec', hclean, hcareful⟩ :
        ∃ r ∈ exec (step twoStreams) (Careful twoStreams) .init (registerFrames 31 ++ deliverLast),
          ∃ r' ∈ step twoStreams r.1 (.runCallBack 0),
            ∃ r'' ∈ exec (step twoStreams) (Serial twoStreams) r'.1 pushLast,
              .cleaned 1 0 ∈ r'.2 ∧ Careful twoStreams r.1 (.runCallBack 0) := by
      decide +kernel
    exact ⟨es, s, s', es', Run.of_exec hexec, hstep, hclean,
      (droppedFrames ["a", "b"] (by decide) (Run.of_exec hexec)).2 0 s' es' 1 0 pushLast es'' s''
        hcareful hstep hclean (Run.of_exec hexec')⟩

/-- Thirty frames are registered.  Stream 0 delivers the first two, and the clean-up of
its second packet removes frame 1; then stream 1 delivers frame 1. -/
def lagging : List (Action Unit) :=
  (List.range 30).map (fun n => .setInputStreamCache (1000 + n) (n + 1)) ++
    [.callBackInferenceResult 0 ⟨1, ()⟩, .runCallBack 0, .runCallBack 0, .runCallBack 0,
      .callBackInferenceResult 0 ⟨2, ()⟩, .runCallBack 1, .runCallBack 1, .runCallBack 1,
      .callBackInferenceResult 1 ⟨1, ()⟩, .runCallBack 2, .runCallBack 2]

/-- A frame that both streams deliver, and that is neither evicted nor taken back, is
removed by a clean-up and never pushed. -/
theorem lagging_loses_frame :
    ∃ (s : RunningGraph Unit) (es : List Event),
      Run (step (.baseInit ["a", "b"])) (fun s a => Serial (.baseInit ["a", "b"]) s a ∧
        NotStopped s a) .init lagging es s ∧
      .registered 1 0 ∈ es ∧ .cleaned 1 0 ∈ es ∧ .evicted 1 0 ∉ es ∧ .cleared 1 ∉ es ∧
      (∀ o < 2, ∃ cb ∈ s.callBacks, cb.outputPacksOrder = o ∧ cb.packet.timestamp = 1 ∧
        cb.pc = .returned) ∧
      pushes es = [] :=
  ⟨_, _, Run.of_exec_get (by decide +kernel), by decide +kernel, by decide +kernel,
    by decide +kernel, by decide +kernel, by decide +kernel, by decide +kernel⟩

end XGraph

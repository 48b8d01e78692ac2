/-
Invariants of the frames.

The runs are those in which a stream delivers a timestamp at most once
(`AtMostOnce`).  Five invariants hold in them, each proved from `Shape` and the ones
before it:

* `Recorded` — cached and matched frames are registered ones, under their stamp;
* `Distinct` — no two callbacks have the same stream and the same timestamp;
* `Filled` — a frame holds exactly what the callbacks that matched it delivered;
* `Handed` — a callback that hands its frame on does so for a complete group, and
  there is only one such callback for each frame and group;
* `Live` — a cached frame still waits for a stream.

`Sound` is their conjunction, `Sound.step` says that a step keeps it.
-/
import HandTracking.FrameContents
import HandTracking.StepShape

namespace XGraph

open Transition

variable {P : Type} {L : Layout} {s s' : RunningGraph P} {a : Action P} {es es' : List Event}

/-- A callback comes from an output stream of the graph, and a stream delivers each
timestamp at most once. -/
def AtMostOnce (L : Layout) (s : RunningGraph P) : Action P → Prop
  | .callBackInferenceResult o p => o < L.outputStreamNum ∧
      ∀ cb ∈ s.callBacks, ¬(cb.outputPacksOrder = o ∧ cb.packet.timestamp = p.timestamp)
  | _ => True

instance (L : Layout) (s : RunningGraph P) : ∀ a, Decidable (AtMostOnce L s a)
  | .callBackInferenceResult o p => inferInstanceAs (Decidable (o < L.outputStreamNum ∧
      ∀ cb ∈ s.callBacks, ¬(cb.outputPacksOrder = o ∧ cb.packet.timestamp = p.timestamp)))
  | .setInputStreamCache _ _ => .isTrue trivial
  | .clearInputStreamCache _ => .isTrue trivial
  | .runCallBack _ => .isTrue trivial
  | .getOutputStreamCache _ _ => .isTrue trivial
  | .runConsumer _ => .isTrue trivial
  | .setGraphStarted _ => .isTrue trivial

/-- A callback of stream `o` has stored its packet in frame `f`. -/
def Delivered (s : RunningGraph P) (f o : ℕ) : Prop :=
  ∃ (i : ℕ) (cb : CallBack P), s.callBacks[i]? = some cb ∧ cb.outputPacksOrder = o ∧
    cb.matched.cache = some f

/-! ### Registered frames -/

/-- Cached and matched frames are registered ones, each under one stamp. -/
structure Recorded (es : List Event) (s : RunningGraph P) : Prop where
  lt : ∀ t f, .registered t f ∈ es → f < s.graph.heapSize
  unique : ∀ t t' f, .registered t f ∈ es → .registered t' f ∈ es → t = t'
  cached : ∀ t f, s.graph.inferenceStreamCache.find? t = some f → .registered t f ∈ es
  matched : ∀ (i : ℕ) (cb : CallBack P) f, s.callBacks[i]? = some cb →
    cb.matched.cache = some f → .registered cb.packet.timestamp f ∈ es

theorem recorded_init : Recorded [] (.init : RunningGraph P) where
  lt t f h := by cases h
  unique t t' f h := by cases h
  cached t f h := by cases h
  matched i cb f h := by cases h

/-- Callbacks after a step: a new one has matched nothing, and the others keep their
stream and packet, and the frame they have matched. -/
theorem Shape.matched_cases (h : Shape L s a es s') {j : ℕ} {cb' : CallBack P}
    {f : ℕ} (hj : s'.callBacks[j]? = some cb') (hf : cb'.matched.cache = some f) :
    ∃ cb, s.callBacks[j]? = some cb ∧ cb.outputPacksOrder = cb'.outputPacksOrder ∧
      cb.packet = cb'.packet ∧
      (cb.matched = cb'.matched ∨
        a = .runCallBack j ∧ cb.pc = .matching ∧
          s.graph.inferenceStreamCache.find? cb.packet.timestamp = some f ∧
          s'.graph.heap = Function.update s.graph.heap f
            ((s.graph.heap f).deliver cb.outputPacksOrder cb.packet) ∧
          cb'.handsOn = groudComplete L (s'.graph.heap f) cb.outputPacksOrder) := by
  cases h with
  | registered _ _ calls => exact ⟨cb', calls ▸ hj, rfl, rfl, Or.inl rfl⟩
  | called _ calls =>
    rw [calls] at hj
    rcases getElem?_concat hj with hj | ⟨_, rfl⟩
    · exact ⟨cb', hj, rfl, rfl, Or.inl rfl⟩
    · cases hf
  | matched action hi pc found order packet hcache hands _ calls heap =>
    rw [calls, getElem?_set_of_some hi] at hj
    split_ifs at hj with hji
    · obtain rfl := Option.some_inj.mp hj
      rw [hcache, Option.some_inj] at hf
      subst hf hji
      refine ⟨_, hi, order.symm, packet.symm, Or.inr ⟨action, pc, found, heap, ?_⟩⟩
      rw [heap, Function.update_self, hands]
    · exact ⟨cb', hj, rfl, rfl, Or.inl rfl⟩
  | advanced _ hi _ _ calls =>
    rw [calls, getElem?_set_of_some hi] at hj
    split_ifs at hj with hji
    · obtain rfl := Option.some_inj.mp hj
      subst hji
      exact ⟨_, hi, rfl, rfl, Or.inl rfl⟩
    · exact ⟨cb', hj, rfl, rfl, Or.inl rfl⟩
  | quiet calls => exact ⟨cb', calls ▸ hj, rfl, rfl, Or.inl rfl⟩

/-- The cache after a step: a frame in it is newly registered, or was in it. -/
theorem Shape.cached_cases (h : Shape L s a es s') {t : Int} {f : ℕ}
    (hf : s'.graph.inferenceStreamCache.find? t = some f) :
    .registered t f ∈ es ∨ s.graph.inferenceStreamCache.find? t = some f := by
  cases h with
  | registered _ _ _ _ _ cache new => exact (cache t f hf).imp_left (new t f).mpr
  | called _ _ graph => exact Or.inr (graph ▸ hf)
  | matched _ _ _ _ _ _ _ _ _ _ _ _ cache =>
    rw [cache] at hf
    split_ifs at hf
    · rw [OrderedMap.find?_erase] at hf
      split_ifs at hf
      exact Or.inr hf
    · exact Or.inr hf
  | advanced _ _ _ _ _ _ _ cache => exact Or.inr (cache t f hf)
  | quiet _ _ _ cache => exact Or.inr (cache t f hf)

/-- Registrations of a step take the next free reference. -/
theorem Shape.registered_cases (h : Shape L s a es s') :
    (s'.graph.heapSize = s.graph.heapSize + 1 ∧
      ∃ t, ∀ t' f, .registered t' f ∈ es ↔ t' = t ∧ f = s.graph.heapSize) ∨
    s'.graph.heapSize = s.graph.heapSize ∧ ∀ t f, .registered t f ∉ es := by
  cases h with
  | registered _ _ _ _ heapSize _ new => exact Or.inl ⟨heapSize, _, new⟩
  | called _ _ graph old => exact Or.inr ⟨by rw [graph], old⟩
  | matched _ _ _ _ _ _ _ _ _ _ _ heapSize _ old => exact Or.inr ⟨heapSize, old⟩
  | advanced _ _ _ _ _ _ heapSize _ old => exact Or.inr ⟨heapSize, old⟩
  | quiet _ _ heapSize _ old => exact Or.inr ⟨heapSize, old⟩

/-- Callbacks after a step: a new one was called by the step, and the others keep
their stream and packet. -/
theorem Shape.calls_cases (h : Shape L s a es s') {j : ℕ} {cb' : CallBack P}
    (hj : s'.callBacks[j]? = some cb') :
    (∃ cb, s.callBacks[j]? = some cb ∧ cb.outputPacksOrder = cb'.outputPacksOrder ∧
      cb.packet = cb'.packet) ∨
    j = s.callBacks.length ∧ a = .callBackInferenceResult cb'.outputPacksOrder cb'.packet := by
  cases h with
  | registered _ _ calls => exact Or.inl ⟨cb', calls ▸ hj, rfl, rfl⟩
  | called action calls =>
    rw [calls] at hj
    rcases getElem?_concat hj with hj | ⟨hlen, rfl⟩
    · exact Or.inl ⟨cb', hj, rfl, rfl⟩
    · exact Or.inr ⟨hlen, action⟩
  | matched _ hi _ _ order packet _ _ _ calls =>
    rw [calls, getElem?_set_of_some hi] at hj
    split_ifs at hj with hji
    · obtain rfl := Option.some_inj.mp hj
      subst hji
      exact Or.inl ⟨_, hi, order.symm, packet.symm⟩
    · exact Or.inl ⟨cb', hj, rfl, rfl⟩
  | advanced _ hi _ _ calls =>
    rw [calls, getElem?_set_of_some hi] at hj
    split_ifs at hj with hji
    · obtain rfl := Option.some_inj.mp hj
      subst hji
      exact Or.inl ⟨_, hi, rfl, rfl⟩
    · exact Or.inl ⟨cb', hj, rfl, rfl⟩
  | quiet calls => exact Or.inl ⟨cb', calls ▸ hj, rfl, rfl⟩

theorem Recorded.step (hr : Recorded es s) (h : Shape L s a es' s') :
    Recorded (es ++ es') s' where
  lt t f hf := by
    rcases List.mem_append.mp hf with hf | hf
    · have := hr.lt t f hf
      rcases h.registered_cases with ⟨hsize, _⟩ | ⟨hsize, _⟩
      · omega
      · omega
    · rcases h.registered_cases with ⟨hsize, t₀, hnew⟩ | ⟨_, hold⟩
      · have := ((hnew t f).mp hf).2
        omega
      · exact absurd hf (hold t f)
  unique t t' f hf hf' := by
    rcases h.registered_cases with ⟨_, t₀, hnew⟩ | ⟨_, hold⟩
    · rcases List.mem_append.mp hf with hf | hf
      · rcases List.mem_append.mp hf' with hf' | hf'
        · exact hr.unique t t' f hf hf'
        · have h₁ := hr.lt t f hf
          have h₂ := ((hnew t' f).mp hf').2
          omega
      · rcases List.mem_append.mp hf' with hf' | hf'
        · have h₁ := hr.lt t' f hf'
          have h₂ := ((hnew t f).mp hf).2
          omega
        · rw [((hnew t f).mp hf).1, ((hnew t' f).mp hf').1]
    · have hf := (List.mem_append.mp hf).resolve_right (hold t f)
      have hf' := (List.mem_append.mp hf').resolve_right (hold t' f)
      exact hr.unique t t' f hf hf'
  cached t f hf := by
    rcases h.cached_cases hf with hf | hf
    · exact List.mem_append_right _ hf
    · exact List.mem_append_left _ (hr.cached t f hf)
  matched j cb' f hj hf := by
    obtain ⟨cb, hcb, _, hpacket, hm⟩ := h.matched_cases hj hf
    refine List.mem_append_left _ ?_
    rw [← hpacket]
    rcases hm with hm | ⟨_, _, hfound, _⟩
    · exact hr.matched j cb f hcb (by rw [hm, hf])
    · exact hr.cached _ _ hfound

/-! ### Callbacks of one stream -/

/-- Callbacks come from the streams of the graph, and no two of them have the same
stream and timestamp. -/
structure Distinct (L : Layout) (s : RunningGraph P) : Prop where
  lt : ∀ (i : ℕ) (cb : CallBack P), s.callBacks[i]? = some cb →
    cb.outputPacksOrder < L.outputStreamNum
  inj : ∀ (i j : ℕ) (cb cb' : CallBack P), s.callBacks[i]? = some cb →
    s.callBacks[j]? = some cb' → cb.outputPacksOrder = cb'.outputPacksOrder →
    cb.packet.timestamp = cb'.packet.timestamp → i = j

theorem distinct_init : Distinct L (.init : RunningGraph P) where
  lt i cb hi := by cases hi
  inj i j cb cb' hi := by cases hi

theorem Distinct.step (hd : Distinct L s) (ha : AtMostOnce L s a) (h : Shape L s a es s') :
    Distinct L s' where
  lt i cb hi := by
    rcases h.calls_cases hi with ⟨cb₀, hcb₀, ho, _⟩ | ⟨_, rfl⟩
    · rw [← ho]
      exact hd.lt i cb₀ hcb₀
    · exact ha.1
  inj i j cb cb' hi hj ho ht := by
    rcases h.calls_cases hi with ⟨cb₁, h₁, ho₁, hp₁⟩ | ⟨hi', ha₁⟩
    · rcases h.calls_cases hj with ⟨cb₂, h₂, ho₂, hp₂⟩ | ⟨_, rfl⟩
      · exact hd.inj i j cb₁ cb₂ h₁ h₂ (by rw [ho₁, ho₂, ho]) (by rw [hp₁, hp₂, ht])
      · exact absurd ⟨ho₁.trans ho, by rw [hp₁, ht]⟩ (ha.2 cb₁ (List.mem_of_getElem? h₁))
    · rcases h.calls_cases hj with ⟨cb₂, h₂, ho₂, hp₂⟩ | ⟨hj', _⟩
      · subst ha₁
        exact absurd ⟨ho₂.trans ho.symm, by rw [hp₂, ht]⟩ (ha.2 cb₂ (List.mem_of_getElem? h₂))
      · rw [hi', hj']

/-! ### What a frame holds -/

/-- A frame holds exactly what the callbacks that matched it delivered. -/
structure Filled (L : Layout) (s : RunningGraph P) : Prop where
  set : ∀ f < s.graph.heapSize, ∃ D : Finset ℕ,
    (s.graph.heap f).Represents L.outputStreamNum D ∧ ∀ o, o ∈ D ↔ Delivered s f o
  packs : ∀ (i : ℕ) (cb : CallBack P) f, s.callBacks[i]? = some cb →
    cb.matched.cache = some f →
    (s.graph.heap f).outputPacks[cb.outputPacksOrder]? = some (some cb.packet)

theorem delivered_of_calls_eq (calls : s'.callBacks = s.callBacks) {f o : ℕ} :
    Delivered s' f o ↔ Delivered s f o := by
  rw [Delivered, Delivered, calls]

/-- A callback that was just called has delivered nothing. -/
theorem delivered_called {p : Packet P} {o₀ : ℕ}
    (calls : s'.callBacks = s.callBacks ++ [{ outputPacksOrder := o₀, packet := p }]) {f o : ℕ} :
    Delivered s' f o ↔ Delivered s f o := by
  rw [Delivered, Delivered, calls]
  constructor
  · rintro ⟨i, cb, hi, ho, hf⟩
    rcases getElem?_concat hi with hi | ⟨_, rfl⟩
    · exact ⟨i, cb, hi, ho, hf⟩
    · cases hf
  · rintro ⟨i, cb, hi, ho, hf⟩
    have hlt : i < s.callBacks.length := (List.getElem?_eq_some_iff.mp hi).choose
    exact ⟨i, cb, by rw [List.getElem?_append_left hlt, hi], ho, hf⟩

/-- A callback that moves on keeps what it has delivered. -/
theorem delivered_advanced {i : ℕ} {cb : CallBack P} {pc' : Pc} (hi : s.callBacks[i]? = some cb)
    (calls : s'.callBacks = s.callBacks.set i { cb with pc := pc' }) {f o : ℕ} :
    Delivered s' f o ↔ Delivered s f o := by
  rw [Delivered, Delivered, calls]
  constructor
  · rintro ⟨j, cb', hj, ho, hf⟩
    rw [getElem?_set_of_some hi] at hj
    split_ifs at hj with hji
    · obtain rfl := Option.some_inj.mp hj
      exact ⟨i, cb, hi, ho, hf⟩
    · exact ⟨j, cb', hj, ho, hf⟩
  · rintro ⟨j, cb', hj, ho, hf⟩
    by_cases hji : j = i
    · subst hji
      obtain rfl := Option.some_inj.mp (hi.symm.trans hj)
      exact ⟨j, { cb with pc := pc' }, by rw [getElem?_set_of_some hi, if_pos rfl], ho, hf⟩
    · exact ⟨j, cb', by rw [getElem?_set_of_some hi, if_neg hji, hj], ho, hf⟩

/-- A callback that matches frame `f₀` delivers to it. -/
theorem delivered_matched {i f₀ : ℕ} {cb cb' : CallBack P} (hi : s.callBacks[i]? = some cb)
    (hnone : cb.matched = {}) (order : cb'.outputPacksOrder = cb.outputPacksOrder)
    (hcache : cb'.matched.cache = some f₀) (calls : s'.callBacks = s.callBacks.set i cb')
    {f o : ℕ} :
    Delivered s' f o ↔ Delivered s f o ∨ f = f₀ ∧ o = cb.outputPacksOrder := by
  rw [Delivered, Delivered, calls]
  constructor
  · rintro ⟨j, cb₁, hj, ho, hf⟩
    rw [getElem?_set_of_some hi] at hj
    split_ifs at hj with hji
    · obtain rfl := Option.some_inj.mp hj
      rw [hcache, Option.some_inj] at hf
      exact Or.inr ⟨hf.symm, by rw [← ho, order]⟩
    · exact Or.inl ⟨j, cb₁, hj, ho, hf⟩
  · rintro (⟨j, cb₁, hj, ho, hf⟩ | ⟨rfl, rfl⟩)
    · have hji : j ≠ i := by
        rintro rfl
        obtain rfl := Option.some_inj.mp (hi.symm.trans hj)
        rw [hnone] at hf
        cases hf
      exact ⟨j, cb₁, by rw [getElem?_set_of_some hi, if_neg hji, hj], ho, hf⟩
    · exact ⟨i, cb', by rw [getElem?_set_of_some hi, if_pos rfl], order, hcache⟩

/-- What has been delivered stays delivered. -/
theorem Shape.delivered_mono (hfresh : Fresh s) (h : Shape L s a es s') {f o : ℕ}
    (hdel : Delivered s f o) : Delivered s' f o := by
  cases h with
  | registered _ _ calls => exact (delivered_of_calls_eq calls).mpr hdel
  | called _ calls => exact (delivered_called calls).mpr hdel
  | matched _ hi pc _ order _ hcache _ _ calls =>
    exact (delivered_matched hi (hfresh _ _ hi pc) order hcache calls).mpr (Or.inl hdel)
  | advanced _ hi _ _ calls => exact (delivered_advanced hi calls).mpr hdel
  | quiet calls => exact (delivered_of_calls_eq calls).mpr hdel

/-- A callback that is about to match is the first of its stream to deliver to the
frame. -/
theorem not_delivered_of_matching (hr : Recorded es s) (hd : Distinct L s) (hfresh : Fresh s)
    {i f : ℕ} {cb : CallBack P} (hi : s.callBacks[i]? = some cb) (pc : cb.pc = .matching)
    (found : s.graph.inferenceStreamCache.find? cb.packet.timestamp = some f) :
    ¬Delivered s f cb.outputPacksOrder := by
  rintro ⟨j, cb', hj, ho, hf⟩
  have ht : cb'.packet.timestamp = cb.packet.timestamp :=
    hr.unique _ _ f (hr.matched j cb' f hj hf) (hr.cached _ f found)
  obtain rfl := hd.inj j i cb' cb hj hi ho ht
  obtain rfl := Option.some_inj.mp (hi.symm.trans hj)
  rw [hfresh _ _ hi pc] at hf
  cases hf

/-- A packet that was delivered stays in its place. -/
theorem Shape.getElem?_packs (hr : Recorded es s) (hd : Distinct L s) (hfresh : Fresh s)
    (h : Shape L s a es' s') {f o : ℕ} (hdel : Delivered s f o) :
    (s'.graph.heap f).outputPacks[o]? = (s.graph.heap f).outputPacks[o]? := by
  have hlt : f < s.graph.heapSize := by
    obtain ⟨i, cb, hi, _, hf⟩ := hdel
    exact hr.lt _ f (hr.matched i cb f hi hf)
  cases h with
  | registered _ _ _ heap => rw [heap, Function.update_of_ne hlt.ne]
  | called _ _ graph => rw [graph]
  | @matched i cb cb' f₀ _ hi pc found _ _ _ _ _ _ heap =>
    rw [heap]
    by_cases hf : f = f₀
    · subst hf
      have hne : o ≠ cb.outputPacksOrder := by
        rintro rfl
        exact not_delivered_of_matching hr hd hfresh hi pc found hdel
      rw [Function.update_self, StreamCache.getElem?_deliver, if_neg hne]
    · rw [Function.update_of_ne hf]
  | advanced _ _ _ _ _ heap => rw [heap]
  | quiet _ heap => rw [heap]

theorem filled_init : Filled L (.init : RunningGraph P) where
  set f hf := absurd hf (Nat.not_lt_zero f)
  packs i cb f hi := by cases hi

theorem Filled.step_set (hfill : Filled L s) (hr : Recorded es s) (hd : Distinct L s)
    (hfresh : Fresh s) (h : Shape L s a es' s') :
    ∀ f < s'.graph.heapSize, ∃ D : Finset ℕ,
      (s'.graph.heap f).Represents L.outputStreamNum D ∧ ∀ o, o ∈ D ↔ Delivered s' f o := by
  intro f hf
  cases h with
  | registered _ _ calls heap heapSize =>
    rw [heapSize] at hf
    rw [heap]
    by_cases hnew : f = s.graph.heapSize
    · subst hnew
      rw [Function.update_self]
      -- nothing was delivered to the new frame yet
      refine ⟨∅, .init _ _, fun o => ?_⟩
      rw [delivered_of_calls_eq calls]
      constructor
      · intro ho
        exact absurd ho (Finset.notMem_empty o)
      · rintro ⟨i, cb, hi, _, hcache⟩
        exact absurd (hr.lt _ _ (hr.matched i cb _ hi hcache)) (lt_irrefl _)
    · rw [Function.update_of_ne hnew]
      obtain ⟨D, hD, hmem⟩ := hfill.set f (by omega)
      exact ⟨D, hD, fun o => (hmem o).trans (delivered_of_calls_eq calls).symm⟩
  | called _ calls graph =>
    rw [graph] at hf ⊢
    obtain ⟨D, hD, hmem⟩ := hfill.set f hf
    exact ⟨D, hD, fun o => (hmem o).trans (delivered_called calls).symm⟩
  | @matched i cb cb' f₀ _ hi pc found order _ hcache _ _ calls heap heapSize =>
    rw [heapSize] at hf
    rw [heap]
    obtain ⟨D, hD, hmem⟩ := hfill.set f hf
    have hdel : ∀ o, Delivered s' f o ↔ Delivered s f o ∨ f = f₀ ∧ o = cb.outputPacksOrder :=
      fun o => delivered_matched hi (hfresh _ _ hi pc) order hcache calls
    by_cases hf₀ : f = f₀
    · subst hf₀
      rw [Function.update_self]
      -- the output was not delivered before, since its callback is matching
      have hnew := not_delivered_of_matching hr hd hfresh hi pc found
      refine ⟨_, hD.deliver (hd.lt _ _ hi) (fun h => hnew ((hmem _).mp h)) _, fun o => ?_⟩
      rw [Finset.mem_insert, hmem, hdel, or_comm]
      simp
    · rw [Function.update_of_ne hf₀]
      refine ⟨D, hD, fun o => ?_⟩
      rw [hmem, hdel]
      simp [hf₀]
  | advanced _ hi _ _ calls heap heapSize =>
    rw [heapSize] at hf
    rw [heap]
    obtain ⟨D, hD, hmem⟩ := hfill.set f hf
    exact ⟨D, hD, fun o => (hmem o).trans (delivered_advanced hi calls).symm⟩
  | quiet calls heap heapSize =>
    rw [heapSize] at hf
    rw [heap]
    obtain ⟨D, hD, hmem⟩ := hfill.set f hf
    exact ⟨D, hD, fun o => (hmem o).trans (delivered_of_calls_eq calls).symm⟩

theorem Filled.step (hfill : Filled L s) (hr : Recorded es s) (hd : Distinct L s)
    (hfresh : Fresh s) (h : Shape L s a es' s') : Filled L s' where
  set := hfill.step_set hr hd hfresh h
  packs j cb' f hj hf := by
    obtain ⟨cb, hcb, ho, hp, hm⟩ := h.matched_cases hj hf
    rw [← ho, ← hp]
    rcases hm with hm | ⟨_, _, found, heap, _⟩
    · have hcache : cb.matched.cache = some f := by rw [hm, hf]
      rw [h.getElem?_packs hr hd hfresh ⟨j, cb, hcb, rfl, hcache⟩]
      exact hfill.packs j cb f hcb hcache
    · obtain ⟨D, hD, _⟩ := hfill.set f (hr.lt _ f (hr.cached _ f found))
      have hlen : cb.outputPacksOrder < (s.graph.heap f).outputPacks.length := by
        rw [hD.length]
        exact hd.lt j cb hcb
      rw [heap, Function.update_self, StreamCache.getElem?_deliver, if_pos rfl,
        List.getElem?_eq_getElem hlen]
      rfl

/-! ### Complete groups -/

/-- The callback is inside `MoveOutputCache` with frame `f`. -/
def Pc.Pending (pc : Pc) (f : ℕ) : Prop := pc = .moving f ∨ pc = .locking f ∨ pc = .waiting f

/-- The callback has left `MoveOutputCache`, or never entered it. -/
def Pc.Past (pc : Pc) : Prop := pc = .checking ∨ pc = .cleaning ∨ pc = .returned

theorem Pc.Past.not_pending {pc : Pc} {f : ℕ} (h : pc.Past) : ¬pc.Pending f := by
  rcases h with rfl | rfl | rfl <;> simp [Pc.Pending]

/-- The callbacks that hand their frame on: the group is complete, nobody else hands
the frame on for that group, and a callback in `MoveOutputCache` is one of them. -/
structure Handed (L : Layout) (s : RunningGraph P) : Prop where
  complete : ∀ (i : ℕ) (cb : CallBack P) f, s.callBacks[i]? = some cb → cb.handsOn = true →
    cb.matched.cache = some f → ∀ o < L.outputStreamNum,
      L.groudIndex o = L.groudIndex cb.outputPacksOrder → Delivered s f o
  unique : ∀ (i j : ℕ) (cb cb' : CallBack P) f, s.callBacks[i]? = some cb →
    s.callBacks[j]? = some cb' → cb.handsOn = true → cb'.handsOn = true →
    cb.matched.cache = some f → cb'.matched.cache = some f →
    L.groudIndex cb.outputPacksOrder = L.groudIndex cb'.outputPacksOrder → i = j
  pending : ∀ (i : ℕ) (cb : CallBack P) f, s.callBacks[i]? = some cb → cb.pc.Pending f →
    cb.handsOn = true ∧ cb.matched.cache = some f

theorem handed_init : Handed L (.init : RunningGraph P) where
  complete i cb f hi := by cases hi
  unique i j cb cb' f hi := by cases hi
  pending i cb f hi := by cases hi

theorem Handed.step_complete (hh : Handed L s) (hL : L.Synced) (hd : Distinct L s)
    (hr' : Recorded es s') (hfill' : Filled L s') (hfresh : Fresh s) (h : Shape L s a es' s')
    {j f : ℕ} {cb' : CallBack P} (hj : s'.callBacks[j]? = some cb') (hands : cb'.handsOn = true)
    (hf : cb'.matched.cache = some f) {o : ℕ} (ho : o < L.outputStreamNum)
    (hg : L.groudIndex o = L.groudIndex cb'.outputPacksOrder) : Delivered s' f o := by
  obtain ⟨cb, hcb, horder, _, hm⟩ := h.matched_cases hj hf
  rw [← horder] at hg
  rcases hm with hm | ⟨_, _, _, _, hcomplete⟩
  · rw [CallBack.handsOn, ← hm] at hands
    rw [← hm] at hf
    exact h.delivered_mono hfresh (hh.complete j cb f hcb hands hf o ho hg)
  · obtain ⟨D, hD, hmem⟩ := hfill'.set f (hr'.lt _ f (hr'.matched j cb' f hj hf))
    rw [hands] at hcomplete
    exact (hmem o).mp ((hD.groudComplete_iff hL (hd.lt j cb hcb)).mp hcomplete.symm o ho hg)

/-- A stream that matches a frame for the first time finds its group incomplete. -/
theorem Handed.not_complete (hh : Handed L s) (hr : Recorded es s) (hd : Distinct L s)
    (hfresh : Fresh s) {i j f : ℕ} {cb cb' : CallBack P} (hi : s.callBacks[i]? = some cb)
    (hands : cb.handsOn = true) (hf : cb.matched.cache = some f)
    (hj : s.callBacks[j]? = some cb') (pc : cb'.pc = .matching)
    (found : s.graph.inferenceStreamCache.find? cb'.packet.timestamp = some f) :
    L.groudIndex cb'.outputPacksOrder ≠ L.groudIndex cb.outputPacksOrder := by
  intro hg
  refine not_delivered_of_matching hr hd hfresh hj pc found ?_
  exact hh.complete i cb f hi hands hf _ (hd.lt j cb' hj) hg

theorem Handed.step_unique (hh : Handed L s) (hr : Recorded es s) (hd : Distinct L s)
    (hfresh : Fresh s) (h : Shape L s a es' s') {i j f : ℕ} {cb cb' : CallBack P}
    (hi : s'.callBacks[i]? = some cb) (hj : s'.callBacks[j]? = some cb')
    (hands : cb.handsOn = true) (hands' : cb'.handsOn = true) (hf : cb.matched.cache = some f)
    (hf' : cb'.matched.cache = some f)
    (hg : L.groudIndex cb.outputPacksOrder = L.groudIndex cb'.outputPacksOrder) : i = j := by
  obtain ⟨c, hc, ho, _, hm⟩ := h.matched_cases hi hf
  obtain ⟨c', hc', ho', _, hm'⟩ := h.matched_cases hj hf'
  rw [← ho, ← ho'] at hg
  rcases hm with hm | ⟨hact, hpc, hfound, _⟩
  · rw [CallBack.handsOn, ← hm] at hands
    rw [← hm] at hf
    rcases hm' with hm' | ⟨_, hpc', hfound', _⟩
    · rw [CallBack.handsOn, ← hm'] at hands'
      rw [← hm'] at hf'
      exact hh.unique i j c c' f hc hc' hands hands' hf hf' hg
    · exact absurd hg.symm (hh.not_complete hr hd hfresh hc hands hf hc' hpc' hfound')
  · rcases hm' with hm' | ⟨hact', _⟩
    · rw [CallBack.handsOn, ← hm'] at hands'
      rw [← hm'] at hf'
      exact absurd hg (hh.not_complete hr hd hfresh hc' hands' hf' hc hpc hfound)
    · rw [hact] at hact'
      exact Action.runCallBack.inj hact'

theorem Handed.step_pending (hh : Handed L s) (h : Shape L s a es' s') {j f : ℕ}
    {cb' : CallBack P} (hj : s'.callBacks[j]? = some cb') (hpc : cb'.pc.Pending f) :
    cb'.handsOn = true ∧ cb'.matched.cache = some f := by
  cases h with
  | registered _ _ calls => exact hh.pending j cb' f (calls ▸ hj) hpc
  | called _ calls =>
    rw [calls] at hj
    rcases getElem?_concat hj with hj | ⟨_, rfl⟩
    · exact hh.pending j cb' f hj hpc
    · simp [Pc.Pending] at hpc
  | matched _ hi _ _ _ _ hcache _ hpc' calls =>
    rw [calls, getElem?_set_of_some hi] at hj
    split_ifs at hj with hji
    · obtain rfl := Option.some_inj.mp hj
      rw [hpc'] at hpc
      split_ifs at hpc with hands
      · obtain hpc | hpc | hpc := hpc
        · exact ⟨hands, by rw [hcache, Pc.moving.inj hpc]⟩
        · cases hpc
        · cases hpc
      · simp [Pc.Pending] at hpc
    · exact hh.pending j cb' f hj hpc
  | @advanced i cb pc' _ hi _ pending calls =>
    rw [calls, getElem?_set_of_some hi] at hj
    split_ifs at hj with hji
    · obtain rfl := Option.some_inj.mp hj
      -- a callback that is pending after its own step was so before
      change pc'.Pending f at hpc
      rcases pending with rfl | rfl | rfl | ⟨f', hold, hnew⟩
      · simp [Pc.Pending] at hpc
      · simp [Pc.Pending] at hpc
      · simp [Pc.Pending] at hpc
      · have hff : f' = f := by
          rcases hnew with rfl | rfl
          · simpa [Pc.Pending] using hpc
          · simpa [Pc.Pending] using hpc
        exact hh.pending i cb f hi (hff ▸ hold)
    · exact hh.pending j cb' f hj hpc
  | quiet calls => exact hh.pending j cb' f (calls ▸ hj) hpc

theorem Handed.step (hh : Handed L s) (hL : L.Synced) (hr : Recorded es s) (hd : Distinct L s)
    (hfresh : Fresh s) (hr' : Recorded (es ++ es') s') (hfill' : Filled L s')
    (h : Shape L s a es' s') : Handed L s' where
  complete _ _ _ hj hands hf _ ho hg :=
    hh.step_complete hL hd hr' hfill' hfresh h hj hands hf ho hg
  unique _ _ _ _ _ hi hj hands hands' hf hf' hg :=
    hh.step_unique hr hd hfresh h hi hj hands hands' hf hf' hg
  pending _ _ _ hj hpc := hh.step_pending h hj hpc

/-! ### Cached frames are incomplete -/

/-- A cached frame still waits for a stream. -/
def Live (L : Layout) (s : RunningGraph P) : Prop :=
  ∀ t f, s.graph.inferenceStreamCache.find? t = some f → 0 < L.outputStreamNum →
    ∃ o < L.outputStreamNum, ¬Delivered s f o

theorem live_init : Live L (.init : RunningGraph P) := by
  intro t f hf
  cases hf

theorem Live.step (hl : Live L s) (hr : Recorded es s) (hr' : Recorded (es ++ es') s')
    (hfill' : Filled L s') (hfresh : Fresh s) (h : Shape L s a es' s') : Live L s' := by
  intro t f hf hn
  cases h with
  | registered _ _ calls _ _ cache =>
    rcases cache t f hf with ⟨_, rfl⟩ | hold
    · refine ⟨0, hn, fun hdel => ?_⟩
      obtain ⟨i, cb, hi, _, hcache⟩ := (delivered_of_calls_eq calls).mp hdel
      exact absurd (hr.lt _ _ (hr.matched i cb _ hi hcache)) (lt_irrefl _)
    · obtain ⟨o, ho, hdel⟩ := hl t f hold hn
      exact ⟨o, ho, fun h => hdel ((delivered_of_calls_eq calls).mp h)⟩
  | called _ calls graph =>
    rw [graph] at hf
    obtain ⟨o, ho, hdel⟩ := hl t f hf hn
    exact ⟨o, ho, fun h => hdel ((delivered_called calls).mp h)⟩
  | @matched i cb cb' f₀ _ hi pc found order _ hcache _ _ calls heap _ cache =>
    by_cases hff : f = f₀
    · subst hff
      -- the frame is still cached, so it was not full
      have hnot : ¬(s'.graph.heap f).full = true := by
        intro hfull
        rw [heap, Function.update_self] at hfull
        rw [cache, if_pos hfull, OrderedMap.find?_erase] at hf
        split_ifs at hf with ht
        exact ht (hr.unique _ _ f (hr.cached _ f hf) (hr.cached _ f found))
      obtain ⟨D, hD, hmem⟩ := hfill'.set f (hr'.lt t f (hr'.cached t f hf))
      rw [hD.full_iff] at hnot
      push Not at hnot
      obtain ⟨o, ho, hnD⟩ := hnot
      exact ⟨o, ho, fun hdel => hnD ((hmem o).mpr hdel)⟩
    · have hold : s.graph.inferenceStreamCache.find? t = some f := by
        rw [cache] at hf
        split_ifs at hf
        · rw [OrderedMap.find?_erase] at hf
          split_ifs at hf
          exact hf
        · exact hf
      obtain ⟨o, ho, hdel⟩ := hl t f hold hn
      refine ⟨o, ho, fun h => ?_⟩
      rcases (delivered_matched hi (hfresh _ _ hi pc) order hcache calls).mp h with h | h
      · exact hdel h
      · exact hff h.1
  | advanced _ hi _ _ calls _ _ cache =>
    obtain ⟨o, ho, hdel⟩ := hl t f (cache t f hf) hn
    exact ⟨o, ho, fun h => hdel ((delivered_advanced hi calls).mp h)⟩
  | quiet calls _ _ cache =>
    obtain ⟨o, ho, hdel⟩ := hl t f (cache t f hf) hn
    exact ⟨o, ho, fun h => hdel ((delivered_of_calls_eq calls).mp h)⟩

/-! ### All of them, over a run -/

/-- The invariants of the runs in which a stream delivers a timestamp at most once. -/
structure Sound (L : Layout) (es : List Event) (s : RunningGraph P) : Prop where
  fresh : Fresh s
  recorded : Recorded es s
  distinct : Distinct L s
  filled : Filled L s
  handed : Handed L s
  live : Live L s

theorem sound_init : Sound L [] (.init : RunningGraph P) where
  fresh := fresh_init
  recorded := recorded_init
  distinct := distinct_init
  filled := filled_init
  handed := handed_init
  live := live_init

theorem Sound.step (hL : L.Synced) (hs : Sound L es s) (ha : AtMostOnce L s a)
    (h : Effect L s a es' s') : Sound L (es ++ es') s' := by
  have hshape := h.shape hs.fresh
  have hr' := hs.recorded.step hshape
  have hfill' := hs.filled.step hs.recorded hs.distinct hs.fresh hshape
  exact {
    fresh := h.fresh hs.fresh
    recorded := hr'
    distinct := hs.distinct.step ha hshape
    filled := hfill'
    handed := hs.handed.step hL hs.recorded hs.distinct hs.fresh hr' hfill' hshape
    live := hs.live.step hs.recorded hr' hfill' hs.fresh hshape }

end XGraph

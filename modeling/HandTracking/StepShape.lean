/-
A step as the frames, the callbacks and the output lists see it.

Most invariants look at one side of a step only.  `Shape` forgets the output lists
and the events other than registrations, `OutShape` forgets the frames.

* `Effect.shape` — five things can happen to the frames and the callbacks;
* `Fresh`, `Effect.fresh` — a callback that has not matched yet has its locals
  untouched;
* `Effect.outShape` — four things can happen to the output lists and the consumers.
-/
import HandTracking.XGraphSystem

namespace XGraph

variable {P : Type}

/-! ### A step seen from the frames and the callbacks -/

/-- A callback that has not matched yet has its locals untouched. -/
def Fresh (s : RunningGraph P) : Prop :=
  ∀ (i : ℕ) (cb : CallBack P), s.callBacks[i]? = some cb → cb.pc = .matching → cb.matched = {}

/-- The step as the frames and the callbacks see it: a frame is allocated, a
callback is called, a callback matches, a callback moves on, or neither changes. -/
inductive Shape (L : Layout) (s : RunningGraph P) (a : Action P) (es : List Event)
    (s' : RunningGraph P) : Prop
  | registered {t : Int} {raw : ℕ} (action : a = .setInputStreamCache raw t)
      (fresh : s.graph.inferenceStreamCache.find? t = none)
      (calls : s'.callBacks = s.callBacks)
      (heap : s'.graph.heap = Function.update s.graph.heap s.graph.heapSize
        (.init raw L.outputStreamNum))
      (heapSize : s'.graph.heapSize = s.graph.heapSize + 1)
      (cache : ∀ t' f, s'.graph.inferenceStreamCache.find? t' = some f →
        t' = t ∧ f = s.graph.heapSize ∨ s.graph.inferenceStreamCache.find? t' = some f)
      (new : ∀ t' f, .registered t' f ∈ es ↔ t' = t ∧ f = s.graph.heapSize)
  | called {o : ℕ} {p : Packet P} (action : a = .callBackInferenceResult o p)
      (calls : s'.callBacks = s.callBacks ++ [{ outputPacksOrder := o, packet := p }])
      (graph : s'.graph = s.graph) (old : ∀ t f, .registered t f ∉ es)
  | matched {i : ℕ} {cb cb' : CallBack P} {f : ℕ} (action : a = .runCallBack i)
      (hi : s.callBacks[i]? = some cb) (pc : cb.pc = .matching)
      (found : s.graph.inferenceStreamCache.find? cb.packet.timestamp = some f)
      (order : cb'.outputPacksOrder = cb.outputPacksOrder) (packet : cb'.packet = cb.packet)
      (hcache : cb'.matched.cache = some f)
      (hands : cb'.handsOn = groudComplete L
        ((s.graph.heap f).deliver cb.outputPacksOrder cb.packet) cb.outputPacksOrder)
      (pc' : cb'.pc = if cb'.handsOn then .moving f else .checking)
      (calls : s'.callBacks = s.callBacks.set i cb')
      (heap : s'.graph.heap = Function.update s.graph.heap f
        ((s.graph.heap f).deliver cb.outputPacksOrder cb.packet))
      (heapSize : s'.graph.heapSize = s.graph.heapSize)
      (cache : s'.graph.inferenceStreamCache =
        if ((s.graph.heap f).deliver cb.outputPacksOrder cb.packet).full
        then s.graph.inferenceStreamCache.erase cb.packet.timestamp
        else s.graph.inferenceStreamCache)
      (old : ∀ t f, .registered t f ∉ es)
  | advanced {i : ℕ} {cb : CallBack P} {pc' : Pc} (action : a = .runCallBack i)
      (hi : s.callBacks[i]? = some cb) (running : cb.pc ≠ .returned)
      (pending : pc' = .checking ∨ pc' = .cleaning ∨ pc' = .returned ∨
        ∃ f, (cb.pc = .moving f ∨ cb.pc = .locking f ∨ cb.pc = .waiting f) ∧
          (pc' = .locking f ∨ pc' = .waiting f))
      (calls : s'.callBacks = s.callBacks.set i { cb with pc := pc' })
      (heap : s'.graph.heap = s.graph.heap) (heapSize : s'.graph.heapSize = s.graph.heapSize)
      (cache : ∀ t f, s'.graph.inferenceStreamCache.find? t = some f →
        s.graph.inferenceStreamCache.find? t = some f)
      (old : ∀ t f, .registered t f ∉ es)
      (missed : cb.pc = .matching →
        s.graph.inferenceStreamCache.find? cb.packet.timestamp = none)
  | quiet (calls : s'.callBacks = s.callBacks) (heap : s'.graph.heap = s.graph.heap)
      (heapSize : s'.graph.heapSize = s.graph.heapSize)
      (cache : ∀ t f, s'.graph.inferenceStreamCache.find? t = some f →
        s.graph.inferenceStreamCache.find? t = some f)
      (old : ∀ t f, .registered t f ∉ es)

section

variable {L : Layout} {s s' : RunningGraph P} {a : Action P} {es : List Event}

theorem Effect.shape (hfresh : Fresh s) (h : Effect L s a es s') : Shape L s a es s' := by
  cases h with
  | registered _ fresh =>
    refine .registered rfl fresh rfl rfl rfl (fun t' f hf => ?_) (by simp)
    have := OrderedMap.find?_eraseFrontWhile_sub hf
    rw [OrderedMap.find?_insert] at this
    split_ifs at this with ht
    · rw [fresh, Option.getD_none, Option.some_inj] at this
      exact Or.inl ⟨ht, this.symm⟩
    · exact Or.inr this
  | notRegistered => exact .quiet rfl rfl rfl (fun _ _ h => h) (by simp)
  | cleared =>
    refine .quiet rfl rfl rfl (fun t' f hf => ?_) (by simp)
    rw [OrderedMap.find?_erase] at hf
    split_ifs at hf
    exact hf
  | called => exact .called rfl rfl rfl (by simp)
  | @unmatched i cb hi pc missing =>
    refine .advanced rfl hi (by simp [pc]) (Or.inl rfl) ?_ rfl rfl (fun _ _ h => h) (by simp)
      fun _ => missing
    rw [← hfresh i cb hi pc]
  | @matched i cb f m frame hi pc found hframe hcache hands =>
    subst hframe
    -- a frame that is not moved goes on to the check
    let cb' : CallBack P :=
      { cb with matched := m, pc := if m.isMove || m.isPartedShared then .moving f else .checking }
    exact @Shape.matched P L _ _ _ _ i cb cb' f rfl hi pc found rfl rfl hcache hands rfl rfl rfl
      rfl rfl
      (by split_ifs <;> simp)
  | @tested i cb f hi pc =>
    refine .advanced rfl hi (by simp [pc]) ?_ rfl rfl rfl (fun _ _ h => h) (by simp)
      (by simp [pc])
    by_cases hg : s.graph.graphStarted = true
    · exact Or.inr (Or.inr (Or.inr ⟨f, Or.inl pc, Or.inl (if_pos hg)⟩))
    · exact Or.inl (if_neg hg)
  | @pushed i cb f list hi pc =>
    -- a callback in front of the list has found its frame already
    have hne : cb.pc ≠ .returned ∧ cb.pc ≠ .matching := by
      rcases pc with ⟨pc, -⟩ | pc <;> simp [pc]
    exact .advanced rfl hi hne.1 (Or.inl rfl) rfl rfl rfl (fun _ _ h => h) (by simp)
      fun h => absurd h hne.2
  | @dropped i cb f hi pc =>
    have hne : cb.pc ≠ .returned ∧ cb.pc ≠ .matching := by
      rcases pc with ⟨pc, -⟩ | pc <;> simp [pc]
    exact .advanced rfl hi hne.1 (Or.inl rfl) rfl rfl rfl (fun _ _ h => h) (by simp)
      fun h => absurd h hne.2
  | @waits i cb f hi pc =>
    have hne : cb.pc ≠ .returned ∧ cb.pc ≠ .matching := by
      rcases pc with ⟨pc, -⟩ | pc <;> simp [pc]
    refine .advanced rfl hi hne.1
      (Or.inr (Or.inr (Or.inr ⟨f, Or.inr ?_, Or.inr rfl⟩))) rfl rfl rfl (fun _ _ h => h)
      (by simp) fun h => absurd h hne.2
    exact pc.imp And.left id
  | checked hi pc =>
    refine .advanced rfl hi (by simp [pc]) ?_ rfl rfl rfl (fun _ _ h => h) (by simp)
      (by simp [pc])
    split_ifs
    · exact Or.inr (Or.inl rfl)
    · exact Or.inr (Or.inr (Or.inl rfl))
  | cleaned hi pc =>
    refine .advanced rfl hi (by simp [pc]) (Or.inr (Or.inr (Or.inl rfl))) rfl rfl rfl
      (fun t f hf => ?_) (by simp) (by simp [pc])
    rw [find?_cleanMediapipeDroped] at hf
    split_ifs at hf
    exact hf
  | gotNothing => exact .quiet rfl rfl rfl (fun _ _ h => h) (by simp)
  | asked => exact .quiet rfl rfl rfl (fun _ _ h => h) (by simp)
  | got => exact .quiet rfl rfl rfl (fun _ _ h => h) (by simp)
  | setGraphStarted => exact .quiet rfl rfl rfl (fun _ _ h => h) (by simp)

/-- Setting a callback that exists changes the lookup at its index only. -/
theorem getElem?_set_of_some {α : Type} {l : List α} {i : ℕ} {x y : α} (h : l[i]? = some x)
    (j : ℕ) : (l.set i y)[j]? = if j = i then some y else l[j]? := by
  have hlt : i < l.length := (List.getElem?_eq_some_iff.mp h).choose
  rw [List.getElem?_set]
  by_cases hij : i = j
  · subst hij
    simp [hlt]
  · simp [hij, Ne.symm hij]

/-- A new callback comes after all the others. -/
theorem getElem?_concat {α : Type} {l : List α} {x y : α} {j : ℕ}
    (h : (l ++ [x])[j]? = some y) : l[j]? = some y ∨ j = l.length ∧ y = x := by
  rcases lt_trichotomy j l.length with hlt | rfl | hgt
  · rw [List.getElem?_append_left hlt] at h
    exact Or.inl h
  · rw [List.getElem?_concat_length, Option.some_inj] at h
    exact Or.inr ⟨rfl, h.symm⟩
  · rw [List.getElem?_eq_none (by rw [List.length_append, List.length_singleton]; omega)] at h
    exact absurd h (by simp)

theorem Effect.fresh (hfresh : Fresh s) (h : Effect L s a es s') : Fresh s' := by
  intro i cb hi hpc
  cases h.shape hfresh with
  | registered _ _ calls => exact hfresh i cb (calls ▸ hi) hpc
  | called _ calls =>
    rw [calls] at hi
    rcases getElem?_concat hi with hi | ⟨_, rfl⟩
    · exact hfresh i cb hi hpc
    · rfl
  | matched _ hj _ _ _ _ _ _ hpc' calls =>
    rw [calls, getElem?_set_of_some hj] at hi
    split_ifs at hi
    · obtain rfl := Option.some_inj.mp hi
      rw [hpc'] at hpc
      split_ifs at hpc
    · exact hfresh i cb hi hpc
  | advanced _ hj _ pending calls =>
    rw [calls, getElem?_set_of_some hj] at hi
    split_ifs at hi
    · obtain rfl := Option.some_inj.mp hi
      rcases pending with h | h | h | ⟨_, _, h | h⟩ <;> · rw [h] at hpc; cases hpc
    · exact hfresh i cb hi hpc
  | quiet calls => exact hfresh i cb (calls ▸ hi) hpc

theorem fresh_init : Fresh (RunningGraph.init : RunningGraph P) := by
  intro i cb hi
  simp [RunningGraph.init] at hi

end

/-! ### A step seen from the output lists -/

/-- The step as the output lists see it: a callback pushes, a consumer takes the
front, or the lists stay as they are. -/
inductive OutShape (L : Layout) (s : RunningGraph P) (a : Action P) (es : List Event)
    (s' : RunningGraph P) : Prop
  | pushed {i : ℕ} {cb : CallBack P} {f : ℕ} {rest : List ℕ}
      (hi : s.callBacks[i]? = some cb)
      (pc : cb.pc = .locking f ∨ cb.pc = .waiting f)
      (hrest : rest <+: s.graph.outputStreamGroudCache (L.groudIndex cb.outputPacksOrder))
      (hmove : (L.cleanPolicy (L.groudIndex cb.outputPacksOrder)).move s.graph.graphStarted
        (s.graph.outputStreamGroudCache (L.groudIndex cb.outputPacksOrder)) f =
          .pushed (f :: rest))
      (out : s'.graph.outputStreamGroudCache = Function.update s.graph.outputStreamGroudCache
        (L.groudIndex cb.outputPacksOrder) (f :: rest))
      (event : es = [.pushed i (L.groudIndex cb.outputPacksOrder) f])
      (consumers : s'.consumers = s.consumers)
  | taken {j : ℕ} {c : Consumer} (hj : s.consumers[j]? = some c)
      (out : s'.graph.outputStreamGroudCache = Function.update s.graph.outputStreamGroudCache
        c.groudIndex (if c.reuse then s.graph.outputStreamGroudCache c.groudIndex
          else (s.graph.outputStreamGroudCache c.groudIndex).tail))
      (event : es =
        [.got c.groudIndex c.reuse (s.graph.outputStreamGroudCache c.groudIndex).head?])
      (consumers : s'.consumers = s.consumers.set j { c with locking := false })
  | asked {g : ℕ} {reuse locking : Bool} (action : a = .getOutputStreamCache g reuse)
      (out : s'.graph.outputStreamGroudCache = s.graph.outputStreamGroudCache)
      (event : ∀ g r f, .got g r (some f) ∉ es)
      (consumers : s'.consumers = s.consumers ++ [⟨g, reuse, locking⟩])
  | same (out : s'.graph.outputStreamGroudCache = s.graph.outputStreamGroudCache)
      (event : ∀ g r f, .got g r (some f) ∉ es) (consumers : s'.consumers = s.consumers)

theorem Effect.outShape {L : Layout} {s s' : RunningGraph P} {a : Action P} {es : List Event}
    (h : Effect L s a es s') : OutShape L s a es s' := by
  cases h with
  | pushed hi pc hmove =>
    obtain ⟨rest, rfl, hrest⟩ := StreamCacheCleanStrategy.move_pushed hmove
    exact .pushed hi (pc.imp And.left id) hrest hmove rfl rfl rfl
  | got hj => exact .taken hj rfl rfl rfl
  | gotNothing => exact .asked rfl rfl (by simp) rfl
  | asked => exact .asked rfl rfl (by simp) rfl
  | registered => exact .same rfl (by simp) rfl
  | notRegistered => exact .same rfl (by simp) rfl
  | cleared => exact .same rfl (by simp) rfl
  | called => exact .same rfl (by simp) rfl
  | unmatched => exact .same rfl (by simp) rfl
  | matched => exact .same rfl (by split_ifs <;> simp) rfl
  | tested => exact .same rfl (by simp) rfl
  | dropped => exact .same rfl (by simp) rfl
  | waits => exact .same rfl (by simp) rfl
  | checked => exact .same rfl (by simp) rfl
  | cleaned => exact .same rfl (by simp) rfl
  | setGraphStarted => exact .same rfl (by simp) rfl

end XGraph

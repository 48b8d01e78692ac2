/-
The in-flight cache over whole runs.

`SetInputStreamCache` inserts the new stamp and then drops the smallest stamps
until fewer than 900 are left.  So the cache stays below 900 frames in every run
(`Effect.size_lt`), but a stamp below all of 899 cached ones is itself the one that
is dropped, and the call still returns `SUCCESS`.

* `Event.Removes`, `cached_of_not_removed` — a cached frame stays cached until an
  event removes it;
* `FrameKept`, `RoomFor` — what a successful registration promises, and when the
  promise is kept (`frameKept_iff_roomFor`);
* `inFlightCache_runs` — both over every run;
* `registration_evicts_itself` — 899 registrations after which the next one is lost.
-/
import HandTracking.XGraphSystem

namespace XGraph

open Transition

variable {P : Type} {L : Layout} {s s' : RunningGraph P} {a : Action P} {es : List Event}

/-! ### The size of the cache -/

theorem Effect.size_lt (h : Effect L s a es s')
    (hs : s.graph.inferenceStreamCache.size < maxGlobalCacheDepth) :
    s'.graph.inferenceStreamCache.size < maxGlobalCacheDepth := by
  cases h with
  | @registered raw t =>
    show (cleanGraphNoResultInferenceCache _ t).size < maxGlobalCacheDepth
    rw [size_cleanGraphNoResult, maxGlobalCacheDepth]
    omega
  | cleared => exact OrderedMap.size_erase_le.trans_lt hs
  | matched =>
    show OrderedMap.size (if _ then _ else _) < _
    split_ifs
    · exact OrderedMap.size_erase_le.trans_lt hs
    · exact hs
  | cleaned => exact (OrderedMap.size_eraseFrontWhile_le _).trans_lt hs
  | notRegistered => exact hs
  | called => exact hs
  | unmatched => exact hs
  | tested => exact hs
  | pushed => exact hs
  | dropped => exact hs
  | waits => exact hs
  | checked => exact hs
  | gotNothing => exact hs
  | asked => exact hs
  | got => exact hs
  | setGraphStarted => exact hs

theorem size_lt_run {ok : RunningGraph P → Action P → Prop} {as : List (Action P)}
    (hs : s.graph.inferenceStreamCache.size < maxGlobalCacheDepth)
    (run : Run (step L) ok s as es s') :
    s'.graph.inferenceStreamCache.size < maxGlobalCacheDepth :=
  run.state_invariant (I := fun s => s.graph.inferenceStreamCache.size < maxGlobalCacheDepth) hs
    fun _ _ _ _ hs _ hstep => (step_effect hstep).size_lt hs

theorem size_lt_of_run {ok : RunningGraph P → Action P → Prop} {as : List (Action P)}
    (run : Run (step L) ok .init as es s) :
    s.graph.inferenceStreamCache.size < maxGlobalCacheDepth := by
  refine size_lt_run ?_ run
  show OrderedMap.empty.size < maxGlobalCacheDepth
  rw [OrderedMap.size_empty, maxGlobalCacheDepth]
  omega

/-! ### Cached frames stay cached -/

/-- The event takes frame `f`, registered under `t`, out of the cache. -/
def Event.Removes (t : Int) (f : ℕ) : Event → Prop
  | .evicted t' f' => t' = t ∧ f' = f
  | .cleared t' => t' = t
  | .finished _ f' => f' = f
  | .cleaned t' f' => t' = t ∧ f' = f
  | _ => False

theorem Effect.cached (h : Effect L s a es s') {t : Int} {f : ℕ}
    (hf : s.graph.inferenceStreamCache.find? t = some f)
    (hno : ∀ e ∈ es, ¬e.Removes t f) : s'.graph.inferenceStreamCache.find? t = some f := by
  cases h with
  | @registered raw t₀ _ fresh =>
    have hne : t ≠ t₀ := fun ht => by rw [ht, fresh] at hf; cases hf
    -- an entry that is lost by a registration was evicted
    have hins : (s.graph.inferenceStreamCache.insert t₀ s.graph.heapSize).find? t = some f := by
      rw [OrderedMap.find?_insert, if_neg hne, hf]
    show (cleanGraphNoResultInferenceCache _ t₀).find? t = some f
    rcases hc : (cleanGraphNoResultInferenceCache
        (s.graph.inferenceStreamCache.insert t₀ s.graph.heapSize) t₀).find? t with _ | f'
    · have hmem := OrderedMap.mem_removed (e := (t, f)).mpr ⟨hins, hc⟩
      have hrem : (Event.evicted t f).Removes t f := ⟨rfl, rfl⟩
      refine absurd hrem (hno _ (List.mem_cons_of_mem _ ?_))
      exact List.mem_map.mpr ⟨(t, f), hmem, rfl⟩
    · have hsub := OrderedMap.find?_eraseFrontWhile_sub hc
      rw [hins] at hsub
      exact hsub.symm
  | @cleared t₀ =>
    have hne : t ≠ t₀ := fun ht => hno _ (List.mem_singleton_self _) ht.symm
    show (s.graph.inferenceStreamCache.erase t₀).find? t = some f
    rw [OrderedMap.find?_erase, if_neg hne, hf]
  | @matched i cb f₀ m frame hi pc found =>
    show OrderedMap.find? (if _ then _ else _) t = some f
    split_ifs with hfull
    · rw [OrderedMap.find?_erase, if_neg, hf]
      intro ht
      rw [ht, found, Option.some_inj] at hf
      rw [if_pos hfull] at hno
      exact hno _ (List.mem_singleton_self _) hf
    · exact hf
  | @cleaned i cb =>
    show (cleanMediapipeDropedInferenceCache _ _).find? t = some f
    rcases hc : (cleanMediapipeDropedInferenceCache s.graph.inferenceStreamCache
        cb.packet.timestamp).find? t with _ | f'
    · have hmem := OrderedMap.mem_removed (e := (t, f)).mpr ⟨hf, hc⟩
      have hrem : (Event.cleaned t f).Removes t f := ⟨rfl, rfl⟩
      exact absurd hrem (hno _ (List.mem_map.mpr ⟨(t, f), hmem, rfl⟩))
    · have hsub := OrderedMap.find?_eraseFrontWhile_sub hc
      rw [hf] at hsub
      exact hsub.symm
  | notRegistered => exact hf
  | called => exact hf
  | unmatched => exact hf
  | tested => exact hf
  | pushed => exact hf
  | dropped => exact hf
  | waits => exact hf
  | checked => exact hf
  | gotNothing => exact hf
  | asked => exact hf
  | got => exact hf
  | setGraphStarted => exact hf

theorem cached_of_not_removed {ok : RunningGraph P → Action P → Prop} {as : List (Action P)}
    {t : Int} {f : ℕ} (run : Run (step L) ok s as es s')
    (hf : s.graph.inferenceStreamCache.find? t = some f)
    (hno : ∀ e ∈ es, ¬e.Removes t f) : s'.graph.inferenceStreamCache.find? t = some f := by
  revert hno
  refine run.invariant (P := fun es s' => (∀ e ∈ es, ¬e.Removes t f) →
    s'.graph.inferenceStreamCache.find? t = some f) (fun _ => hf) ?_
  intro es s a s' es' ih _ hstep hno
  have hcached := ih fun e he => hno e (List.mem_append_left _ he)
  exact (step_effect hstep).cached hcached fun e he => hno e (List.mem_append_right _ he)

/-! ### Registrations -/

/-- What a registration that returns `SUCCESS` promises: later callbacks with its
stamp find the frame until an event removes it, and it evicts smaller stamps only. -/
def FrameKept (L : Layout) (s : RunningGraph P) (a : Action P) : Prop :=
  ∀ raw t s' es, a = .setInputStreamCache raw t →
    (setInputStreamCache L s.graph raw t).1 = .success → step L s a = some (s', es) →
    (∀ as es' s'', Run (step L) (fun _ _ => True) s' as es' s'' →
      (∀ e ∈ es', ¬e.Removes t s.graph.heapSize) →
      ∀ o p, p.timestamp = t → (matchStream L s''.graph o p).2.cache = some s.graph.heapSize) ∧
    ∀ t' f, .evicted t' f ∈ es → t' < t

/-- There is room for the frame, or an older frame to evict. -/
def RoomFor (s : RunningGraph P) (a : Action P) : Prop :=
  ∀ raw t, a = .setInputStreamCache raw t → s.graph.graphStarted = true →
    s.graph.inferenceStreamCache.find? t = none →
    s.graph.inferenceStreamCache.size + 1 < maxGlobalCacheDepth ∨
      ∃ t' f, s.graph.inferenceStreamCache.find? t' = some f ∧ t' < t

theorem matchStream_cache {g : BaseXGraph P} {o f : ℕ} {p : Packet P} :
    (matchStream L g o p).2.cache = some f ↔
      g.inferenceStreamCache.find? p.timestamp = some f := by
  rcases hf : g.inferenceStreamCache.find? p.timestamp with _ | f'
  · rw [matchStream_none hf]
  · rw [(matchStream_some hf).2.1]

/-- Registering in a cache of 899 frames drops the smallest stamp. -/
theorem cleanGraphNoResult_full {cache : InferenceCache} {t : Int} {f : ℕ} {e : Int × ℕ}
    (hfresh : cache.find? t = none) (hsize : cache.size + 1 = maxGlobalCacheDepth)
    (hb : (cache.insert t f).begin? = some e) :
    cleanGraphNoResultInferenceCache (cache.insert t f) t = (cache.insert t f).erase e.1 :=
  OrderedMap.eraseFrontWhile_size_full (by rw [OrderedMap.size_insert hfresh, hsize]) hb

/-- The smallest stamp after a registration is older than the registered one exactly
when an older stamp was cached. -/
theorem begin_insert_lt {cache : InferenceCache} {t : Int} {f : ℕ} {e : Int × ℕ}
    (hb : (cache.insert t f).begin? = some e) :
    e.1 < t ↔ ∃ t' f', cache.find? t' = some f' ∧ t' < t := by
  have hmem : (cache.insert t f).find? e.1 = some e.2 :=
    OrderedMap.find?_eq_some_iff.mpr (List.mem_of_mem_head? hb)
  rw [OrderedMap.find?_insert] at hmem
  constructor
  · intro hlt
    rw [if_neg hlt.ne] at hmem
    exact ⟨e.1, e.2, hmem, hlt⟩
  · rintro ⟨t', f', hf', hlt⟩
    have hins : (cache.insert t f).find? t' = some f' := by
      rw [OrderedMap.find?_insert, if_neg hlt.ne, hf']
    exact (OrderedMap.begin?_le hb hins).trans_lt hlt

theorem begin?_insert (cache : InferenceCache) (t : Int) (f : ℕ) :
    ∃ e, (cache.insert t f).begin? = some e ∧ e.1 ≤ t := by
  have hins : (cache.insert t f).find? t = some ((cache.find? t).getD f) := by
    rw [OrderedMap.find?_insert, if_pos rfl]
  rcases hb : (cache.insert t f).begin? with _ | e
  · have hnil : (cache.insert t f).entries = [] := List.head?_eq_none_iff.mp hb
    have hmem := OrderedMap.find?_eq_some_iff.mp hins
    rw [hnil] at hmem
    cases hmem
  · exact ⟨e, rfl, OrderedMap.begin?_le hb hins⟩

/-- The state and the events of a registration that succeeds. -/
theorem step_registered {raw : ℕ} {t : Int} (hs : s.graph.graphStarted = true)
    (hfresh : s.graph.inferenceStreamCache.find? t = none)
    (h : step L s (.setInputStreamCache raw t) = some (s', es)) :
    s'.graph.inferenceStreamCache = cleanGraphNoResultInferenceCache
        (s.graph.inferenceStreamCache.insert t s.graph.heapSize) t ∧
      ∀ t' f, .evicted t' f ∈ es ↔
        (s.graph.inferenceStreamCache.insert t s.graph.heapSize).find? t' = some f ∧
        s'.graph.inferenceStreamCache.find? t' = none := by
  cases step_effect h with
  | registered =>
    refine ⟨rfl, fun t' f => ?_⟩
    simp only [List.mem_cons, List.mem_map, OrderedMap.mem_removed, Prod.exists,
      Event.evicted.injEq,
      reduceCtorEq, false_or]
    constructor
    · rintro ⟨_, _, h, rfl, rfl⟩
      exact h
    · intro h
      exact ⟨t', f, h, rfl, rfl⟩
  | notRegistered why =>
    rcases why with hns | ⟨f, hf⟩
    · rw [hs] at hns
      cases hns
    · rw [hfresh] at hf
      cases hf

theorem step_of_fresh (raw : ℕ) {t : Int} (hs : s.graph.graphStarted = true)
    (hfresh : s.graph.inferenceStreamCache.find? t = none) :
    ∃ es, step L s (.setInputStreamCache raw t) = some ({ s with graph := { s.graph with
      heap := Function.update s.graph.heap s.graph.heapSize (.init raw L.outputStreamNum)
      heapSize := s.graph.heapSize + 1
      inferenceStreamCache := cleanGraphNoResultInferenceCache
        (s.graph.inferenceStreamCache.insert t s.graph.heapSize) t } }, es) := by
  rcases setInputStreamCache_cases L s.graph raw t with ⟨_, _, heq⟩ | ⟨hw, _⟩
  · exact ⟨_, by rw [step, heq]⟩
  · rcases hw with hns | ⟨f, hf⟩
    · rw [hs] at hns
      cases hns
    · rw [hfresh] at hf
      cases hf

theorem setInputStreamCache_success {g : BaseXGraph P} {raw : ℕ} {t : Int} :
    (setInputStreamCache L g raw t).1 = .success ↔
      g.graphStarted = true ∧ g.inferenceStreamCache.find? t = none := by
  rcases setInputStreamCache_cases L g raw t with ⟨hs, hf, heq⟩ | ⟨hw, heq⟩
  · simp [heq, hs, hf]
  · rw [heq]
    rcases hw with hs | ⟨f, hf⟩
    · simp [hs]
    · simp [hf]

/-- With room for the frame, or an older frame to evict, a registration caches the
frame and drops older frames only. -/
theorem registered_of_roomFor {cache : InferenceCache} {t : Int} {f : ℕ}
    (hsize : cache.size < maxGlobalCacheDepth) (hfresh : cache.find? t = none)
    (hroom : cache.size + 1 < maxGlobalCacheDepth ∨ ∃ t' f', cache.find? t' = some f' ∧ t' < t) :
    (cleanGraphNoResultInferenceCache (cache.insert t f) t).find? t = some f ∧
      ∀ t' f', (cache.insert t f).find? t' = some f' →
        (cleanGraphNoResultInferenceCache (cache.insert t f) t).find? t' = none → t' < t := by
  have hins : (cache.insert t f).find? t = some f := by
    rw [OrderedMap.find?_insert, if_pos rfl, hfresh, Option.getD_none]
  by_cases hfull : cache.size + 1 < maxGlobalCacheDepth
  · have hsame : cleanGraphNoResultInferenceCache (cache.insert t f) t = cache.insert t f :=
      OrderedMap.eraseFrontWhile_size_of_lt (by rw [OrderedMap.size_insert hfresh]; exact hfull)
    rw [hsame]
    refine ⟨hins, fun t' f' hf' hnone => ?_⟩
    rw [hf'] at hnone
    cases hnone
  · have hold := hroom.resolve_left hfull
    obtain ⟨e, hb, _⟩ := begin?_insert cache t f
    have hlt : e.1 < t := (begin_insert_lt hb).mpr hold
    rw [cleanGraphNoResult_full hfresh (by omega) hb]
    refine ⟨by rw [OrderedMap.find?_erase, if_neg hlt.ne', hins], fun t' f' hf' hnone => ?_⟩
    rw [OrderedMap.find?_erase] at hnone
    split_ifs at hnone with ht'
    · rw [ht']
      exact hlt
    · rw [hf'] at hnone
      cases hnone

/-- Without room and without an older frame, a registration drops its own frame. -/
theorem not_registered_of_full {cache : InferenceCache} {t : Int} {f : ℕ}
    (hfresh : cache.find? t = none) (hfull : cache.size + 1 = maxGlobalCacheDepth)
    (hold : ∀ t' f', cache.find? t' = some f' → t ≤ t') :
    (cleanGraphNoResultInferenceCache (cache.insert t f) t).find? t = none := by
  obtain ⟨e, hb, hle⟩ := begin?_insert cache t f
  have hself : e.1 = t := by
    refine le_antisymm hle (not_lt.mp fun hlt => ?_)
    obtain ⟨t', f', hf', hlt'⟩ := (begin_insert_lt hb).mp hlt
    exact absurd hlt' (not_lt.mpr (hold t' f' hf'))
  rw [cleanGraphNoResult_full hfresh hfull hb, OrderedMap.find?_erase, if_pos hself.symm]

/-- **A registration keeps its promise exactly when there is room for it.** -/
theorem frameKept_iff_roomFor
    (hsize : s.graph.inferenceStreamCache.size < maxGlobalCacheDepth) :
    FrameKept L s a ↔ RoomFor s a := by
  constructor
  · intro hkept raw t ha hs hfresh
    subst ha
    by_contra hroom
    push Not at hroom
    obtain ⟨hfull, hold⟩ := hroom
    obtain ⟨es, hstep⟩ := step_of_fresh (L := L) raw hs hfresh
    obtain ⟨hcache, hev⟩ := step_registered hs hfresh hstep
    obtain ⟨_, hsmaller⟩ :=
      hkept raw t _ es rfl (setInputStreamCache_success.mpr ⟨hs, hfresh⟩) hstep
    have hself : .evicted t s.graph.heapSize ∈ es := by
      refine (hev t _).mpr ⟨?_, ?_⟩
      · rw [OrderedMap.find?_insert, if_pos rfl, hfresh, Option.getD_none]
      · rw [hcache]
        exact not_registered_of_full hfresh (by omega) hold
    exact lt_irrefl t (hsmaller t _ hself)
  · intro hroom raw t s' es ha hsucc hstep
    subst ha
    obtain ⟨hs, hfresh⟩ := setInputStreamCache_success.mp hsucc
    obtain ⟨hcache, hev⟩ := step_registered hs hfresh hstep
    obtain ⟨hkeep, hsmaller⟩ :=
      registered_of_roomFor (f := s.graph.heapSize) hsize hfresh (hroom raw t rfl hs hfresh)
    rw [← hcache] at hkeep hsmaller
    refine ⟨fun as es' s'' run hno o p hp => ?_, fun t' f he => ?_⟩
    · rw [matchStream_cache, hp]
      exact cached_of_not_removed run hkeep hno
    · obtain ⟨hin, hout⟩ := (hev t' f).mp he
      exact hsmaller t' f hin hout

/-! ### Every run -/

/-- **The cache never reaches 900 frames, and in every run the registrations keep
their promise exactly as long as each of them finds room or an older frame.** -/
theorem inFlightCache_runs (L : Layout) {as : List (Action P)} {es : List Event}
    {s : RunningGraph P} (run : Run (step L) (fun _ _ => True) .init as es s) :
    s.graph.inferenceStreamCache.size < maxGlobalCacheDepth ∧
    (∀ a, FrameKept L s a ↔ RoomFor s a) ∧
    (Run (step L) (FrameKept L) .init as es s ↔
      Run (step L) (fun s a => RoomFor s a) .init as es s) := by
  have hsize := size_lt_of_run run
  refine ⟨hsize, fun a => frameKept_iff_roomFor hsize, ?_⟩
  refine Run.congr (I := fun s => s.graph.inferenceStreamCache.size < maxGlobalCacheDepth)
    (fun as es s r => size_lt_of_run r) fun s a hs => frameKept_iff_roomFor hs

/-- Two frames registered one after the other, the older stamp last. -/
theorem inFlightCache_runs_two :
    RoomFor (P := Unit) ((exec (step (.baseInit ["hand_result"])) (fun _ _ => True) .init
      [.setInputStreamCache 2000 2, .setInputStreamCache 1000 1]).get rfl).1
      (.setInputStreamCache 3000 3) ↔
    FrameKept (P := Unit) (.baseInit ["hand_result"])
      ((exec (step (.baseInit ["hand_result"])) (fun _ _ => True) .init
        [.setInputStreamCache 2000 2, .setInputStreamCache 1000 1]).get rfl).1
      (.setInputStreamCache 3000 3) :=
  ((inFlightCache_runs _ (Run.of_exec_get rfl)).2.1 _).symm

/-- The stamps 1, 2, …, n registered in this order are all cached. -/
theorem run_registrations (L : Layout) {n : ℕ} (hn : n < maxGlobalCacheDepth) :
    ∃ es s, Run (step L) (fun _ _ => True) (.init : RunningGraph P)
        ((List.range n).map fun k : ℕ => .setInputStreamCache 0 (k + 1 : Int)) es s ∧
      s.graph.graphStarted = true ∧ s.graph.inferenceStreamCache.size = n ∧
      ∀ t f, s.graph.inferenceStreamCache.find? t = some f → 1 ≤ t ∧ t ≤ n := by
  induction n with
  | zero => exact ⟨[], .init, .nil, rfl, rfl, fun t f hf => by cases hf⟩
  | succ n ih =>
    obtain ⟨es, s, run, hs, hsize, hstamps⟩ := ih (by omega)
    have hfresh : s.graph.inferenceStreamCache.find? (n + 1 : Int) = none := by
      refine Option.eq_none_iff_forall_ne_some.mpr fun f hf => ?_
      have := (hstamps _ f hf).2
      omega
    obtain ⟨es', hstep⟩ := step_of_fresh (L := L) 0 hs hfresh
    rw [List.range_succ, List.map_append]
    refine ⟨_, _, .snoc run trivial hstep, hs, ?_, ?_⟩
    · show (cleanGraphNoResultInferenceCache _ (n + 1 : Int)).size = n + 1
      rw [size_cleanGraphNoResult, OrderedMap.size_insert hfresh, hsize]
      rw [maxGlobalCacheDepth] at hn
      omega
    · intro t f hf
      have hin := OrderedMap.find?_eraseFrontWhile_sub hf
      rw [OrderedMap.find?_insert] at hin
      split_ifs at hin with ht
      · omega
      · have := hstamps t f hin
        omega

/-- After the stamps 1, …, 899 a registration of stamp 0 returns `SUCCESS` and its
frame is not in the cache. -/
theorem registration_evicts_itself : ∃ es s s' es',
    Run (step (.baseInit ["hand_result"])) (fun _ _ => True) (.init : RunningGraph Unit)
      ((List.range 899).map fun k : ℕ => .setInputStreamCache 0 (k + 1 : Int)) es s ∧
    (setInputStreamCache (.baseInit ["hand_result"]) s.graph 0 0).1 = .success ∧
    step (.baseInit ["hand_result"]) s (.setInputStreamCache 0 0) = some (s', es') ∧
    s'.graph.inferenceStreamCache.find? 0 = none ∧
    ¬FrameKept (.baseInit ["hand_result"]) s (.setInputStreamCache 0 0) := by
  obtain ⟨es, s, run, hs, hsize, hstamps⟩ :=
    run_registrations (P := Unit) (.baseInit ["hand_result"])
      (show 899 < maxGlobalCacheDepth by rw [maxGlobalCacheDepth]; omega)
  have hfresh : s.graph.inferenceStreamCache.find? 0 = none := by
    refine Option.eq_none_iff_forall_ne_some.mpr fun f hf => ?_
    have := (hstamps 0 f hf).1
    omega
  have hfull : s.graph.inferenceStreamCache.size + 1 = maxGlobalCacheDepth := by
    rw [hsize, maxGlobalCacheDepth]
  have hold : ∀ t f, s.graph.inferenceStreamCache.find? t = some f → 0 ≤ t := by
    intro t f hf
    have := (hstamps t f hf).1
    omega
  obtain ⟨es', hstep⟩ := step_of_fresh (L := .baseInit ["hand_result"]) 0 hs hfresh
  refine ⟨es, s, _, es', run, setInputStreamCache_success.mpr ⟨hs, hfresh⟩, hstep, ?_, ?_⟩
  · exact not_registered_of_full hfresh hfull hold
  · rw [frameKept_iff_roomFor (by omega)]
    intro hroom
    rcases hroom 0 0 rfl hs hfresh with hlt | ⟨t, f, hf, hlt⟩
    · omega
    · exact absurd hlt (not_lt.mpr (hold t f hf))

end XGraph

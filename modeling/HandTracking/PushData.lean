/-
Pushing a frame into a graph: the three `PushData`.

A frame is registered under its time in microseconds, its packets are added to the
input streams of the graph, and a frame whose packets were not accepted is taken
back.  `HandTrackingXGraph` reports what happened; the prior-glass graph and the
next-host graph return `SUCCESS` in every case, and the next-host graph adds no
packet at all.

* `PushAtomic` — the contract: the status tells whether the frame was registered
  and its packets accepted, and a failed call leaves the in-flight cache as it was;
* `pushAtomic_handTracking_iff`, `pushAtomic_priorGlass_iff`,
  `pushAtomic_nextHost_iff` — when each of the three keeps it;
* `pushData_runs` — all three in every state of every run.
-/
import HandTracking.InFlightCache

namespace XGraph

open Transition

variable {P : Type}

/-- The stamp a frame is registered under, in microseconds. -/
def timestampMicro (timestamp : ℕ) : Int := (timestamp / 1000 : ℕ)

/-- `image` and `headPose` tell whether the graph accepted the two packets. -/
def HandTrackingXGraph.pushData (L : Layout) (g : BaseXGraph P) (timestamp : ℕ)
    (image headPose : Bool) : Status × BaseXGraph P :=
  match setInputStreamCache L g timestamp (timestampMicro timestamp) with
  | (.success, g) =>
    if !image || !headPose then
      (.failure, (clearInputStreamCache g (timestampMicro timestamp)).2)
    else (.success, g)
  | (.failure, g) => (.failure, g)

/-- `HandTrackingPriorGlassXGraph::PushData` -/
def HandTrackingPriorGlassXGraph.pushData (L : Layout) (g : BaseXGraph P) (timestamp : ℕ)
    (image : Bool) : Status × BaseXGraph P :=
  match setInputStreamCache L g timestamp (timestampMicro timestamp) with
  -- `push_failure` is set, but not returned
  | (.success, g) =>
    if !image then (.success, (clearInputStreamCache g (timestampMicro timestamp)).2)
    else (.success, g)
  | (.failure, g) => (.success, g)

/-- The calls of `AddPacketToInputStream` are commented out. -/
def HandTrackingNextHostXGraph.pushData (L : Layout) (g : BaseXGraph P) (timestampNanos : ℕ) :
    Status × BaseXGraph P :=
  (.success, (setInputStreamCache L g timestampNanos (timestampMicro timestampNanos)).2)

/-- The frame pushed at `timestamp` is registered: the graph runs and the stamp is
not repeated. -/
def Registers (g : BaseXGraph P) (timestamp : ℕ) : Prop :=
  g.graphStarted = true ∧ g.inferenceStreamCache.find? (timestampMicro timestamp) = none

/-- The call returned `SUCCESS` exactly when the frame was registered and its packets
were accepted, and a failed call left the in-flight cache as it was. -/
def PushAtomic (L : Layout) (g : BaseXGraph P) (timestamp : ℕ) (accepted : Bool)
    (r : Status × BaseXGraph P) : Prop :=
  (r.1 = .success ↔
    (setInputStreamCache L g timestamp (timestampMicro timestamp)).1 = .success ∧
      accepted = true) ∧
  (r.1 = .failure → r.2.inferenceStreamCache = g.inferenceStreamCache)

/-- Registering the frame drops no other frame. -/
def NothingEvicted (g : BaseXGraph P) (timestamp : ℕ) : Prop :=
  g.inferenceStreamCache.size + 1 < maxGlobalCacheDepth ∨
    ∀ t f, g.inferenceStreamCache.find? t = some f → timestampMicro timestamp ≤ t

section

variable {L : Layout} {g : BaseXGraph P} {timestamp : ℕ}

theorem registers_iff {raw : ℕ} :
    (setInputStreamCache L g raw (timestampMicro timestamp)).1 = .success ↔
      Registers g timestamp :=
  setInputStreamCache_success

/-- Taking a registration back restores the cache exactly when it evicted nothing. -/
theorem erase_registered_eq_iff {cache : InferenceCache} {t : Int} {f : ℕ}
    (hsize : cache.size < maxGlobalCacheDepth) (hfresh : cache.find? t = none) :
    (cleanGraphNoResultInferenceCache (cache.insert t f) t).erase t = cache ↔
      cache.size + 1 < maxGlobalCacheDepth ∨ ∀ t' f', cache.find? t' = some f' → t ≤ t' := by
  by_cases hroom : cache.size + 1 < maxGlobalCacheDepth
  · have hsame : cleanGraphNoResultInferenceCache (cache.insert t f) t = cache.insert t f :=
      OrderedMap.eraseFrontWhile_size_of_lt (by rw [OrderedMap.size_insert hfresh]; exact hroom)
    rw [hsame, OrderedMap.erase_insert hfresh]
    exact ⟨fun _ => Or.inl hroom, fun _ => rfl⟩
  · have hfull : cache.size + 1 = maxGlobalCacheDepth := by omega
    obtain ⟨e, hb, hle⟩ := begin?_insert cache t f
    rw [cleanGraphNoResult_full hfresh hfull hb]
    constructor
    · intro heq
      refine Or.inr fun t' f' hf' => not_lt.mp fun hlt => ?_
      -- an older frame would be the one that was evicted
      have helt : e.1 < t := (begin_insert_lt hb).mpr ⟨t', f', hf', hlt⟩
      have hmem : (cache.insert t f).find? e.1 = some e.2 :=
        OrderedMap.find?_eq_some_iff.mpr (List.mem_of_mem_head? hb)
      rw [OrderedMap.find?_insert, if_neg helt.ne, ← heq, OrderedMap.find?_erase,
        if_neg helt.ne, OrderedMap.find?_erase, if_pos rfl] at hmem
      cases hmem
    · intro hold
      have hself : e.1 = t := by
        refine le_antisymm hle (not_lt.mp fun hlt => ?_)
        obtain ⟨t', f', hf', hlt'⟩ := (begin_insert_lt hb).mp hlt
        exact absurd hlt' (not_lt.mpr (hold.resolve_left hroom t' f' hf'))
      rw [hself, OrderedMap.erase_insert hfresh, OrderedMap.erase_of_find?_none hfresh]

/-- `HandTrackingXGraph` keeps the contract unless it takes a frame back whose
registration evicted another one. -/
theorem pushAtomic_handTracking_iff
    (hsize : g.inferenceStreamCache.size < maxGlobalCacheDepth) {image headPose : Bool} :
    PushAtomic L g timestamp (image && headPose)
        (HandTrackingXGraph.pushData L g timestamp image headPose) ↔
      (Registers g timestamp → (image && headPose) = true ∨ NothingEvicted g timestamp) := by
  rw [PushAtomic, HandTrackingXGraph.pushData]
  rcases setInputStreamCache_cases L g timestamp (timestampMicro timestamp) with
    ⟨hs, hfresh, heq⟩ | ⟨hw, heq⟩
  · have hreg : Registers g timestamp := ⟨hs, hfresh⟩
    rw [heq]
    cases hacc : image && headPose with
    | true =>
      obtain ⟨rfl, rfl⟩ := Bool.and_eq_true_iff.mp hacc
      simp
    | false =>
      have hrej : (!image || !headPose) = true := by rw [← Bool.not_and, hacc, Bool.not_false]
      simp only [if_pos hrej, hreg, true_imp_iff, Bool.false_eq_true, and_false, reduceCtorEq,
        true_and, false_or, NothingEvicted]
      exact erase_registered_eq_iff hsize hfresh
  · have hreg : ¬Registers g timestamp := by
      intro hreg
      have hsucc : (setInputStreamCache L g timestamp (timestampMicro timestamp)).1 = .success :=
        registers_iff.mpr hreg
      rw [heq] at hsucc
      cases hsucc
    rw [heq]
    simp [hreg]

/-- The prior-glass graph returns `SUCCESS` in every case. -/
theorem pushAtomic_priorGlass_iff {image : Bool} :
    PushAtomic L g timestamp image (HandTrackingPriorGlassXGraph.pushData L g timestamp image) ↔
      Registers g timestamp ∧ image = true := by
  have hsucc : (HandTrackingPriorGlassXGraph.pushData L g timestamp image).1 = .success := by
    rw [HandTrackingPriorGlassXGraph.pushData]
    split
    · split_ifs <;> rfl
    · rfl
  rw [PushAtomic, hsucc, registers_iff]
  simp

/-- The next-host graph returns `SUCCESS` in every case, and there is no packet the
graph could reject. -/
theorem pushAtomic_nextHost_iff :
    PushAtomic L g timestamp true (HandTrackingNextHostXGraph.pushData L g timestamp) ↔
      Registers g timestamp := by
  rw [PushAtomic, HandTrackingNextHostXGraph.pushData, registers_iff]
  simp

end

/-! ### Every run -/

/-- **When the three `PushData` are atomic, in every state of every run.** -/
theorem pushData_runs (L : Layout) {as : List (Action P)} {es : List Event}
    {s : RunningGraph P} (run : Run (step L) (fun _ _ => True) .init as es s) (timestamp : ℕ) :
    (∀ image headPose, PushAtomic L s.graph timestamp (image && headPose)
        (HandTrackingXGraph.pushData L s.graph timestamp image headPose) ↔
      (Registers s.graph timestamp →
        (image && headPose) = true ∨ NothingEvicted s.graph timestamp)) ∧
    (∀ image, PushAtomic L s.graph timestamp image
        (HandTrackingPriorGlassXGraph.pushData L s.graph timestamp image) ↔
      Registers s.graph timestamp ∧ image = true) ∧
    (PushAtomic L s.graph timestamp true
        (HandTrackingNextHostXGraph.pushData L s.graph timestamp) ↔
      Registers s.graph timestamp) :=
  ⟨fun _ _ => pushAtomic_handTracking_iff (size_lt_of_run run),
    fun _ => pushAtomic_priorGlass_iff, pushAtomic_nextHost_iff⟩

/-- A repeated stamp: the next-host graph does not keep the contract. -/
theorem pushData_runs_repeated :
    PushAtomic (P := Unit) (.baseInit ["hand_result"])
        ((exec (step (.baseInit ["hand_result"])) (fun _ _ => True) .init
          [.setInputStreamCache 1000 1]).get rfl).1.graph 1000 true
        (HandTrackingNextHostXGraph.pushData (.baseInit ["hand_result"])
          ((exec (step (.baseInit ["hand_result"])) (fun _ _ => True) .init
            [.setInputStreamCache 1000 1]).get rfl).1.graph 1000) ↔
      Registers (P := Unit) ((exec (step (.baseInit ["hand_result"])) (fun _ _ => True) .init
        [.setInputStreamCache 1000 1]).get rfl).1.graph 1000 :=
  (pushData_runs _ (Run.of_exec_get rfl) 1000).2.2

/-- With the stamps 1, …, 899 registered, a push whose image is rejected returns
`FAILURE` and has lost the frame of stamp 1; on a fresh graph the prior-glass graph
returns `SUCCESS` for a rejected image; on a stopped graph the next-host graph returns
`SUCCESS`. -/
theorem pushData_not_atomic :
    (∃ es s, Run (step (.baseInit ["hand_result"])) (fun _ _ => True) (.init : RunningGraph Unit)
        ((List.range 899).map fun k : ℕ => .setInputStreamCache 0 (k + 1 : Int)) es s ∧
      ¬PushAtomic (.baseInit ["hand_result"]) s.graph 900000 (false && true)
        (HandTrackingXGraph.pushData (.baseInit ["hand_result"]) s.graph 900000 false true)) ∧
    ¬PushAtomic (P := Unit) (.baseInit ["hand_result"]) .init 1000 false
      (HandTrackingPriorGlassXGraph.pushData (.baseInit ["hand_result"]) .init 1000 false) ∧
    ¬PushAtomic (P := Unit) (.baseInit ["hand_result"])
      { BaseXGraph.init with graphStarted := false } 1000 true
      (HandTrackingNextHostXGraph.pushData (.baseInit ["hand_result"])
        { BaseXGraph.init with graphStarted := false } 1000) := by
  refine ⟨?_, ?_, ?_⟩
  · obtain ⟨es, s, run, hs, hsize, hstamps⟩ :=
      run_registrations (P := Unit) (.baseInit ["hand_result"])
        (show 899 < maxGlobalCacheDepth by rw [maxGlobalCacheDepth]; omega)
    refine ⟨es, s, run, ?_⟩
    rw [pushAtomic_handTracking_iff (size_lt_of_run run)]
    intro hatomic
    have hfresh : s.graph.inferenceStreamCache.find? 900 = none := by
      refine Option.eq_none_iff_forall_ne_some.mpr fun f hf => ?_
      have := (hstamps 900 f hf).2
      omega
    rcases hatomic ⟨hs, hfresh⟩ with hacc | hroom | hold
    · cases hacc
    · rw [hsize, maxGlobalCacheDepth] at hroom
      omega
    · obtain ⟨t, f, hf⟩ := OrderedMap.exists_find?_of_size_pos (hsize ▸ (by omega) :
        0 < s.graph.inferenceStreamCache.size)
      have hle : (900 : Int) ≤ t := hold t f hf
      have := (hstamps t f hf).2
      omega
  · rw [pushAtomic_priorGlass_iff]
    intro h
    cases h.2
  · rw [pushAtomic_nextHost_iff]
    intro h
    cases h.1

end XGraph

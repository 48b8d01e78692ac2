/-
The sequential functions of `BaseXGraph`.

Frames are heap objects shared by the in-flight cache, the output lists and the
running callbacks, so a `shared_ptr<StreamCache>` is a reference into `heap`.
`heapSize` counts the frames allocated so far.

* `setInputStreamCache`, `clearInputStreamCache` — register a pushed frame, and
  take the registration back;
* `matchStream` — the part of `CallBackInferenceResult` under `m_inference_lock`;
* `StreamCacheCleanStrategy.move` — what `MoveOutputCache` does with one output
  list under `m_output_lock`;
* `cleanGraphNoResultInferenceCache`, `cleanMediapipeDropedInferenceCache` — the
  two clean-ups of the in-flight cache.

Each function comes with the lemmas the later modules use instead of its
definition.
-/
import HandTracking.Library.OrderedMap
import HandTracking.StreamCache

namespace XGraph

/-- `BASEXGRAPH_MAX_GLOBALCACHEDEPTH` -/
def maxGlobalCacheDepth : ℕ := 900

/-- `BASEXGRAPH_MIN_GLOBALCACHEDEPTH` -/
def minGlobalCacheDepth : ℕ := 30

/-- `aisdk::algorithm::Status`, as far as the graph's functions return it. -/
inductive Status where
  | success
  | failure
  deriving DecidableEq, Repr

/-- The in-flight cache `m_inference_stream_cache`. -/
abbrev InferenceCache := OrderedMap Int ℕ

/-- The members of `BaseXGraph` that change while the graph runs. -/
structure BaseXGraph (P : Type) where
  graphStarted : Bool
  heap : ℕ → StreamCache P
  heapSize : ℕ
  inferenceStreamCache : InferenceCache
  outputStreamGroudCache : ℕ → List ℕ

variable {P : Type}

/-- A graph after `Init` and `Start`. -/
def BaseXGraph.init : BaseXGraph P where
  graphStarted := true
  heap := fun _ => .init 0 0
  heapSize := 0
  inferenceStreamCache := .empty
  outputStreamGroudCache := fun _ => []

/-! ### Registering frames -/

/-- Keeps the cache below 900 frames by dropping the oldest ones; the stamp just
registered is passed and ignored. -/
def cleanGraphNoResultInferenceCache (cache : InferenceCache) (_graphStreamStamp : Int) :
    InferenceCache :=
  cache.eraseFrontWhile fun size _ => decide (maxGlobalCacheDepth ≤ size)

/-- `SetInputStreamCache`: a frame is registered under its stamp, and old frames without results are
cleaned. -/
def setInputStreamCache (L : Layout) (g : BaseXGraph P) (rawTimestamp : ℕ)
    (graphStreamStamp : Int) : Status × BaseXGraph P :=
  if g.graphStarted = false then (.failure, g)
  else if (g.inferenceStreamCache.find? graphStreamStamp).isNone then
    (.success, { g with
      heap := Function.update g.heap g.heapSize (.init rawTimestamp L.outputStreamNum)
      heapSize := g.heapSize + 1
      inferenceStreamCache := cleanGraphNoResultInferenceCache
        (g.inferenceStreamCache.insert graphStreamStamp g.heapSize) graphStreamStamp })
  -- the stamp is repeated
  else (.failure, g)

/-- `ClearInputStreamCache`: a registered frame is taken back. -/
def clearInputStreamCache (g : BaseXGraph P) (graphStreamStamp : Int) :
    Status × BaseXGraph P :=
  (.success, { g with
    inferenceStreamCache := g.inferenceStreamCache.erase graphStreamStamp })

/-! ### Matching a result -/

/-- The local variables `cache`, `is_move` and `is_parted_shared` of
`CallBackInferenceResult`, with `is_finish`. -/
structure Matched where
  cache : Option ℕ := none
  isMove : Bool := false
  isPartedShared : Bool := false
  isFinish : Bool := false
  deriving DecidableEq, Repr

/-- `CallBackInferenceResult` under `m_inference_lock`: the packet is stored in the
frame registered under its timestamp, and a frame that is complete leaves the
in-flight cache. -/
def matchStream (L : Layout) (g : BaseXGraph P) (outputPacksOrder : ℕ) (packet : Packet P) :
    BaseXGraph P × Matched :=
  match g.inferenceStreamCache.find? packet.timestamp with
  | none => (g, {})
  | some f =>
    let frame := (g.heap f).deliver outputPacksOrder packet
    let g := { g with heap := Function.update g.heap f frame }
    let erased := { g with
      inferenceStreamCache := g.inferenceStreamCache.erase packet.timestamp }
    if L.groudSize = 1 ∧ frame.full then
      (erased, { cache := some f, isMove := true, isFinish := true })
    else if 1 < L.groudSize then
      let parted := syncOrderBitmap (L.targetSyncBitmaps outputPacksOrder) frame.syncBitmap
      if frame.full then
        (erased, { cache := some f, isPartedShared := parted, isFinish := true })
      else (g, { cache := some f, isPartedShared := parted })
    else (g, { cache := some f })

/-! ### Output lists -/

/-- What the section of `MoveOutputCache` under `m_output_lock` does next. -/
inductive Moved (α : Type) where
  | pushed (list : List α)
  | dropped
  | wait
  deriving DecidableEq, Repr

/-- `MoveOutputCache` on the list of a group, newest frame first.  A full blocking
list makes the caller wait and test again. -/
def StreamCacheCleanStrategy.move {α : Type} (policy : StreamCacheCleanStrategy)
    (graphStarted : Bool) (list : List α) (stream : α) : Moved α :=
  match policy.cleanPolicy with
  | .fullLoopCover =>
    .pushed (stream :: if policy.maxDepth ≤ list.length then list.dropLast else list)
  | .fullBlock =>
    if graphStarted ∧ policy.maxDepth ≤ list.length then .wait
    else if graphStarted then .pushed (stream :: list)
    else .dropped
  | .fullDrop =>
    if list.length < policy.maxDepth then .pushed (stream :: list) else .dropped

/-- Removes the frames older than the one just delivered. -/
def cleanMediapipeDropedInferenceCache (cache : InferenceCache) (graphStreamStamp : Int) :
    InferenceCache :=
  cache.eraseFrontWhile fun _ stamp => decide (stamp < graphStreamStamp)

/-! ### `setInputStreamCache` -/

theorem size_cleanGraphNoResult (cache : InferenceCache) (t : Int) :
    (cleanGraphNoResultInferenceCache cache t).size = min cache.size 899 :=
  OrderedMap.size_eraseFrontWhile_size

/-- A call either succeeds, on a started graph and a fresh stamp, or changes
nothing. -/
theorem setInputStreamCache_cases (L : Layout) (g : BaseXGraph P) (raw : ℕ) (t : Int) :
    (g.graphStarted = true ∧ g.inferenceStreamCache.find? t = none ∧
      setInputStreamCache L g raw t = (.success, { g with
        heap := Function.update g.heap g.heapSize (.init raw L.outputStreamNum)
        heapSize := g.heapSize + 1
        inferenceStreamCache := cleanGraphNoResultInferenceCache
          (g.inferenceStreamCache.insert t g.heapSize) t })) ∨
    ((g.graphStarted = false ∨ ∃ f, g.inferenceStreamCache.find? t = some f) ∧
      setInputStreamCache L g raw t = (.failure, g)) := by
  rcases hs : g.graphStarted with _ | _
  · exact Or.inr ⟨Or.inl rfl, by rw [setInputStreamCache, if_pos hs]⟩
  · have hs' : ¬g.graphStarted = false := by simp [hs]
    rcases hf : g.inferenceStreamCache.find? t with _ | f
    · refine Or.inl ⟨rfl, rfl, ?_⟩
      rw [setInputStreamCache, if_neg hs', if_pos (by rw [hf]; rfl), hs]
    · refine Or.inr ⟨Or.inr ⟨f, rfl⟩, ?_⟩
      rw [setInputStreamCache, if_neg hs', if_neg (by rw [hf]; simp)]

/-! ### `matchStream` -/

theorem matchStream_none {L : Layout} {g : BaseXGraph P} {o : ℕ} {p : Packet P}
    (h : g.inferenceStreamCache.find? p.timestamp = none) :
    matchStream L g o p = (g, {}) := by
  rw [matchStream, h]

/-- The test by which a callback hands its frame on: all packets are there when
there is one group, the bitmap covers the group when there are several. -/
def groudComplete (L : Layout) (frame : StreamCache P) (outputPacksOrder : ℕ) : Bool :=
  if L.groudSize = 1 then frame.full
  else syncOrderBitmap (L.targetSyncBitmaps outputPacksOrder) frame.syncBitmap

/-- A matched packet is stored in its frame; the frame leaves the cache when it is
full, and it is handed on when its group is complete. -/
theorem matchStream_some {L : Layout} {g : BaseXGraph P} {o f : ℕ} {p : Packet P}
    (h : g.inferenceStreamCache.find? p.timestamp = some f) :
    (matchStream L g o p).1 = { g with
        heap := Function.update g.heap f ((g.heap f).deliver o p)
        inferenceStreamCache :=
          if ((g.heap f).deliver o p).full then g.inferenceStreamCache.erase p.timestamp
          else g.inferenceStreamCache } ∧
      (matchStream L g o p).2.cache = some f ∧
      (matchStream L g o p).2.isFinish = ((g.heap f).deliver o p).full ∧
      ((matchStream L g o p).2.isMove || (matchStream L g o p).2.isPartedShared) =
        groudComplete L ((g.heap f).deliver o p) o := by
  have hpos : 0 < L.groudSize := Nat.succ_pos _
  rw [matchStream, h, groudComplete]
  by_cases h1 : L.groudSize = 1
  · by_cases hfull : ((g.heap f).deliver o p).full = true <;> simp [h1, hfull]
  · have hlt : 1 < L.groudSize := by omega
    by_cases hfull : ((g.heap f).deliver o p).full = true <;> simp [h1, hlt, hfull]

/-! ### Output lists -/

namespace StreamCacheCleanStrategy

variable {α : Type} {policy : StreamCacheCleanStrategy} {started : Bool} {l l' : List α} {x : α}

/-- A push puts the frame in front of the list, whose last element may go. -/
theorem move_pushed (h : policy.move started l x = .pushed l') :
    ∃ rest, l' = x :: rest ∧ rest <+: l := by
  rw [move] at h
  split at h
  · obtain rfl := Moved.pushed.inj h
    refine ⟨_, rfl, ?_⟩
    split_ifs
    · exact List.dropLast_prefix l
    · exact List.prefix_rfl
  · split_ifs at h
    obtain rfl := Moved.pushed.inj h
    exact ⟨l, rfl, List.prefix_rfl⟩
  · split_ifs at h
    obtain rfl := Moved.pushed.inj h
    exact ⟨l, rfl, List.prefix_rfl⟩

/-- A push respects the depth of the list, if that is at least one. -/
theorem move_pushed_length (hd : 1 ≤ policy.maxDepth) (hl : l.length ≤ policy.maxDepth)
    (h : policy.move started l x = .pushed l') : l'.length ≤ policy.maxDepth := by
  rw [move] at h
  split at h
  · obtain rfl := Moved.pushed.inj h
    rw [List.length_cons]
    split_ifs
    · rw [List.length_dropLast]
      omega
    · omega
  · split_ifs at h with h₁ h₂
    obtain rfl := Moved.pushed.inj h
    rw [List.length_cons]
    have : ¬policy.maxDepth ≤ l.length := fun hle => h₁ ⟨h₂, hle⟩
    omega
  · split_ifs at h with h₁
    obtain rfl := Moved.pushed.inj h
    rw [List.length_cons]
    omega

/-- Only a started graph with a full blocking list makes a callback wait. -/
theorem move_wait (h : policy.move started l x = .wait) :
    policy.cleanPolicy = .fullBlock ∧ started = true ∧ policy.maxDepth ≤ l.length := by
  rw [move] at h
  split at h
  · cases h
  · split_ifs at h with h₁
    exact ⟨by assumption, h₁⟩
  · split_ifs at h

theorem move_of_full (hb : policy.cleanPolicy = .fullBlock)
    (hl : policy.maxDepth ≤ l.length) : policy.move true l x = .wait := by
  rw [move, hb]
  simp [hl]

theorem move_loopCover (hp : policy.cleanPolicy = .fullLoopCover) :
    ∃ l', policy.move started l x = .pushed l' := by
  rw [move, hp]
  exact ⟨_, rfl⟩

end StreamCacheCleanStrategy

/-! ### Clean-up of dropped frames -/

theorem find?_cleanMediapipeDroped (cache : InferenceCache) (t t' : Int) :
    (cleanMediapipeDropedInferenceCache cache t).find? t' =
      if t' < t then none else cache.find? t' :=
  OrderedMap.find?_eraseFrontWhile_lt

end XGraph

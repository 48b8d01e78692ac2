/-
Cached frames and the output layout of a graph.

A `StreamCache` is the frame object that the callbacks of all output streams fill
together.  `Layout` holds the tables of `BaseXGraph` that are written by `Init`
and only read afterwards: for each output stream the group it is delivered to and
the bitmap of the streams it is synchronised with, and for each group its cleaning
strategy.

* `Layout.baseInit` — the default: one group of all the streams;
* `Layout.handTrackingInit` — the recording layout: the stream `record_result`
  alone in the second group;
* `Layout.Synced` — what a layout has to satisfy for the bitmaps to mean the
  groups; both layouts do (`baseInit_synced`, `handTrackingInit_synced`), the
  second one as long as the 64 bits suffice.
-/
import HandTracking.Library.BitVecSet

namespace XGraph

/-- `xgraph::Packet`: a payload with its timestamp. -/
structure Packet (P : Type) where
  timestamp : Int
  value : P
  deriving DecidableEq, Repr

/-- `StreamCache`; an empty `Packet` is `none`. -/
structure StreamCache (P : Type) where
  rawTimestamp : ℕ
  outputPacksSum : ℕ
  syncBitmap : BitVec 64
  outputPacks : List (Option (Packet P))
  deriving DecidableEq, Repr

variable {P : Type}

/-- The frame `SetInputStreamCache` allocates. -/
def StreamCache.init (rawTimestamp outputStreamNum : ℕ) : StreamCache P where
  rawTimestamp := rawTimestamp
  outputPacksSum := 0
  syncBitmap := 0#64
  outputPacks := List.replicate outputStreamNum none

/-- What a callback of stream `order` writes into a frame. -/
def StreamCache.deliver (cache : StreamCache P) (order : ℕ) (packet : Packet P) :
    StreamCache P :=
  { cache with
    outputPacksSum := cache.outputPacksSum + 1
    syncBitmap := cache.syncBitmap ||| (1#64) <<< order
    outputPacks := cache.outputPacks.set order (some packet) }

/-- All the packets of the frame are there, counted (`m_output_packs_sum` against
`m_output_packs.size()`). -/
def StreamCache.full (cache : StreamCache P) : Bool :=
  cache.outputPacksSum = cache.outputPacks.length

/-- `SyncOrderBitmap`: all streams that are waited for have delivered. -/
def syncOrderBitmap (targetSyncBitmaps currentBitmaps : BitVec 64) : Bool :=
  targetSyncBitmaps = targetSyncBitmaps &&& currentBitmaps

/-- `FIFOStrategy`: what happens to a frame for a full list. -/
inductive FIFOStrategy where
  | fullLoopCover
  | fullDrop
  | fullBlock
  deriving DecidableEq, Repr

/-- `StreamCacheCleanStrategy`: the strategy and the depth of a list. -/
structure StreamCacheCleanStrategy where
  cleanPolicy : FIFOStrategy
  maxDepth : ℕ
  deriving DecidableEq, Repr

/-- The tables of `BaseXGraph` written by `Init`. -/
structure Layout where
  outputStreamName : List String
  outputOrderSyncBitmaps : List (BitVec 64)
  outputOrderGroudIndex : List ℕ
  outputStreamGroudCleanPolicy : List StreamCacheCleanStrategy

namespace Layout

/-- The number of output streams. -/
def outputStreamNum (L : Layout) : ℕ := L.outputStreamName.length

/-- The size `SetMultipleOutputSync` gives to `m_output_stream_groud_cache`. -/
def groudSize (L : Layout) : ℕ := L.outputOrderGroudIndex.foldl max 0 + 1

/-- The group of a stream. -/
def groudIndex (L : Layout) (order : ℕ) : ℕ := L.outputOrderGroudIndex.getD order 0

/-- The streams that the group of a stream waits for. -/
def targetSyncBitmaps (L : Layout) (order : ℕ) : BitVec 64 :=
  L.outputOrderSyncBitmaps.getD order 0#64

/-- The strategy of a group. -/
def cleanPolicy (L : Layout) (groudIndex : ℕ) : StreamCacheCleanStrategy :=
  L.outputStreamGroudCleanPolicy.getD groudIndex ⟨.fullLoopCover, 0⟩

/-- The layout of `BaseXGraph::Init`: every stream in group 0, of which the last
three frames are kept. -/
def baseInit (outputStreamName : List String) : Layout where
  outputStreamName := outputStreamName
  outputOrderSyncBitmaps := List.replicate outputStreamName.length
    (BitVec.ofPositions 64 (List.range outputStreamName.length))
  outputOrderGroudIndex := List.replicate outputStreamName.length 0
  outputStreamGroudCleanPolicy := [⟨.fullLoopCover, 3⟩]

/-- The orders of the streams other than `record_result`. -/
def handOrders (outputStreamName : List String) : List ℕ :=
  (List.range outputStreamName.length).filter
    fun order => outputStreamName.getD order "" ≠ "record_result"

/-- The layout of `HandTrackingXGraph::Init` with the recording calculator: the
stream `record_result` in group 1, all the others in group 0.  When the execution
info is exported group 1 keeps every frame and blocks when it is full. -/
def handTrackingInit (outputStreamName : List String) (exportExecInfo : Bool) : Layout where
  outputStreamName := outputStreamName
  outputOrderSyncBitmaps := (List.range outputStreamName.length).map fun order =>
    if outputStreamName.getD order "" = "record_result" then (1#64) <<< order
    else BitVec.ofPositions 64 (handOrders outputStreamName)
  outputOrderGroudIndex := outputStreamName.map fun name =>
    if name = "record_result" then 1 else 0
  outputStreamGroudCleanPolicy :=
    [⟨.fullLoopCover, 3⟩, if exportExecInfo then ⟨.fullBlock, 900⟩ else ⟨.fullLoopCover, 3⟩]

/-- Every stream has a group, and where there are several groups the bitmap of a
stream is the set of the streams of its group. -/
structure Synced (L : Layout) : Prop where
  groud : L.outputOrderGroudIndex.length = L.outputStreamNum
  bitmap : 1 < L.groudSize → ∀ order < L.outputStreamNum, ∀ order',
    (L.targetSyncBitmaps order).getLsbD order' = true ↔
      order' < L.outputStreamNum ∧ L.groudIndex order' = L.groudIndex order

theorem le_foldl_max (l : List ℕ) (a : ℕ) : a ≤ l.foldl max a ∧ ∀ x ∈ l, x ≤ l.foldl max a := by
  induction l generalizing a with
  | nil => simp
  | cons y l ih =>
    obtain ⟨h₁, h₂⟩ := ih (max a y)
    refine ⟨(le_max_left a y).trans h₁, fun x hx => ?_⟩
    rcases List.mem_cons.mp hx with rfl | hx
    · exact (le_max_right a x).trans h₁
    · exact h₂ x hx

theorem groudIndex_lt_groudSize (L : Layout) (order : ℕ) : L.groudIndex order < L.groudSize := by
  rw [groudIndex, groudSize, List.getD_eq_getElem?_getD]
  rcases h : L.outputOrderGroudIndex[order]? with _ | g
  · exact Nat.succ_pos _
  · exact Nat.lt_succ_of_le ((le_foldl_max _ 0).2 g (List.mem_of_getElem? h))

/-- With a single group every stream is in group 0. -/
theorem groudIndex_of_single {L : Layout} (h : L.groudSize = 1) (order : ℕ) :
    L.groudIndex order = 0 := by
  have := L.groudIndex_lt_groudSize order
  omega

theorem groudSize_baseInit (names : List String) : (baseInit names).groudSize = 1 := by
  have key : ∀ n : ℕ, (List.replicate n 0).foldl max 0 = 0 := by
    intro n
    induction n with
    | zero => rfl
    | succ n ih => rw [List.replicate_succ, List.foldl_cons, max_self, ih]
  rw [groudSize, baseInit, key]

theorem baseInit_synced (names : List String) : (baseInit names).Synced where
  groud := by simp [baseInit, outputStreamNum]
  bitmap h := absurd h (by simp [groudSize_baseInit])

theorem groudIndex_handTrackingInit {names : List String} {b : Bool} {order : ℕ}
    (h : order < names.length) :
    (handTrackingInit names b).groudIndex order =
      if names.getD order "" = "record_result" then 1 else 0 := by
  simp [groudIndex, handTrackingInit, h]

/-- The recording layout means its groups, as long as the streams have different
names and the bitmaps have room for them. -/
theorem handTrackingInit_synced {names : List String} {b : Bool} (hnd : names.Nodup)
    (h64 : names.length ≤ 64) : (handTrackingInit names b).Synced where
  groud := by simp [handTrackingInit, outputStreamNum]
  bitmap _ order ho order' := by
    change order < names.length at ho
    change _ ↔ order' < names.length ∧ _
    have htarget : (handTrackingInit names b).targetSyncBitmaps order =
        if names.getD order "" = "record_result" then (1#64) <<< order
        else BitVec.ofPositions 64 (handOrders names) := by
      simp [targetSyncBitmaps, handTrackingInit, ho]
    rw [htarget, groudIndex_handTrackingInit ho]
    by_cases hrec : names.getD order "" = "record_result"
    · rw [if_pos hrec, if_pos hrec, BitVec.getLsbD_one_shiftLeft]
      constructor
      · rintro ⟨rfl, _⟩
        exact ⟨ho, by rw [groudIndex_handTrackingInit ho, if_pos hrec]⟩
      · rintro ⟨ho', hg⟩
        rw [groudIndex_handTrackingInit ho'] at hg
        -- the group has no stream of another name
        have hrec' : names.getD order' "" = "record_result" := by
          by_contra hne
          rw [if_neg hne] at hg
          exact absurd hg (by decide)
        have heq : names[order'] = names[order] := by
          simpa [ho, ho'] using hrec'.trans hrec.symm
        exact ⟨(hnd.getElem_inj_iff).mp heq, by omega⟩
    · rw [if_neg hrec, if_neg hrec, BitVec.getLsbD_ofPositions, handOrders, List.mem_filter,
        List.mem_range]
      constructor
      · rintro ⟨⟨ho', hne⟩, _⟩
        rw [groudIndex_handTrackingInit ho', if_neg (of_decide_eq_true hne)]
        exact ⟨ho', rfl⟩
      · rintro ⟨ho', hg⟩
        rw [groudIndex_handTrackingInit ho'] at hg
        refine ⟨⟨ho', decide_eq_true fun hrec' => ?_⟩, by omega⟩
        rw [if_pos hrec'] at hg
        exact absurd hg (by decide)

end Layout

end XGraph

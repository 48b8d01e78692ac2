/-
`Reporter`: the input latency of a calculator.

A profile is a list of traces.  The trace that has output a packet is looked up by the timestamp
and the stream, and where several have, it is the last of them.  The latency of a trace is its
start time less the earliest time of all traces that its packets come from: the search goes from
the packets that a trace has taken in to the traces that have output them, but behind each
calculator only once.

* `GraphProfile` — the messages of the profiler;
* `recursePacketStartTime`, `calculateInputLatency` — the search and the latency;
* `find?_outputTraceLookup` — the lookup finds the last trace with the output;
* `recursePacketStartTime_eq_search` — the search is a depth-first search;
* `calculateInputLatency_longest` — the latency is the time since a trace upstream, and the longest
  such time where no calculator is upstream in two traces.
-/
import HandTracking.Library.DepthFirst
import HandTracking.Library.OrderedMap
import Mathlib.Data.Int.Order.Lemmas
import Mathlib.Data.Prod.Lex

namespace Reporter

/-! ### The messages -/

/-- `StreamTrace`: a packet, by its timestamp and its stream. -/
structure StreamTrace where
  packetTimestamp : ℤ
  streamId : ℤ
  deriving DecidableEq

/-- A time that is not set is `none`, and the accessor gives 0 for it. -/
structure CalculatorTrace where
  nodeId : ℤ
  inputTimestamp : ℤ
  isProcess : Bool
  startTime : Option ℤ
  finishTime : Option ℤ
  inputTrace : List StreamTrace
  outputTrace : List StreamTrace
  threadId : ℤ
  deriving DecidableEq

/-- `GraphTrace`: the traces of the calculators, with their names. -/
structure GraphTrace where
  baseTime : ℤ
  calculatorName : List String
  calculatorTrace : List CalculatorTrace

/-- `GraphProfile`: the traces of a graph. -/
structure GraphProfile where
  graphTrace : List GraphTrace

namespace GraphProfile

/-- All traces of a profile, in its order. -/
def traces (profile : GraphProfile) : List CalculatorTrace :=
  profile.graphTrace.flatMap GraphTrace.calculatorTrace

end GraphProfile

/-- The key of a packet. -/
def StreamTrace.key (s : StreamTrace) : ℤ ×ₗ ℤ := toLex (s.packetTimestamp, s.streamId)

/-- The key of the start of a calculator. -/
def CalculatorTrace.startKey (t : CalculatorTrace) : ℤ ×ₗ ℤ ×ₗ ℤ :=
  toLex (t.inputTimestamp, toLex (t.nodeId, t.threadId))

/-! ### The lookups -/

/-- `PacketKeyToCalcTrace`: the calculator that put out a packet. -/
abbrev PacketKeyToCalcTrace := OrderedMap (ℤ ×ₗ ℤ) CalculatorTrace

/-- `TimestampNodeIdToCalcTrace`: the trace with the start of a calculator. -/
abbrev TimestampNodeIdToCalcTrace := OrderedMap (ℤ ×ₗ ℤ ×ₗ ℤ) CalculatorTrace

/-- The names of the calculators, by their numbers. -/
abbrev NameLookup := OrderedMap ℤ String

/-- `CacheNodeNameLookup`: the names, numbered in each graph from 0. -/
def cacheNodeNameLookup (profile : GraphProfile) : NameLookup :=
  profile.graphTrace.foldl (fun result graphTrace =>
    (graphTrace.calculatorName.foldl (fun (result, key) calcName =>
      (result.assign key calcName, key + 1)) (result, (0 : ℤ))).1) .empty

/-- The body of the loop of `CacheOutputTraceLookup`. -/
def cacheTrace (lookups : PacketKeyToCalcTrace × TimestampNodeIdToCalcTrace)
    (calcTrace : CalculatorTrace) : PacketKeyToCalcTrace × TimestampNodeIdToCalcTrace :=
  if calcTrace.isProcess then
    (calcTrace.outputTrace.foldl (fun lookup streamTrace =>
        lookup.assign streamTrace.key calcTrace) lookups.1,
      if calcTrace.startTime.isSome ∧ calcTrace.finishTime.isNone then
        lookups.2.assign calcTrace.startKey calcTrace
      else lookups.2)
  else lookups

/-- `CacheOutputTraceLookup`: both maps, from all traces. -/
def cacheOutputTraceLookup (profile : GraphProfile) :
    PacketKeyToCalcTrace × TimestampNodeIdToCalcTrace :=
  profile.traces.foldl cacheTrace (.empty, .empty)

/-! ### The search -/

/-- The time that a trace has on its own. -/
def CalculatorTrace.childStartTime (t : CalculatorTrace) : ℤ :=
  match t.startTime with
  | some startTime => startTime
  | none => t.finishTime.getD 0

/-- The loop over the packets that a trace has taken in. -/
def recurseInputs (lookup : PacketKeyToCalcTrace)
    (recurse : CalculatorTrace → List ℤ → Option (ℤ × List ℤ)) :
    List StreamTrace → ℤ → List ℤ → Option (ℤ × List ℤ)
  | [], childStartTime, visited => some (childStartTime, visited)
  | streamTrace :: rest, childStartTime, visited =>
    match lookup.find? streamTrace.key with
    | none => recurseInputs lookup recurse rest childStartTime visited
    | some trace =>
      match recurse trace visited with
      | none => none
      | some (startTime, visited) =>
        recurseInputs lookup recurse rest (min childStartTime startTime) visited

/-- `RecursePacketStartTime`: the earliest start above a trace, and the nodes that were visited. -/
def recursePacketStartTime (lookup : PacketKeyToCalcTrace) :
    ℕ → CalculatorTrace → List ℤ → Option (ℤ × List ℤ)
  | 0, _, _ => none
  | fuel + 1, trace, visited =>
    if trace.nodeId ∈ visited then some (trace.childStartTime, visited)
    else
      recurseInputs lookup (recursePacketStartTime lookup fuel) trace.inputTrace
        trace.childStartTime (visited ++ [trace.nodeId])

/-- `CalculateInputLatency`: how long after the earliest start above it a trace starts. -/
def calculateInputLatency (lookup : PacketKeyToCalcTrace) (fuel : ℕ) (trace : CalculatorTrace) :
    Option ℤ :=
  match trace.startTime with
  | none => some 0
  | some startTime =>
    (recursePacketStartTime lookup fuel trace []).map fun r => startTime - r.1

/-! ### What the lookup finds -/

/-- The trace of a `Process` that has output the packet. -/
def CalculatorTrace.Outputs (t : CalculatorTrace) (key : ℤ ×ₗ ℤ) : Prop :=
  t.isProcess ∧ key ∈ t.outputTrace.map StreamTrace.key

instance (t : CalculatorTrace) (key : ℤ ×ₗ ℤ) : Decidable (t.Outputs key) :=
  inferInstanceAs (Decidable (_ ∧ _))

/-- The last trace that has output the packet. -/
def GraphProfile.producer (profile : GraphProfile) (key : ℤ ×ₗ ℤ) : Option CalculatorTrace :=
  (profile.traces.filter fun t => t.Outputs key).getLast?

variable {profile : GraphProfile} {t : CalculatorTrace}

theorem find?_foldl_assign (outputs : List StreamTrace) (lookup : PacketKeyToCalcTrace)
    (t : CalculatorTrace) (key : ℤ ×ₗ ℤ) :
    (outputs.foldl (fun lookup s => lookup.assign s.key t) lookup).find? key =
      if key ∈ outputs.map StreamTrace.key then some t else lookup.find? key := by
  induction outputs generalizing lookup with
  | nil => rfl
  | cons s outputs ih =>
    rw [List.foldl_cons, ih, OrderedMap.find?_assign, List.map_cons]
    by_cases hs : key = s.key
    · simp [hs]
    · simp [hs]

theorem find?_cacheTrace (lookups : PacketKeyToCalcTrace × TimestampNodeIdToCalcTrace)
    (t : CalculatorTrace) (key : ℤ ×ₗ ℤ) :
    (cacheTrace lookups t).1.find? key =
      if t.Outputs key then some t else lookups.1.find? key := by
  rw [cacheTrace]
  by_cases hprocess : t.isProcess
  · rw [if_pos hprocess, find?_foldl_assign]
    simp [CalculatorTrace.Outputs, hprocess]
  · rw [if_neg hprocess, if_neg fun h => hprocess h.1]

theorem find?_outputTraceLookup (profile : GraphProfile) (key : ℤ ×ₗ ℤ) :
    (cacheOutputTraceLookup profile).1.find? key = profile.producer key := by
  rw [cacheOutputTraceLookup, GraphProfile.producer]
  induction profile.traces using List.reverseRecOn with
  | nil => rfl
  | append_singleton ts t ih =>
    rw [List.foldl_append, List.foldl_cons, List.foldl_nil, find?_cacheTrace, ih,
      List.filter_append]
    by_cases ht : t.Outputs key
    · simp [ht]
    · simp [ht]

theorem mem_of_producer {key : ℤ ×ₗ ℤ} (h : profile.producer key = some t) :
    t ∈ profile.traces :=
  List.mem_of_mem_filter (List.mem_of_getLast? h)

/-! ### The traces upstream -/

/-- The traces and those that their packets come from. -/
def upstreamGraph (profile : GraphProfile) : DepthFirst.Graph CalculatorTrace ℤ ℤ where
  node := CalculatorTrace.nodeId
  next t := t.inputTrace.filterMap fun s => profile.producer s.key
  key := CalculatorTrace.childStartTime

/-- The packets of `t` come from `u`, directly or through other calculators. -/
def Upstream (profile : GraphProfile) (t u : CalculatorTrace) : Prop :=
  DepthFirst.Reaches (upstreamGraph profile) t u

theorem recurseInputs_eq_explore (recurse : CalculatorTrace → List ℤ → Option (ℤ × List ℤ))
    (inputs : List StreamTrace) (time : ℤ) (visited : List ℤ) :
    recurseInputs (cacheOutputTraceLookup profile).1 recurse inputs time visited =
      DepthFirst.explore recurse (inputs.filterMap fun s => profile.producer s.key) time
        visited := by
  induction inputs generalizing time visited with
  | nil => rfl
  | cons s inputs ih =>
    rw [recurseInputs, find?_outputTraceLookup]
    cases hs : profile.producer s.key with
    | none =>
      rw [List.filterMap_cons_none (f := fun s : StreamTrace => profile.producer s.key) hs, ih]
    | some t =>
      rw [List.filterMap_cons_some (f := fun s : StreamTrace => profile.producer s.key) hs,
        DepthFirst.explore]
      dsimp only
      cases recurse t visited with
      | none => rfl
      | some r => exact ih (min time r.1) r.2

theorem recursePacketStartTime_eq_search (fuel : ℕ) (t : CalculatorTrace) (visited : List ℤ) :
    recursePacketStartTime (cacheOutputTraceLookup profile).1 fuel t visited =
      DepthFirst.search (upstreamGraph profile) fuel t visited := by
  induction fuel generalizing t visited with
  | zero => rfl
  | succ fuel ih =>
    have hrecurse : recursePacketStartTime (cacheOutputTraceLookup profile).1 fuel =
        DepthFirst.search (upstreamGraph profile) fuel := by
      funext t visited
      exact ih t visited
    rw [recursePacketStartTime, DepthFirst.search, hrecurse, recurseInputs_eq_explore]
    rfl

theorem mem_traces_of_upstream (ht : t ∈ profile.traces) {u : CalculatorTrace}
    (hu : Upstream profile t u) : u ∈ profile.traces := by
  induction hu with
  | refl => exact ht
  | tail _ hnext _ =>
    obtain ⟨s, -, hs⟩ := List.mem_filterMap.mp hnext
    exact mem_of_producer hs

/-- One calculator after the other, each of them once. -/
theorem exists_recursePacketStartTime (ht : t ∈ profile.traces) :
    ∃ r, recursePacketStartTime (cacheOutputTraceLookup profile).1 (profile.traces.length + 1) t
      [] = some r := by
  have hnodes : ∀ u, Upstream profile t u →
      u.nodeId ∈ profile.traces.map CalculatorTrace.nodeId :=
    fun u hu => List.mem_map_of_mem (mem_traces_of_upstream ht hu)
  rw [recursePacketStartTime_eq_search]
  refine DepthFirst.exists_search hnodes ?_
  have hle := List.length_filter_le (fun n => decide (n ∉ ([] : List ℤ)))
    (profile.traces.map CalculatorTrace.nodeId)
  rw [List.length_map] at hle
  exact Nat.lt_succ_of_le hle

/-- The latency is never negative, it is the time since a trace upstream, and the longest such time
unless a calculator is upstream in two traces. -/
theorem calculateInputLatency_longest (profile : GraphProfile) (t : CalculatorTrace)
    (ht : t ∈ profile.traces) :
    ∃ latency, calculateInputLatency (cacheOutputTraceLookup profile).1
        (profile.traces.length + 1) t = some latency ∧ 0 ≤ latency ∧
      (t.startTime = none → latency = 0) ∧
      ∀ startTime, t.startTime = some startTime →
        (∃ u, Upstream profile t u ∧ latency = startTime - u.childStartTime) ∧
        ((∀ u w, Upstream profile t u → Upstream profile t w → u.nodeId = w.nodeId → u = w) →
          ∀ u, Upstream profile t u → startTime - u.childStartTime ≤ latency) := by
  obtain ⟨r, hr⟩ := exists_recursePacketStartTime ht
  rw [calculateInputLatency]
  cases hstart : t.startTime with
  | none => exact ⟨0, rfl, le_rfl, fun _ => rfl, fun _ h => nomatch h⟩
  | some startTime =>
    have hsearch := hr
    rw [recursePacketStartTime_eq_search] at hsearch
    have hfound := DepthFirst.search_spec hsearch
    have hself : (upstreamGraph profile).key t = startTime := by
      show t.childStartTime = startTime
      rw [CalculatorTrace.childStartTime, hstart]
    have hle := hfound.le_key
    rw [hself] at hle
    refine ⟨startTime - r.1, by rw [hr]; rfl, by omega, (fun h => by cases h), ?_⟩
    rintro _ ⟨⟩
    refine ⟨?_, fun hinj u hu => ?_⟩
    · obtain ⟨u, hu, hkey⟩ := hfound.attained
      exact ⟨u, hu, by rw [hkey]; rfl⟩
    · have hmin : r.1 ≤ u.childStartTime := DepthFirst.search_nil_le hsearch hinj hu
      omega

/-- It has started to detect at time 10, and its packet of frame 1 goes into stream 5. -/
def detection : CalculatorTrace := ⟨0, 1, true, some 10, some 20, [], [⟨1, 5⟩], 0⟩

/-- It takes the packet in at time 50. -/
def landmarks : CalculatorTrace := ⟨1, 1, true, some 50, some 55, [⟨1, 5⟩], [], 0⟩

/-- Two calculators, the second of which reads what the first one puts out. -/
def twoStages : GraphProfile := ⟨[⟨0, ["detect", "landmark"], [detection, landmarks]⟩]⟩

theorem calculateInputLatency_longest_landmarks :
    ∃ latency, calculateInputLatency (cacheOutputTraceLookup twoStages).1
        (twoStages.traces.length + 1) landmarks = some latency ∧ 0 ≤ latency ∧
      (landmarks.startTime = none → latency = 0) ∧
      ∀ startTime, landmarks.startTime = some startTime →
        (∃ u, Upstream twoStages landmarks u ∧ latency = startTime - u.childStartTime) ∧
        ((∀ u w, Upstream twoStages landmarks u → Upstream twoStages landmarks w →
            u.nodeId = w.nodeId → u = w) →
          ∀ u, Upstream twoStages landmarks u → startTime - u.childStartTime ≤ latency) :=
  calculateInputLatency_longest twoStages landmarks (by decide)

example : calculateInputLatency (cacheOutputTraceLookup twoStages).1 3 landmarks = some 40 := by
  decide

end Reporter

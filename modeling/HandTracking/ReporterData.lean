/-
`Reporter::Accumulate`: what the profiles add up to.

A trace of a `Process` can hold its start, its finish or both.  A finish without a start takes the
start from the last trace of the profile with the same timestamp, calculator and thread that has
only a start; where there is none, the duration is not known and the trace does not count.

* `CalculatorData`, `GraphData`, `ReporterState` — the members;
* `accumulateTrace`, `accumulate` — one trace, and one profile;
* `Event`, `GraphProfile.events` — what a profile tells about each `Process`;
* `Measures` — what the members hold after some events, `Measures.accumulateTrace` — one trace;
* `measures_accumulateAll` — the members after any profiles.
-/
import HandTracking.InputLatency
import HandTracking.Statistic
import Mathlib.Data.Finset.Dedup
import Mathlib.Data.Finset.Insert
import Mathlib.Data.String.Basic

namespace Reporter

/-! ### The members -/

/-- `CalculatorData`: what is counted for the calculators of a name. -/
structure CalculatorData (K : Type) where
  name : String
  counter : ℤ
  completed : ℤ
  dropped : K
  fps : K
  frequency : K
  threadCount : K
  processingRate : K
  timePercent : K
  timeStat : Statistic K
  inputLatencyStat : Statistic K
  threads : Finset ℤ

/-- `GraphData`: the time that the profiles span, and the sum of the durations. -/
structure GraphData where
  minTime : ℤ
  maxTime : ℤ
  totalTime : ℤ

/-- From the largest and to the smallest `int64_t`. -/
def GraphData.new : GraphData := ⟨2 ^ 63 - 1, -2 ^ 63, 0⟩

/-- The data of a `Reporter`. -/
@[ext]
structure ReporterState (K : Type) where
  compactFlag : Bool
  columns : List String
  calculatorData : OrderedMap String (CalculatorData K)
  graphData : GraphData

variable {K : Type} [Field K] [LinearOrder K]

/-- `operator[]` of the map sets all members of new data to zero before the constructors run. -/
def Statistic.zero : Statistic K := .new ⟨0, 0, 0, 0, 0, []⟩

/-- The constructor: nothing is counted. -/
def CalculatorData.new : CalculatorData K where
  name := ""
  counter := 0
  completed := 0
  dropped := 0
  fps := 0
  frequency := 0
  threadCount := 0
  processingRate := 0
  timePercent := 0
  timeStat := .zero
  inputLatencyStat := .zero
  threads := ∅

/-! ### One profile -/

/-- The node names that `Accumulate` looks up; unknown nodes have the empty name. -/
def NameLookup.name (lookup : NameLookup) (nodeId : ℤ) : String := (lookup.find? nodeId).getD ""

/-- The start time of a trace that has finished. -/
def startTimeOf (lookup : TimestampNodeIdToCalcTrace) (calcTrace : CalculatorTrace) : Option ℤ :=
  match calcTrace.startTime with
  | some startTime => some startTime
  | none => (lookup.find? calcTrace.startKey).map fun start => start.startTime.getD 0

/-- The data after a trace: those of one calculator, and those of the graph. -/
def ReporterState.set (r : ReporterState K) (nodeName : String) (calcData : CalculatorData K)
    (graphData : GraphData) : ReporterState K :=
  { r with
    calculatorData := r.calculatorData.assign nodeName calcData
    graphData := graphData }

/-- The body of the loop of `Accumulate`; `none` when the fuel does not suffice. -/
def accumulateTrace (names : NameLookup)
    (lookups : PacketKeyToCalcTrace × TimestampNodeIdToCalcTrace) (fuel : ℕ)
    (baseTime : ℤ) (r : ReporterState K) (calcTrace : CalculatorTrace) :
    Option (ReporterState K) :=
  if calcTrace.isProcess then
    let nodeName := names.name calcTrace.nodeId
    let calcData := (r.calculatorData.find? nodeName).getD .new
    let calcData := { calcData with
      name := nodeName
      threads := insert calcTrace.threadId calcData.threads }
    let (graphData, calcData) := match calcTrace.startTime with
      | none => (r.graphData, calcData)
      | some startTime =>
        ({ r.graphData with minTime := min r.graphData.minTime (startTime + baseTime) },
          { calcData with counter := increment calcData.counter })
    match calcTrace.finishTime with
    | none => some (r.set nodeName calcData graphData)
    | some finishTime =>
      let graphData :=
        { graphData with maxTime := max graphData.maxTime (finishTime + baseTime) }
      match startTimeOf lookups.2 calcTrace with
      | none => some (r.set nodeName calcData graphData)
      | some startTime =>
        match calculateInputLatency lookups.1 fuel calcTrace with
        | none => none
        | some inputLatency =>
          let duration := finishTime + baseTime - (startTime + baseTime)
          let calcData := { calcData with
            completed := increment calcData.completed
            inputLatencyStat := calcData.inputLatencyStat.push inputLatency
            timeStat := calcData.timeStat.push duration }
          some (r.set nodeName calcData
            { graphData with totalTime := graphData.totalTime + duration })
  else some r

/-- The traces of a profile with the base times of their graphs. -/
def GraphProfile.timedTraces (profile : GraphProfile) : List (ℤ × CalculatorTrace) :=
  profile.graphTrace.flatMap fun g => g.calculatorTrace.map fun t => (g.baseTime, t)

/-- `Accumulate`: all traces of a profile, one after another. -/
def accumulate (r : ReporterState K) (profile : GraphProfile) : Option (ReporterState K) :=
  let names := cacheNodeNameLookup profile
  let lookups := cacheOutputTraceLookup profile
  profile.timedTraces.foldlM
    (fun r t => accumulateTrace names lookups (profile.traces.length + 1) t.1 r t.2) r

/-- Some profiles, one after another. -/
def accumulateAll (r : ReporterState K) (profiles : List GraphProfile) : Option (ReporterState K) :=
  profiles.foldlM accumulate r

/-! ### What a profile tells -/

/-- A `Process`: its times, and if it counts as completed its input latency and its duration. -/
structure Event where
  name : String
  thread : ℤ
  start : Option ℤ
  finish : Option ℤ
  span : Option (ℤ × ℤ)

/-- The latency of an event that starts and ends. -/
def Event.latency (e : Event) : Option ℤ := e.span.map Prod.fst

/-- Its duration. -/
def Event.duration (e : Event) : Option ℤ := e.span.map Prod.snd

namespace GraphProfile

/-- `CalculateInputLatency` for a trace of the profile. -/
def inputLatency (profile : GraphProfile) (t : CalculatorTrace) : ℤ :=
  (calculateInputLatency (cacheOutputTraceLookup profile).1 (profile.traces.length + 1) t).getD 0

/-- The start that belongs to a trace with a finish. -/
def matchedStart (profile : GraphProfile) (t : CalculatorTrace) : Option ℤ :=
  startTimeOf (cacheOutputTraceLookup profile).2 t

/-- What is counted of a trace. -/
def event (profile : GraphProfile) (baseTime : ℤ) (t : CalculatorTrace) : Event where
  name := (cacheNodeNameLookup profile).name t.nodeId
  thread := t.threadId
  start := t.startTime.map (· + baseTime)
  finish := t.finishTime.map (· + baseTime)
  span := t.finishTime.bind fun finishTime => (profile.matchedStart t).map fun startTime =>
    (profile.inputLatency t, finishTime - startTime)

/-- The events in the order of the traces. -/
def events (profile : GraphProfile) : List Event :=
  (profile.timedTraces.filter fun t => t.2.isProcess).map fun t => profile.event t.1 t.2

end GraphProfile

/-- What the data of a calculator hold after its events. -/
structure CalculatorData.Holds (d : CalculatorData K) (es : List Event) : Prop where
  counter : d.counter = (es.filterMap Event.start).length
  completed : d.completed = (es.filterMap Event.span).length
  threads : ∀ thread, thread ∈ d.threads ↔ ∃ e ∈ es, e.thread = thread
  timeStat : Tracks d.timeStat ((es.filterMap Event.duration).map Int.cast)
  inputLatencyStat : Tracks d.inputLatencyStat ((es.filterMap Event.latency).map Int.cast)
  total : d.timeStat.total = ((es.filterMap Event.duration).sum : ℤ)
  timeData : d.timeStat.data = (es.filterMap Event.duration).map Int.cast
  inputLatencyData : d.inputLatencyStat.data = (es.filterMap Event.latency).map Int.cast

/-- The events of a calculator. -/
def eventsOf (name : String) (es : List Event) : List Event := es.filter fun e => e.name = name

/-- What the reporter holds after some events. -/
structure Measures (r : ReporterState K) (es : List Event) : Prop where
  data : ∀ name d, r.calculatorData.find? name = some d →
    d.name = name ∧ d.Holds (eventsOf name es)
  absent : ∀ name, r.calculatorData.find? name = none ↔ eventsOf name es = []
  minTime : r.graphData.minTime = (es.filterMap Event.start).foldl min (2 ^ 63 - 1)
  maxTime : r.graphData.maxTime = (es.filterMap Event.finish).foldl max (-2 ^ 63)
  totalTime : r.graphData.totalTime = (es.filterMap Event.duration).sum

/-! ### One event -/

/-- The data of a calculator after an event. -/
def CalculatorData.record (d : CalculatorData K) (e : Event) : CalculatorData K :=
  { d with
    name := e.name
    threads := insert e.thread d.threads
    counter := if e.start.isSome then increment d.counter else d.counter
    completed := if e.span.isSome then increment d.completed else d.completed
    timeStat := (e.duration.map fun x : ℤ => d.timeStat.push x).getD d.timeStat
    inputLatencyStat :=
      (e.latency.map fun x : ℤ => d.inputLatencyStat.push x).getD d.inputLatencyStat }

/-- The data of the graph after an event. -/
def GraphData.record (g : GraphData) (e : Event) : GraphData where
  minTime := (e.start.map (min g.minTime)).getD g.minTime
  maxTime := (e.finish.map (max g.maxTime)).getD g.maxTime
  totalTime := g.totalTime + e.duration.getD 0

/-- The reporter after an event. -/
def ReporterState.record (r : ReporterState K) (e : Event) : ReporterState K :=
  r.set e.name (((r.calculatorData.find? e.name).getD .new).record e) (r.graphData.record e)

variable {profile : GraphProfile} {r : ReporterState K} {d : CalculatorData K} {es : List Event}

theorem calculateInputLatency_eq {t : CalculatorTrace} (ht : t ∈ profile.traces) :
    calculateInputLatency (cacheOutputTraceLookup profile).1 (profile.traces.length + 1) t =
      some (profile.inputLatency t) := by
  obtain ⟨visited, hvisited⟩ := exists_recursePacketStartTime ht
  rw [GraphProfile.inputLatency, calculateInputLatency]
  cases t.startTime with
  | none => rfl
  | some startTime =>
    dsimp only
    rw [hvisited]
    rfl

/-- A trace adds its event. -/
theorem accumulateTrace_eq {t : CalculatorTrace} (ht : t ∈ profile.traces) (hprocess : t.isProcess)
    (baseTime : ℤ) (r : ReporterState K) :
    accumulateTrace (cacheNodeNameLookup profile) (cacheOutputTraceLookup profile)
        (profile.traces.length + 1) baseTime r t =
      some (r.record (profile.event baseTime t)) := by
  have hlatency := calculateInputLatency_eq ht
  have hmatched : profile.matchedStart t = startTimeOf (cacheOutputTraceLookup profile).2 t := rfl
  rw [accumulateTrace, if_pos hprocess]
  cases hstart : t.startTime with
  | none =>
    cases hfinish : t.finishTime with
    | none => simp [ReporterState.record, CalculatorData.record, GraphData.record,
        GraphProfile.event, Event.duration, Event.latency, hstart, hfinish]
    | some finishTime =>
      dsimp only
      rw [← hmatched, hlatency]
      cases hm : profile.matchedStart t with
      | none => simp [ReporterState.record, CalculatorData.record, GraphData.record,
          GraphProfile.event, Event.duration, Event.latency, hstart, hfinish, hm]
      | some startTime => simp [ReporterState.record, CalculatorData.record, GraphData.record,
          GraphProfile.event, Event.duration, Event.latency, hstart, hfinish, hm]
  | some startTime =>
    have hm : profile.matchedStart t = some startTime := by
      rw [hmatched, startTimeOf, hstart]
    cases hfinish : t.finishTime with
    | none => simp [ReporterState.record, CalculatorData.record, GraphData.record,
        GraphProfile.event, Event.duration, Event.latency, hstart, hfinish]
    | some finishTime =>
      dsimp only
      rw [← hmatched, hlatency, hm]
      simp [ReporterState.record, CalculatorData.record, GraphData.record,
        GraphProfile.event, Event.duration, Event.latency, hstart, hfinish, hm]

/-! ### What the members hold -/

theorem Statistic.push_data (s : Statistic K) (x : K) : (s.push x).data = s.data ++ [x] := by
  rw [push]
  split_ifs <;> rfl

theorem CalculatorData.holds_new : (CalculatorData.new : CalculatorData K).Holds [] where
  counter := rfl
  completed := rfl
  threads thread := by simp [CalculatorData.new]
  timeStat := .new rfl
  inputLatencyStat := .new rfl
  total := Int.cast_zero.symm
  timeData := rfl
  inputLatencyData := rfl

theorem measures_new (columns : List String) (compactFlag : Bool) :
    Measures (⟨compactFlag, columns, .empty, .new⟩ : ReporterState K) [] where
  data name d h := by cases h
  absent name := by simp [eventsOf, OrderedMap.empty, OrderedMap.find?]
  minTime := rfl
  maxTime := rfl
  totalTime := rfl

theorem data_record {s : Statistic K} {f : Event → Option ℤ}
    (h : s.data = (es.filterMap f).map Int.cast) (e : Event) :
    (((f e).map fun x : ℤ => s.push x).getD s).data =
      ((es ++ [e]).filterMap f).map Int.cast := by
  rw [List.filterMap_append, List.map_append, ← h]
  cases hfe : f e with
  | none => simp [hfe]
  | some x => simp [hfe, Statistic.push_data]

section

variable [IsStrictOrderedRing K]

/-- A statistic of the values that some events have. -/
theorem tracks_record {s : Statistic K} {f : Event → Option ℤ}
    (h : Tracks s ((es.filterMap f).map Int.cast)) (hlen : es.length + 1 < 2 ^ 31) (e : Event) :
    Tracks (((f e).map fun x : ℤ => s.push x).getD s)
      (((es ++ [e]).filterMap f).map Int.cast) := by
  rw [List.filterMap_append]
  cases hfe : f e with
  | none => simpa [hfe] using h
  | some x =>
    have hle := List.length_filterMap_le f es
    have hpush := h.push (by rw [List.length_map]; omega) x
    simpa [hfe] using hpush

theorem increment_record {α : Type} {f : Event → Option α} {n : ℤ}
    (h : n = (es.filterMap f).length) (hlen : es.length + 1 < 2 ^ 31) (e : Event) :
    (if (f e).isSome then increment n else n) = ((es ++ [e]).filterMap f).length := by
  rw [List.filterMap_append, List.length_append, h]
  cases hfe : f e with
  | none => simp [hfe]
  | some x =>
    have hle := List.length_filterMap_le f es
    have hone : ([e].filterMap f).length = 1 := by simp [hfe]
    rw [if_pos Option.isSome_some, hone]
    exact (increment_eq_iff _).mpr (by omega)

/-- The sum also counts as 0 before the first value. -/
theorem total_record {s : Statistic K} {f : Event → Option ℤ}
    (h : Tracks s ((es.filterMap f).map Int.cast)) (htotal : s.total = ((es.filterMap f).sum : ℤ))
    (hlen : es.length + 1 < 2 ^ 31) (e : Event) :
    (((f e).map fun x : ℤ => s.push x).getD s).total = (((es ++ [e]).filterMap f).sum : ℤ) := by
  have hnext := tracks_record h hlen e
  cases hfe : f e with
  | none => simpa [List.filterMap_append, hfe] using htotal
  | some x =>
    rw [hfe] at hnext
    have hne : ((es ++ [e]).filterMap f).map (Int.cast : ℤ → K) ≠ [] := by
      simp [List.filterMap_append, hfe]
    rw [Statistic.total, hnext.total hne, Int.cast_list_sum]

theorem CalculatorData.Holds.record (h : d.Holds es) (hlen : es.length + 1 < 2 ^ 31) (e : Event) :
    (d.record e).Holds (es ++ [e]) where
  counter := increment_record h.counter hlen e
  completed := increment_record h.completed hlen e
  threads thread := by
    simp only [CalculatorData.record, Finset.mem_insert, h.threads, List.mem_append,
      List.mem_singleton, or_and_right, exists_or, exists_eq_left]
    rw [or_comm, eq_comm]
  timeStat := tracks_record h.timeStat hlen e
  inputLatencyStat := tracks_record h.inputLatencyStat hlen e
  total := total_record h.timeStat h.total hlen e
  timeData := data_record h.timeData e
  inputLatencyData := data_record h.inputLatencyData e

omit [IsStrictOrderedRing K] in
/-- New data hold no events. -/
theorem Measures.holds_getD (h : Measures r es) (name : String) :
    ((r.calculatorData.find? name).getD .new).Holds (eventsOf name es) := by
  cases hfind : r.calculatorData.find? name with
  | none =>
    rw [(h.absent name).mp hfind]
    exact CalculatorData.holds_new
  | some d => exact (h.data name d hfind).2

theorem Measures.record (h : Measures r es) (hlen : es.length + 1 < 2 ^ 31) (e : Event) :
    Measures (r.record e) (es ++ [e]) where
  data name d hd := by
    rw [ReporterState.record, ReporterState.set, OrderedMap.find?_assign] at hd
    split_ifs at hd with hname
    · cases hd
      refine ⟨hname.symm, ?_⟩
      have hle := List.length_filter_le (fun e' => decide (e'.name = e.name)) es
      have hevents : eventsOf name (es ++ [e]) = eventsOf e.name es ++ [e] := by
        rw [eventsOf, List.filter_append, hname]
        simp [eventsOf]
      rw [hevents]
      exact (h.holds_getD e.name).record (by rw [eventsOf]; omega) e
    · have hevents : eventsOf name (es ++ [e]) = eventsOf name es := by
        simp [eventsOf, Ne.symm hname]
      rw [hevents]
      exact h.data name d hd
  absent name := by
    rw [ReporterState.record, ReporterState.set, OrderedMap.find?_assign]
    split_ifs with hname
    · simp [eventsOf, hname]
    · simpa [eventsOf, Ne.symm hname] using h.absent name
  minTime := by
    rw [List.filterMap_append, List.foldl_append, ← h.minTime]
    cases hstart : e.start <;>
      simp [ReporterState.record, ReporterState.set, GraphData.record, hstart]
  maxTime := by
    rw [List.filterMap_append, List.foldl_append, ← h.maxTime]
    cases hfinish : e.finish <;>
      simp [ReporterState.record, ReporterState.set, GraphData.record, hfinish]
  totalTime := by
    rw [List.filterMap_append, List.sum_append, ← h.totalTime]
    cases hduration : e.duration <;>
      simp [ReporterState.record, ReporterState.set, GraphData.record, hduration]

theorem Measures.foldl_record (h : Measures r es) (more : List Event)
    (hlen : (es ++ more).length < 2 ^ 31) :
    Measures (more.foldl ReporterState.record r) (es ++ more) := by
  induction more generalizing r es with
  | nil => rwa [List.append_nil]
  | cons e more ih =>
    rw [List.length_append, List.length_cons] at hlen
    have hnext := h.record (by omega) e
    have hrest := ih hnext (by simp only [List.length_append, List.length_singleton]; omega)
    rwa [List.append_assoc, List.singleton_append] at hrest

end

/-! ### All profiles -/

theorem mem_traces_of_timedTraces {t : ℤ × CalculatorTrace} (ht : t ∈ profile.timedTraces) :
    t.2 ∈ profile.traces := by
  obtain ⟨g, hg, htg⟩ := List.mem_flatMap.mp ht
  obtain ⟨t', ht', rfl⟩ := List.mem_map.mp htg
  exact List.mem_flatMap.mpr ⟨g, hg, ht'⟩

theorem foldlM_accumulateTrace (ts : List (ℤ × CalculatorTrace))
    (hts : ∀ t ∈ ts, t.2 ∈ profile.traces) (r : ReporterState K) :
    ts.foldlM (fun r t => accumulateTrace (cacheNodeNameLookup profile)
        (cacheOutputTraceLookup profile) (profile.traces.length + 1) t.1 r t.2) r =
      some (((ts.filter fun t => t.2.isProcess).map fun t => profile.event t.1 t.2).foldl
        ReporterState.record r) := by
  induction ts generalizing r with
  | nil => rfl
  | cons t ts ih =>
    have hrest := ih fun t' ht' => hts t' (List.mem_cons_of_mem t ht')
    rw [List.foldlM_cons, List.filter_cons]
    split_ifs with hprocess
    · rw [accumulateTrace_eq (hts t List.mem_cons_self) hprocess, List.map_cons, List.foldl_cons]
      exact hrest _
    · rw [accumulateTrace, if_neg hprocess]
      exact hrest r

/-- A profile adds its events. -/
theorem accumulate_eq (profile : GraphProfile) (r : ReporterState K) :
    accumulate r profile = some (profile.events.foldl ReporterState.record r) :=
  foldlM_accumulateTrace profile.timedTraces (fun _ ht => mem_traces_of_timedTraces ht) r

theorem accumulateAll_eq (profiles : List GraphProfile) (r : ReporterState K) :
    accumulateAll r profiles =
      some ((profiles.flatMap GraphProfile.events).foldl ReporterState.record r) := by
  induction profiles generalizing r with
  | nil => rfl
  | cons profile profiles ih =>
    rw [List.flatMap_cons, List.foldl_append, ← ih]
    show (accumulate r profile >>= fun r => accumulateAll r profiles) = _
    rw [accumulate_eq]
    rfl

/-- **`Accumulate` returns, and the reporter measures the events of all profiles.** -/
theorem measures_accumulateAll [IsStrictOrderedRing K] (columns : List String) (compactFlag : Bool)
    (profiles : List GraphProfile)
    (hlen : (profiles.flatMap GraphProfile.events).length < 2 ^ 31) :
    ∃ r : ReporterState K,
      accumulateAll ⟨compactFlag, columns, .empty, .new⟩ profiles = some r ∧
        Measures r (profiles.flatMap GraphProfile.events) := by
  refine ⟨_, accumulateAll_eq profiles _, ?_⟩
  have hmeasures := (measures_new (K := K) columns compactFlag).foldl_record
    (profiles.flatMap GraphProfile.events) (by simpa using hlen)
  rwa [List.nil_append] at hmeasures

/-- The two traces of a stage, in one profile and again in the next. -/
theorem measures_accumulateAll_twice :
    ∃ r : ReporterState ℚ,
      accumulateAll ⟨false, [], .empty, .new⟩ [twoStages, twoStages] = some r ∧
        Measures r ([twoStages, twoStages].flatMap GraphProfile.events) :=
  measures_accumulateAll [] false [twoStages, twoStages] (by decide)

end Reporter

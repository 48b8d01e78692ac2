/-
`Reporter::Report`: shares and counts of the accumulated data.

The reporter adds each duration to the sum of its calculator and to the sum of all, so that the
shares are those of a whole.  It counts starts and, apart from them, the traces that have finished;
the difference is meant to be the packets that were dropped.

* `CalculatorData.complete`, `completeCalculatorData` — the values that `Report` computes;
* `sum_timePercent` — the shares sum up to 100;
* `GraphProfile.unfinished` — the starts without a finish in their profile;
* `counter_eq` — every start that is counted has finished or not;
* `dropped_eq_unfinished` — the dropped packets are the starts without a finish.
-/
import HandTracking.ReporterData

namespace Reporter

variable {K : Type} [Field K] [LinearOrder K]

/-- `CompleteCalculatorData` for one calculator. -/
def CalculatorData.complete (graphData : GraphData) (d : CalculatorData K) : CalculatorData K :=
  let timeToProcess := d.timeStat.getMean + d.inputLatencyStat.getMean
  let duration : K := ((graphData.maxTime - graphData.minTime : ℤ) : K)
  { d with
    fps := if timeToProcess = 0 then 0 else 10 ^ 6 / timeToProcess
    frequency := d.completed / (duration / 10 ^ 6)
    timePercent := 100 * d.timeStat.total / graphData.totalTime
    dropped := ((d.counter - d.completed : ℤ) : K)
    processingRate :=
      if d.timeStat.getMean = 0 then 0 else 1 / d.timeStat.getMean * 10 ^ 6
    threadCount := d.threads.card }

/-- `CompleteCalculatorData` for all of them. -/
def completeCalculatorData (r : ReporterState K) : ReporterState K :=
  { r with calculatorData := r.calculatorData.mapValues (CalculatorData.complete r.graphData) }

variable {profile : GraphProfile} {r : ReporterState K} {es : List Event}

/-! ### The shares -/

/-- The sum over all calculators. -/
def ReporterState.sumOfTotals (r : ReporterState K) : K :=
  (r.calculatorData.entries.map fun e => e.2.timeStat.total).sum

section

variable [IsStrictOrderedRing K]

theorem total_record_eq (h : Measures r es) (hlen : es.length + 1 < 2 ^ 31) (e : Event) :
    (((r.calculatorData.find? e.name).getD .new).record e).timeStat.total =
      ((r.calculatorData.find? e.name).getD .new).timeStat.total + (e.duration.getD 0 : ℤ) := by
  have hbefore := h.holds_getD e.name
  have hle := List.length_filter_le (fun e' => decide (e'.name = e.name)) es
  have hafter := hbefore.record (by rw [eventsOf]; omega) e
  rw [hafter.total, hbefore.total, List.filterMap_append, List.sum_append, Int.cast_add]
  cases hduration : e.duration <;> simp [hduration]

theorem sumOfTotals_record (h : Measures r es) (hlen : es.length + 1 < 2 ^ 31)
    (hsum : r.sumOfTotals = r.graphData.totalTime) (e : Event) :
    (r.record e).sumOfTotals = (r.record e).graphData.totalTime := by
  have htotal := total_record_eq h hlen e
  have hnew := (OrderedMap.assign_perm_cons_erase (m := r.calculatorData) (k := e.name)
    (v := ((r.calculatorData.find? e.name).getD .new).record e)).map
      fun e : String × CalculatorData K => e.2.timeStat.total
  have hold : r.sumOfTotals = ((r.calculatorData.find? e.name).getD .new).timeStat.total +
      ((r.calculatorData.erase e.name).entries.map fun e => e.2.timeStat.total).sum := by
    cases hfind : r.calculatorData.find? e.name with
    | none =>
      rw [OrderedMap.erase_of_find?_none hfind]
      show _ = (0 : K) + _
      rw [zero_add]
      rfl
    | some d =>
      have hperm := OrderedMap.perm_cons_erase (OrderedMap.find?_eq_some_iff.mp hfind)
      exact (hperm.map fun e : String × CalculatorData K => e.2.timeStat.total).sum_eq
  have hrecord : (r.record e).graphData.totalTime =
      r.graphData.totalTime + e.duration.getD 0 := rfl
  rw [hrecord, Int.cast_add, ← hsum, hold]
  refine hnew.sum_eq.trans ?_
  rw [List.map_cons, List.sum_cons, htotal]
  ring

theorem sumOfTotals_foldl_record (h : Measures r es) (more : List Event)
    (hlen : (es ++ more).length < 2 ^ 31) (hsum : r.sumOfTotals = r.graphData.totalTime) :
    (more.foldl ReporterState.record r).sumOfTotals =
      (more.foldl ReporterState.record r).graphData.totalTime := by
  induction more generalizing r es with
  | nil => exact hsum
  | cons e more ih =>
    rw [List.length_append, List.length_cons] at hlen
    exact ih (h.record (by omega) e)
      (by simp only [List.length_append, List.length_singleton]; omega)
      (sumOfTotals_record h (by omega) hsum e)

/-- **The shares are shares of a whole.** -/
theorem sum_timePercent (columns : List String) (compactFlag : Bool) (profiles : List GraphProfile)
    (hlen : (profiles.flatMap GraphProfile.events).length < 2 ^ 31)
    (htotal : ((profiles.flatMap GraphProfile.events).filterMap Event.duration).sum ≠ 0) :
    ∃ r : ReporterState K, accumulateAll ⟨compactFlag, columns, .empty, .new⟩ profiles = some r ∧
      ((completeCalculatorData r).calculatorData.entries.map fun e => e.2.timePercent).sum =
        100 := by
  have hnew := measures_new (K := K) columns compactFlag
  set r : ReporterState K := (profiles.flatMap GraphProfile.events).foldl ReporterState.record
    ⟨compactFlag, columns, .empty, .new⟩ with hr
  refine ⟨r, accumulateAll_eq profiles _, ?_⟩
  have hmeasures := hnew.foldl_record (profiles.flatMap GraphProfile.events) (by simpa using hlen)
  have hsum : r.sumOfTotals = r.graphData.totalTime :=
    sumOfTotals_foldl_record hnew _ (by simpa using hlen) Int.cast_zero.symm
  rw [List.nil_append, ← hr] at hmeasures
  have hne : (r.graphData.totalTime : K) ≠ 0 := by
    rw [hmeasures.totalTime]
    exact Int.cast_ne_zero.mpr htotal
  have hpercent : ((completeCalculatorData r).calculatorData.entries.map
      fun e => e.2.timePercent) = r.calculatorData.entries.map
        fun e => 100 / (r.graphData.totalTime : K) * e.2.timeStat.total := by
    rw [completeCalculatorData, OrderedMap.mapValues, List.map_map]
    refine List.map_congr_left fun e _ => ?_
    show 100 * e.2.timeStat.total / r.graphData.totalTime = _
    ring
  rw [hpercent, List.sum_map_mul_left]
  show 100 / (r.graphData.totalTime : K) * r.sumOfTotals = 100
  rw [hsum, div_mul_cancel₀ _ hne]

theorem sum_timePercent_twoStages :
    ∃ r : ReporterState ℚ, accumulateAll ⟨false, [], .empty, .new⟩ [twoStages] = some r ∧
      ((completeCalculatorData r).calculatorData.entries.map fun e => e.2.timePercent).sum =
        100 :=
  sum_timePercent [] false [twoStages] (by decide) (by decide)

end

/-! ### The dropped packets -/

namespace GraphProfile

/-- The traces of a `Process` that have started, and not finished. -/
def starts (profile : GraphProfile) : List CalculatorTrace :=
  profile.traces.filter fun t => t.isProcess ∧ t.startTime.isSome ∧ t.finishTime.isNone

/-- The traces of a `Process` that have finished, and not started. -/
def finishes (profile : GraphProfile) : List CalculatorTrace :=
  profile.traces.filter fun t => t.isProcess ∧ t.startTime.isNone ∧ t.finishTime.isSome

/-- The name of a calculator. -/
def nameOf (profile : GraphProfile) (t : CalculatorTrace) : String :=
  (cacheNodeNameLookup profile).name t.nodeId

/-- A `Process` of a calculator of the name. -/
def Runs (profile : GraphProfile) (name : String) (t : CalculatorTrace) : Prop :=
  t.isProcess ∧ profile.nameOf t = name

instance (profile : GraphProfile) (name : String) (t : CalculatorTrace) :
    Decidable (profile.Runs name t) :=
  inferInstanceAs (Decidable (_ ∧ _))

/-- The starts of the calculators of a name for which the profile has no finish. -/
def unfinished (name : String) (profile : GraphProfile) : List CalculatorTrace :=
  profile.starts.filter fun t => profile.nameOf t = name ∧
    t.startKey ∉ profile.finishes.map CalculatorTrace.startKey

/-- A calculator starts and finishes at most once with each timestamp on each thread. -/
structure KeysDiffer (profile : GraphProfile) : Prop where
  starts : (profile.starts.map CalculatorTrace.startKey).Nodup
  finishes : (profile.finishes.map CalculatorTrace.startKey).Nodup

end GraphProfile

theorem countP_split {α : Type} (p q : α → Prop) [DecidablePred p] [DecidablePred q]
    (l : List α) :
    l.countP (fun a => p a) = l.countP (fun a => p a ∧ q a) + l.countP (fun a => p a ∧ ¬q a) := by
  rw [List.countP_eq_countP_filter_add l (fun a => decide (p a)) fun a => decide (q a),
    List.countP_filter, List.countP_filter]
  simp only [Bool.decide_and, decide_not]

/-- Two lists without repetitions have as many elements of each other. -/
theorem length_filter_mem_comm {α : Type} [DecidableEq α] {s t : List α} (hs : s.Nodup)
    (ht : t.Nodup) (q : α → Prop) [DecidablePred q] :
    (s.filter fun a => q a ∧ a ∈ t).length = (t.filter fun a => q a ∧ a ∈ s).length := by
  refine List.Perm.length_eq ((List.perm_ext_iff_of_nodup (hs.filter _) (ht.filter _)).mpr ?_)
  intro a
  simp only [List.mem_filter, decide_eq_true_eq]
  tauto

namespace GraphProfile

theorem map_timedTraces (profile : GraphProfile) :
    profile.timedTraces.map Prod.snd = profile.traces := by
  rw [timedTraces, traces, List.map_flatMap]
  refine congrArg (List.flatMap · _) (funext fun g => ?_)
  rw [List.map_map]
  exact List.map_id _

/-- Events are counted on the traces. -/
theorem length_filterMap_eventsOf {α : Type} (f : Event → Option α) (g : CalculatorTrace → Prop)
    [DecidablePred g] (profile : GraphProfile)
    (hg : ∀ baseTime t, (f (profile.event baseTime t)).isSome = true ↔ g t) (name : String) :
    ((eventsOf name profile.events).filterMap f).length =
      profile.traces.countP fun t => profile.Runs name t ∧ g t := by
  rw [List.length_filterMap_eq_countP, eventsOf, List.countP_filter, events, List.countP_map,
    List.countP_filter, ← map_timedTraces, List.countP_map]
  refine List.countP_congr fun t _ => ?_
  have hname : (profile.event t.1 t.2).name = profile.nameOf t.2 := rfl
  simp only [Function.comp, Bool.and_eq_true, hg, decide_eq_true_eq, hname]
  rw [Runs]
  tauto

/-! ### The starts that are found -/

theorem find?_cacheTrace_start (lookups : PacketKeyToCalcTrace × TimestampNodeIdToCalcTrace)
    (t : CalculatorTrace) (key : ℤ ×ₗ ℤ ×ₗ ℤ) :
    (cacheTrace lookups t).2.find? key =
      if (t.isProcess ∧ t.startTime.isSome ∧ t.finishTime.isNone) ∧ key = t.startKey then some t
      else lookups.2.find? key := by
  rw [cacheTrace]
  by_cases hprocess : t.isProcess
  · rw [if_pos hprocess]
    by_cases hstart : t.startTime.isSome ∧ t.finishTime.isNone
    · rw [if_pos hstart, OrderedMap.find?_assign]
      simp [hprocess, hstart]
    · rw [if_neg hstart, if_neg fun h => hstart h.1.2]
  · rw [if_neg hprocess, if_neg fun h => hprocess h.1.1]

theorem isSome_find?_startLookup (profile : GraphProfile) (key : ℤ ×ₗ ℤ ×ₗ ℤ) :
    ((cacheOutputTraceLookup profile).2.find? key).isSome ↔
      key ∈ profile.starts.map CalculatorTrace.startKey := by
  rw [cacheOutputTraceLookup, starts]
  induction profile.traces using List.reverseRecOn with
  | nil => simp [OrderedMap.empty, OrderedMap.find?]
  | append_singleton ts t ih =>
    rw [List.foldl_append, List.foldl_cons, List.foldl_nil, find?_cacheTrace_start,
      List.filter_append, List.map_append, List.mem_append, ← ih]
    split_ifs with hstart
    · refine iff_of_true rfl (Or.inr (List.mem_map.mpr ⟨t, ?_, hstart.2.symm⟩))
      exact List.mem_filter.mpr ⟨List.mem_singleton_self t, decide_eq_true hstart.1⟩
    · refine (or_iff_left fun hmem => ?_).symm
      obtain ⟨t', ht', rfl⟩ := List.mem_map.mp hmem
      obtain ⟨hone, hstart'⟩ := List.mem_filter.mp ht'
      obtain rfl := List.mem_singleton.mp hone
      exact hstart ⟨of_decide_eq_true hstart', rfl⟩

theorem isSome_matchedStart (profile : GraphProfile) (t : CalculatorTrace) :
    (profile.matchedStart t).isSome ↔
      t.startTime.isSome ∨ t.startKey ∈ profile.starts.map CalculatorTrace.startKey := by
  rw [← isSome_find?_startLookup, matchedStart, startTimeOf]
  cases t.startTime with
  | none => simp
  | some startTime => simp

/-! ### Starts and finishes -/

/-- As many starts have a finish as finishes have a start. -/
theorem KeysDiffer.countP_eq (h : profile.KeysDiffer) (name : String) :
    (profile.starts.filter fun t => profile.nameOf t = name ∧
        t.startKey ∈ profile.finishes.map CalculatorTrace.startKey).length =
      (profile.finishes.filter fun t => profile.nameOf t = name ∧
        t.startKey ∈ profile.starts.map CalculatorTrace.startKey).length := by
  -- the key of a trace holds its calculator, and so its name
  have hkeys := length_filter_mem_comm h.starts h.finishes
    fun k => (cacheNodeNameLookup profile).name (ofLex (ofLex k).2).1 = name
  rw [List.filter_map, List.filter_map, List.length_map, List.length_map] at hkeys
  convert hkeys using 3
  · exact funext fun t => decide_eq_decide.mpr Iff.rfl
  · exact funext fun t => decide_eq_decide.mpr Iff.rfl

/-- Traces of one kind, of one calculator and with a key that others have or not. -/
theorem length_filter_filter (q s : CalculatorTrace → Prop) [DecidablePred q] [DecidablePred s]
    (name : String) (profile : GraphProfile) :
    ((profile.traces.filter fun t => t.isProcess ∧ q t).filter fun t =>
        profile.nameOf t = name ∧ s t).length =
      profile.traces.countP fun t => (profile.Runs name t ∧ q t) ∧ s t := by
  rw [List.filter_filter, ← List.countP_eq_length_filter]
  refine List.countP_congr fun t _ => ?_
  simp only [Bool.and_eq_true, decide_eq_true_eq]
  rw [Runs]
  tauto

/-- Every start that is counted has a finish that is counted, or none in its profile. -/
theorem counter_eq (h : profile.KeysDiffer) (name : String) :
    ((eventsOf name profile.events).filterMap Event.start).length =
      ((eventsOf name profile.events).filterMap Event.span).length +
        (profile.unfinished name).length := by
  have hstart := length_filterMap_eventsOf Event.start (fun t => t.startTime.isSome) profile
    (fun _ t => by simp [event]) name
  have hspan := length_filterMap_eventsOf Event.span (fun t => t.finishTime.isSome ∧
      (t.startTime.isSome ∨ t.startKey ∈ profile.starts.map CalculatorTrace.startKey)) profile
    (fun _ t => by
      rw [← isSome_matchedStart, event]
      cases t.finishTime <;> simp) name
  have hcomm := h.countP_eq name
  rw [starts, length_filter_filter, finishes, length_filter_filter, ← starts, ← finishes] at hcomm
  have hunfinished : (profile.unfinished name).length = _ :=
    length_filter_filter (fun t => t.startTime.isSome ∧ t.finishTime.isNone)
      (fun t => t.startKey ∉ profile.finishes.map CalculatorTrace.startKey) name profile
  -- a start stands with its finish, or the finish stands alone, or there is none
  rw [countP_split _ (fun t => t.finishTime.isSome) profile.traces] at hstart
  rw [countP_split _ (fun t => t.startTime.isSome) profile.traces] at hspan
  have honly := countP_split
    (fun t => profile.Runs name t ∧ t.startTime.isSome ∧ t.finishTime.isNone)
    (fun t => t.startKey ∈ profile.finishes.map CalculatorTrace.startKey) profile.traces
  have hboth : profile.traces.countP (fun t => (profile.Runs name t ∧ t.finishTime.isSome ∧
      (t.startTime.isSome ∨ t.startKey ∈ profile.starts.map CalculatorTrace.startKey)) ∧
        t.startTime.isSome) = profile.traces.countP fun t =>
          (profile.Runs name t ∧ t.startTime.isSome) ∧ t.finishTime.isSome := by
    refine List.countP_congr fun t _ => ?_
    cases t.startTime <;> cases t.finishTime <;> simp
  have hstarts : profile.traces.countP (fun t => (profile.Runs name t ∧ t.startTime.isSome) ∧
      ¬t.finishTime.isSome) = profile.traces.countP fun t =>
        profile.Runs name t ∧ t.startTime.isSome ∧ t.finishTime.isNone := by
    refine List.countP_congr fun t _ => ?_
    cases t.startTime <;> cases t.finishTime <;> simp
  have hfinishes : profile.traces.countP (fun t => (profile.Runs name t ∧ t.finishTime.isSome ∧
      (t.startTime.isSome ∨ t.startKey ∈ profile.starts.map CalculatorTrace.startKey)) ∧
        ¬t.startTime.isSome) = profile.traces.countP fun t =>
          (profile.Runs name t ∧ t.startTime.isNone ∧ t.finishTime.isSome) ∧
            t.startKey ∈ profile.starts.map CalculatorTrace.startKey := by
    refine List.countP_congr fun t _ => ?_
    cases t.startTime <;> cases t.finishTime <;> simp
  omega

end GraphProfile

theorem counter_eq_all {profiles : List GraphProfile}
    (hkeys : ∀ profile ∈ profiles, profile.KeysDiffer) (name : String) :
    ((eventsOf name (profiles.flatMap GraphProfile.events)).filterMap Event.start).length =
      ((eventsOf name (profiles.flatMap GraphProfile.events)).filterMap Event.span).length +
        (profiles.flatMap (GraphProfile.unfinished name)).length := by
  induction profiles with
  | nil => rfl
  | cons profile profiles ih =>
    have hfirst := GraphProfile.counter_eq (hkeys profile List.mem_cons_self) name
    have hrest := ih fun p hp => hkeys p (List.mem_cons_of_mem profile hp)
    have hevents : eventsOf name ((profile :: profiles).flatMap GraphProfile.events) =
        eventsOf name profile.events ++
          eventsOf name (profiles.flatMap GraphProfile.events) := by
      rw [List.flatMap_cons, eventsOf, List.filter_append]
      rfl
    rw [hevents, List.filterMap_append, List.filterMap_append, List.flatMap_cons,
      List.length_append, List.length_append, List.length_append, hfirst, hrest]
    omega

/-- **The dropped packets of a calculator are its starts for which their profile has no finish.** -/
theorem dropped_eq_unfinished [IsStrictOrderedRing K] (columns : List String) (compactFlag : Bool)
    (profiles : List GraphProfile)
    (hlen : (profiles.flatMap GraphProfile.events).length < 2 ^ 31)
    (hkeys : ∀ profile ∈ profiles, profile.KeysDiffer) :
    ∃ r : ReporterState K, accumulateAll ⟨compactFlag, columns, .empty, .new⟩ profiles = some r ∧
      ∀ name d, (completeCalculatorData r).calculatorData.find? name = some d →
        d.dropped = (profiles.flatMap (GraphProfile.unfinished name)).length := by
  have hmeasures := (measures_new (K := K) columns compactFlag).foldl_record
    (profiles.flatMap GraphProfile.events) (by simpa using hlen)
  rw [List.nil_append] at hmeasures
  refine ⟨_, accumulateAll_eq profiles _, fun name d hd => ?_⟩
  rw [completeCalculatorData, OrderedMap.find?_mapValues, Option.map_eq_some_iff] at hd
  obtain ⟨before, hbefore, rfl⟩ := hd
  have hholds := (hmeasures.data name before hbefore).2
  show ((before.counter - before.completed : ℤ) : K) = _
  rw [hholds.counter, hholds.completed, counter_eq_all hkeys name]
  push_cast
  ring

/-- A start and its finish in two traces, and a start that is never finished. -/
def oneDropped : GraphProfile :=
  ⟨[⟨100, ["detect"], [⟨0, 1, true, some 10, none, [], [], 7⟩,
    ⟨0, 1, true, none, some 20, [], [], 7⟩, ⟨0, 2, true, some 30, none, [], [], 7⟩]⟩]⟩

theorem dropped_eq_unfinished_oneDropped :
    ∃ r : ReporterState ℚ, accumulateAll ⟨false, [], .empty, .new⟩ [oneDropped] = some r ∧
      ∀ name d, (completeCalculatorData r).calculatorData.find? name = some d →
        d.dropped = ([oneDropped].flatMap (GraphProfile.unfinished name)).length :=
  dropped_eq_unfinished [] false [oneDropped] (by decide) fun profile hprofile => by
    rw [List.mem_singleton.mp hprofile]
    exact ⟨by decide, by decide⟩

end Reporter

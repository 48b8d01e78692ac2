/-
The histories of a `Reporter`: profiles, columns and reports in any order.

* `Call`, `ReporterState.call`, `ReporterState.init` — the calls and the constructor;
* `Reached`, `reached_run` — what every history leaves;
* `report_iff`, `report_table` — where the report reads out of range, and the table that it is;
* `report_reports` — reports in between do not change the next one.
-/
import HandTracking.ReportTable

namespace Reporter

variable {K : Type} [Field K] [LinearOrder K] [FloorRing K]

/-- The calls of a reporter. -/
inductive Call where
  | accumulate (profile : GraphProfile)
  | setColumns (matchers : List String)
  | setCompact (value : Bool)
  | report

/-- The events that a call counts. -/
def Call.events : Call → List Event
  | .accumulate profile => profile.events
  | .setColumns _ | .setCompact _ | .report => []

/-- The call is a report. -/
def Call.isReport : Call → Bool
  | .report => true
  | _ => false

/-- One call. -/
def ReporterState.call (f : Format K) (re : Regex) (r : ReporterState K) :
    Call → Option (ReporterState K)
  | .accumulate profile => accumulate r profile
  | .setColumns matchers => some (setColumns f re r matchers).1
  | .setCompact value => some { r with compactFlag := value }
  | .report => (report f r).map Prod.snd

/-- The constructor selects all columns. -/
def ReporterState.init (f : Format K) (re : Regex) : ReporterState K :=
  (setColumns f re ⟨false, [], .empty, .new⟩ ["*"]).1

variable {f : Format K} {re : Regex} {r r' : ReporterState K} {es : List Event}

theorem eq_complete_of_report {report' : ReportImpl} (h : report f r = some (report', r')) :
    r' = completeCalculatorData r := by
  rw [report] at h
  split at h
  · cases h
  · cases h
    rfl

omit [FloorRing K] in
theorem columns_foldl_record (r : ReporterState K) (es : List Event) :
    (es.foldl ReporterState.record r).columns = r.columns := by
  induction es generalizing r with
  | nil => rfl
  | cons e es ih => exact ih (r.record e)

/-! ### A history -/

/-- A format with hundredths as whole numbers. -/
def plain : Format ℚ where
  toStringF q := toString (q * 100).floor
  toString q := toString q.floor
  sqrt q := Nat.sqrt q.num.toNat / Nat.sqrt q.den

/-- A pattern and a text. -/
def globMatch : List Char → List Char → Bool
  | '.' :: '*' :: pattern, text => text.tails.any (globMatch pattern)
  | '.' :: pattern, _ :: text => globMatch pattern text
  | c :: pattern, x :: text => c = x ∧ globMatch pattern text
  | [], [] => true
  | _, _ => false

/-- Names with wildcards, and the names they match. -/
def wildcards : Regex where
  validColumn s := ¬s.isEmpty ∧ s.toList.all fun c => c.isAlphanum ∨ c ∈ ['_', '?', '*']
  fullMatch s colString := globMatch colString.toList s.toList

/-- The reporter that gives only the names, and has one profile. -/
def once : ReporterState ℚ :=
  twoStages.events.foldl ReporterState.record
    (setColumns plain wildcards (.init plain wildcards) []).1

theorem run_once :
    [Call.setColumns [], .accumulate twoStages].foldlM (ReporterState.call plain wildcards)
      (.init plain wildcards) = some once := by
  show accumulate (setColumns plain wildcards (.init plain wildcards) []).1 twoStages >>= some = _
  rw [accumulate_eq]
  rfl

theorem report_once : report plain once = some (table plain once, completeCalculatorData once) := by
  have hcolumns : once.columns = ["calculator"] := by
    rw [once, columns_foldl_record, columns_setColumns]
    rfl
  refine report_eq (by rw [hcolumns]; exact List.cons_ne_nil _ _) fun header hheader d _ => ?_
  rw [hcolumns, List.mem_singleton] at hheader
  rw [hheader]
  exact (isSome_columnText (mem_keys_calculator plain) d).mpr
    ⟨fun h => absurd h (by decide), fun h => absurd h (by decide)⟩

/-! ### What a history leaves -/

/-- The reporter after the events. -/
structure Reached (f : Format K) (r : ReporterState K) (es : List Event) : Prop where
  columns : ColumnsOk f r.columns
  measures : Measures r es

omit [FloorRing K] in
theorem CalculatorData.Holds.complete {d : CalculatorData K} (h : d.Holds es) (g : GraphData) :
    (d.complete g).Holds es :=
  ⟨h.counter, h.completed, h.threads, h.timeStat, h.inputLatencyStat, h.total, h.timeData,
    h.inputLatencyData⟩

omit [FloorRing K] in
theorem Measures.complete (h : Measures r es) : Measures (completeCalculatorData r) es where
  data name d hd := by
    rw [completeCalculatorData, OrderedMap.find?_mapValues, Option.map_eq_some_iff] at hd
    obtain ⟨before, hbefore, rfl⟩ := hd
    obtain ⟨hname, hholds⟩ := h.data name before hbefore
    exact ⟨hname, hholds.complete r.graphData⟩
  absent name := by
    rw [completeCalculatorData, OrderedMap.find?_mapValues, Option.map_eq_none_iff]
    exact h.absent name
  minTime := h.minTime
  maxTime := h.maxTime
  totalTime := h.totalTime

theorem setColumns_measures (h : Measures r es) (matchers : List String) :
    Measures (setColumns f re r matchers).1 es := by
  rw [setColumns]
  dsimp only
  split_ifs
  · exact h
  · exact ⟨h.data, h.absent, h.minTime, h.maxTime, h.totalTime⟩

theorem reached_init (f : Format K) (re : Regex) : Reached f (ReporterState.init f re) [] :=
  ⟨columnsOk_setColumns f re _ _, setColumns_measures (measures_new [] false) _⟩

section

variable [IsStrictOrderedRing K]

theorem Reached.call {call : Call} (h : Reached f r es)
    (hlen : (es ++ call.events).length < 2 ^ 31) (hcall : r.call f re call = some r') :
    Reached f r' (es ++ call.events) := by
  cases call with
  | accumulate profile =>
    have hrun : accumulate r profile = some r' := hcall
    rw [accumulate_eq] at hrun
    cases hrun
    refine ⟨?_, h.measures.foldl_record profile.events hlen⟩
    rw [columns_foldl_record]
    exact h.columns
  | setColumns matchers =>
    cases hcall
    rw [Call.events, List.append_nil]
    exact ⟨columnsOk_setColumns f re r matchers, setColumns_measures h.measures matchers⟩
  | setCompact value =>
    cases hcall
    rw [Call.events, List.append_nil]
    exact ⟨h.columns, h.measures.data, h.measures.absent, h.measures.minTime, h.measures.maxTime,
      h.measures.totalTime⟩
  | report =>
    obtain ⟨⟨table, after⟩, hreport, rfl⟩ := Option.map_eq_some_iff.mp hcall
    rw [Call.events, List.append_nil, eq_complete_of_report hreport]
    exact ⟨h.columns, h.measures.complete⟩

theorem Reached.run {calls : List Call} (h : Reached f r es)
    (hlen : (es ++ calls.flatMap Call.events).length < 2 ^ 31)
    (hrun : calls.foldlM (ReporterState.call f re) r = some r') :
    Reached f r' (es ++ calls.flatMap Call.events) := by
  induction calls generalizing r es with
  | nil =>
    cases hrun
    rwa [List.flatMap_nil, List.append_nil]
  | cons call calls ih =>
    rw [List.flatMap_cons, ← List.append_assoc] at hlen ⊢
    rw [List.foldlM_cons] at hrun
    obtain ⟨between, hcall, hrest⟩ := Option.bind_eq_some_iff.mp hrun
    have hshort : (es ++ call.events).length < 2 ^ 31 := by
      rw [List.length_append] at hlen
      omega
    exact ih (h.call hshort hcall) hlen hrest

theorem reached_run {calls : List Call} (hlen : (calls.flatMap Call.events).length < 2 ^ 31)
    (hrun : calls.foldlM (ReporterState.call f re) (.init f re) = some r) :
    Reached f r (calls.flatMap Call.events) :=
  (reached_init f re).run hlen hrun

/-! ### The next report -/

omit [LinearOrder K] [FloorRing K] [IsStrictOrderedRing K] [Field K] in
theorem length_filterMap_map {α : Type} (g : ℤ × ℤ → α) (es : List Event) :
    (es.filterMap fun e => e.span.map g).length = (es.filterMap Event.span).length := by
  rw [List.length_filterMap_eq_countP, List.length_filterMap_eq_countP]
  exact List.countP_congr fun e _ => by rw [Option.isSome_map]

omit [FloorRing K] [IsStrictOrderedRing K] in
theorem CalculatorData.Holds.length_data {d : CalculatorData K} (h : d.Holds es) :
    (d.timeStat.data.length : ℤ) = d.completed ∧
      (d.inputLatencyStat.data.length : ℤ) = d.completed := by
  rw [h.timeData, h.inputLatencyData, h.completed, List.length_map, List.length_map]
  exact ⟨congrArg Nat.cast (length_filterMap_map Prod.snd es),
    congrArg Nat.cast (length_filterMap_map Prod.fst es)⟩

omit [FloorRing K] [IsStrictOrderedRing K] in
theorem mem_reportData {d : CalculatorData K} :
    d ∈ reportData r ↔ ∃ name before, r.calculatorData.find? name = some before ∧
      before.complete r.graphData = d := by
  rw [reportData, completeCalculatorData, OrderedMap.mapValues]
  simp only [List.map_map, List.mem_map, OrderedMap.find?_eq_some_iff]
  constructor
  · rintro ⟨e, he, rfl⟩
    exact ⟨e.1, e.2, he, rfl⟩
  · rintro ⟨name, before, he, rfl⟩
    exact ⟨(name, before), he, rfl⟩

theorem isSome_report_iff (h : Reached f r es) :
    (report f r).isSome ↔
      ∀ header ∈ r.columns, header = "time_95" ∨ header = "input_latency_95" →
        ∀ name d, r.calculatorData.find? name = some d → d.completed ≠ 1 := by
  rw [isSome_report]
  constructor
  · intro hsome header hheader hpercentile name d hd hone
    have hlength := (h.measures.data name d hd).2.length_data
    have htext := (isSome_columnText (h.columns.mem header hheader) _).mp
      (hsome header hheader _ (mem_reportData.mpr ⟨name, d, hd, rfl⟩))
    rw [hone] at hlength
    obtain rfl | rfl := hpercentile
    · exact htext.1 rfl (by exact_mod_cast hlength.1)
    · exact htext.2 rfl (by exact_mod_cast hlength.2)
  · intro hsafe header hheader d hd
    obtain ⟨name, before, hbefore, rfl⟩ := mem_reportData.mp hd
    have hlength := (h.measures.data name before hbefore).2.length_data
    refine (isSome_columnText (h.columns.mem header hheader) _).mpr ⟨fun htime hone => ?_,
      fun hlatency hone => ?_⟩
    · refine hsafe header hheader (Or.inl htime) name before hbefore ?_
      rw [← hlength.1]
      exact_mod_cast hone
    · refine hsafe header hheader (Or.inr hlatency) name before hbefore ?_
      rw [← hlength.2]
      exact_mod_cast hone

/-- **Where the report stays in range**: unless a percentile is asked for of a calculator that has
completed once. -/
theorem report_iff (f : Format K) (re : Regex) (calls : List Call) (r : ReporterState K)
    (hlen : (calls.flatMap Call.events).length < 2 ^ 31)
    (hrun : calls.foldlM (ReporterState.call f re) (.init f re) = some r) :
    (report f r).isSome ↔
      ∀ header ∈ r.columns, header = "time_95" ∨ header = "input_latency_95" →
        ∀ name d, r.calculatorData.find? name = some d → d.completed ≠ 1 :=
  isSome_report_iff (reached_run hlen hrun)

theorem report_iff_once :
    (report plain once).isSome ↔
      ∀ header ∈ once.columns, header = "time_95" ∨ header = "input_latency_95" →
        ∀ name d, once.calculatorData.find? name = some d → d.completed ≠ 1 :=
  report_iff plain wildcards [.setColumns [], .accumulate twoStages] once (by decide) run_once

/-- **The table of every report**: a line for each named calculator with the texts of its columns,
which are as wide as their longest texts, printed with every text padded to its column. -/
theorem report_table (f : Format K) (re : Regex) (calls : List Call) (r r' : ReporterState K)
    (report' : ReportImpl) (hlen : (calls.flatMap Call.events).length < 2 ^ 31)
    (hrun : calls.foldlM (ReporterState.call f re) (.init f re) = some r)
    (hreport : report f r = some (report', r')) :
    ColumnsOk f report'.headers ∧
      report'.lines = ((named (reportData r)).map fun d =>
        report'.headers.map fun header => cell f header d) ∧
      List.Forall₂ (fun header charCount =>
          IsGreatest {n | ∃ text ∈ header :: (named (reportData r)).map (cell f header),
            text.utf8ByteSize = n} charCount)
        report'.headers report'.charCounts ∧
      print report' = some ((report'.headers :: report'.lines).map fun row =>
        (cells report' row).foldr (· ++ ·) "") ∧
      (report'.compactFlag = false → ∀ row ∈ report'.headers :: report'.lines,
        (cells report' row).map String.utf8ByteSize = report'.charCounts.map (· + 1)) := by
  have hreached := reached_run hlen hrun
  have htexts := (isSome_report f r).mp (by rw [hreport]; rfl)
  have htable := report_eq hreached.columns.ne_nil htexts
  rw [hreport] at htable
  obtain ⟨rfl, -⟩ := Prod.mk.inj (Option.some.inj htable)
  exact ⟨hreached.columns, rfl, isGreatest_charCounts f r, print_table f r,
    fun hcompact row hrow => size_cells (fits_table f r hrow) hcompact⟩

theorem report_table_once :
    ColumnsOk plain (table plain once).headers ∧
      (table plain once).lines = ((named (reportData once)).map fun d =>
        (table plain once).headers.map fun header => cell plain header d) ∧
      List.Forall₂ (fun header charCount =>
          IsGreatest {n | ∃ text ∈ header :: (named (reportData once)).map (cell plain header),
            text.utf8ByteSize = n} charCount)
        (table plain once).headers (table plain once).charCounts ∧
      print (table plain once) = some (((table plain once).headers ::
        (table plain once).lines).map fun row =>
          (cells (table plain once) row).foldr (· ++ ·) "") ∧
      ((table plain once).compactFlag = false →
        ∀ row ∈ (table plain once).headers :: (table plain once).lines,
          (cells (table plain once) row).map String.utf8ByteSize =
            (table plain once).charCounts.map (· + 1)) :=
  report_table plain wildcards [.setColumns [], .accumulate twoStages] once _ _ (by decide)
    run_once report_once

end

/-! ### Reports in between -/

omit [FloorRing K] in
theorem complete_record (r : ReporterState K) (e : Event) :
    completeCalculatorData ((completeCalculatorData r).record e) =
      completeCalculatorData (r.record e) := by
  have hdata : (completeCalculatorData ((completeCalculatorData r).record e)).calculatorData =
      (completeCalculatorData (r.record e)).calculatorData := by
    refine OrderedMap.ext_find? fun name => ?_
    simp only [completeCalculatorData, ReporterState.record, ReporterState.set,
      OrderedMap.find?_mapValues, OrderedMap.find?_assign]
    split_ifs
    · cases r.calculatorData.find? e.name <;> rfl
    · cases r.calculatorData.find? name <;> rfl
  exact ReporterState.ext rfl rfl hdata rfl

omit [FloorRing K] in
theorem complete_complete (r : ReporterState K) :
    completeCalculatorData (completeCalculatorData r) = completeCalculatorData r := by
  refine ReporterState.ext rfl rfl (OrderedMap.ext_find? fun name => ?_) rfl
  simp only [completeCalculatorData, OrderedMap.find?_mapValues]
  cases r.calculatorData.find? name <;> rfl

omit [FloorRing K] in
theorem complete_foldl_record (h : completeCalculatorData r = completeCalculatorData r')
    (es : List Event) :
    completeCalculatorData (es.foldl ReporterState.record r) =
      completeCalculatorData (es.foldl ReporterState.record r') := by
  induction es generalizing r r' with
  | nil => exact h
  | cons e es ih => exact ih (by rw [← complete_record, h, complete_record])

theorem complete_setColumns (r : ReporterState K) (matchers : List String) :
    completeCalculatorData (setColumns f re r matchers).1 =
      (setColumns f re (completeCalculatorData r) matchers).1 := by
  rw [setColumns, setColumns]
  split_ifs <;> rfl

/-- A call between reports changes equal reporters equally. -/
theorem complete_call {call : Call} (h : completeCalculatorData r = completeCalculatorData r')
    {after : ReporterState K} (hcall : r.call f re call = some after) :
    (call.isReport → completeCalculatorData after = completeCalculatorData r') ∧
      (¬call.isReport → ∃ after', r'.call f re call = some after' ∧
        completeCalculatorData after = completeCalculatorData after') := by
  cases call with
  | accumulate profile =>
    have hrun : accumulate r profile = some after := hcall
    rw [accumulate_eq] at hrun
    cases hrun
    exact ⟨fun hreport => absurd hreport Bool.false_ne_true, fun _ => ⟨_, accumulate_eq profile r',
      complete_foldl_record h profile.events⟩⟩
  | setColumns matchers =>
    cases hcall
    refine ⟨fun hreport => absurd hreport Bool.false_ne_true, fun _ => ⟨_, rfl, ?_⟩⟩
    rw [complete_setColumns, h, complete_setColumns]
  | setCompact value =>
    cases hcall
    refine ⟨fun hreport => absurd hreport Bool.false_ne_true, fun _ => ⟨_, rfl, ?_⟩⟩
    exact congrArg (fun r : ReporterState K => { r with compactFlag := value }) h
  | report =>
    obtain ⟨⟨table, after⟩, hreport, rfl⟩ := Option.map_eq_some_iff.mp hcall
    refine ⟨fun _ => ?_, fun hne => absurd rfl hne⟩
    rw [eq_complete_of_report hreport, complete_complete, h]

theorem complete_run {calls : List Call} (h : completeCalculatorData r = completeCalculatorData r')
    {after : ReporterState K} (hrun : calls.foldlM (ReporterState.call f re) r = some after) :
    ∃ after', (calls.filter fun c => ¬c.isReport).foldlM (ReporterState.call f re) r' =
        some after' ∧ completeCalculatorData after = completeCalculatorData after' := by
  induction calls generalizing r r' with
  | nil =>
    cases hrun
    exact ⟨r', rfl, h⟩
  | cons call calls ih =>
    rw [List.foldlM_cons] at hrun
    obtain ⟨between, hcall, hrest⟩ := Option.bind_eq_some_iff.mp hrun
    obtain ⟨hreport, hother⟩ := complete_call h hcall
    rw [List.filter_cons]
    by_cases hcase : call.isReport
    · rw [if_neg (by simpa using hcase)]
      exact ih (hreport hcase) hrest
    · obtain ⟨between', hcall', hbetween⟩ := hother hcase
      rw [if_pos (by simpa using hcase), List.foldlM_cons, hcall']
      exact ih hbetween hrest

/-- **Reports in between do not change the next one.** -/
theorem report_reports (f : Format K) (re : Regex) (calls : List Call) (r : ReporterState K)
    (hrun : calls.foldlM (ReporterState.call f re) (.init f re) = some r) :
    ∃ r', (calls.filter fun c => ¬c.isReport).foldlM (ReporterState.call f re) (.init f re) =
      some r' ∧ report f r' = report f r := by
  obtain ⟨r', hrun', hsame⟩ := complete_run rfl hrun
  exact ⟨r', hrun', by rw [report, report, hsame]⟩

/-- The same profile again, after a report. -/
theorem report_reports_again :
    ∃ r', [Call.setColumns [], .accumulate twoStages, .accumulate twoStages].foldlM
        (ReporterState.call plain wildcards) (.init plain wildcards) = some r' ∧
      report plain r' = report plain
        (twoStages.events.foldl ReporterState.record (completeCalculatorData once)) := by
  have hrun : [Call.setColumns [], .accumulate twoStages, .report, .accumulate twoStages].foldlM
      (ReporterState.call plain wildcards) (.init plain wildcards) =
        some (twoStages.events.foldl ReporterState.record (completeCalculatorData once)) := by
    show accumulate (setColumns plain wildcards (.init plain wildcards) []).1 twoStages >>=
      (fun r => (report plain r).map Prod.snd >>= fun r => accumulate r twoStages >>= some) = _
    rw [accumulate_eq]
    show (report plain once).map Prod.snd >>= (fun r => accumulate r twoStages >>= some) = _
    rw [report_once]
    show accumulate (completeCalculatorData once) twoStages >>= some = _
    rw [accumulate_eq]
    rfl
  exact report_reports plain wildcards
    [.setColumns [], .accumulate twoStages, .report, .accumulate twoStages] _ hrun

end Reporter

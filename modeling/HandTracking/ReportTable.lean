/-
`Reporter::Report` and `Print`: the table of the report.

The columns are named by matchers with wildcards; the first column is always the name of the
calculator.  The table is filled column by column, while each column grows to its longest text, and
it is printed with every text padded to its column.

* `kColumns` — the texts of the columns, `none` for an access out of range;
* `setColumns`, `report`, `print` — the code;
* `ColumnsOk`, `setColumns_spec` — the columns that a reporter can have;
* `report_eq` — the table is the one that would be written row by row;
* `isSome_report`, `isSome_columnText` — where the report reads out of range;
* `print_table`, `size_cells` — the printed columns are aligned.
-/
import HandTracking.Library.Table
import HandTracking.Percentile
import HandTracking.ReporterTotals

namespace Reporter

variable {K : Type} [Field K] [LinearOrder K] [FloorRing K]

/-! ### The columns -/

/-- The functions that texts are made with. -/
structure Format (K : Type) where
  toStringF : K → String
  toString : K → String
  sqrt : K → K

/-- The standard deviation. -/
def Statistic.stddev (f : Format K) (s : Statistic K) : K := f.sqrt s.variance

/-- The columns in the order of the source, with the text of a calculator in each. -/
def columnList (f : Format K) : List (String × (CalculatorData K → Option String)) :=
  [("calculator", fun d => some d.name),
    ("counter", fun d => some (f.toString d.counter)),
    ("completed", fun d => some (f.toString d.completed)),
    ("dropped", fun d => some (f.toString d.dropped)),
    ("fps", fun d => some (f.toStringF d.fps)),
    ("frequency", fun d => some (f.toStringF d.frequency)),
    ("processing_rate", fun d => some (f.toStringF d.processingRate)),
    ("thread_count", fun d => some (f.toStringF d.threadCount)),
    ("time_mean", fun d => some (f.toStringF d.timeStat.getMean)),
    ("time_stddev", fun d => some (f.toStringF (d.timeStat.stddev f))),
    ("time_max", fun d => some (f.toStringF d.timeStat.getMax)),
    ("time_95", fun d => d.timeStat.percentile95.map f.toStringF),
    ("time_total", fun d => some (f.toString d.timeStat.total)),
    ("time_percent", fun d => some (f.toStringF d.timePercent)),
    ("input_latency_mean", fun d => some (f.toStringF d.inputLatencyStat.getMean)),
    ("input_latency_stddev", fun d => some (f.toStringF (d.inputLatencyStat.stddev f))),
    ("input_latency_max", fun d => some (f.toStringF d.inputLatencyStat.getMax)),
    ("input_latency_95", fun d => d.inputLatencyStat.percentile95.map f.toStringF),
    ("input_latency_total", fun d => some (f.toString d.inputLatencyStat.total))]

/-- `kColumns`: the columns by their names. -/
def kColumns (f : Format K) : OrderedMap String (CalculatorData K → Option String) :=
  .ofList (columnList f)

/-- `kColumns[header](data)`; a header that is not there has an empty function. -/
def columnText (f : Format K) (header : String) (d : CalculatorData K) : Option String :=
  ((kColumns f).find? header).bind fun text => text d

/-- The regular expressions: whether a matcher is valid, and whether a name matches. -/
structure Regex where
  validColumn : String → Bool
  fullMatch : String → String → Bool

/-- `GlobalReplace` of a single character. -/
def globalReplace (s : String) (c : Char) (rewrite : String) : String :=
  String.join (s.toList.map fun x => if x = c then rewrite else x.toString)

/-- A name that matches: the new columns, and that one matched. -/
def matchColumn (re : Regex) (colString : String) (acc : List String × Bool) (column : String) :
    List String × Bool :=
  if re.fullMatch column colString then
    (if column ∈ acc.1 then acc.1 else acc.1 ++ [column], true)
  else acc

/-- The columns that a matcher appends, and whether there is one. -/
def matchColumns (f : Format K) (re : Regex) (colString : String) (newColumns : List String) :
    List String × Bool :=
  (kColumns f).keys.foldl (matchColumn re colString) (newColumns, false)

/-- One matcher: the columns so far, the warnings and whether there was an error. -/
def addMatcher (f : Format K) (re : Regex) (acc : List String × String × Bool)
    (columnMatcher : String) : List String × String × Bool :=
  if re.validColumn columnMatcher then
    let colString := globalReplace (globalReplace columnMatcher '*' ".*") '?' "."
    let matched := matchColumns f re colString acc.1
    if matched.2 then (matched.1, acc.2)
    else
      (matched.1, acc.2.1 ++ "Column '" ++ columnMatcher ++ "' did not match any columns.\n", true)
  else (acc.1, acc.2.1 ++ "Column '" ++ columnMatcher ++ "' is invalid.\n", true)

/-- The reporter, and the message of an `InvalidArgumentError`. -/
def setColumns (f : Format K) (re : Regex) (r : ReporterState K) (columns : List String) :
    ReporterState K × Except String Unit :=
  let acc := columns.foldl (addMatcher f re) (["calculator"], "", false)
  let r := if acc.1.isEmpty then r else { r with columns := acc.1 }
  (r, if acc.2.2 then .error acc.2.1 else .ok ())

/-! ### The report -/

/-- `ReportImpl`: the cells, the widths of the columns and how they are printed. -/
structure ReportImpl where
  headers : List String
  lines : List (List String)
  charCounts : List ℕ
  compactFlag : Bool

/-- The end of the loop over the calculators: the value goes to the end of its line. -/
def pushValue (table : List (List String) × List ℕ) (lineNum : ℕ) (value : String) :
    List (List String) × List ℕ :=
  let lines := table.1 ++ List.replicate (lineNum + 1 - table.1.length) []
  let line := lines.getD lineNum [] ++ [value]
  let charCountIndex := line.length - 1
  (lines.set lineNum line,
    table.2.set charCountIndex (max (table.2.getD charCountIndex 0) value.utf8ByteSize))

/-- The loop over the calculators. -/
def reportColumn (text : CalculatorData K → Option String) :
    List (CalculatorData K) → ℕ → List (List String) × List ℕ →
      Option (List (List String) × List ℕ)
  | [], _, table => some table
  | d :: rest, lineNum, table =>
    match text d with
    | none => none
    | some value =>
      if d.name.isEmpty then reportColumn text rest lineNum table
      else reportColumn text rest (lineNum + 1) (pushValue table lineNum value)

/-- `Report` completes the data of the reporter, too. -/
def report (f : Format K) (r : ReporterState K) : Option (ReportImpl × ReporterState K) :=
  let r := completeCalculatorData r
  let headers := r.columns
  let data := r.calculatorData.entries.map Prod.snd
  match headers.foldlM (fun table header => reportColumn (columnText f header) data 0 table)
      ([], headers.map String.utf8ByteSize) with
  | none => none
  | some (lines, charCounts) => some (⟨headers, lines, charCounts, r.compactFlag⟩, r)

/-- A row in the columns; no padding can be negative. -/
def printRow (compactFlag : Bool) : List ℕ → List String → Option String
  | _, [] => some ""
  | [], _ :: _ => none
  | charCount :: charCounts, column :: row =>
    let paddingNeeded : ℤ := if compactFlag then 1 else charCount + 1 - column.utf8ByteSize
    if paddingNeeded < 0 then none
    else (printRow compactFlag charCounts row).map (column.pushn ' ' paddingNeeded.toNat ++ ·)

/-- The lines that are printed. -/
def print (report : ReportImpl) : Option (List String) :=
  (report.headers :: report.lines).mapM (printRow report.compactFlag report.charCounts)

/-! ### The columns that are chosen -/

variable {f : Format K} {re : Regex} {r : ReporterState K}

/-- A matcher as a regular expression: `*` is any text and `?` any character. -/
def pattern (columnMatcher : String) : String :=
  globalReplace (globalReplace columnMatcher '*' ".*") '?' "."

/-- A matcher asks for a column. -/
def Asks (f : Format K) (re : Regex) (columnMatcher column : String) : Prop :=
  re.validColumn columnMatcher ∧ column ∈ (kColumns f).keys ∧
    re.fullMatch column (pattern columnMatcher)

/-- The first column stays the first, none is there twice, and all can be looked up. -/
structure ColumnsOk (f : Format K) (columns : List String) : Prop where
  first : columns.head? = some "calculator"
  nodup : columns.Nodup
  mem : ∀ column ∈ columns, column ∈ (kColumns f).keys

theorem mem_keys_calculator (f : Format K) : "calculator" ∈ (kColumns f).keys := by
  refine OrderedMap.mem_keys.mpr ⟨fun d => some d.name, ?_⟩
  rw [kColumns, OrderedMap.find?_ofList, columnList, List.find?_cons, decide_eq_true rfl]
  rfl

theorem columnsOk_calculator (f : Format K) : ColumnsOk f ["calculator"] where
  first := rfl
  nodup := List.nodup_singleton _
  mem column hcolumn := by
    rw [List.mem_singleton.mp hcolumn]
    exact mem_keys_calculator f

theorem ColumnsOk.ne_nil {columns : List String} (h : ColumnsOk f columns) : columns ≠ [] := by
  rintro rfl
  cases h.first

theorem ColumnsOk.concat {columns : List String} {column : String} (h : ColumnsOk f columns)
    (hkey : column ∈ (kColumns f).keys) (hnew : column ∉ columns) :
    ColumnsOk f (columns ++ [column]) where
  first := by rw [List.head?_append, h.first, Option.some_or]
  nodup := List.nodup_append.mpr ⟨h.nodup, List.nodup_singleton _, fun a ha b hb hab =>
    hnew (by rwa [← List.mem_singleton.mp hb, ← hab])⟩
  mem c hc := by
    obtain hc | hc := List.mem_append.mp hc
    · exact h.mem c hc
    · rwa [List.mem_singleton.mp hc]

theorem matchColumn_spec (re : Regex) (colString : String) {key : String}
    (hkey : key ∈ (kColumns f).keys) {acc : List String × Bool} (h : ColumnsOk f acc.1) :
    ColumnsOk f (matchColumn re colString acc key).1 ∧
      (∀ column, column ∈ (matchColumn re colString acc key).1 ↔
        column ∈ acc.1 ∨ column = key ∧ re.fullMatch column colString) ∧
      ((matchColumn re colString acc key).2 = true ↔
        acc.2 = true ∨ re.fullMatch key colString) := by
  rw [matchColumn]
  by_cases hmatch : re.fullMatch key colString
  · rw [if_pos hmatch]
    refine ⟨?_, fun column => ?_, by simp [hmatch]⟩
    · split_ifs with hmem
      · exact h
      · exact h.concat hkey hmem
    · have hcolumn : column = key ∧ re.fullMatch column colString ↔ column = key :=
        and_iff_left_of_imp fun hc => by rwa [hc]
      rw [hcolumn]
      split_ifs with hmem
      · exact (or_iff_left_of_imp fun hc => by rwa [hc]).symm
      · rw [List.mem_append, List.mem_singleton]
  · rw [if_neg hmatch]
    refine ⟨h, fun column => (or_iff_left ?_).symm, (or_iff_left hmatch).symm⟩
    rintro ⟨rfl, hfull⟩
    exact hmatch hfull

theorem foldl_matchColumn (re : Regex) (colString : String) (keys : List String)
    (hkeys : ∀ column ∈ keys, column ∈ (kColumns f).keys) (acc : List String × Bool)
    (h : ColumnsOk f acc.1) :
    ColumnsOk f (keys.foldl (matchColumn re colString) acc).1 ∧
      (∀ column, column ∈ (keys.foldl (matchColumn re colString) acc).1 ↔
        column ∈ acc.1 ∨ column ∈ keys ∧ re.fullMatch column colString) ∧
      ((keys.foldl (matchColumn re colString) acc).2 = true ↔
        acc.2 = true ∨ ∃ column ∈ keys, re.fullMatch column colString) := by
  induction keys generalizing acc with
  | nil => exact ⟨h, by simp, by simp⟩
  | cons key keys ih =>
    obtain ⟨hone, hcolumn, hflag⟩ :=
      matchColumn_spec re colString (hkeys key List.mem_cons_self) h
    obtain ⟨hok, hcolumns, hmatched⟩ := ih (fun c hc => hkeys c (List.mem_cons_of_mem key hc))
      (matchColumn re colString acc key) hone
    rw [List.foldl_cons]
    refine ⟨hok, fun column => ?_, ?_⟩
    · rw [hcolumns, hcolumn, List.mem_cons, or_assoc, ← or_and_right]
    · rw [hmatched, hflag, List.exists_mem_cons_iff, or_assoc]

/-- One matcher adds the columns that it asks for, and there is an error if there are none. -/
theorem addMatcher_spec (re : Regex) (columnMatcher : String) {acc : List String × String × Bool}
    (h : ColumnsOk f acc.1) :
    ColumnsOk f (addMatcher f re acc columnMatcher).1 ∧
      (∀ column, column ∈ (addMatcher f re acc columnMatcher).1 ↔
        column ∈ acc.1 ∨ Asks f re columnMatcher column) ∧
      ((addMatcher f re acc columnMatcher).2.2 = false ↔
        acc.2.2 = false ∧ ∃ column, Asks f re columnMatcher column) := by
  obtain ⟨hok, hcolumns, hmatched⟩ := foldl_matchColumn re (pattern columnMatcher)
    (kColumns f).keys (fun _ hc => hc) (acc.1, false) h
  have hmatch : matchColumns f re (pattern columnMatcher) acc.1 =
    (kColumns f).keys.foldl (matchColumn re (pattern columnMatcher)) (acc.1, false) := rfl
  rw [← hmatch] at hok hcolumns hmatched
  rw [addMatcher]
  unfold Asks
  dsimp only
  rw [← pattern]
  generalize matchColumns f re (pattern columnMatcher) acc.1 = matched at hok hcolumns hmatched ⊢
  generalize (kColumns f).keys = keys at hcolumns hmatched ⊢
  by_cases hvalid : re.validColumn columnMatcher
  · rw [if_pos hvalid]
    split_ifs with hsome
    · refine ⟨hok, fun column => ?_, ?_⟩
      · rw [hcolumns, and_iff_right hvalid]
      · obtain ⟨column, hkey, hfull⟩ := (hmatched.mp hsome).resolve_left (by simp)
        exact (and_iff_left ⟨column, hvalid, hkey, hfull⟩).symm
    · refine ⟨hok, fun column => ?_, ?_⟩
      · rw [hcolumns, and_iff_right hvalid]
      · refine iff_of_false (by simp) ?_
        rintro ⟨-, column, -, hkey, hfull⟩
        exact hsome (hmatched.mpr (Or.inr ⟨column, hkey, hfull⟩))
  · rw [if_neg hvalid]
    refine ⟨h, fun column => (or_iff_left fun hc => hvalid hc.1).symm, iff_of_false (by simp) ?_⟩
    rintro ⟨-, column, hc, -⟩
    exact hvalid hc

theorem foldl_addMatcher (re : Regex) (matchers : List String) (acc : List String × String × Bool)
    (h : ColumnsOk f acc.1) :
    ColumnsOk f (matchers.foldl (addMatcher f re) acc).1 ∧
      (∀ column, column ∈ (matchers.foldl (addMatcher f re) acc).1 ↔
        column ∈ acc.1 ∨ ∃ m ∈ matchers, Asks f re m column) ∧
      ((matchers.foldl (addMatcher f re) acc).2.2 = false ↔
        acc.2.2 = false ∧ ∀ m ∈ matchers, ∃ column, Asks f re m column) := by
  induction matchers generalizing acc with
  | nil => exact ⟨h, by simp, by simp⟩
  | cons m matchers ih =>
    obtain ⟨hone, hcolumn, hflag⟩ := addMatcher_spec re m h
    obtain ⟨hok, hcolumns, herror⟩ := ih (addMatcher f re acc m) hone
    rw [List.foldl_cons]
    refine ⟨hok, fun column => ?_, ?_⟩
    · rw [hcolumns, hcolumn, List.exists_mem_cons_iff, or_assoc]
    · rw [herror, hflag, List.forall_mem_cons, and_assoc]

theorem columns_setColumns (f : Format K) (re : Regex) (r : ReporterState K)
    (matchers : List String) :
    (setColumns f re r matchers).1.columns =
      (matchers.foldl (addMatcher f re) (["calculator"], "", false)).1 := by
  have hok := (foldl_addMatcher re matchers (["calculator"], "", false)
    (columnsOk_calculator f)).1
  have hne : ¬(matchers.foldl (addMatcher f re) (["calculator"], "", false)).1.isEmpty := by
    rw [List.isEmpty_iff]
    exact hok.ne_nil
  rw [setColumns]
  dsimp only
  rw [if_neg hne]

theorem columnsOk_setColumns (f : Format K) (re : Regex) (r : ReporterState K)
    (matchers : List String) : ColumnsOk f (setColumns f re r matchers).1.columns := by
  rw [columns_setColumns]
  exact (foldl_addMatcher re matchers _ (columnsOk_calculator f)).1

/-! ### The message -/

/-- What `set_columns` says of a matcher. -/
def warning (f : Format K) (re : Regex) (columnMatcher : String) : String :=
  if re.validColumn columnMatcher then
    if (kColumns f).keys.any fun column => re.fullMatch column (pattern columnMatcher) then ""
    else "Column '" ++ columnMatcher ++ "' did not match any columns.\n"
  else "Column '" ++ columnMatcher ++ "' is invalid.\n"

theorem message_addMatcher (re : Regex) (columnMatcher : String)
    {acc : List String × String × Bool} (h : ColumnsOk f acc.1) :
    (addMatcher f re acc columnMatcher).2.1 = acc.2.1 ++ warning f re columnMatcher := by
  have hmatched := (foldl_matchColumn re (pattern columnMatcher) (kColumns f).keys
    (fun _ hc => hc) (acc.1, false) h).2.2
  have hsome : (matchColumns f re (pattern columnMatcher) acc.1).2 =
      (kColumns f).keys.any fun column => re.fullMatch column (pattern columnMatcher) := by
    rw [Bool.eq_iff_iff, List.any_eq_true]
    exact hmatched.trans (or_iff_right Bool.false_ne_true)
  unfold addMatcher warning
  dsimp only
  rw [← pattern, hsome]
  split_ifs
  · rw [String.append_empty]
  · simp only [String.append_assoc]
  · simp only [String.append_assoc]

theorem message_foldl (re : Regex) (matchers : List String) (acc : List String × String × Bool)
    (h : ColumnsOk f acc.1) :
    (matchers.foldl (addMatcher f re) acc).2.1 =
      acc.2.1 ++ (matchers.map (warning f re)).foldr (· ++ ·) "" := by
  induction matchers generalizing acc with
  | nil => exact String.append_empty.symm
  | cons m matchers ih =>
    rw [List.foldl_cons, ih _ (addMatcher_spec re m h).1, message_addMatcher re m h,
      String.append_assoc]
    rfl

/-- **The columns after `set_columns`**: `calculator` first, and all that a valid matcher asks for,
each once, also when another matcher is an error.  The error names the matchers without columns. -/
theorem setColumns_spec (f : Format K) (re : Regex) (r : ReporterState K)
    (matchers : List String) :
    ColumnsOk f (setColumns f re r matchers).1.columns ∧
      (∀ column, column ∈ (setColumns f re r matchers).1.columns ↔
        column = "calculator" ∨ ∃ m ∈ matchers, Asks f re m column) ∧
      ((setColumns f re r matchers).2 = .ok () ↔
        ∀ m ∈ matchers, ∃ column, Asks f re m column) ∧
      ∀ message, (setColumns f re r matchers).2 = .error message →
        message = (matchers.map (warning f re)).foldr (· ++ ·) "" := by
  obtain ⟨-, hcolumns, herror⟩ := foldl_addMatcher re matchers
    (["calculator"], "", false) (columnsOk_calculator f)
  refine ⟨columnsOk_setColumns f re r matchers, fun column => ?_, ?_, fun message hmessage => ?_⟩
  · rw [columns_setColumns, hcolumns, List.mem_singleton]
  · rw [and_iff_right rfl] at herror
    rw [← herror, setColumns]
    cases (matchers.foldl (addMatcher f re) (["calculator"], "", false)).2.2 <;> simp
  · have hjoined := message_foldl re matchers (["calculator"], "", false) (columnsOk_calculator f)
    rw [setColumns] at hmessage
    dsimp only at hmessage
    split_ifs at hmessage
    cases hmessage
    rw [hjoined, String.empty_append]

/-! ### The table -/

/-- The calculators that get a line. -/
def named (data : List (CalculatorData K)) : List (CalculatorData K) :=
  data.filter fun d => ¬d.name.isEmpty

/-- The text of a calculator in a column. -/
def cell (f : Format K) (header : String) (d : CalculatorData K) : String :=
  (columnText f header d).getD ""

theorem pushValue_nil (done : List (List String)) (counts : List ℕ) (value : String) :
    pushValue (done, counts) done.length value =
      (done ++ [[value]], counts.set 0 (max (counts.getD 0 0) value.utf8ByteSize)) := by
  simp [pushValue]

theorem pushValue_cons (done rows : List (List String)) (row : List String) (counts : List ℕ)
    (value : String) :
    pushValue (done ++ row :: rows, counts) done.length value =
      (done ++ (row ++ [value]) :: rows,
        counts.set row.length (max (counts.getD row.length 0) value.utf8ByteSize)) := by
  simp [pushValue]

theorem getD_set_self {counts : List ℕ} {j : ℕ} (hj : j < counts.length) (n : ℕ) :
    (counts.set j n).getD j 0 = n := by
  rw [List.getD_eq_getElem?_getD, List.getElem?_set_self hj, Option.getD_some]

theorem set_getD_self {counts : List ℕ} {j : ℕ} (hj : j < counts.length) :
    counts.set j (counts.getD j 0) = counts := by
  rw [List.getD_eq_getElem?_getD, List.getElem?_eq_getElem hj, Option.getD_some,
    List.set_getElem_self]

omit [Field K] [LinearOrder K] [FloorRing K] in
/-- The loop over the calculators adds a column. -/
theorem reportColumn_eq {text : CalculatorData K → Option String}
    {value : CalculatorData K → String} {data : List (CalculatorData K)}
    (htext : ∀ d ∈ data, text d = some (value d)) (done rows : List (List String))
    (counts : List ℕ) {j : ℕ} (hj : j < counts.length)
    (hrows : ∀ row ∈ rows, row.length = j) (hmissing : rows.length < (named data).length → j = 0) :
    reportColumn text data done.length (done ++ rows, counts) =
      some (done ++ Table.addColumn rows ((named data).map value), counts.set j
        (Table.widest String.utf8ByteSize (counts.getD j 0) ((named data).map value))) := by
  induction data generalizing done rows counts with
  | nil =>
    rw [named, List.filter_nil, List.map_nil, Table.widest, List.foldl_nil, set_getD_self hj,
      Table.addColumn]
    rfl
  | cons d data ih =>
    have hrest := fun d' hd' => htext d' (List.mem_cons_of_mem d hd')
    rw [reportColumn, htext d List.mem_cons_self]
    dsimp only
    split_ifs with hempty
    · have hnamed : named (d :: data) = named data :=
        List.filter_cons_of_neg (by simpa using hempty)
      rw [hnamed] at hmissing ⊢
      exact ih hrest done rows counts hj hrows hmissing
    · have hnamed : named (d :: data) = d :: named data :=
        List.filter_cons_of_pos (by simpa using hempty)
      rw [hnamed] at hmissing ⊢
      rw [List.length_cons] at hmissing
      rw [List.map_cons, Table.widest, List.foldl_cons, ← Table.widest]
      cases rows with
      | nil =>
        obtain rfl := hmissing (by simp)
        have hdone := ih hrest (done ++ [[value d]]) []
          (counts.set 0 (max (counts.getD 0 0) (value d).utf8ByteSize)) (by rwa [List.length_set])
          (by simp) (fun _ => rfl)
        rw [List.append_nil, List.length_append, List.length_singleton, getD_set_self hj,
          List.set_set, List.append_assoc] at hdone
        rw [List.append_nil, pushValue_nil, hdone, Table.addColumn]
        rfl
      | cons row rows =>
        have hlen := hrows row List.mem_cons_self
        have hdone := ih hrest (done ++ [row ++ [value d]]) rows
          (counts.set j (max (counts.getD j 0) (value d).utf8ByteSize)) (by rwa [List.length_set])
          (fun row' hrow' => hrows row' (List.mem_cons_of_mem row hrow'))
          (fun hlt => hmissing (by rw [List.length_cons]; omega))
        rw [List.length_append, List.length_singleton, getD_set_self hj, List.set_set,
          List.append_assoc, List.append_assoc] at hdone
        rw [pushValue_cons, hlen, Table.addColumn]
        exact hdone

/-- The width of a column. -/
def width (f : Format K) (data : List (CalculatorData K)) (header : String) : ℕ :=
  Table.widest String.utf8ByteSize header.utf8ByteSize ((named data).map (cell f header))

theorem foldlM_reportColumn {data : List (CalculatorData K)} (done headers : List String)
    (htexts : ∀ header ∈ headers, ∀ d ∈ data, (columnText f header d).isSome) :
    headers.foldlM (fun table header => reportColumn (columnText f header) data 0 table)
        (Table.rowsOf (named data) done (cell f),
          done.map (width f data) ++ headers.map String.utf8ByteSize) =
      some (Table.rowsOf (named data) (done ++ headers) (cell f),
        (done ++ headers).map (width f data)) := by
  induction headers generalizing done with
  | nil => rw [List.map_nil, List.append_nil, List.append_nil]; rfl
  | cons header headers ih =>
    have htext : ∀ d ∈ data, columnText f header d = some (cell f header d) := fun d hd => by
      obtain ⟨v, hv⟩ := Option.isSome_iff_exists.mp (htexts header List.mem_cons_self d hd)
      rw [cell, hv, Option.getD_some]
    have hcolumn := reportColumn_eq htext [] (Table.rowsOf (named data) done (cell f))
      (done.map (width f data) ++ (header :: headers).map String.utf8ByteSize) (j := done.length)
      (by simp) (fun row hrow => Table.length_of_mem_rowsOf hrow)
      (fun hlt => by rw [Table.eq_nil_of_length_rowsOf_lt hlt]; rfl)
    have hcounts : (done.map (width f data) ++ (header :: headers).map String.utf8ByteSize).set
        done.length (Table.widest String.utf8ByteSize
          ((done.map (width f data) ++ (header :: headers).map String.utf8ByteSize).getD done.length
            0) ((named data).map (cell f header))) =
        (done ++ [header]).map (width f data) ++ headers.map String.utf8ByteSize := by
      simp [List.getD_eq_getElem?_getD, width]
    rw [List.foldlM_cons]
    rw [List.length_nil, List.nil_append, List.nil_append, Table.addColumn_rowsOf, hcounts]
      at hcolumn
    rw [hcolumn]
    have hrest := ih (done ++ [header]) fun h hh => htexts h (List.mem_cons_of_mem header hh)
    rw [List.append_assoc, List.singleton_append] at hrest
    exact hrest

/-- The values of all calculators, as `Report` sees them. -/
def reportData (r : ReporterState K) : List (CalculatorData K) :=
  (completeCalculatorData r).calculatorData.entries.map Prod.snd

/-- Row by row. -/
def table (f : Format K) (r : ReporterState K) : ReportImpl where
  headers := r.columns
  lines := (named (reportData r)).map fun d => r.columns.map fun header => cell f header d
  charCounts := r.columns.map (width f (reportData r))
  compactFlag := r.compactFlag

theorem report_eq (hcolumns : r.columns ≠ [])
    (htexts : ∀ header ∈ r.columns, ∀ d ∈ reportData r, (columnText f header d).isSome) :
    report f r = some (table f r, completeCalculatorData r) := by
  have hfold := foldlM_reportColumn (f := f) [] r.columns htexts
  rw [List.nil_append, Table.rowsOf_of_ne_nil _ hcolumns, List.map_nil, List.nil_append] at hfold
  have hstart : Table.rowsOf (named (reportData r)) [] (cell f) = [] := if_pos rfl
  rw [hstart] at hfold
  rw [report]
  have hsame : (completeCalculatorData r).columns = r.columns := rfl
  rw [hsame, ← reportData, hfold]
  rfl

/-! ### Where it reads out of range -/

omit [Field K] [LinearOrder K] [FloorRing K] in
theorem isSome_reportColumn {text : CalculatorData K → Option String}
    (data : List (CalculatorData K)) (lineNum : ℕ) (table : List (List String) × List ℕ) :
    (reportColumn text data lineNum table).isSome ↔ ∀ d ∈ data, (text d).isSome := by
  induction data generalizing lineNum table with
  | nil => simp [reportColumn]
  | cons d data ih =>
    rw [reportColumn, List.forall_mem_cons]
    cases htext : text d with
    | none => simp
    | some value =>
      dsimp only
      split_ifs <;> simp [ih]

theorem isSome_report (f : Format K) (r : ReporterState K) :
    (report f r).isSome ↔
      ∀ header ∈ r.columns, ∀ d ∈ reportData r, (columnText f header d).isSome := by
  have hfold : ∀ (headers : List String) (table : List (List String) × List ℕ),
      (headers.foldlM (fun table header =>
        reportColumn (columnText f header) (reportData r) 0 table) table).isSome ↔
      ∀ header ∈ headers, ∀ d ∈ reportData r, (columnText f header d).isSome := by
    intro headers
    induction headers with
    | nil => simp
    | cons header headers ih =>
      intro table
      rw [List.foldlM_cons, List.forall_mem_cons, ← isSome_reportColumn (reportData r) 0 table]
      cases hcolumn : reportColumn (columnText f header) (reportData r) 0 table with
      | none => simp
      | some next => simpa using ih next
  have hsame : (completeCalculatorData r).columns = r.columns := rfl
  rw [report, ← hfold r.columns ([], r.columns.map String.utf8ByteSize), ← reportData, hsame]
  generalize r.columns.foldlM (fun table header =>
    reportColumn (columnText f header) (reportData r) 0 table)
      ([], r.columns.map String.utf8ByteSize) = result
  cases result <;> simp

section

variable [IsStrictOrderedRing K]

theorem calculate95thPercentile_isSome (data : List K) :
    (calculate95thPercentile data).isSome ↔ data.length ≠ 1 := by
  match data with
  | [] => simp [calculate95thPercentile]
  | [x] => simp [calculate95thPercentile_singleton]
  | x :: y :: data =>
    have hsafe : SafeAndMonotone (x :: y :: data) := safeAndMonotone_of_two (by simp)
    obtain ⟨r, hr, -⟩ := hsafe
    simp [hr]

/-- Only a percentile of a single value has no text. -/
theorem isSome_columnText {header : String} (hheader : header ∈ (kColumns f).keys)
    (d : CalculatorData K) :
    (columnText f header d).isSome ↔
      (header = "time_95" → d.timeStat.data.length ≠ 1) ∧
        (header = "input_latency_95" → d.inputLatencyStat.data.length ≠ 1) := by
  obtain ⟨text, htext⟩ := OrderedMap.mem_keys.mp hheader
  have hall : ∀ e ∈ columnList f, (e.2 d).isSome ↔
      (e.1 = "time_95" → d.timeStat.data.length ≠ 1) ∧
        (e.1 = "input_latency_95" → d.inputLatencyStat.data.length ≠ 1) := by
    simp [columnList, Statistic.percentile95, calculate95thPercentile_isSome]
  rw [columnText, htext]
  rw [kColumns, OrderedMap.find?_ofList, Option.map_eq_some_iff] at htext
  obtain ⟨e, he, rfl⟩ := htext
  have hname := List.find?_some
    (p := fun e : String × (CalculatorData K → Option String) => e.1 = header) he
  have hcase := hall e (List.mem_of_find?_eq_some he)
  rwa [of_decide_eq_true hname] at hcase

end

/-! ### The printed table -/

/-- The texts of a row with their padding. -/
def cells (report : ReportImpl) (row : List String) : List String :=
  List.zipWith (fun charCount column =>
    column.pushn ' ' (if report.compactFlag then 1 else charCount - column.utf8ByteSize + 1))
    report.charCounts row

theorem utf8ByteSize_pushn (s : String) (n : ℕ) :
    (s.pushn ' ' n).utf8ByteSize = s.utf8ByteSize + n := by
  induction n with
  | zero => rfl
  | succ n ih =>
    have hpush : s.pushn ' ' (n + 1) = (s.pushn ' ' n).push ' ' := rfl
    have hspace : ' '.utf8Size = 1 := rfl
    rw [hpush, String.utf8ByteSize_push, ih, hspace, Nat.add_assoc]

/-- The texts fit, and there is a column for each. -/
def Fits (charCounts : List ℕ) (row : List String) : Prop :=
  List.Forall₂ (fun charCount column => column.utf8ByteSize ≤ charCount) charCounts row

theorem printRow_eq {report : ReportImpl} {row : List String} (h : Fits report.charCounts row) :
    printRow report.compactFlag report.charCounts row =
      some ((cells report row).foldr (· ++ ·) "") := by
  obtain ⟨headers, lines, charCounts, compactFlag⟩ := report
  dsimp only at h ⊢
  rw [cells]
  dsimp only
  induction h with
  | nil => rfl
  | @cons charCount column charCounts row hfit _ ih =>
    rw [printRow, ih]
    have hpadding : (if compactFlag then (1 : ℤ) else charCount + 1 - column.utf8ByteSize) =
        ((if compactFlag then 1 else charCount - column.utf8ByteSize + 1 : ℕ) : ℤ) := by
      split_ifs <;> omega
    rw [hpadding, if_neg (by omega), Int.toNat_natCast]
    rfl

/-- Each column is as wide as its longest text, the header included. -/
theorem isGreatest_charCounts (f : Format K) (r : ReporterState K) :
    List.Forall₂ (fun header charCount =>
        IsGreatest {n | ∃ text ∈ header :: (named (reportData r)).map (cell f header),
          text.utf8ByteSize = n} charCount)
      (table f r).headers (table f r).charCounts :=
  List.forall₂_map_right_iff.mpr (List.forall₂_same.mpr fun header _ =>
    Table.isGreatest_widest String.utf8ByteSize header _)

theorem size_cells {report : ReportImpl} {row : List String} (h : Fits report.charCounts row)
    (hcompact : report.compactFlag = false) :
    (cells report row).map String.utf8ByteSize = report.charCounts.map (· + 1) := by
  obtain ⟨headers, lines, charCounts, compactFlag⟩ := report
  dsimp only at h hcompact ⊢
  rw [cells]
  dsimp only
  induction h with
  | nil => rfl
  | @cons charCount column charCounts row hfit _ ih =>
    rw [List.zipWith_cons_cons, List.map_cons, List.map_cons, ih, utf8ByteSize_pushn, hcompact]
    congr 1
    simp only [Bool.false_eq_true, if_false]
    omega

theorem fits_table (f : Format K) (r : ReporterState K) {row : List String}
    (hrow : row ∈ (table f r).headers :: (table f r).lines) : Fits (table f r).charCounts row := by
  rw [Fits, table]
  dsimp only
  rw [List.forall₂_map_left_iff]
  obtain rfl | hrow := List.mem_cons.mp hrow
  · exact List.forall₂_same.mpr fun header _ => Table.start_le_widest _ _ _
  · obtain ⟨d, hd, rfl⟩ := List.mem_map.mp hrow
    rw [List.forall₂_map_right_iff]
    exact List.forall₂_same.mpr fun header _ =>
      Table.le_widest _ _ (List.mem_map_of_mem hd)

/-- The printed columns are aligned. -/
theorem print_table (f : Format K) (r : ReporterState K) :
    print (table f r) = some (((table f r).headers :: (table f r).lines).map fun row =>
      (cells (table f r) row).foldr (· ++ ·) "") := by
  have hmap : ∀ rows : List (List String), (∀ row ∈ rows, Fits (table f r).charCounts row) →
      rows.mapM (printRow (table f r).compactFlag (table f r).charCounts) =
        some (rows.map fun row => (cells (table f r) row).foldr (· ++ ·) "") := by
    intro rows hrows
    induction rows with
    | nil => rfl
    | cons row rows ih =>
      obtain ⟨hrow, hrest⟩ := List.forall_mem_cons.mp hrows
      rw [List.mapM_cons, printRow_eq hrow, ih hrest]
      rfl
  exact hmap _ fun row hrow => fits_table f r hrow

end Reporter

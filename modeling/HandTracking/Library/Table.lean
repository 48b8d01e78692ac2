/-
Tables that are filled column by column.

Each value of a column goes to the end of the next row, and rows that are missing are begun.  A
table whose columns all come from the same items is the one that would be written row by row.

* `addColumn` — one more column;
* `rowsOf`, `addColumn_rowsOf` — the table by its rows;
* `widest` — the width of a column.
-/
import Mathlib.Data.List.Basic
import Mathlib.Order.Bounds.Defs
import Mathlib.Order.Defs.LinearOrder
import Mathlib.Order.MinMax

namespace Table

variable {α β ι : Type*}

/-- A column is appended to the rows, as many as it has cells. -/
def addColumn : List (List α) → List α → List (List α)
  | rows, [] => rows
  | [], v :: column => [v] :: addColumn [] column
  | row :: rows, v :: column => (row ++ [v]) :: addColumn rows column

theorem addColumn_nil_map (items : List ι) (f : ι → α) :
    addColumn [] (items.map f) = items.map fun i => [f i] := by
  induction items with
  | nil => rfl
  | cons i items ih => rw [List.map_cons, addColumn, ih, List.map_cons]

theorem addColumn_map (items : List ι) (row : ι → List α) (f : ι → α) :
    addColumn (items.map row) (items.map f) = items.map fun i => row i ++ [f i] := by
  induction items with
  | nil => rfl
  | cons i items ih => rw [List.map_cons, List.map_cons, addColumn, ih, List.map_cons]

/-- The rows of some columns; without columns there are none. -/
def rowsOf (items : List ι) (columns : List β) (f : β → ι → α) : List (List α) :=
  if columns = [] then [] else items.map fun i => columns.map fun c => f c i

theorem rowsOf_of_ne_nil {items : List ι} {columns : List β} (f : β → ι → α)
    (h : columns ≠ []) : rowsOf items columns f = items.map fun i => columns.map fun c => f c i :=
  if_neg h

theorem addColumn_rowsOf (items : List ι) (columns : List β) (f : β → ι → α) (c : β) :
    addColumn (rowsOf items columns f) (items.map (f c)) = rowsOf items (columns ++ [c]) f := by
  rw [rowsOf_of_ne_nil f (List.append_ne_nil_of_right_ne_nil columns (List.cons_ne_nil c []))]
  by_cases hcolumns : columns = []
  · rw [rowsOf, if_pos hcolumns, hcolumns, addColumn_nil_map]
    rfl
  · rw [rowsOf_of_ne_nil f hcolumns, addColumn_map]
    simp only [List.map_append, List.map_cons, List.map_nil]

theorem length_of_mem_rowsOf {items : List ι} {columns : List β} {f : β → ι → α} {row : List α}
    (h : row ∈ rowsOf items columns f) : row.length = columns.length := by
  rw [rowsOf] at h
  split_ifs at h
  · cases h
  · obtain ⟨i, -, rfl⟩ := List.mem_map.mp h
    exact List.length_map _

/-- Rows are missing in front of the first column only. -/
theorem eq_nil_of_length_rowsOf_lt {items : List ι} {columns : List β} {f : β → ι → α}
    (h : (rowsOf items columns f).length < items.length) : columns = [] := by
  by_contra hne
  rw [rowsOf_of_ne_nil f hne, List.length_map] at h
  exact absurd h (lt_irrefl _)

/-! ### Widths -/

variable [LinearOrder β]

/-- The largest size in a column, and at least `start`. -/
def widest (size : α → β) (start : β) (column : List α) : β :=
  column.foldl (fun w v => max w (size v)) start

theorem start_le_widest (size : α → β) (start : β) (column : List α) :
    start ≤ widest size start column := by
  induction column generalizing start with
  | nil => exact le_rfl
  | cons v column ih => exact (le_max_left _ _).trans (ih (max start (size v)))

theorem le_widest (size : α → β) (start : β) {column : List α} {v : α} (hv : v ∈ column) :
    size v ≤ widest size start column := by
  induction column generalizing start with
  | nil => cases hv
  | cons w column ih =>
    obtain rfl | hv := List.mem_cons.mp hv
    · exact (le_max_right _ _).trans (start_le_widest size _ column)
    · exact ih _ hv

theorem exists_size_eq_widest (size : α → β) (first : α) (column : List α) :
    ∃ v ∈ first :: column, size v = widest size (size first) column := by
  induction column generalizing first with
  | nil => exact ⟨first, List.mem_singleton_self _, rfl⟩
  | cons w column ih =>
    rw [widest, List.foldl_cons, ← widest]
    obtain ⟨hmax, -⟩ | ⟨hmax, -⟩ := max_cases (size first) (size w)
    · rw [hmax]
      obtain ⟨v, hv, hsize⟩ := ih first
      refine ⟨v, ?_, hsize⟩
      obtain rfl | hv := List.mem_cons.mp hv
      · exact List.mem_cons_self
      · exact List.mem_cons_of_mem _ (List.mem_cons_of_mem _ hv)
    · rw [hmax]
      obtain ⟨v, hv, hsize⟩ := ih w
      exact ⟨v, List.mem_cons_of_mem _ hv, hsize⟩

/-- A column is as wide as its widest text. -/
theorem isGreatest_widest (size : α → β) (first : α) (column : List α) :
    IsGreatest {n | ∃ v ∈ first :: column, size v = n} (widest size (size first) column) := by
  refine ⟨exists_size_eq_widest size first column, ?_⟩
  rintro n ⟨v, hv, rfl⟩
  obtain rfl | hv := List.mem_cons.mp hv
  · exact start_le_widest _ _ _
  · exact le_widest _ _ hv

end Table

/-
A window of fixed length over a growing list, filled with the first element.

* `window n l` — the last `n` elements, with the first one repeated before it;
* `window_concat` — one more element pushes the oldest out;
* `newest n l` — the last `n` elements, newest first;
* `take_reverse_window` — what is read from the far end of a window.
-/
import Mathlib.Data.List.Basic

variable {α : Type*}

/-- The last `n` elements of a list that begins with its first element as often as needed. -/
def window (n : ℕ) : List α → List α
  | [] => []
  | a :: l => (List.replicate n a ++ l).drop l.length

/-- The last `n` elements, newest first; where there are fewer, the first one is repeated. -/
def newest (n : ℕ) : List α → List α
  | [] => []
  | a :: l => ((a :: l).reverse ++ List.replicate n a).take n

@[simp] theorem window_nil (n : ℕ) : window n ([] : List α) = [] := rfl

theorem window_singleton (n : ℕ) (a : α) : window n [a] = List.replicate n a :=
  List.append_nil _

theorem length_window (n : ℕ) {l : List α} (hl : l ≠ []) : (window n l).length = n := by
  cases l with
  | nil => exact absurd rfl hl
  | cons a l =>
    rw [window, List.length_drop, List.length_append, List.length_replicate, Nat.add_sub_cancel]

theorem window_concat {n : ℕ} (hn : 0 < n) {l : List α} (hl : l ≠ []) (x : α) :
    window n (l ++ [x]) = (window n l).drop 1 ++ [x] := by
  cases l with
  | nil => exact absurd rfl hl
  | cons a l =>
    have hlength : l.length + 1 ≤ (List.replicate n a ++ l).length := by
      rw [List.length_append, List.length_replicate]
      omega
    rw [List.cons_append, window, window, List.drop_drop, List.length_append, List.length_singleton,
      ← List.append_assoc, List.drop_append_of_le_length hlength]

theorem take_append_replicate (l : List α) (a : α) {k m : ℕ} (h : k ≤ m) :
    (l ++ List.replicate m a).take k = (l ++ List.replicate k a).take k := by
  rw [List.take_append, List.take_append, List.take_replicate, List.take_replicate,
    Nat.min_eq_left (by omega), Nat.min_eq_left (by omega)]

/-- The `k` elements at the far end. -/
theorem take_reverse_window {k n : ℕ} (h : k ≤ n) (l : List α) :
    (window n l).reverse.take k = newest k l := by
  cases l with
  | nil => exact List.take_nil
  | cons a l =>
    have hreverse : (window n (a :: l)).reverse = (l.reverse ++ List.replicate n a).take n := by
      rw [window, List.reverse_drop, List.reverse_append, List.reverse_replicate,
        List.length_append, List.length_replicate, Nat.add_sub_cancel]
    have hfirst : (a :: l).reverse ++ List.replicate k a =
        l.reverse ++ List.replicate (k + 1) a := by
      rw [List.reverse_cons, List.append_assoc, List.singleton_append, ← List.replicate_succ]
    rw [hreverse, newest, hfirst, List.take_take, Nat.min_eq_left h, take_append_replicate _ _ h,
      take_append_replicate _ _ (Nat.le_succ k)]

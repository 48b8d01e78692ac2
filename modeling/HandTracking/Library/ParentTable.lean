/-
A tree given by the parent of each of its numbers, where a parent comes before its children.

* `ParentTable` — the table, and `ParentTable.induction`, the induction from the root;
* `fill` — one pass over the numbers that computes the value of each from that of its parent;
* `fill_succ` — what the pass leaves is a solution of its own equation;
* `StrictDescendant` — the numbers below another, and `fill_congr`: where the step of one number
  is replaced, only that number and its descendants notice.
-/
import HandTracking.Library.Numerals
import Mathlib.Data.Fin.Tuple.Basic
import Mathlib.Data.List.FinRange

/-- A tree on `0, …, n` with the root `0`. -/
structure ParentTable (n : ℕ) where
  parent : Fin n → Fin (n + 1)
  parent_lt : ∀ i, parent i < i.succ

namespace ParentTable

variable {n : ℕ} (t : ParentTable n)

/-- What holds of the root and goes from a parent to its child holds everywhere. -/
theorem induction {P : Fin (n + 1) → Prop} (root : P 0)
    (child : ∀ i, P (t.parent i) → P i.succ) (i : Fin (n + 1)) : P i := by
  induction i using WellFoundedLT.induction with
  | ind i ih =>
    induction i using Fin.cases with
    | zero => exact root
    | succ i => exact child i (ih (t.parent i) (t.parent_lt i))

/-! ### One pass over the table -/

variable {α : Type*}

/-- The values after the numbers of the list, in its order. -/
def fill (step : Fin n → α → α) (values : Fin (n + 1) → α) (l : List (Fin n)) :
    Fin (n + 1) → α :=
  l.foldl (fun v i => Function.update v i.succ (step i (v (t.parent i)))) values

variable (step : Fin n → α → α) (values : Fin (n + 1) → α) {l : List (Fin n)}

/-- A number that the list does not reach keeps its value. -/
theorem fill_of_notMem {i : Fin (n + 1)} (h : ∀ j ∈ l, i ≠ j.succ) :
    t.fill step values l i = values i := by
  induction l generalizing values with
  | nil => rfl
  | cons j l ih =>
    show t.fill step (Function.update values j.succ _) l i = values i
    rw [ih _ fun k hk => h k (List.mem_cons_of_mem j hk),
      Function.update_of_ne (h j List.mem_cons_self)]

theorem fill_zero : t.fill step values l 0 = values 0 :=
  t.fill_of_notMem step values fun j _ => (Fin.succ_ne_zero j).symm

/-- Each number in its turn finds the last value of its parent. -/
theorem fill_succ (hl : l.Pairwise (· < ·)) {i : Fin n} (hi : i ∈ l) :
    t.fill step values l i.succ = step i (t.fill step values l (t.parent i)) := by
  induction l generalizing values with
  | nil => cases hi
  | cons j l ih =>
    obtain ⟨hj, hl⟩ := List.pairwise_cons.mp hl
    show t.fill step (Function.update values j.succ (step j (values (t.parent j)))) l i.succ =
      step i (t.fill step (Function.update values j.succ (step j (values (t.parent j)))) l
        (t.parent i))
    cases hi with
    | tail _ hi => exact ih _ hl hi
    | head =>
      -- neither the number itself nor its parent comes again
      have hself : ∀ k ∈ l, i.succ ≠ k.succ := by
        intro k hk heq
        exact (hj k hk).ne (Fin.succ_injective n heq)
      have hparent : ∀ k ∈ l, t.parent i ≠ k.succ := by
        intro k hk heq
        have hlt := t.parent_lt i
        rw [heq, Fin.succ_lt_succ_iff] at hlt
        exact (hj k hk).asymm hlt
      rw [t.fill_of_notMem _ _ hself, t.fill_of_notMem _ _ hparent, Function.update_self,
        Function.update_of_ne (t.parent_lt i).ne]

theorem fill_finRange_succ (i : Fin n) :
    t.fill step values (List.finRange n) i.succ =
      step i (t.fill step values (List.finRange n) (t.parent i)) :=
  t.fill_succ step values (List.pairwise_lt_finRange n) (List.mem_finRange i)

/-! ### Descendants -/

/-- The second number is a child of the first, or of one of its descendants. -/
inductive StrictDescendant (a : Fin (n + 1)) : Fin (n + 1) → Prop
  | child (i : Fin n) (h : t.parent i = a) : StrictDescendant a i.succ
  | step (i : Fin n) (h : StrictDescendant a (t.parent i)) : StrictDescendant a i.succ

variable {t}

theorem StrictDescendant.lt {a b : Fin (n + 1)} (h : t.StrictDescendant a b) : a < b := by
  induction h with
  | child i h => exact h ▸ t.parent_lt i
  | step i _ ih => exact ih.trans (t.parent_lt i)

/-- The parent of a number is not below it. -/
theorem not_strictDescendant_parent (i : Fin n) : ¬ t.StrictDescendant i.succ (t.parent i) :=
  fun h => h.lt.asymm (t.parent_lt i)

/-- Two passes whose steps differ at one number agree away from what is below it. -/
theorem fill_congr {step step' : Fin n → α → α} {k : Fin n}
    (h : ∀ i ≠ k, step i = step' i) {i : Fin (n + 1)} (hne : i ≠ k.succ)
    (hi : ¬ t.StrictDescendant k.succ i) :
    t.fill step values (List.finRange n) i = t.fill step' values (List.finRange n) i := by
  induction i using t.induction with
  | root => rw [fill_zero, fill_zero]
  | child i ih =>
    have hk : i ≠ k := fun heq => hne (congrArg Fin.succ heq)
    have hparent : t.parent i ≠ k.succ := fun heq => hi (.child i heq)
    rw [fill_finRange_succ, fill_finRange_succ, h i hk,
      ih hparent fun hbelow => hi (.step i hbelow)]

end ParentTable

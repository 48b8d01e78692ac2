/-
The elements of a list by rank.

* `forall₂_orderedInsert` — a greater element in a greater list, one insertion;
* `forall₂_insertionSort` — greater elements have greater ones at every rank.
-/
import Mathlib.Data.List.Sort
import Mathlib.Order.Defs.LinearOrder

namespace List

variable {α : Type*} [LinearOrder α] {a b x : α} {l l' : List α}

theorem Forall₂.getElem?_le {i : ℕ} (h : Forall₂ (· ≤ ·) l l') (ha : l[i]? = some a)
    (hb : l'[i]? = some b) : a ≤ b := by
  obtain ⟨hi, rfl⟩ := getElem?_eq_some_iff.mp ha
  obtain ⟨hi', rfl⟩ := getElem?_eq_some_iff.mp hb
  exact h.get hi hi'

/-- The first element can be inserted where it stands. -/
theorem orderedInsert_of_pairwise (h : (x :: l).Pairwise (· ≤ ·)) :
    l.orderedInsert (· ≤ ·) x = x :: l := by
  cases l with
  | nil => rfl
  | cons y l => exact orderedInsert_cons_of_le _ l (rel_of_pairwise_cons h mem_cons_self)

theorem forall₂_orderedInsert (hab : a ≤ b) (h : Forall₂ (· ≤ ·) l l')
    (hl : l.Pairwise (· ≤ ·)) (hl' : l'.Pairwise (· ≤ ·)) :
    Forall₂ (· ≤ ·) (l.orderedInsert (· ≤ ·) a) (l'.orderedInsert (· ≤ ·) b) := by
  induction h generalizing a b with
  | nil => exact Forall₂.cons hab Forall₂.nil
  | @cons x y l l' hxy h ih =>
    by_cases hax : a ≤ x
    · rw [orderedInsert_cons_of_le _ l hax]
      by_cases hby : b ≤ y
      · rw [orderedInsert_cons_of_le _ l' hby]
        exact Forall₂.cons hab (Forall₂.cons hxy h)
      · -- `x` takes the rank of `b`
        have hxb : x ≤ b := hxy.trans (le_of_not_ge hby)
        have hrest := ih hxb hl.of_cons hl'.of_cons
        rw [orderedInsert_of_pairwise hl] at hrest
        rw [orderedInsert_of_not_le _ l' hby]
        exact Forall₂.cons (hax.trans hxy) hrest
    · rw [orderedInsert_of_not_le _ l hax]
      have hxa : x ≤ a := le_of_not_ge hax
      by_cases hby : b ≤ y
      · -- `a` takes the rank of `y`
        have hrest := ih (hab.trans hby) hl.of_cons hl'.of_cons
        rw [orderedInsert_of_pairwise hl'] at hrest
        rw [orderedInsert_cons_of_le _ l' hby]
        exact Forall₂.cons (hxa.trans hab) hrest
      · rw [orderedInsert_of_not_le _ l' hby]
        exact Forall₂.cons hxy (ih hab hl.of_cons hl'.of_cons)

theorem forall₂_insertionSort (h : Forall₂ (· ≤ ·) l l') :
    Forall₂ (· ≤ ·) (l.insertionSort (· ≤ ·)) (l'.insertionSort (· ≤ ·)) := by
  induction h with
  | nil => exact Forall₂.nil
  | cons hab h ih =>
    exact forall₂_orderedInsert hab ih (pairwise_insertionSort _ _) (pairwise_insertionSort _ _)

end List

/-
Selection sort on a list, for any total preorder.

* `swapAt` — the list with two elements exchanged, `getElem?_swapAt` — where its elements stand;
* `Settled le l k` — the first `k` elements are in their place;
* `Settled.swapAt` — one more is, after an exchange with a least one of the rest;
* `Settled.pairwise` — when all but one are, the list is sorted.
-/
import Mathlib.Data.List.Basic
import Mathlib.Logic.Equiv.Basic

variable {α : Type}

/-- The list with the elements at two places exchanged. -/
def swapAt (l : List α) (i j : ℕ) : List α :=
  match l[i]?, l[j]? with
  | some a, some b => (l.set j a).set i b
  | _, _ => l

theorem length_swapAt (l : List α) (i j : ℕ) : (swapAt l i j).length = l.length := by
  unfold swapAt
  split
  · rw [List.length_set, List.length_set]
  · rfl

theorem getElem?_swapAt {l : List α} {i j : ℕ} (hi : i < l.length) (hj : j < l.length) (k : ℕ) :
    (swapAt l i j)[k]? = l[Equiv.swap i j k]? := by
  rw [swapAt, List.getElem?_eq_getElem hi, List.getElem?_eq_getElem hj]
  show ((l.set j l[i]).set i l[j])[k]? = _
  by_cases hki : k = i
  · subst hki
    rw [Equiv.swap_apply_left, List.getElem?_set_self (by rwa [List.length_set]),
      List.getElem?_eq_getElem hj]
  · rw [List.getElem?_set_ne (Ne.symm hki)]
    by_cases hkj : k = j
    · subst hkj
      rw [Equiv.swap_apply_right, List.getElem?_set_self hj, List.getElem?_eq_getElem hi]
    · rw [List.getElem?_set_ne (Ne.symm hkj), Equiv.swap_apply_of_ne_of_ne hki hkj]

/-- An element before the place `k` is at most those that stand at its place and behind it. -/
def Settled (le : α → α → Prop) (l : List α) (k : ℕ) : Prop :=
  ∀ i j a b, i < k → i ≤ j → l[i]? = some a → l[j]? = some b → le a b

theorem settled_zero (le : α → α → Prop) (l : List α) : Settled le l 0 :=
  fun _ _ _ _ hi => absurd hi (Nat.not_lt_zero _)

/-- A least element of those from the place `k` goes there. -/
theorem Settled.swapAt {le : α → α → Prop} {l : List α} {k m : ℕ} {least : α}
    (h : Settled le l k) (hkm : k ≤ m) (hm : l[m]? = some least)
    (hleast : ∀ j b, k ≤ j → l[j]? = some b → le least b) :
    Settled le (swapAt l k m) (k + 1) := by
  have hlength : m < l.length := (List.getElem?_eq_some_iff.mp hm).1
  intro i j a b hi hij ha hb
  rw [getElem?_swapAt (by omega) hlength] at ha hb
  -- the exchange takes places from `k` to places from `k`
  have hfrom {t : ℕ} (ht : k ≤ t) : k ≤ Equiv.swap k m t := by
    rw [Equiv.swap_apply_def]
    split_ifs <;> omega
  rcases Nat.lt_succ_iff_lt_or_eq.mp hi with hlt | rfl
  · have hfix {t : ℕ} (ht : t < k) : Equiv.swap k m t = t :=
      Equiv.swap_apply_of_ne_of_ne (by omega) (by omega)
    rw [hfix hlt] at ha
    refine h i _ a b hlt ?_ ha hb
    by_cases hj : j < k
    · rwa [hfix hj]
    · have hk := hfrom (Nat.le_of_not_lt hj)
      omega
  · rw [Equiv.swap_apply_left, hm] at ha
    obtain rfl := Option.some.inj ha
    exact hleast _ b (hfrom hij) hb

/-- The last element needs no place of its own. -/
theorem Settled.pairwise {le : α → α → Prop} {l : List α} {k : ℕ} (h : Settled le l k)
    (hk : l.length ≤ k + 1) : l.Pairwise le := by
  rw [List.pairwise_iff_getElem]
  intro i j hi hj hij
  exact h i j _ _ (by omega) (Nat.le_of_lt hij) (List.getElem?_eq_getElem hi)
    (List.getElem?_eq_getElem hj)

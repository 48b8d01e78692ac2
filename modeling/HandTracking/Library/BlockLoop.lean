/-
Loops that take a fixed number of elements at a time.

`forBlocks w size body i s` is `for (; i + (w - 1) < size; i += w) body(i)` from the state
`s`, and gives the last `i` too, where the next loop goes on.

* `forBlocks_fst` — where the loop ends, whatever its body;
* `forBlocks_rule` — what holds at the start and survives each pass holds at the end;
* `forBlocks_eq` — a loop whose states are known, pass by pass;
* `forInts` — a loop that counts up by one, with its rule and its sums;
* `foldl_set_range` — a loop that sets the elements of a list.
-/
import Mathlib.Algebra.BigOperators.Group.Finset.Basic
import Mathlib.Algebra.Order.Ring.Int
import Mathlib.Tactic.Common

variable {σ : Type*} {w : ℕ} {size : ℤ} {body : ℕ → σ → σ} {i : ℕ} {s : σ}

/-- A loop that takes `w` elements at a time while there are as many; the index after it and the
state. -/
def forBlocks (w : ℕ) (size : ℤ) (body : ℕ → σ → σ) (i : ℕ) (s : σ) : ℕ × σ :=
  if 0 < w ∧ (i : ℤ) + (w - 1) < size then forBlocks w size body (i + w) (body i s) else (i, s)
termination_by (size - i).toNat

/-- As many blocks are taken as fit behind the first `i` elements. -/
theorem forBlocks_fst (hw : 0 < w) (body : ℕ → σ → σ) (s : σ) (hi : i ≤ size.toNat) :
    (forBlocks w size body i s).1 = i + w * ((size.toNat - i) / w) := by
  induction i, s using forBlocks.induct w size body with
  | case1 i s hlt ih =>
    rw [forBlocks, if_pos hlt, ih (by omega), ← Nat.sub_sub,
      Nat.div_eq_sub_div hw (show w ≤ size.toNat - i by omega), Nat.mul_succ, Nat.add_assoc,
      Nat.add_comm w]
  | case2 i s hlt =>
    rw [forBlocks, if_neg hlt, Nat.div_eq_of_lt (by omega), Nat.mul_zero, Nat.add_zero]

/-- One element at a time, none is left. -/
theorem forBlocks_one_fst (body : ℕ → σ → σ) (s : σ) (hi : i ≤ size.toNat) :
    (forBlocks 1 size body i s).1 = size.toNat := by
  rw [forBlocks_fst Nat.one_pos _ _ hi, Nat.div_one, Nat.one_mul, Nat.add_sub_cancel' hi]

/-- The invariant rule. -/
theorem forBlocks_rule (w : ℕ) (size : ℤ) (body : ℕ → σ → σ) {P : ℕ → σ → Prop}
    (hstep : ∀ (j : ℕ) s, (j : ℤ) + w ≤ size → P j s → P (j + w) (body j s)) (h0 : P i s) :
    P (forBlocks w size body i s).1 (forBlocks w size body i s).2 := by
  induction i, s using forBlocks.induct w size body with
  | case1 i s hlt ih =>
    rw [forBlocks, if_pos hlt]
    exact ih (hstep i s (by omega) h0)
  | case2 i s hlt =>
    rw [forBlocks, if_neg hlt]
    exact h0

/-- A loop that goes through the states `g`. -/
theorem forBlocks_eq (hw : 0 < w) (body : ℕ → σ → σ) (g : ℕ → σ) (hi : i ≤ size.toNat)
    (hstep : ∀ j : ℕ, (j : ℤ) + w ≤ size → body j (g j) = g (j + w)) :
    forBlocks w size body i (g i) =
      (i + w * ((size.toNat - i) / w), g (i + w * ((size.toNat - i) / w))) := by
  have hfst := forBlocks_fst hw body (g i) hi
  have hsnd := forBlocks_rule (i := i) (s := g i) (P := fun j s => s = g j) w size body
    (fun j s hlt hs => hs ▸ hstep j hlt) rfl
  rw [hfst] at hsnd
  exact Prod.ext hfst hsnd

/-! ### Counting loops -/

/-- `for (int i = 0; i < n; i++) body(i)` -/
def forInts (n : ℕ) (body : ℕ → σ → σ) (s : σ) : σ := (forBlocks 1 n body 0 s).2

theorem forInts_rule {n : ℕ} {P : ℕ → σ → Prop} (h0 : P 0 s)
    (hstep : ∀ j < n, ∀ s, P j s → P (j + 1) (body j s)) : P n (forInts n body s) := by
  have hrule := forBlocks_rule 1 n body (P := P) (fun j s hlt hs => hstep j (by omega) s hs) h0
  have hend : (forBlocks 1 (n : ℤ) body 0 s).1 = n := forBlocks_one_fst body s (Nat.zero_le _)
  rwa [hend] at hrule

/-- A counting loop that goes through the states `g`. -/
theorem forInts_eq {n : ℕ} (g : ℕ → σ) (hs : s = g 0)
    (hstep : ∀ j < n, body j (g j) = g (j + 1)) : forInts n body s = g n := by
  refine forInts_rule (P := fun j s => s = g j) hs fun j hj s h => ?_
  rw [h, hstep j hj]

theorem forInts_sum {M : Type*} [AddCommMonoid M] (n : ℕ) (f : ℕ → M) :
    forInts n (fun j sum => sum + f j) 0 = ∑ j ∈ Finset.range n, f j :=
  forInts_eq (fun j => ∑ i ∈ Finset.range j, f i) (Finset.sum_range_zero f).symm
    fun j _ => (Finset.sum_range_succ f j).symm

/-- A loop that sets all elements of a list. -/
theorem foldl_set_range {α : Type} (f : ℕ → α) (l : List α) :
    (List.range l.length).foldl (fun l i => l.set i (f i)) l = (List.range l.length).map f := by
  have hfront : ∀ m ≤ l.length, (List.range m).foldl (fun l i => l.set i (f i)) l =
      (List.range m).map f ++ l.drop m := by
    intro m
    induction m with
    | zero => exact fun _ => rfl
    | succ m ih =>
      intro hm
      have hlength : ((List.range m).map f).length = m := by
        rw [List.length_map, List.length_range]
      rw [List.range_succ, List.foldl_append, ih (by omega), List.map_append,
        List.drop_eq_getElem_cons (by omega), List.foldl_cons, List.foldl_nil,
        List.set_append_right _ _ hlength.le, hlength, Nat.sub_self, List.set_cons_zero,
        List.append_assoc]
      rfl
  rw [hfront l.length le_rfl, List.drop_length, List.append_nil]

/-
Bit vectors as finite sets of positions.

Position `i` belongs to `x` when `x.getLsbD i`.  Setting a bit inserts its
position (`getLsbD_or_twoPow`), the bitwise test `x = x &&& y` is inclusion
(`eq_and_self_iff`), and a bit vector gathered bit by bit from a list of positions
is the set of that list (`getLsbD_ofPositions`).
-/
import Mathlib.Data.List.Basic
import Mathlib.Tactic

namespace BitVec

variable {w : ℕ} {x y : BitVec w}

theorem getLsbD_one_shiftLeft (k i : ℕ) :
    ((1#w) <<< k).getLsbD i = true ↔ i = k ∧ i < w := by
  rw [BitVec.getLsbD_shiftLeft, BitVec.getLsbD_one]
  simp only [Bool.and_eq_true, Bool.not_eq_true', decide_eq_true_eq, decide_eq_false_iff_not]
  omega

/-- Setting bit `k` inserts position `k`. -/
theorem getLsbD_or_one_shiftLeft (k i : ℕ) :
    (x ||| (1#w) <<< k).getLsbD i = true ↔ x.getLsbD i = true ∨ i = k ∧ i < w := by
  rw [BitVec.getLsbD_or, Bool.or_eq_true, getLsbD_one_shiftLeft]

/-- The bitwise test for inclusion. -/
theorem eq_and_self_iff :
    x = x &&& y ↔ ∀ i, x.getLsbD i = true → y.getLsbD i = true := by
  constructor
  · intro h i hx
    rw [h, BitVec.getLsbD_and, Bool.and_eq_true] at hx
    exact hx.2
  · intro h
    refine BitVec.eq_of_getLsbD_eq fun i _ => ?_
    rw [BitVec.getLsbD_and]
    rcases hx : x.getLsbD i with _ | _
    · rfl
    · rw [h i hx]
      rfl

/-- The bits of a list of positions, set one after another. -/
def ofPositions (w : ℕ) (ks : List ℕ) : BitVec w :=
  ks.foldl (fun acc k => acc ||| (1#w) <<< k) 0#w

theorem getLsbD_ofPositions (ks : List ℕ) (i : ℕ) :
    (ofPositions w ks).getLsbD i = true ↔ i ∈ ks ∧ i < w := by
  have key : ∀ (ks : List ℕ) (acc : BitVec w),
      (ks.foldl (fun acc k => acc ||| (1#w) <<< k) acc).getLsbD i = true ↔
        acc.getLsbD i = true ∨ i ∈ ks ∧ i < w := by
    intro ks
    induction ks with
    | nil => simp
    | cons k ks ih =>
      intro acc
      rw [List.foldl_cons, ih, getLsbD_or_one_shiftLeft, List.mem_cons]
      tauto
  rw [ofPositions, key]
  simp

end BitVec

/-
Unsigned numbers of a machine: a predecessor, and loops over a counter that begins anew behind
its largest value.

`forUnsigned m n body fuel i s` is `for (; i < n; ++i) body(i)` for a counter with the values
`0 .. m - 1`, in at most `fuel` rounds.  A round may fail.

* `sizeMinusOne` — one less than a size;
* `forUnsigned_rule` — a loop whose bound is a value of the counter, with its invariant;
* `forUnsigned_ne_ok` — a bound above all values: the loop does not end;
* `forUnsigned_ne_ok_of_body` — a first round that does not end.
-/
import Mathlib.Algebra.GroupWithZero.Nat
import Mathlib.Tactic.Common

/-- Why a run has no result. -/
inductive Fault where
  | outOfRange
  | outOfFuel
  deriving DecidableEq, Repr

/-- `size - 1` on 64 bits -/
def sizeMinusOne (size : ℕ) : ℕ := if size = 0 then 2 ^ 64 - 1 else size - 1

theorem sizeMinusOne_of_pos {size : ℕ} (h : 0 < size) : sizeMinusOne size = size - 1 :=
  if_neg (by omega)

variable {σ : Type}

/-- A loop with a counter that wraps at `m`, while it is below `n`. -/
def forUnsigned (m n : ℕ) (body : ℕ → σ → Except Fault σ) : ℕ → ℕ → σ → Except Fault σ
  | 0, _, _ => .error .outOfFuel
  | fuel + 1, i, s =>
    if i < n then
      match body i s with
      | .error e => .error e
      | .ok s => forUnsigned m n body fuel ((i + 1) % m) s
    else .ok s

variable {m n i : ℕ} {body : ℕ → σ → Except Fault σ} {s s' : σ}

/-- What holds at the start and survives each round holds at the end, which is reached. -/
theorem forUnsigned_rule (hn : n < m) {P : ℕ → σ → Prop} {fuel : ℕ} (hfuel : n - i < fuel)
    (hi : i ≤ n) (h0 : P i s)
    (hstep : ∀ j s, i ≤ j → j < n → P j s → ∃ s', body j s = .ok s' ∧ P (j + 1) s') :
    ∃ s', forUnsigned m n body fuel i s = .ok s' ∧ P n s' := by
  induction fuel generalizing i s with
  | zero => omega
  | succ fuel ih =>
    rw [forUnsigned]
    by_cases hlt : i < n
    · obtain ⟨s', hbody, hnext⟩ := hstep i s (Nat.le_refl i) hlt h0
      have hmod : (i + 1) % m = i + 1 := Nat.mod_eq_of_lt (by omega)
      rw [if_pos hlt, hbody]
      show ∃ s'', forUnsigned m n body fuel ((i + 1) % m) s' = .ok s'' ∧ P n s''
      rw [hmod]
      exact ih (by omega) hlt hnext fun j s hj => hstep j s (by omega)
    · obtain rfl : i = n := by omega
      exact ⟨s, if_neg hlt, h0⟩

/-- No value of the counter ends the loop. -/
theorem forUnsigned_ne_ok (hn : m ≤ n) (hi : i < m) (fuel : ℕ) :
    forUnsigned m n body fuel i s ≠ .ok s' := by
  induction fuel generalizing i s with
  | zero => exact fun h => by cases h
  | succ fuel ih =>
    rw [forUnsigned, if_pos (by omega)]
    cases body i s with
    | error e => exact fun h => by cases h
    | ok s => exact ih (Nat.mod_lt _ (by omega))

theorem forUnsigned_ne_ok_of_body (hi : i < n) (hbody : ∀ t, body i s ≠ .ok t) (fuel : ℕ) :
    forUnsigned m n body fuel i s ≠ .ok s' := by
  cases fuel with
  | zero => exact fun h => by cases h
  | succ fuel =>
    rw [forUnsigned, if_pos hi]
    cases h : body i s with
    | error e => exact fun h => by cases h
    | ok t => exact absurd h (hbody t)

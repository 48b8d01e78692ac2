/-
Vectors of four lanes, and the memory they are loaded from and stored to.

Memory is a function of the index of an element.  `written out base f n` is the memory `out`
with `f 0`, …, `f (n - 1)` written from `base` on; loops that fill a row one element or one
vector at a time go through these.
-/
import HandTracking.Library.Numerals
import Mathlib.Algebra.BigOperators.Fin
import Mathlib.Algebra.Field.Defs
import Mathlib.Order.Bounds.Basic
import Mathlib.Tactic.Common
import Mathlib.Tactic.FinCases
import Mathlib.Tactic.Ring

/-- A vector register of four floats. -/
abbrev Float32x4 (K : Type*) := Fin 4 → K

namespace Lanes

variable {K : Type*}

/-- `vdupq_n_f32`: one value in all lanes. -/
def vdupqN (x : K) : Float32x4 K := fun _ => x

/-- `vld1q_f32`: four values from the memory. -/
def vld1q (mem : ℤ → K) (ptr : ℤ) : Float32x4 K := fun l => mem (ptr + l)

/-- `vst1q_f32`: four values to the memory. -/
def vst1q (mem : ℤ → K) (ptr : ℤ) (v : Float32x4 K) : ℤ → K :=
  fun x => if ptr ≤ x ∧ x < ptr + 4 then v (Fin.ofNat 4 (x - ptr).toNat) else mem x

/-- `vaddq_f32`: lane by lane. -/
def vaddq [Add K] (a b : Float32x4 K) : Float32x4 K := fun l => a l + b l

/-- `vsubq_f32`: lane by lane. -/
def vsubq [Sub K] (a b : Float32x4 K) : Float32x4 K := fun l => a l - b l

/-- `vmulq_n_f32`: all lanes by one value. -/
def vmulqN [Mul K] (a : Float32x4 K) (x : K) : Float32x4 K := fun l => a l * x

/-- `vmaxq_f32`: lane by lane. -/
def vmaxq [Max K] (a b : Float32x4 K) : Float32x4 K := fun l => max (a l) (b l)

/-- The sum over the lanes. -/
def vaddvq [Add K] (a : Float32x4 K) : K := a 0 + a 1 + a 2 + a 3

/-- The maximum over the lanes. -/
def vmaxvq [Max K] (a : Float32x4 K) : K := max (max (max (a 0) (a 1)) (a 2)) (a 3)

/-- A memory with `n` values written from `base` on. -/
def written (out : ℤ → K) (base : ℤ) (f : ℕ → K) (n : ℕ) : ℤ → K :=
  fun x => if base ≤ x ∧ x < base + n then f (x - base).toNat else out x

section Written

variable {out : ℤ → K} {base x : ℤ} {f g : ℕ → K} {n k : ℕ}

theorem written_zero (out : ℤ → K) (base : ℤ) (f : ℕ → K) : written out base f 0 = out := by
  funext x
  rw [written, if_neg (by omega)]

/-- The element `k` of the row. -/
theorem written_of_lt (hk : k < n) : written out base f n (base + k) = f k := by
  rw [written, if_pos (by omega)]
  congr 1
  omega

theorem written_of_le (hk : n ≤ k) : written out base f n (base + k) = out (base + k) := by
  rw [written, if_neg (by omega)]

/-- In front of the row and behind it nothing is written. -/
theorem written_of_outside (hx : x < base ∨ base + n ≤ x) : written out base f n x = out x := by
  rw [written, if_neg (by omega)]

theorem update_written (out : ℤ → K) (base : ℤ) (f : ℕ → K) (n : ℕ) :
    Function.update (written out base f n) (base + n) (f n) = written out base f (n + 1) := by
  funext x
  rcases eq_or_ne x (base + n) with rfl | hne
  · rw [Function.update_self, written_of_lt (Nat.lt_succ_self n)]
  · rw [Function.update_of_ne hne, written, written]
    have hiff : base ≤ x ∧ x < base + n ↔ base ≤ x ∧ x < base + (n + 1 : ℕ) := by omega
    rw [if_congr hiff rfl rfl]

theorem vst1q_written (out : ℤ → K) (base : ℤ) (f : ℕ → K) (n : ℕ) {v : Float32x4 K}
    (hv : ∀ l : Fin 4, v l = f (n + l)) :
    vst1q (written out base f n) (base + n) v = written out base f (n + 4) := by
  funext x
  rw [vst1q]
  by_cases hx : base + n ≤ x ∧ x < base + n + 4
  · rw [if_pos hx, hv, written, if_pos (by omega), Fin.val_ofNat, Nat.mod_eq_of_lt (by omega)]
    congr 1
    omega
  · rw [if_neg hx, written, written]
    by_cases hrow : base ≤ x ∧ x < base + n
    · rw [if_pos hrow, if_pos (by omega)]
    · rw [if_neg hrow, if_neg (by omega)]

/-- A vector that is stored elsewhere. -/
theorem vst1q_written_of_disjoint {ptr : ℤ} {v : Float32x4 K}
    (h : ptr + 4 ≤ base ∨ base + n ≤ ptr) :
    vst1q (written out base f n) ptr v = written (vst1q out ptr v) base f n := by
  funext x
  simp only [vst1q, written]
  by_cases hx : ptr ≤ x ∧ x < ptr + 4
  · rw [if_pos hx, if_neg (by omega), if_pos hx]
  · rw [if_neg hx, if_neg hx]

/-- Where two memories agree, they do so after a vector is stored. -/
theorem vst1q_agree {mem mem' : ℤ → K} (h : mem x = mem' x) (ptr : ℤ) (v : Float32x4 K) :
    vst1q mem ptr v x = vst1q mem' ptr v x := by
  unfold vst1q
  rw [h]

theorem written_agree {mem mem' : ℤ → K} (h : mem x = mem' x) :
    written mem base f n x = written mem' base f n x := by
  unfold written
  rw [h]

theorem written_append (out : ℤ → K) (base : ℤ) (f : ℕ → K) (n m : ℕ) :
    written (written out base f n) (base + n) (fun k => f (n + k)) m =
      written out base f (n + m) := by
  funext x
  simp only [written]
  by_cases hx : base + n ≤ x ∧ x < base + n + m
  · rw [if_pos hx, if_pos (by omega)]
    congr 1
    omega
  · rw [if_neg hx]
    exact if_congr (by omega) rfl rfl

end Written

/-! ### Bytes -/

section Bytes

/-- A vector register of 16 bytes. -/
abbrev Bytes := Fin 16 → BitVec 8

/-- `ld1`: 16 bytes from the memory. -/
def ld1 (mem : ℕ → BitVec 8) (ptr : ℕ) : Bytes := fun l => mem (ptr + l)

/-- The bytes `idx l` of some registers, and 0 behind their end. -/
def tbl (regs : List Bytes) (idx : Fin 16 → ℕ) : Bytes := fun l =>
  match regs[idx l / 16]? with
  | some v => v (Fin.ofNat 16 (idx l))
  | none => 0

/-- Dot products of four bytes and four bytes; no sum here comes near `2 ^ 32`. -/
def udot (acc : Fin 4 → ℕ) (a b : Bytes) : Fin 4 → ℕ := fun l =>
  acc l + ∑ k : Fin 4,
    (a (Fin.ofNat 16 (4 * l + k))).toNat * (b (Fin.ofNat 16 (4 * l + k))).toNat

/-- `uaddlp` from bytes. -/
def uaddlpBytes (a : Bytes) : Fin 8 → ℕ := fun l =>
  (a (Fin.ofNat 16 (2 * l))).toNat + (a (Fin.ofNat 16 (2 * l + 1))).toNat

/-- `uaddlp` from half words. -/
def uaddlp (a : Fin 8 → ℕ) : Fin 4 → ℕ := fun l =>
  a (Fin.ofNat 8 (2 * l)) + a (Fin.ofNat 8 (2 * l + 1))

/-- The lanes of `a`, times a weight, added to those of `acc`. -/
def mla (acc a : Fin 4 → ℕ) (w : ℕ) : Fin 4 → ℕ := fun l => acc l + a l * w

/-- With one weight for all bytes, the dot product is the weighted sum. -/
theorem udot_const (acc : Fin 4 → ℕ) (a : Bytes) (w : BitVec 8) :
    udot acc a (fun _ => w) = mla acc (uaddlp (uaddlpBytes a)) w.toNat := by
  funext l
  simp only [udot, mla, uaddlp, uaddlpBytes, Fin.sum_univ_four]
  fin_cases l
  · simp [Fin.ofNat]
    ring
  · simp [Fin.ofNat]
    ring
  · simp [Fin.ofNat]
    ring
  · simp [Fin.ofNat]
    ring

end Bytes

/-! ### The largest element -/

theorem vmaxvq_vmaxq [LinearOrder K] (a b : Float32x4 K) :
    vmaxvq (vmaxq a b) = max (vmaxvq a) (vmaxvq b) := by
  simp only [vmaxvq, vmaxq]
  ac_rfl

theorem vmaxvq_vdupqN [LinearOrder K] (x : K) : vmaxvq (vdupqN x) = x := by
  simp [vmaxvq, vdupqN]

theorem isGreatest_vmaxvq [LinearOrder K] (a : Float32x4 K) :
    IsGreatest (Set.range a) (vmaxvq a) := by
  constructor
  · simp only [vmaxvq, Set.mem_range]
    rcases max_choice (max (max (a 0) (a 1)) (a 2)) (a 3) with h3 | h3
    · rcases max_choice (max (a 0) (a 1)) (a 2) with h2 | h2
      · rcases max_choice (a 0) (a 1) with h1 | h1
        · exact ⟨0, by rw [h3, h2, h1]⟩
        · exact ⟨1, by rw [h3, h2, h1]⟩
      · exact ⟨2, by rw [h3, h2]⟩
    · exact ⟨3, by rw [h3]⟩
  · rintro _ ⟨l, rfl⟩
    fin_cases l
    · simp [vmaxvq]
    · simp [vmaxvq]
    · simp [vmaxvq]
    · simp [vmaxvq]

/-! ### Sums -/

theorem vaddvq_eq_sum [AddCommMonoid K] (a : Float32x4 K) : vaddvq a = ∑ l, a l := by
  rw [vaddvq, Fin.sum_univ_four]

theorem sum_range_add_four [AddCommMonoid K] (f : ℕ → K) (n : ℕ) :
    ∑ j ∈ Finset.range (n + 4), f j = ∑ j ∈ Finset.range n, f j + ∑ l : Fin 4, f (n + l) := by
  rw [Finset.sum_range_add, Finset.sum_range fun l => f (n + l)]

end Lanes

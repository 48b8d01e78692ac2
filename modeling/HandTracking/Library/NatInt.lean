/-
`Int32` arithmetic on natural numbers.

As long as the results stay below 2³¹ it is the arithmetic of ℕ.

* `Int32.IsNat` — a value is that of a natural number;
* `IsNat.add`, `IsNat.sub`, `IsNat.mul`, `IsNat.div`, `IsNat.mod` — one rule for each operation.
-/
import Mathlib.Algebra.GroupWithZero.Nat
import Mathlib.Data.Int.Cast.Basic
import Mathlib.Data.Nat.Notation

namespace Int32

/-- The value of `a` is `n`. -/
def IsNat (a : Int32) (n : ℕ) : Prop := a.toInt = n

theorem isNat_toNat {a : Int32} (h : 0 ≤ a.toInt) : a.IsNat a.toInt.toNat :=
  (Int.toNat_of_nonneg h).symm

theorem isNat_toInt32 {u : UInt32} {n : ℕ} (hu : u.toNat = n) (h : n < 2 ^ 31) :
    u.toInt32.IsNat n := by
  have hofNat : u.toInt32 = Int32.ofNat n := by
    rw [← hu, ← UInt32.toInt32_ofNat', UInt32.ofNat_toNat]
  rw [IsNat, hofNat, Int32.toInt_ofNat_of_lt h]

namespace IsNat

variable {a b : Int32} {m n : ℕ}

theorem lt_two_pow (h : a.IsNat m) : m < 2 ^ 31 := by
  have hlt := a.toInt_lt
  rw [IsNat] at h
  omega

theorem unique (hm : a.IsNat m) (hn : a.IsNat n) : m = n := Int.ofNat.inj (hm.symm.trans hn)

theorem inj (ha : a.IsNat m) (hb : b.IsNat m) : a = b := Int32.toInt_inj.mp (ha.trans hb.symm)

theorem lt_iff (ha : a.IsNat m) (hb : b.IsNat n) : a < b ↔ m < n := by
  rw [Int32.lt_iff_toInt_lt, ha, hb]
  exact Int.ofNat_lt

theorem add (ha : a.IsNat m) (hb : b.IsNat n) (h : m + n < 2 ^ 31) : (a + b).IsNat (m + n) := by
  rw [IsNat, Int32.toInt_add, ha, hb, Int.bmod_eq_of_le (by omega) (by omega)]
  rfl

theorem sub (ha : a.IsNat m) (hb : b.IsNat n) (h : n ≤ m) : (a - b).IsNat (m - n) := by
  have hm := ha.lt_two_pow
  rw [IsNat, Int32.toInt_sub, ha, hb, Int.bmod_eq_of_le (by omega) (by omega)]
  exact (Int.ofNat_sub h).symm

theorem mul (ha : a.IsNat m) (hb : b.IsNat n) (h : m * n < 2 ^ 31) : (a * b).IsNat (m * n) := by
  have hcast : (m : ℤ) * n = (m * n : ℕ) := rfl
  rw [IsNat, Int32.toInt_mul, ha, hb, hcast, Int.bmod_eq_of_le (by omega) (by omega)]

theorem div (ha : a.IsNat m) (hb : b.IsNat n) : (a / b).IsNat (m / n) := by
  have hright : b ≠ -1 := by
    rintro rfl
    have hneg : ((-1 : Int32).toInt : ℤ) = -1 := by decide
    rw [IsNat, hneg] at hb
    omega
  rw [IsNat, Int32.toInt_div_of_ne_right _ _ hright, ha, hb]
  exact Int.ofNat_tdiv m n

theorem mod (ha : a.IsNat m) (hb : b.IsNat n) : (a % b).IsNat (m % n) := by
  rw [IsNat, Int32.toInt_mod, ha, hb]
  exact Int.ofNat_tmod m n

end IsNat

theorem eq_of_toNat_eq {a b : Int32} (ha : 0 ≤ a.toInt) (hb : 0 ≤ b.toInt)
    (h : a.toInt.toNat = b.toInt.toNat) : a = b := by
  have hnat := isNat_toNat hb
  rw [← h] at hnat
  exact (isNat_toNat ha).inj hnat

end Int32

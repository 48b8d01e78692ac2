/-
Memory as a function from the offset of a byte, and the two ways to write to it.

Sizes are counted in bytes.  A `float` takes four of them, so a loop over the first `n`
floats of a buffer is a copy of `4 * n` bytes.
-/
import Mathlib.Order.Basic

/-- The bytes of an unbounded memory. -/
abbrev Buffer := ℕ → BitVec 8

namespace Buffer

/-- All bytes are 0, and so are all floats. -/
def zero : Buffer := fun _ => 0#8

/-- `memcpy`; the bytes behind the first `size` stay. -/
def memcpy (dst src : Buffer) (size : ℕ) : Buffer := fun k => if k < size then src k else dst k

/-- `memset` with 0. -/
def memset (dst : Buffer) (size : ℕ) : Buffer := memcpy dst zero size

/-- The buffers have the same bytes at the offsets from `first` on below `last`. -/
def EqOn (first last : ℕ) (a b : Buffer) : Prop := ∀ k, first ≤ k → k < last → a k = b k

theorem memcpy_of_lt {dst src : Buffer} {size k : ℕ} (h : k < size) :
    memcpy dst src size k = src k :=
  if_pos h

theorem memcpy_of_le {dst src : Buffer} {size k : ℕ} (h : size ≤ k) :
    memcpy dst src size k = dst k :=
  if_neg (Nat.not_lt.mpr h)

theorem memcpy_self (b : Buffer) (size : ℕ) : memcpy b b size = b :=
  funext fun _ => ite_self _

/-- A copy of a copy. -/
theorem memcpy_memcpy (dst dst' src : Buffer) (size : ℕ) :
    memcpy (memcpy dst dst' size) src size = memcpy dst src size := by
  funext k
  by_cases hk : k < size
  · rw [memcpy_of_lt hk, memcpy_of_lt hk]
  · have hle := Nat.le_of_not_lt hk
    rw [memcpy_of_le hle, memcpy_of_le hle, memcpy_of_le hle]

theorem EqOn.symm {first last : ℕ} {a b : Buffer} (h : EqOn first last a b) :
    EqOn first last b a :=
  fun k hfirst hlast => (h k hfirst hlast).symm

theorem EqOn.trans {first last : ℕ} {a b c : Buffer} (hab : EqOn first last a b)
    (hbc : EqOn first last b c) : EqOn first last a c :=
  fun k hfirst hlast => (hab k hfirst hlast).trans (hbc k hfirst hlast)

/-- Two choices between a buffer and zeros agree if they are the same choice. -/
theorem eqOn_ite_zero_iff {first last : ℕ} {p q : Prop} [Decidable p] [Decidable q] {b : Buffer} :
    EqOn first last (if p then b else zero) (if q then b else zero) ↔
      ((p ↔ q) ∨ EqOn first last b zero) := by
  by_cases hp : p <;> by_cases hq : q <;> simp only [hp, hq, if_true, if_false]
  · exact iff_of_true (fun _ _ _ => rfl) (Or.inl trivial)
  · exact ⟨Or.inr, fun h => h.resolve_left fun hiff => hiff.mp trivial⟩
  · exact ⟨fun h => Or.inr h.symm, fun h => (h.resolve_left fun hiff => hiff.mpr trivial).symm⟩
  · exact iff_of_true (fun _ _ _ => rfl) (Or.inl trivial)

theorem eqOn_empty (n : ℕ) (a b : Buffer) : EqOn n n a b :=
  fun _ hfirst hlast => absurd hlast (Nat.not_lt.mpr hfirst)

/-- What a copy leaves agrees with a buffer where its two parts do. -/
theorem eqOn_memcpy_iff {dst src b : Buffer} {size last : ℕ} (h : size ≤ last) :
    EqOn 0 last (memcpy dst src size) b ↔ EqOn 0 size src b ∧ EqOn size last dst b := by
  constructor
  · intro heq
    constructor
    · intro k _ hk
      have hbyte := heq k (Nat.zero_le k) (by omega)
      rwa [memcpy_of_lt hk] at hbyte
    · intro k hsize hk
      have hbyte := heq k (Nat.zero_le k) hk
      rwa [memcpy_of_le hsize] at hbyte
  · rintro ⟨hsrc, hdst⟩ k _ hk
    by_cases hlt : k < size
    · rw [memcpy_of_lt hlt]
      exact hsrc k (Nat.zero_le k) hlt
    · rw [memcpy_of_le (Nat.le_of_not_lt hlt)]
      exact hdst k (Nat.le_of_not_lt hlt) hk

end Buffer

/-
`swapSort`: a selection sort of one vector that moves a second one along.

The counters are of type `uint32_t` and the bound `arr.size() - 1` of type `size_t`: it is the
largest value for an empty vector, and the counters do not reach the size of one with 2^32 or
more elements.

* `swapSort` — the two loops, with every access checked;
* `selectFrom_spec` — the inner loop finds a least element, `selectionLoop_spec` — the outer one
  puts it to its place;
* `ArrangedAs` — two vectors after one permutation of both;
* `swapSort_sorts_iff` — the lengths for which it does what it is for.
-/
import HandTracking.Library.SelectionSort
import HandTracking.Library.UnsignedLoop
import Mathlib.Algebra.Order.Ring.Int

namespace Base

/-- The number of values of `uint32_t`. -/
def uint32Size : ℕ := 2 ^ 32

/-- A read, or a fault outside of the array. -/
def readAt (l : List ℤ) (i : ℕ) : Except Fault ℤ :=
  match l[i]? with
  | some a => .ok a
  | none => .error .outOfRange

/-- A write, or a fault outside of the array. -/
def writeAt (l : List ℤ) (i : ℕ) (a : ℤ) : Except Fault (List ℤ) :=
  if i < l.length then .ok (l.set i a) else .error .outOfRange

/-- The inner loop: the value that comes first from the place `i`, and its place. -/
def selectFrom (before : ℤ → ℤ → Bool) (fuel : ℕ) (arr : List ℤ) (i : ℕ) :
    Except Fault (ℤ × ℕ) := do
  let val ← readAt arr i
  forUnsigned uint32Size arr.length
    (fun j s => do
      let a ← readAt arr j
      return if before a s.1 then (a, j) else s)
    fuel ((i + 1) % uint32Size) (val, i)

/-- `tmp = l[best]; l[best] = l[i]; l[i] = tmp;` -/
def exchange (l : List ℤ) (best i : ℕ) : Except Fault (List ℤ) := do
  let tmp ← readAt l best
  let a ← readAt l i
  let l ← writeAt l best a
  writeAt l i tmp

/-- One round: the best element of the rest comes to its front, in both arrays. -/
def selectionRound (before : ℤ → ℤ → Bool) (fuel i : ℕ) (s : List ℤ × List ℤ) :
    Except Fault (List ℤ × List ℤ) := do
  let best ← selectFrom before fuel s.1 i
  let arr ← exchange s.1 best.2 i
  let idx ← exchange s.2 best.2 i
  return (arr, idx)

/-- The outer loop, which is the same in both branches but for the comparison. -/
def selectionLoop (before : ℤ → ℤ → Bool) (fuel : ℕ) (arr idx : List ℤ) :
    Except Fault (List ℤ × List ℤ) :=
  forUnsigned uint32Size (sizeMinusOne arr.length) (selectionRound before fuel) fuel 0 (arr, idx)

/-- `swapSort`, with the comparison that `reverse` chooses. -/
def swapSort (fuel : ℕ) (arr idx : List ℤ) (reverse : Bool) : Except Fault (List ℤ × List ℤ) :=
  if reverse then selectionLoop (fun a maxVal => a > maxVal) fuel arr idx
  else selectionLoop (fun a minVal => a < minVal) fuel arr idx

/-! ### Accesses in range -/

theorem readAt_of_getElem? {l : List ℤ} {i : ℕ} {a : ℤ} (h : l[i]? = some a) :
    readAt l i = .ok a := by
  rw [readAt, h]

theorem readAt_of_lt {l : List ℤ} {i : ℕ} (h : i < l.length) : readAt l i = .ok l[i] :=
  readAt_of_getElem? (List.getElem?_eq_getElem h)

theorem exchange_of_lt {l : List ℤ} {best i : ℕ} (hbest : best < l.length) (hi : i < l.length) :
    exchange l best i = .ok (swapAt l i best) := by
  have hwrite {l : List ℤ} {i : ℕ} (a : ℤ) (h : i < l.length) : writeAt l i a = .ok (l.set i a) :=
    if_pos h
  have hlength : i < (l.set best l[i]).length := by rwa [List.length_set]
  rw [exchange, readAt_of_lt hbest, readAt_of_lt hi, swapAt, List.getElem?_eq_getElem hi,
    List.getElem?_eq_getElem hbest]
  show (writeAt l best l[i]).bind _ = _
  rw [hwrite _ hbest]
  exact hwrite _ hlength

/-! ### The two loops -/

/-- The comparison of the inner loop is the strict one of a total preorder. -/
structure Decides (before : ℤ → ℤ → Bool) (le : ℤ → ℤ → Prop) : Prop where
  refl : ∀ a, le a a
  trans : ∀ a b c, le a b → le b c → le a c
  of_before : ∀ a b, before a b = true → le a b
  of_not_before : ∀ a b, before a b = false → le b a

variable {before : ℤ → ℤ → Bool} {le : ℤ → ℤ → Prop}

/-- What the inner loop knows of the elements before the place `j`. -/
structure LeastFrom (le : ℤ → ℤ → Prop) (arr : List ℤ) (i j : ℕ) (s : ℤ × ℕ) : Prop where
  from_le : i ≤ s.2
  value : arr[s.2]? = some s.1
  least : ∀ k b, i ≤ k → k < j → arr[k]? = some b → le s.1 b

theorem selectFrom_spec (hle : Decides before le) {arr : List ℤ} {fuel i : ℕ}
    (hsize : arr.length < uint32Size) (hfuel : arr.length < fuel) (hi : i < arr.length) :
    ∃ s, selectFrom before fuel arr i = .ok s ∧ LeastFrom le arr i arr.length s := by
  have hnext : (i + 1) % uint32Size = i + 1 := Nat.mod_eq_of_lt (by omega)
  have hstart : LeastFrom le arr i (i + 1) (arr[i], i) := by
    refine ⟨le_rfl, List.getElem?_eq_getElem hi, fun k b hk hlt hb => ?_⟩
    obtain rfl : k = i := by omega
    rw [List.getElem?_eq_getElem hi] at hb
    obtain rfl := Option.some.inj hb
    exact hle.refl _
  rw [selectFrom, readAt_of_lt hi, hnext]
  refine forUnsigned_rule hsize (by omega) hi hstart fun j s hij hj h => ?_
  rw [readAt_of_lt hj]
  refine ⟨_, rfl, ?_⟩
  by_cases hbefore : before arr[j] s.1 = true
  · rw [if_pos hbefore]
    refine ⟨by omega, List.getElem?_eq_getElem hj, fun k b hk hlt hb => ?_⟩
    rcases Nat.lt_succ_iff_lt_or_eq.mp hlt with hkj | rfl
    · exact hle.trans _ _ _ (hle.of_before _ _ hbefore) (h.least k b hk hkj hb)
    · rw [List.getElem?_eq_getElem hj] at hb
      obtain rfl := Option.some.inj hb
      exact hle.refl _
  · rw [if_neg hbefore]
    refine ⟨h.from_le, h.value, fun k b hk hlt hb => ?_⟩
    rcases Nat.lt_succ_iff_lt_or_eq.mp hlt with hkj | rfl
    · exact h.least k b hk hkj hb
    · rw [List.getElem?_eq_getElem hj] at hb
      obtain rfl := Option.some.inj hb
      exact hle.of_not_before _ _ (Bool.eq_false_of_not_eq_true hbefore)

/-- The vectors `s` are `arr` and `idx`, each after the same permutation. -/
def ArrangedAs (arr idx : List ℤ) (s : List ℤ × List ℤ) : Prop :=
  s.1.length = arr.length ∧ s.2.length = idx.length ∧
    ∃ perm : Equiv.Perm (Fin arr.length), ∀ k : Fin arr.length,
      s.1[k.val]? = arr[(perm k).val]? ∧ s.2[k.val]? = idx[(perm k).val]?

theorem arrangedAs_self (arr idx : List ℤ) : ArrangedAs arr idx (arr, idx) :=
  ⟨rfl, rfl, Equiv.refl _, fun _ => ⟨rfl, rfl⟩⟩

/-- The same exchange in both vectors. -/
theorem ArrangedAs.swapAt {arr idx : List ℤ} {s : List ℤ × List ℤ} (h : ArrangedAs arr idx s)
    (hlength : idx.length = arr.length) {i j : ℕ} (hi : i < arr.length) (hj : j < arr.length) :
    ArrangedAs arr idx (swapAt s.1 i j, swapAt s.2 i j) := by
  obtain ⟨harr, hidx, perm, hperm⟩ := h
  have hval (k : Fin arr.length) :
      (Equiv.swap (⟨i, hi⟩ : Fin arr.length) ⟨j, hj⟩ k).val = Equiv.swap i j k.val := by
    rw [Equiv.swap_apply_def, Equiv.swap_apply_def]
    simp only [Fin.ext_iff]
    split_ifs <;> rfl
  refine ⟨(length_swapAt _ _ _).trans harr, (length_swapAt _ _ _).trans hidx,
    (Equiv.swap ⟨i, hi⟩ ⟨j, hj⟩).trans perm, fun k => ?_⟩
  have hk := hperm (Equiv.swap ⟨i, hi⟩ ⟨j, hj⟩ k)
  rw [hval] at hk
  rw [getElem?_swapAt (by omega) (by omega), getElem?_swapAt (by omega) (by omega)]
  exact hk

/-- One more element goes to its place. -/
theorem selectionRound_spec (hle : Decides before le) {arr idx : List ℤ} {fuel i : ℕ}
    {s : List ℤ × List ℤ} (hlength : idx.length = arr.length) (hsize : arr.length < uint32Size)
    (hfuel : arr.length < fuel) (hi : i < arr.length) (hsettled : Settled le s.1 i)
    (harranged : ArrangedAs arr idx s) :
    ∃ s', selectionRound before fuel i s = .ok s' ∧ Settled le s'.1 (i + 1) ∧
      ArrangedAs arr idx s' := by
  obtain ⟨harr, hidx, -⟩ := id harranged
  have hsize' : s.1.length < uint32Size := by omega
  have hfuel' : s.1.length < fuel := by omega
  have hi' : i < s.1.length := by omega
  obtain ⟨best, hselect, hbest⟩ := selectFrom_spec hle hsize' hfuel' hi'
  have hplace : best.2 < s.1.length := (List.getElem?_eq_some_iff.mp hbest.value).1
  rw [selectionRound, hselect]
  show ∃ s', ((exchange s.1 best.2 i).bind _) = .ok s' ∧ _
  rw [exchange_of_lt hplace (by omega)]
  show ∃ s', ((exchange s.2 best.2 i).bind _) = .ok s' ∧ _
  rw [exchange_of_lt (by omega) (by omega)]
  refine ⟨_, rfl, hsettled.swapAt hbest.from_le hbest.value fun j b hj hb => ?_,
    harranged.swapAt hlength hi (by omega)⟩
  exact hbest.least j b hj (List.getElem?_eq_some_iff.mp hb).1 hb

theorem selectionLoop_spec (hle : Decides before le) {arr idx : List ℤ} {fuel : ℕ}
    (hlength : idx.length = arr.length) (hne : 0 < arr.length) (hsize : arr.length < uint32Size)
    (hfuel : arr.length < fuel) :
    ∃ s, selectionLoop before fuel arr idx = .ok s ∧ s.1.Pairwise le ∧ ArrangedAs arr idx s := by
  have hbound : sizeMinusOne arr.length = arr.length - 1 := sizeMinusOne_of_pos (by omega)
  rw [selectionLoop, hbound]
  obtain ⟨s, hs, hsettled, harranged⟩ :
      ∃ s, forUnsigned uint32Size (arr.length - 1) (selectionRound before fuel) fuel 0 (arr, idx) =
        .ok s ∧ Settled le s.1 (arr.length - 1) ∧ ArrangedAs arr idx s := by
    have hrounds : arr.length - 1 - 0 < fuel := by omega
    have hbelow : arr.length - 1 < uint32Size := by omega
    refine forUnsigned_rule (P := fun i s => Settled le s.1 i ∧ ArrangedAs arr idx s)
      hbelow hrounds (Nat.zero_le _) ⟨settled_zero le arr, arrangedAs_self arr idx⟩ ?_
    rintro i s - hi ⟨hsettled, harranged⟩
    exact selectionRound_spec hle hlength hsize hfuel (by omega) hsettled harranged
  refine ⟨s, hs, hsettled.pairwise ?_, harranged⟩
  rw [harranged.1]
  omega

/-! ### Lengths that the loops do not stand -/

/-- The first access to an empty vector is out of range. -/
theorem selectionLoop_nil (fuel : ℕ) (idx : List ℤ) {s : List ℤ × List ℤ} :
    selectionLoop before fuel [] idx ≠ .ok s := by
  refine forUnsigned_ne_ok_of_body (by decide) (fun t h => ?_) fuel
  cases h

/-- The inner loop over a vector of 2^32 or more elements does not end. -/
theorem selectionLoop_of_le {arr : List ℤ} (hsize : uint32Size ≤ arr.length) (fuel : ℕ)
    (idx : List ℤ) {s : List ℤ × List ℤ} : selectionLoop before fuel arr idx ≠ .ok s := by
  have hpos : 1 < arr.length := lt_of_lt_of_le (by decide) hsize
  have hbound : sizeMinusOne arr.length = arr.length - 1 := sizeMinusOne_of_pos (by omega)
  refine forUnsigned_ne_ok_of_body (by omega) (fun t h => ?_) fuel
  have hselect : ∀ best, selectFrom before fuel arr 0 ≠ .ok best := by
    intro best
    rw [selectFrom, readAt_of_lt (by omega)]
    exact forUnsigned_ne_ok hsize (by decide) fuel
  rw [selectionRound] at h
  cases hbest : selectFrom before fuel arr 0 with
  | error e =>
    rw [hbest] at h
    cases h
  | ok best => exact hselect best hbest

/-! ### What the sort is for -/

/-- The call returns, with `arr` in the direction asked for and `idx` moved along. -/
def SortsTogether (arr idx : List ℤ) (reverse : Bool) : Prop :=
  ∃ fuel s, swapSort fuel arr idx reverse = .ok s ∧
    s.1.Pairwise (fun a b => if reverse then b ≤ a else a ≤ b) ∧ ArrangedAs arr idx s

theorem decides_falling : Decides (fun a maxVal => a > maxVal) (fun a b => b ≤ a) where
  refl _ := le_rfl
  trans _ _ _ hab hbc := hbc.trans hab
  of_before _ _ h := (of_decide_eq_true h).le
  of_not_before _ _ h := not_lt.mp (of_decide_eq_false h)

theorem decides_rising : Decides (fun a minVal => a < minVal) (fun a b => a ≤ b) where
  refl _ := le_rfl
  trans _ _ _ hab hbc := hab.trans hbc
  of_before _ _ h := (of_decide_eq_true h).le
  of_not_before _ _ h := not_lt.mp (of_decide_eq_false h)

/-- **`swapSort` sorts both vectors together exactly when** they are not empty and their size is
a value of the counters. -/
theorem swapSort_sorts_iff {arr idx : List ℤ} (hlength : idx.length = arr.length)
    (reverse : Bool) :
    SortsTogether arr idx reverse ↔ 0 < arr.length ∧ arr.length < 2 ^ 32 := by
  have hloop : SortsTogether arr idx reverse → ∃ before fuel s,
      selectionLoop before fuel arr idx = .ok s := by
    rintro ⟨fuel, s, hs, -⟩
    rw [swapSort] at hs
    split_ifs at hs
    · exact ⟨_, fuel, s, hs⟩
    · exact ⟨_, fuel, s, hs⟩
  constructor
  · intro h
    obtain ⟨before, fuel, s, hs⟩ := hloop h
    constructor
    · by_contra hempty
      obtain rfl := List.length_eq_zero_iff.mp (Nat.eq_zero_of_not_pos hempty)
      exact selectionLoop_nil fuel idx hs
    · by_contra hlarge
      exact selectionLoop_of_le (not_lt.mp hlarge) fuel idx hs
  · rintro ⟨hne, hsize⟩
    cases reverse with
    | false =>
      obtain ⟨s, hs, hsorted, harranged⟩ :=
        selectionLoop_spec decides_rising hlength hne hsize (Nat.lt_succ_self _)
      exact ⟨_, s, (if_neg Bool.false_ne_true).trans hs, by simpa using hsorted, harranged⟩
    | true =>
      obtain ⟨s, hs, hsorted, harranged⟩ :=
        selectionLoop_spec decides_falling hlength hne hsize (Nat.lt_succ_self _)
      exact ⟨_, s, (if_pos rfl).trans hs, by simpa using hsorted, harranged⟩

theorem swapSort_sorts_iff_three :
    SortsTogether [2, 3, 1] [0, 1, 2] true ↔
      0 < [(2 : ℤ), 3, 1].length ∧ [(2 : ℤ), 3, 1].length < 2 ^ 32 := by
  have hlength : [(0 : ℤ), 1, 2].length = [(2 : ℤ), 3, 1].length := rfl
  exact swapSort_sorts_iff hlength true

/-- The empty vectors. -/
theorem not_sortsTogether :
    ¬ ∀ (arr idx : List ℤ) (reverse : Bool), idx.length = arr.length →
      SortsTogether arr idx reverse := by
  intro h
  obtain ⟨fuel, s, hs, -⟩ := h [] [] true rfl
  exact selectionLoop_nil fuel [] hs

end Base

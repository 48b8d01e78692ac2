/-
A registry of weak references and those who hold the values.

`reg k` is what the registry has under the key `k`; `holds i` is the value the holder `i`
keeps alive and the key it has it by.  The registry `Tracks` the holders when it has
exactly the values that are held, each under one key.

* `Tracks.eq_iff` — two holders have the same value exactly when they have the same key;
* `Tracks.share`, `Tracks.register` — a holder takes a value that is registered, or a new
  one under a free key;
* `Tracks.release`, `Tracks.release_last` — a holder leaves; the last one takes its key
  along.
-/
import Mathlib.Logic.Function.Basic

variable {κ ν ι : Type*}

/-- The registry has what is held, under the key every holder has it by. -/
structure Tracks (reg : κ → Option ν) (holds : ι → Option (κ × ν)) : Prop where
  registered : ∀ {i k v}, holds i = some (k, v) → reg k = some v
  held : ∀ {k v}, reg k = some v → ∃ i, holds i = some (k, v)
  one_key : ∀ {i i' k k' v}, holds i = some (k, v) → holds i' = some (k', v) → k = k'

namespace Tracks

variable {reg : κ → Option ν} {holds : ι → Option (κ × ν)} {i j : ι} {k k' : κ} {v v' : ν}

theorem empty : Tracks (fun _ : κ => (none : Option ν)) (fun _ : ι => none) :=
  ⟨by simp, by simp, by simp⟩

/-- A held value is registered under the holder's key and no other. -/
theorem registered_iff (h : Tracks reg holds) (hi : holds i = some (k, v)) :
    reg k' = some v ↔ k' = k := by
  constructor
  · intro hk'
    obtain ⟨j, hj⟩ := h.held hk'
    exact h.one_key hj hi
  · rintro rfl
    exact h.registered hi

theorem eq_iff (h : Tracks reg holds) (hi : holds i = some (k, v))
    (hj : holds j = some (k', v')) : v = v' ↔ k = k' := by
  constructor
  · rintro rfl
    exact h.one_key hi hj
  · rintro rfl
    have hv := h.registered hi
    rw [h.registered hj] at hv
    exact (Option.some.inj hv).symm

variable [DecidableEq ι]

theorem update_eq_some_iff {x : Option (κ × ν)} {p : κ × ν} :
    Function.update holds i x j = some p ↔ j = i ∧ x = some p ∨ j ≠ i ∧ holds j = some p := by
  rcases eq_or_ne j i with rfl | hne
  · simp
  · simp [hne]

theorem holds_of_update_none {p : κ × ν} (hj : Function.update holds i none j = some p) :
    j ≠ i ∧ holds j = some p := by
  rw [update_eq_some_iff] at hj
  simpa using hj

omit [DecidableEq ι] in
theorem ne_of_holds (hi : holds i = none) {p : κ × ν} (hj : holds j = some p) : j ≠ i := by
  rintro rfl
  rw [hi] at hj
  simp at hj

/-- The holders of `v` still agree on its key after one more takes it by that key. -/
theorem one_key_take (h : Tracks reg holds) (hv : ∀ {j l}, holds j = some (l, v) → l = k)
    {j' : ι} {l l' : κ} {w : ν}
    (hj : Function.update holds i (some (k, v)) j = some (l, w))
    (hj' : Function.update holds i (some (k, v)) j' = some (l', w)) : l = l' := by
  rw [update_eq_some_iff] at hj hj'
  obtain ⟨-, hj⟩ | ⟨-, hj⟩ := hj <;> obtain ⟨-, hj'⟩ | ⟨-, hj'⟩ := hj'
  · rw [hj] at hj'
    simp only [Option.some.injEq, Prod.mk.injEq, and_true] at hj'
    exact hj'
  · simp only [Option.some.injEq, Prod.mk.injEq] at hj
    obtain ⟨rfl, rfl⟩ := hj
    exact (hv hj').symm
  · simp only [Option.some.injEq, Prod.mk.injEq] at hj'
    obtain ⟨rfl, rfl⟩ := hj'
    exact hv hj
  · exact h.one_key hj hj'

/-- A holder of nothing takes a value that is registered. -/
theorem share (h : Tracks reg holds) (hi : holds i = none) (hk : reg k = some v) :
    Tracks reg (Function.update holds i (some (k, v))) := by
  obtain ⟨m, hm⟩ := h.held hk
  refine ⟨?_, ?_, h.one_key_take fun hj => h.one_key hj hm⟩
  · intro j l w hj
    rw [update_eq_some_iff] at hj
    obtain ⟨-, hj⟩ | ⟨-, hj⟩ := hj
    · simp only [Option.some.injEq, Prod.mk.injEq] at hj
      obtain ⟨rfl, rfl⟩ := hj
      exact hk
    · exact h.registered hj
  · intro l w hl
    obtain ⟨j, hj⟩ := h.held hl
    exact ⟨j, by rw [Function.update_of_ne (ne_of_holds hi hj), hj]⟩

/-- A holder leaves whose value another one still has. -/
theorem release (h : Tracks reg holds) (hi : holds i = some (k, v)) (hne : j ≠ i)
    (hj : holds j = some (k', v)) : Tracks reg (Function.update holds i none) := by
  refine ⟨?_, ?_, ?_⟩
  · intro m l w hm
    exact h.registered (holds_of_update_none hm).2
  · intro l w hl
    obtain ⟨m, hm⟩ := h.held hl
    rcases eq_or_ne m i with rfl | hmi
    · rw [hi] at hm
      simp only [Option.some.injEq, Prod.mk.injEq] at hm
      obtain ⟨rfl, rfl⟩ := hm
      have hk := h.one_key hj hi
      exact ⟨j, by rw [Function.update_of_ne hne, hj, hk]⟩
    · exact ⟨m, by rw [Function.update_of_ne hmi, hm]⟩
  · intro m m' l l' w hm hm'
    exact h.one_key (holds_of_update_none hm).2 (holds_of_update_none hm').2

/-- One that held nothing leaves nothing behind. -/
theorem update_none (h : Tracks reg holds) (hi : holds i = none) :
    Tracks reg (Function.update holds i none) := by
  rw [← hi, Function.update_eq_self]
  exact h

variable [DecidableEq κ]

/-- A value nobody holds is registered under a free key. -/
theorem register (h : Tracks reg holds) (hi : holds i = none) (hk : reg k = none)
    (hv : ∀ j l, holds j ≠ some (l, v)) :
    Tracks (Function.update reg k (some v)) (Function.update holds i (some (k, v))) := by
  refine ⟨?_, ?_, h.one_key_take fun hj => absurd hj (hv _ _)⟩
  · intro j l w hj
    rw [update_eq_some_iff] at hj
    obtain ⟨-, hj⟩ | ⟨-, hj⟩ := hj
    · simp only [Option.some.injEq, Prod.mk.injEq] at hj
      obtain ⟨rfl, rfl⟩ := hj
      exact Function.update_self ..
    · have hl := h.registered hj
      have hne : l ≠ k := by
        rintro rfl
        rw [hk] at hl
        simp at hl
      rw [Function.update_of_ne hne, hl]
  · intro l w hl
    rcases eq_or_ne l k with rfl | hne
    · rw [Function.update_self] at hl
      exact ⟨i, by rw [Function.update_self, Option.some.inj hl]⟩
    · rw [Function.update_of_ne hne] at hl
      obtain ⟨j, hj⟩ := h.held hl
      exact ⟨j, by rw [Function.update_of_ne (ne_of_holds hi hj), hj]⟩

/-- The last holder of a value leaves and its key is erased. -/
theorem release_last (h : Tracks reg holds) (hi : holds i = some (k, v))
    (hlast : ∀ j l, j ≠ i → holds j ≠ some (l, v)) :
    Tracks (Function.update reg k none) (Function.update holds i none) := by
  refine ⟨?_, ?_, ?_⟩
  · intro j l w hj
    obtain ⟨hji, hj⟩ := holds_of_update_none hj
    have hne : l ≠ k := by
      rintro rfl
      have hw := (h.eq_iff hj hi).mpr rfl
      exact hlast j l hji (hw ▸ hj)
    rw [Function.update_of_ne hne, h.registered hj]
  · intro l w hl
    rcases eq_or_ne l k with rfl | hne
    · simp at hl
    · rw [Function.update_of_ne hne] at hl
      obtain ⟨j, hj⟩ := h.held hl
      have hji : j ≠ i := by
        rintro rfl
        rw [hi] at hj
        simp only [Option.some.injEq, Prod.mk.injEq] at hj
        exact hne hj.1.symm
      exact ⟨j, by rw [Function.update_of_ne hji, hj]⟩
  · intro j j' l l' w hj hj'
    exact h.one_key (holds_of_update_none hj).2 (holds_of_update_none hj').2

end Tracks

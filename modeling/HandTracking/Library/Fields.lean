/-
Records with strings at fixed places.

A record is a list; a string is written over a part of it, and the rest of the record stays.

* `overwrite` — the write, `getElem?_overwrite` — the record after it, place by place;
* `HasAt` — the record holds a string at an offset; a write elsewhere leaves it
  (`HasAt.overwrite`), and reading from the offset on finds it first (`HasAt.drop_eq`);
* `hasAt_writeAll` — after writes that are apart, all strings stand in the record.
-/
import Mathlib.Data.List.Basic
import Mathlib.Tactic.Common

namespace Fields

variable {α : Type} {record s t : List α} {o p i : ℕ}

/-- A record with a field written over what it held there. -/
def overwrite (record : List α) (o : ℕ) (s : List α) : List α :=
  record.take o ++ s ++ record.drop (o + s.length)

/-- The string stands in the record from the offset on. -/
def HasAt (record : List α) (o : ℕ) (s : List α) : Prop :=
  ∀ i, i < s.length → record[o + i]? = s[i]?

theorem length_overwrite (h : o + s.length ≤ record.length) :
    (overwrite record o s).length = record.length := by
  simp only [overwrite, List.length_append, List.length_take, List.length_drop]
  omega

theorem getElem?_overwrite (h : o + s.length ≤ record.length) (i : ℕ) :
    (overwrite record o s)[i]? =
      if o ≤ i ∧ i < o + s.length then s[i - o]? else record[i]? := by
  have htake : (record.take o).length = o := by rw [List.length_take]; omega
  unfold overwrite
  by_cases hleft : i < o
  · rw [List.append_assoc, List.getElem?_append_left (by omega), List.getElem?_take_of_lt hleft,
      if_neg (by omega)]
  rw [List.append_assoc, List.getElem?_append_right (by omega), htake]
  by_cases hright : i < o + s.length
  · rw [List.getElem?_append_left (by omega), if_pos (by omega)]
  · rw [List.getElem?_append_right (by omega), List.getElem?_drop, if_neg (by omega)]
    congr 1
    omega

theorem hasAt_overwrite (h : o + s.length ≤ record.length) :
    HasAt (overwrite record o s) o s := by
  intro i hi
  rw [getElem?_overwrite h, if_pos (by omega), Nat.add_sub_cancel_left]

/-- Two strings side by side. -/
theorem HasAt.overwrite (hs : HasAt record o s) (h : p + t.length ≤ record.length)
    (hdisjoint : p + t.length ≤ o ∨ o + s.length ≤ p) :
    HasAt (Fields.overwrite record p t) o s := by
  intro i hi
  rw [getElem?_overwrite h, if_neg (by omega), hs i hi]

theorem HasAt.drop_eq (hs : HasAt record o s) :
    record.drop o = s ++ record.drop (o + s.length) := by
  refine List.ext_getElem? fun i => ?_
  rw [List.getElem?_drop]
  by_cases hi : i < s.length
  · rw [List.getElem?_append_left hi, hs i hi]
  · rw [List.getElem?_append_right (by omega), List.getElem?_drop]
    congr 1
    omega

/-- Writes behind the first places leave them. -/
theorem take_overwrite (h : o + s.length ≤ record.length) {n : ℕ} (hn : n ≤ o) :
    (overwrite record o s).take n = record.take n := by
  refine List.ext_getElem? fun i => ?_
  simp only [List.getElem?_take]
  split
  · rw [getElem?_overwrite h, if_neg (by omega)]
  · rfl

/-- Writes before the last places leave them. -/
theorem drop_overwrite (h : o + s.length ≤ record.length) {n : ℕ} (hn : o + s.length ≤ n) :
    (overwrite record o s).drop n = record.drop n := by
  refine List.ext_getElem? fun i => ?_
  rw [List.getElem?_drop, List.getElem?_drop, getElem?_overwrite h, if_neg (by omega)]

/-! ### Many fields -/

/-- Fields are strings with their offsets; they are written in this order. -/
def writeAll (record : List α) (fields : List (ℕ × List α)) : List α :=
  fields.foldl (fun record field => overwrite record field.1 field.2) record

/-- Two fields do not overlap. -/
def Apart (f g : ℕ × List α) : Prop := f.1 + f.2.length ≤ g.1 ∨ g.1 + g.2.length ≤ f.1

variable {fields : List (ℕ × List α)} {f : ℕ × List α}

theorem length_writeAll (hfit : ∀ f ∈ fields, f.1 + f.2.length ≤ record.length) :
    (writeAll record fields).length = record.length := by
  induction fields generalizing record with
  | nil => rfl
  | cons g fields ih =>
    have hlength := length_overwrite (hfit g List.mem_cons_self)
    exact (ih fun f hf => by rw [hlength]; exact hfit f (List.mem_cons_of_mem g hf)).trans hlength

theorem HasAt.writeAll (hs : HasAt record f.1 f.2)
    (hfit : ∀ g ∈ fields, g.1 + g.2.length ≤ record.length) (hapart : ∀ g ∈ fields, Apart f g) :
    HasAt (Fields.writeAll record fields) f.1 f.2 := by
  induction fields generalizing record with
  | nil => exact hs
  | cons g fields ih =>
    have hlength := length_overwrite (hfit g List.mem_cons_self)
    exact ih (hs.overwrite (hfit g List.mem_cons_self) (hapart g List.mem_cons_self).symm)
      (fun g' hg' => by rw [hlength]; exact hfit g' (List.mem_cons_of_mem g hg'))
      fun g' hg' => hapart g' (List.mem_cons_of_mem g hg')

/-- Fields that are apart all stand in the record. -/
theorem hasAt_writeAll (hfit : ∀ f ∈ fields, f.1 + f.2.length ≤ record.length)
    (hapart : fields.Pairwise Apart) (hf : f ∈ fields) :
    HasAt (writeAll record fields) f.1 f.2 := by
  induction fields generalizing record with
  | nil => cases hf
  | cons g fields ih =>
    obtain ⟨hg, hfields⟩ := List.pairwise_cons.mp hapart
    have hroom := hfit g List.mem_cons_self
    have hlength := length_overwrite hroom
    have hfit' : ∀ g' ∈ fields, g'.1 + g'.2.length ≤ (overwrite record g.1 g.2).length :=
      fun g' hg' => by rw [hlength]; exact hfit g' (List.mem_cons_of_mem g hg')
    obtain rfl | hf := List.mem_cons.mp hf
    · exact (hasAt_overwrite hroom).writeAll hfit' hg
    · exact ih hfit' hfields hf

end Fields

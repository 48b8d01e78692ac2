/-
The list of the file names of an archive in memory.

The loop ignores whether the step to the next header succeeds.  What it relies on is that this step
goes forward, and the size of the file decides that: it is rounded up, and the position after it
computed, with 32 bits.

* `EndsIn` — the names with a suffix; `hasSuffix_iff` — they are those that the loop takes;
* `listFrom` — the names from a position on; `exec_filenamesLoop` — these are the ones of the loop;
* `pass` — one pass of the loop; `Archive.Visited` — the positions that it comes to;
* `listing_iff` — the loop ends and goes forward with every pass, exactly if no size that it comes
  to takes the sum around.
-/
import HandTracking.MicrotarMemory
import Mathlib.Logic.Relation

namespace Microtar

open Reader Relation

namespace Archive

variable (arc : Archive) (unset : BitVec 32 → Unset)

/-! ### The loop -/

/-- The names that are listed from a position on, and the error that ends the list, or the header
that is too long. -/
def listFrom (suffix : Option Bytes) : ℕ → List Bytes → BitVec 32 → Option (List Bytes × MtarErr)
  | 0, _, _ => none
  | fuel + 1, names, p =>
    match arc.headerAt unset p with
    | .error err => some (names, err)
    | .ok h =>
      listFrom suffix fuel (if hasSuffix suffix h.name then names ++ [h.name] else names)
        (following p h)

/-- What the loop gives of a list. -/
def listed : Option (List Bytes × MtarErr) → Except MtarErr (Option (List Bytes × MtarErr))
  | none => .ok none
  | some (names, err) => if err = .overrun then .error .overrun else .ok (some (names, err))

/-- One pass of the loop of `mtar_get_filtered_filenames`: the state after it, unless the loop
ends. -/
def pass (s : Mtar × ℕ) : Option (Mtar × ℕ) :=
  match exec arc.stream (mtarReadHeader unset) s with
  | (.ok _, s') => some (exec arc.stream (mtarNext unset) s').2
  | (.error _, _) => none

/-- From one head of the loop to another. -/
abbrev Passes : Mtar × ℕ → Mtar × ℕ → Prop :=
  ReflTransGen fun s s' => arc.pass unset s = some s'

/-- The positions of the headers that are read after the first. -/
def Visited : BitVec 32 → Prop :=
  ReflTransGen (fun p q => ∃ h, arc.headerAt unset p = .ok h ∧ q = following p h) 0

variable {arc unset} {suffix : Option Bytes} {p : BitVec 32} {h : MtarHeader} {s s' : Mtar × ℕ}

theorem exec_filenamesLoop (fuel : ℕ) (names : List Bytes) (hs : arc.At p s) :
    (exec arc.stream (filenamesLoop unset suffix fuel names) s).1 =
      listed (arc.listFrom unset suffix fuel names p) := by
  induction fuel generalizing names p s with
  | zero => rfl
  | succ fuel ih =>
    unfold filenamesLoop listFrom
    have hread : (exec arc.stream (mtarReadHeader unset) s).1 = _ := exec_readHeader hs
    cases hh : arc.headerAt unset p with
    | error err =>
      rw [hh] at hread
      by_cases herr : err = .overrun
      · rw [herr] at hread ⊢
        rw [exec_attempt_overrun (Prod.ext hread rfl)]
        rfl
      · rw [exec_attempt_bind (Prod.ext hread rfl) (by simpa using herr)]
        exact (if_neg herr).symm
    | ok h =>
      rw [exec_attempt_bind (exec_readHeader_ok hs hh) (by simp)]
      obtain ⟨r, s', hnext, hr, -, hat⟩ := exec_next (at_readHeader hs hh) hh
      dsimp only
      rw [exec_attempt_bind hnext hr]
      exact ih _ hat

theorem exec_mtarGetFilteredFilenames (fuel : ℕ) (s : Mtar × ℕ) :
    (exec arc.stream (mtarGetFilteredFilenames unset fuel suffix) s).1 =
      (listed (arc.listFrom unset suffix fuel [] 0)).map (Option.map fun r =>
        (r.1, if r.2 = .nullRecord then .ok () else .error r.2)) := by
  unfold mtarGetFilteredFilenames
  rw [exec_attempt_bind (exec_rewind s) (by simp), ← exec_filenamesLoop fuel [] at_rewind]
  cases hloop : exec arc.stream (filenamesLoop unset suffix fuel []) (⟨0, 0, 0⟩, 0) with
  | mk r s' =>
    cases r with
    | ok names => rw [exec_bind_ok hloop, exec_pure]; rfl
    | error err => rw [exec_bind_error hloop]; rfl

/-! ### The suffix -/

/-- The part of the name from its last dot on is the suffix; without a suffix, any name. -/
def EndsIn (suffix : Option Bytes) (name : Bytes) : Prop :=
  ∀ s, suffix = some s → ∃ stem ext, name = stem ++ 46 :: ext ∧ 46 ∉ ext ∧ cString s = 46 :: ext

/-- The search from the end of the name. -/
theorem takeWhile_reverse_eq {stem ext : Bytes} (hext : 46 ∉ ext) :
    ((stem ++ 46 :: ext).reverse.takeWhile (· ≠ 46)).reverse = ext := by
  have hall : ∀ c ∈ ext.reverse, decide (c ≠ 46) = true := by
    intro c hc
    rw [decide_eq_true_eq]
    rintro rfl
    exact hext (List.mem_reverse.mp hc)
  rw [List.reverse_append, List.reverse_cons, List.append_assoc,
    List.takeWhile_append_of_pos hall, List.singleton_append,
    List.takeWhile_cons_of_neg (by decide), List.append_nil, List.reverse_reverse]

theorem exists_last_dot {name : Bytes} (hdot : 46 ∈ name) :
    ∃ stem ext, name = stem ++ 46 :: ext ∧ 46 ∉ ext := by
  induction name with
  | nil => cases hdot
  | cons c name ih =>
    by_cases hrest : 46 ∈ name
    · obtain ⟨stem, ext, rfl, hext⟩ := ih hrest
      exact ⟨c :: stem, ext, rfl, hext⟩
    · obtain rfl | hmem := List.mem_cons.mp hdot
      · exact ⟨[], name, rfl, hrest⟩
      · exact absurd hmem hrest

theorem hasSuffix_iff (suffix : Option Bytes) (name : Bytes) :
    hasSuffix suffix name = true ↔ EndsIn suffix name := by
  cases suffix with
  | none => exact iff_of_true rfl fun s hs => by cases hs
  | some s =>
    simp only [hasSuffix, EndsIn, Option.some.injEq, forall_eq', Bool.and_eq_true,
      List.contains_iff_mem, decide_eq_true_eq]
    constructor
    · rintro ⟨hdot, heq⟩
      obtain ⟨stem, ext, rfl, hext⟩ := exists_last_dot hdot
      rw [takeWhile_reverse_eq hext] at heq
      exact ⟨stem, ext, rfl, hext, heq.symm⟩
    · rintro ⟨stem, ext, rfl, hext, heq⟩
      rw [takeWhile_reverse_eq hext]
      exact ⟨by simp, heq.symm⟩

instance (suffix : Option Bytes) : DecidablePred (EndsIn suffix) := fun name =>
  decidable_of_iff _ (hasSuffix_iff suffix name)

/-! ### The passes -/

theorem pass_of_ok (hs : arc.At p s) (hh : arc.headerAt unset p = .ok h) :
    ∃ s', arc.pass unset s = some s' ∧ arc.At (following p h) s' := by
  obtain ⟨r, s', hnext, -, -, hat⟩ := exec_next (at_readHeader hs hh) hh
  unfold pass
  rw [exec_readHeader_ok hs hh]
  dsimp only
  rw [hnext]
  exact ⟨s', rfl, hat⟩

theorem headerAt_of_pass (hs : arc.At p s) (hpass : arc.pass unset s = some s') :
    ∃ h, arc.headerAt unset p = .ok h ∧ arc.At (following p h) s' := by
  cases hh : arc.headerAt unset p with
  | error err =>
    have hread : (exec arc.stream (mtarReadHeader unset) s).1 = _ := exec_readHeader hs
    unfold pass at hpass
    rw [hh] at hread
    split at hpass
    next heq => simp [heq] at hread
    next => simp at hpass
  | ok h =>
    obtain ⟨s'', hpass', hat⟩ := pass_of_ok hs hh
    obtain rfl : s' = s'' := by simpa [hpass] using hpass'
    exact ⟨h, rfl, hat⟩

theorem visited_of_passes (hp : arc.Passes unset (⟨0, 0, 0⟩, 0) s) :
    arc.Visited unset s.1.pos ∧ arc.At s.1.pos s := by
  induction hp with
  | refl => exact ⟨.refl, at_rewind⟩
  | tail _ hpass ih =>
    obtain ⟨hvisited, hat⟩ := ih
    obtain ⟨h, hh, hat'⟩ := headerAt_of_pass hat hpass
    rw [hat'.1]
    exact ⟨hvisited.tail ⟨h, hh, rfl⟩, hat'⟩

theorem passes_of_visited (hp : arc.Visited unset p) :
    ∃ s, arc.Passes unset (⟨0, 0, 0⟩, 0) s ∧ arc.At p s := by
  induction hp with
  | refl => exact ⟨_, .refl, at_rewind⟩
  | tail _ hstep ih =>
    obtain ⟨s, hs, hat⟩ := ih
    obtain ⟨h, hh, rfl⟩ := hstep
    obtain ⟨s', hpass, hat'⟩ := pass_of_ok hat hh
    exact ⟨s', hs.tail hpass, hat'⟩

/-! ### The size of a file -/

/-- A size in whole records. -/
def wholeRecords (size : ℕ) : ℕ := (size + 511) / 512 * 512

theorem roundUp_toNat (n : BitVec 32) :
    (roundUp n 512).toNat = if 2 ^ 32 - 512 < n.toNat then 0 else wholeRecords n.toNat := by
  have hn := n.isLt
  have h512 : (512 : BitVec 32).toNat = 512 := rfl
  unfold roundUp wholeRecords
  rw [BitVec.toNat_add, BitVec.toNat_umod, BitVec.toNat_sub, BitVec.toNat_umod, h512]
  split <;> omega

/-- The size is so large that it is rounded to zero, or small enough. -/
def SizeFits (p : BitVec 32) (h : MtarHeader) : Prop :=
  2 ^ 32 - 512 < h.size.toNat ∨ p.toNat + wholeRecords h.size.toNat + 512 < 2 ^ 32

theorem lt_following_iff (hh : arc.headerAt unset p = .ok h) :
    p < following p h ↔ SizeFits p h := by
  have hroom := (headerAt_ok hh).1
  have hlen : arc.len < 2 ^ 32 := arc.length_lt
  have h512 : (512 : BitVec 32).toNat = 512 := rfl
  have hsize := h.size.isLt
  rw [BitVec.lt_def]
  unfold following SizeFits
  rw [BitVec.toNat_add, BitVec.toNat_add, roundUp_toNat, h512]
  by_cases hround : 2 ^ 32 - 512 < h.size.toNat
  · rw [if_pos hround]
    exact iff_of_true (by omega) (.inl hround)
  · rw [if_neg hround]
    unfold wholeRecords
    omega

/-! ### The list ends -/

/-- `mtar_get_filtered_filenames` returns, on a reader in some state. -/
def Ends (arc : Archive) (unset : BitVec 32 → Unset) (suffix : Option Bytes) (s : Mtar × ℕ) :
    Prop :=
  ∃ fuel list, (exec arc.stream (mtarGetFilteredFilenames unset fuel suffix) s).1 = .ok (some list)

/-- Every pass of its loop that does not end it goes forward. -/
def Advances (arc : Archive) (unset : BitVec 32 → Unset) (s : Mtar × ℕ) : Prop :=
  ∀ head next, arc.Passes unset (exec arc.stream mtarRewind s).2 head →
    arc.pass unset head = some next → head.1.pos < next.1.pos

theorem ends_iff (s : Mtar × ℕ) :
    arc.Ends unset suffix s ↔
      ∃ fuel names err, arc.listFrom unset suffix fuel [] 0 = some (names, err) ∧
        err ≠ .overrun := by
  unfold Ends
  refine exists_congr fun fuel => ?_
  rw [exec_mtarGetFilteredFilenames]
  cases hlist : arc.listFrom unset suffix fuel [] 0 with
  | none => exact iff_of_false (by simp [listed, Except.map]) (by simp)
  | some r =>
    obtain ⟨names, err⟩ := r
    by_cases herr : err = .overrun
    · simp [listed, herr, Except.map]
    · simp [listed, herr, Except.map]

theorem advances_iff (s : Mtar × ℕ) :
    arc.Advances unset s ↔
      ∀ p h, arc.Visited unset p → arc.headerAt unset p = .ok h → SizeFits p h := by
  unfold Advances
  rw [exec_rewind]
  constructor
  · intro hadv p h hvisited hh
    obtain ⟨head, hhead, hat⟩ := passes_of_visited hvisited
    obtain ⟨next, hpass, hat'⟩ := pass_of_ok hat hh
    have hlt := hadv head next hhead hpass
    rw [hat.1, hat'.1] at hlt
    exact (lt_following_iff hh).mp hlt
  · intro hfits head next hhead hpass
    obtain ⟨hvisited, hat⟩ := visited_of_passes hhead
    obtain ⟨h, hh, hat'⟩ := headerAt_of_pass hat hpass
    rw [hat'.1]
    exact (lt_following_iff hh).mpr (hfits _ h hvisited hh)

/-- Positions that go forward come to an end. -/
theorem exists_listFrom (suffix : Option Bytes)
    (hfits : ∀ p h, arc.Visited unset p → arc.headerAt unset p = .ok h → SizeFits p h)
    (names : List Bytes) (hp : arc.Visited unset p) :
    ∃ fuel names' err q, arc.listFrom unset suffix fuel names p = some (names', err) ∧
      arc.Visited unset q ∧ arc.headerAt unset q = .error err := by
  induction hn : 2 ^ 32 - p.toNat using Nat.strong_induction_on generalizing p names with
  | _ n ih =>
    cases hh : arc.headerAt unset p with
    | error err => exact ⟨1, names, err, p, by simp [listFrom, hh], hp, hh⟩
    | ok h =>
      have hlt := BitVec.lt_def.mp ((lt_following_iff hh).mpr (hfits p h hp hh))
      have hbound := (following p h).isLt
      obtain ⟨fuel, names', err, q, hlist, hq⟩ := ih (2 ^ 32 - (following p h).toNat) (by omega)
        (if hasSuffix suffix h.name then names ++ [h.name] else names)
        (hp.tail ⟨h, hh, rfl⟩) rfl
      exact ⟨fuel + 1, names', err, q, by simpa only [listFrom, hh] using hlist, hq⟩

/-- A list that ends does so at the first header that cannot be read. -/
theorem err_of_listFrom {fuel : ℕ} {names names' : List Bytes} {err err' : MtarErr}
    (hp : arc.Visited unset p) (hh : arc.headerAt unset p = .error err)
    (hlist : arc.listFrom unset suffix fuel names 0 = some (names', err')) : err' = err := by
  suffices hfrom : ∀ q fuel names, ReflTransGen
      (fun p q => ∃ h, arc.headerAt unset p = .ok h ∧ q = following p h) q p →
        arc.listFrom unset suffix fuel names q = some (names', err') → err' = err from
    hfrom 0 fuel names hp hlist
  intro q fuel names hq hlist
  induction hq using ReflTransGen.head_induction_on generalizing fuel names with
  | refl =>
    cases fuel with
    | zero => cases hlist
    | succ fuel =>
      simp only [listFrom, hh, Option.some.injEq, Prod.mk.injEq] at hlist
      exact hlist.2.symm
  | head hstep _ ih =>
    obtain ⟨h, hok, rfl⟩ := hstep
    cases fuel with
    | zero => cases hlist
    | succ fuel =>
      simp only [listFrom, hok] at hlist
      exact ih _ _ hlist

/-- Called on a reader in any state, the loop ends and goes forward with every pass, exactly if none
of the headers that it comes to has texts that leave it when they are copied, or a size that takes
the sum around to a position at or before the header. -/
theorem listing_iff (arc : Archive) (unset : BitVec 32 → Unset) (suffix : Option Bytes)
    (s : Mtar × ℕ) :
    (arc.Ends unset suffix s ∧ arc.Advances unset s) ↔
      ∀ p, arc.Visited unset p → arc.headerAt unset p ≠ .error .overrun ∧
        ∀ h, arc.headerAt unset p = .ok h → SizeFits p h := by
  rw [ends_iff, advances_iff]
  constructor
  · rintro ⟨⟨fuel, names, err, hlist, herr⟩, hfits⟩ p hp
    refine ⟨fun hh => herr (err_of_listFrom hp hh hlist), fun h => hfits p h hp⟩
  · intro hall
    have hfits : ∀ p h, arc.Visited unset p → arc.headerAt unset p = .ok h → SizeFits p h :=
      fun p h hp => (hall p hp).2 h
    obtain ⟨fuel, names, err, q, hlist, hq, hh⟩ := exists_listFrom suffix hfits [] .refl
    refine ⟨⟨fuel, names, err, hlist, ?_⟩, hfits⟩
    rintro rfl
    exact (hall q hq).1 hh

/-- A loop that goes back to the first header never ends. -/
theorem not_ends_of_following_zero (hh : arc.headerAt unset 0 = .ok h) (hback : following 0 h = 0)
    (s : Mtar × ℕ) : ¬ arc.Ends unset suffix s := by
  rw [ends_iff]
  rintro ⟨fuel, names, err, hlist, -⟩
  suffices hnone : ∀ fuel names, arc.listFrom unset suffix fuel names 0 = none by
    rw [hnone] at hlist
    cases hlist
  clear hlist
  intro fuel
  induction fuel with
  | zero => exact fun _ => rfl
  | succ fuel ih =>
    intro names
    simp only [listFrom, hh, hback, ih]

/-- A file whose size takes the position around to its own header. -/
def circular : Archive := ⟨headerToRaw (regular [97] (-512)) ++ [0], by decide +kernel⟩

theorem not_ends_circular :
    (exec circular.stream (mtarReadHeader zeros) (Mtar.opened, 0)).1 =
        .ok (regular [97] (-512)) ∧
      ¬ circular.Ends zeros none (Mtar.opened, 0) :=
  ⟨by decide +kernel,
    not_ends_of_following_zero (h := regular [97] (-512)) (by decide +kernel) (by decide) _⟩

end Archive

end Microtar

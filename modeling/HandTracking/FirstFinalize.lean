/-
The first `finalize` of a `CoordTransformService`, over transforms from any group.

`setTransform` stores a transform and its inverse.  `finalize` is a total function: the search
terminates for every table.

* `setTransforms` — a sequence of calls of `setTransform` on a fresh service;
* `isOk_finalize_iff` — `finalize` succeeds on it iff the pairs connect all systems;
* `first_finalize` — and if the composition around every cycle of the set entries is the
  identity, the entries are the changes between frames.
-/
import HandTracking.CoordTransformService
import HandTracking.Library.Walks
import Mathlib.Algebra.Group.TypeTags.Basic
import Mathlib.Combinatorics.SimpleGraph.Connectivity.Connected

namespace Coord

open Walks

/-- The arguments of a call of `setTransform`. -/
structure SetTransform (N : ℕ) (G : Type) where
  frm : Fin N
  dst : Fin N
  transform : G

namespace CoordTransformService

variable {N : ℕ} {G : Type} [Inv G]

/-- `setTransform`: an edge and the edge back. -/
def setTransform (s : CoordTransformService N G) (c : SetTransform N G) :
    CoordTransformService N G :=
  s.setBoth c.frm c.dst c.transform c.transform⁻¹

/-- The calls one after another, on a fresh service. -/
def setTransforms [One G] (calls : List (SetTransform N G)) : CoordTransformService N G :=
  calls.foldl setTransform .init

/-- The undirected graph of the pairs that are set. -/
def setGraph (calls : List (SetTransform N G)) : SimpleGraph (Fin N) :=
  .fromRel fun i j => ∃ c ∈ calls, c.frm = i ∧ c.dst = j

theorem transformSet_setTransform {s : CoordTransformService N G} {c : SetTransform N G}
    {i j : Fin N} : (s.setTransform c).transformSet (i, j) ↔
      s.transformSet (i, j) ∨ c.frm = i ∧ c.dst = j ∨ c.frm = j ∧ c.dst = i := by
  show Function.update (Function.update s.transformSet (c.frm, c.dst) true) (c.dst, c.frm) true
    (i, j) ↔ _
  by_cases hback : (i, j) = (c.dst, c.frm)
  · obtain ⟨rfl, rfl⟩ := Prod.mk.inj hback
    simp
  · rw [Function.update_of_ne hback]
    by_cases hforth : (i, j) = (c.frm, c.dst)
    · obtain ⟨rfl, rfl⟩ := Prod.mk.inj hforth
      simp
    · rw [Function.update_of_ne hforth]
      rw [Prod.mk.injEq] at hback hforth
      constructor
      · exact Or.inl
      · rintro (hset | ⟨hi, hj⟩ | ⟨hj, hi⟩)
        · exact hset
        · exact absurd ⟨hi.symm, hj.symm⟩ hforth
        · exact absurd ⟨hi.symm, hj.symm⟩ hback

variable [One G]

theorem setTransforms_concat (calls : List (SetTransform N G)) (c : SetTransform N G) :
    setTransforms (calls ++ [c]) = (setTransforms calls).setTransform c := by
  rw [setTransforms, List.foldl_append]
  rfl

theorem transformSet_setTransforms {calls : List (SetTransform N G)} {i j : Fin N} :
    (setTransforms calls).transformSet (i, j) ↔
      ∃ c ∈ calls, c.frm = i ∧ c.dst = j ∨ c.frm = j ∧ c.dst = i := by
  induction calls using List.reverseRecOn with
  | nil => simp [setTransforms, init]
  | append_singleton calls c ih =>
    rw [setTransforms_concat, transformSet_setTransform, ih]
    simp only [List.mem_append, List.mem_singleton, or_and_right, exists_or, exists_eq_left]

/-- Two systems are joined by the graph iff there is a path of entries. -/
theorem reachable_iff {calls : List (SetTransform N G)} {i j : Fin N} :
    (setGraph calls).Reachable i j ↔
      Relation.ReflTransGen (fun x y => (setTransforms calls).transformSet (x, y)) i j := by
  have hset : ∀ x y, (setGraph calls).Adj x y ↔
      x ≠ y ∧ (setTransforms calls).transformSet (x, y) := by
    intro x y
    rw [setGraph, SimpleGraph.fromRel_adj, transformSet_setTransforms, ← exists_or]
    simp only [and_or_left]
  rw [SimpleGraph.reachable_iff_reflTransGen]
  constructor
  · exact Relation.ReflTransGen.mono (fun x y h => ((hset x y).mp h).2) i j
  · intro h
    induction h with
    | refl => exact .refl
    | @tail x y _ hxy ih =>
      by_cases heq : x = y
      · exact heq ▸ ih
      · exact .tail ih ((hset x y).mpr ⟨heq, hxy⟩)

/-! ### When `finalize` succeeds -/

theorem connected_iff {calls : List (SetTransform N G)} :
    (setTransforms calls).Connected ↔ (setGraph calls).Preconnected := by
  constructor
  · intro h i j
    by_cases heq : i = j
    · exact heq ▸ .refl i
    · exact reachable_iff.mpr (h i j heq).to_reflTransGen
  · intro h i j hne
    rcases Relation.reflTransGen_iff_eq_or_transGen.mp (reachable_iff.mp (h i j)) with heq | hpath
    · exact absurd heq.symm hne
    · exact hpath

/-- `finalize` only derives entries along paths. -/
theorem preconnected_of_finalize [Mul G] {calls : List (SetTransform N G)}
    {s : CoordTransformService N G} (h : (setTransforms calls).finalize = .ok s) :
    (setGraph calls).Preconnected := by
  have hok := finalize_ok (Q := fun s => ∀ i j, s.transformSet (i, j) →
      (setGraph calls).Reachable i j) ?_ ?_ h
  · intro i j
    by_cases heq : i = j
    · exact heq ▸ .refl i
    · exact hok.1 i j (hok.2 i j heq)
  · intro s frm i dst hs hi hdst x y hset
    rcases transformSet_derive.mp hset with heq | hold
    · obtain ⟨rfl, rfl⟩ := Prod.mk.inj heq
      exact (hs x i hi).trans (hs i y hdst)
    · exact hs x y hold
  · exact fun i j hset => reachable_iff.mpr (.single hset)

theorem exists_finalize_iff [Mul G] (calls : List (SetTransform N G)) :
    (∃ s, (setTransforms calls).finalize = .ok s) ↔ (setGraph calls).Preconnected := by
  constructor
  · rintro ⟨s, h⟩
    exact preconnected_of_finalize h
  · exact fun h => exists_finalize (connected_iff.mpr h)

/-! ### What it leaves -/

/-- An entry that is not set is the identity it was made as. -/
def Blank (s : CoordTransformService N G) : Prop :=
  ∀ e, s.transformSet e = false → s.transforms e = 1

omit [Inv G] in
theorem blank_init : Blank (init : CoordTransformService N G) := fun _ _ => rfl

omit [Inv G] in
theorem Blank.setTransformInternal {s : CoordTransformService N G} (h : s.Blank)
    (frm dst : Fin N) (t : G) : (s.setTransformInternal frm dst t).Blank := by
  intro e hunset
  have hne : e ≠ (frm, dst) := by
    rintro rfl
    exact absurd hunset (by simp [CoordTransformService.setTransformInternal])
  have hold : Function.update s.transformSet (frm, dst) true e = false := hunset
  rw [Function.update_of_ne hne] at hold
  show Function.update s.transforms (frm, dst) t e = 1
  rw [Function.update_of_ne hne]
  exact h e hold

theorem blank_setTransforms (calls : List (SetTransform N G)) : (setTransforms calls).Blank := by
  induction calls using List.reverseRecOn with
  | nil => exact blank_init
  | append_singleton calls c ih =>
    rw [setTransforms_concat]
    exact (ih.setTransformInternal _ _ _).setTransformInternal _ _ _

variable {G : Type} [Group G]

/-- The composition around every cycle of the set entries is the identity. -/
def ConsistentCycles (s : CoordTransformService N G) : Prop :=
  Balanced (fun e => s.transformSet e) s.transforms

/-- On a consistent table all entries become the changes between frames. -/
theorem exists_frames_finalize {calls : List (SetTransform N G)} [Nonempty (Fin N)]
    (hcycles : (setTransforms calls).ConsistentCycles) {s : CoordTransformService N G}
    (h : (setTransforms calls).finalize = .ok s) :
    ∃ P : Fin N → Gˣ, ∀ i j, s.getTransform i j = Frames.change P i j := by
  have hconnected := preconnected_of_finalize h
  obtain ⟨P, hP⟩ := exists_frames
    (fun i j => IsWalk.of_reflTransGen (reachable_iff.mp (hconnected i j))) hcycles
  obtain ⟨⟨hconsistent, hblank⟩, hset⟩ := finalize_ok
    (Q := fun s => Consistent P s ∧ s.Blank)
    (fun s frm i dst hs hi hdst =>
      ⟨hs.1.derive hi hdst, hs.2.setTransformInternal _ _ _⟩)
    ⟨hP, blank_setTransforms calls⟩ h
  refine ⟨P, fun i j => ?_⟩
  cases hij : s.transformSet (i, j) with
  | true => exact hconsistent i j hij
  | false =>
    -- only an entry from a system to itself stays blank
    have heq : i = j := by
      by_contra hne
      exact absurd (hset i j hne) (by rw [hij]; exact Bool.false_ne_true)
    subst heq
    rw [Frames.change_self]
    exact hblank _ hij

/-- The first `finalize`, for every sequence of calls of `setTransform`. -/
theorem first_finalize (calls : List (SetTransform N G)) :
    ((∃ s, (setTransforms calls).finalize = .ok s) ↔ (setGraph calls).Preconnected) ∧
      ((setTransforms calls).ConsistentCycles → ∀ s, (setTransforms calls).finalize = .ok s →
        ∀ i j k, s.getTransform i i = 1 ∧ s.getTransform j i = (s.getTransform i j)⁻¹ ∧
          s.getTransform i k = s.getTransform j k * s.getTransform i j) := by
  refine ⟨exists_finalize_iff calls, fun hcycles s h i j k => ?_⟩
  have : Nonempty (Fin N) := ⟨i⟩
  obtain ⟨P, hP⟩ := exists_frames_finalize hcycles h
  simp only [hP]
  refine ⟨Frames.change_self P i, ?_, (Frames.change_mul_change P i j k).symm⟩
  exact eq_inv_of_mul_eq_one_left (Frames.mul_change_eq_one P i j)

end CoordTransformService

/-! ### Three systems -/

open CoordTransformService

/-- Two systems, each joined to the third. -/
def threeSystems : List (SetTransform 3 (Multiplicative ℤ)) :=
  [⟨0, 2, .ofAdd 5⟩, ⟨2, 1, .ofAdd 7⟩]

/-- The poses of the three systems, by the transform between the first and the last. -/
def systemPoses (first : ℤ) (i : Fin 3) : (Multiplicative ℤ)ˣ :=
  toUnits (Multiplicative.ofAdd (if i = 0 then first else if i = 1 then -7 else 0))

theorem threeSystems_consistent : Consistent (systemPoses 5) (setTransforms threeSystems) := by
  have hfirst : Consistent (systemPoses 5) (setTransforms [⟨0, 2, .ofAdd 5⟩]) :=
    consistent_init.setBoth (u := toUnits (Multiplicative.ofAdd 5)) rfl
  exact hfirst.setBoth (u := toUnits (Multiplicative.ofAdd 7)) rfl

theorem threeSystems_consistentCycles : (setTransforms threeSystems).ConsistentCycles :=
  balanced_of_frames threeSystems_consistent

theorem threeSystems_preconnected : (setGraph threeSystems).Preconnected := by
  have hroot : ∀ i : Fin 3, (setGraph threeSystems).Reachable i 2 := by
    intro i
    fin_cases i
    · exact reachable_iff.mpr (.single rfl)
    · exact reachable_iff.mpr (.single rfl)
    · exact .refl _
  exact fun i j => (hroot i).trans (hroot j).symm

theorem first_finalize_threeSystems :
    ∃ s, (setTransforms threeSystems).finalize = .ok s ∧
      s.getTransform 1 0 = (s.getTransform 0 1)⁻¹ ∧
      s.getTransform 0 1 = s.getTransform 2 1 * s.getTransform 0 2 := by
  obtain ⟨hiff, hframes⟩ := first_finalize threeSystems
  obtain ⟨s, hs⟩ := hiff.mpr threeSystems_preconnected
  have h := hframes threeSystems_consistentCycles s hs
  exact ⟨s, hs, (h 0 1 2).2.1, (h 0 2 1).2.2⟩

end Coord

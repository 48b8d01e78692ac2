/-
Walks in a directed graph whose edges carry elements of a monoid.

A walk is the list of its edges, the last one first, so that the list is in the order of the
product: the composition of a walk is the product of what its edges carry.

* `IsWalk edge i w j` — `w` leads from `i` to `j`;
* `compose t w` — the composition along a walk;
* `compose_closed` — if the composition around every cycle is 1, it is 1 around every closed
  walk;
* `exists_frames`, `balanced_of_frames` — this is so iff the edges carry the changes between
  frames.
-/
import HandTracking.Library.Frames
import Mathlib.Algebra.BigOperators.Group.List.Basic
import Mathlib.Data.List.Nodup
import Mathlib.Logic.Relation

namespace Walks

variable {ι : Type*} {M : Type*}

/-- The edges `w` lead from `i` to `j`. -/
inductive IsWalk (edge : ι × ι → Prop) (i : ι) : List (ι × ι) → ι → Prop
  | nil : IsWalk edge i [] i
  | cons {w j k} : IsWalk edge i w j → edge (j, k) → IsWalk edge i ((j, k) :: w) k

variable {edge edge' : ι × ι → Prop} {i j k : ι} {w w' : List (ι × ι)}

theorem IsWalk.single (h : edge (i, j)) : IsWalk edge i [(i, j)] j := .cons .nil h

theorem IsWalk.trans (h : IsWalk edge i w j) (h' : IsWalk edge j w' k) :
    IsWalk edge i (w' ++ w) k := by
  induction h' with
  | nil => exact h
  | cons _ he ih => exact .cons ih he

theorem IsWalk.mono (hsub : ∀ e, edge e → edge' e) (h : IsWalk edge i w j) :
    IsWalk edge' i w j := by
  induction h with
  | nil => exact .nil
  | cons _ he ih => exact .cons ih (hsub _ he)

/-- A walk over an edge arrives where the edge begins. -/
theorem IsWalk.split {e : ι × ι} (h : IsWalk edge i (w ++ e :: w') k) :
    IsWalk edge i w' e.1 ∧ edge e ∧ IsWalk edge e.2 w k := by
  induction w generalizing k with
  | nil =>
    cases h with
    | cons hw he => exact ⟨hw, he, .nil⟩
  | cons f w ih =>
    cases h with
    | cons hw hf =>
      obtain ⟨hfirst, he, hrest⟩ := ih hw
      exact ⟨hfirst, he, .cons hrest hf⟩

theorem IsWalk.edge_of_mem {e : ι × ι} (h : IsWalk edge i w j) (he : e ∈ w) : edge e := by
  obtain ⟨_, _, rfl⟩ := List.append_of_mem he
  exact h.split.2.1

theorem IsWalk.of_reflTransGen (h : Relation.ReflTransGen (fun x y => edge (x, y)) i j) :
    ∃ w, IsWalk edge i w j := by
  induction h with
  | refl => exact ⟨[], .nil⟩
  | tail _ he ih =>
    obtain ⟨w, hw⟩ := ih
    exact ⟨_, .cons hw he⟩

/-! ### Composition -/

section

variable [Monoid M]

/-- The composition along a walk. -/
def compose (t : ι × ι → M) (w : List (ι × ι)) : M := (w.map t).prod

variable (t : ι × ι → M)

@[simp]
theorem compose_nil : compose t [] = 1 := List.prod_nil

@[simp]
theorem compose_cons (e : ι × ι) (w : List (ι × ι)) : compose t (e :: w) = t e * compose t w :=
  List.prod_cons

@[simp]
theorem compose_append (w w' : List (ι × ι)) :
    compose t (w ++ w') = compose t w * compose t w' := by
  rw [compose, List.map_append, List.prod_append]
  rfl

/-- A closed walk that leaves no vertex twice. -/
structure IsCycle (edge : ι × ι → Prop) (i : ι) (w : List (ι × ι)) : Prop where
  closed : IsWalk edge i w i
  nodup : (w.map Prod.fst).Nodup

/-- The composition around every cycle is the identity. -/
def Balanced (edge : ι × ι → Prop) (t : ι × ι → M) : Prop :=
  ∀ i w, IsCycle edge i w → compose t w = 1

/-- A list of edges that leaves a vertex twice. -/
theorem exists_repeated {w : List (ι × ι)} (h : ¬ (w.map Prod.fst).Nodup) :
    ∃ a e b f c, w = a ++ e :: (b ++ f :: c) ∧ e.1 = f.1 := by
  induction w with
  | nil => exact absurd List.nodup_nil h
  | cons e w ih =>
    by_cases hw : (w.map Prod.fst).Nodup
    · have hmem : e.1 ∈ w.map Prod.fst := by
        by_contra hnot
        exact h (List.nodup_cons.mpr ⟨hnot, hw⟩)
      obtain ⟨f, hf, heq⟩ := List.mem_map.mp hmem
      obtain ⟨b, c, rfl⟩ := List.append_of_mem hf
      exact ⟨[], e, b, f, c, rfl, heq.symm⟩
    · obtain ⟨a, e', b, f, c, rfl, heq⟩ := ih hw
      exact ⟨e :: a, e', b, f, c, rfl, heq⟩

variable {t}

theorem compose_closed (hbalanced : Balanced edge t) (h : IsWalk edge i w i) :
    compose t w = 1 := by
  induction hn : w.length using Nat.strongRecOn generalizing i w with
  | _ n ih =>
    by_cases hnodup : (w.map Prod.fst).Nodup
    · exact hbalanced i w ⟨h, hnodup⟩
    · -- between the two visits of the vertex the walk is closed, and without this part too
      obtain ⟨a, e, b, f, c, rfl, heq⟩ := exists_repeated hnodup
      obtain ⟨hfirst, he, hlast⟩ := h.split
      obtain ⟨hc, hf, hb⟩ := hfirst.split
      have hinner : compose t (b ++ [f]) = 1 := by
        refine ih _ ?_ (i := f.1) ?_ rfl
        · simp only [List.length_append, List.length_cons, List.length_nil] at hn ⊢
          omega
        · rw [heq] at hb
          exact (IsWalk.single hf).trans hb
      have houter : compose t (a ++ e :: c) = 1 := by
        refine ih _ ?_ (i := i) ?_ rfl
        · simp only [List.length_append, List.length_cons] at hn ⊢
          omega
        · rw [← heq] at hc
          exact (IsWalk.cons hc he).trans hlast
      rw [compose_append, compose_cons, compose_nil, mul_one] at hinner
      rw [← houter]
      simp only [compose_append, compose_cons]
      rw [← mul_assoc (compose t b), hinner, one_mul]

/-- The pose of a vertex is the composition along a walk to a fixed one. -/
theorem exists_frames [Nonempty ι] (hconnected : ∀ i j, ∃ w, IsWalk edge i w j)
    (hbalanced : Balanced edge t) :
    ∃ P : ι → Mˣ, ∀ i j, edge (i, j) → t (i, j) = Frames.change P i j := by
  choose walk hwalk using hconnected
  obtain ⟨r⟩ := ‹Nonempty ι›
  have hround : ∀ i j, compose t (walk j i) * compose t (walk i j) = 1 := by
    intro i j
    rw [← compose_append]
    exact compose_closed hbalanced ((hwalk i j).trans (hwalk j i))
  refine ⟨fun i => ⟨compose t (walk i r), compose t (walk r i), hround r i, hround i r⟩, ?_⟩
  intro i j he
  have hclosed : compose t (walk j r) * (t (i, j) * compose t (walk r i)) = 1 := by
    rw [← compose_cons, ← compose_append]
    exact compose_closed hbalanced ((IsWalk.cons (hwalk r i) he).trans (hwalk j r))
  show t (i, j) = compose t (walk r j) * compose t (walk i r)
  calc t (i, j)
      = compose t (walk r j) * compose t (walk j r) *
          (t (i, j) * (compose t (walk r i) * compose t (walk i r))) := by
        rw [hround j r, hround i r, one_mul, mul_one]
    _ = compose t (walk r j) *
          (compose t (walk j r) * (t (i, j) * compose t (walk r i))) * compose t (walk i r) := by
        simp only [mul_assoc]
    _ = compose t (walk r j) * compose t (walk i r) := by rw [hclosed, mul_one]

theorem compose_eq_change {P : ι → Mˣ} (hP : ∀ i j, edge (i, j) → t (i, j) = Frames.change P i j)
    (h : IsWalk edge i w j) : compose t w = Frames.change P i j := by
  induction h with
  | nil => exact (Frames.change_self P i).symm
  | cons _ he ih => rw [compose_cons, ih, hP _ _ he, Frames.change_mul_change]

/-- Changes between frames are the identity around every cycle. -/
theorem balanced_of_frames {P : ι → Mˣ}
    (hP : ∀ i j, edge (i, j) → t (i, j) = Frames.change P i j) : Balanced edge t :=
  fun i _ h => (compose_eq_change hP h.closed).trans (Frames.change_self P i)

end

end Walks

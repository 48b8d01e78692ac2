/-
Calls of `setTransform` and `finalize` in any order, on the one shared service.

The search for an entry looks only at which entries are set, so the path along which an entry
is derived depends on the pairs that were set before, not on their transforms.  After the first
`finalize` no entry is derived again.

* `run` — a sequence of calls, up to the first one that throws;
* `route` — the path along which `finalize` derives an entry;
* `run_eq` — the table after a sequence of calls;
* `recalibrated_iff_routesCurrent` — when every entry is a composition of the transforms set last.
-/
import HandTracking.FirstFinalize
import Mathlib.Algebra.FreeMonoid.Basic

namespace Coord

open Walks

namespace CoordTransformService

variable {N : ℕ}

/-! ### The search and its names -/

section

variable {T T' : Type} [Mul T] [Mul T'] (f : T →ₙ* T')

/-- The same entries, with other transforms. -/
def mapTransforms (s : CoordTransformService N T) : CoordTransformService N T' where
  transforms e := f (s.transforms e)
  transformSet := s.transformSet

/-- A search with other transforms. -/
def mapSearch (q : Search N T) : Search N T' := (q.1.mapTransforms f, q.2)

theorem mapTransforms_derive (s : CoordTransformService N T) (frm i dst : Fin N) :
    (s.derive frm i dst).mapTransforms f = (s.mapTransforms f).derive frm i dst := by
  have htransforms : ∀ e, f (Function.update s.transforms (frm, dst)
      (s.transforms (i, dst) * s.transforms (frm, i)) e) =
        Function.update (fun e => f (s.transforms e)) (frm, dst)
          (f (s.transforms (i, dst)) * f (s.transforms (frm, i))) e := by
    intro e
    rw [← map_mul]
    exact Function.apply_update (fun _ => f) s.transforms (frm, dst) _ e
  rw [derive, derive, setTransformInternal, setTransformInternal, mapTransforms]
  congr 1
  exact funext htransforms

theorem via_mapSearch {visited : Finset (Fin N)} {frm i dst : Fin N}
    {search : (q : {q : Search N T // visited ⊆ q.2}) → {r : Search N T // q.val.2 ⊆ r.2}}
    {search' : (q : {q : Search N T' // visited ⊆ q.2}) → {r : Search N T' // q.val.2 ⊆ r.2}}
    {q : {q : Search N T // visited ⊆ q.2}} {q' : {q : Search N T' // visited ⊆ q.2}}
    (hq : q'.val = mapSearch f q.val)
    (hsearch : (search' q').val = mapSearch f (search q).val) :
    (via frm i dst search' q').val = mapSearch f (via frm i dst search q).val := by
  have hset : ∀ e, q'.val.1.transformSet e = q.val.1.transformSet e := by
    intro e
    rw [hq]
    rfl
  have hset' : ∀ e, (search' q').val.1.transformSet e = (search q).val.1.transformSet e := by
    intro e
    rw [hsearch]
    rfl
  unfold via
  dsimp only
  simp only [hset, hset']
  split_ifs with hboth hfirst hdst
  · simp only [hq, mapSearch, mapTransforms_derive]
  · simp only [hsearch, mapSearch, mapTransforms_derive]
  · exact hsearch
  · exact hq

/-- The search does not look at the transforms. -/
theorem calculateTransform_mapSearch (frm dst : Fin N) (p : Search N T) :
    (calculateTransform frm dst (mapSearch f p)).val =
      mapSearch f (calculateTransform frm dst p).val := by
  induction hn : N - p.2.card using Nat.strongRecOn generalizing frm p with
  | _ n ih =>
    rw [calculateTransform, calculateTransform.eq_def frm dst p]
    by_cases hvisited : frm ∈ p.2
    · have hvisited' : frm ∈ (mapSearch f p).2 := hvisited
      rw [dif_pos hvisited', dif_pos hvisited]
    · have hvisited' : frm ∉ (mapSearch f p).2 := hvisited
      rw [dif_neg hvisited', dif_neg hvisited]
      have hrounds : ∀ (tried : List (Fin N)) (q : {q : Search N T // insert frm p.2 ⊆ q.2})
          (q' : {q : Search N T' // insert frm p.2 ⊆ q.2}), q'.val = mapSearch f q.val →
            (tried.foldl
              (fun q i => via frm i dst (fun q => calculateTransform i dst q.val) q) q').val =
              mapSearch f (tried.foldl
                (fun q i => via frm i dst (fun q => calculateTransform i dst q.val) q) q).val := by
        intro tried
        induction tried with
        | nil => exact fun q q' hq => hq
        | cons i tried ihtried =>
          intro q q' hq
          refine ihtried _ _ (via_mapSearch f hq ?_)
          rw [hq]
          exact ih _ (hn ▸ card_decreases hvisited q.property) i q.val rfl
      exact hrounds (List.finRange N) ⟨(p.1, insert frm p.2), Finset.Subset.refl _⟩
        ⟨mapSearch f (p.1, insert frm p.2), Finset.Subset.refl _⟩ rfl

theorem finalizeEntry_mapTransforms (s : CoordTransformService N T) (e : Fin N × Fin N) :
    (s.mapTransforms f).finalizeEntry e = (s.finalizeEntry e).map (mapTransforms f) := by
  have hsearch : (calculateTransform e.1 e.2 (s.mapTransforms f, ∅)).val.1 =
      (calculateTransform e.1 e.2 (s, ∅)).val.1.mapTransforms f :=
    congrArg Prod.fst (calculateTransform_mapSearch f e.1 e.2 (s, ∅))
  unfold finalizeEntry
  by_cases hderive : e.1 ≠ e.2 ∧ s.transformSet e = false
  · have hderive' : e.1 ≠ e.2 ∧ (s.mapTransforms f).transformSet e = false := hderive
    rw [if_pos hderive', if_pos hderive, hsearch]
    dsimp only
    by_cases hset : (calculateTransform e.1 e.2 (s, ∅)).val.1.transformSet e = true
    · have hset' : ((calculateTransform e.1 e.2 (s, ∅)).val.1.mapTransforms f).transformSet e =
          true := hset
      rw [if_pos hset', if_pos hset]
      rfl
    · have hset' : ¬ ((calculateTransform e.1 e.2 (s, ∅)).val.1.mapTransforms f).transformSet e =
          true := hset
      rw [if_neg hset', if_neg hset]
      rfl
  · have hderive' : ¬ (e.1 ≠ e.2 ∧ (s.mapTransforms f).transformSet e = false) := hderive
    rw [if_neg hderive', if_neg hderive]
    rfl

theorem finalize_mapTransforms (s : CoordTransformService N T) :
    (s.mapTransforms f).finalize = s.finalize.map (mapTransforms f) := by
  have hentries : ∀ (entries : List (Fin N × Fin N)) (s : CoordTransformService N T),
      entries.foldlM finalizeEntry (s.mapTransforms f) =
        (entries.foldlM finalizeEntry s).map (mapTransforms f) := by
    intro entries
    induction entries with
    | nil => exact fun s => rfl
    | cons e entries ih =>
      intro s
      rw [List.foldlM_cons, List.foldlM_cons, finalizeEntry_mapTransforms]
      cases s.finalizeEntry e with
      | error message => rfl
      | ok s₁ => exact ih s₁
  exact hentries _ s

end

/-! ### Routes -/

/-- The entries as their own names. -/
def named (transformSet : Fin N × Fin N → Bool) :
    CoordTransformService N (FreeMonoid (Fin N × Fin N)) where
  transforms e := if transformSet e then .of e else 1
  transformSet := transformSet

/-- The path along which `finalize` derives an entry, the last step first.  It depends on the
entries that are set alone. -/
def route (transformSet : Fin N × Fin N → Bool) (i j : Fin N) : List (Fin N × Fin N) :=
  match (named transformSet).finalize with
  | .ok r => (r.transforms (i, j)).toList
  | .error _ => []

variable {G : Type} [Monoid G]

theorem mapTransforms_named {s : CoordTransformService N G} (h : s.Blank) :
    (named s.transformSet).mapTransforms (FreeMonoid.lift s.transforms : _ →ₙ* G) = s := by
  obtain ⟨transforms, transformSet⟩ := s
  unfold mapTransforms named
  congr 1
  funext e
  show FreeMonoid.lift transforms (if transformSet e then .of e else 1) = transforms e
  split_ifs with hset
  · exact FreeMonoid.lift_eval_of transforms e
  · rw [map_one]
    exact (h e (eq_false_of_ne_true hset)).symm

/-- The names in an entry are a path; in an entry that is not set there is none. -/
def NamesWalks (transformSet : Fin N × Fin N → Bool)
    (r : CoordTransformService N (FreeMonoid (Fin N × Fin N))) : Prop :=
  ∀ i j, (IsWalk (fun e => transformSet e) i (r.transforms (i, j)).toList j) ∨
    r.transformSet (i, j) = false ∧ r.transforms (i, j) = 1

theorem namesWalks_named (transformSet : Fin N × Fin N → Bool) :
    NamesWalks transformSet (named transformSet) := by
  intro i j
  show IsWalk _ i (FreeMonoid.toList (if transformSet (i, j) then .of (i, j) else 1)) j ∨
    transformSet (i, j) = false ∧ (if transformSet (i, j) then FreeMonoid.of (i, j) else 1) = 1
  cases hset : transformSet (i, j) with
  | true => exact Or.inl (.single hset)
  | false => exact Or.inr ⟨rfl, rfl⟩

theorem NamesWalks.derive {transformSet : Fin N × Fin N → Bool}
    {r : CoordTransformService N (FreeMonoid (Fin N × Fin N))} {frm i dst : Fin N}
    (h : NamesWalks transformSet r) (hi : r.transformSet (frm, i))
    (hdst : r.transformSet (i, dst)) : NamesWalks transformSet (r.derive frm i dst) := by
  have hwalk : ∀ x y, r.transformSet (x, y) →
      IsWalk (fun e => transformSet e) x (r.transforms (x, y)).toList y := by
    intro x y hset
    exact (h x y).resolve_right fun hunset => absurd hset (by simp [hunset.1])
  intro x y
  by_cases he : (x, y) = (frm, dst)
  · obtain ⟨rfl, rfl⟩ := Prod.mk.inj he
    refine Or.inl ?_
    show IsWalk _ x (FreeMonoid.toList (Function.update r.transforms (x, y)
      (r.transforms (i, y) * r.transforms (x, i)) (x, y))) y
    rw [Function.update_self]
    exact (hwalk x i hi).trans (hwalk i y hdst)
  · show IsWalk _ x (FreeMonoid.toList (Function.update r.transforms (frm, dst) _ (x, y))) y ∨
      Function.update r.transformSet (frm, dst) true (x, y) = false ∧
        Function.update r.transforms (frm, dst) _ (x, y) = 1
    rw [Function.update_of_ne he, Function.update_of_ne he]
    exact h x y

/-- `finalize` composes the set transforms along the routes, which are paths. -/
theorem finalize_eq_compose {s s' : CoordTransformService N G} (hblank : s.Blank)
    (h : s.finalize = .ok s') (i j : Fin N) :
    s'.transforms (i, j) = compose s.transforms (route s.transformSet i j) ∧
      IsWalk (fun e => s.transformSet e) i (route s.transformSet i j) j := by
  have hmap := finalize_mapTransforms (FreeMonoid.lift s.transforms : _ →ₙ* G)
    (named s.transformSet)
  rw [mapTransforms_named hblank, h] at hmap
  unfold route
  cases hnamed : (named s.transformSet).finalize with
  | error message =>
    rw [hnamed] at hmap
    cases hmap
  | ok r =>
    rw [hnamed] at hmap
    obtain rfl := Except.ok.inj hmap
    refine ⟨FreeMonoid.lift_apply s.transforms (r.transforms (i, j)), ?_⟩
    obtain ⟨hwalks, hset⟩ := finalize_ok (Q := NamesWalks s.transformSet)
      (fun _ _ _ _ hr hi hdst => hr.derive hi hdst) (namesWalks_named s.transformSet) hnamed
    rcases hwalks i j with hwalk | ⟨hunset, hnil⟩
    · exact hwalk
    · have heq : i = j := by
        by_contra hne
        exact absurd (hset i j hne) (by rw [hunset]; exact Bool.false_ne_true)
      subst heq
      show IsWalk _ i (r.transforms (i, i)).toList i
      rw [hnil]
      exact .nil

/-! ### Sequences of calls -/

/-- A call on the shared service. -/
inductive Call (N : ℕ) (G : Type)
  | setTransform (c : SetTransform N G)
  | finalize

variable {G : Type} [Mul G] [Inv G]

/-- One call, which may throw. -/
def call (s : CoordTransformService N G) : Call N G → Except String (CoordTransformService N G)
  | .setTransform c => .ok (s.setTransform c)
  | .finalize => s.finalize

/-- The calls one after another; nothing catches what `finalize` throws. -/
def run (s : CoordTransformService N G) (calls : List (Call N G)) :
    Except String (CoordTransformService N G) :=
  calls.foldlM call s

/-- All calls of `setTransform`. -/
def sets : List (Call N G) → List (SetTransform N G)
  | [] => []
  | .setTransform c :: calls => c :: sets calls
  | .finalize :: calls => sets calls

/-- Those before the first `finalize`. -/
def setsBefore : List (Call N G) → List (SetTransform N G)
  | [] => []
  | .setTransform c :: calls => c :: setsBefore calls
  | .finalize :: _ => []

/-- Those after it. -/
def setsAfter : List (Call N G) → List (SetTransform N G)
  | [] => []
  | .setTransform _ :: calls => setsAfter calls
  | .finalize :: calls => sets calls

omit [Mul G] [Inv G] in
theorem sets_eq (calls : List (Call N G)) : sets calls = setsBefore calls ++ setsAfter calls := by
  induction calls with
  | nil => rfl
  | cons c calls ih =>
    cases c with
    | setTransform c => exact congrArg (c :: ·) ih
    | finalize => rfl

/-- Every entry between different systems is set. -/
def Complete (s : CoordTransformService N G) : Prop := ∀ i j, i ≠ j → s.transformSet (i, j)

omit [Mul G] in
theorem complete_setTransform {s : CoordTransformService N G} (h : s.Complete)
    (c : SetTransform N G) : (s.setTransform c).Complete :=
  fun i j hne => transformSet_setTransform.mpr (Or.inl (h i j hne))

omit [Inv G] in
/-- On a complete table `finalize` does nothing. -/
theorem Complete.finalize_eq {s : CoordTransformService N G} (h : s.Complete) :
    s.finalize = .ok s := by
  have hentry : ∀ e, s.finalizeEntry e = .ok s := by
    rintro ⟨i, j⟩
    refine if_neg fun hderive => ?_
    exact absurd (h i j hderive.1) (by rw [hderive.2]; exact Bool.false_ne_true)
  have hentries : ∀ entries : List (Fin N × Fin N), entries.foldlM finalizeEntry s = .ok s := by
    intro entries
    induction entries with
    | nil => rfl
    | cons e entries ih =>
      rw [List.foldlM_cons, hentry]
      exact ih
  exact hentries _

theorem Complete.run_eq {s : CoordTransformService N G} (h : s.Complete)
    (calls : List (Call N G)) :
    s.run calls = .ok ((sets calls).foldl setTransform s) := by
  induction calls generalizing s with
  | nil => rfl
  | cons c calls ih =>
    cases c with
    | setTransform c => exact ih (complete_setTransform h c)
    | finalize =>
      rw [run, List.foldlM_cons, call, h.finalize_eq]
      exact ih h

/-- The first `finalize` derives all entries; after it they are only replaced. -/
theorem run_eq (s : CoordTransformService N G) {calls : List (Call N G)}
    (h : .finalize ∈ calls) :
    s.run calls = (((setsBefore calls).foldl setTransform s).finalize).map
      ((setsAfter calls).foldl setTransform) := by
  induction calls generalizing s with
  | nil => exact absurd h List.not_mem_nil
  | cons c calls ih =>
    cases c with
    | setTransform c =>
      have hmem : .finalize ∈ calls := by simpa using h
      exact ih _ hmem
    | finalize =>
      show s.finalize >>= (fun s₁ => s₁.run calls) =
        s.finalize.map ((sets calls).foldl setTransform)
      cases hs : s.finalize with
      | error message => rfl
      | ok s₁ =>
        have hcomplete : s₁.Complete :=
          (finalize_ok (Q := fun _ => True) (fun _ _ _ _ _ _ _ => trivial) trivial hs).2
        exact hcomplete.run_eq calls

/-- The pair is set by one of the calls. -/
def Touched (calls : List (SetTransform N G)) (i j : Fin N) : Prop :=
  ∃ c ∈ calls, c.frm = i ∧ c.dst = j ∨ c.frm = j ∧ c.dst = i

omit [Mul G] in
theorem setTransform_transforms_of_ne {s : CoordTransformService N G} {c : SetTransform N G}
    {i j : Fin N} (h : ¬ (c.frm = i ∧ c.dst = j ∨ c.frm = j ∧ c.dst = i)) :
    (s.setTransform c).transforms (i, j) = s.transforms (i, j) := by
  have hforth : (i, j) ≠ (c.frm, c.dst) := by
    intro he
    exact h (Or.inl ⟨(Prod.mk.inj he).1.symm, (Prod.mk.inj he).2.symm⟩)
  have hback : (i, j) ≠ (c.dst, c.frm) := by
    intro he
    exact h (Or.inr ⟨(Prod.mk.inj he).2.symm, (Prod.mk.inj he).1.symm⟩)
  show Function.update (Function.update s.transforms (c.frm, c.dst) _) (c.dst, c.frm) _ (i, j) = _
  rw [Function.update_of_ne hback, Function.update_of_ne hforth]

omit [Mul G] in
theorem setTransform_transforms_of_eq (s s' : CoordTransformService N G) {c : SetTransform N G}
    {i j : Fin N} (h : c.frm = i ∧ c.dst = j ∨ c.frm = j ∧ c.dst = i) :
    (s.setTransform c).transforms (i, j) = (s'.setTransform c).transforms (i, j) := by
  show Function.update (Function.update s.transforms (c.frm, c.dst) _) (c.dst, c.frm) _ (i, j) =
    Function.update (Function.update s'.transforms (c.frm, c.dst) _) (c.dst, c.frm) _ (i, j)
  by_cases hback : (i, j) = (c.dst, c.frm)
  · rw [hback, Function.update_self, Function.update_self]
  · rw [Function.update_of_ne hback, Function.update_of_ne hback]
    rcases h with ⟨rfl, rfl⟩ | ⟨rfl, rfl⟩
    · rw [Function.update_self, Function.update_self]
    · exact absurd rfl hback

omit [Mul G] in
/-- Of the entries set before, those remain that no call sets again. -/
theorem foldl_setTransform_of_not_touched (calls : List (SetTransform N G)) {i j : Fin N}
    (h : ¬ Touched calls i j) (s : CoordTransformService N G) :
    (calls.foldl setTransform s).transforms (i, j) = s.transforms (i, j) := by
  induction calls generalizing s with
  | nil => rfl
  | cons c calls ih =>
    have hc : ¬ (c.frm = i ∧ c.dst = j ∨ c.frm = j ∧ c.dst = i) :=
      fun hc => h ⟨c, List.mem_cons_self, hc⟩
    have hcalls : ¬ Touched calls i j :=
      fun ⟨c', hmem, hc'⟩ => h ⟨c', List.mem_cons_of_mem _ hmem, hc'⟩
    rw [List.foldl_cons, ih hcalls, setTransform_transforms_of_ne hc]

omit [Mul G] in
theorem foldl_setTransform_of_touched (calls : List (SetTransform N G)) {i j : Fin N}
    (h : Touched calls i j) (s s' : CoordTransformService N G) :
    (calls.foldl setTransform s).transforms (i, j) =
      (calls.foldl setTransform s').transforms (i, j) := by
  induction calls using List.reverseRecOn with
  | nil => exact absurd h (by rintro ⟨c, hmem, -⟩; exact List.not_mem_nil hmem)
  | append_singleton calls c ih =>
    rw [List.foldl_append, List.foldl_append]
    by_cases hc : c.frm = i ∧ c.dst = j ∨ c.frm = j ∧ c.dst = i
    · exact setTransform_transforms_of_eq _ _ hc
    · have hcalls : Touched calls i j := by
        obtain ⟨c', hmem, hc'⟩ := h
        rcases List.mem_append.mp hmem with hmem | hlast
        · exact ⟨c', hmem, hc'⟩
        · obtain rfl := List.mem_singleton.mp hlast
          exact absurd hc' hc
      show ((calls.foldl setTransform s).setTransform c).transforms (i, j) =
        ((calls.foldl setTransform s').setTransform c).transforms (i, j)
      rw [setTransform_transforms_of_ne hc, setTransform_transforms_of_ne hc]
      exact ih hcalls

/-! ### Which entries are current -/

variable {G : Type} [Group G]

/-- The transforms set last. -/
def given (calls : List (Call N G)) : CoordTransformService N G := setTransforms (sets calls)

/-- Every entry between two systems that are connected by pairs ever set is the composition of
the transforms set last along some path of them. -/
def Recalibrated (calls : List (Call N G)) (s : CoordTransformService N G) : Prop :=
  ∀ i j, (setGraph (sets calls)).Reachable i j →
    ∃ w, IsWalk (fun e => (given calls).transformSet e) i w j ∧
      s.getTransform i j = compose (given calls).transforms w

/-- For every pair not set since the first `finalize`, the transforms of that time compose
along its route to what the transforms set last compose to along some path. -/
def RoutesCurrent (calls : List (Call N G)) : Prop :=
  ∀ i j, ¬ Touched (setsAfter calls) i j →
    ∃ w, IsWalk (fun e => (given calls).transformSet e) i w j ∧
      compose (setTransforms (setsBefore calls)).transforms
          (route (setTransforms (setsBefore calls)).transformSet i j) =
        compose (given calls).transforms w

theorem given_eq (calls : List (Call N G)) :
    given calls = (setsAfter calls).foldl setTransform (setTransforms (setsBefore calls)) := by
  rw [given, sets_eq, setTransforms, List.foldl_append]
  rfl

theorem transformSet_given {calls : List (Call N G)} {i j : Fin N} :
    (given calls).transformSet (i, j) ↔
      (setTransforms (setsBefore calls)).transformSet (i, j) ∨ Touched (setsAfter calls) i j := by
  rw [given, sets_eq, transformSet_setTransforms, transformSet_setTransforms]
  simp only [Touched, List.mem_append, or_and_right, exists_or]

theorem reachable_of_before {calls : List (Call N G)} {s : CoordTransformService N G}
    (h : (setTransforms (setsBefore calls)).finalize = .ok s) (i j : Fin N) :
    (setGraph (sets calls)).Reachable i j := by
  have hbefore := reachable_iff.mp (preconnected_of_finalize h i j)
  exact reachable_iff.mpr (Relation.ReflTransGen.mono
    (fun x y hset => transformSet_given.mpr (Or.inl hset)) i j hbefore)

/-- After any sequence of calls, with a `finalize` at its end. -/
theorem recalibrated_iff_routesCurrent {calls : List (Call N G)} {s : CoordTransformService N G}
    (hrun : init.run (calls ++ [.finalize]) = .ok s) :
    Recalibrated (calls ++ [.finalize]) s ↔ RoutesCurrent (calls ++ [.finalize]) := by
  have hmem : (.finalize : Call N G) ∈ calls ++ [.finalize] := by simp
  generalize calls ++ [.finalize] = calls at hrun hmem ⊢
  rw [run_eq _ hmem] at hrun
  cases hfirst : (setTransforms (setsBefore calls)).finalize with
  | error message =>
    rw [← setTransforms, hfirst] at hrun
    cases hrun
  | ok s₁ =>
    rw [← setTransforms, hfirst] at hrun
    obtain rfl := Except.ok.inj hrun
    have hroute : ∀ i j, ¬ Touched (setsAfter calls) i j →
        ((setsAfter calls).foldl setTransform s₁).getTransform i j =
          compose (setTransforms (setsBefore calls)).transforms
            (route (setTransforms (setsBefore calls)).transformSet i j) := by
      intro i j hnot
      rw [getTransform, foldl_setTransform_of_not_touched _ hnot]
      exact (finalize_eq_compose (blank_setTransforms _) hfirst i j).1
    constructor
    · intro h i j hnot
      obtain ⟨w, hw, hcompose⟩ := h i j (reachable_of_before hfirst i j)
      exact ⟨w, hw, (hroute i j hnot).symm.trans hcompose⟩
    · intro h i j _
      by_cases htouched : Touched (setsAfter calls) i j
      · -- an entry set since then is the path of one step
        refine ⟨[(i, j)], .single (transformSet_given.mpr (Or.inr htouched)), ?_⟩
        rw [compose_cons, compose_nil, mul_one, given_eq]
        exact foldl_setTransform_of_touched _ htouched _ _
      · obtain ⟨w, hw, hcompose⟩ := h i j htouched
        exact ⟨w, hw, (hroute i j htouched).trans hcompose⟩

end CoordTransformService

end Coord

/-
`CoordTransformService`: a table of the transforms between `N` coordinate systems.

Some entries are set, with their inverses; `finalize` derives the others by a depth-first
search through the entries that are known so far.

* `CoordTransformService` — the table, over any type of transforms with a product;
* `calculateTransform`, `finalize` — the search terminates since it visits more and more
  systems;
* `calculateTransform_preserves` — what every derived entry preserves;
* `calculateTransform_complete` — the search finds an entry along every path;
* `finalize_keeps` — the entries that were set stay as they are;
* `finalize_eq_ok` — so `finalize` succeeds on a connected table.
-/
import HandTracking.CameraModel
import HandTracking.HandRotation
import HandTracking.Library.Frames
import Mathlib.Data.Finset.Card
import Mathlib.Data.Fintype.Card
import Mathlib.Data.List.FinRange
import Mathlib.Data.List.ProdSigma
import Mathlib.LinearAlgebra.Matrix.Determinant.Basic
import Mathlib.Tactic.Positivity
import Mathlib.Logic.Relation

namespace Coord

/-- `CoordTransformService`: an entry for each pair of systems, and whether it was set. -/
structure CoordTransformService (N : ℕ) (T : Type) where
  transforms : Fin N × Fin N → T
  transformSet : Fin N × Fin N → Bool

/-- The service and the visited systems of a search. -/
abbrev Search (N : ℕ) (T : Type) := CoordTransformService N T × Finset (Fin N)

namespace CoordTransformService

variable {N : ℕ} {T : Type}

/-- The constructor: all entries are identities, none is set. -/
def init [One T] : CoordTransformService N T where
  transforms _ := 1
  transformSet _ := false

/-- `setTransformInternal`: one entry is written and marked. -/
def setTransformInternal (s : CoordTransformService N T) (frm dst : Fin N) (t : T) :
    CoordTransformService N T where
  transforms := Function.update s.transforms (frm, dst) t
  transformSet := Function.update s.transformSet (frm, dst) true

/-- The end of both `setTransform` functions. -/
def setBoth (s : CoordTransformService N T) (frm dst : Fin N) (t tInverse : T) :
    CoordTransformService N T :=
  (s.setTransformInternal frm dst t).setTransformInternal dst frm tInverse

/-- `getTransform`: the entry, set or not. -/
def getTransform (s : CoordTransformService N T) (frm dst : Fin N) : T := s.transforms (frm, dst)

variable [Mul T]

/-- The entry from `frm` to `dst` by way of `i`. -/
def derive (s : CoordTransformService N T) (frm i dst : Fin N) : CoordTransformService N T :=
  s.setTransformInternal frm dst (s.transforms (i, dst) * s.transforms (frm, i))

theorem card_decreases {visited visited' : Finset (Fin N)} {frm : Fin N} (h : frm ∉ visited)
    (hsub : insert frm visited ⊆ visited') : N - visited'.card < N - visited.card := by
  have hcard : visited.card < visited'.card :=
    (Finset.card_lt_card (Finset.ssubset_insert h)).trans_le (Finset.card_le_card hsub)
  have hbound := card_finset_fin_le visited'
  omega

/-- The loop of the search for one `i`, with the search from `i`. -/
def via {visited : Finset (Fin N)} (frm i dst : Fin N)
    (search : (q : {q : Search N T // visited ⊆ q.2}) → {r : Search N T // q.val.2 ⊆ r.2})
    (q : {q : Search N T // visited ⊆ q.2}) : {q : Search N T // visited ⊆ q.2} :=
  if q.val.1.transformSet (frm, i) ∧ q.val.1.transformSet (i, dst) then
    ⟨(q.val.1.derive frm i dst, q.val.2), q.property⟩
  else if q.val.1.transformSet (frm, i) then
    let r := search q
    if r.val.1.transformSet (i, dst) then
      ⟨(r.val.1.derive frm i dst, r.val.2), q.property.trans r.property⟩
    else ⟨r.val, q.property.trans r.property⟩
  else q

/-- The search from `frm`; it never forgets a visited system. -/
def calculateTransform (frm dst : Fin N) (p : Search N T) : {q : Search N T // p.2 ⊆ q.2} :=
  if _hvisited : frm ∈ p.2 then ⟨p, Finset.Subset.refl _⟩
  else
    let result := (List.finRange N).foldl
      (fun q i => via frm i dst (fun q => calculateTransform i dst q.val) q)
      (⟨(p.1, insert frm p.2), Finset.Subset.refl _⟩ : {q : Search N T // insert frm p.2 ⊆ q.2})
    ⟨result.val, (Finset.subset_insert _ _).trans result.property⟩
termination_by N - p.2.card
decreasing_by exact card_decreases _hvisited q.property

/-! ### What a search finds -/

/-- A search for entries to `dst` adds such entries only, for the systems it visits. -/
structure Searched (dst : Fin N) (p q : Search N T) : Prop where
  grows : ∀ e, p.1.transformSet e → q.1.transformSet e
  only : ∀ x y, q.1.transformSet (x, y) → p.1.transformSet (x, y) ∨ y = dst ∧ x ∈ q.2 ∧ x ∉ p.2

/-- The systems visited since `visited` have no entry to `dst`, and no entry to a system that
was not visited. -/
def Exhausted (dst : Fin N) (visited : Finset (Fin N)) (q : Search N T) : Prop :=
  ∀ x ∈ q.2, x ∉ visited → ¬ q.1.transformSet (x, dst) ∧
    ∀ y, q.1.transformSet (x, y) → y ∈ q.2

/-- What is known of the search from `frm` after some rounds of its loop. -/
structure Searching (frm dst : Fin N) (p q : Search N T) : Prop where
  searched : Searched dst p q
  exhausted : ¬ q.1.transformSet (frm, dst) → Exhausted dst (insert frm p.2) q

/-- What the search from `frm` returns. -/
structure Found (frm dst : Fin N) (p q : Search N T) : Prop where
  visits : frm ∈ q.2
  searched : Searched dst p q
  exhausted : ¬ q.1.transformSet (frm, dst) → Exhausted dst p.2 q

omit [Mul T] in
theorem Searched.same (dst : Fin N) (p : Search N T) (visited : Finset (Fin N)) :
    Searched dst p (p.1, visited) :=
  ⟨fun _ h => h, fun _ _ h => Or.inl h⟩

omit [Mul T] in
theorem Searched.trans {dst : Fin N} {p q r : Search N T} (hpq : Searched dst p q)
    (hqr : Searched dst q r) (hp : p.2 ⊆ q.2) (hq : q.2 ⊆ r.2) : Searched dst p r where
  grows e h := hqr.grows e (hpq.grows e h)
  only x y h := by
    rcases hqr.only x y h with hxy | ⟨hy, hx, hnew⟩
    · rcases hpq.only x y hxy with hold | ⟨hy, hx, hnew⟩
      · exact Or.inl hold
      · exact Or.inr ⟨hy, hq hx, hnew⟩
    · exact Or.inr ⟨hy, hx, fun hmem => hnew (hp hmem)⟩

theorem transformSet_derive {s : CoordTransformService N T} {frm i dst : Fin N}
    {e : Fin N × Fin N} :
    (s.derive frm i dst).transformSet e ↔ e = (frm, dst) ∨ s.transformSet e := by
  show Function.update s.transformSet (frm, dst) true e ↔ _
  by_cases he : e = (frm, dst)
  · subst he
    simp
  · simp [he]

/-- A derived entry ends the search. -/
theorem Searching.derive {frm i dst : Fin N} {p q : Search N T} (h : Searched dst p q)
    (hmem : frm ∈ q.2) (hnew : frm ∉ p.2) : Searching frm dst p (q.1.derive frm i dst, q.2) where
  searched :=
    { grows := fun e he => transformSet_derive.mpr (Or.inr (h.grows e he))
      only := by
        intro x y hxy
        rcases transformSet_derive.mp hxy with heq | hold
        · obtain ⟨rfl, rfl⟩ := Prod.mk.inj heq
          exact Or.inr ⟨rfl, hmem, hnew⟩
        · exact h.only x y hold }
  exhausted hnot := absurd (transformSet_derive.mpr (Or.inl rfl)) hnot

omit [Mul T] in
/-- A search from `i` without an entry leaves nothing open. -/
theorem Searching.search {frm i dst : Fin N} {p q r : Search N T} (h : Searching frm dst p q)
    (hsub : p.2 ⊆ q.2) (hqr : q.2 ⊆ r.2) (hfound : Found i dst q r)
    (hnone : ¬ r.1.transformSet (i, dst)) : Searching frm dst p r where
  searched := h.searched.trans hfound.searched hsub hqr
  exhausted hnot x hx hnew := by
    by_cases hxq : x ∈ q.2
    · obtain ⟨hdst, hclosed⟩ :=
        h.exhausted (fun hset => hnot (hfound.searched.grows _ hset)) x hxq hnew
      -- the entries of a system visited before are those of `q`
      have hold : ∀ y, r.1.transformSet (x, y) → q.1.transformSet (x, y) := by
        intro y hset
        rcases hfound.searched.only x y hset with hold | ⟨-, -, hfresh⟩
        · exact hold
        · exact absurd hxq hfresh
      exact ⟨fun hset => hdst (hold dst hset), fun y hset => hqr (hclosed y (hold y hset))⟩
    · exact hfound.exhausted hnone x hx hxq

/-- What the rounds of the loop keep: an entry that was found stays, and without one the
systems that were tried are visited. -/
structure Rounds (frm dst : Fin N) (tried : List (Fin N)) (p q q' : Search N T) : Prop where
  searching : Searching frm dst p q'
  subset : q.2 ⊆ q'.2
  stays : q.1.transformSet (frm, dst) → q'.1.transformSet (frm, dst)
  visits : ¬ q'.1.transformSet (frm, dst) → ∀ i ∈ tried, p.1.transformSet (frm, i) → i ∈ q'.2

theorem via_rounds {frm i dst : Fin N} {p : Search N T} (hnew : frm ∉ p.2)
    {q : {q : Search N T // insert frm p.2 ⊆ q.2}}
    {search : (q : {q : Search N T // insert frm p.2 ⊆ q.2}) →
      {r : Search N T // q.val.2 ⊆ r.2}}
    (h : Searching frm dst p q.val) (hfound : Found i dst q.val (search q).val) :
    Rounds frm dst [i] p q.val (via frm i dst search q).val := by
  have hmem : frm ∈ q.val.2 := q.property (Finset.mem_insert_self _ _)
  have hsub : p.2 ⊆ q.val.2 := (Finset.subset_insert _ _).trans q.property
  have hsearch := (search q).property
  -- a round that derives the entry
  have hderived : ∀ r : Search N T, q.val.2 ⊆ r.2 → Searched dst p r →
      Rounds frm dst [i] p q.val (r.1.derive frm i dst, r.2) := by
    intro r hr hsearched
    have hset : (r.1.derive frm i dst).transformSet (frm, dst) :=
      transformSet_derive.mpr (Or.inl rfl)
    exact ⟨.derive hsearched (hr hmem) hnew, hr, fun _ => hset, fun hnot => absurd hset hnot⟩
  unfold via
  dsimp only
  split_ifs with hboth hfirst hdst
  · exact hderived q.val (Finset.Subset.refl _) h.searched
  · exact hderived _ hsearch (h.searched.trans hfound.searched hsub hsearch)
  · refine ⟨h.search hsub hsearch hfound hdst, hsearch, hfound.searched.grows _, ?_⟩
    intro _ j hj _
    obtain rfl := List.mem_singleton.mp hj
    exact hfound.visits
  · refine ⟨h, Finset.Subset.refl _, fun hset => hset, ?_⟩
    intro _ j hj hset
    obtain rfl := List.mem_singleton.mp hj
    exact absurd (h.searched.grows _ hset) hfirst

/-- All rounds, given what the searches from the other systems find. -/
theorem foldl_rounds {frm dst : Fin N} {p : Search N T} (hnew : frm ∉ p.2)
    {search : (i : Fin N) → (q : {q : Search N T // insert frm p.2 ⊆ q.2}) →
      {r : Search N T // q.val.2 ⊆ r.2}}
    (hfound : ∀ i q, Found i dst q.val (search i q).val) (tried : List (Fin N)) :
    ∀ q : {q : Search N T // insert frm p.2 ⊆ q.2}, Searching frm dst p q.val →
      Rounds frm dst tried p q.val
        (tried.foldl (fun q i => via frm i dst (search i) q) q).val := by
  induction tried with
  | nil =>
    intro q h
    exact ⟨h, Finset.Subset.refl _, fun hset => hset, fun _ i hi => absurd hi List.not_mem_nil⟩
  | cons i tried ih =>
    intro q h
    have hround := via_rounds hnew h (hfound i q)
    have hrest := ih _ hround.searching
    refine ⟨hrest.searching, hround.subset.trans hrest.subset,
      fun hset => hrest.stays (hround.stays hset), ?_⟩
    intro hnot j hj hset
    rcases List.mem_cons.mp hj with rfl | hj
    · have hvisits := hround.visits (fun hfirst => hnot (hrest.stays hfirst)) j
        (List.mem_singleton_self j) hset
      exact hrest.subset hvisits
    · exact hrest.visits hnot j hj hset

theorem calculateTransform_found (frm dst : Fin N) (p : Search N T) :
    Found frm dst p (calculateTransform frm dst p).val := by
  induction hn : N - p.2.card using Nat.strongRecOn generalizing frm p with
  | _ n ih =>
    rw [calculateTransform]
    by_cases hvisited : frm ∈ p.2
    · rw [dif_pos hvisited]
      refine ⟨hvisited, .same dst p p.2, ?_⟩
      intro _ x hx hnew
      exact absurd hx hnew
    · rw [dif_neg hvisited]
      have hstart : Searching frm dst p (p.1, insert frm p.2) :=
        { searched := .same dst p _
          exhausted := fun _ x hx hnew => absurd hx hnew }
      have hrounds := foldl_rounds hvisited
        (fun i q => ih _ (hn ▸ card_decreases hvisited q.property) i q.val rfl)
        (List.finRange N) ⟨(p.1, insert frm p.2), Finset.Subset.refl _⟩ hstart
      refine ⟨hrounds.subset (Finset.mem_insert_self _ _), hrounds.searching.searched, ?_⟩
      intro hnot x hx hnew
      by_cases hfrm : x = frm
      · subst hfrm
        refine ⟨hnot, fun y hset => ?_⟩
        rcases hrounds.searching.searched.only x y hset with hold | ⟨rfl, -, -⟩
        · exact hrounds.visits hnot y (List.mem_finRange y) hold
        · exact absurd hset hnot
      · refine hrounds.searching.exhausted hnot x hx fun hmem => ?_
        rcases Finset.mem_insert.mp hmem with heq | hold
        · exact hfrm heq
        · exact hnew hold

/-- The search finds an entry along every path of entries. -/
theorem calculateTransform_complete {s : CoordTransformService N T} {frm dst : Fin N}
    (h : Relation.TransGen (fun x y => s.transformSet (x, y)) frm dst) :
    (calculateTransform frm dst (s, ∅)).val.1.transformSet (frm, dst) := by
  have hfound := calculateTransform_found frm dst (s, (∅ : Finset (Fin N)))
  by_contra hnot
  have hexhausted := hfound.exhausted hnot
  -- all systems along the path are visited
  have hpath : ∀ x, Relation.ReflTransGen (fun x y => s.transformSet (x, y)) frm x →
      x ∈ (calculateTransform frm dst (s, ∅)).val.2 := by
    intro x hx
    induction hx with
    | refl => exact hfound.visits
    | tail _ hset ih =>
      exact (hexhausted _ ih (Finset.notMem_empty _)).2 _ (hfound.searched.grows _ hset)
  obtain ⟨x, hx, hset⟩ := Relation.TransGen.tail'_iff.mp h
  exact (hexhausted x (hpath x hx) (Finset.notMem_empty x)).1 (hfound.searched.grows _ hset)

/-- What every derived entry preserves is preserved by a search. -/
theorem calculateTransform_preserves {Q : CoordTransformService N T → Prop} {dst : Fin N}
    (hQ : ∀ s frm i, Q s → s.transformSet (frm, i) → s.transformSet (i, dst) →
      Q (s.derive frm i dst)) (frm : Fin N) (p : Search N T) (hp : Q p.1) :
    Q (calculateTransform frm dst p).val.1 := by
  induction hn : N - p.2.card using Nat.strongRecOn generalizing frm p with
  | _ n ih =>
    rw [calculateTransform]
    by_cases hvisited : frm ∈ p.2
    · rwa [dif_pos hvisited]
    · rw [dif_neg hvisited]
      refine List.foldlRecOn
        (motive := fun q : {q : Search N T // insert frm p.2 ⊆ q.2} => Q q.val.1)
        _ _ hp fun q hq i _ => ?_
      have hsearch : Q (calculateTransform i dst q.val).val.1 :=
        ih _ (hn ▸ card_decreases hvisited q.property) i q.val hq rfl
      have hgrows := (calculateTransform_found i dst q.val).searched.grows
      unfold via
      dsimp only
      split_ifs with hboth hfirst hdst
      · exact hQ _ frm i hq hboth.1 hboth.2
      · exact hQ _ frm i hsearch (hgrows _ hfirst) hdst
      · exact hsearch
      · exact hq

/-- The entries of a table stay as they are in another one. -/
def Keeps (s s' : CoordTransformService N T) : Prop :=
  ∀ e, s.transformSet e → s'.transformSet e ∧ s'.transforms e = s.transforms e

omit [Mul T] in
theorem Keeps.refl (s : CoordTransformService N T) : s.Keeps s := fun _ h => ⟨h, rfl⟩

omit [Mul T] in
theorem Keeps.trans {s₁ s₂ s₃ : CoordTransformService N T} (h : s₁.Keeps s₂) (h' : s₂.Keeps s₃) :
    s₁.Keeps s₃ := by
  intro e he
  obtain ⟨hset, heq⟩ := h e he
  exact ⟨(h' e hset).1, (h' e hset).2.trans heq⟩

/-- A derived entry was not in the first table. -/
theorem Keeps.derive {s s' : CoordTransformService N T} {frm i dst : Fin N} (h : s.Keeps s')
    (hunset : ¬ s.transformSet (frm, dst)) : s.Keeps (s'.derive frm i dst) := by
  intro e he
  have hne : e ≠ (frm, dst) := fun heq => hunset (heq ▸ he)
  refine ⟨transformSet_derive.mpr (Or.inr (h e he).1), ?_⟩
  show Function.update s'.transforms (frm, dst) _ e = s.transforms e
  rw [Function.update_of_ne hne, (h e he).2]

/-- A search for an entry that is not set writes over none that is. -/
theorem calculateTransform_keeps (frm dst : Fin N) (p : Search N T)
    (hunset : ¬ p.1.transformSet (frm, dst)) :
    p.1.Keeps (calculateTransform frm dst p).val.1 := by
  induction hn : N - p.2.card using Nat.strongRecOn generalizing frm p with
  | _ n ih =>
    rw [calculateTransform]
    by_cases hvisited : frm ∈ p.2
    · rw [dif_pos hvisited]
      exact .refl p.1
    · rw [dif_neg hvisited]
      refine List.foldlRecOn
        (motive := fun q : {q : Search N T // insert frm p.2 ⊆ q.2} => p.1.Keeps q.val.1)
        _ _ (.refl p.1) fun q hq i _ => ?_
      -- the searches from the next systems look for entries that are not set either
      have hsearch : q.val.1.transformSet (frm, i) →
          ¬ (q.val.1.transformSet (frm, i) ∧ q.val.1.transformSet (i, dst)) →
            p.1.Keeps (calculateTransform i dst q.val).val.1 := by
        intro hfirst hboth
        exact hq.trans (ih _ (hn ▸ card_decreases hvisited q.property) i q.val
          (fun hdst => hboth ⟨hfirst, hdst⟩) rfl)
      unfold via
      dsimp only
      split_ifs with hboth hfirst hdst
      · exact hq.derive hunset
      · exact (hsearch hfirst hboth).derive hunset
      · exact hsearch hfirst hboth
      · exact hq

/-! ### finalize -/

/-- The message of `finalize` for a pair without a path. -/
def errMessage (e : Fin N × Fin N) : String :=
  "Failed to calculate transform from coord: " ++ toString e.1.val ++ " to coord: " ++
    toString e.2.val ++ ". Please check your initialization settings!"

/-- `finalize` for one entry. -/
def finalizeEntry (s : CoordTransformService N T) (e : Fin N × Fin N) :
    Except String (CoordTransformService N T) :=
  if e.1 ≠ e.2 ∧ s.transformSet e = false then
    let s' := (calculateTransform e.1 e.2 (s, ∅)).val.1
    if s'.transformSet e then .ok s' else .error (errMessage e)
  else .ok s

/-- `finalize`: the entries that are not set, row by row, from a path of those that are. -/
def finalize (s : CoordTransformService N T) : Except String (CoordTransformService N T) :=
  ((List.finRange N) ×ˢ (List.finRange N)).foldlM finalizeEntry s

/-- There is a path of entries from each system to each other one. -/
def Connected (s : CoordTransformService N T) : Prop :=
  ∀ i j, i ≠ j → Relation.TransGen (fun x y => s.transformSet (x, y)) i j

variable {Q : CoordTransformService N T → Prop}

/-- What a successful round of `finalize` leaves. -/
theorem finalizeEntry_ok (hQ : ∀ s frm i dst, Q s → s.transformSet (frm, i) →
      s.transformSet (i, dst) → Q (s.derive frm i dst))
    {s s' : CoordTransformService N T} {e : Fin N × Fin N} (hs : Q s)
    (h : s.finalizeEntry e = .ok s') :
    Q s' ∧ (∀ e', s.transformSet e' → s'.transformSet e') ∧ (e.1 ≠ e.2 → s'.transformSet e) := by
  by_cases hderive : e.1 ≠ e.2 ∧ s.transformSet e = false
  · rw [finalizeEntry, if_pos hderive] at h
    dsimp only at h
    split_ifs at h with hset
    obtain rfl := Except.ok.inj h
    refine ⟨calculateTransform_preserves (fun s frm i => hQ s frm i e.2) e.1 (s, ∅) hs, ?_,
      fun _ => hset⟩
    exact (calculateTransform_found e.1 e.2 (s, ∅)).searched.grows
  · rw [finalizeEntry, if_neg hderive] at h
    obtain rfl := Except.ok.inj h
    refine ⟨hs, fun _ h => h, fun hne => ?_⟩
    by_contra hunset
    exact hderive ⟨hne, Bool.eq_false_of_not_eq_true hunset⟩

/-- What a successful `finalize` leaves. -/
theorem finalize_ok (hQ : ∀ s frm i dst, Q s → s.transformSet (frm, i) →
      s.transformSet (i, dst) → Q (s.derive frm i dst))
    {s s' : CoordTransformService N T} (hs : Q s) (h : s.finalize = .ok s') :
    Q s' ∧ ∀ i j, i ≠ j → s'.transformSet (i, j) := by
  have hentries : ∀ (entries : List (Fin N × Fin N)) (s : CoordTransformService N T), Q s →
      entries.foldlM finalizeEntry s = .ok s' →
        Q s' ∧ (∀ e, s.transformSet e → s'.transformSet e) ∧
          ∀ e ∈ entries, e.1 ≠ e.2 → s'.transformSet e := by
    intro entries
    induction entries with
    | nil =>
      intro s hs hok
      obtain rfl := Except.ok.inj hok
      exact ⟨hs, fun _ h => h, fun e he => absurd he List.not_mem_nil⟩
    | cons e entries ih =>
      intro s hs hok
      rw [List.foldlM_cons] at hok
      cases hentry : finalizeEntry s e with
      | error message =>
        rw [hentry] at hok
        cases hok
      | ok s₁ =>
        rw [hentry] at hok
        obtain ⟨hs₁, hgrows, hset⟩ := finalizeEntry_ok hQ hs hentry
        obtain ⟨hs', hgrows', hrest⟩ := ih s₁ hs₁ hok
        refine ⟨hs', fun e he => hgrows' e (hgrows e he), ?_⟩
        intro e' he' hne
        rcases List.mem_cons.mp he' with rfl | he'
        · exact hgrows' _ (hset hne)
        · exact hrest e' he' hne
  obtain ⟨hs', -, hset⟩ := hentries _ s hs h
  refine ⟨hs', fun i j hne => hset (i, j) ?_ hne⟩
  exact List.mem_product.mpr ⟨List.mem_finRange i, List.mem_finRange j⟩

theorem finalizeEntry_keeps {s s' : CoordTransformService N T} {e : Fin N × Fin N}
    (h : s.finalizeEntry e = .ok s') : s.Keeps s' := by
  by_cases hderive : e.1 ≠ e.2 ∧ s.transformSet e = false
  · rw [finalizeEntry, if_pos hderive] at h
    dsimp only at h
    split_ifs at h
    obtain rfl := Except.ok.inj h
    exact calculateTransform_keeps e.1 e.2 (s, ∅) (Bool.not_eq_true _ ▸ hderive.2)
  · rw [finalizeEntry, if_neg hderive] at h
    obtain rfl := Except.ok.inj h
    exact .refl s

/-- `finalize` writes over none of the entries that are set. -/
theorem finalize_keeps {s s' : CoordTransformService N T} (h : s.finalize = .ok s') :
    s.Keeps s' := by
  have hentries : ∀ (entries : List (Fin N × Fin N)) (s : CoordTransformService N T),
      entries.foldlM finalizeEntry s = .ok s' → s.Keeps s' := by
    intro entries
    induction entries with
    | nil =>
      intro s hok
      obtain rfl := Except.ok.inj hok
      exact .refl s
    | cons e entries ih =>
      intro s hok
      rw [List.foldlM_cons] at hok
      cases hentry : finalizeEntry s e with
      | error message =>
        rw [hentry] at hok
        cases hok
      | ok s₁ =>
        rw [hentry] at hok
        exact (finalizeEntry_keeps hentry).trans (ih s₁ hok)
  exact hentries _ s h

theorem exists_finalizeEntry {s : CoordTransformService N T} (hconnected : s.Connected)
    (e : Fin N × Fin N) : ∃ s', s.finalizeEntry e = .ok s' := by
  by_cases hderive : e.1 ≠ e.2 ∧ s.transformSet e = false
  · have hset := calculateTransform_complete (hconnected e.1 e.2 hderive.1)
    rw [finalizeEntry, if_pos hderive]
    exact ⟨_, if_pos hset⟩
  · exact ⟨s, if_neg hderive⟩

theorem exists_foldlM_finalizeEntry (entries : List (Fin N × Fin N)) :
    ∀ s : CoordTransformService N T, s.Connected →
      ∃ s', entries.foldlM finalizeEntry s = .ok s' := by
  induction entries with
  | nil =>
    intro s _
    exact ⟨s, rfl⟩
  | cons e entries ih =>
    intro s hconnected
    obtain ⟨s₁, hfirst⟩ := exists_finalizeEntry hconnected e
    obtain ⟨-, hgrows, -⟩ := finalizeEntry_ok (Q := fun _ => True)
      (fun _ _ _ _ _ _ _ => trivial) trivial hfirst
    have hconnected₁ : s₁.Connected := by
      intro i j hne
      exact Relation.TransGen.mono (fun x y => hgrows (x, y)) i j (hconnected i j hne)
    obtain ⟨s', hrest⟩ := ih s₁ hconnected₁
    refine ⟨s', ?_⟩
    rw [List.foldlM_cons, hfirst]
    exact hrest

/-- On a connected table `finalize` succeeds. -/
theorem exists_finalize {s : CoordTransformService N T} (hconnected : s.Connected) :
    ∃ s', s.finalize = .ok s' :=
  exists_foldlM_finalizeEntry _ s hconnected

/-- On a connected table `finalize` sets all entries between different systems. -/
theorem finalize_eq_ok (hQ : ∀ s frm i dst, Q s → s.transformSet (frm, i) →
      s.transformSet (i, dst) → Q (s.derive frm i dst))
    {s : CoordTransformService N T} (hs : Q s) (hconnected : s.Connected) :
    ∃ s', s.finalize = .ok s' ∧ Q s' ∧ ∀ i j, i ≠ j → s'.transformSet (i, j) := by
  obtain ⟨s', hok⟩ := exists_finalize hconnected
  exact ⟨s', hok, finalize_ok hQ hs hok⟩

end CoordTransformService

/-! ### Consistent tables -/

section

variable {N : ℕ} {M : Type} [Monoid M]

/-- Every entry that is set is the change between two of the frames. -/
def Consistent (P : Fin N → Mˣ) (s : CoordTransformService N M) : Prop :=
  ∀ i j, s.transformSet (i, j) → s.transforms (i, j) = Frames.change P i j

variable {P : Fin N → Mˣ}

theorem consistent_init : Consistent P .init :=
  fun _ _ h => absurd h Bool.false_ne_true

theorem Consistent.setTransformInternal {s : CoordTransformService N M} (h : Consistent P s)
    {frm dst : Fin N} {t : M} (ht : t = Frames.change P frm dst) :
    Consistent P (s.setTransformInternal frm dst t) := by
  intro i j hset
  show Function.update s.transforms (frm, dst) t (i, j) = _
  by_cases he : (i, j) = (frm, dst)
  · obtain ⟨rfl, rfl⟩ := Prod.mk.inj he
    rw [Function.update_self, ht]
  · rw [Function.update_of_ne he]
    have hold : Function.update s.transformSet (frm, dst) true (i, j) = true := hset
    rw [Function.update_of_ne he] at hold
    exact h i j hold

/-- An entry and its inverse. -/
theorem Consistent.setBoth {s : CoordTransformService N M} (h : Consistent P s)
    {frm dst : Fin N} {u : Mˣ} (hu : u = (P dst)⁻¹ * P frm) :
    Consistent P (s.setBoth frm dst ↑u ↑u⁻¹) := by
  refine (h.setTransformInternal (congrArg Units.val hu)).setTransformInternal ?_
  rw [hu, mul_inv_rev, inv_inv]
  rfl

theorem Consistent.derive {s : CoordTransformService N M} {frm i dst : Fin N}
    (h : Consistent P s) (hi : s.transformSet (frm, i)) (hdst : s.transformSet (i, dst)) :
    Consistent P (s.derive frm i dst) := by
  refine h.setTransformInternal ?_
  rw [h frm i hi, h i dst hdst, Frames.change_mul_change]

/-- A consistent and connected table is completed to all changes between its frames. -/
theorem Consistent.finalize {s : CoordTransformService N M} (h : Consistent P s)
    (hconnected : s.Connected) :
    ∃ s', s.finalize = .ok s' ∧
      ∀ i j, i ≠ j → s'.getTransform i j = Frames.change P i j := by
  obtain ⟨s', hok, hs', hset⟩ := CoordTransformService.finalize_eq_ok
    (fun _ _ _ _ hs hi hdst => hs.derive hi hdst) h hconnected
  exact ⟨s', hok, fun i j hne => hs' i j (hset i j hne)⟩

end

/-! ### Rigid transforms -/

section

open Matrix

variable {K : Type} [Field K] [LinearOrder K]

/-- The squares of the entries. -/
def squaredNorm (A : Matrix3 K) : K := ∑ i, ∑ j, A i j ^ 2

/-- `isApprox` of Eigen, in single precision. -/
def IsApprox (A B : Matrix3 K) : Prop :=
  squaredNorm (A - B) ≤ (1 / 10 ^ 5) ^ 2 * min (squaredNorm A) (squaredNorm B)

/-- `isValidRotationMatrix`: the columns and the determinant, up to small errors. -/
def IsValidRotationMatrix (rotation : Matrix3 K) : Prop :=
  IsApprox (rotationᵀ * rotation) 1 ∧ |rotation.det - 1| < 1 / 10 ^ 6

/-- `isValidQuaternion`: the norm, up to a small error. -/
def IsValidQuaternion (fns : Camera.RealFns K) (q : HandPose.Quat K) : Prop :=
  |fns.sqrt q.squaredNorm - 1| < 1 / 10 ^ 6

instance (rotation : Matrix3 K) : Decidable (IsValidRotationMatrix rotation) :=
  inferInstanceAs (Decidable (_ ≤ _ ∧ _ < _))

instance (fns : Camera.RealFns K) (q : HandPose.Quat K) : Decidable (IsValidQuaternion fns q) :=
  inferInstanceAs (Decidable (_ < _))

/-- A rotation and then a translation. -/
def rigidTransform (rotation : Matrix3 K) (translation : Vec3 K) : Isometry3 K :=
  ((1 : Isometry3 K).rotate rotation).pretranslate translation

omit [LinearOrder K] in
theorem rigidTransform_isRigid {rotation : Matrix3 K} (h : rotationᵀ * rotation = 1)
    (translation : Vec3 K) : (rigidTransform rotation translation).IsRigid := by
  show ((1 : Matrix3 K) * rotation)ᵀ * (1 * rotation) = 1
  rw [Matrix.one_mul, h]

omit [LinearOrder K] in
theorem toRotationMatrix_orthogonal {q : HandPose.Quat K} (h : q.squaredNorm = 1) :
    q.toRotationMatrixᵀ * q.toRotationMatrix = 1 := by
  apply quaternionMatrix_orthogonal
  rw [← h, HandPose.Quat.squaredNorm]
  ring

namespace CoordTransformService

variable {N : ℕ} (s : CoordTransformService N (Isometry3 K)) (frm dst : Fin N)

/-- `setTransform` with a matrix, which throws if it is no rotation. -/
def setRotation (rotation : Matrix3 K) (translation : Vec3 K) :
    Except String (CoordTransformService N (Isometry3 K)) :=
  let transform := rigidTransform rotation translation
  if IsValidRotationMatrix rotation then .ok (s.setBoth frm dst transform transform.inverse)
  else .error "Invalid rotation matrix provided."

/-- `setTransform` with a quaternion, which throws if it is not of norm 1. -/
def setQuaternion (fns : Camera.RealFns K) (rotation : HandPose.Quat K) (translation : Vec3 K) :
    Except String (CoordTransformService N (Isometry3 K)) :=
  let transform := rigidTransform rotation.toRotationMatrix translation
  if IsValidQuaternion fns rotation then .ok (s.setBoth frm dst transform transform.inverse)
  else .error "Invalid quaternion provided."

variable {s frm dst} [IsStrictOrderedRing K]

theorem setRotation_eq_ok {rotation : Matrix3 K} (horthogonal : rotationᵀ * rotation = 1)
    (hdet : rotation.det = 1) (translation : Vec3 K) :
    s.setRotation frm dst rotation translation =
      .ok (s.setBoth frm dst (rigidTransform rotation translation)
        (rigidTransform rotation translation).inverse) := by
  have hnorm : ∀ A : Matrix3 K, 0 ≤ squaredNorm A :=
    fun A => Finset.sum_nonneg fun i _ => Finset.sum_nonneg fun j _ => sq_nonneg (A i j)
  refine if_pos ⟨?_, ?_⟩
  · have hzero : squaredNorm (0 : Matrix3 K) = 0 := by simp [squaredNorm]
    rw [IsApprox, horthogonal, sub_self, hzero]
    exact mul_nonneg (sq_nonneg _) (le_min (hnorm _) (hnorm _))
  · rw [hdet, sub_self, abs_zero]
    positivity

theorem setQuaternion_eq_ok (fns : Camera.RealFns K) {rotation : HandPose.Quat K}
    (hunit : rotation.squaredNorm = 1) (translation : Vec3 K) :
    s.setQuaternion frm dst fns rotation translation =
      .ok (s.setBoth frm dst (rigidTransform rotation.toRotationMatrix translation)
        (rigidTransform rotation.toRotationMatrix translation).inverse) := by
  have hsqrt : fns.sqrt 1 = 1 := fns.sqrt_eq zero_le_one (one_mul 1)
  refine if_pos ?_
  rw [IsValidQuaternion, hunit, hsqrt, sub_self, abs_zero]
  positivity

end CoordTransformService

end

end Coord

/-
What the entries of the shared service are composed of, after any calls of `setTransform` and
`finalize`.

The code only multiplies and inverts transforms.  Run on compositions that are written out, it
writes down for every entry which transforms went into it, and for which pair each was set.

* `Written` — compositions written out; `run_written` — the run on them computes the same table;
* `UpToDate` — every entry is a composition along a path of transforms set last, and none that has
  been replaced went into it;
* `EdgesKept` — a condition on the calls: no pair set before the first `finalize` has another
  transform now, or every pair was set before it;
* `upToDate_of_edgesKept` — this is enough.
-/
import HandTracking.Recalibration

namespace Coord

open Walks

variable {N : ℕ} {G : Type}

/-- A composition written out: the transforms with the pairs they were set for, the last step
first. -/
abbrev Written (N : ℕ) (G : Type) := FreeMonoid ((Fin N × Fin N) × G)

/-- The way back. -/
instance [Inv G] : Inv (Written N G) :=
  ⟨fun w => FreeMonoid.ofList (w.toList.map fun f => (f.1.swap, f.2⁻¹)).reverse⟩

/-- The composition that is written. -/
def Written.value [Monoid G] : Written N G →ₙ* G :=
  (FreeMonoid.lift Prod.snd : Written N G →* G)

theorem Written.value_of [Monoid G] (f : (Fin N × Fin N) × G) :
    Written.value (FreeMonoid.of f) = f.2 :=
  FreeMonoid.lift_eval_of _ _

/-- The call with the transformation written down, as a word of one letter. -/
def SetTransform.written (c : SetTransform N G) : SetTransform N (Written N G) :=
  ⟨c.frm, c.dst, FreeMonoid.of ((c.frm, c.dst), c.transform)⟩

namespace CoordTransformService

/-- The same call, with the transform written out. -/
def Call.written : Call N G → Call N (Written N G)
  | .setTransform c => .setTransform c.written
  | .finalize => .finalize

/-- The table with its entries written out. -/
def written (s : CoordTransformService N G) : CoordTransformService N (Written N G) where
  transforms e := if s.transformSet e then FreeMonoid.of (e, s.transforms e) else 1
  transformSet := s.transformSet

theorem mapTransforms_setTransformInternal {T T' : Type} [Mul T] [Mul T'] (f : T →ₙ* T')
    (s : CoordTransformService N T) (frm dst : Fin N) (t : T) :
    (s.setTransformInternal frm dst t).mapTransforms f =
      (s.mapTransforms f).setTransformInternal frm dst (f t) := by
  unfold mapTransforms setTransformInternal
  congr 1
  exact funext fun e => Function.apply_update (fun _ => f) s.transforms (frm, dst) t e

section

variable [Group G]

theorem mapTransforms_setTransform_written (s : CoordTransformService N (Written N G))
    (c : SetTransform N G) :
    (s.setTransform c.written).mapTransforms Written.value =
      (s.mapTransforms Written.value).setTransform c := by
  have hforth : Written.value c.written.transform = c.transform :=
    Written.value_of ((c.frm, c.dst), c.transform)
  have hback : Written.value c.written.transform⁻¹ = c.transform⁻¹ :=
    Written.value_of ((c.dst, c.frm), c.transform⁻¹)
  unfold setTransform setBoth
  rw [mapTransforms_setTransformInternal, mapTransforms_setTransformInternal, hforth, hback]
  rfl

/-- Run on written transforms, the code writes down how it composes the entries. -/
theorem run_written (calls : List (Call N G)) :
    (init.run (calls.map Call.written)).map (mapTransforms Written.value) = init.run calls := by
  have hrun : ∀ s : CoordTransformService N (Written N G),
      (s.run (calls.map Call.written)).map (mapTransforms Written.value) =
        (s.mapTransforms Written.value).run calls := by
    induction calls with
    | nil => exact fun s => rfl
    | cons c calls ih =>
      intro s
      cases c with
      | setTransform c =>
        have hset := mapTransforms_setTransform_written s c
        exact (ih _).trans (congrArg (fun s => run s calls) hset)
      | finalize =>
        show (s.finalize >>= fun s₁ => s₁.run (calls.map Call.written)).map _ =
          (s.mapTransforms Written.value).finalize >>= fun s₁ => s₁.run calls
        rw [finalize_mapTransforms]
        cases s.finalize with
        | error message => rfl
        | ok s₁ => exact ih s₁
  refine (hrun init).trans (congrArg (fun s => run s calls) ?_)
  unfold mapTransforms init
  congr 1

end

theorem blank_written (s : CoordTransformService N G) : s.written.Blank := by
  intro e he
  have hset : s.transformSet e = false := he
  show (if s.transformSet e then _ else _) = _
  rw [hset, if_neg Bool.false_ne_true]

theorem written_setTransformInternal (s : CoordTransformService N G) (frm dst : Fin N) (t : G) :
    s.written.setTransformInternal frm dst (FreeMonoid.of ((frm, dst), t)) =
      (s.setTransformInternal frm dst t).written := by
  unfold written setTransformInternal
  congr 1
  funext e
  by_cases he : e = (frm, dst)
  · subst he
    simp
  · simp only [Function.update_of_ne he]

theorem setTransforms_written [One G] [Inv G] (calls : List (SetTransform N G)) :
    setTransforms (calls.map SetTransform.written) = (setTransforms calls).written := by
  induction calls using List.reverseRecOn with
  | nil => rfl
  | append_singleton calls c ih =>
    rw [List.map_append, List.map_singleton, setTransforms_concat, setTransforms_concat, ih]
    unfold setTransform setBoth
    rw [← written_setTransformInternal, ← written_setTransformInternal]
    rfl

/-! ### What the entries are composed of -/

theorem sets_written (calls : List (Call N G)) :
    sets (calls.map Call.written) = (sets calls).map SetTransform.written := by
  induction calls with
  | nil => rfl
  | cons c calls ih =>
    cases c with
    | setTransform c => exact congrArg (c.written :: ·) ih
    | finalize => exact ih

theorem setsBefore_written (calls : List (Call N G)) :
    setsBefore (calls.map Call.written) = (setsBefore calls).map SetTransform.written := by
  induction calls with
  | nil => rfl
  | cons c calls ih =>
    cases c with
    | setTransform c => exact congrArg (c.written :: ·) ih
    | finalize => rfl

theorem setsAfter_written (calls : List (Call N G)) :
    setsAfter (calls.map Call.written) = (setsAfter calls).map SetTransform.written := by
  induction calls with
  | nil => rfl
  | cons c calls ih =>
    cases c with
    | setTransform c => exact ih
    | finalize => exact sets_written calls

theorem touched_written {calls : List (SetTransform N G)} {i j : Fin N} :
    Touched (calls.map SetTransform.written) i j ↔ Touched calls i j := by
  unfold Touched
  constructor
  · rintro ⟨_, hmem, hc⟩
    obtain ⟨c, hmem', rfl⟩ := List.mem_map.mp hmem
    exact ⟨c, hmem', hc⟩
  · rintro ⟨c, hmem, hc⟩
    exact ⟨c.written, List.mem_map_of_mem hmem, hc⟩

section

variable [Group G]

theorem given_written (calls : List (Call N G)) :
    setTransforms (sets (calls.map Call.written)) = (given calls).written := by
  rw [sets_written, setTransforms_written]
  rfl

omit [Group G] in
/-- An entry that `finalize` has derived is composed of the set transforms along its route. -/
theorem finalize_written {s : CoordTransformService N G} {r : CoordTransformService N (Written N G)}
    (h : s.written.finalize = .ok r) (i j : Fin N) :
    (r.transforms (i, j)).toList = (route s.transformSet i j).map fun e => (e, s.transforms e) := by
  obtain ⟨hcompose, hwalk⟩ := finalize_eq_compose (blank_written s) h i j
  have hmap : ∀ w : List (Fin N × Fin N), (∀ e ∈ w, s.transformSet e) →
      (compose s.written.transforms w).toList = w.map fun e => (e, s.transforms e) := by
    intro w hw
    induction w with
    | nil => rfl
    | cons e w ih =>
      obtain ⟨he, hw⟩ := List.forall_mem_cons.mp hw
      rw [compose_cons, FreeMonoid.toList_mul, ih hw]
      show FreeMonoid.toList (if s.transformSet e then _ else _) ++ _ = _
      rw [if_pos he]
      rfl
  rw [hcompose]
  exact hmap _ fun e he => hwalk.edge_of_mem he

variable {calls : List (Call N G)} {s : CoordTransformService N G}
  {r : CoordTransformService N (Written N G)} {i j : Fin N}

/-- The first `finalize` of a written run, and what follows it. -/
theorem exists_first_finalize (hmem : .finalize ∈ calls)
    (hrun : init.run (calls.map Call.written) = .ok r) :
    ∃ r₁, (setTransforms (setsBefore calls)).written.finalize = .ok r₁ ∧
      r = ((setsAfter calls).map SetTransform.written).foldl setTransform r₁ := by
  have hmem' : .finalize ∈ calls.map Call.written := List.mem_map.mpr ⟨_, hmem, rfl⟩
  rw [run_eq _ hmem', setsBefore_written, setsAfter_written, ← setTransforms,
    setTransforms_written] at hrun
  cases hfirst : (setTransforms (setsBefore calls)).written.finalize with
  | error message =>
    rw [hfirst] at hrun
    cases hrun
  | ok r₁ =>
    rw [hfirst] at hrun
    exact ⟨r₁, rfl, (Except.ok.inj hrun).symm⟩

/-- An entry that was set since the first `finalize` is what was set last. -/
theorem written_of_touched (hmem : .finalize ∈ calls)
    (hrun : init.run (calls.map Call.written) = .ok r) (h : Touched (setsAfter calls) i j) :
    (r.transforms (i, j)).toList = [((i, j), (given calls).transforms (i, j))] := by
  obtain ⟨r₁, _, rfl⟩ := exists_first_finalize hmem hrun
  have hgiven := given_written calls
  rw [setTransforms, sets_eq, List.foldl_append, setsAfter_written] at hgiven
  have hset : (given calls).transformSet (i, j) := transformSet_given.mpr (.inr h)
  rw [foldl_setTransform_of_touched _ (touched_written.mpr h) _
    ((setsBefore (calls.map Call.written)).foldl setTransform init), hgiven]
  show FreeMonoid.toList (if (given calls).transformSet (i, j) then _ else _) = _
  rw [if_pos hset]
  rfl

/-- Any other entry is what was derived then. -/
theorem written_of_not_touched (hmem : .finalize ∈ calls)
    (hrun : init.run (calls.map Call.written) = .ok r) (h : ¬Touched (setsAfter calls) i j) :
    (r.transforms (i, j)).toList = (route (setTransforms (setsBefore calls)).transformSet i j).map
      fun e => (e, (setTransforms (setsBefore calls)).transforms e) := by
  obtain ⟨r₁, hfirst, rfl⟩ := exists_first_finalize hmem hrun
  rw [foldl_setTransform_of_not_touched _ fun h' => h (touched_written.mp h')]
  exact finalize_written hfirst i j

/-! ### A condition on the calls -/

/-- The transform that a call sets for a pair, if it is the pair of the call or that pair back. -/
def lastSetBy (c : SetTransform N G) (e : Fin N × Fin N) : Option G :=
  if e = (c.dst, c.frm) then some c.transform⁻¹
  else if e = (c.frm, c.dst) then some c.transform
  else none

/-- The transform that the calls set last for a pair. -/
def lastSet (calls : List (SetTransform N G)) (e : Fin N × Fin N) : Option G :=
  calls.reverse.findSome? fun c => lastSetBy c e

/-- No pair that was set before the first `finalize` has another transform now, unless every pair
was set before it. -/
def EdgesKept (calls : List (Call N G)) : Prop :=
  (∀ i j, i ≠ j → (lastSet (setsBefore calls) (i, j)).isSome) ∨
    ∀ e, (lastSet (setsBefore calls) e).isSome →
      lastSet (sets calls) e = lastSet (setsBefore calls) e

theorem lastSet_eq (calls : List (SetTransform N G)) (e : Fin N × Fin N) :
    lastSet calls e = if (setTransforms calls).transformSet e then
      some ((setTransforms calls).transforms e) else none := by
  induction calls using List.reverseRecOn with
  | nil => rfl
  | append_singleton calls c ih =>
    rw [setTransforms_concat]
    unfold lastSet at ih ⊢
    rw [List.reverse_append, List.reverse_singleton, List.singleton_append, List.findSome?_cons, ih]
    unfold lastSetBy setTransform setBoth setTransformInternal
    by_cases hback : e = (c.dst, c.frm)
    · simp [hback]
    · simp only [if_neg hback, Function.update_of_ne hback]
      by_cases hforth : e = (c.frm, c.dst)
      · simp [hforth]
      · simp [hforth]

/-- What is wanted of the table after the last `finalize`: the entries are compositions of the
transforms set last, and the code did not compose any of them of other transforms. -/
structure UpToDate (calls : List (Call N G)) (s : CoordTransformService N G) : Prop where
  recalibrated : Recalibrated calls s
  noneReplaced : ∃ r, init.run (calls.map Call.written) = .ok r ∧
    r.mapTransforms Written.value = s ∧
      ∀ i j, ∀ f ∈ (r.transforms (i, j)).toList, f.2 = (given calls).transforms f.1

theorem transforms_eq_of_lastSet {calls calls' : List (SetTransform N G)} {e : Fin N × Fin N}
    (hset : (setTransforms calls).transformSet e)
    (h : lastSet calls' e = lastSet calls e) :
    (setTransforms calls).transforms e = (setTransforms calls').transforms e := by
  rw [lastSet_eq, lastSet_eq, if_pos hset] at h
  split at h
  · exact (Option.some.inj h).symm
  · cases h

/-- Under the condition, what was derived at the first `finalize` is still composed of the
transforms set last. -/
theorem EdgesKept.current (hkept : EdgesKept calls) (hmem : .finalize ∈ calls)
    (hrun : init.run (calls.map Call.written) = .ok r) (h : ¬Touched (setsAfter calls) i j) :
    ∀ f ∈ (r.transforms (i, j)).toList, f.2 = (given calls).transforms f.1 := by
  intro f hf
  rcases hkept with hall | hkept
  · -- nothing was derived: the entry is what was set for its own pair
    have hcomplete : (setTransforms (setsBefore calls)).written.Complete := by
      intro x y hne
      by_contra hunset
      have hnot : ¬(setTransforms (setsBefore calls)).transformSet (x, y) = true := hunset
      have hsome := hall x y hne
      rw [lastSet_eq, if_neg hnot] at hsome
      exact absurd hsome Bool.false_ne_true
    obtain ⟨r₁, hfirst, rfl⟩ := exists_first_finalize hmem hrun
    rw [hcomplete.finalize_eq] at hfirst
    obtain rfl := Except.ok.inj hfirst
    rw [foldl_setTransform_of_not_touched _ fun h' => h (touched_written.mp h')] at hf
    unfold written at hf
    dsimp only at hf
    split at hf
    · obtain rfl := List.mem_singleton.mp hf
      rw [given_eq, foldl_setTransform_of_not_touched _ h]
    · exact absurd hf List.not_mem_nil
  · rw [written_of_not_touched hmem hrun h] at hf
    obtain ⟨e, he, rfl⟩ := List.mem_map.mp hf
    obtain ⟨r₁, hfirst, _⟩ := exists_first_finalize hmem hrun
    have hset : (setTransforms (setsBefore calls)).transformSet e :=
      (finalize_eq_compose (blank_written _) hfirst i j).2.edge_of_mem he
    exact transforms_eq_of_lastSet hset (hkept e (by rw [lastSet_eq, if_pos hset]; rfl))

/-- An entry is composed along a path of set pairs. -/
theorem isWalk_written (hmem : .finalize ∈ calls)
    (hrun : init.run (calls.map Call.written) = .ok r) (i j : Fin N) :
    IsWalk (fun e => (given calls).transformSet e) i
      ((r.transforms (i, j)).toList.map Prod.fst) j := by
  by_cases h : Touched (setsAfter calls) i j
  · rw [written_of_touched hmem hrun h]
    exact .single (transformSet_given.mpr (.inr h))
  · obtain ⟨r₁, hfirst, _⟩ := exists_first_finalize hmem hrun
    have hwalk := (finalize_eq_compose (blank_written _) hfirst i j).2
    rw [written_of_not_touched hmem hrun h, List.map_map]
    exact (List.map_id _).symm ▸ hwalk.mono fun e hset => transformSet_given.mpr (.inl hset)

/-- After any calls that keep the condition, with a `finalize` at their end, the table is up to
date. -/
theorem upToDate_of_edgesKept {calls : List (Call N G)}
    (hrun : init.run (calls ++ [.finalize]) = .ok s) (hkept : EdgesKept (calls ++ [.finalize])) :
    UpToDate (calls ++ [.finalize]) s := by
  have hmem : (.finalize : Call N G) ∈ calls ++ [.finalize] := by simp
  generalize calls ++ [.finalize] = calls at hrun hkept hmem ⊢
  have hwritten := run_written calls
  rw [hrun] at hwritten
  cases hr : init.run (calls.map Call.written) with
  | error message =>
    rw [hr] at hwritten
    cases hwritten
  | ok r =>
    rw [hr] at hwritten
    obtain rfl := Except.ok.inj hwritten
    have hcurrent : ∀ i j, ∀ f ∈ (r.transforms (i, j)).toList,
        f.2 = (given calls).transforms f.1 := by
      intro i j
      by_cases h : Touched (setsAfter calls) i j
      · rw [written_of_touched hmem hr h]
        exact fun f hf => List.mem_singleton.mp hf ▸ rfl
      · exact hkept.current hmem hr h
    refine ⟨fun i j _ => ⟨_, isWalk_written hmem hr i j, ?_⟩, r, hr, rfl, hcurrent⟩
    show (FreeMonoid.lift Prod.snd (r.transforms (i, j)) : G) = _
    rw [FreeMonoid.lift_apply, compose, List.map_map]
    exact congrArg List.prod (List.map_congr_left (hcurrent i j))

end

end CoordTransformService

/-! ### A second calibration -/

open CoordTransformService

theorem threeSystems_finalize : ∃ s, (setTransforms threeSystems).finalize = .ok s :=
  (exists_finalize_iff threeSystems).mpr threeSystems_preconnected

/-- The same calibration twice, and another transform for the derived pair. -/
def calibratedTwice : List (Call 3 (Multiplicative ℤ)) :=
  threeSystems.map .setTransform ++ .finalize :: threeSystems.map .setTransform ++
    [.setTransform ⟨0, 1, .ofAdd 3⟩]

theorem upToDate_of_edgesKept_twice :
    ∃ s, init.run (calibratedTwice ++ [.finalize]) = .ok s ∧
      UpToDate (calibratedTwice ++ [.finalize]) s := by
  obtain ⟨s, hs⟩ := threeSystems_finalize
  have hrun : init.run (calibratedTwice ++ [.finalize]) = .ok _ :=
    (run_eq init (by simp [calibratedTwice])).trans (congrArg (Except.map _) hs)
  exact ⟨_, hrun, upToDate_of_edgesKept hrun (.inr (by decide))⟩

/-- The first transform, set again to another one. -/
def setAgain : SetTransform 3 (Multiplicative ℤ) := ⟨0, 2, .ofAdd 6⟩

/-- Three systems, after whose `finalize` an edge is set again. -/
def replacedFirst : List (Call 3 (Multiplicative ℤ)) :=
  threeSystems.map .setTransform ++ [.finalize, .setTransform setAgain]

theorem replacedFirst_consistent :
    Consistent (systemPoses 6) (given (replacedFirst ++ [.finalize])) := by
  intro i j hset
  fin_cases i <;> fin_cases j <;> first | rfl | cases hset

/-- The entry derived from it keeps the old one. -/
theorem replacedFirst_not_upToDate :
    ¬ ∀ (calls : List (Call 3 (Multiplicative ℤ))) (s : CoordTransformService 3 (Multiplicative ℤ)),
      init.run (calls ++ [.finalize]) = .ok s → UpToDate (calls ++ [.finalize]) s := by
  intro h
  obtain ⟨s, hs⟩ := threeSystems_finalize
  have hrun : init.run (replacedFirst ++ [.finalize]) = .ok (s.setTransform setAgain) :=
    (run_eq init (by simp)).trans
      (congrArg (Except.map fun s => s.setTransform setAgain) hs)
  have hnot : ¬ Touched (setsAfter (replacedFirst ++ [.finalize])) 0 1 := by
    show ¬ ∃ c ∈ [setAgain], _
    simp [setAgain]
  have hcurrent := (h _ _ hrun).recalibrated
  obtain ⟨w, hw, hcompose⟩ := (recalibrated_iff_routesCurrent hrun).mp hcurrent 0 1 hnot
  have hroute := (finalize_eq_compose (blank_setTransforms threeSystems) hs 0 1).2
  have hold := compose_eq_change (t := (setTransforms threeSystems).transforms)
    (fun i j => threeSystems_consistent i j) hroute
  have hnew := compose_eq_change (t := (given (replacedFirst ++ [.finalize])).transforms)
    (fun i j => replacedFirst_consistent i j) hw
  have hsame : Frames.change (systemPoses 5) 0 1 = Frames.change (systemPoses 6) 0 1 :=
    hold.symm.trans (hcompose.trans hnew)
  exact absurd hsame (by decide)

end Coord

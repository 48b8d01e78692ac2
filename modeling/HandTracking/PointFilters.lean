/-
The loops of `HandFilters::process`: the points are split into three lists, each list goes
through its own `SeqManager3D`, and three running counters put the points back.

* `SeqBank` — `SeqManager3D` as it is stored, `getFilterHandData_bankOf` for one call;
* `split_eq`, `putBack_eq` — the two loops over the points;
* `PointFilters` — what they are for: each coordinate of each keypoint has its own filter;
* `process_banksOf` — the loops do this, `process_holds` — and so does `HandSideFilters.process`;
* `run_banksOf`, `process_per_point` — runs of `process` and `reset`.

Accesses outside of a list give `none`.
-/
import HandTracking.PostFilter
import Mathlib.Data.List.GetD

namespace HandPose

open Predictor

variable {K : Type} [Field K] [LinearOrder K]

/-! ### The filters as they are stored -/

/-- `SeqManager3D`: `mOneEuroFilterList` holds three filters for each of `mSampleNum` points. -/
structure SeqBank (K : Type) [Field K] [LinearOrder K] where
  sampleNum : ℕ
  oneEuroFilterList : List (OneEuroFilter K)

namespace SeqBank

/-- The constructor: three filters for each point. -/
def init (sampleNum : ℕ) (params : Fin 3 → OneEuroParams K) : SeqBank K where
  sampleNum := sampleNum
  oneEuroFilterList := (List.range sampleNum).flatMap fun _ =>
    [.init (params 0), .init (params 1), .init (params 2)]

/-- `SeqManager3D::reset` -/
def reset (m : SeqBank K) : SeqBank K :=
  { m with oneEuroFilterList := m.oneEuroFilterList.map (·.reset) }

/-- `kpt_3d[i][c] = mOneEuroFilterList[i * 3 + c]->filter(kpt_3d[i][c])` -/
def filterCoord (i : ℕ) (c : Fin 3) (s : List (OneEuroFilter K) × List (Vec3 K)) :
    Option (List (OneEuroFilter K) × List (Vec3 K)) := do
  let filter ← s.1[i * 3 + c.val]?
  let kpt ← s.2[i]?
  let result := filter.filter (kpt c)
  return (s.1.set (i * 3 + c.val) result.1, s.2.set i (Function.update kpt c result.2))

/-- One pass of the loop: the three coordinates of a point. -/
def filterPoint (s : List (OneEuroFilter K) × List (Vec3 K)) (i : ℕ) :
    Option (List (OneEuroFilter K) × List (Vec3 K)) := do
  let s ← filterCoord i 0 s
  let s ← filterCoord i 1 s
  filterCoord i 2 s

/-- `getFilterHandData`; `none` for an access outside of a list. -/
def getFilterHandData (m : SeqBank K) (kpt3d : List (Vec3 K)) :
    Option (SeqBank K × List (Vec3 K)) := do
  let s ← (List.range m.sampleNum).foldlM filterPoint (m.oneEuroFilterList, kpt3d)
  return ({ m with oneEuroFilterList := s.1 }, s.2)

end SeqBank

/-! ### The loops over the points -/

/-- `kKeypointRootId`, as a loop index. -/
def rootIndex : ℕ := 21

/-- The branches of both loops of `process`. -/
inductive KeypointPart where
  | root
  | palm
  | index
  | rel
  deriving DecidableEq

/-- The branch for an index; the sets hold integers. -/
def partOf (fmt : HandJointFormat) (i : ℕ) : KeypointPart :=
  if i = rootIndex then .root
  else if i ∈ (kPalmKeypointIndexSet fmt).map Fin.valEmbedding then .palm
  else if i ∈ (kIndexFingerIndexSet fmt).map Fin.valEmbedding then .index
  else .rel

/-- `rel_points`, `palm_points`, `index_points` -/
structure PointGroups (K : Type) where
  rel : List (Vec3 K)
  palm : List (Vec3 K)
  index : List (Vec3 K)

/-- One pass of the first loop: the point goes to the list of its part. -/
def splitStep (fmt : HandJointFormat) (relPoint : ℕ → Vec3 K) (g : PointGroups K) (i : ℕ) :
    PointGroups K :=
  match partOf fmt i with
  | .root => g
  | .palm => { g with palm := g.palm ++ [relPoint i] }
  | .index => { g with index := g.index ++ [relPoint i] }
  | .rel => { g with rel := g.rel ++ [relPoint i] }

/-- The running counters of the second loop. -/
structure PointCounters where
  p : ℕ
  q : ℕ
  k : ℕ

/-- The second loop, over the remaining indices. -/
def putBack (fmt : HandJointFormat) (rootPoint : Vec3 K) (g : PointGroups K) :
    List ℕ → PointCounters → Option (List (Vec3 K))
  | [], _ => some []
  | i :: is, n =>
    match partOf fmt i with
    | .root => do
      let rest ← putBack fmt rootPoint g is n
      return rootPoint :: rest
    | .palm => do
      let point ← g.palm[n.q]?
      let rest ← putBack fmt rootPoint g is { n with q := n.q + 1 }
      return (rootPoint + point) :: rest
    | .index => do
      let point ← g.index[n.k]?
      let rest ← putBack fmt rootPoint g is { n with k := n.k + 1 }
      return (rootPoint + point) :: rest
    | .rel => do
      let point ← g.rel[n.p]?
      let rest ← putBack fmt rootPoint g is { n with p := n.p + 1 }
      return (rootPoint + point) :: rest

/-- The managers of one hand. -/
structure HandSideBanks (K : Type) [Field K] [LinearOrder K] where
  seq3dIndex : SeqBank K
  seq3dHand : SeqBank K
  seq3dPalm : SeqBank K

namespace HandSideBanks

/-- `set_filter_param`, for one hand. -/
def setFilterParam (fmt : HandJointFormat)
    (palmParams indexFingerParams otherFingerParams : Fin 3 → OneEuroParams K) :
    HandSideBanks K where
  seq3dIndex := .init (kIndexFingerIndexSet fmt).card indexFingerParams
  seq3dHand := .init 12 otherFingerParams
  seq3dPalm := .init (kPalmKeypointIndexSet fmt).card palmParams

/-- `HandFilters::process` on the managers of the given hand. -/
def process (fmt : HandJointFormat) (side : HandSideBanks K) (point3d : List (Vec3 K)) :
    Option (HandSideBanks K × List (Vec3 K)) := do
  let rootPoint ← point3d[rootIndex]?
  let g := (List.range point3d.length).foldl
    (splitStep fmt fun i => point3d.getD i 0 - rootPoint) ⟨[], [], []⟩
  let index ← side.seq3dIndex.getFilterHandData g.index
  let hand ← side.seq3dHand.getFilterHandData g.rel
  let palm ← side.seq3dPalm.getFilterHandData g.palm
  let result ← putBack fmt rootPoint ⟨hand.2, palm.2, index.2⟩ (List.range point3d.length) ⟨0, 0, 0⟩
  return (⟨index.1, hand.1, palm.1⟩, result)

/-- All three managers are reset. -/
def reset (side : HandSideBanks K) : HandSideBanks K :=
  ⟨side.seq3dIndex.reset, side.seq3dHand.reset, side.seq3dPalm.reset⟩

end HandSideBanks

/-- The members of `HandFilters`; the left hand has the index 0. -/
abbrev HandFilterBanks (K : Type) [Field K] [LinearOrder K] := Fin 2 → HandSideBanks K

/-- `hand_side == 0` -/
def sideOf (handSide : ℤ) : Fin 2 := if handSide = 0 then 0 else 1

namespace HandFilterBanks

/-- `HandFilters::process`, with the number of the side. -/
def process (fmt : HandJointFormat) (filters : HandFilterBanks K) (handSide : ℤ)
    (point3d : List (Vec3 K)) : Option (HandFilterBanks K × List (Vec3 K)) := do
  let result ← (filters (sideOf handSide)).process fmt point3d
  return (Function.update filters (sideOf handSide) result.1, result.2)

/-- `HandFilters::reset`, with the number of the side. -/
def reset (filters : HandFilterBanks K) (handSide : ℤ) : HandFilterBanks K :=
  Function.update filters (sideOf handSide) (filters (sideOf handSide)).reset

end HandFilterBanks

/-! ### A filter for each coordinate of each keypoint -/

/-- What the filters are for. -/
abbrev PointFilters (K : Type) [Field K] [LinearOrder K] := ℕ → Fin 3 → OneEuroFilter K

namespace PointFilters

/-- Each filter gets its own coordinate. -/
def next (F : PointFilters K) (relPoint : ℕ → Vec3 K) : PointFilters K :=
  fun i c => ((F i c).filter (relPoint i c)).1

/-- What the filters of a point make of it. -/
def out (F : PointFilters K) (relPoint : ℕ → Vec3 K) (i : ℕ) : Vec3 K :=
  fun c => ((F i c).filter (relPoint i c)).2

end PointFilters

/-- The filters of some keypoints, in the order of the list. -/
def bankOf (F : PointFilters K) (is : List ℕ) : SeqBank K where
  sampleNum := is.length
  oneEuroFilterList := is.flatMap fun i => [F i 0, F i 1, F i 2]

namespace SeqBank

/-- The filter of a coordinate is found behind the ones of the points before. -/
theorem filterCoord_append {before : List (OneEuroFilter K)} {done : List (Vec3 K)} {i : ℕ}
    (hbefore : before.length = i * 3) (hdone : done.length = i) {c : Fin 3}
    {filters : List (OneEuroFilter K)} {f : OneEuroFilter K} (hf : filters[c.val]? = some f)
    (kpt : Vec3 K) (rest : List (Vec3 K)) :
    filterCoord i c (before ++ filters, done ++ kpt :: rest) =
      some (before ++ filters.set c (f.filter (kpt c)).1,
        done ++ Function.update kpt c (f.filter (kpt c)).2 :: rest) := by
  have hfilter : (before ++ filters)[i * 3 + c.val]? = some f := by
    rw [← hbefore, List.getElem?_append_right (Nat.le_add_right _ _), Nat.add_sub_cancel_left, hf]
  have hkpt : (done ++ kpt :: rest)[i]? = some kpt := by
    rw [← hdone, List.getElem?_append_right le_rfl, Nat.sub_self, List.getElem?_cons_zero]
  have hstore (g : OneEuroFilter K) :
      (before ++ filters).set (i * 3 + c.val) g = before ++ filters.set c g := by
    rw [← hbefore, List.set_append_right _ _ (Nat.le_add_right _ _), Nat.add_sub_cancel_left]
  have hset (p : Vec3 K) : (done ++ kpt :: rest).set i p = done ++ p :: rest := by
    rw [← hdone, List.set_append_right _ _ le_rfl, Nat.sub_self, List.set_cons_zero]
  simp only [filterCoord, hfilter, hkpt, hstore, hset, Option.bind_eq_bind, Option.bind_some,
    Option.pure_def]

/-- One round of `getFilterHandData` filters one point with its three filters. -/
theorem filterPoint_append {before : List (OneEuroFilter K)} {done : List (Vec3 K)} {i : ℕ}
    (hbefore : before.length = i * 3) (hdone : done.length = i) (f : Fin 3 → OneEuroFilter K)
    (after : List (OneEuroFilter K)) (kpt : Vec3 K) (rest : List (Vec3 K)) :
    filterPoint (before ++ (f 0 :: f 1 :: f 2 :: after), done ++ kpt :: rest) i =
      some (before ++ (((f 0).filter (kpt 0)).1 :: ((f 1).filter (kpt 1)).1 ::
          ((f 2).filter (kpt 2)).1 :: after),
        done ++ (fun c => ((f c).filter (kpt c)).2) :: rest) := by
  have hpoint : Function.update (Function.update (Function.update kpt 0 ((f 0).filter (kpt 0)).2) 1
      ((f 1).filter (kpt 1)).2) 2 ((f 2).filter (kpt 2)).2 =
        fun c => ((f c).filter (kpt c)).2 := by
    funext c
    match c with
    | 0 => rfl
    | 1 => rfl
    | 2 => rfl
  rw [← hpoint, filterPoint, filterCoord_append hbefore hdone (c := 0) rfl]
  show (filterCoord i 1 _).bind _ = _
  rw [filterCoord_append hbefore hdone (c := 1) rfl]
  show filterCoord i 2 _ = _
  rw [filterCoord_append hbefore hdone (c := 2) rfl]
  rfl

end SeqBank

/-- The rounds over the remaining points. -/
theorem foldlM_filterPoint (F : PointFilters K) (relPoint : ℕ → Vec3 K) (is : List ℕ)
    (before : List (OneEuroFilter K)) (done : List (Vec3 K))
    (hbefore : before.length = done.length * 3) :
    (List.range' done.length is.length).foldlM SeqBank.filterPoint
        (before ++ (bankOf F is).oneEuroFilterList, done ++ is.map relPoint) =
      some (before ++ (bankOf (F.next relPoint) is).oneEuroFilterList,
        done ++ is.map (F.out relPoint)) := by
  induction is generalizing before done with
  | nil => rfl
  | cons i is ih =>
    have hround := SeqBank.filterPoint_append hbefore rfl (F i)
      (bankOf F is).oneEuroFilterList (relPoint i) (is.map relPoint)
    rw [List.length_cons, List.range'_succ, List.foldlM_cons, List.map_cons]
    show (SeqBank.filterPoint (before ++ (F i 0 :: F i 1 :: F i 2 ::
      (bankOf F is).oneEuroFilterList), _) _).bind _ = _
    rw [hround]
    have hlength : (before ++ [((F i 0).filter (relPoint i 0)).1,
        ((F i 1).filter (relPoint i 1)).1, ((F i 2).filter (relPoint i 2)).1]).length =
        (done ++ [F.out relPoint i]).length * 3 := by
      simp only [List.length_append, List.length_cons, List.length_nil, hbefore]
      omega
    have hrest := ih _ _ hlength
    simp only [List.append_assoc, List.length_append, List.length_cons, List.length_nil] at hrest
    exact hrest

/-- **A manager filters each of its points with the filters of this point.** -/
theorem getFilterHandData_bankOf (F : PointFilters K) (relPoint : ℕ → Vec3 K) (is : List ℕ) :
    (bankOf F is).getFilterHandData (is.map relPoint) =
      some (bankOf (F.next relPoint) is, is.map (F.out relPoint)) := by
  have hloop := foldlM_filterPoint F relPoint is [] [] rfl
  rw [SeqBank.getFilterHandData, List.range_eq_range']
  show (List.foldlM SeqBank.filterPoint ((bankOf F is).oneEuroFilterList, is.map relPoint)
    (List.range' 0 is.length)).bind _ = _
  rw [List.nil_append, List.nil_append, List.length_nil] at hloop
  rw [hloop]
  rfl

theorem reset_bankOf (F : PointFilters K) (is : List ℕ) :
    (bankOf F is).reset = bankOf (fun i c => (F i c).reset) is := by
  rw [SeqBank.reset, bankOf, bankOf, List.map_flatMap]
  rfl

/-- New filters do not depend on the points they are for. -/
theorem init_eq_bankOf (params : Fin 3 → OneEuroParams K) (is : List ℕ) :
    SeqBank.init is.length params = bankOf (fun _ c => .init (params c)) is := by
  have hlist (js : List ℕ) (h : js.length = is.length) :
      (js.flatMap fun _ => [OneEuroFilter.init (params 0), .init (params 1), .init (params 2)]) =
        is.flatMap fun _ => [.init (params 0), .init (params 1), .init (params 2)] := by
    rw [List.flatMap_def, List.flatMap_def, List.map_const', List.map_const', h]
  rw [SeqBank.init, bankOf, hlist _ List.length_range]

/-! ### The loops over the points -/

/-- The keypoints of a branch, in their order. -/
def indicesOf (fmt : HandJointFormat) (part : KeypointPart) (is : List ℕ) : List ℕ :=
  is.filter fun i => partOf fmt i = part

theorem indicesOf_cons (fmt : HandJointFormat) (part : KeypointPart) (i : ℕ) (is : List ℕ) :
    indicesOf fmt part (i :: is) =
      if partOf fmt i = part then i :: indicesOf fmt part is else indicesOf fmt part is := by
  rw [indicesOf, List.filter_cons]
  simp only [decide_eq_true_eq]
  rfl

/-- The banks that `set_filter_param` makes have the sizes of the three lists. -/
theorem length_indicesOf (fmt : HandJointFormat) :
    (indicesOf fmt .index (List.range fmt.keypointNum)).length = (kIndexFingerIndexSet fmt).card ∧
      (indicesOf fmt .rel (List.range fmt.keypointNum)).length = 12 ∧
      (indicesOf fmt .palm (List.range fmt.keypointNum)).length =
        (kPalmKeypointIndexSet fmt).card := by
  cases fmt <;> decide

variable {fmt : HandJointFormat}

omit [Field K] [LinearOrder K] in
/-- **The first loop.** -/
theorem split_eq (relPoint : ℕ → Vec3 K) (is : List ℕ) (g : PointGroups K) :
    is.foldl (splitStep fmt relPoint) g =
      ⟨g.rel ++ (indicesOf fmt .rel is).map relPoint,
        g.palm ++ (indicesOf fmt .palm is).map relPoint,
        g.index ++ (indicesOf fmt .index is).map relPoint⟩ := by
  induction is generalizing g with
  | nil => simp [indicesOf]
  | cons i is ih =>
    rw [List.foldl_cons, ih, splitStep]
    cases hpart : partOf fmt i with
    | root => simp [indicesOf_cons, hpart]
    | palm => simp [indicesOf_cons, hpart]
    | index => simp [indicesOf_cons, hpart]
    | rel => simp [indicesOf_cons, hpart]

/-- The points that the counters have not reached are the ones of the remaining indices. -/
structure Remaining (fmt : HandJointFormat) (g : PointGroups K) (out : ℕ → Vec3 K) (is : List ℕ)
    (n : PointCounters) : Prop where
  rel : g.rel.drop n.p = (indicesOf fmt .rel is).map out
  palm : g.palm.drop n.q = (indicesOf fmt .palm is).map out
  index : g.index.drop n.k = (indicesOf fmt .index is).map out

theorem getElem?_of_drop_eq_cons {α : Type} {l : List α} {n : ℕ} {a : α} {rest : List α}
    (h : l.drop n = a :: rest) : l[n]? = some a ∧ l.drop (n + 1) = rest := by
  constructor
  · rw [← List.head?_drop, h, List.head?_cons]
  · rw [← List.drop_drop, h]
    rfl

theorem partOf_eq_root {i : ℕ} : partOf fmt i = .root ↔ i = rootIndex := by
  rw [partOf]
  split_ifs with hroot hpalm hindex
  · simp [hroot]
  · simp [hroot]
  · simp [hroot]
  · simp [hroot]

namespace Remaining

variable {g : PointGroups K} {out : ℕ → Vec3 K} {i : ℕ} {is : List ℕ} {n : PointCounters}

omit [Field K] [LinearOrder K] in
/-- No counter moves at the root. -/
theorem root_step (h : Remaining fmt g out (i :: is) n) (hpart : partOf fmt i = .root) :
    Remaining fmt g out is n where
  rel := by simpa [indicesOf_cons, hpart] using h.rel
  palm := by simpa [indicesOf_cons, hpart] using h.palm
  index := by simpa [indicesOf_cons, hpart] using h.index

omit [Field K] [LinearOrder K] in
/-- The counter of its list finds a point of the palm; the other two stay. -/
theorem palm_step (h : Remaining fmt g out (i :: is) n) (hpart : partOf fmt i = .palm) :
    g.palm[n.q]? = some (out i) ∧ Remaining fmt g out is { n with q := n.q + 1 } := by
  obtain ⟨hrel, hpalm, hindex⟩ := h
  simp only [indicesOf_cons, hpart, reduceCtorEq, if_true, if_false, List.map_cons]
    at hrel hpalm hindex
  obtain ⟨hpoint, hnext⟩ := getElem?_of_drop_eq_cons hpalm
  exact ⟨hpoint, hrel, hnext, hindex⟩

omit [Field K] [LinearOrder K] in
theorem index_step (h : Remaining fmt g out (i :: is) n) (hpart : partOf fmt i = .index) :
    g.index[n.k]? = some (out i) ∧ Remaining fmt g out is { n with k := n.k + 1 } := by
  obtain ⟨hrel, hpalm, hindex⟩ := h
  simp only [indicesOf_cons, hpart, reduceCtorEq, if_true, if_false, List.map_cons]
    at hrel hpalm hindex
  obtain ⟨hpoint, hnext⟩ := getElem?_of_drop_eq_cons hindex
  exact ⟨hpoint, hrel, hpalm, hnext⟩

omit [Field K] [LinearOrder K] in
theorem rel_step (h : Remaining fmt g out (i :: is) n) (hpart : partOf fmt i = .rel) :
    g.rel[n.p]? = some (out i) ∧ Remaining fmt g out is { n with p := n.p + 1 } := by
  obtain ⟨hrel, hpalm, hindex⟩ := h
  simp only [indicesOf_cons, hpart, reduceCtorEq, if_true, if_false, List.map_cons]
    at hrel hpalm hindex
  obtain ⟨hpoint, hnext⟩ := getElem?_of_drop_eq_cons hrel
  exact ⟨hpoint, hnext, hpalm, hindex⟩

end Remaining

omit [LinearOrder K] in
/-- **The second loop puts each point back to its index.** -/
theorem putBack_eq (rootPoint : Vec3 K) {g : PointGroups K} {out : ℕ → Vec3 K} {is : List ℕ}
    {n : PointCounters} (h : Remaining fmt g out is n) :
    putBack fmt rootPoint g is n =
      some (is.map fun i => if i = rootIndex then rootPoint else rootPoint + out i) := by
  induction is generalizing n with
  | nil => rfl
  | cons i is ih =>
    have hroot : i = rootIndex ↔ partOf fmt i = .root := partOf_eq_root.symm
    simp only [List.map_cons, putBack, hroot]
    cases hpart : partOf fmt i with
    | root =>
      simp [ih (h.root_step hpart)]
    | palm =>
      obtain ⟨hpoint, hnext⟩ := h.palm_step hpart
      simp [hpoint, ih hnext]
    | index =>
      obtain ⟨hpoint, hnext⟩ := h.index_step hpart
      simp [hpoint, ih hnext]
    | rel =>
      obtain ⟨hpoint, hnext⟩ := h.rel_step hpart
      simp [hpoint, ih hnext]

/-! ### One call -/

/-- The managers of a hand, for the filters of all keypoints. -/
def banksOf (fmt : HandJointFormat) (F : PointFilters K) : HandSideBanks K where
  seq3dIndex := bankOf F (indicesOf fmt .index (List.range fmt.keypointNum))
  seq3dHand := bankOf F (indicesOf fmt .rel (List.range fmt.keypointNum))
  seq3dPalm := bankOf F (indicesOf fmt .palm (List.range fmt.keypointNum))

/-- The points relative to the root. -/
def relPoint (point3d : List (Vec3 K)) (i : ℕ) : Vec3 K :=
  point3d.getD i 0 - point3d.getD rootIndex 0

theorem rootIndex_lt (fmt : HandJointFormat) : rootIndex < fmt.keypointNum := by
  cases fmt <;> decide

/-- What a call returns: the root, and the filtered points around it. -/
def PointFilters.result (fmt : HandJointFormat) (F : PointFilters K) (point3d : List (Vec3 K)) :
    List (Vec3 K) :=
  (List.range fmt.keypointNum).map fun i =>
    if i = rootIndex then point3d.getD rootIndex 0
    else point3d.getD rootIndex 0 + F.out (relPoint point3d) i

/-- **The loops filter each keypoint with its own filters** and leave the root as it is. -/
theorem process_banksOf (F : PointFilters K) {point3d : List (Vec3 K)}
    (hfull : point3d.length = fmt.keypointNum) :
    (banksOf fmt F).process fmt point3d =
      some (banksOf fmt (F.next (relPoint point3d)), F.result fmt point3d) := by
  have hroot : point3d[rootIndex]? = some (point3d.getD rootIndex 0) := by
    have hlt : rootIndex < point3d.length := hfull ▸ rootIndex_lt fmt
    rw [List.getD_eq_getElem?_getD, List.getElem?_eq_getElem hlt]
    rfl
  have hsplit : (List.range fmt.keypointNum).foldl (splitStep fmt (relPoint point3d)) ⟨[], [], []⟩ =
      _ :=
    split_eq (relPoint point3d) (List.range fmt.keypointNum) ⟨[], [], []⟩
  simp only [List.nil_append] at hsplit
  have hput : putBack fmt (point3d.getD rootIndex 0)
      ⟨(indicesOf fmt .rel (List.range fmt.keypointNum)).map (F.out (relPoint point3d)),
        (indicesOf fmt .palm (List.range fmt.keypointNum)).map (F.out (relPoint point3d)),
        (indicesOf fmt .index (List.range fmt.keypointNum)).map (F.out (relPoint point3d))⟩
      (List.range fmt.keypointNum) ⟨0, 0, 0⟩ = _ :=
    putBack_eq _ ⟨rfl, rfl, rfl⟩
  have hfilters (part : KeypointPart) :=
    getFilterHandData_bankOf F (relPoint point3d) (indicesOf fmt part (List.range fmt.keypointNum))
  have hrel : (fun i => point3d.getD i 0 - point3d.getD rootIndex 0) = relPoint point3d := rfl
  simp only [HandSideBanks.process, hroot, hfull, Option.bind_eq_bind, Option.bind_some, hrel,
    hsplit, banksOf, hfilters, hput]
  rfl

namespace PointFilters

variable {F : PointFilters K} {point3d : List (Vec3 K)}

theorem length_result : (F.result fmt point3d).length = fmt.keypointNum := by
  simp [result]

theorem getD_result {i : ℕ} (hi : i < fmt.keypointNum) : (F.result fmt point3d).getD i 0 =
    if i = rootIndex then point3d.getD rootIndex 0
    else point3d.getD rootIndex 0 + F.out (relPoint point3d) i := by
  have hlt : i < (F.result fmt point3d).length := by rwa [length_result]
  rw [List.getD_eq_getElem _ _ hlt]
  simp [result]

theorem root_result : (F.result fmt point3d).getD rootIndex 0 = point3d.getD rootIndex 0 := by
  rw [getD_result (rootIndex_lt fmt), if_pos rfl]

theorem relPoint_result {i : ℕ} (hi : i < fmt.keypointNum) (hne : i ≠ rootIndex) :
    relPoint (F.result fmt point3d) i = F.out (relPoint point3d) i := by
  rw [relPoint, root_result, getD_result hi, if_neg hne, add_sub_cancel_left]

/-- Filters that return what they get return the points. -/
theorem result_eq_self (hfull : point3d.length = fmt.keypointNum)
    (h : ∀ i < fmt.keypointNum, F.out (relPoint point3d) i = relPoint point3d i) :
    F.result fmt point3d = point3d := by
  refine List.ext_getElem (length_result.trans hfull.symm) fun i hi hi' => ?_
  have hlt : i < fmt.keypointNum := hfull ▸ hi'
  rw [← List.getD_eq_getElem _ 0 hi, ← List.getD_eq_getElem _ 0 hi', getD_result hlt]
  split_ifs with heq
  · rw [heq]
  · rw [h i hlt, relPoint, add_sub_cancel]

end PointFilters

/-! ### Runs -/

/-- A call that changes the filters. -/
inductive FilterCall (K : Type) where
  | process (handSide : ℤ) (point3d : List (Vec3 K))
  | reset (handSide : ℤ)

/-- Calls on lists with all keypoints. -/
def FilterCall.Full (fmt : HandJointFormat) : FilterCall K → Prop
  | .process _ point3d => point3d.length = fmt.keypointNum
  | .reset _ => True

namespace HandFilterBanks

/-- `set_filter_param`: new filters for both sides. -/
def setFilterParam (fmt : HandJointFormat)
    (palmParams indexFingerParams otherFingerParams : Fin 3 → OneEuroParams K) :
    HandFilterBanks K :=
  fun _ => .setFilterParam fmt palmParams indexFingerParams otherFingerParams

/-- `HandFilters::init` -/
def init [IsStrictOrderedRing K] (fmt : HandJointFormat) (glassesType : GlassesType) :
    HandFilterBanks K :=
  setFilterParam fmt (palmParams glassesType) (indexFingerParams glassesType)
    (otherFingerParams glassesType)

/-- The filters after a call. -/
def call (fmt : HandJointFormat) (filters : HandFilterBanks K) :
    FilterCall K → Option (HandFilterBanks K)
  | .process handSide point3d => (filters.process fmt handSide point3d).map Prod.fst
  | .reset handSide => some (filters.reset handSide)

/-- The filters after some calls. -/
def run (fmt : HandJointFormat) (filters : HandFilterBanks K) (calls : List (FilterCall K)) :
    Option (HandFilterBanks K) :=
  calls.foldlM (call fmt) filters

end HandFilterBanks

/-- What a call gives a coordinate of a keypoint of a hand: nothing when it is for the other
hand, `some none` for `reset`. -/
def FilterCall.coordOf (side : Fin 2) (i : ℕ) (c : Fin 3) : FilterCall K → Option (Option K)
  | .process handSide point3d =>
      if sideOf handSide = side then some (some (relPoint point3d i c)) else none
  | .reset handSide => if sideOf handSide = side then some none else none

/-- The values of a coordinate relative to the root, with the resets between them. -/
def ownHistory (side : Fin 2) (i : ℕ) (c : Fin 3) (calls : List (FilterCall K)) :
    List (Option K) :=
  calls.filterMap (FilterCall.coordOf side i c)

/-- One filter over a history of its own. -/
def afterHistory (f : OneEuroFilter K) (history : List (Option K)) : OneEuroFilter K :=
  history.foldl
    (fun f o => match o with
      | some value => (f.filter value).1
      | none => f.reset) f

theorem afterHistory_append (f : OneEuroFilter K) (first second : List (Option K)) :
    afterHistory f (first ++ second) = afterHistory (afterHistory f first) second :=
  List.foldl_append

theorem reset_banksOf (F : PointFilters K) :
    (banksOf fmt F).reset = banksOf fmt fun i c => (F i c).reset := by
  rw [HandSideBanks.reset, banksOf, reset_bankOf, reset_bankOf, reset_bankOf]
  rfl

/-- A change of the managers of one hand. -/
theorem update_banksOf (F G : Fin 2 → PointFilters K) {side : Fin 2}
    (hother : ∀ other ≠ side, G other = F other) :
    Function.update (fun other => banksOf fmt (F other)) side (banksOf fmt (G side)) =
      fun other => banksOf fmt (G other) := by
  funext other
  by_cases h : other = side
  · rw [h, Function.update_self]
  · rw [Function.update_of_ne h, hother other h]

theorem call_banksOf (F : Fin 2 → PointFilters K) {c : FilterCall K} (hfull : c.Full fmt) :
    HandFilterBanks.call fmt (fun side => banksOf fmt (F side)) c =
      some fun side => banksOf fmt fun i d =>
        afterHistory (F side i d) (ownHistory side i d [c]) := by
  let G : Fin 2 → PointFilters K := fun side i d =>
    afterHistory (F side i d) (ownHistory side i d [c])
  cases c with
  | process handSide point3d =>
    have hown : (F (sideOf handSide)).next (relPoint point3d) = G (sideOf handSide) := by
      simp [G, ownHistory, FilterCall.coordOf, afterHistory]
      rfl
    rw [HandFilterBanks.call, HandFilterBanks.process, process_banksOf _ hfull, hown]
    refine congrArg some (update_banksOf F G fun other hother => ?_)
    simp [G, ownHistory, FilterCall.coordOf, afterHistory, hother.symm]
  | reset handSide =>
    have hown : (fun i c => (F (sideOf handSide) i c).reset) = G (sideOf handSide) := by
      simp [G, ownHistory, FilterCall.coordOf, afterHistory]
    rw [HandFilterBanks.call, HandFilterBanks.reset, reset_banksOf, hown]
    refine congrArg some (update_banksOf F G fun other hother => ?_)
    simp [G, ownHistory, FilterCall.coordOf, afterHistory, hother.symm]

omit [LinearOrder K] in
theorem ownHistory_cons (side : Fin 2) (i : ℕ) (d : Fin 3) (c : FilterCall K)
    (calls : List (FilterCall K)) :
    ownHistory side i d (c :: calls) = ownHistory side i d [c] ++ ownHistory side i d calls := by
  rw [ownHistory, ownHistory, ownHistory, ← List.filterMap_append, List.singleton_append]

/-- **Every run keeps a filter for each coordinate**, which sees the history of its own. -/
theorem run_banksOf (F : Fin 2 → PointFilters K) {calls : List (FilterCall K)}
    (hfull : ∀ c ∈ calls, c.Full fmt) :
    HandFilterBanks.run fmt (fun side => banksOf fmt (F side)) calls =
      some fun side => banksOf fmt fun i d =>
        afterHistory (F side i d) (ownHistory side i d calls) := by
  induction calls generalizing F with
  | nil => rfl
  | cons c calls ih =>
    obtain ⟨hfirst, hrest⟩ := List.forall_mem_cons.mp hfull
    rw [HandFilterBanks.run, List.foldlM_cons, call_banksOf F hfirst]
    refine (ih _ hrest).trans (congrArg some (funext fun side => congrArg (banksOf fmt) ?_))
    funext i d
    rw [ownHistory_cons side i d c calls, afterHistory_append]

/-- The parameters of the keypoints of a branch. -/
def paramsOf (palmParams indexFingerParams otherFingerParams : Fin 3 → OneEuroParams K) :
    KeypointPart → Fin 3 → OneEuroParams K
  | .palm => palmParams
  | .index => indexFingerParams
  | _ => otherFingerParams

theorem bankOf_congr {F G : PointFilters K} {is : List ℕ} (h : ∀ i ∈ is, F i = G i) :
    bankOf F is = bankOf G is := by
  rw [bankOf, bankOf, List.flatMap_def, List.flatMap_def]
  congr 2
  exact List.map_congr_left fun i hi => by rw [h i hi]

theorem setFilterParam_eq
    (palmParams indexFingerParams otherFingerParams : Fin 3 → OneEuroParams K) :
    HandSideBanks.setFilterParam fmt palmParams indexFingerParams otherFingerParams =
      banksOf fmt fun i c => .init
        (paramsOf palmParams indexFingerParams otherFingerParams (partOf fmt i) c) := by
  obtain ⟨hindex, hrel, hpalm⟩ := length_indicesOf fmt
  have hbank (part : KeypointPart) :
      bankOf (fun i c => .init
          (paramsOf palmParams indexFingerParams otherFingerParams (partOf fmt i) c))
          (indicesOf fmt part (List.range fmt.keypointNum)) =
        SeqBank.init (indicesOf fmt part (List.range fmt.keypointNum)).length
          (paramsOf palmParams indexFingerParams otherFingerParams part) := by
    rw [init_eq_bankOf]
    refine bankOf_congr fun i hi => ?_
    have hpart : partOf fmt i = part := of_decide_eq_true (List.mem_filter.mp hi).2
    rw [hpart]
  rw [banksOf, hbank, hbank, hbank, hindex, hrel, hpalm]
  rfl

/-! ### The same as `HandSideFilters` -/

/-- The filters of the keypoints are the ones of the three managers. -/
def PointFilters.Holds (F : PointFilters K) (side : HandSideFilters fmt K) : Prop :=
  ∀ (k : Fin fmt.keypointNum) (hroot : k ≠ kKeypointRootId) (c : Fin 3),
    F k.val c = side.filterOf k hroot c

theorem rootIndex_eq (fmt : HandJointFormat) :
    ((kKeypointRootId : Fin fmt.keypointNum) : ℕ) = rootIndex := by
  cases fmt <;> rfl

theorem val_eq_rootIndex {k : Fin fmt.keypointNum} : k.val = rootIndex ↔ k = kKeypointRootId := by
  rw [← rootIndex_eq fmt, Fin.val_inj]

omit [LinearOrder K] in
theorem relPoint_ofFn (points : Fin fmt.keypointNum → Vec3 K) (k : Fin fmt.keypointNum) :
    relPoint (List.ofFn points) k.val = points k - points kKeypointRootId := by
  have hget (k : Fin fmt.keypointNum) : (List.ofFn points).getD k.val 0 = points k := by
    rw [List.getD_eq_getElem _ _ (by simp), List.getElem_ofFn]
  rw [relPoint, ← rootIndex_eq fmt, hget, hget]

/-- **The loops do what `HandSideFilters.process` does.** -/
theorem process_holds {F : PointFilters K} {side : HandSideFilters fmt K} (h : F.Holds side)
    (points : Fin fmt.keypointNum → Vec3 K) :
    (banksOf fmt F).process fmt (List.ofFn points) =
        some (banksOf fmt (F.next (relPoint (List.ofFn points))),
          List.ofFn (side.process points).2) ∧
      (F.next (relPoint (List.ofFn points))).Holds (side.process points).1 := by
  have hroot : (List.ofFn points).getD rootIndex 0 = points kKeypointRootId := by
    rw [← rootIndex_eq fmt, List.getD_eq_getElem _ _ (by simp), List.getElem_ofFn]
  constructor
  · rw [process_banksOf F List.length_ofFn]
    refine congrArg (fun l => some (_, l))
      (List.ext_getElem (by simp [PointFilters.length_result]) fun i hi hi' => ?_)
    have hlt : i < fmt.keypointNum := by simpa using hi'
    rw [← List.getD_eq_getElem _ 0 hi, PointFilters.getD_result hlt, hroot, List.getElem_ofFn]
    by_cases heq : (⟨i, hlt⟩ : Fin fmt.keypointNum) = kKeypointRootId
    · rw [if_pos (val_eq_rootIndex.mpr heq), heq, HandSideFilters.process_root]
    · rw [if_neg fun hi => heq (val_eq_rootIndex.mp hi)]
      funext c
      rw [HandSideFilters.process_apply _ _ heq, Pi.add_apply, PointFilters.out,
        relPoint_ofFn points ⟨i, hlt⟩, h ⟨i, hlt⟩ heq c]
  · intro k hk c
    rw [PointFilters.next, HandSideFilters.filterOf_process, relPoint_ofFn, h k hk c]

/-- The new filters hold the new managers. -/
theorem holds_init [IsStrictOrderedRing K] (glassesType : GlassesType) (side : Fin 2) :
    PointFilters.Holds
      (fun i c => .init (paramsOf (palmParams glassesType) (indexFingerParams glassesType)
        (otherFingerParams glassesType) (partOf fmt i) c))
      (HandFilters.init glassesType side : HandSideFilters fmt K) := by
  intro k hroot c
  have hpalm : k.val ∈ (kPalmKeypointIndexSet fmt).map Fin.valEmbedding ↔
      k ∈ kPalmKeypointIndexSet fmt :=
    Finset.mem_map' Fin.valEmbedding
  have hindex : k.val ∈ (kIndexFingerIndexSet fmt).map Fin.valEmbedding ↔
      k ∈ kIndexFingerIndexSet fmt :=
    Finset.mem_map' Fin.valEmbedding
  have hpart : partOf fmt k.val =
      if k ∈ kPalmKeypointIndexSet fmt then .palm
      else if k ∈ kIndexFingerIndexSet fmt then .index else .rel := by
    rw [partOf, if_neg fun h => hroot (val_eq_rootIndex.mp h)]
    simp only [hpalm, hindex]
  show OneEuroFilter.init (paramsOf _ _ _ (partOf fmt k.val) c) = _
  rw [hpart, HandSideFilters.filterOf]
  split_ifs <;> rfl

/-! ### Points that keep their place -/

/-- The points of the hand relative to the root are these. -/
def FilterCall.Still (handSide : ℤ) (point3d : List (Vec3 K)) : FilterCall K → Prop
  | .process other points =>
      sideOf other = sideOf handSide → ∀ i < points.length, relPoint points i = relPoint point3d i
  | .reset _ => True

/-- A filter returns the value where it is. -/
theorem filter_stays {f : OneEuroFilter K} {value : K}
    (h : f.x.initialized = true → f.x.s = value) : (f.filter value).2 = value := by
  by_cases hused : f.x.initialized = true
  · have hstays := OneEuroFilter.sub_filter hused value
    rw [h hused, sub_self, mul_zero] at hstays
    exact (sub_eq_zero.mp hstays).symm
  · exact OneEuroFilter.filter_of_not_initialized (Bool.eq_false_of_not_eq_true hused) value

/-- A filter that has only seen one value is there. -/
theorem s_afterHistory {f : OneEuroFilter K} {value : K} {history : List (Option K)}
    (hf : f.x.initialized = true → f.x.s = value)
    (h : ∀ o ∈ history, o = none ∨ o = some value) :
    (afterHistory f history).x.initialized = true → (afterHistory f history).x.s = value := by
  induction history generalizing f with
  | nil => exact hf
  | cons o history ih =>
    obtain ⟨hfirst, hrest⟩ := List.forall_mem_cons.mp h
    refine ih ?_ hrest
    rcases hfirst with rfl | rfl
    · exact fun hused => Bool.noConfusion hused
    · exact fun _ => filter_stays hf

omit [LinearOrder K] in
theorem ownHistory_still {handSide : ℤ} {point3d : List (Vec3 K)} {calls : List (FilterCall K)}
    (hfull : ∀ c ∈ calls, c.Full fmt) (hstill : ∀ c ∈ calls, c.Still handSide point3d) {i : ℕ}
    (hi : i < fmt.keypointNum) (d : Fin 3) :
    ∀ o ∈ ownHistory (sideOf handSide) i d calls, o = none ∨ o = some (relPoint point3d i d) := by
  intro o ho
  obtain ⟨c, hc, hcoord⟩ := List.mem_filterMap.mp ho
  cases c with
  | process other points =>
    rw [FilterCall.coordOf] at hcoord
    split_ifs at hcoord with hside
    have hlength : points.length = fmt.keypointNum := hfull _ hc
    have hpoint := hstill _ hc hside i (hlength ▸ hi)
    rw [hpoint] at hcoord
    exact Or.inr (Option.some.inj hcoord).symm
  | reset other =>
    rw [FilterCall.coordOf] at hcoord
    split_ifs at hcoord with hside
    exact Or.inl (Option.some.inj hcoord).symm

/-- **`HandFilters::process` filters each point on its own**: after any calls the root stays,
the other points relative to the root are filtered values of their own histories, a hand that
keeps its place is returned as it is, and the filters of the other hand stay. -/
theorem process_per_point (palmParams indexFingerParams otherFingerParams : Fin 3 → OneEuroParams K)
    {calls : List (FilterCall K)} (hcalls : ∀ c ∈ calls, c.Full fmt) (handSide : ℤ)
    {point3d : List (Vec3 K)} (hfull : point3d.length = fmt.keypointNum) :
    ∃ filters filters' result,
      (HandFilterBanks.setFilterParam fmt palmParams indexFingerParams otherFingerParams).run fmt
        calls = some filters ∧
      filters.process fmt handSide point3d = some (filters', result) ∧
      result.length = fmt.keypointNum ∧
      result.getD rootIndex 0 = point3d.getD rootIndex 0 ∧
      (∀ i < fmt.keypointNum, i ≠ rootIndex → ∀ d,
        relPoint result i d = ((afterHistory
          (.init (paramsOf palmParams indexFingerParams otherFingerParams (partOf fmt i) d))
          (ownHistory (sideOf handSide) i d calls)).filter (relPoint point3d i d)).2) ∧
      ((∀ c ∈ calls, c.Still handSide point3d) → result = point3d) ∧
      ∀ side ≠ sideOf handSide, filters' side = filters side := by
  let first : PointFilters K := fun i d =>
    .init (paramsOf palmParams indexFingerParams otherFingerParams (partOf fmt i) d)
  have hfirst : HandFilterBanks.setFilterParam fmt palmParams indexFingerParams otherFingerParams =
      fun _ => banksOf fmt first :=
    funext fun _ => setFilterParam_eq palmParams indexFingerParams otherFingerParams
  -- the filters after the calls
  let F : Fin 2 → PointFilters K := fun side i d =>
    afterHistory (first i d) (ownHistory side i d calls)
  refine ⟨fun side => banksOf fmt (F side), Function.update (fun side => banksOf fmt (F side))
    (sideOf handSide) (banksOf fmt ((F (sideOf handSide)).next (relPoint point3d))),
    (F (sideOf handSide)).result fmt point3d, ?_, ?_, PointFilters.length_result,
    PointFilters.root_result, ?_, ?_, ?_⟩
  · rw [hfirst]
    exact run_banksOf (fun _ => first) hcalls
  · rw [HandFilterBanks.process, process_banksOf _ hfull]
    rfl
  · intro i hi hne d
    rw [PointFilters.relPoint_result hi hne]
    rfl
  · intro hstill
    refine PointFilters.result_eq_self hfull fun i hi => funext fun d => ?_
    exact filter_stays (s_afterHistory (fun hused => Bool.noConfusion hused)
      (ownHistory_still hcalls hstill hi d))
  · intro side hside
    exact Function.update_of_ne hside _ _

/-- 23 points, apart by a multiple of some distance. -/
def spreadPoints (gap : ℚ) : List (Vec3 ℚ) :=
  List.ofFn fun i : Fin 23 => ![gap * i.val, gap * (i.val % 5 : ℕ), 1 / 2]

theorem length_spreadPoints (gap : ℚ) :
    (spreadPoints gap).length = HandJointFormat.xreal.keypointNum := List.length_ofFn

/-- The left hand is filtered once, the right one is filtered and reset. -/
def spreadCalls : List (FilterCall ℚ) :=
  [.process 0 (spreadPoints (1 / 100)), .process 1 (spreadPoints (1 / 50)), .reset 1]

theorem spreadCalls_full : ∀ c ∈ spreadCalls, c.Full .xreal := by
  refine List.forall_mem_cons.mpr ⟨length_spreadPoints _, List.forall_mem_cons.mpr ⟨?_, ?_⟩⟩
  · exact length_spreadPoints _
  · exact List.forall_mem_singleton.mpr trivial

/-- A hand that keeps its place is returned as it is, and one that opens is filtered, each point by
what came of it before. -/
theorem process_per_point_spread :
    ∃ filters, (HandFilterBanks.init .xreal .flora).run .xreal spreadCalls = some filters ∧
      (∃ filters', filters.process .xreal 0 (spreadPoints (1 / 100)) =
        some (filters', spreadPoints (1 / 100))) ∧
      ∃ filters' result, filters.process .xreal 0 (spreadPoints (1 / 50)) =
          some (filters', result) ∧
        (∀ i < 23, i ≠ rootIndex → ∀ d, relPoint result i d = ((afterHistory
          (.init (paramsOf (palmParams .flora) (indexFingerParams .flora)
            (otherFingerParams .flora) (partOf .xreal i) d))
          (ownHistory 0 i d spreadCalls)).filter (relPoint (spreadPoints (1 / 50)) i d)).2) ∧
        ∀ side ≠ 0, filters' side = filters side := by
  obtain ⟨filters, still, returned, hrun, hreturned, -, -, -, hstill, -⟩ :=
    process_per_point (palmParams .flora) (indexFingerParams .flora) (otherFingerParams .flora)
      spreadCalls_full 0 (length_spreadPoints (1 / 100))
  obtain ⟨filters', opened, result, hrun', hprocess, -, -, hpoints, -, hother⟩ :=
    process_per_point (palmParams .flora) (indexFingerParams .flora) (otherFingerParams .flora)
      spreadCalls_full 0 (length_spreadPoints (1 / 50))
  obtain rfl : filters = filters' := Option.some.inj (hrun.symm.trans hrun')
  have hsame : returned = spreadPoints (1 / 100) := by
    refine hstill (List.forall_mem_cons.mpr ⟨fun _ _ _ => rfl, List.forall_mem_cons.mpr
      ⟨fun hside => ?_, List.forall_mem_singleton.mpr trivial⟩⟩)
    exact absurd hside (by decide)
  rw [hsame] at hreturned
  exact ⟨filters, hrun, ⟨still, hreturned⟩, opened, result, hprocess, hpoints, hother⟩

end HandPose

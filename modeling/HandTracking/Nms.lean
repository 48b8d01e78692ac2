/-
`nms`: the boxes that overlap a better box of the same hand are suppressed.

* `getIouExt_eq` — what the source computes from coordinates is the overlap of the boxes
  as sets of points;
* `Round` — what the loop leaves of a list: the same boxes, of which it has flagged some;
* `nmsLoop_apart`, `nmsLoop_covered` — unsuppressed boxes do not overlap, and a suppressed one
  overlaps an unsuppressed one before it;
* `nmsLoop_filter` — the boxes of one hand are treated as if the others were not there;
* `nms_spec` — the result of the call.
-/
import HandTracking.HandDetect
import HandTracking.Library.FirstBest
import HandTracking.Library.Rectangle

namespace Detect

open Calculator

/-! ### The overlap of two boxes -/

/-- The points of a box. -/
def DetectRect.points (r : DetectRect ℝ) : Set (ℝ × ℝ) :=
  Plane.rectangle r.x (r.x + r.w) r.y (r.y + r.h)

theorem area_points {r : DetectRect ℝ} (hw : 0 ≤ r.w) (hh : 0 ≤ r.h) :
    Plane.area r.points = r.w * r.h := by
  rw [DetectRect.points, Plane.area_rectangle, add_sub_cancel_left, add_sub_cancel_left,
    max_eq_left hw, max_eq_left hh]

/-- The length that two intervals share is negative where they are apart. -/
theorem shared_neg {a b v w : ℝ} (h : b + w < a ∨ a + v < b) :
    min (a + v) (b + w) - max a b < 0 := by
  rcases h with h | h
  · exact sub_neg.mpr ((min_le_right _ _).trans_lt (h.trans_le (le_max_left _ _)))
  · exact sub_neg.mpr ((min_le_left _ _).trans_lt (h.trans_le (le_max_right _ _)))

theorem shared_nonneg {a b v w : ℝ} (hv : 0 ≤ v) (hw : 0 ≤ w) (h : ¬ b + w < a)
    (h' : ¬ a + v < b) : 0 ≤ min (a + v) (b + w) - max a b := by
  have hmin : ∀ c, c ≤ a + v → c ≤ b + w → c ≤ min (a + v) (b + w) := fun _ => le_min
  refine sub_nonneg.mpr (max_le ?_ ?_)
  · exact hmin a (by linarith) (by linarith)
  · exact hmin b (by linarith) (by linarith)

/-- The code divides 0 by 0 where both boxes have no area; that is no number, and here it is 0:
neither is above a threshold. -/
theorem getIouExt_eq {a b : DetectRect ℝ} (hside : a.isLeft = b.isLeft) (haw : 0 ≤ a.w)
    (hah : 0 ≤ a.h) (hbw : 0 ≤ b.w) (hbh : 0 ≤ b.h) :
    getIouExt a b = Plane.iou a.points b.points := by
  have hinter : Plane.area (a.points ∩ b.points) =
      max (min (a.x + a.w) (b.x + b.w) - max a.x b.x) 0 *
        max (min (a.y + a.h) (b.y + b.h) - max a.y b.y) 0 := by
    rw [DetectRect.points, DetectRect.points, Plane.rectangle_inter, Plane.area_rectangle]
  have hunion : Plane.area (a.points ∪ b.points) =
      a.w * a.h + b.w * b.h - Plane.area (a.points ∩ b.points) := by
    rw [← area_points haw hah, ← area_points hbw hbh]
    exact Plane.area_union
  rw [getIouExt, Plane.iou, hunion, hinter, if_neg (not_not_intro hside)]
  -- boxes that are apart in one direction have no point in common
  have hapartX : b.x + b.w < a.x ∨ a.x + a.w < b.x →
      max (min (a.x + a.w) (b.x + b.w) - max a.x b.x) 0 = 0 :=
    fun h => max_eq_right (shared_neg h).le
  have hapartY : b.y + b.h < a.y ∨ a.y + a.h < b.y →
      max (min (a.y + a.h) (b.y + b.h) - max a.y b.y) 0 = 0 :=
    fun h => max_eq_right (shared_neg h).le
  split_ifs with hx hy hx' hy'
  -- the four early returns, and then the boxes share both intervals
  · rw [hapartX (.inl hx), zero_mul, zero_div]
  · rw [hapartY (.inl hy), mul_zero, zero_div]
  · rw [hapartX (.inr hx'), zero_mul, zero_div]
  · rw [hapartY (.inr hy'), mul_zero, zero_div]
  · rw [max_eq_left (shared_nonneg haw hbw hx hx'), max_eq_left (shared_nonneg hah hbh hy hy')]

/-! ### What the loop leaves of a list -/

section Loop

variable {K : Type} [Field K] [LinearOrder K]

/-- The box as it was before it was suppressed. -/
def DetectRect.unflagged (r : DetectRect K) : DetectRect K := { r with nmsSuppressed := false }

omit [Field K] [LinearOrder K] in
theorem unflagged_of_not_suppressed {r : DetectRect K} (h : r.nmsSuppressed = false) :
    r.unflagged = r := by
  rw [DetectRect.unflagged, ← h]

variable {th : K}

/-- The overlap does not depend on the flags. -/
theorem getIouExt_congr {a b b' : DetectRect K} (h : b.unflagged = b'.unflagged) :
    getIouExt a b = getIouExt a b' := by
  have hflag : ∀ c : DetectRect K, getIouExt a c = getIouExt a c.unflagged := fun _ => rfl
  rw [hflag b, hflag b', h]

theorem unflagged_suppress (a b : DetectRect K) :
    (suppress th a b).unflagged = b.unflagged := by
  rw [suppress]
  split
  · rfl
  · split <;> rfl

theorem suppress_eq_of_not_suppressed {a b : DetectRect K}
    (h : (suppress th a b).nmsSuppressed = false) :
    suppress th a b = b ∧ ¬ th < getIouExt a b := by
  rw [suppress] at h ⊢
  split_ifs at h ⊢ with hb hth
  · exact Bool.noConfusion (hb.symm.trans h)
  · exact ⟨rfl, hth⟩

theorem suppressed_of_suppress {a b : DetectRect K}
    (h : (suppress th a b).nmsSuppressed = true) :
    b.nmsSuppressed = true ∨ th < getIouExt a b := by
  by_contra hnot
  push Not at hnot
  rw [suppress, if_neg hnot.1, if_neg (not_lt.mpr hnot.2)] at h
  exact hnot.1 h

theorem unflagged_suppressAll (a : DetectRect K) (l : List (DetectRect K)) :
    (suppressAll th a l).map (·.unflagged) = l.map (·.unflagged) := by
  rw [suppressAll]
  split
  · rfl
  · rw [List.map_map]
    exact List.map_congr_left fun b _ => unflagged_suppress a b

/-- The boxes stay, and they stay in their places. -/
theorem unflagged_nmsLoop (l : List (DetectRect K)) :
    (nmsLoop th l).map (·.unflagged) = l.map (·.unflagged) := by
  induction l using nmsLoop.induct th with
  | case1 => rw [nmsLoop]
  | case2 a l ih => rw [nmsLoop, List.map_cons, List.map_cons, ih, unflagged_suppressAll]

theorem mem_of_mem_suppressAll {a r : DetectRect K} {l : List (DetectRect K)}
    (hmem : r ∈ suppressAll th a l) (hr : r.nmsSuppressed = false) :
    r ∈ l ∧ (a.nmsSuppressed = false → ¬ th < getIouExt a r) := by
  rw [suppressAll] at hmem
  split_ifs at hmem with ha
  · exact ⟨hmem, fun hfalse => Bool.noConfusion (ha.symm.trans hfalse)⟩
  · obtain ⟨b, hb, rfl⟩ := List.mem_map.mp hmem
    obtain ⟨heq, hnot⟩ := suppress_eq_of_not_suppressed hr
    rw [heq]
    exact ⟨hb, fun _ => hnot⟩

theorem mem_of_mem_nmsLoop {r : DetectRect K} {l : List (DetectRect K)}
    (hmem : r ∈ nmsLoop th l) (hr : r.nmsSuppressed = false) : r ∈ l := by
  induction l using nmsLoop.induct th with
  | case1 =>
    rw [nmsLoop] at hmem
    exact hmem
  | case2 a l ih =>
    rw [nmsLoop] at hmem
    rcases List.mem_cons.mp hmem with rfl | hrest
    · exact List.mem_cons_self
    · exact List.mem_cons_of_mem _ (mem_of_mem_suppressAll (ih hrest) hr).1

/-- Unsuppressed boxes do not overlap by more than the threshold. -/
theorem nmsLoop_apart (l : List (DetectRect K)) :
    (nmsLoop th l).Pairwise fun a b =>
      a.nmsSuppressed = false → b.nmsSuppressed = false → getIouExt a b ≤ th := by
  induction l using nmsLoop.induct th with
  | case1 =>
    rw [nmsLoop]
    exact .nil
  | case2 a l ih =>
    rw [nmsLoop]
    refine List.pairwise_cons.mpr ⟨?_, ih⟩
    -- what is unsuppressed at the end was when `a` came, and `a` let it be
    intro b hb ha hfree
    exact not_lt.mp ((mem_of_mem_suppressAll (mem_of_mem_nmsLoop hb hfree) hfree).2 ha)

/-- A box that the loop suppresses overlaps an unsuppressed one before it. -/
theorem nmsLoop_covered {l : List (DetectRect K)} {j : ℕ} {r : DetectRect K}
    (hr : (nmsLoop th l)[j]? = some r) (hsup : r.nmsSuppressed = true) :
    (∃ b, l[j]? = some b ∧ b.nmsSuppressed = true) ∨
      ∃ i a, i < j ∧ (nmsLoop th l)[i]? = some a ∧ a.nmsSuppressed = false ∧
        th < getIouExt a r := by
  induction l using nmsLoop.induct th generalizing j with
  | case1 =>
    rw [nmsLoop] at hr
    cases hr
  | case2 a l ih =>
    rw [nmsLoop] at hr ⊢
    cases j with
    | zero =>
      obtain rfl : a = r := Option.some.inj hr
      exact .inl ⟨a, rfl, hsup⟩
    | succ j =>
      rw [List.getElem?_cons_succ] at hr
      rcases ih hr with ⟨b', hb', hflag⟩ | ⟨i, c, hij, hc, hfree, hlt⟩
      · rw [suppressAll] at hb'
        split_ifs at hb' with ha
        · exact .inl ⟨b', hb', hflag⟩
        · -- either it was flagged before, or `a` has just done it
          rw [List.getElem?_map] at hb'
          obtain ⟨b, hb, rfl⟩ := Option.map_eq_some_iff.mp hb'
          rcases suppressed_of_suppress hflag with hb' | hlt
          · exact .inl ⟨b, hb, hb'⟩
          · have hboxes : (nmsLoop th (suppressAll th a l)).map (·.unflagged) = _ :=
              unflagged_nmsLoop _
            have hplace := congrArg (·[j]?) hboxes
            have hbox : r.unflagged = b.unflagged := by
              simpa [unflagged_suppressAll, hr, hb] using hplace
            refine .inr ⟨0, a, Nat.succ_pos j, rfl, Bool.not_eq_true _ ▸ ha, ?_⟩
            rw [getIouExt_congr hbox]
            exact hlt
      · exact .inr ⟨i + 1, c, Nat.succ_lt_succ hij, hc, hfree, hlt⟩

/-- The flags of a hand are set by the boxes of this hand. -/
theorem filter_suppressAll (hth : -1 / 10 ≤ th) (hand : Hand) (a : DetectRect K)
    (l : List (DetectRect K)) :
    (suppressAll th a l).filter (·.hand = hand) =
      if a.hand = hand then suppressAll th a (l.filter (·.hand = hand))
      else l.filter (·.hand = hand) := by
  by_cases ha : a.nmsSuppressed = true
  · rw [suppressAll, suppressAll, if_pos ha, if_pos ha, ite_self]
  · have hside : ((fun b => decide (b.hand = hand)) ∘ suppress th a) =
        fun b => decide (b.hand = hand) := by
      funext b
      rw [Function.comp_apply, suppress_hand]
    rw [suppressAll, suppressAll, if_neg ha, if_neg ha, List.filter_map, hside]
    split_ifs with heq
    · rfl
    -- boxes of different hands have the overlap -0.1
    · have hkeep : ∀ b ∈ l.filter (·.hand = hand), suppress th a b = b := by
        intro b hb
        have hhand : b.hand = hand := of_decide_eq_true (List.mem_filter.mp hb).2
        exact suppress_of_hand_ne hth fun h => heq (h.trans hhand)
      exact (List.map_congr_left hkeep).trans (List.map_id _)

/-- The boxes of the other hand could as well not be there. -/
theorem nmsLoop_filter (hth : -1 / 10 ≤ th) (hand : Hand) (l : List (DetectRect K)) :
    (nmsLoop th l).filter (·.hand = hand) = nmsLoop th (l.filter (·.hand = hand)) := by
  induction l using nmsLoop.induct th with
  | case1 =>
    rw [nmsLoop, List.filter_nil, nmsLoop]
  | case2 a l ih =>
    rw [nmsLoop, List.filter_cons, List.filter_cons, ih, filter_suppressAll hth]
    by_cases heq : a.hand = hand
    · simp only [heq, decide_true, if_true]
      rw [nmsLoop]
    · simp only [heq, decide_false, if_false, Bool.false_eq_true]

/-- Unflagged, the boxes are those of the sorted list. -/
theorem unflagged_nms {l : List (DetectRect K)} (hflag : ∀ r ∈ l, r.nmsSuppressed = false) :
    (nms l th).map (·.unflagged) = l.insertionSort fun a b => b.confidence ≤ a.confidence := by
  rw [nms, unflagged_nmsLoop]
  have hkeep : ∀ r ∈ l.insertionSort fun a b => b.confidence ≤ a.confidence, r.unflagged = r :=
    fun r hr => unflagged_of_not_suppressed (hflag r ((List.mem_insertionSort _).mp hr))
  exact (List.map_congr_left hkeep).trans (List.map_id _)

theorem nms_filter (hth : -1 / 10 ≤ th) (hand : Hand) (l : List (DetectRect K)) :
    (nms l th).filter (·.hand = hand) = nms (l.filter (·.hand = hand)) th := by
  rw [nms, nms, nmsLoop_filter hth, List.filter_insertionSort]

end Loop

/-! ### The call -/

/-- What is left of a list: its boxes, stably sorted by falling confidence and some of them
flagged. -/
structure Suppressed (th : ℝ) (l out : List (DetectRect ℝ)) : Prop where
  perm : (out.map (·.unflagged)).Perm l
  sorted : out.Pairwise fun a b => b.confidence ≤ a.confidence
  stable : ∀ c, (out.map (·.unflagged)).filter (·.confidence = c) = l.filter (·.confidence = c)
  apart : out.Pairwise fun a b => a.nmsSuppressed = false → b.nmsSuppressed = false →
    a.isLeft = b.isLeft → Plane.iou a.points b.points ≤ th
  covered : ∀ (j : ℕ) (r : DetectRect ℝ), out[j]? = some r → r.nmsSuppressed = true →
    ∃ (i : ℕ) (a : DetectRect ℝ), i < j ∧ out[i]? = some a ∧ a.nmsSuppressed = false ∧
      a.isLeft = r.isLeft ∧ th < Plane.iou a.points r.points

section

variable {th : ℝ} {l : List (DetectRect ℝ)}

theorem size_of_mem_nms (hflag : ∀ r ∈ l, r.nmsSuppressed = false)
    (hsize : ∀ r ∈ l, 0 ≤ r.w ∧ 0 ≤ r.h) {r : DetectRect ℝ} (hr : r ∈ nms l th) :
    0 ≤ r.w ∧ 0 ≤ r.h := by
  have hmem : r.unflagged ∈ (nms l th).map (·.unflagged) := List.mem_map_of_mem hr
  rw [unflagged_nms hflag] at hmem
  exact hsize r.unflagged ((List.mem_insertionSort _).mp hmem)

theorem sorted_nms (hflag : ∀ r ∈ l, r.nmsSuppressed = false) :
    (nms l th).Pairwise fun a b => b.confidence ≤ a.confidence := by
  have hsorted := List.pairwise_insertionSort_fall (fun r : DetectRect ℝ => r.confidence) l
  have hboxes : (nms l th).map (·.unflagged) = _ := unflagged_nms hflag
  rw [← hboxes] at hsorted
  exact List.pairwise_map.mp hsorted

/-- **The result of `nms`**; and the flags of one hand do not depend on the boxes of the
other. -/
theorem nms_spec (hth : 0 ≤ th) (hflag : ∀ r ∈ l, r.nmsSuppressed = false)
    (hsize : ∀ r ∈ l, 0 ≤ r.w ∧ 0 ≤ r.h) :
    Suppressed th l (nms l th) ∧
      ∀ hand l', l'.filter (·.hand = hand) = l.filter (·.hand = hand) →
        (nms l' th).filter (·.hand = hand) = (nms l th).filter (·.hand = hand) := by
  have hsides : -1 / 10 ≤ th := by linarith
  refine ⟨?_, fun hand l' h => by rw [nms_filter hsides, nms_filter hsides, h]⟩
  constructor
  · rw [unflagged_nms hflag]
    exact List.perm_insertionSort _ l
  · exact sorted_nms hflag
  · intro c
    rw [unflagged_nms hflag]
    exact List.filter_eq_insertionSort (fun r : DetectRect ℝ => r.confidence) c l
  · have hmem : (nms l th).Pairwise fun a b => a ∈ nms l th ∧ b ∈ nms l th :=
      List.pairwise_of_forall_mem_list fun a ha b hb => ⟨ha, hb⟩
    refine ((nmsLoop_apart _).and hmem).imp ?_
    rintro a b ⟨hle, ha, hb⟩ hfree hfree' hside
    obtain ⟨haw, hah⟩ := size_of_mem_nms hflag hsize ha
    obtain ⟨hbw, hbh⟩ := size_of_mem_nms hflag hsize hb
    rw [← getIouExt_eq hside haw hah hbw hbh]
    exact hle hfree hfree'
  · intro j r hr hsup
    rcases nmsLoop_covered hr hsup with ⟨b, hb, hflagged⟩ | ⟨i, a, hij, ha, hfree, hlt⟩
    · -- no box came with a flag
      have hb := (List.mem_insertionSort _).mp (List.mem_of_getElem? hb)
      exact Bool.noConfusion ((hflag b hb).symm.trans hflagged)
    · have hside : a.isLeft = r.isLeft := by
        by_contra hne
        rw [getIouExt, if_pos hne] at hlt
        linarith
      obtain ⟨haw, hah⟩ := size_of_mem_nms hflag hsize (List.mem_of_getElem? ha)
      obtain ⟨hrw, hrh⟩ := size_of_mem_nms hflag hsize (List.mem_of_getElem? hr)
      rw [getIouExt_eq hside haw hah hrw hrh] at hlt
      exact ⟨i, a, hij, ha, hfree, hside, hlt⟩

end

/-- Two boxes of a left hand, the better one behind. -/
noncomputable def twoBoxes : List (DetectRect ℝ) :=
  [⟨⟨0, 0, 2, 2⟩, 1 / 2, 1, 0, true, false⟩, ⟨⟨0, 0, 2, 2⟩, 1, 1, 0, true, false⟩]

theorem nms_spec_twoBoxes :
    Suppressed (9 / 20) twoBoxes (nms twoBoxes (9 / 20)) ∧
      ∀ hand l', l'.filter (·.hand = hand) = twoBoxes.filter (·.hand = hand) →
        (nms l' (9 / 20)).filter (·.hand = hand) =
          (nms twoBoxes (9 / 20)).filter (·.hand = hand) :=
  nms_spec (by norm_num) (by simp [twoBoxes]) (by simp [twoBoxes])

end Detect

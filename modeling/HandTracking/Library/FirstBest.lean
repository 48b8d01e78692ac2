/-
The first of the best elements of a list.

`List.argmax f l` is the first element of `l` where `f` is largest.  It is also what stands
in front after a stable sort by falling `f`, among the elements with a given property.

* `argmax_map` — the list of images;
* `argmax_eq_some_iff_of_pairwise` — the first best element of a list in strict order;
* `find?_insertionSort` — the first element of the sorted list with a property;
* `filter_insertionSort` — the elements with a property are sorted among themselves, and
  `filter_eq_insertionSort` — the equal ones stay in their order.
-/
import Mathlib.Data.List.MinMax
import Mathlib.Data.List.Pairwise
import Mathlib.Data.List.Sort

namespace List

variable {α β γ : Type*} [LinearOrder β]

theorem argmax_cons_eq_some (f : α → β) (a : α) {l : List α} {m : α} (hm : l.argmax f = some m) :
    (a :: l).argmax f = if f a < f m then some m else some a := by
  rw [argmax_cons, hm]

theorem argmax_map (f : α → β) (g : γ → α) (l : List γ) :
    (l.map g).argmax f = (l.argmax (f ∘ g)).map g := by
  induction l with
  | nil => rfl
  | cons c l ih =>
    rw [map_cons]
    cases hl : l.argmax (f ∘ g) with
    | none =>
      rw [argmax_eq_none] at hl
      subst hl
      rfl
    | some m =>
      rw [hl, Option.map_some] at ih
      rw [argmax_cons_eq_some f (g c) ih, argmax_cons_eq_some (f ∘ g) c hl]
      by_cases hlt : f (g c) < f (g m)
      · rw [if_pos hlt, if_pos (by exact hlt), Option.map_some]
      · rw [if_neg hlt, if_neg (by exact hlt), Option.map_some]

section Pairwise

variable {r : α → α → Prop} {f : α → β} {l : List α} {m : α}

/-- What stands before the first best element is less. -/
theorem lt_of_argmax_of_rel (hasymm : ∀ a b, r a b → ¬ r b a) (hl : l.Pairwise r)
    (hm : l.argmax f = some m) {a : α} (ha : a ∈ l) (ham : r a m) : f a < f m := by
  induction l generalizing m with
  | nil => cases ha
  | cons b l ih =>
    obtain ⟨hb, hl⟩ := pairwise_cons.mp hl
    cases hn : l.argmax f with
    | none =>
      rw [argmax_eq_none] at hn
      subst hn
      obtain rfl : b = m := Option.some.inj hm
      obtain rfl : a = b := mem_singleton.mp ha
      exact absurd ham (hasymm _ _ ham)
    | some n =>
      rw [argmax_cons_eq_some f b hn] at hm
      have hnl : n ∈ l := argmax_mem hn
      by_cases hlt : f b < f n
      · obtain rfl : n = m := Option.some.inj ((if_pos hlt).symm.trans hm)
        rcases mem_cons.mp ha with rfl | ha
        · exact hlt
        · exact ih hl hn ha ham
      · -- the head is the best, and nothing stands before it
        obtain rfl : b = m := Option.some.inj ((if_neg hlt).symm.trans hm)
        rcases mem_cons.mp ha with rfl | ha
        · exact absurd ham (hasymm _ _ ham)
        · exact absurd ham (hasymm _ _ (hb a ha))

theorem argmax_eq_some_iff_of_pairwise (hasymm : ∀ a b, r a b → ¬ r b a) (hl : l.Pairwise r) :
    l.argmax f = some m ↔ m ∈ l ∧ ∀ a ∈ l, f a ≤ f m ∧ (r a m → f a < f m) := by
  constructor
  · intro hm
    refine ⟨argmax_mem hm, fun a ha => ⟨le_of_mem_argmax ha hm, fun ham => ?_⟩⟩
    exact lt_of_argmax_of_rel hasymm hl hm ha ham
  · rintro ⟨hml, hbest⟩
    cases hn : l.argmax f with
    | none =>
      rw [argmax_eq_none] at hn
      subst hn
      cases hml
    | some n =>
      have hnl : n ∈ l := argmax_mem hn
      by_contra hne
      have hnm : m ≠ n := fun h => hne (h ▸ rfl)
      have hle : f m ≤ f n := le_of_mem_argmax hml hn
      have : Std.Symm fun a b => r a b ∨ r b a := ⟨fun _ _ h => h.symm⟩
      have hrel : r m n ∨ r n m :=
        (hl.imp fun h => Or.inl h : l.Pairwise fun a b => r a b ∨ r b a).forall hml hnl hnm
      rcases hrel with h | h
      · exact absurd (lt_of_argmax_of_rel hasymm hl hn hml h) (not_lt.mpr (hbest n hnl).1)
      · exact absurd ((hbest n hnl).2 h) (not_lt.mpr hle)

end Pairwise

section StableSort

variable (f : α → β) (p : α → Bool)

/-- Insertion into a list sorted by falling `f`. -/
theorem find?_orderedInsert (a : α) {l : List α} (hl : l.Pairwise fun a b => f b ≤ f a) :
    (l.orderedInsert (fun a b => f b ≤ f a) a).find? p =
      if p a then
        some (match l.find? p with
          | none => a
          | some c => if f a < f c then c else a)
      else l.find? p := by
  induction l with
  | nil =>
    rw [orderedInsert_nil, find?_cons, find?_nil]
    cases p a
    · rfl
    · rfl
  | cons b l ih =>
    obtain ⟨hb, hl⟩ := pairwise_cons.mp hl
    by_cases hba : f b ≤ f a
    · rw [orderedInsert_cons_of_le (fun a b => f b ≤ f a) l hba, find?_cons]
      cases hpa : p a with
      | false => rfl
      | true =>
        -- everything behind is at most the inserted element
        cases hc : (b :: l).find? p with
        | none => rfl
        | some c =>
          have hcb : f c ≤ f b := by
            rcases mem_cons.mp (mem_of_find?_eq_some hc) with rfl | hcl
            · exact le_rfl
            · exact hb c hcl
          simp [not_lt.mpr (hcb.trans hba)]
    · rw [orderedInsert_of_not_le (fun a b => f b ≤ f a) l hba, find?_cons, find?_cons]
      cases hpb : p b with
      | false => exact ih hl
      | true =>
        cases hpa : p a with
        | false => rfl
        | true => simp [not_le.mp hba]

theorem pairwise_insertionSort_fall (l : List α) :
    (l.insertionSort fun a b => f b ≤ f a).Pairwise fun a b => f b ≤ f a := by
  have : Std.Total fun a b => f b ≤ f a := ⟨fun a b => le_total (f b) (f a)⟩
  have : IsTrans α fun a b => f b ≤ f a := ⟨fun _ _ _ hab hbc => hbc.trans hab⟩
  exact pairwise_insertionSort (fun a b => f b ≤ f a) l

theorem find?_insertionSort (l : List α) :
    (l.insertionSort fun a b => f b ≤ f a).find? p = (l.filter p).argmax f := by
  induction l with
  | nil => rfl
  | cons a l ih =>
    have hsorted := pairwise_insertionSort_fall f l
    rw [insertionSort_cons, find?_orderedInsert f p a hsorted, ih]
    cases hpa : p a with
    | false => rw [if_neg Bool.false_ne_true, filter_cons_of_neg (by simp [hpa])]
    | true =>
      rw [if_pos rfl, filter_cons_of_pos hpa]
      cases hm : (l.filter p).argmax f with
      | none =>
        rw [argmax_eq_none] at hm
        rw [hm]
        rfl
      | some m => rw [argmax_cons_eq_some f a hm, apply_ite some]

theorem filter_orderedInsert_of_pos {a : α} (h : p a = true) {l : List α}
    (hl : l.Pairwise fun a b => f b ≤ f a) :
    (l.orderedInsert (fun a b => f b ≤ f a) a).filter p =
      (l.filter p).orderedInsert (fun a b => f b ≤ f a) a := by
  induction l with
  | nil => simp [h]
  | cons b l ih =>
    obtain ⟨hb, hl⟩ := pairwise_cons.mp hl
    by_cases hba : f b ≤ f a
    · -- the element goes to the front of both lists
      rw [orderedInsert_cons_of_le (fun a b => f b ≤ f a) l hba, filter_cons_of_pos h]
      have hfront : ∀ c ∈ (b :: l).filter p, f c ≤ f a := by
        intro c hc
        rcases mem_cons.mp (mem_filter.mp hc).1 with rfl | hcl
        · exact hba
        · exact (hb c hcl).trans hba
      cases hrest : (b :: l).filter p with
      | nil => rfl
      | cons c l' =>
        have hca : f c ≤ f a := hfront c (hrest ▸ mem_cons_self)
        exact (orderedInsert_cons_of_le (fun a b => f b ≤ f a) l' hca).symm
    · rw [orderedInsert_of_not_le (fun a b => f b ≤ f a) l hba]
      cases hpb : p b with
      | false => rw [filter_cons_of_neg (by simp [hpb]), filter_cons_of_neg (by simp [hpb]), ih hl]
      | true =>
        rw [filter_cons_of_pos hpb, filter_cons_of_pos hpb, ih hl,
          orderedInsert_of_not_le (fun a b => f b ≤ f a) _ hba]

theorem filter_orderedInsert_of_neg {a : α} (h : p a = false) (l : List α) :
    (l.orderedInsert (fun a b => f b ≤ f a) a).filter p = l.filter p := by
  induction l with
  | nil => simp [h]
  | cons b l ih =>
    by_cases hba : f b ≤ f a
    · rw [orderedInsert_cons_of_le (fun a b => f b ≤ f a) l hba, filter_cons_of_neg (by simp [h])]
    · rw [orderedInsert_of_not_le (fun a b => f b ≤ f a) l hba, filter_cons, filter_cons, ih]

theorem filter_insertionSort (l : List α) :
    (l.insertionSort fun a b => f b ≤ f a).filter p =
      (l.filter p).insertionSort fun a b => f b ≤ f a := by
  induction l with
  | nil => rfl
  | cons a l ih =>
    rw [insertionSort_cons]
    cases hpa : p a with
    | false =>
      rw [filter_orderedInsert_of_neg f p hpa, ih, filter_cons_of_neg (by simp [hpa])]
    | true =>
      rw [filter_orderedInsert_of_pos f p hpa (pairwise_insertionSort_fall f l), ih,
        filter_cons_of_pos hpa, insertionSort_cons]

/-- Elements of equal value stay in their order. -/
theorem filter_eq_insertionSort (c : β) (l : List α) :
    (l.insertionSort fun a b => f b ≤ f a).filter (f · = c) = l.filter (f · = c) := by
  rw [filter_insertionSort]
  refine Pairwise.insertionSort_eq (pairwise_of_forall_mem_list ?_)
  intro a ha b hb
  have hac : f a = c := of_decide_eq_true (mem_filter.mp ha).2
  have hbc : f b = c := of_decide_eq_true (mem_filter.mp hb).2
  exact (hbc.trans hac.symm).le

end StableSort

end List

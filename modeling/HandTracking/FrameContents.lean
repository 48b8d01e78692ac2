/-
A frame as the set of the streams that have delivered to it.

The code keeps three views of that set side by side: a counter, a bitmap and the
packets.  `StreamCache.Represents n D` says that all three agree with the set `D`
of orders, for a graph of `n` streams.  Then the two completion tests mean what
they should:

* `Represents.full_iff` — the counter test: every stream has delivered;
* `Represents.groudComplete_iff` — the test a callback hands its frame on by: every
  stream of its group has delivered.
-/
import HandTracking.BaseXGraph

namespace XGraph

variable {P : Type} {n : ℕ} {c : StreamCache P} {D : Finset ℕ} {L : Layout} {o : ℕ}

/-- The streams `D` have delivered to the frame, each of them once. -/
structure StreamCache.Represents (n : ℕ) (c : StreamCache P) (D : Finset ℕ) : Prop where
  length : c.outputPacks.length = n
  sum : c.outputPacksSum = D.card
  bitmap : ∀ o, c.syncBitmap.getLsbD o = true ↔ o ∈ D ∧ o < 64
  lt : ∀ o ∈ D, o < n

namespace StreamCache.Represents

theorem init (raw n : ℕ) : (StreamCache.init raw n : StreamCache P).Represents n ∅ where
  length := List.length_replicate
  sum := rfl
  bitmap o := by simp [StreamCache.init]
  lt o h := absurd h (Finset.notMem_empty o)

/-- A first delivery of a stream adds it to the set. -/
theorem deliver (h : c.Represents n D) (ho : o < n) (hnew : o ∉ D) (p : Packet P) :
    (c.deliver o p).Represents n (insert o D) where
  length := by rw [StreamCache.deliver, List.length_set, h.length]
  sum := by
    show c.outputPacksSum + 1 = (insert o D).card
    rw [Finset.card_insert_of_notMem hnew, h.sum]
  bitmap o' := by
    show (c.syncBitmap ||| (1#64) <<< o).getLsbD o' = true ↔ _
    rw [BitVec.getLsbD_or_one_shiftLeft, h.bitmap, Finset.mem_insert]
    constructor
    · rintro (⟨hD, hlt⟩ | ⟨heq, hlt⟩)
      · exact ⟨Or.inr hD, hlt⟩
      · exact ⟨Or.inl heq, hlt⟩
    · rintro ⟨heq | hD, hlt⟩
      · exact Or.inr ⟨heq, hlt⟩
      · exact Or.inl ⟨hD, hlt⟩
  lt o' hmem := by
    rcases Finset.mem_insert.mp hmem with rfl | hD
    · exact ho
    · exact h.lt o' hD

/-- The counter test. -/
theorem full_iff (h : c.Represents n D) : c.full = true ↔ ∀ o < n, o ∈ D := by
  have hsub : D ⊆ Finset.range n := fun o ho => Finset.mem_range.mpr (h.lt o ho)
  rw [StreamCache.full, decide_eq_true_iff, h.sum, h.length]
  constructor
  · intro hcard o ho
    have heq : D = Finset.range n :=
      Finset.eq_of_subset_of_card_le hsub (by rw [Finset.card_range, hcard])
    rw [heq]
    exact Finset.mem_range.mpr ho
  · intro hall
    have heq : D = Finset.range n :=
      Finset.Subset.antisymm hsub fun o ho => hall o (Finset.mem_range.mp ho)
    rw [heq, Finset.card_range]

/-- The test a callback of stream `o` hands its frame on by. -/
theorem groudComplete_iff (hL : L.Synced) (h : c.Represents L.outputStreamNum D)
    (ho : o < L.outputStreamNum) :
    groudComplete L c o = true ↔
      ∀ o' < L.outputStreamNum, L.groudIndex o' = L.groudIndex o → o' ∈ D := by
  rw [groudComplete]
  by_cases h1 : L.groudSize = 1
  · rw [if_pos h1, h.full_iff]
    have hgroud : ∀ o', L.groudIndex o' = L.groudIndex o := fun o' => by
      rw [Layout.groudIndex_of_single h1, Layout.groudIndex_of_single h1]
    exact ⟨fun hall o' ho' _ => hall o' ho', fun hall o' ho' => hall o' ho' (hgroud o')⟩
  · have hlt : 1 < L.groudSize := by
      have : 0 < L.groudSize := Nat.succ_pos _
      omega
    rw [if_neg h1, syncOrderBitmap, decide_eq_true_iff, BitVec.eq_and_self_iff]
    constructor
    · intro hsub o' ho' hg
      have hbit := hsub o' ((hL.bitmap hlt o ho o').mpr ⟨ho', hg⟩)
      exact ((h.bitmap o').mp hbit).1
    · intro hall i hi
      obtain ⟨hin, hg⟩ := (hL.bitmap hlt o ho i).mp hi
      exact (h.bitmap i).mpr ⟨hall i hin hg, BitVec.lt_of_getLsbD hi⟩

end StreamCache.Represents

/-- A delivery leaves the packets of the other streams in place. -/
theorem StreamCache.getElem?_deliver (c : StreamCache P) (o o' : ℕ) (p : Packet P) :
    (c.deliver o p).outputPacks[o']? =
      if o' = o then (c.outputPacks[o']?).map fun _ => some p else c.outputPacks[o']? := by
  rw [StreamCache.deliver]
  split_ifs with ho
  · subst ho
    rw [List.getElem?_set_self']
    rfl
  · rw [List.getElem?_set_ne (Ne.symm ho)]

end XGraph

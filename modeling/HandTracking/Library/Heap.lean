/-
What `new` gives out.

A heap gives out regions of an address space of `limit` addresses.  Address zero is not given out,
two regions do not overlap, and an empty region has an address of its own.

* `Heap.Fits`, `Heap.alloc` — what may be given out next;
* `Heap.addr_injOn` — a region is known by its address;
* `Heap.sum_size_lt`, `Heap.length_lt` — the regions fit into the address space together.
-/
import Mathlib.Algebra.BigOperators.Group.List.Basic
import Mathlib.Algebra.GroupWithZero.Nat
import Mathlib.Algebra.Order.BigOperators.Group.List
import Mathlib.Algebra.Order.Group.Nat
import Mathlib.Data.Finset.Card
import Mathlib.Order.Interval.Finset.Nat

/-- A region of memory. -/
structure Region where
  addr : ℕ
  size : ℕ
  deriving DecidableEq, Repr

namespace Region

/-- The addresses that a region takes. -/
def room (r : Region) : ℕ := max r.size 1

/-- Two regions do not overlap. -/
def Apart (r r' : Region) : Prop := r.addr + r.room ≤ r'.addr ∨ r'.addr + r'.room ≤ r.addr

instance (r r' : Region) : Decidable (r.Apart r') := inferInstanceAs (Decidable (_ ∨ _))

/-- The region lies in an address space of `limit` addresses and does not start at zero. -/
def Inside (limit : ℕ) (r : Region) : Prop := 0 < r.addr ∧ r.addr + r.room ≤ limit

instance (limit : ℕ) (r : Region) : Decidable (r.Inside limit) :=
  inferInstanceAs (Decidable (_ ∧ _))

theorem size_le_room (r : Region) : r.size ≤ r.room := le_max_left _ _

theorem room_pos (r : Region) : 0 < r.room := lt_max_of_lt_right Nat.one_pos

instance : Std.Symm Apart := ⟨fun _ _ => Or.symm⟩

theorem Apart.addr_ne {r r' : Region} (h : r.Apart r') : r.addr ≠ r'.addr := by
  have hr := r.room_pos
  have hr' := r'.room_pos
  unfold Apart at h
  omega

/-- The addresses that regions apart from each other take, counted. -/
theorem exists_cells {rs : List Region} (h : rs.Pairwise Apart) :
    ∃ cells : Finset ℕ, cells.card = (rs.map room).sum ∧
      ∀ x ∈ cells, ∃ r ∈ rs, r.addr ≤ x ∧ x < r.addr + r.room := by
  induction rs with
  | nil => exact ⟨∅, rfl, by simp⟩
  | cons r rs ih =>
    rw [List.pairwise_cons] at h
    obtain ⟨cells, hcard, hcells⟩ := ih h.2
    have hdisj : Disjoint (Finset.Ico r.addr (r.addr + r.room)) cells := by
      rw [Finset.disjoint_left]
      intro x hx hx'
      obtain ⟨r', hr', hle, hlt⟩ := hcells x hx'
      have hapart := h.1 r' hr'
      rw [Finset.mem_Ico] at hx
      unfold Apart at hapart
      omega
    refine ⟨Finset.Ico r.addr (r.addr + r.room) ∪ cells, ?_, ?_⟩
    · rw [Finset.card_union_of_disjoint hdisj, Nat.card_Ico, hcard]
      simp
    · intro x hx
      rw [Finset.mem_union, Finset.mem_Ico] at hx
      rcases hx with hx | hx
      · exact ⟨r, List.mem_cons_self, hx⟩
      · obtain ⟨r', hr', hr''⟩ := hcells x hx
        exact ⟨r', List.mem_cons_of_mem r hr', hr''⟩

theorem sum_room_lt {limit : ℕ} {rs : List Region} (hpos : 0 < limit) (h : rs.Pairwise Apart)
    (hin : ∀ r ∈ rs, r.Inside limit) : (rs.map room).sum < limit := by
  obtain ⟨cells, hcard, hcells⟩ := exists_cells h
  have hsub : cells ⊆ Finset.Ico 1 limit := by
    intro x hx
    obtain ⟨r, hr, hle, hlt⟩ := hcells x hx
    have hr' := hin r hr
    unfold Inside at hr'
    rw [Finset.mem_Ico]
    omega
  have hle := Finset.card_le_card hsub
  rw [hcard, Nat.card_Ico] at hle
  omega

end Region

/-- The regions in use. -/
structure Heap (limit : ℕ) where
  regions : List Region
  apart : regions.Pairwise Region.Apart
  inside : ∀ r ∈ regions, r.Inside limit

namespace Heap

variable {limit : ℕ}

/-- Nothing is allocated. -/
def empty : Heap limit := ⟨[], .nil, by simp⟩

/-- `r` may be given out. -/
def Fits (h : Heap limit) (r : Region) : Prop :=
  r.Inside limit ∧ ∀ r' ∈ h.regions, r.Apart r'

instance (h : Heap limit) (r : Region) : Decidable (h.Fits r) :=
  inferInstanceAs (Decidable (_ ∧ _))

/-- A region that fits is allocated. -/
def alloc (h : Heap limit) (r : Region) (fits : h.Fits r) : Heap limit where
  regions := r :: h.regions
  apart := List.pairwise_cons.mpr ⟨fits.2, h.apart⟩
  inside := List.forall_mem_cons.mpr ⟨fits.1, h.inside⟩

variable {h : Heap limit} {rs : List Region}

theorem not_mem_of_fits {r : Region} (fits : h.Fits r) : r ∉ h.regions :=
  fun hr => (fits.2 r hr).addr_ne rfl

theorem addr_injOn {r r' : Region} (hr : r ∈ h.regions) (hr' : r' ∈ h.regions)
    (heq : r.addr = r'.addr) : r = r' := by
  by_contra hne
  exact (h.apart.forall hr hr' hne).addr_ne heq

/-- Different regions of a heap are apart. -/
theorem pairwise_of_nodup (hn : rs.Nodup) (hsub : ∀ r ∈ rs, r ∈ h.regions) :
    rs.Pairwise Region.Apart :=
  hn.imp_of_mem fun hr hr' hne => h.apart.forall (hsub _ hr) (hsub _ hr') hne

theorem sum_room_lt (hpos : 0 < limit) (hn : rs.Nodup) (hsub : ∀ r ∈ rs, r ∈ h.regions) :
    (rs.map Region.room).sum < limit :=
  Region.sum_room_lt hpos (pairwise_of_nodup hn hsub) fun r hr => h.inside r (hsub r hr)

theorem sum_size_lt (hpos : 0 < limit) (hn : rs.Nodup) (hsub : ∀ r ∈ rs, r ∈ h.regions) :
    (rs.map Region.size).sum < limit :=
  (List.sum_le_sum fun r _ => r.size_le_room).trans_lt (sum_room_lt hpos hn hsub)

theorem length_lt (hpos : 0 < limit) (hn : rs.Nodup) (hsub : ∀ r ∈ rs, r ∈ h.regions) :
    rs.length < limit := by
  refine lt_of_le_of_lt ?_ (sum_room_lt hpos hn hsub)
  have hle : (rs.map fun _ => 1).sum ≤ (rs.map Region.room).sum :=
    List.sum_le_sum fun r _ => r.room_pos
  simpa using hle

end Heap

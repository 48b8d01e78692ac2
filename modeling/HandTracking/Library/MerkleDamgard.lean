/-
Hash functions that compress a message block by block.

Two chains of blocks that end alike have, seen from their ends, the same steps up to one where
different values are compressed to the same; or one chain is the end of the other.  When the
padding of a message is never the end of another's, only the first is left.

* `Collides` — two chains that take different steps to the same value, and then the same steps;
* `foldl_eq_cases` — what it means for two chains to end alike;
* `hash_eq_iff` — the same for the padded messages.
-/
import Mathlib.Data.List.Infix
import Mathlib.Tactic.Common

namespace MerkleDamgard

variable {σ β μ : Type*} (compress : σ → β → σ) (iv : σ)

/-- The chains take different steps to the same value, and the same steps from there. -/
def Collides (bs bs' : List β) : Prop :=
  ∃ p b q b' rest, bs = p ++ b :: rest ∧ bs' = q ++ b' :: rest ∧
    (p.foldl compress iv, b) ≠ (q.foldl compress iv, b') ∧
      compress (p.foldl compress iv) b = compress (q.foldl compress iv) b'

variable {compress iv} {bs bs' : List β}

theorem Collides.foldl_eq (h : Collides compress iv bs bs') :
    bs.foldl compress iv = bs'.foldl compress iv := by
  obtain ⟨p, b, q, b', rest, rfl, rfl, -, heq⟩ := h
  rw [List.foldl_append, List.foldl_append, List.foldl_cons, List.foldl_cons, heq]

theorem Collides.concat (h : Collides compress iv bs bs') (b : β) :
    Collides compress iv (bs ++ [b]) (bs' ++ [b]) := by
  obtain ⟨p, c, q, c', rest, rfl, rfl, hne, heq⟩ := h
  exact ⟨p, c, q, c', rest ++ [b], List.append_assoc .., List.append_assoc .., hne, heq⟩

theorem suffix_concat (h : bs <:+ bs') (b : β) : bs ++ [b] <:+ bs' ++ [b] := by
  obtain ⟨t, rfl⟩ := h
  exact ⟨t, (List.append_assoc ..).symm⟩

/-- The chains are compared from their ends. -/
theorem foldl_eq_cases (h : bs.foldl compress iv = bs'.foldl compress iv) :
    bs <:+ bs' ∨ bs' <:+ bs ∨ Collides compress iv bs bs' := by
  induction bs using List.reverseRecOn generalizing bs' with
  | nil => exact .inl List.nil_suffix
  | append_singleton p b ih =>
    rcases List.eq_nil_or_concat' bs' with rfl | ⟨q, b', rfl⟩
    · exact .inr (.inl List.nil_suffix)
    rw [List.foldl_concat, List.foldl_concat] at h
    by_cases hsame : (p.foldl compress iv, b) = (q.foldl compress iv, b')
    · -- the same last step
      obtain ⟨hchain, rfl⟩ := Prod.mk.inj hsame
      rcases ih hchain with hsuffix | hsuffix | hcollides
      · exact .inl (suffix_concat hsuffix b)
      · exact .inr (.inl (suffix_concat hsuffix b))
      · exact .inr (.inr (hcollides.concat b))
    · exact .inr (.inr ⟨p, b, q, b', [], rfl, rfl, hsame, h⟩)

/-- Two messages whose paddings are not the end of each other. -/
theorem hash_eq_iff {pad : μ → List β} {m m' : μ} (hfree : pad m <:+ pad m' → m = m')
    (hfree' : pad m' <:+ pad m → m' = m) :
    (pad m).foldl compress iv = (pad m').foldl compress iv ↔
      m = m' ∨ Collides compress iv (pad m) (pad m') := by
  constructor
  · intro h
    rcases foldl_eq_cases h with hsuffix | hsuffix | hcollides
    · exact .inl (hfree hsuffix)
    · exact .inl (hfree' hsuffix).symm
    · exact .inr hcollides
  · rintro (rfl | hcollides)
    · rfl
    · exact hcollides.foldl_eq

end MerkleDamgard

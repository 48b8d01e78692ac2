/-
Memory in blocks of 16 bytes, and a function of blocks on it.

* `Buffer.mapBlocks` — the first blocks, one after another, from one buffer into another;
* `Buffer.ofBlocks` — all blocks at once; `mapBlocks_apply` says where the two agree;
* `Buffer.ofBlocks_drop` — the blocks of the end of a buffer are the last of the buffer;
* `Buffer.ofBlocks_symm` — what a permutation of blocks does is undone by its inverse;
* `Buffer.trailing` — how many bytes at the end of a buffer are the same.
-/
import HandTracking.Library.Buffer
import HandTracking.Library.Numerals
import Mathlib.Logic.Equiv.Defs

/-- A block of the cipher: 16 bytes. -/
abbrev Block := Fin 16 → BitVec 8

namespace Buffer

/-- A block of a buffer. -/
def block (b : Buffer) (i : ℕ) : Block := fun j => b (16 * i + j)

/-- A buffer with one block replaced. -/
def setBlock (b : Buffer) (i : ℕ) (x : Block) : Buffer :=
  fun k => if k / 16 = i then x (Fin.ofNat 16 k) else b k

/-- The first `n` blocks of `src`, each through `f`, into `dst`. -/
def mapBlocks (f : Block → Block) (src dst : Buffer) : ℕ → Buffer
  | 0 => dst
  | n + 1 => (mapBlocks f src dst n).setBlock n (f (src.block n))

/-- Every block of `src` through `f`. -/
def ofBlocks (f : Block → Block) (src : Buffer) : Buffer :=
  fun k => f (src.block (k / 16)) (Fin.ofNat 16 k)

/-- The bytes from the offset `first` on below `last` become `v`. -/
def fill (b : Buffer) (first last : ℕ) (v : BitVec 8) : Buffer :=
  fun k => if first ≤ k ∧ k < last then v else b k

variable {f : Block → Block} {a b src dst : Buffer} {n k : ℕ}

theorem block_congr {i : ℕ} (h : EqOn (16 * i) (16 * i + 16) a b) : a.block i = b.block i := by
  funext j
  exact h _ (Nat.le_add_right _ _) (Nat.add_lt_add_left j.isLt _)

theorem ofBlocks_congr (h : EqOn 0 (16 * n) a b) (hk : k < 16 * n) :
    ofBlocks f a k = ofBlocks f b k := by
  have hblock : a.block (k / 16) = b.block (k / 16) :=
    block_congr fun j _ hj => h j (Nat.zero_le j) (by omega)
  rw [ofBlocks, hblock]
  rfl

/-- A block set to what `ofBlocks` has there. -/
theorem setBlock_apply (dst : Buffer) (h : EqOn (16 * n) (16 * n + 16) a src) :
    dst.setBlock n (f (a.block n)) k = if k / 16 = n then ofBlocks f src k else dst k := by
  unfold setBlock
  split
  · next hk =>
    rw [ofBlocks, hk, block_congr h]
  · rfl

theorem mapBlocks_apply (h : EqOn 0 (16 * n) a src) :
    mapBlocks f a dst n k = if k < 16 * n then ofBlocks f src k else dst k := by
  induction n with
  | zero => rfl
  | succ n ih =>
    have hlast : EqOn (16 * n) (16 * n + 16) a src := fun j _ hj => h j (Nat.zero_le j) (by omega)
    rw [mapBlocks, setBlock_apply _ hlast, ih fun j hj hlt => h j hj (by omega)]
    split_ifs <;> first | rfl | omega

/-- The buffer from the offset `base` on. -/
def drop (b : Buffer) (base : ℕ) : Buffer := fun k => b (base + k)

/-- Blocks are counted from any block on. -/
theorem ofBlocks_drop (f : Block → Block) (b : Buffer) (base k : ℕ) (hbase : base % 16 = 0) :
    ofBlocks f (b.drop base) k = ofBlocks f b (base + k) := by
  have hblock : (b.drop base).block (k / 16) = b.block ((base + k) / 16) := by
    funext j
    unfold block drop
    congr 1
    omega
  have hoffset : Fin.ofNat 16 (base + k) = Fin.ofNat 16 k := by
    ext
    rw [Fin.val_ofNat, Fin.val_ofNat]
    omega
  rw [ofBlocks, ofBlocks, hblock, hoffset]

theorem ofBlocks_symm (e : Equiv.Perm Block) (b : Buffer) : ofBlocks e.symm (ofBlocks e b) = b := by
  funext k
  have hblock : (ofBlocks e b).block (k / 16) = e (b.block (k / 16)) := by
    funext j
    have hdiv : (16 * (k / 16) + j) / 16 = k / 16 := by omega
    have hmod : Fin.ofNat 16 (16 * (k / 16) + j) = j := by
      ext
      rw [Fin.val_ofNat]
      omega
    rw [block, ofBlocks, hdiv, hmod]
  have hoffset : 16 * (k / 16) + (Fin.ofNat 16 k).val = k := by
    rw [Fin.val_ofNat]
    omega
  rw [ofBlocks, hblock, Equiv.symm_apply_apply, block, hoffset]

/-! ### Equal bytes at the end -/

/-- Looks for up to `fuel` more bytes `data` in front of the last `same`; `none` if the buffer, of
`size` bytes, ends before. -/
def sameFrom (b : Buffer) (size : ℕ) (data : BitVec 8) : ℕ → ℕ → Option ℕ
  | 0, same => some same
  | fuel + 1, same =>
    if same < size then
      if data = b (size - 1 - same) then sameFrom b size data fuel (same + 1) else some same
    else none

/-- How many bytes at the end are the same as the last one, up to `limit`. -/
def trailing (b : Buffer) (size limit : ℕ) : Option ℕ :=
  b.sameFrom size (b (size - 1)) limit 0

variable {size limit same m base : ℕ} {data : BitVec 8}

/-- The loop goes on exactly as long as the bytes are the same. -/
theorem sameFrom_eq_some {fuel : ℕ} (h : b.sameFrom size data fuel same = some m) :
    same ≤ m ∧ m ≤ same + fuel ∧ (∀ i, same ≤ i → i < m → i < size ∧ b (size - 1 - i) = data) ∧
      (m < same + fuel → m < size ∧ b (size - 1 - m) ≠ data) := by
  induction fuel generalizing same with
  | zero =>
    cases h
    exact ⟨Nat.le_refl _, Nat.le_refl _, fun i hle hlt => absurd hlt (Nat.not_lt.mpr hle),
      fun hlt => absurd hlt (Nat.lt_irrefl _)⟩
  | succ fuel ih =>
    rw [sameFrom] at h
    split at h
    · next hsize =>
      split at h
      · next hdata =>
        obtain ⟨hle, hlim, heq, hstop⟩ := ih h
        refine ⟨by omega, by omega, fun i hi hm => ?_, fun hlt => hstop (by omega)⟩
        rcases Nat.eq_or_lt_of_le hi with rfl | hi
        · exact ⟨hsize, hdata.symm⟩
        · exact heq i hi hm
      · next hdata =>
        cases h
        exact ⟨Nat.le_refl _, by omega, fun i hle hlt => absurd hlt (Nat.not_lt.mpr hle),
          fun _ => ⟨hsize, Ne.symm hdata⟩⟩
    · cases h

/-- The loop leaves the buffer only through bytes that are all the same. -/
theorem sameFrom_eq_none_iff {fuel : ℕ} (hsame : same ≤ size) :
    b.sameFrom size data fuel same = none ↔
      size < same + fuel ∧ ∀ i, same ≤ i → i < size → b (size - 1 - i) = data := by
  induction fuel generalizing same with
  | zero => exact iff_of_false (by simp [sameFrom]) fun h => absurd h.1 (by omega)
  | succ fuel ih =>
    rw [sameFrom]
    split
    · next hsize =>
      split
      · next hdata =>
        rw [ih hsize]
        constructor
        · rintro ⟨hlt, heq⟩
          refine ⟨by omega, fun i hi hi' => ?_⟩
          rcases Nat.eq_or_lt_of_le hi with rfl | hi
          · exact hdata.symm
          · exact heq i hi hi'
        · rintro ⟨hlt, heq⟩
          exact ⟨by omega, fun i hi hi' => heq i (by omega) hi'⟩
      · next hdata =>
        exact iff_of_false (by simp) fun h => hdata (h.2 same (Nat.le_refl _) hsize).symm
    · next hsize =>
      exact iff_of_true rfl ⟨by omega, fun i hi hi' => absurd hi' (by omega)⟩

theorem sameFrom_congr {fuel : ℕ} (h : ∀ k < size, a k = b (base + k))
    (hle : same + fuel ≤ size) :
    a.sameFrom size data fuel same = b.sameFrom (base + size) data fuel same := by
  induction fuel generalizing same with
  | zero => rfl
  | succ fuel ih =>
    have hoffset : base + size - 1 - same = base + (size - 1 - same) := by omega
    have hlt : same < size := by omega
    have hlt' : same < base + size := by omega
    rw [sameFrom, sameFrom, if_pos hlt, if_pos hlt', hoffset, h (size - 1 - same) (by omega),
      ih (by omega)]

/-- A buffer that holds the end of another. -/
theorem trailing_congr (h : ∀ k < size, a k = b (base + k)) (hpos : 0 < size) (hle : limit ≤ size) :
    a.trailing size limit = b.trailing (base + size) limit := by
  have hlast : base + size - 1 = base + (size - 1) := by omega
  rw [trailing, trailing, hlast, h (size - 1) (by omega), sameFrom_congr h (by omega)]

theorem trailing_le (h : b.trailing size limit = some m) : m ≤ limit := by
  have hle := (sameFrom_eq_some h).2.1
  omega

theorem trailing_eq_none_iff :
    b.trailing size limit = none ↔ size < limit ∧ ∀ k < size, b k = b (size - 1) := by
  rw [trailing, sameFrom_eq_none_iff (Nat.zero_le size), Nat.zero_add]
  refine and_congr_right fun _ => ⟨fun h k hk => ?_, fun h i _ hi => h _ (by omega)⟩
  have hk' := h (size - 1 - k) (Nat.zero_le _) (by omega)
  rwa [show size - 1 - (size - 1 - k) = k by omega] at hk'

end Buffer

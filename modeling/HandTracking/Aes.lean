/-
The buffers that the models are encrypted in.

`encryptBuf` pads to two blocks at the end: 32 bytes less what the last block already has, and each
pad byte says how many they are.  `decryptBuf` cuts off as many bytes as are equal at the end, up to
32, and not as many as the last byte says.

* `encryptBuf_apply` — the padded buffer, block by block;
* `decryptBuf_of_pad` — what `decryptBuf` makes of it;
* `roundTrip_iff` — the buffers that come back.
-/
import HandTracking.Library.BlockCipher
import Mathlib.Tactic.Common

namespace Aes

open Buffer

/-- The key that `setKey` is given: 256 bits. -/
abbrev Key := Fin 32 → BitVec 8

/-- The padded length. -/
def sealedSize (size : ℕ) : ℕ := (size / 16 + 2) * 16

/-- What every pad byte says. -/
def padByte (size : ℕ) : BitVec 8 := BitVec.ofNat 8 (32 - size % 16)

/-- The plain bytes with the padding behind them. -/
def padded (inbuf : Buffer) (size : ℕ) : Buffer :=
  fun k => if k < size then inbuf k else padByte size

section Code

-- `AES_encrypt` with a key; `AES_decrypt` is its inverse
variable (cipher : Key → Equiv.Perm Block)

/-- The last bytes, `blockRemain` of them behind `block` blocks, with their padding: two blocks
more. -/
def encryptTail (myKey : Key) (inbuf outbuf : Buffer) (block blockRemain : ℕ) : Buffer × Buffer :=
  let remain := 32 - blockRemain
  let inbuf := inbuf.fill (blockRemain + block * 16) (16 + block * 16) (BitVec.ofNat 8 remain)
  let outbuf := outbuf.setBlock block (cipher myKey (inbuf.block block))
  let block := block + 1
  let inbuf := inbuf.fill (block * 16) (16 + block * 16) (BitVec.ofNat 8 remain)
  (inbuf, outbuf.setBlock block (cipher myKey (inbuf.block block)))

/-- `fresh` is what the new buffer holds at first.  `none`: the size of the new buffer is no
`int`. -/
def encryptBuf (myKey : Key) (inbuf : Buffer) (inbuflen : ℕ) (fresh outbuf : Buffer) :
    Option (Buffer × ℕ) :=
  if inbuflen + 32 < 2 ^ 31 then
    let mInbuf := memcpy fresh inbuf inbuflen
    let block := inbuflen / 16
    let blockRemain := inbuflen % 16
    let outbuf := mapBlocks (cipher myKey) mInbuf outbuf block
    let tail := encryptTail cipher myKey mInbuf outbuf block blockRemain
    some (tail.2, (block + 2) * 16)
  else none

/-- `none`: an index in front of `outbuf`. -/
def decryptBuf (myKey : Key) (inbuf : Buffer) (inbuflen : ℕ) (outbuf : Buffer) :
    Option (Buffer × ℕ) :=
  let outbuf := mapBlocks (cipher myKey).symm inbuf outbuf (inbuflen / 16)
  let data := outbuf (inbuflen - 1)
  match outbuf.trailing inbuflen 32 with
  | none => none
  | some same =>
    some (outbuf, if 0 < same ∧ data.toNat ≤ same then inbuflen - same else inbuflen)

/-- The buffer comes back, byte for byte and with its length. -/
def RoundTrip (myKey : Key) (inbuf : Buffer) (inbuflen : ℕ) (fresh outbuf outbuf' : Buffer) :
    Prop :=
  ∃ enc enclen dec, encryptBuf cipher myKey inbuf inbuflen fresh outbuf = some (enc, enclen) ∧
    decryptBuf cipher myKey enc enclen outbuf' = some (dec, inbuflen) ∧ EqOn 0 inbuflen dec inbuf

end Code

/-! ### The padding -/

section Padding

variable {inbuf : Buffer} {size k : ℕ}

theorem toNat_padByte (size : ℕ) : (padByte size).toNat = 32 - size % 16 := by
  rw [padByte, BitVec.toNat_ofNat]
  exact Nat.mod_eq_of_lt (by omega)

theorem sealedSize_eq (size : ℕ) : sealedSize size = size - size % 16 + 32 := by
  unfold sealedSize
  omega

theorem padded_of_lt (h : k < size) : padded inbuf size k = inbuf k := if_pos h

theorem padded_of_le (h : size ≤ k) : padded inbuf size k = padByte size :=
  if_neg (Nat.not_lt.mpr h)

end Padding

/-! ### There and back -/

section Proofs

variable {cipher : Key → Equiv.Perm Block} {myKey : Key} {inbuf fresh outbuf outbuf' : Buffer}
  {size m : ℕ}

/-- The two last blocks are those of `plain`, which has the bytes and the padding. -/
theorem encryptTail_apply (plain : Buffer) {block blockRemain : ℕ} (hr : blockRemain < 16)
    (hin : EqOn 0 (16 * block + blockRemain) inbuf plain)
    (hpad : ∀ k, 16 * block + blockRemain ≤ k → k < 16 * block + 32 →
      plain k = BitVec.ofNat 8 (32 - blockRemain)) {k : ℕ} (hk : k < 16 * block + 32) :
    (encryptTail cipher myKey inbuf outbuf block blockRemain).2 k =
      if k < 16 * block then outbuf k else ofBlocks (cipher myKey) plain k := by
  set inbuf₁ := inbuf.fill (blockRemain + block * 16) (16 + block * 16)
    (BitVec.ofNat 8 (32 - blockRemain)) with hinbuf₁
  set inbuf₂ := inbuf₁.fill ((block + 1) * 16) (16 + (block + 1) * 16)
    (BitVec.ofNat 8 (32 - blockRemain)) with hinbuf₂
  have heq₁ : EqOn (16 * block) (16 * block + 16) inbuf₁ plain := by
    intro k hk hk'
    rw [hinbuf₁, fill]
    split
    · rw [hpad k (by omega) (by omega)]
    · exact hin k (Nat.zero_le k) (by omega)
  have heq₂ : EqOn (16 * (block + 1)) (16 * (block + 1) + 16) inbuf₂ plain := by
    intro k hk hk'
    rw [hinbuf₂, fill, if_pos (by omega), hpad k (by omega) (by omega)]
  refine (setBlock_apply _ heq₂).trans ?_
  split
  · rw [if_neg (by omega)]
  · refine (setBlock_apply _ heq₁).trans ?_
    split
    · rw [if_neg (by omega)]
    · rw [if_pos (by omega)]

/-- `encryptBuf` puts the padded buffer block by block into the other. -/
theorem encryptBuf_apply (cipher : Key → Equiv.Perm Block) (myKey : Key)
    (inbuf fresh outbuf : Buffer) (h : size + 32 < 2 ^ 31) :
    ∃ enc, encryptBuf cipher myKey inbuf size fresh outbuf = some (enc, sealedSize size) ∧
      EqOn 0 (sealedSize size) enc (ofBlocks (cipher myKey) (padded inbuf size)) := by
  have hcopy : EqOn 0 size (memcpy fresh inbuf size) (padded inbuf size) := by
    intro k _ hk
    rw [memcpy_of_lt hk, padded_of_lt hk]
  refine ⟨_, if_pos h, fun k _ hk => ?_⟩
  unfold sealedSize at hk
  refine (encryptTail_apply (padded inbuf size) (Nat.mod_lt size (by omega))
    (fun j _ hj => ?_) (fun j hj _ => ?_) (by omega)).trans ?_
  · exact hcopy j (Nat.zero_le j) (by omega)
  · exact padded_of_le (by omega)
  · split
    · next hlt =>
      rw [mapBlocks_apply fun j _ hj => hcopy j (Nat.zero_le j) (by omega), if_pos hlt]
    · rfl

/-- Decrypting the encrypted buffer gives the padded one. -/
theorem decrypt_padded (outbuf : Buffer) {enc : Buffer}
    (h : EqOn 0 (16 * m) enc (ofBlocks (cipher myKey) (padded inbuf size))) :
    EqOn 0 (16 * m) (mapBlocks (cipher myKey).symm enc outbuf m) (padded inbuf size) := by
  intro k _ hk
  rw [mapBlocks_apply h, if_pos hk, ofBlocks_symm]

/-- All of the padding is equal, and perhaps some of what is in front of it. -/
theorem trailing_padded {dec : Buffer} (h : EqOn 0 (sealedSize size) dec (padded inbuf size)) :
    ∃ same, dec.trailing (sealedSize size) 32 = some same ∧ 32 - size % 16 ≤ same ∧ same ≤ 32 ∧
      (same = 32 - size % 16 ↔ size % 16 = 0 ∨ inbuf (size - 1) ≠ padByte size) := by
  have hsize := sealedSize_eq size
  have hpad : ∀ k, size ≤ k → k < sealedSize size → dec k = padByte size := by
    intro k hle hlt
    rw [h k (Nat.zero_le k) hlt, padded_of_le hle]
  have hlast := hpad (sealedSize size - 1) (by omega) (by omega)
  -- what stands in front of the padding, if it does not start a block
  have hfront : 0 < size % 16 →
      dec (sealedSize size - 1 - (32 - size % 16)) = inbuf (size - 1) := by
    intro hpos
    have hidx : sealedSize size - 1 - (32 - size % 16) = size - 1 := by omega
    rw [hidx, h _ (Nat.zero_le _) (by omega), padded_of_lt (by omega)]
  cases hsame : dec.trailing (sealedSize size) 32 with
  | none =>
    have hlt := (trailing_eq_none_iff.mp hsame).1
    omega
  | some same =>
    obtain ⟨-, hle, heq, hstop⟩ := sameFrom_eq_some hsame
    have hge : 32 - size % 16 ≤ same := by
      by_contra hlt
      obtain ⟨hlt', hne⟩ := hstop (by omega)
      exact hne ((hpad _ (by omega) (by omega)).trans hlast.symm)
    refine ⟨same, rfl, hge, by omega, ?_⟩
    constructor
    · intro hsame'
      by_cases hr : size % 16 = 0
      · exact .inl hr
      · refine .inr fun hinbuf => ?_
        obtain ⟨-, hne⟩ := hstop (by omega)
        rw [hsame', hfront (by omega), hlast] at hne
        exact hne hinbuf
    · rintro (hr | hne)
      · omega
      · by_contra hsame'
        by_cases hr : size % 16 = 0
        · omega
        · have hmore := (heq (32 - size % 16) (Nat.zero_le _) (by omega)).2
          rw [hfront (by omega), hlast] at hmore
          exact hne hmore

/-- What `decryptBuf` makes of an encrypted buffer. -/
theorem decryptBuf_of_pad (outbuf : Buffer) {enc : Buffer}
    (h : EqOn 0 (sealedSize size) enc (ofBlocks (cipher myKey) (padded inbuf size))) :
    ∃ dec same, decryptBuf cipher myKey enc (sealedSize size) outbuf =
        some (dec, sealedSize size - same) ∧ EqOn 0 (sealedSize size) dec (padded inbuf size) ∧
      32 - size % 16 ≤ same ∧ same ≤ 32 ∧
      (same = 32 - size % 16 ↔ size % 16 = 0 ∨ inbuf (size - 1) ≠ padByte size) := by
  have hsize := sealedSize_eq size
  have hblocks : 16 * (sealedSize size / 16) = sealedSize size := by
    unfold sealedSize
    omega
  have hdec := decrypt_padded outbuf (m := sealedSize size / 16) (hblocks.symm ▸ h)
  rw [hblocks] at hdec
  obtain ⟨same, htrailing, hge, hle, hiff⟩ := trailing_padded hdec
  have hdata := hdec (sealedSize size - 1) (Nat.zero_le _) (by omega)
  rw [padded_of_le (by omega)] at hdata
  refine ⟨_, same, ?_, hdec, hge, hle, hiff⟩
  simp only [decryptBuf, htrailing, hdata, toNat_padByte]
  rw [if_pos ⟨by omega, hge⟩]

/-- What `decryptBuf` cuts off is the padding, if nothing in front of it looks the same. -/
theorem roundTrip_iff_of_lt (h : size + 32 < 2 ^ 31) :
    RoundTrip cipher myKey inbuf size fresh outbuf outbuf' ↔
      size % 16 = 0 ∨ inbuf (size - 1) ≠ padByte size := by
  obtain ⟨enc, henc, heq⟩ := encryptBuf_apply cipher myKey inbuf fresh outbuf h
  obtain ⟨dec, same, hdec, hdecEq, hge, hle, hiff⟩ := decryptBuf_of_pad outbuf' heq
  have hsize := sealedSize_eq size
  rw [← hiff]
  constructor
  · rintro ⟨enc', enclen, dec', henc', hdec', -⟩
    rw [henc] at henc'
    cases henc'
    rw [hdec] at hdec'
    have hlen : sealedSize size - same = size := congrArg Prod.snd (Option.some.inj hdec')
    omega
  · intro hsame
    refine ⟨enc, sealedSize size, dec, henc, ?_, fun k hk hlt => ?_⟩
    · rw [hdec, hsame]
      exact congrArg (fun m => some (dec, m)) (by omega)
    · rw [hdecEq k hk (by omega), padded_of_lt hlt]

/-- A buffer comes back exactly if its padded length is an `int`, and if it ends with a block or
with a byte that is not its pad byte. -/
theorem roundTrip_iff :
    RoundTrip cipher myKey inbuf size fresh outbuf outbuf' ↔
      size + 32 < 2 ^ 31 ∧ (size % 16 = 0 ∨ inbuf (size - 1) ≠ padByte size) := by
  by_cases h : size + 32 < 2 ^ 31
  · rw [roundTrip_iff_of_lt h, and_iff_right h]
  · refine iff_of_false ?_ fun hand => h hand.1
    rintro ⟨enc, enclen, dec, henc, -⟩
    rw [encryptBuf, if_neg h] at henc
    cases henc

/-- One byte that says how much padding it would get. -/
theorem not_roundTrip_of_pad :
    ¬∀ (cipher : Key → Equiv.Perm Block) (myKey : Key) (inbuf : Buffer) (size : ℕ)
      (fresh outbuf outbuf' : Buffer),
        RoundTrip cipher myKey inbuf size fresh outbuf outbuf' := by
  intro h
  have hone := h (fun _ => Equiv.refl _) (fun _ => 0) (fun _ => 31) 1 zero zero zero
  rw [roundTrip_iff_of_lt (by decide)] at hone
  exact absurd hone (by decide)

end Proofs

end Aes

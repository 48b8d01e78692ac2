/-
`md5`, by whose digest a model is known.

The message gets a one bit, zeros and its length behind it; it is taken in chunks of sixteen words,
and the hash runs through 64 rounds for each chunk.

* `md5`, `md5str` — the code;
* `newLen_spec` — the room that the padding takes;
* `eq_of_blocks_suffix` — the chunks of a message are not the end of another's;
* `md5str_eq_iff` — two messages have the same digest only if they are equal, or if different
  values are compressed to the same on the way.
-/
import HandTracking.Library.MerkleDamgard
import HandTracking.Library.Numerals
import HandTracking.Microtar
import Mathlib.Tactic.Common

namespace Md5

open MerkleDamgard Microtar

/-! ### The code -/

/-- `k` -/
def kTable : List (BitVec 32) :=
  [0xd76aa478, 0xe8c7b756, 0x242070db, 0xc1bdceee, 0xf57c0faf, 0x4787c62a, 0xa8304613, 0xfd469501,
    0x698098d8, 0x8b44f7af, 0xffff5bb1, 0x895cd7be, 0x6b901122, 0xfd987193, 0xa679438e, 0x49b40821,
    0xf61e2562, 0xc040b340, 0x265e5a51, 0xe9b6c7aa, 0xd62f105d, 0x02441453, 0xd8a1e681, 0xe7d3fbc8,
    0x21e1cde6, 0xc33707d6, 0xf4d50d87, 0x455a14ed, 0xa9e3e905, 0xfcefa3f8, 0x676f02d9, 0x8d2a4c8a,
    0xfffa3942, 0x8771f681, 0x6d9d6122, 0xfde5380c, 0xa4beea44, 0x4bdecfa9, 0xf6bb4b60, 0xbebfbc70,
    0x289b7ec6, 0xeaa127fa, 0xd4ef3085, 0x04881d05, 0xd9d4d039, 0xe6db99e5, 0x1fa27cf8, 0xc4ac5665,
    0xf4292244, 0x432aff97, 0xab9423a7, 0xfc93a039, 0x655b59c3, 0x8f0ccc92, 0xffeff47d, 0x85845dd1,
    0x6fa87e4f, 0xfe2ce6e0, 0xa3014314, 0x4e0811a1, 0xf7537e82, 0xbd3af235, 0x2ad7d2bb, 0xeb86d391]

/-- `r` -/
def rTable : List ℕ :=
  [7, 12, 17, 22, 7, 12, 17, 22, 7, 12, 17, 22, 7, 12, 17, 22, 5, 9, 14, 20, 5, 9,
    14, 20, 5, 9, 14, 20, 5, 9, 14, 20, 4, 11, 16, 23, 4, 11, 16, 23, 4, 11, 16, 23,
    4, 11, 16, 23, 6, 10, 15, 21, 6, 10, 15, 21, 6, 10, 15, 21, 6, 10, 15, 21]

/-- `LEFTROTATE` -/
def leftrotate (x : BitVec 32) (c : ℕ) : BitVec 32 := x <<< c ||| x >>> (32 - c)

/-- `to_bytes`: the lowest byte first. -/
def toBytes (val : BitVec 32) : Bytes :=
  [val.setWidth 8, (val >>> 8).setWidth 8, (val >>> 16).setWidth 8, (val >>> 24).setWidth 8]

/-- `to_int32`: the lowest byte first. -/
def toInt32 (bytes : ℕ → BitVec 8) : BitVec 32 :=
  (bytes 0).setWidth 32 ||| (bytes 1).setWidth 32 <<< 8 ||| (bytes 2).setWidth 32 <<< 16 |||
    (bytes 3).setWidth 32 <<< 24

/-- The loop that finds `new_len`. -/
def newLen (n : ℕ) : ℕ := if n % (512 / 8) ≠ 448 / 8 then newLen (n + 1) else n
termination_by (120 - n % 64) % 64
decreasing_by omega

/-- `msg`, byte by byte in the order in which its parts are written. -/
def message (initialMsg : Bytes) : Bytes :=
  let initialLen := initialMsg.length
  initialMsg ++ [(0x80 : BitVec 8)] ++
    List.replicate (newLen (initialLen + 1) - (initialLen + 1)) (0 : BitVec 8) ++
    toBytes (BitVec.ofNat 32 (initialLen * 8)) ++ toBytes (BitVec.ofNat 32 (initialLen >>> 29))

/-- The four words of the hash. -/
structure Hash where
  a : BitVec 32
  b : BitVec 32
  c : BitVec 32
  d : BitVec 32
  deriving DecidableEq, Repr

/-- The words of a chunk. -/
abbrev Words := Fin 16 → BitVec 32

/-- The main loop's body. -/
def round (w : Words) (h : Hash) (i : ℕ) : Hash :=
  let f :=
    if i < 16 then (h.b &&& h.c) ||| (~~~h.b &&& h.d)
    else if i < 32 then (h.d &&& h.b) ||| (~~~h.d &&& h.c)
    else if i < 48 then h.b ^^^ h.c ^^^ h.d
    else h.c ^^^ (h.b ||| ~~~h.d)
  let g :=
    if i < 16 then i
    else if i < 32 then (5 * i + 1) % 16
    else if i < 48 then (3 * i + 5) % 16
    else 7 * i % 16
  { a := h.d
    b := h.b + leftrotate (h.a + f + kTable.getD i 0 + w (Fin.ofNat 16 g)) (rTable.getD i 0)
    c := h.b
    d := h.c }

/-- A chunk is added to the hash. -/
def compress (h : Hash) (w : Words) : Hash :=
  let r := (List.range 64).foldl (round w) h
  ⟨h.a + r.a, h.b + r.b, h.c + r.c, h.d + r.d⟩

/-- The hash before the first chunk. -/
def initial : Hash := ⟨0x67452301, 0xefcdab89, 0x98badcfe, 0x10325476⟩

/-- The words of the chunk at an offset. -/
def chunk (msg : Bytes) (offset : ℕ) : Words :=
  fun i => toInt32 fun j => msg.getD (offset + i * 4 + j) 0

/-- The chunks at all offsets below `new_len`. -/
def blocks (initialMsg : Bytes) : List Words :=
  (List.range ((newLen (initialMsg.length + 1) + 63) / 64)).map fun j =>
    chunk (message initialMsg) (64 * j)

/-- The bytes of a hash. -/
def digest (h : Hash) : Bytes := toBytes h.a ++ toBytes h.b ++ toBytes h.c ++ toBytes h.d

/-- `md5`: the hash runs through all chunks of the message. -/
def md5 (initialMsg : Bytes) : Bytes := digest ((blocks initialMsg).foldl compress initial)

/-- `"%02x"` for each byte -/
def md5str (digest : Bytes) : List Char :=
  digest.flatMap fun b => [Nat.digitChar (b.toNat / 16), Nat.digitChar (b.toNat % 16)]

example : md5str (md5 []) = "d41d8cd98f00b204e9800998ecf8427e".toList := by decide +kernel

/-! ### Bytes and words -/

theorem byte_toInt32 (bytes : ℕ → BitVec 8) {k : ℕ} (hk : k < 4) :
    (toInt32 bytes >>> (8 * k)).setWidth 8 = bytes k := by
  ext i hi
  simp only [toInt32, BitVec.getElem_setWidth, BitVec.getLsbD_ushiftRight, BitVec.getLsbD_or,
    BitVec.getLsbD_shiftLeft, BitVec.getLsbD_setWidth]
  obtain rfl | rfl | rfl | rfl : k = 0 ∨ k = 1 ∨ k = 2 ∨ k = 3 := by omega
  · grind
  · grind
  · grind
  · grind

theorem toInt32_toBytes (val : BitVec 32) : (toInt32 fun j => (toBytes val).getD j 0) = val := by
  ext i hi
  simp only [toInt32, toBytes, List.getD_cons_zero, List.getD_cons_succ, BitVec.getElem_or,
    BitVec.getElem_shiftLeft, BitVec.getElem_setWidth, BitVec.getLsbD_setWidth,
    BitVec.getLsbD_ushiftRight]
  grind

theorem toBytes_injective : Function.Injective toBytes := by
  intro v v' h
  rw [← toInt32_toBytes v, ← toInt32_toBytes v', h]

theorem length_toBytes (val : BitVec 32) : (toBytes val).length = 4 := rfl

/-- Only the first four bytes count. -/
theorem toInt32_congr {bytes bytes' : ℕ → BitVec 8} (h : ∀ j < 4, bytes j = bytes' j) :
    toInt32 bytes = toInt32 bytes' := by
  rw [toInt32, h 0 (by omega), h 1 (by omega), h 2 (by omega), h 3 (by omega), ← toInt32]

/-- A word among other bytes. -/
theorem toInt32_append (pre post : Bytes) (val : BitVec 32) :
    (toInt32 fun j => (pre ++ toBytes val ++ post).getD (pre.length + j) 0) = val := by
  refine (toInt32_congr fun j hj => ?_).trans (toInt32_toBytes val)
  rw [List.getD_eq_getElem?_getD, List.append_assoc, List.getElem?_append_right (by omega),
    Nat.add_sub_cancel_left, List.getElem?_append_left (by rwa [length_toBytes]),
    ← List.getD_eq_getElem?_getD]

/-! ### The padding -/

theorem newLen_spec (n : ℕ) : n ≤ newLen n ∧ newLen n < n + 64 ∧ newLen n % 64 = 56 := by
  suffices h : n ≤ newLen n ∧ newLen n ≤ n + (120 - n % 64) % 64 ∧ newLen n % 64 = 56 by omega
  induction n using newLen.induct with
  | case1 n hn ih =>
    have hmod : n % 64 ≠ 56 := hn
    rw [newLen, if_pos hn]
    omega
  | case2 n hn =>
    have hmod : n % 64 = 56 := not_not.mp hn
    rw [newLen, if_neg hn]
    omega

/-- The number of chunks. -/
def chunks (n : ℕ) : ℕ := (newLen (n + 1) + 63) / 64

theorem chunks_mul (n : ℕ) : 64 * chunks n = newLen (n + 1) + 8 := by
  obtain ⟨-, -, hmod⟩ := newLen_spec (n + 1)
  rw [chunks]
  omega

section Message

variable (m : Bytes)

/-- What stands in front of the length. -/
def front : Bytes :=
  m ++ [(0x80 : BitVec 8)] ++
    List.replicate (newLen (m.length + 1) - (m.length + 1)) (0 : BitVec 8)

theorem length_front : (front m).length = newLen (m.length + 1) := by
  obtain ⟨hle, -, -⟩ := newLen_spec (m.length + 1)
  simp only [front, List.length_append, List.length_cons, List.length_nil, List.length_replicate]
  omega

theorem message_eq : message m = front m ++ toBytes (BitVec.ofNat 32 (m.length * 8)) ++
    toBytes (BitVec.ofNat 32 (m.length >>> 29)) := rfl

theorem length_blocks : (blocks m).length = chunks m.length := by
  rw [blocks, List.length_map, List.length_range]
  rfl

theorem getElem?_blocks {j : ℕ} (hj : j < chunks m.length) :
    (blocks m)[j]? = some (chunk (message m) (64 * j)) := by
  have hrange := List.getElem?_range hj
  rw [chunks] at hrange
  rw [blocks, List.getElem?_map, hrange]
  rfl

theorem chunks_pos (n : ℕ) : 0 < chunks n := by
  have hmul := chunks_mul n
  omega

/-- The length in the last chunk: its lower half and its upper half. -/
theorem last_chunk :
    chunk (message m) (64 * (chunks m.length - 1)) 14 = BitVec.ofNat 32 (m.length * 8) ∧
      chunk (message m) (64 * (chunks m.length - 1)) 15 = BitVec.ofNat 32 (m.length >>> 29) := by
  have hmul := chunks_mul m.length
  have hfront := length_front m
  have hlow := toInt32_append (front m) (toBytes (BitVec.ofNat 32 (m.length >>> 29)))
    (BitVec.ofNat 32 (m.length * 8))
  have hhigh := toInt32_append (front m ++ toBytes (BitVec.ofNat 32 (m.length * 8))) []
    (BitVec.ofNat 32 (m.length >>> 29))
  rw [← message_eq] at hlow
  rw [List.append_nil, ← message_eq, List.length_append, length_toBytes] at hhigh
  have hplace : 64 * (chunks m.length - 1) + 14 * 4 = (front m).length := by omega
  have hplace' : 64 * (chunks m.length - 1) + 15 * 4 = (front m).length + 4 := by omega
  constructor
  · rw [← hplace] at hlow
    exact hlow
  · rw [← hplace'] at hhigh
    exact hhigh

end Message

/-- Two lengths with the same bytes behind the message. -/
theorem length_eq_of_bytes {n n' : ℕ} (hn : n < 2 ^ 61) (hn' : n' < 2 ^ 61)
    (hlow : BitVec.ofNat 32 (n * 8) = BitVec.ofNat 32 (n' * 8))
    (hhigh : BitVec.ofNat 32 (n >>> 29) = BitVec.ofNat 32 (n' >>> 29)) : n = n' := by
  have hlow := congrArg BitVec.toNat hlow
  have hhigh := congrArg BitVec.toNat hhigh
  rw [BitVec.toNat_ofNat, BitVec.toNat_ofNat] at hlow hhigh
  rw [Nat.shiftRight_eq_div_pow, Nat.shiftRight_eq_div_pow] at hhigh
  omega

section Suffix

variable {m m' : Bytes}

/-- The chunks determine the bytes. -/
theorem message_getD_of_blocks (h : blocks m = blocks m') {e : ℕ}
    (he : e < 64 * chunks m.length) : (message m).getD e 0 = (message m').getD e 0 := by
  have hcount : chunks m.length = chunks m'.length := by
    rw [← length_blocks, ← length_blocks, h]
  have hj : e / 64 < chunks m.length := by omega
  have hchunk := getElem?_blocks m hj
  rw [h, getElem?_blocks m' (hcount ▸ hj)] at hchunk
  -- the byte of a word of the chunk
  have hi : e / 4 % 16 < 16 := Nat.mod_lt _ (by omega)
  have hword := congrFun (Option.some.inj hchunk) ⟨e / 4 % 16, hi⟩
  have hbyte := congrArg (fun w : BitVec 32 => (w >>> (8 * (e % 4))).setWidth 8) hword
  have hk : e % 4 < 4 := Nat.mod_lt _ (by omega)
  simp only [chunk, byte_toInt32 _ hk] at hbyte
  have hplace : 64 * (e / 64) + e / 4 % 16 * 4 + e % 4 = e := by omega
  rw [hplace] at hbyte
  exact hbyte.symm

theorem eq_of_blocks_eq (h : blocks m = blocks m') (hlen : m.length = m'.length) : m = m' := by
  obtain ⟨hle, -, -⟩ := newLen_spec (m.length + 1)
  have hmul := chunks_mul m.length
  refine List.ext_getElem hlen fun e he he' => ?_
  have hbyte := message_getD_of_blocks h (show e < 64 * chunks m.length by omega)
  have hget : ∀ (l : Bytes) (hl : e < l.length), (message l).getD e 0 = l[e] := by
    intro l hl
    rw [message_eq, front, List.getD_eq_getElem?_getD]
    simp only [List.append_assoc]
    rw [List.getElem?_append_left hl, List.getElem?_eq_getElem hl]
    rfl
  rwa [hget m he, hget m' he'] at hbyte

/-- The last chunk holds the length. -/
theorem eq_of_blocks_suffix (hm : m.length < 2 ^ 61) (hm' : m'.length < 2 ^ 61)
    (h : blocks m <:+ blocks m') : m = m' := by
  obtain ⟨t, ht⟩ := h
  have hcount : t.length + chunks m.length = chunks m'.length := by
    rw [← length_blocks m, ← length_blocks m', ← ht, List.length_append]
  have hpos := chunks_pos m.length
  have hlast : chunk (message m') (64 * (chunks m'.length - 1)) =
      chunk (message m) (64 * (chunks m.length - 1)) := by
    have hget := getElem?_blocks m' (show chunks m'.length - 1 < chunks m'.length by omega)
    rw [← ht, List.getElem?_append_right (by omega)] at hget
    rw [show chunks m'.length - 1 - t.length = chunks m.length - 1 by omega,
      getElem?_blocks m (by omega)] at hget
    exact (Option.some.inj hget).symm
  obtain ⟨hlow, hhigh⟩ := last_chunk m
  obtain ⟨hlow', hhigh'⟩ := last_chunk m'
  rw [hlast, hlow] at hlow'
  rw [hlast, hhigh] at hhigh'
  have hlen : m.length = m'.length := length_eq_of_bytes hm hm' hlow' hhigh'
  have hsame : blocks m = blocks m' :=
    List.IsSuffix.eq_of_length ⟨t, ht⟩ (by rw [length_blocks, length_blocks, hlen])
  exact eq_of_blocks_eq hsame hlen

end Suffix

/-! ### The digest -/

theorem digitChar_injOn {a b : ℕ} (ha : a < 16) (hb : b < 16)
    (h : Nat.digitChar a = Nat.digitChar b) : a = b := by
  have hall : ∀ a < 16, ∀ b < 16, Nat.digitChar a = Nat.digitChar b → a = b := by decide
  exact hall a ha b hb h

theorem md5str_injective : Function.Injective md5str := by
  intro digest
  induction digest with
  | nil =>
    intro digest' h
    cases digest' with
    | nil => rfl
    | cons b' digest' => exact absurd h (by simp [md5str])
  | cons b digest ih =>
    intro digest' h
    cases digest' with
    | nil => exact absurd h (by simp [md5str])
    | cons b' digest' =>
      simp only [md5str, List.flatMap_cons, List.cons_append, List.nil_append,
        List.cons.injEq] at h
      obtain ⟨hhigh, hlow, hrest⟩ := h
      have hb := b.isLt
      have hb' := b'.isLt
      have hhigh := digitChar_injOn (by omega) (by omega) hhigh
      have hlow := digitChar_injOn (Nat.mod_lt _ (by omega)) (Nat.mod_lt _ (by omega)) hlow
      have hbyte : b = b' := BitVec.eq_of_toNat_eq (by omega)
      rw [hbyte, ih hrest]

theorem digest_injective : Function.Injective digest := by
  intro h h' heq
  have hlength : ∀ v v' : BitVec 32, (toBytes v).length = (toBytes v').length := fun v v' =>
    (length_toBytes v).trans (length_toBytes v').symm
  obtain ⟨habc, hd⟩ := List.append_inj' heq (hlength ..)
  obtain ⟨hab, hc⟩ := List.append_inj' habc (hlength ..)
  obtain ⟨ha, hb⟩ := List.append_inj' hab (hlength ..)
  cases h
  cases h'
  rw [Hash.mk.injEq]
  exact ⟨toBytes_injective ha, toBytes_injective hb, toBytes_injective hc, toBytes_injective hd⟩

/-- Two messages with one digest: the chains of their chunks collide. -/
theorem md5str_eq_iff {m m' : Bytes} (hm : m.length < 2 ^ 61) (hm' : m'.length < 2 ^ 61) :
    md5str (md5 m) = md5str (md5 m') ↔
      m = m' ∨ Collides compress initial (blocks m) (blocks m') := by
  rw [md5str_injective.eq_iff, md5, md5, digest_injective.eq_iff]
  exact hash_eq_iff (eq_of_blocks_suffix hm hm') (eq_of_blocks_suffix hm' hm)

end Md5

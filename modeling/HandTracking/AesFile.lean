/-
The files that the models are encrypted in, a chunk at a time.

`encryptFile` pads the last chunk, or writes two blocks of padding behind it, and writes over what
the destination has, which it does not truncate.  `decryptFile` looks for the padding in the last
chunk that it reads.

* `encryptFile_apply` — the padded file, block by block, and what is left of the old one;
* `decryptFile_apply` — the decrypted blocks, less what the last chunk says;
* `fileRoundTrip_iff` — the files that come back.
-/
import HandTracking.Aes

namespace Aes

open Buffer

/-- What the functions on files return. -/
inductive SysErrCode where
  | errNone
  | errAesFileFormat
  deriving DecidableEq, Repr

/-- The bytes of a file and their number. -/
structure File where
  data : Buffer
  size : ℕ

namespace File

/-- The file to write to, before the first write. -/
def empty : File := ⟨zero, 0⟩

/-- A read of up to `len` bytes at the offset `pos`, with the bytes that it has got. -/
def read (f : File) (pos len : ℕ) (buf : Buffer) : Buffer × ℕ :=
  let readSize := min len (f.size - pos)
  (memcpy buf (fun k => f.data (pos + k)) readSize, readSize)

/-- A write of `len` bytes at the offset `pos`. -/
def write (f : File) (pos : ℕ) (buf : Buffer) (len : ℕ) : File where
  data := fun k => if pos ≤ k ∧ k < pos + len then buf (k - pos) else f.data k
  size := if len = 0 then f.size else max f.size (pos + len)

end File

/-- What the loops over the chunks change: where the two files are, how much is left to read, the
buffers and the destination. -/
structure Copy where
  readPos : ℕ
  readFileSize : ℕ
  inbuf : Buffer
  outbuf : Buffer
  dst : File
  writePos : ℕ

/-- One round of the loop: a chunk was read into `inbuf` and the first `len` bytes of `outbuf` were
written. -/
def Copy.write (s : Copy) (readSize : ℕ) (inbuf outbuf : Buffer) (len : ℕ) : Copy where
  readPos := s.readPos + readSize
  readFileSize := s.readFileSize - readSize
  inbuf := inbuf
  outbuf := outbuf
  dst := s.dst.write s.writePos outbuf len
  writePos := s.writePos + len

/-- `while (read_file_size > 0)`; `none` after `fuel` chunks, or where a chunk has none. -/
def copyLoop (chunk : Copy → Option Copy) : ℕ → Copy → Option Copy
  | 0, s => if s.readFileSize = 0 then some s else none
  | fuel + 1, s =>
    if s.readFileSize = 0 then some s
    else
      match chunk s with
      | none => none
      | some s => copyLoop chunk fuel s

section Code

variable (cipher : Key → Equiv.Perm Block) (readBufLen : ℕ)

/-- `none`: an index behind the buffers, which have `readBufLen + 32` bytes. -/
def encryptChunk (myKey : Key) (src : File) (s : Copy) : Option Copy :=
  let chunk := src.read s.readPos readBufLen s.inbuf
  let inbuf := chunk.1
  let readSize := chunk.2
  let block := readSize / 16
  let blockRemain := readSize % 16
  let outbuf := mapBlocks (cipher myKey) inbuf s.outbuf block
  if blockRemain = 0 then some (s.write readSize inbuf outbuf (block * 16))
  else if (block + 2) * 16 ≤ readBufLen + 32 then
    let tail := encryptTail cipher myKey inbuf outbuf block blockRemain
    some (s.write readSize tail.1 tail.2 ((block + 2) * 16))
  else none

/-- One of the two blocks of padding behind a file that ends with a block. -/
def encryptPadBlock (myKey : Key) (s : Copy) : Copy :=
  let inbuf := s.inbuf.fill 0 16 32
  s.write 0 inbuf (s.outbuf.setBlock 0 (cipher myKey (inbuf.block 0))) 16

/-- `dst` is what the destination holds before.  Every open, read and write succeeds. -/
def encryptFile (myKey : Key) (src dst : File) (inbuf outbuf : Buffer) : Option File :=
  let start : Copy := ⟨0, src.size, inbuf, outbuf, dst, 0⟩
  match copyLoop (encryptChunk cipher readBufLen myKey src) src.size start with
  | none => none
  | some s =>
    if src.size % 16 = 0 then
      some (encryptPadBlock cipher myKey (encryptPadBlock cipher myKey s)).dst
    else some s.dst

/-- How much of the last chunk is written, with `same` equal bytes at its end. -/
def lastLen (outbuf : Buffer) (readSize same : ℕ) : ℕ :=
  let data := outbuf (readSize - 1)
  if 0 < same ∧ data.toNat ≤ same then readSize - data.toNat else readSize

/-- `none`: an index in front of `outbuf`.  Only the last chunk is looked at for its padding. -/
def decryptChunk (myKey : Key) (src : File) (s : Copy) : Option Copy :=
  let chunk := src.read s.readPos readBufLen s.inbuf
  let inbuf := chunk.1
  let readSize := chunk.2
  let outbuf := mapBlocks (cipher myKey).symm inbuf s.outbuf (readSize / 16)
  if readSize = s.readFileSize then
    match outbuf.trailing readSize 32 with
    | none => none
    | some same => some (s.write readSize inbuf outbuf (lastLen outbuf readSize same))
  else some (s.write readSize inbuf outbuf readSize)

/-- The destination that is there before is removed. -/
def decryptFile (myKey : Key) (src dst : File) (inbuf outbuf : Buffer) :
    Option (SysErrCode × File) :=
  if src.size % 16 ≠ 0 ∨ src.size = 0 then some (.errAesFileFormat, dst)
  else
    let start : Copy := ⟨0, src.size, inbuf, outbuf, .empty, 0⟩
    match copyLoop (decryptChunk cipher readBufLen myKey src) src.size start with
    | none => none
    | some s => some (.errNone, s.dst)

/-- The file comes back: no index is out of range, and the content is the original. -/
def FileRoundTrip (myKey : Key) (src enc dec : File) (inbuf outbuf inbuf' outbuf' : Buffer) :
    Prop :=
  ∃ enc' dec', encryptFile cipher readBufLen myKey src enc inbuf outbuf = some enc' ∧
    decryptFile cipher readBufLen myKey enc' dec inbuf' outbuf' = some (.errNone, dec') ∧
      dec'.size = src.size ∧ EqOn 0 src.size dec'.data src.data

end Code

/-! ### The loop over the chunks -/

section Loop

/-- If every chunk but the last keeps `I`, the loop comes to a last chunk, and ends with it. -/
theorem copyLoop_last (chunk : Copy → Option Copy) (I last : Copy → Prop)
    (hlast : ∀ s s', I s → last s → chunk s = some s' → s'.readFileSize = 0)
    (hnext : ∀ s, I s → ¬last s → ∃ s', chunk s = some s' ∧ I s' ∧ s'.readFileSize ≠ 0 ∧
      s'.readFileSize < s.readFileSize)
    {fuel : ℕ} {s : Copy} (h : I s) (hsize : s.readFileSize ≠ 0) (hfuel : s.readFileSize ≤ fuel) :
    ∃ s', I s' ∧ last s' ∧ s'.readFileSize ≠ 0 ∧ copyLoop chunk fuel s = chunk s' := by
  induction fuel generalizing s with
  | zero => exact absurd (Nat.le_zero.mp hfuel) hsize
  | succ fuel ih =>
    rw [copyLoop, if_neg hsize]
    by_cases hl : last s
    · refine ⟨s, h, hl, hsize, ?_⟩
      cases hs : chunk s with
      | none => rfl
      | some s' =>
        have hzero := hlast s s' h hl hs
        cases fuel <;> simp [copyLoop, hzero]
    · obtain ⟨s', hs, hI, hsize', hlt⟩ := hnext s h hl
      rw [hs]
      exact ih hI hsize' (by omega)

/-- The first `len` bytes of the file `f`, which was `old`, are those of `plain`. -/
structure Written (old : File) (plain : Buffer) (f : File) (len : ℕ) : Prop where
  data : EqOn 0 len f.data plain
  size : f.size = max old.size len

variable {old f : File} {plain out : Buffer} {pos len : ℕ}

theorem Written.nothing (old : File) (plain : Buffer) : Written old plain old 0 :=
  ⟨eqOn_empty 0 _ _, (Nat.max_zero _).symm⟩

theorem Written.write (h : Written old plain f pos) (hout : ∀ k < len, out k = plain (pos + k)) :
    Written old plain (f.write pos out len) (pos + len) where
  data := by
    intro k _ hk
    simp only [File.write]
    split
    · rw [hout _ (by omega)]
      exact congrArg plain (by omega)
    · exact h.data k (Nat.zero_le k) (by omega)
  size := by
    simp only [File.write, h.size]
    split
    · next hlen => rw [hlen, Nat.add_zero]
    · omega

end Loop

/-! ### Encryption -/

section Encrypt

variable {cipher : Key → Equiv.Perm Block} {readBufLen : ℕ} {myKey : Key} {src old : File}
  {plain : Buffer} {s : Copy}

theorem read_apply (src : File) (pos len : ℕ) (buf : Buffer) :
    EqOn 0 (src.read pos len buf).2 (src.read pos len buf).1 (src.data.drop pos) :=
  fun k _ hk => by
    simp only [File.read] at hk ⊢
    exact memcpy_of_lt hk

/-- Between two chunks. -/
structure AtChunk (readBufLen : ℕ) (src old : File) (plain : Buffer) (s : Copy) : Prop where
  pos : s.readPos + s.readFileSize = src.size
  aligned : readBufLen ∣ s.readPos
  writePos : s.writePos = s.readPos
  written : Written old plain s.dst s.readPos

theorem AtChunk.start (readBufLen : ℕ) (src old : File) (plain inbuf outbuf : Buffer) :
    AtChunk readBufLen src old plain ⟨0, src.size, inbuf, outbuf, old, 0⟩ :=
  ⟨Nat.zero_add _, Nat.dvd_zero _, rfl, .nothing old plain⟩

theorem AtChunk.readSize (h : AtChunk readBufLen src old plain s) :
    (src.read s.readPos readBufLen s.inbuf).2 = min readBufLen s.readFileSize := by
  have hpos := h.pos
  simp only [File.read]
  omega

/-- A chunk that is read in full is written in full. -/
theorem AtChunk.write (h : AtChunk readBufLen src old plain s) (hlt : readBufLen < s.readFileSize)
    (inbuf : Buffer) {outbuf : Buffer}
    (hout : ∀ k < readBufLen, outbuf k = plain (s.readPos + k)) :
    AtChunk readBufLen src old plain (s.write readBufLen inbuf outbuf readBufLen) where
  pos := by
    have hpos := h.pos
    simp only [Copy.write]
    omega
  aligned := Nat.dvd_add h.aligned (Nat.dvd_refl _)
  writePos := congrArg (· + readBufLen) h.writePos
  written := by
    simp only [Copy.write]
    rw [h.writePos]
    exact h.written.write hout

theorem AtChunk.mod_readPos (h : AtChunk readBufLen src old plain s) (h16 : 16 ∣ readBufLen) :
    s.readPos % 16 = 0 :=
  Nat.mod_eq_zero_of_dvd (Nat.dvd_trans h16 h.aligned)

/-- What a chunk reads is the file, which the padding does not change. -/
theorem AtChunk.read_padded (h : AtChunk readBufLen src old plain s) :
    EqOn 0 (min readBufLen s.readFileSize) (src.read s.readPos readBufLen s.inbuf).1
      ((padded src.data src.size).drop s.readPos) := by
  intro k hk hlt
  have hpos := h.pos
  have hlt' : s.readPos + k < src.size := by omega
  rw [read_apply src s.readPos readBufLen s.inbuf k hk (h.readSize ▸ hlt)]
  exact (padded_of_lt hlt').symm

/-- The blocks of a chunk are blocks of the file. -/
theorem AtChunk.mapBlocks_eq (h : AtChunk readBufLen src old plain s) (h16 : 16 ∣ readBufLen)
    {f : Block → Block} {inbuf b : Buffer} {block k : ℕ}
    (heq : EqOn 0 (16 * block) inbuf (b.drop s.readPos)) (hk : k < 16 * block) :
    mapBlocks f inbuf s.outbuf block k = ofBlocks f b (s.readPos + k) := by
  rw [mapBlocks_apply heq, if_pos hk, ofBlocks_drop _ _ _ _ (h.mod_readPos h16)]

theorem encryptChunk_next (h16 : 16 ∣ readBufLen)
    (h : AtChunk readBufLen src old (ofBlocks (cipher myKey) (padded src.data src.size)) s)
    (hlt : readBufLen < s.readFileSize) :
    ∃ s', encryptChunk cipher readBufLen myKey src s = some s' ∧
      AtChunk readBufLen src old (ofBlocks (cipher myKey) (padded src.data src.size)) s' ∧
      s'.readFileSize = s.readFileSize - readBufLen := by
  have hmin : min readBufLen s.readFileSize = readBufLen := Nat.min_eq_left (Nat.le_of_lt hlt)
  have hread := h.readSize.trans hmin
  have hmod : readBufLen % 16 = 0 := Nat.mod_eq_zero_of_dvd h16
  have hdiv : readBufLen / 16 * 16 = readBufLen := by omega
  set inbuf := (src.read s.readPos readBufLen s.inbuf).1
  have hchunk : encryptChunk cipher readBufLen myKey src s = some (s.write readBufLen inbuf
      (mapBlocks (cipher myKey) inbuf s.outbuf (readBufLen / 16)) readBufLen) := by
    simp only [encryptChunk, hread, hmod, if_pos, hdiv]
    rfl
  refine ⟨_, hchunk, h.write hlt inbuf fun k hk => ?_, rfl⟩
  exact h.mapBlocks_eq h16 (fun j hj hlt => h.read_padded j hj (by omega)) (by omega)

/-- The last chunk, with the padding if the file does not end with a block. -/
theorem encryptChunk_last (h16 : 16 ∣ readBufLen)
    (h : AtChunk readBufLen src old (ofBlocks (cipher myKey) (padded src.data src.size)) s)
    (hle : s.readFileSize ≤ readBufLen) :
    ∃ s', encryptChunk cipher readBufLen myKey src s = some s' ∧
      s'.writePos = (if src.size % 16 = 0 then src.size else sealedSize src.size) ∧
      Written old (ofBlocks (cipher myKey) (padded src.data src.size)) s'.dst s'.writePos ∧
      s'.readFileSize = 0 := by
  have hmin : min readBufLen s.readFileSize = s.readFileSize := Nat.min_eq_right hle
  have hread := h.readSize.trans hmin
  have hpos := h.pos
  have hmodPos := h.mod_readPos h16
  have hmod : s.readFileSize % 16 = src.size % 16 := by omega
  set inbuf := (src.read s.readPos readBufLen s.inbuf).1
  set outbuf := mapBlocks (cipher myKey) inbuf s.outbuf (s.readFileSize / 16) with houtbuf
  have hout : ∀ k < 16 * (s.readFileSize / 16), outbuf k =
      ofBlocks (cipher myKey) (padded src.data src.size) (s.readPos + k) :=
    fun k hk => h.mapBlocks_eq h16 (fun j hj hlt => h.read_padded j hj (by omega)) hk
  by_cases hr : src.size % 16 = 0
  · -- a file of whole blocks gets no padding
    have hdiv : s.readFileSize / 16 * 16 = s.readFileSize := by omega
    have hchunk : encryptChunk cipher readBufLen myKey src s =
        some (s.write s.readFileSize inbuf outbuf s.readFileSize) := by
      simp only [encryptChunk, hread, hmod, hr, if_pos, hdiv]
      rfl
    have hend : s.writePos + s.readFileSize = src.size := h.writePos ▸ hpos
    refine ⟨_, hchunk, by rw [if_pos hr]; exact hend, ?_, Nat.sub_self _⟩
    simp only [Copy.write]
    rw [h.writePos]
    exact h.written.write fun k hk => hout k (by omega)
  · have hfits : (s.readFileSize / 16 + 2) * 16 ≤ readBufLen + 32 := by omega
    set tail := encryptTail cipher myKey inbuf outbuf (s.readFileSize / 16) (src.size % 16)
      with htail
    have hchunk : encryptChunk cipher readBufLen myKey src s =
        some (s.write s.readFileSize tail.1 tail.2 ((s.readFileSize / 16 + 2) * 16)) := by
      simp only [encryptChunk, hread, hmod, if_neg hr, if_pos hfits]
      rfl
    have hend : s.writePos + (s.readFileSize / 16 + 2) * 16 = sealedSize src.size := by
      have hwrite := h.writePos
      unfold sealedSize
      omega
    refine ⟨_, hchunk, by rw [if_neg hr]; exact hend, ?_, Nat.sub_self _⟩
    simp only [Copy.write]
    rw [h.writePos]
    refine h.written.write fun k hk => ?_
    -- behind the data the buffer holds the padding
    have hpad : ∀ k, 16 * (s.readFileSize / 16) + src.size % 16 ≤ k →
        k < 16 * (s.readFileSize / 16) + 32 →
          (padded src.data src.size).drop s.readPos k = BitVec.ofNat 8 (32 - src.size % 16) := by
      intro k hk _
      have hle : src.size ≤ s.readPos + k := by omega
      exact padded_of_le hle
    rw [htail, encryptTail_apply ((padded src.data src.size).drop s.readPos) (by omega)
      (fun j hj hlt => h.read_padded j hj (by omega)) hpad (by omega)]
    split
    · next hlt => exact hout k hlt
    · exact ofBlocks_drop _ _ _ _ hmodPos

theorem encryptLoop (cipher : Key → Equiv.Perm Block) (myKey : Key) (src old : File)
    (h16 : 16 ∣ readBufLen) (hlen : 0 < readBufLen) (inbuf outbuf : Buffer) :
    ∃ s, copyLoop (encryptChunk cipher readBufLen myKey src) src.size
        ⟨0, src.size, inbuf, outbuf, old, 0⟩ = some s ∧
      s.writePos = (if src.size % 16 = 0 then src.size else sealedSize src.size) ∧
      Written old (ofBlocks (cipher myKey) (padded src.data src.size)) s.dst s.writePos := by
  set start : Copy := ⟨0, src.size, inbuf, outbuf, old, 0⟩
  by_cases hsize : src.size = 0
  · refine ⟨start, ?_, ?_, .nothing old _⟩
    · rw [hsize, copyLoop, if_pos hsize]
    · rw [hsize]
      rfl
  · obtain ⟨s, hs, hlast, -, hloop⟩ := copyLoop_last (encryptChunk cipher readBufLen myKey src)
      (AtChunk readBufLen src old (ofBlocks (cipher myKey) (padded src.data src.size)))
      (fun s => s.readFileSize ≤ readBufLen)
      (fun s s' h hle hs => by
        obtain ⟨s'', hs'', -, -, hzero⟩ := encryptChunk_last h16 h hle
        rw [hs] at hs''
        cases hs''
        exact hzero)
      (fun s h hle => by
        obtain ⟨s', hs', h', hsize'⟩ := encryptChunk_next h16 h (by omega)
        exact ⟨s', hs', h', by omega, by omega⟩)
      (AtChunk.start readBufLen src old _ inbuf outbuf) hsize (Nat.le_refl _)
    obtain ⟨s', hs', hwrite, hwritten, -⟩ := encryptChunk_last h16 hs hlast
    exact ⟨s', hloop.trans hs', hwrite, hwritten⟩

/-- A block of padding behind the blocks of the file. -/
theorem encryptPadBlock_apply (hr : src.size % 16 = 0) (hle : src.size ≤ s.writePos)
    (hmod : s.writePos % 16 = 0)
    (h : Written old (ofBlocks (cipher myKey) (padded src.data src.size)) s.dst s.writePos) :
    Written old (ofBlocks (cipher myKey) (padded src.data src.size))
      (encryptPadBlock cipher myKey s).dst (s.writePos + 16) := by
  have hpad : padByte src.size = 32 := by
    rw [padByte, hr]
    rfl
  have heq : EqOn (16 * 0) (16 * 0 + 16) (s.inbuf.fill 0 16 32)
      ((padded src.data src.size).drop s.writePos) := by
    intro k _ hk
    have hge : src.size ≤ s.writePos + k := by omega
    rw [fill, if_pos ⟨Nat.zero_le k, by omega⟩]
    exact (hpad ▸ padded_of_le hge).symm
  refine h.write fun k hk => ?_
  rw [← ofBlocks_drop _ _ _ _ hmod]
  exact (setBlock_apply s.outbuf heq).trans (if_pos (by omega))

/-- The encrypted file, over what the destination had. -/
theorem encryptFile_apply (cipher : Key → Equiv.Perm Block) (myKey : Key) (src old : File)
    (h16 : 16 ∣ readBufLen) (hlen : 0 < readBufLen) (inbuf outbuf : Buffer) :
    ∃ enc, encryptFile cipher readBufLen myKey src old inbuf outbuf = some enc ∧
      Written old (ofBlocks (cipher myKey) (padded src.data src.size)) enc
        (sealedSize src.size) := by
  obtain ⟨s, hloop, hpos, hwritten⟩ := encryptLoop cipher myKey src old h16 hlen inbuf outbuf
  by_cases hr : src.size % 16 = 0
  · rw [if_pos hr] at hpos
    have hfirst := encryptPadBlock_apply hr (by omega) (by omega) hwritten
    have hsecond := encryptPadBlock_apply (s := encryptPadBlock cipher myKey s) hr
      (by simp only [encryptPadBlock, Copy.write]; omega)
      (by simp only [encryptPadBlock, Copy.write]; omega) hfirst
    refine ⟨(encryptPadBlock cipher myKey (encryptPadBlock cipher myKey s)).dst, ?_, ?_⟩
    · simp only [encryptFile, hloop, if_pos hr]
    · have hend : (encryptPadBlock cipher myKey s).writePos + 16 = sealedSize src.size := by
        simp only [encryptPadBlock, Copy.write]
        unfold sealedSize
        omega
      exact hend ▸ hsecond
  · rw [if_neg hr] at hpos
    refine ⟨s.dst, ?_, hpos ▸ hwritten⟩
    simp only [encryptFile, hloop, if_neg hr]

end Encrypt

/-! ### Decryption -/

section Decrypt

variable {cipher : Key → Equiv.Perm Block} {readBufLen : ℕ} {myKey : Key} {src : File} {s : Copy}

theorem AtChunk.read_data {old : File} {plain : Buffer} (h : AtChunk readBufLen src old plain s) :
    EqOn 0 (min readBufLen s.readFileSize) (src.read s.readPos readBufLen s.inbuf).1
      (src.data.drop s.readPos) :=
  fun k hk hlt => read_apply src s.readPos readBufLen s.inbuf k hk (h.readSize ▸ hlt)

theorem decryptChunk_next (h16 : 16 ∣ readBufLen)
    (h : AtChunk readBufLen src .empty (ofBlocks (cipher myKey).symm src.data) s)
    (hlt : readBufLen < s.readFileSize) :
    ∃ s', decryptChunk cipher readBufLen myKey src s = some s' ∧
      AtChunk readBufLen src .empty (ofBlocks (cipher myKey).symm src.data) s' ∧
      s'.readFileSize = s.readFileSize - readBufLen := by
  have hmin : min readBufLen s.readFileSize = readBufLen := Nat.min_eq_left (Nat.le_of_lt hlt)
  have hread := h.readSize.trans hmin
  have hmod : readBufLen % 16 = 0 := Nat.mod_eq_zero_of_dvd h16
  set inbuf := (src.read s.readPos readBufLen s.inbuf).1
  have hchunk : decryptChunk cipher readBufLen myKey src s = some (s.write readBufLen inbuf
      (mapBlocks (cipher myKey).symm inbuf s.outbuf (readBufLen / 16)) readBufLen) := by
    simp only [decryptChunk, hread, if_neg (Nat.ne_of_lt hlt)]
    rfl
  refine ⟨_, hchunk, h.write hlt inbuf fun k hk => ?_, rfl⟩
  exact h.mapBlocks_eq h16 (fun j hj hlt => h.read_data j hj (by omega)) (by omega)

theorem lastLen_le (out : Buffer) (readSize same : ℕ) : lastLen out readSize same ≤ readSize := by
  simp only [lastLen]
  split
  · exact Nat.sub_le _ _
  · exact Nat.le_refl _

theorem le_lastLen (out : Buffer) (readSize : ℕ) {same limit : ℕ} (hsame : same ≤ limit) :
    readSize ≤ lastLen out readSize same + limit := by
  simp only [lastLen]
  split
  · next h =>
    have hle := h.2
    omega
  · omega

theorem decryptChunk_last (h16 : 16 ∣ readBufLen)
    (h : AtChunk readBufLen src .empty (ofBlocks (cipher myKey).symm src.data) s)
    (hmod : src.size % 16 = 0) (hle : s.readFileSize ≤ readBufLen) :
    ∃ out, EqOn 0 s.readFileSize out ((ofBlocks (cipher myKey).symm src.data).drop s.readPos) ∧
      match out.trailing s.readFileSize 32 with
      | none => decryptChunk cipher readBufLen myKey src s = none
      | some same => ∃ s', decryptChunk cipher readBufLen myKey src s = some s' ∧
          s'.readFileSize = 0 ∧
          Written .empty (ofBlocks (cipher myKey).symm src.data) s'.dst
            (s.readPos + lastLen out s.readFileSize same) := by
  have hmin : min readBufLen s.readFileSize = s.readFileSize := Nat.min_eq_right hle
  have hread := h.readSize.trans hmin
  have hpos := h.pos
  have hmodPos := h.mod_readPos h16
  set inbuf := (src.read s.readPos readBufLen s.inbuf).1
  set out := mapBlocks (cipher myKey).symm inbuf s.outbuf (s.readFileSize / 16) with hout
  have heq : EqOn 0 s.readFileSize out
      ((ofBlocks (cipher myKey).symm src.data).drop s.readPos) := fun k _ hk =>
    h.mapBlocks_eq h16 (fun j hj hlt => h.read_data j hj (by omega)) (by omega)
  have hchunk : decryptChunk cipher readBufLen myKey src s =
      match out.trailing s.readFileSize 32 with
      | none => none
      | some same =>
        some (s.write s.readFileSize inbuf out (lastLen out s.readFileSize same)) := by
    simp only [decryptChunk, hread, if_pos]
    rfl
  refine ⟨out, heq, ?_⟩
  rw [hchunk]
  cases out.trailing s.readFileSize 32 with
  | none => rfl
  | some same =>
    refine ⟨_, rfl, Nat.sub_self _, ?_⟩
    simp only [Copy.write]
    rw [h.writePos]
    have hlen := lastLen_le out s.readFileSize same
    exact h.written.write fun k hk => heq k (Nat.zero_le k) (by omega)

/-- The decrypted blocks, less what the last chunk says. -/
theorem decryptFile_apply (cipher : Key → Equiv.Perm Block) (myKey : Key) (src dst : File)
    (h16 : 16 ∣ readBufLen) (hlen : 0 < readBufLen) (hmod : src.size % 16 = 0)
    (hsize : src.size ≠ 0) (inbuf outbuf : Buffer) :
    ∃ pos readSize out, pos + readSize = src.size ∧ readBufLen ∣ pos ∧ 0 < readSize ∧
      readSize ≤ readBufLen ∧
      EqOn 0 readSize out ((ofBlocks (cipher myKey).symm src.data).drop pos) ∧
      match out.trailing readSize 32 with
      | none => decryptFile cipher readBufLen myKey src dst inbuf outbuf = none
      | some same => ∃ f, decryptFile cipher readBufLen myKey src dst inbuf outbuf =
          some (.errNone, f) ∧ Written .empty (ofBlocks (cipher myKey).symm src.data) f
            (pos + lastLen out readSize same) := by
  obtain ⟨s, hs, hle, hne, hloop⟩ := copyLoop_last (decryptChunk cipher readBufLen myKey src)
    (AtChunk readBufLen src .empty (ofBlocks (cipher myKey).symm src.data))
    (fun s => s.readFileSize ≤ readBufLen)
    (fun s s' h hle hs => by
      obtain ⟨out, -, hmatch⟩ := decryptChunk_last h16 h hmod hle
      split at hmatch
      · rw [hs] at hmatch
        cases hmatch
      · obtain ⟨s'', hs'', hzero, -⟩ := hmatch
        rw [hs] at hs''
        cases hs''
        exact hzero)
    (fun s h hle => by
      obtain ⟨s', hs', h', hsize'⟩ := decryptChunk_next h16 h (by omega)
      exact ⟨s', hs', h', by omega, by omega⟩)
    (AtChunk.start readBufLen src .empty _ inbuf outbuf) hsize (Nat.le_refl _)
  obtain ⟨out, heq, hmatch⟩ := decryptChunk_last h16 hs hmod hle
  refine ⟨s.readPos, s.readFileSize, out, hs.pos, hs.aligned, by omega, hle, heq, ?_⟩
  -- the size has passed both checks
  have hfile : ¬(src.size % 16 ≠ 0 ∨ src.size = 0) := by omega
  cases htrailing : out.trailing s.readFileSize 32 with
  | none =>
    simp only [htrailing] at hmatch ⊢
    simp only [decryptFile, if_neg hfile, hloop, hmatch]
  | some same =>
    simp only [htrailing] at hmatch ⊢
    obtain ⟨s', hs', -, hwritten⟩ := hmatch
    refine ⟨s'.dst, ?_, hwritten⟩
    simp only [decryptFile, if_neg hfile, hloop, hs']

end Decrypt

/-! ### There and back -/

section RoundTrip

variable {cipher : Key → Equiv.Perm Block} {readBufLen : ℕ} {myKey : Key} {src old f : File}

theorem add_le_of_aligned {c a b : ℕ} (ha : c ∣ a) (hb : c ∣ b) (h : a < b) : a + c ≤ b := by
  obtain ⟨i, rfl⟩ := ha
  obtain ⟨j, rfl⟩ := hb
  have hlt : i + 1 ≤ j := Nat.lt_of_mul_lt_mul_left h
  exact (Nat.mul_succ c i).symm ▸ Nat.mul_le_mul_left c hlt

/-- A length is cut into chunks in one way, if the last is not empty. -/
theorem chunk_unique {c a b x y : ℕ} (ha : c ∣ a) (hb : c ∣ b) (h : a + x = b + y) (hx : 0 < x)
    (hx' : x ≤ c) (hy : 0 < y) (hy' : y ≤ c) : x = y := by
  rcases Nat.lt_trichotomy a b with hlt | rfl | hlt
  · have hle := add_le_of_aligned ha hb hlt
    omega
  · omega
  · have hle := add_le_of_aligned hb ha hlt
    omega

/-- How long the last chunk of an encrypted file is. -/
theorem lastChunk_size {size pos readSize : ℕ} (h32 : 32 ∣ readBufLen)
    (hsize : pos + readSize = sealedSize size) (haligned : readBufLen ∣ pos) (hpos : 0 < readSize)
    (hle : readSize ≤ readBufLen) :
    readSize = if size % readBufLen < readBufLen - 16 then
      size % readBufLen - size % 16 + 32 else 16 := by
  have hdvd : readBufLen ∣ readBufLen * (size / readBufLen) := Nat.dvd_mul_right _ _
  have hdiv := Nat.div_add_mod size readBufLen
  have hmod : size % readBufLen % 16 = size % 16 :=
    Nat.mod_mod_of_dvd size (Nat.dvd_trans (by decide) h32)
  have hlt := Nat.mod_lt size (show 0 < readBufLen by omega)
  have hsealed := sealedSize_eq size
  obtain ⟨q, rfl⟩ := h32
  split
  · next hsmall => exact chunk_unique haligned hdvd (by omega) hpos hle (by omega) (by omega)
  · next hlarge =>
    exact chunk_unique haligned (Nat.dvd_add hdvd (Nat.dvd_refl _)) (by omega) hpos hle
      (by omega) (by omega)

/-- What the encrypted file holds is decrypted to the padded file. -/
theorem Written.decrypt
    (h : Written old (ofBlocks (cipher myKey) (padded src.data src.size)) f
      (sealedSize src.size)) :
    EqOn 0 (sealedSize src.size) (ofBlocks (cipher myKey).symm f.data)
      (padded src.data src.size) := by
  have hblocks : sealedSize src.size = 16 * (src.size / 16 + 2) := Nat.mul_comm _ _
  rw [hblocks] at h ⊢
  intro k _ hk
  rw [ofBlocks_congr h.data hk, ofBlocks_symm]

variable {enc dec : File} {inbuf outbuf inbuf' outbuf' : Buffer}

/-- A destination that was longer than the encrypted file keeps its end, and the decrypted file is
too long. -/
theorem size_le_of_roundTrip (h16 : 16 ∣ readBufLen) (hlen : 0 < readBufLen)
    (h : FileRoundTrip cipher readBufLen myKey src enc dec inbuf outbuf inbuf' outbuf') :
    enc.size ≤ sealedSize src.size := by
  obtain ⟨enc', dec', henc, hdec, hsize, -⟩ := h
  obtain ⟨enc'', henc', hwritten⟩ :=
    encryptFile_apply cipher myKey src enc h16 hlen inbuf outbuf
  rw [henc] at henc'
  cases henc'
  have hsealed := sealedSize_eq src.size
  have hmax := hwritten.size
  by_contra hlt
  by_cases hformat : enc'.size % 16 ≠ 0 ∨ enc'.size = 0
  · rw [decryptFile, if_pos hformat] at hdec
    cases hdec
  · obtain ⟨pos, readSize, out, hpos, -, -, -, -, hmatch⟩ := decryptFile_apply cipher myKey enc' dec
      h16 hlen (by omega) (by omega) inbuf' outbuf'
    split at hmatch
    · rw [hdec] at hmatch
      cases hmatch
    · next same htrailing =>
      obtain ⟨f, hf, hwritten'⟩ := hmatch
      rw [hdec] at hf
      cases hf
      have hlast := le_lastLen out readSize (trailing_le htrailing)
      have hmax' := hwritten'.size
      simp only [File.empty] at hmax'
      omega

/-- What `decryptFile` finds in the last chunk of an encrypted file. -/
theorem decryptFile_sealed (h32 : 32 ∣ readBufLen) (hlen : 0 < readBufLen)
    (h : Written enc (ofBlocks (cipher myKey) (padded src.data src.size)) f (sealedSize src.size))
    (hle : enc.size ≤ sealedSize src.size) (dec : File) (inbuf outbuf : Buffer) :
    (decryptFile cipher readBufLen myKey f dec inbuf outbuf = none ∧
        readBufLen - 16 ≤ src.size % readBufLen) ∨
      ∃ f', decryptFile cipher readBufLen myKey f dec inbuf outbuf = some (.errNone, f') ∧
        Written .empty (ofBlocks (cipher myKey).symm f.data) f' src.size ∧
          src.size % readBufLen < readBufLen - 16 := by
  have hsealed := sealedSize_eq src.size
  have hmax := h.size
  have hplain := h.decrypt
  obtain ⟨pos, readSize, out, hpos, haligned, hread, hread', hout, hmatch⟩ := decryptFile_apply
    cipher myKey f dec (Nat.dvd_trans (by decide) h32) hlen (by omega) (by omega) inbuf outbuf
  have hend : pos + readSize = sealedSize src.size := by omega
  have hlast := lastChunk_size h32 hend haligned hread hread'
  have hmod : src.size % readBufLen % 16 = src.size % 16 :=
    Nat.mod_mod_of_dvd src.size (Nat.dvd_trans (by decide) h32)
  have hpad : ∀ k < readSize, src.size ≤ pos + k → out k = padByte src.size := by
    intro k hk hk'
    rw [hout k (Nat.zero_le k) hk]
    exact (hplain (pos + k) (Nat.zero_le _) (by omega)).trans (padded_of_le hk')
  by_cases hlt : src.size % readBufLen < readBufLen - 16
  · rw [if_pos hlt] at hlast
    -- the padding lies in the last chunk, whose last byte gives its length
    obtain ⟨same, htrailing, hge, -⟩ := trailing_padded hplain
    have hcongr : out.trailing readSize 32 =
        (ofBlocks (cipher myKey).symm f.data).trailing (pos + readSize) 32 :=
      trailing_congr (fun k hk => hout k (Nat.zero_le k) hk) hread (by omega)
    rw [hend, htrailing] at hcongr
    simp only [hcongr] at hmatch
    obtain ⟨f', hf', hwritten⟩ := hmatch
    refine .inr ⟨f', hf', ?_, hlt⟩
    have hdata : (out (readSize - 1)).toNat = 32 - src.size % 16 := by
      rw [hpad (readSize - 1) (by omega) (by omega), toNat_padByte]
    have hlen' : pos + lastLen out readSize same = src.size := by
      simp only [lastLen, hdata]
      rw [if_pos ⟨by omega, hge⟩]
      omega
    exact hlen' ▸ hwritten
  · rw [if_neg hlt] at hlast
    -- the last chunk holds nothing but padding
    have hnone : out.trailing readSize 32 = none := by
      refine trailing_eq_none_iff.mpr ⟨by omega, fun k hk => ?_⟩
      rw [hpad k hk (by omega), hpad (readSize - 1) (by omega) (by omega)]
    simp only [hnone] at hmatch
    exact .inl ⟨hmatch, Nat.le_of_not_lt hlt⟩

/-- A file comes back exactly if the destination of the encryption was not longer than the encrypted
file, and if its last chunk leaves room for the padding. -/
theorem fileRoundTrip_iff (h32 : 32 ∣ readBufLen) (hlen : 0 < readBufLen) :
    FileRoundTrip cipher readBufLen myKey src enc dec inbuf outbuf inbuf' outbuf' ↔
      enc.size ≤ sealedSize src.size ∧ src.size % readBufLen < readBufLen - 16 := by
  have h16 : 16 ∣ readBufLen := Nat.dvd_trans (by decide) h32
  obtain ⟨enc', henc, hwritten⟩ := encryptFile_apply cipher myKey src enc h16 hlen inbuf outbuf
  constructor
  · intro h
    have hle := size_le_of_roundTrip h16 hlen h
    obtain ⟨enc'', dec', henc', hdec, -⟩ := h
    rw [henc] at henc'
    cases henc'
    rcases decryptFile_sealed h32 hlen hwritten hle dec inbuf' outbuf' with hnone | hsome
    · rw [hdec] at hnone
      cases hnone.1
    · obtain ⟨-, -, -, hlt⟩ := hsome
      exact ⟨hle, hlt⟩
  · rintro ⟨hle, hlt⟩
    rcases decryptFile_sealed h32 hlen hwritten hle dec inbuf' outbuf' with hnone | hsome
    · exact absurd hlt (Nat.not_lt.mpr hnone.2)
    · obtain ⟨dec', hdec, hwritten', -⟩ := hsome
      have hsize : dec'.size = src.size := by
        rw [hwritten'.size]
        exact Nat.zero_max _
      refine ⟨enc', dec', henc, hdec, hsize, fun k hk hlt' => ?_⟩
      have hsealed := sealedSize_eq src.size
      rw [hwritten'.data k hk hlt', hwritten.decrypt k hk (by omega), padded_of_lt hlt']

theorem fileRoundTrip_iff_five :
    FileRoundTrip (fun _ => Equiv.refl _) 32 (fun _ => 0) ⟨zero, 5⟩ .empty .empty zero zero zero
        zero ↔ 0 ≤ sealedSize 5 ∧ 5 % 32 < 32 - 16 :=
  fileRoundTrip_iff (by decide) (by decide)

/-- An empty file over an encrypted file of 48 bytes. -/
theorem not_fileRoundTrip_of_longer :
    ¬∀ (cipher : Key → Equiv.Perm Block) (readBufLen : ℕ) (myKey : Key) (src enc dec : File)
      (inbuf outbuf inbuf' outbuf' : Buffer), 32 ∣ readBufLen → 0 < readBufLen →
        FileRoundTrip cipher readBufLen myKey src enc dec inbuf outbuf inbuf' outbuf' := by
  intro h
  have hlonger := h (fun _ => Equiv.refl _) 32 (fun _ => 0) .empty ⟨zero, 48⟩ .empty zero zero zero
    zero (by decide) (by decide)
  exact absurd (size_le_of_roundTrip (by decide) (by decide) hlonger) (by decide)

end RoundTrip

end Aes

/-
`ArtosynNpuGetEntryIndex`: the place of an element in a tensor of the NPU.

The channels lie in blocks, the last of which may be smaller.  A block holds its channels for
all images of the batch, an image row after row, and a row column after column.  The tensor gives
its steps in bytes, and the index counts elements.

* `artosynNpuGetEntryIndex` — the index as it is computed, on `int`s;
* `Blocking`, `Blocking.index` — the same layout in elements;
* `Blocking.index_injective`, `Blocking.index_lt` — every element has its own place;
* `artosynNpuGetEntryIndex_isNat` — the computed index, for tensors of less than 2³¹ bytes;
* `artosynNpuGetEntryIndex_injOn` — the same for it;
* `not_injOn` — from 2³¹ bytes on, two channels can share a place.
-/
import HandTracking.Library.MixedRadix
import HandTracking.Library.NatInt
import HandTracking.Library.Numerals
import Mathlib.Data.Nat.Basic
import Mathlib.Data.Set.Function
import Mathlib.Tactic.Ring

namespace Xengine

/-- `ArtosynTensorDims`, as far as the index reads them. -/
structure ArtosynTensorDims where
  u32KStep : UInt32
  u32KNormNum : UInt32
  u32KSizeLast : UInt32
  u32KSizeNorm : UInt32
  u32RowStep : UInt32

/-- On 32-bit `int`s, as which the fields of the tensor are taken; they wrap around. -/
def artosynNpuGetEntryIndex (batch batchTotal h w c byteUnit : Int32)
    (tensorInfo : ArtosynTensorDims) : Int32 :=
  let tensorKSizeNorm := tensorInfo.u32KSizeNorm.toInt32
  let tensorKDdrStep := tensorInfo.u32KStep.toInt32
  let tensorRowDdrStep := tensorInfo.u32RowStep.toInt32
  let tensorKNormNum := tensorInfo.u32KNormNum.toInt32
  let tensorLast := tensorInfo.u32KSizeLast.toInt32
  let batchOffset := tensorKDdrStep / byteUnit / batchTotal * batch
  let addressOffset := c / tensorKSizeNorm * tensorKDdrStep + h * tensorRowDdrStep
  let memoryMigration :=
    if c < tensorKNormNum * tensorKSizeNorm then
      addressOffset + c % tensorKSizeNorm * byteUnit + w * tensorKSizeNorm * byteUnit
    else
      addressOffset + (c - tensorKNormNum * tensorKSizeNorm) * byteUnit + w * tensorLast * byteUnit
  memoryMigration / byteUnit + batchOffset

/-! ### The layout in elements -/

/-- A layout in blocks of channels, in elements. -/
structure Blocking where
  batchTotal : ℕ
  height : ℕ
  width : ℕ
  kNormNum : ℕ
  kSizeNorm : ℕ
  kSizeLast : ℕ
  rowStep : ℕ
  imageStep : ℕ
  norm_pos : 0 < kSizeNorm
  last_le : kSizeLast ≤ kSizeNorm
  row_le : width * kSizeNorm ≤ rowStep
  image_le : height * rowStep ≤ imageStep

namespace Blocking

/-- An element of the tensor. -/
@[ext]
structure Element (l : Blocking) where
  batch : ℕ
  h : ℕ
  w : ℕ
  c : ℕ
  batch_lt : batch < l.batchTotal
  h_lt : h < l.height
  w_lt : w < l.width
  c_lt : c < l.kNormNum * l.kSizeNorm + l.kSizeLast

variable (l : Blocking)

/-- The number of blocks. -/
def blocks : ℕ := l.kNormNum + if 0 < l.kSizeLast then 1 else 0

/-- The channels in a block. -/
def kSize (block : ℕ) : ℕ := if block < l.kNormNum then l.kSizeNorm else l.kSizeLast

variable {l}

namespace Element

variable (e : l.Element)

/-- The block of the channel. -/
def block : ℕ := e.c / l.kSizeNorm

/-- The channel's place in its block. -/
def channel : ℕ := e.c % l.kSizeNorm

/-- The place in the row of the block. -/
def inRow : ℕ := e.w * l.kSize e.block + e.channel

/-- The place in the block of one image. -/
def inImage : ℕ := e.h * l.rowStep + e.inRow

/-- The place in the tensor. -/
def index : ℕ := (e.block * l.batchTotal + e.batch) * l.imageStep + e.inImage

theorem block_of_lt (h : e.c < l.kNormNum * l.kSizeNorm) :
    e.block < l.blocks ∧ l.kSize e.block = l.kSizeNorm := by
  have hblock : e.block < l.kNormNum := Nat.div_lt_of_lt_mul (by rwa [Nat.mul_comm])
  refine ⟨?_, if_pos hblock⟩
  rw [blocks]
  omega

/-- The last block. -/
theorem block_of_le (h : l.kNormNum * l.kSizeNorm ≤ e.c) :
    e.block = l.kNormNum ∧ e.channel = e.c - l.kNormNum * l.kSizeNorm := by
  have hc := e.c_lt
  have hlast := l.last_le
  have hlt : e.c - l.kNormNum * l.kSizeNorm < l.kSizeNorm := by omega
  have hsplit : e.c = l.kNormNum * l.kSizeNorm + (e.c - l.kNormNum * l.kSizeNorm) := by omega
  constructor
  · rw [block, hsplit, Nat.mul_add_div_of_lt hlt]
  · rw [channel]
    conv_lhs => rw [hsplit]
    exact Nat.mul_add_mod_of_lt hlt

theorem block_lt : e.block < l.blocks := by
  rcases Nat.lt_or_ge e.c (l.kNormNum * l.kSizeNorm) with h | h
  · exact (e.block_of_lt h).1
  · have hc := e.c_lt
    rw [(e.block_of_le h).1, blocks, if_pos (by omega)]
    omega

theorem channel_lt : e.channel < l.kSize e.block := by
  rcases Nat.lt_or_ge e.c (l.kNormNum * l.kSizeNorm) with h | h
  · rw [(e.block_of_lt h).2]
    exact Nat.mod_lt _ l.norm_pos
  · obtain ⟨hblock, hchannel⟩ := e.block_of_le h
    have hc := e.c_lt
    rw [hblock, hchannel, kSize, if_neg (Nat.lt_irrefl _)]
    omega

theorem inRow_lt : e.inRow < l.rowStep := by
  have hsize : l.kSize e.block ≤ l.kSizeNorm := by
    rw [kSize]
    split_ifs
    · exact Nat.le_refl _
    · exact l.last_le
  calc e.inRow < l.width * l.kSize e.block := Nat.mul_add_lt_mul e.w_lt e.channel_lt
    _ ≤ l.width * l.kSizeNorm := Nat.mul_le_mul_left _ hsize
    _ ≤ l.rowStep := l.row_le

theorem inImage_lt : e.inImage < l.imageStep := by
  calc e.inImage < l.height * l.rowStep := Nat.mul_add_lt_mul e.h_lt e.inRow_lt
    _ ≤ l.imageStep := l.image_le

theorem index_lt : e.index < l.blocks * l.batchTotal * l.imageStep :=
  Nat.mul_add_lt_mul (Nat.mul_add_lt_mul e.block_lt e.batch_lt) e.inImage_lt

/-- The index without the part that the image adds. -/
def place : ℕ := e.block * (l.batchTotal * l.imageStep) + e.inImage

theorem index_eq : e.index = e.place + l.imageStep * e.batch := by
  rw [index, place]
  ring

/-- The bytes in front of the row, for elements of `u` bytes. -/
def addressOffset (u : ℕ) : ℕ := e.block * (l.batchTotal * l.imageStep * u) + e.h * (l.rowStep * u)

/-- The place in bytes. -/
def memory (u : ℕ) : ℕ := e.addressOffset u + e.channel * u + e.w * l.kSize e.block * u

theorem memory_eq (u : ℕ) : e.memory u = e.place * u := by
  rw [memory, addressOffset, place, inImage, inRow]
  ring

theorem norm_le_row (e : l.Element) : l.kSizeNorm ≤ l.rowStep := by
  have hwidth := e.w_lt
  calc l.kSizeNorm ≤ l.width * l.kSizeNorm := Nat.le_mul_of_pos_left _ (by omega)
    _ ≤ l.rowStep := l.row_le

theorem row_le_step (e : l.Element) : l.rowStep ≤ l.batchTotal * l.imageStep := by
  have hheight := e.h_lt
  have hbatch := e.batch_lt
  calc l.rowStep ≤ l.height * l.rowStep := Nat.le_mul_of_pos_left _ (by omega)
    _ ≤ l.imageStep := l.image_le
    _ ≤ l.batchTotal * l.imageStep := Nat.le_mul_of_pos_left _ (by omega)

theorem index_injective : Function.Injective (index : l.Element → ℕ) := by
  intro e e' h
  obtain ⟨himages, himage⟩ := Nat.mul_add_inj_of_lt e.inImage_lt e'.inImage_lt h
  obtain ⟨hblock, hbatch⟩ := Nat.mul_add_inj_of_lt e.batch_lt e'.batch_lt himages
  obtain ⟨hh, hrow⟩ := Nat.mul_add_inj_of_lt e.inRow_lt e'.inRow_lt himage
  -- the columns have one width, since the blocks are the same
  have hchannel' : e'.channel < l.kSize e.block := by
    rw [hblock]
    exact e'.channel_lt
  have hrow' : e.w * l.kSize e.block + e.channel = e'.w * l.kSize e.block + e'.channel := by
    rw [inRow, inRow, ← hblock] at hrow
    exact hrow
  obtain ⟨hw, hchannel⟩ := Nat.mul_add_inj_of_lt e.channel_lt hchannel' hrow'
  have hc : e.c = e'.c := by
    rw [← Nat.div_add_mod e.c l.kSizeNorm, ← Nat.div_add_mod e'.c l.kSizeNorm]
    exact congrArg₂ (fun block channel => l.kSizeNorm * block + channel) hblock hchannel
  exact Element.ext hbatch hh hw hc

end Element

end Blocking

/-! ### The computed index -/

open Int32 Blocking

/-- A channel and a column, in bytes, on top of an address. -/
theorem migration_isNat {address inner w width byteUnit : Int32} {a i x k u : ℕ}
    (ha : address.IsNat a) (hi : inner.IsNat i) (hw : w.IsNat x) (hk : width.IsNat k)
    (hu : byteUnit.IsNat u) (hunit : 0 < u) (hfits : a + i * u + x * k * u < 2 ^ 31) :
    (address + inner * byteUnit + w * width * byteUnit).IsNat (a + i * u + x * k * u) := by
  have hcolumn : x * k ≤ x * k * u := Nat.le_mul_of_pos_right _ hunit
  have hinner := hi.mul hu (by omega)
  have hwidth := (hw.mul hk (by omega)).mul hu (by omega)
  exact (ha.add hinner (by omega)).add hwidth hfits

/-- The tensor as the code finds it, with its steps in bytes. -/
structure Blocking.Describes (l : Blocking) (tensorInfo : ArtosynTensorDims) (u : ℕ) : Prop where
  unit_pos : 0 < u
  norm : tensorInfo.u32KSizeNorm.toNat = l.kSizeNorm
  num : tensorInfo.u32KNormNum.toNat = l.kNormNum
  last : tensorInfo.u32KSizeLast.toNat = l.kSizeLast
  row : tensorInfo.u32RowStep.toNat = l.rowStep * u
  step : tensorInfo.u32KStep.toNat = l.batchTotal * l.imageStep * u

variable {l : Blocking} {tensorInfo : ArtosynTensorDims} {u : ℕ}

/-- The memory of the tensor, in bytes. -/
def Blocking.bytes (l : Blocking) (u : ℕ) : ℕ := l.blocks * (l.batchTotal * l.imageStep * u)

theorem Blocking.bytes_eq (l : Blocking) (u : ℕ) :
    l.bytes u = l.blocks * l.batchTotal * l.imageStep * u := by
  rw [bytes]
  ring

theorem Blocking.Element.index_mul_lt (e : l.Element) (hu : 0 < u) : e.index * u < l.bytes u := by
  rw [l.bytes_eq]
  exact Nat.mul_lt_mul_of_pos_right e.index_lt hu

section

variable (hl : l.Describes tensorInfo u) (hfits : l.bytes u < 2 ^ 31) (e : l.Element)
include hl hfits e

theorem step_isNat : tensorInfo.u32KStep.toInt32.IsNat (l.batchTotal * l.imageStep * u) := by
  have hblock := e.block_lt
  have hle : l.batchTotal * l.imageStep * u ≤ l.bytes u := Nat.le_mul_of_pos_left _ (by omega)
  exact isNat_toInt32 hl.step (by omega)

theorem batchOffset_isNat {batch batchTotal byteUnit : Int32} (hbatch : batch.IsNat e.batch)
    (htotal : batchTotal.IsNat l.batchTotal) (hu : byteUnit.IsNat u) :
    (tensorInfo.u32KStep.toInt32 / byteUnit / batchTotal * batch).IsNat
      (l.imageStep * e.batch) := by
  have hbytes := e.index_mul_lt hl.unit_pos
  have hindex : e.index ≤ e.index * u := Nat.le_mul_of_pos_right _ hl.unit_pos
  have himages := e.index_eq
  have hpos : 0 < l.batchTotal := by
    have hlt := e.batch_lt
    omega
  have hstep := ((step_isNat hl hfits e).div hu).div htotal
  rw [Nat.mul_div_cancel _ hl.unit_pos, Nat.mul_div_cancel_left _ hpos] at hstep
  exact hstep.mul hbatch (by omega)

theorem norm_isNat : tensorInfo.u32KSizeNorm.toInt32.IsNat l.kSizeNorm := by
  have hstep := (step_isNat hl hfits e).lt_two_pow
  have hrow := Nat.le_trans e.norm_le_row e.row_le_step
  have hunit : l.batchTotal * l.imageStep ≤ l.batchTotal * l.imageStep * u :=
    Nat.le_mul_of_pos_right _ hl.unit_pos
  exact isNat_toInt32 hl.norm (by omega)

theorem fullChannels_isNat :
    (tensorInfo.u32KNormNum.toInt32 * tensorInfo.u32KSizeNorm.toInt32).IsNat
      (l.kNormNum * l.kSizeNorm) := by
  have hnorm := norm_isNat hl hfits e
  have hchannels : l.kNormNum * l.kSizeNorm ≤ l.bytes u := by
    refine Nat.mul_le_mul (Nat.le_add_right _ _) ?_
    calc l.kSizeNorm ≤ l.batchTotal * l.imageStep := Nat.le_trans e.norm_le_row e.row_le_step
      _ ≤ l.batchTotal * l.imageStep * u := Nat.le_mul_of_pos_right _ hl.unit_pos
  have hnum : l.kNormNum ≤ l.kNormNum * l.kSizeNorm := Nat.le_mul_of_pos_right _ l.norm_pos
  exact (isNat_toInt32 hl.num (by omega)).mul hnorm (by omega)

theorem memory_lt : e.memory u < 2 ^ 31 := by
  have hindex := e.index_eq
  calc e.memory u = e.place * u := e.memory_eq u
    _ ≤ e.index * u := Nat.mul_le_mul_right u (by omega)
    _ < l.bytes u := e.index_mul_lt hl.unit_pos
    _ < 2 ^ 31 := hfits

theorem addressOffset_isNat {h c : Int32} (hh : h.IsNat e.h) (hc : c.IsNat e.c) :
    (c / tensorInfo.u32KSizeNorm.toInt32 * tensorInfo.u32KStep.toInt32 +
      h * tensorInfo.u32RowStep.toInt32).IsNat (e.addressOffset u) := by
  have hstep := step_isNat hl hfits e
  have hmemory := memory_lt hl hfits e
  rw [Element.memory, Element.addressOffset] at hmemory
  have hrow : l.rowStep * u < 2 ^ 31 := by
    have hle := Nat.mul_le_mul_right u e.row_le_step
    have hlt := hstep.lt_two_pow
    omega
  have hblock := (hc.div (norm_isNat hl hfits e)).mul hstep (by rw [← Element.block]; omega)
  exact hblock.add (hh.mul (isNat_toInt32 hl.row hrow) (by omega)) (by rw [← Element.block]; omega)

theorem memoryMigration_isNat {h w c byteUnit : Int32} (hh : h.IsNat e.h) (hw : w.IsNat e.w)
    (hc : c.IsNat e.c) (hu : byteUnit.IsNat u) :
    (if c < tensorInfo.u32KNormNum.toInt32 * tensorInfo.u32KSizeNorm.toInt32 then
      c / tensorInfo.u32KSizeNorm.toInt32 * tensorInfo.u32KStep.toInt32 +
          h * tensorInfo.u32RowStep.toInt32 +
        c % tensorInfo.u32KSizeNorm.toInt32 * byteUnit +
        w * tensorInfo.u32KSizeNorm.toInt32 * byteUnit
    else
      c / tensorInfo.u32KSizeNorm.toInt32 * tensorInfo.u32KStep.toInt32 +
          h * tensorInfo.u32RowStep.toInt32 +
        (c - tensorInfo.u32KNormNum.toInt32 * tensorInfo.u32KSizeNorm.toInt32) * byteUnit +
        w * tensorInfo.u32KSizeLast.toInt32 * byteUnit).IsNat (e.memory u) := by
  have haddress := addressOffset_isNat hl hfits e hh hc
  have hnorm := norm_isNat hl hfits e
  have hfull := fullChannels_isNat hl hfits e
  have hmemory := memory_lt hl hfits e
  by_cases hblock : e.c < l.kNormNum * l.kSizeNorm
  · rw [if_pos ((hc.lt_iff hfull).mpr hblock)]
    -- a full block
    rw [Element.memory, (e.block_of_lt hblock).2] at hmemory ⊢
    exact migration_isNat haddress (hc.mod hnorm) hw hnorm hu hl.unit_pos hmemory
  · rw [if_neg fun hlt => hblock ((hc.lt_iff hfull).mp hlt)]
    -- in the last block the code subtracts the channels of the full ones
    obtain ⟨hnum, hchannel⟩ := e.block_of_le (Nat.le_of_not_lt hblock)
    have hlast : tensorInfo.u32KSizeLast.toInt32.IsNat l.kSizeLast := by
      have hle := l.last_le
      have hlt := hnorm.lt_two_pow
      exact isNat_toInt32 hl.last (by omega)
    have hinner := hc.sub hfull (Nat.le_of_not_lt hblock)
    rw [← hchannel] at hinner
    have hsize : l.kSize e.block = l.kSizeLast := by
      rw [Blocking.kSize, hnum, if_neg (Nat.lt_irrefl _)]
    rw [Element.memory, hsize] at hmemory ⊢
    exact migration_isNat haddress hinner hw hlast hu hl.unit_pos hmemory

end

/-- **The computed index**, as long as the tensor has less than 2³¹ bytes. -/
theorem artosynNpuGetEntryIndex_isNat (hl : l.Describes tensorInfo u)
    (hfits : l.bytes u < 2 ^ 31) (e : l.Element)
    {batch batchTotal h w c byteUnit : Int32} (hbatch : batch.IsNat e.batch)
    (htotal : batchTotal.IsNat l.batchTotal) (hh : h.IsNat e.h) (hw : w.IsNat e.w)
    (hc : c.IsNat e.c) (hu : byteUnit.IsNat u) :
    (artosynNpuGetEntryIndex batch batchTotal h w c byteUnit tensorInfo).IsNat e.index := by
  have hoffset := batchOffset_isNat hl hfits e hbatch htotal hu
  have hplace := (memoryMigration_isNat hl hfits e hh hw hc hu).div hu
  rw [e.memory_eq u, Nat.mul_div_cancel _ hl.unit_pos] at hplace
  have hbytes := e.index_mul_lt hl.unit_pos
  have hindex : e.index ≤ e.index * u := Nat.le_mul_of_pos_right _ hl.unit_pos
  rw [e.index_eq] at hindex hbytes ⊢
  exact hplace.add hoffset (by omega)

/-! ### Every layout -/

/-- The tensor as the NPU gives it: `S` is the step from image to image. -/
structure BlockedLayout (tensorInfo : ArtosynTensorDims) (byteUnit batchTotal : Int32)
    (H W S : ℕ) : Prop where
  unit_pos : 0 < byteUnit.toInt
  norm_pos : 1 ≤ tensorInfo.u32KSizeNorm.toNat
  last_le : tensorInfo.u32KSizeLast.toNat ≤ tensorInfo.u32KSizeNorm.toNat
  row_dvd : byteUnit.toInt ∣ tensorInfo.u32RowStep.toNat
  row_le : W * tensorInfo.u32KSizeNorm.toNat * byteUnit.toInt ≤ tensorInfo.u32RowStep.toNat
  step_eq : tensorInfo.u32KStep.toNat = batchTotal.toInt * S
  image_dvd : byteUnit.toInt ∣ S
  image_le : H * tensorInfo.u32RowStep.toNat ≤ S

/-- The number of blocks, in the numbers of the device. -/
def numberOfBlocks (tensorInfo : ArtosynTensorDims) : ℕ :=
  tensorInfo.u32KNormNum.toNat + if 0 < tensorInfo.u32KSizeLast.toNat then 1 else 0

/-- The arguments that name an element. -/
@[ext]
structure Position where
  batch : Int32
  h : Int32
  w : Int32
  c : Int32

/-- The arguments are in the tensor. -/
structure Position.Within (p : Position) (tensorInfo : ArtosynTensorDims) (batchTotal : Int32)
    (H W : ℕ) : Prop where
  batch : 0 ≤ p.batch.toInt ∧ p.batch.toInt < batchTotal.toInt
  h : 0 ≤ p.h.toInt ∧ p.h.toInt < H
  w : 0 ≤ p.w.toInt ∧ p.w.toInt < W
  c : 0 ≤ p.c.toInt ∧ p.c.toInt <
    tensorInfo.u32KNormNum.toNat * tensorInfo.u32KSizeNorm.toNat + tensorInfo.u32KSizeLast.toNat

theorem Position.Within.total_nonneg {p : Position} {batchTotal : Int32} {H W : ℕ}
    (hp : p.Within tensorInfo batchTotal H W) : 0 ≤ batchTotal.toInt := by
  obtain ⟨hlow, hlt⟩ := hp.batch
  omega

namespace BlockedLayout

variable {byteUnit batchTotal : Int32} {H W S : ℕ}

theorem unit_isNat (h : BlockedLayout tensorInfo byteUnit batchTotal H W S) :
    byteUnit.IsNat byteUnit.toInt.toNat :=
  isNat_toNat h.unit_pos.le

/-- A number of bytes that the unit divides. -/
theorem div_mul (h : BlockedLayout tensorInfo byteUnit batchTotal H W S) {n : ℕ}
    (hn : byteUnit.toInt ∣ n) : n / byteUnit.toInt.toNat * byteUnit.toInt.toNat = n := by
  rw [h.unit_isNat] at hn
  exact Nat.div_mul_cancel (Int.natCast_dvd_natCast.mp hn)

/-- The layout that the numbers of the device describe. -/
def blocking (h : BlockedLayout tensorInfo byteUnit batchTotal H W S) : Blocking where
  batchTotal := batchTotal.toInt.toNat
  height := H
  width := W
  kNormNum := tensorInfo.u32KNormNum.toNat
  kSizeNorm := tensorInfo.u32KSizeNorm.toNat
  kSizeLast := tensorInfo.u32KSizeLast.toNat
  rowStep := tensorInfo.u32RowStep.toNat / byteUnit.toInt.toNat
  imageStep := S / byteUnit.toInt.toNat
  norm_pos := h.norm_pos
  last_le := h.last_le
  row_le := by
    have hunit := h.unit_pos
    have hle := h.row_le
    rw [h.unit_isNat] at hle
    rw [Nat.le_div_iff_mul_le (by omega)]
    exact_mod_cast hle
  image_le := by
    have hunit := h.unit_pos
    rw [Nat.le_div_iff_mul_le (by omega), Nat.mul_assoc, h.div_mul h.row_dvd]
    exact h.image_le

theorem describes (h : BlockedLayout tensorInfo byteUnit batchTotal H W S)
    (hbatch : 0 ≤ batchTotal.toInt) :
    h.blocking.Describes tensorInfo byteUnit.toInt.toNat where
  unit_pos := by
    have hunit := h.unit_pos
    omega
  norm := rfl
  num := rfl
  last := rfl
  row := (h.div_mul h.row_dvd).symm
  step := by
    have hstep := h.step_eq
    rw [← Int.toNat_of_nonneg hbatch] at hstep
    show _ = batchTotal.toInt.toNat * (S / byteUnit.toInt.toNat) * byteUnit.toInt.toNat
    rw [Nat.mul_assoc, h.div_mul h.image_dvd]
    exact_mod_cast hstep

/-- The element that the arguments name. -/
def element (h : BlockedLayout tensorInfo byteUnit batchTotal H W S) (p : Position)
    (hp : p.Within tensorInfo batchTotal H W) : h.blocking.Element where
  batch := p.batch.toInt.toNat
  h := p.h.toInt.toNat
  w := p.w.toInt.toNat
  c := p.c.toInt.toNat
  batch_lt := by
    obtain ⟨hlow, hlt⟩ := hp.batch
    show p.batch.toInt.toNat < batchTotal.toInt.toNat
    omega
  h_lt := by
    obtain ⟨hlow, hlt⟩ := hp.h
    show p.h.toInt.toNat < H
    omega
  w_lt := by
    obtain ⟨hlow, hlt⟩ := hp.w
    show p.w.toInt.toNat < W
    omega
  c_lt := by
    obtain ⟨hlow, hlt⟩ := hp.c
    show p.c.toInt.toNat < tensorInfo.u32KNormNum.toNat * tensorInfo.u32KSizeNorm.toNat +
      tensorInfo.u32KSizeLast.toNat
    omega

theorem bytes_eq (h : BlockedLayout tensorInfo byteUnit batchTotal H W S)
    (hbatch : 0 ≤ batchTotal.toInt) :
    h.blocking.bytes byteUnit.toInt.toNat =
      numberOfBlocks tensorInfo * tensorInfo.u32KStep.toNat := by
  rw [Blocking.bytes, (h.describes hbatch).step]
  rfl

theorem entryIndex_isNat (h : BlockedLayout tensorInfo byteUnit batchTotal H W S)
    (hfits : numberOfBlocks tensorInfo * tensorInfo.u32KStep.toNat < 2 ^ 31) (p : Position)
    (hp : p.Within tensorInfo batchTotal H W) :
    (artosynNpuGetEntryIndex p.batch batchTotal p.h p.w p.c byteUnit tensorInfo).IsNat
      (h.element p hp).index := by
  have hbatch := hp.total_nonneg
  rw [← h.bytes_eq hbatch] at hfits
  exact artosynNpuGetEntryIndex_isNat (h.describes hbatch) hfits (h.element p hp)
    (isNat_toNat hp.batch.1) (isNat_toNat hbatch) (isNat_toNat hp.h.1) (isNat_toNat hp.w.1)
    (isNat_toNat hp.c.1) h.unit_isNat

theorem element_inj (h : BlockedLayout tensorInfo byteUnit batchTotal H W S) {p q : Position}
    {hp : p.Within tensorInfo batchTotal H W} {hq : q.Within tensorInfo batchTotal H W}
    (heq : h.element p hp = h.element q hq) : p = q := by
  exact Position.ext (eq_of_toNat_eq hp.batch.1 hq.batch.1 (congrArg Element.batch heq))
    (eq_of_toNat_eq hp.h.1 hq.h.1 (congrArg Element.h heq))
    (eq_of_toNat_eq hp.w.1 hq.w.1 (congrArg Element.w heq))
    (eq_of_toNat_eq hp.c.1 hq.c.1 (congrArg Element.c heq))

end BlockedLayout

/-- **Every element has its own index**, and the indices lie in the memory of the tensor, as long
as that has less than 2³¹ bytes. -/
theorem artosynNpuGetEntryIndex_injOn {byteUnit batchTotal : Int32} {H W S : ℕ}
    (h : BlockedLayout tensorInfo byteUnit batchTotal H W S)
    (hfits : numberOfBlocks tensorInfo * tensorInfo.u32KStep.toNat < 2 ^ 31) :
    Set.InjOn (fun p : Position =>
        artosynNpuGetEntryIndex p.batch batchTotal p.h p.w p.c byteUnit tensorInfo)
        {p | p.Within tensorInfo batchTotal H W} ∧
      ∀ p : Position, p.Within tensorInfo batchTotal H W →
        0 ≤ (artosynNpuGetEntryIndex p.batch batchTotal p.h p.w p.c byteUnit tensorInfo).toInt ∧
        (artosynNpuGetEntryIndex p.batch batchTotal p.h p.w p.c byteUnit tensorInfo).toInt <
          numberOfBlocks tensorInfo * tensorInfo.u32KStep.toNat / byteUnit.toInt := by
  constructor
  · intro p hp q hq heq
    have hindex := h.entryIndex_isNat hfits p hp
    rw [show artosynNpuGetEntryIndex p.batch batchTotal p.h p.w p.c byteUnit tensorInfo = _
      from heq] at hindex
    have hsame := hindex.unique (h.entryIndex_isNat hfits q hq)
    exact h.element_inj (Element.index_injective hsame)
  · intro p hp
    have hbatch := hp.total_nonneg
    have hlt : (h.element p hp).index <
        numberOfBlocks tensorInfo * tensorInfo.u32KStep.toNat / byteUnit.toInt.toNat := by
      rw [← h.bytes_eq hbatch, Blocking.bytes_eq,
        Nat.mul_div_cancel _ (h.describes hbatch).unit_pos]
      exact (h.element p hp).index_lt
    rw [h.entryIndex_isNat hfits p hp]
    refine ⟨Int.natCast_nonneg _, ?_⟩
    calc ((h.element p hp).index : ℤ) <
          (numberOfBlocks tensorInfo * tensorInfo.u32KStep.toNat / byteUnit.toInt.toNat : ℕ) :=
          Int.ofNat_lt.mpr hlt
      _ = numberOfBlocks tensorInfo * tensorInfo.u32KStep.toNat / byteUnit.toInt := by
        rw [Int.natCast_ediv, ← h.unit_isNat]
        rfl

/-- Eleven channels of four bytes in blocks of eight, for two images of 2 × 3. -/
def elevenChannels : ArtosynTensorDims := ⟨512, 1, 3, 8, 128⟩

theorem blockedLayout_elevenChannels : BlockedLayout elevenChannels 4 2 2 3 256 := by
  constructor <;> decide

theorem artosynNpuGetEntryIndex_injOn_elevenChannels :
    Set.InjOn (fun p : Position =>
        artosynNpuGetEntryIndex p.batch 2 p.h p.w p.c 4 elevenChannels)
        {p | p.Within elevenChannels 2 2 3} ∧
      ∀ p : Position, p.Within elevenChannels 2 2 3 →
        0 ≤ (artosynNpuGetEntryIndex p.batch 2 p.h p.w p.c 4 elevenChannels).toInt ∧
        (artosynNpuGetEntryIndex p.batch 2 p.h p.w p.c 4 elevenChannels).toInt <
          numberOfBlocks elevenChannels * elevenChannels.u32KStep.toNat / (4 : Int32).toInt :=
  artosynNpuGetEntryIndex_injOn blockedLayout_elevenChannels (by decide)

/-- Five channels, each a block of 2³⁰ bytes. -/
def hugeBlocks : ArtosynTensorDims := ⟨0x40000000, 5, 0, 1, 4⟩

/-- The fifth block starts after 2³² bytes, and `int` counts them as 0. -/
theorem not_injOn :
    ¬ ∀ (tensorInfo : ArtosynTensorDims) (byteUnit batchTotal : Int32) (H W S : ℕ),
      BlockedLayout tensorInfo byteUnit batchTotal H W S →
        Set.InjOn (fun p : Position =>
          artosynNpuGetEntryIndex p.batch batchTotal p.h p.w p.c byteUnit tensorInfo)
          {p | p.Within tensorInfo batchTotal H W} := by
  intro h
  have hlayout : BlockedLayout hugeBlocks 4 1 1 1 (2 ^ 30) := by constructor <;> decide
  have hfirst : Position.Within ⟨0, 0, 0, 0⟩ hugeBlocks 1 1 1 := by constructor <;> decide
  have hfifth : Position.Within ⟨0, 0, 0, 4⟩ hugeBlocks 1 1 1 := by constructor <;> decide
  have hsame := h hugeBlocks 4 1 1 1 (2 ^ 30) hlayout hfirst hfifth (by decide)
  have hchannel : (0 : Int32) = 4 := congrArg Position.c hsame
  exact absurd hchannel (by decide)

end Xengine

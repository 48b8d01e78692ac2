/-
The bilinear warp of a gray image, by blocks of eight pixels and one by one.

The source coordinates are integers in parts of 1024.  A block is classified by its first and its
last pixel: one that lies inside is interpolated by the vector code, which cuts the coordinates in
parts of 32 to shorts before it takes their fractions.

* `scalarPixel`, `vectorPixel` — a pixel in the two branches;
* `warpPixel` — a pixel of `warpaffine_bilinear_c1_tab`;
* `coord_between` — the pixels of a block lie between its first and its last;
* `blocksAgree_iff` — when all pixels are those of the scalar branch.
-/
import HandTracking.WarpTable
import Mathlib.Data.Fin.VecNotation

namespace Warp

/-! ### The source -/

/-- A gray image; the sizes fit into shorts. -/
structure Source where
  srcw : ℕ
  srch : ℕ
  srcstride : ℕ
  data : ℤ → UInt8
  srcw_lt : srcw < 32768
  srch_lt : srch < 32768
  srcw_le : srcw ≤ srcstride
  srcstride_lt : srcstride < 32768

namespace Source

variable (src : Source)

/-- The index of a pixel. -/
def offset (x y : ℤ) : ℤ := src.srcstride * y + x

theorem offset_right (x y : ℤ) : src.offset (x + 1) y = src.offset x y + 1 :=
  (add_assoc _ x 1).symm

theorem offset_below (x y : ℤ) : src.offset x (y + 1) = src.offset x y + src.srcstride := by
  rw [offset, offset]
  ring

/-- The offset of a pixel. -/
def Inside (o : ℤ) : Prop :=
  ∃ x y : ℤ, (0 ≤ x ∧ x < src.srcw) ∧ (0 ≤ y ∧ y < src.srch) ∧ o = src.offset x y

/-- The value at an index. -/
def byte (o : ℤ) : ℤ := (src.data o).toNat

theorem byte_range (o : ℤ) : 0 ≤ src.byte o ∧ src.byte o ≤ 255 := by
  have hlt := (src.data o).toNat_lt
  rw [byte]
  omega

end Source

/-- `(unsigned short)` -/
def ushort (x : ℤ) : ℤ := x % 65536

theorem ushort_lt_iff {x n : ℤ} (hn : n < 32768) :
    ushort (saturateCastShort x) < n ↔ 0 ≤ x ∧ x < n := by
  rw [ushort, saturateCastShort, saturate]
  omega

/-- The weighted sum of four pixels, `>> 15`. -/
def blend (w : ℕ → ℤ) (a0 a1 b0 b1 : ℤ) : ℤ :=
  (a0 * w 0 + a1 * w 1 + b0 * w 2 + b1 * w 3 + 16384) / 32768

section Branches

variable (src : Source) (wtab : ℕ → ℤ) (type : ℤ) (border old : UInt8) (X Y : ℤ)

/-! ### The scalar branch -/

/-- The value `v` of `type` that leaves the pixels around the source as they are. -/
def transparent : ℤ := -233

/-- Where a pixel of the source is read; there is none outside. -/
def corner (sx sy : ℤ) : Option ℤ :=
  if ushort sx < src.srcw ∧ ushort sy < src.srch then some (src.offset sx sy) else none

/-- A pixel of the source, and what stands for it outside. -/
def cornerByte (sx sy : ℤ) : ℤ :=
  match corner src sx sy with
  | some o => src.byte o
  | none => if type = transparent then old.toNat else border.toNat

/-- The pixel is set to the color of the border. -/
def OutsideBorder (sx sy : ℤ) : Prop :=
  type ≠ transparent ∧ (sx < -1 ∨ src.srcw ≤ sx ∨ sy < -1 ∨ src.srch ≤ sy)

/-- The pixel is left as it is. -/
def Skipped (sx sy : ℤ) : Prop :=
  type = transparent ∧ ((src.srcw : ℤ) - 1 ≤ ushort sx ∨ (src.srch : ℤ) - 1 ≤ ushort sy)

instance (sx sy : ℤ) : Decidable (OutsideBorder src type sx sy) :=
  inferInstanceAs (Decidable (_ ∧ _))

instance (sx sy : ℤ) : Decidable (Skipped src type sx sy) :=
  inferInstanceAs (Decidable (_ ∧ _))

/-- The body of the scalar loop, for a pixel at `X` and `Y` in parts of 1024; `old` is what the
pixel was. -/
def scalarPixel : ℤ :=
  let X := X / 32
  let Y := Y / 32
  let sx := saturateCastShort (X / 32)
  let sy := saturateCastShort (Y / 32)
  let alpha := Y % 32 * 32 + X % 32
  if OutsideBorder src type sx sy then border.toNat
  else if Skipped src type sx sy then old.toNat
  else
    let pixel := cornerByte src type border old
    saturate 0 255 (blend (fun k => wtab (4 * alpha.toNat + k)) (pixel sx sy) (pixel (sx + 1) sy)
      (pixel sx (sy + 1)) (pixel (sx + 1) (sy + 1)))

/-- The indices that the scalar code reads for a pixel. -/
def scalarReads : List ℤ :=
  let sx := saturateCastShort (X / 32 / 32)
  let sy := saturateCastShort (Y / 32 / 32)
  if OutsideBorder src type sx sy ∨ Skipped src type sx sy then []
  else [corner src sx sy, corner src (sx + 1) sy, corner src sx (sy + 1),
    corner src (sx + 1) (sy + 1)].filterMap id

/-! ### The vector branch -/

/-- A lane of a block inside.  The coordinates become shorts before the fractions are taken, and
the weights unsigned ones. -/
def vectorPixel : ℤ :=
  let ax := saturateCastShort (X / 32)
  let ay := saturateCastShort (Y / 32)
  let alpha := ax % 32 + ay % 32 * 32
  let sx := saturateCastShort (X / 1024)
  let sy := saturateCastShort (Y / 1024)
  let a0 := src.srcstride * sy + sx
  let b0 := a0 + src.srcstride
  min (min (blend (fun k => ushort (wtab (4 * alpha.toNat + k))) (src.byte a0) (src.byte (a0 + 1))
    (src.byte b0) (src.byte (b0 + 1))) 65535) 255

/-- The indices that the vector code reads for it. -/
def vectorReads : List ℤ :=
  let a0 := src.srcstride * saturateCastShort (Y / 1024) + saturateCastShort (X / 1024)
  let b0 := a0 + src.srcstride
  [a0, a0 + 1, b0, b0 + 1]

/-! ### The blocks -/

/-- `sxy_inout` -/
inductive BlockKind where
  | mixed
  | inside
  | outside
  deriving DecidableEq, Repr

/-- The kind of the block between two pixels. -/
def blockKind (X0 Y0 X7 Y7 : ℤ) : BlockKind :=
  let sx0 := saturateCastShort (X0 / 1024)
  let sy0 := saturateCastShort (Y0 / 1024)
  let sx7 := saturateCastShort (X7 / 1024)
  let sy7 := saturateCastShort (Y7 / 1024)
  if (ushort sx0 < (src.srcw : ℤ) - 1 ∧ ushort sy0 < (src.srch : ℤ) - 1) ∧
      ushort sx7 < (src.srcw : ℤ) - 1 ∧ ushort sy7 < (src.srch : ℤ) - 1 then .inside
  else if (sx0 < -1 ∧ sx7 < -1) ∨ (src.srcw ≤ sx0 ∧ src.srcw ≤ sx7) ∨ (sy0 < -1 ∧ sy7 < -1) ∨
      (src.srch ≤ sy0 ∧ src.srch ≤ sy7) then .outside
  else .mixed

/-- A pixel of a block. -/
def blockPixel : BlockKind → ℤ
  | .inside => vectorPixel src wtab X Y
  | .outside => if type = transparent then old.toNat else border.toNat
  | .mixed => scalarPixel src wtab type border old X Y

/-- The indices that are read in a block of the given kind. -/
def blockReads : BlockKind → List ℤ
  | .inside => vectorReads src X Y
  | .outside => []
  | .mixed => scalarReads src type X Y

end Branches

/-! ### The loops -/

/-- The arguments of a call, without the source: the matrix, the pixels and the color `v`. -/
structure Call (K : Type) where
  tm : Fin 6 → K
  type : ℤ
  border : UInt8
  w : ℕ
  h : ℕ
  /-- The pixels of `dst` before the call. -/
  old : ℕ → ℕ → UInt8

variable {K : Type} [Field K] [LinearOrder K] [FloorRing K]

/-- `SATURATE_CAST_INT` -/
def saturateCastInt (x : K) : ℤ := saturate (-2147483648) 2147483647 (roundHalfAway x)

/-- `adelta` and `bdelta`: the way from the first pixel of a row, for a slope. -/
def delta (slope : K) (x : ℕ) : ℤ := saturateCastInt (slope * x * 1024)

namespace Call

variable (c : Call K)

/-- `round_delta`; 0 is `cv::INTER_NEAREST`. -/
def roundDelta : ℤ := if c.type = 0 then 512 else 16

/-- `X0` of a row, from the coefficients of its line in the matrix. -/
def rowStart (slope shift : K) (y : ℕ) : ℤ :=
  wrap32 (saturateCastInt ((slope * y + shift) * 1024) + c.roundDelta)

/-- `X0 + adelta[x]` -/
def coordX (x y : ℕ) : ℤ := wrap32 (c.rowStart (c.tm 1) (c.tm 2) y + delta (c.tm 0) x)

/-- `Y0 + bdelta[x]` -/
def coordY (x y : ℕ) : ℤ := wrap32 (c.rowStart (c.tm 4) (c.tm 5) y + delta (c.tm 3) x)

end Call

variable (src : Source) (wtab : ℕ → ℤ) (c : Call K) (x y : ℕ)

/-- The kind of the block that begins at `x`. -/
def kindAt : BlockKind :=
  blockKind src (c.coordX x y) (c.coordY x y) (c.coordX (x + 7) y) (c.coordY (x + 7) y)

/-- What the scalar loop makes of a pixel. -/
def scalarAt : ℤ :=
  scalarPixel src wtab c.type c.border (c.old x y) (c.coordX x y) (c.coordY x y)

/-- A pixel of `warpaffine_bilinear_c1_tab`. -/
def warpPixel : ℤ :=
  if 8 * (x / 8) + 7 < c.w then
    blockPixel src wtab c.type c.border (c.old x y) (c.coordX x y) (c.coordY x y)
      (kindAt src c (8 * (x / 8)) y)
  else scalarAt src wtab c x y

/-- The indices that the code reads for a pixel, in its block or behind the last one. -/
def warpReads : List ℤ :=
  if 8 * (x / 8) + 7 < c.w then
    blockReads src c.type (c.coordX x y) (c.coordY x y) (kindAt src c (8 * (x / 8)) y)
  else scalarReads src c.type (c.coordX x y) (c.coordY x y)

/-- All pixels are those of the scalar loop, and all reads are in the source. -/
def BlocksAgree : Prop :=
  ∀ y < c.h, ∀ x < c.w, warpPixel src initInterTab2D c x y = scalarAt src initInterTab2D c x y ∧
    ∀ o ∈ warpReads src c x y, src.Inside o


/-! ### A pixel between two others -/

section Between

theorem saturateCastInt_range (x : K) :
    -2147483648 ≤ saturateCastInt x ∧ saturateCastInt x < 2147483648 := by
  rw [saturateCastInt, saturate]
  omega

variable [IsStrictOrderedRing K]

theorem saturateCastInt_mono {x y : K} (h : x ≤ y) : saturateCastInt x ≤ saturateCastInt y :=
  saturate_mono (roundHalfAway_mono h)

theorem saturateCastInt_zero : saturateCastInt (0 : K) = 0 := by
  rw [saturateCastInt, roundHalfAway_zero]
  rfl

/-- The way goes in one direction. -/
theorem delta_between (slope : K) {x z w : ℕ} (hxz : x ≤ z) (hzw : z ≤ w) :
    0 ≤ delta slope x ∧ delta slope x ≤ delta slope z ∧ delta slope z ≤ delta slope w ∧
        delta slope w < 2147483648 ∨
      -2147483648 ≤ delta slope w ∧ delta slope w ≤ delta slope z ∧
        delta slope z ≤ delta slope x ∧ delta slope x ≤ 0 := by
  have hxz' : (x : K) ≤ z := Nat.cast_le.mpr hxz
  have hzw' : (z : K) ≤ w := Nat.cast_le.mpr hzw
  have hx : (0 : K) ≤ x := Nat.cast_nonneg x
  have hrange := saturateCastInt_range (slope * w * 1024)
  rcases le_total 0 slope with hslope | hslope
  · left
    refine ⟨?_, ?_, ?_, hrange.2⟩
    · rw [delta, ← saturateCastInt_zero (K := K)]
      exact saturateCastInt_mono (mul_nonneg (mul_nonneg hslope hx) (by norm_num))
    · exact saturateCastInt_mono
        (mul_le_mul_of_nonneg_right (mul_le_mul_of_nonneg_left hxz' hslope) (by norm_num))
    · exact saturateCastInt_mono
        (mul_le_mul_of_nonneg_right (mul_le_mul_of_nonneg_left hzw' hslope) (by norm_num))
  · right
    refine ⟨hrange.1, ?_, ?_, ?_⟩
    · exact saturateCastInt_mono
        (mul_le_mul_of_nonneg_right (mul_le_mul_of_nonpos_left hzw' hslope) (by norm_num))
    · exact saturateCastInt_mono
        (mul_le_mul_of_nonneg_right (mul_le_mul_of_nonpos_left hxz' hslope) (by norm_num))
    · rw [delta, ← saturateCastInt_zero (K := K)]
      exact saturateCastInt_mono
        (mul_nonpos_of_nonpos_of_nonneg (mul_nonpos_of_nonpos_of_nonneg hslope hx) (by norm_num))

/-- The coordinates of a row that begins at `s`: where the first and the last of a block are, the
others are too. -/
theorem coord_between (slope : K) {s : ℤ} (hs : -2147483648 ≤ s ∧ s < 2147483648) {x z w : ℕ}
    (hxz : x ≤ z) (hzw : z ≤ w) {lo hi : ℤ} (hlo : 0 ≤ lo ∨ hi < -1)
    (hx : lo ≤ wrap32 (s + delta slope x) ∧ wrap32 (s + delta slope x) ≤ hi)
    (hw : lo ≤ wrap32 (s + delta slope w) ∧ wrap32 (s + delta slope w) ≤ hi) :
    lo ≤ wrap32 (s + delta slope z) ∧ wrap32 (s + delta slope z) ≤ hi := by
  have hbetween := wrap32_between hs (delta_between slope hxz hzw) (by omega)
  omega

end Between

/-! ### The branches -/

/-- The pixel of a coordinate and the next one are among `n`. -/
def Within (n : ℕ) (X : ℤ) : Prop := 0 ≤ X ∧ X / 1024 + 1 < n

/-- The fraction of a coordinate, in parts of 32. -/
def fraction (X : ℤ) : ℤ := X / 32 % 32

/-- The fraction that is left in a short. -/
def keptFraction (X : ℤ) : ℤ := if X < 1048576 then fraction X else 31

/-- The four pixels from that of `X` and `Y` on, with the weights of two fractions. -/
def blendAt (src : Source) (X Y fx fy : ℤ) : ℤ :=
  let a0 := src.offset (X / 1024) (Y / 1024)
  let b0 := a0 + src.srcstride
  blend (tabWeight (fy * 32 + fx).toNat) (src.byte a0) (src.byte (a0 + 1)) (src.byte b0)
    (src.byte (b0 + 1))

section Branches

theorem fraction_range (X : ℤ) : 0 ≤ fraction X ∧ fraction X < 32 := by
  rw [fraction]
  omega

theorem keptFraction_range (X : ℤ) : 0 ≤ keptFraction X ∧ keptFraction X < 32 := by
  rw [keptFraction, fraction]
  split_ifs <;> omega

theorem saturateCastShort_range (x : ℤ) :
    -32768 ≤ saturateCastShort x ∧ saturateCastShort x ≤ 32767 := by
  rw [saturateCastShort, saturate]
  omega

theorem saturateCastShort_mod {X : ℤ} (h : 0 ≤ X) :
    saturateCastShort (X / 32) % 32 = keptFraction X := by
  rw [saturateCastShort, saturate, keptFraction, fraction]
  split_ifs <;> omega

/-- A pixel among less than 32768 is not cut. -/
theorem Within.saturateCastShort {n : ℕ} {X : ℤ} (h : Within n X) (hn : n < 32768) :
    saturateCastShort (X / 1024) = X / 1024 := by
  rw [Within] at h
  exact saturate_of_mem (by omega) (by omega)

theorem tabWeight_sum_eq (n : ℕ) :
    tabWeight n 0 + tabWeight n 1 + tabWeight n 2 + tabWeight n 3 = 32768 := by
  rcases eq_or_ne n 0 with rfl | hn
  · rfl
  · exact tabWeight_sum hn

/-- Weights whose sum is 1 do not leave the bytes. -/
theorem blend_range {w : ℕ → ℤ} (hw : ∀ k, 0 ≤ w k) (hsum : w 0 + w 1 + w 2 + w 3 = 32768)
    {a0 a1 b0 b1 : ℤ} (ha0 : 0 ≤ a0 ∧ a0 ≤ 255) (ha1 : 0 ≤ a1 ∧ a1 ≤ 255)
    (hb0 : 0 ≤ b0 ∧ b0 ≤ 255) (hb1 : 0 ≤ b1 ∧ b1 ≤ 255) :
    0 ≤ blend w a0 a1 b0 b1 ∧ blend w a0 a1 b0 b1 ≤ 255 := by
  have hrange : ∀ {a : ℤ} (k : ℕ), 0 ≤ a ∧ a ≤ 255 → 0 ≤ a * w k ∧ a * w k ≤ 255 * w k :=
    fun k ha => ⟨mul_nonneg ha.1 (hw k), mul_le_mul_of_nonneg_right ha.2 (hw k)⟩
  have h0 := hrange 0 ha0
  have h1 := hrange 1 ha1
  have h2 := hrange 2 hb0
  have h3 := hrange 3 hb1
  rw [blend]
  omega

variable {src : Source} {X Y : ℤ}

theorem blend_bytes_range (src : Source) {n : ℕ} (hn : n < 1024) (o stride : ℤ) :
    0 ≤ blend (tabWeight n) (src.byte o) (src.byte (o + 1)) (src.byte (o + stride))
        (src.byte (o + stride + 1)) ∧
      blend (tabWeight n) (src.byte o) (src.byte (o + 1)) (src.byte (o + stride))
        (src.byte (o + stride + 1)) ≤ 255 :=
  blend_range (tabWeight_nonneg hn) (tabWeight_sum_eq n) (src.byte_range _) (src.byte_range _)
    (src.byte_range _) (src.byte_range _)

theorem blend_congr {w w' : ℕ → ℤ} (h : ∀ k < 4, w k = w' k) (a0 a1 b0 b1 : ℤ) :
    blend w a0 a1 b0 b1 = blend w' a0 a1 b0 b1 := by
  rw [blend, blend, h 0 (by decide), h 1 (by decide), h 2 (by decide), h 3 (by decide)]

/-- The vector branch takes the fractions from shorts. -/
theorem vectorPixel_eq (hX : Within src.srcw X) (hY : Within src.srch Y) :
    vectorPixel src initInterTab2D X Y = blendAt src X Y (keptFraction X) (keptFraction Y) := by
  have hfx := keptFraction_range X
  have hfy := keptFraction_range Y
  have hn : (keptFraction Y * 32 + keptFraction X).toNat < 1024 := by omega
  have hweights : ∀ k < 4, ushort (initInterTab2D
      (4 * (keptFraction X + keptFraction Y * 32).toNat + k)) =
      tabWeight (keptFraction Y * 32 + keptFraction X).toNat k := by
    intro k hk
    have hnonneg := tabWeight_nonneg hn k
    have hle := tabWeight_le hn k
    rw [add_comm (keptFraction X), initInterTab2D_eq hn hk, ushort]
    omega
  have hrange := blend_bytes_range src hn (src.offset (X / 1024) (Y / 1024)) src.srcstride
  rw [vectorPixel]
  simp only [saturateCastShort_mod hX.1, saturateCastShort_mod hY.1,
    hX.saturateCastShort src.srcw_lt, hY.saturateCastShort src.srch_lt]
  rw [blend_congr hweights, blendAt]
  simp only [Source.offset] at hrange ⊢
  omega

theorem cornerByte_of_mem (type : ℤ) (border old : UInt8) {sx sy : ℤ}
    (hsx : 0 ≤ sx ∧ sx < src.srcw) (hsy : 0 ≤ sy ∧ sy < src.srch) :
    cornerByte src type border old sx sy = src.byte (src.offset sx sy) := by
  have hw := src.srcw_lt
  have hh := src.srch_lt
  have hcorner : corner src sx sy = some (src.offset sx sy) := by
    apply if_pos
    rw [ushort, ushort]
    omega
  rw [cornerByte, hcorner]

/-- The scalar branch takes them from the coordinates. -/
theorem scalarPixel_eq (type : ℤ) (border old : UInt8) (hX : Within src.srcw X)
    (hY : Within src.srch Y) :
    scalarPixel src initInterTab2D type border old X Y =
      blendAt src X Y (fraction X) (fraction Y) := by
  have hfx := fraction_range X
  have hfy := fraction_range Y
  have hn : (fraction Y * 32 + fraction X).toNat < 1024 := by omega
  have hw := src.srcw_lt
  have hh := src.srch_lt
  have hsx : saturateCastShort (X / 32 / 32) = X / 1024 := by
    rw [show X / 32 / 32 = X / 1024 by omega, hX.saturateCastShort hw]
  have hsy : saturateCastShort (Y / 32 / 32) = Y / 1024 := by
    rw [show Y / 32 / 32 = Y / 1024 by omega, hY.saturateCastShort hh]
  have hrange := blend_bytes_range src hn (src.offset (X / 1024) (Y / 1024)) src.srcstride
  rw [Within] at hX hY
  have hborder : ¬ OutsideBorder src type (X / 1024) (Y / 1024) := by
    rintro ⟨-, hout⟩
    omega
  have hskip : ¬ Skipped src type (X / 1024) (Y / 1024) := by
    rintro ⟨-, hout⟩
    rw [ushort, ushort] at hout
    omega
  rw [scalarPixel]
  simp only [hsx, hsy, if_neg hborder, if_neg hskip]
  rw [cornerByte_of_mem _ _ _ (by omega) (by omega), cornerByte_of_mem _ _ _ (by omega) (by omega),
    cornerByte_of_mem _ _ _ (by omega) (by omega), cornerByte_of_mem _ _ _ (by omega) (by omega)]
  have hweights : ∀ k < 4, initInterTab2D (4 * (Y / 32 % 32 * 32 + X / 32 % 32).toNat + k) =
      tabWeight (fraction Y * 32 + fraction X).toNat k := fun k hk => initInterTab2D_eq hn hk
  rw [blend_congr hweights, src.offset_right, src.offset_right, src.offset_below, blendAt]
  exact saturate_of_mem hrange.1 hrange.2

end Branches

/-! ### The blocks -/

section Kinds

variable {src : Source} {X0 Y0 X7 Y7 : ℤ}

theorem blockKind_inside (h : blockKind src X0 Y0 X7 Y7 = .inside) :
    (Within src.srcw X0 ∧ Within src.srcw X7) ∧ Within src.srch Y0 ∧ Within src.srch Y7 := by
  have hw := src.srcw_lt
  have hh := src.srch_lt
  rw [blockKind] at h
  split_ifs at h with hinside
  simp only [ushort_lt_iff (show (src.srcw : ℤ) - 1 < 32768 by omega),
    ushort_lt_iff (show (src.srch : ℤ) - 1 < 32768 by omega)] at hinside
  simp only [Within]
  omega

theorem saturateCastShort_lt_iff {x : ℤ} : saturateCastShort x < -1 ↔ x < -1 := by
  rw [saturateCastShort, saturate]
  omega

theorem le_saturateCastShort_iff {n : ℕ} (hn : n < 32768) {x : ℤ} :
    (n : ℤ) ≤ saturateCastShort x ↔ n ≤ x := by
  rw [saturateCastShort, saturate]
  omega

/-- Both pixels are on one side of the source. -/
theorem blockKind_outside (h : blockKind src X0 Y0 X7 Y7 = .outside) :
    (X0 < -1024 ∧ X7 < -1024 ∨ 1024 * (src.srcw : ℤ) ≤ X0 ∧ 1024 * (src.srcw : ℤ) ≤ X7) ∨
      Y0 < -1024 ∧ Y7 < -1024 ∨ 1024 * (src.srch : ℤ) ≤ Y0 ∧ 1024 * (src.srch : ℤ) ≤ Y7 := by
  rw [blockKind] at h
  split_ifs at h with hinside houtside
  simp only [saturateCastShort_lt_iff, le_saturateCastShort_iff src.srcw_lt,
    le_saturateCastShort_iff src.srch_lt] at houtside
  omega

/-- A pixel on one side of the source keeps its color or becomes one of the border. -/
theorem scalarPixel_outside {X Y : ℤ} (wtab : ℕ → ℤ) (type : ℤ) (border old : UInt8)
    (h : (X < -1024 ∨ 1024 * (src.srcw : ℤ) ≤ X) ∨ Y < -1024 ∨ 1024 * (src.srch : ℤ) ≤ Y) :
    scalarPixel src wtab type border old X Y =
      blockPixel src wtab type border old X Y .outside := by
  have hw := src.srcw_lt
  have hh := src.srch_lt
  have hx := saturateCastShort_range (X / 32 / 32)
  have hy := saturateCastShort_range (Y / 32 / 32)
  have hout : (saturateCastShort (X / 32 / 32) < -1 ∨
      src.srcw ≤ saturateCastShort (X / 32 / 32)) ∨
      saturateCastShort (Y / 32 / 32) < -1 ∨ src.srch ≤ saturateCastShort (Y / 32 / 32) := by
    simp only [saturateCastShort_lt_iff, le_saturateCastShort_iff hw, le_saturateCastShort_iff hh]
    omega
  rw [scalarPixel, blockPixel]
  by_cases htype : type = transparent
  · have hborder : ¬ OutsideBorder src type (saturateCastShort (X / 32 / 32))
        (saturateCastShort (Y / 32 / 32)) := fun hborder => hborder.1 htype
    have hskip : Skipped src type (saturateCastShort (X / 32 / 32))
        (saturateCastShort (Y / 32 / 32)) := by
      refine ⟨htype, ?_⟩
      rw [ushort, ushort]
      omega
    simp only [if_neg hborder, if_pos hskip, if_pos htype]
  · have hborder : OutsideBorder src type (saturateCastShort (X / 32 / 32))
        (saturateCastShort (Y / 32 / 32)) := ⟨htype, by omega⟩
    simp only [if_pos hborder, if_neg htype]

/-! ### The reads -/

theorem Source.offset_inside {x y : ℤ} (hx : 0 ≤ x ∧ x < src.srcw) (hy : 0 ≤ y ∧ y < src.srch) :
    src.Inside (src.offset x y) :=
  ⟨x, y, hx, hy, rfl⟩

theorem corner_inside {sx sy o : ℤ} (hsx : -32768 ≤ sx ∧ sx ≤ 32768)
    (hsy : -32768 ≤ sy ∧ sy ≤ 32768) (h : corner src sx sy = some o) : src.Inside o := by
  have hw := src.srcw_lt
  have hh := src.srch_lt
  rw [corner, ushort, ushort] at h
  split_ifs at h with hinside
  cases h
  exact src.offset_inside (by omega) (by omega)

theorem scalarReads_inside (type X Y : ℤ) : ∀ o ∈ scalarReads src type X Y, src.Inside o := by
  have hx := saturateCastShort_range (X / 32 / 32)
  have hy := saturateCastShort_range (Y / 32 / 32)
  intro o ho
  rw [scalarReads] at ho
  split_ifs at ho with hnone
  · cases ho
  · simp only [List.mem_filterMap, List.mem_cons, List.not_mem_nil, or_false, id_eq,
      exists_eq_right] at ho
    rcases ho with ho | ho | ho | ho <;> exact corner_inside (by omega) (by omega) ho.symm

theorem vectorReads_inside {X Y : ℤ} (hX : Within src.srcw X) (hY : Within src.srch Y) :
    ∀ o ∈ vectorReads src X Y, src.Inside o := by
  intro o ho
  have hcorner : ∀ x y, src.srcstride * y + x = src.offset x y := fun x y => rfl
  simp only [vectorReads, hX.saturateCastShort src.srcw_lt, hY.saturateCastShort src.srch_lt,
    hcorner, ← src.offset_below, ← src.offset_right, List.mem_cons, List.not_mem_nil,
    or_false] at ho
  rw [Within] at hX hY
  rcases ho with rfl | rfl | rfl | rfl <;> exact src.offset_inside (by omega) (by omega)

end Kinds

/-- The pixel belongs to a block inside. -/
def InsideBlock : Prop := 8 * (x / 8) + 7 < c.w ∧ kindAt src c (8 * (x / 8)) y = .inside

section Pixels

variable {src} {c} {x y}

theorem Call.rowStart_range (slope shift : K) (y : ℕ) :
    -2147483648 ≤ c.rowStart slope shift y ∧ c.rowStart slope shift y < 2147483648 :=
  wrap32_range _

variable [IsStrictOrderedRing K]

/-- The coordinates of a block with an end each in an interval on one side of 0. -/
theorem Call.coordX_between (lo hi : ℤ) (hlo : 0 ≤ lo ∨ hi < -1)
    (h0 : lo ≤ c.coordX (8 * (x / 8)) y ∧ c.coordX (8 * (x / 8)) y ≤ hi)
    (h7 : lo ≤ c.coordX (8 * (x / 8) + 7) y ∧ c.coordX (8 * (x / 8) + 7) y ≤ hi) :
    lo ≤ c.coordX x y ∧ c.coordX x y ≤ hi :=
  coord_between (c.tm 0) (c.rowStart_range _ _ y) (by omega) (by omega) hlo h0 h7

theorem Call.coordY_between (lo hi : ℤ) (hlo : 0 ≤ lo ∨ hi < -1)
    (h0 : lo ≤ c.coordY (8 * (x / 8)) y ∧ c.coordY (8 * (x / 8)) y ≤ hi)
    (h7 : lo ≤ c.coordY (8 * (x / 8) + 7) y ∧ c.coordY (8 * (x / 8) + 7) y ≤ hi) :
    lo ≤ c.coordY x y ∧ c.coordY x y ≤ hi :=
  coord_between (c.tm 3) (c.rowStart_range _ _ y) (by omega) (by omega) hlo h0 h7

theorem InsideBlock.within (h : InsideBlock src c x y) :
    Within src.srcw (c.coordX x y) ∧ Within src.srch (c.coordY x y) := by
  obtain ⟨⟨hX0, hX7⟩, hY0, hY7⟩ := blockKind_inside h.2
  rw [Within] at hX0 hX7 hY0 hY7
  have hX := c.coordX_between (x := x) (y := y) 0 (1024 * (src.srcw : ℤ) - 1025)
    (by omega) (by omega) (by omega)
  have hY := c.coordY_between (x := x) (y := y) 0 (1024 * (src.srch : ℤ) - 1025)
    (by omega) (by omega) (by omega)
  rw [Within, Within]
  omega

theorem outside_of_kindAt (h : kindAt src c (8 * (x / 8)) y = .outside) :
    (c.coordX x y < -1024 ∨ 1024 * (src.srcw : ℤ) ≤ c.coordX x y) ∨
      c.coordY x y < -1024 ∨ 1024 * (src.srch : ℤ) ≤ c.coordY x y := by
  have hrange : ∀ x y, (-2147483648 ≤ c.coordX x y ∧ c.coordX x y < 2147483648) ∧
      -2147483648 ≤ c.coordY x y ∧ c.coordY x y < 2147483648 :=
    fun x y => ⟨wrap32_range _, wrap32_range _⟩
  have h0 := hrange (8 * (x / 8)) y
  have h7 := hrange (8 * (x / 8) + 7) y
  rcases blockKind_outside h with (hout | hout) | hout | hout
  · have hX := c.coordX_between (x := x) (y := y) (-2147483648) (-1025)
      (by omega) (by omega) (by omega)
    omega
  · have hX := c.coordX_between (x := x) (y := y) (1024 * (src.srcw : ℤ)) 2147483647
      (by omega) (by omega) (by omega)
    omega
  · have hY := c.coordY_between (x := x) (y := y) (-2147483648) (-1025)
      (by omega) (by omega) (by omega)
    omega
  · have hY := c.coordY_between (x := x) (y := y) (1024 * (src.srch : ℤ)) 2147483647
      (by omega) (by omega) (by omega)
    omega

/-- In a block inside, the two fractions decide. -/
theorem warpPixel_inside (h : InsideBlock src c x y) :
    (warpPixel src initInterTab2D c x y = scalarAt src initInterTab2D c x y ↔
      blendAt src (c.coordX x y) (c.coordY x y) (keptFraction (c.coordX x y))
          (keptFraction (c.coordY x y)) =
        blendAt src (c.coordX x y) (c.coordY x y) (fraction (c.coordX x y))
          (fraction (c.coordY x y))) := by
  obtain ⟨hX, hY⟩ := h.within
  rw [warpPixel, if_pos h.1, h.2, scalarAt, scalarPixel_eq _ _ _ hX hY, blockPixel,
    vectorPixel_eq hX hY]

/-- Every other pixel is that of the scalar loop. -/
theorem warpPixel_of_not_inside (h : ¬ InsideBlock src c x y) (wtab : ℕ → ℤ) :
    warpPixel src wtab c x y = scalarAt src wtab c x y := by
  rw [warpPixel]
  split_ifs with hblock
  · cases hkind : kindAt src c (8 * (x / 8)) y with
    | mixed => rfl
    | inside => exact absurd ⟨hblock, hkind⟩ h
    | outside =>
      rw [scalarAt, scalarPixel_outside _ _ _ _ (outside_of_kindAt hkind)]
  · rfl

theorem warpReads_inside (src : Source) (c : Call K) (x y : ℕ) :
    ∀ o ∈ warpReads src c x y, src.Inside o := by
  intro o ho
  rw [warpReads] at ho
  split_ifs at ho with hblock
  · cases hkind : kindAt src c (8 * (x / 8)) y with
    | mixed =>
      rw [hkind] at ho
      exact scalarReads_inside _ _ _ o ho
    | inside =>
      rw [hkind] at ho
      obtain ⟨hX, hY⟩ := InsideBlock.within ⟨hblock, hkind⟩
      exact vectorReads_inside hX hY o ho
    | outside =>
      rw [hkind] at ho
      cases ho
  · exact scalarReads_inside _ _ _ o ho

end Pixels

/-! ### When all pixels agree -/

/-- The source with other bytes. -/
def Source.withData (src : Source) (data : ℤ → UInt8) : Source := { src with data := data }

/-- The fractions that are left in shorts make the same of the four pixels. -/
def BlendAlike (src : Source) (X Y : ℤ) : Prop :=
  blendAt src X Y (keptFraction X) (keptFraction Y) = blendAt src X Y (fraction X) (fraction Y)

/-- The fraction is left in a short. -/
def FractionKept (X : ℤ) : Prop := X < 1048576 ∨ fraction X = 31

theorem keptFraction_eq {X : ℤ} (h : FractionKept X) : keptFraction X = fraction X := by
  rw [keptFraction]
  split_ifs with hlt
  · rfl
  · exact (h.resolve_left hlt).symm

theorem BlendAlike.of_kept {src : Source} {X Y : ℤ} (hX : FractionKept X) (hY : FractionKept Y) :
    BlendAlike src X Y := by
  rw [BlendAlike, keptFraction_eq hX, keptFraction_eq hY]

section Stripes

variable {src : Source} {X Y : ℤ}

/-- Two white pixels. -/
def pair (a b o : ℤ) : UInt8 := if o = a ∨ o = b then 255 else 0

theorem byte_pair (src : Source) (a b o : ℤ) :
    (src.withData (pair a b)).byte o = if o = a ∨ o = b then 255 else 0 := by
  rw [Source.byte, show (src.withData (pair a b)).data o = pair a b o from rfl, pair]
  split_ifs <;> rfl

theorem blendAt_pair (src : Source) (a b X Y fx fy : ℤ) :
    let a0 := src.offset (X / 1024) (Y / 1024)
    let b0 := a0 + src.srcstride
    blendAt (src.withData (pair a b)) X Y fx fy = blend (tabWeight (fy * 32 + fx).toNat)
      (if a0 = a ∨ a0 = b then 255 else 0) (if a0 + 1 = a ∨ a0 + 1 = b then 255 else 0)
      (if b0 = a ∨ b0 = b then 255 else 0) (if b0 + 1 = a ∨ b0 + 1 = b then 255 else 0) := by
  simp only [blendAt, byte_pair]
  rfl

/-- White pixels on the left. -/
theorem blend_column {n : ℕ} (hn : n ≠ 0) :
    blend (tabWeight n) 255 0 255 0 = (261120 * part (n % 32) 0 + 16384) / 32768 := by
  have hcolumn := tabWeight_column hn
  rw [blend]
  omega

/-- White pixels above. -/
theorem blend_row {n : ℕ} (hn : n ≠ 0) :
    blend (tabWeight n) 255 255 0 0 = (261120 * part (n / 32) 0 + 16384) / 32768 := by
  have hrow := tabWeight_row hn
  rw [blend]
  omega

/-- A fraction that is cut to the last one loses weight on its side. -/
theorem exists_not_alike_of_column (hX : Within src.srcw X) (h : ¬ FractionKept X) :
    ∃ data, ¬ BlendAlike (src.withData data) X Y := by
  have hle := src.srcw_le
  have hfx := fraction_range X
  have hfy := fraction_range Y
  have hky := keptFraction_range Y
  rw [FractionKept, not_or] at h
  have hkx : keptFraction X = 31 := if_neg h.1
  set a0 := src.offset (X / 1024) (Y / 1024) with ha0
  refine ⟨pair a0 (a0 + src.srcstride), fun halike => ?_⟩
  have hblend : ∀ fx fy, blendAt (src.withData (pair a0 (a0 + src.srcstride))) X Y fx fy =
      blend (tabWeight (fy * 32 + fx).toNat) 255 0 255 0 := by
    intro fx fy
    rw [Within] at hX
    rw [blendAt_pair, if_pos (by omega), if_neg (by omega), if_pos (by omega), if_neg (by omega)]
  rw [BlendAlike, hblend, hblend, hkx, blend_column (by omega), part, if_pos rfl] at halike
  rcases eq_or_ne (fraction Y * 32 + fraction X).toNat 0 with hzero | hne
  · rw [hzero, show blend (tabWeight 0) 255 0 255 0 = 255 from rfl] at halike
    omega
  · rw [blend_column hne, part, if_pos rfl] at halike
    omega

theorem exists_not_alike_of_row (hX : Within src.srcw X) (h : ¬ FractionKept Y) :
    ∃ data, ¬ BlendAlike (src.withData data) X Y := by
  have hle := src.srcw_le
  have hfx := fraction_range X
  have hfy := fraction_range Y
  have hkx := keptFraction_range X
  rw [FractionKept, not_or] at h
  have hky : keptFraction Y = 31 := if_neg h.1
  set a0 := src.offset (X / 1024) (Y / 1024) with ha0
  refine ⟨pair a0 (a0 + 1), fun halike => ?_⟩
  have hblend : ∀ fx fy, blendAt (src.withData (pair a0 (a0 + 1))) X Y fx fy =
      blend (tabWeight (fy * 32 + fx).toNat) 255 255 0 0 := by
    intro fx fy
    rw [Within] at hX
    rw [blendAt_pair, if_pos (by omega), if_pos (by omega), if_neg (by omega), if_neg (by omega)]
  rw [BlendAlike, hblend, hblend, hky, blend_row (by omega), part, if_pos rfl] at halike
  rcases eq_or_ne (fraction Y * 32 + fraction X).toNat 0 with hzero | hne
  · rw [hzero, show blend (tabWeight 0) 255 255 0 0 = 255 from rfl] at halike
    omega
  · rw [blend_row hne, part, if_pos rfl] at halike
    omega

end Stripes

section Agreement

variable [IsStrictOrderedRing K] {src} {c}

theorem blocksAgree_iff_alike : BlocksAgree src c ↔ ∀ y < c.h, ∀ x < c.w, InsideBlock src c x y →
    BlendAlike src (c.coordX x y) (c.coordY x y) := by
  constructor
  · intro hagree y hy x hx hinside
    exact (warpPixel_inside hinside).mp (hagree y hy x hx).1
  · intro halike y hy x hx
    refine ⟨?_, warpReads_inside src c x y⟩
    by_cases hinside : InsideBlock src c x y
    · exact (warpPixel_inside hinside).mpr (halike y hy x hx hinside)
    · exact warpPixel_of_not_inside hinside _

/-- In a source of at most 1025 columns and rows all coordinates keep their fractions. -/
theorem blocksAgree_of_le (hw : src.srcw ≤ 1025) (hh : src.srch ≤ 1025) : BlocksAgree src c := by
  rw [blocksAgree_iff_alike]
  intro y _ x _ hinside
  obtain ⟨hX, hY⟩ := hinside.within
  rw [Within] at hX hY
  exact BlendAlike.of_kept (Or.inl (by omega)) (Or.inl (by omega))

/-- **The vector branch and the scalar branch.** All reads are in the source, and the pixels agree
unless a block inside has a column or a row from 1024 on, whose fraction does not fit into a
short. -/
theorem blocksAgree_iff (src : Source) (c : Call K) :
    (BlocksAgree src c ↔ ∀ y < c.h, ∀ x < c.w, InsideBlock src c x y →
      BlendAlike src (c.coordX x y) (c.coordY x y)) ∧
    ((∀ data, BlocksAgree (src.withData data) c) ↔ ∀ y < c.h, ∀ x < c.w, InsideBlock src c x y →
      FractionKept (c.coordX x y) ∧ FractionKept (c.coordY x y)) := by
  refine ⟨blocksAgree_iff_alike, ?_, ?_⟩
  · intro hagree y hy x hx hinside
    obtain ⟨hX, -⟩ := hinside.within
    constructor
    · by_contra hcut
      obtain ⟨data, hdata⟩ := exists_not_alike_of_column (Y := c.coordY x y) hX hcut
      exact hdata (blocksAgree_iff_alike.mp (hagree data) y hy x hx hinside)
    · by_contra hcut
      obtain ⟨data, hdata⟩ := exists_not_alike_of_row (X := c.coordX x y) hX hcut
      exact hdata (blocksAgree_iff_alike.mp (hagree data) y hy x hx hinside)
  · intro hkept data
    rw [blocksAgree_iff_alike]
    intro y hy x hx hinside
    obtain ⟨hX, hY⟩ := hkept y hy x hx hinside
    exact BlendAlike.of_kept hX hY

end Agreement

section FarColumn

/-- A wide source with one white column. -/
def farSource : Source where
  srcw := 2000
  srch := 2
  srcstride := 2000
  data := pair 1024 3024
  srcw_lt := by decide
  srch_lt := by decide
  srcw_le := le_rfl
  srcstride_lt := by decide

/-- Eight pixels from the white column on. -/
def farCall : Call ℚ where
  tm := ![1, 0, 1024, 0, 1, 0]
  type := 1
  border := 0
  w := 8
  h := 1
  old := fun _ _ => 0

theorem farCall_coord : farCall.coordX 0 0 = 1048592 ∧ farCall.coordY 0 0 = 16 := by
  decide +kernel

theorem farCall_inside : InsideBlock farSource farCall 0 0 :=
  ⟨by decide, by decide +kernel⟩

theorem blocksAgree_iff_far : ¬ ∀ data, BlocksAgree (farSource.withData data) farCall := by
  intro hagree
  have hkept := ((blocksAgree_iff farSource farCall).2.mp hagree 0 (by decide) 0 (by decide)
    farCall_inside).1
  rw [farCall_coord.1, FractionKept, fraction] at hkept
  omega

/-- The vector branch makes 8 of the white pixel, the scalar one 255. -/
theorem far_branches_differ : ¬ BlocksAgree farSource farCall := by
  intro hagree
  have halike := blocksAgree_iff_alike.mp hagree 0 (by decide) 0 (by decide) farCall_inside
  rw [farCall_coord.1, farCall_coord.2, BlendAlike] at halike
  have hvector : blendAt farSource 1048592 16 (keptFraction 1048592) (keptFraction 16) = 8 := by
    decide +kernel
  have hscalar : blendAt farSource 1048592 16 (fraction 1048592) (fraction 16) = 255 := by
    decide +kernel
  omega

end FarColumn

end Warp

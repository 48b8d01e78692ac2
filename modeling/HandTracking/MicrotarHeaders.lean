/-
A header is read back as it was written.

A written header is a record of strings that do not overlap.  Each ends with a NUL, also where the
next field begins right behind it, so a number is read to its last digit and no further.

* `scanOctal_printOctal` — an octal number, also with zeros before it, in front of a NUL;
* `headerToRaw_eq` — the header as fields written one after the other;
* `rawToHeader_headerToRaw` — the round trip of all headers whose texts fit their fields.
-/
import HandTracking.Library.Fields
import HandTracking.Microtar
import Mathlib.Data.List.TakeWhile
import Mathlib.Tactic.Ring

namespace Microtar

/-! ### Octal numbers -/

theorem mem_toDigits {n : ℕ} {c : Char} (hc : c ∈ Nat.toDigits 8 n) :
    48 ≤ c.toNat ∧ c.toNat ≤ 55 := by
  have hdigit : ∀ d, d < 8 → 48 ≤ (Nat.digitChar d).toNat ∧ (Nat.digitChar d).toNat ≤ 55 := by
    decide
  induction n using Nat.strong_induction_on with
  | _ n ih =>
    rw [Nat.toDigits_eq_if (by omega)] at hc
    split at hc
    next hlt =>
      rw [List.mem_singleton.mp hc]
      exact hdigit n hlt
    next hle =>
      obtain hinit | hlast := List.mem_append.mp hc
      · exact ih (n / 8) (by omega) hinit
      · rw [List.mem_singleton.mp hlast]
        exact hdigit (n % 8) (Nat.mod_lt n (by omega))

theorem isOctal_iff (c : BitVec 8) : isOctal c = true ↔ 48 ≤ c.toNat ∧ c.toNat ≤ 55 := by
  simp only [isOctal, BitVec.le_def, Bool.and_eq_true, decide_eq_true_eq]
  exact Iff.rfl

theorem isSpace_of_isOctal {c : BitVec 8} (hc : isOctal c = true) : isSpace c = false := by
  have hbounds := (isOctal_iff c).mp hc
  have h13 : (13 : BitVec 8).toNat = 13 := rfl
  have h32 : c ≠ 32 := by
    rintro rfl
    exact absurd hbounds (by decide)
  simp only [isSpace, BitVec.le_def, Bool.or_eq_false_iff, Bool.and_eq_false_iff,
    decide_eq_false_iff_not]
  exact ⟨h32, .inr (by omega)⟩

theorem isOctal_of_mem_printOctal {n : BitVec 32} {c : BitVec 8} (hc : c ∈ printOctal n) :
    isOctal c = true := by
  obtain ⟨d, hd, rfl⟩ := List.mem_map.mp hc
  have hbounds := mem_toDigits hd
  rw [isOctal_iff, BitVec.toNat_ofNat]
  omega

theorem printOctal_ne_nil (n : BitVec 32) : printOctal n ≠ [] := by
  simp only [printOctal, ne_eq, List.map_eq_nil_iff, Nat.toDigits_ne_nil, not_false_eq_true]

theorem length_printOctal_le {n : BitVec 32} {k : ℕ} (hk : 0 < k) (hn : n.toNat < 8 ^ k) :
    (printOctal n).length ≤ k := by
  rw [printOctal, List.length_map]
  exact (Nat.length_toDigits_le_iff (by omega) hk).mpr hn

theorem octalValue_printOctal (n : BitVec 32) : octalValue (printOctal n) = n.toNat := by
  have hfold : ∀ (cs : List Char) (m : ℕ), (∀ c ∈ cs, c.toNat ≤ 55) →
      (cs.map fun c => BitVec.ofNat 8 c.toNat).foldl (fun n c => 8 * n + (c.toNat - 48)) m =
        Nat.ofDigitChars 8 cs m := by
    intro cs
    induction cs with
    | nil => exact fun m _ => rfl
    | cons c cs ih =>
      intro m hcs
      have hc : (BitVec.ofNat 8 c.toNat).toNat = c.toNat := by
        have hle := hcs c List.mem_cons_self
        rw [BitVec.toNat_ofNat]
        omega
      rw [List.map_cons, List.foldl_cons, hc, Nat.ofDigitChars_cons]
      exact ih _ fun c hc => hcs c (List.mem_cons_of_mem _ hc)
  unfold octalValue printOctal
  rw [hfold _ 0 fun c hc => (mem_toDigits hc).2]
  exact Nat.ofDigitChars_toDigits (by omega) (by omega)

theorem octalValue_zeros (k : ℕ) (digits : Bytes) :
    octalValue (List.replicate k 48 ++ digits) = octalValue digits := by
  induction k with
  | zero => rfl
  | succ k ih =>
    rw [List.replicate_succ, List.cons_append]
    exact ih

/-- Digits in front of a NUL are read as the number that they are. -/
theorem scanOctal_digits {digits : Bytes} (hdigits : ∀ c ∈ digits, isOctal c = true)
    (hne : digits ≠ []) (hlt : octalValue digits < 2 ^ 32) (rest : Bytes) :
    scanOctal (digits ++ 0 :: rest) = some (BitVec.ofNat 32 (octalValue digits)) := by
  obtain ⟨c, digits, rfl⟩ := List.exists_cons_of_ne_nil hne
  have hc := hdigits c List.mem_cons_self
  have hsign : c ≠ 45 ∧ c ≠ 43 := by
    constructor <;> rintro rfl <;> revert hc <;> decide
  have hhead : ∀ sign, c ≠ sign → (c :: digits ++ 0 :: rest).head? ≠ some sign :=
    fun sign hne heq => hne (Option.some.inj heq)
  have htake : (c :: digits ++ 0 :: rest).takeWhile isOctal = c :: digits := by
    rw [List.takeWhile_append_of_pos hdigits, List.takeWhile_cons_of_neg (by decide),
      List.append_nil]
  have hdrop : (c :: digits ++ 0 :: rest).dropWhile isSpace = c :: digits ++ 0 :: rest :=
    List.dropWhile_cons_of_neg (by rw [isSpace_of_isOctal hc]; decide)
  unfold scanOctal
  rw [hdrop]
  dsimp only
  rw [if_neg (not_or.mpr ⟨hhead 45 hsign.1, hhead 43 hsign.2⟩), htake, if_neg hne,
    if_neg (by omega), if_neg (hhead 45 hsign.1)]

/-- A printed number, padded with zeros to a width or not at all. -/
theorem scanOctal_printOctal (k : ℕ) (n : BitVec 32) (rest : Bytes) :
    scanOctal (List.replicate k 48 ++ printOctal n ++ 0 :: rest) = some n := by
  have hvalue : octalValue (List.replicate k 48 ++ printOctal n) = n.toNat := by
    rw [octalValue_zeros, octalValue_printOctal]
  rw [scanOctal_digits _ (by simp [printOctal_ne_nil]) (by rw [hvalue]; exact n.isLt), hvalue,
    BitVec.ofNat_toNat, BitVec.setWidth_eq]
  intro c hc
  obtain hc | hc := List.mem_append.mp hc
  · rw [List.eq_of_mem_replicate hc]
    rfl
  · exact isOctal_of_mem_printOctal hc

/-! ### Fields -/

open Fields

theorem putString_eq (rh : Bytes) (offset : ℕ) (s : Bytes) :
    putString rh offset s = overwrite rh offset (s ++ [0]) := by
  rw [putString, overwrite, List.length_append, List.length_singleton]

theorem set_eq_overwrite {rh : Bytes} {i : ℕ} (hi : i < rh.length) (c : BitVec 8) :
    rh.set i c = overwrite rh i [c] := by
  rw [List.set_eq_take_append_cons_drop, if_pos hi, overwrite, List.length_singleton,
    List.append_assoc, List.singleton_append]

/-- The texts of a header, each with its NUL, fit the fields; the type is a character. -/
structure Fits (h : MtarHeader) : Prop where
  mode : h.mode.toNat < 8 ^ 7
  owner : h.owner.toNat < 8 ^ 7
  type : 0 < h.type.toNat ∧ h.type.toNat < 256
  name : h.name.length < 100 ∧ 0 ∉ h.name
  linkname : h.linkname.length < 100 ∧ 0 ∉ h.linkname

/-- All fields but the checksum, in the order in which they are written. -/
def textFields (h : MtarHeader) : List (ℕ × Bytes) :=
  [(100, printOctal h.mode ++ [0]), (108, printOctal h.owner ++ [0]),
    (124, printOctal h.size ++ [0]), (136, printOctal h.mtime ++ [0]),
    (156, [if h.type ≠ 0 then h.type.setWidth 8 else 48]),
    (0, cString h.name ++ [0]), (157, cString h.linkname ++ [0])]

/-- The record without its checksum. -/
def textRecord (h : MtarHeader) : Bytes := writeAll (List.replicate 512 0) (textFields h)

/-- Six digits and a NUL, and a space. -/
def checksumFields (h : MtarHeader) : List (ℕ × Bytes) :=
  let chksum := printOctal (checksum (textRecord h))
  [(148, List.replicate (6 - chksum.length) 48 ++ chksum ++ [0]), (155, [32])]

theorem cString_append {s : Bytes} (hs : 0 ∉ s) (rest : Bytes) : cString (s ++ 0 :: rest) = s := by
  have hall : ∀ c ∈ s, decide (c ≠ 0) = true := by
    intro c hc
    rw [decide_eq_true_eq]
    rintro rfl
    exact hs hc
  rw [cString, List.takeWhile_append_of_pos hall, List.takeWhile_cons_of_neg (by decide),
    List.append_nil]

/-! ### The written record -/

variable {h : MtarHeader}

theorem sum_toNat_le (s : Bytes) : (s.map BitVec.toNat).sum ≤ 255 * s.length := by
  induction s with
  | nil => exact Nat.le_refl 0
  | cons c s ih =>
    have hc := c.isLt
    rw [List.map_cons, List.sum_cons, List.length_cons]
    omega

/-- Six digits are enough for it. -/
theorem checksum_lt {rh : Bytes} (hlen : rh.length = 512) : (checksum rh).toNat < 8 ^ 6 := by
  have hleft := sum_toNat_le (rh.take 148)
  have hright := sum_toNat_le (rh.drop 156)
  rw [List.length_take, hlen] at hleft
  rw [List.length_drop, hlen] at hright
  rw [checksum, BitVec.toNat_ofNat]
  omega

theorem length_of_mem_textFields (hfits : Fits h) :
    ∀ f ∈ textFields h, f.1 + f.2.length ≤ (List.replicate 512 (0 : BitVec 8)).length := by
  have hmode := length_printOctal_le (by omega) hfits.mode
  have howner := length_printOctal_le (by omega) hfits.owner
  have hsize : (printOctal h.size).length ≤ 11 := length_printOctal_le (by omega) (by omega)
  have hmtime : (printOctal h.mtime).length ≤ 11 := length_printOctal_le (by omega) (by omega)
  have hname := hfits.name.1
  have hlinkname := hfits.linkname.1
  simp only [textFields, List.forall_mem_cons, List.length_append, List.length_singleton,
    List.length_replicate, cString_eq_self hfits.name.2, cString_eq_self hfits.linkname.2]
  refine ⟨by omega, by omega, by omega, by omega, by omega, by omega, by omega, ?_⟩
  exact fun f hf => absurd hf List.not_mem_nil

theorem length_textRecord (hfits : Fits h) : (textRecord h).length = 512 := by
  rw [textRecord, length_writeAll (length_of_mem_textFields hfits), List.length_replicate]

theorem length_checksumText (hfits : Fits h) :
    (printOctal (checksum (textRecord h))).length ≤ 6 :=
  length_printOctal_le (by omega) (checksum_lt (length_textRecord hfits))

theorem length_of_mem_fields (hfits : Fits h) :
    ∀ f ∈ textFields h ++ checksumFields h,
      f.1 + f.2.length ≤ (List.replicate 512 (0 : BitVec 8)).length := by
  have hchksum := length_checksumText hfits
  intro f hf
  obtain hf | hf := List.mem_append.mp hf
  · exact length_of_mem_textFields hfits f hf
  · simp only [checksumFields, List.mem_cons, List.not_mem_nil, or_false] at hf
    obtain rfl | rfl := hf
    · simp only [List.length_append, List.length_replicate, List.length_singleton]
      omega
    · simp only [List.length_replicate, List.length_singleton]
      omega

theorem apart_fields (hfits : Fits h) : (textFields h ++ checksumFields h).Pairwise Apart := by
  have hmode := length_printOctal_le (by omega) hfits.mode
  have howner := length_printOctal_le (by omega) hfits.owner
  have hsize : (printOctal h.size).length ≤ 11 := length_printOctal_le (by omega) (by omega)
  have hmtime : (printOctal h.mtime).length ≤ 11 := length_printOctal_le (by omega) (by omega)
  have hchksum := length_checksumText hfits
  have hname := hfits.name.1
  have hlinkname := hfits.linkname.1
  simp only [textFields, checksumFields, List.cons_append, List.nil_append, List.pairwise_cons,
    List.forall_mem_cons, Apart, List.length_append, List.length_singleton, List.length_replicate,
    cString_eq_self hfits.name.2, cString_eq_self hfits.linkname.2]
  simp only [List.not_mem_nil, false_implies, implies_true, List.Pairwise.nil, and_true]
  omega

/-- A single character is a field, too. -/
theorem set_writeAll (fields : List (ℕ × Bytes)) (i : ℕ) (c : BitVec 8)
    (hfit : ∀ f ∈ fields, f.1 + f.2.length ≤ (List.replicate 512 (0 : BitVec 8)).length)
    (hi : i < 512) :
    (writeAll (List.replicate 512 0) fields).set i c =
      writeAll (List.replicate 512 0) (fields ++ [(i, [c])]) := by
  rw [set_eq_overwrite (by rwa [length_writeAll hfit, List.length_replicate]), writeAll, writeAll,
    List.foldl_append]
  rfl

/-- The calls of `sprintf` and `strcpy`, and the two characters that are set. -/
theorem headerToRaw_eq (hfits : Fits h) :
    headerToRaw h = writeAll (List.replicate 512 0) (textFields h ++ checksumFields h) := by
  have hfit := length_of_mem_fields hfits
  have htype := set_writeAll ((textFields h ++ checksumFields h).take 4) 156
    (if h.type ≠ 0 then h.type.setWidth 8 else 48)
    (fun f hf => hfit f (List.mem_of_mem_take hf)) (by omega)
  have hspace := set_writeAll ((textFields h ++ checksumFields h).take 8) 155 32
    (fun f hf => hfit f (List.mem_of_mem_take hf)) (by omega)
  simp only [textFields, checksumFields, List.cons_append, List.nil_append, List.take, writeAll,
    List.foldl] at htype hspace
  unfold headerToRaw
  simp only [putString_eq]
  rw [htype]
  exact hspace

theorem length_headerToRaw (hfits : Fits h) : (headerToRaw h).length = 512 := by
  rw [headerToRaw_eq hfits, length_writeAll (length_of_mem_fields hfits), List.length_replicate]

theorem hasAt_headerToRaw (hfits : Fits h) {f : ℕ × Bytes}
    (hf : f ∈ textFields h ++ checksumFields h) : HasAt (headerToRaw h) f.1 f.2 := by
  rw [headerToRaw_eq hfits]
  exact hasAt_writeAll (length_of_mem_fields hfits) (apart_fields hfits) hf

/-- The checksum does not count itself. -/
theorem checksum_headerToRaw (hfits : Fits h) :
    checksum (headerToRaw h) = checksum (textRecord h) := by
  have hlen := length_textRecord hfits
  have hchksum := length_checksumText hfits
  set text := List.replicate (6 - (printOctal (checksum (textRecord h))).length) 48 ++
    printOctal (checksum (textRecord h)) ++ [0] with htext
  have htextLen : text.length = 7 := by
    rw [htext, List.length_append, List.length_append, List.length_replicate,
      List.length_singleton]
    omega
  have hraw : headerToRaw h = overwrite (overwrite (textRecord h) 148 text) 155 [32] := by
    rw [headerToRaw_eq hfits, writeAll, List.foldl_append]
    rfl
  have hroom : 148 + text.length ≤ (textRecord h).length := by omega
  have hroom' : 155 + [(32 : BitVec 8)].length ≤ (overwrite (textRecord h) 148 text).length := by
    rw [length_overwrite hroom, List.length_singleton]
    omega
  rw [hraw, checksum, checksum, take_overwrite hroom' (by omega), take_overwrite hroom (by omega),
    drop_overwrite hroom' (by rw [List.length_singleton]), drop_overwrite hroom (by omega)]

/-! ### Reading it back -/

theorem scanOctal_field {rh : Bytes} {o k : ℕ} {n : BitVec 32}
    (hn : HasAt rh o (List.replicate k 48 ++ printOctal n ++ [0])) :
    scanOctal (rh.drop o) = some n := by
  rw [hn.drop_eq, List.append_assoc _ [0], List.singleton_append, scanOctal_printOctal]

theorem cString_field {rh s : Bytes} {o : ℕ} (hs : HasAt rh o (s ++ [0])) (hnul : 0 ∉ s) :
    cString (rh.drop o) = s := by
  rw [hs.drop_eq, List.append_assoc, List.singleton_append, cString_append hnul]

/-- Texts that end in their fields are copied one by one. -/
theorem copyTexts_of_lt {rh : Bytes} (hname : (cString rh).length < 100)
    (hlinkname : (cString (rh.drop 157)).length < 100) :
    copyTexts rh = some (cString rh, cString (rh.drop 157)) := by
  unfold copyTexts
  dsimp only
  rw [if_neg (by omega), if_pos hname]

/-- The record is not taken for the end of the archive. -/
theorem headerToRaw_checksum_ne (hfits : Fits h) : (headerToRaw h)[148]? ≠ some 0 := by
  set digits := List.replicate (6 - (printOctal (checksum (textRecord h))).length) 48 ++
    printOctal (checksum (textRecord h)) with hdigits
  have hat : HasAt (headerToRaw h) 148 (digits ++ [0]) :=
    hasAt_headerToRaw hfits (f := (148, digits ++ [0]))
      (List.mem_append_right _ List.mem_cons_self)
  have hpos : 0 < digits.length := by
    have hne := List.length_pos_iff.mpr (printOctal_ne_nil (checksum (textRecord h)))
    rw [hdigits, List.length_append]
    omega
  have hfirst := hat 0 (by rw [List.length_append]; omega)
  rw [List.getElem?_append_left hpos, Nat.add_zero, List.getElem?_eq_getElem hpos] at hfirst
  rw [hfirst]
  intro hzero
  have hmem : digits[0] ∈ digits := List.getElem_mem hpos
  rw [Option.some.inj hzero] at hmem
  obtain hmem | hmem := List.mem_append.mp hmem
  · exact absurd (List.eq_of_mem_replicate hmem) (by decide)
  · exact absurd (isOctal_of_mem_printOctal hmem) (by decide)

/-- A header whose texts fit is read back as it was written, whatever the variables held before
that `sscanf` sets. -/
theorem rawToHeader_headerToRaw (unset : Unset) (h : MtarHeader) (hfits : Fits h) :
    rawToHeader unset (headerToRaw h) = .ok h := by
  have hat := fun (f : ℕ × Bytes) hf => hasAt_headerToRaw hfits (f := f) hf
  simp only [textFields, checksumFields, List.cons_append, List.nil_append, List.forall_mem_cons]
    at hat
  obtain ⟨hmode, howner, hsize, hmtime, htype, hname, hlinkname, hchksum, -, -⟩ := hat
  have htypeNe : h.type ≠ 0 := by
    rintro hzero
    have hpos := hfits.type.1
    rw [hzero] at hpos
    exact absurd hpos (by decide)
  have hbyte : (headerToRaw h)[156]? = some (h.type.setWidth 8) := by
    have hfirst := htype 0 (by rw [List.length_singleton]; omega)
    rwa [if_pos htypeNe] at hfirst
  have hwidth : (h.type.setWidth 8).setWidth 32 = h.type := by
    refine BitVec.eq_of_toNat_eq ?_
    have hlt := hfits.type.2
    rw [BitVec.toNat_setWidth, BitVec.toNat_setWidth]
    omega
  rw [cString_eq_self hfits.name.2] at hname
  rw [cString_eq_self hfits.linkname.2] at hlinkname
  have hnameRead := cString_field hname hfits.name.2
  rw [List.drop_zero] at hnameRead
  have hlinknameRead := cString_field hlinkname hfits.linkname.2
  have htexts := copyTexts_of_lt (by rw [hnameRead]; exact hfits.name.1)
    (by rw [hlinknameRead]; exact hfits.linkname.1)
  rw [hnameRead, hlinknameRead] at htexts
  unfold rawToHeader
  rw [if_neg (headerToRaw_checksum_ne hfits), checksum_headerToRaw hfits, scanOctal_field hchksum,
    if_neg (fun hne => hne rfl), scanOctal_field (k := 0) hmode, scanOctal_field (k := 0) howner,
    scanOctal_field (k := 0) hsize, scanOctal_field (k := 0) hmtime, hbyte, htexts]
  dsimp only [Option.getD_some]
  rw [hwidth]

end Microtar

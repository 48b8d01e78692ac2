/-
The reader of tar archives.

A reader keeps its position, and asks a stream to read or to seek; the stream is a file, or an
archive in memory that does both by hand.

* `copyTexts` — the two texts of a header, as `strcpy` leaves them;
* `rawToHeader` — a header from its 512 bytes;
* `Reader` — the functions of the reader, as programs on a stream;
* `memStream`, `fileStream` — the two streams.
-/
import HandTracking.Library.Device
import Mathlib.Algebra.GroupWithZero.Nat
import Mathlib.Data.List.Basic
import Mathlib.Data.List.TakeWhile
import Mathlib.Tactic.Common

namespace Microtar

/-- Bytes of a file, of memory or of a text. -/
abbrev Bytes := List (BitVec 8)

/-- The bytes up to the first NUL. -/
def cString (s : Bytes) : Bytes := s.takeWhile (· ≠ 0)

theorem zero_notMem_cString (s : Bytes) : 0 ∉ cString s := fun hmem =>
  absurd (List.mem_takeWhile_imp hmem) (by decide)

theorem cString_eq_self {s : Bytes} (hs : 0 ∉ s) : cString s = s := by
  refine List.takeWhile_eq_self_iff.mpr fun c hc => ?_
  rw [decide_eq_true_eq]
  rintro rfl
  exact hs hc

/-- The statuses that a reader returns, and one way in which it stops without. -/
inductive MtarErr where
  | openFail
  | readFail
  | seekFail
  | badChksum
  | nullRecord
  | notFound
  /-- No status: a `strcpy` has written behind the header, and no code goes on from there. -/
  | overrun
  deriving DecidableEq, Repr

/-- `mtar_header_t`; its texts are what a reader of C strings finds in the two arrays. -/
structure MtarHeader where
  mode : BitVec 32
  owner : BitVec 32
  size : BitVec 32
  mtime : BitVec 32
  type : BitVec 32
  name : Bytes
  linkname : Bytes
  deriving DecidableEq, Repr

/-! ### Headers -/

/-- `isspace` -/
def isSpace (c : BitVec 8) : Bool := c = 32 || (9 ≤ c && c ≤ 13)

/-- A digit that `%o` reads. -/
def isOctal (c : BitVec 8) : Bool := 48 ≤ c && c ≤ 55

/-- The value of octal digits. -/
def octalValue (digits : Bytes) : ℕ := digits.foldl (fun n c => 8 * n + (c.toNat - 48)) 0

/-- `sscanf(s, "%o", &n)`: the number is read into 64 bits, and the lower 32 of them are kept;
`none` if there is no digit. -/
def scanOctal (s : Bytes) : Option (BitVec 32) :=
  let s := s.dropWhile isSpace
  let negative := s.head? = some 45
  let s := if s.head? = some 45 ∨ s.head? = some 43 then s.tail else s
  let digits := s.takeWhile isOctal
  if digits = [] then none
  else
    let n := octalValue digits
    if 2 ^ 64 ≤ n then some (BitVec.ofNat 32 (2 ^ 64 - 1))
    else if negative then some (-BitVec.ofNat 32 n)
    else some (BitVec.ofNat 32 n)

/-- All bytes, with spaces in the place of the checksum. -/
def checksum (rh : Bytes) : BitVec 32 :=
  BitVec.ofNat 32
    (256 + ((rh.take 148).map BitVec.toNat).sum + ((rh.drop 156).map BitVec.toNat).sum)

/-- What the variables hold that `sscanf` may leave unset. -/
structure Unset where
  chksum : BitVec 32
  mode : BitVec 32
  owner : BitVec 32
  size : BitVec 32
  mtime : BitVec 32

/-- Fields that hold 0 before they are read. -/
def zeros : BitVec 32 → Unset := fun _ => ⟨0, 0, 0, 0, 0⟩

/-- `strcpy` to `name` and then to `linkname`, the two arrays of 100 bytes that end the header;
`none` if a copy leaves it.  The fields follow one another also in the record, so that a name that
fills its field goes on with the fields behind.  In the header it runs into `linkname`, which the
second copy replaces. -/
def copyTexts (rh : Bytes) : Option (Bytes × Bytes) :=
  let name := cString rh
  let linkname := cString (rh.drop 157)
  if 200 ≤ name.length ∨ 100 ≤ linkname.length then none
  else some (if name.length < 100 then name else name.take 100 ++ linkname, linkname)

/-- `raw_to_header`; a field without digits keeps what it held. -/
def rawToHeader (unset : Unset) (rh : Bytes) : Except MtarErr MtarHeader :=
  if rh[148]? = some 0 then .error .nullRecord
  else if checksum rh ≠ (scanOctal (rh.drop 148)).getD unset.chksum then .error .badChksum
  else
    match copyTexts rh with
    | none => .error .overrun
    | some (name, linkname) =>
      .ok {
        mode := (scanOctal (rh.drop 100)).getD unset.mode
        owner := (scanOctal (rh.drop 108)).getD unset.owner
        size := (scanOctal (rh.drop 124)).getD unset.size
        mtime := (scanOctal (rh.drop 136)).getD unset.mtime
        type := (rh[156]?.getD 0).setWidth 32
        name := name
        linkname := linkname }

theorem rawToHeader_ok {unset : Unset} {rh : Bytes} {h : MtarHeader}
    (hraw : rawToHeader unset rh = .ok h) :
    copyTexts rh = some (h.name, h.linkname) ∧
      h.size = (scanOctal (rh.drop 124)).getD unset.size := by
  unfold rawToHeader at hraw
  split_ifs at hraw
  split at hraw
  next => cases hraw
  next name linkname htexts =>
    cases hraw
    exact ⟨htexts, rfl⟩

/-- The name ends with its first NUL, also where it goes on in the other array. -/
theorem cString_of_copyTexts {rh name linkname : Bytes}
    (htexts : copyTexts rh = some (name, linkname)) : cString name = name := by
  unfold copyTexts at htexts
  dsimp only at htexts
  split_ifs at htexts with hlong hname
  · cases htexts
    exact List.takeWhile_idem
  · cases htexts
    refine cString_eq_self fun hmem => ?_
    obtain hmem | hmem := List.mem_append.mp hmem
    · exact zero_notMem_cString _ (List.mem_of_mem_take hmem)
    · exact zero_notMem_cString _ hmem

-- a name that fills its field goes on with the other text
example : copyTexts (List.replicate 100 97 ++ 0 :: List.replicate 56 48 ++ [120, 0]) =
    some (List.replicate 100 97 ++ [120], [120]) := by decide

/-! ### Written headers -/

/-- `sprintf(s, "%o", n)`. -/
def printOctal (n : BitVec 32) : Bytes :=
  (Nat.toDigits 8 n.toNat).map fun c => BitVec.ofNat 8 c.toNat

/-- A string and its NUL, over what is there. -/
def putString (rh : Bytes) (offset : ℕ) (s : Bytes) : Bytes :=
  rh.take offset ++ (s ++ [0]) ++ rh.drop (offset + (s.length + 1))

/-- `header_to_raw`: the record with the octal texts of the fields, and with its checksum. -/
def headerToRaw (h : MtarHeader) : Bytes :=
  let rh := List.replicate 512 0
  let rh := putString rh 100 (printOctal h.mode)
  let rh := putString rh 108 (printOctal h.owner)
  let rh := putString rh 124 (printOctal h.size)
  let rh := putString rh 136 (printOctal h.mtime)
  let rh := rh.set 156 (if h.type ≠ 0 then h.type.setWidth 8 else 48)
  let rh := putString rh 0 (cString h.name)
  let rh := putString rh 157 (cString h.linkname)
  let chksum := printOctal (checksum rh)
  let rh := putString rh 148 (List.replicate (6 - chksum.length) 48 ++ chksum)
  rh.set 155 32

/-- The header of a regular file. -/
def regular (name : Bytes) (size : BitVec 32) : MtarHeader :=
  { mode := 420, owner := 0, size := size, mtime := 0, type := 48, name := name, linkname := [] }

/-- `round_up` -/
def roundUp (n incr : BitVec 32) : BitVec 32 := n + (incr - n % incr) % incr

/-! ### Streams -/

/-- What the reader asks of its stream. -/
inductive Op where
  | read (size : BitVec 32)
  | seek (offset : BitVec 32)

/-- A read gives its bytes, a seek whether it succeeds. -/
abbrev Op.Answer : Op → Type
  | .read _ => Option Bytes
  | .seek _ => Bool

/-- `mem_read` and `mem_seek`: the state is the offset of the stream in the archive. -/
def memStream (mem : Bytes) : Device Op Op.Answer ℕ
  | stream, .read size =>
    if stream + size.toNat < mem.length then
      (some ((mem.drop stream).take size.toNat), stream + size.toNat)
    else (none, stream)
  | stream, .seek offset =>
    if offset.toNat ≤ mem.length then (true, offset.toNat) else (false, stream)

/-- `file_read` and `file_seek`: the state is the position in the file. -/
def fileStream (file : Bytes) : Device Op Op.Answer ℕ
  | position, .read size =>
    let res := min size.toNat (file.length - position)
    (if res = size.toNat then some ((file.drop position).take size.toNat) else none,
      position + res)
  | _, .seek offset => (true, offset.toNat)

/-! ### The reader -/

/-- `mtar_t`, without the stream. -/
structure Mtar where
  pos : BitVec 32
  remainingData : BitVec 32
  lastHeader : BitVec 32
  deriving DecidableEq, Repr

/-- Ends with a result or an error; the reader has changed in both cases. -/
def Reader (α : Type) : Type := Mtar → Prog Op Op.Answer (Except MtarErr α × Mtar)

namespace Reader

variable {α β : Type}

/-- A program that returns a value at once. -/
protected def pure (a : α) : Reader α := fun tar => .done (.ok a, tar)

/-- `if (err) { return err; }` -/
protected def bind (m : Reader α) (f : α → Reader β) : Reader β := fun tar =>
  (m tar).bind fun r =>
    match r.1 with
    | .ok a => f a r.2
    | .error err => .done (.error err, r.2)

instance : Monad Reader where
  pure := Reader.pure
  bind := Reader.bind

/-- The state of the reader. -/
def get : Reader Mtar := fun tar => .done (.ok tar, tar)

/-- A change of the state of the reader. -/
def modify (f : Mtar → Mtar) : Reader Unit := fun tar => .done (.ok (), f tar)

/-- A result that is known, or its error. -/
def ofExcept (r : Except MtarErr α) : Reader α := fun tar => .done (r, tar)

/-- What a caller gets that looks at the status. -/
def status : Except MtarErr α → Except MtarErr (Except MtarErr α)
  | .ok a => .ok (.ok a)
  | .error err => if err = .overrun then .error .overrun else .ok (.error err)

/-- Goes on whatever the status is. -/
def attempt (m : Reader α) : Reader (Except MtarErr α) := fun tar =>
  (m tar).bind fun r => .done (status r.1, r.2)

/-- A reader on a stream, with the state of both. -/
def exec (d : Device Op Op.Answer ℕ) (m : Reader α) (s : Mtar × ℕ) :
    Except MtarErr α × Mtar × ℕ :=
  (((m s.1).run d s.2).1.1, ((m s.1).run d s.2).1.2, ((m s.1).run d s.2).2)

section Exec

variable {d : Device Op Op.Answer ℕ} {m : Reader α} {f : α → Reader β} {s s' : Mtar × ℕ}

@[simp] theorem exec_pure (a : α) : exec d (pure a) s = (.ok a, s) := rfl

@[simp] theorem exec_get : exec d get s = (.ok s.1, s) := rfl

@[simp] theorem exec_modify (f : Mtar → Mtar) : exec d (modify f) s = (.ok (), f s.1, s.2) := rfl

@[simp] theorem exec_ofExcept (r : Except MtarErr α) : exec d (ofExcept r) s = (r, s) := rfl

theorem exec_bind_ok {a : α} (h : exec d m s = (.ok a, s')) :
    exec d (m >>= f) s = exec d (f a) s' := by
  simp only [exec, Prod.mk.injEq] at h
  obtain ⟨hr, rfl⟩ := h
  change exec d (Reader.bind m f) s = _
  simp only [exec, Reader.bind, Prog.run_bind, hr]

theorem exec_bind_error {err : MtarErr} (h : exec d m s = (.error err, s')) :
    exec d (m >>= f) s = (.error err, s') := by
  simp only [exec, Prod.mk.injEq] at h
  obtain ⟨hr, rfl⟩ := h
  change exec d (Reader.bind m f) s = _
  simp only [exec, Reader.bind, Prog.run_bind, hr, Prog.run_done]

@[simp] theorem exec_attempt : exec d m.attempt s = (status (exec d m s).1, (exec d m s).2) := by
  simp only [exec, attempt, Prog.run_bind, Prog.run_done]

theorem status_eq_ok {r : Except MtarErr α} (hr : r ≠ .error .overrun) : status r = .ok r := by
  cases r with
  | ok a => rfl
  | error err =>
    refine if_neg ?_
    rintro rfl
    exact hr rfl

/-- A call that has a status is over, and the caller goes on. -/
theorem exec_attempt_bind {f : Except MtarErr α → Reader β} {r : Except MtarErr α}
    (h : exec d m s = (r, s')) (hr : r ≠ .error .overrun) :
    exec d (m.attempt >>= f) s = exec d (f r) s' := by
  refine exec_bind_ok (exec_attempt.trans ?_)
  rw [h, status_eq_ok hr]

/-- Where a call leaves the header, so does its caller. -/
theorem exec_attempt_overrun {f : Except MtarErr α → Reader β}
    (h : exec d m s = (.error .overrun, s')) :
    exec d (m.attempt >>= f) s = (.error .overrun, s') := by
  refine exec_bind_error (exec_attempt.trans ?_)
  rw [h]
  rfl

end Exec

end Reader

open Reader

/-- `tread`: the position moves on, also if the stream fails. -/
def tread (size : BitVec 32) : Reader Bytes := fun tar =>
  .ask (.read size) fun data => .done
    (match data with
      | some data => .ok data
      | none => .error .readFail, { tar with pos := tar.pos + size })

/-- `mread` gives a pointer into the archive where `tread` copies. -/
def mread (size : BitVec 32) : Reader Bytes := tread size

/-- `mtar_seek`: the position is set, also if the stream fails. -/
def mtarSeek (pos : BitVec 32) : Reader Unit := fun tar =>
  .ask (.seek pos) fun ok => .done
    (if ok then .ok () else .error .seekFail, { tar with pos := pos })

/-- `mtar_rewind` -/
def mtarRewind : Reader Unit := do
  modify fun tar => { tar with remainingData := 0, lastHeader := 0 }
  mtarSeek 0

section Functions

-- what the unset variables hold at the header at an offset
variable (unset : BitVec 32 → Unset)

/-- `mtar_read_header`: the record is read, and the stream is set back to it. -/
def mtarReadHeader : Reader MtarHeader := do
  modify fun tar => { tar with lastHeader := tar.pos }
  let rh ← tread 512
  let tar ← get
  mtarSeek tar.lastHeader
  ofExcept (rawToHeader (unset tar.lastHeader) rh)

/-- `mtar_next`: behind the record and its data. -/
def mtarNext : Reader Unit := do
  let h ← mtarReadHeader unset
  let tar ← get
  mtarSeek (tar.pos + (roundUp h.size 512 + 512))

/-- The loop of `mtar_find`; `none` after `fuel` headers. -/
def findLoop (name : Bytes) : ℕ → Reader (Option MtarHeader)
  | 0 => pure none
  | fuel + 1 => do
    let header ← mtarReadHeader unset
    if header.name = name then pure (some header)
    else do
      let _ ← (mtarNext unset).attempt
      findLoop name fuel

/-- `mtar_find`: from the start of the archive. -/
def mtarFind (fuel : ℕ) (name : Bytes) : Reader (Option MtarHeader) := do
  mtarRewind
  let found ← (findLoop unset (cString name) fuel).attempt
  ofExcept (found.mapError fun err => if err = .nullRecord then .notFound else err)

/-- The first read of the data of a file goes behind its header. -/
def startData : Reader Unit := do
  let tar ← get
  if tar.remainingData = 0 then do
    let h ← mtarReadHeader unset
    let tar ← get
    mtarSeek (tar.pos + 512)
    modify fun tar => { tar with remainingData := h.size }
  else pure ()

/-- The last read goes back to the header. -/
def finishData : Reader Unit := do
  let tar ← get
  if tar.remainingData = 0 then mtarSeek tar.lastHeader else pure ()

/-- The bytes, as soon as they are read, and the status of what follows. -/
def readDataWith (read : BitVec 32 → Reader Bytes) (size : BitVec 32) :
    Reader (Bytes × Except MtarErr Unit) := do
  startData unset
  let data ← read size
  modify fun tar => { tar with remainingData := tar.remainingData - size }
  let status ← finishData.attempt
  pure (data, status)

/-- `mtar_read_data` -/
def mtarReadData : BitVec 32 → Reader (Bytes × Except MtarErr Unit) := readDataWith unset tread

/-- `mtar_mem_read_data` -/
def mtarMemReadData : BitVec 32 → Reader (Bytes × Except MtarErr Unit) := readDataWith unset mread

/-- A name whose last dot starts the suffix; `none` takes every name. -/
def hasSuffix (suffix : Option Bytes) (name : Bytes) : Bool :=
  match suffix with
  | none => true
  | some suffix =>
    name.contains 46 && (46 :: (name.reverse.takeWhile (· ≠ 46)).reverse) = cString suffix

/-- The loop of `mtar_get_filtered_filenames`, with the names that it has pushed and the status that
ends it; `none` after `fuel` headers. -/
def filenamesLoop (suffix : Option Bytes) : ℕ → List Bytes → Reader (Option (List Bytes × MtarErr))
  | 0, _ => pure none
  | fuel + 1, names => do
    let header ← (mtarReadHeader unset).attempt
    match header with
    | .error err => pure (some (names, err))
    | .ok header => do
      let _ ← (mtarNext unset).attempt
      filenamesLoop suffix fuel
        (if hasSuffix suffix header.name then names ++ [header.name] else names)

/-- The list, and whether it is freed because of an error. -/
def mtarGetFilteredFilenames (fuel : ℕ) (suffix : Option Bytes) :
    Reader (Option (List Bytes × Except MtarErr Unit)) := do
  let _ ← mtarRewind.attempt
  let names ← filenamesLoop unset suffix fuel []
  pure (names.map fun r => (r.1, if r.2 = .nullRecord then .ok () else .error r.2))

end Functions

/-- `mtar_open` and `mtar_mem_open` begin with this reader, and with a look at the first header. -/
def Mtar.opened : Mtar := ⟨0, 0, 0⟩

end Microtar

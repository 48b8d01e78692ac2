/-
The same archive in memory and in a file.

In memory a read must end before the last byte, in a file it may end there; in memory a seek behind
the end fails, in a file it does not; and a read that fails leaves the position of the memory where
it was, and takes that of the file to the end.

* `Meets` — the reads and seeks that end alike; `meets_iff` — and no others do;
* `openAndCall` — a reader that is opened, and any calls;
* `openAndCall_eq` — calls whose reads and seeks all end alike give the same in memory and in a
  file.
-/
import HandTracking.Microtar

namespace Microtar

open Reader

/-! ### Reads and seeks -/

/-- Where the stream of the memory and the position in the file are: together, or the file at its
end after a read that failed. -/
def Beside (len stream position : ℕ) : Prop :=
  stream ≤ len ∧ (stream = position ∨ stream < len ∧ position = len)

/-- A read that does not end with the last byte, or a seek that does not go behind it.  After a
failed read, also a read that fails again. -/
def Meets (len stream position : ℕ) : Op → Prop
  | .read size =>
    if stream = position then stream + size.toNat ≠ len
    else size.toNat = 0 ∨ len ≤ stream + size.toNat
  | .seek offset => offset.toNat ≤ len

instance (len stream position : ℕ) : (q : Op) → Decidable (Meets len stream position q)
  | .read _ => inferInstanceAs (Decidable (ite _ _ _))
  | .seek _ => inferInstanceAs (Decidable (_ ≤ _))

section Streams

variable {mem : Bytes} {stream position : ℕ}

theorem memStream_read (mem : Bytes) (stream : ℕ) (size : BitVec 32) :
    memStream mem stream (.read size) =
      if stream + size.toNat < mem.length then
        (some ((mem.drop stream).take size.toNat), stream + size.toNat)
      else (none, stream) := rfl

theorem fileStream_read (file : Bytes) (position : ℕ) (size : BitVec 32) :
    fileStream file position (.read size) =
      (if min size.toNat (file.length - position) = size.toNat then
        some ((file.drop position).take size.toNat) else none,
        position + min size.toNat (file.length - position)) := rfl

theorem memStream_seek (mem : Bytes) (stream : ℕ) (offset : BitVec 32) :
    memStream mem stream (.seek offset) =
      if offset.toNat ≤ mem.length then (true, offset.toNat) else (false, stream) := rfl

theorem fileStream_seek (file : Bytes) (position : ℕ) (offset : BitVec 32) :
    fileStream file position (.seek offset) = (true, offset.toNat) := rfl

/-- The memory and the file answer alike exactly under the condition. -/
theorem meets_iff (h : Beside mem.length stream position) (q : Op) :
    Meets mem.length stream position q ↔
      (memStream mem stream q).1 = (fileStream mem position q).1 := by
  obtain ⟨hlen, hpos⟩ := h
  cases q with
  | seek offset =>
    rw [memStream_seek, fileStream_seek]
    by_cases ho : offset.toNat ≤ mem.length <;> simp [Meets, ho]
  | read size =>
    rw [memStream_read, fileStream_read]
    simp only [Meets]
    obtain rfl | ⟨hlt, rfl⟩ := hpos
    · rw [if_pos rfl]
      by_cases hend : stream + size.toNat < mem.length
      · have hmin : min size.toNat (mem.length - stream) = size.toNat := by omega
        rw [if_pos hend, if_pos hmin]
        exact iff_of_true (by omega) rfl
      · by_cases heq : stream + size.toNat = mem.length
        · have hmin : min size.toNat (mem.length - stream) = size.toNat := by omega
          rw [if_neg hend, if_pos hmin]
          exact iff_of_false (by omega) (by simp)
        · have hmin : min size.toNat (mem.length - stream) ≠ size.toNat := by omega
          rw [if_neg hend, if_neg hmin]
          exact iff_of_true heq rfl
    · -- the file is at its end: there only the empty read succeeds
      rw [if_neg (by omega), Nat.sub_self, Nat.min_zero]
      by_cases hzero : size.toNat = 0
      · rw [if_pos (by omega), if_pos hzero.symm, hzero]
        exact iff_of_true (.inl rfl) (by simp)
      · rw [if_neg (Ne.symm hzero)]
        by_cases hend : stream + size.toNat < mem.length
        · rw [if_pos hend]
          exact iff_of_false (by omega) (by simp)
        · rw [if_neg hend]
          exact iff_of_true (.inr (by omega)) rfl

theorem beside_of_meets (h : Beside mem.length stream position) {q : Op}
    (hq : Meets mem.length stream position q) :
    Beside mem.length (memStream mem stream q).2 (fileStream mem position q).2 := by
  obtain ⟨hlen, hpos⟩ := h
  cases q with
  | seek offset =>
    have ho : offset.toNat ≤ mem.length := hq
    rw [memStream_seek, fileStream_seek, if_pos ho]
    exact ⟨ho, .inl rfl⟩
  | read size =>
    rw [memStream_read, fileStream_read]
    simp only [Meets] at hq
    unfold Beside
    obtain rfl | ⟨hlt, rfl⟩ := hpos
    · rw [if_pos rfl] at hq
      split <;> dsimp only <;> omega
    · rw [if_neg (by omega)] at hq
      split <;> dsimp only <;> omega

theorem agree_streams (mem : Bytes) :
    Prog.Agree (Beside mem.length) (Meets mem.length) (memStream mem) (fileStream mem) :=
  fun _ _ q h hq => ⟨(meets_iff h q).mp hq, beside_of_meets h hq⟩

/-- A program keeps to the condition exactly if the memory and the file answer alike to its end. -/
theorem within_meets_iff {α : Type} (p : Prog Op Op.Answer α)
    (h : Beside mem.length stream position) :
    p.Within (Meets mem.length) (memStream mem) (fileStream mem) stream position ↔
      p.Within (fun stream position q =>
          (memStream mem stream q).1 = (fileStream mem position q).1)
        (memStream mem) (fileStream mem) stream position :=
  Prog.within_congr (agree_streams mem) (fun _ _ q h => meets_iff h q) h

end Streams

/-! ### Calls -/

/-- A call of the reader. -/
inductive Call where
  | readHeader
  | next
  | find (name : Bytes)
  | readData (size : BitVec 32)
  | rewind

/-- What a call gives when it succeeds. -/
inductive Output where
  | nothing
  | header (h : MtarHeader)
  | data (bytes : Bytes) (status : Except MtarErr Unit)
  /-- The search has not ended yet. -/
  | searching
  deriving DecidableEq

section Calls

variable (unset : BitVec 32 → Unset) (fuel : ℕ)

/-- The code of a call. -/
def Call.exec : Call → Reader Output
  | readHeader => do
    let h ← mtarReadHeader unset
    pure (.header h)
  | next => do
    mtarNext unset
    pure .nothing
  | find name => do
    let found ← mtarFind unset fuel name
    pure (found.elim .searching .header)
  | readData size => do
    let r ← mtarReadData unset size
    pure (.data r.1 r.2)
  | rewind => do
    mtarRewind
    pure .nothing

/-- What each of the calls gives. -/
def callAll : List Call → Reader (List (Except MtarErr Output))
  | [] => pure []
  | call :: calls => do
    let output ← (call.exec unset fuel).attempt
    let outputs ← callAll calls
    pure (output :: outputs)

/-- `mtar_open` or `mtar_mem_open`, and then the calls. -/
def openAndCall (calls : List Call) : Reader (List (Except MtarErr Output)) := do
  let _ ← mtarReadHeader unset
  callAll unset fuel calls

/-- All reads and seeks of the calls end alike in memory and in the file. -/
def CallsMeet (mem : Bytes) (calls : List Call) : Prop :=
  (openAndCall unset fuel calls Mtar.opened).Within (Meets mem.length) (memStream mem)
    (fileStream mem) 0 0

instance (mem : Bytes) (calls : List Call) : Decidable (CallsMeet unset fuel mem calls) :=
  inferInstanceAs (Decidable (Prog.Within _ _ _ _ _ _))

/-- Opened on the bytes and on a file with them, the reader gives the same statuses, headers and
data, and is in the same state after. -/
theorem openAndCall_eq (mem : Bytes) (calls : List Call) (h : CallsMeet unset fuel mem calls) :
    let inMemory := exec (memStream mem) (openAndCall unset fuel calls) (Mtar.opened, 0)
    let inFile := exec (fileStream mem) (openAndCall unset fuel calls) (Mtar.opened, 0)
    inMemory.1 = inFile.1 ∧ inMemory.2.1 = inFile.2.1 := by
  have hrun := (Prog.run_of_within (agree_streams mem) ⟨Nat.zero_le _, .inl rfl⟩ h).1
  exact Prod.ext_iff.mp hrun

end Calls

/-- A file of two bytes, and the end of the archive. -/
def smallArchive : Bytes :=
  headerToRaw (regular [97] 2) ++ [1, 2] ++ List.replicate 1534 0

theorem openAndCall_eq_smallArchive :
    let calls := [.readHeader, .find [97], .readData 2, .next, .readHeader]
    let inMemory := exec (memStream smallArchive) (openAndCall zeros 2 calls) (Mtar.opened, 0)
    let inFile := exec (fileStream smallArchive) (openAndCall zeros 2 calls) (Mtar.opened, 0)
    inMemory.1 = inFile.1 ∧ inMemory.2.1 = inFile.2.1 :=
  openAndCall_eq zeros 2 smallArchive _ (by decide +kernel)

/-- An archive that ends with a header cannot be opened in memory. -/
theorem not_openAndCall_eq_of_last :
    let mem := headerToRaw (regular [97] 0)
    (exec (memStream mem) (openAndCall zeros 1 [.readHeader]) (Mtar.opened, 0)).1 =
        .error .readFail ∧
      (exec (fileStream mem) (openAndCall zeros 1 [.readHeader]) (Mtar.opened, 0)).1 =
        .ok [.ok (.header (regular [97] 0))] := by
  decide +kernel

end Microtar

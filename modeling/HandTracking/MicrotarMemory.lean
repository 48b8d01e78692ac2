/-
The reader on an archive in memory.

The loops of the reader start at the first header and go from one header to the next, whether the
step to it succeeds or not.  So they depend only on the bytes and on the position: behind the end of
the archive there is no header, since the step to it has failed.

* `Archive.headerAt`, `Archive.following` — the header at a position and the position after it;
* `Archive.At` — the reader stands at a position;
* `exec_readHeader`, `exec_next` — the reader gets this header, and goes to this position.
-/
import HandTracking.Microtar
import Mathlib.Tactic.Ring

namespace Microtar

open Reader

/-- The bytes of an archive in memory; their number is an `unsigned`. -/
structure Archive where
  bytes : Bytes
  length_lt : bytes.length < 2 ^ 32

namespace Archive

variable (arc : Archive) (unset : BitVec 32 → Unset)

/-- The length of the archive. -/
abbrev len : ℕ := arc.bytes.length

/-- The stream of the archive in memory. -/
abbrev stream : Device Op Op.Answer ℕ := memStream arc.bytes

/-- The bytes from a position on. -/
def slice (p size : ℕ) : Bytes := (arc.bytes.drop p).take size

/-- The header that is read at a position. -/
def headerAt (p : BitVec 32) : Except MtarErr MtarHeader :=
  if arc.len < p.toNat then .error .seekFail
  else if p.toNat + 512 < arc.len then rawToHeader (unset p) (arc.slice p.toNat 512)
  else .error .readFail

/-- Where `mtar_next` goes; the sum wraps around. -/
def following (p : BitVec 32) (h : MtarHeader) : BitVec 32 := p + (roundUp h.size 512 + 512)

/-- The reader is at the position, and so is the stream if the archive reaches that far; if not, the
stream is at a header before. -/
def At (p : BitVec 32) (s : Mtar × ℕ) : Prop :=
  s.1.pos = p ∧ if p.toNat ≤ arc.len then s.2 = p.toNat else s.2 + 512 < arc.len

variable {arc unset} {p : BitVec 32} {h : MtarHeader} {err : MtarErr} {s s' : Mtar × ℕ}

theorem headerAt_ok (hh : arc.headerAt unset p = .ok h) :
    p.toNat + 512 < arc.len ∧ rawToHeader (unset p) (arc.slice p.toNat 512) = .ok h := by
  unfold headerAt at hh
  split_ifs at hh with hlen hroom
  exact ⟨hroom, hh⟩

/-! ### Single steps -/

theorem exec_tread (size : BitVec 32) (s : Mtar × ℕ) :
    exec arc.stream (tread size) s =
      if s.2 + size.toNat < arc.len then
        (.ok (arc.slice s.2 size.toNat), { s.1 with pos := s.1.pos + size }, s.2 + size.toNat)
      else (.error .readFail, { s.1 with pos := s.1.pos + size }, s.2) := by
  simp only [exec, tread, Prog.run_ask, Prog.run_done, memStream]
  split_ifs <;> rfl

theorem exec_seek (pos : BitVec 32) (s : Mtar × ℕ) :
    exec arc.stream (mtarSeek pos) s =
      if pos.toNat ≤ arc.len then (.ok (), { s.1 with pos := pos }, pos.toNat)
      else (.error .seekFail, { s.1 with pos := pos }, s.2) := by
  by_cases hpos : pos.toNat ≤ arc.len
  · simp only [exec, mtarSeek, Prog.run_ask, Prog.run_done, memStream, if_pos hpos, if_true]
  · simp only [exec, mtarSeek, Prog.run_ask, Prog.run_done, memStream, if_neg hpos]
    rfl

theorem exec_rewind (s : Mtar × ℕ) : exec arc.stream mtarRewind s = (.ok (), ⟨0, 0, 0⟩, 0) := by
  have hzero : (0 : BitVec 32).toNat ≤ arc.len := Nat.zero_le _
  unfold mtarRewind
  rw [exec_bind_ok (exec_modify _), exec_seek, if_pos hzero]
  rfl

theorem at_rewind : arc.At 0 (⟨0, 0, 0⟩, 0) := by
  have hzero : (0 : BitVec 32).toNat ≤ arc.len := Nat.zero_le _
  refine ⟨rfl, ?_⟩
  rw [if_pos hzero]
  rfl

theorem exec_readHeader_inside (hs : arc.At p s) (hroom : p.toNat + 512 < arc.len) :
    exec arc.stream (mtarReadHeader unset) s =
      (rawToHeader (unset p) (arc.slice p.toNat 512), { s.1 with lastHeader := p }, p.toNat) := by
  obtain ⟨hpos, hstream⟩ := hs
  have hle : p.toNat ≤ arc.len := by omega
  rw [if_pos hle] at hstream
  have hread : exec arc.stream (tread 512) ({ s.1 with lastHeader := s.1.pos }, s.2) =
      (.ok (arc.slice p.toNat 512), { s.1 with lastHeader := p, pos := p + 512 },
        p.toNat + 512) := by
    rw [exec_tread, hstream, hpos]
    exact if_pos hroom
  have hseek : exec arc.stream (mtarSeek p)
      ({ s.1 with lastHeader := p, pos := p + 512 }, p.toNat + 512) =
        (.ok (), { s.1 with lastHeader := p }, p.toNat) := by
    rw [exec_seek, if_pos hle, ← hpos]
  unfold mtarReadHeader
  rw [exec_bind_ok (exec_modify _), exec_bind_ok hread, exec_bind_ok exec_get,
    exec_bind_ok hseek, exec_ofExcept]

/-- The reader is at the position, with the stream, and has kept it as that of the last header. -/
theorem exec_readHeader_ok (hs : arc.At p s) (hh : arc.headerAt unset p = .ok h) :
    exec arc.stream (mtarReadHeader unset) s = (.ok h, { s.1 with lastHeader := p }, p.toNat) := by
  obtain ⟨hroom, hraw⟩ := headerAt_ok hh
  rw [exec_readHeader_inside hs hroom, hraw]

theorem at_readHeader (hs : arc.At p s) (hh : arc.headerAt unset p = .ok h) :
    arc.At p ({ s.1 with lastHeader := p }, p.toNat) := by
  have hroom := (headerAt_ok hh).1
  exact ⟨hs.1, by rw [if_pos (by omega)]⟩

theorem exec_readHeader (hs : arc.At p s) :
    (exec arc.stream (mtarReadHeader unset) s).1 = arc.headerAt unset p := by
  unfold headerAt
  by_cases hroom : p.toNat + 512 < arc.len
  · rw [exec_readHeader_inside hs hroom, if_neg (by omega), if_pos hroom]
  obtain ⟨hpos, hstream⟩ := hs
  unfold mtarReadHeader
  rw [exec_bind_ok (exec_modify _)]
  by_cases hbehind : arc.len < p.toNat
  · -- the stream is still at a header, and the seek to the position fails
    rw [if_neg (by omega)] at hstream
    have hread : exec arc.stream (tread 512) ({ s.1 with lastHeader := s.1.pos }, s.2) =
        (.ok (arc.slice s.2 512), { s.1 with lastHeader := p, pos := p + 512 }, s.2 + 512) := by
      rw [exec_tread, hpos]
      exact if_pos hstream
    have hseek : exec arc.stream (mtarSeek p)
        ({ s.1 with lastHeader := p, pos := p + 512 }, s.2 + 512) =
          (.error .seekFail, { s.1 with lastHeader := p, pos := p }, s.2 + 512) := by
      rw [exec_seek, if_neg (by omega)]
    rw [exec_bind_ok hread, exec_bind_ok exec_get, exec_bind_error hseek, if_pos hbehind]
  · rw [if_pos (by omega)] at hstream
    have hread : exec arc.stream (tread 512) ({ s.1 with lastHeader := s.1.pos }, s.2) =
        (.error .readFail, { s.1 with lastHeader := p, pos := p + 512 }, p.toNat) := by
      rw [exec_tread, hstream, hpos]
      exact if_neg hroom
    rw [exec_bind_error hread, if_neg hbehind, if_neg hroom]

/-- From a header, also a seek that fails leaves the reader at the position. -/
theorem at_seek (pos : BitVec 32) (hs : s.2 + 512 < arc.len) :
    ∃ r s', exec arc.stream (mtarSeek pos) s = (r, s') ∧ r ≠ .error .overrun ∧
      s'.1 = { s.1 with pos := pos } ∧ arc.At pos s' := by
  rw [exec_seek]
  by_cases hle : pos.toNat ≤ arc.len
  · rw [if_pos hle]
    exact ⟨_, _, rfl, by simp, rfl, rfl, by rw [if_pos hle]⟩
  · rw [if_neg hle]
    exact ⟨_, _, rfl, by simp, rfl, rfl, by rw [if_neg hle]; exact hs⟩

/-- The step from a header, also when its seek fails. -/
theorem exec_next (hs : arc.At p s) (hh : arc.headerAt unset p = .ok h) :
    ∃ r s', exec arc.stream (mtarNext unset) s = (r, s') ∧ r ≠ .error .overrun ∧
      s'.1 = { s.1 with pos := following p h, lastHeader := p } ∧ arc.At (following p h) s' := by
  have hroom := (headerAt_ok hh).1
  unfold mtarNext
  rw [exec_bind_ok (exec_readHeader_ok hs hh), exec_bind_ok exec_get, hs.1]
  exact at_seek _ (s := ({ s.1 with lastHeader := p }, p.toNat)) hroom

end Archive

end Microtar

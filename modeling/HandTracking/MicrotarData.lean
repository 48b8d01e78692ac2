/-
The data of a file in an archive in memory.

* `findFrom` — the first header with a name, from a position on; `exec_mtarFind` — this is what
  `mtar_find` finds, and the reader stands there;
* `exec_mtarReadData` — the whole data of this file are read at once if they end before the last
  byte of the archive, and not at all otherwise.
-/
import HandTracking.MicrotarMemory

namespace Microtar

open Reader

namespace Archive

variable (arc : Archive) (unset : BitVec 32 → Unset)

/-- The header with the name and its position; `none` after `fuel` headers. -/
def findFrom (name : Bytes) : ℕ → BitVec 32 → Except MtarErr (Option (BitVec 32 × MtarHeader))
  | 0, _ => .ok none
  | fuel + 1, p =>
    match arc.headerAt unset p with
    | .error err => .error err
    | .ok h => if h.name = name then .ok (some (p, h)) else findFrom name fuel (following p h)

variable {arc unset} {name : Bytes} {fuel : ℕ} {p q : BitVec 32} {h : MtarHeader} {s : Mtar × ℕ}

/-! ### Finding a file -/

theorem exec_findLoop (hs : arc.At p s) :
    (exec arc.stream (findLoop unset name fuel) s).1 =
        (arc.findFrom unset name fuel p).map (Option.map Prod.snd) ∧
      ∀ q h, arc.findFrom unset name fuel p = .ok (some (q, h)) →
        (exec arc.stream (findLoop unset name fuel) s).2 =
          (⟨q, s.1.remainingData, q⟩, q.toNat) := by
  induction fuel generalizing p s with
  | zero => exact ⟨rfl, fun q h hfound => by cases hfound⟩
  | succ fuel ih =>
    unfold findLoop findFrom
    cases hh : arc.headerAt unset p with
    | error err =>
      have hread : (exec arc.stream (mtarReadHeader unset) s).1 = .error err :=
        (exec_readHeader hs).trans hh
      rw [exec_bind_error (Prod.ext hread rfl)]
      exact ⟨rfl, fun q h hfound => by cases hfound⟩
    | ok header =>
      rw [exec_bind_ok (exec_readHeader_ok hs hh)]
      by_cases hname : header.name = name
      · simp only [if_pos hname, exec_pure]
        refine ⟨rfl, fun q h hfound => ?_⟩
        cases hfound
        rw [← hs.1]
      · simp only [if_neg hname]
        obtain ⟨r, s', hnext, hr, htar, hat⟩ := exec_next (at_readHeader hs hh) hh
        rw [exec_attempt_bind hnext hr]
        obtain ⟨hres, hstate⟩ := ih hat
        refine ⟨hres, fun q h hfound => ?_⟩
        rw [hstate q h hfound, htar]

/-- The header has been read at the position. -/
theorem headerAt_of_findFrom (hfound : arc.findFrom unset name fuel p = .ok (some (q, h))) :
    arc.headerAt unset q = .ok h ∧ h.name = name := by
  induction fuel generalizing p with
  | zero => cases hfound
  | succ fuel ih =>
    unfold findFrom at hfound
    split at hfound
    next => cases hfound
    next header hh =>
      split_ifs at hfound with hname
      · cases hfound
        exact ⟨hh, hname⟩
      · exact ih hfound

/-- What `mtar_find` finds, whatever the reader did before. -/
theorem exec_mtarFind (s : Mtar × ℕ) :
    (exec arc.stream (mtarFind unset fuel name) s).1 =
      ((arc.findFrom unset (cString name) fuel 0).map (Option.map Prod.snd)).mapError fun err =>
        if err = .nullRecord then .notFound else err := by
  unfold mtarFind
  rw [exec_bind_ok (exec_rewind s), ← (exec_findLoop at_rewind).1]
  cases hloop : exec arc.stream (findLoop unset (cString name) fuel) (⟨0, 0, 0⟩, 0) with
  | mk r s' =>
    by_cases hr : r = .error .overrun
    · rw [hr] at hloop ⊢
      rw [exec_attempt_overrun hloop]
      rfl
    · rw [exec_attempt_bind hloop hr, exec_ofExcept]

/-- The reader stands at the header that it has found. -/
theorem exec_mtarFind_ok (hfound : arc.findFrom unset (cString name) fuel 0 = .ok (some (q, h))) :
    exec arc.stream (mtarFind unset fuel name) s = (.ok (some h), ⟨q, 0, q⟩, q.toNat) := by
  have hloop : exec arc.stream (findLoop unset (cString name) fuel) (⟨0, 0, 0⟩, 0) =
      (.ok (some h), ⟨q, 0, q⟩, q.toNat) := by
    refine Prod.ext ?_ ((exec_findLoop at_rewind).2 q h hfound)
    rw [(exec_findLoop at_rewind).1, hfound]
    rfl
  unfold mtarFind
  rw [exec_bind_ok (exec_rewind s), exec_attempt_bind hloop (by simp), exec_ofExcept]
  rfl

/-! ### Reading its data -/

theorem mtarMemReadData_eq (unset : BitVec 32 → Unset) :
    mtarMemReadData unset = mtarReadData unset := rfl

/-- The data of a file that is read where its header has been found. -/
theorem exec_mtarReadData (hh : arc.headerAt unset p = .ok h) :
    (exec arc.stream (mtarReadData unset h.size) (⟨p, 0, p⟩, p.toNat)).1 =
      if p.toNat + 512 + h.size.toNat < arc.len then
        .ok (arc.slice (p.toNat + 512) h.size.toNat, .ok ())
      else .error .readFail := by
  have hroom := (headerAt_ok hh).1
  have hlen : arc.len < 2 ^ 32 := arc.length_lt
  have hdata : (p + 512).toNat = p.toNat + 512 := by
    have h512 : (512 : BitVec 32).toNat = 512 := rfl
    rw [BitVec.toNat_add, h512]
    exact Nat.mod_eq_of_lt (by omega)
  have hat : arc.At p (⟨p, 0, p⟩, p.toNat) := ⟨rfl, by rw [if_pos (by omega)]⟩
  have hstart : exec arc.stream (startData unset) (⟨p, 0, p⟩, p.toNat) =
      (.ok (), ⟨p + 512, h.size, p⟩, p.toNat + 512) := by
    unfold startData
    rw [exec_bind_ok exec_get, if_pos rfl, exec_bind_ok (exec_readHeader_ok hat hh),
      exec_bind_ok exec_get, exec_bind_ok ((exec_seek _ _).trans (if_pos (by rw [hdata]; omega))),
      exec_modify, hdata]
  unfold mtarReadData readDataWith
  rw [exec_bind_ok hstart]
  by_cases hend : p.toNat + 512 + h.size.toNat < arc.len
  · have hfinish : (exec arc.stream finishData
        (⟨p + 512 + h.size, h.size - h.size, p⟩, p.toNat + 512 + h.size.toNat)).1 = .ok () := by
      unfold finishData
      have hdone : h.size - h.size = 0 := BitVec.sub_self _
      rw [exec_bind_ok exec_get, hdone]
      dsimp only
      rw [if_pos (by rfl), exec_seek, if_pos (by omega)]
    rw [exec_bind_ok ((exec_tread _ _).trans (if_pos hend)), exec_bind_ok (exec_modify _),
      exec_attempt_bind (Prod.ext hfinish rfl) (by simp), exec_pure, if_pos hend]
  · rw [exec_bind_error ((exec_tread _ _).trans (if_neg hend)), if_neg hend]

end Archive

end Microtar

/-
`SharedQueue::wait_for_and_pop` and its time.

The loop of the call starts a new wait for as long as the queue is empty and open.  It does not look
at how the last wait has ended, so a wait that ran out of time is followed by the next one.

* `IdleTimeout` — a thread in a timed wait with nothing to pop;
* `queueStep_wake_of_idle` — whatever ends the wait, the thread waits again;
* `timedWait_returns_iff` — the runs in which no call waits beyond its time.
-/
import HandTracking.Library.Numerals
import HandTracking.SharedQueue
import Mathlib.Data.List.Induction

namespace Base

open Transition

variable {Tid T : Type} [DecidableEq Tid] {s : SharedQueue Tid T} {t : Tid}

/-- The thread is in a timed wait, with the queue empty and open. -/
structure SharedQueue.IdleTimeout (s : SharedQueue Tid T) (t : Tid) : Prop where
  waiting : s.thread t = .waiting true
  empty : s.queue = []
  running : s.runOut = false

/-- A wait that ends by time-out with the queue empty and open ends the call, which returns
false. -/
def ReturnsOnTimeout (s : SharedQueue Tid T) (a : QueueAction Tid T) : Prop :=
  ∀ t, a = .wake t .timedOut → s.IdleTimeout t →
    ∃ s', queueStep s a = some (s', [.noItem]) ∧ s'.thread t = .idle

/-- No wait ends by time-out with the queue empty and open. -/
def TimesOutWithItem (s : SharedQueue Tid T) (a : QueueAction Tid T) : Prop :=
  ∀ t, a = .wake t .timedOut → ¬s.IdleTimeout t

/-- The condition of the loop holds, and the thread stands where it stood. -/
theorem queueStep_wake_of_idle (h : s.IdleTimeout t) (cause : WakeCause) :
    queueStep s (.wake t cause) = some (s, []) := by
  have hloop : s.queue.isEmpty ∧ s.runOut = false := by
    rw [h.empty]
    exact ⟨rfl, h.running⟩
  have hstay : s.setThread t (.waiting true) = s := by
    rw [SharedQueue.setThread, ← h.waiting, Function.update_eq_self]
  simp only [queueStep, h.waiting]
  rw [if_neg fun hcause => Bool.noConfusion hcause.2, SharedQueue.waitPop, if_pos hloop, hstay]

theorem returnsOnTimeout_iff {a : QueueAction Tid T} :
    ReturnsOnTimeout s a ↔ TimesOutWithItem s a := by
  constructor
  · rintro h t rfl hidle
    obtain ⟨s', hs, -⟩ := h t rfl hidle
    rw [queueStep_wake_of_idle hidle] at hs
    cases hs
  · intro h t ha hidle
    exact absurd hidle (h t ha)

/-- Any sequence of wake-ups leaves the thread in its wait. -/
theorem run_wakes_of_idle (h : s.IdleTimeout t) (causes : List WakeCause) :
    Run queueStep (fun _ _ => True) s (causes.map (.wake t)) [] s := by
  induction causes using List.reverseRecOn with
  | nil => exact .nil
  | append_singleton causes cause ih =>
    rw [List.map_append]
    exact ih.snoc trivial (queueStep_wake_of_idle h cause)

variable (Tid T) in
/-- Every call returns when its time is up exactly in the runs in which no timed wait ends so with
the queue empty and open; where one does, it waits on through any number of wake-ups. -/
theorem timedWait_returns_iff :
    (∀ as es s, Run queueStep ReturnsOnTimeout (.initial : SharedQueue Tid T) as es s ↔
      Run queueStep TimesOutWithItem .initial as es s) ∧
    ∀ (s : SharedQueue Tid T) (t : Tid), s.IdleTimeout t → ∀ causes : List WakeCause,
      Run queueStep (fun _ _ => True) s (causes.map (.wake t)) [] s := by
  refine ⟨fun as es s => ⟨?_, ?_⟩, fun s t h causes => run_wakes_of_idle h causes⟩
  · exact Run.mono fun s a => returnsOnTimeout_iff.mp
  · exact Run.mono fun s a => returnsOnTimeout_iff.mpr

/-- One thread, waiting for an element. -/
def lonelyWait : SharedQueue (Fin 1) ℕ := ⟨[], false, fun _ => .waiting true, false⟩

theorem lonelyWait_idleTimeout : lonelyWait.IdleTimeout 0 := ⟨rfl, rfl, rfl⟩

theorem timedWait_returns_iff_lonely :
    Run queueStep (fun _ _ => True) lonelyWait
      ([.spurious, .timedOut, .timedOut].map (.wake 0)) [] lonelyWait :=
  (timedWait_returns_iff (Fin 1) ℕ).2 lonelyWait 0 lonelyWait_idleTimeout _

/-- The call of a thread that is alone does not return when its time is up. -/
theorem not_returnsOnTimeout :
    ¬ ∀ (as : List (QueueAction (Fin 1) ℕ)) (es : List (QueueEvent ℕ)) (s : SharedQueue (Fin 1) ℕ),
      QueueRun (Fin 1) ℕ as es s → ∀ a, ReturnsOnTimeout s a := by
  intro h
  have run : QueueRun (Fin 1) ℕ [.waitForAndPop 0] [] _ := Run.of_exec rfl
  exact returnsOnTimeout_iff.mp (h _ _ _ run (.wake 0 .timedOut)) 0 rfl ⟨rfl, rfl, rfl⟩

end Base

/-
The queue that threads share, one critical section at a time.

Every call holds the lock for its work, with two exceptions: `push` looks at the flag `m_run_out`
before it takes the lock, and `close` wakes the waiting threads after it has given the lock back.
So an element may enter after `close` has returned.

* `queueStep` — the steps of the threads;
* `left` — what left the queue, and how;
* `conserved_run` — what entered has left in the same order or is still there;
* `EntersInTime` — no element comes too late; with this, and only with this, the queue serves as it
  should (`served_iff_entersInTime`);
* `LocksInTime` — the same as a condition on the schedule: nobody shuts the queue while a `push` is
  between its look and its lock (`served_iff`).
-/
import HandTracking.Library.Schedule
import Mathlib.Data.Fintype.Basic
import Mathlib.Data.List.Basic
import Mathlib.Logic.Function.Basic

namespace Base

open Transition

/-- Where a thread is.  `pushing` has found the queue open and does not have the lock yet;
`closing` has set the flag and not returned. -/
inductive QueueThread (T : Type) where
  | idle
  | pushing (item : T)
  | waiting (timed : Bool)
  | closing

/-- The queue and its threads.  `shut` tells that a `close` has returned with the queue still closed
and that it has not been opened since; nothing in the code reads it. -/
structure SharedQueue (Tid T : Type) where
  queue : List T
  runOut : Bool
  thread : Tid → QueueThread T
  shut : Bool

/-- Why a wait ends. -/
inductive WakeCause where
  | notified
  | spurious
  | timedOut
  deriving DecidableEq, Repr

/-- The calls of the threads, and the steps in which they go on. -/
inductive QueueAction (Tid T : Type) where
  | openQueue (t : Tid)
  | close (t : Tid)
  | closeReturn (t : Tid)
  | push (t : Tid) (item : T)
  | enter (t : Tid)
  | tryAndPop (t : Tid)
  | waitAndPop (t : Tid)
  | waitForAndPop (t : Tid)
  | wake (t : Tid) (cause : WakeCause)
  | reset (t : Tid)
  deriving DecidableEq

/-- `entered` and `popped` tell whether the queue was shut and closed at that moment. -/
inductive QueueEvent (T : Type) where
  | entered (item : T) (shut : Bool)
  | popped (item : T) (closed : Bool)
  | noItem
  | cleared (items : List T)

section Code

variable {Tid T : Type} [DecidableEq Tid]

namespace SharedQueue

/-- A new queue, before `open`. -/
def initial : SharedQueue Tid T := ⟨[], false, fun _ => .idle, false⟩

/-- A thread goes on. -/
def setThread (s : SharedQueue Tid T) (t : Tid) (th : QueueThread T) : SharedQueue Tid T :=
  { s with thread := Function.update s.thread t th }

/-- The end of the three pops. -/
def pop (s : SharedQueue Tid T) : SharedQueue Tid T × List (QueueEvent T) :=
  match s.runOut, s.queue with
  | true, _ => (s, [.noItem])
  | false, [] => (s, [.noItem])
  | false, item :: rest => ({ s with queue := rest }, [.popped item s.runOut])

/-- The loop of the two pops that wait: its condition is looked at with the lock. -/
def waitPop (s : SharedQueue Tid T) (t : Tid) (timed : Bool) :
    SharedQueue Tid T × List (QueueEvent T) :=
  if s.queue.isEmpty ∧ s.runOut = false then (s.setThread t (.waiting timed), [])
  else (s.setThread t .idle).pop

end SharedQueue

/-- What a thread does that is not in a call. -/
def calling (s : SharedQueue Tid T) (t : Tid) (r : SharedQueue Tid T × List (QueueEvent T)) :
    Option (SharedQueue Tid T × List (QueueEvent T)) :=
  match s.thread t with
  | .idle => some r
  | _ => none

/-- One step of a thread. -/
def queueStep (s : SharedQueue Tid T) :
    QueueAction Tid T → Option (SharedQueue Tid T × List (QueueEvent T))
  | .openQueue t => calling s t ({ s with runOut := false, shut := false }, [])
  | .close t => calling s t ({ s with runOut := true }.setThread t .closing, [])
  | .closeReturn t =>
    match s.thread t with
    | .closing => some ({ s with shut := s.runOut }.setThread t .idle, [])
    | _ => none
  | .push t item => calling s t (if s.runOut then s else s.setThread t (.pushing item), [])
  | .enter t =>
    match s.thread t with
    | .pushing item =>
      some ({ s with queue := s.queue ++ [item] }.setThread t .idle, [.entered item s.shut])
    | _ => none
  | .tryAndPop t => calling s t s.pop
  | .waitAndPop t => calling s t (s.waitPop t false)
  | .waitForAndPop t => calling s t (s.waitPop t true)
  | .wake t cause =>
    match s.thread t with
    | .waiting timed =>
      -- only a wait for a time ends by itself
      if cause = .timedOut ∧ timed = false then none else some (s.waitPop t timed)
    | _ => none
  | .reset t => calling s t ({ s with queue := [] }, [.cleared s.queue])

/-- Any interleaving of any threads. -/
abbrev QueueRun (Tid T : Type) [DecidableEq Tid] :=
  Run queueStep (fun _ _ => True) (SharedQueue.initial : SharedQueue Tid T)

/-- No element enters between the return of `close` and the next `open`. -/
def EntersInTime (s : SharedQueue Tid T) : QueueAction Tid T → Prop
  | .enter _ => s.shut = false
  | _ => True

/-- The call is `open`. -/
def QueueAction.isOpen : QueueAction Tid T → Bool
  | .openQueue _ => true
  | _ => false

/-- A call of `push` by `t`, with its look at the flag. -/
def QueueAction.isPushOf (t : Tid) : QueueAction Tid T → Bool
  | .push t' _ => t' = t
  | _ => false

/-- The actions since the queue was last opened; `w` has the newest first. -/
def sinceOpen (w : List (QueueAction Tid T)) : List (QueueAction Tid T) :=
  w.takeWhile fun a => !a.isOpen

/-- In the actions `w` a `close` sets the flag, after that a `close` returns, and then nobody opens
the queue. -/
def ShutIn (w : List (QueueAction Tid T)) : Prop :=
  ∃ t t', [.closeReturn t, .close t'].Sublist (sinceOpen w)

/-- Nobody shuts the queue between the look of a `push` at the flag and its lock. -/
def LocksInTime (as : List (QueueAction Tid T)) : QueueAction Tid T → Prop
  | .enter t => ¬ShutIn (since (QueueAction.isPushOf t) as)
  | _ => True

section Decide

variable [Fintype Tid] [DecidableEq T]

instance (w : List (QueueAction Tid T)) : Decidable (ShutIn w) :=
  inferInstanceAs (Decidable (∃ t t', [QueueAction.closeReturn t, .close t'].Sublist (sinceOpen w)))

instance (as : List (QueueAction Tid T)) : DecidablePred (LocksInTime as)
  | .enter t => inferInstanceAs (Decidable (¬ShutIn (since (QueueAction.isPushOf t) as)))
  | .openQueue _ | .close _ | .closeReturn _ | .push _ _ | .tryAndPop _ | .waitAndPop _
  | .waitForAndPop _ | .wake _ _ | .reset _ => isTrue trivial

end Decide

end Code

/-! ### What happened in a run -/

section Trace

variable {T : Type}

/-- How an element leaves. -/
inductive Leave where
  | byPop
  | byReset
  deriving DecidableEq, Repr

/-- The item that enters the queue. -/
def QueueEvent.enters : QueueEvent T → List T
  | .entered item _ => [item]
  | _ => []

/-- The items that leave it, and how. -/
def QueueEvent.leaves : QueueEvent T → List (T × Leave)
  | .popped item _ => [(item, .byPop)]
  | .cleared items => items.map (·, .byReset)
  | _ => []

/-- The item that is popped. -/
def QueueEvent.pops : QueueEvent T → List T
  | .popped item _ => [item]
  | _ => []

/-- What entered the queue, in that order. -/
def entered (es : List (QueueEvent T)) : List T := es.flatMap QueueEvent.enters

/-- What left it, in that order. -/
def left (es : List (QueueEvent T)) : List (T × Leave) := es.flatMap QueueEvent.leaves

/-- What was popped, in that order. -/
def popped (es : List (QueueEvent T)) : List T := es.flatMap QueueEvent.pops

/-- Pops are the only other way out beside `reset`. -/
theorem popped_eq (es : List (QueueEvent T)) :
    popped es = ((left es).filter (·.2 = .byPop)).map Prod.fst := by
  unfold popped left
  induction es with
  | nil => rfl
  | cons e es ih =>
    rw [List.flatMap_cons, List.flatMap_cons, List.filter_append, List.map_append, ih]
    congr 1
    cases e with
    | entered item shut => rfl
    | popped item closed => rfl
    | noItem => rfl
    | cleared items => simp [QueueEvent.pops, QueueEvent.leaves]

/-- What is wanted of a run, after which `queue` is left. -/
structure Served (es : List (QueueEvent T)) (queue : List T) : Prop where
  fifo : (popped es).Sublist (entered es)
  conserved : entered es = (left es).map Prod.fst ++ queue
  open_ : ∀ item, QueueEvent.popped item true ∉ es
  inTime : ∀ item, QueueEvent.entered item true ∉ es

end Trace

/-! ### One step -/

section Step

variable {Tid T : Type} {s s' : SharedQueue Tid T} {es : List (QueueEvent T)}

theorem of_calling {t : Tid} {r : SharedQueue Tid T × List (QueueEvent T)}
    (h : calling s t r = some (s', es)) : r = (s', es) := by
  unfold calling at h
  split at h
  · exact Option.some.inj h
  · cases h

/-- A step with the events `es` neither loses nor repeats an element, and pops only while the
queue is open. -/
structure Moves (s s' : SharedQueue Tid T) (es : List (QueueEvent T)) : Prop where
  conserved : s.queue ++ entered es = (left es).map Prod.fst ++ s'.queue
  open_ : ∀ item, QueueEvent.popped item true ∉ es

theorem moves_of_queue_eq (h : s'.queue = s.queue) : Moves s s' [] :=
  ⟨by rw [h]; simp [entered, left], by simp⟩

theorem moves_pop (s : SharedQueue Tid T) : Moves s s.pop.1 s.pop.2 := by
  unfold SharedQueue.pop
  split
  · exact ⟨by simp [entered, left, QueueEvent.enters, QueueEvent.leaves], by simp⟩
  · exact ⟨by simp [entered, left, QueueEvent.enters, QueueEvent.leaves], by simp⟩
  · next hopen hqueue =>
    refine ⟨?_, by simp [hopen]⟩
    rw [hqueue]
    simp [entered, left, QueueEvent.enters, QueueEvent.leaves]

theorem entered_not_mem_pop (item : T) (shut : Bool) :
    QueueEvent.entered item shut ∉ s.pop.2 := by
  unfold SharedQueue.pop
  split <;> simp

variable [DecidableEq Tid] {a : QueueAction Tid T}

theorem moves_waitPop {t : Tid} {timed : Bool} (h : s.waitPop t timed = (s', es)) :
    Moves s s' es := by
  unfold SharedQueue.waitPop at h
  split at h
  · cases h
    exact moves_of_queue_eq rfl
  · have hpop := moves_pop (s.setThread t .idle)
    rw [h] at hpop
    exact ⟨hpop.conserved, hpop.open_⟩

theorem moves_step (hs : queueStep s a = some (s', es)) : Moves s s' es := by
  cases a with
  | openQueue t | close t =>
    cases of_calling hs
    exact moves_of_queue_eq rfl
  | closeReturn t =>
    simp only [queueStep] at hs
    split at hs
    · cases hs
      exact moves_of_queue_eq rfl
    · cases hs
  | push t item =>
    cases of_calling hs
    refine moves_of_queue_eq ?_
    split
    · rfl
    · rfl
  | enter t =>
    simp only [queueStep] at hs
    split at hs
    · cases hs
      exact ⟨rfl, by simp⟩
    · cases hs
  | tryAndPop t =>
    have hpop := moves_pop s
    rwa [of_calling hs] at hpop
  | waitAndPop t | waitForAndPop t => exact moves_waitPop (of_calling hs)
  | wake t cause =>
    simp only [queueStep] at hs
    split at hs
    · split at hs
      · cases hs
      · exact moves_waitPop (Option.some.inj hs)
    · cases hs
  | reset t =>
    cases of_calling hs
    refine ⟨?_, by simp⟩
    simp [entered, left, QueueEvent.enters, QueueEvent.leaves, Function.comp_def]

theorem entered_not_mem_waitPop {t : Tid} {timed : Bool} (h : s.waitPop t timed = (s', es))
    (item : T) (shut : Bool) : QueueEvent.entered item shut ∉ es := by
  unfold SharedQueue.waitPop at h
  split at h
  · cases h
    exact List.not_mem_nil
  · have hpop := entered_not_mem_pop (s := s.setThread t .idle) item shut
    rwa [h] at hpop

/-- Only an element that enters while the queue is shut comes too late. -/
theorem entersInTime_iff (hs : queueStep s a = some (s', es)) :
    EntersInTime s a ↔ ∀ e ∈ es, ¬∃ item, e = .entered item true := by
  have none_enters (h : ∀ item, QueueEvent.entered item true ∉ es) :
      ∀ e ∈ es, ¬∃ item, e = .entered item true := by
    rintro e he ⟨item, rfl⟩
    exact h item he
  cases a with
  | openQueue t | close t | push t item =>
    cases of_calling hs
    simp [EntersInTime]
  | closeReturn t =>
    simp only [queueStep] at hs
    split at hs
    · cases hs
      simp [EntersInTime]
    · cases hs
  | enter t =>
    simp only [queueStep] at hs
    split at hs
    · cases hs
      simp [EntersInTime]
    · cases hs
  | tryAndPop t =>
    have hpop := fun item => entered_not_mem_pop (s := s) item true
    rw [of_calling hs] at hpop
    exact iff_of_true trivial (none_enters hpop)
  | waitAndPop t | waitForAndPop t =>
    exact iff_of_true trivial
      (none_enters fun item => entered_not_mem_waitPop (of_calling hs) item true)
  | wake t cause =>
    simp only [queueStep] at hs
    split at hs
    · split at hs
      · cases hs
      · exact iff_of_true trivial
          (none_enters fun item => entered_not_mem_waitPop (Option.some.inj hs) item true)
    · cases hs
  | reset t =>
    cases of_calling hs
    simp [EntersInTime]

end Step

/-! ### The schedule -/

section Schedule

variable {Tid T : Type} {s s' : SharedQueue Tid T} {w : List (QueueAction Tid T)}
  {es : List (QueueEvent T)}

theorem pop_flags (s : SharedQueue Tid T) :
    s.pop.1.runOut = s.runOut ∧ s.pop.1.shut = s.shut ∧ s.pop.1.thread = s.thread := by
  unfold SharedQueue.pop
  split <;> exact ⟨rfl, rfl, rfl⟩

/-- The flag, and whether the queue is shut, after an action. -/
def QueueAction.flags (runOut shut : Bool) : QueueAction Tid T → Bool × Bool
  | .openQueue _ => (false, false)
  | .close _ => (true, shut)
  | .closeReturn _ => (runOut, runOut)
  | _ => (runOut, shut)

variable [DecidableEq Tid] {t : Tid} {a : QueueAction Tid T} {item : T}

theorem waitPop_flags {timed : Bool} (h : s.waitPop t timed = (s', es)) :
    (s'.runOut, s'.shut) = (s.runOut, s.shut) := by
  unfold SharedQueue.waitPop at h
  split at h
  · cases h
    rfl
  · obtain ⟨hrun, hshut, _⟩ := pop_flags (s.setThread t .idle)
    rw [h] at hrun hshut
    exact Prod.ext hrun hshut

theorem flags_step (hs : queueStep s a = some (s', es)) :
    (s'.runOut, s'.shut) = a.flags s.runOut s.shut := by
  cases a with
  | openQueue t | close t | reset t =>
    cases of_calling hs
    rfl
  | push t item =>
    cases of_calling hs
    split <;> rfl
  | closeReturn t | enter t =>
    simp only [queueStep] at hs
    split at hs
    · cases hs
      rfl
    · cases hs
  | tryAndPop t =>
    obtain ⟨hrun, hshut, _⟩ := pop_flags s
    rw [of_calling hs] at hrun hshut
    exact Prod.ext hrun hshut
  | waitAndPop t | waitForAndPop t => exact waitPop_flags (of_calling hs)
  | wake t cause =>
    simp only [queueStep] at hs
    split at hs
    · split at hs
      · cases hs
      · exact waitPop_flags (Option.some.inj hs)
    · cases hs

/-- A shut queue is closed. -/
theorem runOut_of_shut_step (h : s.shut = true → s.runOut = true)
    (hs : queueStep s a = some (s', es)) (hshut : s'.shut = true) : s'.runOut = true := by
  have hflags := flags_step hs
  cases a <;> simp_all [QueueAction.flags]

/-- What the actions `w` since some moment with an open queue have made of the two flags. -/
structure Looked (w : List (QueueAction Tid T)) (s : SharedQueue Tid T) : Prop where
  runOut : s.runOut = true ↔ ∃ t, .close t ∈ sinceOpen w
  shut : s.shut = true ↔ ShutIn w

omit [DecidableEq Tid] in
theorem sinceOpen_cons (h : a.isOpen = false) : sinceOpen (a :: w) = a :: sinceOpen w :=
  List.takeWhile_cons_of_pos (by simp [h])

omit [DecidableEq Tid] in
theorem shutIn_cons (h : a.isOpen = false) :
    ShutIn (a :: w) ↔ ShutIn w ∨ (∃ t, a = .closeReturn t) ∧ ∃ t, .close t ∈ sinceOpen w := by
  unfold ShutIn
  simp only [sinceOpen_cons h, List.cons_sublist_cons', List.singleton_sublist]
  constructor
  · rintro ⟨t, t', hw | ⟨rfl, hw⟩⟩
    · exact .inl ⟨t, t', hw⟩
    · exact .inr ⟨⟨t, rfl⟩, t', hw⟩
  · rintro (⟨t, t', hw⟩ | ⟨⟨t, rfl⟩, t', hw⟩)
    · exact ⟨t, t', .inl hw⟩
    · exact ⟨t, t', .inr ⟨rfl, hw⟩⟩

omit [DecidableEq Tid] in
/-- An action that neither opens nor closes the queue. -/
theorem Looked.step_other (h : Looked w s) (hopen : a.isOpen = false)
    (hclose : ∀ t, a ≠ .close t) (hreturn : ∀ t, a ≠ .closeReturn t)
    (hflags : (s'.runOut, s'.shut) = (s.runOut, s.shut)) : Looked (a :: w) s' := by
  obtain ⟨hrun, hshut⟩ := Prod.mk.inj hflags
  refine ⟨?_, ?_⟩
  · rw [hrun, h.runOut, sinceOpen_cons hopen]
    refine exists_congr fun t => ?_
    rw [List.mem_cons, or_iff_right (hclose t).symm]
  · rw [hshut, h.shut, shutIn_cons hopen, or_iff_left]
    rintro ⟨⟨t, ht⟩, _⟩
    exact hreturn t ht

theorem Looked.step (h : Looked w s) (hs : queueStep s a = some (s', es)) :
    Looked (a :: w) s' := by
  have hflags := flags_step hs
  obtain ⟨hrun, hshut⟩ := Prod.mk.inj hflags
  cases a with
  | openQueue t =>
    have hnil : sinceOpen (.openQueue t :: w) = [] := List.takeWhile_cons_of_neg Bool.false_ne_true
    exact ⟨by simp [hrun, hnil], by simp [hshut, ShutIn, hnil]⟩
  | close t =>
    refine ⟨?_, ?_⟩
    · rw [sinceOpen_cons rfl]
      exact iff_of_true hrun ⟨t, List.mem_cons_self⟩
    · rw [hshut, h.shut, shutIn_cons rfl, or_iff_left (by simp)]
  | closeReturn t =>
    refine ⟨?_, ?_⟩
    · rw [hrun, h.runOut, sinceOpen_cons rfl]
      simp
    · -- who returns from `close` finds the flag as the actions have left it
      rw [hshut, h.runOut, shutIn_cons rfl, or_iff_right_of_imp]
      · simp
      · rintro ⟨t, t', hw⟩
        exact ⟨⟨_, rfl⟩, t', hw.subset (by simp)⟩
  | push _ _ | enter _ | tryAndPop _ | waitAndPop _ | waitForAndPop _ | wake _ _ | reset _ =>
    exact h.step_other rfl (by simp) (by simp) hflags

theorem thread_setThread (t' : Tid) (th : QueueThread T) :
    (s.setThread t' th).thread t = if t = t' then th else s.thread t :=
  Function.update_apply ..

theorem of_setThread {t' : Tid} {th : QueueThread T} (hth : th ≠ .pushing item)
    (ht : (s.setThread t' th).thread t = .pushing item) : s.thread t = .pushing item := by
  rw [thread_setThread] at ht
  split at ht
  · exact absurd ht hth
  · exact ht

theorem of_waitPop {t' : Tid} {timed : Bool} (h : s.waitPop t' timed = (s', es))
    (ht : s'.thread t = .pushing item) : s.thread t = .pushing item := by
  unfold SharedQueue.waitPop at h
  split at h
  · cases h
    exact of_setThread (by simp) ht
  · obtain ⟨_, _, hthread⟩ := pop_flags (s.setThread t' .idle)
    rw [h] at hthread
    exact of_setThread (by simp) (congrFun hthread t ▸ ht)

/-- Only a look at the flag makes a thread wait for the lock. -/
theorem thread_of_pushing (hs : queueStep s a = some (s', es)) (hnot : a.isPushOf t = false)
    (ht : s'.thread t = .pushing item) : s.thread t = .pushing item := by
  cases a with
  | openQueue t' | reset t' =>
    cases of_calling hs
    exact ht
  | close t' =>
    cases of_calling hs
    exact of_setThread (by simp) ht
  | closeReturn t' | enter t' =>
    simp only [queueStep] at hs
    split at hs
    · cases hs
      exact of_setThread (by simp) ht
    · cases hs
  | push t' item' =>
    have hne : t ≠ t' := fun h => absurd hnot (by simp [QueueAction.isPushOf, h])
    cases of_calling hs
    split at ht
    · exact ht
    · rwa [thread_setThread, if_neg hne] at ht
  | tryAndPop t' =>
    obtain ⟨_, _, hthread⟩ := pop_flags s
    rw [of_calling hs] at hthread
    exact congrFun hthread t ▸ ht
  | waitAndPop t' | waitForAndPop t' => exact of_waitPop (of_calling hs) ht
  | wake t' cause =>
    simp only [queueStep] at hs
    split at hs
    · split at hs
      · cases hs
      · exact of_waitPop (Option.some.inj hs) ht
    · cases hs

/-- `push` goes on to its lock only if it finds the queue open. -/
theorem looked_of_push (h : s.shut = true → s.runOut = true) (hpush : a.isPushOf t = true)
    (hs : queueStep s a = some (s', es)) (ht : s'.thread t = .pushing item) : Looked [] s' := by
  cases a with
  | push t' item' =>
    obtain rfl : t' = t := of_decide_eq_true hpush
    simp only [queueStep, calling] at hs
    split at hs
    · next hidle =>
      cases hs
      split at ht
      · exact absurd (hidle.symm.trans ht) (by simp)
      · next hrun =>
        have hshut : s.shut ≠ true := fun hshut => hrun (h hshut)
        refine ⟨?_, ?_⟩
        · rw [if_neg hrun]
          exact iff_of_false hrun (by simp [sinceOpen])
        · rw [if_neg hrun]
          exact iff_of_false hshut (by simp [ShutIn, sinceOpen])
    · cases hs
  | _ => cases hpush

end Schedule

/-! ### Whole runs -/

section Runs

variable {Tid T : Type} [DecidableEq Tid] {s : SharedQueue Tid T}
  {as : List (QueueAction Tid T)} {es : List (QueueEvent T)}

theorem conserved_run (run : QueueRun Tid T as es s) :
    entered es = (left es).map Prod.fst ++ s.queue := by
  refine run.invariant (P := fun es s => entered es = (left es).map Prod.fst ++ s.queue) rfl ?_
  intro es s a s' es' ih _ hs
  have hmoves := (moves_step hs).conserved
  unfold entered left at *
  rw [List.flatMap_append, List.flatMap_append, List.map_append, ih, List.append_assoc, hmoves,
    List.append_assoc]

theorem open_run (run : QueueRun Tid T as es s) (item : T) : QueueEvent.popped item true ∉ es := by
  refine run.invariant (P := fun es _ => QueueEvent.popped item true ∉ es) List.not_mem_nil ?_
  intro es s a s' es' ih _ hs
  rw [List.mem_append, not_or]
  exact ⟨ih, (moves_step hs).open_ item⟩

/-- In every run the queue serves as it should, if and only if no element enters too late. -/
theorem served_iff_entersInTime :
    (QueueRun Tid T as es s ∧ Served es s.queue) ↔
      Run queueStep EntersInTime SharedQueue.initial as es s := by
  rw [Run.guard_iff_trace fun _ _ _ _ hs => entersInTime_iff hs]
  constructor
  · rintro ⟨run, hserved⟩
    refine ⟨run, ?_⟩
    rintro e he ⟨item, rfl⟩
    exact hserved.inTime item he
  · rintro ⟨run, htime⟩
    have hconserved := conserved_run run
    refine ⟨run, ?_, hconserved, open_run run, fun item he => htime _ he ⟨item, rfl⟩⟩
    rw [popped_eq, hconserved]
    exact (List.filter_sublist.map Prod.fst).trans (List.sublist_append_left _ _)

/-- What a thread that waits for the lock can tell from the actions since its look. -/
theorem looked_run (run : QueueRun Tid T as es s) {t : Tid} {item : T}
    (ht : s.thread t = .pushing item) : Looked (since (QueueAction.isPushOf t) as) s := by
  have hclosed := run.strengthen (I := fun s => s.shut = true → s.runOut = true)
    fun _ _ _ r => r.state_invariant (by simp [SharedQueue.initial])
      fun _ _ _ _ h _ hs => runOut_of_shut_step h hs
  refine hclosed.since_invariant
    (I := fun w s => s.thread t = .pushing item → Looked w s) ?_ ?_ ?_ ht
  · exact fun h => absurd h (by simp [SharedQueue.initial])
  · exact fun s a s' es' hpush hs hstep ht => looked_of_push hs.2 hpush hstep ht
  · exact fun w s a s' es' ih hnot _ hstep ht =>
      (ih (thread_of_pushing hstep hnot ht)).step hstep

/-- A run serves as it should, if and only if nobody shuts the queue while a `push` is between its
look at the flag and its lock. -/
theorem served_iff (run : QueueRun Tid T as es s) :
    Served es s.queue ↔ Scheduled LocksInTime as := by
  have hserved : Served es s.queue ↔ Run queueStep EntersInTime SharedQueue.initial as es s := by
    rw [← served_iff_entersInTime, and_iff_right run]
  rw [hserved, Run.scheduled_iff (c := LocksInTime), and_iff_right run]
  intro as es s a s' es' run hs
  cases a with
  | enter t =>
    simp only [queueStep] at hs
    split at hs
    · next ht =>
      have hshut := (looked_run run ht).shut
      rw [EntersInTime, LocksInTime, ← hshut, Bool.not_eq_true]
    · cases hs
  | _ => exact Iff.rfl

/-- The queue is closed and opened again while a thread waits for the lock, and closed once more;
that call of `close` returns after the element is in. -/
theorem served_iff_reopened :
    Served [.entered 7 false, .noItem, .popped 7 false] ([] : List ℕ) := by
  let as : List (QueueAction (Fin 3) ℕ) :=
    [.push 0 7, .close 1, .closeReturn 1, .openQueue 2, .close 1, .enter 0, .closeReturn 1,
      .push 2 8, .tryAndPop 2, .openQueue 1, .tryAndPop 2]
  have run : QueueRun (Fin 3) ℕ as [.entered 7 false, .noItem, .popped 7 false] _ := Run.of_exec rfl
  exact (served_iff run).mpr (by decide)

/-- One thread closes the queue while another is between its look at the flag and the lock. -/
theorem not_served_of_late_push :
    ¬∀ (as : List (QueueAction (Fin 2) ℕ)) (es : List (QueueEvent ℕ)) (s : SharedQueue (Fin 2) ℕ),
      QueueRun (Fin 2) ℕ as es s → Served es s.queue := by
  intro h
  let as : List (QueueAction (Fin 2) ℕ) := [.push 0 7, .close 1, .closeReturn 1, .enter 0]
  have run : QueueRun (Fin 2) ℕ as [.entered 7 true] _ := Run.of_exec rfl
  exact (h _ _ _ run).inTime 7 (List.mem_singleton_self _)

end Runs

end Base

/-
The pool of worker threads, one critical section at a time.

A worker takes a task with the lock and starts it without: between the two another worker may start
a later one.

* `threadPoolStep` — the steps of the workers and of whoever calls the pool;
* `ThreadPool.Inv` — every task is in the queue, with one worker, or finished;
* `delivered` — tasks are taken in the order in which they were accepted, each worker starts its own
  in that order, and none is lost or run twice.
-/
import HandTracking.Library.Numerals
import HandTracking.Library.Transition
import Mathlib.Data.List.Basic
import Mathlib.Data.List.Perm.Subperm
import Mathlib.Logic.Function.Basic

namespace Base

open Transition

/-- Where a worker is in its loop: before the predicate of the wait, in the wait, with a task that
it has taken, in the task, or at its end. -/
inductive Worker where
  | looping
  | waiting
  | holding (task : ℕ)
  | running (task : ℕ)
  | exited
  deriving DecidableEq, Repr

/-- What the destructor has done. -/
inductive Lifetime where
  | alive
  | joining
  | destroyed
  deriving DecidableEq, Repr

/-- A task is known by the number of the `enqueue` call that brought it. -/
structure ThreadPool (threads : ℕ) where
  maxDepth : ℕ
  tasks : List ℕ
  stop : Bool
  worker : Fin threads → Worker
  enqueued : ℕ
  lifetime : Lifetime

/-- `look` is a worker with the lock at the predicate of its wait: before it waits, or after it has
been woken.  It may be woken at any moment, so that notifications need no steps of their own. -/
inductive TaskAction (threads : ℕ) where
  | enqueue
  | stop
  | destroy
  | join
  | look (w : Fin threads)
  | start (w : Fin threads)
  | finish (w : Fin threads)

/-- How far a task has come. -/
inductive Phase where
  | taken
  | started
  | finished
  deriving DecidableEq, Repr

/-- What is seen of a task. -/
inductive TaskEvent (threads : ℕ) where
  | accepted (task : ℕ)
  | rejected (task : ℕ)
  | reached (phase : Phase) (w : Fin threads) (task : ℕ)
  deriving DecidableEq, Repr

section Code

variable {threads : ℕ}

namespace ThreadPool

/-- The constructor. -/
def new (threads depth : ℕ) : ThreadPool threads :=
  ⟨depth, [], false, fun _ => .looping, 0, .alive⟩

/-- A worker goes on. -/
def setWorker (s : ThreadPool threads) (w : Fin threads) (state : Worker) : ThreadPool threads :=
  { s with worker := Function.update s.worker w state }

/-- What makes `enqueue` refuse a task. -/
def Refuses (s : ThreadPool threads) : Prop :=
  (0 < s.maxDepth ∧ s.maxDepth < s.tasks.length) ∨ s.stop = true

instance (s : ThreadPool threads) : Decidable s.Refuses := inferInstanceAs (Decidable (_ ∨ _))

/-- `enqueue`, which throws if the pool stops or is full. -/
def enqueue (s : ThreadPool threads) : ThreadPool threads × List (TaskEvent threads) :=
  if s.Refuses then ({ s with enqueued := s.enqueued + 1 }, [.rejected s.enqueued])
  else
    ({ s with tasks := s.tasks ++ [s.enqueued], enqueued := s.enqueued + 1 },
      [.accepted s.enqueued])

/-- The critical section of a worker. -/
def look (s : ThreadPool threads) (w : Fin threads) :
    ThreadPool threads × List (TaskEvent threads) :=
  match s.tasks, s.stop with
  | [], true => (s.setWorker w .exited, [])
  | [], false => (s.setWorker w .waiting, [])
  | task :: rest, _ =>
    ({ s with tasks := rest }.setWorker w (.holding task), [.reached .taken w task])

end ThreadPool

/-- One step of a caller or of a worker. -/
def threadPoolStep (s : ThreadPool threads) :
    TaskAction threads → Option (ThreadPool threads × List (TaskEvent threads))
  | .enqueue => if s.lifetime = .destroyed then none else some s.enqueue
  | .stop => if s.lifetime = .destroyed then none else some ({ s with stop := true }, [])
  | .destroy =>
    if s.lifetime = .alive then some ({ s with stop := true, lifetime := .joining }, []) else none
  | .join =>
    if s.lifetime = .joining ∧ ∀ w, s.worker w = .exited then
      some ({ s with lifetime := .destroyed }, [])
    else none
  | .look w =>
    match s.worker w with
    | .looping | .waiting => some (s.look w)
    | _ => none
  | .start w =>
    match s.worker w with
    | .holding task => some (s.setWorker w (.running task), [.reached .started w task])
    | _ => none
  | .finish w =>
    match s.worker w with
    | .running task => some (s.setWorker w .looping, [.reached .finished w task])
    | _ => none

/-- Any interleaving of the workers and of the callers. -/
abbrev ThreadPoolRun (threads depth : ℕ) :=
  Run threadPoolStep (fun _ _ => True) (ThreadPool.new threads depth)

end Code

/-! ### What happened in a run -/

section Trace

variable {threads : ℕ}

/-- The task that was accepted. -/
def TaskEvent.accepted? : TaskEvent threads → Option ℕ
  | .accepted task => some task
  | _ => none

/-- The task that was refused. -/
def TaskEvent.rejected? : TaskEvent threads → Option ℕ
  | .rejected task => some task
  | _ => none

/-- The task that reached a phase, with its worker. -/
def TaskEvent.reached? (phase : Phase) : TaskEvent threads → Option (Fin threads × ℕ)
  | .reached phase' w task => if phase' = phase then some (w, task) else none
  | _ => none

/-- The tasks that were accepted, in that order. -/
def accepted (es : List (TaskEvent threads)) : List ℕ := es.filterMap TaskEvent.accepted?

/-- The tasks that were refused, in their order. -/
def rejected (es : List (TaskEvent threads)) : List ℕ := es.filterMap TaskEvent.rejected?

/-- Who took, started or finished which task, in that order. -/
def reached (phase : Phase) (es : List (TaskEvent threads)) : List (Fin threads × ℕ) :=
  es.filterMap (TaskEvent.reached? phase)

/-- The tasks that one worker took, started or finished, in that order. -/
def reachedBy (phase : Phase) (es : List (TaskEvent threads)) (w : Fin threads) : List ℕ :=
  ((reached phase es).filter (·.1 = w)).map Prod.snd

/-- The tasks that were taken, started or finished, in that order. -/
def tasksOf (phase : Phase) (es : List (TaskEvent threads)) : List ℕ :=
  (reached phase es).map Prod.snd

/-- What is wanted of a run that leaves the pool in the state `s`. -/
structure Delivered (es : List (TaskEvent threads)) (s : ThreadPool threads) : Prop where
  startedOnce : (tasksOf .started es).Nodup
  takenInOrder : tasksOf .taken es <+: accepted es
  startedInOrder : ∀ w, (reachedBy .started es w).Sublist (accepted es)
  oneWorker : threads = 1 → tasksOf .started es <+: accepted es
  runOnce : (∀ w, s.worker w = .exited) →
    (tasksOf .started es).Perm (accepted es) ∧ (tasksOf .finished es).Perm (accepted es)
  rejectedNever : ∀ task ∈ rejected es, task ∉ tasksOf .started es

end Trace

/-! ### One step -/

section Step

variable {threads : ℕ} {es es' : List (TaskEvent threads)} {s s' : ThreadPool threads}
  {phase phase' : Phase} {w w' : Fin threads} {task : ℕ}

@[simp] theorem accepted_append : accepted (es ++ es') = accepted es ++ accepted es' :=
  List.filterMap_append

@[simp] theorem rejected_append : rejected (es ++ es') = rejected es ++ rejected es' :=
  List.filterMap_append

theorem reached_append : reached phase (es ++ es') = reached phase es ++ reached phase es' :=
  List.filterMap_append

@[simp] theorem reachedBy_append :
    reachedBy phase (es ++ es') w = reachedBy phase es w ++ reachedBy phase es' w := by
  rw [reachedBy, reached_append, List.filter_append, List.map_append]
  rfl

@[simp] theorem tasksOf_append :
    tasksOf phase (es ++ es') = tasksOf phase es ++ tasksOf phase es' := by
  rw [tasksOf, reached_append, List.map_append]
  rfl

theorem reached_singleton :
    reached phase [.reached phase' w task] = if phase' = phase then [(w, task)] else [] := by
  unfold reached TaskEvent.reached?
  split_ifs <;> simp_all

@[simp] theorem tasksOf_reached :
    tasksOf phase [.reached phase' w task] = if phase' = phase then [task] else [] := by
  rw [tasksOf, reached_singleton]
  split_ifs
  · rfl
  · rfl

@[simp] theorem reachedBy_reached :
    reachedBy phase [.reached phase' w task] w' =
      if phase' = phase ∧ w = w' then [task] else [] := by
  rw [reachedBy, reached_singleton]
  by_cases hphase : phase' = phase
  · by_cases hw : w = w'
    · simp [hphase, hw]
    · simp [hphase, hw]
  · simp [hphase]

section Singletons

variable (phase : Phase) (w w' : Fin threads) (task : ℕ)

@[simp] theorem accepted_accepted :
    accepted [(.accepted task : TaskEvent threads)] = [task] := rfl

@[simp] theorem accepted_rejected :
    accepted [(.rejected task : TaskEvent threads)] = [] := rfl

@[simp] theorem accepted_reached : accepted [.reached phase w task] = [] := rfl

@[simp] theorem rejected_accepted :
    rejected [(.accepted task : TaskEvent threads)] = [] := rfl

@[simp] theorem rejected_rejected :
    rejected [(.rejected task : TaskEvent threads)] = [task] := rfl

@[simp] theorem rejected_reached : rejected [.reached phase w task] = [] := rfl

@[simp] theorem tasksOf_accepted :
    tasksOf phase [(.accepted task : TaskEvent threads)] = [] := rfl

@[simp] theorem tasksOf_rejected :
    tasksOf phase [(.rejected task : TaskEvent threads)] = [] := rfl

@[simp] theorem reachedBy_accepted : reachedBy phase [.accepted task] w = [] := rfl

@[simp] theorem reachedBy_rejected : reachedBy phase [.rejected task] w = [] := rfl

end Singletons

/-- The task that a worker has taken and not started. -/
def Worker.held : Worker → List ℕ
  | .holding task => [task]
  | _ => []

/-- The task that a worker is in. -/
def Worker.current : Worker → List ℕ
  | .running task => [task]
  | _ => []

namespace ThreadPool

/-- Where the tasks of a run are. -/
structure Inv (es : List (TaskEvent threads)) (s : ThreadPool threads) : Prop where
  queue : accepted es = tasksOf .taken es ++ s.tasks
  held : ∀ w, reachedBy .taken es w = reachedBy .started es w ++ (s.worker w).held
  current : ∀ w, reachedBy .started es w = reachedBy .finished es w ++ (s.worker w).current
  nodup : (accepted es ++ rejected es).Nodup
  fresh : ∀ task ∈ accepted es ++ rejected es, task < s.enqueued
  exited : ∀ w, s.worker w = .exited → s.stop = true ∧ s.tasks = []

theorem Inv.new (threads depth : ℕ) : Inv [] (ThreadPool.new threads depth) where
  queue := rfl
  held := fun _ => rfl
  current := fun _ => rfl
  nodup := List.nodup_nil
  fresh := fun _ h => absurd h List.not_mem_nil
  exited := fun _ h => by cases h

/-- Steps of the callers that bring no task. -/
theorem Inv.of_stop (h : Inv es s) (htasks : s'.tasks = s.tasks) (hworker : s'.worker = s.worker)
    (henq : s'.enqueued = s.enqueued) (hstop : s.stop = true → s'.stop = true) :
    Inv (es ++ []) s' := by
  rw [List.append_nil]
  refine ⟨htasks ▸ h.queue, hworker ▸ h.held, hworker ▸ h.current, h.nodup, henq ▸ h.fresh, ?_⟩
  intro w hw
  rw [hworker] at hw
  obtain ⟨hs, ht⟩ := h.exited w hw
  exact ⟨hstop hs, htasks ▸ ht⟩

theorem Inv.enqueue (h : Inv es s) : Inv (es ++ s.enqueue.2) s.enqueue.1 := by
  have hnew : s.enqueued ∉ accepted es ++ rejected es := fun hmem => (h.fresh _ hmem).false
  have hfresh : ∀ task ∈ s.enqueued :: (accepted es ++ rejected es), task < s.enqueued + 1 := by
    refine List.forall_mem_cons.mpr ⟨Nat.lt_succ_self _, fun task htask => ?_⟩
    exact Nat.lt_succ_of_lt (h.fresh task htask)
  unfold ThreadPool.enqueue
  split
  · have hperm : (accepted (es ++ [.rejected s.enqueued]) ++
        rejected (es ++ [.rejected s.enqueued])).Perm
          (s.enqueued :: (accepted es ++ rejected es)) := by
      simp only [accepted_append, rejected_append, accepted_rejected, rejected_rejected,
        List.append_nil, ← List.append_assoc]
      exact List.perm_append_singleton _ _
    refine ⟨?_, ?_, ?_, hperm.nodup_iff.mpr (List.nodup_cons.mpr ⟨hnew, h.nodup⟩), ?_, h.exited⟩
    · simpa using h.queue
    · simpa using h.held
    · simpa using h.current
    · exact fun task htask => hfresh task (hperm.mem_iff.mp htask)
  · next hopen =>
    have hperm : (accepted (es ++ [.accepted s.enqueued]) ++
        rejected (es ++ [.accepted s.enqueued])).Perm
          (s.enqueued :: (accepted es ++ rejected es)) := by
      simp only [accepted_append, rejected_append, accepted_accepted, rejected_accepted,
        List.append_nil, List.append_assoc, List.singleton_append]
      exact List.perm_middle
    refine ⟨?_, ?_, ?_, hperm.nodup_iff.mpr (List.nodup_cons.mpr ⟨hnew, h.nodup⟩), ?_, ?_⟩
    · simp [h.queue]
    · simpa using h.held
    · simpa using h.current
    · exact fun task htask => hfresh task (hperm.mem_iff.mp htask)
    · intro w hw
      exact absurd (.inr (h.exited w hw).1) hopen

@[simp] theorem worker_setWorker (state : Worker) :
    (s.setWorker w state).worker w' = if w' = w then state else s.worker w' :=
  Function.update_apply ..

/-- The steps of a worker: what it has in hand moves on, as the events `moved` say. -/
theorem Inv.move (h : Inv es s) {tasks : List ℕ} {state : Worker}
    {moved : List (TaskEvent threads)}
    (haccepted : accepted moved = []) (hrejected : rejected moved = [])
    (hqueue : s.tasks = tasksOf .taken moved ++ tasks)
    (hheld : (s.worker w).held ++ reachedBy .taken moved w =
      reachedBy .started moved w ++ state.held)
    (hcurrent : (s.worker w).current ++ reachedBy .started moved w =
      reachedBy .finished moved w ++ state.current)
    (hother : ∀ phase w', w' ≠ w → reachedBy phase moved w' = [])
    (hexited : state = .exited → s.stop = true ∧ s.tasks = []) :
    Inv (es ++ moved) ({ s with tasks := tasks }.setWorker w state) where
  queue := by
    rw [accepted_append, haccepted, List.append_nil, tasksOf_append, h.queue, hqueue,
      List.append_assoc]
    rfl
  held := by
    intro w'
    rw [reachedBy_append, reachedBy_append, worker_setWorker, h.held w', List.append_assoc,
      List.append_assoc]
    split
    · next hw => rw [hw, hheld]
    · next hw => simp [hother _ w' hw]
  current := by
    intro w'
    rw [reachedBy_append, reachedBy_append, worker_setWorker, h.current w', List.append_assoc,
      List.append_assoc]
    split
    · next hw => rw [hw, hcurrent]
    · next hw => simp [hother _ w' hw]
  nodup := by
    rw [accepted_append, rejected_append, haccepted, hrejected, List.append_nil, List.append_nil]
    exact h.nodup
  fresh := by
    rw [accepted_append, rejected_append, haccepted, hrejected, List.append_nil, List.append_nil]
    exact h.fresh
  exited := by
    -- nothing comes into an empty queue
    have htasks (ht : s.tasks = []) : tasks = [] := by
      rw [hqueue, List.append_eq_nil_iff] at ht
      exact ht.2
    intro w' hw'
    rw [worker_setWorker] at hw'
    split at hw'
    · exact (hexited hw').imp_right htasks
    · exact (h.exited w' hw').imp_right htasks

theorem Inv.look (h : Inv es s) (hheld : (s.worker w).held = [])
    (hcurrent : (s.worker w).current = []) : Inv (es ++ (s.look w).2) (s.look w).1 := by
  unfold ThreadPool.look
  split
  · next htasks hstop =>
    show Inv (es ++ []) ({ s with tasks := s.tasks }.setWorker w .exited)
    refine h.move rfl rfl rfl ?_ ?_ (fun _ _ _ => rfl) fun _ => ⟨hstop, htasks⟩
    · rw [hheld]
      rfl
    · rw [hcurrent]
      rfl
  · next htasks hstop =>
    show Inv (es ++ []) ({ s with tasks := s.tasks }.setWorker w .waiting)
    refine h.move rfl rfl rfl ?_ ?_ (fun _ _ _ => rfl) (by simp)
    · rw [hheld]
      rfl
    · rw [hcurrent]
      rfl
  · next task rest htasks =>
    refine h.move rfl rfl (by simp [htasks]) ?_ ?_ ?_ (by simp)
    · rw [hheld]
      simp [Worker.held]
    · rw [hcurrent]
      simp [Worker.current]
    · intro phase w' hw
      simp [Ne.symm hw]

theorem Inv.start (h : Inv es s) (hw : s.worker w = .holding task) :
    Inv (es ++ [.reached .started w task]) (s.setWorker w (.running task)) := by
  show Inv _ ({ s with tasks := s.tasks }.setWorker w (.running task))
  refine h.move rfl rfl (by simp) ?_ ?_ ?_ (by simp)
  · rw [hw]
    simp [Worker.held]
  · rw [hw]
    simp [Worker.current]
  · intro phase w' hne
    simp [Ne.symm hne]

theorem Inv.finish (h : Inv es s) (hw : s.worker w = .running task) :
    Inv (es ++ [.reached .finished w task]) (s.setWorker w .looping) := by
  show Inv _ ({ s with tasks := s.tasks }.setWorker w .looping)
  refine h.move rfl rfl (by simp) ?_ ?_ ?_ (by simp)
  · rw [hw]
    simp [Worker.held]
  · rw [hw]
    simp [Worker.current]
  · intro phase w' hne
    simp [Ne.symm hne]

theorem Inv.step (h : Inv es s) {a : TaskAction threads}
    (hs : threadPoolStep s a = some (s', es')) : Inv (es ++ es') s' := by
  cases a with
  | enqueue =>
    simp only [threadPoolStep] at hs
    split at hs
    · cases hs
    · have henqueue := h.enqueue
      rwa [Option.some.inj hs] at henqueue
  | stop =>
    simp only [threadPoolStep] at hs
    split at hs
    · cases hs
    · cases hs
      exact h.of_stop rfl rfl rfl fun _ => rfl
  | destroy =>
    simp only [threadPoolStep] at hs
    split at hs
    · cases hs
      exact h.of_stop rfl rfl rfl fun _ => rfl
    · cases hs
  | join =>
    simp only [threadPoolStep] at hs
    split at hs
    · cases hs
      exact h.of_stop rfl rfl rfl id
    · cases hs
  | look w =>
    simp only [threadPoolStep] at hs
    split at hs
    · next hw =>
      have hlook := h.look (w := w) (by rw [hw]; rfl) (by rw [hw]; rfl)
      rwa [Option.some.inj hs] at hlook
    · next hw =>
      have hlook := h.look (w := w) (by rw [hw]; rfl) (by rw [hw]; rfl)
      rwa [Option.some.inj hs] at hlook
    · cases hs
  | start w =>
    simp only [threadPoolStep] at hs
    split at hs
    · next hw =>
      cases hs
      exact h.start hw
    · cases hs
  | finish w =>
    simp only [threadPoolStep] at hs
    split at hs
    · next hw =>
      cases hs
      exact h.finish hw
    · cases hs

end ThreadPool

end Step

/-! ### Whole runs -/

section Runs

variable {threads depth : ℕ} {as : List (TaskAction threads)} {es : List (TaskEvent threads)}
  {s : ThreadPool threads} {phase phase' : Phase} {w : Fin threads}

theorem count_reachedBy (phase : Phase) (es : List (TaskEvent threads)) (w : Fin threads)
    (task : ℕ) : (reachedBy phase es w).count task = (reached phase es).count (w, task) := by
  unfold reachedBy
  induction reached phase es with
  | nil => rfl
  | cons e l ih =>
    obtain ⟨w', task'⟩ := e
    by_cases hw : w' = w
    · rw [List.filter_cons_of_pos (by simpa using hw), List.map_cons, List.count_cons,
        List.count_cons, ih]
      simp [hw]
    · rw [List.filter_cons_of_neg (by simpa using hw), ih, List.count_cons]
      simp [hw]

/-- What each worker does is what all of them do. -/
theorem tasksOf_perm (h : ∀ w, reachedBy phase es w = reachedBy phase' es w) :
    (tasksOf phase es).Perm (tasksOf phase' es) := by
  refine List.Perm.map Prod.snd (List.perm_iff_count.mpr fun e => ?_)
  rw [← count_reachedBy phase es e.1 e.2, ← count_reachedBy phase' es e.1 e.2, h]

theorem tasksOf_subperm (h : ∀ w, reachedBy phase es w <+: reachedBy phase' es w) :
    (tasksOf phase es).Subperm (tasksOf phase' es) := by
  have hsub : (reached phase es).Subperm (reached phase' es) := by
    refine List.subperm_ext_iff.mpr fun e _ => ?_
    rw [← count_reachedBy phase es e.1 e.2, ← count_reachedBy phase' es e.1 e.2]
    exact (h e.1).sublist.count_le e.2
  obtain ⟨l, hperm, hl⟩ := hsub
  exact ⟨l.map Prod.snd, hperm.map _, hl.map _⟩

theorem reachedBy_sublist : (reachedBy phase es w).Sublist (tasksOf phase es) :=
  List.filter_sublist.map Prod.snd

/-- A worker alone. -/
theorem reachedBy_eq_tasksOf (hthreads : threads = 1) (w : Fin threads) :
    reachedBy phase es w = tasksOf phase es := by
  subst hthreads
  rw [reachedBy, tasksOf, List.filter_eq_self.mpr fun e _ => decide_eq_true (Subsingleton.elim _ _)]

namespace ThreadPool

theorem Inv.run (run : ThreadPoolRun threads depth as es s) : Inv es s :=
  run.invariant (Inv.new threads depth) fun _ _ _ _ _ h _ hs => h.step hs

theorem Inv.taken_prefix (h : Inv es s) : tasksOf .taken es <+: accepted es :=
  ⟨s.tasks, h.queue.symm⟩

theorem Inv.started_subperm (h : Inv es s) : (tasksOf .started es).Subperm (accepted es) :=
  (tasksOf_subperm fun w => ⟨_, (h.held w).symm⟩).trans h.taken_prefix.sublist.subperm

end ThreadPool

/-- What the pool does, in every run. -/
theorem threadPool_delivers (hthreads : 0 < threads) (run : ThreadPoolRun threads depth as es s) :
    Delivered es s := by
  have h := ThreadPool.Inv.run run
  obtain ⟨hnodup, -, hdisj⟩ := List.nodup_append.mp h.nodup
  have hstarted := h.started_subperm
  refine ⟨?_, h.taken_prefix, ?_, ?_, ?_, ?_⟩
  · rw [List.nodup_iff_count] at hnodup ⊢
    exact fun task => (hstarted.count_le task).trans (hnodup task)
  · intro w
    have hprefix : reachedBy .started es w <+: reachedBy .taken es w := ⟨_, (h.held w).symm⟩
    exact hprefix.sublist.trans (reachedBy_sublist.trans h.taken_prefix.sublist)
  · intro hone
    have hheld := h.held ⟨0, hthreads⟩
    rw [reachedBy_eq_tasksOf hone, reachedBy_eq_tasksOf hone] at hheld
    exact (show tasksOf .started es <+: tasksOf .taken es from ⟨_, hheld.symm⟩).trans h.taken_prefix
  · intro hexited
    -- the queue was empty when the first worker left
    have hempty := (h.exited ⟨0, hthreads⟩ (hexited _)).2
    have htaken : accepted es = tasksOf .taken es := by
      rw [h.queue, hempty, List.append_nil]
    have hheld (w) : reachedBy .taken es w = reachedBy .started es w := by
      rw [h.held, hexited]
      exact List.append_nil _
    have hcurrent (w) : reachedBy .started es w = reachedBy .finished es w := by
      rw [h.current, hexited]
      exact List.append_nil _
    have hperm := tasksOf_perm hheld
    rw [htaken]
    exact ⟨hperm.symm, (hperm.trans (tasksOf_perm hcurrent)).symm⟩
  · intro task hrejected hmem
    exact hdisj task (hstarted.subset hmem) task hrejected rfl

/-- Two workers, one task that is run, and one that comes after `stop`. -/
theorem threadPool_delivers_two :
    ∃ s : ThreadPool 2, (∀ w, s.worker w = .exited) ∧
      Delivered [.accepted 0, .reached .taken 1 0, .reached .started 1 0, .rejected 1,
        .reached .finished 1 0] s := by
  have run : ThreadPoolRun 2 10 [.enqueue, .look 1, .look 0, .start 1, .stop, .enqueue, .finish 1,
      .look 1, .look 0] [.accepted 0, .reached .taken 1 0, .reached .started 1 0, .rejected 1,
        .reached .finished 1 0] _ := Run.of_exec rfl
  exact ⟨_, by decide, threadPool_delivers (by decide) run⟩

/-- The second task starts before the first. -/
theorem not_started_in_order :
    ¬∀ (as : List (TaskAction 2)) (es : List (TaskEvent 2)) (s : ThreadPool 2),
      ThreadPoolRun 2 10 as es s → (tasksOf .started es).Sublist (accepted es) := by
  intro h
  have run : ThreadPoolRun 2 10 [.enqueue, .enqueue, .look 0, .look 1, .start 1, .start 0] _ _ :=
    Run.of_exec_get (by decide)
  exact absurd (h _ _ _ run) (by decide)

end Runs

end Base

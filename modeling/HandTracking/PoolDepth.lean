/-
How many tasks wait in the thread pool.

`enqueue` refuses a task when more than `max_depth` tasks wait, so it takes one more when exactly
`max_depth` do.

* `queue_step` — what a step does to the queue;
* `length_tasks_le` — never more than one task too many;
* `withinDepth_iff` — the runs in which `max_depth` is kept: nobody enqueues into a full queue.
-/
import HandTracking.ThreadPool

namespace Base

open Transition

variable {threads depth : ℕ} {as : List (TaskAction threads)} {es : List (TaskEvent threads)}
  {s s' : ThreadPool threads} {a : TaskAction threads}

namespace ThreadPool

/-- Nobody enqueues into the full queue of a pool that has not been stopped. -/
def EnqueuesWithRoom (s : ThreadPool threads) (a : TaskAction threads) : Prop :=
  a = .enqueue → s.stop = false → s.tasks.length ≠ s.maxDepth

theorem length_tasks_enqueue (s : ThreadPool threads) :
    s.enqueue.1.tasks.length = if s.Refuses then s.tasks.length else s.tasks.length + 1 := by
  rw [ThreadPool.enqueue]
  split_ifs
  · rfl
  · exact List.length_append

theorem length_tasks_look (s : ThreadPool threads) (w : Fin threads) :
    (s.look w).1.tasks.length ≤ s.tasks.length := by
  unfold ThreadPool.look
  split
  · exact le_rfl
  · exact le_rfl
  · next htasks =>
    rw [htasks]
    exact Nat.le_succ _

theorem maxDepth_look (s : ThreadPool threads) (w : Fin threads) :
    (s.look w).1.maxDepth = s.maxDepth := by
  unfold ThreadPool.look
  split
  · rfl
  · rfl
  · rfl

/-- Only a task that is accepted makes the queue longer. -/
theorem queue_step (hs : threadPoolStep s a = some (s', es)) :
    s'.maxDepth = s.maxDepth ∧
      (a = .enqueue ∧ ¬s.Refuses ∧ s'.tasks.length = s.tasks.length + 1 ∨
        (a = .enqueue → s.Refuses) ∧ s'.tasks.length ≤ s.tasks.length) := by
  cases a with
  | enqueue =>
    simp only [threadPoolStep] at hs
    split at hs
    · cases hs
    · have hlength := s.length_tasks_enqueue
      have hdepth : s.enqueue.1.maxDepth = s.maxDepth := by
        rw [ThreadPool.enqueue]
        split
        · rfl
        · rfl
      rw [Option.some.inj hs] at hlength hdepth
      -- a task that is refused leaves the queue alone
      by_cases hrefuses : s.Refuses
      · rw [if_pos hrefuses] at hlength
        exact ⟨hdepth, .inr ⟨fun _ => hrefuses, hlength.le⟩⟩
      · rw [if_neg hrefuses] at hlength
        exact ⟨hdepth, .inl ⟨rfl, hrefuses, hlength⟩⟩
  | stop =>
    simp only [threadPoolStep] at hs
    split at hs
    · cases hs
    · cases hs
      exact ⟨rfl, .inr ⟨fun h => (by cases h), le_rfl⟩⟩
  | destroy | join =>
    simp only [threadPoolStep] at hs
    split at hs
    · cases hs
      exact ⟨rfl, .inr ⟨fun h => (by cases h), le_rfl⟩⟩
    · cases hs
  | look w =>
    simp only [threadPoolStep] at hs
    have hlength := s.length_tasks_look w
    have hdepth := s.maxDepth_look w
    split at hs
    · rw [Option.some.inj hs] at hlength hdepth
      exact ⟨hdepth, .inr ⟨fun h => (by cases h), hlength⟩⟩
    · rw [Option.some.inj hs] at hlength hdepth
      exact ⟨hdepth, .inr ⟨fun h => (by cases h), hlength⟩⟩
    · cases hs
  | start w | finish w =>
    simp only [threadPoolStep] at hs
    split at hs
    · cases hs
      exact ⟨rfl, .inr ⟨fun h => (by cases h), le_rfl⟩⟩
    · cases hs

theorem maxDepth_run (run : ThreadPoolRun threads depth as es s) : s.maxDepth = depth := by
  refine run.state_invariant (I := fun s => s.maxDepth = depth) rfl ?_
  intro s a s' es' hdepth _ hs
  exact (queue_step hs).1.trans hdepth

/-- A pool with a depth lets one task too many in, and no more. -/
theorem length_tasks_le (hdepth : 0 < depth) (run : ThreadPoolRun threads depth as es s) :
    s.tasks.length ≤ depth + 1 := by
  refine (run.state_invariant (I := fun s => s.maxDepth = depth ∧ s.tasks.length ≤ depth + 1)
    ⟨rfl, Nat.zero_le _⟩ ?_).2
  rintro s a s' es' ⟨hmax, hlength⟩ - hs
  obtain ⟨hmax', hstep⟩ := queue_step hs
  refine ⟨hmax'.trans hmax, ?_⟩
  rcases hstep with ⟨-, hrefuses, hlength'⟩ | ⟨-, hlength'⟩
  · -- a task was accepted, so the queue was not over its depth before
    have hroom : ¬(0 < s.maxDepth ∧ s.maxDepth < s.tasks.length) := fun h => hrefuses (.inl h)
    rw [hmax] at hroom
    omega
  · omega

theorem length_tasks_step (h : s.tasks.length ≤ s.maxDepth)
    (hs : threadPoolStep s a = some (s', es)) :
    s'.tasks.length ≤ s.maxDepth ↔ s.EnqueuesWithRoom a := by
  rcases (queue_step hs).2 with ⟨ha, hrefuses, hlength⟩ | ⟨hrefuses, hlength⟩
  · have hrunning : s.stop = false := Bool.eq_false_iff.mpr fun hstop => hrefuses (.inr hstop)
    rw [hlength]
    constructor
    · intro hroom _ _
      omega
    · intro hroom
      have hne := hroom ha hrunning
      omega
  · refine iff_of_true (by omega) fun ha hrunning => ?_
    -- of the two reasons to refuse a task, none is left
    rcases hrefuses ha with ⟨-, hfull⟩ | hstop
    · omega
    · rw [hrunning] at hstop
      cases hstop

end ThreadPool

/-- In every state of a run no more than `max_depth` tasks wait, if and only if nobody enqueues
while exactly `max_depth` do. -/
theorem withinDepth_iff :
    (Run threadPoolStep (fun s _ => s.tasks.length ≤ depth) (.new threads depth) as es s ∧
        s.tasks.length ≤ depth) ↔
      Run threadPoolStep ThreadPool.EnqueuesWithRoom (.new threads depth) as es s := by
  refine Run.always_iff (I := fun s => s.maxDepth = depth) (Nat.zero_le _)
    (fun as es s run => ThreadPool.maxDepth_run run) ?_
  rintro s a s' es' rfl hwithin hs
  exact ThreadPool.length_tasks_step hwithin hs

/-- Three tasks come before the worker takes one. -/
theorem not_withinDepth :
    ¬ ∀ (as : List (TaskAction 1)) (es : List (TaskEvent 1)) (s : ThreadPool 1),
      ThreadPoolRun 1 2 as es s → s.tasks.length ≤ 2 := by
  intro h
  have run : ThreadPoolRun 1 2 [.enqueue, .enqueue, .enqueue]
      [.accepted 0, .accepted 1, .accepted 2] _ := Run.of_exec rfl
  exact absurd (h _ _ _ run) (by decide)

end Base

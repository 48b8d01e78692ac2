/-
Guarded labelled transitions and their runs.

A system is a partial step function `step : σ → α → Option (σ × List ε)`: an
action either is not enabled or yields the next state and the events the step
emits.  What the environment promises is a guard `ok : σ → α → Prop` on the
actions it takes.  `Run step ok s₀ as es s` says that the actions `as` lead from
`s₀` to `s` and emit the trace `es`, every one of them within the guard.

* `Run.invariant` — what holds at the start and survives each step holds of every
  run;
* `Run.strengthen` — an invariant may be added to the guard, so that later
  invariants are proved on top of earlier ones;
* `Run.congr` — guards that agree on an invariant allow the same runs;
* `Run.always_iff` — runs that stay in a property, by a guard on their steps;
* `Run.guard_iff_trace` — a guard against the events that its steps do not emit;
* `Run.trans` — runs compose;
* `Run.clock_eq_iff` — a clock against the sum of a trace of time steps;
* `exec`, `Run.of_exec` — concrete runs are computed.
-/
import Mathlib.Algebra.BigOperators.Group.List.Basic
import Mathlib.Algebra.Order.Monoid.Defs
import Mathlib.Algebra.Order.Monoid.Unbundled.Basic
import Mathlib.Data.Option.Basic

namespace Transition

variable {σ α ε : Type*}

/-- The actions `as`, all within the guard `ok`, lead from `s₀` to `s` and emit
the trace `es`. -/
inductive Run (step : σ → α → Option (σ × List ε)) (ok : σ → α → Prop) (s₀ : σ) :
    List α → List ε → σ → Prop
  | nil : Run step ok s₀ [] [] s₀
  | snoc {as es s a s' es'} : Run step ok s₀ as es s → ok s a →
      step s a = some (s', es') → Run step ok s₀ (as ++ [a]) (es ++ es') s'

variable {step : σ → α → Option (σ × List ε)} {ok ok' : σ → α → Prop}
variable {s₀ s s' : σ} {as as' : List α} {es es' : List ε}

namespace Run

/-- The invariant rule: `P` may speak about the trace so far. -/
theorem invariant {P : List ε → σ → Prop} (h0 : P [] s₀)
    (hstep : ∀ es s a s' es', P es s → ok s a → step s a = some (s', es') →
      P (es ++ es') s')
    (run : Run step ok s₀ as es s) : P es s := by
  induction run with
  | nil => exact h0
  | snoc _ ha hs ih => exact hstep _ _ _ _ _ ih ha hs

/-- The invariant rule for a property of states. -/
theorem state_invariant {I : σ → Prop} (h0 : I s₀)
    (hstep : ∀ s a s' es', I s → ok s a → step s a = some (s', es') → I s')
    (run : Run step ok s₀ as es s) : I s :=
  invariant (P := fun _ s => I s) h0 (fun _ s a s' es' => hstep s a s' es') run

/-- A run within a guard is a run within every weaker guard. -/
theorem mono (h : ∀ s a, ok s a → ok' s a) (run : Run step ok s₀ as es s) :
    Run step ok' s₀ as es s := by
  induction run with
  | nil => exact .nil
  | snoc _ ha hs ih => exact .snoc ih (h _ _ ha) hs

/-- What holds of every action of a run may be added to the guard. -/
theorem guard_of_mem {p : α → Prop} (run : Run step ok s₀ as es s) (h : ∀ a ∈ as, p a) :
    Run step (fun s a => ok s a ∧ p a) s₀ as es s := by
  induction run with
  | nil => exact .nil
  | snoc _ ha hs ih =>
    have hp := h _ (List.mem_append_right _ (List.mem_singleton_self _))
    exact .snoc (ih fun a hmem => h a (List.mem_append_left _ hmem)) ⟨ha, hp⟩ hs

/-- An invariant of the runs may be assumed at each of their steps. -/
theorem strengthen {I : σ → Prop}
    (hI : ∀ as es s, Run step ok s₀ as es s → I s) (run : Run step ok s₀ as es s) :
    Run step (fun s a => ok s a ∧ I s) s₀ as es s := by
  induction run with
  | nil => exact .nil
  | snoc hr ha hs ih => exact .snoc ih ⟨ha, hI _ _ _ hr⟩ hs

/-- Guards that agree on an invariant have the same runs. -/
theorem congr {I : σ → Prop} (hI : ∀ as es s, Run step (fun _ _ => True) s₀ as es s → I s)
    (h : ∀ s a, I s → (ok s a ↔ ok' s a)) :
    Run step ok s₀ as es s ↔ Run step ok' s₀ as es s := by
  constructor
  · intro run
    have hrun := run.strengthen fun as es s r => hI as es s (r.mono fun _ _ _ => trivial)
    exact hrun.mono fun s a hs => (h s a hs.2).mp hs.1
  · intro run
    have hrun := run.strengthen fun as es s r => hI as es s (r.mono fun _ _ _ => trivial)
    exact hrun.mono fun s a hs => (h s a hs.2).mpr hs.1

/-- When a step keeps `P` exactly when it is within a guard, the runs that stay in `P` are
the runs within the guard. -/
theorem always_iff {I P : σ → Prop} (h0 : P s₀)
    (hI : ∀ as es s, Run step (fun _ _ => True) s₀ as es s → I s)
    (hstep : ∀ s a s' es', I s → P s → step s a = some (s', es') → (P s' ↔ ok s a)) :
    (Run step (fun s _ => P s) s₀ as es s ∧ P s) ↔ Run step ok s₀ as es s := by
  constructor
  · rintro ⟨run, hP⟩
    induction run with
    | nil => exact .nil
    | snoc hr hs' hs ih =>
      have hI' := hI _ _ _ (hr.mono fun _ _ _ => trivial)
      exact .snoc (ih hs') ((hstep _ _ _ _ hI' hs' hs).mp hP) hs
  · intro run
    induction run with
    | nil => exact ⟨.nil, h0⟩
    | snoc hr ha hs ih =>
      have hI' := hI _ _ _ (hr.mono fun _ _ _ => trivial)
      exact ⟨.snoc ih.1 ih.2 hs, (hstep _ _ _ _ hI' ih.2 hs).mpr ha⟩

/-- If a step is within a guard exactly when it emits no bad event, the runs within the guard
are those with a trace without bad events. -/
theorem guard_iff_trace {bad : ε → Prop}
    (h : ∀ s a s' es', step s a = some (s', es') → (ok s a ↔ ∀ e ∈ es', ¬bad e)) :
    Run step ok s₀ as es s ↔
      Run step (fun _ _ => True) s₀ as es s ∧ ∀ e ∈ es, ¬bad e := by
  constructor
  · intro run
    induction run with
    | nil => exact ⟨.nil, fun e he => absurd he List.not_mem_nil⟩
    | snoc _ ha hs ih =>
      refine ⟨.snoc ih.1 trivial hs, fun e he => ?_⟩
      rcases List.mem_append.mp he with he | he
      · exact ih.2 e he
      · exact (h _ _ _ _ hs).mp ha e he
  · rintro ⟨run, hbad⟩
    induction run with
    | nil => exact .nil
    | snoc _ _ hs ih =>
      have ha := (h _ _ _ _ hs).mpr fun e he => hbad e (List.mem_append_right _ he)
      exact .snoc (ih fun e he => hbad e (List.mem_append_left _ he)) ha hs

/-- Runs compose. -/
theorem trans (run : Run step ok s₀ as es s) (run' : Run step ok s as' es' s') :
    Run step ok s₀ (as ++ as') (es ++ es') s' := by
  induction run' with
  | nil => simpa using run
  | snoc _ ha hs ih =>
    rw [← List.append_assoc, ← List.append_assoc]
    exact .snoc ih ha hs

theorem single {a : α} (ha : ok s a) (hs : step s a = some (s', es')) :
    Run step ok s [a] es' s' :=
  snoc .nil ha hs

section

variable {K : Type*} [AddCommGroup K] [LinearOrder K] [IsOrderedAddMonoid K]
  {step : σ → α → Option (σ × List K)} {good : σ → α → Prop} {es : List K}

/-- A clock that no step sets back behind what the trace adds up to is never behind. -/
theorem sum_le_clock (time : σ → K)
    (hgood : ∀ s a s' es', ok s a → good s a → step s a = some (s', es') →
      time s' = time s + es'.sum)
    (hbad : ∀ s a s' es', ok s a → ¬good s a → step s a = some (s', es') →
      time s + es'.sum < time s')
    (run : Run step ok s₀ as es s) : time s₀ + es.sum ≤ time s := by
  induction run with
  | nil => rw [List.sum_nil, add_zero]
  | @snoc as es s a s' es' _ ha hs ih =>
    have hsum : time s₀ + (es ++ es').sum ≤ time s + es'.sum := by
      rw [List.sum_append, ← add_assoc]
      exact add_le_add_left ih _
    by_cases hg : good s a
    · exact hsum.trans (hgood s a s' es' ha hg hs).ge
    · exact hsum.trans (hbad s a s' es' ha hg hs).le

/-- It agrees with the trace exactly in the runs of which no step sets it forward. -/
theorem clock_eq_iff (time : σ → K)
    (hgood : ∀ s a s' es', ok s a → good s a → step s a = some (s', es') →
      time s' = time s + es'.sum)
    (hbad : ∀ s a s' es', ok s a → ¬good s a → step s a = some (s', es') →
      time s + es'.sum < time s')
    (run : Run step ok s₀ as es s) :
    time s = time s₀ + es.sum ↔ Run step (fun s a => ok s a ∧ good s a) s₀ as es s := by
  constructor
  · intro h
    induction run with
    | nil => exact .nil
    | @snoc as es s a s' es' run ha hs ih =>
      rw [List.sum_append, ← add_assoc] at h
      have hle := sum_le_clock time hgood hbad run
      by_cases hg : good s a
      · rw [hgood s a s' es' ha hg hs] at h
        exact .snoc (ih (add_right_cancel h)) ⟨ha, hg⟩ hs
      · have hlt := hbad s a s' es' ha hg hs
        rw [h] at hlt
        exact absurd (add_le_add_left hle _) hlt.not_ge
  · intro h
    induction h with
    | nil => rw [List.sum_nil, add_zero]
    | @snoc as es s a s' es' run' ha hs ih =>
      have run := run'.mono fun s a (h : ok s a ∧ good s a) => h.1
      rw [hgood s a s' es' ha.1 ha.2 hs, ih run, List.sum_append, add_assoc]

end

end Run

/-- `s` is reached by some run from `s₀`. -/
def Reachable (step : σ → α → Option (σ × List ε)) (ok : σ → α → Prop) (s₀ s : σ) :
    Prop :=
  ∃ as es, Run step ok s₀ as es s

theorem Reachable.refl : Reachable step ok s₀ s₀ := ⟨[], [], .nil⟩

theorem Reachable.trans (h : Reachable step ok s₀ s) (h' : Reachable step ok s s') :
    Reachable step ok s₀ s' := by
  obtain ⟨as, es, run⟩ := h
  obtain ⟨as', es', run'⟩ := h'
  exact ⟨_, _, run.trans run'⟩

theorem Reachable.invariant {I : σ → Prop} (h0 : I s₀)
    (hstep : ∀ s a s' es', I s → ok s a → step s a = some (s', es') → I s')
    (h : Reachable step ok s₀ s) : I s := by
  obtain ⟨as, es, run⟩ := h
  exact run.state_invariant h0 hstep

/-! ### Computing concrete runs -/

/-- Takes the actions one after another; fails at the first one that is not
enabled or not within the guard. -/
def exec (step : σ → α → Option (σ × List ε)) (ok : σ → α → Prop)
    [∀ s a, Decidable (ok s a)] : σ → List α → Option (σ × List ε)
  | s, [] => some (s, [])
  | s, a :: as =>
    if ok s a then
      match step s a with
      | none => none
      | some (s', es) => (exec step ok s' as).map fun r => (r.1, es ++ r.2)
    else none

theorem Run.of_exec [∀ s a, Decidable (ok s a)] :
    ∀ {as : List α} {s s' : σ} {es : List ε},
      exec step ok s as = some (s', es) → Run step ok s as es s' := by
  intro as
  induction as with
  | nil =>
    intro s s' es h
    simp only [exec, Option.some_inj, Prod.mk.injEq] at h
    obtain ⟨rfl, rfl⟩ := h
    exact .nil
  | cons a as ih =>
    intro s s' es h
    by_cases ha : ok s a
    · rw [exec, if_pos ha] at h
      cases hs : step s a with
      | none => simp [hs] at h
      | some r =>
        obtain ⟨s₁, es₁⟩ := r
        simp only [hs, Option.map_eq_some_iff, Prod.mk.injEq] at h
        obtain ⟨⟨s₂, es₂⟩, h₂, rfl, rfl⟩ := h
        exact (Run.single ha hs).trans (ih h₂)
    · rw [exec, if_neg ha] at h
      exact absurd h (by simp)

/-- The run that `exec` computes, when it succeeds. -/
theorem Run.of_exec_get [∀ s a, Decidable (ok s a)] {as : List α} {s : σ}
    (h : (exec step ok s as).isSome) :
    Run step ok s as ((exec step ok s as).get h).2 ((exec step ok s as).get h).1 :=
  Run.of_exec (Option.some_get h).symm

end Transition

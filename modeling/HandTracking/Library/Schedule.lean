/-
Conditions on the schedule of a run: which actions may follow which.

A condition on a run that names no state is a condition on the list of its actions.  Most of them
speak about the actions since some earlier one, between the two halves of an operation.

* `Scheduled ok as` — each action of `as` may follow the actions before it;
* `since p as` — the actions after the last one with `p`, the newest first;
* `Run.since_invariant` — what the actions with `p` establish and the others keep, as a statement
  about the actions since;
* `Run.of_scheduled`, `Run.scheduled_iff` — a guard on the states from a condition on the schedule.
-/
import HandTracking.Library.Transition
import Mathlib.Data.List.TakeWhile

namespace Transition

variable {σ α ε : Type*}

/-- Each action may follow the actions before it. -/
def Scheduled (ok : List α → α → Prop) (as : List α) : Prop :=
  ∀ n (h : n < as.length), ok (as.take n) as[n]

instance (ok : List α → α → Prop) [∀ as, DecidablePred (ok as)] (as : List α) :
    Decidable (Scheduled ok as) :=
  inferInstanceAs (Decidable (∀ n (h : n < as.length), ok (as.take n) as[n]))

theorem scheduled_nil (ok : List α → α → Prop) : Scheduled ok [] :=
  fun _ h => absurd h (Nat.not_lt_zero _)

theorem scheduled_append_singleton {ok : List α → α → Prop} {as : List α} {a : α} :
    Scheduled ok (as ++ [a]) ↔ Scheduled ok as ∧ ok as a := by
  constructor
  · intro h
    refine ⟨fun n hn => ?_, ?_⟩
    · have hok := h n (by rw [List.length_append]; exact Nat.lt_add_right _ hn)
      rwa [List.take_append_of_le_length hn.le, List.getElem_append_left hn] at hok
    · have hok := h as.length (by simp)
      rwa [List.take_left, List.getElem_concat_length rfl] at hok
  · rintro ⟨has, ha⟩ n hn
    rcases Nat.lt_or_ge n as.length with hlt | hge
    · rw [List.take_append_of_le_length hlt.le, List.getElem_append_left hlt]
      exact has n hlt
    · obtain rfl : n = as.length := by
        rw [List.length_append, List.length_singleton] at hn
        omega
      rwa [List.take_left, List.getElem_concat_length rfl]

/-- The actions after the last one with `p`, the newest first; all of them if there is none. -/
def since (p : α → Bool) (as : List α) : List α := as.reverse.takeWhile fun a => !p a

section

variable {p : α → Bool} {as : List α} {a : α}

@[simp] theorem since_nil : since p [] = [] := rfl

theorem since_append_of_pos (h : p a = true) : since p (as ++ [a]) = [] := by
  rw [since, List.reverse_append, List.reverse_singleton, List.singleton_append]
  exact List.takeWhile_cons_of_neg (by simp [h])

theorem since_append_of_neg (h : p a = false) : since p (as ++ [a]) = a :: since p as := by
  rw [since, List.reverse_append, List.reverse_singleton, List.singleton_append]
  exact List.takeWhile_cons_of_pos (by simp [h])

end

namespace Run

variable {step : σ → α → Option (σ × List ε)} {ok ok' : σ → α → Prop}
variable {s₀ s : σ} {as : List α} {es : List ε}

/-- The invariant rule for an operation that an action with `p` begins. -/
theorem since_invariant {p : α → Bool} {I : List α → σ → Prop} (h0 : I [] s₀)
    (hfirst : ∀ s a s' es', p a = true → ok s a → step s a = some (s', es') → I [] s')
    (hstep : ∀ w s a s' es', I w s → p a = false → ok s a → step s a = some (s', es') →
      I (a :: w) s')
    (run : Run step ok s₀ as es s) : I (since p as) s := by
  induction run with
  | nil => exact h0
  | @snoc as es s a s' es' _ ha hs ih =>
    cases hp : p a with
    | true =>
      rw [since_append_of_pos hp]
      exact hfirst _ _ _ _ hp ha hs
    | false =>
      rw [since_append_of_neg hp]
      exact hstep _ _ _ _ _ ih hp ha hs

/-- A guard that the condition on the schedule gives at each step holds all along. -/
theorem of_scheduled {c : List α → α → Prop}
    (h : ∀ as es s a, Run step ok s₀ as es s → ok s a → c as a → ok' s a)
    (run : Run step ok s₀ as es s) (hc : Scheduled c as) : Run step ok' s₀ as es s := by
  induction run with
  | nil => exact .nil
  | snoc run ha hs ih =>
    obtain ⟨has, hca⟩ := scheduled_append_singleton.mp hc
    exact .snoc (ih has) (h _ _ _ _ run ha hca) hs

/-- A guard that says at each step what the condition says: the runs within it are the runs with
such a schedule. -/
theorem scheduled_iff {c : List α → α → Prop}
    (h : ∀ as es s a s' es', Run step (fun _ _ => True) s₀ as es s →
      step s a = some (s', es') → (ok s a ↔ c as a)) :
    Run step ok s₀ as es s ↔ Run step (fun _ _ => True) s₀ as es s ∧ Scheduled c as := by
  constructor
  · intro run
    induction run with
    | nil => exact ⟨.nil, scheduled_nil c⟩
    | snoc _ ha hs ih =>
      obtain ⟨run, has⟩ := ih
      have hca := (h _ _ _ _ _ _ run hs).mp ha
      exact ⟨.snoc run trivial hs, scheduled_append_singleton.mpr ⟨has, hca⟩⟩
  · rintro ⟨run, hc⟩
    induction run with
    | nil => exact .nil
    | snoc run _ hs ih =>
      obtain ⟨has, hca⟩ := scheduled_append_singleton.mp hc
      exact .snoc (ih has) ((h _ _ _ _ _ _ run hs).mpr hca) hs

end Run

end Transition

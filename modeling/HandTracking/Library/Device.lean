/-
Programs that work on a device by asking it.

A program ends with a result or asks a question, and goes on with the answer.  A device answers from
its state, and changes it.

* `Prog.run` — a program on a device; `run_bind` takes it apart;
* `Prog.Within` — on two devices side by side, every question keeps to a condition;
* `Prog.run_of_within` — two devices that agree under the condition give the same result;
* `Prog.within_congr` — where the condition says exactly when they agree, a program keeps to it
  exactly if it gets the same answers all along.
-/
import Mathlib.Logic.Basic

/-- A program that asks questions, whose answers decide how it goes on. -/
inductive Prog (Q : Type) (A : Q → Type) (α : Type) where
  | done (a : α)
  | ask (q : Q) (next : A q → Prog Q A α)

/-- How a device answers in a state, and the state after. -/
abbrev Device (Q : Type) (A : Q → Type) (σ : Type) := σ → (q : Q) → A q × σ

namespace Prog

variable {Q : Type} {A : Q → Type} {α β σ τ : Type}

/-- One program after another. -/
protected def bind : Prog Q A α → (α → Prog Q A β) → Prog Q A β
  | done a, f => f a
  | ask q next, f => ask q fun x => (next x).bind f

/-- The result of a program and the state of the device after it. -/
def run (d : Device Q A σ) : Prog Q A α → σ → α × σ
  | done a, s => (a, s)
  | ask q next, s => (next (d s q).1).run d (d s q).2

variable {d : Device Q A σ} {d' : Device Q A τ} {s : σ} {t : τ}

@[simp] theorem run_done (a : α) : (done a : Prog Q A α).run d s = (a, s) := rfl

@[simp] theorem run_ask (q : Q) (next : A q → Prog Q A α) :
    (ask q next).run d s = (next (d s q).1).run d (d s q).2 := rfl

@[simp] theorem run_bind (p : Prog Q A α) (f : α → Prog Q A β) (s : σ) :
    (p.bind f).run d s = (f (p.run d s).1).run d (p.run d s).2 := by
  induction p generalizing s with
  | done a => rfl
  | ask q next ih => exact ih (d s q).1 (d s q).2

/-! ### Two devices -/

/-- All questions of the program keep to `ok`, on two devices that get those that follow the answers
of the first. -/
def Within (ok : σ → τ → Q → Prop) (d : Device Q A σ) (d' : Device Q A τ) :
    Prog Q A α → σ → τ → Prop
  | done _, _, _ => True
  | ask q next, s, t => ok s t q ∧ (next (d s q).1).Within ok d d' (d s q).2 (d' t q).2

/-- It can be decided whether a run stays within a decidable condition. -/
def decideWithin {ok : σ → τ → Q → Prop} (dec : ∀ s t q, Decidable (ok s t q)) (d : Device Q A σ)
    (d' : Device Q A τ) : (p : Prog Q A α) → (s : σ) → (t : τ) → Decidable (p.Within ok d d' s t)
  | done _, _, _ => isTrue trivial
  | ask q next, s, t =>
    haveI := dec s t q
    haveI := decideWithin dec d d' (next (d s q).1) (d s q).2 (d' t q).2
    inferInstanceAs (Decidable (_ ∧ _))

instance {ok : σ → τ → Q → Prop} [dec : ∀ s t q, Decidable (ok s t q)] (p : Prog Q A α) (s : σ)
    (t : τ) : Decidable (p.Within ok d d' s t) :=
  decideWithin dec d d' p s t

/-- From related states, the devices give the same answers under `ok` and stay related. -/
def Agree (R : σ → τ → Prop) (ok : σ → τ → Q → Prop) (d : Device Q A σ) (d' : Device Q A τ) :
    Prop :=
  ∀ s t q, R s t → ok s t q → (d s q).1 = (d' t q).1 ∧ R (d s q).2 (d' t q).2

variable {R : σ → τ → Prop} {ok ok' : σ → τ → Q → Prop} {p : Prog Q A α}

theorem run_of_within (h : Agree R ok d d') (hR : R s t) (hp : p.Within ok d d' s t) :
    (p.run d s).1 = (p.run d' t).1 ∧ R (p.run d s).2 (p.run d' t).2 := by
  induction p generalizing s t with
  | done a => exact ⟨rfl, hR⟩
  | ask q next ih =>
    obtain ⟨hq, hnext⟩ := hp
    obtain ⟨heq, hR'⟩ := h s t q hR hq
    have hrun := ih (d s q).1 hR' hnext
    rwa [run_ask, run_ask, ← heq]

/-- Two conditions that mean the same while the devices are related. -/
theorem within_congr (h : Agree R ok d d') (hok : ∀ s t q, R s t → (ok s t q ↔ ok' s t q))
    (hR : R s t) : p.Within ok d d' s t ↔ p.Within ok' d d' s t := by
  induction p generalizing s t with
  | done a => exact Iff.rfl
  | ask q next ih =>
    unfold Within
    rw [← hok s t q hR]
    exact and_congr_right fun hq => ih _ (h s t q hR hq).2

end Prog

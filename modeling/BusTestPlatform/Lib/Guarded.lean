import Mathlib

/-!
# Guarded runs

A system is a partial step function: `step s a` is the state after action `a`, or `none` where
`a` is not enabled. `Reach step ok s₀` are the states of the runs from `s₀` whose every step meets
the condition `ok` on the state before it and the action.
-/

namespace Guarded

variable {σ α : Type*}

/-- The states of the runs from `s₀` whose steps all meet `ok`. -/
inductive Reach (step : σ → α → Option σ) (ok : σ → α → Prop) (s₀ : σ) : σ → Prop
  | refl : Reach step ok s₀ s₀
  | step {s s' : σ} {a : α} (h : Reach step ok s₀ s) (hok : ok s a) (hstep : step s a = some s') :
      Reach step ok s₀ s'

variable {step : σ → α → Option σ} {ok ok' : σ → α → Prop} {s₀ s s' : σ}

/-- What holds at first and is kept by every step that meets the condition holds throughout. -/
lemma Reach.invariant {I : σ → Prop} (h : Reach step ok s₀ s) (h₀ : I s₀)
    (hstep : ∀ s a s', I s → ok s a → step s a = some s' → I s') : I s := by
  induction h with
  | refl => exact h₀
  | step _ hok hs ih => exact hstep _ _ _ ih hok hs

/-- Where an invariant implies the condition, every run meets it. -/
lemma Reach.of_invariant {I : σ → Prop} (h : Reach step ok s₀ s) (h₀ : I s₀)
    (hok : ∀ s a s', I s → step s a = some s' → ok' s a)
    (hstep : ∀ s a s', I s → step s a = some s' → I s') :
    Reach step ok' s₀ s ∧ I s := by
  induction h with
  | refl => exact ⟨.refl, h₀⟩
  | step _ _ hs ih => exact ⟨ih.1.step (hok _ _ _ ih.2 hs) hs, hstep _ _ _ ih.2 hs⟩

/-- Performs the actions one after the other, as long as they are enabled and meet `ok`. -/
def exec (step : σ → α → Option σ) (ok : σ → α → Prop) [∀ s a, Decidable (ok s a)] (s : σ) :
    List α → Option σ
  | [] => some s
  | a :: as => if ok s a then (step s a).bind (exec step ok · as) else none

lemma Reach.exec [∀ s a, Decidable (ok s a)] {as : List α} (h : Reach step ok s₀ s)
    (hexec : Guarded.exec step ok s as = some s') : Reach step ok s₀ s' := by
  induction as generalizing s with
  | nil =>
    obtain rfl := Option.some.inj hexec
    exact h
  | cons a as ih =>
    rw [Guarded.exec] at hexec
    split at hexec
    · rename_i hok
      obtain ⟨t, hstep, hrest⟩ := Option.bind_eq_some_iff.mp hexec
      exact ih (h.step hok hstep) hrest
    · cases hexec

/-- A run given by its actions, of which `f` of the last state is known. -/
lemma exists_reach_of_exec {β : Type*} [∀ s a, Decidable (ok s a)] {as : List α} (f : σ → β)
    {v : β} (h : (exec step ok s₀ as).map f = some v) : ∃ s, Reach step ok s₀ s ∧ f s = v := by
  obtain ⟨s, hexec, hv⟩ := Option.map_eq_some_iff.mp h
  exact ⟨s, Reach.refl.exec hexec, hv⟩

end Guarded

import Mathlib

/-!
# Waiting for one thread among others

While one thread waits for another, any steps of the whole system may happen. `Wait step mine held`
are the runs through states in which the wait lasts, with the number of steps that the awaited
thread took. A rank that its own steps lower, and that no other step raises, bounds that number
whatever the others do in between.
-/

namespace Waiting

variable {σ : Type*}

/-- A run from `s` on, `n` steps of which are those of the awaited thread. -/
inductive Wait (step mine : σ → σ → Prop) (held : σ → Prop) (s : σ) : ℕ → σ → Prop
  | refl : Wait step mine held s 0 s
  | own {n : ℕ} {t u : σ} (h : Wait step mine held s n t) (hstep : step t u) (hmine : mine t u)
      (hheld : held u) : Wait step mine held s (n + 1) u
  | other {n : ℕ} {t u : σ} (h : Wait step mine held s n t) (hstep : step t u)
      (hmine : ¬ mine t u) (hheld : held u) : Wait step mine held s n u

variable {step mine : σ → σ → Prop} {held I : σ → Prop} {rank : σ → ℕ} {s t : σ} {n : ℕ}

lemma Wait.isHeld (h : Wait step mine held s n t) (hs : held s) : held t := by
  cases h with
  | refl => exact hs
  | own _ _ _ hheld => exact hheld
  | other _ _ _ hheld => exact hheld

lemma Wait.invariant (h : Wait step mine held s n t) (hs : I s)
    (hinv : ∀ t u, I t → step t u → I u) : I t := by
  induction h with
  | refl => exact hs
  | own _ hstep _ _ ih => exact hinv _ _ ih hstep
  | other _ hstep _ _ ih => exact hinv _ _ ih hstep

/-- The steps of the awaited thread use up the rank. -/
lemma Wait.add_rank_le (h : Wait step mine held s n t) (hs : I s) (hheld : held s)
    (hinv : ∀ t u, I t → step t u → I u)
    (hrank : ∀ t u, I t → held t → step t u → held u →
      rank u < rank t ∨ rank u = rank t ∧ ¬ mine t u) :
    n + rank t ≤ rank s := by
  induction h with
  | refl => exact (Nat.zero_add _).le
  | own hrun hstep hmine hu ih =>
    rcases hrank _ _ (hrun.invariant hs hinv) (hrun.isHeld hheld) hstep hu with hlt | ⟨-, hother⟩
    · omega
    · exact absurd hmine hother
  | other hrun hstep hmine hu ih =>
    rcases hrank _ _ (hrun.invariant hs hinv) (hrun.isHeld hheld) hstep hu with hlt | ⟨heq, -⟩
    · omega
    · omega

end Waiting

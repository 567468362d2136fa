import Mathlib

/-!
# Synchronous machines

A clocked circuit is a step function on its registers. `runFrom step s₀ inp n` is the contents
of the registers just before clock edge `n`, when edge `k` sees the input `inp k`.
-/

namespace Clocked

variable {σ ι : Type*}

/-- The registers before clock edge `n`, started in `s₀` and driven by the input stream `inp`. -/
def runFrom (step : σ → ι → σ) (s₀ : σ) (inp : ℕ → ι) : ℕ → σ
  | 0 => s₀
  | n + 1 => step (runFrom step s₀ inp n) (inp n)

@[simp] lemma runFrom_zero (step : σ → ι → σ) (s₀ : σ) (inp : ℕ → ι) :
    runFrom step s₀ inp 0 = s₀ := rfl

lemma runFrom_succ (step : σ → ι → σ) (s₀ : σ) (inp : ℕ → ι) (n : ℕ) :
    runFrom step s₀ inp (n + 1) = step (runFrom step s₀ inp n) (inp n) := rfl

variable {step : σ → ι → σ} {s₀ : σ} {inp : ℕ → ι}

/-- What no edge from `a` on changes is at `b` as it was at `a`. -/
lemma runFrom_stable {β : Type*} (f : σ → β) {a b : ℕ} (hab : a ≤ b)
    (h : ∀ n, a ≤ n → n < b → f (runFrom step s₀ inp (n + 1)) = f (runFrom step s₀ inp n)) :
    f (runFrom step s₀ inp b) = f (runFrom step s₀ inp a) := by
  induction b, hab using Nat.le_induction with
  | base => rfl
  | succ b hab ih =>
    rw [h b hab (Nat.lt_succ_self b)]
    exact ih fun n hn hb => h n hn (Nat.lt_succ_of_lt hb)

/-- A part of the registers that steps like a machine of its own runs like it. -/
lemma runFrom_part {τ κ : Type*} {step' : τ → κ → τ} {t₀ : τ} {inp' : ℕ → κ} (part : σ → τ)
    (h₀ : part s₀ = t₀) {N : ℕ}
    (hstep : ∀ n < N, part (runFrom step s₀ inp (n + 1)) =
      step' (part (runFrom step s₀ inp n)) (inp' n)) :
    part (runFrom step s₀ inp N) = runFrom step' t₀ inp' N := by
  induction N with
  | zero => exact h₀
  | succ N ih =>
    rw [hstep N (Nat.lt_succ_self N), ih fun n hn => hstep n (Nat.lt_succ_of_lt hn), runFrom_succ]

/-- The machine waits no longer than its distance `d` from what it waits for, when every clock of
waiting brings it nearer. -/
lemma exists_le_of_nearer {W P : ℕ → Prop} {d : ℕ → ℕ} {r n : ℕ}
    (hstep : ∀ m, n ≤ m → m ≤ n + r → W m → P (m + 1) ∨ (W (m + 1) ∧ d (m + 1) < d m))
    (hwait : W n) (hd : d n ≤ r) : ∃ m, m ≤ r ∧ P (n + m + 1) := by
  induction r generalizing n with
  | zero =>
    rcases hstep n le_rfl le_rfl hwait with hdone | ⟨-, hlt⟩
    · exact ⟨0, le_rfl, hdone⟩
    · omega
  | succ r ih =>
    rcases hstep n le_rfl (Nat.le_add_right n _) hwait with hdone | ⟨hwait', hlt⟩
    · exact ⟨0, Nat.zero_le _, hdone⟩
    · obtain ⟨m, hm, hdone⟩ := ih (fun m hm hm' => hstep m (by omega) (by omega)) hwait' (by omega)
      refine ⟨m + 1, Nat.succ_le_succ hm, ?_⟩
      rwa [show n + (m + 1) + 1 = n + 1 + m + 1 by omega]

/-! ### A register loaded at strobes -/

section Loaded

variable {β : Type*} (reg : ℕ → β) {value : ℕ → β} {strobe : ℕ → Bool} {n : ℕ}

/-- Before the first strobe the register is as it was at reset. -/
lemma loaded_of_no_strobe (hreg : ∀ m, reg (m + 1) = if strobe m then value m else reg m)
    (h : ∀ m < n, strobe m = false) : reg n = reg 0 := by
  induction n with
  | zero => rfl
  | succ n ih =>
    rw [hreg, h n (Nat.lt_succ_self n), if_neg Bool.false_ne_true]
    exact ih fun m hm => h m (Nat.lt_succ_of_lt hm)

/-- After one it holds what the last one has loaded. -/
lemma loaded_of_strobe (hreg : ∀ m, reg (m + 1) = if strobe m then value m else reg m) {e : ℕ}
    (he : e < n) (hload : strobe e = true) (h : ∀ m, e < m → m < n → strobe m = false) :
    reg n = value e := by
  induction n, he using Nat.le_induction with
  | base => rw [hreg, hload, if_pos rfl]
  | succ n hn ih =>
    rw [hreg, h n hn (Nat.lt_succ_self n), if_neg Bool.false_ne_true]
    exact ih fun m hm hmn => h m hm (Nat.lt_succ_of_lt hmn)

end Loaded

end Clocked

import Mathlib

/-!
# Whole periods

A schedule anchored at `t₀` with period `p` has its deadlines at `t₀ + p`, `t₀ + 2 p`, ... How many
of them have passed is the quotient of the time since the anchor by the period, and a schedule that
is served by advancing one deadline at a time keeps exactly this count.
-/

namespace Periodic

/-- At time `m`, `k` deadlines have passed and no more. -/
def Elapsed (t₀ p m k : ℕ) : Prop := t₀ + p * k ≤ m ∧ m < t₀ + p * (k + 1)

variable {t₀ p m k : ℕ}

lemma elapsed_anchor (hp : 0 < p) : Elapsed t₀ p t₀ 0 := by
  simp [Elapsed, hp]

/-- The number of deadlines passed is the quotient. -/
lemma Elapsed.eq_div (h : Elapsed t₀ p m k) : k = (m - t₀) / p := by
  obtain ⟨hle, hlt⟩ := h
  refine (Nat.div_eq_of_lt_le ?_ ?_).symm
  · rw [Nat.mul_comm]
    exact Nat.le_sub_of_add_le (by rwa [Nat.add_comm])
  · rw [Nat.mul_comm]
    exact Nat.sub_lt_left_of_lt_add ((Nat.le_add_right _ _).trans hle) hlt

/-- An earlier time changes nothing. -/
lemma Elapsed.of_lt {now : ℕ} (h : Elapsed t₀ p m k) (hnow : now < t₀ + p * (k + 1)) :
    Elapsed t₀ p (max m now) k :=
  ⟨h.1.trans (Nat.le_max_left ..), Nat.max_lt.mpr ⟨h.2, hnow⟩⟩

/-- A later time counts the deadlines up to it. -/
lemma Elapsed.of_le {now k' : ℕ} (h : Elapsed t₀ p m k) (hk : k < k')
    (hnow : Elapsed t₀ p now k') : Elapsed t₀ p (max m now) k' := by
  have hm : m < t₀ + p * k' :=
    h.2.trans_le (Nat.add_le_add_left (Nat.mul_le_mul_left p hk) t₀)
  rw [Nat.max_eq_right (hm.le.trans hnow.1)]
  exact hnow

/-! ### Phases -/

lemma add_one_mod (a : ℕ) (hp : 0 < p) :
    (a + 1) % p = if a % p + 1 = p then 0 else a % p + 1 := by
  have hlt := Nat.mod_lt a hp
  rw [← Nat.mod_add_mod]
  split_ifs with h
  · rw [h, Nat.mod_self]
  · exact Nat.mod_eq_of_lt (by omega)

/-- Phases in a row are all below `w` when the first one leaves room for the others. -/
lemma forall_mod_lt_iff {a c w : ℕ} (hw : w < p) :
    (∀ j ≤ c, (a + j) % p < w) ↔ a % p + c < w := by
  have hlt := Nat.mod_lt a (Nat.zero_lt_of_lt hw)
  constructor
  · intro h
    by_contra hlong
    -- Either the last phase is too large, or the stretch goes through the last phase of the period.
    rcases Nat.lt_or_ge (a % p + c) p with hin | hover
    · have hlast := h c le_rfl
      rw [← Nat.mod_add_mod, Nat.mod_eq_of_lt hin] at hlast
      exact hlong hlast
    · have hlast := h (p - 1 - a % p) (by omega)
      rw [← Nat.mod_add_mod, Nat.mod_eq_of_lt (by omega)] at hlast
      omega
  · intro h j hj
    rw [← Nat.mod_add_mod, Nat.mod_eq_of_lt (by omega)]
    omega

end Periodic

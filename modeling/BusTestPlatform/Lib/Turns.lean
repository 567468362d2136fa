import Mathlib

/-!
# Taking turns

Where `k` participants take turns, turn `i` is that of participant `i % k`. Among any `n` turns in a
row everyone has `n / k` of them, rounded down or up.
-/

namespace Turns

variable {k r : ℕ}

/-- The turns of participant `r` before turn `b`. -/
lemma count_turns (hr : r < k) (b : ℕ) : b.count (· % k = r) = (b + (k - 1 - r)) / k := by
  induction b with
  | zero => rw [Nat.count_zero, Nat.div_eq_of_lt (by omega)]
  | succ b ih =>
    have hturn : b % k = r ↔ k ∣ b + (k - 1 - r) + 1 := by
      have hsum : b + (k - 1 - r) + 1 = b % k + (k - r) + k * (b / k) := by
        have := Nat.mod_add_div b k
        omega
      have hlt := Nat.mod_lt b (Nat.zero_lt_of_lt hr)
      rw [hsum, Nat.dvd_add_left (Nat.dvd_mul_right k _)]
      constructor
      · intro h
        rw [h, Nat.add_sub_cancel' hr.le]
      · rintro ⟨q, hq⟩
        obtain rfl : q = 1 := by
          rcases Nat.lt_trichotomy q 1 with hq0 | rfl | hq2
          · rw [Nat.lt_one_iff.mp hq0] at hq
            omega
          · rfl
          · have := Nat.mul_le_mul_left k (show 2 ≤ q from hq2)
            omega
        omega
    rw [Nat.count_succ, ih, Nat.add_right_comm, Nat.succ_div]
    simp only [hturn]

/-- The turns of participant `r` among `n` turns from turn `m` on. -/
lemma count_window (hr : r < k) (m n : ℕ) :
    n / k ≤ n.count (fun i => (m + i) % k = r) ∧
      n.count (fun i => (m + i) % k = r) ≤ (n + k - 1) / k := by
  have hk := Nat.zero_lt_of_lt hr
  have hsplit := Nat.count_add (· % k = r) m n
  rw [count_turns hr, count_turns hr, Nat.add_right_comm] at hsplit
  generalize m + (k - 1 - r) = x at hsplit
  have hlow : x / k + n / k ≤ (x + n) / k := Nat.div_add_div_le_add_div
  have hhigh : (x + n) / k ≤ x / k + (n + k - 1) / k := by
    have hmod := Nat.mod_lt x hk
    have hdiv := Nat.mod_add_div x k
    have hle : x + n ≤ k * (x / k) + (n + k - 1) := by omega
    refine (Nat.div_le_div_right hle).trans_eq ?_
    rw [Nat.mul_add_div hk]
  omega

lemma countP_eq_count {α : Type*} {p : α → Bool} {q : ℕ → Prop} [DecidablePred q] {xs : List α}
    (h : ∀ i x, xs[i]? = some x → (p x = true ↔ q i)) : xs.countP p = xs.length.count q := by
  induction xs generalizing q with
  | nil => rfl
  | cons x xs ih =>
    have hhead := h 0 x rfl
    rw [List.length_cons, Nat.count_succ', ← ih fun i y hy => h (i + 1) y hy, List.countP_cons]
    simp only [hhead]

end Turns

import Mathlib

/-!
# A counter corrected once per period

A counter reads `t` at its first sample. After every sample it is corrected by the error of the
period that ends there, `N` minus the distance to the previous sample (0 before the first), cut to
a signed word of modulus `m`. The correction replaces one of the `p` increments up to the next
sample.

The error of one period enters the next with the opposite sign, so nothing is damped: corrections
repeat with period two, and the even and the odd samples are two arithmetic progressions.
-/

namespace Feedback

variable (m : ℕ) (N p t : ℤ)

/-- The correction computed at sample `k`. -/
def correction : ℕ → ℤ
  | 0 => (N - t).bmod m
  | k + 1 => (N - (p - 1 + correction k)).bmod m

/-- The counter at sample `k`, before any wrap of the counter itself. -/
def reading : ℕ → ℤ
  | 0 => t
  | k + 1 => reading k + (p - 1 + correction m N p t k)

/-- What two periods add to the counter. -/
def twoPeriods : ℤ := 2 * (p - 1) + correction m N p t 0 + correction m N p t 1

lemma correction_bmod (k : ℕ) : (correction m N p t k).bmod m = correction m N p t k := by
  cases k <;> exact Int.bmod_bmod

/-- The correction of a correction is undone one period later. -/
lemma correction_add_two (k : ℕ) : correction m N p t (k + 2) = correction m N p t k := by
  have h : N - (p - 1 + (N - (p - 1 + correction m N p t k)).bmod m) =
      N - (p - 1) - (N - (p - 1 + correction m N p t k)).bmod m := by ring
  rw [correction, correction, h, Int.sub_bmod_bmod]
  rw [show N - (p - 1) - (N - (p - 1 + correction m N p t k)) = correction m N p t k by ring]
  exact correction_bmod m N p t k

lemma correction_two_mul (j : ℕ) : correction m N p t (2 * j) = correction m N p t 0 := by
  induction j with
  | zero => rfl
  | succ j ih => rw [Nat.mul_succ, correction_add_two, ih]

lemma correction_two_mul_add_one (j : ℕ) :
    correction m N p t (2 * j + 1) = correction m N p t 1 := by
  induction j with
  | zero => rfl
  | succ j ih =>
    rw [show 2 * (j + 1) + 1 = 2 * j + 1 + 2 by ring, correction_add_two, ih]

/-- The even samples advance by the same amount every two periods. -/
lemma reading_two_mul (j : ℕ) :
    reading m N p t (2 * j) = t + j * twoPeriods m N p t := by
  induction j with
  | zero => simp [reading]
  | succ j ih =>
    rw [show 2 * (j + 1) = 2 * j + 1 + 1 by ring, reading, reading, ih, correction_two_mul,
      correction_two_mul_add_one, twoPeriods]
    push_cast
    ring

lemma reading_two_mul_add_one (j : ℕ) :
    reading m N p t (2 * j + 1) =
      t + (p - 1 + correction m N p t 0) + j * twoPeriods m N p t := by
  rw [reading, reading_two_mul, correction_two_mul]
  ring

/-- The two corrections add up to `N - (p - 1)`, up to a wrap of the correction word. -/
lemma correction_sum_modEq :
    (m : ℤ) ∣ N - (p - 1) - (correction m N p t 0 + correction m N p t 1) := by
  have h : N - (p - 1) - (correction m N p t 0 + correction m N p t 1) =
      N - (p - 1 + correction m N p t 0) -
        (N - (p - 1 + correction m N p t 0)).bmod m := by
    rw [show correction m N p t 1 = (N - (p - 1 + correction m N p t 0)).bmod m from rfl]
    ring
  rw [h]
  exact Int.dvd_self_sub_bmod

/-- A progression that stays, modulo `M`, inside a window narrow against `M` does not move. -/
lemma eq_zero_of_progression_bounded {M B : ℕ} {a s : ℤ} (hM : |s| + 2 * B ≤ M)
    (h : ∀ j : ℕ, 1 ≤ j → |(a + j * s).bmod M| < B) : s = 0 := by
  -- consecutive residues differ by exactly `s`, since `M` is too large to hide anything else
  have hstep : ∀ j : ℕ, 1 ≤ j → (a + (j + 1 : ℕ) * s).bmod M = (a + j * s).bmod M + s := by
    intro j hj
    have h1 := h j hj
    have h2 := h (j + 1) (by omega)
    have hdvd : (M : ℤ) ∣ (a + (j + 1 : ℕ) * s).bmod M - (a + j * s).bmod M - s := by
      have d1 := Int.dvd_bmod_sub_self (x := a + (j + 1 : ℕ) * s) (m := M)
      have d2 := Int.dvd_bmod_sub_self (x := a + j * s) (m := M)
      have hsub := dvd_sub d1 d2
      rwa [show (a + (j + 1 : ℕ) * s).bmod M - (a + (j + 1 : ℕ) * s) -
          ((a + j * s).bmod M - (a + j * s)) =
          (a + (j + 1 : ℕ) * s).bmod M - (a + j * s).bmod M - s by push_cast; ring] at hsub
    have hzero := Int.eq_zero_of_abs_lt_dvd hdvd (by
      rw [abs_lt] at h1 h2 ⊢
      have := neg_abs_le s
      have := le_abs_self s
      constructor <;> linarith [h1.1, h1.2, h2.1, h2.2])
    linarith
  have hline : ∀ i : ℕ, (a + (1 + i : ℕ) * s).bmod M = (a + (1 : ℕ) * s).bmod M + i * s := by
    intro i
    induction i with
    | zero => simp
    | succ i ih =>
      rw [← Nat.add_assoc, hstep (1 + i) (by omega), ih]
      push_cast
      ring
  have h1 := h 1 le_rfl
  have h2 := h (1 + 2 * B) (by omega)
  rw [hline] at h2
  have hsmall : |(2 * B : ℕ) * s| < 2 * B := by
    rw [abs_lt] at h1 h2 ⊢
    constructor <;> push_cast at * <;> linarith [h1.1, h1.2, h2.1, h2.2]
  by_contra hne
  have hone : (1 : ℤ) ≤ |s| := Int.one_le_abs hne
  rw [abs_mul] at hsmall
  push_cast at hsmall
  have hB : |(2 * B : ℤ)| = 2 * B := abs_of_nonneg (by positivity)
  rw [hB] at hsmall
  nlinarith

end Feedback

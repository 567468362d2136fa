import Mathlib

/-!
# Counters of a fixed width

A counter of `w` bits that has counted `n` times from 0 holds `n` modulo `2 ^ w`. How far two of
them are apart is still their difference, as long as this is less than `2 ^ w`.
-/

namespace Counter

variable {w : ℕ}

lemma ofNat_succ (n : ℕ) : BitVec.ofNat w n + 1 = BitVec.ofNat w (n + 1) :=
  (BitVec.ofNat_add ..).symm

/-- However often the two have wrapped. -/
lemma toNat_ofNat_sub {a b : ℕ} (hab : a ≤ b) (hb : b < a + 2 ^ w) :
    (BitVec.ofNat w b - BitVec.ofNat w a).toNat = b - a := by
  have hsplit : BitVec.ofNat w b = BitVec.ofNat w (b - a) + BitVec.ofNat w a := by
    rw [← BitVec.ofNat_add, Nat.sub_add_cancel hab]
  rw [hsplit, BitVec.add_sub_cancel, BitVec.toNat_ofNat, Nat.mod_eq_of_lt (by omega)]

/-- Counting down. -/
lemma toNat_sub_one {a : BitVec w} (h : a ≠ 0) : (a - 1).toNat + 1 = a.toNat := by
  have hpos : 0 < a.toNat := BitVec.toNat_pos_of_ne_zero h
  have hw := a.isLt
  have hone : (1 : BitVec w).toNat = 1 := Nat.mod_eq_of_lt (show 1 < 2 ^ w by omega)
  rw [BitVec.toNat_sub_of_le (by rw [BitVec.le_def, hone]; exact hpos), hone]
  exact Nat.sub_add_cancel hpos

/-- Less than a wrap below a counter is not the counter itself. -/
lemma sub_one_sub_ne {a : BitVec w} {k : ℕ} (hk : k + 1 < 2 ^ w) :
    a - 1 - BitVec.ofNat w k ≠ a := by
  intro h
  have hzero : BitVec.ofNat w (k + 1) = 0 := by
    rw [sub_sub, sub_eq_self] at h
    rw [BitVec.ofNat_add, add_comm]
    exact h
  have hval := congrArg BitVec.toNat hzero
  rw [BitVec.toNat_ofNat, Nat.mod_eq_of_lt hk] at hval
  exact Nat.succ_ne_zero k (hval.trans BitVec.toNat_zero)

/-- Cutting a signed word down to fewer bits. -/
lemma toInt_setWidth_ofInt {v : ℕ} (hv : v ≤ w) (x : ℤ) :
    ((BitVec.ofInt w x).setWidth v).toInt = x.bmod (2 ^ v) := by
  have hdvd : 2 ^ v ∣ 2 ^ w := Nat.pow_dvd_pow 2 hv
  have hpos : (0 : ℤ) < (2 ^ w : ℕ) := Nat.cast_pos.mpr (Nat.two_pow_pos w)
  rw [BitVec.toInt_setWidth, BitVec.toNat_ofInt,
    Int.toNat_of_nonneg (Int.emod_nonneg x hpos.ne'), ← Int.bmod_bmod_of_dvd hdvd, Int.emod_bmod,
    Int.bmod_bmod_of_dvd hdvd]

end Counter

import Mathlib

/-!
# Strides around a ring

A walk that starts at `x` and takes steps of length `p` modulo `m` comes to just the places that
agree with `x` modulo `gcd p m`. So it gets past a bound exactly if the last of these places does.
-/

namespace Stride

/-- Where the walk is after `k` steps. -/
def place (m p x k : ℕ) : ℕ := (x + k * p) % m

/-- The last place before the end of the ring. -/
def top (m p x : ℕ) : ℕ := m - p.gcd m + x % p.gcd m

variable {m p x y b k : ℕ}

lemma place_mod_gcd (k : ℕ) : place m p x k % p.gcd m = x % p.gcd m := by
  have hstep : k * p ≡ 0 [MOD p.gcd m] :=
    Nat.modEq_zero_iff_dvd.mpr ((Nat.gcd_dvd_left p m).mul_left k)
  rw [place, Nat.mod_mod_of_dvd _ (Nat.gcd_dvd_right p m)]
  exact hstep.add_left x

/-- Going around once more changes nothing. -/
lemma place_mod (k : ℕ) : place m p x (k % m) = place m p x k :=
  ((Nat.mod_modEq k m).mul_right p).add_left x

/-- The walk comes to every place that agrees with its start. -/
lemma exists_place_eq (hy : y < m) (h : y % p.gcd m = x % p.gcd m) : ∃ k, place m p x k = y := by
  have hm : (m : ℤ) ≠ 0 := by omega
  obtain ⟨t, ht⟩ : (p.gcd m : ℤ) ∣ y - x := Nat.modEq_iff_dvd.mp h.symm
  -- Bézout: so many steps that they are `y - x` up to turns of the ring
  set u := p.gcdA m * t
  refine ⟨(u % m).toNat, ?_⟩
  rw [place, ← Nat.mod_eq_of_lt hy]
  apply Int.natCast_modEq_iff.mp
  push_cast
  rw [Int.toNat_of_nonneg (Int.emod_nonneg u hm)]
  calc (x : ℤ) + u % m * p
      ≡ x + u * p [ZMOD m] := ((Int.mod_modEq u m).mul_right p).add_left x
    _ = y - m * (p.gcdB m * t) := by
      have hgcd := Nat.gcd_eq_gcd_ab p m
      rw [hgcd] at ht
      linear_combination -ht
    _ ≡ y [ZMOD m] := Int.modEq_iff_dvd.mpr ⟨p.gcdB m * t, by ring⟩

lemma place_le_top (hm : 0 < m) (k : ℕ) : place m p x k ≤ top m p x := by
  have hdvd := Nat.gcd_dvd_right p m
  have hquot : place m p x k / p.gcd m < m / p.gcd m :=
    Nat.div_lt_div_of_lt_of_dvd hdvd (Nat.mod_lt _ hm)
  have hturn := Nat.mul_le_mul_left (p.gcd m) hquot
  have hplace := Nat.div_add_mod (place m p x k) (p.gcd m)
  rw [place_mod_gcd] at hplace
  rw [Nat.mul_div_cancel' hdvd, Nat.mul_succ] at hturn
  rw [top]
  omega

lemma top_lt (hm : 0 < m) : top m p x < m := by
  have hle : p.gcd m ≤ m := Nat.le_of_dvd hm (Nat.gcd_dvd_right p m)
  have hmod := Nat.mod_lt x (Nat.gcd_pos_of_pos_right p hm)
  rw [top]
  omega

lemma top_mod_gcd : top m p x % p.gcd m = x % p.gcd m := by
  have hturn : m - p.gcd m ≡ 0 [MOD p.gcd m] :=
    Nat.modEq_zero_iff_dvd.mpr (Nat.dvd_sub (Nat.gcd_dvd_right p m) dvd_rfl)
  calc top m p x % p.gcd m = (0 + x % p.gcd m) % p.gcd m := hturn.add_right _
    _ = x % p.gcd m := by rw [Nat.zero_add, Nat.mod_mod]

/-- The walk gets past a bound iff the last of its places is. -/
lemma exists_lt_place_iff (hm : 0 < m) : (∃ k, b < place m p x k) ↔ b < top m p x := by
  constructor
  · rintro ⟨k, hk⟩
    exact hk.trans_le (place_le_top hm k)
  · intro hb
    obtain ⟨k, hk⟩ := exists_place_eq (top_lt hm) (top_mod_gcd (p := p) (x := x))
    exact ⟨k, hk ▸ hb⟩

end Stride

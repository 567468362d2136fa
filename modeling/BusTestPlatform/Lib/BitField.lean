import BusTestPlatform.Lib.Bytes

/-!
# Bit fields of a payload

A payload is a sequence of bytes. A field takes its bits, the least significant first, from the
payload bits at given positions. Where the positions are consecutive, the field is a part of the
integer that the payload is in one of the two byte orders.
-/

namespace BitField

/-- Bit `p` of a payload: bit `p % 8` of byte `p / 8`, where bit 0 is the least significant. -/
def bit (data : ℕ → UInt8) (p : ℕ) : Bool := (data (p / 8)).toNat.testBit (p % 8)

/-- The position at the same distance from the other end of its byte. -/
def mirror (p : ℕ) : ℕ := 8 * (p / 8) + (7 - p % 8)

lemma mirror_div (p : ℕ) : mirror p / 8 = p / 8 := by
  simp only [mirror]
  omega

lemma mirror_mod (p : ℕ) : mirror p % 8 = 7 - p % 8 := by
  simp only [mirror]
  omega

@[simp]
lemma mirror_mirror (p : ℕ) : mirror (mirror p) = p := by
  rw [mirror, mirror_div, mirror_mod]
  omega

/-- Mirroring keeps the byte, so it keeps the bits of the first `m` bytes. -/
lemma mirror_lt {p m : ℕ} : mirror p < 8 * m ↔ p < 8 * m := by
  rw [Nat.mul_comm, ← Nat.div_lt_iff_lt_mul (by decide), ← Nat.div_lt_iff_lt_mul (by decide),
    mirror_div]

/-- Ascending positions agree with descending ones only within one byte, which both leave at the
same place. -/
lemma ascending_eq_mirror_iff {a b n : ℕ} (hn : 0 < n) :
    (∀ k < n, a + k = mirror (b + (n - 1 - k))) ↔ a / 8 = b / 8 ∧ a % 8 + b % 8 + n = 8 := by
  constructor
  · intro h
    -- A byte boundary in between would be a jump of 15 in one step.
    have hfirst := h 0 hn
    have hlast := h (n - 1) (Nat.sub_lt hn Nat.one_pos)
    simp only [mirror] at hfirst hlast
    omega
  · rintro ⟨hbyte, hfit⟩ k hk
    simp only [mirror]
    omega

/-! ### Fields -/

/-- The field of `n` bits whose bit `k` is at `pos k`. -/
def field (data : ℕ → UInt8) (n : ℕ) (pos : ℕ → ℕ) : ℕ :=
  Nat.ofBits fun k : Fin n => bit data (pos k)

lemma field_lt (data : ℕ → UInt8) (n : ℕ) (pos : ℕ → ℕ) : field data n pos < 2 ^ n :=
  Nat.ofBits_lt_two_pow _

lemma testBit_field (data : ℕ → UInt8) (n : ℕ) (pos : ℕ → ℕ) (k : ℕ) :
    (field data n pos).testBit k = (decide (k < n) && bit data (pos k)) := by
  by_cases hk : k < n
  · simp [field, hk, Nat.testBit_ofBits_lt]
  · simp [field, hk, Nat.testBit_ofBits_ge _ k (Nat.le_of_not_lt hk)]

lemma field_congr {data data' : ℕ → UInt8} {n : ℕ} {pos pos' : ℕ → ℕ}
    (h : ∀ k < n, bit data (pos k) = bit data' (pos' k)) :
    field data n pos = field data' n pos' := by
  refine congrArg Nat.ofBits (funext fun k => ?_)
  exact h k k.isLt

/-- The payload whose only bit is the one at `p`. -/
def single (p : ℕ) : ℕ → UInt8 := fun i => if i = p / 8 then UInt8.ofNat (2 ^ (p % 8)) else 0

lemma bit_single (p q : ℕ) : bit (single p) q = decide (q = p) := by
  have hlt : 2 ^ (p % 8) < 256 := Nat.pow_lt_pow_right (by decide) (Nat.mod_lt p (by decide))
  by_cases hbyte : q / 8 = p / 8
  · have hval : (UInt8.ofNat (2 ^ (p % 8))).toNat = 2 ^ (p % 8) := UInt8.toNat_ofNat_of_lt' hlt
    simp only [bit, single, hbyte, if_true, hval, Nat.testBit_two_pow]
    congr 1
    simp only [eq_iff_iff]
    omega
  · have hne : q ≠ p := fun h => hbyte (h ▸ rfl)
    simp [bit, single, hbyte, hne]

/-- The payload of ones. -/
def ones : ℕ → UInt8 := fun _ => 255

lemma bit_ones (p : ℕ) : bit ones p = true := by
  have : ∀ r < 8, Nat.testBit 255 r = true := by decide
  exact this _ (Nat.mod_lt p (by decide))

/-- Fields that agree on every payload have the same length and the same positions. -/
theorem field_eq_iff {n n' : ℕ} {pos pos' : ℕ → ℕ} :
    (∀ data, field data n pos = field data n' pos') ↔ n' = n ∧ ∀ k < n, pos k = pos' k := by
  constructor
  · intro h
    have hbit : ∀ data k, (decide (k < n) && bit data (pos k)) =
        (decide (k < n') && bit data (pos' k)) := by
      intro data k
      rw [← testBit_field, ← testBit_field, h data]
    have hlen : ∀ k, k < n ↔ k < n' := by
      intro k
      simpa [bit_ones] using hbit ones k
    refine ⟨le_antisymm ?_ ?_, fun k hk => ?_⟩
    · exact Nat.le_of_not_lt fun hlt => lt_irrefl n ((hlen n).mpr hlt)
    · exact Nat.le_of_not_lt fun hlt => lt_irrefl n' ((hlen n').mp hlt)
    · have := hbit (single (pos k)) k
      simpa [bit_single, hk, (hlen k).mp hk, eq_comm] using this
  · rintro ⟨rfl, hpos⟩ data
    exact field_congr fun k hk => congrArg (bit data) (hpos k hk)

/-! ### Payloads as integers -/

open Bytes

lemma testBit_ofLe (bs : List UInt8) (p : ℕ) :
    (ofLe bs).testBit p = (bs[p / 8]?.getD 0).toNat.testBit (p % 8) := by
  induction bs generalizing p with
  | nil => simp [ofLe]
  | cons b bs ih =>
    have hb : b.toNat < 2 ^ 8 := UInt8.toNat_lt b
    rw [ofLe, Nat.add_comm, show (256 : ℕ) = 2 ^ 8 from rfl, Nat.testBit_two_pow_mul_add _ hb]
    split_ifs with hp
    · rw [Nat.div_eq_of_lt hp, Nat.mod_eq_of_lt hp]
      rfl
    · obtain ⟨q, rfl⟩ := Nat.exists_eq_add_of_le (Nat.le_of_not_lt hp)
      rw [ih, Nat.add_sub_cancel_left, Nat.add_div_left q (by decide), Nat.add_mod_left,
        List.getElem?_cons_succ]

/-- The value of a big-endian list of bytes. -/
def ofBe (bs : List UInt8) : ℕ := ofLe bs.reverse

/-- Ascending positions: a quotient of the little-endian integer. -/
lemma field_ascending {data : ℕ → UInt8} {bs : List UInt8} {s n : ℕ}
    (hdata : ∀ i < bs.length, data i = bs[i]?.getD 0) (hfit : s + n ≤ 8 * bs.length) :
    field data n (fun k => s + k) = ofLe bs / 2 ^ s % 2 ^ n := by
  refine Nat.eq_of_testBit_eq fun k => ?_
  rw [testBit_field, Nat.testBit_mod_two_pow, Nat.testBit_div_two_pow, testBit_ofLe, Nat.add_comm k]
  by_cases hk : k < n
  · rw [bit, hdata _ (by omega)]
  · simp [hk]

/-- Descending positions: a quotient of the big-endian integer. -/
lemma field_descending {data : ℕ → UInt8} {bs : List UInt8} {s n : ℕ}
    (hdata : ∀ i < bs.length, data i = bs[i]?.getD 0) (hfit : s + n ≤ 8 * bs.length) :
    field data n (fun k => mirror (s + (n - 1 - k))) =
      ofBe bs / 2 ^ (8 * bs.length - s - n) % 2 ^ n := by
  refine Nat.eq_of_testBit_eq fun k => ?_
  rw [testBit_field, Nat.testBit_mod_two_pow, Nat.testBit_div_two_pow, ofBe, testBit_ofLe]
  by_cases hk : k < n
  · have hbyte : bs.length - 1 - (k + (8 * bs.length - s - n)) / 8 = (s + (n - 1 - k)) / 8 := by
      omega
    have hbit : (k + (8 * bs.length - s - n)) % 8 = 7 - (s + (n - 1 - k)) % 8 := by omega
    rw [bit, mirror_div, mirror_mod, hdata _ (by omega), List.getElem?_reverse (by omega), hbyte,
      hbit]
  · simp [hk]

end BitField

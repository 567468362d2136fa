import BusTestPlatform.Software.CanDecoder

/-!
# Frames that are too short

Both bit loops stop at the end of the frame. The Intel loop has then put every bit at its weight, so
the missing ones are 0. The Motorola loop has shifted once for each bit that it read, so what it
returns is the padded value without its low zeros.
-/

namespace BusTestPlatform

open BitField

namespace CanDecoder

/-- The payload with a 0 in the place of every byte that the frame does not have. -/
def zeroPadded (data : ℕ → UInt8) (dlc i : ℕ) : UInt8 := if i < dlc then data i else 0

lemma bit_zeroPadded (data : ℕ → UInt8) (dlc p : ℕ) :
    bit (zeroPadded data dlc) p = (decide (p < 8 * dlc) && bit data p) := by
  by_cases hp : p < 8 * dlc
  · have hbyte : p / 8 < dlc := by omega
    simp [bit, zeroPadded, hp, hbyte]
  · have hbyte : ¬ p / 8 < dlc := by omega
    simp [bit, zeroPadded, hp, hbyte]

/-! ### Intel -/

lemma intel_zeroPadded {data : ℕ → UInt8} {dlc start n m : ℕ} (hfit : start + n ≤ 8 * m) :
    intel (zeroPadded data dlc) m start 0 0 n = intel data dlc start 0 0 n := by
  apply BitVec.eq_of_getLsbD_eq
  intro k hk
  rw [getLsbD_intel hk, getLsbD_intel hk, bit_zeroPadded, ← Bool.and_assoc, ← Bool.decide_and]
  have hin : (0 ≤ k ∧ k < 0 + n ∧ start + k < 8 * m) ∧ start + k < 8 * dlc ↔
      0 ≤ k ∧ k < 0 + n ∧ start + k < 8 * dlc := by omega
  rw [decide_eq_decide.mpr hin]

/-! ### Motorola -/

/-- The loop makes only the rounds for which there are bits. -/
lemma motorola_short (data : ℕ → UInt8) (dlc pos : ℕ) (v : BitVec 64) (n : ℕ) :
    motorola data dlc pos v n = motorola data dlc pos v (min n (8 * dlc - pos)) := by
  induction n generalizing pos v with
  | zero => simp
  | succ n ih =>
    by_cases hshort : dlc ≤ pos / 8
    · have hend : 8 * dlc - pos = 0 := by omega
      simp [motorola, hshort, hend]
    · have hmore : 8 * dlc - pos = 8 * dlc - (pos + 1) + 1 := by omega
      rw [hmore, Nat.add_min_add_right]
      simp only [motorola, hshort, if_false]
      exact ih _ _

/-- The loop on a short frame: bit `k` of the result, where the last bit read is bit 0. -/
lemma getLsbD_motorola_short {data : ℕ → UInt8} {dlc pos n k : ℕ} (hk : k < 64) :
    (motorola data dlc pos 0 n).getLsbD k = (decide (k < min n (8 * dlc - pos)) &&
      bit data (mirror (pos + (min n (8 * dlc - pos) - 1 - k)))) := by
  rw [motorola_short]
  by_cases hpos : pos ≤ 8 * dlc
  · rw [getLsbD_motorola hk (by omega)]
    split_ifs with h <;> simp [h]
  · have hnone : min n (8 * dlc - pos) = 0 := by omega
    simp [hnone, motorola]

/-- Padding puts the bits that were read at their weights. -/
lemma motorola_zeroPadded {data : ℕ → UInt8} {dlc pos n m : ℕ} (hfit : pos + n ≤ 8 * m) :
    motorola (zeroPadded data dlc) m pos 0 n =
      motorola data dlc pos 0 n <<< (n - (8 * dlc - pos)) := by
  apply BitVec.eq_of_getLsbD_eq
  intro k hk
  have hall : min n (8 * m - pos) = n := by omega
  rw [getLsbD_motorola_short hk, hall, bit_zeroPadded, BitVec.getLsbD_shiftLeft]
  simp only [mirror_lt]
  by_cases hlow : k < n - (8 * dlc - pos)
  · have hout : ¬ pos + (n - 1 - k) < 8 * dlc := by omega
    simp [hlow, hout]
  · have hk' : k - (n - (8 * dlc - pos)) < 64 := by omega
    rw [getLsbD_motorola_short hk']
    by_cases hkn : k < n
    · have hin : pos + (n - 1 - k) < 8 * dlc := by omega
      have hread : k - (n - (8 * dlc - pos)) < min n (8 * dlc - pos) := by omega
      have hat : min n (8 * dlc - pos) - 1 - (k - (n - (8 * dlc - pos))) = n - 1 - k := by omega
      rw [hat]
      simp [hk, hkn, hlow, hin, hread]
    · have hnone : ¬ k - (n - (8 * dlc - pos)) < min n (8 * dlc - pos) := by omega
      simp [hkn, hnone]

/-- A nonzero shift moves the lowest 1 of a number. -/
lemma shiftLeft_eq_self_iff {w : ℕ} {v : BitVec w} {d : ℕ} : v <<< d = v ↔ d = 0 ∨ v = 0 := by
  constructor
  · intro h
    by_cases hd : d = 0
    · exact Or.inl hd
    · apply Or.inr
      apply BitVec.eq_of_getLsbD_eq
      intro k
      -- Each bit is the one `d` places lower, and below bit `d` there is none.
      induction k using Nat.strong_induction_on with
      | _ k ih =>
        intro hk
        rw [← h, BitVec.getLsbD_shiftLeft]
        by_cases hlow : k < d
        · simp [hlow]
        · have hlt : k - d < k := by omega
          rw [ih (k - d) hlt (hlt.trans hk)]
          simp
  · rintro (rfl | rfl) <;> simp

/-- The loop returns 0 when every bit that it reads is 0. -/
lemma motorola_eq_zero_iff {data : ℕ → UInt8} {dlc pos n : ℕ} (hn : n ≤ 64) :
    motorola data dlc pos 0 n = 0 ↔
      ∀ p, pos ≤ p → p < pos + n → p < 8 * dlc → bit data (mirror p) = false := by
  constructor
  · intro h p hge hlt hin
    have hlast : min n (8 * dlc - pos) - 1 - (p - pos) < 64 := by omega
    have hread := @getLsbD_motorola_short data dlc pos n _ hlast
    have hk : min n (8 * dlc - pos) - 1 - (p - pos) < min n (8 * dlc - pos) := by omega
    have hat : pos + (min n (8 * dlc - pos) - 1 - (min n (8 * dlc - pos) - 1 - (p - pos))) = p := by
      omega
    rw [h, hat, decide_eq_true hk, Bool.true_and] at hread
    rw [← hread]
    simp
  · intro h
    apply BitVec.eq_of_getLsbD_eq
    intro k hk
    rw [getLsbD_motorola_short hk]
    by_cases hread : k < min n (8 * dlc - pos)
    · rw [h _ (by omega) (by omega) (by omega)]
      simp
    · simp [hread]

/-! ### Both byte orders -/

variable {D : Type}

/-- A short frame is decoded as if it were padded with zeros exactly if the signal is an Intel one,
lies in the frame or has only zeros there. -/
theorem extractRaw_eq_zeroPadded_iff (sig : Signal D) (data : ℕ → UInt8) (dlc : UInt8) :
    extractRaw sig (some data) dlc = extractRaw sig (some (zeroPadded data dlc.toNat)) 64 ↔
      sig.littleEndian = true ∨
      sig.startBit.toNat + min sig.length.toNat 64 ≤ 8 * dlc.toNat ∨
      ∀ p, sig.startBit.toNat ≤ p → p < sig.startBit.toNat + min sig.length.toNat 64 →
        p < 8 * dlc.toNat → bit data (mirror p) = false := by
  have hstart := sig.startBit.toNat_lt
  have hlen := toNat_len sig.length
  have hfit : sig.startBit.toNat + min sig.length.toNat 64 ≤ 8 * 64 := by omega
  simp only [extractRaw, show (64 : UInt8).toNat = 64 from rfl]
  rw [← hlen] at hfit ⊢
  generalize (if 64 < sig.length then 64 else sig.length) = len at hlen hfit ⊢
  by_cases hzero : len = 0
  · rw [if_pos hzero, if_pos hzero, hzero]
    apply iff_of_true rfl
    apply Or.inr
    apply Or.inr
    intro p hge hlt
    exact absurd hlt (Nat.not_lt.mpr hge)
  rw [if_neg hzero, if_neg hzero]
  by_cases hle : sig.littleEndian = true
  · simp only [hle, if_true, true_or, iff_true]
    exact (intel_zeroPadded hfit).symm
  · simp only [hle, if_false, false_or, Bool.false_eq_true]
    rw [motorola_zeroPadded hfit, eq_comm, shiftLeft_eq_self_iff,
      motorola_eq_zero_iff (hlen.trans_le (Nat.min_le_right ..))]
    have hpos : 0 < len.toNat := Nat.pos_of_ne_zero fun h => hzero (UInt8.toNat_inj.mp h)
    have hshift : len.toNat - (8 * dlc.toNat - sig.startBit.toNat) = 0 ↔
        sig.startBit.toNat + len.toNat ≤ 8 * dlc.toNat := by omega
    rw [hshift]

/-- Sixteen bits from bit 0 on, the most significant first. -/
def wordSignal : Signal ℤ :=
  { Signal.default with
    startBit := 0
    length := 16
    littleEndian := false }

/-- A frame of one byte `12` is read as `0x12`, the padded one as `0x1200`. -/
theorem extractRaw_one_byte : extractRaw wordSignal (some fun _ => 0x12) 1 ≠
    extractRaw wordSignal (some (zeroPadded (fun _ => 0x12) 1)) 64 := by
  decide

end CanDecoder

end BusTestPlatform

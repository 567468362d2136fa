import BusTestPlatform.Software.DecodedValue
import BusTestPlatform.Software.ShortFrame

/-!
# What a decoded frame tells

The values that `decode_frame` reports for a message hold exactly the payload bits that its signals
cover: no other bit of the frame has an influence on them, and no covered bit is lost, however the
signals overlap, whatever their byte order and sign, and also where the frame is too short.
-/

namespace BusTestPlatform

open BitField

namespace CanDecoder

variable {D : Type}

/-- The payload bit that the decoder reads in round `k` of the loop for a signal. -/
def readBit (sig : Signal D) (k : ℕ) : ℕ :=
  if sig.littleEndian then sig.startBit.toNat + k else mirror (sig.startBit.toNat + k)

/-- The decoder reads payload bit `p` of a frame of `dlc` bytes for the signal. -/
def Reads (sig : Signal D) (dlc p : ℕ) : Prop :=
  ∃ k < min sig.length.toNat 64, sig.startBit.toNat + k < 8 * dlc ∧ p = readBit sig k

/-- Two payloads are the same to the signal. -/
def SameTo (sig : Signal D) (dlc : ℕ) (data data' : ℕ → UInt8) : Prop :=
  ∀ p, Reads sig dlc p → bit data p = bit data' p

/-! ### One signal -/

lemma intel_eq_iff {data data' : ℕ → UInt8} {dlc start n : ℕ} (hn : n ≤ 64) :
    intel data dlc start 0 0 n = intel data' dlc start 0 0 n ↔
      ∀ k < n, start + k < 8 * dlc → bit data (start + k) = bit data' (start + k) := by
  constructor
  · intro h k hk hin
    have hbit := congrArg (BitVec.getLsbD · k) h
    have hread : 0 ≤ k ∧ k < 0 + n ∧ start + k < 8 * dlc := by omega
    simpa [getLsbD_intel (hk.trans_le hn), hread, hk] using hbit
  · intro h
    refine BitVec.eq_of_getLsbD_eq fun k hk => ?_
    rw [getLsbD_intel hk, getLsbD_intel hk]
    by_cases hread : 0 ≤ k ∧ k < 0 + n ∧ start + k < 8 * dlc
    · rw [h k (by omega) hread.2.2]
    · rw [decide_eq_false hread, Bool.false_and, Bool.false_and]

lemma motorola_eq_iff {data data' : ℕ → UInt8} {dlc pos n : ℕ} (hn : n ≤ 64) :
    motorola data dlc pos 0 n = motorola data' dlc pos 0 n ↔
      ∀ k < n, pos + k < 8 * dlc → bit data (mirror (pos + k)) = bit data' (mirror (pos + k)) := by
  constructor
  · intro h k hk hin
    -- The bit of round `k` has as many places below it as rounds follow.
    have hm : k < min n (8 * dlc - pos) := by omega
    have hbit := congrArg (BitVec.getLsbD · (min n (8 * dlc - pos) - 1 - k)) h
    have hlast : min n (8 * dlc - pos) - 1 - k < 64 := by omega
    have hread : min n (8 * dlc - pos) - 1 - k < min n (8 * dlc - pos) := by omega
    have hat : min n (8 * dlc - pos) - 1 - (min n (8 * dlc - pos) - 1 - k) = k := by omega
    simp only [getLsbD_motorola_short hlast, decide_eq_true hread, Bool.true_and, hat] at hbit
    exact hbit
  · intro h
    refine BitVec.eq_of_getLsbD_eq fun k hk => ?_
    rw [getLsbD_motorola_short hk, getLsbD_motorola_short hk]
    by_cases hread : k < min n (8 * dlc - pos)
    · rw [h _ (by omega) (by omega)]
    · rw [decide_eq_false hread, Bool.false_and, Bool.false_and]

/-- The raw value of a signal is determined by the bits that are read for it, and determines
them. -/
lemma extractRaw_eq_iff (sig : Signal D) (data data' : ℕ → UInt8) (dlc : UInt8) :
    extractRaw sig (some data) dlc = extractRaw sig (some data') dlc ↔
      SameTo sig dlc.toNat data data' := by
  have hlen := toNat_len sig.length
  have hsame : SameTo sig dlc.toNat data data' ↔
      ∀ k < min sig.length.toNat 64, sig.startBit.toNat + k < 8 * dlc.toNat →
        bit data (readBit sig k) = bit data' (readBit sig k) :=
    ⟨fun h k hk hin => h _ ⟨k, hk, hin, rfl⟩, fun h p ⟨k, hk, hin, hp⟩ => hp ▸ h k hk hin⟩
  rw [hsame, ← hlen]
  simp only [extractRaw, readBit]
  have hle : (if 64 < sig.length then 64 else sig.length).toNat ≤ 64 := by omega
  generalize (if 64 < sig.length then 64 else sig.length) = len at hle
  by_cases hzero : len = 0
  · rw [if_pos hzero, if_pos hzero, hzero]
    exact iff_of_true rfl fun k hk => absurd hk (Nat.not_lt_zero k)
  rw [if_neg hzero, if_neg hzero]
  split_ifs
  · exact intel_eq_iff hle
  · exact motorola_eq_iff hle

lemma intel_lt (data : ℕ → UInt8) (dlc start n : ℕ) :
    (intel data dlc start 0 0 n).toNat < 2 ^ n := by
  refine Nat.lt_pow_two_of_testBit _ fun k hk => ?_
  rw [BitVec.testBit_toNat]
  rcases Nat.lt_or_ge k 64 with hlt | hge
  · have hout : ¬ (0 ≤ k ∧ k < 0 + n ∧ start + k < 8 * dlc) := by omega
    rw [getLsbD_intel hlt, decide_eq_false hout]
    simp
  · exact BitVec.getLsbD_of_ge _ _ hge

lemma motorola_lt (data : ℕ → UInt8) (dlc pos n : ℕ) :
    (motorola data dlc pos 0 n).toNat < 2 ^ n := by
  refine Nat.lt_pow_two_of_testBit _ fun k hk => ?_
  rw [BitVec.testBit_toNat]
  rcases Nat.lt_or_ge k 64 with hlt | hge
  · have hout : ¬ k < min n (8 * dlc - pos) := by omega
    rw [getLsbD_motorola_short hlt, decide_eq_false hout, Bool.false_and]
  · exact BitVec.getLsbD_of_ge _ _ hge

/-- The raw value has no more bits than the signal, also where the frame is too short. -/
lemma extractRaw_lt {sig : Signal D} (hlen : sig.length.toNat ≤ 64) (data : ℕ → UInt8)
    (dlc : UInt8) : (extractRaw sig (some data) dlc).toNat < 2 ^ sig.length.toNat := by
  have hsame : (if 64 < sig.length then 64 else sig.length) = sig.length := by
    refine if_neg ?_
    rw [UInt8.lt_iff_toNat_lt]
    exact Nat.not_lt.mpr hlen
  simp only [extractRaw, hsame]
  split_ifs
  · exact Nat.two_pow_pos _
  · exact intel_lt ..
  · exact motorola_lt ..

/-- Sign extension loses nothing. -/
lemma signExtend_extractRaw_inj (sig : Signal D) (data data' : ℕ → UInt8) (dlc : UInt8) :
    signExtend (extractRaw sig (some data) dlc) sig.length =
        signExtend (extractRaw sig (some data') dlc) sig.length ↔
      extractRaw sig (some data) dlc = extractRaw sig (some data') dlc := by
  refine ⟨fun h => ?_, fun h => by rw [h]⟩
  rcases Nat.lt_or_ge 64 sig.length.toNat with hlong | hshort
  · have hfull : sig.length = 0 ∨ 64 ≤ sig.length := Or.inr (UInt8.le_iff_toNat_le.mpr hlong.le)
    rwa [signExtend, signExtend, if_pos hfull, if_pos hfull] at h
  · have hmod := congrArg (·.toNat % 2 ^ sig.length.toNat) h
    simp only [toNat_signExtend_mod] at hmod
    rw [Nat.mod_eq_of_lt (extractRaw_lt hshort data dlc),
      Nat.mod_eq_of_lt (extractRaw_lt hshort data' dlc)] at hmod
    exact BitVec.eq_of_toNat_eq hmod

/-! ### A frame -/

variable [IntCast D] [Add D] [Mul D]

lemma decodeSignal_eq_iff (msg : DbcMessage D) {f g : BusFrame} (hdlc : f.dlc = g.dlc)
    (sig : Signal D) : decodeSignal msg f sig = decodeSignal msg g sig ↔
      SameTo sig f.dlc.toNat f.payload g.payload := by
  rw [← extractRaw_eq_iff]
  constructor
  · intro h
    have hraw := congrArg SignalValue.raw h
    simp only [decodeSignal, ← hdlc] at hraw
    split_ifs at hraw
    · exact (signExtend_extractRaw_inj ..).mp hraw
    · exact hraw
  · intro h
    simp only [decodeSignal, ← hdlc, h]

/-- **What is reported is what is covered.** Two frames of one length decode alike, whatever stood
in `*out`, exactly when they agree on every payload bit that some signal of the message covers. -/
theorem decodeFrame_eq_iff (msg : DbcMessage D) {f g : BusFrame} (hdlc : f.dlc = g.dlc)
    (out out' : List (SignalValue D)) :
    decodeFrame msg f (some out) = decodeFrame msg g (some out') ↔
      ∀ sig ∈ msg.signals, ∀ p, Reads sig f.dlc.toNat p →
        bit f.payload p = bit g.payload p := by
  rw [decodeFrame, decodeFrame, Prod.mk.injEq, Option.some.injEq, List.map_inj_left]
  simp only [true_and, decodeSignal_eq_iff msg hdlc, SameTo]

/-- `sampleFrame` with another low half of the first byte, which belongs to no signal. -/
def noisyFrame : BusFrame :=
  { sampleFrame with data := sampleFrame.data.setIfInBounds 0 0xF5 }

theorem decodeFrame_eq_iff_noisy : decodeFrame sampleMessage sampleFrame (some []) =
    decodeFrame sampleMessage noisyFrame (some []) := by
  refine (decodeFrame_eq_iff (f := sampleFrame) (g := noisyFrame) sampleMessage rfl [] []).mpr ?_
  rintro sig hsig p ⟨k, hk, -, rfl⟩
  obtain rfl := List.mem_singleton.mp hsig
  have hk : k < 12 := hk
  have hread : readBit sampleSignal k = 4 + k := rfl
  rw [hread]
  interval_cases k <;>
    simp [bit, BusFrame.payload, sampleFrame, noisyFrame, busMaxPayload] <;> decide

end CanDecoder

end BusTestPlatform

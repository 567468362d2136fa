import BusTestPlatform.Software.CanDecoder

/-!
# The values of a decoded frame

What the bit loops of the decoder compute, as arithmetic on the integer that the payload is: the
little-endian one for Intel signals, the big-endian one for Motorola signals.
-/

namespace BusTestPlatform

open Bytes BitField

/-- The payload bytes that the frame declares. -/
def BusFrame.bytes (f : BusFrame) : List UInt8 := f.data.toList.take f.dlc.toNat

lemma BusFrame.length_bytes {f : BusFrame} (h : f.dlc.toNat ≤ busMaxPayload) :
    f.bytes.length = f.dlc.toNat := by
  simp [bytes, h]

lemma BusFrame.payload_eq {f : BusFrame} {i : ℕ} (hi : i < f.bytes.length) :
    f.payload i = f.bytes[i]?.getD 0 := by
  have hlt : i < f.dlc.toNat := hi.trans_le (List.length_take_le ..)
  simp [payload, bytes, hlt]

namespace CanDecoder

variable {D : Type}

/-- The bits of a signal as an unsigned number. -/
def fieldValue (sig : Signal D) (f : BusFrame) : ℕ :=
  let s := sig.startBit.toNat
  let n := sig.length.toNat
  if sig.littleEndian then ofLe f.bytes / 2 ^ s % 2 ^ n
  else ofBe f.bytes / 2 ^ (8 * f.dlc.toNat - s - n) % 2 ^ n

/-- The number that `n` bits of value `u` are in two's complement. -/
def twosComplement (n u : ℕ) : ℤ := if 2 * u < 2 ^ n then u else u - 2 ^ n

lemma fieldValue_lt (sig : Signal D) (f : BusFrame) :
    fieldValue sig f < 2 ^ sig.length.toNat := by
  rw [fieldValue]
  split_ifs <;> exact Nat.mod_lt _ (Nat.two_pow_pos _)

/-- The loops compute the field. -/
lemma toNat_extractRaw_eq {sig : Signal D} {f : BusFrame} (hdlc : f.dlc.toNat ≤ busMaxPayload)
    (hlen : sig.length.toNat ≤ 64)
    (hfit : sig.startBit.toNat + sig.length.toNat ≤ 8 * f.dlc.toNat) :
    (extractRaw sig (some f.payload) f.dlc).toNat = fieldValue sig f := by
  have hbytes := f.length_bytes hdlc
  have hend : sig.startBit.toNat + sig.length.toNat ≤ 8 * f.bytes.length := by rwa [hbytes]
  have hdata : ∀ i < f.bytes.length, f.payload i = f.bytes[i]?.getD 0 :=
    fun i hi => f.payload_eq hi
  rw [toNat_extractRaw hlen, fieldValue]
  · cases hle : sig.littleEndian with
    | true =>
      have hat : position sig = fun k => sig.startBit.toNat + k :=
        funext fun k => if_pos hle
      rw [hat, if_pos rfl]
      exact field_ascending hdata hend
    | false =>
      have hat : position sig =
          fun k => mirror (sig.startBit.toNat + (sig.length.toNat - 1 - k)) :=
        funext fun k => if_neg (by simp [hle])
      rw [hat, if_neg Bool.false_ne_true, ← hbytes]
      exact field_descending hdata hend
  · intro k hk
    rw [position]
    split_ifs
    · omega
    · exact mirror_lt.mpr (by omega)

/-- Sign extension of a number of `n` bits. -/
lemma signExtend_eq {raw : BitVec 64} {length : UInt8} (hpos : 1 ≤ length.toNat)
    (hlen : length.toNat ≤ 64) (hraw : raw.toNat < 2 ^ length.toNat) :
    signExtend raw length = (raw.setWidth length.toNat).signExtend 64 := by
  refine BitVec.eq_of_getLsbD_eq fun k hk => ?_
  have hne : length ≠ 0 := by
    rintro rfl
    exact absurd hpos (by simp)
  rw [getLsbD_signExtend hne hk, BitVec.getLsbD_signExtend, BitVec.getLsbD_setWidth,
    BitVec.msb_setWidth]
  by_cases hlt : k < length.toNat
  · simp [hlt, hk]
  · have hhigh : raw.getLsbD k = false := by
      rw [← BitVec.testBit_toNat]
      exact Nat.testBit_lt_two_pow
        (hraw.trans_le (Nat.pow_le_pow_right (by decide) (Nat.le_of_not_lt hlt)))
    have hpos' : 0 < length.toNat := hpos
    rw [hhigh]
    simp [hlt, hk, hpos', Nat.le_of_not_lt hlt]

lemma toInt_signExtend {raw : BitVec 64} {length : UInt8} (hpos : 1 ≤ length.toNat)
    (hlen : length.toNat ≤ 64) (hraw : raw.toNat < 2 ^ length.toNat) :
    (signExtend raw length).toInt = twosComplement length.toNat raw.toNat := by
  rw [signExtend_eq hpos hlen hraw, BitVec.toInt_signExtend_of_le hlen,
    BitVec.toInt_eq_toNat_cond, BitVec.toNat_setWidth, Nat.mod_eq_of_lt hraw, twosComplement]
  push_cast
  rfl

section Values

variable [IntCast D] [Add D] [Mul D]

/-- The value is the field of the signal. -/
structure Represents (sig : Signal D) (f : BusFrame) (v : SignalValue D) : Prop where
  unsigned : sig.isSigned = false → v.raw.toNat = fieldValue sig f
  signed : sig.isSigned = true →
    v.raw.toInt = twosComplement sig.length.toNat (fieldValue sig f)

lemma represents_decodeSignal (msg : DbcMessage D) {sig : Signal D} {f : BusFrame}
    (hdlc : f.dlc.toNat ≤ busMaxPayload) (hpos : 1 ≤ sig.length.toNat)
    (hlen : sig.length.toNat ≤ 64)
    (hfit : sig.startBit.toNat + sig.length.toNat ≤ 8 * f.dlc.toNat) :
    Represents sig f (decodeSignal msg f sig) := by
  have hraw := toNat_extractRaw_eq hdlc hlen hfit
  constructor
  · intro hsign
    simp only [decodeSignal, hsign, Bool.false_eq_true, if_false]
    exact hraw
  · intro hsign
    simp only [decodeSignal, hsign, if_true]
    rw [toInt_signExtend hpos hlen (hraw.trans_lt (fieldValue_lt sig f)), hraw]

/-- `decode_frame` gives one value for each signal, in order, and for every signal that lies in the
frame the value is the arithmetic one. -/
theorem decodeFrame_represents (msg : DbcMessage D) {f : BusFrame}
    (hdlc : f.dlc.toNat ≤ busMaxPayload) (out : List (SignalValue D)) :
    ∃ vs, decodeFrame msg f (some out) = (true, some vs) ∧
      List.Forall₂ (fun sig v => v.messageName = msg.name ∧ v.signalName = sig.name ∧
        (1 ≤ sig.length.toNat → sig.length.toNat ≤ 64 →
          sig.startBit.toNat + sig.length.toNat ≤ 8 * f.dlc.toNat → Represents sig f v))
        msg.signals vs := by
  refine ⟨msg.signals.map (decodeSignal msg f), rfl, ?_⟩
  rw [List.forall₂_map_right_iff, List.forall₂_same]
  exact fun sig _ => ⟨rfl, rfl, represents_decodeSignal msg hdlc⟩

end Values

/-- Twelve bits from bit 4 on, signed. -/
def sampleSignal : Signal ℤ :=
  { Signal.default with
    startBit := 4
    length := 12
    isSigned := true
    littleEndian := true }

def sampleMessage : DbcMessage ℤ where
  id := 1
  name := "Engine".toList
  dlc := 2
  txNode := []
  signals := [sampleSignal]

/-- The payload is `F0 FF`. -/
def sampleFrame : BusFrame :=
  { BusFrame.zero with
    dlc := 2
    data := (BusFrame.zero.data.setIfInBounds 0 0xF0).setIfInBounds 1 0xFF }

theorem decodeFrame_represents_sample :
    ∃ v, decodeFrame sampleMessage sampleFrame (some []) = (true, some [v]) ∧
      v.raw.toInt = -1 := by
  obtain ⟨vs, hvs, hall⟩ := decodeFrame_represents sampleMessage (f := sampleFrame)
    (by simp [sampleFrame, busMaxPayload]) []
  obtain ⟨v, _, ⟨-, -, hrep⟩, hnil, rfl⟩ := List.forall₂_cons_left_iff.mp hall
  cases hnil
  refine ⟨v, hvs, ?_⟩
  have h := (hrep (by decide) (by decide) (by decide)).signed rfl
  rw [h]
  decide

end CanDecoder

/-! ### From the physical value back to the raw one -/

namespace Signal

/-- What `raw_to_physical` multiplies with the factor. -/
def rawValue {D : Type} (s : Signal D) (raw : BitVec 64) : ℤ :=
  if s.isSigned then raw.toInt else raw.toNat

lemma rawToPhysical_eq (s : Signal ℚ) (raw : BitVec 64) :
    s.rawToPhysical raw = s.rawValue raw * s.factor + s.offset := by
  rw [rawToPhysical, rawValue]
  split_ifs <;> rfl

lemma ofInt_rawValue {D : Type} (s : Signal D) (raw : BitVec 64) :
    BitVec.ofInt 64 (s.rawValue raw) = raw := by
  rw [rawValue]
  split_ifs
  · exact BitVec.ofInt_toInt
  · simp

lemma physicalToRaw_eq {s : Signal ℚ} (hfactor : s.factor ≠ 0) (z : ℤ) :
    s.physicalToRaw (z * s.factor + s.offset) = if z ≤ 0 then 0 else BitVec.ofInt 64 z := by
  have hraw : (z * s.factor + s.offset - s.offset) / s.factor = z := by
    rw [add_sub_cancel_right, mul_div_cancel_right₀ _ hfactor]
  have hround : ⌊(z : ℚ) + 1 / 2⌋ = z := by
    rw [Int.floor_intCast_add]
    norm_num
  simp only [physicalToRaw, hraw, hround, Int.cast_nonpos]

/-- The conversions are inverse to each other on every raw value that is not a negative number. -/
theorem physicalToRaw_rawToPhysical_iff {s : Signal ℚ} (hfactor : s.factor ≠ 0) (raw : BitVec 64) :
    s.physicalToRaw (s.rawToPhysical raw) = raw ↔ ¬ (s.isSigned = true ∧ raw.toInt < 0) := by
  have hneg : s.rawValue raw < 0 ↔ s.isSigned = true ∧ raw.toInt < 0 := by
    rw [rawValue]
    split_ifs with hsigned
    · simp [hsigned]
    · simp only [hsigned, false_and, iff_false, not_lt, Bool.false_eq_true]
      exact Int.natCast_nonneg _
  rw [rawToPhysical_eq, physicalToRaw_eq hfactor, ← hneg, not_lt]
  have hback := s.ofInt_rawValue raw
  rcases lt_trichotomy (s.rawValue raw) 0 with hlt | heq | hgt
  · rw [if_pos hlt.le]
    apply iff_of_false
    · rintro rfl
      simp [rawValue] at hlt
    · exact not_le.mpr hlt
  · rw [heq] at hback ⊢
    rw [if_pos le_rfl]
    exact iff_of_true hback le_rfl
  · rw [if_neg (not_le.mpr hgt)]
    exact iff_of_true hback hgt.le

/-- Eight bits from bit 0 on, in steps of `-1 / 2` below 40. -/
def scaledSignal (isSigned : Bool) : Signal ℚ :=
  { Signal.default with
    length := 8
    factor := -1 / 2
    offset := 40
    isSigned }

theorem physicalToRaw_rawToPhysical_unsigned :
    (scaledSignal false).physicalToRaw ((scaledSignal false).rawToPhysical 200) = 200 := by
  refine (physicalToRaw_rawToPhysical_iff ?_ 200).mpr ?_
  · norm_num [scaledSignal]
  · simp [scaledSignal]

/-- The byte `F0` is the number `-16`, for which `physical_to_raw` gives 0. -/
theorem physicalToRaw_negative :
    ∃ v, CanDecoder.decodeFrame ⟨1, [], 2, [], [scaledSignal true]⟩ CanDecoder.sampleFrame
      (some []) = (true, some [v]) ∧ (scaledSignal true).physicalToRaw v.physical ≠ v.raw := by
  refine ⟨_, rfl, ?_⟩
  have hfactor : (scaledSignal true).factor ≠ 0 := by norm_num [scaledSignal]
  rw [CanDecoder.decodeSignal, rawToPhysical_eq, physicalToRaw_eq hfactor]
  decide

end Signal

end BusTestPlatform

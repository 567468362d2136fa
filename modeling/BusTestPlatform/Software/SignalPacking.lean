import BusTestPlatform.Lib.FieldFamily
import BusTestPlatform.Software.DecodedBits

/-!
# Signals side by side

A message can carry any combination of values of its signals exactly when no payload bit belongs to
two of them. So the layout of a message is sound if and only if the bits of its signals are
disjoint, whatever their byte orders.
-/

namespace BusTestPlatform

open BitField

namespace CanDecoder

variable {D : Type}

/-- The payload bits that the decoder reads for the signal. -/
def covered (sig : Signal D) (dlc : ℕ) : Set ℕ := {p | Reads sig dlc p}

/-- The numbers that the signal can hold. -/
def InRange (sig : Signal D) (z : ℤ) : Prop :=
  if sig.isSigned then -2 ^ (sig.length.toNat - 1) ≤ z ∧ z < 2 ^ (sig.length.toNat - 1)
  else 0 ≤ z ∧ z < 2 ^ sig.length.toNat

/-- The signal has a length that the decoder supports and lies in a frame of `dlc` bytes. -/
structure LiesIn (sig : Signal D) (dlc : ℕ) : Prop where
  pos : 1 ≤ sig.length.toNat
  le : sig.length.toNat ≤ 64
  fits : sig.startBit.toNat + sig.length.toNat ≤ 8 * dlc

/-! ### Numbers and fields -/

/-- The number that a field stands for. -/
def number (sig : Signal D) (u : ℕ) : ℤ :=
  if sig.isSigned then twosComplement sig.length.toNat u else u

lemma inRange_iff {sig : Signal D} (hpos : 1 ≤ sig.length.toNat) {z : ℤ} :
    InRange sig z ↔ ∃ u < 2 ^ sig.length.toNat, number sig u = z := by
  obtain ⟨n, hn⟩ := Nat.exists_eq_add_of_le' hpos
  have hcast : (2 : ℤ) ^ n = (2 ^ n : ℕ) := by norm_cast
  simp only [InRange, number, twosComplement, hn, Nat.add_sub_cancel, pow_succ, hcast]
  generalize 2 ^ n = m
  split_ifs
  · constructor
    · rintro ⟨hlow, hhigh⟩
      refine ⟨if 0 ≤ z then z.toNat else (z + m * 2).toNat, ?_, ?_⟩
      · split_ifs <;> omega
      · split_ifs <;> omega
    · rintro ⟨u, hu, rfl⟩
      split_ifs <;> omega
  · constructor
    · rintro ⟨hlow, hhigh⟩
      exact ⟨z.toNat, by omega, by omega⟩
    · rintro ⟨u, hu, rfl⟩
      omega

lemma number_injOn {sig : Signal D} {u v : ℕ} (hu : u < 2 ^ sig.length.toNat)
    (hv : v < 2 ^ sig.length.toNat) (h : number sig u = number sig v) : u = v := by
  have hcast : (2 : ℤ) ^ sig.length.toNat = (2 ^ sig.length.toNat : ℕ) := by norm_cast
  rw [number, number, twosComplement, twosComplement, hcast] at h
  split_ifs at h <;> omega

/-! ### Positions -/

lemma readBit_injective (sig : Signal D) : Function.Injective (readBit sig) := by
  intro a b h
  rw [readBit, readBit] at h
  split_ifs at h
  · exact Nat.add_left_cancel h
  · exact Nat.add_left_cancel (Function.Involutive.injective mirror_mirror h)

/-- The round of the loop that reads bit `k`: the last bits of a Motorola signal come first. -/
def roundOf (sig : Signal D) (k : ℕ) : ℕ :=
  if sig.littleEndian then k else sig.length.toNat - 1 - k

lemma position_eq_readBit (sig : Signal D) (k : ℕ) :
    position sig k = readBit sig (roundOf sig k) := by
  rw [position, readBit, roundOf]
  split_ifs <;> rfl

section Round

variable {sig : Signal D} {k : ℕ} (hk : k < sig.length.toNat)
include hk

lemma roundOf_lt : roundOf sig k < sig.length.toNat := by
  rw [roundOf]
  split_ifs <;> omega

lemma roundOf_roundOf : roundOf sig (roundOf sig k) = k := by
  rw [roundOf, roundOf]
  split_ifs <;> omega

end Round

lemma position_injOn {sig : Signal D} {a b : ℕ} (ha : a < sig.length.toNat)
    (hb : b < sig.length.toNat) (h : position sig a = position sig b) : a = b := by
  rw [position_eq_readBit, position_eq_readBit] at h
  rw [← roundOf_roundOf ha, readBit_injective sig h, roundOf_roundOf hb]

namespace LiesIn

variable {sig : Signal D} {dlc : ℕ} (h : LiesIn sig dlc)
include h

lemma mem_covered_iff {p : ℕ} :
    p ∈ covered sig dlc ↔ ∃ k < sig.length.toNat, position sig k = p := by
  have hmin : min sig.length.toNat 64 = sig.length.toNat := Nat.min_eq_left h.le
  constructor
  · rintro ⟨k, hk, -, rfl⟩
    rw [hmin] at hk
    refine ⟨roundOf sig k, roundOf_lt hk, ?_⟩
    rw [position_eq_readBit, roundOf_roundOf hk]
  · rintro ⟨k, hk, rfl⟩
    have hround := roundOf_lt hk
    refine ⟨roundOf sig k, by rwa [hmin], ?_, position_eq_readBit sig k⟩
    exact (Nat.add_lt_add_left hround _).trans_le h.fits

lemma position_lt {k : ℕ} (hk : k < sig.length.toNat) : position sig k < 8 * dlc := by
  have hread : sig.startBit.toNat + roundOf sig k < 8 * dlc :=
    (Nat.add_lt_add_left (roundOf_lt hk) _).trans_le h.fits
  rw [position_eq_readBit, readBit]
  split_ifs
  · exact hread
  · exact mirror_lt.mpr hread

end LiesIn

lemma separate_iff {ι : Type*} {sigs : ι → Signal D} {dlc : ℕ} (h : ∀ i, LiesIn (sigs i) dlc) :
    Separate (fun i => (sigs i).length.toNat) (fun i => position (sigs i)) ↔
      Pairwise fun i j => Disjoint (covered (sigs i) dlc) (covered (sigs j) dlc) := by
  constructor
  · intro hsep i j hij
    refine Set.disjoint_left.mpr fun p hp hq => ?_
    obtain ⟨a, ha, rfl⟩ := (h i).mem_covered_iff.mp hp
    obtain ⟨b, hb, hpos⟩ := (h j).mem_covered_iff.mp hq
    exact hij (hsep i j a b ha hb hpos.symm).1
  · intro hdisj i j a b ha hb hpos
    have hp := (h i).mem_covered_iff.mpr ⟨a, ha, rfl⟩
    have hq := (h j).mem_covered_iff.mpr ⟨b, hb, hpos.symm⟩
    have hij : i = j := by
      by_contra hne
      exact Set.disjoint_left.mp (hdisj hne) hp hq
    subst hij
    exact ⟨rfl, position_injOn ha hb hpos⟩

/-! ### Frames -/

/-- The frame with this payload. -/
def frameOf (dlc : UInt8) (data : ℕ → UInt8) : BusFrame :=
  { BusFrame.zero with dlc := dlc, data := Vector.ofFn fun i => data i }

lemma bit_frameOf {dlc : UInt8} (hdlc : dlc.toNat ≤ busMaxPayload) (data : ℕ → UInt8) {p : ℕ}
    (hp : p < 8 * dlc.toNat) : bit (frameOf dlc data).payload p = bit data p := by
  have hbyte : p / 8 < busMaxPayload := by omega
  have hpayload : (frameOf dlc data).payload (p / 8) = data (p / 8) := by
    simp [BusFrame.payload, frameOf, hbyte]
  rw [bit, hpayload, bit]

section Decode

variable [IntCast D] [Add D] [Mul D] (msg : DbcMessage D)

/-- The number that is reported for a signal is the one its field stands for. -/
lemma rawValue_decodeSignal {sig : Signal D} {f : BusFrame} (h : LiesIn sig f.dlc.toNat) :
    sig.rawValue (decodeSignal msg f sig).raw =
      number sig (field f.payload sig.length.toNat (position sig)) := by
  have hraw : (extractRaw sig (some f.payload) f.dlc).toNat =
      field f.payload sig.length.toNat (position sig) :=
    toNat_extractRaw h.le fun k => h.position_lt
  have hlt := field_lt f.payload sig.length.toNat (position sig)
  rw [Signal.rawValue, number, decodeSignal]
  cases hsign : sig.isSigned with
  | false => simp [hraw]
  | true => simp [toInt_signExtend h.pos h.le (hraw.trans_lt hlt), hraw]

/-- Every combination of numbers that the signals can hold is decoded from some frame of `dlc`
bytes. -/
def CarriesAll (dlc : UInt8) : Prop :=
  ∀ z : Fin msg.signals.length → ℤ, (∀ i, InRange msg.signals[i] (z i)) →
    ∃ f vs, f.dlc = dlc ∧ decodeFrame msg f (some []) = (true, some vs) ∧
      ∀ i, vs[i]?.map (fun v => msg.signals[i].rawValue v.raw) = some (z i)

variable {msg} {dlc : UInt8} (hsig : ∀ sig ∈ msg.signals, LiesIn sig dlc.toNat)
include hsig

lemma carriesAll_iff (hdlc : dlc.toNat ≤ busMaxPayload) : CarriesAll msg dlc ↔
    Independent (fun i : Fin msg.signals.length => msg.signals[i].length.toNat)
      fun i => position msg.signals[i] := by
  have hin : ∀ i : Fin msg.signals.length, LiesIn msg.signals[i] dlc.toNat :=
    fun i => hsig _ (List.getElem_mem i.isLt)
  constructor
  · intro h u hu
    obtain ⟨f, vs, rfl, hdecode, hvs⟩ := h (fun i => number msg.signals[i] (u i)) fun i =>
      (inRange_iff (hin i).pos).mpr ⟨u i, hu i, rfl⟩
    obtain rfl : msg.signals.map (decodeSignal msg f) = vs := by simpa [decodeFrame] using hdecode
    refine ⟨f.payload, fun i => ?_⟩
    have hnumber := hvs i
    simp only [Fin.getElem?_fin, List.getElem?_map, List.getElem?_eq_getElem i.isLt,
      Option.map_some, Option.some.injEq] at hnumber
    exact number_injOn (field_lt _ _ _) (hu i)
      ((rawValue_decodeSignal msg (hin i)).symm.trans hnumber)
  · intro h z hz
    choose u hu hnumber using fun i => (inRange_iff (hin i).pos).mp (hz i)
    obtain ⟨data, hdata⟩ := h u hu
    refine ⟨frameOf dlc data, _, rfl, rfl, fun i => ?_⟩
    have hfield : field (frameOf dlc data).payload msg.signals[i].length.toNat
        (position msg.signals[i]) = u i := by
      rw [← hdata i]
      exact field_congr fun k hk => bit_frameOf hdlc data ((hin i).position_lt hk)
    simp only [Fin.getElem?_fin, List.getElem?_map, List.getElem?_eq_getElem i.isLt,
      Option.map_some, Option.some.injEq]
    rw [← hnumber i, ← hfield]
    exact rawValue_decodeSignal msg (hin i)

/-- **Sound layouts.** Every combination of numbers can be sent and decoded if and only if no
payload bit belongs to two signals. -/
theorem carriesAll_iff_disjoint (hdlc : dlc.toNat ≤ busMaxPayload) : CarriesAll msg dlc ↔
    Pairwise fun i j : Fin msg.signals.length =>
      Disjoint (covered msg.signals[i] dlc.toNat) (covered msg.signals[j] dlc.toNat) := by
  rw [carriesAll_iff hsig hdlc, independent_iff]
  exact separate_iff fun i => hsig _ (List.getElem_mem i.isLt)

end Decode

/-- The four bits that `sampleSignal` leaves free in the first byte, in the other byte order. -/
def motorolaSignal : Signal ℤ :=
  { sampleSignal with
    littleEndian := false
    length := 4 }

/-- Both signals have start bit 4, and no bit in common. -/
theorem carriesAll_iff_disjoint_bothOrders :
    CarriesAll { sampleMessage with signals := [sampleSignal, motorolaSignal] } 2 := by
  have hsig : ∀ sig ∈ [sampleSignal, motorolaSignal], LiesIn sig (2 : UInt8).toNat := by
    simp only [List.mem_cons, List.not_mem_nil, or_false]
    rintro sig (rfl | rfl)
    · exact ⟨by decide, by decide, by decide⟩
    · exact ⟨by decide, by decide, by decide⟩
  have hdisj : Disjoint (covered sampleSignal 2) (covered motorolaSignal 2) := by
    refine Set.disjoint_left.mpr ?_
    rintro p ⟨a, -, -, rfl⟩ ⟨b, hb, -, heq⟩
    have hlow : readBit motorolaSignal b < 4 := by
      have hb : b < 4 := hb
      interval_cases b <;> decide
    rw [← heq] at hlow
    exact absurd hlow (Nat.not_lt.mpr (Nat.le_add_right 4 a))
  refine (carriesAll_iff_disjoint hsig (by decide)).mpr ?_
  intro i j hij
  fin_cases i <;> fin_cases j
  · exact absurd rfl hij
  · exact hdisj
  · exact hdisj.symm
  · exact absurd rfl hij

end CanDecoder

end BusTestPlatform

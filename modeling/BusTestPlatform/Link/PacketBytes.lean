import BusTestPlatform.Link.RoundTrip

/-!
# What a packet is determined by

An encoder writes into a buffer of the caller. Two calls that differ in what the buffer holds
should hand out the same packet: as many bytes as they announce, and none of the old ones.
-/

namespace BusTestPlatform

namespace Link

open Bytes

/-- The length an encoder of the host announces, which returns 0 when it refuses. -/
def hostTotal (r : ℕ) : Option ℕ := if r = 0 then none else some r

/-- The length a builder of the device announces, which returns -1 when it refuses. -/
def deviceTotal (r : ℤ) : Option ℕ := if r < 0 then none else some r.toNat

/-- Whatever two buffers `encode` is called with, the packets it leaves in them are the same. -/
def Determined {R : Type} (total : R → Option ℕ) (encode : Option Mem → R × Option Mem) : Prop :=
  ∀ (b₁ b₂ : Mem) (n : ℕ), total (encode (some b₁)).1 = some n →
    total (encode (some b₂)).1 = some n ∧
    ∃ m₁ m₂, (encode (some b₁)).2 = some m₁ ∧ (encode (some b₂)).2 = some m₂ ∧
      ∀ i < n, m₁ i = m₂ i

section Determined

variable {R : Type} {total : R → Option ℕ} {encode : Option Mem → R × Option Mem} {r : R}

lemma determined_of_refused (h : ∀ b, encode (some b) = (r, some b)) (hr : total r = none) :
    Determined total encode := by
  intro b₁ b₂ n hn
  rw [h, hr] at hn
  cases hn

/-- A packet is determined when the bytes stored are as many as the bytes announced. -/
lemma determined_store_iff {bs : List UInt8} {n : ℕ}
    (h : ∀ b, encode (some b) = (r, some (store b 0 bs))) (hr : total r = some n) :
    Determined total encode ↔ n ≤ bs.length := by
  rw [← store_agree_iff]
  constructor
  · intro hdet m m' i hi
    obtain ⟨-, m₁, m₂, h₁, h₂, hsame⟩ := hdet m m' n (by rw [h, hr])
    rw [h] at h₁ h₂
    cases h₁
    cases h₂
    exact hsame i hi
  · intro hagree b₁ b₂ k hk
    rw [h, hr] at hk
    cases hk
    exact ⟨by rw [h, hr], _, _, by rw [h], by rw [h], hagree b₁ b₂⟩

/-- An encoder that checks its arguments and then stores the packet or refuses. -/
lemma determined_ite_iff {r' : R} {c : Prop} [Decidable c] {bs : List UInt8} {n : ℕ}
    (h : ∀ b, encode (some b) = if c then (r, some (store b 0 bs)) else (r', some b))
    (hr : total r = some n) (hr' : total r' = none) :
    Determined total encode ↔ (c → n ≤ bs.length) := by
  by_cases hc : c
  · rw [determined_store_iff (fun b => (h b).trans (if_pos hc)) hr]
    exact ⟨fun hn _ => hn, fun hn => hn hc⟩
  · exact iff_of_true (determined_of_refused (fun b => (h b).trans (if_neg hc)) hr')
      fun h => absurd h hc

end Determined

lemma hostTotal_of_pos {n : ℕ} (h : 0 < n) : hostTotal n = some n := if_neg h.ne'

lemma deviceTotal_natCast (n : ℕ) : deviceTotal n = some n := if_neg (by omega)

/-- The bytes of a payload are all there, or there are none. -/
lemma length_le_payloadBytes_iff {payload : Option Mem} {n : ℕ} :
    n ≤ (payloadBytes payload n).length ↔ payload = none → n = 0 := by
  cases payload with
  | none => simp [payloadBytes]
  | some src => simp [payloadBytes]

/-! ### The encoders of the host -/

/-- `encode_cmd` and `encode_evt`: an accepted request carries stale bytes when it gives a length
but no payload. -/
lemma encode8PlusPayload_determined_iff (kind : UInt8) (cap : ℕ) (code channel : UInt16)
    (param : UInt32) (payload : Option Mem) (payloadLen : ℕ) (seq : UInt16) :
    Determined hostTotal (fun buf => UsbFrameCodec.encode8PlusPayload kind buf cap code channel
      param payload payloadLen seq) ↔
    (payload = none → payloadLen = 0 ∨ usbCmdPayloadMax < payloadLen ∨
      cap < usbHeaderSize + 8 + payloadLen) := by
  rw [determined_ite_iff (fun b => UsbFrameCodec.encode8PlusPayload_eq kind b cap code channel param
    payload payloadLen seq) (hostTotal_of_pos (by omega)) rfl]
  simp only [List.length_append, length_headerBytes, length_fixedBytes, ← Nat.add_assoc,
    Nat.add_le_add_iff_left, length_le_payloadBytes_iff]
  rw [forall_comm]
  apply imp_congr_right
  omega

lemma encodeData_determined (abi : Abi) (cap : ℕ) (frames : Option Mem) (frameCount : ℕ)
    (seq : UInt16) :
    Determined hostTotal
      (fun buf => UsbFrameCodec.encodeData abi buf cap frames frameCount seq) := by
  cases frames with
  | none => exact determined_of_refused (fun b => rfl) rfl
  | some src =>
    rw [determined_ite_iff (fun b => UsbFrameCodec.encodeData_eq abi b cap src frameCount seq)
      (hostTotal_of_pos (by rw [usbHeaderSize]; omega)) rfl]
    simp

/-! ### The builders of the device -/

lemma buildFixed_determined_iff (kind : UInt8) (maxPlen cap : ℕ) (code : UInt32)
    (channel : UInt16) (param : UInt32) (payload : Option Mem) (plen seq : UInt16) :
    Determined deviceTotal (fun buf => Firmware.buildFixed kind maxPlen buf cap code channel param
      payload plen seq) ↔
    (payload = none → plen = 0 ∨ maxPlen < plen.toNat ∨
      cap < usbHeaderSize + 8 + plen.toNat) := by
  have hzero : plen = 0 ↔ plen.toNat = 0 := UInt16.toNat_inj.symm
  rw [hzero, determined_ite_iff (fun b => Firmware.buildFixed_eq kind maxPlen b cap code channel
    param payload plen seq) (deviceTotal_natCast _) rfl]
  simp only [List.length_append, length_headerBytes, length_fixedBytes, ← Nat.add_assoc,
    Nat.add_le_add_iff_left, length_le_payloadBytes_iff]
  rw [forall_comm]
  apply imp_congr_right
  omega

lemma buildData_determined (abi : Abi) (cap : ℕ) (frames : Option Mem) (frameCount : UInt8)
    (seq : UInt16) :
    Determined deviceTotal (fun buf => Firmware.buildData abi buf cap frames frameCount seq) := by
  cases frames with
  | none => exact determined_of_refused (fun b => rfl) rfl
  | some src =>
    rw [determined_ite_iff (fun b => Firmware.buildData_eq abi b cap src frameCount seq)
      (deviceTotal_natCast _) rfl]
    simp

/-! ### All six -/

/-- A packet depends on the arguments alone unless a payload length that is accepted comes with a
null payload; data packets always do. -/
theorem packet_determined_iff (abi : Abi) (cap : ℕ) (code channel : UInt16)
    (codeEnum param : UInt32) (payload frames : Option Mem) (payloadLen frameCount : ℕ)
    (plen seq : UInt16) (frameCountByte : UInt8) :
    (Determined hostTotal (fun buf => UsbFrameCodec.encodeCmd buf cap code channel param payload
        payloadLen seq) ↔
      (payload = none → payloadLen = 0 ∨ usbCmdPayloadMax < payloadLen ∨
        cap < usbHeaderSize + 8 + payloadLen)) ∧
    (Determined hostTotal (fun buf => UsbFrameCodec.encodeEvt buf cap code channel param payload
        payloadLen seq) ↔
      (payload = none → payloadLen = 0 ∨ usbCmdPayloadMax < payloadLen ∨
        cap < usbHeaderSize + 8 + payloadLen)) ∧
    Determined hostTotal (fun buf => UsbFrameCodec.encodeData abi buf cap frames frameCount seq) ∧
    (Determined deviceTotal (fun buf => Firmware.buildCmd buf cap codeEnum channel param payload
        plen seq) ↔
      (payload = none → plen = 0 ∨ usbCmdPayloadMax < plen.toNat ∨
        cap < usbHeaderSize + 8 + plen.toNat)) ∧
    (Determined deviceTotal (fun buf => Firmware.buildEvt buf cap codeEnum channel param payload
        plen seq) ↔
      (payload = none → plen = 0 ∨ usbEvtPayloadMax < plen.toNat ∨
        cap < usbHeaderSize + 8 + plen.toNat)) ∧
    Determined deviceTotal (fun buf => Firmware.buildData abi buf cap frames frameCountByte seq) :=
  ⟨encode8PlusPayload_determined_iff pktCmd cap code channel param payload payloadLen seq,
    encode8PlusPayload_determined_iff pktEvt cap code channel param payload payloadLen seq,
    encodeData_determined abi cap frames frameCount seq,
    buildFixed_determined_iff pktCmd usbCmdPayloadMax cap codeEnum channel param payload plen seq,
    buildFixed_determined_iff pktEvt usbEvtPayloadMax cap codeEnum channel param payload plen seq,
    buildData_determined abi cap frames frameCountByte seq⟩

/-- One payload byte announced and none given: byte 20 of the packet is what was in the buffer, on
both sides of the link. -/
theorem packet_stale_byte :
    ¬ Determined hostTotal (fun buf => UsbFrameCodec.encodeCmd buf 21 1 0 0 none 1 0) ∧
    ¬ Determined deviceTotal (fun buf => Firmware.buildCmd buf 21 1 0 0 none 1 0) := by
  constructor
  · intro h
    obtain ⟨-, m₁, m₂, h₁, h₂, hsame⟩ := h (fun _ => 0) (fun _ => 1) 21 rfl
    cases h₁
    cases h₂
    exact absurd (hsame 20 (by decide)) (by decide)
  · intro h
    obtain ⟨-, m₁, m₂, h₁, h₂, hsame⟩ := h (fun _ => 0) (fun _ => 1) 21 rfl
    cases h₁
    cases h₂
    exact absurd (hsame 20 (by decide)) (by decide)

end Link

end BusTestPlatform

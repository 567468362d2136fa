import BusTestPlatform.Firmware.UsbProtocolHandler
import BusTestPlatform.Software.UsbFrameCodec

/-!
# Encoder against builder

`usb_frame_codec.h` promises that the host codec mirrors the firmware byte for byte. Here the three
encoders are compared with the three builders on the same arguments.
-/

namespace BusTestPlatform

namespace Link

open Bytes

/-- The arguments that an encoder and the builder of the same packet kind have in common. -/
inductive PacketArgs
  | cmd (code channel : UInt16) (param : UInt32) (payload : Option Mem) (plen seq : UInt16)
  | evt (code channel : UInt16) (param : UInt32) (payload : Option Mem) (plen seq : UInt16)
  | data (frames : Option Mem) (frameCount : UInt8) (seq : UInt16)

variable (abi : Abi) (buf : Option Mem) (cap : ℕ)

/-- `UsbFrameCodec::encode_cmd`, `encode_evt` or `encode_data`. -/
def encode : PacketArgs → ℕ × Option Mem
  | .cmd code channel param payload plen seq =>
    UsbFrameCodec.encodeCmd buf cap code channel param payload plen.toNat seq
  | .evt code channel param payload plen seq =>
    UsbFrameCodec.encodeEvt buf cap code channel param payload plen.toNat seq
  | .data frames frameCount seq =>
    UsbFrameCodec.encodeData abi buf cap frames frameCount.toNat seq

/-- `usb_protocol_build_cmd`, `usb_protocol_build_evt` or `usb_protocol_build_data`. -/
def build : PacketArgs → ℤ × Option Mem
  | .cmd code channel param payload plen seq =>
    Firmware.buildCmd buf cap code.toUInt32 channel param payload plen seq
  | .evt code channel param payload plen seq =>
    Firmware.buildEvt buf cap code.toUInt32 channel param payload plen seq
  | .data frames frameCount seq => Firmware.buildData abi buf cap frames frameCount seq

/-- Both reject, or both return the same total and leave the same buffer. -/
structure Mirrors (args : PacketArgs) : Prop where
  reject : (encode abi buf cap args).1 = 0 ↔ (build abi buf cap args).1 = -1
  accept : (encode abi buf cap args).1 ≠ 0 →
    ((encode abi buf cap args).1 : ℤ) = (build abi buf cap args).1 ∧
      (encode abi buf cap args).2 = (build abi buf cap args).2

/-- An event payload that only the host lets pass: above the 64 bytes of the event, within the 256
of a command, and the packet fits the buffer. -/
def EvtBetweenLimits : PacketArgs → Prop
  | .evt _ _ _ _ plen _ =>
    buf ≠ none ∧ usbEvtPayloadMax < plen.toNat ∧ plen.toNat ≤ usbCmdPayloadMax ∧
      usbHeaderSize + 8 + plen.toNat ≤ cap
  | _ => False

section

variable {abi buf cap}

lemma mirrors_of_reject {args : PacketArgs} (h₁ : (encode abi buf cap args).1 = 0)
    (h₂ : (build abi buf cap args).1 = -1) : Mirrors abi buf cap args :=
  ⟨⟨fun _ => h₂, fun _ => h₁⟩, fun h => absurd h₁ h⟩

lemma mirrors_of_accept {args : PacketArgs} {total : ℕ} {m : Option Mem} (htotal : total ≠ 0)
    (h₁ : encode abi buf cap args = (total, m)) (h₂ : build abi buf cap args = ((total : ℤ), m)) :
    Mirrors abi buf cap args := by
  refine ⟨?_, ?_⟩
  · rw [h₁, h₂]
    constructor
    · intro h
      exact absurd h htotal
    · intro h
      have : (total : ℤ) = -1 := h
      omega
  · intro _
    rw [h₁, h₂]
    exact ⟨rfl, rfl⟩

/-- Length field and code survive the integer types of the two signatures. -/
lemma lengthField_eq (plen : UInt16) : UInt16.ofNat (8 + plen.toNat) = 8 + plen := by
  rw [UInt16.ofNat_add, UInt16.ofNat_toNat]
  rfl

/-- Where the payload passes both limits, encoder and builder of a fixed packet agree. -/
lemma fixed_agree (kind : UInt8) {maxPlen : ℕ} (b : Mem) (code channel : UInt16) (param : UInt32)
    (payload : Option Mem) {plen : UInt16} (seq : UInt16) (hmax : plen.toNat ≤ maxPlen)
    (hcmd : plen.toNat ≤ usbCmdPayloadMax) (hcap : usbHeaderSize + 8 + plen.toNat ≤ cap) :
    ∃ m, UsbFrameCodec.encode8PlusPayload kind (some b) cap code channel param payload plen.toNat
        seq = (usbHeaderSize + 8 + plen.toNat, m) ∧
      Firmware.buildFixed kind maxPlen (some b) cap code.toUInt32 channel param payload plen seq =
        (((usbHeaderSize + 8 + plen.toNat : ℕ) : ℤ), m) := by
  rw [UsbFrameCodec.encode8PlusPayload_eq, Firmware.buildFixed_eq, if_pos ⟨hcmd, hcap⟩,
    if_pos ⟨hmax, hcap⟩, lengthField_eq, UInt16.toUInt16_toUInt32]
  exact ⟨_, rfl, rfl⟩

lemma mirrors_cmd (code channel : UInt16) (param : UInt32) (payload : Option Mem)
    (plen seq : UInt16) : Mirrors abi buf cap (.cmd code channel param payload plen seq) := by
  cases buf with
  | none => exact mirrors_of_reject rfl rfl
  | some b =>
    by_cases hok : plen.toNat ≤ usbCmdPayloadMax ∧ usbHeaderSize + 8 + plen.toNat ≤ cap
    · obtain ⟨m, hm₁, hm₂⟩ := fixed_agree pktCmd b code channel param payload seq hok.1 hok.1
        hok.2
      exact mirrors_of_accept (by rw [usbHeaderSize]; omega) hm₁ hm₂
    · apply mirrors_of_reject
      · rw [encode, UsbFrameCodec.encodeCmd, UsbFrameCodec.encode8PlusPayload_eq, if_neg hok]
      · rw [build, Firmware.buildCmd, Firmware.buildFixed_eq, if_neg hok]

lemma mirrors_evt_iff (code channel : UInt16) (param : UInt32) (payload : Option Mem)
    (plen seq : UInt16) :
    Mirrors abi buf cap (.evt code channel param payload plen seq) ↔
      ¬ EvtBetweenLimits buf cap (.evt code channel param payload plen seq) := by
  cases buf with
  | none =>
    constructor
    · rintro - ⟨h, -⟩
      exact h rfl
    · intro _
      exact mirrors_of_reject rfl rfl
  | some b =>
    have henc := UsbFrameCodec.encode8PlusPayload_eq pktEvt b cap code channel param payload
      plen.toNat seq
    have hbuild := Firmware.buildFixed_eq pktEvt usbEvtPayloadMax b cap code.toUInt32 channel param
      payload plen seq
    by_cases hcap : usbHeaderSize + 8 + plen.toNat ≤ cap
    · rcases Nat.lt_or_ge usbEvtPayloadMax plen.toNat with hevt | hevt
      · rw [if_neg (by omega)] at hbuild
        by_cases hcmd : plen.toNat ≤ usbCmdPayloadMax
        · -- only the host accepts
          rw [if_pos ⟨hcmd, hcap⟩] at henc
          constructor
          · intro h
            have h0 := h.reject.mpr (congrArg Prod.fst hbuild)
            rw [show (encode abi (some b) cap (.evt code channel param payload plen seq)).1 = _
              from congrArg Prod.fst henc, usbHeaderSize] at h0
            omega
          · intro h
            exact absurd ⟨by simp, hevt, hcmd, hcap⟩ h
        · rw [if_neg (by omega)] at henc
          constructor
          · rintro - ⟨-, -, h, -⟩
            exact hcmd h
          · intro _
            exact mirrors_of_reject (congrArg Prod.fst henc) (congrArg Prod.fst hbuild)
      · constructor
        · rintro - ⟨-, h, -⟩
          omega
        · intro _
          have hcmd : plen.toNat ≤ usbCmdPayloadMax := by
            rw [usbEvtPayloadMax] at hevt
            rw [usbCmdPayloadMax]
            omega
          obtain ⟨m, hm₁, hm₂⟩ := fixed_agree pktEvt b code channel param payload seq hevt hcmd
            hcap
          exact mirrors_of_accept (by rw [usbHeaderSize]; omega) hm₁ hm₂
    · rw [if_neg (by rintro ⟨-, h⟩; exact hcap h)] at henc hbuild
      constructor
      · rintro - ⟨-, -, -, h⟩
        exact hcap h
      · intro _
        exact mirrors_of_reject (congrArg Prod.fst henc) (congrArg Prod.fst hbuild)

lemma mirrors_data (frames : Option Mem) (frameCount : UInt8) (seq : UInt16) :
    Mirrors abi buf cap (.data frames frameCount seq) := by
  cases buf with
  | none => exact mirrors_of_reject rfl rfl
  | some b =>
    cases frames with
    | none => exact mirrors_of_reject rfl rfl
    | some src =>
      have henc := UsbFrameCodec.encodeData_eq abi b cap src frameCount.toNat seq
      have hbuild := Firmware.buildData_eq abi b cap src frameCount seq
      have hzero : frameCount.toNat ≠ 0 ↔ frameCount ≠ 0 := by
        rw [not_iff_not]
        exact UInt8.toNat_inj (b := 0)
      simp only [hzero] at henc
      by_cases hok : frameCount ≠ 0 ∧ frameCount.toNat ≤ usbFramesPerPacket ∧
          usbHeaderSize + frameCount.toNat * abi.sizeofFrame ≤ cap
      · rw [if_pos hok] at henc hbuild
        exact mirrors_of_accept (by rw [usbHeaderSize]; omega) henc hbuild
      · rw [if_neg hok] at henc hbuild
        exact mirrors_of_reject (congrArg Prod.fst henc) (congrArg Prod.fst hbuild)

end

/-- **Mirroring.** Encoder and builder agree except on events between the two payload limits. -/
theorem mirrors_iff (args : PacketArgs) :
    Mirrors abi buf cap args ↔ ¬ EvtBetweenLimits buf cap args := by
  cases args with
  | cmd code channel param payload plen seq =>
    constructor
    · intro _ h
      exact h
    · intro _
      exact mirrors_cmd code channel param payload plen seq
  | evt code channel param payload plen seq =>
    exact mirrors_evt_iff code channel param payload plen seq
  | data frames frameCount seq =>
    constructor
    · intro _ h
      exact h
    · intro _
      exact mirrors_data frames frameCount seq

/-- A 65-byte event: the host encodes 85 bytes, the firmware refuses. -/
theorem evt_of_65_bytes_not_mirrored :
    ¬ ∀ (abi : Abi) (buf : Option Mem) (cap : ℕ) (args : PacketArgs), Mirrors abi buf cap args := by
  intro h
  have hevt := h Abi.x8664 (some fun _ => 0) 256 (.evt 2 0 0 (some fun _ => 0) 65 0)
  have hfirmware : (build Abi.x8664 (some fun _ => 0) 256
      (.evt 2 0 0 (some fun _ => 0) 65 0)).1 = -1 := rfl
  have hhost := hevt.reject.mpr hfirmware
  rw [encode, UsbFrameCodec.encodeEvt, UsbFrameCodec.encode8PlusPayload_eq, if_pos (by decide)]
    at hhost
  cases hhost

end Link

end BusTestPlatform

import BusTestPlatform.Firmware.UsbProtocolHandler
import BusTestPlatform.Software.UsbFrameCodec

/-!
# What the two sides accept

A header is good or not by the bytes of the buffer and the number of bytes received. Host and
firmware, which test this in different places, agree on it, and so on the packets they take.
-/

namespace BusTestPlatform

open Bytes

/-- The length field of a packet. -/
def packetLength (b : Mem) : UInt16 := word16 (b 4) (b 5)

/-- The sequence number of a packet. -/
def packetSeq (b : Mem) : UInt16 := word16 (b 6) (b 7)

/-- `len` received bytes start with a header and contain the payload that it declares. -/
def GoodHeader (b : Mem) (len : ℕ) : Prop :=
  word16 (b 0) (b 1) = usbMagic ∧ b 2 = usbProtocolVersion ∧
    usbHeaderSize + (packetLength b).toNat ≤ len

instance (b : Mem) (len : ℕ) : Decidable (GoodHeader b len) :=
  inferInstanceAs (Decidable (_ ∧ _ ∧ _))

lemma toUInt16_inj {a b : UInt8} : a.toUInt16 = b.toUInt16 ↔ a = b := by
  rw [← UInt16.toNat_inj, UInt8.toNat_toUInt16, UInt8.toNat_toUInt16, UInt8.toNat_inj]

namespace UsbFrameCodec

lemma parseHeader_eq (b : Mem) (len : ℕ) (kind length seq : Option UInt16) :
    parseHeader (some b) len kind length seq =
      if GoodHeader b len then
        ⟨true, kind.map fun _ => (b 3).toUInt16, length.map fun _ => packetLength b,
          seq.map fun _ => packetSeq b⟩
      else ⟨false, kind, length, seq⟩ := by
  by_cases h : GoodHeader b len
  · rw [if_pos h]
    obtain ⟨hmagic, hversion, hlen⟩ := h
    simp only [parseHeader]
    rw [if_neg (by omega), if_neg (by simp [hmagic, hversion]), if_neg]
    · rfl
    · rw [← packetLength]
      omega
  · rw [if_neg h]
    simp only [parseHeader]
    split_ifs with hsize hfields hlen
    · rfl
    · rfl
    · rfl
    · rw [not_or, not_not, not_not] at hfields
      refine absurd ⟨hfields.1, hfields.2, ?_⟩ h
      rw [packetLength]
      omega

/-- A data packet is accepted when its length is that of 1 to `maxFrames` frames. -/
def GoodData (abi : Abi) (b : Mem) (len maxFrames : ℕ) : Prop :=
  GoodHeader b len ∧ b 3 = pktData ∧ (packetLength b).toNat % abi.sizeofFrame = 0 ∧
    (packetLength b).toNat / abi.sizeofFrame ≠ 0 ∧
    (packetLength b).toNat / abi.sizeofFrame ≤ maxFrames

instance (abi : Abi) (b : Mem) (len maxFrames : ℕ) : Decidable (GoodData abi b len maxFrames) :=
  inferInstanceAs (Decidable (_ ∧ _ ∧ _ ∧ _ ∧ _))

lemma decodeData_eq (abi : Abi) (b : Mem) (len : ℕ) (dst : Mem) (maxFrames : ℕ)
    (seq : Option UInt16) :
    decodeData abi (some b) len (some dst) maxFrames seq =
      if GoodData abi b len maxFrames then
        ⟨(packetLength b).toNat / abi.sizeofFrame,
          some (memcpy dst 0 b usbHeaderSize
            ((packetLength b).toNat / abi.sizeofFrame * abi.sizeofFrame)),
          seq.map fun _ => packetSeq b⟩
      else ⟨0, some dst, seq⟩ := by
  have hkind : (b 3).toUInt16 ≠ pktData.toUInt16 ↔ b 3 ≠ pktData := toUInt16_inj.not
  by_cases h : GoodData abi b len maxFrames
  · rw [if_pos h]
    obtain ⟨hheader, hdata, hmod, hzero, hmax⟩ := h
    simp only [decodeData, parseHeader_eq, if_pos hheader, Option.map_some]
    have hroom : maxFrames ≠ 0 := fun h0 => hzero (Nat.le_zero.mp (h0 ▸ hmax))
    rw [if_neg hroom, if_neg (by rw [hkind]; exact not_not.mpr hdata),
      if_neg (by exact not_not.mpr hmod), if_neg (by omega)]
  · rw [if_neg h]
    simp only [decodeData, parseHeader_eq]
    by_cases hheader : GoodHeader b len
    · simp only [if_pos hheader, Option.map_some]
      split_ifs with hmax hdata hmod hcount
      · rfl
      · rfl
      · rfl
      · rfl
      · rw [hkind, not_ne_iff] at hdata
        rw [not_ne_iff] at hmod
        rw [not_or, not_lt] at hcount
        exact absurd ⟨hheader, hdata, hmod, hcount⟩ h
    · simp only [if_neg hheader, ite_self]

lemma goodData_of_count_ne_zero {abi : Abi} {b dst : Mem} {len maxFrames : ℕ}
    {seq : Option UInt16} (h : (decodeData abi (some b) len (some dst) maxFrames seq).count ≠ 0) :
    GoodData abi b len maxFrames := by
  by_contra hbad
  rw [decodeData_eq, if_neg hbad] at h
  exact h rfl

/-- A command or event is accepted when its payload contains the fixed part. -/
def GoodFixed (kind : UInt8) (b : Mem) (len : ℕ) : Prop :=
  GoodHeader b len ∧ b 3 = kind ∧ 8 ≤ (packetLength b).toNat

lemma decodeFixed_ok_iff (kind : UInt8) (b : Mem) (len : ℕ) (code channel : Option UInt16)
    (param : Option UInt32) :
    (decodeFixed kind (some b) len code channel param).ok = true ↔ GoodFixed kind b len := by
  have hkind : (b 3).toUInt16 ≠ kind.toUInt16 ↔ b 3 ≠ kind := toUInt16_inj.not
  have hfixed : packetLength b < 8 ↔ ¬ 8 ≤ (packetLength b).toNat := by
    rw [UInt16.lt_iff_toNat_lt, not_le]
    rfl
  simp only [decodeFixed, parseHeader_eq]
  constructor
  · intro h
    by_cases hheader : GoodHeader b len
    · simp only [if_pos hheader, Option.map_some] at h
      split_ifs at h with hsize hk hlen
      rw [hkind, not_ne_iff] at hk
      rw [not_or, hfixed, not_not] at hlen
      exact ⟨hheader, hk, hlen.1⟩
    · simp only [if_neg hheader, ite_self, Bool.false_eq_true] at h
  · rintro ⟨hheader, hk, hlen⟩
    have hsize := hheader.2.2
    simp only [if_pos hheader, Option.map_some]
    rw [if_neg (by omega), if_neg (by rw [hkind]; exact not_not.mpr hk), if_neg]
    rw [not_or, hfixed, not_not]
    exact ⟨hlen, by omega⟩

end UsbFrameCodec

namespace Firmware

lemma parse_eq (b : Mem) (len : ℕ) (hdr : UsbHeader) (payload : Option (Option ℕ))
    (payloadLen : Option ℕ) :
    parse (some b) len (some hdr) payload payloadLen =
      if GoodHeader b len then
        ⟨0, some (readHeader b), payload.map fun _ => some usbHeaderSize,
          payloadLen.map fun _ => (packetLength b).toNat⟩
      else ⟨-1, some (if len < usbHeaderSize then hdr else readHeader b), payload, payloadLen⟩ := by
  by_cases h : GoodHeader b len
  · rw [if_pos h]
    obtain ⟨hmagic, hversion, hlen⟩ := h
    simp only [parse]
    rw [if_neg (by omega), if_neg, if_neg]
    · rfl
    · change ¬ len < (packetLength b).toNat + usbHeaderSize
      omega
    · rw [not_or, not_ne_iff, not_ne_iff]
      exact ⟨hmagic, hversion⟩
  · rw [if_neg h]
    simp only [parse]
    split_ifs with hsize hfields hlen
    · rfl
    · rfl
    · rfl
    · rw [not_or, not_ne_iff, not_ne_iff] at hfields
      change ¬ len < (packetLength b).toNat + usbHeaderSize at hlen
      exact absurd ⟨hfields.1, hfields.2, by omega⟩ h

lemma handleCmd_eq_zero_iff (b : Mem) (len : ℕ) :
    handleCmd (some b) len = 0 ↔ UsbFrameCodec.GoodFixed pktCmd b len := by
  by_cases h : GoodHeader b len
  · simp only [handleCmd, parse_eq, if_pos h, Option.map_some]
    constructor
    · intro hret
      split_ifs at hret with hkind hlen
      rw [not_or, not_ne_iff, not_ne_iff] at hkind
      exact ⟨h, hkind.2, Nat.le_of_not_lt hlen⟩
    · rintro ⟨-, hkind, hlen⟩
      rw [if_neg, if_neg (Nat.not_lt.mpr hlen)]
      rw [not_or, not_ne_iff, not_ne_iff]
      exact ⟨rfl, hkind⟩
  · simp only [handleCmd, parse_eq, if_neg h]
    constructor
    · intro hret
      rw [if_pos (Or.inl (by decide))] at hret
      exact absurd hret (by decide)
    · exact fun hgood => absurd hgood.1 h

end Firmware

/-! ### Agreement -/

namespace Link

/-- Both sides find a good header, with the same fields, and the payload that the device reports
lies inside the buffer. -/
def SameHeader (len : ℕ) (host : UsbFrameCodec.HeaderOut) (device : Firmware.ParseOut) : Prop :=
  ∃ (header : UsbHeader) (payload payloadLen : ℕ),
    device.hdr = some header ∧ device.payload = some (some payload) ∧
    device.payloadLen = some payloadLen ∧ host.kind = some header.kind.toUInt16 ∧
    host.length = some header.length ∧ host.seq = some header.seq ∧
    payloadLen = header.length.toNat ∧ payload + payloadLen ≤ len

/-- The packet kind decides which decoder may accept. -/
lemma count_le_one {k : UInt8} {x y z : Bool} (hx : x = true → k = pktCmd)
    (hy : y = true → k = pktEvt) (hz : z = true → k = pktData) : [x, y, z].count true ≤ 1 := by
  cases x <;> cases y <;> cases z <;> simp_all [pktCmd, pktEvt, pktData]

lemma parseHeader_ok_iff (buf : Option Mem) (len : ℕ) (kind length seq : Option UInt16)
    (hdr : UsbHeader) (payload : Option (Option ℕ)) (payloadLen : Option ℕ) :
    (UsbFrameCodec.parseHeader buf len kind length seq).ok = true ↔
      (Firmware.parse buf len (some hdr) payload payloadLen).ret = 0 := by
  cases buf with
  | none => simp [UsbFrameCodec.parseHeader, Firmware.parse]
  | some b =>
    rw [UsbFrameCodec.parseHeader_eq, Firmware.parse_eq]
    by_cases hgood : GoodHeader b len
    · simp only [if_pos hgood]
    · simp [if_neg hgood]

lemma sameHeader_of_ok {buf : Option Mem} {len : ℕ} {kind length seq : UInt16} (hdr : UsbHeader)
    (payload : Option ℕ) (payloadLen : ℕ)
    (h : (UsbFrameCodec.parseHeader buf len (some kind) (some length) (some seq)).ok = true) :
    SameHeader len (UsbFrameCodec.parseHeader buf len (some kind) (some length) (some seq))
      (Firmware.parse buf len (some hdr) (some payload) (some payloadLen)) := by
  cases buf with
  | none => simp [UsbFrameCodec.parseHeader] at h
  | some b =>
    rw [UsbFrameCodec.parseHeader_eq] at h ⊢
    rw [Firmware.parse_eq]
    by_cases hgood : GoodHeader b len
    · simp only [if_pos hgood]
      exact ⟨_, _, _, rfl, rfl, rfl, rfl, rfl, rfl, rfl, hgood.2.2⟩
    · rw [if_neg hgood] at h
      exact absurd h Bool.false_ne_true

lemma decodeCmd_ok_iff (buf : Option Mem) (len : ℕ) (code channel : Option UInt16)
    (param : Option UInt32) :
    (UsbFrameCodec.decodeCmd buf len code channel param).ok = true ↔
      Firmware.handleCmd buf len = 0 := by
  cases buf with
  | none =>
    simp [UsbFrameCodec.decodeCmd, UsbFrameCodec.decodeFixed, Firmware.handleCmd, Firmware.parse]
  | some b =>
    rw [UsbFrameCodec.decodeCmd, UsbFrameCodec.decodeFixed_ok_iff,
      Firmware.handleCmd_eq_zero_iff]

/-- What a decoder accepts is of its kind. -/
lemma kind_of_accepted (abi : Abi) (buf : Option Mem) (len : ℕ) :
    ∃ k : UInt8,
      (∀ code channel param, (UsbFrameCodec.decodeCmd buf len code channel param).ok = true →
        k = pktCmd) ∧
      (∀ code channel param, (UsbFrameCodec.decodeEvt buf len code channel param).ok = true →
        k = pktEvt) ∧
      ∀ out maxFrames seq, (UsbFrameCodec.decodeData abi buf len out maxFrames seq).count ≠ 0 →
        k = pktData := by
  cases buf with
  | none =>
    simp [UsbFrameCodec.decodeCmd, UsbFrameCodec.decodeEvt, UsbFrameCodec.decodeFixed,
      UsbFrameCodec.decodeData]
  | some b =>
    refine ⟨b 3, fun _ _ _ h => ?_, fun _ _ _ h => ?_, fun out _ _ h => ?_⟩
    · exact ((UsbFrameCodec.decodeFixed_ok_iff ..).mp h).2.1
    · exact ((UsbFrameCodec.decodeFixed_ok_iff ..).mp h).2.1
    · cases out with
      | none => simp [UsbFrameCodec.decodeData] at h
      | some dst => exact (UsbFrameCodec.goodData_of_count_ne_zero h).2.1

/-- Host and firmware accept the same packets, and no packet is of two kinds. -/
theorem same_packets (abi : Abi) (buf : Option Mem) (len : ℕ) :
    (∀ kind length seq hdr payload payloadLen,
      (UsbFrameCodec.parseHeader buf len kind length seq).ok = true ↔
        (Firmware.parse buf len (some hdr) payload payloadLen).ret = 0) ∧
    (∀ kind length seq hdr payload payloadLen,
      (UsbFrameCodec.parseHeader buf len (some kind) (some length) (some seq)).ok = true →
        SameHeader len (UsbFrameCodec.parseHeader buf len (some kind) (some length) (some seq))
          (Firmware.parse buf len (some hdr) (some payload) (some payloadLen))) ∧
    (∀ code channel param,
      (UsbFrameCodec.decodeCmd buf len code channel param).ok = true ↔
        Firmware.handleCmd buf len = 0) ∧
    ∀ code channel param code' channel' param' out maxFrames seq,
      [(UsbFrameCodec.decodeCmd buf len code channel param).ok,
        (UsbFrameCodec.decodeEvt buf len code' channel' param').ok,
        (UsbFrameCodec.decodeData abi buf len out maxFrames seq).count != 0].count true ≤ 1 := by
  refine ⟨parseHeader_ok_iff buf len, ?_, decodeCmd_ok_iff buf len, ?_⟩
  · intro kind length seq hdr payload payloadLen h
    exact sameHeader_of_ok hdr payload payloadLen h
  · intro code channel param code' channel' param' out maxFrames seq
    obtain ⟨k, hcmd, hevt, hdata⟩ := kind_of_accepted abi buf len
    exact count_le_one (hcmd _ _ _) (hevt _ _ _) fun h => hdata _ _ _ (bne_iff_ne.mp h)

end Link

end BusTestPlatform

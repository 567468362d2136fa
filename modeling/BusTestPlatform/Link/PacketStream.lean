import BusTestPlatform.Lib.PrefixCode
import BusTestPlatform.Link.RoundTrip

/-!
# Packets in a stream

A packet says how long it is, so packets that come out of an endpoint one behind the other can be
told apart, whichever encoders of the two sides they come from.
-/

namespace BusTestPlatform

namespace Link

open Bytes InformationTheory PrefixCode

/-- The bytes are those of a packet, as many as an encoder of the host or a builder of the device
has announced. -/
inductive Sent (abi : Abi) : List UInt8 → Prop
  | encodeCmd {buf cap cmd channel param payload payloadLen seq total packet} :
      UsbFrameCodec.encodeCmd buf cap cmd channel param payload payloadLen seq =
        (total, some packet) → total ≠ 0 → Sent abi (load packet 0 total)
  | encodeEvt {buf cap evt channel param payload payloadLen seq total packet} :
      UsbFrameCodec.encodeEvt buf cap evt channel param payload payloadLen seq =
        (total, some packet) → total ≠ 0 → Sent abi (load packet 0 total)
  | encodeData {buf cap frames frameCount seq total packet} :
      UsbFrameCodec.encodeData abi buf cap frames frameCount seq = (total, some packet) →
        total ≠ 0 → Sent abi (load packet 0 total)
  | buildCmd {buf cap cmd channel param payload plen seq packet} {total : ℕ} :
      Firmware.buildCmd buf cap cmd channel param payload plen seq =
        ((total : ℤ), some packet) →
        Sent abi (load packet 0 total)
  | buildEvt {buf cap evt channel param payload plen seq packet} {total : ℕ} :
      Firmware.buildEvt buf cap evt channel param payload plen seq =
        ((total : ℤ), some packet) →
        Sent abi (load packet 0 total)
  | buildData {buf cap frames frameCount seq packet} {total : ℕ} :
      Firmware.buildData abi buf cap frames frameCount seq = ((total : ℤ), some packet) →
        Sent abi (load packet 0 total)

/-- The size of the packet at the start of the bytes, as `parse_header` reports it. -/
def packetSize (bs : List UInt8) : Option ℕ :=
  match UsbFrameCodec.parseHeader (some (store (fun _ => 0) 0 bs)) bs.length none (some 0) none with
  | ⟨true, _, some length, _⟩ => some (usbHeaderSize + length.toNat)
  | _ => none

/-- A header and as many bytes as it declares. -/
def IsPacket (p : List UInt8) : Prop :=
  ∃ kind length seq body, p = headerBytes kind length seq ++ body ∧ body.length = length.toNat

lemma IsPacket.ne_nil {p : List UInt8} (h : IsPacket p) : p ≠ [] := by
  obtain ⟨kind, length, seq, body, rfl, -⟩ := h
  simp [headerBytes]

/-- The header is read wherever the stream goes on. -/
lemma IsPacket.packetSize_append {p : List UInt8} (h : IsPacket p) (rest : List UInt8) :
    packetSize (p ++ rest) = some p.length := by
  obtain ⟨kind, length, seq, body, rfl, hbody⟩ := h
  have hbytes := hasBytes_store (fun _ => 0) 0 (headerBytes kind length seq ++ body ++ rest)
  rw [packetSize, List.append_assoc] at *
  rw [UsbFrameCodec.parseHeader_of_header hbytes]
  · simp [hbody]
  · simp [hbody]
    omega

lemma isPacket_load {m : Mem} {kind : UInt8} {length seq : UInt16} {bs : List UInt8} {total : ℕ}
    (h : HasBytes m 0 (headerBytes kind length seq ++ bs))
    (htotal : total = usbHeaderSize + length.toNat) : IsPacket (load m 0 total) := by
  have hheader := (hasBytes_append.mp h).1
  rw [HasBytes, length_headerBytes] at hheader
  refine ⟨kind, length, seq, load m usbHeaderSize length.toNat, ?_, length_load ..⟩
  rw [htotal, load_add, hheader, Nat.zero_add]

/-! ### The six encoders -/

lemma isPacket_encode8PlusPayload {kind : UInt8} {buf : Option Mem} {cap : ℕ}
    {code channel : UInt16} {param : UInt32} {payload : Option Mem} {payloadLen : ℕ} {seq : UInt16}
    {total : ℕ} {packet : Mem} (h : UsbFrameCodec.encode8PlusPayload kind buf cap code channel param
      payload payloadLen seq = (total, some packet)) (htotal : total ≠ 0) :
    IsPacket (load packet 0 total) := by
  cases buf with
  | none =>
    rw [UsbFrameCodec.encode8PlusPayload, if_pos (Or.inl rfl)] at h
    cases h
  | some b =>
    rw [UsbFrameCodec.encode8PlusPayload_eq] at h
    split_ifs at h with hok
    · cases h
      refine isPacket_load (hasBytes_store _ _ _) ?_
      rw [toNat_lengthField hok.1, Nat.add_assoc]
    · cases h
      exact absurd rfl htotal

lemma isPacket_encodeData {abi : Abi} {buf : Option Mem} {cap : ℕ} {frames : Option Mem}
    {frameCount : ℕ} {seq : UInt16} {total : ℕ} {packet : Mem}
    (h : UsbFrameCodec.encodeData abi buf cap frames frameCount seq = (total, some packet))
    (htotal : total ≠ 0) : IsPacket (load packet 0 total) := by
  cases buf with
  | none => cases h
  | some b =>
    cases frames with
    | none =>
      cases h
      exact absurd rfl htotal
    | some src =>
      rw [UsbFrameCodec.encodeData_eq] at h
      split_ifs at h with hok
      · cases h
        refine isPacket_load (hasBytes_store _ _ _) ?_
        rw [UInt16.toNat_ofNat', Nat.mod_eq_of_lt (abi.frameBytes_lt hok.2.1)]
      · cases h
        exact absurd rfl htotal

lemma isPacket_buildFixed {kind : UInt8} {maxPlen : ℕ} {buf : Option Mem} {cap : ℕ} {code : UInt32}
    {channel : UInt16} {param : UInt32} {payload : Option Mem} {plen seq : UInt16} {total : ℕ}
    {packet : Mem} (hmax : maxPlen ≤ usbCmdPayloadMax)
    (h : Firmware.buildFixed kind maxPlen buf cap code channel param payload plen seq =
      ((total : ℤ), some packet)) : IsPacket (load packet 0 total) := by
  cases buf with
  | none => cases h
  | some b =>
    rw [Firmware.buildFixed_eq] at h
    split_ifs at h with hok
    · rw [Prod.mk.injEq, Nat.cast_inj, Option.some.injEq] at h
      obtain ⟨rfl, rfl⟩ := h
      have hfit : 8 + plen.toNat < 2 ^ 16 := by
        have hle := hok.1.trans hmax
        rw [usbCmdPayloadMax] at hle
        omega
      refine isPacket_load (hasBytes_store _ _ _) ?_
      rw [UInt16.toNat_add, Nat.add_assoc]
      exact congrArg _ (Nat.mod_eq_of_lt hfit).symm
    · rw [Prod.mk.injEq] at h
      omega

lemma Sent.isPacket {abi : Abi} {p : List UInt8} (h : Sent abi p) : IsPacket p := by
  cases h with
  | encodeCmd h htotal => exact isPacket_encode8PlusPayload h htotal
  | encodeEvt h htotal => exact isPacket_encode8PlusPayload h htotal
  | encodeData h htotal => exact isPacket_encodeData h htotal
  | buildCmd h => exact isPacket_buildFixed le_rfl h
  | buildEvt h => exact isPacket_buildFixed (by decide) h
  | @buildData buf _ frames _ _ _ _ h =>
    cases frames with
    | none => cases buf <;> cases h
    | some src =>
      obtain ⟨-, hle, htotal, hbytes⟩ := buildData_received h ⟨le_rfl, fun _ _ => rfl⟩
      refine isPacket_load hbytes ?_
      rw [htotal, UInt16.toNat_ofNat', Nat.mod_eq_of_lt (abi.frameBytes_lt hle)]

/-- **Framing.** Whatever follows a packet of either side, `parse_header` finds its size; and no
other packets give the same stream, so that nothing but the bytes is needed to tell them apart. -/
theorem stream_decodable (abi : Abi) :
    (∀ p, Sent abi p → ∀ rest, packetSize (p ++ rest) = some p.length) ∧
      UniquelyDecodable {p | Sent abi p} := by
  refine ⟨fun p hp => hp.isPacket.packetSize_append, ?_⟩
  apply IsPrefixCode.uniquelyDecodable
  exact isPrefixCode_of_size (fun p hp => hp.isPacket.ne_nil)
    fun p hp => hp.isPacket.packetSize_append

end Link

end BusTestPlatform

import BusTestPlatform.Firmware.UsbProtocolHandler
import BusTestPlatform.Software.UsbFrameCodec

/-!
# The link, end to end

What one side sends the other understands, when both are built with the same layout of the frame.
The receiver sees the packet in a buffer of its own, which may be longer than the packet and hold
anything behind it.
-/

namespace BusTestPlatform

namespace Link

open Bytes

/-- The buffer `rx` of `len` bytes starts with the `total` bytes of `packet`. -/
structure Receives (rx : Mem) (len : ℕ) (packet : Mem) (total : ℕ) : Prop where
  fits : total ≤ len
  same : ∀ i < total, rx i = packet i

lemma Receives.hasBytes {rx b : Mem} {len total : ℕ} {bs : List UInt8}
    (h : Receives rx len (store b 0 bs) total) (ht : total = bs.length) : HasBytes rx 0 bs :=
  (hasBytes_store b 0 bs).congr fun i _ hi => h.same i (by omega)

/-- A null pointer with a positive length is the one argument no copy is made of. -/
lemma length_payloadBytes {payload : Option Mem} {n : ℕ} (h : 0 < n → payload ≠ none) :
    (payloadBytes payload n).length = n := by
  cases payload with
  | none =>
    rcases Nat.eq_zero_or_pos n with rfl | hn
    · rfl
    · exact absurd rfl (h hn)
  | some src => exact length_load src 0 n

lemma toNat_lengthField {n : ℕ} (h : n ≤ usbCmdPayloadMax) :
    (UInt16.ofNat (8 + n)).toNat = 8 + n := by
  rw [usbCmdPayloadMax] at h
  rw [UInt16.toNat_ofNat', Nat.mod_eq_of_lt (by omega)]

/-! ### Commands: host to device -/

/-- Every packet of `encode_cmd` is accepted by the device, with its fields and payload intact. -/
def CmdRoundTrip : Prop :=
  ∀ (buf : Option Mem) (cap : ℕ) (cmd channel : UInt16) (param : UInt32) (payload : Option Mem)
    (payloadLen : ℕ) (seq : UInt16) (total : ℕ) (packet : Mem),
    UsbFrameCodec.encodeCmd buf cap cmd channel param payload payloadLen seq =
      (total, some packet) →
    total ≠ 0 → (0 < payloadLen → payload ≠ none) →
    ∀ (rx : Mem) (len : ℕ), Receives rx len packet total →
    (∀ (hdr : UsbHeader) (ptr : Option ℕ) (plen : ℕ),
      Firmware.parse (some rx) len (some hdr) (some ptr) (some plen) =
        ⟨0, some ⟨usbMagic, usbProtocolVersion, pktCmd, UInt16.ofNat (8 + payloadLen), seq, 0⟩,
          some (some usbHeaderSize), some (8 + payloadLen)⟩) ∧
    HasBytes rx usbHeaderSize (fixedBytes cmd channel param ++ payloadBytes payload payloadLen) ∧
    (payloadBytes payload payloadLen).length = payloadLen ∧
    Firmware.handleCmd (some rx) len = 0

lemma cmdRoundTrip : CmdRoundTrip := by
  intro buf cap cmd channel param payload payloadLen seq total packet henc htotal hnull rx len hrx
  cases buf with
  | none =>
    rw [UsbFrameCodec.encodeCmd, UsbFrameCodec.encode8PlusPayload, if_pos (Or.inl rfl)] at henc
    cases henc
  | some b =>
    rw [UsbFrameCodec.encodeCmd, UsbFrameCodec.encode8PlusPayload_eq] at henc
    by_cases hok : payloadLen ≤ usbCmdPayloadMax ∧ usbHeaderSize + 8 + payloadLen ≤ cap
    · rw [if_pos hok] at henc
      cases henc
      have hbytes := hrx.hasBytes (by simp [length_payloadBytes hnull, Nat.add_assoc])
      have hlen := toNat_lengthField hok.1
      have hfits := hrx.fits
      have hparse := Firmware.parse_of_header hbytes (show _ ≤ len by omega)
      refine ⟨fun hdr ptr plen => ?_, (hasBytes_header.mp hbytes).2.2.2.2.2.2,
        length_payloadBytes hnull, Firmware.handleCmd_of_header hbytes (by omega) (by omega)⟩
      rw [hparse, hlen]
      rfl
    · rw [if_neg hok] at henc
      cases henc
      exact absurd rfl htotal

/-! ### Events: device to host -/

/-- Every packet of `usb_protocol_build_evt` is decoded to the same event. -/
def EvtRoundTrip : Prop :=
  ∀ (buf : Option Mem) (cap : ℕ) (evt channel : UInt16) (param : UInt32) (payload : Option Mem)
    (plen seq : UInt16) (total : ℕ) (packet : Mem),
    Firmware.buildEvt buf cap evt.toUInt32 channel param payload plen seq =
      ((total : ℤ), some packet) →
    (0 < plen → payload ≠ none) →
    ∀ (rx : Mem) (len : ℕ), Receives rx len packet total →
    (∀ (evtOut channelOut : UInt16) (paramOut : UInt32),
      UsbFrameCodec.decodeEvt (some rx) len (some evtOut) (some channelOut) (some paramOut) =
        ⟨true, some evt, some channel, some param⟩) ∧
    HasBytes rx 20 (payloadBytes payload plen.toNat) ∧
    (payloadBytes payload plen.toNat).length = plen.toNat

lemma evtRoundTrip : EvtRoundTrip := by
  intro buf cap evt channel param payload plen seq total packet hbuild hnull rx len hrx
  have hnull' : 0 < plen.toNat → payload ≠ none := fun h =>
    hnull (by rwa [UInt16.lt_iff_toNat_lt])
  cases buf with
  | none => cases hbuild
  | some b =>
    rw [Firmware.buildEvt, Firmware.buildFixed_eq] at hbuild
    by_cases hok : plen.toNat ≤ usbEvtPayloadMax ∧ usbHeaderSize + 8 + plen.toNat ≤ cap
    · rw [if_pos hok, Prod.mk.injEq, Nat.cast_inj, Option.some.injEq] at hbuild
      obtain ⟨rfl, rfl⟩ := hbuild
      have hbytes := hrx.hasBytes (by simp [length_payloadBytes hnull', Nat.add_assoc])
      have hplen := hok.1
      have hlen : (8 + plen).toNat = 8 + plen.toNat := by
        rw [usbEvtPayloadMax] at hplen
        rw [UInt16.toNat_add]
        exact Nat.mod_eq_of_lt (a := 8 + plen.toNat) (by omega)
      have hfits := hrx.fits
      refine ⟨fun evtOut channelOut paramOut => ?_, ?_, length_payloadBytes hnull'⟩
      · rw [UsbFrameCodec.decodeEvt,
          UsbFrameCodec.decodeFixed_of_header hbytes (by omega) (by omega)]
        simp
      · have hbody := (hasBytes_header.mp hbytes).2.2.2.2.2.2
        exact (hasBytes_fixed.mp hbody).2.2.2
    · rw [if_neg hok, Prod.mk.injEq] at hbuild
      omega

/-! ### Data: device to host -/

/-- Every packet of `usb_protocol_build_data` is decoded to the same bytes, and so to the same
frames, if both sides use the layout `abi`. -/
def DataRoundTrip (abi : Abi) : Prop :=
  ∀ (buf : Option Mem) (cap : ℕ) (src : Mem) (frameCount : UInt8) (seq : UInt16) (total : ℕ)
    (packet : Mem),
    Firmware.buildData abi buf cap (some src) frameCount seq = ((total : ℤ), some packet) →
    ∀ (rx : Mem) (len : ℕ), Receives rx len packet total →
    ∀ (dst : Mem) (maxFrames : ℕ) (seqOut : UInt16), frameCount.toNat ≤ maxFrames →
    ∃ out, UsbFrameCodec.decodeData abi (some rx) len (some dst) maxFrames (some seqOut) =
        ⟨frameCount.toNat, some out, some seq⟩ ∧
      HasBytes out 0 (load src 0 (frameCount.toNat * abi.sizeofFrame)) ∧
      ∀ fs : List BusFrame, fs.length = frameCount.toNat → BusFrame.ArrayAt abi src 0 fs →
        BusFrame.ArrayAt abi out 0 fs

/-- What `usb_protocol_build_data` returned, and what of it a receive buffer holds. -/
lemma buildData_received {abi : Abi} {buf : Option Mem} {cap : ℕ} {src : Mem} {frameCount : UInt8}
    {seq : UInt16} {total : ℕ} {packet rx : Mem} {len : ℕ}
    (hbuild : Firmware.buildData abi buf cap (some src) frameCount seq =
      ((total : ℤ), some packet))
    (hrx : Receives rx len packet total) :
    frameCount.toNat ≠ 0 ∧ frameCount.toNat ≤ usbFramesPerPacket ∧
      total = usbHeaderSize + frameCount.toNat * abi.sizeofFrame ∧
      HasBytes rx 0 (headerBytes pktData (UInt16.ofNat (frameCount.toNat * abi.sizeofFrame)) seq ++
        load src 0 (frameCount.toNat * abi.sizeofFrame)) := by
  cases buf with
  | none => cases hbuild
  | some b =>
    rw [Firmware.buildData_eq] at hbuild
    by_cases hok : frameCount ≠ 0 ∧ frameCount.toNat ≤ usbFramesPerPacket ∧
        usbHeaderSize + frameCount.toNat * abi.sizeofFrame ≤ cap
    · rw [if_pos hok, Prod.mk.injEq, Nat.cast_inj, Option.some.injEq] at hbuild
      obtain ⟨rfl, rfl⟩ := hbuild
      refine ⟨fun h0 => hok.1 (UInt8.toNat_inj.mp h0), hok.2.1, rfl, hrx.hasBytes (by simp)⟩
    · rw [if_neg hok, Prod.mk.injEq] at hbuild
      omega

lemma dataRoundTrip (abi : Abi) : DataRoundTrip abi := by
  intro buf cap src frameCount seq total packet hbuild rx len hrx dst maxFrames seqOut hmax
  obtain ⟨hpos, hle, rfl, hbytes⟩ := buildData_received hbuild hrx
  have hfits := hrx.fits
  have hlen : (UInt16.ofNat (frameCount.toNat * abi.sizeofFrame)).toNat =
      frameCount.toNat * abi.sizeofFrame := by
    rw [UInt16.toNat_ofNat', Nat.mod_eq_of_lt (abi.frameBytes_lt hle)]
  have hdiv : frameCount.toNat * abi.sizeofFrame / abi.sizeofFrame = frameCount.toNat :=
    Nat.mul_div_cancel _ abi.sizeofFrame_range.1
  have hpayload := (hasBytes_header.mp hbytes).2.2.2.2.2.2
  rw [HasBytes, length_load] at hpayload
  refine ⟨memcpy dst 0 rx usbHeaderSize (frameCount.toNat * abi.sizeofFrame), ?_, ?_, ?_⟩
  · rw [UsbFrameCodec.decodeData_of_header abi hbytes (by omega) dst (by omega), hlen, hdiv,
      if_pos ⟨Nat.mul_mod_left _ _, hpos, hmax⟩]
    rfl
  · rw [memcpy, hpayload]
    exact hasBytes_store dst 0 _
  · intro fs hfs hsrc
    refine BusFrame.ArrayAt.transfer (fun i hi => ?_) hsrc
    rw [hfs] at hi
    have hcopy := hasBytes_store dst 0 (load src 0 (frameCount.toNat * abi.sizeofFrame))
    rw [HasBytes, length_load] at hcopy
    rw [memcpy, hpayload]
    exact apply_eq_of_load_eq hcopy hi

/-- **The link round trip.** Commands reach the device, events and frames reach the host, whatever
follows the packet in the receive buffer. -/
theorem link_round_trip (abi : Abi) : CmdRoundTrip ∧ EvtRoundTrip ∧ DataRoundTrip abi :=
  ⟨cmdRoundTrip, evtRoundTrip, dataRoundTrip abi⟩

/-- A receive buffer with the packet and `0xAA` behind it. -/
def followed (packet : Mem) (total : ℕ) : Mem := fun i => if i < total then packet i else 0xAA

lemma receives_followed (packet : Mem) {total len : ℕ} (h : total ≤ len) :
    Receives (followed packet total) len packet total :=
  ⟨h, fun _ hi => if_pos hi⟩

/-- A start-capture command and an overrun event, each with four payload bytes, and a packet of two
frames, received in buffers longer than the packets. -/
theorem link_round_trip_once :
    Firmware.handleCmd
      (some (followed (store (fun _ => 0) 0
        (headerBytes pktCmd 12 7 ++ (fixedBytes 1 2 3 ++ [9, 8, 7, 6]))) 24)) 100 = 0 ∧
    UsbFrameCodec.decodeEvt
      (some (followed (store (fun _ => 0) 0
        (headerBytes pktEvt 12 7 ++ (fixedBytes 1 2 3 ++ [9, 8, 7, 6]))) 24)) 100
      (some 0) (some 0) (some 0) = ⟨true, some 1, some 2, some 3⟩ ∧
    ∃ out, UsbFrameCodec.decodeData Abi.x8664
        (some (followed (store (fun _ => 0) 0
          (headerBytes pktData 192 7 ++ load (fun _ => 5) 0 192)) 204)) 300
        (some fun _ => 0) 16 (some 0) = ⟨2, some out, some 7⟩ ∧
      HasBytes out 0 (load (fun _ => 5) 0 192) := by
  obtain ⟨hcmd, hevt, hdata⟩ := link_round_trip Abi.x8664
  refine ⟨?_, ?_, ?_⟩
  · exact (hcmd (some fun _ => 0) 64 1 2 3 (some fun i => UInt8.ofNat (9 - i)) 4 7 24 _ rfl
      (by decide) (by simp) _ 100 (receives_followed _ (by decide))).2.2.2
  · exact (hevt (some fun _ => 0) 64 1 2 3 (some fun i => UInt8.ofNat (9 - i)) 4 7 24 _ rfl
      (by simp) _ 100 (receives_followed _ (by decide))).1 0 0 0
  · have hbuild : Firmware.buildData Abi.x8664 (some fun _ => 0) 400 (some fun _ => 5) 2 7 =
        (204, some (store (fun _ => 0) 0
          (headerBytes pktData 192 7 ++ load (fun _ => 5) 0 192))) := by
      rw [Firmware.buildData_eq, if_pos (by decide)]
      rfl
    obtain ⟨out, hout, hbytes, -⟩ := hdata (some fun _ => 0) 400 (fun _ => 5) 2 7 204 _ hbuild _ 300
      (receives_followed _ (by decide)) (fun _ => 0) 16 0 (by decide)
    exact ⟨out, hout, hbytes⟩

end Link

end BusTestPlatform

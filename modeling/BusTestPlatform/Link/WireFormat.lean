import BusTestPlatform.Link.Acceptance

/-!
# Accepted data packets and the wire format

A data packet carries at most 16 frames, says the protocol header, and the encoder on either side
sends no more. The host decoder does not test it. What it accepts is a packet that its own encoder
could have sent, the reserved bytes of the header apart, exactly when the declared length is that
of at most 16 frames.
-/

namespace BusTestPlatform

namespace Link

open Bytes UsbFrameCodec

/-- The outcome `d` of decoding `b` is that of a packet of the wire format: encoding the decoded
frames with the decoded sequence number gives the packet back. -/
def Reencodes (abi : Abi) (b : Mem) (d : DecodedData) : Prop :=
  1 ≤ d.count ∧ d.count ≤ usbFramesPerPacket ∧
    ∃ frames q, d.out = some frames ∧ d.seq = some q ∧
      ∀ buf cap, usbHeaderSize + d.count * abi.sizeofFrame ≤ cap →
        ∃ packet, encodeData abi (some buf) cap (some frames) d.count q =
            (usbHeaderSize + d.count * abi.sizeofFrame, some packet) ∧
          ∀ i < usbHeaderSize + d.count * abi.sizeofFrame, ¬ (8 ≤ i ∧ i < usbHeaderSize) →
            packet i = b i

/-- What a good data packet consists of: the header that the encoder writes, up to the reserved
bytes, and the frames. -/
lemma eq_of_goodData {abi : Abi} {b packet : Mem} {len maxFrames : ℕ}
    (h : GoodData abi b len maxFrames) {n : ℕ} (hn : n * abi.sizeofFrame = (packetLength b).toNat)
    (hpacket : HasBytes packet 0 (headerBytes pktData (UInt16.ofNat (n * abi.sizeofFrame))
      (packetSeq b) ++ load b usbHeaderSize (n * abi.sizeofFrame)))
    {i : ℕ} (hi : i < usbHeaderSize + n * abi.sizeofFrame) (hres : ¬ (8 ≤ i ∧ i < usbHeaderSize)) :
    packet i = b i := by
  obtain ⟨⟨hmagic, hversion, -⟩, hkind, -⟩ := h
  have hlength : UInt16.ofNat (n * abi.sizeofFrame) = packetLength b := by
    rw [hn, UInt16.ofNat_toNat]
  rw [hlength] at hpacket
  obtain ⟨hmagic', hversion', hkind', hlength', hseq', -, hframes⟩ := hasBytes_header.mp hpacket
  have hbody : HasBytes b usbHeaderSize (load b usbHeaderSize (n * abi.sizeofFrame)) := by
    rw [HasBytes, length_load]
  rcases Nat.lt_or_ge i usbHeaderSize with hlt | hge
  · have hhead : i < 8 := by
      by_contra h8
      exact hres ⟨Nat.le_of_not_lt h8, hlt⟩
    rcases (by omega : i < 2 ∨ i = 2 ∨ i = 3 ∨ (4 ≤ i ∧ i < 6) ∨ (6 ≤ i ∧ i < 8)) with
      h | rfl | rfl | ⟨hlo, hhi⟩ | ⟨hlo, hhi⟩
    · exact hmagic'.apply_eq (hasBytes_of_word16 hmagic) (Nat.zero_le i) (by simpa using h)
    · exact hversion'.trans hversion.symm
    · exact hkind'.trans hkind.symm
    · exact hlength'.apply_eq (hasBytes_of_word16 rfl) hlo (by simpa using hhi)
    · exact hseq'.apply_eq (hasBytes_of_word16 rfl) hlo (by simpa using hhi)
  · exact hframes.apply_eq hbody hge (by simpa using hi)

lemma reencodes_of_le {abi : Abi} {b dst : Mem} {len maxFrames : ℕ} {seq : UInt16}
    (h : GoodData abi b len maxFrames)
    (hle : (packetLength b).toNat / abi.sizeofFrame ≤ usbFramesPerPacket) :
    Reencodes abi b (decodeData abi (some b) len (some dst) maxFrames (some seq)) := by
  rw [decodeData_eq, if_pos h]
  have hn : (packetLength b).toNat / abi.sizeofFrame * abi.sizeofFrame =
      (packetLength b).toNat := Nat.div_mul_cancel (Nat.dvd_of_mod_eq_zero h.2.2.1)
  have hpos : (packetLength b).toNat / abi.sizeofFrame ≠ 0 := h.2.2.2.1
  refine ⟨Nat.one_le_iff_ne_zero.mpr hpos, hle, _, packetSeq b, rfl, rfl, fun buf cap hcap => ?_⟩
  have hload : load (memcpy dst 0 b usbHeaderSize ((packetLength b).toNat / abi.sizeofFrame *
      abi.sizeofFrame)) 0 ((packetLength b).toNat / abi.sizeofFrame * abi.sizeofFrame) =
      load b usbHeaderSize ((packetLength b).toNat / abi.sizeofFrame * abi.sizeofFrame) := by
    have := load_store dst 0 (load b usbHeaderSize
      ((packetLength b).toNat / abi.sizeofFrame * abi.sizeofFrame))
    rwa [length_load] at this
  refine ⟨_, (encodeData_eq ..).trans (if_pos ⟨hpos, hle, hcap⟩), fun i hi hres => ?_⟩
  refine eq_of_goodData h hn ?_ hi hres
  rw [hload]
  exact hasBytes_store _ _ _

/-- Of the packets that the host accepts, those of the wire format are the ones that declare at most
16 frames of 96 bytes. -/
theorem reencodes_iff {b dst : Mem} {len maxFrames : ℕ} {seq : UInt16}
    (h : (decodeData Abi.x8664 (some b) len (some dst) maxFrames (some seq)).count ≠ 0) :
    Reencodes Abi.x8664 b (decodeData Abi.x8664 (some b) len (some dst) maxFrames (some seq)) ↔
      (packetLength b).toNat ≤ usbFramesPerPacket * 96 := by
  have hgood := goodData_of_count_ne_zero h
  have hmod := hgood.2.2.1
  rw [Abi.sizeofFrame_x8664] at hmod
  constructor
  · intro hre
    have hcount := hre.2.1
    rw [decodeData_eq, if_pos hgood, Abi.sizeofFrame_x8664] at hcount
    rw [← Nat.div_mul_cancel (Nat.dvd_of_mod_eq_zero hmod)]
    exact Nat.mul_le_mul_right 96 hcount
  · intro hle
    refine reencodes_of_le hgood ?_
    rw [Abi.sizeofFrame_x8664]
    exact Nat.div_le_of_le_mul (by rwa [Nat.mul_comm])

/-- A data packet of `n` zero frames. -/
def zeroPacket (n : ℕ) : Mem :=
  store (fun _ => 0) 0 (headerBytes pktData (UInt16.ofNat (n * 96)) 7)

theorem reencodes_two :
    Reencodes Abi.x8664 (zeroPacket 2)
      (decodeData Abi.x8664 (some (zeroPacket 2)) 204 (some fun _ => 0) 256 (some 0)) :=
  (reencodes_iff (by decide)).mpr (by decide)

/-- Seventeen frames are accepted by a caller with room for 256. -/
theorem seventeen_frames_accepted :
    ¬ ∀ (b dst : Mem) (len maxFrames : ℕ) (seq : UInt16),
      (decodeData Abi.x8664 (some b) len (some dst) maxFrames (some seq)).count ≠ 0 →
        Reencodes Abi.x8664 b
          (decodeData Abi.x8664 (some b) len (some dst) maxFrames (some seq)) := by
  intro h
  have hcount : (decodeData Abi.x8664 (some (zeroPacket 17)) 1644 (some fun _ => 0) 256
      (some 0)).count = 17 := by decide
  have hre := h (zeroPacket 17) (fun _ => 0) 1644 256 0 (by rw [hcount]; decide)
  exact absurd hre.2.1 (by rw [hcount]; decide)

end Link

end BusTestPlatform

import BusTestPlatform.Link.WireFormat
import BusTestPlatform.Shared.RawFrame
import BusTestPlatform.Software.BusFrame
import BusTestPlatform.Software.CanDecoder

/-!
# Frames from the wire and those who read them

Every producer on the host limits the length of a payload to the array it is stored in. A frame from
the wire is copied as it is, and its readers trust the length field.
-/

namespace BusTestPlatform

namespace Link

open Bytes UsbFrameCodec

/-- The frames that `decode_data` leaves in the array of the caller. -/
def decodedFrames (abi : Abi) (d : DecodedData) : List RawFrame :=
  match d.out with
  | none => []
  | some out => (List.range d.count).map fun i => RawFrame.read abi out (i * abi.sizeofFrame)

/-- The fields are in their ranges, and neither `frame_to_string` nor the bit walks of the signal
decoder leave the payload array. -/
structure SafeToConsume (f : RawFrame) : Prop where
  dlc : f.dlc.toNat ≤ busMaxPayload
  channel : f.channel.toNat < busMaxChannels
  text : (frameToString f).isSome = true
  walk : ∀ (D : Type) (sig : Signal D),
    (CanDecoder.extractRawChecked sig f.data f.dlc).isSome = true

lemma safeToConsume_iff (f : RawFrame) :
    SafeToConsume f ↔ f.dlc.toNat ≤ busMaxPayload ∧ f.channel.toNat < busMaxChannels := by
  constructor
  · exact fun h => ⟨h.dlc, h.channel⟩
  · rintro ⟨hdlc, hchannel⟩
    refine ⟨hdlc, hchannel, (isSome_frameToString f).mpr hdlc, fun D sig => ?_⟩
    rw [CanDecoder.extractRawChecked_eq]
    rfl

/-- The fields of frame `i` of a data packet are bytes of the packet. -/
lemma read_memcpy (b dst : Mem) {n i : ℕ} (hi : i < n) :
    (RawFrame.read Abi.x8664 (memcpy dst 0 b usbHeaderSize (n * 96)) (i * 96)).dlc =
        b (usbHeaderSize + 96 * i + 26) ∧
      (RawFrame.read Abi.x8664 (memcpy dst 0 b usbHeaderSize (n * 96)) (i * 96)).channel =
        b (usbHeaderSize + 96 * i + 12) := by
  have hbyte : ∀ k < 96, memcpy dst 0 b usbHeaderSize (n * 96) (i * 96 + k) =
      b (usbHeaderSize + 96 * i + k) := by
    intro k hk
    have hcopy := memcpy_apply dst b 0 usbHeaderSize (n := n * 96) (i := i * 96 + k) (by omega)
    rw [Nat.zero_add] at hcopy
    rw [hcopy, Nat.mul_comm i, Nat.add_assoc]
  simp only [RawFrame.read, Abi.offsets_x8664]
  exact ⟨hbyte 26 (by decide), hbyte 12 (by decide)⟩

/-- The frames of an accepted packet are safe to consume when the packet says so itself. -/
theorem frames_safe_iff {b dst : Mem} {len maxFrames : ℕ} {seq : Option UInt16}
    (h : (decodeData Abi.x8664 (some b) len (some dst) maxFrames seq).count ≠ 0) :
    (∀ f ∈ decodedFrames Abi.x8664
        (decodeData Abi.x8664 (some b) len (some dst) maxFrames seq), SafeToConsume f) ↔
      ∀ i < (packetLength b).toNat / 96,
        (b (usbHeaderSize + 96 * i + 26)).toNat ≤ busMaxPayload ∧
          (b (usbHeaderSize + 96 * i + 12)).toNat < busMaxChannels := by
  have hgood := goodData_of_count_ne_zero h
  rw [decodeData_eq, if_pos hgood, Abi.sizeofFrame_x8664]
  simp only [decodedFrames, List.forall_mem_map, List.mem_range, safeToConsume_iff,
    Abi.sizeofFrame_x8664]
  refine forall₂_congr fun i hi => ?_
  rw [(read_memcpy b dst hi).1, (read_memcpy b dst hi).2]

theorem frames_safe_zero :
    (decodedFrames Abi.x8664
        (decodeData Abi.x8664 (some (zeroPacket 2)) 204 (some fun _ => 0) 256 none)).length = 2 ∧
      ∀ f ∈ decodedFrames Abi.x8664
        (decodeData Abi.x8664 (some (zeroPacket 2)) 204 (some fun _ => 0) 256 none),
        SafeToConsume f :=
  ⟨by decide, (frames_safe_iff (by decide)).mpr (by decide)⟩

/-- A packet of one frame whose length field says 200. -/
def longFramePacket : Mem := set (zeroPacket 1) (usbHeaderSize + 26) 200

/-- Printing the frame reads beyond its array. -/
theorem long_frame_accepted :
    ¬ ∀ (b dst : Mem) (len maxFrames : ℕ) (seq : Option UInt16),
      (decodeData Abi.x8664 (some b) len (some dst) maxFrames seq).count ≠ 0 →
        ∀ f ∈ decodedFrames Abi.x8664
          (decodeData Abi.x8664 (some b) len (some dst) maxFrames seq), SafeToConsume f := by
  intro h
  have hcount : (decodeData Abi.x8664 (some longFramePacket) 108 (some fun _ => 0) 256
      none).count = 1 := by decide
  have hsafe := h longFramePacket (fun _ => 0) 108 256 none (by rw [hcount]; decide) _
    (List.mem_map_of_mem (List.mem_range.mpr (by rw [hcount]; decide : 0 < _)))
  exact absurd hsafe.dlc (by decide)

end Link

end BusTestPlatform

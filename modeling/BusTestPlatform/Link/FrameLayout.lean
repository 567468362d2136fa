import BusTestPlatform.Link.RoundTrip

/-!
# Firmware image against host build

The STM32 image stores an enum in one byte, the host in four. Frames are 88 bytes on the device and
96 on the host, so the length of a data packet tells the host the wrong number of frames, or none.
-/

namespace BusTestPlatform

namespace Link

open Bytes BusFrame

/-- A data packet on its way: the frames in device memory, the packet buffer of the device, and the
frame array of the host, each large enough. -/
structure Exchange (frames : List BusFrame) where
  src : Mem
  buf : Mem
  cap : ℕ
  dst : Mem
  maxFrames : ℕ
  seqOut : UInt16
  stored : ArrayAt Abi.stm32 src 0 frames
  fits : usbHeaderSize + frames.length * Abi.stm32.sizeofFrame ≤ cap
  room : frames.length ≤ maxFrames

/-- The device builds the packet, and the host accepts it as the same frames with the same sequence
number. -/
def Exchange.Delivers {frames : List BusFrame} (x : Exchange frames) (seq : UInt16) : Prop :=
  ∃ (total : ℕ) (packet out : Mem),
    Firmware.buildData Abi.stm32 (some x.buf) x.cap (some x.src) (UInt8.ofNat frames.length) seq =
      ((total : ℤ), some packet) ∧
    UsbFrameCodec.decodeData Abi.x8664 (some packet) total (some x.dst) x.maxFrames
      (some x.seqOut) = ⟨frames.length, some out, some seq⟩ ∧
    ArrayAt Abi.x8664 out 0 frames

/-- Every list of frames can be sent: device memory with padding bytes 0, and exact buffers. -/
def Exchange.ofFrames (frames : List BusFrame) : Exchange frames where
  src := store (fun _ => 0) 0 (frames.flatMap (image Abi.stm32))
  buf := fun _ => 0
  cap := usbHeaderSize + frames.length * Abi.stm32.sizeofFrame
  dst := fun _ => 0
  maxFrames := frames.length
  seqOut := 0
  stored := arrayAt_of_images (hasBytes_store _ _ _)
  fits := le_rfl
  room := le_rfl

/-- The frame count the host derives from the length of a device packet of `n` frames: none unless
88 · `n` happens to be a multiple of 96. -/
lemma hostCount_eq {n : ℕ} (h₁ : 1 ≤ n) (h₁₆ : n ≤ usbFramesPerPacket) :
    n * Abi.stm32.sizeofFrame % Abi.x8664.sizeofFrame = 0 ↔ n = 12 := by
  rw [usbFramesPerPacket] at h₁₆
  rw [Abi.sizeofFrame_stm32, Abi.sizeofFrame_x8664]
  omega

/-- What the host makes of a packet of the device: eleven frames out of twelve, and otherwise
nothing. -/
theorem decodeData_of_device_packet {src buf : Mem} {cap maxFrames : ℕ} {frameCount : UInt8}
    {seq : UInt16} {total : ℕ} {packet : Mem}
    (hbuild : Firmware.buildData Abi.stm32 (some buf) cap (some src) frameCount seq =
      ((total : ℤ), some packet))
    (hmax : frameCount.toNat ≤ maxFrames) (dst : Mem) (seqOut : UInt16) :
    (UsbFrameCodec.decodeData Abi.x8664 (some packet) total (some dst) maxFrames
      (some seqOut)).count = if frameCount.toNat = 12 then 11 else 0 := by
  obtain ⟨hpos, hle, htotal, hbytes⟩ :=
    buildData_received hbuild ⟨le_rfl, fun _ _ => rfl⟩
  have hlen : (UInt16.ofNat (frameCount.toNat * Abi.stm32.sizeofFrame)).toNat =
      frameCount.toNat * Abi.stm32.sizeofFrame := by
    rw [UInt16.toNat_ofNat', Nat.mod_eq_of_lt (Abi.stm32.frameBytes_lt hle)]
  rw [UsbFrameCodec.decodeData_of_header Abi.x8664 hbytes (by omega) dst (by omega), hlen]
  have hcount := hostCount_eq (by omega) hle
  by_cases h12 : frameCount.toNat = 12
  · rw [if_pos h12, if_pos]
    · rw [h12, Abi.sizeofFrame_stm32, Abi.sizeofFrame_x8664]
    · rw [h12] at hmax ⊢
      rw [Abi.sizeofFrame_stm32, Abi.sizeofFrame_x8664]
      omega
  · rw [if_neg h12, if_neg]
    rintro ⟨hmod, -⟩
    exact h12 (hcount.mp hmod)

/-- **The two builds never agree**: whatever 1 to 16 frames the device sends, the host does not get
them, since it never counts as many as were sent. -/
theorem device_frames_not_delivered (frames : List BusFrame) (h₁ : 1 ≤ frames.length)
    (h₁₆ : frames.length ≤ usbFramesPerPacket) (seq : UInt16) (x : Exchange frames) :
    ¬ x.Delivers seq := by
  rintro ⟨total, packet, out, hbuild, hdecode, -⟩
  have hsize : (UInt8.ofNat frames.length).toNat = frames.length := by
    rw [usbFramesPerPacket] at h₁₆
    exact UInt8.toNat_ofNat_of_lt' (by rw [UInt8.size]; omega)
  have hroom : (UInt8.ofNat frames.length).toNat ≤ x.maxFrames := hsize.symm ▸ x.room
  have hcount := decodeData_of_device_packet hbuild hroom x.dst x.seqOut
  rw [hdecode, hsize] at hcount
  change frames.length = _ at hcount
  by_cases h12 : frames.length = 12
  · rw [if_pos h12] at hcount
    omega
  · rw [if_neg h12] at hcount
    omega

theorem device_frames_not_delivered_zero :
    ¬ (Exchange.ofFrames [BusFrame.zero]).Delivers 7 :=
  device_frames_not_delivered [BusFrame.zero] (by decide) (by decide) 7 _

/-- One zero frame, with sequence number 7, is lost. -/
theorem zero_frame_lost :
    ¬ ∀ (frames : List BusFrame) (seq : UInt16) (x : Exchange frames), 1 ≤ frames.length →
      frames.length ≤ usbFramesPerPacket → x.Delivers seq := by
  intro h
  obtain ⟨total, packet, out, hbuild, hdecode, -⟩ :=
    h [BusFrame.zero] 7 (Exchange.ofFrames _) (by decide) (by decide)
  have hcount := decodeData_of_device_packet hbuild (show 1 ≤ 1 from le_rfl) (fun _ => 0) 0
  rw [show UsbFrameCodec.decodeData Abi.x8664 (some packet) total (some fun _ => 0) 1 (some 0) = _
    from hdecode] at hcount
  cases hcount

end Link

end BusTestPlatform

import BusTestPlatform.Shared.BusTypes

/-!
# `usb_protocol.h`

Constants of the link, the packet header, and the wire format that the comments of both codecs
describe: which bytes a packet consists of. Both codecs are compared with it.
-/

namespace BusTestPlatform

open Bytes

/-- `BT_USB_PROTOCOL_VERSION`. -/
def usbProtocolVersion : UInt8 := 1

/-- `BT_USB_MAGIC`. -/
def usbMagic : UInt16 := 0x5442

/-- `BT_USB_FRAMES_PER_PACKET`. -/
def usbFramesPerPacket : ℕ := 16

/-- `BT_USB_CMD_PAYLOAD_MAX`. -/
def usbCmdPayloadMax : ℕ := 256

/-- The length of `bt_usb_evt_payload_t::payload`, and the limit of `usb_protocol_build_evt`. -/
def usbEvtPayloadMax : ℕ := 64

/-- `BT_PKT_DATA`. -/
def pktData : UInt8 := 1

/-- `BT_PKT_CMD`. -/
def pktCmd : UInt8 := 2

/-- `BT_PKT_EVT`. -/
def pktEvt : UInt8 := 3

/-- `bt_usb_header_t`. -/
structure UsbHeader where
  magic : UInt16
  version : UInt8
  kind : UInt8
  length : UInt16
  seq : UInt16
  reserved : UInt32
deriving DecidableEq, Repr, Inhabited

/-- `BT_USB_HEADER_SIZE`: the header is packed. -/
def usbHeaderSize : ℕ := 2 + 1 + 1 + 2 + 2 + 4

/-- The frames of a packet never overflow its length field. -/
lemma Abi.frameBytes_lt (abi : Abi) {n : ℕ} (h : n ≤ usbFramesPerPacket) :
    n * abi.sizeofFrame < 2 ^ 16 :=
  calc n * abi.sizeofFrame ≤ 16 * 96 := Nat.mul_le_mul h abi.sizeofFrame_range.2
    _ < 2 ^ 16 := by norm_num

/-! ### The wire format -/

/-- A header: magic, version, kind, payload length, sequence number, reserved. -/
def headerBytes (kind : UInt8) (length seq : UInt16) : List UInt8 :=
  leBytes 2 usbMagic.toNat ++ ([usbProtocolVersion, kind] ++ (leBytes 2 length.toNat ++
    (leBytes 2 seq.toNat ++ leBytes 4 0)))

/-- The fixed part of a command or event: code, channel, parameter. -/
def fixedBytes (code channel : UInt16) (param : UInt32) : List UInt8 :=
  leBytes 2 code.toNat ++ (leBytes 2 channel.toNat ++ leBytes 4 param.toNat)

/-- The payload bytes that a builder copies: none from a null pointer. -/
def payloadBytes : Option Mem → ℕ → List UInt8
  | none, _ => []
  | some src, n => load src 0 n

@[simp] lemma length_headerBytes (kind : UInt8) (length seq : UInt16) :
    (headerBytes kind length seq).length = usbHeaderSize := by
  simp [headerBytes, usbHeaderSize]

@[simp] lemma length_fixedBytes (code channel : UInt16) (param : UInt32) :
    (fixedBytes code channel param).length = 8 := by
  simp [fixedBytes]

/-- What a buffer holds when a header starts at offset 0. -/
lemma hasBytes_header {m : Mem} {kind : UInt8} {length seq : UInt16} {rest : List UInt8} :
    HasBytes m 0 (headerBytes kind length seq ++ rest) ↔
      HasBytes m 0 (leBytes 2 usbMagic.toNat) ∧ m 2 = usbProtocolVersion ∧ m 3 = kind ∧
        HasBytes m 4 (leBytes 2 length.toNat) ∧ HasBytes m 6 (leBytes 2 seq.toNat) ∧
        HasBytes m 8 (leBytes 4 0) ∧ HasBytes m usbHeaderSize rest := by
  simp only [headerBytes, hasBytes_append, List.length_append, length_leBytes, List.length_cons,
    List.length_nil, hasBytes_cons, hasBytes_nil, and_true, Nat.zero_add, usbHeaderSize, and_assoc]

lemma hasBytes_fixed {m : Mem} {off : ℕ} {code channel : UInt16} {param : UInt32}
    {rest : List UInt8} :
    HasBytes m off (fixedBytes code channel param ++ rest) ↔
      HasBytes m off (leBytes 2 code.toNat) ∧ HasBytes m (off + 2) (leBytes 2 channel.toNat) ∧
        HasBytes m (off + 4) (leBytes 4 param.toNat) ∧ HasBytes m (off + 8) rest := by
  simp only [fixedBytes, hasBytes_append, List.length_append, length_leBytes, and_assoc]

/-! ### Words as the codecs read and write them -/

/-- `(uint8_t)(v & 0xFF)` of a 16-bit word. -/
def loByte (v : UInt16) : UInt8 := (v &&& 0xFF).toUInt8

/-- `(uint8_t)((v >> 8) & 0xFF)` of a 16-bit word. -/
def hiByte (v : UInt16) : UInt8 := ((v >>> 8) &&& 0xFF).toUInt8

/-- `(uint8_t)((v >> s) & 0xFF)` of a 32-bit word. -/
def byteAt (v s : UInt32) : UInt8 := ((v >>> s) &&& 0xFF).toUInt8

/-- `b0 | (uint16_t)b1 << 8`. -/
def word16 (b₀ b₁ : UInt8) : UInt16 := b₀.toUInt16 ||| (b₁.toUInt16 <<< 8)

/-- `b0 | b1 << 8 | b2 << 16 | b3 << 24`. -/
def word32 (b₀ b₁ b₂ b₃ : UInt8) : UInt32 :=
  b₀.toUInt32 ||| (b₁.toUInt32 <<< 8) ||| (b₂.toUInt32 <<< 16) ||| (b₃.toUInt32 <<< 24)

lemma leBytes_u16 (v : UInt16) : leBytes 2 v.toNat = [loByte v, hiByte v] := by
  have hlo : UInt8.ofNat v.toNat = loByte v := by
    apply UInt8.toNat_inj.mp
    rw [loByte, UInt16.toNat_toUInt8, UInt16.toNat_and]
    exact (Nat.mod_mod_of_dvd v.toNat (dvd_refl 256)).symm.trans
      (congrArg (· % 256) (Nat.and_two_pow_sub_one_eq_mod v.toNat 8).symm)
  have hhi : UInt8.ofNat (v.toNat / 256) = hiByte v := by
    apply UInt8.toNat_inj.mp
    simp [hiByte, Nat.and_two_pow_sub_one_eq_mod _ 8, Nat.shiftRight_eq_div_pow]
  rw [leBytes, leBytes, leBytes, hlo, hhi]

lemma leBytes_u32 (v : UInt32) :
    leBytes 4 v.toNat = [byteAt v 0, byteAt v 8, byteAt v 16, byteAt v 24] := by
  have hbyte : ∀ s : UInt32, s.toNat < 32 →
      UInt8.ofNat (v.toNat / 2 ^ s.toNat) = byteAt v s := by
    intro s hs
    apply UInt8.toNat_inj.mp
    simp [byteAt, Nat.and_two_pow_sub_one_eq_mod _ 8, Nat.shiftRight_eq_div_pow,
      Nat.mod_eq_of_lt hs]
  rw [← hbyte 0 (by decide), ← hbyte 8 (by decide), ← hbyte 16 (by decide), ← hbyte 24 (by decide)]
  simp [leBytes, Nat.div_div_eq_div_mul]

/-- Or-ing in a byte above a smaller word is adding it there. -/
lemma or_byte_shiftLeft {a : ℕ} {k : ℕ} (b : UInt8) (ha : a < 2 ^ k) :
    a ||| b.toNat <<< k = a + 2 ^ k * b.toNat := by
  rw [Nat.or_comm, ← Nat.shiftLeft_add_eq_or_of_lt ha, Nat.shiftLeft_eq]
  ring

lemma word16_toNat (b₀ b₁ : UInt8) : (word16 b₀ b₁).toNat = ofLe [b₀, b₁] := by
  have h₀ := UInt8.toNat_lt b₀
  have h₁ := UInt8.toNat_lt b₁
  have hshift : (b₁.toUInt16 <<< 8).toNat = b₁.toNat <<< 8 := by
    simp [Nat.shiftLeft_eq]
    omega
  rw [word16, UInt16.toNat_or, UInt8.toNat_toUInt16, hshift, or_byte_shiftLeft b₁ h₀]
  simp [ofLe]

lemma word32_toNat (b₀ b₁ b₂ b₃ : UInt8) :
    (word32 b₀ b₁ b₂ b₃).toNat = ofLe [b₀, b₁, b₂, b₃] := by
  have h₀ := UInt8.toNat_lt b₀
  have h₁ := UInt8.toNat_lt b₁
  have h₂ := UInt8.toNat_lt b₂
  have h₃ := UInt8.toNat_lt b₃
  have hshift₁ : (b₁.toUInt32 <<< 8).toNat = b₁.toNat <<< 8 := by
    simp [Nat.shiftLeft_eq]
    omega
  have hshift₂ : (b₂.toUInt32 <<< 16).toNat = b₂.toNat <<< 16 := by
    simp [Nat.shiftLeft_eq]
    omega
  have hshift₃ : (b₃.toUInt32 <<< 24).toNat = b₃.toNat <<< 24 := by
    simp [Nat.shiftLeft_eq]
    omega
  rw [word32, UInt32.toNat_or, UInt32.toNat_or, UInt32.toNat_or, UInt8.toNat_toUInt32, hshift₁,
    hshift₂, hshift₃, or_byte_shiftLeft b₁ h₀, or_byte_shiftLeft b₂ (by omega),
    or_byte_shiftLeft b₃ (by omega)]
  simp only [ofLe]
  ring

/-- A 16-bit word read from where its bytes are. -/
lemma word16_of_hasBytes {m : Mem} {off : ℕ} {v : UInt16}
    (h : HasBytes m off (leBytes 2 v.toNat)) : word16 (m off) (m (off + 1)) = v := by
  apply UInt16.toNat_inj.mp
  rw [word16_toNat]
  exact ofLe_load h v.toNat_lt

/-- And the bytes are where the word is read. -/
lemma hasBytes_of_word16 {m : Mem} {off : ℕ} {v : UInt16}
    (h : word16 (m off) (m (off + 1)) = v) : HasBytes m off (leBytes 2 v.toNat) := by
  have hbytes : leBytes 2 v.toNat = [m off, m (off + 1)] := by
    rw [← h, word16_toNat]
    exact leBytes_ofLe [m off, m (off + 1)]
  rw [hbytes]
  simp

/-- A 32-bit word read from where its bytes are. -/
lemma word32_of_hasBytes {m : Mem} {off : ℕ} {v : UInt32}
    (h : HasBytes m off (leBytes 4 v.toNat)) :
    word32 (m off) (m (off + 1)) (m (off + 2)) (m (off + 3)) = v := by
  apply UInt32.toNat_inj.mp
  rw [word32_toNat]
  exact ofLe_load h v.toNat_lt

end BusTestPlatform

import BusTestPlatform.Shared.UsbProtocol

/-!
# `usb_frame_codec.cpp`

The host side of the link. An encoder returns the bytes written, 0 on invalid input, with the buffer
as it leaves it; a decoder returns its output arguments, `none` where the caller passed `nullptr`.
-/

namespace BusTestPlatform

namespace UsbFrameCodec

open Bytes

/-- `header_fill`, which checks the buffer itself. -/
def headerFill (buf : Option Mem) (cap : ℕ) (kind : UInt8) (length seq : UInt16) :
    Bool × Option Mem :=
  match buf with
  | none => (false, buf)
  | some b =>
    if cap < usbHeaderSize then (false, buf)
    else
      let b := set b 0 (loByte usbMagic)
      let b := set b 1 (hiByte usbMagic)
      let b := set b 2 usbProtocolVersion
      let b := set b 3 kind
      let b := set b 4 (loByte length)
      let b := set b 5 (hiByte length)
      let b := set b 6 (loByte seq)
      let b := set b 7 (hiByte seq)
      let b := set b 8 0
      let b := set b 9 0
      let b := set b 10 0
      let b := set b 11 0
      (true, some b)

/-- `encode_8_plus_payload`. The one limit on the payload is that of commands. -/
def encode8PlusPayload (kind : UInt8) (buf : Option Mem) (cap : ℕ) (typeField channel : UInt16)
    (param : UInt32) (payload : Option Mem) (payloadLen : ℕ) (seq : UInt16) : ℕ × Option Mem :=
  if buf = none ∨ usbCmdPayloadMax < payloadLen then (0, buf)
  else
    let plen := payloadLen
    let total := usbHeaderSize + 8 + plen
    if cap < total then (0, buf)
    else
      match headerFill buf cap kind (UInt16.ofNat (8 + plen)) seq with
      | (true, some b) =>
        let p := usbHeaderSize
        let b := set b (p + 0) (loByte typeField)
        let b := set b (p + 1) (hiByte typeField)
        let b := set b (p + 2) (loByte channel)
        let b := set b (p + 3) (hiByte channel)
        let b := set b (p + 4) (byteAt param 0)
        let b := set b (p + 5) (byteAt param 8)
        let b := set b (p + 6) (byteAt param 16)
        let b := set b (p + 7) (byteAt param 24)
        match payload with
        | some src => if 0 < plen then (total, some (memcpy b (p + 8) src 0 plen))
          else (total, some b)
        | none => (total, some b)
      | (_, buf) => (0, buf)

def encodeCmd := encode8PlusPayload pktCmd

def encodeEvt := encode8PlusPayload pktEvt

def encodeData (abi : Abi) (buf : Option Mem) (cap : ℕ) (frames : Option Mem) (frameCount : ℕ)
    (seq : UInt16) : ℕ × Option Mem :=
  match buf, frames with
  | some _, some src =>
    if frameCount = 0 ∨ usbFramesPerPacket < frameCount then (0, buf)
    else
      let frameBytes := frameCount * abi.sizeofFrame
      let total := usbHeaderSize + frameBytes
      if cap < total then (0, buf)
      else
        match headerFill buf cap pktData (UInt16.ofNat frameBytes) seq with
        | (true, some b) => (total, some (memcpy b usbHeaderSize src 0 frameBytes))
        | (_, buf) => (0, buf)
  | _, _ => (0, buf)

/-- Result of `parse_header` and its three output arguments. -/
structure HeaderOut where
  ok : Bool
  kind : Option UInt16
  length : Option UInt16
  seq : Option UInt16
deriving DecidableEq, Repr

def parseHeader (buf : Option Mem) (len : ℕ) (kind length seq : Option UInt16) : HeaderOut :=
  match buf with
  | none => ⟨false, kind, length, seq⟩
  | some b =>
    if len < usbHeaderSize then ⟨false, kind, length, seq⟩
    else
      let magic := word16 (b 0) (b 1)
      let version := b 2
      let k := (b 3).toUInt16
      let l := word16 (b 4) (b 5)
      let s := word16 (b 6) (b 7)
      if magic ≠ usbMagic ∨ version ≠ usbProtocolVersion then ⟨false, kind, length, seq⟩
      else if len < l.toNat + usbHeaderSize then ⟨false, kind, length, seq⟩
      else ⟨true, kind.map fun _ => k, length.map fun _ => l, seq.map fun _ => s⟩

/-- Result of `decode_data`: the frame count, the output array and the sequence number. -/
structure DecodedData where
  count : ℕ
  out : Option Mem
  seq : Option UInt16

/-- `decode_data`. -/
def decodeData (abi : Abi) (buf : Option Mem) (len : ℕ) (out : Option Mem) (maxFrames : ℕ)
    (seq : Option UInt16) : DecodedData :=
  match buf, out with
  | some b, some dst =>
    if maxFrames = 0 then ⟨0, out, seq⟩
    else
      match parseHeader buf len (some 0) (some 0) (some 0) with
      | ⟨true, some kind, some length, some pktSeq⟩ =>
        if kind ≠ pktData.toUInt16 then ⟨0, out, seq⟩
        else if length.toNat % abi.sizeofFrame ≠ 0 then ⟨0, out, seq⟩
        else
          let count := length.toNat / abi.sizeofFrame
          if count = 0 ∨ maxFrames < count then ⟨0, out, seq⟩
          else
            ⟨count, some (memcpy dst 0 b usbHeaderSize (count * abi.sizeofFrame)),
              seq.map fun _ => pktSeq⟩
      | _ => ⟨0, out, seq⟩
  | _, _ => ⟨0, out, seq⟩

/-- Result of `decode_cmd` and `decode_evt`. -/
structure DecodedFixed where
  ok : Bool
  code : Option UInt16
  channel : Option UInt16
  param : Option UInt32
deriving DecidableEq, Repr

/-- The common body of `decode_cmd` and `decode_evt`, which differ in the packet kind only. -/
def decodeFixed (kind : UInt8) (buf : Option Mem) (len : ℕ) (code channel : Option UInt16)
    (param : Option UInt32) : DecodedFixed :=
  match buf with
  | none => ⟨false, code, channel, param⟩
  | some b =>
    if len < usbHeaderSize + 8 then ⟨false, code, channel, param⟩
    else
      match parseHeader buf len (some 0) (some 0) none with
      | ⟨true, some k, some length, _⟩ =>
        if k ≠ kind.toUInt16 then ⟨false, code, channel, param⟩
        else if length < 8 ∨ len < length.toNat + usbHeaderSize then
          ⟨false, code, channel, param⟩
        else
          let p := usbHeaderSize
          ⟨true,
            code.map fun _ => word16 (b (p + 0)) (b (p + 1)),
            channel.map fun _ => word16 (b (p + 2)) (b (p + 3)),
            param.map fun _ => word32 (b (p + 4)) (b (p + 5)) (b (p + 6)) (b (p + 7))⟩
      | _ => ⟨false, code, channel, param⟩

def decodeCmd := decodeFixed pktCmd

def decodeEvt := decodeFixed pktEvt

/-! ### What the encoders accept and write -/

lemma headerFill_eq_store {cap : ℕ} (hcap : usbHeaderSize ≤ cap) (b : Mem) (kind : UInt8)
    (length seq : UInt16) :
    headerFill (some b) cap kind length seq =
      (true, some (store b 0 (headerBytes kind length seq))) := by
  simp only [headerFill, if_neg (not_lt.mpr hcap), headerBytes, store_append, leBytes_u16]
  rfl

lemma encodeData_eq (abi : Abi) (b : Mem) (cap : ℕ) (src : Mem) (frameCount : ℕ) (seq : UInt16) :
    encodeData abi (some b) cap (some src) frameCount seq =
      if frameCount ≠ 0 ∧ frameCount ≤ usbFramesPerPacket ∧
          usbHeaderSize + frameCount * abi.sizeofFrame ≤ cap then
        (usbHeaderSize + frameCount * abi.sizeofFrame,
          some (store b 0 (headerBytes pktData (UInt16.ofNat (frameCount * abi.sizeofFrame))
            seq ++ load src 0 (frameCount * abi.sizeofFrame))))
      else (0, some b) := by
  simp only [encodeData]
  by_cases hcount : frameCount = 0 ∨ usbFramesPerPacket < frameCount
  · rw [if_pos hcount, if_neg (by rcases hcount with h | h <;> simp [h])]
  · rw [not_or, not_lt] at hcount
    rw [if_neg (by rw [not_or, not_lt]; exact hcount)]
    by_cases hcap : cap < usbHeaderSize + frameCount * abi.sizeofFrame
    · rw [if_pos hcap, if_neg (by rintro ⟨-, -, h⟩; omega)]
    · rw [if_neg hcap, if_pos ⟨hcount.1, hcount.2, not_lt.mp hcap⟩,
        headerFill_eq_store (by omega)]
      simp only [memcpy, store_append, length_headerBytes, Nat.zero_add]

lemma setFixed_eq_store (b : Mem) (p : ℕ) (code channel : UInt16) (param : UInt32) :
    set (set (set (set (set (set (set (set b (p + 0) (loByte code)) (p + 1) (hiByte code))
      (p + 2) (loByte channel)) (p + 3) (hiByte channel)) (p + 4) (byteAt param 0))
      (p + 5) (byteAt param 8)) (p + 6) (byteAt param 16)) (p + 7) (byteAt param 24) =
      store b p (fixedBytes code channel param) := by
  simp only [fixedBytes, leBytes_u16, leBytes_u32]
  rfl

lemma encode8PlusPayload_eq (kind : UInt8) (b : Mem) (cap : ℕ) (code channel : UInt16)
    (param : UInt32) (payload : Option Mem) (payloadLen : ℕ) (seq : UInt16) :
    encode8PlusPayload kind (some b) cap code channel param payload payloadLen seq =
      if payloadLen ≤ usbCmdPayloadMax ∧ usbHeaderSize + 8 + payloadLen ≤ cap then
        (usbHeaderSize + 8 + payloadLen,
          some (store b 0 (headerBytes kind (UInt16.ofNat (8 + payloadLen)) seq ++
            (fixedBytes code channel param ++ payloadBytes payload payloadLen))))
      else (0, some b) := by
  simp only [encode8PlusPayload, reduceCtorEq, false_or]
  by_cases hplen : usbCmdPayloadMax < payloadLen
  · rw [if_pos hplen, if_neg (by rintro ⟨h, -⟩; omega)]
  · rw [if_neg hplen]
    by_cases hcap : cap < usbHeaderSize + 8 + payloadLen
    · rw [if_pos hcap, if_neg (by rintro ⟨-, h⟩; omega)]
    · rw [if_neg hcap, if_pos ⟨not_lt.mp hplen, not_lt.mp hcap⟩, headerFill_eq_store (by omega)]
      simp only [setFixed_eq_store, memcpy, store_append, length_headerBytes, length_fixedBytes,
        Nat.zero_add]
      cases payload with
      | none => rfl
      | some src =>
        by_cases hzero : 0 < payloadLen
        · simp only [if_pos hzero, payloadBytes]
        · obtain rfl : payloadLen = 0 := by omega
          rfl

/-! ### What the decoders find in a packet -/

lemma parseHeader_of_header {m : Mem} {kind : UInt8} {length seq : UInt16} {rest : List UInt8}
    {len : ℕ} (h : HasBytes m 0 (headerBytes kind length seq ++ rest))
    (hlen : length.toNat + usbHeaderSize ≤ len) (kindOut lengthOut seqOut : Option UInt16) :
    parseHeader (some m) len kindOut lengthOut seqOut =
      ⟨true, kindOut.map fun _ => kind.toUInt16, lengthOut.map fun _ => length,
        seqOut.map fun _ => seq⟩ := by
  obtain ⟨hmagic, hversion, hkind, hlength, hseq, -, -⟩ := hasBytes_header.mp h
  have hm := word16_of_hasBytes hmagic
  have hl := word16_of_hasBytes hlength
  have hs := word16_of_hasBytes hseq
  simp only [parseHeader]
  rw [if_neg (by omega)]
  rw [hm, hversion, hl, hs, hkind, if_neg (by simp), if_neg (by omega)]

/-- A data packet is decoded as however many frames of this side's size its length amounts to. -/
lemma decodeData_of_header (abi : Abi) {m : Mem} {length seq : UInt16} {rest : List UInt8}
    {len : ℕ} (h : HasBytes m 0 (headerBytes pktData length seq ++ rest))
    (hlen : length.toNat + usbHeaderSize ≤ len) (dst : Mem) {maxFrames : ℕ}
    (hmax : maxFrames ≠ 0) (seqOut : Option UInt16) :
    decodeData abi (some m) len (some dst) maxFrames seqOut =
      if length.toNat % abi.sizeofFrame = 0 ∧ length.toNat / abi.sizeofFrame ≠ 0 ∧
          length.toNat / abi.sizeofFrame ≤ maxFrames then
        ⟨length.toNat / abi.sizeofFrame,
          some (memcpy dst 0 m usbHeaderSize
            (length.toNat / abi.sizeofFrame * abi.sizeofFrame)),
          seqOut.map fun _ => seq⟩
      else ⟨0, some dst, seqOut⟩ := by
  simp only [decodeData, if_neg hmax, parseHeader_of_header h hlen,
    Option.map_some, ne_eq, not_true_eq_false,
    if_false]
  by_cases hmod : length.toNat % abi.sizeofFrame = 0
  · rw [if_neg (by simpa using hmod)]
    by_cases hcount : length.toNat / abi.sizeofFrame = 0 ∨
        maxFrames < length.toNat / abi.sizeofFrame
    · rw [if_pos hcount, if_neg (by rintro ⟨-, h₀, h₁⟩; omega)]
    · rw [if_neg hcount, if_pos ⟨hmod, by omega, by omega⟩]
  · rw [if_pos (by simpa using hmod), if_neg (by rintro ⟨h₀, -⟩; exact hmod h₀)]

/-- A packet with its fixed part is decoded by the decoder of its kind. -/
lemma decodeFixed_of_header {m : Mem} {kind : UInt8} {length seq code channel : UInt16}
    {param : UInt32} {rest : List UInt8} {len : ℕ}
    (h : HasBytes m 0 (headerBytes kind length seq ++ (fixedBytes code channel param ++ rest)))
    (hlen : length.toNat + usbHeaderSize ≤ len) (hfixed : 8 ≤ length.toNat)
    (codeOut channelOut : Option UInt16) (paramOut : Option UInt32) :
    decodeFixed kind (some m) len codeOut channelOut paramOut =
      ⟨true, codeOut.map fun _ => code, channelOut.map fun _ => channel,
        paramOut.map fun _ => param⟩ := by
  obtain ⟨-, -, -, -, -, -, hbody⟩ := hasBytes_header.mp h
  obtain ⟨hcode, hchannel, hparam, -⟩ := hasBytes_fixed.mp hbody
  have hc := word16_of_hasBytes hcode
  have hch := word16_of_hasBytes hchannel
  have hp := word32_of_hasBytes hparam
  have hlt : ¬ length < 8 := by
    rw [UInt16.lt_iff_toNat_lt]
    exact not_lt.mpr hfixed
  simp only [decodeFixed, parseHeader_of_header h hlen,
    Option.map_some, ne_eq, not_true_eq_false, if_false]
  rw [if_neg (by omega), if_neg (by rw [not_or]; exact ⟨hlt, by omega⟩)]
  simp only [Nat.add_assoc, Nat.reduceAdd, Nat.add_zero] at hc hch hp ⊢
  rw [hc, hch, hp]

end UsbFrameCodec

end BusTestPlatform

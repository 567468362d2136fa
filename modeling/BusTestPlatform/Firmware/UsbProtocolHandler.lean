import BusTestPlatform.Shared.UsbProtocol

/-!
# `usb_protocol_handler.c`

The device side of the link. A pointer to a buffer is an `Option Mem`, `none` for `NULL`; the
builders return their result with the buffer as they leave it.
-/

namespace BusTestPlatform

namespace Firmware

open Bytes

def putU16 (m : Mem) (p : ℕ) (v : UInt16) : Mem :=
  set (set m p (loByte v)) (p + 1) (hiByte v)

def putU32 (m : Mem) (p : ℕ) (v : UInt32) : Mem :=
  set (set (set (set m p (byteAt v 0)) (p + 1) (byteAt v 8)) (p + 2) (byteAt v 16))
    (p + 3) (byteAt v 24)

def getU16 (m : Mem) (p : ℕ) : UInt16 := word16 (m p) (m (p + 1))

def getU32 (m : Mem) (p : ℕ) : UInt32 := word32 (m p) (m (p + 1)) (m (p + 2)) (m (p + 3))

def headerFill (buf : Mem) (kind : UInt8) (length seq : UInt16) : Mem :=
  let buf := putU16 buf 0 usbMagic
  let buf := set buf 2 usbProtocolVersion
  let buf := set buf 3 kind
  let buf := putU16 buf 4 length
  let buf := putU16 buf 6 seq
  putU32 buf 8 0

/-- `usb_protocol_build_data`. The frames are read as bytes, whatever the layout. -/
def buildData (abi : Abi) (buf : Option Mem) (cap : ℕ) (frames : Option Mem) (frameCount : UInt8)
    (seq : UInt16) : ℤ × Option Mem :=
  let frameBytes := frameCount.toNat * abi.sizeofFrame
  match buf, frames with
  | some b, some src =>
    if frameCount = 0 ∨ usbFramesPerPacket < frameCount.toNat then (-1, buf)
    else
      let total := usbHeaderSize + frameBytes
      if cap < total then (-1, buf)
      else
        let b := headerFill b pktData (UInt16.ofNat frameBytes) seq
        (total, some (copyLoop b usbHeaderSize src frameBytes))
  | _, _ => (-1, buf)

/-- The common body of `usb_protocol_build_cmd` and `usb_protocol_build_evt`: they differ in the
packet kind and in the limit on the payload. The code is an enum argument, cast to 16 bits. -/
def buildFixed (kind : UInt8) (maxPlen : ℕ) (buf : Option Mem) (cap : ℕ) (code : UInt32)
    (channel : UInt16) (param : UInt32) (payload : Option Mem) (plen seq : UInt16) :
    ℤ × Option Mem :=
  match buf with
  | none => (-1, buf)
  | some b =>
    if maxPlen < plen.toNat then (-1, buf)
    else
      let total := usbHeaderSize + 8 + plen.toNat
      if cap < total then (-1, buf)
      else
        let b := headerFill b kind (8 + plen) seq
        let p := usbHeaderSize
        let b := putU16 b (p + 0) code.toUInt16
        let b := putU16 b (p + 2) channel
        let b := putU32 b (p + 4) param
        match payload with
        | some src => if 0 < plen then (total, some (copyLoop b (p + 8) src plen.toNat))
          else (total, some b)
        | none => (total, some b)

/-- `usb_protocol_build_cmd`. -/
def buildCmd := buildFixed pktCmd usbCmdPayloadMax

/-- `usb_protocol_build_evt`. -/
def buildEvt := buildFixed pktEvt usbEvtPayloadMax

/-- What `usb_protocol_parse` leaves behind: the result and the three output arguments, `none`
where the caller passed `NULL`. The payload pointer is an offset into the buffer. -/
structure ParseOut where
  ret : ℤ
  hdr : Option UsbHeader
  payload : Option (Option ℕ)
  payloadLen : Option ℕ
deriving DecidableEq

def readHeader (b : Mem) : UsbHeader where
  magic := getU16 b 0
  version := b 2
  kind := b 3
  length := getU16 b 4
  seq := getU16 b 6
  reserved := getU32 b 8

/-- `usb_protocol_parse`. -/
def parse (buf : Option Mem) (len : ℕ) (hdr : Option UsbHeader) (payload : Option (Option ℕ))
    (payloadLen : Option ℕ) : ParseOut :=
  match buf, hdr with
  | some b, some _ =>
    if len < usbHeaderSize then ⟨-1, hdr, payload, payloadLen⟩
    else
      let h := readHeader b
      if h.magic ≠ usbMagic ∨ h.version ≠ usbProtocolVersion then
        ⟨-1, some h, payload, payloadLen⟩
      else if len < h.length.toNat + usbHeaderSize then ⟨-1, some h, payload, payloadLen⟩
      else
        ⟨0, some h, payload.map fun _ => some usbHeaderSize,
          payloadLen.map fun _ => h.length.toNat⟩
  | _, _ => ⟨-1, hdr, payload, payloadLen⟩

/-- `usb_protocol_handle_cmd`. The locals it passes to `usb_protocol_parse` are uninitialised, and
not looked at unless the call succeeds. -/
def handleCmd (pkt : Option Mem) (len : ℕ) : ℤ :=
  let out := parse pkt len (some default) (some none) (some 0)
  match out.hdr, out.payloadLen with
  | some hdr, some plen =>
    if out.ret ≠ 0 ∨ hdr.kind ≠ pktCmd then -1
    else if plen < 8 then -1
    else 0
  | _, _ => -1

/-! ### Words and headers -/

lemma putU16_eq_store (m : Mem) (p : ℕ) (v : UInt16) :
    putU16 m p v = store m p (leBytes 2 v.toNat) := by
  rw [leBytes_u16]
  rfl

lemma putU32_eq_store (m : Mem) (p : ℕ) (v : UInt32) :
    putU32 m p v = store m p (leBytes 4 v.toNat) := by
  rw [leBytes_u32]
  rfl

lemma headerFill_eq_store (buf : Mem) (kind : UInt8) (length seq : UInt16) :
    headerFill buf kind length seq = store buf 0 (headerBytes kind length seq) := by
  simp only [headerFill, headerBytes, store_append, putU16_eq_store, putU32_eq_store,
    length_leBytes]
  rfl

lemma putFixed_eq_store (b : Mem) (p : ℕ) (code channel : UInt16) (param : UInt32) :
    putU32 (putU16 (putU16 b (p + 0) code) (p + 2) channel) (p + 4) param =
      store b p (fixedBytes code channel param) := by
  simp only [fixedBytes, store_append, putU16_eq_store, putU32_eq_store, length_leBytes,
    Nat.add_zero]

/-! ### What the builders accept and write -/

lemma buildData_eq (abi : Abi) (b : Mem) (cap : ℕ) (src : Mem) (frameCount : UInt8) (seq : UInt16) :
    buildData abi (some b) cap (some src) frameCount seq =
      if frameCount ≠ 0 ∧ frameCount.toNat ≤ usbFramesPerPacket ∧
          usbHeaderSize + frameCount.toNat * abi.sizeofFrame ≤ cap then
        (((usbHeaderSize + frameCount.toNat * abi.sizeofFrame : ℕ) : ℤ),
          some (store b 0 (headerBytes pktData (UInt16.ofNat (frameCount.toNat * abi.sizeofFrame))
            seq ++ load src 0 (frameCount.toNat * abi.sizeofFrame))))
      else (-1, some b) := by
  simp only [buildData, copyLoop_eq_store, headerFill_eq_store, store_append, length_headerBytes,
    Nat.zero_add]
  by_cases hcount : frameCount = 0 ∨ usbFramesPerPacket < frameCount.toNat
  · rw [if_pos hcount, if_neg (by rcases hcount with h | h <;> simp [h])]
  · rw [not_or, not_lt] at hcount
    rw [if_neg (by rw [not_or, not_lt]; exact hcount)]
    by_cases hcap : cap < usbHeaderSize + frameCount.toNat * abi.sizeofFrame
    · rw [if_pos hcap, if_neg (by rintro ⟨-, -, h⟩; omega)]
    · rw [if_neg hcap, if_pos ⟨hcount.1, hcount.2, not_lt.mp hcap⟩]

lemma buildFixed_eq (kind : UInt8) (maxPlen : ℕ) (b : Mem) (cap : ℕ) (code : UInt32)
    (channel : UInt16) (param : UInt32) (payload : Option Mem) (plen seq : UInt16) :
    buildFixed kind maxPlen (some b) cap code channel param payload plen seq =
      if plen.toNat ≤ maxPlen ∧ usbHeaderSize + 8 + plen.toNat ≤ cap then
        (((usbHeaderSize + 8 + plen.toNat : ℕ) : ℤ),
          some (store b 0 (headerBytes kind (8 + plen) seq ++
            (fixedBytes code.toUInt16 channel param ++ payloadBytes payload plen.toNat))))
      else (-1, some b) := by
  simp only [buildFixed, copyLoop_eq_store, headerFill_eq_store, putFixed_eq_store, store_append,
    length_headerBytes, length_fixedBytes, Nat.zero_add]
  by_cases hplen : maxPlen < plen.toNat
  · rw [if_pos hplen, if_neg (by rintro ⟨h, -⟩; omega)]
  · rw [if_neg hplen]
    by_cases hcap : cap < usbHeaderSize + 8 + plen.toNat
    · rw [if_pos hcap, if_neg (by rintro ⟨-, h⟩; omega)]
    · rw [if_neg hcap, if_pos ⟨not_lt.mp hplen, not_lt.mp hcap⟩]
      cases payload with
      | none => rfl
      | some src =>
        by_cases hzero : 0 < plen
        · simp only [if_pos hzero, payloadBytes]
        · obtain rfl : plen = 0 := by simpa [UInt16.pos_iff_ne_zero] using hzero
          simp [payloadBytes, load, store]

/-! ### What the parser finds in a packet -/

/-- A buffer that starts with a header whose length field fits is accepted. -/
lemma parse_of_header {m : Mem} {kind : UInt8} {length seq : UInt16} {rest : List UInt8} {len : ℕ}
    (h : HasBytes m 0 (headerBytes kind length seq ++ rest))
    (hlen : length.toNat + usbHeaderSize ≤ len) (hdr : UsbHeader) (payload : Option (Option ℕ))
    (payloadLen : Option ℕ) :
    parse (some m) len (some hdr) payload payloadLen =
      ⟨0, some ⟨usbMagic, usbProtocolVersion, kind, length, seq, 0⟩,
        payload.map fun _ => some usbHeaderSize, payloadLen.map fun _ => length.toNat⟩ := by
  obtain ⟨hmagic, hversion, hkind, hlength, hseq, hreserved, -⟩ := hasBytes_header.mp h
  have hread : readHeader m = ⟨usbMagic, usbProtocolVersion, kind, length, seq, 0⟩ := by
    rw [readHeader, getU16, getU16, getU16, getU32, word16_of_hasBytes hmagic, hversion, hkind,
      word16_of_hasBytes hlength, word16_of_hasBytes hseq, word32_of_hasBytes (v := 0) hreserved]
  simp only [parse, hread]
  rw [if_neg (by omega), if_neg (by simp), if_neg (by omega)]

/-- A command packet with its fixed part is handled. -/
lemma handleCmd_of_header {m : Mem} {length seq : UInt16} {rest : List UInt8} {len : ℕ}
    (h : HasBytes m 0 (headerBytes pktCmd length seq ++ rest))
    (hlen : length.toNat + usbHeaderSize ≤ len) (hfixed : 8 ≤ length.toNat) :
    handleCmd (some m) len = 0 := by
  simp only [handleCmd, parse_of_header h hlen, Option.map_some]
  rw [if_neg (by simp), if_neg (by omega)]

end Firmware

end BusTestPlatform

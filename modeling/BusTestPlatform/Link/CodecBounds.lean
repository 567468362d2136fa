import BusTestPlatform.Lib.Access
import BusTestPlatform.Link.Acceptance

/-!
# What the host codec leaves alone

An encoder or decoder that fails changes nothing, and one that succeeds changes its packet or its
frames only. The codec is written once more with accesses that fail outside of the buffers, and
with sizes that wrap around, and does the same.
-/

namespace BusTestPlatform

open Bytes

namespace UsbFrameCodec

/-- An encoder either returns 0 and leaves the buffer as it is, or returns the size of the packet
that it leaves in the buffer, which fits, and does not touch the bytes after it. -/
structure EncodesWithin (buf : Option Mem) (cap : ℕ) (r : ℕ × Option Mem) : Prop where
  failed : r.1 = 0 → r.2 = buf
  written : 0 < r.1 → r.1 ≤ cap ∧ ∃ b b', buf = some b ∧ r.2 = some b' ∧
    r.1 = usbHeaderSize + (packetLength b').toNat ∧ ∀ i, r.1 ≤ i → b' i = b i

/-- `decode_data` either returns 0 and leaves its output as it is, or fills that many entries. -/
structure DecodesWithin (abi : Abi) (out : Option Mem) (maxFrames : ℕ) (seq : Option UInt16)
    (r : DecodedData) : Prop where
  failed : r.count = 0 → r.out = out ∧ r.seq = seq
  count : r.count ≤ maxFrames
  entries : ∀ dst, out = some dst →
    ∃ dst', r.out = some dst' ∧ ∀ i, r.count * abi.sizeofFrame ≤ i → dst' i = dst i

/-! ### Encoders -/

lemma packetLength_store (b : Mem) (kind : UInt8) (length seq : UInt16) (rest : List UInt8) :
    packetLength (store b 0 (headerBytes kind length seq ++ rest)) = length := by
  obtain ⟨-, -, -, hlength, -⟩ := hasBytes_header.mp (hasBytes_store b 0 _)
  exact word16_of_hasBytes hlength

/-- A packet with a payload that is no longer than the length field says. -/
lemma encodesWithin_store {b : Mem} {cap total : ℕ} {kind : UInt8} {length seq : UInt16}
    {rest : List UInt8} (hcap : total ≤ cap) (htotal : total = usbHeaderSize + length.toNat)
    (hrest : rest.length ≤ length.toNat) :
    EncodesWithin (some b) cap (total, some (store b 0 (headerBytes kind length seq ++ rest))) where
  failed h := by
    rw [usbHeaderSize] at htotal
    omega
  written _ := by
    refine ⟨hcap, b, _, rfl, rfl, ?_, ?_⟩
    · rw [packetLength_store]
      exact htotal
    · intro i hi
      apply store_of_le
      rw [List.length_append, length_headerBytes]
      omega

lemma encodesWithin_zero (buf : Option Mem) (cap : ℕ) : EncodesWithin buf cap (0, buf) where
  failed _ := rfl
  written h := absurd h (Nat.lt_irrefl 0)

lemma length_payloadBytes_le (payload : Option Mem) (n : ℕ) :
    (payloadBytes payload n).length ≤ n := by
  cases payload with
  | none => exact Nat.zero_le n
  | some src => exact (length_load src 0 n).le

lemma encode8PlusPayload_within (kind : UInt8) (buf : Option Mem) (cap : ℕ)
    (code channel : UInt16) (param : UInt32) (payload : Option Mem) (payloadLen : ℕ)
    (seq : UInt16) : EncodesWithin buf cap
      (encode8PlusPayload kind buf cap code channel param payload payloadLen seq) := by
  cases buf with
  | none => exact encodesWithin_zero none cap
  | some b =>
    rw [encode8PlusPayload_eq]
    split_ifs with h
    · have hlength : (UInt16.ofNat (8 + payloadLen)).toNat = 8 + payloadLen := by
        have hmax := h.1
        rw [usbCmdPayloadMax] at hmax
        exact UInt16.toNat_ofNat_of_lt' (lt_of_le_of_lt (Nat.add_le_add_left hmax 8) (by decide))
      have hbytes := length_payloadBytes_le payload payloadLen
      apply encodesWithin_store h.2
      · omega
      · rw [List.length_append, length_fixedBytes]
        omega
    · exact encodesWithin_zero _ cap

lemma encodeData_within (abi : Abi) (buf : Option Mem) (cap : ℕ) (frames : Option Mem)
    (frameCount : ℕ) (seq : UInt16) :
    EncodesWithin buf cap (encodeData abi buf cap frames frameCount seq) := by
  cases buf with
  | none => exact encodesWithin_zero none cap
  | some b =>
    cases frames with
    | none => exact encodesWithin_zero (some b) cap
    | some src =>
      rw [encodeData_eq]
      split_ifs with h
      · have hlength : (UInt16.ofNat (frameCount * abi.sizeofFrame)).toNat =
            frameCount * abi.sizeofFrame := UInt16.toNat_ofNat_of_lt' (abi.frameBytes_lt h.2.1)
        apply encodesWithin_store h.2.2
        · rw [hlength]
        · rw [hlength, length_load]
      · exact encodesWithin_zero _ cap

/-! ### Decoders -/

lemma parseHeader_failed {buf : Option Mem} {len : ℕ} {kind length seq : Option UInt16}
    (h : (parseHeader buf len kind length seq).ok = false) :
    parseHeader buf len kind length seq = ⟨false, kind, length, seq⟩ := by
  cases buf with
  | none => rfl
  | some b =>
    rw [parseHeader_eq] at h ⊢
    by_cases hgood : GoodHeader b len
    · rw [if_pos hgood] at h
      cases h
    · rw [if_neg hgood]

lemma decodeFixed_failed {kind : UInt8} {buf : Option Mem} {len : ℕ}
    {code channel : Option UInt16} {param : Option UInt32}
    (h : (decodeFixed kind buf len code channel param).ok = false) :
    decodeFixed kind buf len code channel param = ⟨false, code, channel, param⟩ := by
  cases buf with
  | none => rfl
  | some b =>
    simp only [decodeFixed, parseHeader_eq] at h ⊢
    by_cases hheader : GoodHeader b len
    · simp only [if_pos hheader, Option.map_some] at h ⊢
      split_ifs at h ⊢
      all_goals rfl
    · simp only [if_neg hheader, ite_self]

lemma decodeData_within (abi : Abi) (buf : Option Mem) (len : ℕ) (out : Option Mem)
    (maxFrames : ℕ) (seq : Option UInt16) :
    DecodesWithin abi out maxFrames seq (decodeData abi buf len out maxFrames seq) := by
  have hfailed : DecodesWithin abi out maxFrames seq ⟨0, out, seq⟩ :=
    ⟨fun _ => ⟨rfl, rfl⟩, Nat.zero_le maxFrames, fun dst h => ⟨dst, h, fun _ _ => rfl⟩⟩
  cases buf with
  | none => exact hfailed
  | some b =>
    cases out with
    | none => exact hfailed
    | some dst =>
      rw [decodeData_eq]
      split_ifs with h
      · refine ⟨fun h0 => absurd h0 h.2.2.2.1, h.2.2.2.2, ?_⟩
        rintro _ ⟨⟩
        refine ⟨_, rfl, fun i hi => ?_⟩
        apply store_of_le
        rw [length_load, Nat.zero_add]
        exact hi
      · exact hfailed

/-! ### Bounded accesses -/

/-- `header_fill`. -/
def headerFillChecked (buf : Option Mem) (cap : ℕ) (kind : UInt8) (length seq : UInt16) :
    Option (Bool × Option Mem) :=
  match buf with
  | none => some (false, buf)
  | some b =>
    if cap < usbHeaderSize then some (false, buf)
    else do
      let b ← writeAt cap b 0 (loByte usbMagic)
      let b ← writeAt cap b 1 (hiByte usbMagic)
      let b ← writeAt cap b 2 usbProtocolVersion
      let b ← writeAt cap b 3 kind
      let b ← writeAt cap b 4 (loByte length)
      let b ← writeAt cap b 5 (hiByte length)
      let b ← writeAt cap b 6 (loByte seq)
      let b ← writeAt cap b 7 (hiByte seq)
      let b ← writeAt cap b 8 0
      let b ← writeAt cap b 9 0
      let b ← writeAt cap b 10 0
      let b ← writeAt cap b 11 0
      return (true, some b)

/-- `encode_8_plus_payload`. -/
def encode8PlusPayloadChecked (kind : UInt8) (buf : Option Mem) (cap : ℕ)
    (typeField channel : UInt16) (param : UInt32) (payload : Option Mem) (payloadLen : ℕ)
    (seq : UInt16) : Option (ℕ × Option Mem) :=
  if buf = none ∨ usbCmdPayloadMax < payloadLen then some (0, buf)
  else
    let plen := payloadLen
    let total := sizeT (usbHeaderSize + 8 + plen)
    if cap < total then some (0, buf)
    else do
      match ← headerFillChecked buf cap kind (UInt16.ofNat (8 + plen)) seq with
      | (true, some b) =>
        let p := usbHeaderSize
        let b ← writeAt cap b (p + 0) (loByte typeField)
        let b ← writeAt cap b (p + 1) (hiByte typeField)
        let b ← writeAt cap b (p + 2) (loByte channel)
        let b ← writeAt cap b (p + 3) (hiByte channel)
        let b ← writeAt cap b (p + 4) (byteAt param 0)
        let b ← writeAt cap b (p + 5) (byteAt param 8)
        let b ← writeAt cap b (p + 6) (byteAt param 16)
        let b ← writeAt cap b (p + 7) (byteAt param 24)
        match payload with
        | some src =>
          if 0 < plen then return (total, some (← copyAt cap b (p + 8) payloadLen src 0 plen))
          else return (total, some b)
        | none => return (total, some b)
      | (_, buf) => return (0, buf)

/-- `encode_data`, from an array of `frameCount` frames. -/
def encodeDataChecked (abi : Abi) (buf : Option Mem) (cap : ℕ) (frames : Option Mem)
    (frameCount : ℕ) (seq : UInt16) : Option (ℕ × Option Mem) :=
  match buf, frames with
  | some _, some src =>
    if frameCount = 0 ∨ usbFramesPerPacket < frameCount then some (0, buf)
    else
      let frameBytes := sizeT (frameCount * abi.sizeofFrame)
      let total := sizeT (usbHeaderSize + frameBytes)
      if cap < total then some (0, buf)
      else do
        match ← headerFillChecked buf cap pktData (UInt16.ofNat frameBytes) seq with
        | (true, some b) =>
          return (total, some (← copyAt cap b usbHeaderSize (frameCount * abi.sizeofFrame) src 0
            frameBytes))
        | (_, buf) => return (0, buf)
  | _, _ => some (0, buf)

/-- `parse_header`. -/
def parseHeaderChecked (buf : Option Mem) (len : ℕ) (kind length seq : Option UInt16) :
    Option HeaderOut :=
  match buf with
  | none => some ⟨false, kind, length, seq⟩
  | some b =>
    if len < usbHeaderSize then some ⟨false, kind, length, seq⟩
    else do
      let magic := word16 (← readAt len b 0) (← readAt len b 1)
      let version ← readAt len b 2
      let k := (← readAt len b 3).toUInt16
      let l := word16 (← readAt len b 4) (← readAt len b 5)
      let s := word16 (← readAt len b 6) (← readAt len b 7)
      if magic ≠ usbMagic ∨ version ≠ usbProtocolVersion then return ⟨false, kind, length, seq⟩
      else if len < sizeT (l.toNat + usbHeaderSize) then return ⟨false, kind, length, seq⟩
      else return ⟨true, kind.map fun _ => k, length.map fun _ => l, seq.map fun _ => s⟩

/-- `decode_data`, into an array of `maxFrames` frames. -/
def decodeDataChecked (abi : Abi) (buf : Option Mem) (len : ℕ) (out : Option Mem) (maxFrames : ℕ)
    (seq : Option UInt16) : Option DecodedData :=
  match buf, out with
  | some b, some dst =>
    if maxFrames = 0 then some ⟨0, out, seq⟩
    else do
      match ← parseHeaderChecked buf len (some 0) (some 0) (some 0) with
      | ⟨true, some kind, some length, some pktSeq⟩ =>
        if kind ≠ pktData.toUInt16 then return ⟨0, out, seq⟩
        else if length.toNat % abi.sizeofFrame ≠ 0 then return ⟨0, out, seq⟩
        else
          let count := length.toNat / abi.sizeofFrame
          if count = 0 ∨ maxFrames < count then return ⟨0, out, seq⟩
          else
            let dst ← copyAt (maxFrames * abi.sizeofFrame) dst 0 len b usbHeaderSize
              (sizeT (count * abi.sizeofFrame))
            return ⟨count, some dst, seq.map fun _ => pktSeq⟩
      | _ => return ⟨0, out, seq⟩
  | _, _ => some ⟨0, out, seq⟩

/-- `decode_cmd` and `decode_evt`, which read a field only for a caller that asks for it. -/
def decodeFixedChecked (kind : UInt8) (buf : Option Mem) (len : ℕ) (code channel : Option UInt16)
    (param : Option UInt32) : Option DecodedFixed :=
  match buf with
  | none => some ⟨false, code, channel, param⟩
  | some b =>
    if len < usbHeaderSize + 8 then some ⟨false, code, channel, param⟩
    else do
      match ← parseHeaderChecked buf len (some 0) (some 0) none with
      | ⟨true, some k, some length, _⟩ =>
        if k ≠ kind.toUInt16 then return ⟨false, code, channel, param⟩
        else if length < 8 ∨ len < sizeT (length.toNat + usbHeaderSize) then
          return ⟨false, code, channel, param⟩
        else
          let p := usbHeaderSize
          let code ← code.mapM fun _ => do
            return word16 (← readAt len b (p + 0)) (← readAt len b (p + 1))
          let channel ← channel.mapM fun _ => do
            return word16 (← readAt len b (p + 2)) (← readAt len b (p + 3))
          let param ← param.mapM fun _ => do
            return word32 (← readAt len b (p + 4)) (← readAt len b (p + 5))
              (← readAt len b (p + 6)) (← readAt len b (p + 7))
          return ⟨true, code, channel, param⟩
      | _ => return ⟨false, code, channel, param⟩

lemma headerFillChecked_eq (buf : Option Mem) (cap : ℕ) (kind : UInt8) (length seq : UInt16) :
    headerFillChecked buf cap kind length seq = some (headerFill buf cap kind length seq) := by
  cases buf with
  | none => rfl
  | some b =>
    simp only [headerFillChecked, headerFill]
    split_ifs with hcap
    · rfl
    · rw [usbHeaderSize] at hcap
      simp (disch := omega) only [writeAt_of_lt, Option.bind_eq_bind, Option.bind_some]
      rfl

lemma encode8PlusPayloadChecked_eq (kind : UInt8) (buf : Option Mem) (cap : ℕ)
    (code channel : UInt16) (param : UInt32) (payload : Option Mem) (payloadLen : ℕ)
    (seq : UInt16) :
    encode8PlusPayloadChecked kind buf cap code channel param payload payloadLen seq =
      some (encode8PlusPayload kind buf cap code channel param payload payloadLen seq) := by
  cases buf with
  | none => rfl
  | some b =>
    simp only [encode8PlusPayloadChecked, encode8PlusPayload, reduceCtorEq, false_or]
    by_cases hmax : usbCmdPayloadMax < payloadLen
    · rw [if_pos hmax, if_pos hmax]
    · have htotal : sizeT (usbHeaderSize + 8 + payloadLen) = usbHeaderSize + 8 + payloadLen := by
        apply sizeT_of_lt
        rw [usbCmdPayloadMax] at hmax
        rw [usbHeaderSize]
        omega
      rw [if_neg hmax, if_neg hmax, htotal]
      by_cases hcap : cap < usbHeaderSize + 8 + payloadLen
      · rw [if_pos hcap, if_pos hcap]
      · rw [if_neg hcap, if_neg hcap, headerFillChecked_eq, headerFill_eq_store (by omega)]
        simp (disch := omega) only [writeAt_of_lt, Option.bind_eq_bind, Option.bind_some]
        cases payload with
        | none => rfl
        | some src =>
          by_cases hzero : 0 < payloadLen
          · simp only [if_pos hzero]
            rw [copyAt_of_le (by omega) (by omega)]
            rfl
          · simp only [if_neg hzero]
            rfl

lemma encodeDataChecked_eq (abi : Abi) (buf : Option Mem) (cap : ℕ) (frames : Option Mem)
    (frameCount : ℕ) (seq : UInt16) :
    encodeDataChecked abi buf cap frames frameCount seq =
      some (encodeData abi buf cap frames frameCount seq) := by
  cases buf with
  | none => rfl
  | some b =>
    cases frames with
    | none => rfl
    | some src =>
      simp only [encodeDataChecked, encodeData]
      by_cases hcount : frameCount = 0 ∨ usbFramesPerPacket < frameCount
      · rw [if_pos hcount, if_pos hcount]
      · rw [if_neg hcount, if_neg hcount]
        rw [not_or, not_lt] at hcount
        have hbytes := abi.frameBytes_lt hcount.2
        have htotal : sizeT (usbHeaderSize + frameCount * abi.sizeofFrame) =
            usbHeaderSize + frameCount * abi.sizeofFrame := by
          apply sizeT_of_lt
          rw [usbHeaderSize]
          omega
        rw [sizeT_of_lt (lt_trans hbytes (by decide)), htotal]
        by_cases hcap : cap < usbHeaderSize + frameCount * abi.sizeofFrame
        · rw [if_pos hcap, if_pos hcap]
        · rw [if_neg hcap, if_neg hcap, headerFillChecked_eq, headerFill_eq_store (by omega)]
          simp only [Option.bind_eq_bind, Option.bind_some]
          rw [copyAt_of_le (by omega) (by omega)]
          rfl

/-- The sums with the 16-bit length do not wrap around. -/
lemma sizeT_length (length : UInt16) :
    sizeT (length.toNat + usbHeaderSize) = length.toNat + usbHeaderSize := by
  have hlength := length.toNat_lt
  apply sizeT_of_lt
  rw [usbHeaderSize]
  omega

lemma parseHeaderChecked_eq (buf : Option Mem) (len : ℕ) (kind length seq : Option UInt16) :
    parseHeaderChecked buf len kind length seq = some (parseHeader buf len kind length seq) := by
  cases buf with
  | none => rfl
  | some b =>
    simp only [parseHeaderChecked, parseHeader, sizeT_length]
    by_cases hlen : len < usbHeaderSize
    · rw [if_pos hlen, if_pos hlen]
    · rw [if_neg hlen, if_neg hlen]
      rw [usbHeaderSize] at hlen
      simp (disch := omega) only [readAt_of_lt, Option.bind_eq_bind, Option.bind_some]
      split_ifs
      all_goals rfl

lemma decodeDataChecked_eq (abi : Abi) (buf : Option Mem) (len : ℕ) (out : Option Mem)
    (maxFrames : ℕ) (seq : Option UInt16) :
    decodeDataChecked abi buf len out maxFrames seq =
      some (decodeData abi buf len out maxFrames seq) := by
  cases buf with
  | none => rfl
  | some b =>
    cases out with
    | none => rfl
    | some dst =>
      simp only [decodeDataChecked, parseHeaderChecked_eq, decodeData,
        parseHeader_eq, Option.bind_eq_bind, Option.bind_some]
      by_cases hmax : maxFrames = 0
      · rw [if_pos hmax, if_pos hmax]
      · rw [if_neg hmax, if_neg hmax]
        by_cases hgood : GoodHeader b len
        · simp only [if_pos hgood, Option.map_some]
          have hlength := (packetLength b).toNat_lt
          have hle := Nat.div_mul_le_self (packetLength b).toNat abi.sizeofFrame
          have hlen := hgood.2.2
          split_ifs with hkind hmod hcount
          · rfl
          · rfl
          · rfl
          · rw [not_or, not_lt] at hcount
            rw [sizeT_of_lt (by omega), copyAt_of_le _ (by omega)]
            · rfl
            · rw [Nat.zero_add]
              exact Nat.mul_le_mul_right _ hcount.2
        · simp only [if_neg hgood]
          rfl

lemma decodeFixedChecked_eq (kind : UInt8) (buf : Option Mem) (len : ℕ)
    (code channel : Option UInt16) (param : Option UInt32) :
    decodeFixedChecked kind buf len code channel param =
      some (decodeFixed kind buf len code channel param) := by
  cases buf with
  | none => rfl
  | some b =>
    simp only [decodeFixedChecked, parseHeaderChecked_eq, decodeFixed,
      parseHeader_eq, Option.bind_eq_bind, Option.bind_some]
    by_cases hsize : len < usbHeaderSize + 8
    · rw [if_pos hsize, if_pos hsize]
    · rw [if_neg hsize, if_neg hsize]
      by_cases hgood : GoodHeader b len
      · simp only [if_pos hgood, Option.map_some, sizeT_length]
        split_ifs with hkind hlen
        · rfl
        · rfl
        · simp (disch := omega) only [readAt_of_lt, Option.bind_some]
          cases code <;> cases channel <;> cases param <;> rfl
      · simp only [if_neg hgood]
        rfl

/-- None of the calls goes outside of its buffers, and no size wraps around. -/
structure InBounds (abi : Abi) : Prop where
  encode8PlusPayload : ∀ kind buf cap code channel param payload payloadLen seq,
    encode8PlusPayloadChecked kind buf cap code channel param payload payloadLen seq =
      some (encode8PlusPayload kind buf cap code channel param payload payloadLen seq)
  encodeData : ∀ buf cap frames frameCount seq,
    encodeDataChecked abi buf cap frames frameCount seq =
      some (encodeData abi buf cap frames frameCount seq)
  parseHeader : ∀ buf len kind length seq,
    parseHeaderChecked buf len kind length seq = some (parseHeader buf len kind length seq)
  decodeData : ∀ buf len out maxFrames seq,
    decodeDataChecked abi buf len out maxFrames seq =
      some (decodeData abi buf len out maxFrames seq)
  decodeFixed : ∀ kind buf len code channel param,
    decodeFixedChecked kind buf len code channel param =
      some (decodeFixed kind buf len code channel param)

lemma inBounds (abi : Abi) : InBounds abi where
  encode8PlusPayload := encode8PlusPayloadChecked_eq
  encodeData := encodeDataChecked_eq abi
  parseHeader := parseHeaderChecked_eq
  decodeData := decodeDataChecked_eq abi
  decodeFixed := decodeFixedChecked_eq

/-- A failed call changes nothing, a successful one only what it is for, and none leaves its
buffers. -/
theorem frame_conditions (abi : Abi) :
    (∀ buf cap cmd channel param payload payloadLen seq, EncodesWithin buf cap
      (encodeCmd buf cap cmd channel param payload payloadLen seq)) ∧
    (∀ buf cap evt channel param payload payloadLen seq, EncodesWithin buf cap
      (encodeEvt buf cap evt channel param payload payloadLen seq)) ∧
    (∀ buf cap frames frameCount seq, EncodesWithin buf cap
      (encodeData abi buf cap frames frameCount seq)) ∧
    (∀ buf len kind length seq, (parseHeader buf len kind length seq).ok = false →
      parseHeader buf len kind length seq = ⟨false, kind, length, seq⟩) ∧
    (∀ buf len cmd channel param, (decodeCmd buf len cmd channel param).ok = false →
      decodeCmd buf len cmd channel param = ⟨false, cmd, channel, param⟩) ∧
    (∀ buf len evt channel param, (decodeEvt buf len evt channel param).ok = false →
      decodeEvt buf len evt channel param = ⟨false, evt, channel, param⟩) ∧
    (∀ buf len out maxFrames seq, DecodesWithin abi out maxFrames seq
      (decodeData abi buf len out maxFrames seq)) ∧
    InBounds abi :=
  ⟨encode8PlusPayload_within pktCmd, encode8PlusPayload_within pktEvt, encodeData_within abi,
    fun _ _ _ _ _ => parseHeader_failed, fun _ _ _ _ _ => decodeFixed_failed,
    fun _ _ _ _ _ => decodeFixed_failed, decodeData_within abi, inBounds abi⟩

end UsbFrameCodec

end BusTestPlatform

import BusTestPlatform.Lib.BitField
import BusTestPlatform.Software.DbcParser

/-!
# `can_decoder.cpp`

A frame read through the signals of a message.
-/

namespace BusTestPlatform

open BitField

/-- The member `data` of a frame. -/
def BusFrame.payload (f : BusFrame) (i : ℕ) : UInt8 := f.data[i]?.getD 0

/-- `SignalValue`. -/
structure SignalValue (D : Type) where
  messageName : List Char
  signalName : List Char
  raw : BitVec 64
  physical : D
deriving DecidableEq

namespace CanDecoder

/-- The Intel loop from round `i` on, for as many rounds as the last argument says. It stops where
the frame is too short. -/
def intel (data : ℕ → UInt8) (dlc start i : ℕ) (v : BitVec 64) : ℕ → BitVec 64
  | 0 => v
  | n + 1 =>
    let byte := (start + i) / 8
    if dlc ≤ byte then v
    else
      let b := (start + i) % 8
      intel data dlc start (i + 1) (if (data byte).toNat.testBit b then v ||| 1#64 <<< i else v) n

/-- The Motorola loop from position `pos` on. -/
def motorola (data : ℕ → UInt8) (dlc pos : ℕ) (v : BitVec 64) : ℕ → BitVec 64
  | 0 => v
  | n + 1 =>
    let byte := pos / 8
    if dlc ≤ byte then v
    else
      let b := 7 - pos % 8
      motorola data dlc (pos + 1)
        (v <<< 1 ||| (BitVec.ofBool ((data byte).toNat.testBit b)).setWidth 64) n

variable {D : Type}

/-- `extract_raw`. -/
def extractRaw (sig : Signal D) (data : Option (ℕ → UInt8)) (dlc : UInt8) : BitVec 64 :=
  match data with
  | none => 0
  | some data =>
    let len := if 64 < sig.length then 64 else sig.length
    if len = 0 then 0
    else if sig.littleEndian then intel data dlc.toNat sig.startBit.toNat 0 0 len.toNat
    else motorola data dlc.toNat sig.startBit.toNat 0 len.toNat

/-- `sign_extend`. -/
def signExtend (raw : BitVec 64) (length : UInt8) : BitVec 64 :=
  if length = 0 ∨ 64 ≤ length then raw
  else
    let sign := 1#64 <<< (length.toNat - 1)
    if raw &&& sign ≠ 0 then raw ||| ~~~(1#64 <<< length.toNat - 1) else raw

section Decode

variable [IntCast D] [Add D] [Mul D]

/-- One round of the loop of `decode_frame`. -/
def decodeSignal (msg : DbcMessage D) (frame : BusFrame) (s : Signal D) : SignalValue D :=
  let raw := extractRaw s (some frame.payload) frame.dlc
  let raw := if s.isSigned then signExtend raw s.length else raw
  ⟨msg.name, s.name, raw, s.rawToPhysical raw⟩

/-- `decode_frame`: the result and `*out`, where `none` is the null pointer. -/
def decodeFrame (msg : DbcMessage D) (frame : BusFrame) (out : Option (List (SignalValue D))) :
    Bool × Option (List (SignalValue D)) :=
  match out with
  | none => (false, none)
  | some _ => (true, some (msg.signals.map (decodeSignal msg frame)))

end Decode

/-! ### The loops -/

lemma getLsbD_one_shiftLeft {i k : ℕ} (hk : k < 64) :
    (1#64 <<< i).getLsbD k = decide (k = i) := by
  rw [BitVec.getLsbD_shiftLeft, BitVec.getLsbD_one, Bool.eq_iff_iff]
  simp only [hk, decide_true, Bool.true_and, Bool.and_eq_true, Bool.not_eq_true',
    decide_eq_false_iff_not, decide_eq_true_eq]
  omega

lemma getLsbD_setBit {v : BitVec 64} {b : Bool} {i k : ℕ} (hk : k < 64) :
    (if b then v ||| 1#64 <<< i else v).getLsbD k = (v.getLsbD k || (decide (k = i) && b)) := by
  cases b with
  | false => simp
  | true => simp [getLsbD_one_shiftLeft hk]

lemma getLsbD_intel {data : ℕ → UInt8} {dlc start i n k : ℕ} {v : BitVec 64} (hk : k < 64) :
    (intel data dlc start i v n).getLsbD k = (v.getLsbD k ||
      (decide (i ≤ k ∧ k < i + n ∧ start + k < 8 * dlc) && bit data (start + k))) := by
  induction n generalizing i v with
  | zero =>
    have : ¬ (i ≤ k ∧ k < i + 0 ∧ start + k < 8 * dlc) := by omega
    rw [intel, decide_eq_false this, Bool.false_and, Bool.or_false]
  | succ n ih =>
    rw [intel]
    split_ifs with hshort
    · -- Every later bit is outside the frame as well.
      have : ¬ (i ≤ k ∧ k < i + (n + 1) ∧ start + k < 8 * dlc) := by omega
      rw [decide_eq_false this, Bool.false_and, Bool.or_false]
    · rw [ih, getLsbD_setBit hk, Bool.or_assoc]
      congr 1
      by_cases hki : k = i
      · subst hki
        have : k ≤ k ∧ k < k + (n + 1) ∧ start + k < 8 * dlc := by omega
        simp [this, bit]
      · have : (i + 1 ≤ k ∧ k < i + 1 + n ∧ start + k < 8 * dlc) ↔
            (i ≤ k ∧ k < i + (n + 1) ∧ start + k < 8 * dlc) := by omega
        rw [decide_eq_false hki, Bool.false_and, Bool.false_or, decide_eq_decide.mpr this]

lemma getLsbD_motorola {data : ℕ → UInt8} {dlc pos n k : ℕ} {v : BitVec 64} (hk : k < 64)
    (hfit : pos + n ≤ 8 * dlc) : (motorola data dlc pos v n).getLsbD k =
      if k < n then bit data (mirror (pos + (n - 1 - k))) else v.getLsbD (k - n) := by
  induction n generalizing pos v with
  | zero => simp [motorola]
  | succ n ih =>
    have hlong : ¬ dlc ≤ pos / 8 := by omega
    have hbit : (data (pos / 8)).toNat.testBit (7 - pos % 8) = bit data (mirror pos) := by
      rw [bit, mirror_div, mirror_mod]
    simp only [motorola, hlong, if_false, hbit]
    rw [ih (by omega)]
    rcases lt_trichotomy k n with hlt | rfl | hgt
    · have hpos : pos + 1 + (n - 1 - k) = pos + (n + 1 - 1 - k) := by omega
      rw [if_pos hlt, if_pos (Nat.lt_succ_of_lt hlt), hpos]
    · simp
    · obtain ⟨j, rfl⟩ := Nat.exists_eq_add_of_lt hgt
      have hj : j + 1 < 64 := by omega
      rw [if_neg (by omega), if_neg (by omega), show n + j + 1 - n = j + 1 by omega,
        show n + j + 1 - (n + 1) = j by omega]
      simp [hj, BitVec.getLsbD_eq_getElem (Nat.lt_of_succ_lt hj)]

/-! ### Sign extension -/

lemma toNat_mask {n : ℕ} (hn : n < 64) : (1#64 <<< n - 1).toNat = 2 ^ n - 1 := by
  have hlt : 2 ^ n < 2 ^ 64 := Nat.pow_lt_pow_right (by decide) hn
  have hshift : (1#64 <<< n).toNat = 2 ^ n := by
    rw [BitVec.toNat_shiftLeft, Nat.shiftLeft_eq, BitVec.toNat_one (by decide), Nat.one_mul,
      Nat.mod_eq_of_lt hlt]
  have hle : 1 ≤ 1#64 <<< n := by
    rw [BitVec.le_def, hshift]
    exact Nat.one_le_two_pow
  rw [BitVec.toNat_sub_of_le hle, hshift]
  rfl

lemma and_sign_ne_zero {raw : BitVec 64} {i : ℕ} (hi : i < 64) :
    raw &&& 1#64 <<< i ≠ 0 ↔ raw.getLsbD i = true := by
  constructor
  · intro h
    by_contra hbit
    rw [Bool.not_eq_true] at hbit
    refine h (BitVec.eq_of_getLsbD_eq fun k hk => ?_)
    rw [BitVec.getLsbD_and, getLsbD_one_shiftLeft hk]
    by_cases hki : k = i
    · rw [hki, hbit]
      simp
    · simp [hki]
  · intro hbit h
    have hand : (raw &&& 1#64 <<< i).getLsbD i = true := by
      rw [BitVec.getLsbD_and, getLsbD_one_shiftLeft hi, hbit, decide_eq_true rfl, Bool.and_true]
    rw [h] at hand
    simp at hand

/-- Sign extension copies the top bit of the signal to all higher ones. -/
lemma getLsbD_signExtend {raw : BitVec 64} {length : UInt8} {k : ℕ} (hpos : length ≠ 0)
    (hk : k < 64) : (signExtend raw length).getLsbD k =
      (raw.getLsbD k || (decide (length.toNat ≤ k) && raw.getLsbD (length.toNat - 1))) := by
  rw [signExtend]
  split_ifs with hfull
  · have hlen : ¬ length.toNat ≤ k := by
      have := UInt8.le_iff_toNat_le.mp (hfull.resolve_left hpos)
      exact Nat.not_le.mpr (hk.trans_le this)
    rw [decide_eq_false hlen, Bool.false_and, Bool.or_false]
  · have hlen : length.toNat < 64 := by
      rw [not_or, UInt8.not_le, UInt8.lt_iff_toNat_lt] at hfull
      exact hfull.2
    have hmask : (~~~(1#64 <<< length.toNat - 1)).getLsbD k = decide (length.toNat ≤ k) := by
      rw [BitVec.getLsbD_not, ← BitVec.testBit_toNat, toNat_mask hlen, Nat.testBit_two_pow_sub_one,
        decide_eq_true hk, Bool.true_and, ← decide_not, decide_eq_decide.mpr Nat.not_lt]
    dsimp only
    split_ifs with hsign
    · rw [and_sign_ne_zero (by omega)] at hsign
      rw [BitVec.getLsbD_or, hmask, hsign, Bool.and_true]
    · rw [and_sign_ne_zero (by omega), Bool.not_eq_true] at hsign
      rw [hsign, Bool.and_false, Bool.or_false]

/-- Sign extension keeps the bits of the signal. -/
lemma toNat_signExtend_mod (raw : BitVec 64) (length : UInt8) :
    (signExtend raw length).toNat % 2 ^ length.toNat = raw.toNat % 2 ^ length.toNat := by
  by_cases hzero : length = 0
  · rw [signExtend, if_pos (Or.inl hzero)]
  · refine Nat.eq_of_testBit_eq fun k => ?_
    rw [Nat.testBit_mod_two_pow, Nat.testBit_mod_two_pow, BitVec.testBit_toNat,
      BitVec.testBit_toNat]
    rcases Nat.lt_or_ge k 64 with hk | hk
    · rw [getLsbD_signExtend hzero hk]
      by_cases hlt : k < length.toNat
      · simp [hlt]
      · simp [hlt]
    · rw [BitVec.getLsbD_of_ge _ _ hk, BitVec.getLsbD_of_ge _ _ hk]

/-! ### Extraction -/

/-- The payload bit from which the decoder takes bit `k` of a signal. -/
def position (sig : Signal D) (k : ℕ) : ℕ :=
  if sig.littleEndian then sig.startBit.toNat + k
  else mirror (sig.startBit.toNat + (sig.length.toNat - 1 - k))

/-- A signal inside the frame is the field at its positions. -/
lemma toNat_extractRaw {sig : Signal D} {data : ℕ → UInt8} {dlc : UInt8}
    (hlen : sig.length.toNat ≤ 64)
    (hfit : ∀ k < sig.length.toNat, position sig k < 8 * dlc.toNat) :
    (extractRaw sig (some data) dlc).toNat =
      field data sig.length.toNat (position sig) := by
  have hlen' : ¬ 64 < sig.length := by
    rw [UInt8.lt_iff_toNat_lt]
    exact Nat.not_lt.mpr hlen
  refine Nat.eq_of_testBit_eq fun k => ?_
  rw [testBit_field, BitVec.testBit_toNat]
  rcases Nat.lt_or_ge k 64 with hk | hk
  · simp only [extractRaw, hlen', if_false]
    split_ifs with hzero hle
    · simp [hzero]
    · have hat : position sig k = sig.startBit.toNat + k := if_pos hle
      have hin : (0 ≤ k ∧ k < 0 + sig.length.toNat ∧ position sig k < 8 * dlc.toNat) ↔
          k < sig.length.toNat := by
        rw [Nat.zero_add]
        exact ⟨fun h => h.2.1, fun h => ⟨k.zero_le, h, hfit k h⟩⟩
      rw [getLsbD_intel hk, ← hat, Bool.decide_congr hin]
      simp
    · have hat : position sig k = mirror (sig.startBit.toNat + (sig.length.toNat - 1 - k)) :=
        if_neg hle
      have hend : sig.startBit.toNat + sig.length.toNat ≤ 8 * dlc.toNat := by
        have hpos : 0 < sig.length.toNat := Nat.pos_of_ne_zero fun h => hzero (UInt8.toNat_inj.mp h)
        have := hfit 0 hpos
        rw [position, if_neg hle, mirror_lt] at this
        omega
      rw [getLsbD_motorola hk hend, ← hat]
      split_ifs with hkn <;> simp [hkn]
  · have hkn : ¬ k < sig.length.toNat := by omega
    simp [hkn, BitVec.getLsbD_of_ge _ _ hk]

/-! ### Array bounds -/

/-- The Intel loop on the array itself: a read outside it is `none`. -/
def intelChecked (data : Vector UInt8 busMaxPayload) (dlc start i : ℕ) (v : BitVec 64) :
    ℕ → Option (BitVec 64)
  | 0 => some v
  | n + 1 =>
    let byte := (start + i) / 8
    if dlc ≤ byte then some v
    else do
      let d ← data[byte]?
      let b := (start + i) % 8
      intelChecked data dlc start (i + 1) (if d.toNat.testBit b then v ||| 1#64 <<< i else v) n

/-- The Motorola loop on the array itself. -/
def motorolaChecked (data : Vector UInt8 busMaxPayload) (dlc pos : ℕ) (v : BitVec 64) :
    ℕ → Option (BitVec 64)
  | 0 => some v
  | n + 1 =>
    let byte := pos / 8
    if dlc ≤ byte then some v
    else do
      let d ← data[byte]?
      let b := 7 - pos % 8
      motorolaChecked data dlc (pos + 1)
        (v <<< 1 ||| (BitVec.ofBool (d.toNat.testBit b)).setWidth 64) n

/-- `extract_raw` on the array of a frame. -/
def extractRawChecked (sig : Signal D) (data : Vector UInt8 busMaxPayload) (dlc : UInt8) :
    Option (BitVec 64) :=
  let len := if 64 < sig.length then 64 else sig.length
  if len = 0 then some 0
  else if sig.littleEndian then intelChecked data dlc.toNat sig.startBit.toNat 0 0 len.toNat
  else motorolaChecked data dlc.toNat sig.startBit.toNat 0 len.toNat

lemma intelChecked_eq {data : Vector UInt8 busMaxPayload} {dlc start i n : ℕ} {v : BitVec 64}
    (h : start + i + n ≤ 8 * busMaxPayload) :
    intelChecked data dlc start i v n =
      some (intel (fun k => data[k]?.getD 0) dlc start i v n) := by
  induction n generalizing i v with
  | zero => rfl
  | succ n ih =>
    have hbyte : (start + i) / 8 < busMaxPayload := by omega
    simp only [intelChecked, intel, Vector.getElem?_eq_getElem hbyte, Option.getD_some]
    by_cases hshort : dlc ≤ (start + i) / 8
    · rw [if_pos hshort, if_pos hshort]
    · rw [if_neg hshort, if_neg hshort]
      exact ih (i := i + 1) (by omega)

lemma motorolaChecked_eq {data : Vector UInt8 busMaxPayload} {dlc pos n : ℕ} {v : BitVec 64}
    (h : pos + n ≤ 8 * busMaxPayload) :
    motorolaChecked data dlc pos v n =
      some (motorola (fun k => data[k]?.getD 0) dlc pos v n) := by
  induction n generalizing pos v with
  | zero => rfl
  | succ n ih =>
    have hbyte : pos / 8 < busMaxPayload := by omega
    simp only [motorolaChecked, motorola, Vector.getElem?_eq_getElem hbyte, Option.getD_some]
    by_cases hshort : dlc ≤ pos / 8
    · rw [if_pos hshort, if_pos hshort]
    · rw [if_neg hshort, if_neg hshort]
      exact ih (by omega)

/-- `len`, which is at most 64. -/
lemma toNat_len (n : UInt8) : (if 64 < n then 64 else n).toNat = min n.toNat 64 := by
  split_ifs with h
  · rw [UInt8.lt_iff_toNat_lt] at h
    exact (Nat.min_eq_right h.le).symm
  · rw [UInt8.not_lt, UInt8.le_iff_toNat_le] at h
    exact (Nat.min_eq_left h).symm

/-- No bit walk leaves the array, whatever the signal and the `dlc`: from bit 255 at most, 64 bits
end in byte 39. -/
theorem extractRawChecked_eq (sig : Signal D) (data : Vector UInt8 busMaxPayload) (dlc : UInt8) :
    extractRawChecked sig data dlc =
      some (extractRaw sig (some fun k => data[k]?.getD 0) dlc) := by
  have hstart := sig.startBit.toNat_lt
  have hroom : sig.startBit.toNat + (if 64 < sig.length then 64 else sig.length).toNat ≤
      8 * busMaxPayload := by
    rw [toNat_len, busMaxPayload]
    omega
  simp only [extractRawChecked, extractRaw]
  generalize (if 64 < sig.length then 64 else sig.length) = len at hroom
  split_ifs
  · rfl
  · exact intelChecked_eq hroom
  · exact motorolaChecked_eq hroom

section Reports

variable [IntCast D] [Add D] [Mul D] {msg : DbcMessage D} {sig : Signal D} {f : BusFrame}

variable (msg f) in
/-- For signal number `i` the decoder reports a value that was `raw` before sign extension. -/
def Reports (i raw : ℕ) : Prop :=
  ∃ sig, msg.signals[i]? = some sig ∧ ∀ out, ∃ vs v,
    decodeFrame msg f (some out) = (true, some vs) ∧ vs[i]? = some v ∧
      v.raw.toNat % 2 ^ sig.length.toNat = raw

lemma reports_iff {i raw : ℕ} (hsig : msg.signals[i]? = some sig) : Reports msg f i raw ↔
    (decodeSignal msg f sig).raw.toNat % 2 ^ sig.length.toNat = raw := by
  have hv : (msg.signals.map (decodeSignal msg f))[i]? = some (decodeSignal msg f sig) := by
    rw [List.getElem?_map, hsig, Option.map_some]
  constructor
  · rintro ⟨sig', hsig', h⟩
    cases hsig.symm.trans hsig'
    obtain ⟨vs, v, hvs, hi, hraw⟩ := h []
    cases hvs
    cases hv.symm.trans hi
    exact hraw
  · exact fun h => ⟨sig, hsig, fun out => ⟨_, _, rfl, hv, h⟩⟩

/-- A signal inside the frame is reported as the field at its positions. -/
theorem reports_field_iff {i raw : ℕ} (hsig : msg.signals[i]? = some sig)
    (hlen : sig.length.toNat ≤ 64)
    (hfit : ∀ k < sig.length.toNat, position sig k < 8 * f.dlc.toNat) :
    Reports msg f i raw ↔ field f.payload sig.length.toNat (position sig) = raw := by
  have hlt : field f.payload sig.length.toNat (position sig) < 2 ^ sig.length.toNat :=
    field_lt ..
  have hraw : (extractRaw sig (some f.payload) f.dlc).toNat = _ := toNat_extractRaw hlen hfit
  have hmod : (decodeSignal msg f sig).raw.toNat % 2 ^ sig.length.toNat =
      field f.payload sig.length.toNat (position sig) := by
    rw [decodeSignal]
    split_ifs
    · rw [toNat_signExtend_mod, hraw, Nat.mod_eq_of_lt hlt]
    · rw [hraw, Nat.mod_eq_of_lt hlt]
  rw [reports_iff hsig, hmod]

end Reports

end CanDecoder

end BusTestPlatform

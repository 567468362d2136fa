import BusTestPlatform.Lib.Words
import BusTestPlatform.Software.BusFrame

/-!
# What a trace line tells

`frame_to_string` writes a word for each member of the frame, `dlc` and `status` included, and one
for each byte of the payload. `Shown` is what can be read from a line, and two frames have the same
line exactly when they agree in that.
-/

namespace BusTestPlatform

open Bytes Text

/-- What a trace line shows of a frame. -/
structure Shown where
  timestamp : ℕ
  type : BusType
  channel : UInt8
  rx : Bool
  id : UInt32
  extended : UInt8
  fd : UInt8
  status : ℕ
  payload : List UInt8
deriving DecidableEq

/-- A number that is no bus type is shown as the unknown one. -/
def shownType (type : ℕ) : BusType :=
  ([.can, .canfd, .canxl, .lin] : List BusType).find? (·.code = type) |>.getD .unknown

/-- What the line of `f` shows. The nanoseconds wrap, so the two high bits of the timestamp are
lost. -/
def shown (f : RawFrame) : Shown where
  timestamp := f.timestampNs100.toNat % 2 ^ 62
  type := shownType f.type
  channel := f.channel
  rx := f.dir = BusDirection.rx.code
  id := f.id
  extended := f.extended
  fd := f.fd
  status := f.status
  payload := f.data.toList.take f.dlc.toNat

/-! ### The words of a line -/

def byteText (b : UInt8) : List Char := zeroPad 2 (hex b.toNat)

/-- The words before the payload. -/
def headWords (f : RawFrame) : List (List Char) :=
  let ns := (timestampNs f).toNat
  ["[".toList ++ decimal (ns / 1000) ++ '.' :: zeroPad 3 (decimal (ns % 1000)),
   "us]".toList,
   busTypeStr f.type,
   "ch".toList ++ decimal f.channel.toNat,
   if f.dir = BusDirection.rx.code then "RX".toList else "TX".toList,
   "id=0x".toList ++ hex f.id.toNat,
   "ext=".toList ++ decimal f.extended.toNat,
   "fd=".toList ++ decimal f.fd.toNat,
   "dlc=".toList ++ decimal f.dlc.toNat,
   "st=".toList ++ decimal f.status]

def payloadWords (f : RawFrame) : List (List Char) :=
  (f.data.toList.take f.dlc.toNat).map byteText

lemma payloadText_eq (data : Vector UInt8 busMaxPayload) {i n : ℕ} (h : i + n ≤ busMaxPayload) :
    payloadText data i n = some (spaced (((data.toList.drop i).take n).map byteText) []) := by
  induction n generalizing i with
  | zero => simp [payloadText]
  | succ n ih =>
    have hi : i < data.toList.length := by
      rw [Vector.length_toList]
      omega
    have hget : data[i]? = some data.toList[i] := by
      rw [Vector.getElem?_eq_getElem (by omega), Vector.getElem_toList]
    rw [payloadText, hget, ih (by omega), List.drop_eq_getElem_cons hi, List.take_succ_cons,
      List.map_cons, spaced_cons]
    rfl

lemma frameToString_eq_map (f : RawFrame) :
    frameToString f = (payloadText f.data 0 f.dlc.toNat).map (spaced (headWords f)) := by
  rw [frameToString]
  cases payloadText f.data 0 f.dlc.toNat with
  | none => rfl
  | some payload =>
    by_cases hdir : f.dir = BusDirection.rx.code <;> simp [headWords, hdir]

/-- The line is the words with a space behind each. -/
lemma frameToString_eq {f : RawFrame} (hdlc : f.dlc.toNat ≤ busMaxPayload) :
    frameToString f = some (spaced (headWords f ++ payloadWords f) []) := by
  rw [frameToString_eq_map, payloadText_eq f.data (by omega), List.drop_zero, Option.map_some,
    spaced_append]
  rfl

/-! ### They are words -/

lemma isWord_append {p s : List Char} (hp : IsWord p) (hs : ∀ c ∈ s, isSpace c = false) :
    IsWord (p ++ s) := by
  refine ⟨by simp [hp.ne], ?_⟩
  rw [List.forall_mem_append]
  exact ⟨hp.isSpace, hs⟩

lemma isSpace_decimal (n : ℕ) : ∀ c ∈ decimal n, isSpace c = false :=
  fun c hc => isSpace_of_digit ((isNumeral_decimal n).2 c hc)

lemma isSpace_hex (n : ℕ) : ∀ c ∈ hex n, isSpace c = false :=
  fun _ hc => isSpace_of_digitVal ((digitVal_of_mem_hex hc).trans (by decide))

lemma isSpace_zeroPad {w : ℕ} {s : List Char} (hs : ∀ c ∈ s, isSpace c = false) :
    ∀ c ∈ zeroPad w s, isSpace c = false := by
  intro c hc
  rcases mem_zeroPad hc with rfl | hc
  · rfl
  · exact hs c hc

lemma length_byteText (b : UInt8) : (byteText b).length = 2 :=
  length_zeroPad (length_hex_le (by decide) b.toNat_lt)

lemma isWord_byteText (b : UInt8) : IsWord (byteText b) := by
  refine ⟨fun h => ?_, isSpace_zeroPad (isSpace_hex _)⟩
  have hlen := length_byteText b
  rw [h] at hlen
  cases hlen

lemma byteText_injective : Function.Injective byteText := by
  intro a b h
  have hval := congrArg (valueOf 16) h
  simp only [byteText, valueOf_zeroPad, valueOf_hex] at hval
  exact UInt8.toNat_inj.mp hval

lemma busTypeStr_eq (type : ℕ) : busTypeStr type = match shownType type with
    | .unknown => "UNKNOWN".toList
    | .can => "CAN".toList
    | .canfd => "CANFD".toList
    | .canxl => "CANXL".toList
    | .lin => "LIN".toList := by
  unfold busTypeStr shownType
  by_cases hcan : type = BusType.can.code
  · subst hcan
    rfl
  by_cases hcanfd : type = BusType.canfd.code
  · subst hcanfd
    rfl
  by_cases hcanxl : type = BusType.canxl.code
  · subst hcanxl
    rfl
  by_cases hlin : type = BusType.lin.code
  · subst hlin
    rfl
  · simp [hcan, hcanfd, hcanxl, hlin, Ne.symm hcan, Ne.symm hcanfd, Ne.symm hcanxl, Ne.symm hlin]

lemma busTypeStr_inj {s t : ℕ} : busTypeStr s = busTypeStr t ↔ shownType s = shownType t := by
  rw [busTypeStr_eq, busTypeStr_eq]
  cases shownType s <;> cases shownType t <;> decide

lemma isWord_busTypeStr (type : ℕ) : IsWord (busTypeStr type) := by
  rw [busTypeStr_eq]
  cases shownType type <;> exact ⟨by simp, by simp [isSpace]⟩

lemma isWord_decimal {p : List Char} (hp : IsWord p) (n : ℕ) : IsWord (p ++ decimal n) :=
  isWord_append hp (isSpace_decimal n)

lemma isWord_headWords (f : RawFrame) : ∀ w ∈ headWords f, IsWord w := by
  simp only [headWords, List.forall_mem_cons, List.not_mem_nil, IsEmpty.forall_iff, implies_true,
    and_true]
  refine ⟨?_, ⟨by simp, by simp [isSpace]⟩, isWord_busTypeStr _, ?_, ?_, ?_, ?_, ?_, ?_, ?_⟩
  · refine isWord_append (isWord_decimal ⟨by simp, by simp [isSpace]⟩ _) ?_
    rw [List.forall_mem_cons]
    exact ⟨rfl, isSpace_zeroPad (isSpace_decimal _)⟩
  · exact isWord_decimal ⟨by simp, by simp [isSpace]⟩ _
  · split_ifs <;> exact ⟨by simp, by simp [isSpace]⟩
  · exact isWord_append ⟨by simp, by simp [isSpace]⟩ (isSpace_hex _)
  · exact isWord_decimal ⟨by simp, by simp [isSpace]⟩ _
  · exact isWord_decimal ⟨by simp, by simp [isSpace]⟩ _
  · exact isWord_decimal ⟨by simp, by simp [isSpace]⟩ _
  · exact isWord_decimal ⟨by simp, by simp [isSpace]⟩ _

lemma isWord_payloadWords (f : RawFrame) : ∀ w ∈ payloadWords f, IsWord w := by
  intro w hw
  obtain ⟨b, -, rfl⟩ := List.mem_map.mp hw
  exact isWord_byteText b

/-! ### Reading a line back -/

lemma dot_not_mem (n : ℕ) : '.' ∉ "[".toList ++ decimal n := by
  rw [List.mem_append, not_or]
  exact ⟨by decide, (isNumeral_decimal n).not_mem (by decide)⟩

/-- Seconds and milliseconds are one number. -/
lemma timeWord_inj {m n : ℕ} :
    "[".toList ++ decimal (m / 1000) ++ '.' :: zeroPad 3 (decimal (m % 1000)) =
      "[".toList ++ decimal (n / 1000) ++ '.' :: zeroPad 3 (decimal (n % 1000)) ↔ m = n := by
  refine ⟨fun h => ?_, fun h => by rw [h]⟩
  obtain ⟨hdiv, hmod⟩ := split_unique (dot_not_mem _) (dot_not_mem _) h
  have hdiv := decimal_injective (List.append_cancel_left hdiv)
  have hmod := congrArg (valueOf 10) hmod
  rw [valueOf_zeroPad, valueOf_zeroPad, valueOf_decimal, valueOf_decimal] at hmod
  rw [← Nat.div_add_mod m 1000, ← Nat.div_add_mod n 1000, hdiv, hmod]

/-- Of the factor 100, the four goes into the modulus. -/
lemma timestampNs_inj (f g : RawFrame) : (timestampNs f).toNat = (timestampNs g).toNat ↔
    f.timestampNs100.toNat % 2 ^ 62 = g.timestampNs100.toNat % 2 ^ 62 := by
  have hns (f : RawFrame) : (timestampNs f).toNat = f.timestampNs100.toNat * 100 % 2 ^ 64 :=
    UInt64.toNat_mul _ _
  have hquot : 2 ^ 64 / Nat.gcd (2 ^ 64) 100 = 2 ^ 62 := by norm_num
  rw [hns, hns]
  constructor
  · intro h
    have hcancel := Nat.ModEq.cancel_right_div_gcd (m := 2 ^ 64) (c := 100) (by decide) h
    rwa [hquot] at hcancel
  · intro h
    have hfour := Nat.ModEq.mul_right' 4 (show Nat.ModEq (2 ^ 62) _ _ from h)
    have hall := hfour.mul_right 25
    rwa [Nat.mul_assoc, Nat.mul_assoc] at hall

lemma headWords_inj {f g : RawFrame} : headWords f = headWords g ↔
    f.timestampNs100.toNat % 2 ^ 62 = g.timestampNs100.toNat % 2 ^ 62 ∧
    shownType f.type = shownType g.type ∧ f.channel = g.channel ∧
    (f.dir = BusDirection.rx.code ↔ g.dir = BusDirection.rx.code) ∧ f.id = g.id ∧
    f.extended = g.extended ∧ f.fd = g.fd ∧ f.dlc = g.dlc ∧ f.status = g.status := by
  have hdir : ((if f.dir = BusDirection.rx.code then "RX".toList else "TX".toList) =
      if g.dir = BusDirection.rx.code then "RX".toList else "TX".toList) ↔
      (f.dir = BusDirection.rx.code ↔ g.dir = BusDirection.rx.code) := by
    by_cases hf : f.dir = BusDirection.rx.code <;> by_cases hg : g.dir = BusDirection.rx.code <;>
      simp [hf, hg]
  simp only [headWords, List.cons.injEq, timeWord_inj, busTypeStr_inj, List.append_cancel_left_eq,
    decimal_injective.eq_iff, hex_injective.eq_iff, UInt8.toNat_inj, UInt32.toNat_inj, hdir,
    timestampNs_inj, true_and, and_true]

/-- Two frames have the same line when the line shows the same of both. -/
theorem frameToString_eq_iff {f g : RawFrame} (hf : f.dlc.toNat ≤ busMaxPayload)
    (hg : g.dlc.toNat ≤ busMaxPayload) : frameToString f = frameToString g ↔ shown f = shown g := by
  have hwords {f : RawFrame} : ∀ w ∈ headWords f ++ payloadWords f, IsWord w := by
    rw [List.forall_mem_append]
    exact ⟨isWord_headWords f, isWord_payloadWords f⟩
  have hlen : (headWords f).length = (headWords g).length := rfl
  have hpayload : payloadWords f = payloadWords g ↔
      f.data.toList.take f.dlc.toNat = g.data.toList.take g.dlc.toNat :=
    (List.map_injective_iff.mpr byteText_injective).eq_iff
  have hdlc : f.data.toList.take f.dlc.toNat = g.data.toList.take g.dlc.toNat →
      f.dlc = g.dlc := by
    intro h
    have := congrArg List.length h
    rw [List.length_take, List.length_take, Vector.length_toList, Vector.length_toList,
      Nat.min_eq_left hf, Nat.min_eq_left hg] at this
    exact UInt8.toNat_inj.mp this
  have happend : headWords f ++ payloadWords f = headWords g ++ payloadWords g ↔
      headWords f = headWords g ∧ payloadWords f = payloadWords g :=
    ⟨fun h => List.append_inj h hlen, fun h => by rw [h.1, h.2]⟩
  rw [frameToString_eq hf, frameToString_eq hg, Option.some.injEq, spaced_inj hwords hwords,
    happend, headWords_inj, hpayload]
  simp only [shown, Shown.mk.injEq, decide_eq_decide]
  tauto

/-- The timestamp comes around after `2 ^ 62` ticks. -/
theorem frameToString_eq_iff_wrapped :
    frameToString (RawFrame.ofFrame BusFrame.zero) =
      frameToString { RawFrame.ofFrame BusFrame.zero with timestampNs100 := 2 ^ 62 } :=
  (frameToString_eq_iff (Nat.zero_le _) (Nat.zero_le _)).mpr (by decide +kernel)

/-! ### The buffer -/

lemma length_busTypeStr (type : ℕ) : (busTypeStr type).length ≤ 7 := by
  rw [busTypeStr_eq]
  cases shownType type <;> simp

/-- What `snprintf` writes into `buf`. -/
def headText (f : RawFrame) : List Char :=
  spaced (headWords f).dropLast ("st=".toList ++ decimal f.status)

lemma spaced_headWords (f : RawFrame) (t : List Char) :
    spaced (headWords f) t = headText f ++ ' ' :: t := by
  have hlast : headWords f = (headWords f).dropLast ++ ["st=".toList ++ decimal f.status] := rfl
  rw [headText, ← spaced_append_right, hlast, spaced_append, ← hlast]
  rfl

lemma length_headText {f : RawFrame} (hst : f.status < 2 ^ 32) : (headText f).length ≤ 97 := by
  have hns := (timestampNs f).toNat_lt
  have htime : (decimal ((timestampNs f).toNat / 1000)).length ≤ 20 :=
    length_decimal_le (by decide) (by omega)
  have hfraction : (zeroPad 3 (decimal ((timestampNs f).toNat % 1000))).length = 3 :=
    length_zeroPad (length_decimal_le (by decide) (Nat.mod_lt _ (by decide)))
  have hbyte (b : UInt8) : (decimal b.toNat).length ≤ 3 :=
    length_decimal_le (by decide) (b.toNat_lt.trans (by decide))
  have hdir : (if f.dir = BusDirection.rx.code then "RX".toList else "TX".toList).length = 2 := by
    split_ifs <;> rfl
  have hid : (hex f.id.toNat).length ≤ 8 := length_hex_le (by decide) f.id.toNat_lt
  have hstatus : (decimal f.status).length ≤ 10 :=
    length_decimal_le (by decide) (hst.trans (by decide))
  have htype := length_busTypeStr f.type
  have hchannel := hbyte f.channel
  have hextended := hbyte f.extended
  have hfd := hbyte f.fd
  have hdlc := hbyte f.dlc
  rw [headText, length_spaced]
  simp only [headWords, List.dropLast_cons_cons, List.dropLast_singleton, List.map_cons,
    List.map_nil, List.sum_cons, List.sum_nil, List.length_append, List.length_cons, hdir,
    hfraction]
  simp
  omega

lemma length_payloadText (data : Vector UInt8 busMaxPayload) {i n : ℕ} {payload : List Char}
    (h : payloadText data i n = some payload) : payload.length = 3 * n := by
  induction n generalizing i payload with
  | zero =>
    cases h
    rfl
  | succ n ih =>
    rw [payloadText, Option.bind_eq_bind, Option.bind_eq_some_iff] at h
    obtain ⟨b, -, h⟩ := h
    obtain ⟨rest, hrest, h⟩ := Option.bind_eq_some_iff.mp h
    cases h
    have hbyte := length_byteText b
    rw [byteText] at hbyte
    rw [List.length_append, hbyte, List.length_cons, ih hrest]
    omega

/-- Whatever the frame holds, the text before the payload fits into `buf` with its terminator: no
character is lost, and `std::string(buf, n)` reads inside the array. The payload follows behind a
space, with three characters for each byte, unless `dlc` is more than the array has. -/
theorem frameToString_fits {f : RawFrame} (hst : f.status < 2 ^ 32) :
    (headText f).length < 256 ∧
      frameToString f =
        (payloadText f.data 0 f.dlc.toNat).map (fun payload => headText f ++ ' ' :: payload) ∧
      (f.dlc.toNat ≤ busMaxPayload → ∃ payload, payloadText f.data 0 f.dlc.toNat = some payload ∧
        payload.length = 3 * f.dlc.toNat) := by
  refine ⟨(length_headText hst).trans_lt (by decide), ?_, fun hdlc => ?_⟩
  · have hhead : spaced (headWords f) = fun payload => headText f ++ ' ' :: payload :=
      funext (spaced_headWords f)
    rw [frameToString_eq_map, hhead]
  · have hsome := (isSome_payloadText f.data).mpr (Or.inr (Nat.zero_add f.dlc.toNat ▸ hdlc))
    obtain ⟨payload, hpayload⟩ := Option.isSome_iff_exists.mp hsome
    exact ⟨payload, hpayload, length_payloadText f.data hpayload⟩

/-- The longest payload and the largest number for the status. -/
theorem frameToString_fits_full :
    let f := { RawFrame.ofFrame BusFrame.zero with dlc := 64, status := 2 ^ 32 - 1 }
    (headText f).length < 256 ∧ ∃ payload,
      frameToString f = some (headText f ++ ' ' :: payload) ∧ payload.length = 192 := by
  intro f
  obtain ⟨hhead, hline, hpayload⟩ := frameToString_fits (f := f) (by decide)
  obtain ⟨payload, htext, hlen⟩ := hpayload (by decide)
  refine ⟨hhead, payload, ?_, hlen⟩
  rw [hline, htext, Option.map_some]

end BusTestPlatform

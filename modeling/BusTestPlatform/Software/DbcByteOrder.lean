import BusTestPlatform.Software.CanDecoder

/-!
# The byte order of DBC signals

The convention of Vector DBC files, and the signals whose values the host decodes as the convention
says. The parser takes `@0` for Intel and `@1` for Motorola, and the decoder counts the start bit of
a Motorola signal from bit 7 of its byte.
-/

namespace BusTestPlatform

open Text BitField DbcParser CanDecoder

/-! ### The convention -/

namespace VectorDbc

/-- The byte order that `@1` and `@0` stand for. -/
inductive ByteOrder
  | intel | motorola
deriving DecidableEq

def ByteOrder.char : ByteOrder → Char
  | intel => '1'
  | motorola => '0'

/-- `<s>|<n>@<o><sign>` with decimal numerals. -/
structure Geometry where
  start : List Char
  length : List Char
  order : ByteOrder
  signed : Bool
  isNumeral_start : IsNumeral start
  isNumeral_length : IsNumeral length
  length_pos : 1 ≤ valueOf 10 length
  length_le : valueOf 10 length ≤ 64

namespace Geometry

variable (g : Geometry)

def s : ℕ := valueOf 10 g.start

def n : ℕ := valueOf 10 g.length

def word : List Char :=
  g.start ++ '|' :: (g.length ++ ['@', g.order.char, if g.signed then '-' else '+'])

end Geometry

/-- The next less significant bit of a Motorola signal: down to bit 0 of the byte, then bit 7 of the
next byte. -/
def nextLess (p : ℕ) : ℕ := if p % 8 = 0 then p + 15 else p - 1

lemma nextLess_eq (p : ℕ) : nextLess p = mirror (mirror p + 1) := by
  simp only [nextLess, mirror]
  split_ifs <;> omega

lemma iterate_nextLess (p j : ℕ) : nextLess^[j] p = mirror (mirror p + j) := by
  induction j with
  | zero => simp
  | succ j ih => rw [Function.iterate_succ_apply', ih, nextLess_eq, mirror_mirror, Nat.add_assoc]

namespace Geometry

variable (g : Geometry)

/-- The payload bit with bit `k` of the value. -/
def position (k : ℕ) : ℕ :=
  match g.order with
  | .intel => g.s + k
  | .motorola => nextLess^[g.n - 1 - k] g.s

/-- The payload contains all bits of the signal. -/
def CarriedBy (f : BusFrame) : Prop := ∀ k < g.n, g.position k < 8 * f.dlc.toNat

/-- The raw value. -/
def raw (f : BusFrame) : ℕ := field f.payload g.n g.position

end Geometry

end VectorDbc

/-- `SG_ <name> : <s>|<n>@<o><sign> ...`, with any blanks between the words. -/
structure SgLine where
  geometry : VectorDbc.Geometry
  name : List Char
  gap₀ : List Char
  gap₁ : List Char
  gap₂ : List Char
  tail : List Char
  name_ne : name ≠ []
  gap₁_ne : gap₁ ≠ []
  gap₂_ne : gap₂ ≠ []
  isSpace_name : ∀ c ∈ name, isSpace c = false
  isSpace_gap₀ : ∀ c ∈ gap₀, isSpace c = true
  isSpace_gap₁ : ∀ c ∈ gap₁, isSpace c = true
  isSpace_gap₂ : ∀ c ∈ gap₂, isSpace c = true
  isSpace_tail : ∀ c ∈ tail.head?, isSpace c = true

/-- The text of the line. -/
def SgLine.text (l : SgLine) : List Char :=
  "SG_ ".toList ++ (l.gap₀ ++ (l.name ++ (l.gap₁ ++ ([':'] ++ (l.gap₂ ++
    (l.geometry.word ++ l.tail))))))

/-! ### What the host reads -/

namespace VectorDbc.Geometry

variable (g : Geometry)

/-- The start bit that the parser stores: a leading 0 makes the numeral octal, and only the low byte
is kept. -/
def readStart : ℕ := valueOf (baseOf g.start) g.start % 256

def readLength : ℕ := valueOf (baseOf g.length) g.length

end VectorDbc.Geometry

namespace VectorDbc.Geometry

variable {g : Geometry}

/-- What the parser makes of the word: the numerals in the notation of C, and `@0` for Intel. -/
lemma sgGeometry_word {startBit length : UInt8} {little signed : Bool}
    (h : sgGeometry g.word = .ok (startBit, length, little, signed)) :
    startBit.toNat = g.readStart ∧ length.toNat = g.readLength ∧
      little = (g.order == .motorola) := by
  rw [word, sgGeometry_eq g.isNumeral_start g.isNumeral_length] at h
  split at h
  · next start len hstart hlength =>
    cases parseU32_numeral g.isNumeral_start hstart
    cases parseU32_numeral g.isNumeral_length hlength
    simp only [Except.ok.injEq, Prod.mk.injEq] at h
    obtain ⟨rfl, rfl, rfl, -⟩ := h
    refine ⟨?_, ?_, ?_⟩
    · exact toNat_lowByte _
    · exact toNat_clamp ((valueOf_baseOf_le _).trans g.length_le)
    · cases g.order <;> rfl
  · cases h

lemma word_ne : g.word ≠ [] := by
  simp [word]

lemma isSpace_word : ∀ c ∈ g.word, isSpace c = false := by
  intro c hc
  simp only [word, List.mem_append, List.mem_cons, List.not_mem_nil, or_false] at hc
  rcases hc with hc | rfl | hc | rfl | rfl | rfl
  · exact isSpace_of_digit (g.isNumeral_start.2 c hc)
  · rfl
  · exact isSpace_of_digit (g.isNumeral_length.2 c hc)
  · rfl
  · cases g.order <;> rfl
  · cases g.signed <;> rfl

end VectorDbc.Geometry

namespace SgLine

variable (l : SgLine)

lemma isPrefixOf_text : "SG_ ".toList.isPrefixOf l.text := by
  rw [List.isPrefixOf_iff_prefix]
  exact List.prefix_append _ _

lemma readWord_name : readWord (l.text.drop 4) =
    some (l.name, l.gap₁ ++ ([':'] ++ (l.gap₂ ++ (l.geometry.word ++ l.tail)))) := by
  rw [text, List.drop_left' (by simp)]
  exact readWord_between l.isSpace_gap₀ l.name_ne l.isSpace_name l.isSpace_gap₁ l.gap₁_ne

lemma readWord_colon :
    readWord (l.gap₁ ++ ([':'] ++ (l.gap₂ ++ (l.geometry.word ++ l.tail)))) =
      some ([':'], l.gap₂ ++ (l.geometry.word ++ l.tail)) :=
  readWord_between l.isSpace_gap₁ (by simp) (by simp [isSpace]) l.isSpace_gap₂ l.gap₂_ne

lemma readWord_geometry : readWord (l.gap₂ ++ (l.geometry.word ++ l.tail)) =
    some (l.geometry.word, l.tail) :=
  readWord_append l.isSpace_gap₂ VectorDbc.Geometry.word_ne VectorDbc.Geometry.isSpace_word
    l.isSpace_tail

/-- The word in which an accepted line has its geometry. A name with a colon of its own would put
the colon there, which is none. -/
lemma geometry_of_accepted {D : Type} [Zero D] [One D] {stod : List Char → Option (D × ℕ)}
    {s : Signal D} (h : parseSg stod l.text = .ok s) :
    sgGeometry l.geometry.word = .ok (s.startBit, s.length, s.littleEndian, s.isSigned) := by
  obtain ⟨name, r, geom, r', hname, hgeom, hgeo⟩ := geometry_of_parseSg h
  simp only [sgName, bind_eq_ok, word_eq_ok, l.readWord_name] at hname
  obtain ⟨_, hx, hname⟩ := hname
  cases hx
  simp only at hname
  split_ifs at hname
  · cases hname
    rw [l.readWord_colon] at hgeom
    cases hgeom
    cases hgeo
  · simp only [bind_eq_ok, word_eq_ok, l.readWord_colon] at hname
    obtain ⟨_, hx, hname⟩ := hname
    cases hx
    cases hname
    rw [l.readWord_geometry] at hgeom
    cases hgeom
    exact hgeo

end SgLine

/-! ### Where both agree -/

/-- A frame of full length with a given payload. -/
def fullFrame (data : ℕ → UInt8) : BusFrame :=
  { BusFrame.zero with dlc := 64, data := Vector.ofFn fun i => data i }

lemma bit_fullFrame {data : ℕ → UInt8} {p : ℕ} (hp : p < 8 * busMaxPayload) :
    bit (fullFrame data).payload p = bit data p := by
  have hbyte : p / 8 < busMaxPayload := by omega
  simp [bit, BusFrame.payload, fullFrame, hbyte]

namespace VectorDbc.Geometry

variable (g : Geometry)

/-- The payload bit that the host takes for bit `k`. -/
def readPosition (k : ℕ) : ℕ :=
  match g.order with
  | .intel => mirror (g.readStart + (g.readLength - 1 - k))
  | .motorola => g.readStart + k

/-- The bits of the payload that the signal needs: a multiple of 8 bits has room for it if and only
if it is not smaller. -/
def extent : ℕ :=
  match g.order with
  | .intel => g.s + g.n
  | .motorola => mirror g.s + g.n

/-- Both start bits are in one byte, and the bits between them are those of the signal. -/
def OneByte : Prop :=
  g.s / 8 = g.readStart / 8 ∧
    match g.order with
    | .intel => g.s % 8 + g.readStart % 8 + g.n = 8
    | .motorola => g.readStart % 8 + g.n = g.s % 8 + 1

/-- Where the host decodes as the convention says: no payload has room for the signal, or its bits
are in one byte, in the same place of it for both. -/
def Agrees : Prop := 8 * busMaxPayload < g.extent ∨ g.readLength = g.n ∧ g.OneByte

lemma readPosition_lt {k : ℕ} (hk : k < g.readLength) :
    g.readPosition k < 8 * busMaxPayload := by
  have hstart : g.readStart < 256 := Nat.mod_lt _ (by decide)
  have hlength : g.readLength ≤ 64 := (valueOf_baseOf_le _).trans g.length_le
  unfold readPosition
  split
  · rw [mirror_lt, busMaxPayload]
    omega
  · rw [busMaxPayload]
    omega

lemma position_lt_iff {m : ℕ} : (∀ k < g.n, g.position k < 8 * m) ↔ g.extent ≤ 8 * m := by
  have hn : 1 ≤ g.n := g.length_pos
  unfold position extent
  split
  · refine ⟨fun h => ?_, fun h k hk => by omega⟩
    have := h (g.n - 1) (by omega)
    omega
  · simp only [iterate_nextLess, mirror_lt]
    refine ⟨fun h => ?_, fun h k hk => by omega⟩
    have := h 0 hn
    omega

lemma position_eq_iff (hlen : g.readLength = g.n) :
    (∀ k < g.n, g.position k = g.readPosition k) ↔ g.OneByte := by
  unfold position readPosition OneByte
  rw [hlen]
  split
  · exact ascending_eq_mirror_iff g.length_pos
  · have hswap : (∀ k < g.n, nextLess^[g.n - 1 - k] g.s = g.readStart + k) ↔
        ∀ k < g.n, g.readStart + k = mirror (mirror g.s + (g.n - 1 - k)) := by
      simp only [iterate_nextLess]
      exact forall₂_congr fun k _ => eq_comm
    rw [hswap]
    refine (ascending_eq_mirror_iff g.length_pos).trans ?_
    rw [mirror_div, mirror_mod, show valueOf 10 g.length = g.n from rfl]
    omega

end VectorDbc.Geometry

section Decode

variable {D : Type} {g : VectorDbc.Geometry} {sig : Signal D}

lemma position_eq_readPosition (hstart : sig.startBit.toNat = g.readStart)
    (hlength : sig.length.toNat = g.readLength)
    (hlittle : sig.littleEndian = (g.order == .motorola)) (k : ℕ) :
    position sig k = g.readPosition k := by
  rw [position, VectorDbc.Geometry.readPosition, hstart, hlength, hlittle]
  cases g.order <;> rfl

/-- The decoder on a signal as the parser stores it. -/
lemma reports_raw_iff [IntCast D] [Add D] [Mul D] {msg : DbcMessage D} {i : ℕ}
    (hsig : msg.signals[i]? = some sig) (hstart : sig.startBit.toNat = g.readStart)
    (hlength : sig.length.toNat = g.readLength)
    (hlittle : sig.littleEndian = (g.order == .motorola)) :
    (∀ f : BusFrame, f.dlc.toNat ≤ busMaxPayload → g.CarriedBy f → Reports msg f i (g.raw f)) ↔
      g.Agrees := by
  have hlen : sig.length.toNat ≤ 64 := hlength ▸ (valueOf_baseOf_le _).trans g.length_le
  have hpos : position sig = g.readPosition :=
    funext (position_eq_readPosition hstart hlength hlittle)
  rw [VectorDbc.Geometry.Agrees]
  constructor
  · intro h
    rcases Nat.lt_or_ge (8 * busMaxPayload) g.extent with hlt | hfit
    · exact Or.inl hlt
    · -- In a frame of full length every payload is possible, and all bits of both are inside.
      have hin : ∀ k < g.n, g.position k < 8 * busMaxPayload := g.position_lt_iff.mpr hfit
      have hread : ∀ k < sig.length.toNat, g.readPosition k < 8 * busMaxPayload :=
        fun k hk => g.readPosition_lt (hlength ▸ hk)
      have hfields : ∀ data, field data g.n g.position =
          field data sig.length.toNat g.readPosition := by
        intro data
        have hframe := h (fullFrame data) le_rfl hin
        rw [reports_field_iff hsig hlen (hpos ▸ hread), hpos, VectorDbc.Geometry.raw] at hframe
        calc field data g.n g.position
            = field (fullFrame data).payload g.n g.position :=
              field_congr fun k hk => (bit_fullFrame (hin k hk)).symm
          _ = field (fullFrame data).payload sig.length.toNat g.readPosition := hframe.symm
          _ = field data sig.length.toNat g.readPosition :=
              field_congr fun k hk => bit_fullFrame (hread k hk)
      obtain ⟨hn, hplace⟩ := field_eq_iff.mp hfields
      rw [hlength] at hn
      exact Or.inr ⟨hn, (g.position_eq_iff hn).mp hplace⟩
  · rintro (hlt | ⟨hn, hplace⟩) f hdlc hcarried
    · have hroom := g.position_lt_iff.mp hcarried
      omega
    · have hsame := (g.position_eq_iff hn).mpr hplace
      have hfit : ∀ k < sig.length.toNat, position sig k < 8 * f.dlc.toNat := by
        intro k hk
        rw [hlength, hn] at hk
        rw [hpos, ← hsame k hk]
        exact hcarried k hk
      rw [reports_field_iff hsig hlen hfit, hpos, hlength, hn]
      exact (field_congr fun k hk => congrArg (bit f.payload) (hsame k hk)).symm

end Decode

variable {D : Type} [Zero D] [One D] [IntCast D] [Add D] [Mul D]
  {stod : List Char → Option (D × ℕ)}

/-- A signal of an accepted text is decoded as the convention says from every frame that carries it
if and only if the byte order that the host takes for the other one makes no difference. -/
theorem decodes_iff {text line : List Char} (hok : (parse stod text).error = none)
    (hline : line ∈ getlines text) (l : SgLine) (hl : trim line = l.text) :
    ∃ msg ∈ (parse stod text).messages, ∃ i sig, msg.signals[i]? = some sig ∧
      parseSg stod l.text = .ok sig ∧
      ((∀ f : BusFrame, f.dlc.toNat ≤ busMaxPayload → l.geometry.CarriedBy f →
        Reports msg f i (l.geometry.raw f)) ↔ l.geometry.Agrees) := by
  obtain ⟨sig, hsig, msg, hmsg, hmem⟩ := stored_of_parse hok hline (hl ▸ l.isPrefixOf_text)
  rw [hl] at hsig
  obtain ⟨i, hi⟩ := List.getElem?_of_mem hmem
  obtain ⟨hstart, hlength, hlittle⟩ :=
    VectorDbc.Geometry.sgGeometry_word (l.geometry_of_accepted hsig)
  exact ⟨msg, hmsg, i, sig, hi, hsig, reports_raw_iff hi hstart hlength hlittle⟩

/-- `std::stod` on decimal digits. -/
def stodDigits (s : List Char) : Option (ℤ × ℕ) :=
  let ds := s.takeWhile (digitVal · < 10)
  if ds = [] then none else some (valueOf 10 ds, ds.length)

/-- `SG_ S : <s>|<n>@1+ (1,0)`. -/
def intelLine (start length : List Char) (hstart : IsNumeral start) (hlength : IsNumeral length)
    (hpos : 1 ≤ valueOf 10 length) (hle : valueOf 10 length ≤ 64) : SgLine where
  geometry := ⟨start, length, .intel, false, hstart, hlength, hpos, hle⟩
  name := ['S']
  gap₀ := []
  gap₁ := [' ']
  gap₂ := [' ']
  tail := " (1,0)".toList
  name_ne := by decide
  gap₁_ne := by decide
  gap₂_ne := by decide
  isSpace_name := by simp [isSpace]
  isSpace_gap₀ := by simp
  isSpace_gap₁ := by simp [isSpace]
  isSpace_gap₂ := by simp [isSpace]
  isSpace_tail := by simp [isSpace]

/-- A text with one message and one signal. -/
def oneSignal (l : SgLine) : List Char := "BO_ 1 M: 8 E\n".toList ++ l.text

def twoBits : SgLine :=
  intelLine ['3'] ['2'] (by simp [IsNumeral, digitVal]) (by simp [IsNumeral, digitVal])
    (by decide) (by decide)

/-- Two bits in the middle of a byte are the same in both byte orders. -/
theorem decodes_iff_twoBits :
    ∃ msg ∈ (parse stodDigits (oneSignal twoBits)).messages,
      ∃ i sig, msg.signals[i]? = some sig ∧ parseSg stodDigits twoBits.text = .ok sig ∧
        ∀ f : BusFrame, f.dlc.toNat ≤ busMaxPayload → twoBits.geometry.CarriedBy f →
          Reports msg f i (twoBits.geometry.raw f) := by
  have hok : (parse stodDigits (oneSignal twoBits)).error = none := by decide
  have hline : twoBits.text ∈ getlines (oneSignal twoBits) := by decide
  obtain ⟨msg, hmsg, i, sig, hi, hsig, hiff⟩ := decodes_iff hok hline twoBits (by decide)
  exact ⟨msg, hmsg, i, sig, hi, hsig, hiff.mpr (Or.inr ⟨rfl, rfl, rfl⟩)⟩

def sixteenBits : SgLine :=
  intelLine ['0'] ['1', '6'] (by simp [IsNumeral, digitVal]) (by simp [IsNumeral, digitVal])
    (by decide) (by decide)

/-- The message of `oneSignal sixteenBits`. -/
def sixteenBitsMessage : DbcMessage ℤ :=
  ⟨1, ['M'], 8, ['E'], [⟨['S'], 0, 16, 1, 0, 0, 0, [], false, false⟩]⟩

/-- Bytes 0x34 and 0x12, then zeros. -/
def leFrame : BusFrame :=
  { BusFrame.zero with
    dlc := 8
    data := Vector.ofFn fun i => if i.val = 0 then 0x34 else if i.val = 1 then 0x12 else 0 }

/-- The signal `0|16@1+` has the value 0x1234 in the bytes 0x34 and 0x12, and is reported as
0x3412. -/
theorem sixteenBits_swapped :
    (parse stodDigits (oneSignal sixteenBits)).error = none ∧
      sixteenBits.text ∈ getlines (oneSignal sixteenBits) ∧
      trim sixteenBits.text = sixteenBits.text ∧
      (parse stodDigits (oneSignal sixteenBits)).messages = [sixteenBitsMessage] ∧
      sixteenBits.geometry.CarriedBy leFrame ∧ sixteenBits.geometry.raw leFrame = 0x1234 ∧
      Reports sixteenBitsMessage leFrame 0 0x3412 ∧
      ¬ Reports sixteenBitsMessage leFrame 0 0x1234 := by
  refine ⟨by decide, by decide, by decide, by decide, ?_, by decide, ?_, ?_⟩
  · exact (VectorDbc.Geometry.position_lt_iff _).mpr (by decide)
  · exact (reports_iff rfl).mpr (by decide)
  · exact fun h => absurd ((reports_iff rfl).mp h) (by decide)

end BusTestPlatform

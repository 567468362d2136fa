import BusTestPlatform.Software.DbcOptional

/-!
# The numerals of messages and signals

Which integers the parser keeps as they are written. `parse_u32` reads the notation of C, signs and
octal numerals included, and drops the high half; the geometry is then cut to the low byte of the
start bit and to 64 bits of length.
-/

namespace BusTestPlatform

open Text

namespace DbcParser

variable {D : Type} {stod : List Char → Option (D × ℕ)}

/-! ### Messages -/

/-- The words that are read as the identifier and the length of a message. -/
def BoTokens (line idTok dlcTok : List Char) : Prop :=
  ∃ name r r' r'', readWord (line.drop 4) = some (idTok, r) ∧ boName line r = .ok (name, r') ∧
    readWord r' = some (dlcTok, r'')

/-- Both words denote numbers in range. -/
def InRange (idTok dlcTok : List Char) (id dlc : ℤ) : Prop :=
  cInt idTok = some id ∧ cInt dlcTok = some dlc ∧ 0 ≤ id ∧ id < 2 ^ 32 ∧ 0 ≤ dlc ∧
    dlc ≤ busMaxPayload

/-- A line with these words is accepted only if they denote numbers in range, which are then
stored; no text with another such line is accepted. -/
structure ExactNumerals [Zero D] [One D] (stod : List Char → Option (D × ℕ))
    (line idTok dlcTok : List Char) : Prop where
  stored : ∀ m : DbcMessage D, parseBo line = .ok m → ∃ id dlc, InRange idTok dlcTok id dlc ∧
    (m.id.toNat : ℤ) = id ∧ (m.dlc.toNat : ℤ) = dlc
  rejected : (∀ id dlc, ¬ InRange idTok dlcTok id dlc) → ∀ text, ∀ l ∈ getlines text,
    trim l = line → "BO_ ".toList.isPrefixOf line → (parse stod text).error ≠ none

section Numerals

variable {line idTok dlcTok : List Char} {id dlc : ℤ}

/-- What an accepted line says of its words. -/
lemma numerals_of_parseBo {m : DbcMessage D} (htok : BoTokens line idTok dlcTok)
    (hm : parseBo line = .ok m) : ∃ id dlc, cInt idTok = some id ∧ cInt dlcTok = some dlc ∧
      |id| < 2 ^ 64 ∧ |dlc| < 2 ^ 64 ∧ dlc % 2 ^ 32 ≤ busMaxPayload ∧
      (m.id.toNat : ℤ) = id % 2 ^ 32 ∧ (m.dlc.toNat : ℤ) = dlc % 2 ^ 32 := by
  obtain ⟨name, r, r', r'', hid, hname, hdlc⟩ := htok
  obtain ⟨idTok', q, name', q', dlcTok', q'', u, d, hid', hname', hdlc', hu, hd, rfl⟩ :=
    parseBo_eq_ok_iff.mp hm
  cases hid.symm.trans hid'
  cases hname.symm.trans hname'
  cases hdlc.symm.trans hdlc'
  obtain ⟨v, hv, hle, rfl⟩ := boDlc_eq_ok_iff.mp hd
  obtain ⟨id, hidInt, hidlt, hidmod⟩ := (parseU32_eq_some_iff (readWord_isWord hid).head).mp hu
  obtain ⟨dlc, hdlcInt, hdlclt, hdlcmod⟩ :=
    (parseU32_eq_some_iff (readWord_isWord hdlc).head).mp hv
  have hle' : (v.toNat : ℤ) ≤ busMaxPayload := by exact_mod_cast hle
  refine ⟨id, dlc, hidInt, hdlcInt, hidlt, hdlclt, hdlcmod ▸ hle', hidmod, ?_⟩
  rw [← hdlcmod, UInt32.toNat_toUInt8]
  rw [busMaxPayload] at hle
  omega

lemma parseBo_of_numerals (D : Type) (htok : BoTokens line idTok dlcTok)
    (hid : cInt idTok = some id) (hdlc : cInt dlcTok = some dlc) (hidlt : |id| < 2 ^ 64)
    (hdlclt : |dlc| < 2 ^ 64) (hle : dlc % 2 ^ 32 ≤ busMaxPayload) :
    ∃ m : DbcMessage D, parseBo line = .ok m := by
  obtain ⟨name, r, r', r'', hidTok, hname, hdlcTok⟩ := htok
  have hlow : ∀ z : ℤ, ((UInt32.ofNat (z % 2 ^ 32).toNat).toNat : ℤ) = z % 2 ^ 32 := by
    intro z
    rw [UInt32.toNat_ofNat']
    omega
  have hu := (parseU32_eq_some_iff (readWord_isWord hidTok).head).mpr ⟨id, hid, hidlt, hlow id⟩
  have hv := (parseU32_eq_some_iff (readWord_isWord hdlcTok).head).mpr
    ⟨dlc, hdlc, hdlclt, hlow dlc⟩
  have hle' : (UInt32.ofNat (dlc % 2 ^ 32).toNat).toNat ≤ busMaxPayload := by
    have := (hlow dlc).trans_le hle
    exact_mod_cast this
  exact ⟨_, parseBo_eq_ok_iff.mpr ⟨_, _, _, _, _, _, _, _, hidTok, hname, hdlcTok, hu,
    boDlc_eq_ok_iff.mpr ⟨_, hv, hle', rfl⟩, rfl⟩⟩

/-- The wrong numerals that are accepted are integers of 64 bits, outside 32 bits, that are in range
modulo `2 ^ 32`. -/
theorem exactNumerals_iff [Zero D] [One D] (htok : BoTokens line idTok dlcTok) :
    ExactNumerals stod line idTok dlcTok ↔
      ∀ id dlc, cInt idTok = some id → cInt dlcTok = some dlc → |id| < 2 ^ 64 → |dlc| < 2 ^ 64 →
        dlc % 2 ^ 32 ≤ busMaxPayload → (0 ≤ id ∧ id < 2 ^ 32) ∧ 0 ≤ dlc ∧ dlc < 2 ^ 32 := by
  constructor
  · intro h id dlc hid hdlc hidlt hdlclt hle
    obtain ⟨m, hm⟩ := parseBo_of_numerals D htok hid hdlc hidlt hdlclt hle
    obtain ⟨id', dlc', ⟨hid', hdlc', hpos, hlt, hpos', hle'⟩, -⟩ := h.stored m hm
    cases hid.symm.trans hid'
    cases hdlc.symm.trans hdlc'
    rw [busMaxPayload] at hle'
    exact ⟨⟨hpos, hlt⟩, hpos', by omega⟩
  · intro h
    have hstored : ∀ m : DbcMessage D, parseBo line = .ok m → ∃ id dlc,
        InRange idTok dlcTok id dlc ∧ (m.id.toNat : ℤ) = id ∧ (m.dlc.toNat : ℤ) = dlc := by
      intro m hm
      obtain ⟨id, dlc, hid, hdlc, hidlt, hdlclt, hle, hidmod, hdlcmod⟩ :=
        numerals_of_parseBo htok hm
      obtain ⟨⟨hpos, hlt⟩, hpos', hlt'⟩ := h id dlc hid hdlc hidlt hdlclt hle
      rw [Int.emod_eq_of_lt hpos hlt] at hidmod
      rw [Int.emod_eq_of_lt hpos' hlt'] at hle hdlcmod
      exact ⟨id, dlc, ⟨hid, hdlc, hpos, hlt, hpos', hle⟩, hidmod, hdlcmod⟩
    refine ⟨hstored, ?_⟩
    intro hnone text l hl htrim hbo hok
    obtain ⟨m, hm⟩ := parseBo_of_parse hok hl (htrim ▸ hbo)
    obtain ⟨id, dlc, hin, -⟩ := hstored m (htrim ▸ hm)
    exact hnone id dlc hin

end Numerals

/-- Hexadecimal and decimal words in range. -/
theorem exactNumerals_hex :
    ExactNumerals DbcRender.stodInteger "BO_ 0x123 Engine: 8 ECU".toList "0x123".toList ['8'] := by
  refine (exactNumerals_iff ⟨"Engine".toList, " Engine: 8 ECU".toList, " 8 ECU".toList,
    " ECU".toList, by decide, by rfl, by decide⟩).mpr ?_
  have hid : cInt "0x123".toList = some 291 := by
    simp [cInt, cNat, unsigned, hasSign, splitBase, valueOf, digitVal, Nat.ofDigits_cons]
  have hdlc : cInt ['8'] = some 8 := by
    simp [cInt, cNat, unsigned, hasSign, splitBase, valueOf, digitVal, Nat.ofDigits_cons]
  rw [hid, hdlc]
  rintro _ _ ⟨⟩ ⟨⟩ - - -
  decide

/-- The identifier `-1` is stored as `0xFFFFFFFF`, and `2 ^ 32 + 1` as 1. -/
theorem wrong_numerals_accepted :
    (∃ m : DbcMessage ℤ, parseBo "BO_ -1 Engine: 8".toList = .ok m ∧ m.id = 0xFFFFFFFF) ∧
      ∃ m : DbcMessage ℤ, parseBo "BO_ 4294967297 Engine: 8".toList = .ok m ∧ m.id = 1 :=
  ⟨⟨_, rfl, rfl⟩, ⟨_, rfl, rfl⟩⟩

/-! ### Signals -/

/-- The integer that is written: digits are a decimal number, other tokens are read as in C. -/
def written (tok : List Char) : Option ℤ :=
  if IsNumeral tok then some (valueOf 10 tok) else cInt tok

/-- The token is the same number in C as it is written, and not above the bound. -/
def Survives (tok : List Char) (bound : ℤ) : Prop :=
  ∃ z, written tok = some z ∧ cInt tok = some z ∧ 0 ≤ z ∧ z ≤ bound

/-- What stands before and after the bar of the geometry word. -/
def GeometryTokens (line start len : List Char) : Prop :=
  ∃ name r tail r', sgName line = .ok (name, r) ∧
    readWord r = some (start ++ '|' :: (len ++ '@' :: tail), r') ∧ '|' ∉ start ∧ '@' ∉ start ∧
    '@' ∉ len

/-- The signal has the start bit and the length that are written. -/
def KeepsGeometry (s : Signal D) (start len : List Char) : Prop :=
  written start = some (s.startBit.toNat : ℤ) ∧ written len = some (s.length.toNat : ℤ)

/-- Without a sign, reading a numeral as octal does not make it larger. -/
lemma written_of_cInt {tok : List Char} {z : ℤ} (h : cInt tok = some z) :
    ∃ w, written tok = some w ∧ (w = z ∨ 0 ≤ z ∧ z ≤ w) := by
  rw [written]
  split_ifs with hnum
  · rw [hnum.cInt_eq h]
    have hle : (valueOf (baseOf tok) tok : ℤ) ≤ valueOf 10 tok := by
      exact_mod_cast valueOf_baseOf_le tok
    exact ⟨_, rfl, Or.inr ⟨Int.natCast_nonneg _, hle⟩⟩
  · exact ⟨z, h, Or.inl rfl⟩

lemma written_start_iff {tok : List Char} {u : UInt32} (htok : ∀ c ∈ tok.head?, isSpace c = false)
    (h : parseU32 tok = some u) :
    written tok = some ((u &&& 0xFF).toUInt8.toNat : ℤ) ↔ Survives tok 255 := by
  obtain ⟨z, hz, -, hu⟩ := (parseU32_eq_some_iff htok).mp h
  obtain ⟨w, hw, hcase⟩ := written_of_cInt hz
  simp only [Survives, hw, hz, Option.some.injEq, toNat_lowByte_eq]
  constructor
  · rintro rfl
    refine ⟨_, rfl, ?_⟩
    omega
  · rintro ⟨_, rfl, rfl, hpos, hle⟩
    omega

lemma written_length_iff {tok : List Char} {u : UInt32} (htok : ∀ c ∈ tok.head?, isSpace c = false)
    (h : parseU32 tok = some u) :
    written tok = some ((if 64 < u then 64 else u.toUInt8).toNat : ℤ) ↔ Survives tok 64 := by
  obtain ⟨z, hz, -, hu⟩ := (parseU32_eq_some_iff htok).mp h
  obtain ⟨w, hw, hcase⟩ := written_of_cInt hz
  simp only [Survives, hw, hz, Option.some.injEq, toNat_clamp_eq]
  constructor
  · rintro rfl
    refine ⟨_, rfl, ?_⟩
    omega
  · rintro ⟨_, rfl, rfl, hpos, hle⟩
    omega

/-- The geometry word of an accepted line. -/
lemma keeps_iff_survives {line start len : List Char} {s : Signal D} [Zero D] [One D]
    (h : parseSg stod line = .ok s) (htok : GeometryTokens line start len) :
    KeepsGeometry s start len ↔ Survives start 255 ∧ Survives len 64 := by
  obtain ⟨name, r, tail, r', hname, hgeom, hbar, hat, hat'⟩ := htok
  obtain ⟨name', q, geom, q', startBit, length, little, signed, phys, q'', factor, offset, hname',
    hgeom', hgeo, -, -, rfl⟩ := parseSg_eq_ok_iff.mp h
  cases hname.symm.trans hname'
  cases hgeom.symm.trans hgeom'
  obtain ⟨start', len', order, sign, tail', u, v, hword, hbar', hstart', hlen', hu, hv, rfl, rfl,
    -, -⟩ := sgGeometry_eq_ok_iff.mp hgeo
  obtain ⟨rfl, hrest⟩ := split_unique hbar hbar' hword
  obtain ⟨rfl, -⟩ := split_unique hat' hlen' hrest
  have hspace := (readWord_isWord hgeom).isSpace
  rw [List.forall_mem_append, List.forall_mem_cons, List.forall_mem_append] at hspace
  exact and_congr
    (written_start_iff (fun c hc => hspace.1 c (List.mem_of_mem_head? hc)) hu)
    (written_length_iff (fun c hc => hspace.2.2.1 c (List.mem_of_mem_head? hc)) hv)

/-- Every accepted signal keeps its geometry exactly if both numerals survive, and so does every
signal of a well-formed line, which is accepted. -/
theorem keepsGeometry_iff [Zero D] [One D] (stod : List Char → Option (D × ℕ)) :
    (∀ text, (parse stod text).error = none → ∀ line ∈ getlines text,
      "SG_ ".toList.isPrefixOf (trim line) → ∀ start len, GeometryTokens (trim line) start len →
        ∃ s, parseSg stod (trim line) = .ok s ∧ Stored s (parse stod text).messages ∧
          (KeepsGeometry s start len ↔ Survives start 255 ∧ Survives len 64)) ∧
    ∀ f : SgForm stod, f.glued = false ∨ f.mux = none → ∃ s, parseSg stod f.line = .ok s ∧
      (KeepsGeometry s f.start.tok f.length.tok ↔
        Survives f.start.tok 255 ∧ Survives f.length.tok 64) := by
  constructor
  · intro text hok line hline hsg start len htok
    obtain ⟨s, hs, hstored⟩ := stored_of_parse hok hline hsg
    exact ⟨s, hs, hstored, keeps_iff_survives hs htok⟩
  · intro f hcolon
    have htok : GeometryTokens f.line f.start.tok f.length.tok :=
      ⟨_, _, [if f.littleEndian then '0' else '1', if f.isSigned then '-' else '+'], _,
        f.sgName_line hcolon, f.readWord_numbers, f.start.not_mem (by decide),
        f.start.not_mem (by decide), f.length.not_mem (by decide)⟩
    exact ⟨_, f.parseSg_line hcolon, keeps_iff_survives (f.parseSg_line hcolon) htok⟩

/-- One message with a signal of sixteen bits from bit 8 on. -/
def wordText : List Char := "BO_ 1 M: 8\nSG_ S : 8|16@1+ (1,0)".toList

theorem keepsGeometry_wordText :
    ∃ s, parseSg DbcRender.stodInteger "SG_ S : 8|16@1+ (1,0)".toList = .ok s ∧
      Stored s (parse DbcRender.stodInteger wordText).messages ∧
      KeepsGeometry s ['8'] ['1', '6'] := by
  obtain ⟨s, hs, hstored, hiff⟩ := (keepsGeometry_iff DbcRender.stodInteger).1 wordText rfl
    "SG_ S : 8|16@1+ (1,0)".toList (by decide) rfl ['8'] ['1', '6']
    ⟨['S'], " 8|16@1+ (1,0)".toList, "1+".toList, " (1,0)".toList, by rfl, by decide, by decide,
      by decide, by decide⟩
  refine ⟨s, hs, hstored, hiff.mpr ⟨⟨8, ?_, ?_, by decide, by decide⟩, ⟨16, ?_, ?_, by decide,
    by decide⟩⟩⟩
  all_goals
    simp [written, IsNumeral, cInt, cNat, unsigned, hasSign, splitBase, valueOf, digitVal,
      Nat.ofDigits_cons]

/-- A start bit of 256 is stored as 0, though the signal lies inside a message of 64 bytes. -/
theorem start_bit_cut :
    ∃ s, parseSg DbcRender.stodInteger
      "SG_ Speed : 256|8@1+ (1,0) [0|255] \"km/h\" ECU".toList = .ok s ∧ s.startBit = 0 :=
  ⟨_, rfl, rfl⟩

end DbcParser

end BusTestPlatform

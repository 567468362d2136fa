import BusTestPlatform.Software.DbcShape

/-!
# The canonical text of a database

A database written in the notation of the parser is read back as it is, whatever the names, markers,
numerals and units are, and whatever other lines stand between its lines.
-/

namespace BusTestPlatform

open Text DbcParser

/-! ### The text -/

namespace DbcRender

/-- A mux marker. -/
inductive Mux
  | multiplexor
  | multiplexed (n : ℕ)

def Mux.text : Mux → List Char
  | multiplexor => ['M']
  | multiplexed n => 'm' :: decimal n

/-- A signal as it is written: the marker and the receivers, which are not kept, and the numerals of
its numbers. -/
structure SgText (D : Type) where
  signal : Signal D
  mux : Option Mux
  factor : List Char
  offset : List Char
  minValue : List Char
  maxValue : List Char
  receivers : List Char

/-- A message as it is written. No transmitter is an empty `tx_node`. -/
structure BoText (D : Type) where
  id : UInt32
  name : List Char
  dlc : UInt8
  txNode : List Char
  signals : List (SgText D)

variable {D : Type}

/-- The message of the text. -/
def BoText.message (m : BoText D) : DbcMessage D where
  id := m.id
  name := m.name
  dlc := m.dlc
  txNode := m.txNode
  signals := m.signals.map SgText.signal

/-- The message when its line has been read. -/
def BoText.opened (m : BoText D) : DbcMessage D where
  id := m.id
  name := m.name
  dlc := m.dlc
  txNode := m.txNode
  signals := []

/-- `BO_ <id> <name>: <dlc> [<tx>]`. -/
def BoText.line (m : BoText D) : List Char :=
  "BO_ ".toList ++ (decimal m.id.toNat ++ ' ' :: ((m.name ++ [':']) ++ ' ' ::
    (decimal m.dlc.toNat ++ if m.txNode = [] then [] else ' ' :: m.txNode)))

namespace SgText

variable (s : SgText D)

/-- `<start>|<len>@<order><sign>`, with the order as the parser reads it. -/
def geometry : List Char :=
  decimal s.signal.startBit.toNat ++ '|' :: (decimal s.signal.length.toNat ++
    ['@', if s.signal.littleEndian then '0' else '1', if s.signal.isSigned then '-' else '+'])

/-- `(<f>,<o>)`. -/
def scale : List Char := '(' :: (s.factor ++ ',' :: (s.offset ++ [')']))

/-- `[<min>|<max>]`. -/
def range : List Char := '[' :: (s.minValue ++ '|' :: (s.maxValue ++ [']']))

/-- The part of the line between the name and the geometry. -/
def marker : List Char :=
  match s.mux with
  | none => ':' :: [' ']
  | some x => x.text ++ ' ' :: ':' :: [' ']

/-- The line from the geometry on, up to the text after the unit. -/
def numbers (tail : List Char) : List Char :=
  s.geometry ++ ' ' :: (s.scale ++ ' ' :: (s.range ++ ' ' :: '"' :: (s.signal.unit ++ '"' :: tail)))

/-- `SG_ <name> [mux] : <geometry> <scale> <range> "<unit>"` and what follows the unit. -/
def statement (tail : List Char) : List Char :=
  "SG_ ".toList ++ (s.signal.name ++ ' ' :: (s.marker ++ s.numbers tail))

/-- The line, with its receivers. -/
def line : List Char := ' ' :: s.statement (' ' :: s.receivers)

end SgText

/-- The lines of the database. -/
def lines (ms : List (BoText D)) : List (List Char) :=
  ms.flatMap fun m => m.line :: m.signals.map SgText.line

/-! ### What can be written -/

/-- A name: one word that does not end in a colon. -/
structure IsName (name : List Char) : Prop where
  ne : name ≠ []
  isSpace : ∀ c ∈ name, isSpace c = false
  getLast : name.getLast? ≠ some ':'

/-- `tok` is the numeral of `v`: one word without the delimiters of the line, read as `v`. -/
structure Denotes (stod : List Char → Option (D × ℕ)) (tok : List Char) (v : D) : Prop where
  ne : tok ≠ []
  isSpace : ∀ c ∈ tok, isSpace c = false
  delimiters : ∀ c ∈ [',', ')', '|', ']'], c ∉ tok
  value : stod tok = some (v, tok.length)

structure SgText.WellFormed (stod : List Char → Option (D × ℕ)) (s : SgText D) : Prop where
  name : IsName s.signal.name
  length_pos : 1 ≤ s.signal.length.toNat
  length_le : s.signal.length.toNat ≤ 64
  factor : Denotes stod s.factor s.signal.factor
  offset : Denotes stod s.offset s.signal.offset
  minValue : Denotes stod s.minValue s.signal.minValue
  maxValue : Denotes stod s.maxValue s.signal.maxValue
  unit : '"' ∉ s.signal.unit ∧ '\n' ∉ s.signal.unit
  receivers : '\n' ∉ s.receivers

structure BoText.WellFormed (stod : List Char → Option (D × ℕ)) (m : BoText D) : Prop where
  name : IsName m.name
  dlc : m.dlc.toNat ≤ busMaxPayload
  txNode : ∀ c ∈ m.txNode, isSpace c = false
  signals : ∀ s ∈ m.signals, s.WellFormed stod

/-! ### Tokens -/

lemma IsName.isWord {x : List Char} (h : IsName x) : IsWord x := ⟨h.ne, h.isSpace⟩

lemma isSpace_decimal (n : ℕ) : ∀ c ∈ decimal n, isSpace c = false :=
  fun c hc => isSpace_of_digit ((isNumeral_decimal n).2 c hc)

lemma parseU32_decimal {n : ℕ} (h : n < 2 ^ 64) : parseU32 (decimal n) = some (UInt32.ofNat n) := by
  rw [parseU32, stoul_decimal h]
  exact if_pos rfl

lemma Denotes.parseDouble_eq {stod : List Char → Option (D × ℕ)} {tok : List Char} {v : D}
    (h : Denotes stod tok v) : parseDouble stod tok = some v := by
  rw [parseDouble, if_neg h.ne, h.value]
  exact if_pos rfl

/-! ### Trimming -/

/-- One space in front goes, and what is blank after the last `c`. -/
lemma trim_spaced {a t : List Char} {d c : Char} (hd : isBlank d = false) (hc : isBlank c = false)
    (hhead : (a ++ c :: t).head? = some d := by rfl) :
    trim (' ' :: (a ++ c :: t)) = a ++ c :: t.rdropWhile isBlank := by
  have hskip : (' ' :: (a ++ c :: t)).dropWhile isBlank = a ++ c :: t := by
    rw [List.dropWhile_cons_of_pos (by rfl)]
    obtain ⟨x, hx⟩ := List.head?_eq_some_iff.mp hhead
    rw [hx, List.dropWhile_cons_of_neg (by simp [hd])]
  rw [trim, hskip, rdropWhile_append_cons hc]

lemma isBlank_of_isSpace {c : Char} (h : isSpace c = false) : isBlank c = false := by
  simp only [isSpace, Bool.or_eq_false_iff] at h
  simp [isBlank, h]

/-- A line from a keyword to a word has nothing to trim. -/
lemma trim_of_ends {a w : List Char} {d : Char} (hd : isBlank d = false)
    (hhead : a.head? = some d) (hw : w ≠ []) (hword : ∀ c ∈ w, isSpace c = false) :
    trim (a ++ w) = a ++ w := by
  obtain ⟨x, rfl⟩ := List.head?_eq_some_iff.mp hhead
  have hlast : isBlank (w.getLast hw) = false :=
    isBlank_of_isSpace (hword _ (List.getLast_mem hw))
  rw [trim, List.cons_append, List.dropWhile_cons_of_neg (by simp [hd]), ← List.cons_append,
    ← List.dropLast_append_getLast hw, ← List.append_assoc, rdropWhile_append_cons hlast,
    List.rdropWhile_nil]

/-! ### `BO_` lines -/

lemma boName_glued {line name r : List Char} (h : IsName name)
    (hr : ∀ c ∈ r.head?, isSpace c = true) :
    boName line (' ' :: ((name ++ [':']) ++ r)) = .ok (name, r) := by
  have hword : IsWord (name ++ [':']) := h.isWord.concat rfl
  exact boName_eq_ok_iff.mpr (Or.inl (readWord_spaced hword.ne hword.isSpace hr))

lemma boDlc_decimal {dlc : UInt8} (h : dlc.toNat ≤ busMaxPayload) :
    boDlc (decimal dlc.toNat) = .ok dlc := by
  have hval : (UInt32.ofNat dlc.toNat).toNat = dlc.toNat :=
    UInt32.toNat_ofNat_of_lt' (dlc.toNat_lt.trans (by decide))
  rw [boDlc, parseU32_decimal (dlc.toNat_lt.trans (by decide))]
  simp only [hval]
  rw [if_neg (Nat.not_lt.mpr h)]
  refine congrArg Except.ok (UInt8.toNat_inj.mp ?_)
  rw [UInt32.toNat_toUInt8, hval, Nat.mod_eq_of_lt dlc.toNat_lt]

lemma parseBo_line {stod : List Char → Option (D × ℕ)} {m : BoText D} (h : m.WellFormed stod) :
    parseBo m.line = .ok m.opened := by
  have hid : readWord (m.line.drop 4) = some (decimal m.id.toNat, ' ' :: ((m.name ++ [':']) ++
      ' ' :: (decimal m.dlc.toNat ++ if m.txNode = [] then [] else ' ' :: m.txNode))) :=
    readWord_append (b := []) (by simp) (isNumeral_decimal _).1 (isSpace_decimal _)
      (by simp [isSpace])
  have hdlc : readWord (' ' :: (decimal m.dlc.toNat ++
      if m.txNode = [] then [] else ' ' :: m.txNode)) = some (decimal m.dlc.toNat,
        if m.txNode = [] then [] else ' ' :: m.txNode) := by
    refine readWord_spaced (isNumeral_decimal _).1 (isSpace_decimal _) fun c hc => ?_
    split_ifs at hc
    · simp at hc
    · obtain rfl : ' ' = c := by simpa using hc
      rfl
  have hparse : parseU32 (decimal m.id.toNat) = some m.id := by
    rw [parseU32_decimal (m.id.toNat_lt.trans (by decide)), UInt32.ofNat_toNat]
  refine parseBo_eq_ok_iff.mpr ⟨_, _, _, _, _, _, _, _, hid,
    boName_glued h.name (by simp [isSpace]), hdlc, hparse, boDlc_decimal h.dlc, ?_⟩
  by_cases htx : m.txNode = []
  · rw [if_pos htx]
    simp [readWord, BoText.opened, htx]
  · have hread : readWord (' ' :: m.txNode) = some (m.txNode, []) := by
      have := readWord_spaced (r := []) htx h.txNode (by simp)
      rwa [List.append_nil] at this
    rw [if_neg htx, hread]
    rfl

/-! ### `SG_` lines -/

lemma find_cons_of_ne {c d : Char} {s : List Char} (h : d ≠ c) :
    find c (d :: s) = (find c s).map (· + 1) := by
  have hd : (d == c) = false := by simpa using h
  simp [find, List.idxOf?_cons, hd]

/-- Two numerals in brackets: where the closing one is, and what is inside. -/
lemma find_close (o sep c : Char) {a b : List Char} (ho : o ≠ c) (hsep : sep ≠ c) (ha : c ∉ a)
    (hb : c ∉ b) :
    find c (o :: (a ++ sep :: (b ++ [c]))) = some (a.length + (b.length + 1) + 1) ∧
      (a ++ sep :: (b ++ [c])).take (a.length + (b.length + 1)) = a ++ sep :: b := by
  have hsplit : a ++ sep :: (b ++ [c]) = (a ++ sep :: b) ++ c :: [] := by simp
  have hmem : c ∉ a ++ sep :: b := by simp [ha, hb, hsep.symm]
  have hlen : a.length + (b.length + 1) = (a ++ sep :: b).length := by simp
  rw [hsplit, find_cons_of_ne ho, find_append_cons hmem, hlen, List.take_left]
  exact ⟨rfl, rfl⟩

section Signal

variable {stod : List Char → Option (D × ℕ)} {s : SgText D}

lemma sgName_statement (h : IsName s.signal.name) (tail : List Char) :
    sgName (s.statement tail) = .ok (s.signal.name, ' ' :: s.numbers tail) := by
  have hname : readWord ((s.statement tail).drop 4) =
      some (s.signal.name, ' ' :: (s.marker ++ s.numbers tail)) :=
    readWord_append (b := []) (by simp) h.ne h.isSpace (by simp [isSpace])
  have hcolon : readWord (' ' :: ([':'] ++ ' ' :: s.numbers tail)) =
      some ([':'], ' ' :: s.numbers tail) :=
    readWord_spaced (by simp) (by simp [isSpace]) (by simp [isSpace])
  refine sgName_eq_ok_iff.mpr (Or.inr ⟨h.getLast, _, hname, ?_⟩)
  cases hmux : s.mux with
  | none =>
    have hmarker : s.marker ++ s.numbers tail = [':'] ++ ' ' :: s.numbers tail := by
      simp [SgText.marker, hmux]
    rw [hmarker]
    exact Or.inl hcolon
  | some x =>
    have hmarker : s.marker ++ s.numbers tail =
        x.text ++ ' ' :: ([':'] ++ ' ' :: s.numbers tail) := by
      simp [SgText.marker, hmux]
    have htext : IsWord x.text ∧ (x.text = ['M'] ∨ x.text.head? = some 'm') := by
      cases x with
      | multiplexor => exact ⟨⟨by simp [Mux.text], by simp [Mux.text, isSpace]⟩, Or.inl rfl⟩
      | multiplexed n =>
        have hdecimal := isSpace_decimal n
        exact ⟨⟨by simp [Mux.text], List.forall_mem_cons.mpr ⟨rfl, hdecimal⟩⟩, Or.inr rfl⟩
    obtain ⟨hword, hmark⟩ := htext
    rw [hmarker]
    exact Or.inr ⟨_, _, readWord_spaced hword.ne hword.isSpace (by simp [isSpace]), hmark, hcolon⟩

lemma sgGeometry_geometry (hlen : s.signal.length.toNat ≤ 64) : sgGeometry s.geometry =
    .ok (s.signal.startBit, s.signal.length, s.signal.littleEndian, s.signal.isSigned) := by
  have hbig : ∀ b : UInt8, b.toNat < 2 ^ 64 := fun b => b.toNat_lt.trans (by decide)
  have hstart : (UInt32.ofNat s.signal.startBit.toNat &&& 0xFF).toUInt8 = s.signal.startBit := by
    apply UInt8.toNat_inj.mp
    rw [toNat_lowByte, Nat.mod_eq_of_lt s.signal.startBit.toNat_lt]
  have hlength : (if 64 < UInt32.ofNat s.signal.length.toNat then 64
      else (UInt32.ofNat s.signal.length.toNat).toUInt8) = s.signal.length :=
    UInt8.toNat_inj.mp (toNat_clamp hlen)
  rw [SgText.geometry, sgGeometry_eq (isNumeral_decimal _) (isNumeral_decimal _),
    parseU32_decimal (hbig _), parseU32_decimal (hbig _)]
  simp only [hstart, hlength]
  cases s.signal.littleEndian <;> cases s.signal.isSigned <;> rfl

lemma sgFactor_brackets {a b : List Char} {f o : D} (ha : Denotes stod a f)
    (hb : Denotes stod b o) : sgFactor stod ('(' :: (a ++ ',' :: (b ++ [')']))) = .ok (f, o) := by
  exact sgFactor_eq_ok_iff.mpr ⟨[], a, b, [], rfl, by simp, by simp, ha.delimiters _ (by simp),
    ha.delimiters _ (by simp), hb.delimiters _ (by simp), ha.parseDouble_eq, hb.parseDouble_eq⟩

lemma sgRange_brackets {a b : List Char} {v v' : D} (ha : Denotes stod a v)
    (hb : Denotes stod b v') : sgRange stod ('[' :: (a ++ '|' :: (b ++ [']']))) = some (v, v') := by
  obtain ⟨hclose, hinner⟩ := find_close '[' '|' ']' (by decide) (by decide)
    (ha.delimiters _ (by simp)) (hb.delimiters _ (by simp))
  have hbar : find '|' (a ++ '|' :: b) = some a.length :=
    find_append_cons (ha.delimiters _ (by simp))
  rw [sgRange, hclose]
  simp [guard, hinner, hbar, ha.parseDouble_eq, hb.parseDouble_eq]

/-- After the opening and the closing quote the rest of the line does not matter. -/
lemma sgUnit_quoted {unit tail : List Char} (hquote : '"' ∉ unit) (hunit : '\n' ∉ unit)
    (htail : '\n' ∉ tail) : sgUnit (' ' :: '"' :: (unit ++ '"' :: tail)) = unit := by
  have hline : '\n' ∉ ' ' :: '"' :: (unit ++ '"' :: tail) := by simp [hunit, htail]
  exact sgUnit_of_quoted hline ⟨hquote, _, trim_spaced (a := '"' :: unit) rfl rfl⟩

lemma isSpace_geometry : ∀ c ∈ s.geometry, isSpace c = false := by
  intro c hc
  simp only [SgText.geometry, List.mem_append, List.mem_cons, List.not_mem_nil, or_false] at hc
  rcases hc with hc | rfl | hc | rfl | rfl | rfl
  · exact isSpace_decimal _ c hc
  · rfl
  · exact isSpace_decimal _ c hc
  · rfl
  · cases s.signal.littleEndian <;> rfl
  · cases s.signal.isSigned <;> rfl

/-- Two numerals in brackets are one word. -/
lemma isSpace_brackets {o sep c : Char} {a b : List Char} {v v' : D} (ho : isSpace o = false)
    (hsep : isSpace sep = false) (hc : isSpace c = false) (ha : Denotes stod a v)
    (hb : Denotes stod b v') : ∀ x ∈ o :: (a ++ sep :: (b ++ [c])), isSpace x = false := by
  intro x hx
  simp only [List.mem_cons, List.mem_append, List.not_mem_nil, or_false] at hx
  rcases hx with rfl | hx | rfl | hx | rfl
  · exact ho
  · exact ha.isSpace x hx
  · exact hsep
  · exact hb.isSpace x hx
  · exact hc

lemma parseSg_statement [Zero D] [One D] (h : s.WellFormed stod) {tail : List Char}
    (htail : '\n' ∉ tail) : parseSg stod (s.statement tail) = .ok s.signal := by
  have hgeometry : readWord (' ' :: s.numbers tail) = some (s.geometry, ' ' :: (s.scale ++ ' ' ::
      (s.range ++ ' ' :: '"' :: (s.signal.unit ++ '"' :: tail)))) :=
    readWord_spaced (by simp [SgText.geometry]) isSpace_geometry (by simp [isSpace])
  have hscale : readWord (' ' :: (s.scale ++ ' ' :: (s.range ++ ' ' :: '"' ::
      (s.signal.unit ++ '"' :: tail)))) = some (s.scale, ' ' :: (s.range ++ ' ' :: '"' ::
        (s.signal.unit ++ '"' :: tail))) :=
    readWord_spaced (by simp [SgText.scale]) (isSpace_brackets rfl rfl rfl h.factor h.offset)
      (by simp [isSpace])
  have hrange : readWord (' ' :: (s.range ++ ' ' :: '"' :: (s.signal.unit ++ '"' :: tail))) =
      some (s.range, ' ' :: '"' :: (s.signal.unit ++ '"' :: tail)) :=
    readWord_spaced (by simp [SgText.range]) (isSpace_brackets rfl rfl rfl h.minValue h.maxValue)
      (by simp [isSpace])
  have hstored : sgRange stod s.range = some (s.signal.minValue, s.signal.maxValue) :=
    sgRange_brackets h.minValue h.maxValue
  refine parseSg_eq_ok_iff.mpr ⟨_, _, _, _, _, _, _, _, _, _, _, _, sgName_statement h.name tail,
    hgeometry, sgGeometry_geometry h.length_le, hscale, sgFactor_brackets h.factor h.offset, ?_⟩
  simp only [hrange, Option.getD_some, hstored, sgUnit_quoted h.unit.1 h.unit.2 htail]

end Signal

/-! ### One line -/

section Lines

variable {stod : List Char → Option (D × ℕ)} {m : BoText D} {s : SgText D}

lemma trim_boLine (h : m.WellFormed stod) : trim m.line = m.line := by
  have hdecimal := isNumeral_decimal m.dlc.toNat
  by_cases htx : m.txNode = []
  · have hline : m.line = ("BO_ ".toList ++ (decimal m.id.toNat ++ ' ' :: ((m.name ++ [':']) ++
        [' ']))) ++ decimal m.dlc.toNat := by simp [BoText.line, htx]
    rw [hline]
    exact trim_of_ends (d := 'B') rfl rfl hdecimal.1 (isSpace_decimal _)
  · have hline : m.line = ("BO_ ".toList ++ (decimal m.id.toNat ++ ' ' :: ((m.name ++ [':']) ++
        ' ' :: (decimal m.dlc.toNat ++ [' '])))) ++ m.txNode := by simp [BoText.line, htx]
    rw [hline]
    exact trim_of_ends (d := 'B') rfl rfl htx h.txNode

lemma trim_sgLine (s : SgText D) :
    trim s.line = s.statement ((' ' :: s.receivers).rdropWhile isBlank) := by
  have hsplit : ∀ tail, s.statement tail = ("SG_ ".toList ++ (s.signal.name ++ ' ' :: (s.marker ++
      (s.geometry ++ ' ' :: (s.scale ++ ' ' :: (s.range ++ ' ' :: '"' :: s.signal.unit)))))) ++
      '"' :: tail := by simp [SgText.statement, SgText.numbers]
  rw [SgText.line, hsplit, hsplit]
  exact trim_spaced (d := 'S') rfl rfl

variable [Zero D] [One D]

lemma parseLine_boLine (h : m.WellFormed stod) (ms : List (DbcMessage D)) :
    parseLine stod ms m.line = .ok (ms ++ [m.opened]) := by
  have hbo : "BO_ ".toList.isPrefixOf m.line = true := rfl
  simp only [parseLine, trim_boLine h]
  rw [if_neg (by simp [BoText.line]), if_pos hbo, parseBo_line h]
  rfl

lemma parseLine_sgLine (h : s.WellFormed stod) (ms : List (DbcMessage D)) (x : DbcMessage D) :
    parseLine stod (ms ++ [x]) s.line = .ok (ms ++ [x.push s.signal]) := by
  have htail : '\n' ∉ (' ' :: s.receivers).rdropWhile isBlank := by
    intro hmem
    have := (List.rdropWhile_prefix isBlank (' ' :: s.receivers)).subset hmem
    simp [h.receivers] at this
  have hsg : "SG_ ".toList.isPrefixOf (s.statement ((' ' :: s.receivers).rdropWhile isBlank)) =
      true := rfl
  simp only [parseLine, trim_sgLine]
  rw [if_neg (by simp [SgText.statement]), if_neg (by simp [SgText.statement]), if_pos hsg,
    addSignal, List.getLast?_concat]
  simp only [parseSg_statement h htail, List.dropLast_concat]
  rfl

/-! ### All lines -/

/-- The signals go to the last message. -/
lemma parseLines_signals {ss : List (SgText D)} (h : ∀ s ∈ ss, s.WellFormed stod)
    (ms : List (DbcMessage D)) (x : DbcMessage D) (ls : List (List Char)) :
    parseLines stod (ms ++ [x]) (ss.map SgText.line ++ ls) =
      parseLines stod (ms ++ [{ x with signals := x.signals ++ ss.map SgText.signal }]) ls := by
  induction ss generalizing x with
  | nil => simp
  | cons s ss ih =>
    rw [List.forall_mem_cons] at h
    rw [List.map_cons, List.cons_append, parseLines, parseLine_sgLine h.1]
    simp only
    rw [ih h.2]
    simp [DbcMessage.push]

lemma parseLines_lines {bs : List (BoText D)} (h : ∀ m ∈ bs, m.WellFormed stod)
    (ms : List (DbcMessage D)) :
    parseLines stod ms (lines bs) = ⟨ms ++ bs.map BoText.message, none⟩ := by
  induction bs generalizing ms with
  | nil => simp [lines, parseLines]
  | cons b bs ih =>
    rw [List.forall_mem_cons] at h
    have hsplit : lines (b :: bs) = b.line :: (b.signals.map SgText.line ++ lines bs) := by
      simp [lines]
    rw [hsplit, parseLines, parseLine_boLine h.1]
    simp only
    rw [parseLines_signals h.1.signals, ih h.2]
    simp [BoText.opened, BoText.message]

omit [Zero D] [One D]

lemma newline_not_mem {w : List Char} (h : ∀ c ∈ w, isSpace c = false) : '\n' ∉ w :=
  fun hmem => absurd (h _ hmem) (by decide)

lemma newline_not_mem_boLine (h : m.WellFormed stod) : '\n' ∉ m.line := by
  have hname := newline_not_mem h.name.isSpace
  have htx := newline_not_mem h.txNode
  have hid := newline_not_mem (isSpace_decimal m.id.toNat)
  have hdlc := newline_not_mem (isSpace_decimal m.dlc.toNat)
  simp only [BoText.line]
  split_ifs <;> simp [hname, htx, hid, hdlc]

lemma newline_not_mem_sgLine (h : s.WellFormed stod) : '\n' ∉ s.line := by
  have hname := newline_not_mem h.name.isSpace
  have hgeometry := newline_not_mem (isSpace_geometry (s := s))
  have hscale : '\n' ∉ s.scale :=
    newline_not_mem (isSpace_brackets rfl rfl rfl h.factor h.offset)
  have hrange : '\n' ∉ s.range :=
    newline_not_mem (isSpace_brackets rfl rfl rfl h.minValue h.maxValue)
  have hmarker : '\n' ∉ s.marker := by
    unfold SgText.marker
    split
    · simp
    · next x _ =>
      cases x with
      | multiplexor => simp [Mux.text]
      | multiplexed n => simp [Mux.text, newline_not_mem (isSpace_decimal n)]
  simp [SgText.line, SgText.statement, SgText.numbers, hname, hgeometry, hscale, hrange, hmarker,
    h.unit.2, h.receivers]

lemma newline_not_mem_lines {bs : List (BoText D)} (h : ∀ m ∈ bs, m.WellFormed stod) :
    ∀ l ∈ lines bs, '\n' ∉ l := by
  intro l hl
  obtain ⟨b, hb, hl⟩ := List.mem_flatMap.mp hl
  rcases List.mem_cons.mp hl with rfl | hl
  · exact newline_not_mem_boLine (h b hb)
  · obtain ⟨s, hs, rfl⟩ := List.mem_map.mp hl
    exact newline_not_mem_sgLine ((h b hb).signals s hs)

end Lines

/-- The parser undoes writing: of any text whose lines that are not passed over are those of the
database, it reads the database. -/
theorem parse_joinLines [Zero D] [One D] {stod : List Char → Option (D × ℕ)}
    {ms : List (BoText D)} {ls : List (List Char)} (hms : ∀ m ∈ ms, m.WellFormed stod)
    (hlines : ls.filter isStatement = lines ms)
    (hother : ∀ l ∈ ls, isStatement l = false → '\n' ∉ l) :
    parse stod (joinLines ls) = ⟨ms.map BoText.message, none⟩ := by
  have hls : ∀ l ∈ ls, '\n' ∉ l := by
    intro l hl
    cases hstatement : isStatement l with
    | false => exact hother l hl hstatement
    | true =>
      have hmem : l ∈ ls.filter isStatement := List.mem_filter.mpr ⟨hl, hstatement⟩
      rw [hlines] at hmem
      exact newline_not_mem_lines hms l hmem
  rw [parse, ← parseLines_filter, getlines_joinLines hls rfl, hlines, parseLines_lines hms,
    List.nil_append]

/-- `std::stod` on unsigned integers. -/
def stodInteger (tok : List Char) : Option (ℤ × ℕ) :=
  let ds := tok.takeWhile (digitVal · < 10)
  if ds = [] then none else some (valueOf 10 ds, ds.length)

/-- A multiplexed signal whose unit looks like a range. -/
def sampleSg : SgText ℤ where
  signal := ⟨"m0".toList, 7, 12, 2, 0, 0, 100, "[0|1] (x)".toList, true, false⟩
  mux := some (.multiplexed 3)
  factor := "2".toList
  offset := "0".toList
  minValue := "0".toList
  maxValue := "100".toList
  receivers := "ECU1,ECU2".toList

def sampleBo : BoText ℤ where
  id := 291
  name := "Engine".toList
  dlc := 8
  txNode := "ECU".toList
  signals := [sampleSg]

lemma denotes_stodInteger {tok : List Char} (h : IsNumeral tok) :
    Denotes stodInteger tok (valueOf 10 tok) where
  ne := h.1
  isSpace c hc := isSpace_of_digit (h.2 c hc)
  delimiters := by simp [h.not_mem, digitVal]
  value := by
    have hall : tok.takeWhile (digitVal · < 10) = tok :=
      List.takeWhile_eq_self_iff.mpr fun c hc => decide_eq_true (h.2 c hc)
    simp only [stodInteger, hall]
    rw [if_neg h.1]

lemma wellFormed_sampleSg : sampleSg.WellFormed stodInteger where
  name := ⟨by simp [sampleSg], by simp [sampleSg, isSpace], by simp [sampleSg]⟩
  length_pos := by decide
  length_le := by decide
  factor := denotes_stodInteger (isNumeral_decimal 2)
  offset := denotes_stodInteger (isNumeral_decimal 0)
  minValue := denotes_stodInteger (isNumeral_decimal 0)
  maxValue := denotes_stodInteger (isNumeral_decimal 100)
  unit := by simp [sampleSg]
  receivers := by simp [sampleSg]

lemma wellFormed_sampleBo : sampleBo.WellFormed stodInteger where
  name := ⟨by simp [sampleBo], by simp [sampleBo, isSpace], by simp [sampleBo]⟩
  dlc := by decide
  txNode := by simp [sampleBo, isSpace]
  signals s hs := by
    rw [List.mem_singleton.mp hs]
    exact wellFormed_sampleSg

theorem parse_joinLines_sample :
    parse stodInteger (joinLines ["VERSION".toList, sampleBo.line, [], "// x".toList,
      sampleSg.line]) = ⟨[sampleBo.message], none⟩ := by
  have hms : ∀ m ∈ [sampleBo], m.WellFormed stodInteger :=
    fun m hm => List.mem_singleton.mp hm ▸ wellFormed_sampleBo
  refine parse_joinLines hms ?_ ?_
  · rfl
  · decide

end DbcRender

end BusTestPlatform

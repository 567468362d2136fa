import BusTestPlatform.Lib.Strings
import BusTestPlatform.Software.DbcRender
import BusTestPlatform.Software.DbcShape

/-!
# Reading a text is safe

The parser once more, with the members of `std::string` that the source calls and with the sums and
differences of positions that it forms. On any text it does what the parser does, so it asks for
nothing outside of a string and nothing is thrown.
-/

namespace BusTestPlatform

open Text Guarded

namespace DbcParser

variable {D : Type} (stod : List Char → Option (D × ℕ))

/-! ### The parts of a line -/

/-- `trim`. -/
def trimChecked (s : List Char) : Option (List Char) :=
  match findFirstNot isBlank s with
  | none => some []
  | some b => do
    let e ← findLastNot isBlank s
    substr s b (← sizeAdd (← sizeSub e b) 1)

/-- The name of a message, with a colon glued to it or after it. -/
def boNameChecked (line r : List Char) : Guarded (List Char) (List Char × List Char) := do
  let malformed := "malformed BO_ line: ".toList ++ line
  let (nameTok, r) ← inside (word r malformed)
  if ← endsIn ':' nameTok then return (← popBack nameTok, r)
  else
    let (colonTok, r) ← inside (word r malformed)
    if colonTok = [':'] then return (nameTok, r) else throw malformed

/-- `parse_bo`. -/
def parseBoChecked (line : List Char) : Guarded (List Char) (DbcMessage D) := do
  let malformed := "malformed BO_ line: ".toList ++ line
  let (idTok, r) ← inside (word (← substrFrom line 4) malformed)
  let (name, r) ← boNameChecked line r
  let (dlcTok, r) ← inside (word r malformed)
  let id ← inside (orError ("bad BO_ id: ".toList ++ idTok) (parseU32 idTok))
  let dlc ← inside (boDlc dlcTok)
  let txNode := match readWord r with
    | none => []
    | some (node, _) => node
  return { id, name, dlc, txNode, signals := [] }

/-- The name of a signal, its colon and, in between, a mux marker. -/
def sgNameChecked (line : List Char) : Guarded (List Char) (List Char × List Char) := do
  let (nameTok, r) ← inside (word (← substrFrom line 4) ("malformed SG_ line: ".toList ++ line))
  if ← endsIn ':' nameTok then return (← popBack nameTok, r)
  else
    let (tok, r) ← inside (word r ("SG_ line missing geometry: ".toList ++ line))
    if tok = [':'] then return (nameTok, r)
    else if tok = ['M'] ∨ (← startsIn 'm' tok) = true then
      let badMux := "malformed SG_ mux marker: ".toList ++ line
      let (tok, r) ← inside (word r badMux)
      if tok = [':'] then return (nameTok, r) else throw badMux
    else throw ("unexpected SG_ token: ".toList ++ tok)

/-- `<start>|<len>@<order><sign>`. -/
def sgGeometryChecked (geom : List Char) : Guarded (List Char) (UInt8 × UInt8 × Bool × Bool) :=
  match find '|' geom, find '@' geom with
  | some bar, some atSign =>
    if atSign < bar then throw ("bad SG_ geometry: ".toList ++ geom)
    else do
      let bad := "bad SG_ start/len: ".toList ++ geom
      let start ← inside (orError bad (parseU32 (← substr geom 0 bar)))
      let n ← sizeSub (← sizeSub atSign bar) 1
      let len ← inside (orError bad (parseU32 (← substr geom (← sizeAdd bar 1) n)))
      if geom.length ≤ (← sizeAdd atSign 2) then
        throw ("bad SG_ byte order/sign: ".toList ++ geom)
      else
        let order ← charAt geom (← sizeAdd atSign 1)
        let sign ← charAt geom (← sizeAdd atSign 2)
        return ((start &&& 0xFF).toUInt8, if 64 < len then 64 else len.toUInt8,
          order == '0', sign == '-')
  | _, _ => throw ("bad SG_ geometry: ".toList ++ geom)

/-- `(<factor>,<offset>)`. -/
def sgFactorChecked (phys : List Char) : Guarded (List Char) (D × D) :=
  let bad := "bad SG_ factor/offset: ".toList ++ phys
  match find '(' phys, find ')' phys with
  | some lp, some rp =>
    if rp ≤ lp then throw bad
    else do
      let n ← sizeSub (← sizeSub rp lp) 1
      let inner ← substr phys (← sizeAdd lp 1) n
      match find ',' inner with
      | none => throw bad
      | some comma =>
        let factor ← inside (orError bad (parseDouble stod (← substr inner 0 comma)))
        let rest ← substrFrom inner (← sizeAdd comma 1)
        let offset ← inside (orError bad (parseDouble stod rest))
        return (factor, offset)
  | _, _ => throw bad

/-- `[<min>|<max>]`, when the word is one. -/
def sgRangeChecked (range : List Char) : Option (Option (D × D)) := do
  if ← startsIn '[' range then
    match find ']' range with
    | none => return none
    | some rb =>
      let inner ← substr range 1 (← sizeSub rb 1)
      match find '|' inner with
      | none => return none
      | some bar =>
        match parseDouble stod (← substr inner 0 bar) with
        | none => return none
        | some mn =>
          let mx := parseDouble stod (← substrFrom inner (← sizeAdd bar 1))
          return mx.map fun mx => (mn, mx)
  else return none

/-- `"<unit>"` at the start of what remains of the line. -/
def sgUnitChecked (r : List Char) : Option (List Char) := do
  let rest ← trimChecked (r.takeWhile (· ≠ '\n'))
  if ← startsIn '"' rest then
    match findFrom '"' 1 rest with
    | none => return []
    | some q => substr rest 1 (← sizeSub q 1)
  else return []

lemma trimChecked_eq {s : List Char} (h : s.length < sizeBound) :
    trimChecked s = some (trim s) := by
  by_cases hdrop : s.dropWhile isBlank = []
  · have hall := List.dropWhile_eq_nil_iff.mp hdrop
    simp [trimChecked, findFirstNot_eq_none hall, trim, hdrop]
  · obtain ⟨a, u, b, hs, hu, hne, hfirst, hlast⟩ := exists_stripped hdrop
    have hpos := List.length_pos_iff.mpr hne
    have hsub : substr s a.length u.length = some u := by
      rw [substr_of_le (by simp [hs]), hs, List.drop_left, List.take_left]
    have hlen : u.length - 1 + 1 < sizeBound := by
      refine lt_of_le_of_lt ?_ h
      simp only [hs, List.length_append]
      omega
    simp [trimChecked, hfirst, hlast, sizeAdd_of_lt hlen, Nat.sub_add_cancel hpos, hsub, trim, hu]

lemma boNameChecked_eq (line r : List Char) :
    boNameChecked line r = inside (boName line r) := by
  apply inside_bind
  rintro ⟨nameTok, r'⟩ -
  simp only [endsIn_eq, lift_some, pure_bind, beq_iff_eq]
  split_ifs with hcolon
  · have hne : nameTok ≠ [] := by
      rintro rfl
      cases hcolon
    simp only [popBack_of_ne_nil hne, lift_some, pure_bind]
    rfl
  · apply inside_bind
    rintro ⟨colonTok, r''⟩ -
    split_ifs
    all_goals rfl

lemma parseBoChecked_eq {line : List Char} (h : 4 ≤ line.length) :
    parseBoChecked (D := D) line = inside (parseBo line) := by
  simp only [parseBoChecked, substrFrom_of_le h, lift_some, pure_bind, boNameChecked_eq]
  apply inside_bind
  rintro ⟨idTok, r⟩ -
  apply inside_bind
  rintro ⟨name, r'⟩ -
  apply inside_bind
  rintro ⟨dlcTok, r''⟩ -
  apply inside_bind
  intro id _
  apply inside_bind
  intro dlc _
  rfl

lemma sgNameChecked_eq {line : List Char} (h : 4 ≤ line.length) :
    sgNameChecked line = inside (sgName line) := by
  simp only [sgNameChecked, substrFrom_of_le h, lift_some, pure_bind]
  apply inside_bind
  rintro ⟨nameTok, r⟩ -
  simp only [endsIn_eq, lift_some, pure_bind, beq_iff_eq]
  split_ifs with hcolon
  · have hne : nameTok ≠ [] := by
      rintro rfl
      cases hcolon
    simp only [popBack_of_ne_nil hne, lift_some, pure_bind]
    rfl
  · apply inside_bind
    rintro ⟨tok, r'⟩ -
    simp only [startsIn_eq, lift_some, pure_bind, beq_iff_eq]
    split_ifs
    · rfl
    · apply inside_bind
      rintro ⟨tok', r''⟩ -
      split_ifs
      all_goals rfl
    · rfl

lemma sgGeometryChecked_eq {geom : List Char} (h : geom.length + 1 < sizeBound) :
    sgGeometryChecked geom = inside (sgGeometry geom) := by
  cases hbar : find '|' geom with
  | none => simp [sgGeometryChecked, sgGeometry, hbar]
  | some bar =>
    cases hat : find '@' geom with
    | none => simp [sgGeometryChecked, sgGeometry, hbar, hat]
    | some atSign =>
      have hlt := lt_of_find hat
      have hne := find_ne_find hbar hat (by decide)
      simp only [sgGeometryChecked, sgGeometry, hbar, hat]
      split_ifs with hle
      · rfl
      · simp (disch := omega) only [sizeSub_of_le, sizeAdd_of_lt, substr_of_le, lift_some,
          pure_bind, List.drop_zero]
        cases parseU32 (geom.take bar) with
        | none => rfl
        | some start =>
          cases parseU32 ((geom.drop (bar + 1)).take (atSign - bar - 1)) with
          | none => rfl
          | some len =>
            simp only [orError, inside_ok, pure_bind]
            -- The sign is the last that is read, and the length is compared with its position.
            by_cases hend : geom.length ≤ atSign + 2
            · rw [if_pos hend, List.getElem?_eq_none hend]
              cases geom[atSign + 1]? <;> rfl
            · rw [if_neg hend]
              rw [not_le] at hend
              rw [charAt_of_lt hend, charAt_of_lt (Nat.lt_of_succ_lt hend),
                List.getElem?_eq_getElem hend, List.getElem?_eq_getElem (Nat.lt_of_succ_lt hend)]
              rfl

lemma sgFactorChecked_eq {phys : List Char} (h : phys.length < sizeBound) :
    sgFactorChecked stod phys = inside (sgFactor stod phys) := by
  simp only [sgFactorChecked, sgFactor]
  generalize "bad SG_ factor/offset: ".toList ++ phys = bad
  cases hlp : find '(' phys with
  | none => rfl
  | some lp =>
    cases hrp : find ')' phys with
    | none => rfl
    | some rp =>
      have hlt := lt_of_find hrp
      by_cases hle : rp ≤ lp
      · simp only [if_pos hle, guard, if_neg (not_lt.mpr hle), Option.bind_eq_bind,
          Option.bind_some]
        rfl
      · have hguard : lp < rp := not_le.mp hle
        simp (disch := omega) only [if_neg hle, sizeSub_of_le, sizeAdd_of_lt, substr_of_le,
          lift_some, pure_bind, guard, if_pos hguard, Option.bind_eq_bind, Option.bind_some]
        generalize hinner : (phys.drop (lp + 1)).take (rp - lp - 1) = inner
        have hlen : inner.length < sizeBound := by
          rw [← hinner, List.length_take, List.length_drop]
          omega
        cases hcomma : find ',' inner with
        | none => rfl
        | some comma =>
          have hltc := lt_of_find hcomma
          simp (disch := omega) only [substrFrom_of_le, sizeAdd_of_lt, lift_some, pure_bind,
            List.drop_zero, Option.pure_def, Option.bind_some]
          cases parseDouble stod (inner.take comma) with
          | none => rfl
          | some factor => cases parseDouble stod (inner.drop (comma + 1)) <;> rfl

lemma sgRangeChecked_eq {range : List Char} (h : range.length < sizeBound) :
    sgRangeChecked stod range = some (sgRange stod range) := by
  simp only [sgRangeChecked, sgRange, startsIn_eq, Option.bind_eq_bind, Option.bind_some,
    beq_iff_eq]
  by_cases hopen : range.head? = some '['
  · rw [if_pos hopen]
    cases hrb : find ']' range with
    | none => simp [guard, hopen]
    | some rb =>
      have hlt := lt_of_find hrb
      have hpos := pos_of_find hopen hrb (by decide)
      simp (disch := omega) only [sizeSub_of_le, substr_of_le, Option.bind_some, guard,
        if_pos hopen]
      generalize hinner : (range.drop 1).take (rb - 1) = inner
      have hlen : inner.length < sizeBound := by
        rw [← hinner, List.length_take, List.length_drop]
        omega
      cases hbar : find '|' inner with
      | none => rfl
      | some bar =>
        have hltb := lt_of_find hbar
        simp (disch := omega) only [substrFrom_of_le, sizeAdd_of_lt, Option.bind_some,
          List.drop_zero]
        cases parseDouble stod (inner.take bar) with
        | none => rfl
        | some mn => cases parseDouble stod (inner.drop (bar + 1)) <;> rfl
  · simp [hopen, guard]

lemma sgUnitChecked_eq {r : List Char} (h : r.length < sizeBound) :
    sgUnitChecked r = some (sgUnit r) := by
  have hline : (r.takeWhile (· ≠ '\n')).length < sizeBound :=
    (List.takeWhile_sublist _).length_le.trans_lt h
  simp only [sgUnitChecked, sgUnit, trimChecked_eq hline, startsIn_eq, Option.bind_eq_bind,
    Option.bind_some, beq_iff_eq, findFrom]
  generalize trim (r.takeWhile (· ≠ '\n')) = rest
  split_ifs with hquote
  · cases hq : find '"' (rest.drop 1) with
    | none => rfl
    | some q =>
      have hlt := lt_of_find hq
      rw [List.length_drop] at hlt
      simp (disch := omega) only [Option.map_some, sizeSub_of_le, substr_of_le, Option.bind_some,
        Nat.add_sub_cancel_left]
  · rfl

/-! ### Lines -/

variable [Zero D] [One D]

/-- `parse_sg`. -/
def parseSgChecked (line : List Char) : Guarded (List Char) (Signal D) := do
  let (name, r) ← sgNameChecked line
  let (geom, r) ← inside (word r ("SG_ line missing geometry: ".toList ++ line))
  let (startBit, length, littleEndian, isSigned) ← sgGeometryChecked geom
  let (phys, r) ← inside (word r ("SG_ line missing factor/offset: ".toList ++ line))
  let (factor, offset) ← sgFactorChecked stod phys
  let (range, r) := (readWord r).getD ([], [])
  let minMax ← sgRangeChecked stod range
  let (minValue, maxValue) := minMax.getD (Signal.default.minValue, Signal.default.maxValue)
  let unit ← sgUnitChecked r
  return ⟨name, startBit, length, factor, offset, minValue, maxValue, unit, isSigned, littleEndian⟩

/-- The `SG_` branch, which takes `messages_.back()`. -/
def addSignalChecked (ms : List (DbcMessage D)) (t : List Char) :
    Guarded (List Char) (List (DbcMessage D)) :=
  if ms.isEmpty then throw "SG_ line before any BO_ message".toList
  else do
    let m ← ms.getLast?
    let s ← parseSgChecked stod t
    return ms.dropLast ++ [m.push s]

/-- One round of the loop of `parse`. -/
def parseLineChecked (ms : List (DbcMessage D)) (line : List Char) :
    Guarded (List Char) (List (DbcMessage D)) := do
  let t ← trimChecked line
  if t = [] ∨ "//".toList.isPrefixOf t then return ms
  else if "BO_ ".toList.isPrefixOf t then
    let m ← parseBoChecked t
    return ms ++ [m]
  else if "SG_ ".toList.isPrefixOf t then addSignalChecked stod ms t
  else return ms

/-- The loop of `parse`. -/
def parseLinesChecked (ms : List (DbcMessage D)) : List (List Char) → Option (Parsed D)
  | [] => some ⟨ms, none⟩
  | l :: ls => do
    match ← (parseLineChecked stod ms l).run with
    | .error e => return ⟨ms, some e⟩
    | .ok ms' => parseLinesChecked ms' ls

/-- `parse`. -/
def parseChecked (text : List Char) : Option (Parsed D) := parseLinesChecked stod [] (getlines text)

variable {stod} {ms : List (DbcMessage D)} {line : List Char}

lemma length_of_sgName {name r : List Char} (h : sgName line = .ok (name, r)) :
    r.length ≤ (line.drop 4).length := by
  rcases sgName_eq_ok_iff.mp h with hglued | ⟨-, r₁, hspaced, hcolon | ⟨x, r₂, hx, -, hcolon⟩⟩
  · exact (length_of_readWord hglued).2
  · exact (length_of_readWord hcolon).2.trans (length_of_readWord hspaced).2
  · exact ((length_of_readWord hcolon).2.trans (length_of_readWord hx).2).trans
      (length_of_readWord hspaced).2

/-- No word of the line is longer than the line. -/
lemma parseSgChecked_eq (h : 4 ≤ line.length) (hsize : line.length + 1 < sizeBound) :
    parseSgChecked stod line = inside (parseSg stod line) := by
  simp only [parseSgChecked, sgNameChecked_eq h]
  apply inside_bind
  rintro ⟨name, r⟩ hname
  have hr := length_of_sgName hname
  rw [List.length_drop] at hr
  apply inside_bind
  rintro ⟨geom, r'⟩ hgeom
  have hr' : geom.length ≤ r.length ∧ r'.length ≤ r.length :=
    length_of_readWord (word_eq_ok.mp hgeom)
  rw [sgGeometryChecked_eq (by omega : geom.length + 1 < sizeBound)]
  apply inside_bind
  rintro ⟨startBit, length, littleEndian, isSigned⟩ -
  apply inside_bind
  rintro ⟨phys, r''⟩ hphys
  have hr'' : phys.length ≤ r'.length ∧ r''.length ≤ r'.length :=
    length_of_readWord (word_eq_ok.mp hphys)
  rw [sgFactorChecked_eq stod (by omega : phys.length < sizeBound)]
  apply inside_bind
  rintro ⟨factor, offset⟩ -
  have hrange := length_of_getD_readWord r''
  rw [sgRangeChecked_eq stod (hrange.1.trans_lt (by omega)),
    sgUnitChecked_eq (hrange.2.trans_lt (by omega))]
  rfl

lemma addSignalChecked_eq (h : 4 ≤ line.length) (hsize : line.length + 1 < sizeBound) :
    addSignalChecked stod ms line = inside (addSignal stod ms line) := by
  cases hlast : ms.getLast? with
  | none =>
    rw [List.getLast?_eq_none_iff] at hlast
    simp [addSignalChecked, addSignal, hlast]
  | some m =>
    have hne : ms.isEmpty = false := by
      cases ms with
      | nil => cases hlast
      | cons m ms => rfl
    simp only [addSignalChecked, addSignal, hlast, hne, Bool.false_eq_true, if_false, lift_some,
      pure_bind, parseSgChecked_eq h hsize]
    exact inside_bind fun s _ => rfl

/-- A line that starts with a keyword of four characters has as many. -/
lemma length_of_isPrefixOf {key : List Char} (h : key.isPrefixOf line = true) :
    key.length ≤ line.length :=
  (List.isPrefixOf_iff_prefix.mp h).length_le

lemma parseLineChecked_eq (h : line.length + 1 < sizeBound) :
    parseLineChecked stod ms line = inside (parseLine stod ms line) := by
  have htrim : (trim line).length + 1 < sizeBound :=
    (Nat.succ_le_succ (trim_sublist line).length_le).trans_lt h
  simp only [parseLineChecked, trimChecked_eq (Nat.lt_of_succ_lt h), lift_some, pure_bind,
    parseLine]
  split_ifs with hskip hbo hsg
  · rfl
  · rw [parseBoChecked_eq (length_of_isPrefixOf hbo)]
    exact inside_bind fun m _ => rfl
  · exact addSignalChecked_eq (length_of_isPrefixOf hsg) htrim
  · rfl

lemma parseLinesChecked_eq {ls : List (List Char)} (h : ∀ l ∈ ls, l.length + 1 < sizeBound) :
    parseLinesChecked stod ms ls = some (parseLines stod ms ls) := by
  induction ls generalizing ms with
  | nil => rfl
  | cons l ls ih =>
    rw [List.forall_mem_cons] at h
    rw [parseLinesChecked, parseLineChecked_eq h.1, run_inside, parseLines]
    cases parseLine stod ms l with
    | error e => rfl
    | ok ms' => exact ih h.2

/-- **Safety.** On any text that a string can hold, the parser never asks for a character or a part
of a string outside of it, nor for the end of an empty one, and its positions never wrap around. -/
theorem parse_inside {text : List Char} (h : text.length + 1 < sizeBound) :
    parseChecked stod text = some (parse stod text) :=
  parseLinesChecked_eq fun _ hl =>
    (Nat.succ_le_succ (length_le_of_mem_getlines hl)).trans_lt h

/-- The second line ends where its order and sign should be. -/
def cutShort : List Char := "BO_ 1 A: 8\nSG_ S : 0|8@".toList

theorem parse_inside_cutShort : parseChecked DbcRender.stodInteger cutShort =
    some (parse DbcRender.stodInteger cutShort) :=
  parse_inside (by decide)

end DbcParser

end BusTestPlatform

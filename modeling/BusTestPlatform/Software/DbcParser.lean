import BusTestPlatform.Lib.Text
import BusTestPlatform.Shared.BusTypes

/-!
# `dbc_parser.cpp` and `signal.h`

The subset of the DBC grammar that the host reads. Floating-point numbers are of a type `D` with
the conversion `std::stod`; an error is the text left in `*error`.
-/

namespace BusTestPlatform

open Text

/-- `Signal`. -/
structure Signal (D : Type) where
  name : List Char
  startBit : UInt8
  length : UInt8
  factor : D
  offset : D
  minValue : D
  maxValue : D
  unit : List Char
  isSigned : Bool
  littleEndian : Bool
deriving DecidableEq

namespace Signal

variable {D : Type}

/-- `Signal sig;` -/
def default [Zero D] [One D] : Signal D where
  name := []
  startBit := 0
  length := 1
  factor := 1
  offset := 0
  minValue := 0
  maxValue := 0
  unit := []
  isSigned := false
  littleEndian := true

/-- `raw_to_physical`, which reads a signed raw value as `int64_t`. -/
def rawToPhysical [IntCast D] [Add D] [Mul D] (s : Signal D) (raw : BitVec 64) : D :=
  if s.isSigned then (raw.toInt : D) * s.factor + s.offset
  else ((raw.toNat : ℤ) : D) * s.factor + s.offset

/-- `physical_to_raw`. The cast to `uint64_t` drops the fraction. -/
def physicalToRaw [Field D] [LinearOrder D] [FloorRing D] (s : Signal D) (physical : D) :
    BitVec 64 :=
  let raw := (physical - s.offset) / s.factor
  if raw ≤ 0 then 0 else BitVec.ofInt 64 ⌊raw + 1 / 2⌋

end Signal

/-- `DbcMessage`. -/
structure DbcMessage (D : Type) where
  id : UInt32
  name : List Char
  dlc : UInt8
  txNode : List Char
  signals : List (Signal D)
deriving DecidableEq

/-- `msg->signals.push_back(sig)`. -/
def DbcMessage.push {D : Type} (m : DbcMessage D) (s : Signal D) : DbcMessage D :=
  { m with signals := m.signals ++ [s] }

lemma DbcMessage.mem_push {D : Type} {s s' : Signal D} {m : DbcMessage D} :
    s ∈ (m.push s').signals ↔ s ∈ m.signals ∨ s = s' := by
  simp [push]

/-- The signal is in the database. -/
def Stored {D : Type} (s : Signal D) (ms : List (DbcMessage D)) : Prop := ∃ m ∈ ms, s ∈ m.signals

namespace DbcParser

/-! ### Tokens -/

/-- A character of `" \t\r\n"`. -/
def isBlank (c : Char) : Bool := c == ' ' || c == '\t' || c == '\r' || c == '\n'

def trim (s : List Char) : List Char := (s.dropWhile isBlank).rdropWhile isBlank

/-- `parse_u32`. The cast to `uint32_t` drops the high half of the `unsigned long`. -/
def parseU32 (tok : List Char) : Option UInt32 :=
  match stoul 64 tok with
  | none => none
  | some (v, pos) => if pos = tok.length then some (UInt32.ofNat v) else none

/-- The value of an optional, or an error. -/
def orError {α : Type} (e : List Char) : Option α → Except (List Char) α
  | none => .error e
  | some a => .ok a

/-- `iss >> tok`, or an error. -/
def word (r e : List Char) : Except (List Char) (List Char × List Char) := orError e (readWord r)

variable {D : Type} (stod : List Char → Option (D × ℕ))

/-- `parse_double`. -/
def parseDouble (tok : List Char) : Option D :=
  if tok = [] then none
  else
    match stod tok with
    | none => none
    | some (v, pos) => if pos = tok.length then some v else none

/-! ### `BO_` lines -/

/-- The name of a message, with a colon glued to it or after it. -/
def boName (line r : List Char) : Except (List Char) (List Char × List Char) := do
  let malformed := "malformed BO_ line: ".toList ++ line
  let (nameTok, r) ← word r malformed
  if nameTok.getLast? = some ':' then return (nameTok.dropLast, r)
  else
    let (colonTok, r) ← word r malformed
    if colonTok = [':'] then return (nameTok, r) else throw malformed

/-- The `dlc` of a message. -/
def boDlc (dlcTok : List Char) : Except (List Char) UInt8 :=
  match parseU32 dlcTok with
  | none => .error ("bad BO_ dlc: ".toList ++ dlcTok)
  | some dlc =>
    if busMaxPayload < dlc.toNat then .error ("bad BO_ dlc: ".toList ++ dlcTok)
    else .ok dlc.toUInt8

/-- `parse_bo`: the message that the line opens. -/
def parseBo (line : List Char) : Except (List Char) (DbcMessage D) := do
  let malformed := "malformed BO_ line: ".toList ++ line
  let (idTok, r) ← word (line.drop 4) malformed
  let (name, r) ← boName line r
  let (dlcTok, r) ← word r malformed
  let id ← orError ("bad BO_ id: ".toList ++ idTok) (parseU32 idTok)
  let dlc ← boDlc dlcTok
  let txNode := match readWord r with
    | none => []
    | some (node, _) => node
  return { id, name, dlc, txNode, signals := [] }

/-! ### `SG_` lines -/

/-- The name of a signal, its colon and, in between, a mux marker, which is not kept. -/
def sgName (line : List Char) : Except (List Char) (List Char × List Char) := do
  let (nameTok, r) ← word (line.drop 4) ("malformed SG_ line: ".toList ++ line)
  if nameTok.getLast? = some ':' then return (nameTok.dropLast, r)
  else
    let (tok, r) ← word r ("SG_ line missing geometry: ".toList ++ line)
    if tok = [':'] then return (nameTok, r)
    else if tok = ['M'] ∨ tok.head? = some 'm' then
      let badMux := "malformed SG_ mux marker: ".toList ++ line
      let (tok, r) ← word r badMux
      if tok = [':'] then return (nameTok, r) else throw badMux
    else throw ("unexpected SG_ token: ".toList ++ tok)

/-- `<start>|<len>@<order><sign>`: `start_bit`, `length`, `little_endian` and `is_signed`. -/
def sgGeometry (geom : List Char) : Except (List Char) (UInt8 × UInt8 × Bool × Bool) :=
  match find '|' geom, find '@' geom with
  | some bar, some atSign =>
    if atSign < bar then .error ("bad SG_ geometry: ".toList ++ geom)
    else
      match parseU32 (geom.take bar),
        parseU32 ((geom.drop (bar + 1)).take (atSign - bar - 1)) with
      | some start, some len =>
        match geom[atSign + 1]?, geom[atSign + 2]? with
        | some order, some sign =>
          .ok ((start &&& 0xFF).toUInt8, if 64 < len then 64 else len.toUInt8,
            order == '0', sign == '-')
        | _, _ => .error ("bad SG_ byte order/sign: ".toList ++ geom)
      | _, _ => .error ("bad SG_ start/len: ".toList ++ geom)
  | _, _ => .error ("bad SG_ geometry: ".toList ++ geom)

/-- `(<factor>,<offset>)`. -/
def sgFactor (phys : List Char) : Except (List Char) (D × D) :=
  orError ("bad SG_ factor/offset: ".toList ++ phys) <| do
    let lp ← find '(' phys
    let rp ← find ')' phys
    guard (lp < rp)
    let inner := (phys.drop (lp + 1)).take (rp - lp - 1)
    let comma ← find ',' inner
    let factor ← parseDouble stod (inner.take comma)
    let offset ← parseDouble stod (inner.drop (comma + 1))
    return (factor, offset)

/-- `[<min>|<max>]`, when the word is one. -/
def sgRange (range : List Char) : Option (D × D) := do
  guard (range.head? = some '[')
  let rb ← find ']' range
  let inner := (range.drop 1).take (rb - 1)
  let bar ← find '|' inner
  let mn ← parseDouble stod (inner.take bar)
  let mx ← parseDouble stod (inner.drop (bar + 1))
  return (mn, mx)

/-- `"<unit>"` at the start of what remains of the line. -/
def sgUnit (r : List Char) : List Char :=
  let rest := trim (r.takeWhile (· ≠ '\n'))
  if rest.head? = some '"' then
    match find '"' (rest.drop 1) with
    | some q => (rest.drop 1).take q
    | none => []
  else []

variable [Zero D] [One D]

/-- `parse_sg`: the signal of the line. The word after the factor is read as the range and is
dropped when it is none. -/
def parseSg (line : List Char) : Except (List Char) (Signal D) := do
  let (name, r) ← sgName line
  let (geom, r) ← word r ("SG_ line missing geometry: ".toList ++ line)
  let (startBit, length, littleEndian, isSigned) ← sgGeometry geom
  let (phys, r) ← word r ("SG_ line missing factor/offset: ".toList ++ line)
  let (factor, offset) ← sgFactor stod phys
  let (range, r) := (readWord r).getD ([], [])
  let (minValue, maxValue) := (sgRange stod range).getD (Signal.default.minValue,
    Signal.default.maxValue)
  let unit := sgUnit r
  return ⟨name, startBit, length, factor, offset, minValue, maxValue, unit, isSigned, littleEndian⟩

/-! ### The text -/

/-- The `SG_` branch: the signal goes to `messages_.back()`. -/
def addSignal (ms : List (DbcMessage D)) (t : List Char) :
    Except (List Char) (List (DbcMessage D)) :=
  match ms.getLast? with
  | none => .error "SG_ line before any BO_ message".toList
  | some m => do
    let s ← parseSg stod t
    return ms.dropLast ++ [m.push s]

/-- One round of the loop of `parse`: `messages_` after a line. -/
def parseLine (ms : List (DbcMessage D)) (line : List Char) :
    Except (List Char) (List (DbcMessage D)) :=
  let t := trim line
  if t = [] ∨ "//".toList.isPrefixOf t then .ok ms
  else if "BO_ ".toList.isPrefixOf t then do
    let m ← parseBo t
    return ms ++ [m]
  else if "SG_ ".toList.isPrefixOf t then addSignal stod ms t
  else .ok ms

/-- What `parse` leaves: `messages_`, and the error when it returns `false`. -/
structure Parsed (D : Type) where
  messages : List (DbcMessage D)
  error : Option (List Char)

/-- The loop of `parse`, which stops at the first bad line and keeps what was read before. -/
def parseLines (ms : List (DbcMessage D)) : List (List Char) → Parsed D
  | [] => ⟨ms, none⟩
  | l :: ls =>
    match parseLine stod ms l with
    | .error e => ⟨ms, some e⟩
    | .ok ms' => parseLines ms' ls

/-- `parse`, which clears `messages_` first. -/
def parse (text : List Char) : Parsed D := parseLines stod [] (getlines text)

/-! ### Lines that are passed over -/

/-- The line is not one that the parser passes over. -/
def isStatement (line : List Char) : Bool :=
  "BO_ ".toList.isPrefixOf (trim line) || "SG_ ".toList.isPrefixOf (trim line)

section

variable {stod}

lemma parseLine_of_not_isStatement {l : List Char} (h : isStatement l = false)
    (ms : List (DbcMessage D)) : parseLine stod ms l = .ok ms := by
  rw [isStatement, Bool.or_eq_false_iff] at h
  simp only [parseLine, h.1, h.2, Bool.false_eq_true, if_false, ite_self]

lemma parseLines_filter (ms : List (DbcMessage D)) (ls : List (List Char)) :
    parseLines stod ms (ls.filter isStatement) = parseLines stod ms ls := by
  induction ls generalizing ms with
  | nil => rfl
  | cons l ls ih =>
    by_cases hl : isStatement l = true
    · rw [List.filter_cons_of_pos hl, parseLines, parseLines]
      split
      · rfl
      · exact ih _
    · rw [List.filter_cons_of_neg hl, parseLines,
        parseLine_of_not_isStatement (Bool.eq_false_of_not_eq_true hl)]
      exact ih ms

end

/-! ### Accepted lines -/

lemma bind_eq_ok {α β : Type} {x : Except (List Char) α} {f : α → Except (List Char) β} {b : β} :
    x >>= f = .ok b ↔ ∃ a, x = .ok a ∧ f a = .ok b := by
  cases x with
  | error e => simp [bind, Except.bind]
  | ok a => simp [bind, Except.bind]

@[simp]
lemma orError_eq_ok {α : Type} {e : List Char} {o : Option α} {a : α} :
    orError e o = .ok a ↔ o = some a := by
  cases o <;> simp [orError]

@[simp]
lemma word_eq_ok {r e : List Char} {x : List Char × List Char} :
    word r e = .ok x ↔ readWord r = some x :=
  orError_eq_ok

lemma parseU32_numeral {tok : List Char} {v : UInt32} (htok : IsNumeral tok)
    (h : parseU32 tok = some v) : v = UInt32.ofNat (valueOf (baseOf tok) tok) := by
  unfold parseU32 at h
  split at h
  · cases h
  · next x pos hx =>
    simp only [Option.ite_none_right_eq_some, Option.some.injEq] at h
    obtain ⟨rfl, rfl⟩ := h
    rw [htok.stoul_eq hx]

lemma toNat_lowByte_eq (u : UInt32) : (u &&& 0xFF).toUInt8.toNat = u.toNat % 256 := by
  rw [UInt32.toNat_toUInt8, UInt32.toNat_and, show (0xFF : UInt32).toNat = 2 ^ 8 - 1 from rfl,
    Nat.and_two_pow_sub_one_eq_mod, Nat.mod_mod]

lemma toNat_clamp_eq (u : UInt32) :
    (if 64 < u then 64 else u.toUInt8).toNat = min u.toNat 64 := by
  split_ifs with h
  · rw [UInt32.lt_iff_toNat_lt] at h
    exact (Nat.min_eq_right h.le).symm
  · rw [UInt32.not_lt, UInt32.le_iff_toNat_le] at h
    have hle : u.toNat ≤ 64 := h
    rw [UInt32.toNat_toUInt8]
    omega

lemma toNat_lowByte (v : ℕ) : (UInt32.ofNat v &&& 0xFF).toUInt8.toNat = v % 256 := by
  rw [toNat_lowByte_eq, UInt32.toNat_ofNat']
  omega

lemma toNat_clamp {v : ℕ} (hv : v ≤ 64) :
    (if 64 < UInt32.ofNat v then 64 else (UInt32.ofNat v).toUInt8).toNat = v := by
  rw [toNat_clamp_eq, UInt32.toNat_ofNat']
  omega

/-- `<start>|<len>@<order><sign>` with decimal numerals. -/
lemma sgGeometry_eq {start len : List Char} {order sign : Char} (hstart : IsNumeral start)
    (hlen : IsNumeral len) :
    sgGeometry (start ++ '|' :: (len ++ ['@', order, sign])) =
      match parseU32 start, parseU32 len with
      | some s, some l =>
        .ok ((s &&& 0xFF).toUInt8, if 64 < l then 64 else l.toUInt8, order == '0', sign == '-')
      | _, _ =>
        .error ("bad SG_ start/len: ".toList ++ (start ++ '|' :: (len ++ ['@', order, sign]))) := by
  have hbar : find '|' (start ++ '|' :: (len ++ ['@', order, sign])) = some start.length :=
    find_append_cons (hstart.not_mem (by decide))
  have hat : find '@' (start ++ '|' :: (len ++ ['@', order, sign])) =
      some (start.length + (len.length + 1)) := by
    have hsplit : start ++ '|' :: (len ++ ['@', order, sign]) =
        (start ++ '|' :: len) ++ '@' :: [order, sign] := by simp
    have hmem : '@' ∉ start ++ '|' :: len := by
      simp [hstart.not_mem (c := '@') (by decide), hlen.not_mem (c := '@') (by decide)]
    rw [hsplit, find_append_cons hmem, List.length_append, List.length_cons]
  have htake : ((start ++ '|' :: (len ++ ['@', order, sign])).drop (start.length + 1)).take
      (start.length + (len.length + 1) - start.length - 1) = len := by
    rw [Nat.add_sub_cancel_left, Nat.add_sub_cancel, ← List.drop_drop, List.drop_left,
      List.drop_one, List.tail_cons, List.take_left]
  have hget : ∀ k, (start ++ '|' :: (len ++ ['@', order, sign]))[start.length +
      (len.length + 1) + k]? = ['@', order, sign][k]? := by
    intro k
    rw [Nat.add_assoc, List.getElem?_append_right (Nat.le_add_right ..), Nat.add_sub_cancel_left,
      Nat.add_right_comm, List.getElem?_cons_succ,
      List.getElem?_append_right (Nat.le_add_right ..), Nat.add_sub_cancel_left]
  simp only [sgGeometry, hbar, hat, htake, List.take_left, hget]
  rw [if_neg (Nat.not_lt.mpr (Nat.le_add_right ..))]
  cases parseU32 start <;> cases parseU32 len <;> rfl

variable {stod}

/-- The geometry of an accepted signal is the one that its word gives. -/
lemma geometry_of_parseSg {line : List Char} {s : Signal D} (h : parseSg stod line = .ok s) :
    ∃ name r geom r', sgName line = .ok (name, r) ∧ readWord r = some (geom, r') ∧
      sgGeometry geom = .ok (s.startBit, s.length, s.littleEndian, s.isSigned) := by
  simp only [parseSg, bind_eq_ok, word_eq_ok, Prod.exists] at h
  obtain ⟨name, r, hname, geom, r', hgeom, startBit, length, little, signed, hgeo, phys, r'', -,
    factor, offset, -, hs⟩ := h
  refine ⟨name, r, geom, r', hname, hgeom, ?_⟩
  cases hs
  exact hgeo

variable {ms ms' : List (DbcMessage D)} {line : List Char} {s : Signal D}

lemma addSignal_eq_ok {t : List Char} (h : addSignal stod ms t = .ok ms') :
    ∃ m s, ms.getLast? = some m ∧ parseSg stod t = .ok s ∧ ms' = ms.dropLast ++ [m.push s] := by
  unfold addSignal at h
  split at h
  · cases h
  · next m hlast =>
    obtain ⟨s, hs, hms⟩ := bind_eq_ok.mp h
    exact ⟨m, s, hlast, hs, (Except.ok.inj hms).symm⟩

/-- What an accepted line does: nothing, a new message, or a new signal in the last message. -/
lemma parseLine_cases (h : parseLine stod ms line = .ok ms') :
    ms' = ms ∨ (∃ m, parseBo (trim line) = .ok m ∧ ms' = ms ++ [m]) ∨
    ∃ m s, ms.getLast? = some m ∧ parseSg stod (trim line) = .ok s ∧
      ms' = ms.dropLast ++ [m.push s] := by
  simp only [parseLine] at h
  split_ifs at h
  · exact Or.inl (Except.ok.inj h).symm
  · obtain ⟨m, hm, hms⟩ := bind_eq_ok.mp h
    exact Or.inr (Or.inl ⟨m, hm, (Except.ok.inj hms).symm⟩)
  · exact Or.inr (Or.inr (addSignal_eq_ok h))
  · exact Or.inl (Except.ok.inj h).symm

lemma parseLine_eq_bo (hbo : "BO_ ".toList.isPrefixOf (trim line)) (ms : List (DbcMessage D)) :
    parseLine stod ms line = (do let m ← parseBo (trim line); return ms ++ [m]) := by
  obtain ⟨t, ht⟩ := List.isPrefixOf_iff_prefix.mp hbo
  have hskip : ¬ (trim line = [] ∨ "//".toList.isPrefixOf (trim line)) := by
    rw [← ht]
    simp
  rw [parseLine, if_neg hskip, if_pos hbo]

lemma parseLine_eq_sg (hsg : "SG_ ".toList.isPrefixOf (trim line)) (ms : List (DbcMessage D)) :
    parseLine stod ms line = addSignal stod ms (trim line) := by
  obtain ⟨t, ht⟩ := List.isPrefixOf_iff_prefix.mp hsg
  have hskip : ¬ (trim line = [] ∨ "//".toList.isPrefixOf (trim line)) := by
    rw [← ht]
    simp
  have hbo : ¬ "BO_ ".toList.isPrefixOf (trim line) := by
    rw [← ht]
    simp
  rw [parseLine, if_neg hskip, if_neg hbo, if_pos hsg]

lemma parseLine_sg (hsg : "SG_ ".toList.isPrefixOf (trim line))
    (h : parseLine stod ms line = .ok ms') :
    ∃ m s, ms.getLast? = some m ∧ parseSg stod (trim line) = .ok s ∧
      ms' = ms.dropLast ++ [m.push s] := by
  rw [parseLine_eq_sg hsg] at h
  exact addSignal_eq_ok h

lemma parseLine_stored (h : parseLine stod ms line = .ok ms') (hs : Stored s ms) :
    Stored s ms' := by
  obtain ⟨m, hm, hs⟩ := hs
  rcases parseLine_cases h with rfl | ⟨m', -, rfl⟩ | ⟨m', s', hlast, -, rfl⟩
  · exact ⟨m, hm, hs⟩
  · exact ⟨m, List.mem_append_left _ hm, hs⟩
  · rw [← List.dropLast_append_getLast? m' hlast, List.mem_append, List.mem_singleton] at hm
    rcases hm with hm | rfl
    · exact ⟨m, List.mem_append_left _ hm, hs⟩
    · exact ⟨m.push s', by simp, DbcMessage.mem_push.mpr (Or.inl hs)⟩

lemma parseLines_stored {ls : List (List Char)} (hs : Stored s ms) :
    Stored s (parseLines stod ms ls).messages := by
  induction ls generalizing ms with
  | nil => exact hs
  | cons l ls ih =>
    rw [parseLines]
    split
    · exact hs
    · next h => exact ih (parseLine_stored h hs)

lemma parseLines_sg {ls : List (List Char)} (hok : (parseLines stod ms ls).error = none)
    (hline : line ∈ ls) (hsg : "SG_ ".toList.isPrefixOf (trim line)) :
    ∃ s, parseSg stod (trim line) = .ok s ∧ Stored s (parseLines stod ms ls).messages := by
  induction ls generalizing ms with
  | nil => cases hline
  | cons l ls ih =>
    rw [parseLines] at hok ⊢
    split at hok
    · cases hok
    · next ms' h =>
      rcases List.mem_cons.mp hline with rfl | hline
      · obtain ⟨m, s, -, hs, rfl⟩ := parseLine_sg hsg h
        refine ⟨s, hs, parseLines_stored ⟨m.push s, by simp, DbcMessage.mem_push.mpr (Or.inr rfl)⟩⟩
      · exact ih hok hline

/-- Every `SG_` line of an accepted text is a signal of the database. -/
theorem stored_of_parse {text : List Char} (hok : (parse stod text).error = none)
    (hline : line ∈ getlines text) (hsg : "SG_ ".toList.isPrefixOf (trim line)) :
    ∃ s, parseSg stod (trim line) = .ok s ∧ Stored s (parse stod text).messages :=
  parseLines_sg hok hline hsg

end DbcParser

end BusTestPlatform

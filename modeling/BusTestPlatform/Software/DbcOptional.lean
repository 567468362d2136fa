import BusTestPlatform.Lib.Blanks
import BusTestPlatform.Software.DbcRender
import BusTestPlatform.Software.DbcShape

/-!
# The optional parts of a signal line

Well-formed `SG_` lines with any of the mux marker, the range and the unit, and with any blanks
between the words. The word after the factor is read as the range, whatever it is, so without a
range the first word of the unit is lost.
-/

namespace BusTestPlatform

open Text DbcParser DbcRender

/-! ### Well-formed lines -/

/-- `M` or `m<n>`. -/
def IsMux (x : List Char) : Prop := x = ['M'] ∨ ∃ n, x = 'm' :: n ∧ IsNumeral n

/-- A numeral of 64 bits without a sign. -/
structure Unsigned where
  tok : List Char
  value : ℕ
  denotes : cNat tok = some value
  lt : value < 2 ^ 64

lemma Unsigned.isSpace (u : Unsigned) : ∀ c ∈ u.tok, Text.isSpace c = false :=
  fun c hc => isSpace_of_digitVal (digitVal_of_cNat u.denotes c hc)

lemma Unsigned.not_mem (u : Unsigned) {c : Char} (hc : 36 ≤ digitVal c) : c ∉ u.tok :=
  fun h => absurd (digitVal_of_cNat u.denotes c h) (Nat.not_lt.mpr hc)

/-- A number as `std::stod` reads it. -/
structure Decimal {D : Type} (stod : List Char → Option (D × ℕ)) where
  tok : List Char
  value : D
  denotes : Denotes stod tok value

/-- A receiver is a word that is neither quoted nor in brackets. -/
structure IsReceiver (w : List Char) : Prop extends IsWord w where
  quote : '"' ∉ w
  head : w.head? ≠ some '['

/-- `SG_ <name> [<mux>] : <start>|<length>@<order><sign> (<factor>,<offset>) [[<min>|<max>]]
["<unit>"] <receivers>`. The colon may be glued to the word before it. -/
structure SgForm {D : Type} (stod : List Char → Option (D × ℕ)) where
  name : List Char
  mux : Option (List Char)
  glued : Bool
  start : Unsigned
  length : Unsigned
  littleEndian : Bool
  isSigned : Bool
  factor : Decimal stod
  offset : Decimal stod
  range : Option (Decimal stod × Decimal stod)
  unit : Option (List Char)
  receivers : List (List Char)
  indent : List Char
  gap : ℕ → List Char
  isName : IsName name
  isMux : ∀ x ∈ mux, IsMux x
  isUnit : ∀ u ∈ unit, '"' ∉ u ∧ '\n' ∉ u
  isReceiver : ∀ w ∈ receivers, IsReceiver w
  isIndent : ∀ c ∈ indent, c = ' ' ∨ c = '\t'
  isGap : ∀ i, IsGap (gap i)

namespace SgForm

variable {D : Type} {stod : List Char → Option (D × ℕ)} (f : SgForm stod)

def colon : List Char := if f.glued then [':'] else f.gap 2 ++ [':']

def marker : List Char :=
  match f.mux with
  | none => f.colon
  | some x => f.gap 1 ++ (x ++ f.colon)

def geometry : List Char :=
  f.start.tok ++ '|' :: (f.length.tok ++
    ['@', if f.littleEndian then '0' else '1', if f.isSigned then '-' else '+'])

def scale : List Char := '(' :: (f.factor.tok ++ ',' :: (f.offset.tok ++ [')']))

def rangeText : List Char :=
  match f.range with
  | none => []
  | some (mn, mx) => f.gap 5 ++ '[' :: (mn.tok ++ '|' :: (mx.tok ++ [']']))

def unitText : List Char :=
  match f.unit with
  | none => []
  | some u => f.gap 6 ++ '"' :: (u ++ ['"'])

/-- Words with gaps before them, from gap `i` on. -/
def spaced (i : ℕ) : List (List Char) → List Char
  | [] => []
  | w :: ws => f.gap i ++ (w ++ spaced (i + 1) ws)

/-- What follows the factor. -/
def tail : List Char := f.rangeText ++ (f.unitText ++ f.spaced 7 f.receivers)

def line : List Char :=
  "SG_ ".toList ++ (f.indent ++ (f.name ++ (f.marker ++ (f.gap 3 ++ (f.geometry ++
    (f.gap 4 ++ (f.scale ++ f.tail)))))))

/-- The parser accepts the line and stores the range and the unit that are there, and the defaults
where there is none. -/
def Kept [Zero D] [One D] : Prop :=
  ∃ sig, parseSg stod f.line = .ok sig ∧
    (sig.minValue, sig.maxValue) = (f.range.map fun r => (r.1.value, r.2.value)).getD
      ((Signal.default : Signal D).minValue, (Signal.default : Signal D).maxValue) ∧
    sig.unit = f.unit.getD (Signal.default : Signal D).unit

end SgForm

/-! ### Gaps and words -/

lemma IsMux.isWord {x : List Char} (h : IsMux x) : IsWord x := by
  rcases h with rfl | ⟨n, rfl, hn⟩
  · exact ⟨by simp, by simp [isSpace]⟩
  · refine ⟨by simp, ?_⟩
    rw [List.forall_mem_cons]
    exact ⟨rfl, fun c hc => isSpace_of_digit (hn.2 c hc)⟩

lemma IsMux.not_mem {x : List Char} (h : IsMux x) : '|' ∉ x ++ [':'] := by
  rcases h with rfl | ⟨n, rfl, hn⟩
  · simp
  · simp [hn.not_mem (c := '|') (by decide)]

namespace SgForm

variable {D : Type} {stod : List Char → Option (D × ℕ)} (f : SgForm stod)

lemma head_spaced (i : ℕ) (ws : List (List Char)) :
    ∀ c ∈ (f.spaced i ws).head?, Text.isSpace c = true := by
  cases ws with
  | nil => simp [spaced]
  | cons w ws => exact (f.isGap i).head _

lemma head_unitText : ∀ c ∈ (f.unitText ++ f.spaced 7 f.receivers).head?, isSpace c = true := by
  rw [unitText]
  split
  · exact f.head_spaced 7 f.receivers
  · rw [List.append_assoc]
    exact (f.isGap 6).head _

lemma head_tail : ∀ c ∈ f.tail.head?, isSpace c = true := by
  rw [tail, rangeText]
  split
  · exact f.head_unitText
  · rw [List.append_assoc]
    exact (f.isGap 5).head _

/-! ### Up to the factor -/

lemma isWord_geometry : IsWord f.geometry := by
  refine ⟨by simp [geometry], ?_⟩
  intro c hc
  simp only [geometry, List.mem_append, List.mem_cons, List.not_mem_nil, or_false] at hc
  rcases hc with hc | rfl | hc | rfl | rfl | rfl
  · exact f.start.isSpace c hc
  · rfl
  · exact f.length.isSpace c hc
  · rfl
  · cases f.littleEndian <;> rfl
  · cases f.isSigned <;> rfl

lemma isWord_scale : IsWord f.scale :=
  ⟨by simp [scale], isSpace_brackets rfl rfl rfl f.factor.denotes f.offset.denotes⟩

/-- The line after the colon. -/
def numbers : List Char := f.gap 3 ++ (f.geometry ++ (f.gap 4 ++ (f.scale ++ f.tail)))

lemma head_colon : f.glued = false → ∀ c ∈ (f.colon ++ f.numbers).head?, isSpace c = true := by
  intro h
  rw [colon, h, if_neg Bool.false_ne_true, List.append_assoc]
  exact (f.isGap 2).head _

lemma readWord_colon (h : f.glued = false) :
    readWord (f.colon ++ f.numbers) = some ([':'], f.numbers) := by
  rw [colon, h, if_neg Bool.false_ne_true, List.append_assoc]
  exact readWord_gap (f.isGap 2) ⟨by simp, by simp [isSpace]⟩ ((f.isGap 3).head _)

lemma readWord_name {w r : List Char} (hw : IsWord w) (hr : ∀ c ∈ r.head?, isSpace c = true)
    (hline : f.name ++ (f.marker ++ f.numbers) = w ++ r) :
    readWord (f.line.drop 4) = some (w, r) := by
  have hdrop : f.line.drop 4 = f.indent ++ (w ++ r) := by
    rw [← hline]
    rfl
  rw [hdrop]
  exact readWord_append (fun c hc => isSpace_of_blank (f.isIndent c hc)) hw.ne hw.isSpace hr

lemma sgName_line (h : f.glued = false ∨ f.mux = none) :
    sgName f.line = .ok (f.name, f.numbers) := by
  rw [sgName_eq_ok_iff]
  have hnumbers := (f.isGap 3).head (f.geometry ++ (f.gap 4 ++ (f.scale ++ f.tail)))
  cases hglued : f.glued with
  | true =>
    have hmux : f.mux = none := h.resolve_left (by simp [hglued])
    apply Or.inl
    apply f.readWord_name (f.isName.isWord.concat rfl) hnumbers
    simp [marker, hmux, colon, hglued, numbers]
  | false =>
    refine Or.inr ⟨f.isName.getLast, f.marker ++ f.numbers, ?_, ?_⟩
    · apply f.readWord_name f.isName.isWord _ rfl
      rw [marker]
      split
      · exact f.head_colon hglued
      · rw [List.append_assoc]
        exact (f.isGap 1).head _
    · rw [marker]
      split
      · exact Or.inl (f.readWord_colon hglued)
      · next x hx =>
        have hmux : IsMux x := f.isMux x hx
        refine Or.inr ⟨x, f.colon ++ f.numbers, ?_, ?_, f.readWord_colon hglued⟩
        · rw [List.append_assoc, List.append_assoc]
          exact readWord_gap (f.isGap 1) hmux.isWord (f.head_colon hglued)
        · rcases hmux with rfl | ⟨n, rfl, -⟩
          · exact Or.inl rfl
          · exact Or.inr rfl

lemma readWord_numbers : readWord f.numbers =
    some (f.geometry, f.gap 4 ++ (f.scale ++ f.tail)) :=
  readWord_gap (f.isGap 3) f.isWord_geometry ((f.isGap 4).head _)

/-- A colon that is glued to the mux marker is not found. -/
lemma sgName_glued_mux {x : List Char} (hglued : f.glued = true) (hmux : f.mux = some x)
    (y : List Char × List Char) : sgName f.line ≠ .ok y := by
  intro h
  obtain ⟨n, r⟩ := y
  have hx := (f.isMux x hmux).isWord
  have hmarker : f.marker = f.gap 1 ++ (x ++ [':']) := by simp [marker, hmux, colon, hglued]
  have hnumbers := (f.isGap 3).head (f.geometry ++ (f.gap 4 ++ (f.scale ++ f.tail)))
  have hname : readWord (f.line.drop 4) = some (f.name, f.marker ++ f.numbers) := by
    apply f.readWord_name f.isName.isWord _ rfl
    rw [hmarker, List.append_assoc]
    exact (f.isGap 1).head _
  have hnext : readWord (f.marker ++ f.numbers) = some (x ++ [':'], f.numbers) := by
    rw [hmarker, List.append_assoc]
    exact readWord_gap (f.isGap 1) (hx.concat rfl) hnumbers
  rw [sgName_eq_ok_iff, hname] at h
  rcases h with h | ⟨-, r₁, h, hrest⟩
  · simp only [Option.some.injEq, Prod.mk.injEq] at h
    exact f.isName.getLast (by simp [h.1])
  · cases h
    rw [hnext] at hrest
    rcases hrest with h | ⟨w, r₂, h, -, hcolon⟩
    · simp only [Option.some.injEq, Prod.mk.injEq, List.append_left_eq_self] at h
      exact hx.ne h.1
    · cases h
      rw [readWord_numbers, Option.some.injEq, Prod.mk.injEq] at hcolon
      have hbar : '|' ∈ f.geometry := by simp [geometry]
      rw [hcolon.1] at hbar
      simp at hbar

lemma parseU32_tok (u : Unsigned) : parseU32 u.tok = some (UInt32.ofNat u.value) := by
  have hspace : ∀ c ∈ u.tok.head?, isSpace c = false :=
    fun c hc => u.isSpace c (List.mem_of_mem_head? hc)
  refine (parseU32_eq_some_iff hspace).mpr ⟨u.value, cInt_of_cNat u.denotes, ?_, ?_⟩
  · rw [Nat.abs_cast]
    exact_mod_cast u.lt
  · rw [UInt32.toNat_ofNat']
    push_cast
    rfl

lemma sgGeometry_geometry : sgGeometry f.geometry =
    .ok ((UInt32.ofNat f.start.value &&& 0xFF).toUInt8,
      if 64 < UInt32.ofNat f.length.value then 64 else (UInt32.ofNat f.length.value).toUInt8,
      f.littleEndian, f.isSigned) := by
  rw [sgGeometry_eq_ok_iff]
  refine ⟨_, _, _, _, [], _, _, rfl, f.start.not_mem (by decide), f.start.not_mem (by decide),
    f.length.not_mem (by decide), parseU32_tok f.start, parseU32_tok f.length, rfl, rfl, ?_, ?_⟩
  · cases f.littleEndian <;> rfl
  · cases f.isSigned <;> rfl

/-- An accepted line: what follows the factor gives a range and a unit. -/
lemma parseSg_line [Zero D] [One D] (h : f.glued = false ∨ f.mux = none) :
    parseSg stod f.line = .ok ⟨f.name, (UInt32.ofNat f.start.value &&& 0xFF).toUInt8,
    if 64 < UInt32.ofNat f.length.value then 64 else (UInt32.ofNat f.length.value).toUInt8,
    f.factor.value, f.offset.value,
    ((sgRange stod ((readWord f.tail).getD ([], [])).1).getD (0, 0)).1,
    ((sgRange stod ((readWord f.tail).getD ([], [])).1).getD (0, 0)).2,
    sgUnit ((readWord f.tail).getD ([], [])).2, f.isSigned, f.littleEndian⟩ := by
  rw [parseSg_eq_ok_iff]
  have hscale : readWord (f.gap 4 ++ (f.scale ++ f.tail)) = some (f.scale, f.tail) :=
    readWord_gap (f.isGap 4) f.isWord_scale f.head_tail
  exact ⟨f.name, f.numbers, f.geometry, _, _, _, _, _, f.scale, f.tail, _, _, f.sgName_line h,
    f.readWord_numbers, f.sgGeometry_geometry, hscale,
    sgFactor_brackets f.factor.denotes f.offset.denotes, rfl⟩

/-! ### From the range on -/

/-- A unit needs two quotes. -/
lemma sgUnit_of_count {r : List Char} (h : r.count '"' ≤ 1) : sgUnit r = [] := by
  have hle : (trim (r.takeWhile (· ≠ '\n'))).count '"' ≤ 1 :=
    ((trim_sublist _).trans (List.takeWhile_sublist _)).count_le _ |>.trans h
  simp only [sgUnit]
  split_ifs with hquote
  · obtain ⟨t, ht⟩ := List.head?_eq_some_iff.mp hquote
    rw [ht, List.count_cons_self] at hle
    have hnone : find '"' t = none :=
      find_eq_none_iff.mpr (List.count_eq_zero.mp (by omega))
    rw [ht, List.drop_one, List.tail_cons, hnone]
  · rfl

lemma sgUnit_gap {g : List Char} (hg : IsGap g) (r : List Char) : sgUnit (g ++ r) = sgUnit r := by
  have hline : ∀ c ∈ g, decide (c ≠ '\n') = true := by
    intro c hc
    rcases hg.blank c hc with rfl | rfl <;> rfl
  have hblank : ∀ c ∈ g, isBlank c = true := by
    intro c hc
    rcases hg.blank c hc with rfl | rfl <;> rfl
  simp only [sgUnit, List.takeWhile_append_of_pos hline, trim_blank_append hblank]

/-- The unit with its quotes. -/
lemma sgUnit_unitText {u r : List Char} (hunit : f.unit = some u) (hr : '\n' ∉ r) :
    sgUnit (f.unitText ++ r) = u := by
  have hu := f.isUnit u hunit
  have htext : f.unitText ++ r = f.gap 6 ++ '"' :: (u ++ '"' :: r) := by simp [unitText, hunit]
  have hspace := sgUnit_gap (g := [' ']) ⟨by simp, by simp⟩ ('"' :: (u ++ '"' :: r))
  rw [htext, sgUnit_gap (f.isGap 6), ← hspace]
  exact sgUnit_quoted hu.1 hu.2 hr

lemma mem_spaced {c : Char} {i : ℕ} {ws : List (List Char)} (h : c ∈ f.spaced i ws) :
    c = ' ' ∨ c = '\t' ∨ ∃ w ∈ ws, c ∈ w := by
  induction ws generalizing i with
  | nil => simp [spaced] at h
  | cons w ws ih =>
    simp only [spaced, List.mem_append] at h
    rcases h with h | h | h
    · exact ((f.isGap i).blank c h).imp_right Or.inl
    · exact Or.inr (Or.inr ⟨w, List.mem_cons_self, h⟩)
    · rcases ih h with rfl | rfl | ⟨w', hw', hc⟩
      · exact Or.inl rfl
      · exact Or.inr (Or.inl rfl)
      · exact Or.inr (Or.inr ⟨w', List.mem_cons_of_mem _ hw', hc⟩)

lemma newline_not_mem_spaced (i : ℕ) {ws : List (List Char)} (hws : ∀ w ∈ ws, IsReceiver w) :
    '\n' ∉ f.spaced i ws := by
  intro h
  rcases f.mem_spaced h with h | h | ⟨w, hw, h⟩
  · exact absurd h (by decide)
  · exact absurd h (by decide)
  · exact absurd ((hws w hw).isSpace _ h) (by decide)

lemma count_quote_spaced (i : ℕ) {ws : List (List Char)} (hws : ∀ w ∈ ws, IsReceiver w) :
    (f.spaced i ws).count '"' = 0 := by
  rw [List.count_eq_zero]
  intro h
  rcases f.mem_spaced h with h | h | ⟨w, hw, h⟩
  · exact absurd h (by decide)
  · exact absurd h (by decide)
  · exact (hws w hw).quote h

/-- The receivers are no unit. -/
lemma sgUnit_spaced (i : ℕ) {ws : List (List Char)} (hws : ∀ w ∈ ws, IsReceiver w) :
    sgUnit (f.spaced i ws) = [] := by
  apply sgUnit_of_count
  rw [f.count_quote_spaced i hws]
  exact Nat.zero_le 1

lemma sgRange_of_head {w : List Char} (h : w.head? ≠ some '[') : sgRange stod w = none := by
  simp [sgRange, guard, h]

/-- The word that is read as the range, and what is left for the unit. -/
def rest : List Char × List Char := (readWord f.tail).getD ([], [])

/-- With a range, both parts are read. -/
lemma rest_range {mn mx : Decimal stod} (hrange : f.range = some (mn, mx)) :
    sgRange stod f.rest.1 = some (mn.value, mx.value) ∧ sgUnit f.rest.2 = f.unit.getD [] := by
  have hword : IsWord ('[' :: (mn.tok ++ '|' :: (mx.tok ++ [']']))) :=
    ⟨by simp, isSpace_brackets rfl rfl rfl mn.denotes mx.denotes⟩
  have hread : f.rest = ('[' :: (mn.tok ++ '|' :: (mx.tok ++ [']'])),
      f.unitText ++ f.spaced 7 f.receivers) := by
    have htail : f.tail = f.gap 5 ++ ('[' :: (mn.tok ++ '|' :: (mx.tok ++ [']'])) ++
        (f.unitText ++ f.spaced 7 f.receivers)) := by
      rw [tail, rangeText, hrange, List.append_assoc]
    rw [rest, htail, readWord_gap (f.isGap 5) hword f.head_unitText]
    rfl
  rw [hread]
  refine ⟨sgRange_brackets mn.denotes mx.denotes, ?_⟩
  cases hunit : f.unit with
  | none =>
    have htext : f.unitText = [] := by rw [unitText, hunit]
    rw [htext]
    exact f.sgUnit_spaced 7 f.isReceiver
  | some u => exact f.sgUnit_unitText hunit (f.newline_not_mem_spaced 7 f.isReceiver)

/-- Without a range, the first word of the unit or the first receiver is read as one, and there is
no unit. -/
lemma rest_no_range (hrange : f.range = none) :
    sgRange stod f.rest.1 = none ∧ sgUnit f.rest.2 = [] := by
  have htail : f.tail = f.unitText ++ f.spaced 7 f.receivers := by
    rw [tail, rangeText, hrange, List.nil_append]
  cases hunit : f.unit with
  | none =>
    have hreceivers := f.isReceiver
    have htext : f.tail = f.spaced 7 f.receivers := by
      rw [htail, unitText, hunit, List.nil_append]
    rw [rest, htext]
    cases hcase : f.receivers with
    | nil => exact ⟨rfl, rfl⟩
    | cons w ws =>
      rw [hcase, List.forall_mem_cons] at hreceivers
      rw [spaced, readWord_gap (f.isGap 7) hreceivers.1.toIsWord (f.head_spaced 8 ws)]
      exact ⟨sgRange_of_head hreceivers.1.head, f.sgUnit_spaced 8 hreceivers.2⟩
  | some u =>
    have htext : f.tail = f.gap 6 ++ '"' :: (u ++ '"' :: f.spaced 7 f.receivers) := by
      simp [htail, unitText, hunit]
    have hskip : f.tail.dropWhile isSpace = '"' :: (u ++ '"' :: f.spaced 7 f.receivers) := by
      rw [htext, List.dropWhile_append_of_pos (f.isGap 6).isSpace]
      rfl
    have hread : f.rest = ('"' :: (u ++ '"' :: f.spaced 7 f.receivers).takeWhile (!isSpace ·),
        (u ++ '"' :: f.spaced 7 f.receivers).dropWhile (!isSpace ·)) := by
      simp only [rest, readWord, hskip]
      rfl
    rw [hread]
    refine ⟨sgRange_of_head (by simp), sgUnit_of_count ?_⟩
    -- The opening quote has been read, so only the closing one is left.
    have hcount : (u ++ '"' :: f.spaced 7 f.receivers).count '"' = 1 := by
      rw [List.count_append, List.count_cons_self, f.count_quote_spaced 7 f.isReceiver,
        List.count_eq_zero.mpr (f.isUnit u hunit).1]
    exact ((List.dropWhile_sublist _).count_le _).trans hcount.le

/-- The optional parts are kept exactly if no marker has the colon glued to it and there is a range,
or no unit that could be lost. -/
theorem kept_iff [Zero D] [One D] : f.Kept ↔
    (f.glued = false ∨ f.mux = none) ∧ (f.range.isSome = true ∨ f.unit.getD [] = []) := by
  by_cases hcolon : f.glued = false ∨ f.mux = none
  · have hkept : f.Kept ↔ (sgRange stod f.rest.1).getD (0, 0) =
        (f.range.map fun r => (r.1.value, r.2.value)).getD (0, 0) ∧
          sgUnit f.rest.2 = f.unit.getD [] := by
      simp only [Kept, f.parseSg_line hcolon, Except.ok.injEq, exists_eq_left', Prod.mk.eta]
      rfl
    rw [hkept, and_iff_right hcolon]
    cases hrange : f.range with
    | none =>
      obtain ⟨hnone, hunit⟩ := f.rest_no_range hrange
      rw [hnone, hunit]
      simp only [Option.getD_none, Option.map_none, true_and, Option.isSome_none,
        Bool.false_eq_true, false_or]
      exact eq_comm
    | some r =>
      obtain ⟨hsome, hunit⟩ := f.rest_range hrange
      rw [hsome, hunit]
      simp
  · apply iff_of_false
    · rintro ⟨sig, hsig, -⟩
      rw [not_or, Bool.not_eq_false, ← ne_eq, Option.ne_none_iff_exists'] at hcolon
      obtain ⟨hglued, x, hmux⟩ := hcolon
      obtain ⟨name, r, -, -, -, -, -, -, -, -, -, -, hname, -⟩ := parseSg_eq_ok_iff.mp hsig
      exact f.sgName_glued_mux hglued hmux _ hname
    · exact fun h => hcolon h.1

end SgForm

def Decimal.ofNat (n : ℕ) : Decimal stodInteger :=
  ⟨decimal n, _, denotes_stodInteger (isNumeral_decimal n)⟩

/-- A unit without a range. -/
def unitForm : SgForm stodInteger where
  name := "Speed".toList
  mux := none
  glued := false
  start := ⟨['0'], 0, by simp [cNat, splitBase, valueOf, digitVal], by norm_num⟩
  length := ⟨['8'], 8, by simp [cNat, splitBase, valueOf, digitVal], by norm_num⟩
  littleEndian := false
  isSigned := false
  factor := .ofNat 1
  offset := .ofNat 0
  range := none
  unit := some "rpm".toList
  receivers := ["ECU".toList]
  indent := []
  gap _ := [' ']
  isName := ⟨by simp, by simp [isSpace], by simp⟩
  isMux := by simp
  isUnit := by simp
  isReceiver := by
    rw [List.forall_mem_singleton]
    exact ⟨⟨by simp, by simp [isSpace]⟩, by simp, by simp⟩
  isIndent := by simp
  isGap _ := ⟨by simp, by simp⟩

/-- The unit `rpm` is lost. -/
theorem unitForm_not_kept :
    unitForm.line = "SG_ Speed : 0|8@1+ (1,0) \"rpm\" ECU".toList ∧ ¬ unitForm.Kept := by
  refine ⟨rfl, ?_⟩
  rintro ⟨sig, hsig, -, hunit⟩
  have hread : parseSg stodInteger unitForm.line =
      .ok ⟨"Speed".toList, 0, 8, 1, 0, 0, 0, [], false, false⟩ := rfl
  rw [hread] at hsig
  cases hsig
  exact absurd hunit (by decide)

end BusTestPlatform

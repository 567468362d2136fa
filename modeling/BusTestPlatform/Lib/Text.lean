import Mathlib

/-!
# Text as C++ reads it

A string is the list of its characters. `getlines` and `readWord` read a stream by lines and by
words, `stoul` reads an unsigned number in the notation of C, and `decimal` and `hex` write one.
-/

namespace Text

/-- `std::isspace` in the "C" locale. -/
def isSpace (c : Char) : Bool :=
  c == ' ' || c == '\t' || c == '\n' || c == '\x0b' || c == '\x0c' || c == '\r'

/-- Puts a character before the first line. -/
def consFirst (c : Char) : List (List Char) → List (List Char)
  | [] => [[c]]
  | l :: ls => (c :: l) :: ls

/-- The lines that `std::getline` gives until the stream ends. -/
def getlines : List Char → List (List Char)
  | [] => []
  | c :: cs => if c = '\n' then [] :: getlines cs else consFirst c (getlines cs)

/-- Lines with line ends between them. -/
def joinLines : List (List Char) → List Char
  | [] => []
  | [l] => l
  | l :: l' :: ls => l ++ '\n' :: joinLines (l' :: ls)

/-- `stream >> word`: the next word and what is left of the stream. -/
def readWord (s : List Char) : Option (List Char × List Char) :=
  let t := s.dropWhile isSpace
  if t = [] then none else some (t.takeWhile (!isSpace ·), t.dropWhile (!isSpace ·))

/-- `s.find(c)`. -/
def find (c : Char) (s : List Char) : Option ℕ := s.idxOf? c

/-- `%u`. -/
def decimal (n : ℕ) : List Char := Nat.toDigits 10 n

/-- `%X`. -/
def hex (n : ℕ) : List Char := (Nat.toDigits 16 n).map Char.toUpper

/-- A field of at least `w` characters, with zeros in front. -/
def zeroPad (w : ℕ) (s : List Char) : List Char := s.leftpad w '0'

/-! ### Lines -/

lemma getlines_append_cons {l : List Char} (hl : '\n' ∉ l) (t : List Char) :
    getlines (l ++ '\n' :: t) = l :: getlines t := by
  induction l with
  | nil => simp [getlines]
  | cons c l ih =>
    rw [List.mem_cons, not_or] at hl
    rw [List.cons_append, getlines, if_neg (Ne.symm hl.1), ih hl.2]
    rfl

lemma getlines_of_not_mem {l : List Char} (hl : '\n' ∉ l) (hne : l ≠ []) : getlines l = [l] := by
  induction l with
  | nil => exact absurd rfl hne
  | cons c l ih =>
    rw [List.mem_cons, not_or] at hl
    rw [getlines, if_neg (Ne.symm hl.1)]
    by_cases hnil : l = []
    · rw [hnil]
      rfl
    · rw [ih hl.2 hnil]
      rfl

/-- Reading lines gives back what was joined, an empty last line apart. -/
lemma getlines_joinLines {ls : List (List Char)} (hls : ∀ l ∈ ls, '\n' ∉ l)
    {p : List Char → Bool} (hp : p [] = false) :
    (getlines (joinLines ls)).filter p = ls.filter p := by
  induction ls with
  | nil => rfl
  | cons l ls ih =>
    rw [List.forall_mem_cons] at hls
    cases ls with
    | nil =>
      by_cases hnil : l = []
      · simp [joinLines, hnil, getlines, hp]
      · rw [joinLines, getlines_of_not_mem hls.1 hnil]
    | cons l' ls =>
      rw [joinLines, getlines_append_cons hls.1, List.filter_cons, ih hls.2, ← List.filter_cons]

lemma consFirst_append {c : Char} {ls : List (List Char)} (hls : ls ≠ []) (ls' : List (List Char)) :
    consFirst c (ls ++ ls') = consFirst c ls ++ ls' := by
  obtain ⟨l, ls, rfl⟩ := List.exists_cons_of_ne_nil hls
  rfl

lemma consFirst_ne_nil (c : Char) (ls : List (List Char)) : consFirst c ls ≠ [] := by
  cases ls <;> simp [consFirst]

/-- There is no line end in a line. -/
lemma newline_not_mem_line {s : List Char} : ∀ l ∈ getlines s, '\n' ∉ l := by
  induction s with
  | nil => exact List.forall_mem_nil _
  | cons c s ih =>
    rw [getlines]
    split_ifs with hc
    · exact List.forall_mem_cons.mpr ⟨List.not_mem_nil, ih⟩
    · cases hs : getlines s with
      | nil => simpa [consFirst] using Ne.symm hc
      | cons l ls =>
        rw [hs, List.forall_mem_cons] at ih
        rw [consFirst, List.forall_mem_cons, List.mem_cons, not_or]
        exact ⟨⟨Ne.symm hc, ih.1⟩, ih.2⟩

lemma getlines_ne_nil {s : List Char} (hs : s ≠ []) : getlines s ≠ [] := by
  obtain ⟨c, s, rfl⟩ := List.exists_cons_of_ne_nil hs
  rw [getlines]
  split_ifs
  · simp
  · exact consFirst_ne_nil c _

/-- A line end separates the lines of two texts. -/
lemma getlines_append_newline (s t : List Char) :
    getlines (s ++ '\n' :: t) = getlines (s ++ ['\n']) ++ getlines t := by
  induction s with
  | nil => simp [getlines]
  | cons c s ih =>
    simp only [List.cons_append, getlines, ih]
    split_ifs
    · rfl
    · exact consFirst_append (getlines_ne_nil (by simp)) _

/-- A line end closes the last line, or makes one more, which is empty. -/
lemma getlines_concat_newline (s : List Char) : getlines (s ++ ['\n']) = getlines s ∨
    getlines (s ++ ['\n']) = getlines s ++ [[]] := by
  induction s with
  | nil => exact Or.inr (by simp [getlines])
  | cons c s ih =>
    simp only [List.cons_append, getlines]
    split_ifs
    · exact ih.imp (congrArg _) (congrArg _)
    · by_cases hs : s = []
      · subst hs
        exact Or.inl (by simp [getlines, consFirst])
      · rcases ih with ih | ih
        · exact Or.inl (by rw [ih])
        · exact Or.inr (by rw [ih, consFirst_append (getlines_ne_nil hs)])

/-- The lines that matter, when empty ones do not. -/
lemma filter_getlines_append {p : List Char → Bool} (hp : p [] = false) (s t : List Char) :
    (getlines (s ++ '\n' :: t)).filter p = (getlines s).filter p ++ (getlines t).filter p := by
  rw [getlines_append_newline, List.filter_append]
  congr 1
  rcases getlines_concat_newline s with h | h
  · rw [h]
  · rw [h, List.filter_append, List.filter_cons_of_neg (by simp [hp]), List.filter_nil,
      List.append_nil]

/-! ### Words -/

lemma readWord_append {b w r : List Char} (hb : ∀ c ∈ b, isSpace c = true) (hw : w ≠ [])
    (hword : ∀ c ∈ w, isSpace c = false) (hr : ∀ c ∈ r.head?, isSpace c = true) :
    readWord (b ++ (w ++ r)) = some (w, r) := by
  obtain ⟨c, w, rfl⟩ := List.exists_cons_of_ne_nil hw
  have hskip : (b ++ (c :: w ++ r)).dropWhile isSpace = c :: w ++ r := by
    rw [List.dropWhile_append_of_pos hb]
    exact List.dropWhile_cons_of_neg (by simp [hword c List.mem_cons_self])
  have hr' : r.takeWhile (!isSpace ·) = [] ∧ r.dropWhile (!isSpace ·) = r := by
    cases r with
    | nil => exact ⟨rfl, rfl⟩
    | cons d r => simp [hr d rfl]
  have hneg : ∀ d ∈ c :: w, (!isSpace d) = true := by simpa using hword
  simp only [readWord, hskip]
  rw [if_neg (by simp), List.takeWhile_append_of_pos hneg, List.dropWhile_append_of_pos hneg,
    hr'.1, hr'.2, List.append_nil]

/-- A word between blanks. -/
lemma readWord_between {b w b' r : List Char} (hb : ∀ c ∈ b, isSpace c = true) (hw : w ≠ [])
    (hword : ∀ c ∈ w, isSpace c = false) (hb' : ∀ c ∈ b', isSpace c = true) (hne : b' ≠ []) :
    readWord (b ++ (w ++ (b' ++ r))) = some (w, b' ++ r) := by
  refine readWord_append hb hw hword fun c hc => ?_
  rw [List.head?_append_of_ne_nil _ hne] at hc
  exact hb' c (List.mem_of_mem_head? hc)

/-- A word after one space. -/
lemma readWord_spaced {w r : List Char} (hw : w ≠ []) (hword : ∀ c ∈ w, isSpace c = false)
    (hr : ∀ c ∈ r.head?, isSpace c = true) : readWord (' ' :: (w ++ r)) = some (w, r) :=
  readWord_append (b := [' ']) (by simp [isSpace]) hw hword hr

lemma find_append_cons {c : Char} {s t : List Char} (h : c ∉ s) :
    find c (s ++ c :: t) = some s.length := by
  induction s with
  | nil => simp [find, List.idxOf?_cons]
  | cons d s ih =>
    rw [List.mem_cons, not_or] at h
    have hd : (d == c) = false := by simpa using Ne.symm h.1
    simpa [find, List.idxOf?_cons, hd] using ih h.2

/-! ### Numbers -/

/-- The value of a digit or letter, 36 for other characters. -/
def digitVal (c : Char) : ℕ :=
  if '0' ≤ c ∧ c ≤ '9' then c.toNat - '0'.toNat
  else if 'a' ≤ c ∧ c ≤ 'z' then c.toNat - 'a'.toNat + 10
  else if 'A' ≤ c ∧ c ≤ 'Z' then c.toNat - 'A'.toNat + 10
  else 36

/-- The number that digits denote in base `b`, the most significant first. -/
def valueOf (b : ℕ) (ds : List Char) : ℕ := Nat.ofDigits b (ds.map digitVal).reverse

/-- The base of a numeral, and the numeral without the prefix `0x`. -/
def splitBase (s : List Char) : ℕ × List Char :=
  match s with
  | '0' :: x :: d :: ds =>
    if (x = 'x' ∨ x = 'X') ∧ digitVal d < 16 then (16, d :: ds) else (8, s)
  | '0' :: _ => (8, s)
  | _ => (10, s)

/-- `std::stoul(s, &pos, 0)` for an `unsigned long` of `w` bits: the value and `pos`, or an
exception. A negative number is taken modulo `2 ^ w`. -/
def stoul (w : ℕ) (s : List Char) : Option (ℕ × ℕ) :=
  let t := s.dropWhile isSpace
  let u := if t.head? = some '-' ∨ t.head? = some '+' then t.tail else t
  let (b, r) := splitBase u
  let ds := r.takeWhile (digitVal · < b)
  let v := valueOf b ds
  if ds = [] ∨ 2 ^ w ≤ v then none
  else some (if t.head? = some '-' then (2 ^ w - v) % 2 ^ w else v,
    s.length - r.length + ds.length)

lemma isSpace_of_digitVal {c : Char} (hc : digitVal c < 36) : isSpace c = false := by
  by_contra h
  simp only [isSpace, Bool.not_eq_false, Bool.or_eq_true, beq_iff_eq] at h
  rcases h with ((((rfl | rfl) | rfl) | rfl) | rfl) | rfl <;> exact absurd hc (by decide)

lemma isSpace_of_digit {c : Char} (hc : digitVal c < 10) : isSpace c = false :=
  isSpace_of_digitVal (hc.trans (by decide))

/-- Decimal digits, at least one. -/
def IsNumeral (s : List Char) : Prop := s ≠ [] ∧ ∀ c ∈ s, digitVal c < 10

instance (s : List Char) : Decidable (IsNumeral s) :=
  inferInstanceAs (Decidable (s ≠ [] ∧ ∀ c ∈ s, digitVal c < 10))

/-- The base in which C reads a decimal numeral. -/
def baseOf (s : List Char) : ℕ := if s.head? = some '0' then 8 else 10

lemma IsNumeral.not_mem {s : List Char} (h : IsNumeral s) {c : Char} (hc : ¬ digitVal c < 10) :
    c ∉ s :=
  fun hmem => hc (h.2 c hmem)

/-- Reading a numeral as octal does not make it larger. -/
lemma valueOf_baseOf_le (s : List Char) : valueOf (baseOf s) s ≤ valueOf 10 s := by
  refine Nat.ofDigits_monotone _ ?_
  unfold baseOf
  split_ifs <;> decide

lemma IsNumeral.splitBase_eq {s : List Char} (h : IsNumeral s) :
    splitBase s = (baseOf s, s) := by
  unfold splitBase
  split
  · next x d ds =>
    have hx : digitVal x < 10 := h.2 x (by simp)
    rw [if_neg]
    · rfl
    · rintro ⟨rfl | rfl, -⟩ <;> exact absurd hx (by decide)
  · rfl
  · next hne =>
    obtain ⟨c, cs, rfl⟩ := List.exists_cons_of_ne_nil h.1
    have hc : c ≠ '0' := fun hc => hne cs (by rw [hc])
    simp [baseOf, hc]

/-- A numeral that is read to its end is read in the base that C gives it. -/
lemma IsNumeral.stoul_eq {w : ℕ} {s : List Char} {v : ℕ} (h : IsNumeral s)
    (hv : stoul w s = some (v, s.length)) : v = valueOf (baseOf s) s := by
  obtain ⟨c, cs, rfl⟩ := List.exists_cons_of_ne_nil h.1
  have hc : digitVal c < 10 := h.2 c List.mem_cons_self
  have hsign : c ≠ '-' ∧ c ≠ '+' := by
    constructor <;> rintro rfl <;> exact absurd hc (by decide)
  have hskip : (c :: cs).dropWhile isSpace = c :: cs :=
    List.dropWhile_cons_of_neg (by simp [isSpace_of_digit hc])
  simp only [stoul, hskip, List.head?_cons, Option.some.injEq, hsign.1, hsign.2, or_self, if_false,
    h.splitBase_eq, Nat.sub_self, Nat.zero_add, Option.ite_none_left_eq_some, Prod.mk.injEq] at hv
  obtain ⟨-, rfl, hlen⟩ := hv
  rw [(List.takeWhile_prefix _).eq_of_length hlen]

/-- A numeral whose digits all belong to the base that C gives it is read to its end. -/
lemma IsNumeral.stoul_some {w : ℕ} {s : List Char} (h : IsNumeral s)
    (hdigits : ∀ c ∈ s, digitVal c < baseOf s) (hlt : valueOf (baseOf s) s < 2 ^ w) :
    stoul w s = some (valueOf (baseOf s) s, s.length) := by
  obtain ⟨c, cs, rfl⟩ := List.exists_cons_of_ne_nil h.1
  have hc : digitVal c < 10 := h.2 c List.mem_cons_self
  have hsign : c ≠ '-' ∧ c ≠ '+' := by
    constructor <;> rintro rfl <;> exact absurd hc (by decide)
  have hskip : (c :: cs).dropWhile isSpace = c :: cs :=
    List.dropWhile_cons_of_neg (by simp [isSpace_of_digit hc])
  have hall : (c :: cs).takeWhile (digitVal · < baseOf (c :: cs)) = c :: cs :=
    List.takeWhile_eq_self_iff.mpr fun d hd => decide_eq_true (hdigits d hd)
  simp only [stoul, hskip, List.head?_cons, Option.some.injEq, hsign.1, hsign.2, or_self, if_false,
    h.splitBase_eq, hall, Nat.sub_self, Nat.zero_add]
  rw [if_neg]
  simp [hlt]

/-! ### Whole tokens -/

/-- The number that an unsigned token denotes in the notation of C. -/
def cNat (s : List Char) : Option ℕ :=
  let (b, r) := splitBase s
  if r ≠ [] ∧ ∀ c ∈ r, digitVal c < b then some (valueOf b r) else none

/-- The token begins with a sign. -/
def hasSign (s : List Char) : Bool := s.head? == some '-' || s.head? == some '+'

/-- The token without its sign. -/
def unsigned (s : List Char) : List Char := if hasSign s then s.tail else s

/-- The integer that a token denotes in the notation of C. -/
def cInt (s : List Char) : Option ℤ :=
  (cNat (unsigned s)).map fun n : ℕ => if s.head? = some '-' then -(n : ℤ) else n

lemma cNat_eq_some_iff {s : List Char} {n : ℕ} : cNat s = some n ↔
    (splitBase s).2 ≠ [] ∧ (∀ c ∈ (splitBase s).2, digitVal c < (splitBase s).1) ∧
      valueOf (splitBase s).1 (splitBase s).2 = n := by
  simp only [cNat, Option.ite_none_right_eq_some, Option.some.injEq, and_assoc]

/-- The prefix is all that is split off. -/
lemma splitBase_cases (s : List Char) : (splitBase s).1 ≤ 16 ∧ ((splitBase s).2 = s ∨
    ∃ x, (x = 'x' ∨ x = 'X') ∧ s = '0' :: x :: (splitBase s).2) := by
  unfold splitBase
  split
  · split_ifs with h
    · exact ⟨le_rfl, Or.inr ⟨_, h.1, rfl⟩⟩
    · exact ⟨by simp, Or.inl rfl⟩
  · exact ⟨by simp, Or.inl rfl⟩
  · exact ⟨by simp, Or.inl rfl⟩

lemma splitBase_suffix (s : List Char) : (splitBase s).2 <:+ s := by
  obtain ⟨-, hall | ⟨x, -, hall⟩⟩ := splitBase_cases s
  · exact ⟨[], hall⟩
  · exact ⟨['0', x], hall.symm⟩

/-- A numeral consists of digits and letters. -/
lemma digitVal_of_cNat {s : List Char} {n : ℕ} (h : cNat s = some n) :
    ∀ c ∈ s, digitVal c < 36 := by
  obtain ⟨-, hdigits, -⟩ := cNat_eq_some_iff.mp h
  obtain ⟨hbase, hall | ⟨x, hx, hall⟩⟩ := splitBase_cases s
  · rw [hall] at hdigits
    intro c hc
    exact (hdigits c hc).trans (by omega)
  · rw [hall]
    intro c hc
    rcases List.mem_cons.mp hc with rfl | hc
    · decide
    rcases List.mem_cons.mp hc with rfl | hc
    · rcases hx with rfl | rfl <;> decide
    · exact (hdigits c hc).trans (by omega)

lemma hasSign_of_cNat {s : List Char} {n : ℕ} (h : cNat s = some n) : hasSign s = false := by
  cases s with
  | nil => rfl
  | cons c s =>
    have hc : digitVal c < 36 := digitVal_of_cNat h c List.mem_cons_self
    have hminus : c ≠ '-' := by
      rintro rfl
      exact absurd hc (by decide)
    have hplus : c ≠ '+' := by
      rintro rfl
      exact absurd hc (by decide)
    simp [hasSign, hminus, hplus]

/-- A token that denotes an integer is a number if it has no sign. -/
lemma cNat_isSome_iff {s : List Char} {z : ℤ} (h : cInt s = some z) :
    (∃ n, cNat s = some n) ↔ hasSign s = false := by
  constructor
  · rintro ⟨n, hn⟩
    exact hasSign_of_cNat hn
  · intro hsign
    rw [cInt, Option.map_eq_some_iff] at h
    obtain ⟨n, hn, -⟩ := h
    rw [unsigned, hsign, if_neg Bool.false_ne_true] at hn
    exact ⟨n, hn⟩

lemma ne_nil_of_cInt {s : List Char} {z : ℤ} (h : cInt s = some z) : s ≠ [] := by
  rintro rfl
  cases h

lemma hasSign_append {s : List Char} (hs : s ≠ []) (t : List Char) :
    hasSign (s ++ t) = hasSign s := by
  simp only [hasSign, List.head?_append_of_ne_nil s hs]

/-- Without a sign, an integer is a number. -/
lemma cInt_of_cNat {s : List Char} {n : ℕ} (h : cNat s = some n) : cInt s = some (n : ℤ) := by
  have hsign := hasSign_of_cNat h
  have hminus : s.head? ≠ some '-' := by
    intro hc
    simp [hasSign, hc] at hsign
  rw [cInt, unsigned, hsign, if_neg Bool.false_ne_true, h, Option.map_some, if_neg hminus]

lemma unsigned_suffix (s : List Char) : unsigned s <:+ s := by
  rw [unsigned]
  split_ifs
  · exact List.tail_suffix s
  · exact List.suffix_rfl

/-- A negative number is read as its complement. -/
lemma emod_neg_natCast {w n : ℕ} (h : n < 2 ^ w) :
    (((2 ^ w - n) % 2 ^ w : ℕ) : ℤ) = -(n : ℤ) % 2 ^ w := by
  rw [Int.natCast_emod, Nat.cast_sub h.le]
  push_cast
  rw [sub_eq_neg_add, Int.add_emod_right]

/-- A token is read to its end when it denotes an integer whose magnitude has `w` bits. -/
lemma stoul_eq_some_iff {w : ℕ} {s : List Char} {v : ℕ} (hs : ∀ c ∈ s.head?, isSpace c = false) :
    stoul w s = some (v, s.length) ↔
      ∃ z, cInt s = some z ∧ |z| < 2 ^ w ∧ (v : ℤ) = z % 2 ^ w := by
  have hskip : s.dropWhile isSpace = s := by
    cases s with
    | nil => rfl
    | cons c cs => exact List.dropWhile_cons_of_neg (by simp [hs c rfl])
  have hsign : (if s.head? = some '-' ∨ s.head? = some '+' then s.tail else s) = unsigned s := by
    simp [unsigned, hasSign]
  have hlen := ((splitBase_suffix (unsigned s)).trans (unsigned_suffix s)).length_le
  simp only [stoul, hskip, hsign, cInt, cNat]
  generalize (splitBase (unsigned s)).1 = b at hlen ⊢
  generalize (splitBase (unsigned s)).2 = r at hlen ⊢
  by_cases hall : ∀ c ∈ r, digitVal c < b
  · have hds : r.takeWhile (digitVal · < b) = r :=
      List.takeWhile_eq_self_iff.mpr (by simpa using hall)
    have habs : |if s.head? = some '-' then -(valueOf b r : ℤ) else valueOf b r| = valueOf b r := by
      split_ifs <;> simp
    by_cases hnil : r = []
    · simp [hnil]
    · have hnumber : (if r ≠ [] ∧ ∀ c ∈ r, digitVal c < b then some (valueOf b r) else none) =
          some (valueOf b r) := if_pos ⟨hnil, hall⟩
      rw [hds, Nat.sub_add_cancel hlen, hnumber]
      simp only [hnil, false_or, Option.map_some, Option.some.injEq, exists_eq_left', habs,
        Option.ite_none_left_eq_some, Prod.mk.injEq, and_true, not_le]
      have hcast : ((valueOf b r : ℕ) : ℤ) < 2 ^ w ↔ valueOf b r < 2 ^ w := by
        exact_mod_cast Iff.rfl
      rw [hcast]
      refine and_congr_right fun hlt => ?_
      split_ifs
      · rw [← emod_neg_natCast hlt, Int.natCast_inj, eq_comm]
      · rw [Int.emod_eq_of_lt (Int.natCast_nonneg _) (hcast.mpr hlt), Int.natCast_inj, eq_comm]
  · have hshort : s.length - r.length + (r.takeWhile (digitVal · < b)).length ≠ s.length := by
      intro h
      have hle := (r.takeWhile_prefix (digitVal · < b)).length_le
      have heq := (r.takeWhile_prefix (digitVal · < b)).eq_of_length (by omega)
      exact hall (by simpa using List.takeWhile_eq_self_iff.mp heq)
    simp [hall, hshort]

/-- A numeral denotes its value in the base that C gives it. -/
lemma IsNumeral.cInt_eq {s : List Char} {z : ℤ} (h : IsNumeral s) (hz : cInt s = some z) :
    z = valueOf (baseOf s) s := by
  obtain ⟨c, cs, rfl⟩ := List.exists_cons_of_ne_nil h.1
  have hc : digitVal c < 10 := h.2 c List.mem_cons_self
  have hminus : c ≠ '-' := by
    rintro rfl
    exact absurd hc (by decide)
  have hplus : c ≠ '+' := by
    rintro rfl
    exact absurd hc (by decide)
  have hunsigned : unsigned (c :: cs) = c :: cs := by simp [unsigned, hasSign, hminus, hplus]
  rw [cInt, hunsigned, Option.map_eq_some_iff] at hz
  obtain ⟨n, hn, rfl⟩ := hz
  obtain ⟨-, -, rfl⟩ := cNat_eq_some_iff.mp hn
  simp [hminus, h.splitBase_eq]

/-! ### Decimal numerals -/

lemma digitVal_digitChar {d : ℕ} (hd : d < 10) : digitVal (Nat.digitChar d) = d := by
  interval_cases d <;> rfl

lemma valueOf_concat (b : ℕ) (ds : List Char) (c : Char) :
    valueOf b (ds ++ [c]) = b * valueOf b ds + digitVal c := by
  simp [valueOf, Nat.ofDigits_cons, Nat.add_comm]

/-- A numeral is its last digit after the numeral of the rest. -/
lemma decimal_of_ge {n : ℕ} (h : 10 ≤ n) :
    decimal n = decimal (n / 10) ++ [Nat.digitChar (n % 10)] :=
  Nat.toDigits_of_base_le (by decide) h

lemma decimal_of_lt {n : ℕ} (h : n < 10) : decimal n = [Nat.digitChar n] :=
  Nat.toDigits_of_lt_base h

lemma valueOf_decimal (n : ℕ) : valueOf 10 (decimal n) = n := by
  induction n using Nat.strong_induction_on with
  | _ n ih =>
    rcases Nat.lt_or_ge n 10 with h | h
    · rw [decimal_of_lt h]
      simp [valueOf, digitVal_digitChar h]
    · rw [decimal_of_ge h, valueOf_concat, ih _ (Nat.div_lt_self (by omega) (by decide)),
        digitVal_digitChar (Nat.mod_lt n (by decide)), Nat.div_add_mod]

lemma isNumeral_decimal (n : ℕ) : IsNumeral (decimal n) := by
  induction n using Nat.strong_induction_on with
  | _ n ih =>
    rcases Nat.lt_or_ge n 10 with h | h
    · rw [decimal_of_lt h]
      simp [IsNumeral, digitVal_digitChar h, h]
    · rw [decimal_of_ge h]
      refine ⟨by simp, fun c hc => ?_⟩
      rcases List.mem_append.mp hc with hc | hc
      · exact (ih _ (Nat.div_lt_self (by omega) (by decide))).2 c hc
      · rw [List.mem_singleton.mp hc, digitVal_digitChar (Nat.mod_lt n (by decide))]
        exact Nat.mod_lt n (by decide)

/-- There is no leading zero. -/
lemma head_decimal {n : ℕ} (hn : n ≠ 0) : (decimal n).head? ≠ some '0' := by
  induction n using Nat.strong_induction_on with
  | _ n ih =>
    rcases Nat.lt_or_ge n 10 with h | h
    · rw [decimal_of_lt h]
      interval_cases n <;> first | exact absurd rfl hn | decide
    · rw [decimal_of_ge h, List.head?_append_of_ne_nil _ (isNumeral_decimal _).1]
      exact ih _ (Nat.div_lt_self (by omega) (by decide)) (by omega)

/-- A decimal numeral is read back, whatever C makes of a leading zero. -/
lemma stoul_decimal {w n : ℕ} (h : n < 2 ^ w) :
    stoul w (decimal n) = some (n, (decimal n).length) := by
  by_cases hn : n = 0
  · subst hn
    have hzero : decimal 0 = ['0'] := rfl
    rw [hzero]
    exact (hzero ▸ isNumeral_decimal 0 : IsNumeral ['0']).stoul_some
      (by simp [digitVal, baseOf]) (by simp [valueOf, digitVal])
  · have hbase : baseOf (decimal n) = 10 := if_neg (head_decimal hn)
    have hread := (isNumeral_decimal n).stoul_some (w := w)
    rw [hbase, valueOf_decimal] at hread
    exact hread (isNumeral_decimal n).2 h

/-! ### Hexadecimal numerals and fields of a fixed width -/

lemma digitVal_toUpper_digitChar {d : ℕ} (hd : d < 16) :
    digitVal (Nat.digitChar d).toUpper = d := by
  interval_cases d <;> rfl

lemma hex_of_ge {n : ℕ} (h : 16 ≤ n) :
    hex n = hex (n / 16) ++ [(Nat.digitChar (n % 16)).toUpper] := by
  rw [hex, Nat.toDigits_of_base_le (by decide) h, List.map_append]
  rfl

lemma hex_of_lt {n : ℕ} (h : n < 16) : hex n = [(Nat.digitChar n).toUpper] := by
  rw [hex, Nat.toDigits_of_lt_base h]
  rfl

lemma valueOf_hex (n : ℕ) : valueOf 16 (hex n) = n := by
  induction n using Nat.strong_induction_on with
  | _ n ih =>
    rcases Nat.lt_or_ge n 16 with h | h
    · rw [hex_of_lt h]
      simp [valueOf, digitVal_toUpper_digitChar h]
    · rw [hex_of_ge h, valueOf_concat, ih _ (Nat.div_lt_self (by omega) (by decide)),
        digitVal_toUpper_digitChar (Nat.mod_lt n (by decide)), Nat.div_add_mod]

lemma digitVal_of_mem_hex {n : ℕ} {c : Char} (hc : c ∈ hex n) : digitVal c < 16 := by
  induction n using Nat.strong_induction_on with
  | _ n ih =>
    rcases Nat.lt_or_ge n 16 with h | h
    · rw [hex_of_lt h, List.mem_singleton] at hc
      rw [hc, digitVal_toUpper_digitChar h]
      exact h
    · rw [hex_of_ge h, List.mem_append, List.mem_singleton] at hc
      rcases hc with hc | rfl
      · exact ih _ (Nat.div_lt_self (by omega) (by decide)) hc
      · rw [digitVal_toUpper_digitChar (Nat.mod_lt n (by decide))]
        exact Nat.mod_lt n (by decide)

lemma hex_injective : Function.Injective hex :=
  Function.LeftInverse.injective (g := valueOf 16) valueOf_hex

lemma decimal_injective : Function.Injective decimal :=
  Function.LeftInverse.injective (g := valueOf 10) valueOf_decimal

lemma length_decimal_le {n k : ℕ} (hk : 0 < k) (hn : n < 10 ^ k) : (decimal n).length ≤ k :=
  Nat.toDigits_length 10 n k hk hn

lemma length_hex_le {n k : ℕ} (hk : 0 < k) (hn : n < 16 ^ k) : (hex n).length ≤ k := by
  rw [hex, List.length_map]
  exact Nat.toDigits_length 16 n k hk hn

/-- Zeros in front do not change the value. -/
lemma valueOf_zeroPad (b w : ℕ) (s : List Char) : valueOf b (zeroPad w s) = valueOf b s := by
  have hzero : ∀ k, valueOf b (List.replicate k '0' ++ s) = valueOf b s := by
    intro k
    induction k with
    | zero => rfl
    | succ k ih =>
      rw [← ih, List.replicate_succ, List.cons_append, valueOf, List.map_cons, List.reverse_cons,
        Nat.ofDigits_append]
      simp [digitVal, valueOf]
  exact hzero _

lemma mem_zeroPad {w : ℕ} {s : List Char} {c : Char} (hc : c ∈ zeroPad w s) :
    c = '0' ∨ c ∈ s := by
  rcases List.mem_append.mp hc with h | h
  · exact Or.inl (List.eq_of_mem_replicate h)
  · exact Or.inr h

lemma length_zeroPad {w : ℕ} {s : List Char} (h : s.length ≤ w) : (zeroPad w s).length = w :=
  List.length_leftpad.trans (max_eq_left h)

end Text

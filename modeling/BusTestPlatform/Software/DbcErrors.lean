import BusTestPlatform.Software.DbcComposition

/-!
# What the errors say

An error text is one of a few fixed ones, followed by the first bad line or by a word of it. What it
says about the line does not depend on where the line stands.
-/

namespace BusTestPlatform

open Text

namespace DbcParser

/-- The fixed parts of the texts for `BO_` lines. -/
def boTexts : List (List Char) :=
  ["malformed BO_ line: ".toList, "bad BO_ id: ".toList, "bad BO_ dlc: ".toList]

/-- The fixed parts of the texts for `SG_` lines. -/
def sgTexts : List (List Char) :=
  ["malformed SG_ line: ".toList, "malformed SG_ mux marker: ".toList,
    "unexpected SG_ token: ".toList, "SG_ line missing geometry: ".toList,
    "bad SG_ geometry: ".toList, "bad SG_ start/len: ".toList,
    "bad SG_ byte order/sign: ".toList, "SG_ line missing factor/offset: ".toList,
    "bad SG_ factor/offset: ".toList]

/-- The error is one of the texts, and then the line or a word that follows its keyword. -/
def Names (texts : List (List Char)) (line e : List Char) : Prop :=
  ∃ what ∈ texts, ∃ quoted, e = what ++ quoted ∧ (quoted = line ∨ quoted ∈ words (line.drop 4))

variable {texts : List (List Char)} {line r r' name e tok what : List Char}

lemma names_line (h : what ∈ texts) : Names texts line (what ++ line) :=
  ⟨what, h, line, rfl, Or.inl rfl⟩

lemma names_word (h : what ∈ texts) (htok : tok ∈ words (line.drop 4)) :
    Names texts line (what ++ tok) :=
  ⟨what, h, tok, rfl, Or.inr htok⟩

/-! ### Errors of the parts of a line -/

lemma bind_eq_error {α β : Type} {x : Except (List Char) α} {f : α → Except (List Char) β} :
    x >>= f = .error e ↔ x = .error e ∨ ∃ a, x = .ok a ∧ f a = .error e := by
  cases x with
  | error e => simp [bind, Except.bind]
  | ok a => simp [bind, Except.bind]

@[simp]
lemma orError_eq_error {α : Type} {o : Option α} {e' : List Char} :
    orError e o = .error e' ↔ o = none ∧ e' = e := by
  cases o <;> simp [orError, eq_comm]

@[simp]
lemma word_eq_error {e' : List Char} : word r e = .error e' ↔ readWord r = none ∧ e' = e :=
  orError_eq_error

/-- The words after the next one. -/
lemma words_suffix (h : readWord r = some (tok, r')) : words r' <:+ words r := by
  rw [words_of_readWord h]
  exact List.suffix_cons tok (words r')

lemma mem_words (h : readWord r = some (tok, r')) : tok ∈ words r := by
  rw [words_of_readWord h]
  exact List.mem_cons_self

lemma boName_suffix (h : boName line r = .ok (name, r')) : words r' <:+ words r := by
  rcases boName_eq_ok_iff.mp h with hglued | ⟨-, r₁, hspaced, hcolon⟩
  · exact words_suffix hglued
  · exact (words_suffix hcolon).trans (words_suffix hspaced)

lemma sgName_suffix (h : sgName line = .ok (name, r)) : words r <:+ words (line.drop 4) := by
  rcases sgName_eq_ok_iff.mp h with hglued | ⟨-, r₁, hspaced, hcolon | ⟨x, r₂, hx, -, hcolon⟩⟩
  · exact words_suffix hglued
  · exact (words_suffix hcolon).trans (words_suffix hspaced)
  · exact ((words_suffix hcolon).trans (words_suffix hx)).trans (words_suffix hspaced)

lemma boName_error (h : boName line r = .error e) : e = "malformed BO_ line: ".toList ++ line := by
  simp only [boName, bind_eq_error, word_eq_error, word_eq_ok, Prod.exists] at h
  rcases h with ⟨-, rfl⟩ | ⟨nameTok, r₁, -, h⟩
  · rfl
  · split_ifs at h
    · cases h
    · rcases bind_eq_error.mp h with h | ⟨a, -, h⟩
      · exact (word_eq_error.mp h).2
      · split_ifs at h
        · cases h
        · exact (Except.error.inj h).symm

lemma boDlc_error (h : boDlc tok = .error e) : e = "bad BO_ dlc: ".toList ++ tok := by
  unfold boDlc at h
  split at h
  · exact (Except.error.inj h).symm
  · split_ifs at h
    exact (Except.error.inj h).symm

lemma sgName_error (h : sgName line = .error e) : Names sgTexts line e := by
  simp only [sgName, bind_eq_error, word_eq_error, word_eq_ok, Prod.exists] at h
  rcases h with ⟨-, rfl⟩ | ⟨nameTok, r₁, hname, h⟩
  · exact names_line (by simp [sgTexts])
  · split_ifs at h
    · cases h
    · rcases bind_eq_error.mp h with h | ⟨⟨tok, r₂⟩, htok, h⟩
      · rw [(word_eq_error.mp h).2]
        exact names_line (by simp [sgTexts])
      · have htok := word_eq_ok.mp htok
        dsimp only at h
        split_ifs at h
        · cases h
        · rcases bind_eq_error.mp h with h | ⟨a, -, h⟩
          · rw [(word_eq_error.mp h).2]
            exact names_line (by simp [sgTexts])
          · split_ifs at h
            · cases h
            · cases h
              exact names_line (by simp [sgTexts])
        · cases h
          exact names_word (by simp [sgTexts]) ((words_suffix hname).mem (mem_words htok))

lemma sgGeometry_error {geom : List Char} (h : sgGeometry geom = .error e) :
    ∃ what ∈ sgTexts, e = what ++ geom := by
  unfold sgGeometry at h
  split at h
  · split_ifs at h
    · cases h
      exact ⟨_, by simp [sgTexts], rfl⟩
    · split at h
      · split at h <;> cases h
        exact ⟨_, by simp [sgTexts], rfl⟩
      · cases h
        exact ⟨_, by simp [sgTexts], rfl⟩
  · cases h
    exact ⟨_, by simp [sgTexts], rfl⟩

variable {D : Type} {stod : List Char → Option (D × ℕ)}

lemma parseBo_error (h : parseBo (D := D) line = .error e) : Names boTexts line e := by
  simp only [parseBo, bind_eq_error, word_eq_error, word_eq_ok, orError_eq_error, orError_eq_ok,
    Prod.exists] at h
  rcases h with ⟨-, rfl⟩ | ⟨idTok, r, hid, h | ⟨name, r', hname, h⟩⟩
  · exact names_line (by simp [boTexts])
  · rw [boName_error h]
    exact names_line (by simp [boTexts])
  · rcases h with ⟨-, rfl⟩ | ⟨dlcTok, r'', hdlc, ⟨-, rfl⟩ | ⟨id, -, h⟩⟩
    · exact names_line (by simp [boTexts])
    · exact names_word (by simp [boTexts]) (mem_words hid)
    · rcases h with h | ⟨dlc, -, h⟩
      · rw [boDlc_error h]
        exact names_word (by simp [boTexts])
          ((words_suffix hid).mem ((boName_suffix hname).mem (mem_words hdlc)))
      · cases h

variable [Zero D] [One D]

lemma parseSg_error (h : parseSg stod line = .error e) : Names sgTexts line e := by
  simp only [parseSg, bind_eq_error, word_eq_error, word_eq_ok, Prod.exists] at h
  rcases h with h | ⟨name, r, hname, ⟨-, rfl⟩ | ⟨geom, r', hgeom, h | ⟨_, _, _, _, -, h⟩⟩⟩
  · exact sgName_error h
  · exact names_line (by simp [sgTexts])
  · obtain ⟨what, hwhat, rfl⟩ := sgGeometry_error h
    exact names_word hwhat ((sgName_suffix hname).mem (mem_words hgeom))
  · rcases h with ⟨-, rfl⟩ | ⟨phys, r'', hphys, h | ⟨_, _, -, h⟩⟩
    · exact names_line (by simp [sgTexts])
    · rw [(orError_eq_error.mp h).2]
      exact names_word (by simp [sgTexts])
        ((sgName_suffix hname).mem ((words_suffix hgeom).mem (mem_words hphys)))
    · cases h

/-! ### The first bad line -/

/-- The text for an `SG_` line without a message. -/
def orphanText : List Char := "SG_ line before any BO_ message".toList

/-- The error is about the line itself: it names the line, and the line is rejected with it wherever
there is a message before. -/
def Own (stod : List Char → Option (D × ℕ)) (l e : List Char) : Prop :=
  Names (boTexts ++ sgTexts) (trim l) e ∧
    ∀ ms : List (DbcMessage D), ms ≠ [] → parseLine stod ms l = .error e

variable {ms : List (DbcMessage D)} {l : List Char}

omit [Zero D] [One D] in
lemma Names.mono {texts' : List (List Char)} (h : Names texts line e) (hsub : texts ⊆ texts') :
    Names texts' line e := by
  obtain ⟨what, hwhat, hquoted⟩ := h
  exact ⟨what, hsub hwhat, hquoted⟩

lemma parseLine_error (h : parseLine stod ms l = .error e) :
    (ms = [] ∧ "SG_ ".toList.isPrefixOf (trim l) = true ∧ e = orphanText) ∨ Own stod l e := by
  by_cases hbo : "BO_ ".toList.isPrefixOf (trim l) = true
  · have hbad : parseBo (D := D) (trim l) = .error e := by
      rw [parseLine_eq_bo hbo, bind_eq_error] at h
      rcases h with h | ⟨m, -, h⟩
      · exact h
      · cases h
    refine Or.inr ⟨(parseBo_error hbad).mono (List.subset_append_left _ _), fun ms' _ => ?_⟩
    rw [parseLine_eq_bo hbo, hbad]
    rfl
  · by_cases hsg : "SG_ ".toList.isPrefixOf (trim l) = true
    · rw [parseLine_eq_sg hsg, addSignal] at h
      split at h
      · next hlast =>
        exact Or.inl ⟨List.getLast?_eq_none_iff.mp hlast, hsg, (Except.error.inj h).symm⟩
      · have hbad : parseSg stod (trim l) = .error e := by
          rcases bind_eq_error.mp h with h | ⟨s, -, h⟩
          · exact h
          · cases h
        refine Or.inr ⟨(parseSg_error hbad).mono (List.subset_append_right _ _), fun ms' hms' => ?_⟩
        obtain ⟨m, hm⟩ := Option.ne_none_iff_exists'.mp (mt List.getLast?_eq_none_iff.mp hms')
        rw [parseLine_eq_sg hsg, addSignal, hm, hbad]
        rfl
    · have hskip : isStatement l = false := by
        rw [isStatement, Bool.or_eq_false_iff]
        exact ⟨Bool.eq_false_of_not_eq_true hbo, Bool.eq_false_of_not_eq_true hsg⟩
      rw [parseLine_of_not_isStatement hskip] at h
      cases h

/-- The loop stops at the first line that is bad where it stands. -/
lemma exists_first_bad {ls : List (List Char)} (h : (parseLines stod ms ls).error = some e) :
    ∃ pre l post, ls = pre ++ l :: post ∧
      parseLines stod ms pre = ⟨(parseLines stod ms ls).messages, none⟩ ∧
      parseLine stod (parseLines stod ms ls).messages l = .error e := by
  induction ls generalizing ms with
  | nil => cases h
  | cons l ls ih =>
    rw [parseLines] at h ⊢
    split at h
    · next e' hl =>
      cases h
      exact ⟨[], l, ls, rfl, rfl, hl⟩
    · next ms' hl =>
      obtain ⟨pre, l', post, rfl, hpre, hbad⟩ := ih h
      refine ⟨l :: pre, l', post, rfl, ?_, hbad⟩
      rw [parseLines, hl]
      exact hpre

/-- **Errors.** A text that is rejected has a first bad line: what comes before it is accepted and
is what the parser keeps. Either it is an `SG_` line, without a message before, and the error says
so, or the error names the line, and any accepted text with a message and then the line, with or
without anything behind it, is rejected with the same error. -/
theorem error_names_line {text : List Char} (h : (parse stod text).error = some e) :
    ∃ pre l post, getlines text = pre ++ l :: post ∧
      parseLines stod [] pre = ⟨(parse stod text).messages, none⟩ ∧
      (((parse stod text).messages = [] ∧ "SG_ ".toList.isPrefixOf (trim l) = true ∧
          e = orphanText) ∨
        (Names (boTexts ++ sgTexts) (trim l) e ∧
          ∀ t, (parse stod t).error = none → (parse stod t).messages ≠ [] →
            (parse stod (t ++ '\n' :: l)).error = some e ∧
              ∀ rest, (parse stod (t ++ '\n' :: (l ++ '\n' :: rest))).error = some e)) := by
  obtain ⟨pre, l, post, hlines, hpre, hbad⟩ := exists_first_bad h
  refine ⟨pre, l, post, hlines, hpre, (parseLine_error hbad).imp_right ?_⟩
  rintro ⟨hnames, hown⟩
  refine ⟨hnames, fun t ht hne => ?_⟩
  have hnewline : '\n' ∉ l := newline_not_mem_line l (by rw [hlines]; simp)
  have hl : l ≠ [] := by
    rintro rfl
    rw [parseLine_of_not_isStatement isStatement_nil] at hbad
    cases hbad
  have hlast : (parse stod (t ++ '\n' :: l)).error = some e := by
    rw [parse_append, parseLines_append, getlines_of_not_mem hnewline hl]
    rw [parse] at ht hne
    rw [if_pos ht, parseLines, hown _ hne]
  refine ⟨hlast, fun rest => ?_⟩
  have hrest := parse_error_append hlast rest
  rwa [List.append_assoc, List.cons_append] at hrest

/-- The second line has no offset. -/
def noOffset : List Char := "BO_ 1 A: 8\nSG_ S : 0|8@1+ (2)\nBO_ 2 B: 8".toList

theorem error_names_line_noOffset : ∃ pre l post, getlines noOffset = pre ++ l :: post ∧
    Names (boTexts ++ sgTexts) (trim l) "bad SG_ factor/offset: (2)".toList ∧
    (parse DbcRender.stodInteger ("BO_ 3 C: 8".toList ++ '\n' :: (l ++ '\n' :: noOffset))).error =
      some "bad SG_ factor/offset: (2)".toList := by
  have h : (parse DbcRender.stodInteger noOffset).error =
      some "bad SG_ factor/offset: (2)".toList := by decide
  obtain ⟨pre, l, post, hlines, -, ⟨-, -, horphan⟩ | ⟨hnames, hagain⟩⟩ := error_names_line h
  · exact absurd horphan (by decide)
  · obtain ⟨-, hrest⟩ := hagain "BO_ 3 C: 8".toList (by decide) (by decide)
    exact ⟨pre, l, post, hlines, hnames, hrest noOffset⟩

end DbcParser

end BusTestPlatform

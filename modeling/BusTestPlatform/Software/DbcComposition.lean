import BusTestPlatform.Software.DbcShape
import BusTestPlatform.Software.DbcRender

/-!
# Texts put together

A text is read line by line, so the databases of two texts add up, line ends may be those of
Windows, and a text that is put in between matters only through its lines.
-/

namespace BusTestPlatform

open Text

namespace DbcParser

variable {D : Type} [Zero D] [One D] {stod : List Char → Option (D × ℕ)}

/-! ### Two texts -/

lemma isStatement_nil : isStatement [] = false := rfl

/-- The messages before the last one do not matter. -/
lemma parseLine_append {ms ms' : List (DbcMessage D)} {l : List Char}
    (h : parseLine stod ms l = .ok ms') (before : List (DbcMessage D)) :
    parseLine stod (before ++ ms) l = .ok (before ++ ms') := by
  simp only [parseLine] at h ⊢
  split_ifs at h ⊢
  · rw [Except.ok.inj h]
  · obtain ⟨m, hm, hms⟩ := bind_eq_ok.mp h
    rw [← Except.ok.inj hms, hm, ← List.append_assoc]
    rfl
  · obtain ⟨m, s, hlast, hs, rfl⟩ := addSignal_eq_ok h
    have hne : ms ≠ [] := by
      rintro rfl
      cases hlast
    rw [addSignal, List.getLast?_append_of_ne_nil _ hne, hlast]
    simp only [hs, List.dropLast_append_of_ne_nil hne, ← List.append_assoc]
    rfl
  · rw [Except.ok.inj h]

lemma parseLines_append_messages {ms : List (DbcMessage D)} {ls : List (List Char)}
    (h : (parseLines stod ms ls).error = none) (before : List (DbcMessage D)) :
    parseLines stod (before ++ ms) ls = ⟨before ++ (parseLines stod ms ls).messages, none⟩ := by
  induction ls generalizing ms with
  | nil => rfl
  | cons l ls ih =>
    rw [parseLines] at h ⊢
    split at h
    · cases h
    · next ms' hms =>
      rw [parseLine_append hms, parseLines, hms]
      exact ih h

lemma parse_append (stod : List Char → Option (D × ℕ)) (s t : List Char) :
    parse stod (s ++ '\n' :: t) = parseLines stod [] (getlines s ++ getlines t) := by
  rw [parse, ← parseLines_filter, filter_getlines_append isStatement_nil, ← List.filter_append,
    parseLines_filter]

/-! ### Statements -/

/-- What a statement says: a message without signals, or a signal. -/
inductive Item (D : Type)
  | message (m : DbcMessage D)
  | signal (s : Signal D)

/-- The statements of a database. -/
def items (ms : List (DbcMessage D)) : List (Item D) :=
  ms.flatMap fun m => .message { m with signals := [] } :: m.signals.map .signal

/-- The statement of a line. -/
def lineItem (stod : List Char → Option (D × ℕ)) (l : List Char) : Option (Item D) :=
  if "BO_ ".toList.isPrefixOf (trim l) then (parseBo (trim l)).toOption.map .message
  else if "SG_ ".toList.isPrefixOf (trim l) then (parseSg stod (trim l)).toOption.map .signal
  else none

omit [Zero D] [One D] in
@[simp]
lemma items_append (ms ms' : List (DbcMessage D)) : items (ms ++ ms') = items ms ++ items ms' :=
  List.flatMap_append

lemma lineItem_bo {l : List Char} {m : DbcMessage D} (hbo : "BO_ ".toList.isPrefixOf (trim l))
    (hm : parseBo (trim l) = .ok m) : lineItem stod l = some (.message m) := by
  rw [lineItem, if_pos hbo, hm]
  rfl

lemma lineItem_sg {l : List Char} {s : Signal D} (hsg : "SG_ ".toList.isPrefixOf (trim l))
    (hs : parseSg stod (trim l) = .ok s) : lineItem stod l = some (.signal s) := by
  have hbo : ¬ "BO_ ".toList.isPrefixOf (trim l) := by
    obtain ⟨t, ht⟩ := List.isPrefixOf_iff_prefix.mp hsg
    rw [← ht]
    simp
  rw [lineItem, if_neg hbo, if_pos hsg, hs]
  rfl

lemma lineItem_of_not_isStatement {l : List Char} (h : isStatement l = false) :
    lineItem stod l = none := by
  rw [isStatement, Bool.or_eq_false_iff] at h
  rw [lineItem, h.1, h.2, if_neg Bool.false_ne_true, if_neg Bool.false_ne_true]

/-- An accepted line adds its statement at the end. -/
lemma items_parseLine {ms ms' : List (DbcMessage D)} {l : List Char}
    (h : parseLine stod ms l = .ok ms') :
    items ms' = items ms ++ (lineItem stod l).toList ∧
      (lineItem stod l).isSome = isStatement l := by
  by_cases hbo : "BO_ ".toList.isPrefixOf (trim l) = true
  · obtain ⟨m, hm, rfl⟩ := parseLine_bo hbo h
    have hempty : items [m] = [.message m] := by
      obtain ⟨_, _, _, _, _, _, _, _, -, -, -, -, -, rfl⟩ := parseBo_eq_ok_iff.mp hm
      rfl
    rw [items_append, hempty, lineItem_bo hbo hm, isStatement, hbo]
    exact ⟨rfl, rfl⟩
  · by_cases hsg : "SG_ ".toList.isPrefixOf (trim l) = true
    · obtain ⟨m, s, hlast, hs, rfl⟩ := parseLine_sg hsg h
      have hms := congrArg items (List.dropLast_append_getLast? m hlast)
      rw [items_append] at hms
      rw [items_append, ← hms, lineItem_sg hsg hs, isStatement, hsg, Bool.or_true]
      simp [items, DbcMessage.push]
    · have hstatement : isStatement l = false := by
        rw [isStatement, Bool.or_eq_false_iff]
        exact ⟨Bool.eq_false_of_not_eq_true hbo, Bool.eq_false_of_not_eq_true hsg⟩
      rw [parseLine_of_not_isStatement hstatement] at h
      rw [lineItem_of_not_isStatement hstatement, hstatement, Except.ok.inj h]
      simp

lemma items_parseLines {ms : List (DbcMessage D)} {ls : List (List Char)}
    (h : (parseLines stod ms ls).error = none) :
    items (parseLines stod ms ls).messages = items ms ++ ls.filterMap (lineItem stod) ∧
      ∀ l ∈ ls, (lineItem stod l).isSome = isStatement l := by
  induction ls generalizing ms with
  | nil => simp [parseLines]
  | cons l ls ih =>
    rw [parseLines] at h ⊢
    split at h
    · cases h
    · next ms' hms =>
      obtain ⟨hitems, hstatements⟩ := ih h
      obtain ⟨hitem, hstatement⟩ := items_parseLine hms
      refine ⟨?_, List.forall_mem_cons.mpr ⟨hstatement, hstatements⟩⟩
      rw [hitems, hitem, List.append_assoc]
      congr 1
      cases hl : lineItem stod l <;> simp [hl]

/-! ### Line ends -/

/-- The text with CR LF for every line end. -/
def crlf (t : List Char) : List Char := t.flatMap fun c => if c = '\n' then ['\r', '\n'] else [c]

lemma parseLines_congr {ls ls' : List (List Char)}
    (h : List.Forall₂ (fun l l' => ∀ ms, parseLine stod ms l = parseLine stod ms l') ls ls')
    (ms : List (DbcMessage D)) : parseLines stod ms ls = parseLines stod ms ls' := by
  induction h generalizing ms with
  | nil => rfl
  | @cons l l' ls ls' hl _ ih =>
    rw [parseLines, parseLines, hl ms]
    split
    · rfl
    · exact ih _

/-- A line depends on its trimmed form alone. -/
lemma parseLine_trim {l l' : List Char} (h : trim l = trim l') (ms : List (DbcMessage D)) :
    parseLine stod ms l = parseLine stod ms l' := by
  simp only [parseLine, h]

lemma forall₂_consFirst {R : List Char → List Char → Prop} {c : Char} {ls ls' : List (List Char)}
    (hcons : ∀ l l', R l l' → R (c :: l) (c :: l')) (hone : R [c] [c])
    (h : List.Forall₂ R ls ls') : List.Forall₂ R (consFirst c ls) (consFirst c ls') := by
  cases h with
  | nil => exact List.Forall₂.cons hone List.Forall₂.nil
  | cons hl hls => exact List.Forall₂.cons (hcons _ _ hl) hls

lemma getlines_crlf (t : List Char) :
    List.Forall₂ (fun l l' => l' = l ∨ l' = l ++ ['\r']) (getlines t) (getlines (crlf t)) := by
  induction t with
  | nil => exact List.Forall₂.nil
  | cons c t ih =>
    by_cases hc : c = '\n'
    · have hcrlf : crlf (c :: t) = ['\r'] ++ '\n' :: crlf t := by simp [crlf, hc]
      rw [hcrlf, getlines_append_cons (by simp), getlines, if_pos hc]
      exact List.Forall₂.cons (Or.inr rfl) ih
    · have hcrlf : crlf (c :: t) = c :: crlf t := by simp [crlf, hc]
      rw [hcrlf, getlines, getlines, if_neg hc, if_neg hc]
      apply forall₂_consFirst _ (Or.inl rfl) ih
      rintro l l' (rfl | rfl)
      · exact Or.inl rfl
      · exact Or.inr rfl

/-- A text that is rejected is rejected with the same error, whatever comes behind it. -/
lemma parse_error_append {e t : List Char} (h : (parse stod t).error = some e) (rest : List Char) :
    (parse stod (t ++ '\n' :: rest)).error = some e := by
  rw [parse] at h
  rw [parse_append, parseLines_append, if_neg (by simp [h]), h]

/-- The database of two texts is that of the first and that of the second; a first text that is
rejected is rejected with any other after it, and the line ends may be CR LF. -/
theorem parse_composes (stod : List Char → Option (D × ℕ)) (t₁ t₂ : List Char) :
    ((parse stod t₁).error = none → (parse stod t₂).error = none →
      parse stod (t₁ ++ '\n' :: t₂) =
        ⟨(parse stod t₁).messages ++ (parse stod t₂).messages, none⟩) ∧
    (∀ e, (parse stod t₁).error = some e → (parse stod (t₁ ++ '\n' :: t₂)).error = some e) ∧
    parse stod (crlf t₁) = parse stod t₁ := by
  refine ⟨?_, ?_, ?_⟩
  · intro h₁ h₂
    rw [parse_append, parseLines_append]
    rw [parse] at h₁
    rw [if_pos h₁]
    have := parseLines_append_messages h₂ (parse stod t₁).messages
    rwa [List.append_nil] at this
  · intro e h
    exact parse_error_append h t₂
  · refine (parseLines_congr ((getlines_crlf t₁).imp ?_) []).symm
    rintro l l' (rfl | rfl) ms
    · rfl
    · exact parseLine_trim (trim_append_blank (by simp [isBlank]) l).symm ms

theorem parse_composes_sample :
    parse DbcRender.stodInteger ("BO_ 1 A: 8".toList ++ '\n' :: "BO_ 2 B: 8".toList) =
      ⟨[⟨1, ['A'], 8, [], []⟩] ++ [⟨2, ['B'], 8, [], []⟩], none⟩ ∧
    (parse DbcRender.stodInteger ("BO_ x A: 8".toList ++ '\n' :: "BO_ 2 B: 8".toList)).error =
      some "bad BO_ id: x".toList :=
  ⟨(parse_composes _ _ _).1 rfl rfl, (parse_composes _ _ _).2.1 _ rfl⟩

/-! ### Comments -/

/-- `CM_ <object> "<text>";` -/
def comment (object text : List Char) : List Char :=
  "CM_ ".toList ++ (object ++ '"' :: (text ++ ['"', ';']))

lemma parse_insert (stod : List Char → Option (D × ℕ)) (pre c post : List Char) :
    parse stod (pre ++ '\n' :: (c ++ '\n' :: post)) =
      parseLines stod [] (getlines pre ++ (getlines c ++ getlines post)) := by
  rw [parse, ← parseLines_filter, filter_getlines_append isStatement_nil,
    filter_getlines_append isStatement_nil, ← List.filter_append, ← List.filter_append,
    parseLines_filter]

/-- A comment between two lines of an accepted text changes nothing exactly if none of its lines
looks like a statement. -/
theorem comment_ignored_iff {pre post : List Char}
    (hok : (parse stod (pre ++ '\n' :: post)).error = none) (object text : List Char) :
    parse stod (pre ++ '\n' :: (comment object text ++ '\n' :: post)) =
        parse stod (pre ++ '\n' :: post) ↔
      ∀ l ∈ getlines (comment object text), isStatement l = false := by
  rw [parse_insert, parse_append] at *
  constructor
  · intro h
    obtain ⟨hitems, hstatements⟩ := items_parseLines (h ▸ hok)
    rw [h, (items_parseLines hok).1, List.filterMap_append, List.filterMap_append,
      List.filterMap_append] at hitems
    have hnone : (getlines (comment object text)).filterMap (lineItem stod) = [] := by
      simpa using hitems
    intro l hl
    rw [← hstatements l (List.mem_append_right _ (List.mem_append_left _ hl)),
      List.filterMap_eq_nil_iff.mp hnone l hl]
    rfl
  · intro h
    have hnone : (getlines (comment object text)).filter isStatement = [] :=
      List.filter_eq_nil_iff.mpr (by simpa using h)
    rw [← parseLines_filter, List.filter_append, List.filter_append, hnone, List.nil_append,
      ← List.filter_append, parseLines_filter]

theorem comment_ignored_sample :
    parse DbcRender.stodInteger ("BO_ 1 A: 8".toList ++ '\n' ::
        (comment "BO_ 1 ".toList "two\n lines".toList ++ '\n' :: "BO_ 2 B: 8".toList)) =
      parse DbcRender.stodInteger ("BO_ 1 A: 8".toList ++ '\n' :: "BO_ 2 B: 8".toList) :=
  (comment_ignored_iff rfl _ _).mpr (by decide)

/-- A line of the comment that begins with `BO_` is read as a message. -/
theorem comment_adds_message :
    ∃ text, '"' ∉ text ∧
      parse DbcRender.stodInteger ("BO_ 1 A: 8".toList ++ '\n' :: "BO_ 2 B: 8".toList) =
        ⟨[⟨1, ['A'], 8, [], []⟩, ⟨2, ['B'], 8, [], []⟩], none⟩ ∧
      parse DbcRender.stodInteger ("BO_ 1 A: 8".toList ++ '\n' ::
          (comment "BO_ 1 ".toList text ++ '\n' :: "BO_ 2 B: 8".toList)) =
        ⟨[⟨1, ['A'], 8, [], []⟩, ⟨7, ['G'], 8, ['o', 'l', 'd'], []⟩, ⟨2, ['B'], 8, [], []⟩],
          none⟩ :=
  ⟨"see\nBO_ 7 G: 8 old\nand more".toList, by decide, rfl, rfl⟩

end DbcParser

end BusTestPlatform

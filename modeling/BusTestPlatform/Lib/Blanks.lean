import BusTestPlatform.Lib.Words

/-!
# Blanks outside quotes

Texts that differ in the blanks between their words. Between quotes blanks are part of the text,
so the relation knows whether it stands between quotes.
-/

namespace Text

/-- At least one space or tab. -/
structure IsGap (g : List Char) : Prop where
  ne : g ≠ []
  blank : ∀ c ∈ g, c = ' ' ∨ c = '\t'

lemma isSpace_of_blank {c : Char} (h : c = ' ' ∨ c = '\t') : isSpace c = true := by
  rcases h with rfl | rfl <;> rfl

lemma isGap_singleton {c : Char} (h : c = ' ' ∨ c = '\t') : IsGap [c] :=
  ⟨by simp, by simpa using h⟩

lemma IsGap.isSpace {g : List Char} (h : IsGap g) : ∀ c ∈ g, isSpace c = true :=
  fun c hc => isSpace_of_blank (h.blank c hc)

lemma IsGap.head {g : List Char} (h : IsGap g) (r : List Char) :
    ∀ c ∈ (g ++ r).head?, Text.isSpace c = true := by
  intro c hc
  rw [List.head?_append_of_ne_nil _ h.ne] at hc
  exact h.isSpace c (List.mem_of_mem_head? hc)

lemma readWord_gap {g w r : List Char} (hg : IsGap g) (hw : IsWord w)
    (hr : ∀ c ∈ r.head?, isSpace c = true) : readWord (g ++ (w ++ r)) = some (w, r) :=
  readWord_append hg.isSpace hw.ne hw.isSpace hr

/-! ### Quotes -/

/-- A quote opens a string or closes it. -/
def quoteStep (q : Bool) (c : Char) : Bool := if c = '"' then !q else q

/-- Whether a text that begins inside a string, or outside of one, ends inside. -/
def inQuotes (q : Bool) (s : List Char) : Bool := s.foldl quoteStep q

@[simp]
lemma inQuotes_nil (q : Bool) : inQuotes q [] = q := rfl

@[simp]
lemma inQuotes_cons (q : Bool) (c : Char) (s : List Char) :
    inQuotes q (c :: s) = inQuotes (quoteStep q c) s := rfl

@[simp]
lemma inQuotes_append (q : Bool) (s t : List Char) :
    inQuotes q (s ++ t) = inQuotes (inQuotes q s) t :=
  List.foldl_append

lemma inQuotes_of_not_mem {s : List Char} (h : '"' ∉ s) (q : Bool) : inQuotes q s = q := by
  induction s with
  | nil => rfl
  | cons c s ih =>
    rw [List.mem_cons, not_or] at h
    rw [inQuotes_cons, quoteStep, if_neg (Ne.symm h.1), ih h.2]

/-! ### Other blanks -/

/-- The second text is the first one with other blanks outside of strings. -/
inductive Reblanked : Bool → List Char → List Char → Prop
  | nil (q : Bool) : Reblanked q [] []
  | char {q : Bool} (c : Char) {s s' : List Char} (h : Reblanked (quoteStep q c) s s') :
      Reblanked q (c :: s) (c :: s')
  | gap {g g' s s' : List Char} (hg : IsGap g) (hg' : IsGap g') (h : Reblanked false s s') :
      Reblanked false (g ++ s) (g' ++ s')

namespace Reblanked

variable {q : Bool} {s s' : List Char}

lemma symm (h : Reblanked q s s') : Reblanked q s' s := by
  induction h with
  | nil q => exact .nil q
  | char c _ ih => exact .char c ih
  | gap hg hg' _ ih => exact .gap hg' hg ih

lemma refl (q : Bool) (s : List Char) : Reblanked q s s := by
  induction s generalizing q with
  | nil => exact .nil q
  | cons c s ih => exact .char c (ih _)

lemma append (a : List Char) (h : Reblanked (inQuotes q a) s s') :
    Reblanked q (a ++ s) (a ++ s') := by
  induction a generalizing q with
  | nil => exact h
  | cons c a ih => exact .char c (ih h)

/-- One gap is another one. -/
lemma replace (a s : List Char) {g g' : List Char} (ha : inQuotes q a = false) (hg : IsGap g)
    (hg' : IsGap g') : Reblanked q (a ++ (g ++ s)) (a ++ (g' ++ s)) :=
  append a (ha ▸ gap hg hg' (refl false s))

lemma nil_left (h : Reblanked q [] s') : s' = [] := by
  generalize hs : ([] : List Char) = s at h
  cases h with
  | nil => rfl
  | char => cases hs
  | gap hg => exact absurd (List.append_eq_nil_iff.mp hs.symm).1 hg.ne

lemma quote_not_mem_gap {g : List Char} (hg : IsGap g) : '"' ∉ g :=
  fun h => absurd (hg.blank _ h) (by decide)

lemma mem_iff {c : Char} (hc : ¬ (c = ' ' ∨ c = '\t')) (h : Reblanked q s s') :
    c ∈ s ↔ c ∈ s' := by
  induction h with
  | nil => rfl
  | char d _ ih => rw [List.mem_cons, List.mem_cons, ih]
  | gap hg hg' _ ih =>
    rw [List.mem_append, List.mem_append, ih, iff_false_intro (mt (hg.blank c) hc),
      iff_false_intro (mt (hg'.blank c) hc)]

/-- Up to the next quote a text inside a string is the same. -/
lemma takeWhile_quote (h : Reblanked true s s') :
    s.takeWhile (· ≠ '"') = s'.takeWhile (· ≠ '"') := by
  generalize hq : true = q at h
  induction h with
  | nil => rfl
  | char c _ ih =>
    subst hq
    by_cases hc : c = '"'
    · simp [hc]
    · have := ih (by simp [quoteStep, hc])
      simpa [hc] using this
  | gap => cases hq

section Drop

variable {p : Char → Bool} (hspace : p ' ' = true) (htab : p '\t' = true)

include hspace htab

lemma pos_of_gap {g : List Char} (hg : IsGap g) : ∀ c ∈ g, p c = true := by
  intro c hc
  rcases hg.blank c hc with rfl | rfl
  · exact hspace
  · exact htab

/-- Without the blanks in front. -/
lemma dropWhile (hquote : p '"' = false) (h : Reblanked q s s') :
    Reblanked q (s.dropWhile p) (s'.dropWhile p) := by
  induction h with
  | nil q => exact .nil q
  | @char q c s s' h ih =>
    by_cases hc : p c = true
    · have hne : c ≠ '"' := by
        rintro rfl
        simp [hquote] at hc
      rw [List.dropWhile_cons_of_pos hc, List.dropWhile_cons_of_pos hc]
      rwa [quoteStep, if_neg hne] at ih
    · rw [List.dropWhile_cons_of_neg hc, List.dropWhile_cons_of_neg hc]
      exact .char c h
  | gap hg hg' _ ih =>
    rw [List.dropWhile_append_of_pos (pos_of_gap hspace htab hg),
      List.dropWhile_append_of_pos (pos_of_gap hspace htab hg')]
    exact ih

/-- Without the blanks at the end. -/
lemma rdropWhile (h : Reblanked q s s') : Reblanked q (s.rdropWhile p) (s'.rdropWhile p) := by
  induction h with
  | nil q => exact .nil q
  | @char q c s s' h ih =>
    rw [← List.singleton_append, rdropWhile_append, ← List.singleton_append (l := s'),
      rdropWhile_append]
    by_cases hs : s.rdropWhile p = []
    · have hs' : s'.rdropWhile p = [] := (hs ▸ ih).nil_left
      rw [if_pos hs, if_pos hs']
      exact refl q _
    · have hs' : s'.rdropWhile p ≠ [] := fun hs' => hs (hs' ▸ ih.symm).nil_left
      rw [if_neg hs, if_neg hs']
      exact .char c ih
  | @gap g g' s s' hg hg' h ih =>
    rw [rdropWhile_append, rdropWhile_append]
    by_cases hs : s.rdropWhile p = []
    · have hs' : s'.rdropWhile p = [] := (hs ▸ ih).nil_left
      rw [if_pos hs, if_pos hs', List.rdropWhile_eq_nil_iff.mpr (pos_of_gap hspace htab hg),
        List.rdropWhile_eq_nil_iff.mpr (pos_of_gap hspace htab hg')]
      exact .nil false
    · have hs' : s'.rdropWhile p ≠ [] := fun hs' => hs (hs' ▸ ih.symm).nil_left
      rw [if_neg hs, if_neg hs']
      exact .gap hg hg' ih

end Drop

/-! ### Words -/

lemma takeWhile_word (h : Reblanked q s s') :
    s.takeWhile (!isSpace ·) = s'.takeWhile (!isSpace ·) := by
  induction h with
  | nil => rfl
  | char c _ ih =>
    by_cases hc : isSpace c = true
    · simp [hc]
    · simp [hc, ih]
  | @gap g g' s s' hg hg' h ih =>
    obtain ⟨c, g, rfl⟩ := List.exists_cons_of_ne_nil hg.ne
    obtain ⟨c', g', rfl⟩ := List.exists_cons_of_ne_nil hg'.ne
    simp [hg.isSpace c, hg'.isSpace c']

/-- After the word with which the texts begin. -/
lemma dropWhile_word (h : Reblanked q s s') :
    Reblanked (inQuotes q (s.takeWhile (!isSpace ·))) (s.dropWhile (!isSpace ·))
      (s'.dropWhile (!isSpace ·)) := by
  induction h with
  | nil q => exact .nil q
  | @char q c s s' h ih =>
    by_cases hc : isSpace c = true
    · simpa [hc] using Reblanked.char c h
    · simpa [hc] using ih
  | @gap g g' s s' hg hg' h ih =>
    obtain ⟨c, g, rfl⟩ := List.exists_cons_of_ne_nil hg.ne
    obtain ⟨c', g', rfl⟩ := List.exists_cons_of_ne_nil hg'.ne
    simpa [hg.isSpace c, hg'.isSpace c'] using Reblanked.gap hg hg' h

/-- The next words are the same, and so are the texts after them, but for blanks. -/
lemma readWord {w r : List Char} (h : Reblanked q s s') (hw : Text.readWord s = some (w, r)) :
    ∃ pre r', s = pre ++ r ∧ Text.readWord s' = some (w, r') ∧
      Reblanked (inQuotes q pre) r r' := by
  have hskip := h.dropWhile (p := isSpace) rfl rfl rfl
  have hspaces : '"' ∉ s.takeWhile isSpace := fun hmem =>
    absurd (List.mem_takeWhile_imp hmem) (by decide)
  simp only [Text.readWord, Option.ite_none_left_eq_some, Option.some.injEq, Prod.mk.injEq] at hw ⊢
  obtain ⟨hne, rfl, rfl⟩ := hw
  refine ⟨s.takeWhile isSpace ++ (s.dropWhile isSpace).takeWhile (!isSpace ·), _, ?_,
    ⟨?_, ?_, rfl⟩, ?_⟩
  · rw [List.append_assoc, List.takeWhile_append_dropWhile, List.takeWhile_append_dropWhile]
  · exact fun hs' => hne (hs' ▸ hskip.symm).nil_left
  · exact hskip.takeWhile_word.symm
  · rw [inQuotes_append, inQuotes_of_not_mem hspaces]
    exact hskip.dropWhile_word

lemma readWord_none (h : Reblanked q s s') (hw : Text.readWord s = none) :
    Text.readWord s' = none := by
  cases hw' : Text.readWord s' with
  | none => rfl
  | some x =>
    obtain ⟨-, r, -, hr, -⟩ := h.symm.readWord hw'
    rw [hw] at hr
    cases hr

/-- A character that is no blank stays where it is. -/
lemma cons_left {c : Char} (h : Reblanked q (c :: s) s') (hc : ¬ (c = ' ' ∨ c = '\t')) :
    ∃ t, s' = c :: t ∧ Reblanked (quoteStep q c) s t := by
  generalize hs : c :: s = x at h
  cases h with
  | nil => cases hs
  | char d h =>
    cases hs
    exact ⟨_, rfl, h⟩
  | @gap g g' t t' hg hg' h =>
    obtain ⟨d, g, rfl⟩ := List.exists_cons_of_ne_nil hg.ne
    cases hs
    exact absurd (hg.blank c List.mem_cons_self) hc

/-- So does a word without blanks. -/
lemma append_left {w : List Char} (hw : ∀ c ∈ w, ¬ (c = ' ' ∨ c = '\t'))
    (h : Reblanked q (w ++ s) s') : ∃ t, s' = w ++ t ∧ Reblanked (inQuotes q w) s t := by
  induction w generalizing q s' with
  | nil => exact ⟨s', rfl, h⟩
  | cons c w ih =>
    rw [List.forall_mem_cons] at hw
    obtain ⟨t, rfl, ht⟩ := cons_left h hw.1
    obtain ⟨u, rfl, hu⟩ := ih hw.2 ht
    exact ⟨u, rfl, hu⟩

end Reblanked

/-! ### Reading on -/

/-- What is left after one word more. -/
def dropWord (s : List Char) : List Char := ((readWord s).map Prod.snd).getD []

lemma dropWord_eq {w r r' : List Char} (h : readWord r = some (w, r')) : dropWord r = r' := by
  rw [dropWord, h]
  rfl

lemma fst_readWord (r : List Char) :
    ((readWord r).getD ([], [])).1 = ((readWord r).map Prod.fst).getD [] := by
  cases readWord r <;> rfl

lemma snd_readWord (r : List Char) : ((readWord r).getD ([], [])).2 = dropWord r := by
  rw [dropWord]
  cases readWord r <;> rfl

/-- `r` is what is left of `s` at some point, and `r'` is the same but for blanks. -/
def ReadTo (q : Bool) (s r r' : List Char) : Prop :=
  ∃ pre, s = pre ++ r ∧ Reblanked (inQuotes q pre) r r'

namespace ReadTo

variable {q : Bool} {s r r' : List Char}

lemma readWord {w r₁ : List Char} (h : ReadTo q s r r') (hw : Text.readWord r = some (w, r₁)) :
    ∃ r₁', Text.readWord r' = some (w, r₁') ∧ ReadTo q s r₁ r₁' := by
  obtain ⟨pre, rfl, h⟩ := h
  obtain ⟨pre', r₁', rfl, hw', h'⟩ := h.readWord hw
  exact ⟨r₁', hw', pre ++ pre', by simp, by rwa [inQuotes_append]⟩

lemma dropWord (h : ReadTo q s r r') : ReadTo q s (dropWord r) (dropWord r') := by
  cases hw : Text.readWord r with
  | none =>
    obtain ⟨pre, rfl, h⟩ := h
    rw [Text.dropWord, Text.dropWord, hw, h.readWord_none hw]
    exact ⟨pre ++ r, by simp, .nil _⟩
  | some x =>
    obtain ⟨r₁', hw', h'⟩ := h.readWord hw
    rw [Text.dropWord, Text.dropWord, hw, hw']
    exact h'

lemma readWord_none (h : ReadTo q s r r') (hw : Text.readWord r = none) :
    Text.readWord r' = none := by
  obtain ⟨pre, rfl, h⟩ := h
  exact h.readWord_none hw

/-- The next word is the same, if there is one. -/
lemma map_fst (h : ReadTo q s r r') :
    (Text.readWord r').map Prod.fst = (Text.readWord r).map Prod.fst := by
  cases hw : Text.readWord r with
  | none => rw [h.readWord_none hw]
  | some x =>
    obtain ⟨r₁', hw', -⟩ := h.readWord hw
    rw [hw']
    rfl

end ReadTo

/-! ### Lines -/

/-- The relation holds of the lines one by one. Whether a line begins inside a string is up to
`next`: strings may go on over lines (`inQuotes`) or end with them. -/
inductive Linewise (next : Bool → List Char → Bool) (R : Bool → List Char → List Char → Prop) :
    Bool → List (List Char) → List (List Char) → Prop
  | nil (q : Bool) : Linewise next R q [] []
  | cons {q : Bool} {l l' : List Char} {ls ls' : List (List Char)} (h : R q l l')
      (hs : Linewise next R (next q l) ls ls') : Linewise next R q (l :: ls) (l' :: ls')

/-- Characters in front of the first line. -/
lemma foldr_consFirst_cons (g l : List Char) (ls : List (List Char)) :
    g.foldr consFirst (l :: ls) = (g ++ l) :: ls := by
  induction g with
  | nil => rfl
  | cons c g ih => rw [List.foldr_cons, ih, consFirst, List.cons_append]

lemma foldr_consFirst_nil {g : List Char} (hg : g ≠ []) : g.foldr consFirst [] = [g] := by
  obtain ⟨c, t, rfl⟩ := List.exists_cons_of_ne_nil hg
  induction t generalizing c with
  | nil => rfl
  | cons d t ih => rw [List.foldr_cons, ih d (by simp), consFirst]

lemma getlines_append_of_not_mem {g : List Char} (hg : '\n' ∉ g) (s : List Char) :
    getlines (g ++ s) = g.foldr consFirst (getlines s) := by
  induction g with
  | nil => rfl
  | cons c g ih =>
    rw [List.mem_cons, not_or] at hg
    rw [List.cons_append, getlines, if_neg (Ne.symm hg.1), ih hg.2, List.foldr_cons]

lemma Linewise.consFirst {q : Bool} {c : Char} {ls ls' : List (List Char)}
    (h : Linewise inQuotes Reblanked (quoteStep q c) ls ls') :
    Linewise inQuotes Reblanked q (consFirst c ls) (Text.consFirst c ls') := by
  cases h with
  | nil => exact .cons (.char c (.nil _)) (.nil _)
  | cons h hs => exact .cons (.char c h) hs

lemma Linewise.gap {g g' : List Char} (hg : IsGap g) (hg' : IsGap g')
    {ls ls' : List (List Char)} (h : Linewise inQuotes Reblanked false ls ls') :
    Linewise inQuotes Reblanked false (g.foldr Text.consFirst ls)
      (g'.foldr Text.consFirst ls') := by
  cases h with
  | nil =>
    rw [foldr_consFirst_nil hg.ne, foldr_consFirst_nil hg'.ne]
    have hall := Reblanked.gap hg hg' (.nil false)
    rw [List.append_nil, List.append_nil] at hall
    exact .cons hall (.nil _)
  | cons h hs =>
    rw [foldr_consFirst_cons, foldr_consFirst_cons]
    apply Linewise.cons (.gap hg hg' h)
    rwa [inQuotes_append, inQuotes_of_not_mem (Reblanked.quote_not_mem_gap hg)]

/-- Other blanks in the text are other blanks in its lines, where strings go on. -/
lemma Reblanked.getlines {q : Bool} {s s' : List Char} (h : Reblanked q s s') :
    Linewise inQuotes Reblanked q (getlines s) (Text.getlines s') := by
  have hgap : ∀ {g : List Char}, IsGap g → '\n' ∉ g :=
    fun hg hmem => absurd (hg.blank _ hmem) (by decide)
  induction h with
  | nil q => exact .nil q
  | @char q c s s' _ ih =>
    rw [Text.getlines, Text.getlines]
    split_ifs with hc
    · subst hc
      exact .cons (.nil q) ih
    · exact ih.consFirst
  | gap hg hg' _ ih =>
    rw [getlines_append_of_not_mem (hgap hg), getlines_append_of_not_mem (hgap hg')]
    exact ih.gap hg hg'

lemma newline_not_mem_getlines {t l : List Char} (h : l ∈ getlines t) : '\n' ∉ l := by
  induction t generalizing l with
  | nil => cases h
  | cons c t ih =>
    rw [getlines] at h
    split_ifs at h with hc
    · rcases List.mem_cons.mp h with rfl | h
      · simp
      · exact ih h
    · cases hls : getlines t with
      | nil =>
        rw [hls, consFirst, List.mem_singleton] at h
        simp [h, Ne.symm hc]
      | cons l' ls =>
        rw [hls] at h ih
        rcases List.mem_cons.mp h with rfl | h
        · simp [Ne.symm hc, ih List.mem_cons_self]
        · exact ih (List.mem_cons_of_mem _ h)

end Text

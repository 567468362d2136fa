import BusTestPlatform.Software.DbcOptional

/-!
# The grammar of accepted lines

The documented form of `BO_` and `SG_` lines on their words, and what else the parser accepts: it
looks for the separators inside a word and does not match the word as a whole.
-/

namespace BusTestPlatform

open Text DbcParser

namespace DbcGrammar

variable {D : Type} {stod : List Char → Option (D × ℕ)}

/-! ### The grammar -/

/-- An unsigned numeral. -/
def IsUnsigned (tok : List Char) : Prop := ∃ n, cNat tok = some n

/-- `<id> <name>[ ]: <dlc> [<tx>]` -/
def BoLine (ws : List (List Char)) : Prop :=
  ∃ id name dlc, ∃ tx : Option (List Char), IsUnsigned id ∧ name ≠ [] ∧ IsUnsigned dlc ∧
    (ws = id :: (name ++ [':']) :: dlc :: tx.toList ∨ ws = id :: name :: [':'] :: dlc :: tx.toList)

/-- `<start>|<len>@<order><sign>` -/
def GeometryWord (geom : List Char) : Prop :=
  ∃ start len order sign, geom = start ++ '|' :: (len ++ ['@', order, sign]) ∧
    IsUnsigned start ∧ IsUnsigned len ∧ (order = '0' ∨ order = '1') ∧ (sign = '+' ∨ sign = '-')

/-- `(<factor>,<offset>)` -/
def ScaleWord (stod : List Char → Option (D × ℕ)) (phys : List Char) : Prop :=
  ∃ f o, phys = '(' :: (f ++ ',' :: (o ++ [')'])) ∧ ')' ∉ f ∧ ')' ∉ o ∧
    (parseDouble stod f).isSome ∧ (parseDouble stod o).isSome

/-- `<name> [M|m<n>][ ]:` -/
def SgHead (head : List (List Char)) : Prop :=
  ∃ name, name ≠ [] ∧ (head = [name ++ [':']] ∨ head = [name, [':']] ∨
    ∃ x, IsMux x ∧ (head = [name, x ++ [':']] ∨ head = [name, x, [':']]))

/-- `<name> [M|m<n>][ ]: <geometry> <scale> ...` -/
def SgLine (stod : List Char → Option (D × ℕ)) (ws : List (List Char)) : Prop :=
  ∃ head geom phys more, ws = head ++ geom :: phys :: more ∧ SgHead head ∧ GeometryWord geom ∧
    ScaleWord stod phys

/-- The line is no statement, or one of the grammar. -/
structure Matches (stod : List Char → Option (D × ℕ)) (line : List Char) : Prop where
  bo : "BO_ ".toList.isPrefixOf line → BoLine (words (line.drop 4))
  sg : "SG_ ".toList.isPrefixOf line → SgLine stod (words (line.drop 4))

/-! ### What the parser does not check -/

/-- No sign before the length of the message, and at most one word after it. -/
def DlcTidy : List (List Char) → Prop
  | dlc :: more => hasSign dlc = false ∧ more.length ≤ 1
  | [] => True

/-- No sign before the identifier, and a name. -/
def BoTidy : List (List Char) → Prop
  | id :: w :: rest => hasSign id = false ∧ w ≠ [':'] ∧
      DlcTidy (if w.getLast? = some ':' then rest else rest.tail)
  | _ => True

/-- No signs before the numerals, and after the `@` one of `01` and one of `+-`. -/
def GeometryTidy (geom : List Char) : Prop :=
  hasSign geom = false ∧ hasSign (after '|' geom) = false ∧
    after '@' geom ∈ [['0', '+'], ['0', '-'], ['1', '+'], ['1', '-']]

/-- Nothing before the parenthesis that opens and after the one that closes. -/
def ScaleTidy (phys : List Char) : Prop := phys.head? = some '(' ∧ after ')' phys = []

def NumbersTidy : List (List Char) → Prop
  | geom :: phys :: _ => GeometryTidy geom ∧ ScaleTidy phys
  | _ => True

/-- A name, and a proper marker if there is one. -/
def SgTidy : List (List Char) → Prop
  | w :: x :: rest =>
      if w.getLast? = some ':' then w ≠ [':'] ∧ NumbersTidy (x :: rest)
      else if x = [':'] then NumbersTidy rest
      else IsMux x ∧ NumbersTidy rest.tail
  | _ => True

/-- What the parser leaves unchecked in the line is as it should be. -/
structure Tidy (line : List Char) : Prop where
  bo : "BO_ ".toList.isPrefixOf line → BoTidy (words (line.drop 4))
  sg : "SG_ ".toList.isPrefixOf line → SgTidy (words (line.drop 4))

/-! ### Words of accepted lines -/

/-- The words of an accepted `BO_` line. -/
lemma words_of_parseBo {line : List Char} {m : DbcMessage D} (h : parseBo line = .ok m) :
    ∃ id name dlc more, (∃ z, cInt id = some z) ∧ (∃ z, cInt dlc = some z) ∧
      (words (line.drop 4) = id :: (name ++ [':']) :: dlc :: more ∨
        name ≠ [] ∧ name.getLast? ≠ some ':' ∧
          words (line.drop 4) = id :: name :: [':'] :: dlc :: more) := by
  obtain ⟨id, r, name, r', dlc, r'', u, d, hid, hname, hdlc, hu, hd, rfl⟩ :=
    parseBo_eq_ok_iff.mp h
  obtain ⟨v, hv, -, -⟩ := boDlc_eq_ok_iff.mp hd
  obtain ⟨z, hz, -⟩ := (parseU32_eq_some_iff (readWord_isWord hid).head).mp hu
  obtain ⟨z', hz', -⟩ := (parseU32_eq_some_iff (readWord_isWord hdlc).head).mp hv
  refine ⟨id, name, dlc, words r'', ⟨z, hz⟩, ⟨z', hz'⟩, ?_⟩
  rw [words_of_readWord hid]
  rcases boName_eq_ok_iff.mp hname with hglued | ⟨hlast, r₁, hspaced, hcolon⟩
  · rw [words_of_readWord hglued, words_of_readWord hdlc]
    exact Or.inl rfl
  · rw [words_of_readWord hspaced, words_of_readWord hcolon, words_of_readWord hdlc]
    exact Or.inr ⟨(readWord_isWord hspaced).ne, hlast, rfl⟩

/-- The words of an accepted `SG_` line. -/
lemma words_of_parseSg [Zero D] [One D] {line : List Char} {s : Signal D}
    (h : parseSg stod line = .ok s) : ∃ name geom phys more,
      (∃ y, sgGeometry geom = .ok y) ∧ (∃ y, sgFactor stod phys = .ok y) ∧ IsWord geom ∧
      (words (line.drop 4) = (name ++ [':']) :: geom :: phys :: more ∨
        name ≠ [] ∧ name.getLast? ≠ some ':' ∧
          (words (line.drop 4) = name :: [':'] :: geom :: phys :: more ∨
            ∃ x, x ≠ [':'] ∧
              words (line.drop 4) = name :: x :: [':'] :: geom :: phys :: more)) := by
  obtain ⟨name, r, geom, r', _, _, _, _, phys, r'', _, _, hname, hgeom, hgeo, hphys, hfactor, -⟩ :=
    parseSg_eq_ok_iff.mp h
  refine ⟨name, geom, phys, words r'', ⟨_, hgeo⟩, ⟨_, hfactor⟩, readWord_isWord hgeom, ?_⟩
  have hr : words r = geom :: phys :: words r'' := by
    rw [words_of_readWord hgeom, words_of_readWord hphys]
  rcases sgName_eq_ok_iff.mp hname with
    hglued | ⟨hlast, r₁, hspaced, hcolon | ⟨x, r₂, hx, hmux, hcolon⟩⟩
  · rw [words_of_readWord hglued, hr]
    exact Or.inl rfl
  · rw [words_of_readWord hspaced, words_of_readWord hcolon, hr]
    exact Or.inr ⟨(readWord_isWord hspaced).ne, hlast, Or.inl rfl⟩
  · have hne : x ≠ [':'] := by
      rintro rfl
      simp at hmux
    rw [words_of_readWord hspaced, words_of_readWord hx, words_of_readWord hcolon, hr]
    exact Or.inr ⟨(readWord_isWord hspaced).ne, hlast, Or.inr ⟨x, hne, rfl⟩⟩

/-! ### The words -/

lemma IsUnsigned.not_mem {tok : List Char} (h : IsUnsigned tok) {c : Char} (hc : 36 ≤ digitVal c) :
    c ∉ tok := by
  obtain ⟨n, hn⟩ := h
  exact fun hmem => absurd (digitVal_of_cNat hn c hmem) (Nat.not_lt.mpr hc)

lemma ne_colon_of_cInt {tok : List Char} (h : ∃ z, cInt tok = some z) : tok ≠ [':'] := by
  rintro rfl
  obtain ⟨z, hz⟩ := h
  have hnone : cInt [':'] = none := by simp [cInt, cNat, unsigned, hasSign, splitBase, digitVal]
  rw [hnone] at hz
  cases hz

lemma geometry_iff {geom : List Char} (hgeom : IsWord geom) (h : ∃ y, sgGeometry geom = .ok y) :
    GeometryWord geom ↔ GeometryTidy geom := by
  obtain ⟨⟨_, _, _, _⟩, h⟩ := h
  obtain ⟨start, len, order, sign, tail, u, v, rfl, hbar, hat, hat', hu, hv, -⟩ :=
    sgGeometry_eq_ok_iff.mp h
  have hspace := hgeom.isSpace
  rw [List.forall_mem_append, List.forall_mem_cons, List.forall_mem_append] at hspace
  obtain ⟨z, hz, -⟩ := (parseU32_eq_some_iff
    fun c hc => hspace.1 c (List.mem_of_mem_head? hc)).mp hu
  obtain ⟨z', hz', -⟩ := (parseU32_eq_some_iff
    fun c hc => hspace.2.2.1 c (List.mem_of_mem_head? hc)).mp hv
  have hlen : after '|' (start ++ '|' :: (len ++ '@' :: order :: sign :: tail)) =
      len ++ '@' :: order :: sign :: tail := after_append_cons hbar _
  have htail : after '@' (start ++ '|' :: (len ++ '@' :: order :: sign :: tail)) =
      order :: sign :: tail := by
    have hassoc : start ++ '|' :: (len ++ '@' :: order :: sign :: tail) =
        (start ++ '|' :: len) ++ '@' :: order :: sign :: tail := by simp
    rw [hassoc]
    exact after_append_cons (by simp [hat, hat']) _
  rw [GeometryTidy, hlen, htail, hasSign_append (ne_nil_of_cInt hz),
    hasSign_append (ne_nil_of_cInt hz'), ← cNat_isSome_iff hz, ← cNat_isSome_iff hz']
  constructor
  · rintro ⟨start', len', order', sign', hword, hstart, hlen', horder, hsign⟩
    obtain ⟨rfl, hrest⟩ := split_unique hbar (hstart.not_mem (by decide)) hword
    obtain ⟨rfl, hrest'⟩ := split_unique hat' (hlen'.not_mem (by decide)) hrest
    refine ⟨hstart, hlen', ?_⟩
    rw [hrest']
    rcases horder with rfl | rfl <;> rcases hsign with rfl | rfl <;> decide
  · rintro ⟨hstart, hlen', hmem⟩
    simp only [List.mem_cons, List.cons.injEq, List.not_mem_nil, or_false] at hmem
    obtain ⟨rfl, horder, hsign⟩ : tail = [] ∧ (order = '0' ∨ order = '1') ∧
        (sign = '+' ∨ sign = '-') := by tauto
    exact ⟨start, len, order, sign, rfl, hstart, hlen', horder, hsign⟩

lemma scale_iff {phys : List Char} (h : ∃ y, sgFactor stod phys = .ok y) :
    ScaleWord stod phys ↔ ScaleTidy phys := by
  obtain ⟨⟨f, o⟩, h⟩ := h
  obtain ⟨pre, fTok, oTok, post, rfl, hpre, hpre', -, hf, ho, hf', ho'⟩ := sgFactor_eq_ok_iff.mp h
  constructor
  · rintro ⟨f', o', hword, hf', ho', -⟩
    rw [hword]
    have hassoc : '(' :: (f' ++ ',' :: (o' ++ [')'])) =
        ('(' :: (f' ++ ',' :: o')) ++ ')' :: [] := by simp
    refine ⟨rfl, ?_⟩
    rw [hassoc]
    exact after_append_cons (by simp [hf', ho']) _
  · rintro ⟨hhead, hafter⟩
    have hnil : pre = [] := by
      cases pre with
      | nil => rfl
      | cons c pre =>
        cases hhead
        simp at hpre
    have hassoc : pre ++ '(' :: (fTok ++ ',' :: (oTok ++ ')' :: post)) =
        (pre ++ '(' :: (fTok ++ ',' :: oTok)) ++ ')' :: post := by simp
    rw [hassoc, after_append_cons (by simp [hpre', hf, ho])] at hafter
    subst hnil hafter
    exact ⟨fTok, oTok, rfl, hf, ho, by simp [hf'], by simp [ho']⟩

/-- An optional word. -/
lemma exists_toList_iff {ws : List (List Char)} :
    (∃ tx : Option (List Char), ws = tx.toList) ↔ ws.length ≤ 1 := by
  constructor
  · rintro ⟨tx, rfl⟩
    cases tx <;> simp
  · intro h
    match ws with
    | [] => exact ⟨none, rfl⟩
    | [w] => exact ⟨some w, rfl⟩

lemma concat_ne_singleton {name : List Char} {c : Char} : name ++ [c] ≠ [c] ↔ name ≠ [] := by
  simp

lemma bo_iff {line : List Char} {m : DbcMessage D} (h : parseBo line = .ok m) :
    BoLine (words (line.drop 4)) ↔ BoTidy (words (line.drop 4)) := by
  obtain ⟨id, name, dlc, more, ⟨z, hid⟩, hdlc, hws⟩ := words_of_parseBo h
  have hcolon := ne_colon_of_cInt hdlc
  obtain ⟨z', hdlc⟩ := hdlc
  rcases hws with hws | ⟨hname, hlast, hws⟩
  · have htidy : BoTidy (words (line.drop 4)) ↔ hasSign id = false ∧ name ≠ [] ∧
        hasSign dlc = false ∧ more.length ≤ 1 := by
      rw [hws, BoTidy, if_pos (by simp), concat_ne_singleton, DlcTidy]
    rw [htidy, hws, ← cNat_isSome_iff hid, ← cNat_isSome_iff hdlc, ← exists_toList_iff]
    constructor
    · rintro ⟨id', name', dlc', tx, hid', hname', hdlc', heq | heq⟩
      · simp only [List.cons.injEq, List.append_left_inj] at heq
        obtain ⟨rfl, rfl, rfl, rfl⟩ := heq
        exact ⟨hid', hname', hdlc', tx, rfl⟩
      · simp only [List.cons.injEq] at heq
        exact absurd heq.2.2.1 hcolon
    · rintro ⟨hid', hname', hdlc', tx, rfl⟩
      exact ⟨id, name, dlc, tx, hid', hname', hdlc', Or.inl rfl⟩
  · have htidy : BoTidy (words (line.drop 4)) ↔ hasSign id = false ∧
        hasSign dlc = false ∧ more.length ≤ 1 := by
      have hne : name ≠ [':'] := by
        rintro rfl
        exact hlast rfl
      rw [hws, BoTidy, if_neg hlast, List.tail_cons, DlcTidy, and_iff_right hne]
    rw [htidy, hws, ← cNat_isSome_iff hid, ← cNat_isSome_iff hdlc, ← exists_toList_iff]
    constructor
    · rintro ⟨id', name', dlc', tx, hid', -, hdlc', heq | heq⟩
      · simp only [List.cons.injEq] at heq
        exact absurd (by simp [heq.2.1]) hlast
      · simp only [List.cons.injEq] at heq
        obtain ⟨rfl, rfl, -, rfl, rfl⟩ := heq
        exact ⟨hid', hdlc', tx, rfl⟩
    · rintro ⟨hid', hdlc', tx, rfl⟩
      exact ⟨id, name, dlc, tx, hid', hname, hdlc', Or.inr rfl⟩

lemma GeometryWord.mem {geom : List Char} (h : GeometryWord geom) : '|' ∈ geom := by
  obtain ⟨start, len, order, sign, rfl, -⟩ := h
  simp

section Heads

variable {name x geom phys : List Char} {more : List (List Char)} (hbar : '|' ∈ geom)
  (hparen : '(' ∈ phys)

include hbar

include hparen in
lemma sgLine_glued_iff : SgLine stod ((name ++ [':']) :: geom :: phys :: more) ↔
    name ≠ [] ∧ GeometryWord geom ∧ ScaleWord stod phys := by
  constructor
  · rintro ⟨head, geom', phys', more', heq, ⟨name', hname, hhead⟩, hgeom, hphys⟩
    rcases hhead with rfl | rfl | ⟨x, hx, rfl | rfl⟩
    · simp only [List.cons_append, List.nil_append, List.cons.injEq, List.append_left_inj] at heq
      obtain ⟨rfl, rfl, rfl, rfl⟩ := heq
      exact ⟨hname, hgeom, hphys⟩
    · simp only [List.cons_append, List.nil_append, List.cons.injEq] at heq
      simp [heq.2.1] at hbar
    · simp only [List.cons_append, List.nil_append, List.cons.injEq] at heq
      exact absurd (heq.2.1 ▸ hbar) hx.not_mem
    · simp only [List.cons_append, List.nil_append, List.cons.injEq] at heq
      simp [heq.2.2.1] at hparen
  · rintro ⟨hname, hgeom, hphys⟩
    exact ⟨[name ++ [':']], geom, phys, more, rfl, ⟨name, hname, Or.inl rfl⟩, hgeom, hphys⟩

lemma sgLine_spaced_iff (hname : name ≠ []) (hlast : name.getLast? ≠ some ':') :
    SgLine stod (name :: [':'] :: geom :: phys :: more) ↔
      GeometryWord geom ∧ ScaleWord stod phys := by
  constructor
  · rintro ⟨head, geom', phys', more', heq, ⟨name', -, hhead⟩, hgeom, hphys⟩
    rcases hhead with rfl | rfl | ⟨x, hx, rfl | rfl⟩
    · simp only [List.cons_append, List.nil_append, List.cons.injEq] at heq
      simp [heq.1] at hlast
    · simp only [List.cons_append, List.nil_append, List.cons.injEq, true_and] at heq
      obtain ⟨rfl, rfl, rfl, rfl⟩ := heq
      exact ⟨hgeom, hphys⟩
    · simp only [List.cons_append, List.nil_append, List.cons.injEq] at heq
      exact absurd (by simpa using heq.2.1) hx.isWord.ne
    · simp only [List.cons_append, List.nil_append, List.cons.injEq] at heq
      simp [heq.2.2.1] at hbar
  · rintro ⟨hgeom, hphys⟩
    exact ⟨[name, [':']], geom, phys, more, rfl, ⟨name, hname, Or.inr (Or.inl rfl)⟩, hgeom, hphys⟩

omit hbar in
lemma sgLine_mux_iff (hname : name ≠ []) (hlast : name.getLast? ≠ some ':') (hx : x ≠ [':']) :
    SgLine stod (name :: x :: [':'] :: geom :: phys :: more) ↔
      IsMux x ∧ GeometryWord geom ∧ ScaleWord stod phys := by
  constructor
  · rintro ⟨head, geom', phys', more', heq, ⟨name', -, hhead⟩, hgeom, hphys⟩
    rcases hhead with rfl | rfl | ⟨x', hx', rfl | rfl⟩
    · simp only [List.cons_append, List.nil_append, List.cons.injEq] at heq
      simp [heq.1] at hlast
    · simp only [List.cons_append, List.nil_append, List.cons.injEq] at heq
      exact absurd heq.2.1 hx
    · simp only [List.cons_append, List.nil_append, List.cons.injEq] at heq
      simpa [← heq.2.2.1] using hgeom.mem
    · simp only [List.cons_append, List.nil_append, List.cons.injEq, true_and] at heq
      obtain ⟨rfl, rfl, rfl, rfl, rfl⟩ := heq
      exact ⟨hx', hgeom, hphys⟩
  · rintro ⟨hmux, hgeom, hphys⟩
    exact ⟨[name, x, [':']], geom, phys, more, rfl,
      ⟨name, hname, Or.inr (Or.inr ⟨x, hmux, Or.inr rfl⟩)⟩, hgeom, hphys⟩

end Heads

lemma sg_iff [Zero D] [One D] {line : List Char} {s : Signal D}
    (h : parseSg stod line = .ok s) :
    SgLine stod (words (line.drop 4)) ↔ SgTidy (words (line.drop 4)) := by
  obtain ⟨name, geom, phys, more, hgeom, hphys, hword, hws⟩ := words_of_parseSg h
  have hnumbers : NumbersTidy (geom :: phys :: more) ↔
      GeometryWord geom ∧ ScaleWord stod phys := by
    rw [NumbersTidy, geometry_iff hword hgeom, scale_iff hphys]
  have hbar : '|' ∈ geom := by
    obtain ⟨⟨_, _, _, _⟩, hgeo⟩ := hgeom
    obtain ⟨_, _, _, _, _, _, _, rfl, -⟩ := sgGeometry_eq_ok_iff.mp hgeo
    simp
  have hparen : '(' ∈ phys := by
    obtain ⟨⟨_, _⟩, hscale⟩ := hphys
    obtain ⟨_, _, _, _, rfl, -⟩ := sgFactor_eq_ok_iff.mp hscale
    simp
  rcases hws with hws | ⟨hname, hlast, hws | ⟨x, hx, hws⟩⟩
  · rw [hws, SgTidy, if_pos (by simp), concat_ne_singleton, hnumbers]
    exact sgLine_glued_iff hbar hparen
  · rw [hws, SgTidy, if_neg hlast, if_pos rfl, hnumbers]
    exact sgLine_spaced_iff hbar hname hlast
  · rw [hws, SgTidy, if_neg hlast, if_neg hx, List.tail_cons, hnumbers]
    exact sgLine_mux_iff hname hlast hx

/-- A line of an accepted text is one of the grammar exactly if it is tidy. -/
theorem matches_iff_tidy [Zero D] [One D] {text : List Char}
    (hok : (parse stod text).error = none) {l : List Char} (hl : l ∈ getlines text) :
    Matches stod (trim l) ↔ Tidy (trim l) := by
  constructor
  · intro h
    refine ⟨?_, ?_⟩
    · intro hbo
      obtain ⟨m, hm⟩ := parseBo_of_parse hok hl hbo
      exact (bo_iff hm).mp (h.bo hbo)
    · intro hsg
      obtain ⟨s, hs, -⟩ := stored_of_parse hok hl hsg
      exact (sg_iff hs).mp (h.sg hsg)
  · intro h
    refine ⟨?_, ?_⟩
    · intro hbo
      obtain ⟨m, hm⟩ := parseBo_of_parse hok hl hbo
      exact (bo_iff hm).mpr (h.bo hbo)
    · intro hsg
      obtain ⟨s, hs, -⟩ := stored_of_parse hok hl hsg
      exact (sg_iff hs).mpr (h.sg hsg)

/-- A multiplexed signal with a hexadecimal numeral. -/
theorem matches_sample :
    Matches DbcRender.stodInteger "SG_ S m12 : 0x8|16@1- (1,0) E".toList := by
  have hok : (parse DbcRender.stodInteger
      "BO_ 1 M: 8\nSG_ S m12 : 0x8|16@1- (1,0) E".toList).error = none := rfl
  have hl : "SG_ S m12 : 0x8|16@1- (1,0) E".toList ∈
      getlines "BO_ 1 M: 8\nSG_ S m12 : 0x8|16@1- (1,0) E".toList := by decide
  refine (matches_iff_tidy hok hl).mpr ⟨?_, ?_⟩
  · intro hbo
    exact absurd hbo (by decide)
  · intro _
    have hwords : words ("SG_ S m12 : 0x8|16@1- (1,0) E".toList.drop 4) =
        [['S'], "m12".toList, [':'], "0x8|16@1-".toList, "(1,0)".toList, ['E']] := rfl
    refine hwords ▸ ⟨Or.inr ⟨['1', '2'], rfl, by simp, by simp [digitVal]⟩, ?_, ?_⟩
    · exact ⟨rfl, rfl, by decide⟩
    · exact ⟨rfl, rfl⟩

/-- An order that is neither 0 nor 1, a sign that is neither plus nor minus, and text after it. -/
theorem malformed_geometry_accepted :
    (parse DbcRender.stodInteger "BO_ 1 M: 8\nSG_ S : 0|8@xyz (1,0)".toList).error = none ∧
      ¬ Matches DbcRender.stodInteger "SG_ S : 0|8@xyz (1,0)".toList := by
  refine ⟨rfl, fun h => ?_⟩
  have hs : ∃ s, parseSg DbcRender.stodInteger "SG_ S : 0|8@xyz (1,0)".toList = .ok s := ⟨_, rfl⟩
  obtain ⟨s, hs⟩ := hs
  have htidy : SgTidy [['S'], [':'], "0|8@xyz".toList, "(1,0)".toList] := (sg_iff hs).mp (h.sg rfl)
  exact absurd htidy.1.2.2 (by decide)

end DbcGrammar

end BusTestPlatform

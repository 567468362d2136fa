import BusTestPlatform.Lib.Words
import BusTestPlatform.Software.DbcParser

/-!
# The shape of accepted lines

What each part of the parser accepts, as the text that it has in front of it, and what an accepted
text says of its lines.
-/

namespace BusTestPlatform

open Text

namespace DbcParser

variable {D : Type} {stod : List Char → Option (D × ℕ)} {line : List Char}

/-! ### Trimming -/

lemma trim_blank_append {g : List Char} (hg : ∀ c ∈ g, isBlank c = true) (s : List Char) :
    trim (g ++ s) = trim s := by
  rw [trim, trim, List.dropWhile_append_of_pos hg]

lemma trim_append_blank {g : List Char} (hg : ∀ c ∈ g, isBlank c = true) (s : List Char) :
    trim (s ++ g) = trim s := by
  induction s with
  | nil =>
    rw [List.nil_append, ← List.append_nil g, trim_blank_append hg]
  | cons c s ih =>
    by_cases hc : isBlank c = true
    · have hone : ∀ d ∈ [c], isBlank d = true := by simpa using hc
      exact (trim_blank_append hone (s ++ g)).trans (ih.trans (trim_blank_append hone s).symm)
    · rw [trim, trim, List.cons_append, List.dropWhile_cons_of_neg hc,
        List.dropWhile_cons_of_neg hc, ← List.cons_append, rdropWhile_append_of_pos hg]

lemma trim_sublist (s : List Char) : (trim s).Sublist s :=
  (List.rdropWhile_prefix _ _).sublist.trans (List.dropWhile_sublist _)

/-! ### Numerals -/

/-- `parse_u32` accepts the integers of 64 bits, with a sign or without one, and keeps their low
half. -/
lemma parseU32_eq_some_iff {tok : List Char} {u : UInt32}
    (htok : ∀ c ∈ tok.head?, isSpace c = false) : parseU32 tok = some u ↔
      ∃ z, cInt tok = some z ∧ |z| < 2 ^ 64 ∧ (u.toNat : ℤ) = z % 2 ^ 32 := by
  have hlow : ∀ (v : ℕ) (z : ℤ), (v : ℤ) = z % 2 ^ 64 →
      ((UInt32.ofNat v).toNat : ℤ) = z % 2 ^ 32 := by
    intro v z hv
    rw [UInt32.toNat_ofNat', Int.natCast_emod, hv]
    exact Int.emod_emod_of_dvd z (by decide)
  have hread : parseU32 tok = some u ↔
      ∃ v, stoul 64 tok = some (v, tok.length) ∧ UInt32.ofNat v = u := by
    unfold parseU32
    cases hstoul : stoul 64 tok with
    | none => simp
    | some x =>
      obtain ⟨v, pos⟩ := x
      simp only [Option.ite_none_right_eq_some, Option.some.injEq, Prod.mk.injEq]
      constructor
      · rintro ⟨rfl, rfl⟩
        exact ⟨v, ⟨rfl, rfl⟩, rfl⟩
      · rintro ⟨v', ⟨rfl, rfl⟩, rfl⟩
        exact ⟨rfl, rfl⟩
  rw [hread]
  constructor
  · rintro ⟨v, hv, rfl⟩
    obtain ⟨z, hz, hlt, hmod⟩ := (stoul_eq_some_iff htok).mp hv
    exact ⟨z, hz, hlt, hlow v z hmod⟩
  · rintro ⟨z, hz, hlt, hu⟩
    have hnonneg : 0 ≤ z % 2 ^ 64 := Int.emod_nonneg z (by decide)
    have hv : ((z % 2 ^ 64).toNat : ℤ) = z % 2 ^ 64 := Int.toNat_of_nonneg hnonneg
    refine ⟨(z % 2 ^ 64).toNat, (stoul_eq_some_iff htok).mpr ⟨z, hz, hlt, hv⟩, ?_⟩
    apply UInt32.toNat_inj.mp
    have := hlow _ z hv
    rw [← hu] at this
    exact_mod_cast this

lemma boDlc_eq_ok_iff {tok : List Char} {d : UInt8} : boDlc tok = .ok d ↔
    ∃ v, parseU32 tok = some v ∧ v.toNat ≤ busMaxPayload ∧ v.toUInt8 = d := by
  unfold boDlc
  cases parseU32 tok with
  | none => simp
  | some v =>
    by_cases hv : busMaxPayload < v.toNat
    · simp [hv]
    · simp [hv, Nat.le_of_not_lt hv]

/-! ### `BO_` lines -/

lemma boName_eq_ok_iff {r name r' : List Char} : boName line r = .ok (name, r') ↔
    readWord r = some (name ++ [':'], r') ∨
    name.getLast? ≠ some ':' ∧ ∃ r₁, readWord r = some (name, r₁) ∧
      readWord r₁ = some ([':'], r') := by
  simp only [boName, bind_eq_ok, word_eq_ok, Prod.exists]
  constructor
  · rintro ⟨w, r₁, hw, h⟩
    split_ifs at h with hlast
    · cases h
      exact Or.inl (by rwa [List.dropLast_append_getLast? ':' hlast])
    · obtain ⟨c, r₂, hc, h⟩ := by simpa only [bind_eq_ok, word_eq_ok, Prod.exists] using h
      split_ifs at h with hcolon
      cases h
      exact Or.inr ⟨hlast, r₁, hw, hcolon ▸ hc⟩
  · rintro (hw | ⟨hlast, r₁, hw, hc⟩)
    · refine ⟨_, _, hw, ?_⟩
      rw [if_pos (by simp), List.dropLast_concat]
      rfl
    · refine ⟨_, _, hw, ?_⟩
      rw [if_neg hlast]
      simp only [bind_eq_ok, word_eq_ok, Prod.exists]
      refine ⟨_, _, hc, ?_⟩
      rw [if_pos rfl]
      rfl

lemma parseBo_eq_ok_iff {m : DbcMessage D} : parseBo line = .ok m ↔
    ∃ idTok r name r' dlcTok r'' id dlc, readWord (line.drop 4) = some (idTok, r) ∧
      boName line r = .ok (name, r') ∧ readWord r' = some (dlcTok, r'') ∧
      parseU32 idTok = some id ∧ boDlc dlcTok = .ok dlc ∧
      m = ⟨id, name, dlc, ((readWord r'').map Prod.fst).getD [], []⟩ := by
  simp only [parseBo, bind_eq_ok, word_eq_ok, orError_eq_ok, Prod.exists]
  constructor
  · rintro ⟨idTok, r, hid, name, r', hname, dlcTok, r'', hdlc, id, hid', dlc, hdlc', h⟩
    refine ⟨idTok, r, name, r', dlcTok, r'', id, dlc, hid, hname, hdlc, hid', hdlc', ?_⟩
    rw [← Except.ok.inj h]
    cases readWord r'' <;> rfl
  · rintro ⟨idTok, r, name, r', dlcTok, r'', id, dlc, hid, hname, hdlc, hid', hdlc', rfl⟩
    refine ⟨idTok, r, hid, name, r', hname, dlcTok, r'', hdlc, id, hid', dlc, hdlc', ?_⟩
    cases readWord r'' <;> rfl

/-! ### `SG_` lines -/

lemma sgName_eq_ok_iff {name r : List Char} : sgName line = .ok (name, r) ↔
    readWord (line.drop 4) = some (name ++ [':'], r) ∨
    name.getLast? ≠ some ':' ∧ ∃ r₁, readWord (line.drop 4) = some (name, r₁) ∧
      (readWord r₁ = some ([':'], r) ∨ ∃ x r₂, readWord r₁ = some (x, r₂) ∧
        (x = ['M'] ∨ x.head? = some 'm') ∧ readWord r₂ = some ([':'], r)) := by
  simp only [sgName, bind_eq_ok, word_eq_ok, Prod.exists]
  constructor
  · rintro ⟨w, r₁, hw, h⟩
    split_ifs at h with hlast
    · cases h
      exact Or.inl (by rwa [List.dropLast_append_getLast? ':' hlast])
    · obtain ⟨x, r₂, hx, h⟩ := by simpa only [bind_eq_ok, word_eq_ok, Prod.exists] using h
      split_ifs at h with hcolon hmux
      · cases h
        exact Or.inr ⟨hlast, r₁, hw, Or.inl (hcolon ▸ hx)⟩
      · obtain ⟨c, r₃, hc, h⟩ := by simpa only [bind_eq_ok, word_eq_ok, Prod.exists] using h
        split_ifs at h with hcolon'
        cases h
        exact Or.inr ⟨hlast, r₁, hw, Or.inr ⟨x, r₂, hx, hmux, hcolon' ▸ hc⟩⟩
  · rintro (hw | ⟨hlast, r₁, hw, hrest⟩)
    · refine ⟨_, _, hw, ?_⟩
      rw [if_pos (by simp), List.dropLast_concat]
      rfl
    · refine ⟨_, _, hw, ?_⟩
      rw [if_neg hlast]
      simp only [bind_eq_ok, word_eq_ok, Prod.exists]
      rcases hrest with hc | ⟨x, r₂, hx, hmux, hc⟩
      · refine ⟨_, _, hc, ?_⟩
        rw [if_pos rfl]
        rfl
      · have hne : x ≠ [':'] := by
          rintro rfl
          simp at hmux
        refine ⟨_, _, hx, ?_⟩
        rw [if_neg hne, if_pos hmux]
        simp only [bind_eq_ok, word_eq_ok, Prod.exists]
        refine ⟨_, _, hc, ?_⟩
        rw [if_pos rfl]
        rfl

lemma sgGeometry_eq_ok_iff {geom : List Char} {startBit length : UInt8} {little signed : Bool} :
    sgGeometry geom = .ok (startBit, length, little, signed) ↔
      ∃ start len order sign tail s l,
        geom = start ++ '|' :: (len ++ '@' :: order :: sign :: tail) ∧
        '|' ∉ start ∧ '@' ∉ start ∧ '@' ∉ len ∧ parseU32 start = some s ∧
        parseU32 len = some l ∧ startBit = (s &&& 0xFF).toUInt8 ∧
        length = (if 64 < l then 64 else l.toUInt8) ∧ little = (order == '0') ∧
        signed = (sign == '-') := by
  constructor
  · intro h
    cases hn : find '|' geom with
    | none => simp [sgGeometry, hn] at h
    | some n =>
      cases hm : find '@' geom with
      | none => simp [sgGeometry, hn, hm] at h
      | some m =>
        by_cases hlt : m < n
        · simp [sgGeometry, hn, hm, hlt] at h
        · obtain ⟨start, len, t, rfl, hbar, hstart, hlen, rfl, rfl⟩ :=
            (find_find_iff (by decide)).mp ⟨hn, hm, hlt⟩
          simp only [sgGeometry, hn, hm, if_neg hlt, List.take_left, take_between,
            getElem?_after] at h
          split at h
          · next s l hs hl =>
            split at h
            · next order sign horder hsign =>
              obtain ⟨order', t, rfl⟩ := List.exists_cons_of_ne_nil (List.ne_nil_of_mem
                (List.mem_of_getElem? horder))
              obtain ⟨sign', tail, rfl⟩ := List.exists_cons_of_ne_nil (List.ne_nil_of_mem
                (List.mem_of_getElem? (l := t) (i := 0) hsign))
              cases horder
              cases hsign
              cases h
              exact ⟨start, len, order, sign, tail, s, l, rfl, hbar, hstart, hlen, hs, hl, rfl, rfl,
                rfl, rfl⟩
            · cases h
          · cases h
  · rintro ⟨start, len, order, sign, tail, s, l, rfl, hbar, hstart, hlen, hs, hl, rfl, rfl, rfl,
      rfl⟩
    obtain ⟨hn, hm, hlt⟩ := (find_find_iff (by decide)).mpr
      ⟨start, len, order :: sign :: tail, rfl, hbar, hstart, hlen, rfl, rfl⟩
    simp only [sgGeometry, hn, hm, if_neg hlt, List.take_left, take_between, hs, hl,
      getElem?_after, List.getElem?_cons_zero, List.getElem?_cons_succ]

lemma sgFactor_eq_ok_iff {phys : List Char} {f o : D} : sgFactor stod phys = .ok (f, o) ↔
    ∃ pre fTok oTok post, phys = pre ++ '(' :: (fTok ++ ',' :: (oTok ++ ')' :: post)) ∧
      '(' ∉ pre ∧ ')' ∉ pre ∧ ',' ∉ fTok ∧ ')' ∉ fTok ∧ ')' ∉ oTok ∧
      parseDouble stod fTok = some f ∧ parseDouble stod oTok = some o := by
  rw [sgFactor, orError_eq_ok]
  simp only [Option.bind_eq_bind, Option.bind_eq_some_iff, guard, Option.pure_def]
  constructor
  · rintro ⟨n, hn, m, hm, u, hu, k, hk, f', hf, o', ho, h⟩
    have hnm : ¬ m < n := by
      intro hlt
      simp [Nat.lt_asymm hlt] at hu
    obtain ⟨pre, inner, post, rfl, hpre, hpre', hinner, rfl, rfl⟩ :=
      (find_find_iff (by decide)).mp ⟨hn, hm, hnm⟩
    rw [take_between] at hk hf ho
    obtain ⟨fTok, oTok, rfl, hcomma, rfl⟩ := find_eq_some_iff.mp hk
    rw [List.take_left] at hf
    rw [← List.drop_drop, List.drop_left, List.drop_one, List.tail_cons] at ho
    simp only [List.mem_append, List.mem_cons, not_or] at hinner
    cases h
    exact ⟨pre, fTok, oTok, post, by simp, hpre, hpre', hcomma, hinner.1, hinner.2.2, hf, ho⟩
  · rintro ⟨pre, fTok, oTok, post, rfl, hpre, hpre', hcomma, hf', ho', hf, ho⟩
    have hinner : ')' ∉ fTok ++ ',' :: oTok := by simp [hf', ho']
    have hphys : pre ++ '(' :: (fTok ++ ',' :: (oTok ++ ')' :: post)) =
        pre ++ '(' :: ((fTok ++ ',' :: oTok) ++ ')' :: post) := by simp
    obtain ⟨hn, hm, hnm⟩ := (find_find_iff (by decide)).mpr
      ⟨pre, fTok ++ ',' :: oTok, post, rfl, hpre, hpre', hinner, rfl, rfl⟩
    rw [hphys]
    refine ⟨_, hn, _, hm, (), if_pos (by omega), fTok.length, ?_, f, ?_, o, ?_, rfl⟩
    · rw [take_between]
      exact find_append_cons hcomma
    · rw [take_between, List.take_left]
      exact hf
    · rw [take_between, ← List.drop_drop, List.drop_left, List.drop_one, List.tail_cons]
      exact ho

/-! ### Units -/

/-- The text begins with `a` between quotes. -/
def Quoted (r a : List Char) : Prop := '"' ∉ a ∧ ∃ b, trim r = '"' :: (a ++ '"' :: b)

lemma takeWhile_line {r : List Char} (hr : '\n' ∉ r) : r.takeWhile (· ≠ '\n') = r := by
  rw [List.takeWhile_eq_self_iff]
  intro c hc
  refine decide_eq_true ?_
  rintro rfl
  exact hr hc

lemma sgUnit_of_quoted {r a : List Char} (hr : '\n' ∉ r) (h : Quoted r a) : sgUnit r = a := by
  obtain ⟨ha, b, hb⟩ := h
  simp only [sgUnit, takeWhile_line hr, hb, List.head?_cons, if_true, List.drop_one,
    List.tail_cons, find_append_cons ha, List.take_left]

lemma sgUnit_of_not_quoted {r : List Char} (hr : '\n' ∉ r) (h : ∀ a, ¬ Quoted r a) :
    sgUnit r = [] := by
  simp only [sgUnit, takeWhile_line hr]
  split_ifs with hhead
  · obtain ⟨x, hx⟩ := List.head?_eq_some_iff.mp hhead
    rw [hx, List.drop_one, List.tail_cons]
    cases hfind : find '"' x with
    | none => rfl
    | some n =>
      obtain ⟨a, b, rfl, ha, -⟩ := find_eq_some_iff.mp hfind
      exact absurd ⟨ha, b, hx⟩ (h a)
  · rfl

section Lines

variable [Zero D] [One D]

lemma parseSg_eq_ok_iff {sig : Signal D} : parseSg stod line = .ok sig ↔
    ∃ name r geom r' startBit length little signed phys r'' factor offset,
      sgName line = .ok (name, r) ∧ readWord r = some (geom, r') ∧
      sgGeometry geom = .ok (startBit, length, little, signed) ∧
      readWord r' = some (phys, r'') ∧ sgFactor stod phys = .ok (factor, offset) ∧
      sig = ⟨name, startBit, length, factor, offset,
        ((sgRange stod ((readWord r'').getD ([], [])).1).getD (0, 0)).1,
        ((sgRange stod ((readWord r'').getD ([], [])).1).getD (0, 0)).2,
        sgUnit ((readWord r'').getD ([], [])).2, signed, little⟩ := by
  simp only [parseSg, bind_eq_ok, word_eq_ok, Prod.exists]
  constructor
  · rintro ⟨name, r, hname, geom, r', hgeom, startBit, length, little, signed, hgeo, phys, r'',
      hphys, factor, offset, hfactor, h⟩
    exact ⟨name, r, geom, r', startBit, length, little, signed, phys, r'', factor, offset, hname,
      hgeom, hgeo, hphys, hfactor, (Except.ok.inj h).symm⟩
  · rintro ⟨name, r, geom, r', startBit, length, little, signed, phys, r'', factor, offset, hname,
      hgeom, hgeo, hphys, hfactor, rfl⟩
    exact ⟨name, r, hname, geom, r', hgeom, startBit, length, little, signed, hgeo, phys, r'',
      hphys, factor, offset, hfactor, rfl⟩

/-! ### Accepted texts -/

lemma parseLines_append (ms : List (DbcMessage D)) (ls ls' : List (List Char)) :
    parseLines stod ms (ls ++ ls') =
      if (parseLines stod ms ls).error = none then
        parseLines stod (parseLines stod ms ls).messages ls'
      else parseLines stod ms ls := by
  induction ls generalizing ms with
  | nil => rfl
  | cons l ls ih =>
    rw [List.cons_append, parseLines, parseLines]
    split
    · rfl
    · exact ih _

/-- Every line of an accepted text is accepted where it stands. -/
lemma parseLine_of_mem {ms : List (DbcMessage D)} {ls : List (List Char)} {l : List Char}
    (hok : (parseLines stod ms ls).error = none) (hl : l ∈ ls) :
    ∃ ms₁ ms₂, parseLine stod ms₁ l = .ok ms₂ := by
  induction ls generalizing ms with
  | nil => cases hl
  | cons l' ls ih =>
    rw [parseLines] at hok
    split at hok
    · cases hok
    · next ms' h =>
      rcases List.mem_cons.mp hl with rfl | hl
      · exact ⟨ms, ms', h⟩
      · exact ih hok hl

lemma parseLine_bo {ms ms' : List (DbcMessage D)} {l : List Char}
    (hbo : "BO_ ".toList.isPrefixOf (trim l)) (h : parseLine stod ms l = .ok ms') :
    ∃ m, parseBo (trim l) = .ok m ∧ ms' = ms ++ [m] := by
  rw [parseLine_eq_bo hbo] at h
  obtain ⟨m, hm, hms⟩ := bind_eq_ok.mp h
  exact ⟨m, hm, (Except.ok.inj hms).symm⟩

/-- Every `BO_` line of an accepted text is accepted. -/
lemma parseBo_of_parse {text l : List Char} (hok : (parse stod text).error = none)
    (hl : l ∈ getlines text) (hbo : "BO_ ".toList.isPrefixOf (trim l)) :
    ∃ m : DbcMessage D, parseBo (trim l) = .ok m := by
  obtain ⟨ms₁, ms₂, h⟩ := parseLine_of_mem hok hl
  obtain ⟨m, hm, -⟩ := parseLine_bo hbo h
  exact ⟨m, hm⟩

end Lines

end DbcParser

end BusTestPlatform

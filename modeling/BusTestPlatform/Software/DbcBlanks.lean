import BusTestPlatform.Lib.Blanks
import BusTestPlatform.Software.DbcComposition

/-!
# Other blanks

Two texts that differ in the blanks outside of strings. The words of both are the same, but a
keyword counts only with a space after it, and the unit is looked for after the word that is read
as the range, which may end inside a string.
-/

namespace BusTestPlatform

open Text

namespace DbcParser

/-! ### Where blanks matter -/

/-- What is left of an `SG_` line after the word that is read as the range. -/
def remainder (line : List Char) : List Char :=
  match sgName line with
  | .error _ => []
  | .ok (_, r) => dropWord (dropWord (dropWord r))

/-- What is before it. -/
def before (line : List Char) : List Char := line.take (line.length - (remainder line).length)

/-- Both lines begin with a keyword and a space, or none does. Where the remainder of an `SG_` line
begins inside a string, and begins with a quote, the text up to the next quote stays. -/
structure KeepsLine (q : Bool) (l l' : List Char) : Prop where
  keyword : isStatement l = isStatement l'
  unit : "SG_ ".toList.isPrefixOf (trim l) = true → inQuotes q (before (trim l)) = true →
    ∀ a, Quoted (remainder (trim l)) a → Quoted (remainder (trim l')) a

/-- The texts are both accepted or both rejected, with the same messages, and no statement of the
first one is passed over in the second one. -/
structure ReadAlike {D : Type} [Zero D] [One D] (stod : List Char → Option (D × ℕ))
    (t t' : List Char) : Prop where
  parse : parse stod t' = parse stod t
  statements : List.Forall₂ (fun l l' => isStatement l = true → isStatement l' = true)
    (getlines t) (getlines t')

/-! ### Keywords -/

variable {q : Bool} {t t' : List Char}

lemma trim_reblanked (h : Reblanked q t t') : Reblanked q (trim t) (trim t') :=
  (h.dropWhile rfl rfl rfl).rdropWhile rfl rfl

/-- After a keyword and its space. -/
lemma readTo_keyword {k : List Char} (hlen : k.length = 3)
    (hk : ∀ c ∈ k, ¬ (c = ' ' ∨ c = '\t')) (h : Reblanked q t t')
    (ht : (k ++ [' ']).isPrefixOf t = true) (ht' : (k ++ [' ']).isPrefixOf t' = true) :
    ∃ r r', readWord (t.drop 4) = readWord r ∧ readWord (t'.drop 4) = readWord r' ∧
      ReadTo q t r r' := by
  obtain ⟨u, rfl⟩ := List.isPrefixOf_iff_prefix.mp ht
  obtain ⟨u', rfl⟩ := List.isPrefixOf_iff_prefix.mp ht'
  have hdrop : ∀ u, (k ++ [' '] ++ u).drop 4 = u := fun u =>
    List.drop_left' (by rw [List.length_append, hlen]; rfl)
  rw [List.append_assoc] at h
  obtain ⟨v, hv, h⟩ := h.append_left hk
  rw [List.append_assoc, List.append_cancel_left_eq] at hv
  subst hv
  refine ⟨' ' :: u, ' ' :: u', ?_, ?_, k, by simp, h⟩
  · rw [hdrop, readWord_space]
  · rw [hdrop, readWord_space]

lemma bo_blank : ∀ c ∈ "BO_".toList, ¬ (c = ' ' ∨ c = '\t') := by simp

lemma sg_blank : ∀ c ∈ "SG_".toList, ¬ (c = ' ' ∨ c = '\t') := by simp

/-- With other blanks a statement does not get the other keyword. -/
lemma not_sg_of_bo (h : Reblanked q t t') (ht : "BO_ ".toList.isPrefixOf t = true) :
    "SG_ ".toList.isPrefixOf t' = false := by
  obtain ⟨u, rfl⟩ := List.isPrefixOf_iff_prefix.mp ht
  obtain ⟨u', rfl, -⟩ := h.append_left (w := "BO_".toList) bo_blank
  rfl

lemma not_bo_of_sg (h : Reblanked q t t') (ht : "SG_ ".toList.isPrefixOf t = true) :
    "BO_ ".toList.isPrefixOf t' = false := by
  obtain ⟨u, rfl⟩ := List.isPrefixOf_iff_prefix.mp ht
  obtain ⟨u', rfl, -⟩ := h.append_left (w := "SG_".toList) sg_blank
  rfl

/-! ### `BO_` lines -/

variable {D : Type} {stod : List Char → Option (D × ℕ)}

lemma boName_readTo (line' : List Char) {line s r r' name rest : List Char}
    (h : ReadTo q s r r') (hname : boName line r = .ok (name, rest)) :
    ∃ rest', boName line' r' = .ok (name, rest') ∧ ReadTo q s rest rest' := by
  rcases boName_eq_ok_iff.mp hname with hw | ⟨hlast, r₁, hw, hc⟩
  · obtain ⟨rest', hw', h'⟩ := h.readWord hw
    exact ⟨rest', boName_eq_ok_iff.mpr (Or.inl hw'), h'⟩
  · obtain ⟨r₁', hw', h₁⟩ := h.readWord hw
    obtain ⟨rest', hc', h'⟩ := h₁.readWord hc
    exact ⟨rest', boName_eq_ok_iff.mpr (Or.inr ⟨hlast, r₁', hw', hc'⟩), h'⟩

lemma parseBo_reblanked {m : DbcMessage D} (h : Reblanked q t t')
    (ht : "BO_ ".toList.isPrefixOf t = true) (ht' : "BO_ ".toList.isPrefixOf t' = true)
    (hm : parseBo t = .ok m) : parseBo t' = .ok m := by
  obtain ⟨idTok, r, name, r₁, dlcTok, r₂, id, dlc, hid, hname, hdlc, hid', hdlc', rfl⟩ :=
    parseBo_eq_ok_iff.mp hm
  obtain ⟨s, s', hs, hs', hread⟩ := readTo_keyword (k := "BO_".toList) rfl bo_blank h ht ht'
  obtain ⟨r', hw', hread⟩ := hread.readWord (hs ▸ hid)
  obtain ⟨r₁', hname', hread⟩ := boName_readTo t' hread hname
  obtain ⟨r₂', hdlcTok', hread⟩ := hread.readWord hdlc
  refine parseBo_eq_ok_iff.mpr ⟨idTok, r', name, r₁', dlcTok, r₂', id, dlc, hs' ▸ hw', hname',
    hdlcTok', hid', hdlc', ?_⟩
  rw [hread.map_fst]

/-! ### `SG_` lines -/

lemma sgName_reblanked {name r : List Char} (h : Reblanked q t t')
    (ht : "SG_ ".toList.isPrefixOf t = true) (ht' : "SG_ ".toList.isPrefixOf t' = true)
    (hname : sgName t = .ok (name, r)) : ∃ r', sgName t' = .ok (name, r') ∧ ReadTo q t r r' := by
  obtain ⟨s, s', hs, hs', hread⟩ := readTo_keyword (k := "SG_".toList) rfl sg_blank h ht ht'
  rcases sgName_eq_ok_iff.mp hname with hw | ⟨hlast, r₁, hw, hc | ⟨x, r₂, hx, hmux, hc⟩⟩
  · obtain ⟨r', hw', hread⟩ := hread.readWord (hs ▸ hw)
    exact ⟨r', sgName_eq_ok_iff.mpr (Or.inl (hs' ▸ hw')), hread⟩
  · obtain ⟨r₁', hw', hread⟩ := hread.readWord (hs ▸ hw)
    obtain ⟨r', hc', hread⟩ := hread.readWord hc
    exact ⟨r', sgName_eq_ok_iff.mpr (Or.inr ⟨hlast, r₁', hs' ▸ hw', Or.inl hc'⟩), hread⟩
  · obtain ⟨r₁', hw', hread⟩ := hread.readWord (hs ▸ hw)
    obtain ⟨r₂', hx', hread⟩ := hread.readWord hx
    obtain ⟨r', hc', hread⟩ := hread.readWord hc
    exact ⟨r', sgName_eq_ok_iff.mpr (Or.inr ⟨hlast, r₁', hs' ▸ hw',
      Or.inr ⟨x, r₂', hx', hmux, hc'⟩⟩), hread⟩

lemma remainder_eq {name r : List Char} (h : sgName t = .ok (name, r)) :
    remainder t = dropWord (dropWord (dropWord r)) := by
  rw [remainder, h]

lemma before_eq {r' : List Char} (h : ReadTo q t (remainder t) r') :
    Reblanked (inQuotes q (before t)) (remainder t) r' := by
  obtain ⟨pre, hpre, h⟩ := h
  have hlen : t.length - (remainder t).length = pre.length := by
    rw [congrArg List.length hpre, List.length_append, Nat.add_sub_cancel]
  have hbefore : before t = pre := by
    rw [before, hlen, congrArg (List.take pre.length) hpre, List.take_left]
  rwa [hbefore]

/-! ### The unit -/

/-- The quotes stay; outside of strings, so does the text between the first two. -/
lemma quoted_reblanked {r r' a : List Char} (h : Reblanked q r r') (ha : Quoted r a) :
    ∃ a', Quoted r' a' ∧ (q = false → a' = a) := by
  obtain ⟨ha, b, hb⟩ := ha
  have htrim := trim_reblanked h
  rw [hb] at htrim
  obtain ⟨x, hx, htail⟩ := htrim.cons_left (by decide)
  obtain ⟨a', b', rfl, ha'⟩ :=
    List.eq_append_cons_of_mem ((htail.mem_iff (c := '"') (by decide)).mp (by simp))
  refine ⟨a', ⟨ha', b', hx⟩, ?_⟩
  rintro rfl
  have htake := htail.takeWhile_quote
  rw [takeWhile_append_cons ha, takeWhile_append_cons ha'] at htake
  exact htake.symm

lemma sgUnit_reblanked_iff {r r' : List Char} (h : Reblanked q r r') (hr : '\n' ∉ r) :
    sgUnit r' = sgUnit r ↔ (q = true → ∀ a, Quoted r a → Quoted r' a) := by
  have hr' : '\n' ∉ r' := (h.mem_iff (by decide)).not.mp hr
  constructor
  · intro hunit _ a ha
    obtain ⟨a', ha', -⟩ := quoted_reblanked h ha
    rw [sgUnit_of_quoted hr' ha', sgUnit_of_quoted hr ha] at hunit
    exact hunit ▸ ha'
  · intro hkeep
    by_cases hex : ∃ a, Quoted r a
    · obtain ⟨a, ha⟩ := hex
      have ha' : Quoted r' a := by
        cases q with
        | true => exact hkeep rfl a ha
        | false =>
          obtain ⟨a', ha', heq⟩ := quoted_reblanked h ha
          exact heq rfl ▸ ha'
      rw [sgUnit_of_quoted hr ha, sgUnit_of_quoted hr' ha']
    · rw [sgUnit_of_not_quoted hr (not_exists.mp hex)]
      apply sgUnit_of_not_quoted hr'
      intro a' ha'
      obtain ⟨a, ha, -⟩ := quoted_reblanked h.symm ha'
      exact hex ⟨a, ha⟩

variable [Zero D] [One D]

/-- All but the unit is the same. -/
lemma parseSg_reblanked {s : Signal D} (h : Reblanked q t t')
    (ht : "SG_ ".toList.isPrefixOf t = true) (ht' : "SG_ ".toList.isPrefixOf t' = true)
    (hs : parseSg stod t = .ok s) :
    s.unit = sgUnit (remainder t) ∧
    parseSg stod t' = .ok { s with unit := sgUnit (remainder t') } ∧
    ReadTo q t (remainder t) (remainder t') := by
  obtain ⟨name, r, geom, r₁, startBit, length, little, signed, phys, r₂, factor, offset, hname,
    hgeom, hgeo, hphys, hfactor, rfl⟩ := parseSg_eq_ok_iff.mp hs
  obtain ⟨r', hname', hread⟩ := sgName_reblanked h ht ht' hname
  obtain ⟨r₁', hgeom', hread₁⟩ := hread.readWord hgeom
  obtain ⟨r₂', hphys', hread₂⟩ := hread₁.readWord hphys
  have hrem : remainder t = dropWord r₂ := by
    rw [remainder_eq hname, dropWord_eq hgeom, dropWord_eq hphys]
  have hrem' : remainder t' = dropWord r₂' := by
    rw [remainder_eq hname', dropWord_eq hgeom', dropWord_eq hphys']
  have hrange : ((readWord r₂).getD ([], [])).1 = ((readWord r₂').getD ([], [])).1 := by
    rw [fst_readWord, fst_readWord, hread₂.map_fst]
  refine ⟨?_, ?_, ?_⟩
  · rw [hrem, snd_readWord]
  · refine parseSg_eq_ok_iff.mpr ⟨name, r', geom, r₁', startBit, length, little, signed, phys, r₂',
      factor, offset, hname', hgeom', hgeo, hphys', hfactor, ?_⟩
    simp only [hrem', snd_readWord, hrange]
  · rw [hrem, hrem']
    exact hread₂.dropWord

/-! ### Lines -/

/-- `l'` is read as the same statement as `l`, or neither is a statement. -/
def SameItem (stod : List Char → Option (D × ℕ)) (l l' : List Char) : Prop :=
  isStatement l = isStatement l' ∧ lineItem stod l' = lineItem stod l

section Lines

variable {l l' : List Char}

lemma statement_cases (h : (lineItem stod l).isSome = isStatement l) :
    isStatement l = false ∨
    ("BO_ ".toList.isPrefixOf (trim l) = true ∧ ∃ m : DbcMessage D, parseBo (trim l) = .ok m) ∨
    ("SG_ ".toList.isPrefixOf (trim l) = true ∧ ∃ s, parseSg stod (trim l) = .ok s) := by
  by_cases hbo : "BO_ ".toList.isPrefixOf (trim l) = true
  · rw [lineItem, if_pos hbo, isStatement, hbo, Bool.true_or] at h
    cases hm : (parseBo (trim l) : Except (List Char) (DbcMessage D)) with
    | error e =>
      rw [hm] at h
      cases h
    | ok m => exact Or.inr (Or.inl ⟨hbo, m, rfl⟩)
  · by_cases hsg : "SG_ ".toList.isPrefixOf (trim l) = true
    · rw [lineItem, if_neg hbo, if_pos hsg, isStatement, hsg, Bool.or_true] at h
      cases hs : parseSg stod (trim l) with
      | error e =>
        rw [hs] at h
        cases h
      | ok s => exact Or.inr (Or.inr ⟨hsg, s, rfl⟩)
    · rw [lineItem, if_neg hbo, if_neg hsg] at h
      exact Or.inl h.symm

/-- What an accepted line is read as stays the same exactly if it keeps its keyword and its quoted
text. -/
lemma keepsLine_iff (h : Reblanked q l l') (hl : '\n' ∉ l)
    (hitem : (lineItem stod l).isSome = isStatement l) :
    KeepsLine q l l' ↔ SameItem stod l l' := by
  have ht := trim_reblanked h
  have hsplit : KeepsLine q l l' ↔ isStatement l = isStatement l' ∧
      ("SG_ ".toList.isPrefixOf (trim l) = true → inQuotes q (before (trim l)) = true →
        ∀ a, Quoted (remainder (trim l)) a → Quoted (remainder (trim l')) a) :=
    ⟨fun h => ⟨h.keyword, h.unit⟩, fun h => ⟨h.1, h.2⟩⟩
  rw [hsplit, SameItem]
  apply and_congr_right
  intro hkey
  rcases statement_cases hitem with hnone | ⟨hbo, m, hm⟩ | ⟨hsg, s, hs⟩
  · rw [lineItem_of_not_isStatement hnone, lineItem_of_not_isStatement (hkey ▸ hnone)]
    rw [isStatement, Bool.or_eq_false_iff] at hnone
    rw [hnone.2]
    simp
  · have hbo' : "BO_ ".toList.isPrefixOf (trim l') = true := by
      rw [isStatement, isStatement, hbo, not_sg_of_bo ht hbo, Bool.true_or, Bool.or_false] at hkey
      exact hkey.symm
    rw [lineItem_bo hbo hm, lineItem_bo hbo' (parseBo_reblanked ht hbo hbo' hm)]
    rw [not_sg_of_bo (.refl q _) hbo]
    simp
  · have hsg' : "SG_ ".toList.isPrefixOf (trim l') = true := by
      rw [isStatement, isStatement, hsg, not_bo_of_sg ht hsg, Bool.or_true, Bool.false_or] at hkey
      exact hkey.symm
    obtain ⟨hunit, hs', hread⟩ := parseSg_reblanked ht hsg hsg' hs
    have hnl : '\n' ∉ remainder (trim l) := by
      obtain ⟨pre, hpre, -⟩ := hread
      intro hmem
      exact hl ((trim_sublist l).subset (hpre ▸ List.mem_append_right pre hmem))
    rw [lineItem_sg hsg hs, lineItem_sg hsg' hs', imp_iff_right hsg,
      ← sgUnit_reblanked_iff (before_eq hread) hnl, ← hunit]
    constructor
    · intro heq
      rw [heq]
    · intro heq
      exact congrArg Signal.unit (Item.signal.inj (Option.some.inj heq))

/-- What an item does to the database. -/
def addItem (ms : List (DbcMessage D)) : Item D → Except (List Char) (List (DbcMessage D))
  | .message m => .ok (ms ++ [m])
  | .signal s =>
    match ms.getLast? with
    | none => .error "SG_ line before any BO_ message".toList
    | some m => .ok (ms.dropLast ++ [m.push s])

lemma parseLine_eq_addItem {i : Item D} (h : lineItem stod l = some i)
    (ms : List (DbcMessage D)) : parseLine stod ms l = addItem ms i := by
  by_cases hbo : "BO_ ".toList.isPrefixOf (trim l) = true
  · rw [lineItem, if_pos hbo] at h
    rw [parseLine_eq_bo hbo]
    cases hm : (parseBo (trim l) : Except (List Char) (DbcMessage D)) with
    | error e =>
      rw [hm] at h
      cases h
    | ok m =>
      rw [hm] at h
      cases h
      rfl
  · by_cases hsg : "SG_ ".toList.isPrefixOf (trim l) = true
    · rw [lineItem, if_neg hbo, if_pos hsg] at h
      rw [parseLine_eq_sg hsg, addSignal]
      cases hs : parseSg stod (trim l) with
      | error e =>
        rw [hs] at h
        cases h
      | ok s =>
        rw [hs] at h
        cases h
        rfl
    · rw [lineItem, if_neg hbo, if_neg hsg] at h
      cases h

/-- A line is as good as another one that says the same. -/
lemma parseLine_of_lineItem (hitem : (lineItem stod l).isSome = isStatement l)
    (h : SameItem stod l l')
    (ms : List (DbcMessage D)) : parseLine stod ms l' = parseLine stod ms l := by
  cases hl : lineItem stod l with
  | none =>
    rw [hl] at hitem
    rw [parseLine_of_not_isStatement hitem.symm,
      parseLine_of_not_isStatement (h.1.symm.trans hitem.symm)]
  | some i => rw [parseLine_eq_addItem hl, parseLine_eq_addItem (h.2.trans hl)]

end Lines

/-! ### Texts -/

variable {ls ls' : List (List Char)} {next : Bool → List Char → Bool}

lemma linewise_keepsLine_iff (h : Linewise next Reblanked q ls ls') (hls : ∀ l ∈ ls, '\n' ∉ l)
    (hitems : ∀ l ∈ ls, (lineItem stod l).isSome = isStatement l) :
    Linewise next KeepsLine q ls ls' ↔ List.Forall₂ (SameItem stod) ls ls' := by
  induction h with
  | nil q => exact iff_of_true (.nil q) .nil
  | @cons q l l' ls ls' hl _ ih =>
    rw [List.forall_mem_cons] at hls hitems
    rw [List.forall₂_cons, ← ih hls.2 hitems.2, ← keepsLine_iff hl hls.1 hitems.1]
    constructor
    · rintro (_ | ⟨h, hs⟩)
      exact ⟨h, hs⟩
    · rintro ⟨h, hs⟩
      exact .cons h hs

lemma forall₂_parseLine (h : List.Forall₂ (SameItem stod) ls ls')
    (hitems : ∀ l ∈ ls, (lineItem stod l).isSome = isStatement l) :
    List.Forall₂ (fun l l' => ∀ ms, parseLine stod ms l = parseLine stod ms l') ls ls' := by
  induction h with
  | nil => exact .nil
  | cons h _ ih =>
    rw [List.forall_mem_cons] at hitems
    exact .cons (fun ms => (parseLine_of_lineItem hitems.1 h ms).symm) (ih hitems.2)

lemma countP_isStatement_le
    (h : List.Forall₂ (fun l l' => isStatement l = true → isStatement l' = true) ls ls') :
    ls.countP isStatement ≤ ls'.countP isStatement := by
  induction h with
  | nil => exact Nat.le_refl 0
  | @cons l l' ls ls' h _ ih =>
    rw [List.countP_cons, List.countP_cons]
    by_cases hl : isStatement l = true
    · rw [if_pos hl, if_pos (h hl)]
      exact Nat.succ_le_succ ih
    · rw [if_neg hl]
      exact Nat.le_add_right_of_le ih

lemma length_filterMap_lineItem
    (hitems : ∀ l ∈ ls, (lineItem stod l).isSome = isStatement l) :
    (ls.filterMap (lineItem stod)).length = ls.countP isStatement := by
  rw [List.length_filterMap_eq_countP]
  apply List.countP_congr
  intro l hl
  rw [hitems l hl]

/-- Where no statement is passed over and the statements are the same, each is the same. -/
lemma forall₂_of_filterMap
    (h : List.Forall₂ (fun l l' => isStatement l = true → isStatement l' = true) ls ls')
    (hitems : ∀ l ∈ ls, (lineItem stod l).isSome = isStatement l)
    (hitems' : ∀ l ∈ ls', (lineItem stod l).isSome = isStatement l)
    (heq : ls.filterMap (lineItem stod) = ls'.filterMap (lineItem stod)) :
    List.Forall₂ (SameItem stod) ls ls' := by
  induction h with
  | nil => exact .nil
  | @cons l l' ls ls' h hs ih =>
    rw [List.forall_mem_cons] at hitems hitems'
    have hcount := countP_isStatement_le hs
    rw [← length_filterMap_lineItem hitems.2, ← length_filterMap_lineItem hitems'.2] at hcount
    rw [← hitems.1, ← hitems'.1] at h
    cases hl : lineItem stod l with
    | some i =>
      obtain ⟨i', hl'⟩ := Option.isSome_iff_exists.mp (h (by rw [hl]; rfl))
      rw [List.filterMap_cons_some hl, List.filterMap_cons_some hl', List.cons.injEq] at heq
      refine .cons ⟨?_, ?_⟩ (ih hitems.2 hitems'.2 heq.2)
      · rw [← hitems.1, ← hitems'.1, hl, hl']
        rfl
      · rw [hl, hl', heq.1]
    | none =>
      cases hl' : lineItem stod l' with
      | none =>
        rw [List.filterMap_cons_none hl, List.filterMap_cons_none hl'] at heq
        refine .cons ⟨?_, hl'.trans hl.symm⟩ (ih hitems.2 hitems'.2 heq)
        rw [← hitems.1, ← hitems'.1, hl, hl']
      | some i' =>
        -- A line that is a statement in the second text only would leave one too many.
        rw [List.filterMap_cons_none hl, List.filterMap_cons_some hl'] at heq
        rw [heq, List.length_cons] at hcount
        exact absurd hcount (Nat.not_succ_le_self _)

/-- An accepted text with other blanks is read alike exactly if every line keeps its keyword and
its quoted text, whether strings go on over lines or not. -/
theorem readAlike_iff (hok : (parse stod t).error = none)
    (h : Linewise next Reblanked false (getlines t) (getlines t')) :
    ReadAlike stod t t' ↔ Linewise next KeepsLine false (getlines t) (getlines t') := by
  obtain ⟨hmessages, hitems⟩ := items_parseLines hok
  rw [linewise_keepsLine_iff h (fun l hl => newline_not_mem_getlines hl) hitems]
  constructor
  · rintro ⟨hparse, hstatements⟩
    obtain ⟨hmessages', hitems'⟩ := items_parseLines ((congrArg Parsed.error hparse).trans hok)
    apply forall₂_of_filterMap hstatements hitems hitems'
    rw [parse, parse] at hparse
    rw [hparse, hmessages] at hmessages'
    exact List.append_cancel_left hmessages'
  · intro hsame
    refine ⟨(parseLines_congr (forall₂_parseLine hsame hitems) []).symm, hsame.imp ?_⟩
    intro l l' h hl
    rwa [← h.1]

/-- A tab inside of the statement does not matter. -/
theorem readAlike_sample :
    ReadAlike DbcRender.stodInteger
      "BO_ 1 M: 8\n SG_ S : 0|8@1+ (1,0) [0|9] \"m s\"".toList
      "BO_ 1\tM: 8\n SG_ S : 0|8@1+ (1,0) [0|9] \"m s\"".toList := by
  have hblanks : Reblanked false "BO_ 1 M: 8\n SG_ S : 0|8@1+ (1,0) [0|9] \"m s\"".toList
      "BO_ 1\tM: 8\n SG_ S : 0|8@1+ (1,0) [0|9] \"m s\"".toList :=
    Reblanked.replace "BO_ 1".toList "M: 8\n SG_ S : 0|8@1+ (1,0) [0|9] \"m s\"".toList rfl
      (isGap_singleton (Or.inl rfl)) (isGap_singleton (Or.inr rfl))
  refine (readAlike_iff rfl hblanks.getlines).mpr ?_
  refine .cons ⟨rfl, fun h => absurd h (by decide)⟩ (.cons ⟨rfl, fun _ h => ?_⟩ (.nil _))
  exact absurd h (by decide)

/-- With a tab after its keyword the second message is passed over, and its signal goes to the
first one. -/
theorem keyword_tab :
    Reblanked false "BO_ 1 A: 8\nBO_ 2 B: 8\nSG_ S : 0|8@0+ (1,0)".toList
      "BO_ 1 A: 8\nBO_\t2 B: 8\nSG_ S : 0|8@0+ (1,0)".toList ∧
    parse DbcRender.stodInteger "BO_ 1 A: 8\nBO_ 2 B: 8\nSG_ S : 0|8@0+ (1,0)".toList =
      ⟨[⟨1, ['A'], 8, [], []⟩, ⟨2, ['B'], 8, [], [⟨['S'], 0, 8, 1, 0, 0, 0, [], false, true⟩]⟩],
        none⟩ ∧
    parse DbcRender.stodInteger "BO_ 1 A: 8\nBO_\t2 B: 8\nSG_ S : 0|8@0+ (1,0)".toList =
      ⟨[⟨1, ['A'], 8, [], [⟨['S'], 0, 8, 1, 0, 0, 0, [], false, true⟩]⟩], none⟩ := by
  refine ⟨?_, rfl, rfl⟩
  exact Reblanked.replace "BO_ 1 A: 8\nBO_".toList "2 B: 8\nSG_ S : 0|8@0+ (1,0)".toList rfl
    (isGap_singleton (Or.inl rfl)) (isGap_singleton (Or.inr rfl))

end DbcParser

end BusTestPlatform

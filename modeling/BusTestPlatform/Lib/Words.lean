import BusTestPlatform.Lib.Text

/-!
# The words of a text

`words` is what reading a stream word by word gives. `readWord_eq_some_iff` and `find_eq_some_iff`
say where a word and a character stand.
-/

namespace Text

/-- A word: characters that are no spaces, at least one. -/
structure IsWord (w : List Char) : Prop where
  ne : w ≠ []
  isSpace : ∀ c ∈ w, isSpace c = false

lemma IsWord.head {w : List Char} (h : IsWord w) : ∀ c ∈ w.head?, Text.isSpace c = false :=
  fun c hc => h.isSpace c (List.mem_of_mem_head? hc)

lemma IsWord.concat {w : List Char} (h : IsWord w) {c : Char} (hc : Text.isSpace c = false) :
    IsWord (w ++ [c]) := by
  refine ⟨by simp, ?_⟩
  rw [List.forall_mem_append]
  exact ⟨h.isSpace, by simp [hc]⟩

/-- The words between the spaces. -/
def words : List Char → List (List Char)
  | [] => []
  | c :: cs =>
    if isSpace c then words cs
    else if (cs.head?.map isSpace).getD true then [c] :: words cs
    else consFirst c (words cs)

lemma words_append_of_space {b : List Char} (hb : ∀ c ∈ b, isSpace c = true) (s : List Char) :
    words (b ++ s) = words s := by
  induction b with
  | nil => rfl
  | cons c b ih =>
    rw [List.forall_mem_cons] at hb
    rw [List.cons_append, words, if_pos hb.1, ih hb.2]

lemma words_append {w r : List Char} (hw : IsWord w) (hr : ∀ c ∈ r.head?, isSpace c = true) :
    words (w ++ r) = w :: words r := by
  obtain ⟨hne, hword⟩ := hw
  induction w with
  | nil => exact absurd rfl hne
  | cons c w ih =>
    rw [List.forall_mem_cons] at hword
    rw [List.cons_append, words, if_neg (by simp [hword.1])]
    by_cases hnil : w = []
    · subst hnil
      cases r with
      | nil => simp
      | cons d r => simp [hr d rfl]
    · obtain ⟨d, w', rfl⟩ := List.exists_cons_of_ne_nil hnil
      rw [List.cons_append, List.head?_cons, if_neg (by simp [hword.2]), ← List.cons_append,
        ih hnil hword.2]
      rfl

/-! ### Reading one word -/

lemma readWord_eq_some_iff {s w r : List Char} : readWord s = some (w, r) ↔
    ∃ b, s = b ++ (w ++ r) ∧ (∀ c ∈ b, isSpace c = true) ∧ IsWord w ∧
      ∀ c ∈ r.head?, isSpace c = true := by
  constructor
  · intro h
    simp only [readWord, Option.ite_none_left_eq_some, Option.some.injEq, Prod.mk.injEq] at h
    obtain ⟨hne, rfl, rfl⟩ := h
    refine ⟨s.takeWhile isSpace, ?_, fun c hc => List.mem_takeWhile_imp hc, ⟨?_, ?_⟩, ?_⟩
    · rw [List.takeWhile_append_dropWhile, List.takeWhile_append_dropWhile]
    · have hhead := List.head_dropWhile_not isSpace hne
      obtain ⟨c, t, ht⟩ := List.exists_cons_of_ne_nil hne
      simp only [ht, List.head_cons] at hhead
      simp [ht, hhead]
    · intro c hc
      simpa using List.mem_takeWhile_imp hc
    · intro c hc
      have := List.head?_dropWhile_not (!isSpace ·) (s.dropWhile isSpace)
      rw [Option.mem_def.mp hc] at this
      simpa using this
  · rintro ⟨b, rfl, hb, hw, hr⟩
    exact readWord_append hb hw.ne hw.isSpace hr

lemma readWord_space (s : List Char) : readWord (' ' :: s) = readWord s := by
  have hskip : (' ' :: s).dropWhile isSpace = s.dropWhile isSpace :=
    List.dropWhile_cons_of_pos rfl
  rw [readWord, readWord, hskip]

lemma readWord_isWord {s w r : List Char} (h : readWord s = some (w, r)) : IsWord w := by
  obtain ⟨b, -, -, hw, -⟩ := readWord_eq_some_iff.mp h
  exact hw

lemma words_of_readWord {s w r : List Char} (h : readWord s = some (w, r)) :
    words s = w :: words r := by
  obtain ⟨b, rfl, hb, hw, hr⟩ := readWord_eq_some_iff.mp h
  rw [words_append_of_space hb, words_append hw hr]

/-! ### The end of a text -/

/-- What is dropped from the end of a text. -/
lemma rdropWhile_append {p : Char → Bool} (s t : List Char) : (s ++ t).rdropWhile p =
    if t.rdropWhile p = [] then s.rdropWhile p else s ++ t.rdropWhile p := by
  simp only [List.rdropWhile, List.reverse_append, List.dropWhile_append, List.isEmpty_iff,
    List.reverse_eq_nil_iff]
  split_ifs
  · rfl
  · rw [List.reverse_append, List.reverse_reverse]

lemma rdropWhile_append_of_pos {p : Char → Bool} {g : List Char} (hg : ∀ c ∈ g, p c = true)
    (s : List Char) : (s ++ g).rdropWhile p = s.rdropWhile p := by
  rw [rdropWhile_append, if_pos (List.rdropWhile_eq_nil_iff.mpr hg)]

lemma rdropWhile_append_cons {p : Char → Bool} {c : Char} (hc : p c = false) (a t : List Char) :
    (a ++ c :: t).rdropWhile p = a ++ c :: t.rdropWhile p := by
  have htail : (c :: t).rdropWhile p = c :: t.rdropWhile p := by
    rw [← List.singleton_append, rdropWhile_append]
    split_ifs with ht
    · rw [ht]
      exact List.rdropWhile_concat_neg p [] c (by simp [hc])
    · rfl
  rw [rdropWhile_append, htail, if_neg (List.cons_ne_nil _ _)]

/-! ### Finding a character -/

lemma find_eq_some_iff {c : Char} {s : List Char} {n : ℕ} :
    find c s = some n ↔ ∃ a b, s = a ++ c :: b ∧ c ∉ a ∧ a.length = n := by
  constructor
  · intro h
    obtain ⟨hn, hat, hbefore⟩ := List.idxOf?_eq_some_iff.mp h
    refine ⟨s.take n, s.drop (n + 1), ?_, ?_, List.length_take_of_le hn.le⟩
    · rw [← hat, List.getElem_cons_drop, List.take_append_drop]
    · intro hmem
      obtain ⟨i, hi, hc⟩ := List.mem_iff_getElem.mp hmem
      rw [List.length_take] at hi
      rw [List.getElem_take] at hc
      exact hbefore i (by omega) hc
  · rintro ⟨a, b, rfl, ha, rfl⟩
    exact find_append_cons ha

lemma find_eq_none_iff {c : Char} {s : List Char} : find c s = none ↔ c ∉ s :=
  List.idxOf?_eq_none_iff

/-- Two characters of a text, the first of which comes first. -/
lemma find_find_iff {c d : Char} {s : List Char} {n m : ℕ} (hcd : c ≠ d) :
    find c s = some n ∧ find d s = some m ∧ ¬ m < n ↔
      ∃ x y z, s = x ++ c :: (y ++ d :: z) ∧ c ∉ x ∧ d ∉ x ∧ d ∉ y ∧ x.length = n ∧
        n + 1 + y.length = m := by
  constructor
  · rintro ⟨hc, hd, hle⟩
    obtain ⟨x, t, rfl, hx, rfl⟩ := find_eq_some_iff.mp hc
    obtain ⟨u, z, hu, hd', rfl⟩ := find_eq_some_iff.mp hd
    rcases List.append_eq_append_iff.mp hu with ⟨v, rfl, hv⟩ | ⟨v, rfl, hv⟩
    · cases v with
      | nil =>
        rw [List.nil_append, List.cons.injEq] at hv
        exact absurd hv.1 hcd
      | cons a y =>
        rw [List.cons_append, List.cons.injEq] at hv
        obtain ⟨rfl, rfl⟩ := hv
        rw [List.mem_append, List.mem_cons, not_or, not_or] at hd'
        refine ⟨x, y, z, rfl, hx, hd'.1, hd'.2.2, rfl, ?_⟩
        rw [List.length_append, List.length_cons]
        omega
    · have hnil : v = [] := by
        rw [List.length_append] at hle
        exact List.length_eq_zero_iff.mp (by omega)
      subst hnil
      rw [List.nil_append, List.cons.injEq] at hv
      exact absurd hv.1.symm hcd
  · rintro ⟨x, y, z, rfl, hx, hdx, hdy, rfl, rfl⟩
    have hmem : d ∉ x ++ c :: y := by simp [hdx, hdy, hcd.symm]
    have hd := find_append_cons (t := z) hmem
    rw [List.append_assoc, List.cons_append, List.length_append, List.length_cons] at hd
    refine ⟨find_append_cons hx, hd.trans (congrArg some ?_), ?_⟩ <;> omega

/-- A text is split at the first such character in one way. -/
lemma split_unique {c : Char} {x y x' y' : List Char} (hx : c ∉ x) (hx' : c ∉ x')
    (h : x ++ c :: y = x' ++ c :: y') : x = x' ∧ y = y' := by
  have hlen : some x.length = some x'.length := by
    rw [← find_append_cons (t := y) hx, ← find_append_cons (t := y') hx', h]
  obtain ⟨rfl, hy⟩ := List.append_inj h (Option.some.inj hlen)
  exact ⟨rfl, (List.cons.inj hy).2⟩

lemma takeWhile_append_cons {c : Char} {s : List Char} (h : c ∉ s) (t : List Char) :
    (s ++ c :: t).takeWhile (· ≠ c) = s := by
  have hne : ∀ d ∈ s, decide (d ≠ c) = true := by
    intro d hd
    refine decide_eq_true ?_
    rintro rfl
    exact h hd
  rw [List.takeWhile_append_of_pos hne, List.takeWhile_cons_of_neg (by simp), List.append_nil]

/-- The text after the first such character. -/
def after (c : Char) (s : List Char) : List Char := (s.dropWhile (· ≠ c)).tail

lemma after_append_cons {c : Char} {s : List Char} (h : c ∉ s) (t : List Char) :
    after c (s ++ c :: t) = t := by
  have hne : ∀ d ∈ s, decide (d ≠ c) = true := by
    intro d hd
    refine decide_eq_true ?_
    rintro rfl
    exact h hd
  rw [after, List.dropWhile_append_of_pos hne, List.dropWhile_cons_of_neg (by simp), List.tail_cons]

/-- What stands between the two characters. -/
lemma take_between (x y z : List Char) (c d : Char) :
    ((x ++ c :: (y ++ d :: z)).drop (x.length + 1)).take
      (x.length + 1 + y.length - x.length - 1) = y := by
  have hlen : x.length + 1 + y.length - x.length - 1 = y.length := by omega
  rw [hlen, ← List.drop_drop, List.drop_left, List.drop_one, List.tail_cons, List.take_left]

/-- What stands after the second one. -/
lemma getElem?_after (x y z : List Char) (c d : Char) (k : ℕ) :
    (x ++ c :: (y ++ d :: z))[x.length + 1 + y.length + (k + 1)]? = z[k]? := by
  have hassoc : x ++ c :: (y ++ d :: z) = (x ++ c :: (y ++ [d])) ++ z := by simp
  rw [hassoc, List.getElem?_append_right (by simp; omega)]
  congr 1
  simp
  omega

/-! ### Words with a space behind each -/

/-- Every word and a space, then the text. -/
def spaced (ws : List (List Char)) (t : List Char) : List Char :=
  ws.foldr (fun w r => w ++ ' ' :: r) t

@[simp] lemma spaced_nil (t : List Char) : spaced [] t = t := rfl

@[simp] lemma spaced_cons (w : List Char) (ws : List (List Char)) (t : List Char) :
    spaced (w :: ws) t = w ++ ' ' :: spaced ws t := rfl

lemma spaced_append (ws ws' : List (List Char)) (t : List Char) :
    spaced (ws ++ ws') t = spaced ws (spaced ws' t) :=
  List.foldr_append

lemma spaced_append_right (ws : List (List Char)) (s t : List Char) :
    spaced ws (s ++ t) = spaced ws s ++ t := by
  induction ws with
  | nil => rfl
  | cons w ws ih => rw [spaced_cons, spaced_cons, ih, List.append_assoc, List.cons_append]

lemma length_spaced (ws : List (List Char)) (t : List Char) :
    (spaced ws t).length = (ws.map fun w => w.length + 1).sum + t.length := by
  induction ws with
  | nil => simp
  | cons w ws ih =>
    rw [spaced_cons, List.length_append, List.length_cons, ih, List.map_cons, List.sum_cons]
    omega

lemma words_spaced {ws : List (List Char)} (hws : ∀ w ∈ ws, IsWord w) (t : List Char) :
    words (spaced ws t) = ws ++ words t := by
  induction ws with
  | nil => rfl
  | cons w ws ih =>
    rw [List.forall_mem_cons] at hws
    have hspace : words (' ' :: spaced ws t) = words (spaced ws t) :=
      words_append_of_space (b := [' ']) (by simp [isSpace]) _
    rw [spaced_cons, words_append hws.1 (by simp [isSpace]), hspace, ih hws.2, List.cons_append]

/-- The words can be read back. -/
lemma spaced_inj {ws ws' : List (List Char)} (hws : ∀ w ∈ ws, IsWord w)
    (hws' : ∀ w ∈ ws', IsWord w) : spaced ws [] = spaced ws' [] ↔ ws = ws' := by
  refine ⟨fun h => ?_, fun h => by rw [h]⟩
  have hwords := congrArg words h
  rwa [words_spaced hws, words_spaced hws', words, List.append_nil, List.append_nil] at hwords

end Text

import BusTestPlatform.Lib.Words

/-!
# Strings within bounds

The members of `std::string` that must not be given a position outside of the string, and sums and
differences of positions that must not wrap around. A computation with them is `inside` when it
comes to its result or its error.
-/

namespace Text

/-- What `size_t` can count. -/
def sizeBound : ℕ := 2 ^ 64

/-- `a + b`, unless it wraps around. -/
def sizeAdd (a b : ℕ) : Option ℕ := if a + b < sizeBound then some (a + b) else none

/-- `a - b`, unless it wraps around. -/
def sizeSub (a b : ℕ) : Option ℕ := if b ≤ a then some (a - b) else none

/-- `s.substr(pos, n)`, unless it throws. -/
def substr (s : List Char) (pos n : ℕ) : Option (List Char) :=
  if pos ≤ s.length then some ((s.drop pos).take n) else none

/-- `s.substr(pos)`, unless it throws. -/
def substrFrom (s : List Char) (pos : ℕ) : Option (List Char) :=
  if pos ≤ s.length then some (s.drop pos) else none

/-- `s[i]`, which is the null character at the end. -/
def charAt (s : List Char) (i : ℕ) : Option Char :=
  if i = s.length then some '\x00' else s[i]?

/-- `s.pop_back()`. -/
def popBack (s : List Char) : Option (List Char) := if s = [] then none else some s.dropLast

/-- `!s.empty() && s.back() == c`. -/
def endsIn (c : Char) (s : List Char) : Option Bool :=
  if s = [] then some false else do return (← s.getLast?) == c

/-- `!s.empty() && s.front() == c`. -/
def startsIn (c : Char) (s : List Char) : Option Bool :=
  if s = [] then some false else do return (← s.head?) == c

/-- `s.find(c, pos)`. -/
def findFrom (c : Char) (pos : ℕ) (s : List Char) : Option ℕ := (find c (s.drop pos)).map (pos + ·)

/-- `s.find_first_not_of(p)`. -/
def findFirstNot (p : Char → Bool) (s : List Char) : Option ℕ := s.findIdx? (!p ·)

/-- `s.find_last_not_of(p)`. -/
def findLastNot (p : Char → Bool) (s : List Char) : Option ℕ :=
  (findFirstNot p s.reverse).map (s.length - 1 - ·)

variable {s : List Char} {c : Char} {p : Char → Bool} {i n : ℕ}

@[simp]
lemma sizeAdd_of_lt {a b : ℕ} (h : a + b < sizeBound) : sizeAdd a b = some (a + b) := if_pos h

@[simp]
lemma sizeSub_of_le {a b : ℕ} (h : b ≤ a) : sizeSub a b = some (a - b) := if_pos h

@[simp]
lemma substr_of_le (h : i ≤ s.length) (n : ℕ) : substr s i n = some ((s.drop i).take n) := if_pos h

@[simp]
lemma substrFrom_of_le (h : i ≤ s.length) : substrFrom s i = some (s.drop i) := if_pos h

@[simp]
lemma popBack_of_ne_nil (h : s ≠ []) : popBack s = some s.dropLast := if_neg h

lemma charAt_of_lt (h : i < s.length) : charAt s i = s[i]? := if_neg h.ne

@[simp]
lemma endsIn_eq (c : Char) (s : List Char) : endsIn c s = some (s.getLast? == some c) := by
  cases h : s.getLast? with
  | none => simp [endsIn, List.getLast?_eq_none_iff.mp h]
  | some d =>
    have hne : s ≠ [] := by
      rintro rfl
      cases h
    simp [endsIn, hne, h]

@[simp]
lemma startsIn_eq (c : Char) (s : List Char) : startsIn c s = some (s.head? == some c) := by
  cases s with
  | nil => rfl
  | cons d s => simp [startsIn]

/-! ### Positions -/

lemma lt_of_find (h : find c s = some i) : i < s.length := by
  obtain ⟨a, b, rfl, -, rfl⟩ := find_eq_some_iff.mp h
  simp

/-- Two characters do not stand at one position. -/
lemma find_ne_find {d : Char} {j : ℕ} (hi : find c s = some i) (hj : find d s = some j)
    (hne : c ≠ d) : i ≠ j := by
  rintro rfl
  obtain ⟨a, b, rfl, -, rfl⟩ := find_eq_some_iff.mp hi
  obtain ⟨a', b', heq, -, hlen⟩ := find_eq_some_iff.mp hj
  exact hne (List.cons.inj (List.append_inj_right heq hlen.symm)).1

/-- Only the first character of a text stands at its start. -/
lemma pos_of_find {d : Char} (hhead : s.head? = some d) (h : find c s = some i) (hne : d ≠ c) :
    1 ≤ i := by
  obtain ⟨t, rfl⟩ := List.head?_eq_some_iff.mp hhead
  have hstart : find d (d :: t) = some 0 := find_append_cons (s := []) List.not_mem_nil
  exact Nat.pos_of_ne_zero (find_ne_find hstart h hne).symm

lemma findFirstNot_append_cons {a : List Char} (ha : ∀ d ∈ a, p d = true) (hc : p c = false)
    (b : List Char) : findFirstNot p (a ++ c :: b) = some a.length := by
  have hnone : a.findIdx? (!p ·) = none := by simpa using ha
  simp [findFirstNot, List.findIdx?_append, hnone, List.findIdx?_cons, hc]

lemma findFirstNot_eq_none (h : ∀ d ∈ s, p d = true) : findFirstNot p s = none := by
  simpa [findFirstNot] using h

lemma findLastNot_append_cons {b : List Char} (hb : ∀ d ∈ b, p d = true) (hc : p c = false)
    (a : List Char) : findLastNot p (a ++ c :: b) = some a.length := by
  have hrev : (a ++ c :: b).reverse = b.reverse ++ c :: a.reverse := by simp
  rw [findLastNot, hrev, findFirstNot_append_cons (by simpa using hb) hc]
  simp

/-- Between the first and the last character that is none of `p`, a text is what is left of it when
both ends are stripped. -/
lemma exists_stripped (h : s.dropWhile p ≠ []) : ∃ a u b, s = a ++ (u ++ b) ∧
    (s.dropWhile p).rdropWhile p = u ∧ u ≠ [] ∧ findFirstNot p s = some a.length ∧
      findLastNot p s = some (a.length + (u.length - 1)) := by
  have hfront : ∀ d ∈ s.takeWhile p, p d = true := fun d => List.mem_takeWhile_imp
  have hback : ∀ d ∈ (s.dropWhile p).rtakeWhile p, p d = true := fun d => List.mem_rtakeWhile_imp
  have hends := List.rdropWhile_append_rtakeWhile (p := p) (l := s.dropWhile p)
  have hsplit := List.takeWhile_append_dropWhile (p := p) (l := s)
  have hhead := List.head_dropWhile_not p h
  have hne : (s.dropWhile p).rdropWhile p ≠ [] := by
    intro hnil
    have hall := List.rdropWhile_eq_nil_iff.mp hnil _ (List.head_mem h)
    simp [hhead] at hall
  have hlast := List.rdropWhile_last_not p (s.dropWhile p) hne
  refine ⟨s.takeWhile p, _, (s.dropWhile p).rtakeWhile p, ?_, rfl, hne, ?_, ?_⟩
  · rw [hends, hsplit]
  · obtain ⟨c, t, ht⟩ := List.exists_cons_of_ne_nil h
    simp only [ht, List.head_cons] at hhead
    conv_lhs => rw [← hsplit, ht]
    rw [findFirstNot_append_cons hfront hhead]
  · obtain ⟨u, d, hu⟩ := (List.eq_nil_or_concat' _).resolve_left hne
    simp only [hu, List.getLast_append_singleton, Bool.not_eq_true] at hlast
    conv_lhs => rw [← hsplit, ← hends, hu, List.append_assoc, ← List.append_assoc]
    rw [List.singleton_append, findLastNot_append_cons hback hlast, hu]
    simp

/-! ### Lengths -/

lemma length_le_of_mem_getlines {l : List Char} (h : l ∈ getlines s) : l.length ≤ s.length := by
  induction s generalizing l with
  | nil => cases h
  | cons c cs ih =>
    rw [getlines] at h
    split_ifs at h with hc
    · rcases List.mem_cons.mp h with rfl | h
      · simp
      · exact (ih h).trans (Nat.le_succ _)
    · cases hls : getlines cs with
      | nil =>
        simp only [hls, consFirst, List.mem_singleton] at h
        simp [h]
      | cons k ks =>
        simp only [hls, consFirst, List.mem_cons] at h
        rcases h with rfl | h
        · exact Nat.succ_le_succ (ih (by simp [hls]))
        · exact (ih (by simp [hls, h])).trans (Nat.le_succ _)

lemma length_of_readWord {w r : List Char} (h : readWord s = some (w, r)) :
    w.length ≤ s.length ∧ r.length ≤ s.length := by
  obtain ⟨b, rfl, -⟩ := readWord_eq_some_iff.mp h
  simp only [List.length_append]
  omega

lemma length_of_getD_readWord (s : List Char) : ((readWord s).getD ([], [])).1.length ≤ s.length ∧
    ((readWord s).getD ([], [])).2.length ≤ s.length := by
  cases h : readWord s with
  | none => simp
  | some x => exact length_of_readWord h

/-! ### Computations that stay inside -/

/-- A result or an error, unless something outside of a string is asked for. -/
abbrev Guarded (ε α : Type) := ExceptT ε Option α

namespace Guarded

variable {ε α β : Type}

/-- A computation that stays inside. -/
def inside (x : Except ε α) : Guarded ε α := ExceptT.mk (some x)

lemma run_inside (x : Except ε α) : (inside x).run = some x := rfl

@[simp]
lemma inside_ok (a : α) : inside (ε := ε) (.ok a) = pure a := rfl

@[simp]
lemma inside_error (e : ε) : inside (α := α) (.error e) = throw e := rfl

/-- One computation after another. -/
lemma inside_bind {x : Except ε α} {f : α → Except ε β} {g : α → Guarded ε β}
    (h : ∀ a, x = .ok a → g a = inside (f a)) : inside x >>= g = inside (x >>= f) := by
  cases x with
  | error e => rfl
  | ok a => exact h a rfl

@[simp]
lemma lift_some (a : α) : (liftM (some a) : Guarded ε α) = pure a := rfl

end Guarded

end Text

import BusTestPlatform.Software.DbcParser

/-!
# A failed load

`parse` clears the database, fills it line by line and returns at the first bad line. What it leaves
is empty only when nothing came before that line.
-/

namespace BusTestPlatform

open Text

namespace DbcParser

variable {D : Type}

/-- `clear`. -/
def clear (_ : List (DbcMessage D)) : List (DbcMessage D) := []

/-- `find_message` by id. -/
def findMessage (ms : List (DbcMessage D)) (id : UInt32) : Option (DbcMessage D) :=
  ms.find? fun m => m.id == id

/-- `find_message` by name. -/
def findMessageByName (ms : List (DbcMessage D)) (name : List Char) : Option (DbcMessage D) :=
  ms.find? fun m => m.name == name

variable [Zero D] [One D] (stod : List Char → Option (D × ℕ))

/-- `parse`, as a member function: with the database that the parser has. -/
def load (messages : List (DbcMessage D)) (text : List Char) : Parsed D :=
  parseLines stod (clear messages) (getlines text)

/-- The first line that is not passed over is bad in itself: an `SG_` line, or a `BO_` line that
`parse_bo` rejects. -/
def BadStart (D : Type) (text : List Char) : Prop :=
  ∃ l ∈ (getlines text).find? isStatement, "SG_ ".toList.isPrefixOf (trim l) = true ∨
    ∀ m : DbcMessage D, parseBo (trim l) ≠ .ok m

/-- Nothing is left to decode frames with. -/
def Unloaded (ms : List (DbcMessage D)) : Prop :=
  ms.length = 0 ∧ (∀ id, findMessage ms id = none) ∧ ∀ name, findMessageByName ms name = none

variable {stod}

/-- What the parser held before does not matter. -/
lemma load_eq_parse (messages : List (DbcMessage D)) (text : List Char) :
    load stod messages text = parse stod text := rfl

omit [Zero D] [One D] in
lemma unloaded_iff {ms : List (DbcMessage D)} : Unloaded ms ↔ ms = [] := by
  constructor
  · exact fun h => List.length_eq_zero_iff.mp h.1
  · rintro rfl
    exact ⟨rfl, fun _ => rfl, fun _ => rfl⟩

/-- A line takes no message away. -/
lemma parseLine_ne_nil {ms ms' : List (DbcMessage D)} {line : List Char}
    (h : parseLine stod ms line = .ok ms') (hms : ms ≠ []) : ms' ≠ [] := by
  rcases parseLine_cases h with rfl | ⟨m, -, rfl⟩ | ⟨m, s, -, -, rfl⟩
  · exact hms
  · simp
  · simp

lemma parseLines_ne_nil {ms : List (DbcMessage D)} (hms : ms ≠ []) (ls : List (List Char)) :
    (parseLines stod ms ls).messages ≠ [] := by
  induction ls generalizing ms with
  | nil => exact hms
  | cons l ls ih =>
    rw [parseLines]
    split
    · exact hms
    · next h => exact ih (parseLine_ne_nil h hms)

/-- The first statement is accepted when it is a `BO_` line that `parse_bo` accepts. -/
lemma parseLine_nil (stod : List Char → Option (D × ℕ)) {l : List Char}
    (hl : isStatement l = true) :
    (∃ ms, parseLine stod [] l = .ok ms ∧ ms ≠ []) ∧
        ¬ "SG_ ".toList.isPrefixOf (trim l) = true ∧
        (∃ m : DbcMessage D, parseBo (trim l) = .ok m) ∨
      (∃ e, parseLine stod [] l = .error e) ∧
        ("SG_ ".toList.isPrefixOf (trim l) = true ∨
          ∀ m : DbcMessage D, parseBo (trim l) ≠ .ok m) := by
  rw [isStatement, Bool.or_eq_true] at hl
  by_cases hsg : "SG_ ".toList.isPrefixOf (trim l) = true
  · refine Or.inr ⟨?_, Or.inl hsg⟩
    cases hparse : parseLine stod [] l with
    | error e => exact ⟨e, rfl⟩
    | ok ms =>
      obtain ⟨m, s, hlast, -⟩ := parseLine_sg hsg hparse
      cases hlast
  · have hbo := hl.resolve_right hsg
    obtain ⟨t, ht⟩ := List.isPrefixOf_iff_prefix.mp hbo
    have hskip : ¬ (trim l = [] ∨ "//".toList.isPrefixOf (trim l)) := by
      rw [← ht]
      simp
    simp only [parseLine, hskip, hbo, if_true, if_false]
    cases hparse : parseBo (D := D) (trim l) with
    | error e => exact Or.inr ⟨⟨e, rfl⟩, Or.inr (by simp)⟩
    | ok m => exact Or.inl ⟨⟨[m], rfl, by simp⟩, hsg, m, rfl⟩

/-- A failed load leaves nothing behind when the first statement of the text is the bad one, and
only then. -/
theorem unloaded_iff_badStart {messages : List (DbcMessage D)} {text : List Char}
    (h : (load stod messages text).error ≠ none) :
    Unloaded (load stod messages text).messages ↔ BadStart D text := by
  rw [unloaded_iff, BadStart, ← List.head?_filter]
  rw [load_eq_parse, parse, ← parseLines_filter] at h ⊢
  cases hls : (getlines text).filter isStatement with
  | nil =>
    rw [hls] at h
    exact absurd rfl h
  | cons l ls =>
    have hl : isStatement l = true := by
      have hmem : l ∈ (getlines text).filter isStatement := hls ▸ List.mem_cons_self
      exact (List.mem_filter.mp hmem).2
    simp only [List.head?_cons, Option.mem_def, Option.some.injEq, exists_eq_left', parseLines]
    rcases parseLine_nil stod hl with
      ⟨⟨ms, hms, hne⟩, hsg, m, hm⟩ | ⟨⟨e, he⟩, hbad⟩
    · simp only [hms, parseLines_ne_nil hne ls, false_iff, not_or, not_forall]
      exact ⟨hsg, m, not_not.mpr hm⟩
    · simp only [he, true_iff]
      exact hbad

/-- A text without numerals that are read as floating-point numbers. -/
def noStod (_ : List Char) : Option (ℤ × ℕ) := none

/-- The database loaded before goes, and the bad first line leaves nothing in its place. -/
theorem unloaded_bad_id :
    Unloaded (load noStod [⟨1, ['A'], 8, [], []⟩] "BO_ x Engine: 8\n".toList).messages :=
  (unloaded_iff_badStart (by decide)).mpr
    ⟨"BO_ x Engine: 8".toList, by decide, Or.inr fun m hm => by cases hm⟩

/-- The second message is bad, and the first stays. -/
theorem first_message_stays :
    ¬ ∀ (messages : List (DbcMessage ℤ)) (text : List Char),
      (load noStod messages text).error ≠ none →
        Unloaded (load noStod messages text).messages := by
  intro h
  have hun := h [] "BO_ 1 Engine: 8\nBO_ x Gear: 8\n".toList (by decide)
  exact absurd hun.1 (by decide)

end DbcParser

end BusTestPlatform

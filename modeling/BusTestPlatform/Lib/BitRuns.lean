import Mathlib

/-!
# Runs of high samples

An infinite sequence of bits, cut into its maximal stretches of ones. The last of them may have no
end.
-/

namespace BitRuns

/-- The samples are high from `a` on for exactly `l` clocks, and were not before. -/
structure MaximalRun (x : ℕ → Bool) (a : ℕ) (l : ℕ∞) : Prop where
  pos : 0 < l
  high : ∀ i : ℕ, (i : ℕ∞) < l → x (a + i) = true
  before : ∀ b, b + 1 = a → x b = false
  after : ∀ m : ℕ, l = m → x (a + m) = false

/-- `n` samples in a row are high from `a` on, and the one before is not. -/
structure StartsWith (x : ℕ → Bool) (a n : ℕ) : Prop where
  high : ∀ i < n, x (a + i) = true
  before : ∀ b, b + 1 = a → x b = false

variable {x : ℕ → Bool} {a n : ℕ} {l : ℕ∞}

/-- A run is as long as its samples are high. -/
lemma MaximalRun.le_length_iff (h : MaximalRun x a l) :
    (n : ℕ∞) ≤ l ↔ ∀ i < n, x (a + i) = true := by
  constructor
  · intro hn i hi
    exact h.high i (lt_of_lt_of_le (Nat.cast_lt.mpr hi) hn)
  · intro hhigh
    by_contra hlt
    rw [not_le] at hlt
    obtain ⟨m, rfl⟩ := ENat.ne_top_iff_exists.mp (ne_top_of_lt hlt)
    have hlow := h.after m rfl
    rw [hhigh m (Nat.cast_lt.mp hlt)] at hlow
    cases hlow

/-- A run is known from where it begins. -/
lemma MaximalRun.length_unique {l' : ℕ∞} (h : MaximalRun x a l) (h' : MaximalRun x a l') :
    l = l' :=
  ENat.eq_of_forall_natCast_le_iff fun _ => h.le_length_iff.trans h'.le_length_iff.symm

/-- The beginning of a run goes on to a maximal one. -/
lemma StartsWith.exists_maximalRun (h : StartsWith x a n) (hn : 0 < n) :
    ∃ l : ℕ∞, MaximalRun x a l ∧ (n : ℕ∞) ≤ l := by
  by_cases hend : ∃ m, x (a + m) = false
  · classical
    have hlow := Nat.find_spec hend
    have hle : n ≤ Nat.find hend := by
      by_contra hlt
      rw [h.high _ (not_le.mp hlt)] at hlow
      cases hlow
    refine ⟨(Nat.find hend : ℕ), ⟨?_, fun i hi => ?_, h.before, fun m hm => ?_⟩,
      Nat.cast_le.mpr hle⟩
    · exact Nat.cast_pos.mpr (by omega)
    · simpa using Nat.find_min hend (Nat.cast_lt.mp hi)
    · rwa [← Nat.cast_inj.mp hm]
  · refine ⟨⊤, ⟨ENat.top_pos, fun i _ => ?_, h.before, fun m hm => ?_⟩, le_top⟩
    · by_contra hlow
      exact hend ⟨i, by simpa using hlow⟩
    · exact absurd hm (ENat.top_ne_natCast m)

lemma MaximalRun.startsWith (h : MaximalRun x a l) (hn : (n : ℕ∞) ≤ l) : StartsWith x a n :=
  ⟨h.le_length_iff.mp hn, h.before⟩

end BitRuns

import BusTestPlatform.Lib.BitField

/-!
# Fields side by side

Fields of one payload are independent, in that every combination of their values occurs, exactly
when no two of their bits come from one place.
-/

namespace BitField

/-- The payload with the given bits. -/
def ofBits (b : ℕ → Bool) (i : ℕ) : UInt8 :=
  UInt8.ofNat (Nat.ofBits fun k : Fin 8 => b (8 * i + k))

@[simp]
lemma bit_ofBits (b : ℕ → Bool) (p : ℕ) : bit (ofBits b) p = b p := by
  have hlt := Nat.ofBits_lt_two_pow fun k : Fin 8 => b (8 * (p / 8) + k)
  have hmod := Nat.mod_lt p (show 0 < 8 by decide)
  rw [bit, ofBits, UInt8.toNat_ofNat_of_lt' hlt, Nat.testBit_ofBits_lt _ _ hmod]
  exact congrArg b (Nat.div_add_mod p 8)

variable {ι : Type*} {n : ι → ℕ} {pos : ι → ℕ → ℕ}

/-- Every combination of values occurs. -/
def Independent (n : ι → ℕ) (pos : ι → ℕ → ℕ) : Prop :=
  ∀ u : ι → ℕ, (∀ i, u i < 2 ^ n i) → ∃ data, ∀ i, field data (n i) (pos i) = u i

/-- Every bit of every field has a place of its own. -/
def Separate (n : ι → ℕ) (pos : ι → ℕ → ℕ) : Prop :=
  ∀ i j a b, a < n i → b < n j → pos i a = pos j b → i = j ∧ a = b

open Classical in
/-- Each value put to the places of its field. -/
noncomputable def packed (n : ι → ℕ) (pos : ι → ℕ → ℕ) (u : ι → ℕ) : ℕ → UInt8 :=
  ofBits fun p => ∃ i k, k < n i ∧ pos i k = p ∧ (u i).testBit k = true

lemma Separate.field_packed (h : Separate n pos) {u : ι → ℕ} {i : ι} (hu : u i < 2 ^ n i) :
    field (packed n pos u) (n i) (pos i) = u i := by
  refine Nat.eq_of_testBit_eq fun k => ?_
  rw [testBit_field, packed, bit_ofBits]
  by_cases hk : k < n i
  · have hown : (∃ j a, a < n j ∧ pos j a = pos i k ∧ (u j).testBit a = true) ↔
        (u i).testBit k = true := by
      constructor
      · rintro ⟨j, a, ha, hpos, hbit⟩
        obtain ⟨rfl, rfl⟩ := h j i a k ha hk hpos
        exact hbit
      · intro hbit
        exact ⟨i, k, hk, rfl, hbit⟩
    simp [hk, hown]
  · have hhigh : 2 ^ n i ≤ 2 ^ k := Nat.pow_le_pow_right (by decide) (Nat.le_of_not_lt hk)
    simp [hk, Nat.testBit_lt_two_pow (hu.trans_le hhigh)]

/-- Bits that come from one place are equal in all payloads. -/
lemma Independent.separate (h : Independent n pos) : Separate n pos := by
  classical
  intro i j a b ha hb hpos
  -- The payload in which bit `a` of field `i` is the only one of all fields.
  obtain ⟨data, hdata⟩ := h (fun l => if l = i then 2 ^ a else 0) fun l => by
    split_ifs with hl
    · exact hl ▸ Nat.pow_lt_pow_right (by decide) ha
    · exact Nat.two_pow_pos _
  have hone : bit data (pos i a) = true := by
    have hbit := congrArg (Nat.testBit · a) (hdata i)
    simpa [testBit_field, ha] using hbit
  have hbit := congrArg (Nat.testBit · b) (hdata j)
  simp only [testBit_field, hb, decide_true, Bool.true_and, ← hpos, hone] at hbit
  split_ifs at hbit with hj
  · rw [Nat.testBit_two_pow, eq_comm, decide_eq_true_iff] at hbit
    exact ⟨hj.symm, hbit⟩
  · simp at hbit

theorem independent_iff : Independent n pos ↔ Separate n pos :=
  ⟨Independent.separate, fun h u hu => ⟨packed n pos u, fun i => h.field_packed (hu i)⟩⟩

end BitField

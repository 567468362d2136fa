import BusTestPlatform.Hardware.ErrorInjector

/-!
# Where errors are injected

A frame is a stretch of clocks with `frame_active` high, and its bits are told apart by the strobes.
`bit_cnt` counts them while the injector is on. While it is off the count stands still: strobes are
missed, and what was counted in a frame is kept for the next one.
-/

namespace BusTestPlatform

open Clocked

namespace ErrorInjector

/-- The registers before clock edge `n`. -/
def run (inp : ℕ → In) : ℕ → ErrorInjector := runFrom step reset inp

/-- The strobes seen before edge `n` since the frame began, 0 between frames. -/
def strobes (inp : ℕ → In) : ℕ → ℕ
  | 0 => 0
  | n + 1 =>
    if (inp n).frameActive then if (inp n).bitTick then strobes inp n + 1 else strobes inp n else 0

/-- The edge raises `inject` or arms a glitch, other than for a glitch that is under way. -/
def Starts (s : ErrorInjector) (i : In) : Prop :=
  (step { s with armed := false } i).inject = true ∨
    (step { s with armed := false } i).armed = true

/-- If edge `n` starts an injection, it is a strobe inside a frame, with a type configured, and as
many strobes have gone before it in the frame as the position register says. -/
def InjectsAtPosition (inp : ℕ → In) (n : ℕ) : Prop :=
  Starts (run inp n) (inp n) →
    (inp n).frameActive = true ∧ (inp n).bitTick = true ∧ (run inp n).type ≠ 0 ∧
      strobes inp n = (run inp n).bitPos.toNat

/-- No strobe of the frame has passed while the injector was off, and at the last clock before the
frame it was on, unless there was nothing to clear. -/
def CountKept (inp : ℕ → In) : ℕ → Prop
  | 0 => True
  | n + 1 =>
    if (inp n).frameActive then
      CountKept inp n ∧ ((inp n).bitTick = true → (run inp n).type ≠ 0)
    else (run inp n).type ≠ 0 ∨ (run inp n).bitCnt = 0

variable {inp : ℕ → In} {n : ℕ}

lemma run_succ (n : ℕ) : run inp (n + 1) = (run inp n).step (inp n) := rfl

lemma starts_iff {s : ErrorInjector} {i : In} :
    Starts s i ↔ s.type ≠ 0 ∧ i.frameActive = true ∧ i.bitTick = true ∧ s.bitCnt = s.bitPos := by
  by_cases htype : s.type = 0#3
  · simp [Starts, step, htype]
  · by_cases hactive : i.frameActive = true
    · by_cases hglitch : s.type = 5#3
      · simp [Starts, step, atPos, hactive, hglitch]
      · simp [Starts, step, atPos, htype, hactive, hglitch]
    · simp [Starts, step, hactive]

/-! ### The bit counter -/

section Step

variable {s : ErrorInjector} {i : In}

lemma step_bitCnt_of_off (htype : s.type = 0) : (s.step i).bitCnt = s.bitCnt := if_pos htype

lemma step_bitCnt_of_idle (htype : s.type ≠ 0) (hidle : i.frameActive = false) :
    (s.step i).bitCnt = 0 :=
  (if_neg htype).trans (if_neg (by rw [hidle]; exact Bool.false_ne_true))

lemma step_bitCnt_of_active (htype : s.type ≠ 0) (hactive : i.frameActive = true) :
    (s.step i).bitCnt = if i.bitTick then s.bitCnt + 1 else s.bitCnt :=
  (if_neg htype).trans (if_pos hactive)

end Step

lemma strobes_succ_of_idle (h : (inp n).frameActive = false) : strobes inp (n + 1) = 0 := by
  simp [strobes, h]

lemma strobes_succ_of_active (h : (inp n).frameActive = true) :
    strobes inp (n + 1) = strobes inp n + if (inp n).bitTick then 1 else 0 := by
  cases htick : (inp n).bitTick <;> simp [strobes, h, htick]

/-- One clock of the counter inside a frame. -/
lemma toNat_bitCnt_succ {k : ℕ} (htype : (run inp n).type ≠ 0)
    (hactive : (inp n).frameActive = true)
    (h : (run inp n).bitCnt.toNat = (k + strobes inp n) % 2 ^ 16) :
    (run inp (n + 1)).bitCnt.toNat = (k + strobes inp (n + 1)) % 2 ^ 16 := by
  rw [run_succ, step_bitCnt_of_active htype hactive, strobes_succ_of_active hactive]
  cases htick : (inp n).bitTick
  · exact h
  · rw [if_pos rfl, if_pos rfl, BitVec.toNat_add, h]
    exact Nat.mod_add_mod _ _ 1

/-- A counter that was kept holds the number of strobes, modulo its size. -/
lemma toNat_bitCnt_of_countKept (h : CountKept inp n) :
    (run inp n).bitCnt.toNat = strobes inp n % 2 ^ 16 := by
  induction n with
  | zero => rfl
  | succ n ih =>
    rw [CountKept] at h
    cases hactive : (inp n).frameActive with
    | true =>
      rw [hactive, if_pos rfl] at h
      obtain ⟨hkept, htick⟩ := h
      by_cases htype : (run inp n).type = 0
      · -- off, and no strobe to miss
        have hquiet : (inp n).bitTick = false := by
          by_contra hne
          exact htick (by simpa using hne) htype
        rw [run_succ, step_bitCnt_of_off htype, strobes_succ_of_active hactive, hquiet]
        exact ih hkept
      · have hsucc := toNat_bitCnt_succ (k := 0) htype hactive
          (by rw [Nat.zero_add]; exact ih hkept)
        rwa [Nat.zero_add] at hsucc
    | false =>
      rw [hactive, if_neg Bool.false_ne_true] at h
      rw [strobes_succ_of_idle hactive]
      by_cases htype : (run inp n).type = 0
      · rw [run_succ, step_bitCnt_of_off htype, h.resolve_left (not_not.mpr htype)]
        rfl
      · rw [run_succ, step_bitCnt_of_idle htype hactive]
        rfl

/-! ### The position of an injection -/

/-- **Position.** Where the count was kept, injections start at the configured bit as long as the
frame has not more strobes than the counter can tell apart. -/
theorem injectsAtPosition_iff (h : CountKept inp n) :
    InjectsAtPosition inp n ↔ (Starts (run inp n) (inp n) → strobes inp n < 2 ^ 16) := by
  constructor
  · intro hpos hstart
    obtain ⟨-, -, -, hstrobes⟩ := hpos hstart
    rw [hstrobes]
    exact (run inp n).bitPos.isLt
  · intro hshort hstart
    obtain ⟨htype, hactive, htick, hcnt⟩ := starts_iff.mp hstart
    refine ⟨hactive, htick, htype, ?_⟩
    rw [← hcnt, toNat_bitCnt_of_countKept h, Nat.mod_eq_of_lt (hshort hstart)]

/-- An injector configured for a bit error at bit 2 from the first clock on, a frame from clock 1
on, and a strobe at every other clock of it. -/
def bitTwo (n : ℕ) : In := ⟨n == 0, 1, 2, 1, n != 0, n % 2 == 0⟩

/-- The third strobe starts an injection, at bit 2. -/
theorem injectsAtPosition_iff_bitTwo :
    Starts (run bitTwo 6) (bitTwo 6) ∧ strobes bitTwo 6 = 2 ∧ InjectsAtPosition bitTwo 6 := by
  have hkept : CountKept bitTwo 6 := by simp [CountKept, bitTwo, run, runFrom, step, reset]
  exact ⟨starts_iff.mpr (by decide), by decide,
    (injectsAtPosition_iff hkept).mpr fun _ => by decide⟩

/-- The injector is switched on for bit 0 in the middle of a frame, when bit 0 has passed. -/
def lateConfig (n : ℕ) : In := ⟨n == 2, 1, 0, 1, true, n == 1 || n == 3⟩

/-- It injects at bit 1. -/
theorem injects_at_wrong_bit : ¬ ∀ (inp : ℕ → In) (n : ℕ), InjectsAtPosition inp n := by
  intro h
  have hpos := h lateConfig 3 (starts_iff.mpr (by decide))
  exact absurd hpos (by decide)

end ErrorInjector

end BusTestPlatform

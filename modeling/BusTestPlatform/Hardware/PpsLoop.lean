import BusTestPlatform.Lib.Counter
import BusTestPlatform.Lib.Feedback
import BusTestPlatform.Lib.Periodic
import BusTestPlatform.Hardware.LatchRegister

/-!
# The PPS loop of `top.v`

`pps_sync` and `timestamp_engine` feed each other: the counter is sampled at a detected edge, and
the correction computed from that sample replaces the increment one clock later. With PPS edges
`P` clocks apart the loop is the corrected counter of `Feedback`, so two devices keep apart
whatever they were apart at their first edge.
-/

namespace BusTestPlatform

open Clocked

namespace Top

variable (mem : Fin 4 → BitVec 12 → Bool) (inp : ℕ → In)

/-- PPS edges are detected at clocks `t`, `t + P`, `t + 2P`, ... and at no others. -/
def PeriodicPps (t P : ℕ) : Prop :=
  ∀ n, (run mem inp n).pps.risingEdge = true ↔ ∃ k, n = t + k * P

/-- The counter at the `k`-th detected edge, counted from 0. -/
def tsAtEdge (t P k : ℕ) : BitVec 64 := (run mem inp (t + k * P)).ts.tsNow

/-! ### One clock of the loop -/

lemma pps_eq_run (n : ℕ) :
    (run mem inp n).pps =
      PpsSync.run 20 (fun k => ⟨(inp k).ppsIn, (run mem inp k).ts.tsNow⟩) n :=
  Clocked.runFrom_part (fun s : Top => s.pps) rfl fun _ _ => rfl

lemma adjValid_succ (n : ℕ) :
    (run mem inp (n + 1)).pps.adjValid = (run mem inp n).pps.risingEdge := by
  rw [run_succ]; rfl

lemma adjDelta_of_edge {n : ℕ} (h : (run mem inp n).pps.risingEdge = true) :
    (run mem inp (n + 1)).pps.adjDelta =
      PpsSync.correction (run mem inp n).ts.tsNow (run mem inp n).pps.lastTs := by
  rw [run_succ, step, PpsSync.step_adjDelta, if_pos h]

lemma lastTs_succ (n : ℕ) :
    (run mem inp (n + 1)).pps.lastTs =
      if (run mem inp n).pps.risingEdge then (run mem inp n).ts.tsNow
      else (run mem inp n).pps.lastTs := by
  rw [run_succ, step, PpsSync.step_lastTs]

lemma tsNow_succ (n : ℕ) :
    (run mem inp (n + 1)).ts.tsNow =
      if (run mem inp n).pps.adjValid then
        (run mem inp n).ts.tsNow + (run mem inp n).pps.adjDelta.signExtend 64
      else (run mem inp n).ts.tsNow + 1 := by
  rw [run_succ]; rfl

/-! ### From one edge to the next -/

section Periodic

variable {mem inp} {t P : ℕ} (h : PeriodicPps mem inp t P) (hP : 2 ≤ P)

include h

lemma PeriodicPps.edge (k : ℕ) : (run mem inp (t + k * P)).pps.risingEdge = true :=
  (h _).mpr ⟨k, rfl⟩

lemma PeriodicPps.no_edge_before {n : ℕ} (hn : n < t) :
    (run mem inp n).pps.risingEdge = false := by
  rw [Bool.eq_false_iff, ne_eq, h n]
  rintro ⟨k, hk⟩
  omega

lemma PeriodicPps.no_edge_between {k i : ℕ} (hi : 0 < i) (hiP : i < P) :
    (run mem inp (t + k * P + i)).pps.risingEdge = false := by
  rw [Bool.eq_false_iff, ne_eq, h]
  rintro ⟨j, hj⟩
  rcases Nat.lt_or_ge k j with hlt | hge
  · have : (k + 1) * P ≤ j * P := Nat.mul_le_mul_right P hlt
    rw [Nat.add_mul] at this
    omega
  · have : j * P ≤ k * P := Nat.mul_le_mul_right P hge
    omega

/-- Until the first edge the counter counts the clocks since reset, and there is no reference. -/
lemma PeriodicPps.at_first :
    tsAtEdge mem inp t P 0 = BitVec.ofInt 64 t ∧ (run mem inp t).pps.lastTs = 0 := by
  constructor
  · rw [tsAtEdge, Nat.zero_mul, Nat.add_zero, BitVec.ofInt_natCast]
    refine tsNow_of_no_adj mem inp fun k hk => ?_
    cases k with
    | zero => rfl
    | succ k => rw [adjValid_succ, h.no_edge_before (by omega)]
  · refine Clocked.runFrom_stable (fun s : Top => s.pps.lastTs) t.zero_le fun n _ hn => ?_
    exact (lastTs_succ mem inp n).trans (if_neg (by simp [h.no_edge_before hn]))

lemma PeriodicPps.lastTs_at_next (hP : 0 < P) (k : ℕ) :
    (run mem inp (t + (k + 1) * P)).pps.lastTs = tsAtEdge mem inp t P k := by
  have hnext : t + (k + 1) * P = t + k * P + P := by
    rw [Nat.add_mul, Nat.one_mul, Nat.add_assoc]
  have hset : (run mem inp (t + k * P + 1)).pps.lastTs = tsAtEdge mem inp t P k := by
    rw [lastTs_succ, h.edge k]
    rfl
  rw [← hset, hnext]
  refine Clocked.runFrom_stable (fun s : Top => s.pps.lastTs) (by omega) fun n hn hn' => ?_
  obtain ⟨i, rfl⟩ := Nat.exists_eq_add_of_le (Nat.le_of_succ_le hn)
  exact (lastTs_succ mem inp _).trans (if_neg (by simp [h.no_edge_between (k := k) (i := i)
    (by omega) (by omega)]))

include hP

/-- The clock after an edge increments; the one after that takes the correction instead. -/
lemma PeriodicPps.tsAtEdge_succ (k : ℕ) :
    tsAtEdge mem inp t P (k + 1) = tsAtEdge mem inp t P k + 1 +
      (run mem inp (t + k * P + 1)).pps.adjDelta.signExtend 64 + BitVec.ofNat 64 (P - 2) := by
  have hidle : (run mem inp (t + k * P)).pps.adjValid = false := by
    rcases Nat.eq_zero_or_pos (t + k * P) with h0 | hpos
    · rw [h0]; rfl
    · obtain ⟨n, hn⟩ := Nat.exists_eq_succ_of_ne_zero hpos.ne'
      rw [hn, Nat.succ_eq_add_one, adjValid_succ]
      cases k with
      | zero => exact h.no_edge_before (by omega)
      | succ k =>
        rw [show n = t + k * P + (P - 1) by rw [Nat.add_mul] at hn; omega]
        exact h.no_edge_between (by omega) (by omega)
  have hone : (run mem inp (t + k * P + 1)).ts.tsNow = tsAtEdge mem inp t P k + 1 := by
    rw [tsNow_succ, hidle]; rfl
  have htwo : (run mem inp (t + k * P + 2)).ts.tsNow = tsAtEdge mem inp t P k + 1 +
      (run mem inp (t + k * P + 1)).pps.adjDelta.signExtend 64 := by
    rw [tsNow_succ, adjValid_succ, h.edge k, if_pos rfl, hone]
  have hrest : ∀ i, i + 2 ≤ P → (run mem inp (t + k * P + 2 + i)).ts.tsNow =
      tsAtEdge mem inp t P k + 1 +
        (run mem inp (t + k * P + 1)).pps.adjDelta.signExtend 64 + BitVec.ofNat 64 i := by
    intro i hi
    induction i with
    | zero => rw [Nat.add_zero, htwo]; simp
    | succ i ih =>
      have hno : (run mem inp (t + k * P + 2 + i)).pps.adjValid = false := by
        rw [show t + k * P + 2 + i = t + k * P + (1 + i) + 1 by omega, adjValid_succ]
        exact h.no_edge_between (by omega) (by omega)
      rw [← Nat.add_assoc, tsNow_succ, hno, if_neg (by simp), ih (by omega), BitVec.ofNat_add,
        BitVec.add_assoc _ (BitVec.ofNat 64 i)]
      rfl
  rw [tsAtEdge, show t + (k + 1) * P = t + k * P + 2 + (P - 2) by rw [Nat.add_mul]; omega]
  exact hrest (P - 2) (by omega)

end Periodic

/-! ### The loop is the corrected counter

`ppsReading P t k` and `ppsCorrection P t k` are the corrected counter of `Feedback` at the widths
of the circuit, for a device whose first edge comes `t` clocks after reset. -/

/-- The counter at edge `k`, before it is cut to 64 bits. -/
def ppsReading (P t k : ℕ) : ℤ := Feedback.reading (2 ^ 32) nominalPeriod P t k

/-- The signed 32-bit correction computed at edge `k`. -/
def ppsCorrection (P t k : ℕ) : ℤ := Feedback.correction (2 ^ 32) nominalPeriod P t k

/-- What two PPS periods add to the counter. -/
def ppsTwoPeriods (P t : ℕ) : ℤ := 2 * ((P : ℤ) - 1) + ppsCorrection P t 0 + ppsCorrection P t 1

lemma ppsReading_even (P t j : ℕ) : ppsReading P t (2 * j) = t + j * ppsTwoPeriods P t :=
  Feedback.reading_two_mul _ _ _ _ j

lemma ppsReading_odd (P t j : ℕ) :
    ppsReading P t (2 * j + 1) = t + (P - 1 + ppsCorrection P t 0) + j * ppsTwoPeriods P t :=
  Feedback.reading_two_mul_add_one _ _ _ _ j

lemma ppsCorrection_range (P t k : ℕ) :
    -2 ^ 31 ≤ ppsCorrection P t k ∧ ppsCorrection P t k < 2 ^ 31 := by
  rw [ppsCorrection, ← Feedback.correction_bmod]
  have hlo := Int.le_bmod (x := Feedback.correction (2 ^ 32) nominalPeriod P t k)
    (m := 2 ^ 32) (by positivity)
  have hhi := Int.bmod_lt (x := Feedback.correction (2 ^ 32) nominalPeriod P t k)
    (m := 2 ^ 32) (by positivity)
  norm_num at hlo hhi ⊢
  exact ⟨hlo, hhi⟩

/-- The first correction is the error of the start count, up to a multiple of `2 ^ 32`. -/
lemma ppsCorrection_zero_dvd (P t : ℕ) :
    (2 ^ 32 : ℤ) ∣ (nominalPeriod : ℤ) - t - ppsCorrection P t 0 := by
  have := Int.dvd_self_sub_bmod (x := (nominalPeriod : ℤ) - t) (m := 2 ^ 32)
  push_cast at this
  exact this

lemma ppsCorrection_sum_dvd (P t : ℕ) :
    (2 ^ 32 : ℤ) ∣ (nominalPeriod : ℤ) - (P - 1) - (ppsCorrection P t 0 + ppsCorrection P t 1) := by
  have := Feedback.correction_sum_modEq (2 ^ 32) nominalPeriod P t
  push_cast at this
  exact this

lemma correction_toInt (x y : ℤ) :
    (PpsSync.correction (BitVec.ofInt 64 x) (BitVec.ofInt 64 y)).toInt =
      ((nominalPeriod : ℤ) - (x - y)).bmod (2 ^ 32) := by
  have hsub : BitVec.ofNat 64 nominalPeriod - (BitVec.ofInt 64 x - BitVec.ofInt 64 y) =
      BitVec.ofInt 64 ((nominalPeriod : ℤ) - (x - y)) := by
    apply BitVec.eq_of_toInt_eq
    simp only [← BitVec.ofInt_natCast, BitVec.toInt_sub, BitVec.toInt_ofInt, Int.sub_bmod_bmod,
      Int.bmod_sub_bmod]
  rw [PpsSync.correction, hsub, Counter.toInt_setWidth_ofInt (by norm_num)]

/-- Counter and correction at every edge are those of the corrected counter. -/
theorem PeriodicPps.refines {mem inp} {t P : ℕ} (h : PeriodicPps mem inp t P) (hP : 2 ≤ P)
    (k : ℕ) :
    tsAtEdge mem inp t P k = BitVec.ofInt 64 (ppsReading P t k) ∧
      (run mem inp (t + k * P + 1)).pps.adjDelta.toInt = ppsCorrection P t k := by
  induction k with
  | zero =>
    obtain ⟨hts, hlast⟩ := h.at_first
    refine ⟨hts, ?_⟩
    have hzero : (run mem inp (t + 0 * P)).pps.lastTs = BitVec.ofInt 64 0 := by
      rw [Nat.zero_mul, Nat.add_zero, hlast]; rfl
    rw [adjDelta_of_edge mem inp (h.edge 0), hzero]
    rw [show (run mem inp (t + 0 * P)).ts.tsNow = BitVec.ofInt 64 t from hts, correction_toInt,
      sub_zero]
    rfl
  | succ k ih =>
    obtain ⟨hts, hadj⟩ := ih
    have hreading : ppsReading P t (k + 1) = ppsReading P t k + (P - 1 + ppsCorrection P t k) :=
      rfl
    have hnext : tsAtEdge mem inp t P (k + 1) = BitVec.ofInt 64 (ppsReading P t (k + 1)) := by
      rw [h.tsAtEdge_succ hP, hts, BitVec.signExtend, hadj, ← BitVec.ofInt_natCast,
        show (1 : BitVec 64) = BitVec.ofInt 64 1 from rfl, ← BitVec.ofInt_add,
        ← BitVec.ofInt_add, ← BitVec.ofInt_add, hreading]
      congr 1
      push_cast [hP]
      ring
    refine ⟨hnext, ?_⟩
    rw [adjDelta_of_edge mem inp (h.edge (k + 1)), h.lastTs_at_next (by omega), hts]
    rw [show (run mem inp (t + (k + 1) * P)).ts.tsNow = _ from hnext, correction_toInt, hreading,
      add_sub_cancel_left]
    rfl

/-! ### Two devices -/

/-- The signed 64-bit difference of two timestamps. -/
def tsDiff (x y : BitVec 64) : ℤ := (x - y).toInt

/-- From the third common edge on, the two devices are less than 1 µs apart, plus the drift of one
PPS period. -/
def StayTogether (mem₁ mem₂ : Fin 4 → BitVec 12 → Bool) (inp₁ inp₂ : ℕ → In)
    (t₁ P₁ t₂ P₂ : ℕ) : Prop :=
  ∀ k, 2 ≤ k →
    |tsDiff (tsAtEdge mem₁ inp₁ t₁ P₁ k) (tsAtEdge mem₂ inp₂ t₂ P₂ k)| <
      10 + |(P₁ : ℤ) - P₂|

/-- The clocks elapsed at the first edge, compared as 64-bit counters. -/
def startOffset (t₁ t₂ : ℕ) : ℤ := ((t₁ : ℤ) - t₂).bmod (2 ^ 64)

/-- `NOMINAL - x` as the signed 32-bit word that `adj_delta` is. -/
def adjWord (x : ℤ) : ℤ := ((nominalPeriod : ℤ) - x).bmod (2 ^ 32)

/-- Equal oscillators, first edges less than 10 clocks apart, and no wrap of a 32-bit correction
that affects one device only: the words for the start counts, and the words for the second periods
that follow from them, differ by the offset itself. -/
structure StartTogether (t₁ P₁ t₂ P₂ : ℕ) : Prop where
  period : P₁ = P₂
  offset : |startOffset t₁ t₂| < 10
  first : adjWord t₂ = adjWord t₁ + startOffset t₁ t₂
  second : adjWord (P₁ - 1 + adjWord t₁) = adjWord (P₂ - 1 + adjWord t₂) + startOffset t₁ t₂

/-- The difference of the timestamps at an edge is that of the corrected counters. -/
lemma tsDiff_eq {mem₁ mem₂ inp₁ inp₂} {t₁ P₁ t₂ P₂ : ℕ} (h₁ : PeriodicPps mem₁ inp₁ t₁ P₁)
    (h₂ : PeriodicPps mem₂ inp₂ t₂ P₂) (hP₁ : 2 ≤ P₁) (hP₂ : 2 ≤ P₂) (k : ℕ) :
    tsDiff (tsAtEdge mem₁ inp₁ t₁ P₁ k) (tsAtEdge mem₂ inp₂ t₂ P₂ k) =
      (ppsReading P₁ t₁ k - ppsReading P₂ t₂ k).bmod (2 ^ 64) := by
  rw [tsDiff, (h₁.refines hP₁ k).1, (h₂.refines hP₂ k).1, BitVec.toInt_sub, BitVec.toInt_ofInt,
    BitVec.toInt_ofInt, Int.sub_bmod_bmod, Int.bmod_sub_bmod]

section Integers

variable {t₁ P₁ t₂ P₂ : ℕ}

/-- What two periods add is bounded, so that it cannot pass for a multiple of `2 ^ 64`. -/
lemma abs_ppsTwoPeriods_sub_le (hP₁ : |(P₁ : ℤ) - nominalPeriod| ≤ 100)
    (hP₂ : |(P₂ : ℤ) - nominalPeriod| ≤ 100) :
    |ppsTwoPeriods P₁ t₁ - ppsTwoPeriods P₂ t₂| ≤ 2 ^ 34 := by
  have h₁₀ := ppsCorrection_range P₁ t₁ 0
  have h₁₁ := ppsCorrection_range P₁ t₁ 1
  have h₂₀ := ppsCorrection_range P₂ t₂ 0
  have h₂₁ := ppsCorrection_range P₂ t₂ 1
  rw [abs_le] at hP₁ hP₂ ⊢
  rw [ppsTwoPeriods, ppsTwoPeriods]
  constructor <;> linarith

/-- Close at all even edges: both devices progress alike. -/
lemma ppsTwoPeriods_eq_of_close (hP₁ : |(P₁ : ℤ) - nominalPeriod| ≤ 100)
    (hP₂ : |(P₂ : ℤ) - nominalPeriod| ≤ 100)
    (h : ∀ k, 2 ≤ k → |(ppsReading P₁ t₁ k - ppsReading P₂ t₂ k).bmod (2 ^ 64)| <
      10 + |(P₁ : ℤ) - P₂|) :
    ppsTwoPeriods P₁ t₁ = ppsTwoPeriods P₂ t₂ := by
  apply sub_eq_zero.mp
  apply Feedback.eq_zero_of_progression_bounded (M := 2 ^ 64) (B := 10 + ((P₁ : ℤ) - P₂).natAbs)
    (a := (t₁ : ℤ) - t₂)
  · have hs : |ppsTwoPeriods P₁ t₁ - ppsTwoPeriods P₂ t₂| ≤ 2 ^ 34 :=
      abs_ppsTwoPeriods_sub_le hP₁ hP₂
    have hd : |(P₁ : ℤ) - P₂| ≤ 200 := by
      rw [abs_le] at hP₁ hP₂ ⊢
      constructor <;> linarith
    push_cast
    linarith
  · intro j hj
    have hk := h (2 * j) (by omega)
    rw [ppsReading_even, ppsReading_even] at hk
    push_cast
    rwa [show (t₁ : ℤ) + j * ppsTwoPeriods P₁ t₁ - (t₂ + j * ppsTwoPeriods P₂ t₂) =
      (t₁ : ℤ) - t₂ + j * (ppsTwoPeriods P₁ t₁ - ppsTwoPeriods P₂ t₂) by ring] at hk

/-- Equal progress means equal oscillators: the corrections can only hide multiples of `2 ^ 32`. -/
lemma period_eq_of_ppsTwoPeriods_eq (hP₁ : |(P₁ : ℤ) - nominalPeriod| ≤ 100)
    (hP₂ : |(P₂ : ℤ) - nominalPeriod| ≤ 100)
    (h : ppsTwoPeriods P₁ t₁ = ppsTwoPeriods P₂ t₂) : P₁ = P₂ := by
  have hdvd : (2 ^ 32 : ℤ) ∣ (P₁ : ℤ) - P₂ := by
    have hsub := dvd_sub (ppsCorrection_sum_dvd P₁ t₁) (ppsCorrection_sum_dvd P₂ t₂)
    rw [ppsTwoPeriods, ppsTwoPeriods] at h
    rwa [show (nominalPeriod : ℤ) - (P₁ - 1) - (ppsCorrection P₁ t₁ 0 + ppsCorrection P₁ t₁ 1) -
      ((nominalPeriod : ℤ) - (P₂ - 1) - (ppsCorrection P₂ t₂ 0 + ppsCorrection P₂ t₂ 1)) =
      (P₁ : ℤ) - P₂ by linarith] at hsub
  have hzero := Int.eq_zero_of_abs_lt_dvd hdvd (by
    rw [abs_le] at hP₁ hP₂
    rw [abs_lt]
    constructor <;> linarith)
  omega

/-- Two corrected counters that stay close started together. -/
lemma startTogether_of_close (hP₁ : |(P₁ : ℤ) - nominalPeriod| ≤ 100)
    (hP₂ : |(P₂ : ℤ) - nominalPeriod| ≤ 100)
    (h : ∀ k, 2 ≤ k → |(ppsReading P₁ t₁ k - ppsReading P₂ t₂ k).bmod (2 ^ 64)| <
      10 + |(P₁ : ℤ) - P₂|) :
    StartTogether t₁ P₁ t₂ P₂ := by
  have hsame := ppsTwoPeriods_eq_of_close hP₁ hP₂ h
  obtain rfl := period_eq_of_ppsTwoPeriods_eq hP₁ hP₂ hsame
  have h2 := h (2 * 1) (by omega)
  have h3 := h (2 * 1 + 1) (by omega)
  rw [ppsReading_even, ppsReading_even, hsame, add_sub_add_right_eq_sub, sub_self, abs_zero,
    add_zero] at h2
  rw [ppsReading_odd, ppsReading_odd, hsame, add_sub_add_right_eq_sub, sub_self, abs_zero,
    add_zero] at h3
  -- the odd edges add the first corrections, which undo the offset up to a wrap
  have hfirst : ppsCorrection P₁ t₂ 0 = ppsCorrection P₁ t₁ 0 + startOffset t₁ t₂ := by
    have hr₁ := ppsCorrection_range P₁ t₁ 0
    have hr₂ := ppsCorrection_range P₁ t₂ 0
    have hf₁ := ppsCorrection_zero_dvd P₁ t₁
    have hf₂ := ppsCorrection_zero_dvd P₁ t₂
    rw [abs_lt] at h2 h3
    unfold startOffset
    norm_num [Int.bmod] at h2 h3 hr₁ hr₂ hf₁ hf₂ ⊢
    omega
  refine ⟨rfl, h2, hfirst, ?_⟩
  rw [ppsTwoPeriods, ppsTwoPeriods] at hsame
  have hsecond : ppsCorrection P₁ t₁ 1 = ppsCorrection P₁ t₂ 1 + startOffset t₁ t₂ := by
    linarith
  exact hsecond

/-- Two corrected counters that start together stay close. -/
lemma close_of_startTogether (h : StartTogether t₁ P₁ t₂ P₂) (k : ℕ) :
    |(ppsReading P₁ t₁ k - ppsReading P₂ t₂ k).bmod (2 ^ 64)| < 10 + |(P₁ : ℤ) - P₂| := by
  obtain ⟨rfl, hoff, hfirst, hsecond⟩ := h
  have hfirst : ppsCorrection P₁ t₂ 0 = ppsCorrection P₁ t₁ 0 + startOffset t₁ t₂ := hfirst
  have hsecond : ppsCorrection P₁ t₁ 1 = ppsCorrection P₁ t₂ 1 + startOffset t₁ t₂ := hsecond
  have hsame : ppsTwoPeriods P₁ t₁ = ppsTwoPeriods P₁ t₂ := by
    rw [ppsTwoPeriods, ppsTwoPeriods]
    linarith
  rw [sub_self, abs_zero, add_zero]
  rcases Nat.even_or_odd' k with ⟨j, rfl | rfl⟩
  · rw [ppsReading_even, ppsReading_even, hsame, add_sub_add_right_eq_sub]
    exact hoff
  · rw [ppsReading_odd, ppsReading_odd, hsame, add_sub_add_right_eq_sub, hfirst]
    rw [show (t₁ : ℤ) + (P₁ - 1 + ppsCorrection P₁ t₁ 0) -
        (t₂ + (P₁ - 1 + (ppsCorrection P₁ t₁ 0 + startOffset t₁ t₂))) =
        (t₁ : ℤ) - t₂ - startOffset t₁ t₂ by ring, startOffset, Int.sub_bmod_bmod, sub_self,
      Int.zero_bmod, abs_zero]
    norm_num

end Integers

/-- **PPS synchronisation.** Two devices stay within 1 µs at every common edge from the third on
exactly when they started together: the loop keeps an offset, it does not remove it. -/
theorem stayTogether_iff {mem₁ mem₂ inp₁ inp₂} {t₁ P₁ t₂ P₂ : ℕ}
    (h₁ : PeriodicPps mem₁ inp₁ t₁ P₁) (h₂ : PeriodicPps mem₂ inp₂ t₂ P₂)
    (hP₁ : |(P₁ : ℤ) - nominalPeriod| ≤ 100) (hP₂ : |(P₂ : ℤ) - nominalPeriod| ≤ 100) :
    StayTogether mem₁ mem₂ inp₁ inp₂ t₁ P₁ t₂ P₂ ↔ StartTogether t₁ P₁ t₂ P₂ := by
  have hlong : ∀ P : ℕ, |(P : ℤ) - nominalPeriod| ≤ 100 → 2 ≤ P := by
    intro P hP
    rw [abs_le, nominalPeriod] at hP
    omega
  have hdiff := tsDiff_eq h₁ h₂ (hlong P₁ hP₁) (hlong P₂ hP₂)
  constructor
  · intro h
    exact startTogether_of_close hP₁ hP₂ fun k hk => hdiff k ▸ h k hk
  · intro h k _
    exact (hdiff k).symm ▸ close_of_startTogether h k

/-! ### Pulse trains

The edges that a receiver's pulses cause, so that the hypotheses above are about inputs. -/

/-- The PPS input for pulses `W` clocks long, one every `P` clocks, the first of which has passed
the debounce at clock `t`. -/
def pulseTrain (W t P n : ℕ) : Bool :=
  decide (t ≤ n + 20) && decide ((n + 20 - t) % P < W)

/-- An input stream with this PPS input and an MCU that stays off the bus. -/
def pulseInputs (W t P : ℕ) (n : ℕ) : In where
  ppsIn := pulseTrain W t P n
  mcuAddr := 0
  mcuWdata := 0
  mcuWe := false
  ackLast := false

section PulseTrain

variable {mem inp} {W t P : ℕ} (hin : ∀ n, (inp n).ppsIn = pulseTrain W t P n)

include hin

/-- The filter is high while the last twenty samples are. -/
lemma ppsFiltered_of_pulseTrain (hWP : W < P) (n : ℕ) :
    (run mem inp n).pps.ppsFiltered = true ↔ 20 ≤ n ∧ t ≤ n ∧ (n - t) % P + 19 < W := by
  rw [← Periodic.forall_mod_lt_iff hWP, pps_eq_run, PpsSync.ppsFiltered_run_iff]
  simp only [hin, pulseTrain, Bool.and_eq_true, decide_eq_true_eq]
  constructor
  · intro h
    have hfirst := h 19 (by omega)
    refine ⟨by omega, by omega, ?_⟩
    intro j hj
    have hj' := (h (19 - j) (by omega)).2.2
    rwa [show n - 1 - (19 - j) + 20 - t = n - t + j by omega] at hj'
  · rintro ⟨hlen, hstart, hhigh⟩ i hi
    refine ⟨by omega, by omega, ?_⟩
    rw [show n - 1 - i + 20 - t = n - t + (19 - i) by omega]
    exact hhigh (19 - i) (by omega)

/-- A pulse longer than the debounce, with a low phase after it, is detected once. -/
lemma periodicPps_of_pulseTrain (ht : 20 ≤ t) (hW : 20 ≤ W) (hWP : W < P) :
    PeriodicPps mem inp t P := by
  intro n
  cases n with
  | zero =>
    constructor
    · intro h
      cases h
    · rintro ⟨k, hk⟩
      omega
  | succ n =>
    have hprev : (run mem inp (n + 1)).pps.ppsPrev = (run mem inp n).pps.ppsFiltered := by
      rw [run_succ]; rfl
    rw [PpsSync.risingEdge, hprev, Bool.and_eq_true, Bool.not_eq_true', Bool.eq_false_iff, ne_eq,
      ppsFiltered_of_pulseTrain hin hWP, ppsFiltered_of_pulseTrain hin hWP]
    have hphase : t ≤ n → (n + 1 - t) % P = if (n - t) % P + 1 = P then 0 else (n - t) % P + 1 := by
      intro htn
      rw [Nat.succ_sub htn]
      exact Periodic.add_one_mod (n - t) (by omega)
    constructor
    · rintro ⟨⟨hlen, hstart, hhigh⟩, hbefore⟩
      have hzero : (n + 1 - t) % P = 0 := by
        rcases Nat.eq_or_lt_of_le hstart with rfl | hlt
        · rw [Nat.sub_self, Nat.zero_mod]
        · rw [hphase (by omega)] at hhigh ⊢
          split_ifs at hhigh ⊢ with hlast
          · rfl
          · exact absurd ⟨by omega, by omega, by omega⟩ hbefore
      refine ⟨(n + 1 - t) / P, ?_⟩
      rw [Nat.div_mul_cancel (Nat.dvd_of_mod_eq_zero hzero)]
      omega
    · rintro ⟨k, hk⟩
      have hzero : (n + 1 - t) % P = 0 := by
        rw [hk, Nat.add_sub_cancel_left, Nat.mul_mod_left]
      refine ⟨⟨by omega, by omega, by omega⟩, ?_⟩
      rintro ⟨-, htn, hlow⟩
      rw [hphase htn] at hzero
      split_ifs at hzero
      omega

end PulseTrain

/-- Five clocks apart at the start: within 1 µs for good. -/
theorem stayTogether_iff_fiveApart :
    StayTogether (fun _ _ => false) (fun _ _ => false) (pulseInputs 1000000 20 10000000)
      (pulseInputs 1000000 25 10000000) 20 10000000 25 10000000 :=
  (stayTogether_iff
    (periodicPps_of_pulseTrain (fun _ => rfl) (by norm_num) (by norm_num) (by norm_num))
    (periodicPps_of_pulseTrain (fun _ => rfl) (by norm_num) (by norm_num) (by norm_num))
    (by norm_num [nominalPeriod]) (by norm_num [nominalPeriod])).mpr
    ⟨rfl, by decide, by decide, by decide⟩

/-- Powered up 90 µs apart: the third common edge finds the two counters 900 ticks apart. -/
theorem startOffset_kept :
    ¬ ∀ (mem₁ mem₂ : Fin 4 → BitVec 12 → Bool) (inp₁ inp₂ : ℕ → In) (t₁ P₁ t₂ P₂ : ℕ),
      PeriodicPps mem₁ inp₁ t₁ P₁ → PeriodicPps mem₂ inp₂ t₂ P₂ →
      |(P₁ : ℤ) - nominalPeriod| ≤ 100 → |(P₂ : ℤ) - nominalPeriod| ≤ 100 →
      StayTogether mem₁ mem₂ inp₁ inp₂ t₁ P₁ t₂ P₂ := by
  intro h
  have h₁ : PeriodicPps (fun _ _ => false) (pulseInputs 1000000 1000 10000000) 1000 10000000 :=
    periodicPps_of_pulseTrain (fun _ => rfl) (by norm_num) (by norm_num) (by norm_num)
  have h₂ : PeriodicPps (fun _ _ => false) (pulseInputs 1000000 100 10000000) 100 10000000 :=
    periodicPps_of_pulseTrain (fun _ => rfl) (by norm_num) (by norm_num) (by norm_num)
  have hthird := h _ _ _ _ _ _ _ _ h₁ h₂ (by norm_num [nominalPeriod])
    (by norm_num [nominalPeriod]) 2 le_rfl
  rw [tsDiff_eq h₁ h₂ (by norm_num) (by norm_num)] at hthird
  exact absurd hthird (by decide)

end Top

end BusTestPlatform

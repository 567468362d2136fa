import BusTestPlatform.Hardware.PpsDetect
import BusTestPlatform.Lib.Counter

/-!
# The correction of `pps_sync`

The distance of two edges is a 64-bit word, and the correction made of it is cut down to the 32 bits
of `adj_delta`. The cut is exact as long as the signed word can hold the correction.
-/

namespace BusTestPlatform

open BitRuns Clocked

namespace PpsSync

variable {syncTicks : ℕ} (inp : ℕ → In) {m n k : ℕ}

/-- Clock edge `n` detects a PPS edge. -/
def Detects (syncTicks : ℕ) (inp : ℕ → In) (n : ℕ) : Prop :=
  (run syncTicks inp n).risingEdge = true

/-- PPS edges are detected at the clock edges `m` and `n`, and none between them. -/
structure Consecutive (syncTicks : ℕ) (inp : ℕ → In) (m n : ℕ) : Prop where
  lt : m < n
  first : Detects syncTicks inp m
  second : Detects syncTicks inp n
  between : ∀ e, m < e → e < n → ¬ Detects syncTicks inp e

/-- The ticks from one local time to another, modulo `2 ^ 64`. -/
def gap (m n : ℕ) : ℕ := ((inp n).tsNow - (inp m).tsNow).toNat

lemma lastTs_succ (n : ℕ) : (run syncTicks inp (n + 1)).lastTs =
    if (run syncTicks inp n).risingEdge then (inp n).tsNow else (run syncTicks inp n).lastTs := rfl

lemma adjDelta_succ (n : ℕ) : (run syncTicks inp (n + 1)).adjDelta =
    if (run syncTicks inp n).risingEdge then
      correction (inp n).tsNow (run syncTicks inp n).lastTs
    else (run syncTicks inp n).adjDelta := rfl

/-- The cut to 32 bits. -/
lemma correction_toInt_eq (a b : BitVec 64) :
    (correction b a).toInt = ((nominalPeriod : ℤ) - (b - a).toNat).bmod (2 ^ 32) := by
  have hdiff : BitVec.ofNat 64 nominalPeriod - (b - a) =
      BitVec.ofInt 64 ((nominalPeriod : ℤ) - (b - a).toNat) := by
    apply BitVec.eq_of_toInt_eq
    rw [BitVec.toInt_sub, BitVec.toInt_ofInt, ← BitVec.ofInt_natCast, BitVec.toInt_ofInt,
      Int.bmod_sub_bmod]
    conv_lhs => rw [BitVec.toInt_eq_toNat_bmod, Int.sub_bmod_bmod]
  rw [correction, hdiff, Counter.toInt_setWidth_ofInt (by norm_num)]

/-- The signed word holds the correction for gaps up to `2 ^ 31` ticks beyond the nominal period. -/
lemma bmod_nominal_sub_iff (g : ℕ) :
    ((nominalPeriod : ℤ) - g).bmod (2 ^ 32) = nominalPeriod - g ↔ g ≤ 2 ^ 31 + nominalPeriod := by
  rw [Int.bmod_eq_iff (by positivity), nominalPeriod]
  omega

variable {inp} in
/-- What `adj_delta` is from the second of two edges on, until the next one. -/
lemma Consecutive.adjDelta_eq (h : Consecutive syncTicks inp m n) (hk : n < k)
    (hquiet : ∀ e, n < e → e < k → ¬ Detects syncTicks inp e) :
    (run syncTicks inp k).adjDelta = correction (inp n).tsNow (inp m).tsNow := by
  have hlast : (run syncTicks inp n).lastTs = (inp m).tsNow :=
    loaded_of_strobe (fun n => (run syncTicks inp n).lastTs) (lastTs_succ inp) h.lt h.first
      fun e he hen => Bool.eq_false_iff.mpr (h.between e he hen)
  rw [← hlast]
  exact loaded_of_strobe (fun n => (run syncTicks inp n).adjDelta) (adjDelta_succ inp) hk h.second
    fun e he hek => Bool.eq_false_iff.mpr (hquiet e he hek)

variable {inp} in
/-- **Correction.** `adj_delta` is the error of the period between two detected edges exactly if
they are at most `2 ^ 31` ticks further apart than they should be. -/
theorem adjDelta_exact_iff (h : Consecutive syncTicks inp m n) (hk : n < k)
    (hquiet : ∀ e, n < e → e < k → ¬ Detects syncTicks inp e) :
    (run syncTicks inp k).adjDelta.toInt = nominalPeriod - (gap inp m n : ℤ) ↔
      gap inp m n ≤ 2 ^ 31 + nominalPeriod := by
  rw [h.adjDelta_eq hk hquiet, correction_toInt_eq]
  exact bmod_nominal_sub_iff _

/-! ### Two pulses -/

/-- Pulses of 20 clocks, `g` clocks apart, seen by a counter that counts clocks. -/
def twoPulses (g n : ℕ) : In :=
  ⟨decide (1 ≤ n ∧ n ≤ 20 ∨ 1 + g ≤ n ∧ n ≤ 20 + g), BitVec.ofNat 64 n⟩

lemma startsWith_twoPulses {g a : ℕ} (hg : 20 < g) :
    StartsWith (fun n => (twoPulses g n).ppsIn) a 20 ↔ a = 1 ∨ a = 1 + g := by
  constructor
  · rintro ⟨hhigh, hbefore⟩
    have hfirst := hhigh 0 (by decide)
    simp only [twoPulses, decide_eq_true_eq] at hfirst
    have hlow := hbefore (a - 1) (by omega)
    simp only [twoPulses, decide_eq_false_iff_not] at hlow
    omega
  · rintro (rfl | rfl)
    · refine ⟨fun i hi => ?_, fun b hb => ?_⟩
      · simp only [twoPulses, decide_eq_true_eq]
        omega
      · simp only [twoPulses, decide_eq_false_iff_not]
        omega
    · refine ⟨fun i hi => ?_, fun b hb => ?_⟩
      · simp only [twoPulses, decide_eq_true_eq]
        omega
      · simp only [twoPulses, decide_eq_false_iff_not]
        omega

lemma detects_twoPulses {g n : ℕ} (hg : 20 < g) :
    Detects 20 (twoPulses g) n ↔ n = 21 ∨ n = 21 + g := by
  have hiff : Detects 20 (twoPulses g) n ↔ n + 1 ∈ detections 20 (twoPulses g) := Iff.rfl
  rw [hiff, mem_detections_iff _ (by decide)]
  simp only [startsWith_twoPulses hg]
  constructor
  · rintro ⟨a, hn, rfl | rfl⟩ <;> omega
  · rintro (rfl | rfl)
    · exact ⟨1, rfl, Or.inl rfl⟩
    · exact ⟨1 + g, by omega, Or.inr rfl⟩

lemma consecutive_twoPulses {g : ℕ} (hg : 20 < g) :
    Consecutive 20 (twoPulses g) 21 (21 + g) where
  lt := by omega
  first := (detects_twoPulses hg).mpr (Or.inl rfl)
  second := (detects_twoPulses hg).mpr (Or.inr rfl)
  between e he hen := by
    rw [detects_twoPulses hg]
    omega

lemma gap_twoPulses {g : ℕ} (hg : g < 2 ^ 64) : gap (twoPulses g) 21 (21 + g) = g := by
  rw [gap, twoPulses, twoPulses, Counter.toNat_ofNat_sub (by omega) (by omega)]
  omega

/-- A gap of a second and five ticks: the correction is five ticks back. -/
theorem adjDelta_exact_iff_second : gap (twoPulses 10000005) 21 10000026 = 10000005 ∧
    (run 20 (twoPulses 10000005) 10000027).adjDelta.toInt = -5 := by
  have hgap : gap (twoPulses 10000005) 21 10000026 = 10000005 := gap_twoPulses (by norm_num)
  have hexact := (adjDelta_exact_iff (consecutive_twoPulses (g := 10000005) (by norm_num))
    (show 10000026 < 10000027 by norm_num) fun e he hek => by omega).mpr
      (hgap.trans_le (by decide))
  rw [hgap] at hexact
  exact ⟨hgap, hexact⟩

/-- The cable was unplugged for 216 s: the correction comes out positive. -/
theorem correction_wraps : ¬ ∀ (inp : ℕ → In) (m n k : ℕ), Consecutive 20 inp m n → n < k →
    (∀ e, n < e → e < k → ¬ Detects 20 inp e) →
    (run 20 inp k).adjDelta.toInt = nominalPeriod - (gap inp m n : ℤ) := by
  intro h
  have hpair : Consecutive 20 (twoPulses 2160000000) 21 2160000021 :=
    consecutive_twoPulses (by norm_num)
  have hexact := h _ 21 2160000021 2160000022 hpair (by norm_num) fun e he hek => by omega
  rw [hpair.adjDelta_eq (by norm_num) fun e he hek => by omega,
    gap_twoPulses (g := 2160000000) (by norm_num)] at hexact
  exact absurd hexact (by decide)

end PpsSync

end BusTestPlatform

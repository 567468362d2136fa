import BusTestPlatform.Hardware.Top

/-!
# What the timestamp counter counts

An adjustment is added in place of the increment of its clock, so every one of them costs the
counter a tick.
-/

namespace BusTestPlatform

open Clocked

namespace TimestampEngine

/-- The registers before clock edge `n` after reset. -/
def run (inp : ℕ → In) : ℕ → TimestampEngine := runFrom step reset inp

variable (inp : ℕ → In) {n : ℕ}

/-- The sum of the adjustments applied by the first `n` clocks. -/
def adjSum (n : ℕ) : ℤ :=
  ∑ k ∈ Finset.range n, if (inp k).ppsAdjEn then (inp k).adjDelta.toInt else 0

/-- How many of the first `n` clocks apply one. -/
def adjCount (n : ℕ) : ℕ := Nat.count (fun k => (inp k).ppsAdjEn = true) n

/-- After `n` clocks the counter has counted them all and moved by the adjustments, and `ts_out` is
the counter at the latest capture. -/
structure KeepsTime (n : ℕ) : Prop where
  time : (run inp n).tsNow = BitVec.ofInt 64 (n + adjSum inp n)
  uncaptured : (∀ m < n, (inp m).captureEn = false) → (run inp n).tsOut = 0
  captured : ∀ e < n, (inp e).captureEn = true →
    (∀ m, e < m → m < n → (inp m).captureEn = false) → (run inp n).tsOut = (run inp e).tsNow

lemma run_succ (n : ℕ) : run inp (n + 1) = (run inp n).step (inp n) := rfl

lemma adjSum_succ (n : ℕ) : adjSum inp (n + 1) =
    adjSum inp n + if (inp n).ppsAdjEn then (inp n).adjDelta.toInt else 0 :=
  Finset.sum_range_succ ..

lemma adjCount_succ (n : ℕ) :
    adjCount inp (n + 1) = adjCount inp n + if (inp n).ppsAdjEn = true then 1 else 0 :=
  Nat.count_succ ..

lemma tsOut_succ (n : ℕ) : (run inp (n + 1)).tsOut =
    if (inp n).captureEn then (run inp n).tsNow else (run inp n).tsOut := rfl

/-- One clock of the counter. -/
lemma tsNow_succ (n : ℕ) : (run inp (n + 1)).tsNow = (run inp n).tsNow +
    BitVec.ofInt 64 (if (inp n).ppsAdjEn then (inp n).adjDelta.toInt else 1) := by
  rw [tsNow, run_succ, step_cnt]
  cases (inp n).ppsAdjEn <;> rfl

/-- The counter lacks a tick for every adjustment. -/
lemma tsNow_run (n : ℕ) :
    (run inp n).tsNow = BitVec.ofInt 64 (n + adjSum inp n - adjCount inp n) := by
  induction n with
  | zero => simp [adjSum, adjCount, tsNow, run]
  | succ n ih =>
    rw [tsNow_succ, ih, ← BitVec.ofInt_add, adjSum_succ, adjCount_succ]
    congr 1
    cases (inp n).ppsAdjEn
    · simp only [Bool.false_eq_true, if_false]
      push_cast
      ring
    · simp only [if_true]
      push_cast
      ring

lemma ofInt_sub_eq_iff {w c : ℕ} {x : ℤ} :
    BitVec.ofInt w (x - c) = BitVec.ofInt w x ↔ 2 ^ w ∣ c := by
  rw [← BitVec.toInt_inj, BitVec.toInt_ofInt, BitVec.toInt_ofInt,
    Int.bmod_eq_bmod_iff_bmod_sub_eq_zero, sub_sub_cancel_left, ← Int.dvd_iff_bmod_eq_zero,
    Int.dvd_neg]
  exact Int.natCast_dvd_natCast

/-- **Ticks.** The counter keeps the time exactly as long as it has not been adjusted, or a multiple
of `2 ^ 64` times. -/
theorem keepsTime_iff (n : ℕ) : KeepsTime inp n ↔ 2 ^ 64 ∣ adjCount inp n := by
  rw [← ofInt_sub_eq_iff (x := n + adjSum inp n), ← tsNow_run]
  constructor
  · exact KeepsTime.time
  · intro htime
    refine ⟨htime, fun h => ?_, fun e he hcapture h => ?_⟩
    · exact loaded_of_no_strobe (fun n => (run inp n).tsOut) (tsOut_succ inp) h
    · exact loaded_of_strobe (fun n => (run inp n).tsOut) (tsOut_succ inp) he hcapture h

/-- One adjustment by -5, at clock 9. -/
def fiveBack (n : ℕ) : In where
  captureEn := false
  ppsAdjEn := n == 9
  adjDelta := -5

/-- After 10 clocks the counter stands at 4. -/
theorem tick_lost : ¬ ∀ (inp : ℕ → In) (n : ℕ), KeepsTime inp n := by
  intro h
  exact absurd (h fiveBack 10).time (by decide)

end TimestampEngine

/-- In every run of `top`, `u_ts` is the engine at the strobes and corrections it is wired to. -/
theorem Top.ts_eq_run (mem : Fin 4 → BitVec 12 → Bool) (inp : ℕ → Top.In) (n : ℕ) :
    (run mem inp n).ts = TimestampEngine.run (fun k =>
      { captureEn := (run mem inp k).captureLatch
        ppsAdjEn := (run mem inp k).pps.adjValid
        adjDelta := (run mem inp k).pps.adjDelta }) n :=
  Clocked.runFrom_part (fun s : Top => s.ts) rfl fun _ _ => rfl

end BusTestPlatform

import BusTestPlatform.Hardware.PpsSync
import BusTestPlatform.Lib.BitRuns

/-!
# Which pulses `pps_sync` detects

The shift register is all ones after `SYNC_TICKS` high samples in a row, and the edge detector looks
at when this begins. So it strobes once in every run of high samples that is long enough.
-/

namespace BusTestPlatform

open BitRuns Clocked

namespace PpsSync

variable {syncTicks : ℕ} (inp : ℕ → In) {n : ℕ}

/-- The runs of high samples of `pps_in` of at least `SYNC_TICKS`, each with its first sample and
its length. -/
def longRuns (syncTicks : ℕ) (inp : ℕ → In) : Set (ℕ × ℕ∞) :=
  {r | MaximalRun (fun n => (inp n).ppsIn) r.1 r.2 ∧ (syncTicks : ℕ∞) ≤ r.2}

/-- The clocks at which `pps_detected` is high. -/
def detections (syncTicks : ℕ) (inp : ℕ → In) : Set ℕ :=
  {n | (run syncTicks inp n).ppsDetected = true}

/-- Two clocks after the `SYNC_TICKS`-th sample of a run. -/
def strobeOf (syncTicks : ℕ) (r : ℕ × ℕ∞) : ℕ := r.1 + (syncTicks - 1) + 2

@[simp] lemma step_ppsDetected (s : PpsSync syncTicks) (i : In) :
    (s.step i).ppsDetected = s.risingEdge := rfl

lemma ppsDetected_succ (n : ℕ) :
    (run syncTicks inp (n + 1)).ppsDetected = (run syncTicks inp n).risingEdge := rfl

/-- `ppsFiltered_run_iff` with the samples counted forwards. -/
lemma ppsFiltered_iff_high (hS : 0 < syncTicks) :
    (run syncTicks inp n).ppsFiltered = true ↔
      ∃ a, n = a + syncTicks ∧ ∀ i < syncTicks, (inp (a + i)).ppsIn = true := by
  rw [ppsFiltered_run_iff]
  constructor
  · intro h
    have hlast := (h (syncTicks - 1) (by omega)).1
    refine ⟨n - syncTicks, by omega, fun i hi => ?_⟩
    have hsample := (h (syncTicks - 1 - i) (by omega)).2
    rwa [show n - 1 - (syncTicks - 1 - i) = n - syncTicks + i by omega] at hsample
  · rintro ⟨a, rfl, hhigh⟩ i hi
    have hsample := hhigh (syncTicks - 1 - i) (by omega)
    refine ⟨by omega, ?_⟩
    rwa [show a + syncTicks - 1 - i = a + (syncTicks - 1 - i) by omega]

/-- `pps_prev` is `pps_filtered` of the clock before. -/
lemma ppsPrev_iff_high (hS : 0 < syncTicks) :
    (run syncTicks inp n).ppsPrev = true ↔
      ∃ a, n = a + syncTicks + 1 ∧ ∀ i < syncTicks, (inp (a + i)).ppsIn = true := by
  cases n with
  | zero => simp
  | succ n =>
    rw [run_succ, step_ppsPrev, ppsFiltered_iff_high inp hS]
    simp only [Nat.add_right_cancel_iff]

/-- A detection comes from a run that began `SYNC_TICKS + 1` clocks before. -/
lemma mem_detections_iff (hS : 0 < syncTicks) :
    n ∈ detections syncTicks inp ↔
      ∃ a, n = a + syncTicks + 1 ∧ StartsWith (fun n => (inp n).ppsIn) a syncTicks := by
  rw [detections, Set.mem_ofPred_eq]
  cases n with
  | zero => exact iff_of_false Bool.false_ne_true fun ⟨a, ha, _⟩ => by omega
  | succ n =>
    rw [ppsDetected_succ, risingEdge, Bool.and_eq_true, Bool.not_eq_true', ← Bool.not_eq_true,
      ppsFiltered_iff_high inp hS, ppsPrev_iff_high inp hS]
    constructor
    · rintro ⟨⟨a, rfl, hhigh⟩, hprev⟩
      refine ⟨a, rfl, hhigh, ?_⟩
      rintro b rfl
      by_contra hb
      -- else the register was all ones a clock earlier
      refine hprev ⟨b, by omega, fun i hi => ?_⟩
      cases i with
      | zero => simpa using hb
      | succ i =>
        have := hhigh i (by omega)
        rwa [show b + (i + 1) = b + 1 + i by omega]
    · rintro ⟨a, hn, hhigh, hbefore⟩
      refine ⟨⟨a, by omega, hhigh⟩, ?_⟩
      rintro ⟨b, hb, hhigh'⟩
      have hlow := hbefore b (by omega)
      have hfirst := hhigh' 0 hS
      rw [Nat.add_zero, hlow] at hfirst
      cases hfirst

lemma adjValid_eq_ppsDetected (n : ℕ) :
    (run syncTicks inp n).adjValid = (run syncTicks inp n).ppsDetected := by
  cases n <;> rfl

/-! ### `last_ts` -/

lemma lastTs_succ_eq (n : ℕ) :
    (run syncTicks inp (n + 1)).lastTs =
      if (run syncTicks inp (n + 1)).ppsDetected then (inp n).tsNow
      else (run syncTicks inp n).lastTs := by
  rw [run_succ, step_lastTs, step_ppsDetected]

lemma lastTs_of_no_detection (h : ∀ m ≤ n, (run syncTicks inp m).ppsDetected = false) :
    (run syncTicks inp n).lastTs = 0 :=
  loaded_of_no_strobe (fun n => (run syncTicks inp n).lastTs) (lastTs_succ_eq inp)
    fun m hm => h (m + 1) hm

lemma lastTs_of_detection {e : ℕ} (he : e < n)
    (hdet : (run syncTicks inp (e + 1)).ppsDetected = true)
    (h : ∀ m, e + 1 < m → m ≤ n → (run syncTicks inp m).ppsDetected = false) :
    (run syncTicks inp n).lastTs = (inp e).tsNow :=
  loaded_of_strobe (fun n => (run syncTicks inp n).lastTs) (lastTs_succ_eq inp) he hdet
    fun m hm hmn => h (m + 1) (Nat.succ_lt_succ hm) hmn

/-- **Debounce.** The detections are those of the long runs, one for each and in their order, two
clocks after the `SYNC_TICKS`-th sample; each is handed on as a correction, and `last_ts` is the
time at the edge that made the latest one. -/
theorem detections_of_longRuns (hS : 2 ≤ syncTicks) :
    Set.BijOn (strobeOf syncTicks) (longRuns syncTicks inp) (detections syncTicks inp) ∧
    (∀ r ∈ longRuns syncTicks inp, ∀ r' ∈ longRuns syncTicks inp,
      r.1 < r'.1 ↔ strobeOf syncTicks r < strobeOf syncTicks r') ∧
    (∀ n, (run syncTicks inp n).adjValid = (run syncTicks inp n).ppsDetected) ∧
    (∀ n, (∀ m ≤ n, (run syncTicks inp m).ppsDetected = false) →
      (run syncTicks inp n).lastTs = 0) ∧
    (∀ e n, e < n → (run syncTicks inp (e + 1)).ppsDetected = true →
      (∀ m, e + 1 < m → m ≤ n → (run syncTicks inp m).ppsDetected = false) →
      (run syncTicks inp n).lastTs = (inp e).tsNow) := by
  have hpos : 0 < syncTicks := by omega
  refine ⟨⟨?_, ?_, ?_⟩, ?_, adjValid_eq_ppsDetected inp, fun n => lastTs_of_no_detection inp,
    fun e n => lastTs_of_detection inp⟩
  · rintro ⟨a, l⟩ ⟨hrun, hlong⟩
    rw [mem_detections_iff inp hpos]
    exact ⟨a, by rw [strobeOf]; omega, hrun.startsWith hlong⟩
  · rintro ⟨a, l⟩ ⟨hrun, -⟩ ⟨a', l'⟩ ⟨hrun', -⟩ hstrobe
    simp only [strobeOf, Nat.add_right_cancel_iff] at hstrobe
    subst hstrobe
    exact congrArg (Prod.mk a) (hrun.length_unique hrun')
  · intro n hn
    obtain ⟨a, rfl, hstart⟩ := (mem_detections_iff inp hpos).mp hn
    obtain ⟨l, hrun, hlong⟩ := hstart.exists_maximalRun hpos
    exact ⟨(a, l), ⟨hrun, hlong⟩, by rw [strobeOf]; omega⟩
  · intro r _ r' _
    rw [strobeOf, strobeOf]
    omega

/-- Two ticks of debounce, with the input high at the clocks 1, 2 and 3. -/
def onePulse (n : ℕ) : In := ⟨decide (1 ≤ n ∧ n ≤ 3), BitVec.ofNat 64 n⟩

theorem detections_of_onePulse :
    Set.BijOn (strobeOf 2) (longRuns 2 onePulse) (detections 2 onePulse) ∧
      (run 2 onePulse 4).ppsDetected = true :=
  ⟨(detections_of_longRuns onePulse le_rfl).1, by decide⟩

end PpsSync

end BusTestPlatform

import BusTestPlatform.Hardware.Top

/-!
# The timestamp latch register

A write to `TS_LOW` raises `capture_latch` for one clock. In that clock `timestamp_engine` samples
its counter into `ts_out`, and `ts_latched` copies `ts_out`: both are nonblocking assignments at
one edge, so what reaches `ts_latched` is the sample of the write before.
-/

namespace BusTestPlatform

open Clocked

namespace Top

/-- The MCU writes address `0x00` at this edge. -/
def In.latchWrite (i : In) : Bool := i.mcuWe && i.mcuAddr == 0x00

/-- Reads of `TS_HIGH` and `TS_LOW` return the two words of `v`. -/
def ReadsWords (s : Top) (v : BitVec 64) : Prop :=
  s.mcuRdata 0x04 = v.extractLsb' 32 32 ∧ s.mcuRdata 0x00 = v.setWidth 32

/-- The two words determine the value, so a read returns exactly what is in `ts_latched`. -/
lemma readsWords_iff (s : Top) (v : BitVec 64) : s.ReadsWords v ↔ s.tsLatched = v := by
  constructor
  · rintro ⟨hhi, hlo⟩
    have hhi : s.tsLatched.extractLsb' 32 32 = v.extractLsb' 32 32 := hhi
    have hlo : s.tsLatched.setWidth 32 = v.setWidth 32 := hlo
    apply BitVec.eq_of_getLsbD_eq
    intro i hi
    by_cases h : i < 32
    · have := congrArg (fun x => x.getLsbD i) hlo
      simpa [h] using this
    · have := congrArg (fun x => x.getLsbD (i - 32)) hhi
      simpa [show i - 32 < 32 by omega, show 32 + (i - 32) = i by omega] using this
  · rintro rfl
    exact ⟨rfl, rfl⟩

variable (mem : Fin 4 → BitVec 12 → Bool) (inp : ℕ → In)

/-- The counter sampled by the capture strobe of the last write before clock `t`; the reset value
of `ts_out` when there is none. -/
def lastCapture : ℕ → BitVec 64
  | 0 => 0
  | t + 1 => if (inp t).latchWrite then (run mem inp (t + 1)).ts.tsNow else lastCapture t

lemma captureLatch_succ (n : ℕ) :
    (run mem inp (n + 1)).captureLatch = (inp n).latchWrite := by
  rw [run_succ]; rfl

lemma tsLatched_succ (n : ℕ) :
    (run mem inp (n + 1)).tsLatched =
      if (run mem inp n).captureLatch then (run mem inp n).ts.tsOut
      else (run mem inp n).tsLatched := by
  rw [run_succ]; rfl

/-- `ts_out` is one clock behind the strobes: it holds the sample of the last write before `t`
only after edge `t`. -/
lemma tsOut_succ_eq_lastCapture (t : ℕ) :
    (run mem inp (t + 1)).ts.tsOut = lastCapture mem inp t := by
  induction t with
  | zero => rfl
  | succ t ih =>
    have hstep : (run mem inp (t + 2)).ts.tsOut =
        if (run mem inp (t + 1)).captureLatch then (run mem inp (t + 1)).ts.tsNow
        else (run mem inp (t + 1)).ts.tsOut := by
      rw [run_succ]; rfl
    rw [hstep, captureLatch_succ, ih]
    rfl

/-- From clock `t + 2` until the next write takes effect, `ts_latched` holds the sample taken
before the one that the write at `t` asked for. -/
lemma tsLatched_of_write {t r : ℕ} (hw : (inp t).latchWrite = true) (hr : t + 2 ≤ r)
    (hno : ∀ k, t < k → k < r → (inp k).latchWrite = false) :
    (run mem inp r).tsLatched = lastCapture mem inp t := by
  have hset : (run mem inp (t + 2)).tsLatched = lastCapture mem inp t := by
    rw [tsLatched_succ, captureLatch_succ, hw, if_pos rfl, tsOut_succ_eq_lastCapture]
  rw [← hset]
  refine Clocked.runFrom_stable (fun s : Top => s.tsLatched) hr fun n hn hnr => ?_
  obtain ⟨n, rfl⟩ := Nat.exists_eq_add_of_le' (Nat.le_of_succ_le hn)
  have hidle : (run mem inp (n + (t + 1))).captureLatch = false := by
    rw [← Nat.add_assoc, captureLatch_succ]
    exact hno _ (by omega) (by omega)
  exact (tsLatched_succ mem inp _).trans (if_neg (by simp [hidle]))

/-- **Timestamp latch register.** After a write to `0x00` at clock `t`, the reads of `0x04` and
`0x00` return the counter sampled by this write's strobe exactly when the counter stands, at that
strobe, where it stood at the strobe of the preceding write. -/
theorem latch_reads_own_sample_iff {t r : ℕ} (hw : (inp t).latchWrite = true) (hr : t + 3 ≤ r)
    (hno : ∀ k, t < k → k < r → (inp k).latchWrite = false) :
    (run mem inp r).ReadsWords (run mem inp (t + 1)).ts.tsNow ↔
      (run mem inp (t + 1)).ts.tsNow = lastCapture mem inp t := by
  rw [readsWords_iff, tsLatched_of_write mem inp hw (by omega) hno]
  exact eq_comm

/-- A device whose MCU writes `TS_LOW` once, at clock 5. -/
def singleWrite (n : ℕ) : In where
  ppsIn := false
  mcuAddr := 0x00
  mcuWdata := 0
  mcuWe := n == 5
  ackLast := true

/-- The single write at clock 5 strobes the counter at 6, and reads return 0. -/
theorem latch_reads_stale :
    ¬ ∀ (mem : Fin 4 → BitVec 12 → Bool) (inp : ℕ → In) (t r : ℕ),
      (inp t).latchWrite = true → t + 3 ≤ r →
      (∀ k, t < k → k < r → (inp k).latchWrite = false) →
      (run mem inp r).ReadsWords (run mem inp (t + 1)).ts.tsNow := by
  intro h
  have hread := h (fun _ _ => false) singleWrite 5 8 rfl (by omega) fun k hk hk' => by
    interval_cases k <;> rfl
  rw [readsWords_iff] at hread
  exact absurd hread (by decide)

/-- The counter has moved on from the reset value that stood in for an earlier sample. -/
theorem latch_reads_own_sample_iff_single :
    (run (fun _ _ => false) singleWrite 6).ts.tsNow ≠
        lastCapture (fun _ _ => false) singleWrite 5 ∧
      ¬ (run (fun _ _ => false) singleWrite 8).ReadsWords
        (run (fun _ _ => false) singleWrite 6).ts.tsNow := by
  have hmoved : (run (fun _ _ => false) singleWrite 6).ts.tsNow ≠
      lastCapture (fun _ _ => false) singleWrite 5 := by decide
  have hiff := latch_reads_own_sample_iff (fun _ _ => false) singleWrite (t := 5) (r := 8) rfl
    (by omega) fun k hk hk' => by interval_cases k <;> rfl
  exact ⟨hmoved, fun hread => hmoved (hiff.mp hread)⟩

/-! ### Runs without corrections -/

lemma tsNow_of_no_adj {n : ℕ} (hadj : ∀ k, k < n → (run mem inp k).pps.adjValid = false) :
    (run mem inp n).ts.tsNow = BitVec.ofNat 64 n := by
  induction n with
  | zero => rfl
  | succ n ih =>
    have hcnt : (run mem inp (n + 1)).ts.tsNow = (run mem inp n).ts.tsNow + 1 := by
      rw [run_succ]
      simp [step, TimestampEngine.tsNow, hadj n (by omega)]
    rw [hcnt, ih fun k hk => hadj k (by omega)]
    apply BitVec.eq_of_toNat_eq
    simp

/-- As long as PPS corrects nothing, no read ever returns the sample it asked for. -/
theorem lastCapture_ne_of_no_adj {t : ℕ} (ht : t + 1 < 2 ^ 64)
    (hadj : ∀ k, k ≤ t → (run mem inp k).pps.adjValid = false) :
    (run mem inp (t + 1)).ts.tsNow ≠ lastCapture mem inp t := by
  have hlt : ∀ n ≤ t, (lastCapture mem inp n).toNat ≤ n := by
    intro n hn
    induction n with
    | zero => simp [lastCapture]
    | succ n ih =>
      rw [lastCapture]
      split
      · rw [tsNow_of_no_adj mem inp fun k hk => hadj k (by omega), BitVec.toNat_ofNat,
          Nat.mod_eq_of_lt (by omega)]
      · exact (ih (by omega)).trans (Nat.le_succ n)
  intro heq
  have hnow := tsNow_of_no_adj mem inp (n := t + 1) fun k hk => hadj k (by omega)
  have := hlt t le_rfl
  rw [← heq, hnow, BitVec.toNat_ofNat, Nat.mod_eq_of_lt ht] at this
  omega

end Top

end BusTestPlatform

import BusTestPlatform.Lib.Clocked

/-!
# `pps_sync.v`

Debounce of the PPS input, detection of its rising edge, and the signed correction handed to
`timestamp_engine`. `SYNC_TICKS` is a parameter of the model as it is of the module.
-/

namespace BusTestPlatform

/-- `NOMINAL_PERIOD`: one second in 100 ns ticks. -/
def nominalPeriod : ℕ := 10000000

/-- Registers of `pps_sync` (`TS_WIDTH = 64`). -/
structure PpsSync (syncTicks : ℕ) where
  debounceShift : BitVec syncTicks
  ppsPrev : Bool
  ppsDetected : Bool
  adjDelta : BitVec 32
  adjValid : Bool
  lastTs : BitVec 64
deriving DecidableEq, Repr

namespace PpsSync

variable {syncTicks : ℕ}

/-- Inputs of `pps_sync` at one clock edge. -/
structure In where
  ppsIn : Bool
  tsNow : BitVec 64

def reset (syncTicks : ℕ) : PpsSync syncTicks where
  debounceShift := 0
  ppsPrev := false
  ppsDetected := false
  adjDelta := 0
  adjValid := false
  lastTs := 0

/-- `wire pps_filtered = &debounce_shift`. -/
def ppsFiltered (s : PpsSync syncTicks) : Bool :=
  s.debounceShift == BitVec.allOnes syncTicks

/-- The condition of the detecting branch, `pps_filtered && !pps_prev`. -/
def risingEdge (s : PpsSync syncTicks) : Bool :=
  s.ppsFiltered && !s.ppsPrev

/-- `$signed(NOMINAL_PERIOD) - $signed(ts_now - last_ts)`: a 64-bit difference, cut down to the
32 bits of `adj_delta` by the assignment. -/
def correction (tsNow lastTs : BitVec 64) : BitVec 32 :=
  (BitVec.ofNat 64 nominalPeriod - (tsNow - lastTs)).setWidth 32

def step (s : PpsSync syncTicks) (i : In) : PpsSync syncTicks where
  debounceShift := s.debounceShift.shiftConcat i.ppsIn
  ppsPrev := s.ppsFiltered
  ppsDetected := s.risingEdge
  adjDelta := if s.risingEdge then correction i.tsNow s.lastTs else s.adjDelta
  adjValid := s.risingEdge
  lastTs := if s.risingEdge then i.tsNow else s.lastTs

section
variable (s : PpsSync syncTicks) (i : In)

@[simp] lemma reset_ppsPrev : (reset syncTicks).ppsPrev = false := rfl
@[simp] lemma reset_adjValid : (reset syncTicks).adjValid = false := rfl
@[simp] lemma reset_lastTs : (reset syncTicks).lastTs = 0 := rfl

@[simp] lemma step_debounceShift :
    (s.step i).debounceShift = s.debounceShift.shiftConcat i.ppsIn := rfl
@[simp] lemma step_ppsPrev : (s.step i).ppsPrev = s.ppsFiltered := rfl
@[simp] lemma step_adjValid : (s.step i).adjValid = s.risingEdge := rfl

@[simp] lemma step_adjDelta :
    (s.step i).adjDelta = if s.risingEdge then correction i.tsNow s.lastTs else s.adjDelta := rfl

@[simp] lemma step_lastTs :
    (s.step i).lastTs = if s.risingEdge then i.tsNow else s.lastTs := rfl

end

/-! ### Runs -/

/-- The registers before clock edge `n` after reset. -/
def run (syncTicks : ℕ) (inp : ℕ → In) : ℕ → PpsSync syncTicks :=
  Clocked.runFrom step (reset syncTicks) inp

variable (inp : ℕ → In)

@[simp] lemma run_zero : run syncTicks inp 0 = reset syncTicks := rfl

lemma run_succ (n : ℕ) : run syncTicks inp (n + 1) = (run syncTicks inp n).step (inp n) := rfl

/-- Bit `i` of the debounce register is the sample taken `i + 1` edges ago. -/
lemma debounceShift_getLsbD (n i : ℕ) :
    (run syncTicks inp n).debounceShift.getLsbD i =
      (decide (i < syncTicks) && decide (i < n) && (inp (n - 1 - i)).ppsIn) := by
  induction n generalizing i with
  | zero => simp [reset]
  | succ n ih =>
    rw [run_succ, step_debounceShift, BitVec.getLsbD_shiftConcat]
    cases i with
    | zero => simp
    | succ i =>
      rw [if_neg (Nat.succ_ne_zero i), Nat.add_sub_cancel, ih i,
        show n + 1 - 1 - (i + 1) = n - 1 - i by omega]
      by_cases h : i + 1 < syncTicks
      · simp [h, show i < syncTicks by omega]
      · simp [h]

/-- The filtered input is high exactly after `SYNC_TICKS` consecutive high samples. -/
lemma ppsFiltered_run_iff (n : ℕ) :
    (run syncTicks inp n).ppsFiltered = true ↔
      ∀ i, i < syncTicks → i < n ∧ (inp (n - 1 - i)).ppsIn = true := by
  rw [ppsFiltered, beq_iff_eq]
  constructor
  · intro h i hi
    have hbit : (run syncTicks inp n).debounceShift.getLsbD i = _ := debounceShift_getLsbD inp n i
    rw [h, BitVec.getLsbD_allOnes] at hbit
    simpa [hi] using hbit
  · intro h
    apply BitVec.eq_of_getLsbD_eq
    intro i hi
    rw [debounceShift_getLsbD, BitVec.getLsbD_allOnes]
    simp [hi, (h i hi).1, (h i hi).2]

end PpsSync

end BusTestPlatform

import BusTestPlatform.Hardware.LatchRegister

/-!
# The transmit scheduler as `top.v` drives it

The acknowledgement is the dispatch pulse and the base tick is the low half of a counter that
advances once per clock. What remains free is the stream of configuration writes.
-/

namespace BusTestPlatform

open Clocked

namespace TxScheduler

variable {w : ℕ}

/-- What the MCU does to the scheduler at one clock edge. -/
structure Cfg (w : ℕ) where
  we : Bool
  slot : BitVec w
  periodTicks : BitVec 32
  ackLast : Bool

/-- The port connections of `u_txs` in state `s` at counter value `n`. -/
def drive (s : TxScheduler w) (c : Cfg w) (n : ℕ) : In w where
  cfgWe := c.we
  cfgSlot := c.slot
  cfgPeriodTicks := c.periodTicks
  baseTick := BitVec.ofNat 32 n
  slotAck := s.dispatchPulse
  ackLast := c.ackLast

/-- The registers before clock edge `n`, the counter standing at `n`. -/
def run (cfg : ℕ → Cfg w) : ℕ → TxScheduler w :=
  runFrom (fun s (x : Cfg w × ℕ) => s.step (s.drive x.1 x.2)) (reset w) fun n => (cfg n, n)

/-- The configuration write of this edge goes to slot `k`. -/
def Cfg.WritesTo (c : Cfg w) (k : BitVec w) : Prop := c.we = true ∧ c.slot = k

/-- The dispatch pulse is high for slot `k`. -/
def PulseOf (s : TxScheduler w) (k : BitVec w) : Prop :=
  s.dispatchPulse = true ∧ s.dispatchSlot = k

instance (c : Cfg w) (k : BitVec w) : Decidable (c.WritesTo k) :=
  inferInstanceAs (Decidable (_ ∧ _))

instance (s : TxScheduler w) (k : BitVec w) : Decidable (s.PulseOf k) :=
  inferInstanceAs (Decidable (_ ∧ _))

/-- One clock with the acknowledgement wired to the pulse, at any base tick. -/
def clock (s : TxScheduler w) (x : Cfg w × ℕ) : TxScheduler w := s.step (s.drive x.1 x.2)

section Clock

variable {s : TxScheduler w} {x : Cfg w × ℕ} {k : BitVec w}

lemma clock_period :
    (s.clock x).period k = if x.1.WritesTo k then x.1.periodTicks else s.period k :=
  step_period s _ k

lemma clock_next_of_write (hw : x.1.WritesTo k) (hack : ¬ s.PulseOf k) :
    (s.clock x).next k = BitVec.ofNat 32 x.2 + x.1.periodTicks :=
  step_next_of_write s _ k hw.1 hw.2 hack

lemma clock_next_of_ack (hack : s.PulseOf k) (hw : ¬ x.1.WritesTo k) :
    (s.clock x).next k = s.next k + s.period k :=
  step_next_of_ack s _ k hack.1 hack.2 hw

lemma clock_next_of_quiet (hw : ¬ x.1.WritesTo k) (hack : ¬ s.PulseOf k) :
    (s.clock x).next k = s.next k :=
  step_next_of_quiet s _ k hw hack

lemma clock_scan :
    (s.clock x).scan = if s.hit (BitVec.ofNat 32 x.2) then 0 else s.scan + 1 :=
  step_scan s _

/-- A pulse is the registered image of the hit one edge before. -/
lemma pulseOf_clock_iff :
    (s.clock x).PulseOf k ↔ s.hit (BitVec.ofNat 32 x.2) = true ∧ s.scan = k := by
  rw [PulseOf, clock, step_dispatchPulse, step_dispatchSlot]
  apply and_congr_right
  intro hhit
  rw [if_pos hhit]

end Clock

variable (cfg : ℕ → Cfg w)

@[simp] lemma run_zero : run cfg 0 = reset w := rfl

lemma run_succ (n : ℕ) : run cfg (n + 1) = (run cfg n).clock (cfg n, n) := rfl

lemma run_period_succ (n : ℕ) (k : BitVec w) :
    (run cfg (n + 1)).period k =
      if (cfg n).WritesTo k then (cfg n).periodTicks else (run cfg n).period k :=
  clock_period

lemma run_next_of_write {n : ℕ} {k : BitVec w} (hw : (cfg n).WritesTo k)
    (hack : ¬ (run cfg n).PulseOf k) :
    (run cfg (n + 1)).next k = BitVec.ofNat 32 n + (cfg n).periodTicks :=
  clock_next_of_write hw hack

lemma run_next_of_ack {n : ℕ} {k : BitVec w} (hack : (run cfg n).PulseOf k)
    (hw : ¬ (cfg n).WritesTo k) :
    (run cfg (n + 1)).next k = (run cfg n).next k + (run cfg n).period k :=
  clock_next_of_ack hack hw

lemma run_next_of_quiet {n : ℕ} {k : BitVec w} (hw : ¬ (cfg n).WritesTo k)
    (hack : ¬ (run cfg n).PulseOf k) :
    (run cfg (n + 1)).next k = (run cfg n).next k :=
  clock_next_of_quiet hw hack

/-- Edge `n` decides to dispatch slot `k`. -/
def HitAt (n : ℕ) (k : BitVec w) : Prop :=
  (run cfg n).hit (BitVec.ofNat 32 n) = true ∧ (run cfg n).scan = k

lemma hitAt_iff (n : ℕ) (k : BitVec w) :
    HitAt cfg n k ↔ (run cfg n).scan = k ∧ k ≠ 0 ∧ (run cfg n).period k ≠ 0 ∧
      ((run cfg n).next k).toNat ≤ n % 2 ^ 32 := by
  rw [HitAt, hit_iff, BitVec.toNat_ofNat]
  constructor
  · rintro ⟨⟨h0, hp, hle⟩, rfl⟩
    exact ⟨rfl, h0, hp, hle⟩
  · rintro ⟨rfl, h0, hp, hle⟩
    exact ⟨⟨h0, hp, hle⟩, rfl⟩

lemma pulseOf_succ_iff (n : ℕ) (k : BitVec w) :
    (run cfg (n + 1)).PulseOf k ↔ HitAt cfg n k :=
  pulseOf_clock_iff

lemma not_pulseOf_zero (k : BitVec w) : ¬ (run cfg 0).PulseOf k := by
  simp [PulseOf]

lemma scan_succ_of_hit {n : ℕ} {k : BitVec w} (h : HitAt cfg n k) :
    (run cfg (n + 1)).scan = 0 := by
  rw [run_succ, clock_scan, if_pos h.1]

lemma scan_succ_of_no_hit {n : ℕ} (h : ∀ k, ¬ HitAt cfg n k) :
    (run cfg (n + 1)).scan = (run cfg n).scan + 1 := by
  rw [run_succ, clock_scan]
  exact if_neg fun hh => h _ ⟨hh, rfl⟩

/-- While a pulse is up the scan is back at 0, so nothing is dispatched. -/
lemma not_hitAt_of_pulse {n : ℕ} {j : BitVec w} (h : (run cfg n).PulseOf j) (k : BitVec w) :
    ¬ HitAt cfg n k := by
  cases n with
  | zero => exact absurd h (not_pulseOf_zero cfg j)
  | succ n =>
    intro hk
    have hscan := scan_succ_of_hit cfg ((pulseOf_succ_iff cfg n j).mp h)
    rw [hitAt_iff, hscan] at hk
    exact hk.2.1 hk.1.symm

end TxScheduler

/-- In a run of `top` in which PPS corrects nothing, `u_txs` is the driven scheduler. -/
theorem Top.txs_eq_run (mem : Fin 4 → BitVec 12 → Bool) (inp : ℕ → Top.In) {n : ℕ}
    (hadj : ∀ k, k < n → (run mem inp k).pps.adjValid = false) :
    (run mem inp n).txs = TxScheduler.run (fun k =>
      { we := (inp k).mcuWe && (inp k).block == 5, slot := (inp k).index,
        periodTicks := (inp k).mcuWdata, ackLast := (inp k).ackLast }) n := by
  refine Clocked.runFrom_part (fun s : Top => s.txs) rfl fun m hm => ?_
  have hnow : (run mem inp m).ts.tsNow = BitVec.ofNat 64 m :=
    tsNow_of_no_adj mem inp fun k hk => hadj k (hk.trans hm)
  have hstep : (run mem inp (m + 1)).txs = (run mem inp m).txs.step ((run mem inp m).txs.drive
      ⟨(inp m).mcuWe && (inp m).block == 5, (inp m).index, (inp m).mcuWdata, (inp m).ackLast⟩
      m) := by
    rw [run_succ]
    simp [step, In.txsIn, TxScheduler.drive, hnow, BitVec.setWidth_ofNat_of_le]
  exact hstep

end BusTestPlatform

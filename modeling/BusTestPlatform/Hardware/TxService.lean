import BusTestPlatform.Hardware.TxDrive
import BusTestPlatform.Lib.Counter

/-!
# Which slots the transmit scheduler serves

The acknowledgement is the dispatch pulse, as in `top.v`, and the base tick is any stream of words:
`ts_now` jumps when PPS corrects it.

The scan only passes through 0, so a slot that alone is configured has its turn within one round
unless it is slot 0.
-/

namespace BusTestPlatform

open Clocked

namespace TxScheduler

variable {w : ℕ}

/-- The registers before clock edge `n`, when edge `k` sees the configuration and the base tick
`inp k`. -/
def runAt (inp : ℕ → Cfg w × ℕ) : ℕ → TxScheduler w := runFrom clock (reset w) inp

/-- A state the scheduler can be in. -/
def Reachable (s : TxScheduler w) : Prop := ∃ inp n, s = runAt inp n

/-- Slot `k` is the only one in use. -/
def OnlySlot (s : TxScheduler w) (k : BitVec w) : Prop := ∀ j, s.period j ≠ 0 ↔ j = k

/-! ### Slots above 0 -/

section Served

variable {st : TxScheduler w} {inp : ℕ → Cfg w × ℕ} {k : BitVec w}

/-- `st` has come this far without a pulse of slot `k`, which is due. -/
structure WaitsFor (st : TxScheduler w) (s : TxScheduler w) (k : BitVec w) : Prop where
  only : s.OnlySlot k
  next : s.next k = st.next k
  noPulse : ¬ s.PulseOf k

/-- One clock of waiting: the slot is dispatched, or the scan comes one slot nearer. -/
lemma WaitsFor.clock {s : TxScheduler w} (h : WaitsFor st s k) (hk : k ≠ 0) {x : Cfg w × ℕ}
    (hwe : x.1.we = false) (hdue : (st.next k).toNat ≤ x.2 % 2 ^ 32) :
    (s.clock x).PulseOf k ∨
      WaitsFor st (s.clock x) k ∧ (k - (s.clock x).scan).toNat < (k - s.scan).toNat := by
  have hquiet : ∀ j, ¬ x.1.WritesTo j := by
    rintro j ⟨hj, -⟩
    rw [hwe] at hj
    cases hj
  have honly : (s.clock x).OnlySlot k := by
    intro j
    rw [clock_period, if_neg (hquiet j)]
    exact h.only j
  have hnext := (clock_next_of_quiet (hquiet k) h.noPulse).trans h.next
  by_cases hscan : s.scan = k
  · left
    rw [pulseOf_clock_iff, hit_iff, BitVec.toNat_ofNat, hscan, h.next]
    exact ⟨⟨hk, (h.only k).mpr rfl, hdue⟩, rfl⟩
  · right
    have hmiss : ¬ s.hit (BitVec.ofNat 32 x.2) = true := by
      rw [hit_iff]
      rintro ⟨-, hper, -⟩
      exact hscan ((h.only _).mp hper)
    have hpulse : ¬ (s.clock x).PulseOf k := by
      rw [pulseOf_clock_iff]
      rintro ⟨hhit, -⟩
      exact hmiss hhit
    refine ⟨⟨honly, hnext, hpulse⟩, ?_⟩
    have hdist : k - s.scan ≠ 0 := by
      intro hzero
      exact hscan (sub_eq_zero.mp hzero).symm
    rw [clock_scan, if_neg hmiss, ← sub_sub, ← Counter.toNat_sub_one hdist]
    exact Nat.lt_succ_self _

/-- A slot above 0 that waits is dispatched within a round of the scan. -/
lemma exists_pulse (hk : k ≠ 0) (honly : st.OnlySlot k)
    (hwe : ∀ n ≤ 2 * 2 ^ w + 2, (inp n).1.we = false)
    (hdue : ∀ n ≤ 2 * 2 ^ w + 2, (st.next k).toNat ≤ (inp n).2 % 2 ^ 32) :
    ∃ n ≤ 2 * 2 ^ w + 2, (runFrom clock st inp n).PulseOf k := by
  by_cases hpulse : st.PulseOf k
  · exact ⟨0, Nat.zero_le _, hpulse⟩
  have hdist := (k - st.scan).isLt
  obtain ⟨m, hm, hdone⟩ := exists_le_of_nearer (n := 0) (r := (k - st.scan).toNat)
    (W := fun n => WaitsFor st (runFrom clock st inp n) k)
    (P := fun n => (runFrom clock st inp n).PulseOf k)
    (d := fun n => (k - (runFrom clock st inp n).scan).toNat)
    (fun m _ hm hwait => hwait.clock hk (hwe m (by omega)) (hdue m (by omega)))
    ⟨honly, rfl, hpulse⟩ le_rfl
  exact ⟨0 + m + 1, by omega, hdone⟩

/-! ### Slot 0 -/

lemma not_pulseOf_clock_zero (s : TxScheduler w) (x : Cfg w × ℕ) : ¬ (s.clock x).PulseOf 0 := by
  rw [pulseOf_clock_iff, hit_iff]
  rintro ⟨⟨hne, -⟩, hscan⟩
  exact hne hscan

/-- The scan steps over slot 0 in every state. -/
lemma not_pulseOf_slot_zero (hst : st.Reachable) (n : ℕ) :
    ¬ (runFrom clock st inp n).PulseOf 0 := by
  cases n with
  | succ n => exact not_pulseOf_clock_zero _ _
  | zero =>
    obtain ⟨inp', m, rfl⟩ := hst
    cases m with
    | zero =>
      rintro ⟨hpulse, -⟩
      cases hpulse
    | succ m => exact not_pulseOf_clock_zero _ _

end Served

/-- **Service.** A slot that is due, with all others switched off and nothing written, is dispatched
within `2 * SLOTS + 2` clocks if and only if it is not slot 0. -/
theorem served_iff {st : TxScheduler w} (hst : st.Reachable) {k : BitVec w}
    (honly : st.OnlySlot k) {inp : ℕ → Cfg w × ℕ}
    (hwe : ∀ n ≤ 2 * 2 ^ w + 2, (inp n).1.we = false)
    (hdue : ∀ n ≤ 2 * 2 ^ w + 2, (st.next k).toNat ≤ (inp n).2 % 2 ^ 32) :
    (∃ n ≤ 2 * 2 ^ w + 2, (runFrom clock st inp n).PulseOf k) ↔ k ≠ 0 := by
  constructor
  · rintro ⟨n, -, hpulse⟩ rfl
    exact not_pulseOf_slot_zero hst n hpulse
  · intro hk
    exact exists_pulse hk honly hwe hdue

/-- Slot `k` is given a period of one tick at clock 0, and nothing else is written. -/
def oneWrite (k : BitVec w) (n : ℕ) : Cfg w × ℕ := ⟨⟨n == 0, k, 1, true⟩, n⟩

/-- The base tick stands at 9 while nothing is written. -/
def noWrite (_ : ℕ) : Cfg w × ℕ := ⟨⟨false, 0, 0, true⟩, 9⟩

lemma oneWrite_onlySlot (k : BitVec w) : (runAt (oneWrite k) 1).OnlySlot k := by
  intro j
  rw [runAt, runFrom_succ, clock_period]
  by_cases hj : (oneWrite k 0).1.WritesTo j
  · rw [if_pos hj]
    exact iff_of_true (by simp [oneWrite]) hj.2.symm
  · rw [if_neg hj]
    exact iff_of_false (by simp) fun h => hj ⟨rfl, h.symm⟩

/-- Slot 3 of 16 slots is due and is dispatched. -/
theorem served_iff_slot_three : ∃ n ≤ 2 * 2 ^ 4 + 2,
    (runFrom clock (runAt (oneWrite 3) 1) noWrite n).PulseOf (3 : BitVec 4) := by
  have hdue : ((runAt (oneWrite 3) 1).next (3 : BitVec 4)).toNat ≤ 9 % 2 ^ 32 := by decide
  exact (served_iff ⟨oneWrite 3, 1, rfl⟩ (oneWrite_onlySlot 3) (fun _ _ => rfl)
    fun _ _ => hdue).mpr (by decide)

/-- Slot 0 of 16 slots is due and is not dispatched. -/
theorem slot_zero_not_served :
    ¬ ∀ (st : TxScheduler 4) (k : BitVec 4) (inp : ℕ → Cfg 4 × ℕ), st.Reachable →
      st.OnlySlot k → (∀ n ≤ 2 * 2 ^ 4 + 2, (inp n).1.we = false) →
      (∀ n ≤ 2 * 2 ^ 4 + 2, (st.next k).toNat ≤ (inp n).2 % 2 ^ 32) →
      ∃ n ≤ 2 * 2 ^ 4 + 2, (runFrom clock st inp n).PulseOf k := by
  intro h
  have hst : (runAt (oneWrite (0 : BitVec 4)) 1).Reachable := ⟨_, _, rfl⟩
  have hdue : ((runAt (oneWrite 0) 1).next (0 : BitVec 4)).toNat ≤ 9 % 2 ^ 32 := by decide
  obtain ⟨n, -, hpulse⟩ := h _ 0 noWrite hst (oneWrite_onlySlot 0) (fun _ _ => rfl)
    fun _ _ => hdue
  exact not_pulseOf_slot_zero hst n hpulse

end TxScheduler

/-- In every run of `top`, `u_txs` is the scheduler at the base tick `ts_now[31:0]`. -/
theorem Top.txs_eq_runAt (mem : Fin 4 → BitVec 12 → Bool) (inp : ℕ → Top.In) (n : ℕ) :
    (run mem inp n).txs = TxScheduler.runAt (fun k =>
      (⟨(inp k).mcuWe && (inp k).block == 5, (inp k).index, (inp k).mcuWdata, (inp k).ackLast⟩,
        (run mem inp k).ts.tsNow.toNat)) n := by
  refine Clocked.runFrom_part (fun s : Top => s.txs) rfl fun m _ => ?_
  have hstep : (run mem inp (m + 1)).txs = (run mem inp m).txs.clock
      (⟨(inp m).mcuWe && (inp m).block == 5, (inp m).index, (inp m).mcuWdata, (inp m).ackLast⟩,
        (run mem inp m).ts.tsNow.toNat) := by
    rw [run_succ]
    simp [step, In.txsIn, TxScheduler.clock, TxScheduler.drive]
  exact hstep

end BusTestPlatform

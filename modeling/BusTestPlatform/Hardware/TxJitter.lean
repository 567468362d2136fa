import BusTestPlatform.Hardware.TxDrive

/-!
# Jitter of the transmit scheduler

Each dispatch restarts the scan at slot 0, so a high slot can be pushed back by every slot below
it. The bound rests on a potential: the clocks until the scan reaches the slot, plus `j + 1` for
every slot `j` that can still be dispatched first. Once a slot is due its potential falls by one
at every clock, because a slot that has been dispatched stays idle for at least 10000 ticks.
-/

namespace BusTestPlatform

namespace TxScheduler

/-- The shortest period in use, 1 ms. -/
def minPeriod : ℕ := 10000

/-- The jitter target, 100 µs. -/
def jitterTicks : ℕ := 1000

/-- How late the analysis below finds a slot to be at most. -/
def maxLag : ℕ := 150

/-- Every write gives slots 1..15 a period of at least 1 ms, or switches the slot off, and no
write hits a slot while its dispatch is acknowledged. -/
structure Admissible (cfg : ℕ → Cfg 4) : Prop where
  period : ∀ n, (cfg n).we = true → (cfg n).slot ≠ 0 →
    (cfg n).periodTicks = 0 ∨ minPeriod ≤ (cfg n).periodTicks.toNat
  noClash : ∀ n k, (cfg n).WritesTo k → ¬ (run cfg n).PulseOf k

/-- No 32-bit sum `base_tick + period` or `next + period` formed before edge `N` overflows. -/
def NoOverflowBefore (cfg : ℕ → Cfg 4) (N : ℕ) : Prop :=
  ∀ n, n < N →
    (∀ k, (cfg n).WritesTo k → n % 2 ^ 32 + (cfg n).periodTicks.toNat < 2 ^ 32) ∧
    (∀ k, (run cfg n).PulseOf k →
      ((run cfg n).next k).toNat + ((run cfg n).period k).toNat < 2 ^ 32)

variable (cfg : ℕ → Cfg 4)

/-- The slots that may be dispatched ahead of `s` before `s` is 100 µs late. -/
def rivals (n : ℕ) (s : BitVec 4) : Finset (BitVec 4) :=
  Finset.univ.filter fun j => j ≠ 0 ∧ (run cfg n).period j ≠ 0 ∧
    ((run cfg n).next j).toNat < ((run cfg n).next s).toNat + jitterTicks ∧
    ¬ (run cfg n).PulseOf j

/-- Clocks that the scan can still spend before it decides on slot `s`. -/
def potential (n : ℕ) (s : BitVec 4) : ℕ :=
  (s - (run cfg n).scan).toNat + ∑ j ∈ (rivals cfg n s).erase s, (j.toNat + 1)

/-- What holds of an enabled slot `s` before edge `n`. -/
structure SlotInv (n : ℕ) (s : BitVec 4) : Prop where
  period : minPeriod ≤ ((run cfg n).period s).toNat
  next : minPeriod ≤ ((run cfg n).next s).toNat
  inFlight : (run cfg n).PulseOf s → n % 2 ^ 32 ≤ ((run cfg n).next s).toNat + (maxLag + 1)
  waiting : ¬ (run cfg n).PulseOf s → ((run cfg n).next s).toNat ≤ n % 2 ^ 32 →
    n % 2 ^ 32 + potential cfg n s ≤ ((run cfg n).next s).toNat + maxLag

/-- The invariant of the scheduler: every enabled slot above 0 is on schedule. -/
def OnSchedule (n : ℕ) : Prop :=
  ∀ s : BitVec 4, s ≠ 0 → (run cfg n).period s ≠ 0 → SlotInv cfg n s

variable {cfg}

lemma SlotInv.lag_le {n : ℕ} {s : BitVec 4} (h : SlotInv cfg n s) :
    n % 2 ^ 32 ≤ ((run cfg n).next s).toNat + (maxLag + 1) := by
  by_cases hp : (run cfg n).PulseOf s
  · exact h.inFlight hp
  · by_cases hdue : ((run cfg n).next s).toNat ≤ n % 2 ^ 32
    · have := h.waiting hp hdue
      omega
    · omega

/-- A slot that becomes due has at worst all other slots before it. -/
lemma potential_le (n : ℕ) (s : BitVec 4) : potential cfg n s ≤ maxLag := by
  have hsum : ∑ j ∈ (rivals cfg n s).erase s, (j.toNat + 1) ≤
      ∑ j ∈ (Finset.univ : Finset (BitVec 4)).erase 0, (j.toNat + 1) := by
    apply Finset.sum_le_sum_of_subset
    intro j hj
    simp only [rivals, Finset.mem_erase, Finset.mem_filter] at hj
    exact Finset.mem_erase.mpr ⟨hj.2.2.1, Finset.mem_univ j⟩
  have hall : ∑ j ∈ (Finset.univ : Finset (BitVec 4)).erase 0, (j.toNat + 1) = 135 := by decide
  have hscan := (s - (run cfg n).scan).isLt
  rw [potential, maxLag]
  omega

/-- The tick after the one at `n`, unless the 32-bit counter wraps. -/
lemma tick_succ (n : ℕ) : (n + 1) % 2 ^ 32 = 0 ∨ (n + 1) % 2 ^ 32 = n % 2 ^ 32 + 1 := by
  omega

section Step

variable {n : ℕ} (hadm : Admissible cfg) (hsum : NoOverflowBefore cfg (n + 1))
  (hinv : OnSchedule cfg n)

include hadm hsum

/-- A write puts the deadline at least 1 ms ahead. -/
lemma next_of_write {k : BitVec 4} (hk : k ≠ 0) (hw : (cfg n).WritesTo k)
    (hper : (run cfg (n + 1)).period k ≠ 0) :
    minPeriod ≤ ((run cfg (n + 1)).period k).toNat ∧
      ((run cfg (n + 1)).next k).toNat =
        n % 2 ^ 32 + ((run cfg (n + 1)).period k).toNat := by
  rw [run_period_succ, if_pos hw] at hper ⊢
  have hlong := (hadm.period n hw.1 (hw.2 ▸ hk)).resolve_left hper
  have hfit := ((hsum n (Nat.lt_succ_self n)).1 k hw)
  refine ⟨hlong, ?_⟩
  rw [run_next_of_write cfg hw (hadm.noClash n k hw), BitVec.toNat_add, BitVec.toNat_ofNat,
    Nat.mod_eq_of_lt hfit]

include hinv

/-- An acknowledgement moves a deadline at least 1 ms ahead of one that was hardly missed. -/
lemma next_of_ack {k : BitVec 4} (hk : k ≠ 0) (hp : (run cfg n).PulseOf k)
    (hper : (run cfg (n + 1)).period k ≠ 0) :
    SlotInv cfg n k ∧ (run cfg (n + 1)).period k = (run cfg n).period k ∧
      n % 2 ^ 32 + minPeriod ≤ ((run cfg (n + 1)).next k).toNat + (maxLag + 1) ∧
      minPeriod ≤ ((run cfg (n + 1)).next k).toNat := by
  have hw : ¬ (cfg n).WritesTo k := fun hw => hadm.noClash n k hw hp
  rw [run_period_succ, if_neg hw] at hper ⊢
  have hk' := hinv k hk hper
  have hfit := ((hsum n (Nat.lt_succ_self n)).2 k hp)
  have hnext : ((run cfg (n + 1)).next k).toNat =
      ((run cfg n).next k).toNat + ((run cfg n).period k).toNat := by
    rw [run_next_of_ack cfg hp hw, BitVec.toNat_add, Nat.mod_eq_of_lt hfit]
  have := hk'.lag_le
  have := hk'.period
  exact ⟨hk', rfl, by omega, by omega⟩

/-- While `s` is due and left alone, no slot joins its rivals. -/
lemma rivals_subset {s : BitVec 4} (hdue : ((run cfg n).next s).toNat ≤ n % 2 ^ 32)
    (hnext : (run cfg (n + 1)).next s = (run cfg n).next s) :
    rivals cfg (n + 1) s ⊆ rivals cfg n s := by
  intro j hj
  simp only [rivals, Finset.mem_filter, Finset.mem_univ, true_and, hnext] at hj ⊢
  obtain ⟨hj0, hper, hsoon, -⟩ := hj
  by_cases hw : (cfg n).WritesTo j
  · have := next_of_write hadm hsum hj0 hw hper
    rw [jitterTicks] at hsoon
    rw [minPeriod] at this
    omega
  · by_cases hp : (run cfg n).PulseOf j
    · have := (next_of_ack hadm hsum hinv hj0 hp hper).2.2.1
      rw [minPeriod, maxLag] at this
      rw [jitterTicks] at hsoon
      omega
    · rw [run_period_succ, if_neg hw] at hper
      rw [run_next_of_quiet cfg hw hp] at hsoon
      exact ⟨hj0, hper, hsoon, hp⟩

/-- Each clock brings a due slot that is not itself dispatched closer to its turn. -/
lemma potential_decreases {s : BitVec 4} (hper : (run cfg n).period s ≠ 0) (hs : s ≠ 0)
    (hdue : ((run cfg n).next s).toNat ≤ n % 2 ^ 32)
    (hnext : (run cfg (n + 1)).next s = (run cfg n).next s) (hnohit : ¬ HitAt cfg n s) :
    potential cfg (n + 1) s + 1 ≤ potential cfg n s := by
  have hsub := rivals_subset hadm hsum hinv hdue hnext
  by_cases hhit : ∃ j, HitAt cfg n j
  · obtain ⟨j, hj⟩ := hhit
    obtain ⟨hscan, hj0, hjper, hjle⟩ := (hitAt_iff cfg n j).mp hj
    have hne : j ≠ s := fun h => hnohit (h ▸ hj)
    -- the slot dispatched now was a rival, and is one no longer
    have hmem : j ∈ (rivals cfg n s).erase s := by
      simp only [rivals, Finset.mem_erase, Finset.mem_filter, Finset.mem_univ, true_and]
      refine ⟨hne, hj0, hjper, ?_, fun hp => not_hitAt_of_pulse cfg hp j hj⟩
      have hlag := (hinv j hj0 hjper).lag_le
      have hslag := (hinv s hs hper).lag_le
      rw [maxLag] at hslag hlag
      rw [jitterTicks]
      omega
    have hleft : (rivals cfg (n + 1) s).erase s ⊆ ((rivals cfg n s).erase s).erase j := by
      intro i hi
      rw [Finset.mem_erase] at hi
      refine Finset.mem_erase.mpr ⟨?_, Finset.mem_erase.mpr ⟨hi.1, hsub hi.2⟩⟩
      rintro rfl
      have hi := (Finset.mem_filter.mp hi.2).2.2.2.2
      exact hi ((pulseOf_succ_iff cfg n i).mpr hj)
    have hle := Finset.sum_le_sum_of_subset (f := fun j : BitVec 4 => j.toNat + 1) hleft
    have herase := Finset.add_sum_erase _ (fun j : BitVec 4 => j.toNat + 1) hmem
    have hdist : s.toNat ≤ (s - (run cfg n).scan).toNat + j.toNat := by
      rw [hscan]
      bv_omega
    rw [potential, potential, scan_succ_of_hit cfg hj, sub_zero]
    omega
  · rw [not_exists] at hhit
    have hne : (run cfg n).scan ≠ s := fun h =>
      hnohit ((hitAt_iff cfg n s).mpr ⟨h, hs, hper, hdue⟩)
    have hle := Finset.sum_le_sum_of_subset (f := fun j : BitVec 4 => j.toNat + 1)
      (Finset.erase_subset_erase s hsub)
    have hdist : (s - ((run cfg n).scan + 1)).toNat + 1 = (s - (run cfg n).scan).toNat := by
      bv_omega
    rw [potential, potential, scan_succ_of_no_hit cfg hhit]
    omega

/-- One clock keeps every enabled slot on schedule. -/
lemma onSchedule_step : OnSchedule cfg (n + 1) := by
  intro s hs hper
  have htick := tick_succ n
  by_cases hw : (cfg n).WritesTo s
  · obtain ⟨hlong, hnext⟩ := next_of_write hadm hsum hs hw hper
    rw [minPeriod] at hlong
    exact ⟨hlong, by rw [minPeriod]; omega, fun _ => by omega, fun _ hdue => by omega⟩
  by_cases hp : (run cfg n).PulseOf s
  · obtain ⟨hk, hsame, hahead, hnext⟩ := next_of_ack hadm hsum hinv hs hp hper
    rw [minPeriod, maxLag] at hahead
    exact ⟨hsame ▸ hk.period, hnext, fun _ => by omega, fun _ hdue => by omega⟩
  · -- neither written nor acknowledged: only time passes
    have hnext := run_next_of_quiet cfg hw hp
    have hsame : (run cfg (n + 1)).period s = (run cfg n).period s := by
      rw [run_period_succ, if_neg hw]
    rw [hsame] at hper
    have hk := hinv s hs hper
    refine ⟨hsame ▸ hk.period, hnext ▸ hk.next, fun _ => ?_, fun hq hdue => ?_⟩
    · have := hk.lag_le
      by_cases hdue : ((run cfg n).next s).toNat ≤ n % 2 ^ 32
      · have := hk.waiting hp hdue
        rw [hnext]
        omega
      · rw [hnext]
        omega
    · rw [hnext] at hdue ⊢
      have hpos := hk.next
      rw [minPeriod] at hpos
      by_cases hold : ((run cfg n).next s).toNat ≤ n % 2 ^ 32
      · have hdec := potential_decreases hadm hsum hinv hper hs hold hnext fun hit =>
          hq ((pulseOf_succ_iff cfg n s).mpr hit)
        have := hk.waiting hp hold
        omega
      · have : potential cfg (n + 1) s ≤ maxLag := potential_le (n + 1) s
        omega

end Step

/-- Every state reached before a 32-bit sum overflows is on schedule. -/
lemma onSchedule_run (hadm : Admissible cfg) {N : ℕ} (hsum : NoOverflowBefore cfg N) :
    OnSchedule cfg N := by
  induction N with
  | zero => exact fun s _ hper => absurd rfl hper
  | succ n ih =>
    exact onSchedule_step hadm hsum (ih fun m hm => hsum m (Nat.lt_succ_of_lt hm))

/-- **Jitter of the transmit scheduler.** However the deadlines of the slots coincide, no enabled
slot in 1..15 is ever 100 µs late. -/
theorem jitter_bounded (hadm : Admissible cfg) {N : ℕ} (hsum : NoOverflowBefore cfg N)
    (s : BitVec 4) (hs : s ≠ 0) (hper : (run cfg N).period s ≠ 0) :
    (BitVec.ofNat 32 N).toNat < ((run cfg N).next s).toNat + jitterTicks := by
  have := (onSchedule_run hadm hsum s hs hper).lag_le
  rw [maxLag] at this
  rw [BitVec.toNat_ofNat, jitterTicks]
  omega

/-- How far ahead a deadline can be while no write asks for more than `longest` ticks. -/
structure Ahead (cfg : ℕ → Cfg 4) (longest n : ℕ) (k : BitVec 4) : Prop where
  period : ((run cfg n).period k).toNat ≤ longest
  next : ((run cfg n).next k).toNat ≤ n + 2 * longest
  inFlight : (run cfg n).PulseOf k → ((run cfg n).next k).toNat ≤ n + longest

section Ahead

variable {longest N : ℕ} (hadm : Admissible cfg)
  (hlong : ∀ n k, (cfg n).WritesTo k → (cfg n).periodTicks.toNat ≤ longest)

include hadm hlong

lemma ahead_step {n : ℕ} {k : BitVec 4} (h : Ahead cfg longest n k) :
    Ahead cfg longest (n + 1) k := by
  have hperiod : ((run cfg (n + 1)).period k).toNat ≤ longest := by
    rw [run_period_succ]
    split_ifs with hw
    · exact hlong n k hw
    · exact h.period
  by_cases hw : (cfg n).WritesTo k
  · have hnext : ((run cfg (n + 1)).next k).toNat ≤ n + longest := by
      rw [run_next_of_write cfg hw (hadm.noClash n k hw), BitVec.toNat_add, BitVec.toNat_ofNat]
      calc (n % 2 ^ 32 + (cfg n).periodTicks.toNat) % 2 ^ 32
          ≤ n % 2 ^ 32 + (cfg n).periodTicks.toNat := Nat.mod_le _ _
        _ ≤ n + longest := Nat.add_le_add (Nat.mod_le _ _) (hlong n k hw)
    exact ⟨hperiod, by omega, fun _ => by omega⟩
  by_cases hp : (run cfg n).PulseOf k
  · have hnext : ((run cfg (n + 1)).next k).toNat ≤ n + 2 * longest := by
      rw [run_next_of_ack cfg hp hw, BitVec.toNat_add, Nat.two_mul, ← Nat.add_assoc]
      exact (Nat.mod_le _ _).trans (Nat.add_le_add (h.inFlight hp) h.period)
    refine ⟨hperiod, by omega, fun hp' => ?_⟩
    exact absurd ((pulseOf_succ_iff cfg n k).mp hp') (not_hitAt_of_pulse cfg hp k)
  · have hnext := congrArg BitVec.toNat (run_next_of_quiet cfg hw hp)
    have := h.next
    refine ⟨hperiod, by omega, fun hp' => ?_⟩
    -- a slot that is hit is due
    have hdue := ((hitAt_iff cfg n k).mp ((pulseOf_succ_iff cfg n k).mp hp')).2.2.2
    have := Nat.mod_le n (2 ^ 32)
    omega

/-- No sum overflows in the clocks that leave room for two of the longest periods. -/
lemma noOverflowBefore_of_periods (hfit : N + 2 * longest < 2 ^ 32) : NoOverflowBefore cfg N := by
  have hahead : ∀ n k, Ahead cfg longest n k := by
    intro n k
    induction n with
    | zero => exact ⟨Nat.zero_le _, Nat.zero_le _, fun _ => Nat.zero_le _⟩
    | succ n ih => exact ahead_step hadm hlong ih
  intro n hn
  refine ⟨fun k hw => ?_, fun k hp => ?_⟩
  · have := hlong n k hw
    have := Nat.mod_le n (2 ^ 32)
    omega
  · have := (hahead n k).inFlight hp
    have := (hahead n k).period
    omega

end Ahead

/-- Slots 15 and 3 are given periods of 1 ms one clock after the other, so that both are first due
at clock 10002. -/
def twoSlots (n : ℕ) : Cfg 4 where
  we := n == 1 || n == 2
  slot := if n = 1 then 15 else 3
  periodTicks := if n = 1 then 10001 else 10000
  ackLast := true

lemma twoSlots_writesTo {n : ℕ} {k : BitVec 4} (h : (twoSlots n).WritesTo k) : n = 1 ∨ n = 2 := by
  simpa [twoSlots] using h.1

lemma twoSlots_admissible : Admissible twoSlots where
  period := by
    intro n hwe _
    rcases twoSlots_writesTo ⟨hwe, rfl⟩ with rfl | rfl
    · exact Or.inr (by decide)
    · exact Or.inr (by decide)
  noClash := by
    rintro n k hw ⟨hp, -⟩
    rcases twoSlots_writesTo hw with rfl | rfl
    · exact absurd hp (by decide)
    · exact absurd hp (by decide)

lemma twoSlots_noOverflow : NoOverflowBefore twoSlots 11010 := by
  have hlong : ∀ n k, (twoSlots n).WritesTo k → (twoSlots n).periodTicks.toNat ≤ 10001 := by
    intro n k hw
    rcases twoSlots_writesTo hw with rfl | rfl
    · decide
    · decide
  exact noOverflowBefore_of_periods twoSlots_admissible hlong (by decide)

lemma twoSlots_period (n : ℕ) (k : BitVec 4) :
    (run twoSlots (n + 3)).period k = (run twoSlots 3).period k := by
  induction n with
  | zero => rfl
  | succ n ih =>
    have hw : ¬ (twoSlots (n + 3)).WritesTo k := fun hw => by
      have := twoSlots_writesTo hw
      omega
    rw [Nat.add_right_comm, run_period_succ, if_neg hw, ih]

/-- By clock 11010 both slots have been dispatched: their deadlines have moved on from 10002. -/
theorem jitter_bounded_twoSlots :
    ((run twoSlots 3).next 15 = 10002 ∧ (run twoSlots 3).next 3 = 10002) ∧
      10010 < ((run twoSlots 11010).next 15).toNat ∧
      10010 < ((run twoSlots 11010).next 3).toNat := by
  have hper : (run twoSlots 11010).period 15 ≠ 0 := by
    rw [twoSlots_period 11007]
    decide
  have hper' : (run twoSlots 11010).period 3 ≠ 0 := by
    rw [twoSlots_period 11007]
    decide
  have h15 : 10010 + jitterTicks < ((run twoSlots 11010).next 15).toNat + jitterTicks :=
    jitter_bounded twoSlots_admissible twoSlots_noOverflow 15 (by decide) hper
  have h3 : 10010 + jitterTicks < ((run twoSlots 11010).next 3).toNat + jitterTicks :=
    jitter_bounded twoSlots_admissible twoSlots_noOverflow 3 (by decide) hper'
  exact ⟨by decide, Nat.lt_of_add_lt_add_right h15, Nat.lt_of_add_lt_add_right h3⟩

end TxScheduler

end BusTestPlatform

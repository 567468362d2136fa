import BusTestPlatform.Hardware.TxDrive
import BusTestPlatform.Lib.Periodic

/-!
# Starvation in the transmit scheduler

A dispatch restarts the scan, which comes back to slot `j` after `j + 1` clocks at the earliest.
A slot that is dispatched with a period no longer than this is due again at its next visit, so that
the scan never gets past it.
-/

namespace BusTestPlatform

namespace TxScheduler

variable {w : ℕ} {cfg : ℕ → Cfg w} {j k : BitVec w} {n : ℕ}

/-- What the acknowledgement under way adds to the deadline of slot `j`. -/
def pending (s : TxScheduler w) (j : BitVec w) : ℕ :=
  if s.PulseOf j then (s.period j).toNat else 0

variable (cfg) in
/-- The scan is on its way to slot `j`, which will be due when it arrives. -/
structure Blocks (n : ℕ) (j : BitVec w) : Prop where
  period_ne : (run cfg n).period j ≠ 0
  period_le : ((run cfg n).period j).toNat ≤ j.toNat + 1
  scan_le : (run cfg n).scan.toNat ≤ j.toNat
  due : ((run cfg n).next j).toNat + (run cfg n).pending j + (run cfg n).scan.toNat ≤
    n % 2 ^ 32 + j.toNat

lemma pending_of_not_pulse {s : TxScheduler w} (h : ¬ s.PulseOf j) : s.pending j = 0 :=
  if_neg h

/-- With the acknowledgement counted in, the deadline never moves ahead by itself. -/
lemma next_add_pending_le (hquiet : ¬ (cfg n).WritesTo j)
    (hmiss : ¬ (run cfg (n + 1)).PulseOf j) :
    ((run cfg (n + 1)).next j).toNat + (run cfg (n + 1)).pending j ≤
      ((run cfg n).next j).toNat + (run cfg n).pending j := by
  rw [pending_of_not_pulse hmiss, Nat.add_zero]
  by_cases hpulse : (run cfg n).PulseOf j
  · rw [run_next_of_ack cfg hpulse hquiet, BitVec.toNat_add, pending, if_pos hpulse]
    exact Nat.mod_le _ _
  · rw [run_next_of_quiet cfg hquiet hpulse]
    exact Nat.le_add_right _ _

/-- A dispatch of a slot with a short period makes the slot block the scan. -/
lemma HitAt.blocks (hit : HitAt cfg n j) (hper : ((run cfg n).period j).toNat ≤ j.toNat + 1)
    (hquiet : ¬ (cfg n).WritesTo j) (htick : (n + 1) % 2 ^ 32 = n % 2 ^ 32 + 1) :
    Blocks cfg (n + 1) j := by
  obtain ⟨-, -, hne, hdue⟩ := (hitAt_iff cfg n j).mp hit
  have hsame : (run cfg (n + 1)).period j = (run cfg n).period j := by
    rw [run_period_succ, if_neg hquiet]
  have hidle : ¬ (run cfg n).PulseOf j := fun hpulse => not_hitAt_of_pulse cfg hpulse j hit
  have hnext := run_next_of_quiet cfg hquiet hidle
  have hscan := scan_succ_of_hit cfg hit
  have hpending : (run cfg (n + 1)).pending j = ((run cfg n).period j).toNat := by
    rw [pending, if_pos ((pulseOf_succ_iff cfg n j).mpr hit), hsame]
  refine ⟨hsame ▸ hne, hsame ▸ hper, ?_, ?_⟩
  · simp [hscan]
  · rw [hnext, hpending, hscan, htick]
    simp only [BitVec.ofNat_eq_ofNat, BitVec.toNat_ofNat, Nat.zero_mod]
    omega

section Blocked

variable (h : Blocks cfg n j)
include h

/-- On arrival the slot is due. -/
lemma Blocks.hitAt (hj : j ≠ 0) (hscan : (run cfg n).scan = j) : HitAt cfg n j := by
  have hdue := h.due
  rw [hscan] at hdue
  exact (hitAt_iff cfg n j).mpr ⟨hscan, hj, h.period_ne, by omega⟩

/-- The scan does not get past the slot. -/
lemma Blocks.le_of_hitAt (hit : HitAt cfg n k) : k ≤ j := by
  rw [BitVec.le_def, ← hit.2]
  exact h.scan_le

/-- A clock with no dispatch brings the scan one slot nearer. -/
lemma Blocks.scan_succ (hj : j ≠ 0) (hmiss : ∀ k, ¬ HitAt cfg n k) :
    (run cfg (n + 1)).scan.toNat = (run cfg n).scan.toNat + 1 ∧
      (run cfg n).scan.toNat < j.toNat := by
  have hne : (run cfg n).scan ≠ j := fun hscan => hmiss j (h.hitAt hj hscan)
  have hlt : (run cfg n).scan.toNat < j.toNat :=
    lt_of_le_of_ne h.scan_le fun heq => hne (BitVec.eq_of_toNat_eq heq)
  refine ⟨?_, hlt⟩
  have hfit : (run cfg n).scan.toNat + 1 < 2 ^ w := (Nat.succ_le_of_lt hlt).trans_lt j.isLt
  simp [scan_succ_of_no_hit cfg hmiss, BitVec.toNat_add, Nat.mod_eq_of_lt hfit]

/-- One clock of blocking. -/
lemma Blocks.succ (hj : j ≠ 0) (hquiet : ¬ (cfg n).WritesTo j)
    (htick : (n + 1) % 2 ^ 32 = n % 2 ^ 32 + 1) : Blocks cfg (n + 1) j := by
  by_cases hit : HitAt cfg n j
  · exact hit.blocks h.period_le hquiet htick
  have hsame : (run cfg (n + 1)).period j = (run cfg n).period j := by
    rw [run_period_succ, if_neg hquiet]
  have hmiss : ¬ (run cfg (n + 1)).PulseOf j := by rwa [pulseOf_succ_iff]
  have hnext := next_add_pending_le hquiet hmiss
  have hdue := h.due
  by_cases hany : ∃ k, HitAt cfg n k
  · -- a slot below is dispatched: the scan starts anew
    obtain ⟨k, hk⟩ := hany
    have hscan : (run cfg (n + 1)).scan.toNat = 0 := by simp [scan_succ_of_hit cfg hk]
    refine ⟨hsame ▸ h.period_ne, hsame ▸ h.period_le, ?_, ?_⟩
    · rw [hscan]
      exact Nat.zero_le _
    · rw [hscan, htick]
      omega
  · obtain ⟨hscan, hlt⟩ := h.scan_succ hj (not_exists.mp hany)
    refine ⟨hsame ▸ h.period_ne, hsame ▸ h.period_le, ?_, ?_⟩
    · rw [hscan]
      exact hlt
    · rw [hscan, htick]
      omega

end Blocked

section Run

variable {t₀ N : ℕ} (hit : HitAt cfg t₀ j)
  (hper : ((run cfg t₀).period j).toNat ≤ j.toNat + 1)
  (hquiet : ∀ n, t₀ ≤ n → n < N → ¬ (cfg n).WritesTo j) (hwrap : t₀ / 2 ^ 32 = N / 2 ^ 32)
include hit hper hquiet hwrap

lemma HitAt.blocks_run (hlt : t₀ < n) (hn : n ≤ N) : Blocks cfg n j := by
  have hj := ((hitAt_iff cfg t₀ j).mp hit).2.1
  have htick : ∀ m, t₀ ≤ m → m < N → (m + 1) % 2 ^ 32 = m % 2 ^ 32 + 1 := by
    intro m hm hmN
    omega
  induction n, hlt using Nat.le_induction with
  | base => exact hit.blocks hper (hquiet t₀ le_rfl hn) (htick t₀ le_rfl hn)
  | succ n hlt ih =>
    have hle : t₀ ≤ n := Nat.le_of_succ_le hlt
    exact (ih (Nat.le_of_succ_le hn)).succ hj (hquiet n hle hn) (htick n hle hn)

/-- With nothing in use below the slot, the scan goes round in `j + 1` clocks. -/
lemma HitAt.scan_run
    (hlower : ∀ m, t₀ < m → m < N → ∀ i, i < j → (run cfg m).period i = 0)
    (hlt : t₀ < n) (hn : n ≤ N) :
    (run cfg n).scan.toNat = (n - (t₀ + 1)) % (j.toNat + 1) := by
  have hj := ((hitAt_iff cfg t₀ j).mp hit).2.1
  induction n, hlt using Nat.le_induction with
  | base => simp [scan_succ_of_hit cfg hit]
  | succ n hlt ih =>
    have hblocks := hit.blocks_run hper hquiet hwrap hlt (Nat.le_of_succ_le hn)
    have hscan := ih (Nat.le_of_succ_le hn)
    rw [Nat.succ_sub hlt, Nat.succ_eq_add_one, Periodic.add_one_mod _ (Nat.succ_pos _), ← hscan]
    by_cases hnow : HitAt cfg n j
    · rw [hnow.2, if_pos rfl, scan_succ_of_hit cfg hnow]
      simp
    · have hmiss : ∀ k, ¬ HitAt cfg n k := by
        intro k hk
        have hne : k ≠ j := fun heq => hnow (heq ▸ hk)
        have hbelow : k < j := BitVec.lt_of_le_ne (hblocks.le_of_hitAt hk) hne
        exact ((hitAt_iff cfg n k).mp hk).2.2.1 (hlower n hlt hn k hbelow)
      obtain ⟨hsucc, hbelow⟩ := hblocks.scan_succ hj hmiss
      rw [hsucc, if_neg fun heq => hbelow.ne (Nat.succ_injective heq)]

/-- **Starvation.** A slot `j` is dispatched with a period of at most `j + 1` ticks. As long as it
is not rewritten and the tick counter does not wrap, no slot above it is dispatched again. If
moreover no slot below it is in use, it is dispatched at every `j + 1`st clock, whatever its
period. -/
theorem slots_above_starve (hlt : t₀ < n) (hn : n ≤ N) :
    (∀ k, HitAt cfg n k → k ≤ j) ∧
      ((∀ m, t₀ < m → m < N → ∀ i, i < j → (run cfg m).period i = 0) →
        (HitAt cfg n j ↔ j.toNat + 1 ∣ n - t₀)) := by
  have hblocks := hit.blocks_run hper hquiet hwrap hlt hn
  have hj := ((hitAt_iff cfg t₀ j).mp hit).2.1
  refine ⟨fun k hk => hblocks.le_of_hitAt hk, fun hlower => ?_⟩
  have hscan := hit.scan_run hper hquiet hwrap hlower hlt hn
  have hturn : HitAt cfg n j ↔ (run cfg n).scan.toNat = j.toNat := by
    rw [BitVec.toNat_inj]
    exact ⟨fun hnow => hnow.2, hblocks.hitAt hj⟩
  have hclocks : n - t₀ = n - (t₀ + 1) + 1 := by omega
  rw [hturn, hscan, hclocks, Nat.dvd_iff_mod_eq_zero]
  exact Nat.succ_mod_succ_eq_zero_iff.symm

end Run

/-- Slots 2 and 5 are given periods of three ticks and of 1 ms. -/
def greedy (n : ℕ) : Cfg 4 where
  we := n == 0 || n == 1
  slot := if n = 0 then 2 else 5
  periodTicks := if n = 0 then 3 else 10000
  ackLast := true

lemma greedy_quiet {n : ℕ} (hn : 2 ≤ n) (k : BitVec 4) : ¬ (greedy n).WritesTo k := by
  rintro ⟨hwe, -⟩
  simp [greedy] at hwe
  omega

/-- Slot 5 is not dispatched when it has been due for 99 ms. -/
theorem slots_above_starve_greedy : ¬ HitAt greedy 1000000 (5 : BitVec 4) := by
  intro hit
  have hfirst : HitAt greedy 18 (2 : BitVec 4) := (hitAt_iff ..).mpr (by decide)
  have hstarve := slots_above_starve (N := 1000000) hfirst (by decide)
    (fun m hm _ => greedy_quiet (by omega) 2) (by norm_num) (by norm_num) le_rfl
  exact absurd (hstarve.1 5 hit) (by decide)

end TxScheduler

end BusTestPlatform

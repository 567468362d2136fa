import BusTestPlatform.Hardware.TxDrive

/-!
# Rate of the transmit scheduler

`next` and `base_tick` are 32-bit words and the due test compares them as they stand. The rate
bound therefore holds exactly as long as no multiple of `2 ^ 32` ticks lies between a visit of the
slot and the slot's pending deadline.
-/

namespace BusTestPlatform

namespace TxScheduler

variable {w : ℕ} (cfg : ℕ → Cfg w)

/-- Dispatch pulses of slot `k` in the `m` clocks after clock `t₀`. -/
def dispatches (k : BitVec w) (t₀ m : ℕ) : ℕ :=
  Nat.count (fun j => (run cfg (t₀ + 1 + j)).PulseOf k) m

/-- Slot `k` receives its last write, of the nonzero period `p`, at clock `t₀`, and no dispatch
of it is in flight then. -/
structure ConfiguredAt (k : BitVec w) (t₀ p : ℕ) : Prop where
  write : (cfg t₀).WritesTo k
  period : (cfg t₀).periodTicks.toNat = p
  pos : 0 < p
  last : ∀ n, t₀ < n → ¬ (cfg n).WritesTo k
  noPulse : ¬ (run cfg t₀).PulseOf k
  noHit : ¬ (run cfg (t₀ + 1)).PulseOf k

/-- The true deadline that the low 32 bits in `next[k]` stand for, `m` clocks after the write. -/
def deadline (k : BitVec w) (t₀ p m : ℕ) : ℕ := t₀ + (dispatches cfg k t₀ m + 1) * p

/-- Whenever the scan visits slot `k` ahead of its deadline, less than `N` clocks after the write,
base tick and deadline lie in the same period of the 32-bit tick counter. The visit one clock ahead
is left out: its pulse is on time. -/
def NoWrapPending (k : BitVec w) (t₀ p N : ℕ) : Prop :=
  ∀ m < N, 0 < m → k ≠ 0 → (run cfg (t₀ + m)).scan = k → t₀ + m + 1 < deadline cfg k t₀ p m →
    (t₀ + m) / 2 ^ 32 = deadline cfg k t₀ p m / 2 ^ 32

variable {cfg} {k : BitVec w} {t₀ p : ℕ}

lemma dispatches_zero : dispatches cfg k t₀ 0 = 0 := Nat.count_zero _

lemma dispatches_succ (m : ℕ) :
    dispatches cfg k t₀ (m + 1) =
      dispatches cfg k t₀ m + if (run cfg (t₀ + 1 + m)).PulseOf k then 1 else 0 :=
  Nat.count_succ _ _

lemma ConfiguredAt.period_eq (h : ConfiguredAt cfg k t₀ p) (m : ℕ) :
    (run cfg (t₀ + 1 + m)).period k = BitVec.ofNat 32 p := by
  induction m with
  | zero =>
    rw [Nat.add_zero, run_period_succ, if_pos h.write, ← h.period, BitVec.ofNat_toNat,
      BitVec.setWidth_eq]
  | succ m ih =>
    rw [← Nat.add_assoc, run_period_succ, if_neg (h.last _ (by omega)), ih]

/-- The register holds the low 32 bits of the deadline, one clock after the count it includes. -/
lemma ConfiguredAt.next_eq (h : ConfiguredAt cfg k t₀ p) (m : ℕ) :
    (run cfg (t₀ + 1 + m)).next k = BitVec.ofNat 32 (deadline cfg k t₀ p m) := by
  induction m with
  | zero =>
    rw [Nat.add_zero, run_next_of_write cfg h.write h.noPulse, deadline, dispatches_zero,
      Nat.zero_add, Nat.one_mul, BitVec.ofNat_add, ← h.period, BitVec.ofNat_toNat,
      BitVec.setWidth_eq]
  | succ m ih =>
    have hlast := h.last (t₀ + 1 + m) (by omega)
    rw [← Nat.add_assoc, deadline, dispatches_succ]
    by_cases hp : (run cfg (t₀ + 1 + m)).PulseOf k
    · rw [run_next_of_ack cfg hp hlast, ih, h.period_eq, ← BitVec.ofNat_add, if_pos hp, deadline]
      congr 1
      ring
    · rw [run_next_of_quiet cfg hlast hp, ih, if_neg hp, Nat.add_zero, deadline]

/-- At a visit the register is up to date: no acknowledgement of the slot is outstanding. -/
lemma ConfiguredAt.next_at_visit (h : ConfiguredAt cfg k t₀ p) {m : ℕ} (hm : 0 < m) (hk : k ≠ 0)
    (hscan : (run cfg (t₀ + m)).scan = k) :
    ((run cfg (t₀ + m)).next k).toNat = deadline cfg k t₀ p m % 2 ^ 32 := by
  obtain ⟨m, rfl⟩ : ∃ j, m = j + 1 := ⟨m - 1, by omega⟩
  have hnp : ¬ (run cfg (t₀ + 1 + m)).PulseOf k := by
    rw [show t₀ + 1 + m = t₀ + m + 1 by omega, pulseOf_succ_iff]
    intro hit
    have := scan_succ_of_hit cfg hit
    rw [show t₀ + m + 1 = t₀ + (m + 1) by omega, hscan] at this
    exact hk this
  rw [show t₀ + (m + 1) = t₀ + 1 + m by omega, h.next_eq, BitVec.toNat_ofNat, deadline, deadline,
    dispatches_succ, if_neg hnp, Nat.add_zero]

/-- What a visit of the slot dispatches, in terms of the true times. -/
lemma ConfiguredAt.hitAt_iff_le (h : ConfiguredAt cfg k t₀ p) {m : ℕ} (hm : 0 < m) :
    HitAt cfg (t₀ + m) k ↔ (run cfg (t₀ + m)).scan = k ∧ k ≠ 0 ∧
      deadline cfg k t₀ p m % 2 ^ 32 ≤ (t₀ + m) % 2 ^ 32 := by
  have hper : (run cfg (t₀ + m)).period k ≠ 0 := by
    obtain ⟨m, rfl⟩ : ∃ j, m = j + 1 := ⟨m - 1, by omega⟩
    rw [show t₀ + (m + 1) = t₀ + 1 + m by omega, h.period_eq, ← h.period, BitVec.ofNat_toNat,
      BitVec.setWidth_eq]
    intro h0
    have := h.period
    rw [h0] at this
    exact absurd this (by have := h.pos; simp; omega)
  rw [hitAt_iff]
  constructor
  · rintro ⟨hscan, hk, -, hle⟩
    exact ⟨hscan, hk, h.next_at_visit hm hk hscan ▸ hle⟩
  · rintro ⟨hscan, hk, hle⟩
    exact ⟨hscan, hk, hper, (h.next_at_visit hm hk hscan).symm ▸ hle⟩

lemma ConfiguredAt.lt_word (h : ConfiguredAt cfg k t₀ p) : p < 2 ^ 32 :=
  h.period ▸ (cfg t₀).periodTicks.isLt

/-- Ahead of a deadline less than `2 ^ 32` ticks away, the comparison of the low words is right
exactly when no wrap lies between. -/
lemma mod_le_mod_iff_wrap {n d : ℕ} (hlt : n < d) (hd : d < n + 2 ^ 32) :
    d % 2 ^ 32 ≤ n % 2 ^ 32 ↔ n / 2 ^ 32 ≠ d / 2 ^ 32 := by
  omega

/-- **Rate of the transmit scheduler.** Over any number of clocks, a configured slot never exceeds
its rate iff no visit of it falls between a wrap of the 32-bit tick and the pending deadline. -/
theorem rate_bounded_iff (h : ConfiguredAt cfg k t₀ p) (N : ℕ) :
    (∀ m ≤ N, dispatches cfg k t₀ m ≤ m / p) ↔ NoWrapPending cfg k t₀ p N := by
  have hp := h.pos
  have hpw := h.lt_word
  constructor
  · intro hrate m hN hm hk hscan hahead
    by_contra hwrap
    have hcount := (Nat.le_div_iff_mul_le hp).mp (hrate m hN.le)
    -- at most one period ahead, so the wrap makes the comparison come out the wrong way
    have hnear : deadline cfg k t₀ p m ≤ t₀ + m + p := by
      rw [deadline, Nat.add_mul, Nat.one_mul]
      omega
    have hit : HitAt cfg (t₀ + m) k :=
      (h.hitAt_iff_le hm).mpr
        ⟨hscan, hk, (mod_le_mod_iff_wrap (by omega) (by omega)).mpr hwrap⟩
    have hpulse := (pulseOf_succ_iff cfg (t₀ + m) k).mpr hit
    rw [show t₀ + m + 1 = t₀ + 1 + m by omega] at hpulse
    have hnext := (Nat.le_div_iff_mul_le hp).mp (hrate (m + 1) hN)
    rw [dispatches_succ, if_pos hpulse] at hnext
    rw [deadline] at hahead
    omega
  · intro hsafe m hmN
    rw [Nat.le_div_iff_mul_le hp]
    induction m with
    | zero => simp [dispatches_zero]
    | succ m ih =>
      have ih := ih (Nat.le_of_succ_le hmN)
      rw [dispatches_succ]
      by_cases hpulse : (run cfg (t₀ + 1 + m)).PulseOf k
      · rw [if_pos hpulse]
        have hm : 0 < m := by
          rcases Nat.eq_zero_or_pos m with rfl | hm
          · exact absurd hpulse h.noHit
          · exact hm
        rw [show t₀ + 1 + m = t₀ + m + 1 by omega, pulseOf_succ_iff] at hpulse
        obtain ⟨hscan, hk, hle⟩ := (h.hitAt_iff_le hm).mp hpulse
        -- an early dispatch would need a wrap before the deadline
        by_contra hearly
        have hahead : t₀ + m + 1 < deadline cfg k t₀ p m := by
          rw [deadline]
          omega
        have hnear : deadline cfg k t₀ p m ≤ t₀ + m + p := by
          rw [deadline, Nat.add_mul, Nat.one_mul]
          omega
        exact (mod_le_mod_iff_wrap (by omega) (by omega)).mp hle
          (hsafe m hmN hm hk hscan hahead)
      · rw [if_neg hpulse, Nat.add_zero]
        omega

/-- Slot 8 is given the longest period at clock 5; the sum wraps to deadline 4. -/
def longPeriod (n : ℕ) : Cfg 4 where
  we := n == 5
  slot := 8
  periodTicks := BitVec.ofNat 32 (2 ^ 32 - 1)
  ackLast := true

lemma longPeriod_configuredAt : ConfiguredAt longPeriod 8 5 (2 ^ 32 - 1) where
  write := ⟨rfl, rfl⟩
  period := rfl
  pos := by omega
  last := by
    rintro n hn ⟨hwe, -⟩
    simp [longPeriod] at hwe
    omega
  noPulse := by decide
  noHit := by decide

/-- The first visit after the write dispatches, 429 s early. -/
theorem rate_exceeded_after_wrap :
    ¬ ∀ (cfg : ℕ → Cfg 4) (k : BitVec 4) (t₀ p : ℕ), ConfiguredAt cfg k t₀ p →
      ∀ m, dispatches cfg k t₀ m ≤ m / p := by
  intro h
  have hrate := h longPeriod 8 5 (2 ^ 32 - 1) longPeriod_configuredAt 4
  have hone : dispatches longPeriod 8 5 4 = 1 := by decide
  rw [hone] at hrate
  omega

/-- Nothing wraps while the deadlines stay below `2 ^ 32`. -/
lemma noWrapPending_of_short {N : ℕ} (hshort : t₀ + (N + 1) * (p + 1) < 2 ^ 32) :
    NoWrapPending cfg k t₀ p N := by
  intro m hm _ _ _ _
  have hcount : dispatches cfg k t₀ m ≤ m := Nat.count_le _
  have hdeadline : deadline cfg k t₀ p m ≤ t₀ + (N + 1) * p :=
    Nat.add_le_add_left (Nat.mul_le_mul_right p (by omega)) t₀
  rw [Nat.mul_add, Nat.mul_one] at hshort
  rw [Nat.div_eq_of_lt (by omega), Nat.div_eq_of_lt (by omega)]

/-- Slot 8 is given a period of 5 ticks at clock 2. -/
def shortPeriod (n : ℕ) : Cfg 4 where
  we := n == 2
  slot := 8
  periodTicks := 5
  ackLast := true

lemma shortPeriod_configuredAt : ConfiguredAt shortPeriod 8 2 5 where
  write := ⟨rfl, rfl⟩
  period := rfl
  pos := by decide
  last := by
    rintro n hn ⟨hwe, -⟩
    simp [shortPeriod] at hwe
    omega
  noPulse := by decide
  noHit := by decide

/-- The slot is dispatched twice in the first 17 clocks, and never early in the first 1000. -/
theorem rate_bounded_iff_shortPeriod : dispatches shortPeriod 8 2 17 = 2 ∧
    ∀ m ≤ 1000, dispatches shortPeriod 8 2 m ≤ m / 5 :=
  ⟨by decide +kernel, (rate_bounded_iff shortPeriod_configuredAt 1000).mpr
    (noWrapPending_of_short (by decide))⟩

end TxScheduler

end BusTestPlatform

import BusTestPlatform.Hardware.TxService

/-!
# Reconfiguring a slot

A write sets `next` to `base_tick + period`. The acknowledgement of a dispatch that was decided
before adds to `next` as well: at the edge of the write itself, where the two assignments race, or
at the edge after it, when the slot was being decided on as it was written.
-/

namespace BusTestPlatform

open Clocked

namespace TxScheduler

variable {w : ℕ} (inp : ℕ → Cfg w × ℕ) {k : BitVec w} {t₀ n : ℕ}

/-- Edge `n` decides to dispatch slot `k`, which is acknowledged at the next edge. -/
def DecidesAt (n : ℕ) (k : BitVec w) : Prop :=
  (runAt inp n).hit (BitVec.ofNat 32 (inp n).2) = true ∧ (runAt inp n).scan = k

/-- Between the edges `t₀` and `n` slot `k` is not written again, and no dispatch of it is
acknowledged that was decided after `t₀`. -/
def Undisturbed (t₀ n : ℕ) (k : BitVec w) : Prop :=
  ∀ e, t₀ < e → e < n → ¬ (inp e).1.WritesTo k ∧ ∀ d, t₀ < d → d + 1 = e → ¬ DecidesAt inp d k

/-- The deadline that the write of edge `t₀` asks for, `base_tick + period` modulo `2 ^ 32`. -/
def firstDue (t₀ : ℕ) : BitVec 32 := BitVec.ofNat 32 (inp t₀).2 + (inp t₀).1.periodTicks

/-- The write of edge `t₀` to slot `k` takes effect: its deadline stands until a dispatch decided
after it is acknowledged, and the first of these is due exactly then. -/
structure TakesEffect (t₀ : ℕ) (k : BitVec w) : Prop where
  next_eq : ∀ n, t₀ < n → Undisturbed inp t₀ n k → (runAt inp n).next k = firstDue inp t₀
  due_iff : ∀ n, t₀ < n → Undisturbed inp t₀ n k → (runAt inp n).scan = k → k ≠ 0 →
    (DecidesAt inp n k ↔ firstDue inp t₀ ≤ BitVec.ofNat 32 (inp n).2)

/-- The acknowledgement at edge `t₀` overrides the write, with another deadline. -/
def Overridden (t₀ : ℕ) (k : BitVec w) : Prop :=
  (runAt inp t₀).PulseOf k ∧ (inp t₀).1.ackLast = true ∧
    (runAt inp t₀).next k + (runAt inp t₀).period k ≠ firstDue inp t₀

/-! ### Runs at any base tick -/

section Run

variable {inp}

lemma runAt_succ (n : ℕ) : runAt inp (n + 1) = (runAt inp n).clock (inp n) := rfl

lemma pulseOf_succ_iff_decidesAt : (runAt inp (n + 1)).PulseOf k ↔ DecidesAt inp n k :=
  pulseOf_clock_iff

/-- Both assignments at once. -/
lemma clock_next_of_both {s : TxScheduler w} {x : Cfg w × ℕ} (hw : x.1.WritesTo k)
    (hack : s.PulseOf k) :
    (s.clock x).next k =
      if x.1.ackLast then s.next k + s.period k else BitVec.ofNat 32 x.2 + x.1.periodTicks := by
  obtain ⟨hwe, rfl⟩ := hw
  obtain ⟨hpulse, hslot⟩ := hack
  cases hlast : x.1.ackLast <;>
    simp [clock, drive, step, writeNext, ackNext, hwe, hpulse, hslot, hlast]

/-- The deadline right after the write. -/
lemma next_succ_write (hw : (inp t₀).1.WritesTo k) (hrace : ¬ Overridden inp t₀ k) :
    (runAt inp (t₀ + 1)).next k = firstDue inp t₀ := by
  rw [runAt_succ]
  by_cases hack : (runAt inp t₀).PulseOf k
  · rw [clock_next_of_both hw hack]
    by_cases hlast : (inp t₀).1.ackLast = true
    · rw [if_pos hlast]
      by_contra hne
      exact hrace ⟨hack, hlast, hne⟩
    · rw [if_neg hlast, firstDue]
  · exact clock_next_of_write hw hack

lemma period_of_undisturbed (hw : (inp t₀).1.WritesTo k) (hn : t₀ < n)
    (hquiet : Undisturbed inp t₀ n k) : (runAt inp n).period k = (inp t₀).1.periodTicks := by
  induction n, hn using Nat.le_induction with
  | base => rw [runAt_succ, clock_period, if_pos hw]
  | succ n hn ih =>
    rw [runAt_succ, clock_period, if_neg (hquiet n hn (Nat.lt_succ_self n)).1]
    exact ih fun e he hen => hquiet e he (Nat.lt_succ_of_lt hen)

/-- One clock of an undisturbed deadline. -/
lemma next_succ_of_undisturbed (hn : t₀ < n) (hquiet : Undisturbed inp t₀ (n + 1) k)
    (hfree : DecidesAt inp t₀ k → (inp (t₀ + 1)).1.WritesTo k) :
    (runAt inp (n + 1)).next k = (runAt inp n).next k := by
  obtain ⟨hnw, hnd⟩ := hquiet n hn (Nat.lt_succ_self n)
  rw [runAt_succ]
  apply clock_next_of_quiet hnw
  obtain ⟨d, rfl⟩ : ∃ d, n = d + 1 := ⟨n - 1, by omega⟩
  rw [pulseOf_succ_iff_decidesAt]
  intro hdec
  rcases Nat.eq_or_lt_of_le (Nat.le_of_lt_succ hn) with rfl | hlt
  · exact hnw (hfree hdec)
  · exact hnd d hlt rfl hdec

lemma next_of_undisturbed (hw : (inp t₀).1.WritesTo k) (hrace : ¬ Overridden inp t₀ k)
    (hfree : DecidesAt inp t₀ k → (inp (t₀ + 1)).1.WritesTo k) (hn : t₀ < n)
    (hquiet : Undisturbed inp t₀ n k) : (runAt inp n).next k = firstDue inp t₀ := by
  induction n, hn using Nat.le_induction with
  | base => exact next_succ_write hw hrace
  | succ n hn ih =>
    rw [next_succ_of_undisturbed hn hquiet hfree]
    exact ih fun e he hen => hquiet e he (Nat.lt_succ_of_lt hen)

/-- A visit of the slot is a dispatch exactly from its deadline on. -/
lemma decidesAt_iff_of_next (hscan : (runAt inp n).scan = k) (hk : k ≠ 0)
    (hper : (runAt inp n).period k ≠ 0) {d : BitVec 32} (hnext : (runAt inp n).next k = d) :
    DecidesAt inp n k ↔ d ≤ BitVec.ofNat 32 (inp n).2 := by
  rw [DecidesAt, hit_iff, hscan, hnext, BitVec.le_def]
  exact ⟨fun h => h.1.2.2, fun h => ⟨⟨hk, hper, h⟩, rfl⟩⟩

/-- A dispatch decided as the slot is written adds a period to the new deadline. -/
lemma next_of_decidesAt_write (hw : (inp t₀).1.WritesTo k) (hdec : DecidesAt inp t₀ k)
    (hnw : ¬ (inp (t₀ + 1)).1.WritesTo k) :
    (runAt inp (t₀ + 2)).next k = (runAt inp (t₀ + 1)).next k + (inp t₀).1.periodTicks := by
  have hpulse : (runAt inp (t₀ + 1)).PulseOf k := pulseOf_succ_iff_decidesAt.mpr hdec
  rw [runAt_succ, clock_next_of_ack hpulse hnw]
  congr 1
  rw [runAt_succ, clock_period, if_pos hw]

end Run

/-- **Reconfiguration.** A write takes effect cleanly iff no dispatch of the slot is in flight: the
acknowledgement at its edge does not override it, and the slot is not being decided on, unless the
next edge writes it once more. -/
theorem takesEffect_iff (hw : (inp t₀).1.WritesTo k) (hp : (inp t₀).1.periodTicks ≠ 0) :
    TakesEffect inp t₀ k ↔
      ¬ Overridden inp t₀ k ∧ (DecidesAt inp t₀ k → (inp (t₀ + 1)).1.WritesTo k) := by
  have hfirst : Undisturbed inp t₀ (t₀ + 1) k := fun e he hen => by omega
  constructor
  · intro h
    have hnext := h.next_eq (t₀ + 1) (Nat.lt_succ_self t₀) hfirst
    refine ⟨?_, ?_⟩
    · rintro ⟨hack, hlast, hne⟩
      rw [runAt_succ, clock_next_of_both hw hack, if_pos hlast] at hnext
      exact hne hnext
    · intro hdec
      by_contra hnw
      have hsecond : Undisturbed inp t₀ (t₀ + 2) k := by
        intro e he hen
        obtain rfl : e = t₀ + 1 := by omega
        exact ⟨hnw, fun d hd hde => by omega⟩
      have hlate := h.next_eq (t₀ + 2) (by omega) hsecond
      rw [next_of_decidesAt_write hw hdec hnw, hnext] at hlate
      exact hp (add_eq_left.mp hlate)
  · rintro ⟨hrace, hfree⟩
    refine ⟨fun n hn hquiet => next_of_undisturbed hw hrace hfree hn hquiet, ?_⟩
    intro n hn hquiet hscan hk
    apply decidesAt_iff_of_next hscan hk
    · rw [period_of_undisturbed hw hn hquiet]
      exact hp
    · exact next_of_undisturbed hw hrace hfree hn hquiet

/-- Slot 1 is given a period of one tick at clock 0 and one of 10 ticks at clock 1, which is when
the scan finds it due. -/
def rewritten (n : ℕ) : Cfg 4 × ℕ := ⟨⟨n == 0 || n == 1, 1, if n = 0 then 1 else 10, true⟩, n⟩

/-- The first of the two writes, which nothing disturbs. -/
theorem takesEffect_iff_rewritten : TakesEffect rewritten 0 1 :=
  (takesEffect_iff rewritten ⟨rfl, rfl⟩ (by decide)).mpr
    ⟨fun h => absurd h.1 (by decide), fun _ => ⟨rfl, rfl⟩⟩

/-- The second write asks for deadline 11, and the old dispatch makes it 21. -/
theorem rewrite_delayed :
    ¬ ∀ (inp : ℕ → Cfg 4 × ℕ) (t₀ : ℕ) (k : BitVec 4), (inp t₀).1.WritesTo k →
      (inp t₀).1.periodTicks ≠ 0 → TakesEffect inp t₀ k := by
  intro h
  have heffect := h rewritten 1 1 ⟨rfl, rfl⟩ (by decide)
  have hquiet : Undisturbed rewritten 1 3 1 := by
    intro e he hen
    obtain rfl : e = 2 := by omega
    exact ⟨by decide, fun d hd hde => by omega⟩
  have hnext := heffect.next_eq 3 (by decide) hquiet
  exact absurd hnext (by decide)

end TxScheduler

end BusTestPlatform

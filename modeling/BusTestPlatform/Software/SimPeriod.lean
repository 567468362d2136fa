import BusTestPlatform.Lib.StepPolynomial
import BusTestPlatform.Software.SimPrng

/-!
# The period of the payload generator

The generator of `read_frames` goes through all words but 0 before it comes back to one. So all
seeds lead around the same circle, and where a device is on it is the number of payload bytes that
it has sent, up to whole turns.
-/

namespace BusTestPlatform

namespace SimUsbDevice

/-- The number of words but 0. -/
def period : ℕ := 2 ^ 64 - 1

/-- A polynomial that the step of the generator satisfies. -/
def annihilator : ℕ := 0x1013ed4a358913201

/-- The primes of the period, each with the inverse of 1 plus the power that leaves it out. -/
def primeInverses : List (ℕ × ℕ) :=
  [(3, 0xd742ca58f5d785e2), (5, 0xa3f64d1fb612f669), (17, 0x63f43995a1b49645),
   (257, 0x7d573a75b5260c4d), (641, 0x1ead61508d13286), (65537, 0xed7248a2317d33b1),
   (6700417, 0x483b08aa5d3741b5)]

lemma period_pos : 0 < period := by decide

lemma annihilator_twoPow : ∀ i < 64, StepPolynomial.eval (XorShift.next 13 7 17) annihilator
    (BitVec.twoPow 64 i) = 0#64 := by
  decide +kernel

lemma powX_period : StepPolynomial.powX (2 ^ 64) annihilator 64 period = 1 := by
  decide +kernel

lemma mul_primeInverses : ∀ e ∈ primeInverses, StepPolynomial.mul (2 ^ 64) annihilator
    (StepPolynomial.powX (2 ^ 64) annihilator 64 (period / e.1) ^^^ 1) e.2 = 1 := by
  decide +kernel

lemma annihilates (x : BitVec 64) :
    StepPolynomial.eval (XorShift.next 13 7 17) annihilator x = 0#64 :=
  (StepPolynomial.eval_linear XorShift.next_linear annihilator).eq_of_twoPow XorShift.linear_zero
    annihilator_twoPow x

lemma mem_primeInverses {p : ℕ} (hp : p.Prime) (hdvd : p ∣ period) :
    p ∈ primeInverses.map Prod.fst := by
  have hfactors : period = 3 * 5 * 17 * 257 * 641 * 65537 * 6700417 := by decide
  have heq : ∀ r, r.Prime → p ∣ r → p = r := fun r hr => (Nat.prime_dvd_prime_iff_eq hp hr).mp
  simp only [hfactors, hp.dvd_mul] at hdvd
  rcases hdvd with (((((h | h) | h) | h) | h) | h) | h
  · simp [primeInverses, heq 3 (by norm_num) h]
  · simp [primeInverses, heq 5 (by norm_num) h]
  · simp [primeInverses, heq 17 (by norm_num) h]
  · simp [primeInverses, heq 257 (by norm_num) h]
  · simp [primeInverses, heq 641 (by norm_num) h]
  · simp [primeInverses, heq 65537 (by norm_num) h]
  · simp [primeInverses, heq 6700417 (by norm_num) h]

/-- The generator comes back after `2 ^ 64 - 1` steps, and not before. -/
lemma minimalPeriod_xorshift {x : UInt64} (hx : x ≠ 0) :
    Function.minimalPeriod xorshift x = period := by
  have hne : x.toBitVec ≠ 0#64 := fun h => hx (UInt64.toBitVec_inj.mp h)
  rw [← StepPolynomial.minimalPeriod_eq (f := XorShift.next 13 7 17) (k := 64) XorShift.next_linear
    annihilates (by decide) powX_period (fun p hp hdvd => ?_) hne]
  · apply Function.minimalPeriod_eq_minimalPeriod_iff.mpr
    intro n
    rw [Function.IsPeriodicPt, Function.IsPeriodicPt, Function.IsFixedPt, Function.IsFixedPt,
      ← UInt64.toBitVec_inj, toBitVec_iterate_xorshift]
  · obtain ⟨⟨_, q⟩, hq, rfl⟩ := List.mem_map.mp (mem_primeInverses hp hdvd)
    exact ⟨q, mul_primeInverses _ hq⟩

lemma iterate_xorshift_inj {x : UInt64} (hx : x ≠ 0) (m n : ℕ) :
    xorshift^[m] x = xorshift^[n] x ↔ m ≡ n [MOD period] := by
  rw [← Function.iterate_mod_minimalPeriod_eq, ← Function.iterate_mod_minimalPeriod_eq (n := n),
    minimalPeriod_xorshift hx, Nat.ModEq]
  apply Function.iterate_eq_iterate_iff_of_lt_minimalPeriod <;> rw [minimalPeriod_xorshift hx]
  · exact Nat.mod_lt m period_pos
  · exact Nat.mod_lt n period_pos

lemma prngState_of_calls {cfg : SimConfig} {cs : List Call} {fs : List BusFrame}
    {d : SimUsbDevice} (hrun : (new cfg).calls cs = some (fs, d)) :
    d.prngState = xorshift^[payloadBytes fs] cfg.start :=
  (calls_spec hrun).2

/-- The generator is where it started after whole turns around the circle. -/
lemma prngState_eq_start_iff {cfg : SimConfig} {cs : List Call} {fs : List BusFrame}
    {d : SimUsbDevice} (hrun : (new cfg).calls cs = some (fs, d)) :
    d.prngState = cfg.start ↔ period ∣ payloadBytes fs := by
  rw [prngState_of_calls hrun, ← Nat.modEq_zero_iff_dvd]
  exact iterate_xorshift_inj (start_ne_zero cfg) _ 0

/-- The words that the generator comes to are all but 0. -/
lemma image_iterate_xorshift {x : UInt64} (hx : x ≠ 0) :
    (Finset.range period).image (fun n => xorshift^[n] x) = Finset.univ.erase 0 := by
  apply Finset.eq_of_subset_of_card_le
  · intro y hy
    obtain ⟨n, -, rfl⟩ := Finset.mem_image.mp hy
    exact Finset.mem_erase.mpr ⟨iterate_xorshift_ne_zero hx n, Finset.mem_univ _⟩
  · rw [Finset.card_erase_of_mem (Finset.mem_univ 0), Finset.card_univ,
      ← FinEnum.card_eq_fintypeCard, FinEnum.card_UInt64, Finset.card_image_of_injOn,
      Finset.card_range, period]
    intro m hm n hn h
    have hmod := (iterate_xorshift_inj hx m n).mp h
    exact hmod.eq_of_lt_of_lt (Finset.mem_range.mp hm) (Finset.mem_range.mp hn)

/-- **Full period.** From every word but 0 the generator comes back after `2 ^ 64 - 1` steps and not
before, and on the way it comes to every other word but 0 exactly once. -/
theorem xorshift_cycle {x : UInt64} (hx : x ≠ 0) : Function.minimalPeriod xorshift x = period ∧
    ∀ y, y ≠ 0 → ∃! n, n < period ∧ xorshift^[n] x = y := by
  refine ⟨minimalPeriod_xorshift hx, fun y hy => ?_⟩
  have hmem : y ∈ (Finset.range period).image fun n => xorshift^[n] x := by
    rw [image_iterate_xorshift hx]
    exact Finset.mem_erase.mpr ⟨hy, Finset.mem_univ y⟩
  obtain ⟨n, hn, hxy⟩ := Finset.mem_image.mp hmem
  refine ⟨n, ⟨Finset.mem_range.mp hn, hxy⟩, fun m ⟨hm, hxm⟩ => ?_⟩
  have hmod := (iterate_xorshift_inj hx m n).mp (hxm.trans hxy.symm)
  exact hmod.eq_of_lt_of_lt hm (Finset.mem_range.mp hn)

/-- The circle from 1 on. -/
theorem xorshift_cycle_one : Function.minimalPeriod xorshift 1 = period ∧
    ∀ y, y ≠ 0 → ∃! n, n < period ∧ xorshift^[n] 1 = y :=
  xorshift_cycle (by decide)

/-- **Payload position.** Whatever has been called on two devices with one seed, their generators
are in the same state exactly if they have sent the same number of payload bytes up to whole
periods. -/
theorem prngState_eq_iff {cfg cfg' : SimConfig} (hseed : cfg.start = cfg'.start)
    {cs cs' : List Call} {fs fs' : List BusFrame} {d d' : SimUsbDevice}
    (hrun : (new cfg).calls cs = some (fs, d)) (hrun' : (new cfg').calls cs' = some (fs', d')) :
    d.prngState = d'.prngState ↔ payloadBytes fs ≡ payloadBytes fs' [MOD period] := by
  rw [prngState_of_calls hrun, prngState_of_calls hrun', ← hseed]
  exact iterate_xorshift_inj (start_ne_zero cfg) _ _

/-- A device that has sent one frame, and a new one. -/
theorem prngState_eq_iff_oneFrame : ∃ fs d,
    (new sampleConfig).calls [.open 0, .readFrames false 1 1000000000 1000000000] = some (fs, d) ∧
      payloadBytes fs = 2 ∧ d.prngState ≠ (new sampleConfig).prngState := by
  refine ⟨_, _, rfl, rfl, fun h => ?_⟩
  have hmod := (prngState_eq_iff rfl
    (show (new sampleConfig).calls [.open 0, .readFrames false 1 1000000000 1000000000] = _
      from rfl)
    (show (new sampleConfig).calls [] = some ([], new sampleConfig) from rfl)).mp h
  exact absurd hmod (show ¬ 2 ≡ 0 [MOD period] by decide)

end SimUsbDevice

end BusTestPlatform

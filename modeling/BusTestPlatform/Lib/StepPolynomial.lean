import BusTestPlatform.Lib.XorShift

/-!
# Polynomials in a linear step

A polynomial over the field of two elements is the number whose bits are its coefficients. Put in
for the variable, a linear step of words makes a linear map of it, and a multiple of a polynomial
that the step satisfies makes 0. So powers of the step are computed as remainders, and they tell
after how many steps the words come back.
-/

namespace StepPolynomial

open XorShift

variable {w : ℕ} {f : BitVec w → BitVec w}

/-- The first `n` coefficients of `a`, with `f` put in. -/
def evalBits (f : BitVec w → BitVec w) : ℕ → ℕ → BitVec w → BitVec w
  | 0, _, _ => 0#w
  | n + 1, a, x => (if a % 2 = 1 then x else 0#w) ^^^ evalBits f n (a / 2) (f x)

/-- The polynomial `a` with `f` put in. -/
def eval (f : BitVec w → BitVec w) (a : ℕ) (x : BitVec w) : BitVec w := evalBits f (a.log2 + 1) a x

/-! ### Evaluation -/

lemma evalBits_zero (n : ℕ) (x : BitVec w) : evalBits f n 0 x = 0#w := by
  induction n generalizing x with
  | zero => rfl
  | succ n ih => simp [evalBits, ih]

lemma evalBits_add {n a : ℕ} (h : a < 2 ^ n) (k : ℕ) (x : BitVec w) :
    evalBits f (n + k) a x = evalBits f n a x := by
  induction n generalizing a x with
  | zero =>
    obtain rfl : a = 0 := by simpa using h
    exact evalBits_zero _ x
  | succ n ih =>
    rw [Nat.add_right_comm, evalBits, evalBits, ih (by omega)]

lemma evalBits_eq_eval {n a : ℕ} (h : a < 2 ^ n) (x : BitVec w) :
    evalBits f n a x = eval f a x := by
  have hlog : a < 2 ^ (a.log2 + 1) := Nat.lt_log2_self
  rw [eval, ← evalBits_add h (a.log2 + 1), Nat.add_comm, evalBits_add hlog]

lemma evalBits_xor (n a b : ℕ) (x : BitVec w) :
    evalBits f n (a ^^^ b) x = evalBits f n a x ^^^ evalBits f n b x := by
  induction n generalizing a b x with
  | zero => exact BitVec.xor_self.symm
  | succ n ih =>
    have hbit : (a ^^^ b) % 2 = (a + b) % 2 := Nat.xor_mod_two_eq
    have hcoeff : (if (a ^^^ b) % 2 = 1 then x else 0#w) =
        (if a % 2 = 1 then x else 0#w) ^^^ (if b % 2 = 1 then x else 0#w) := by
      rw [hbit]
      rcases Nat.mod_two_eq_zero_or_one a with ha | ha <;>
        rcases Nat.mod_two_eq_zero_or_one b with hb | hb <;> simp [Nat.add_mod, ha, hb]
    rw [evalBits, evalBits, evalBits, Nat.xor_div_two, ih, hcoeff]
    ac_rfl

@[simp] lemma eval_zero (x : BitVec w) : eval f 0 x = 0#w := evalBits_zero _ x

@[simp] lemma eval_one (x : BitVec w) : eval f 1 x = x := by
  simp [eval, evalBits, show Nat.log2 1 = 0 by decide]

lemma eval_xor (a b : ℕ) (x : BitVec w) : eval f (a ^^^ b) x = eval f a x ^^^ eval f b x := by
  obtain ⟨n, ha, hb⟩ : ∃ n, a < 2 ^ n ∧ b < 2 ^ n :=
    ⟨max a b, Nat.lt_two_pow_self.trans_le (Nat.pow_le_pow_right (by decide) (Nat.le_max_left ..)),
      Nat.lt_two_pow_self.trans_le (Nat.pow_le_pow_right (by decide) (Nat.le_max_right ..))⟩
  rw [← evalBits_eq_eval ha, ← evalBits_eq_eval hb, ← evalBits_eq_eval (Nat.xor_lt_two_pow ha hb),
    evalBits_xor]

/-- Multiplication by the variable. -/
lemma eval_two_mul (a : ℕ) (x : BitVec w) : eval f (2 * a) x = eval f a (f x) := by
  have ha : a < 2 ^ a := Nat.lt_two_pow_self
  have hdouble : 2 * a < 2 ^ (a + 1) := by omega
  rw [← evalBits_eq_eval hdouble, ← evalBits_eq_eval ha, evalBits, Nat.mul_mod_right,
    Nat.mul_div_cancel_left a (by decide)]
  simp

/-- The coefficient of the constant and the rest. -/
lemma eval_div_two (a : ℕ) (x : BitVec w) :
    eval f a x = (if a % 2 = 1 then x else 0#w) ^^^ eval f (a / 2) (f x) := by
  have ha : a < 2 ^ (a + 1) := Nat.lt_two_pow_self.trans (Nat.pow_lt_pow_succ (by decide))
  rw [← evalBits_eq_eval ha, evalBits, evalBits_eq_eval (by omega)]

lemma eval_linear (hf : Linear f) (a : ℕ) : Linear (eval f a) := by
  induction a using Nat.strong_induction_on with
  | _ a ih =>
    intro x y
    rcases Nat.eq_zero_or_pos a with rfl | hpos
    · simp
    · have hrest := ih _ (Nat.div_lt_self hpos one_lt_two) (f x) (f y)
      rw [eval_div_two, eval_div_two a x, eval_div_two a y, hf, hrest]
      split_ifs
      · ac_rfl
      · simp

/-- Polynomials of a step commute with it. -/
lemma eval_step (hf : Linear f) (a : ℕ) (x : BitVec w) : eval f a (f x) = f (eval f a x) := by
  induction a using Nat.strong_induction_on generalizing x with
  | _ a ih =>
    rcases Nat.eq_zero_or_pos a with rfl | hpos
    · rw [eval_zero, eval_zero, hf.zero]
    · rw [eval_div_two, eval_div_two a x, ih _ (Nat.div_lt_self hpos one_lt_two), hf]
      split_ifs
      · rfl
      · rw [hf.zero]

/-! ### Remainders -/

/-- Multiply by the variable, and take `m` away from what reaches `top`. -/
def mulX (top m a : ℕ) : ℕ := if top ≤ 2 * a then 2 * a ^^^ m else 2 * a

/-- Add `a` times the first `n` coefficients of `b` to `acc`. -/
def mulAdd (top m : ℕ) : ℕ → ℕ → ℕ → ℕ → ℕ
  | 0, _, _, acc => acc
  | n + 1, a, b, acc =>
    mulAdd top m n (mulX top m a) (b / 2) (if b % 2 = 1 then acc ^^^ a else acc)

/-- The product of `a` and `b`. -/
def mul (top m a b : ℕ) : ℕ := mulAdd top m (b.log2 + 1) a b 0

/-- The `n`-th power of the variable, by squaring, for `n` of at most `k` bits. -/
def powX (top m : ℕ) : ℕ → ℕ → ℕ
  | 0, _ => 1
  | k + 1, n =>
    let s := powX top m k (n / 2)
    if n % 2 = 1 then mulX top m (mul top m s s) else mul top m s s

section Remainders

variable {top m : ℕ} (hf : Linear f) (hm : ∀ x, eval f m x = 0#w)

include hm in
lemma eval_mulX (a : ℕ) (x : BitVec w) : eval f (mulX top m a) x = eval f a (f x) := by
  rw [mulX]
  split_ifs
  · rw [eval_xor, eval_two_mul, hm, BitVec.xor_zero]
  · exact eval_two_mul a x

include hf hm in
lemma eval_mulAdd (n a b acc : ℕ) (x : BitVec w) : eval f (mulAdd top m n a b acc) x =
    eval f acc x ^^^ evalBits f n b (eval f a x) := by
  induction n generalizing a b acc with
  | zero => rw [mulAdd, evalBits, BitVec.xor_zero]
  | succ n ih =>
    rw [mulAdd, ih, eval_mulX hm, eval_step hf, evalBits]
    split_ifs
    · rw [eval_xor, BitVec.xor_assoc]
    · rw [BitVec.zero_xor]

include hf hm in
lemma eval_mul (a b : ℕ) (x : BitVec w) : eval f (mul top m a b) x = eval f b (eval f a x) := by
  rw [mul, eval_mulAdd hf hm, eval_zero, BitVec.zero_xor]
  rfl

include hf hm in
/-- Powers of the variable are powers of the step. -/
lemma eval_powX {k n : ℕ} (hn : n < 2 ^ k) (x : BitVec w) :
    eval f (powX top m k n) x = f^[n] x := by
  induction k generalizing n x with
  | zero =>
    obtain rfl : n = 0 := by simpa using hn
    exact eval_one x
  | succ k ih =>
    have hhalf : n / 2 < 2 ^ k := by omega
    have hsquare : ∀ y, eval f (mul top m (powX top m k (n / 2)) (powX top m k (n / 2))) y =
        f^[2 * (n / 2)] y := by
      intro y
      rw [eval_mul hf hm, ih hhalf, ih hhalf, ← Function.iterate_add_apply, Nat.two_mul]
    rw [powX]
    split_ifs with hodd
    · rw [eval_mulX hm, hsquare, ← Function.iterate_succ_apply]
      congr 2
      omega
    · rw [hsquare]
      congr 2
      omega

end Remainders

/-! ### Periods -/

/-- A period that no prime can be taken out of is the least one. -/
lemma minimalPeriod_eq_of_prime {α : Type*} {g : α → α} {x : α} {N : ℕ}
    (hN : Function.IsPeriodicPt g N x)
    (hprime : ∀ p, p.Prime → p ∣ N → ¬ Function.IsPeriodicPt g (N / p) x) :
    Function.minimalPeriod g x = N := by
  obtain ⟨c, hc⟩ := hN.minimalPeriod_dvd
  by_contra hne
  have hc_ne : c ≠ 1 := by
    rintro rfl
    exact hne (hc.trans (Nat.mul_one _)).symm
  obtain ⟨p, hp, e, rfl⟩ := Nat.exists_prime_and_dvd hc_ne
  refine hprime p hp ⟨Function.minimalPeriod g x * e, by rw [hc]; ring⟩ ?_
  have hquot : N / p = Function.minimalPeriod g x * e := by
    rw [hc, Nat.mul_left_comm]
    exact Nat.mul_div_cancel_left _ hp.pos
  rw [hquot]
  exact (Function.isPeriodicPt_minimalPeriod g x).mul_const e

variable {top m : ℕ}

/-- The step has the same period `N` at every word but 0, if the `N`-th power of the variable leaves
1, and 1 plus the power for every `N / p` can be inverted. -/
theorem minimalPeriod_eq (hf : Linear f) (hm : ∀ x, eval f m x = 0#w) {k N : ℕ}
    (hk : N < 2 ^ k) (hone : powX top m k N = 1)
    (hprime : ∀ p, p.Prime → p ∣ N → ∃ q, mul top m (powX top m k (N / p) ^^^ 1) q = 1)
    {x : BitVec w} (hx : x ≠ 0#w) : Function.minimalPeriod f x = N := by
  apply minimalPeriod_eq_of_prime
  · rw [Function.IsPeriodicPt, Function.IsFixedPt, ← eval_powX hf hm hk, hone, eval_one]
  · intro p hp hdvd hperiod
    obtain ⟨q, hq⟩ := hprime p hp hdvd
    have hlt : N / p < 2 ^ k := (Nat.div_le_self N p).trans_lt hk
    have hroot : eval f (powX top m k (N / p) ^^^ 1) x = 0#w := by
      rw [eval_xor, eval_powX hf hm hlt, eval_one, hperiod.eq, BitVec.xor_self]
    apply hx
    calc x = eval f (mul top m (powX top m k (N / p) ^^^ 1) q) x := by rw [hq, eval_one]
      _ = eval f q 0#w := by rw [eval_mul hf hm, hroot]
      _ = 0#w := (eval_linear hf q).zero

end StepPolynomial

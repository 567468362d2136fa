import Mathlib

/-!
# Xorshift generators

A step of the generator xors the state with shifts of itself. That is linear over the bits, and
nothing but 0 is equal to a shift of itself, so a step loses nothing. A linear machine can be read
off its outputs if there are enough of them: `decode` puts the state together from them again.
-/

namespace XorShift

variable {u v w : ℕ}

/-! ### Linear maps of words -/

/-- A map of words that respects xor. -/
def Linear (f : BitVec v → BitVec w) : Prop := ∀ x y, f (x ^^^ y) = f x ^^^ f y

lemma Linear.zero {f : BitVec v → BitVec w} (hf : Linear f) : f 0#v = 0#w := by
  have h := hf 0#v 0#v
  rwa [BitVec.xor_self, BitVec.xor_self] at h

lemma linear_id : Linear (id : BitVec w → BitVec w) := fun _ _ => rfl

lemma linear_zero : Linear (fun _ : BitVec v => 0#w) := fun _ _ => BitVec.xor_self.symm

lemma Linear.comp {g : BitVec v → BitVec w} {f : BitVec u → BitVec v} (hg : Linear g)
    (hf : Linear f) : Linear (g ∘ f) := fun x y => by
  rw [Function.comp_apply, hf, hg]
  rfl

lemma Linear.xor {f g : BitVec v → BitVec w} (hf : Linear f) (hg : Linear g) :
    Linear (fun x => f x ^^^ g x) := fun x y => by
  change f (x ^^^ y) ^^^ g (x ^^^ y) = (f x ^^^ g x) ^^^ (f y ^^^ g y)
  rw [hf, hg]
  ac_rfl

lemma linear_shiftLeft (k : ℕ) : Linear (fun x : BitVec w => x <<< k) :=
  fun x y => BitVec.shiftLeft_xor_distrib x y k

lemma linear_ushiftRight (k : ℕ) : Linear (fun x : BitVec w => x >>> k) :=
  fun x y => BitVec.ushiftRight_xor_distrib x y k

lemma Linear.injective {f : BitVec v → BitVec w} (hf : Linear f) (h : ∀ x, f x = 0#w → x = 0#v) :
    Function.Injective f := by
  intro x y hxy
  rw [← BitVec.xor_eq_zero_iff]
  apply h
  rw [hf, BitVec.xor_eq_zero_iff]
  exact hxy

/-- Linear maps that agree on the single bits agree. -/
lemma Linear.eq_of_twoPow {f g : BitVec v → BitVec w} (hf : Linear f) (hg : Linear g)
    (h : ∀ i < v, f (BitVec.twoPow v i) = g (BitVec.twoPow v i)) (x : BitVec v) : f x = g x := by
  suffices hlow : ∀ n ≤ v, ∀ x : BitVec v, (∀ i, n ≤ i → x.getLsbD i = false) → f x = g x from
    hlow v le_rfl x fun i hi => BitVec.getLsbD_of_ge x i hi
  intro n hn
  induction n with
  | zero =>
    intro x hx
    obtain rfl : x = 0#v := by
      apply BitVec.eq_of_getLsbD_eq
      intro i _
      rw [hx i (Nat.zero_le i), BitVec.getLsbD_zero]
    rw [hf.zero, hg.zero]
  | succ n ih =>
    intro x hx
    cases hbit : x.getLsbD n with
    | false =>
      apply ih (Nat.le_of_succ_le hn)
      intro i hi
      rcases Nat.eq_or_lt_of_le hi with rfl | hlt
      · exact hbit
      · exact hx i hlt
    | true =>
      -- without its top bit
      have hrest : f (x ^^^ BitVec.twoPow v n) = g (x ^^^ BitVec.twoPow v n) := by
        apply ih (Nat.le_of_succ_le hn)
        intro i hi
        rw [BitVec.getLsbD_xor, BitVec.getLsbD_twoPow]
        rcases Nat.eq_or_lt_of_le hi with rfl | hlt
        · simp [hbit, show n < v from hn]
        · simp [hx i hlt, show n ≠ i by omega]
      rw [hf, hg, h n hn] at hrest
      exact (BitVec.xor_left_inj _).mp hrest

/-! ### Shifts -/

lemma eq_zero_of_eq_shiftLeft {x : BitVec w} {k : ℕ} (hk : 0 < k) (h : x = x <<< k) : x = 0#w := by
  have hiter : ∀ j, x = x <<< (j * k) := by
    intro j
    induction j with
    | zero => rw [Nat.zero_mul, BitVec.shiftLeft_zero]
    | succ j ih => rw [Nat.succ_mul, BitVec.shiftLeft_add, ← ih, ← h]
  rw [hiter w]
  exact BitVec.shiftLeft_eq_zero (Nat.le_mul_of_pos_right w hk)

lemma eq_zero_of_eq_ushiftRight {x : BitVec w} {k : ℕ} (hk : 0 < k) (h : x = x >>> k) :
    x = 0#w := by
  have hiter : ∀ j, x = x >>> (j * k) := by
    intro j
    induction j with
    | zero => rw [Nat.zero_mul, BitVec.ushiftRight_zero]
    | succ j ih => rw [Nat.succ_mul, BitVec.shiftRight_add, ← ih, ← h]
  rw [hiter w]
  exact BitVec.ushiftRight_eq_zero (Nat.le_mul_of_pos_right w hk)

/-- `x ^= x << k`. -/
def left (k : ℕ) (x : BitVec w) : BitVec w := x ^^^ (x <<< k)

/-- `x ^= x >> k`. -/
def right (k : ℕ) (x : BitVec w) : BitVec w := x ^^^ (x >>> k)

lemma left_linear (k : ℕ) : Linear (left k : BitVec w → BitVec w) :=
  linear_id.xor (linear_shiftLeft k)

lemma right_linear (k : ℕ) : Linear (right k : BitVec w → BitVec w) :=
  linear_id.xor (linear_ushiftRight k)

lemma left_injective {k : ℕ} (hk : 0 < k) : Function.Injective (left k : BitVec w → BitVec w) :=
  (left_linear k).injective fun _ h => eq_zero_of_eq_shiftLeft hk (BitVec.xor_eq_zero_iff.mp h)

lemma right_injective {k : ℕ} (hk : 0 < k) : Function.Injective (right k : BitVec w → BitVec w) :=
  (right_linear k).injective fun _ h => eq_zero_of_eq_ushiftRight hk (BitVec.xor_eq_zero_iff.mp h)

/-- A step of the generator. -/
def next (a b c : ℕ) : BitVec w → BitVec w := left c ∘ right b ∘ left a

variable {a b c : ℕ}

lemma next_linear : Linear (next a b c : BitVec w → BitVec w) :=
  (left_linear c).comp ((right_linear b).comp (left_linear a))

lemma next_injective (ha : 0 < a) (hb : 0 < b) (hc : 0 < c) :
    Function.Injective (next a b c : BitVec w → BitVec w) :=
  (left_injective hc).comp ((right_injective hb).comp (left_injective ha))

/-! ### Reading the state off the outputs -/

/-- The xor of the columns that the bits of `y` select, from bit `i` on. -/
def combine (y : BitVec v) : List (BitVec w) → ℕ → BitVec w
  | [], _ => 0#w
  | c :: cs, i => (if y.getLsbD i then c else 0#w) ^^^ combine y cs (i + 1)

lemma combine_linear (cs : List (BitVec w)) (i : ℕ) :
    Linear (fun y : BitVec v => combine y cs i) := by
  induction cs generalizing i with
  | nil => exact linear_zero
  | cons c cs ih =>
    refine Linear.xor (fun x y => ?_) (ih (i + 1))
    rw [BitVec.getLsbD_xor]
    cases x.getLsbD i <;> cases y.getLsbD i <;> simp

/-- The columns applied to the outputs of `x`, `f x`, `f (f x)`, ... -/
def decode (f : BitVec w → BitVec w) (out : BitVec w → BitVec v) :
    List (List (BitVec w)) → BitVec w → BitVec w
  | [], _ => 0#w
  | cs :: css, x => combine (out x) cs 0 ^^^ decode f out css (f x)

variable {f : BitVec w → BitVec w} {out : BitVec w → BitVec v}

lemma decode_linear (hf : Linear f) (hout : Linear out) (css : List (List (BitVec w))) :
    Linear (decode f out css) := by
  induction css with
  | nil => exact linear_zero
  | cons cs css ih => exact ((combine_linear cs 0).comp hout).xor (ih.comp hf)

lemma decode_congr {css : List (List (BitVec w))} {x y : BitVec w}
    (h : ∀ j < css.length, out (f^[j] x) = out (f^[j] y)) :
    decode f out css x = decode f out css y := by
  induction css generalizing x y with
  | nil => rfl
  | cons cs css ih =>
    have hfirst : out x = out y := h 0 (Nat.succ_pos _)
    rw [decode, decode, hfirst, ih fun j hj => h (j + 1) (Nat.succ_lt_succ hj)]

/-- Where the columns decode the single bits, equal outputs come from equal states. -/
theorem eq_of_outputs_eq (hf : Linear f) (hout : Linear out) {css : List (List (BitVec w))}
    (hcss : ∀ i < w, decode f out css (BitVec.twoPow w i) = BitVec.twoPow w i) {x y : BitVec w}
    (h : ∀ j < css.length, out (f^[j] x) = out (f^[j] y)) : x = y := by
  have hdecode := (decode_linear hf hout css).eq_of_twoPow linear_id hcss
  calc x = decode f out css x := (hdecode x).symm
    _ = decode f out css y := decode_congr h
    _ = y := hdecode y

end XorShift

import Mathlib

/-!
# Atomic counters with stale reads

An atomic word together with the values it has held, in modification order. A thread other than
the writer may read any value not older than the one it read last; the writer reads the newest.
-/

/-- A word of `w` bits and its modification order. -/
structure Atomic (w : ℕ) where
  /-- The number of the current value, 0 for the initial one. -/
  last : ℕ
  val : ℕ → BitVec w

namespace Atomic

variable {w : ℕ}

/-- A word that has held 0 only. -/
def zero (w : ℕ) : Atomic w where
  last := 0
  val _ := 0

/-- The newest value. -/
def current (a : Atomic w) : BitVec w := a.val a.last

def store (a : Atomic w) (v : BitVec w) : Atomic w where
  last := a.last + 1
  val := Function.update a.val (a.last + 1) v

@[simp] lemma current_store (a : Atomic w) (v : BitVec w) : (a.store v).current = v :=
  Function.update_self ..

/-- A thread that has read value number `seen` may now read value number `p`. -/
def Readable (a : Atomic w) (seen p : ℕ) : Prop := seen ≤ p ∧ p ≤ a.last

/-- The word has counted from 0 to `n`. -/
structure Counts (a : Atomic w) (n : ℕ) : Prop where
  last_eq : a.last = n
  val_eq : ∀ p ≤ n, a.val p = BitVec.ofNat w p

lemma counts_zero : (zero w).Counts 0 := by
  refine ⟨rfl, fun p hp => ?_⟩
  obtain rfl : p = 0 := Nat.le_zero.mp hp
  rfl

lemma Counts.current_eq {a : Atomic w} {n : ℕ} (h : a.Counts n) :
    a.current = BitVec.ofNat w n := by
  rw [current, h.last_eq]
  exact h.val_eq n le_rfl

lemma Counts.store {a : Atomic w} {n : ℕ} (h : a.Counts n) :
    (a.store (BitVec.ofNat w (n + 1))).Counts (n + 1) := by
  refine ⟨congrArg (· + 1) h.last_eq, fun p hp => ?_⟩
  rcases Nat.eq_or_lt_of_le hp with rfl | hlt
  · rw [Atomic.store, h.last_eq]
    exact Function.update_self ..
  · rw [Atomic.store, h.last_eq]
    exact (Function.update_of_ne hlt.ne ..).trans (h.val_eq p (Nat.le_of_lt_succ hlt))

lemma Counts.readable {a : Atomic w} {n seen p : ℕ} (h : a.Counts n) (hp : a.Readable seen p) :
    seen ≤ p ∧ p ≤ n ∧ a.val p = BitVec.ofNat w p := by
  obtain ⟨hseen, hlast⟩ := hp
  rw [h.last_eq] at hlast
  exact ⟨hseen, hlast, h.val_eq p hlast⟩

end Atomic

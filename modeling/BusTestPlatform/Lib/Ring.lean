import Mathlib

/-!
# Rings of slots

The elements of a sequence, numbered from 0, are kept in the slots of a ring: number `j` in slot
`j % cap`. The ring holds those from number `lo` on.

What a ring is for is a queue of at most `cap` elements.
-/

namespace Ring

variable {α : Type*}

/-- The slots hold the elements of `xs` from number `lo` on. -/
def Holds (slots : ℕ → α) (cap lo : ℕ) (xs : List α) : Prop :=
  ∀ j (hj : j < xs.length), lo ≤ j → slots (j % cap) = xs[j]

/-- Numbers less than a round apart are in different slots. -/
lemma slot_ne {cap j t : ℕ} (hjt : j < t) (ht : t < j + cap) : j % cap ≠ t % cap := by
  intro h
  have hdvd : cap ∣ t - j := (Nat.modEq_iff_dvd' hjt.le).mp h
  exact absurd (Nat.le_of_dvd (Nat.sub_pos_of_lt hjt) hdvd) (by omega)

variable {slots : ℕ → α} {cap lo : ℕ} {xs : List α}

lemma holds_nil : Holds slots cap lo ([] : List α) := by
  intro j hj
  exact absurd hj (Nat.not_lt_zero j)

/-- The slot of the next number is free, as long as the ring is not full. -/
lemma Holds.write_next (h : Holds slots cap lo xs) (hfree : xs.length < lo + cap) (x : α) :
    Holds (Function.update slots (xs.length % cap) x) cap lo xs := by
  intro j hj hlo
  rw [Function.update_of_ne (slot_ne hj (by omega))]
  exact h j hj hlo

lemma Holds.append (h : Holds slots cap lo xs) {x : α} (hx : slots (xs.length % cap) = x) :
    Holds slots cap lo (xs ++ [x]) := by
  intro j hj hlo
  rw [List.length_append, List.length_singleton] at hj
  rcases Nat.eq_or_lt_of_le (Nat.le_of_lt_succ hj) with rfl | hlt
  · rw [hx, List.getElem_concat_length rfl]
  · rw [List.getElem_append_left hlt]
    exact h j hlt hlo

lemma Holds.mono {lo' : ℕ} (h : Holds slots cap lo xs) (hlo : lo ≤ lo') :
    Holds slots cap lo' xs :=
  fun j hj hj' => h j hj (hlo.trans hj')

end Ring

/-! ### Bounded queues -/

namespace BoundedQueue

variable {α : Type*}

/-- Another element at the end, refused exactly when there are `cap` of them. -/
def push (cap : ℕ) (q : List α) (x : α) : Bool × List α :=
  if q.length = cap then (false, q) else (true, q ++ [x])

/-- The oldest element, if there is one. -/
def pop : List α → Option α × List α
  | [] => (none, [])
  | x :: q => (some x, q)

/-- The elements not yet taken, when `n` of all that were put in are out. -/
lemma pop_drop_of_lt {xs : List α} {n : ℕ} (h : n < xs.length) :
    pop (xs.drop n) = (some xs[n], xs.drop (n + 1)) := by
  rw [List.drop_eq_getElem_cons h, pop]

lemma push_drop_of_lt {cap n : ℕ} {xs : List α} (hn : n ≤ xs.length) (h : xs.length < n + cap)
    (x : α) : push cap (xs.drop n) x = (true, (xs ++ [x]).drop n) := by
  rw [push, if_neg (by rw [List.length_drop]; omega), List.drop_append_of_le_length hn]

end BoundedQueue

import BusTestPlatform.Lib.Bytes

/-!
# Layout of C structs

A struct value is the list of its members, each with the alignment of its type and the bytes of its
value. Members are placed in order, each at the next multiple of its alignment, and the size of the
struct is rounded up to the largest alignment.
-/

namespace Layout

open Bytes

/-- A member of a struct value. -/
structure Member where
  align : ℕ
  bytes : List UInt8

/-- Round `n` up to a multiple of `a`. -/
def alignUp (n a : ℕ) : ℕ := (n + (a - 1)) / a * a

/-- Where the last member ends, when the first free offset is `pos`. -/
def endOf (pos : ℕ) : List Member → ℕ
  | [] => pos
  | x :: xs => endOf (alignUp pos x.align + x.bytes.length) xs

/-- The largest alignment of the members. -/
def maxAlign : List Member → ℕ
  | [] => 1
  | x :: xs => max x.align (maxAlign xs)

/-- `sizeof` the struct. -/
def sizeofStruct (xs : List Member) : ℕ := alignUp (endOf 0 xs) (maxAlign xs)

/-- The region holds the members at `base`, the first free offset being `pos`. -/
def HoldsFrom (m : Mem) (base pos : ℕ) : List Member → Prop
  | [] => True
  | x :: xs =>
    HasBytes m (base + alignUp pos x.align) x.bytes ∧
      HoldsFrom m base (alignUp pos x.align + x.bytes.length) xs

/-- The region holds the struct at `base`. Nothing is said of the padding. -/
def Holds (m : Mem) (base : ℕ) (xs : List Member) : Prop := HoldsFrom m base 0 xs

/-- Where the members are, the first free offset being `pos`. -/
def offsetsFrom (pos : ℕ) : List Member → List ℕ
  | [] => []
  | x :: xs => alignUp pos x.align :: offsetsFrom (alignUp pos x.align + x.bytes.length) xs

/-- `offsetof` each member. -/
def offsets (xs : List Member) : List ℕ := offsetsFrom 0 xs

/-- The bytes of the members from offset `pos` on, with padding bytes 0. -/
def imageFrom (pos : ℕ) : List Member → List UInt8
  | [] => []
  | x :: xs =>
    List.replicate (alignUp pos x.align - pos) 0 ++
      (x.bytes ++ imageFrom (alignUp pos x.align + x.bytes.length) xs)

/-- The bytes of a struct, with padding bytes 0. -/
def image (xs : List Member) : List UInt8 :=
  imageFrom 0 xs ++ List.replicate (sizeofStruct xs - endOf 0 xs) 0

/-! ### Sizes -/

lemma le_alignUp (n : ℕ) {a : ℕ} (ha : 0 < a) : n ≤ alignUp n a := by
  have := Nat.lt_div_mul_add ha (a := n + (a - 1))
  rw [alignUp]
  omega

lemma maxAlign_pos (xs : List Member) : 0 < maxAlign xs := by
  induction xs with
  | nil => exact Nat.one_pos
  | cons x xs ih => exact lt_max_of_lt_right ih

lemma le_endOf {xs : List Member} (hx : ∀ x ∈ xs, 0 < x.align) (pos : ℕ) : pos ≤ endOf pos xs := by
  induction xs generalizing pos with
  | nil => exact le_rfl
  | cons x xs ih =>
    have hpos := le_alignUp pos (hx x List.mem_cons_self)
    have hrest := ih (fun y hy => hx y (List.mem_cons_of_mem x hy))
      (alignUp pos x.align + x.bytes.length)
    rw [endOf]
    omega

lemma endOf_le_sizeofStruct (xs : List Member) : endOf 0 xs ≤ sizeofStruct xs :=
  le_alignUp _ (maxAlign_pos xs)

lemma length_imageFrom {xs : List Member} (hx : ∀ x ∈ xs, 0 < x.align) (pos : ℕ) :
    pos + (imageFrom pos xs).length = endOf pos xs := by
  induction xs generalizing pos with
  | nil => rfl
  | cons x xs ih =>
    have hpos := le_alignUp pos (hx x List.mem_cons_self)
    have hrest := ih (fun y hy => hx y (List.mem_cons_of_mem x hy))
      (alignUp pos x.align + x.bytes.length)
    rw [endOf, ← hrest, imageFrom, List.length_append, List.length_append, List.length_replicate]
    omega

lemma length_image {xs : List Member} (hx : ∀ x ∈ xs, 0 < x.align) :
    (image xs).length = sizeofStruct xs := by
  have hlen := length_imageFrom hx 0
  have hle := endOf_le_sizeofStruct xs
  rw [image, List.length_append, List.length_replicate]
  omega

/-! ### Holding a struct -/

/-- A struct depends on its own bytes only. -/
lemma HoldsFrom.transfer {m m' : Mem} {base base' n : ℕ} {xs : List Member}
    (hx : ∀ x ∈ xs, 0 < x.align) {pos : ℕ} (hn : endOf pos xs ≤ n)
    (hm : ∀ i < n, m' (base' + i) = m (base + i)) (h : HoldsFrom m base pos xs) :
    HoldsFrom m' base' pos xs := by
  induction xs generalizing pos with
  | nil => trivial
  | cons x xs ih =>
    obtain ⟨hhead, htail⟩ := h
    rw [endOf] at hn
    have htl : ∀ y ∈ xs, 0 < y.align := fun y hy => hx y (List.mem_cons_of_mem x hy)
    have hend := le_endOf htl (alignUp pos x.align + x.bytes.length)
    refine ⟨?_, ih htl hn htail⟩
    have hshift : ∀ k j, alignUp pos x.align ≤ k → k + j ≤ alignUp pos x.align + x.bytes.length →
        load m' (base' + k) j = load m (base + k) j := by
      intro k j hk hkj
      induction j generalizing k with
      | zero => rfl
      | succ j ihj =>
        rw [load, load, hm k (by omega), Nat.add_assoc, Nat.add_assoc,
          ihj (k + 1) (by omega) (by omega)]
    rw [HasBytes, hshift _ _ le_rfl le_rfl]
    exact hhead

lemma Holds.transfer {m m' : Mem} {base base' : ℕ} {xs : List Member}
    (hx : ∀ x ∈ xs, 0 < x.align) (hm : ∀ i < sizeofStruct xs, m' (base' + i) = m (base + i))
    (h : Holds m base xs) : Holds m' base' xs :=
  HoldsFrom.transfer hx (endOf_le_sizeofStruct xs) hm h

/-- The region holds the struct when it has every member at its offset. -/
lemma holdsFrom_iff {m : Mem} {base pos : ℕ} {xs : List Member} : HoldsFrom m base pos xs ↔
    List.Forall₂ (fun o x => HasBytes m (base + o) x.bytes) (offsetsFrom pos xs) xs := by
  induction xs generalizing pos with
  | nil => simp [HoldsFrom, offsetsFrom]
  | cons x xs ih => simp [HoldsFrom, offsetsFrom, ih]

/-- Two struct values of the same shape held at one place are equal. -/
lemma HoldsFrom.bytes_eq {m : Mem} {base pos : ℕ} {xs ys : List Member}
    (hshape : List.Forall₂ (fun x y => x.align = y.align ∧ x.bytes.length = y.bytes.length) xs ys)
    (hx : HoldsFrom m base pos xs) (hy : HoldsFrom m base pos ys) :
    xs.map Member.bytes = ys.map Member.bytes := by
  induction hshape generalizing pos with
  | nil => rfl
  | cons hxy _ ih =>
    obtain ⟨halign, hlen⟩ := hxy
    obtain ⟨hx₁, hx₂⟩ := hx
    obtain ⟨hy₁, hy₂⟩ := hy
    rw [← halign, ← hlen] at hy₂
    rw [HasBytes, ← halign, ← hlen] at hy₁
    rw [List.map_cons, List.map_cons, ih hx₂ hy₂, ← hx₁, ← hy₁]

lemma HasBytes.imageFrom {m : Mem} {base pos : ℕ} {xs : List Member}
    (hx : ∀ x ∈ xs, 0 < x.align) (h : HasBytes m (base + pos) (imageFrom pos xs)) :
    HoldsFrom m base pos xs := by
  induction xs generalizing pos with
  | nil => trivial
  | cons x xs ih =>
    have hpos := le_alignUp pos (hx x List.mem_cons_self)
    rw [Layout.imageFrom, hasBytes_append, hasBytes_append, List.length_replicate] at h
    rw [show base + pos + (alignUp pos x.align - pos) = base + alignUp pos x.align by omega] at h
    refine ⟨h.2.1, ih (fun y hy => hx y (List.mem_cons_of_mem x hy)) ?_⟩
    rw [← Nat.add_assoc]
    exact h.2.2

/-- A region that starts with the bytes of a struct holds it. -/
lemma holds_of_image {m : Mem} {base : ℕ} {xs : List Member} (hx : ∀ x ∈ xs, 0 < x.align)
    (h : HasBytes m base (image xs)) : Holds m base xs :=
  HasBytes.imageFrom hx (hasBytes_append.mp h).1

end Layout

import Mathlib

/-!
# Byte memories

A memory region is a function from offsets to bytes. Everything a C function does to a buffer,
single assignments, copy loops, `memcpy`, is a `store` of a list of bytes, and what it reads is a
`load`. Words are little-endian lists of bytes.
-/

namespace Bytes

/-- A memory region, addressed from its start. -/
abbrev Mem := ℕ → UInt8

/-- Write one byte. -/
def set (m : Mem) (i : ℕ) (b : UInt8) : Mem := Function.update m i b

/-- Write a list of bytes from offset `off` upwards. -/
def store (m : Mem) (off : ℕ) : List UInt8 → Mem
  | [] => m
  | b :: bs => store (set m off b) (off + 1) bs

/-- The `n` bytes from offset `off` upwards. -/
def load (m : Mem) (off : ℕ) : ℕ → List UInt8
  | 0 => []
  | n + 1 => m off :: load m (off + 1) n

/-- `for (i = 0; i < n; ++i) dst[off + i] = src[i]`. -/
def copyLoop (dst : Mem) (off : ℕ) (src : Mem) : ℕ → Mem
  | 0 => dst
  | n + 1 => set (copyLoop dst off src n) (off + n) (src n)

/-- `memcpy(dst + dstOff, src + srcOff, n)`. -/
def memcpy (dst : Mem) (dstOff : ℕ) (src : Mem) (srcOff n : ℕ) : Mem :=
  store dst dstOff (load src srcOff n)

/-! ### Stores and loads -/

@[simp] lemma length_load (m : Mem) (off n : ℕ) : (load m off n).length = n := by
  induction n generalizing off with
  | zero => rfl
  | succ n ih => rw [load, List.length_cons, ih]

lemma load_add (m : Mem) (off n k : ℕ) :
    load m off (n + k) = load m off n ++ load m (off + n) k := by
  induction n generalizing off with
  | zero => rw [Nat.zero_add, Nat.add_zero, load, List.nil_append]
  | succ n ih =>
    rw [Nat.succ_add, load, ih, load, List.cons_append, Nat.add_assoc, Nat.add_comm 1 n]

/-- Only the bytes inside the region matter. -/
lemma load_congr {m m' : Mem} {off n : ℕ} (h : ∀ i, off ≤ i → i < off + n → m i = m' i) :
    load m off n = load m' off n := by
  induction n generalizing off with
  | zero => rfl
  | succ n ih =>
    rw [load, load, h off le_rfl (by omega), ih fun i hi hi' => h i (by omega) (by omega)]

lemma apply_eq_of_load_eq {m m' : Mem} {off off' n : ℕ} (h : load m off n = load m' off' n)
    {i : ℕ} (hi : i < n) : m (off + i) = m' (off' + i) := by
  induction n generalizing off off' i with
  | zero => omega
  | succ n ih =>
    rw [load, load, List.cons.injEq] at h
    cases i with
    | zero => exact h.1
    | succ i =>
      have := ih h.2 (i := i) (by omega)
      rwa [show off + 1 + i = off + (i + 1) by omega,
        show off' + 1 + i = off' + (i + 1) by omega] at this

lemma getElem?_load {m : Mem} {off n i : ℕ} (hi : i < n) :
    (load m off n)[i]? = some (m (off + i)) := by
  induction n generalizing off i with
  | zero => omega
  | succ n ih =>
    cases i with
    | zero => rfl
    | succ i =>
      rw [load, List.getElem?_cons_succ, ih (Nat.lt_of_succ_lt_succ hi), Nat.add_assoc,
        Nat.add_comm 1 i]

lemma store_append (m : Mem) (off : ℕ) (bs cs : List UInt8) :
    store m off (bs ++ cs) = store (store m off bs) (off + bs.length) cs := by
  induction bs generalizing m off with
  | nil => rfl
  | cons b bs ih =>
    rw [List.cons_append, store, ih, store, List.length_cons, Nat.add_assoc,
      Nat.add_comm 1 bs.length]

lemma store_of_lt {m : Mem} {off i : ℕ} (bs : List UInt8) (h : i < off) :
    store m off bs i = m i := by
  induction bs generalizing m off with
  | nil => rfl
  | cons b bs ih =>
    rw [store, ih (Nat.lt_succ_of_lt h), set, Function.update_of_ne h.ne]

lemma store_of_le {m : Mem} {off i : ℕ} {bs : List UInt8} (h : off + bs.length ≤ i) :
    store m off bs i = m i := by
  induction bs generalizing m off with
  | nil => rfl
  | cons b bs ih =>
    rw [List.length_cons] at h
    rw [store, ih (by omega), set, Function.update_of_ne (by omega)]

@[simp] lemma load_store (m : Mem) (off : ℕ) (bs : List UInt8) :
    load (store m off bs) off bs.length = bs := by
  induction bs generalizing m off with
  | nil => rfl
  | cons b bs ih =>
    rw [List.length_cons, load, store, store_of_lt bs (Nat.lt_succ_self off), set,
      Function.update_self, ih]

lemma copyLoop_eq_store (dst : Mem) (off : ℕ) (src : Mem) (n : ℕ) :
    copyLoop dst off src n = store dst off (load src 0 n) := by
  induction n with
  | zero => rfl
  | succ n ih =>
    rw [copyLoop, ih, load_add, store_append, length_load, Nat.zero_add]
    rfl

/-! ### Regions that start with given bytes -/

/-- The region holds the bytes `bs` at offset `off`. -/
def HasBytes (m : Mem) (off : ℕ) (bs : List UInt8) : Prop := load m off bs.length = bs

lemma hasBytes_store (m : Mem) (off : ℕ) (bs : List UInt8) : HasBytes (store m off bs) off bs :=
  load_store m off bs

lemma HasBytes.congr {m m' : Mem} {off : ℕ} {bs : List UInt8} (h : HasBytes m off bs)
    (hm : ∀ i, off ≤ i → i < off + bs.length → m' i = m i) : HasBytes m' off bs := by
  rw [HasBytes, load_congr hm]
  exact h

lemma HasBytes.apply_add {m : Mem} {off i : ℕ} {bs : List UInt8} (h : HasBytes m off bs)
    (hi : i < bs.length) : m (off + i) = bs[i] := by
  have hget : (load m off bs.length)[i]? = some (m (off + i)) := getElem?_load hi
  rw [h, List.getElem?_eq_getElem hi] at hget
  exact (Option.some.inj hget).symm

/-- A copy has the bytes of the source. -/
lemma memcpy_apply (dst src : Mem) (dstOff srcOff : ℕ) {n i : ℕ} (hi : i < n) :
    memcpy dst dstOff src srcOff n (dstOff + i) = src (srcOff + i) := by
  have hbytes := hasBytes_store dst dstOff (load src srcOff n)
  rw [memcpy, hbytes.apply_add (by rwa [length_load])]
  exact Option.some.inj ((List.getElem?_eq_getElem _).symm.trans (getElem?_load hi))

/-- Regions with the same bytes at the same place agree there. -/
lemma HasBytes.apply_eq {m m' : Mem} {off i : ℕ} {bs : List UInt8} (h : HasBytes m off bs)
    (h' : HasBytes m' off bs) (hlo : off ≤ i) (hhi : i < off + bs.length) : m i = m' i := by
  obtain ⟨j, rfl⟩ := Nat.exists_eq_add_of_le hlo
  exact apply_eq_of_load_eq (h.trans h'.symm) (Nat.lt_of_add_lt_add_left hhi)

/-- A store fixes as many bytes, whatever was there before, as it stores. -/
lemma store_agree_iff {bs : List UInt8} {n : ℕ} :
    (∀ (m m' : Mem), ∀ i < n, store m 0 bs i = store m' 0 bs i) ↔ n ≤ bs.length := by
  constructor
  · intro h
    by_contra hlt
    have hstale := h (fun _ => 0) (fun _ => 1) bs.length (by omega)
    rw [store_of_le (by omega), store_of_le (by omega)] at hstale
    exact absurd hstale (by decide)
  · intro hn m m' i hi
    exact (hasBytes_store m 0 bs).apply_eq (hasBytes_store m' 0 bs) (Nat.zero_le i) (by omega)

lemma hasBytes_append {m : Mem} {off : ℕ} {bs cs : List UInt8} :
    HasBytes m off (bs ++ cs) ↔ HasBytes m off bs ∧ HasBytes m (off + bs.length) cs := by
  rw [HasBytes, List.length_append, load_add]
  constructor
  · intro h
    exact List.append_inj h (length_load m off bs.length)
  · rintro ⟨h₁, h₂⟩
    rw [h₁, h₂]

@[simp] lemma hasBytes_nil (m : Mem) (off : ℕ) : HasBytes m off [] := rfl

@[simp] lemma hasBytes_cons {m : Mem} {off : ℕ} {b : UInt8} {bs : List UInt8} :
    HasBytes m off (b :: bs) ↔ m off = b ∧ HasBytes m (off + 1) bs := by
  rw [HasBytes, List.length_cons, load, List.cons.injEq]
  rfl

/-! ### Little-endian words -/

/-- The `w` low bytes of `n`, least significant first. -/
def leBytes : ℕ → ℕ → List UInt8
  | 0, _ => []
  | w + 1, n => UInt8.ofNat n :: leBytes w (n / 256)

/-- The value of a little-endian list of bytes. -/
def ofLe : List UInt8 → ℕ
  | [] => 0
  | b :: bs => b.toNat + 256 * ofLe bs

@[simp] lemma length_leBytes (w n : ℕ) : (leBytes w n).length = w := by
  induction w generalizing n with
  | zero => rfl
  | succ w ih => rw [leBytes, List.length_cons, ih]

lemma ofLe_leBytes (w n : ℕ) : ofLe (leBytes w n) = n % 256 ^ w := by
  induction w generalizing n with
  | zero => rw [leBytes, ofLe, pow_zero, Nat.mod_one]
  | succ w ih =>
    have hbyte : (UInt8.ofNat n).toNat = n % 256 := UInt8.toNat_ofNat'
    rw [leBytes, ofLe, ih, hbyte, pow_succ, Nat.mul_comm (256 ^ w), Nat.mod_mul]

lemma ofLe_leBytes_of_lt {w n : ℕ} (h : n < 256 ^ w) : ofLe (leBytes w n) = n := by
  rw [ofLe_leBytes, Nat.mod_eq_of_lt h]

lemma leBytes_ofLe (bs : List UInt8) : leBytes bs.length (ofLe bs) = bs := by
  induction bs with
  | nil => rfl
  | cons b bs ih =>
    have hlow : UInt8.ofNat (b.toNat + 256 * ofLe bs) = b := by
      apply UInt8.toNat_inj.mp
      rw [UInt8.toNat_ofNat', Nat.add_mul_mod_self_left, Nat.mod_eq_of_lt b.toNat_lt]
    have hhigh : (b.toNat + 256 * ofLe bs) / 256 = ofLe bs := by
      rw [Nat.add_mul_div_left _ _ (by decide), Nat.div_eq_of_lt b.toNat_lt, Nat.zero_add]
    rw [List.length_cons, leBytes, ofLe, hlow, hhigh, ih]

lemma leBytes_inj {w n k : ℕ} (hn : n < 256 ^ w) (hk : k < 256 ^ w)
    (h : leBytes w n = leBytes w k) : n = k := by
  have hval := congrArg ofLe h
  rwa [ofLe_leBytes_of_lt hn, ofLe_leBytes_of_lt hk] at hval

/-- A word read back from where its bytes are. -/
lemma ofLe_load {m : Mem} {off w n : ℕ} (h : HasBytes m off (leBytes w n)) (hn : n < 256 ^ w) :
    ofLe (load m off w) = n := by
  rw [HasBytes, length_leBytes] at h
  rw [h, ofLe_leBytes_of_lt hn]

end Bytes

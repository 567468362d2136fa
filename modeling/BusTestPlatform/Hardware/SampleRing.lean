import BusTestPlatform.Hardware.PhysSampler
import BusTestPlatform.Lib.Counter

/-!
# The sampler's ring

Which samples are in the ring, and where. A trigger that meets a sample keeps the write pointer in
place, so that the next sample overwrites it.
-/

namespace BusTestPlatform

open Clocked

namespace PhysSampler

variable {addrWidth : ℕ}

/-- The registers and the memory before clock edge `n`. -/
def run (mem : BitVec addrWidth → Bool) (inp : ℕ → In addrWidth) : ℕ → PhysSampler addrWidth :=
  runFrom step (reset mem) inp

/-- `capture_on` before clock edge `n`, which depends on `arm` and `stop` only. -/
def capturing (inp : ℕ → In addrWidth) : ℕ → Bool
  | 0 => false
  | n + 1 => if (inp n).stop then false else if (inp n).arm then true else capturing inp n

/-- The clocks before edge `n` at which `capture_on` was 1, latest first. -/
def captures (inp : ℕ → In addrWidth) : ℕ → List ℕ
  | 0 => []
  | n + 1 => if capturing inp n then n :: captures inp n else captures inp n

/-- The same control inputs with other levels on the bus. -/
def withLevels (inp : ℕ → In addrWidth) (level : ℕ → Bool) (n : ℕ) : In addrWidth :=
  { inp n with busLevel := level n }

/-- For every `k` up to the depth of the ring, the sample taken at the `k`-th most recent clock of
capture is `k + 1` places before the write pointer. -/
def HoldsLast (mem : BitVec addrWidth → Bool) (inp : ℕ → In addrWidth) (n : ℕ) : Prop :=
  ∀ k e, k < 2 ^ addrWidth → (captures inp n)[k]? = some e →
    (run mem inp n).mem ((run mem inp n).wp - 1 - BitVec.ofNat addrWidth k) = (inp e).busLevel

/-- No trigger met any of the last samples, as many as the ring holds. -/
def Untriggered (inp : ℕ → In addrWidth) (n : ℕ) : Prop :=
  ∀ e ∈ (captures inp n).take (2 ^ addrWidth), (inp e).trig = false

variable {mem : BitVec addrWidth → Bool} {inp : ℕ → In addrWidth} {n : ℕ}

lemma run_succ (n : ℕ) : run mem inp (n + 1) = (run mem inp n).step (inp n) := rfl

/-- The clocks of capture are those at which the register is set. -/
lemma captureOn_run (mem : BitVec addrWidth → Bool) (inp : ℕ → In addrWidth) (n : ℕ) :
    (run mem inp n).captureOn = capturing inp n := by
  induction n with
  | zero => rfl
  | succ n ih =>
    rw [capturing, ← ih]
    rfl

@[simp] lemma capturing_withLevels (level : ℕ → Bool) (n : ℕ) :
    capturing (withLevels inp level) n = capturing inp n := by
  induction n with
  | zero => rfl
  | succ n ih =>
    rw [capturing, capturing, ih]
    rfl

@[simp] lemma captures_withLevels (level : ℕ → Bool) (n : ℕ) :
    captures (withLevels inp level) n = captures inp n := by
  induction n with
  | zero => rfl
  | succ n ih => rw [captures, captures, ih, capturing_withLevels]

lemma captures_succ_of_capturing (h : capturing inp n = true) :
    captures inp (n + 1) = n :: captures inp n :=
  if_pos h

/-! ### One clock -/

lemma run_succ_of_idle (mem : BitVec addrWidth → Bool) (h : capturing inp n = false) :
    (run mem inp (n + 1)).mem = (run mem inp n).mem ∧
      (run mem inp (n + 1)).wp = (run mem inp n).wp := by
  rw [← captureOn_run mem] at h
  simp [run_succ, step, h]

lemma run_succ_of_capture (mem : BitVec addrWidth → Bool) (h : capturing inp n = true) :
    (run mem inp (n + 1)).mem =
        Function.update (run mem inp n).mem (run mem inp n).wp (inp n).busLevel ∧
      (run mem inp (n + 1)).wp =
        if (inp n).trig then (run mem inp n).wp else (run mem inp n).wp + 1 := by
  rw [← captureOn_run mem] at h
  simp [run_succ, step, h]

/-! ### Samples since the last trigger -/

/-- The samples no trigger has met, back to the last one it did meet, are where they belong. -/
lemma mem_of_untriggered {k e : ℕ} (hk : k < 2 ^ addrWidth) (he : (captures inp n)[k]? = some e)
    (htrig : ∀ j d, j ≤ k → (captures inp n)[j]? = some d → (inp d).trig = false) :
    (run mem inp n).mem ((run mem inp n).wp - 1 - BitVec.ofNat addrWidth k) =
      (inp e).busLevel := by
  induction n generalizing k with
  | zero => simp [captures] at he
  | succ n ih =>
    cases hcap : capturing inp n with
    | false =>
      rw [captures, hcap] at he htrig
      obtain ⟨hmem, hwp⟩ := run_succ_of_idle mem hcap
      rw [hmem, hwp]
      exact ih hk he htrig
    | true =>
      rw [captures_succ_of_capturing hcap] at he htrig
      obtain ⟨hmem, hwp⟩ := run_succ_of_capture mem hcap
      rw [htrig 0 n (Nat.zero_le k) rfl, if_neg Bool.false_ne_true] at hwp
      rw [hmem, hwp, add_sub_cancel_right]
      cases k with
      | zero =>
        obtain rfl : n = e := Option.some.inj he
        rw [show BitVec.ofNat addrWidth 0 = 0 from rfl, sub_zero, Function.update_self]
      | succ k =>
        have hplace : (run mem inp n).wp - BitVec.ofNat addrWidth (k + 1) =
            (run mem inp n).wp - 1 - BitVec.ofNat addrWidth k := by
          rw [sub_sub, BitVec.ofNat_add, add_comm]
          rfl
        rw [hplace, Function.update_of_ne (Counter.sub_one_sub_ne hk)]
        exact ih (by omega) he fun j d hj hd => htrig (j + 1) d (by omega) hd

/-- A ring of one place holds the last sample, trigger or not. -/
lemma mem_of_depth_one (hw : addrWidth = 0) {e : ℕ} (he : (captures inp n)[0]? = some e)
    (place : BitVec addrWidth) : (run mem inp n).mem place = (inp e).busLevel := by
  subst hw
  induction n with
  | zero => simp [captures] at he
  | succ n ih =>
    cases hcap : capturing inp n with
    | false =>
      rw [captures, hcap] at he
      rw [(run_succ_of_idle mem hcap).1]
      exact ih he
    | true =>
      rw [captures_succ_of_capturing hcap] at he
      obtain rfl : n = e := Option.some.inj he
      rw [(run_succ_of_capture mem hcap).1,
        Subsingleton.elim place (run mem inp n).wp, Function.update_self]

lemma holdsLast_of_untriggered (h : addrWidth = 0 ∨ Untriggered inp n) : HoldsLast mem inp n := by
  intro k e hk he
  rcases h with hw | hun
  · have hzero : k = 0 := by
      rw [hw] at hk
      omega
    rw [hzero] at he
    exact mem_of_depth_one hw he _
  · apply mem_of_untriggered hk he
    intro j d hj hd
    apply hun d
    rw [List.mem_iff_getElem?]
    exact ⟨j, by rw [List.getElem?_take_of_lt (by omega), hd]⟩

/-! ### A sample that a trigger meets -/

/-- Since the clock `e` the write pointer has moved on by the samples after it. -/
lemma wp_of_untriggered {k e : ℕ} (he : (captures inp n)[k]? = some e)
    (htrig : ∀ j d, j < k → (captures inp n)[j]? = some d → (inp d).trig = false) :
    (run mem inp n).wp = (run mem inp (e + 1)).wp + BitVec.ofNat addrWidth k := by
  induction n generalizing k with
  | zero => simp [captures] at he
  | succ n ih =>
    cases hcap : capturing inp n with
    | false =>
      rw [captures, hcap] at he htrig
      rw [(run_succ_of_idle mem hcap).2]
      exact ih he htrig
    | true =>
      rw [captures_succ_of_capturing hcap] at he htrig
      cases k with
      | zero =>
        obtain rfl : n = e := Option.some.inj he
        exact (add_zero _).symm
      | succ k =>
        have hwp := (run_succ_of_capture mem hcap).2
        rw [htrig 0 n (Nat.succ_pos k) rfl, if_neg Bool.false_ne_true] at hwp
        rw [hwp, ih he fun j d hj hd => htrig (j + 1) d (by omega) hd, add_assoc,
          BitVec.ofNat_add]
        rfl

/-- Where the level is high at clock `e` only, it can be read from one place only. -/
lemma mem_eq_false {e : ℕ} (hmem : ∀ place, mem place = false)
    (hlevel : ∀ m, m ≠ e → (inp m).busLevel = false) {place : BitVec addrWidth}
    (hplace : place ≠ (run mem inp e).wp) : (run mem inp n).mem place = false := by
  induction n with
  | zero => exact hmem place
  | succ n ih =>
    cases hcap : capturing inp n with
    | false =>
      rw [(run_succ_of_idle mem hcap).1]
      exact ih
    | true =>
      rw [(run_succ_of_capture mem hcap).1, Function.update_apply]
      by_cases hn : n = e
      · rw [if_neg (by rw [hn]; exact hplace)]
        exact ih
      · rw [hlevel n hn, ih, ite_self]

/-- The latest clock of capture that a trigger meets, among the last ones. -/
lemma exists_latest_trigger (h : ¬ Untriggered inp n) :
    ∃ k e, k < 2 ^ addrWidth ∧ (captures inp n)[k]? = some e ∧ (inp e).trig = true ∧
      ∀ j d, j < k → (captures inp n)[j]? = some d → (inp d).trig = false := by
  classical
  simp only [Untriggered, not_forall] at h
  obtain ⟨e, he, htrig⟩ := h
  obtain ⟨k, hk⟩ := List.mem_iff_getElem?.mp he
  have hex : ∃ k e, ((captures inp n).take (2 ^ addrWidth))[k]? = some e ∧ (inp e).trig = true :=
    ⟨k, e, hk, by simpa using htrig⟩
  obtain ⟨e', he', htrig'⟩ := Nat.find_spec hex
  have hlt : Nat.find hex < 2 ^ addrWidth := by
    by_contra hge
    rw [List.getElem?_take_eq_none (by omega)] at he'
    cases he'
  refine ⟨Nat.find hex, e', hlt, ?_, htrig', fun j d hj hd => ?_⟩
  · rwa [List.getElem?_take_of_lt hlt] at he'
  · have hmin := Nat.find_min hex hj
    by_contra hne
    exact hmin ⟨d, by rw [List.getElem?_take_of_lt (by omega), hd], by simpa using hne⟩

/-- **The ring.** With given control inputs it holds the last samples, whatever these and the old
contents of the memory are, if and only if no trigger met any of them. A ring of one place always
does. -/
theorem holdsLast_iff (inp : ℕ → In addrWidth) (n : ℕ) :
    (∀ mem level, HoldsLast mem (withLevels inp level) n) ↔
      addrWidth = 0 ∨ Untriggered inp n := by
  constructor
  · intro hholds
    by_contra hnot
    rw [not_or] at hnot
    obtain ⟨hw, hun⟩ := hnot
    obtain ⟨k, e, hk, he, htrig, hsince⟩ := exists_latest_trigger hun
    -- the level is high at the clock of that trigger only
    set inp' := withLevels inp (fun m => m == e) with hinp
    have he' : (captures inp' n)[k]? = some e := by rw [hinp, captures_withLevels, he]
    have hread := hholds (fun _ => false) (fun m => m == e) k e hk he'
    have hhigh : (inp' e).busLevel = true := beq_self_eq_true e
    rw [hhigh] at hread
    by_cases hplace : (run (fun _ => false) inp' n).wp - 1 - BitVec.ofNat addrWidth k =
        (run (fun _ => false) inp' e).wp
    · have hkept : (run (fun _ => false) inp' (e + 1)).wp = (run (fun _ => false) inp' e).wp := by
        have htrig' : (inp' e).trig = true := htrig
        rw [run_succ, step, if_pos htrig']
      rw [wp_of_untriggered he' (by rwa [hinp, captures_withLevels]), hkept, sub_right_comm,
        add_sub_cancel_right, sub_eq_self] at hplace
      exact hw (BitVec.one_eq_zero_iff.mp hplace)
    · rw [mem_eq_false (fun _ => rfl) (fun m hm => by simpa [hinp, withLevels] using hm)
        hplace] at hread
      cases hread
  · intro h mem level
    apply holdsLast_of_untriggered
    rcases h with hw | hun
    · exact Or.inl hw
    · refine Or.inr fun e he => ?_
      rw [captures_withLevels] at he
      exact hun e he

/-- Armed at clock 0 and stopped at clock 2, with a trigger and a high level at clock 2. -/
def triggered (n : ℕ) : In 12 := ⟨n == 2, n == 0, n == 2, n == 2, 0⟩

/-- The sample of clock 2 is not the last one in the ring. -/
theorem sample_lost : ¬ ∀ (mem : BitVec 12 → Bool) (inp : ℕ → In 12) (n : ℕ),
    (run mem inp n).captureOn = false → HoldsLast mem inp n := by
  intro h
  have hlast := h (fun _ => false) triggered 3 (by decide) 0 2 (by decide) (by decide)
  exact absurd hlast (by decide)

end PhysSampler

end BusTestPlatform

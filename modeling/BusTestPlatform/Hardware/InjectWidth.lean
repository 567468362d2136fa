import BusTestPlatform.Hardware.InjectPosition
import BusTestPlatform.Lib.Counter

/-!
# How long errors are injected

`inject` is cleared at every clock that does not set it. A bit error is set by the strobe of its bit
alone and so lasts a clock, however long the bit is. A glitch counts down to 0 and then takes the
clock at which it finds the 0 as well.
-/

namespace BusTestPlatform

open Clocked

namespace ErrorInjector

variable (inp : ℕ → In) {a n t : ℕ}

/-- From clock `a` up to clock `n` the frame goes on. -/
def InFrame (a n : ℕ) : Prop := ∀ e, a ≤ e → e < n → (inp e).frameActive = true

/-- A frame begins at clock `a`. -/
structure FrameBegins (a : ℕ) : Prop where
  active : (inp a).frameActive = true
  idle : ∀ b, b + 1 = a → (inp b).frameActive = false

/-! ### Bit, CRC, ACK and stuff errors -/

/-- The frame that begins at clock `a` has one of these errors configured, which is not rewritten,
and strobes at least two clocks apart. -/
structure BitFrame (a : ℕ) : Prop where
  begins : FrameBegins inp a
  type : (run inp a).type ∈ ([1, 2, 3, 4] : List (BitVec 3))
  steady : ∀ e, a ≤ e → InFrame inp a (e + 1) → (inp e).cfgWe = false
  spaced : ∀ e, a ≤ e → InFrame inp a (e + 2) → (inp e).bitTick = true →
    (inp (e + 1)).bitTick = false

/-- At every clock of the frame `inject` is high exactly if the last strobe was that of the
configured bit. -/
def LastsOneBit (a : ℕ) : Prop :=
  ∀ n, a ≤ n → InFrame inp a n →
    ((run inp n).inject = true ↔ strobes inp n = (run inp a).bitPos.toNat + 1)

/-- Counting on from where the frame found it, the counter stands at the configured position at the
strobe of that bit and at no other one. -/
def CountsToPosition (a : ℕ) : Prop :=
  ∀ e, a ≤ e → InFrame inp a (e + 1) → (inp e).bitTick = true →
    (((run inp a).bitCnt.toNat + strobes inp e) % 2 ^ 16 = (run inp a).bitPos.toNat ↔
      strobes inp e = (run inp a).bitPos.toNat)

/-- The frame ends with the strobe of the configured bit. -/
def EndsAtPosition (a : ℕ) : Prop :=
  ∀ t, a ≤ t → InFrame inp a (t + 1) → (inp t).bitTick = true →
    strobes inp t = (run inp a).bitPos.toNat → (inp (t + 1)).frameActive = false

/-- `LastsOneBit` without the clock of the next strobe, and within the frame. -/
def LastsUntilStrobe (a : ℕ) : Prop :=
  ∀ n, a ≤ n → InFrame inp a (n + 1) → ((run inp n).inject = true ↔
    strobes inp n = (run inp a).bitPos.toNat + 1 ∧ (inp n).bitTick = false)

/-- `CountsToPosition` for the strobes that do not end the frame. -/
def CountsWithin (a : ℕ) : Prop :=
  ∀ e, a ≤ e → InFrame inp a (e + 2) → (inp e).bitTick = true →
    (((run inp a).bitCnt.toNat + strobes inp e) % 2 ^ 16 = (run inp a).bitPos.toNat ↔
      strobes inp e = (run inp a).bitPos.toNat)

/-- The strobe after that of the configured bit comes two clocks later, or the frame ends before. -/
def StrobeFollows (a : ℕ) : Prop :=
  ∀ t, a ≤ t → InFrame inp a (t + 3) → (inp t).bitTick = true →
    strobes inp t = (run inp a).bitPos.toNat → (inp (t + 2)).bitTick = true

variable {inp}

lemma InFrame.mono {m : ℕ} (h : InFrame inp a n) (hm : m ≤ n) : InFrame inp a m :=
  fun e he hem => h e he (hem.trans_le hm)

lemma InFrame.succ (h : InFrame inp a n) (hn : (inp n).frameActive = true) :
    InFrame inp a (n + 1) := by
  intro e he hen
  rcases Nat.eq_or_lt_of_le (Nat.le_of_lt_succ hen) with rfl | hlt
  · exact hn
  · exact h e he hlt

lemma InFrame.last (h : InFrame inp a (n + 1)) (hn : a ≤ n) : (inp n).frameActive = true :=
  h n hn (Nat.lt_succ_self n)

/-- What a frame finds when it begins. -/
lemma FrameBegins.start (h : FrameBegins inp a) :
    strobes inp a = 0 ∧ (run inp a).armed = false ∧ (run inp a).inject = false := by
  cases a with
  | zero => exact ⟨rfl, rfl, rfl⟩
  | succ b =>
    have hidle := h.idle b rfl
    refine ⟨strobes_succ_of_idle hidle, ?_, ?_⟩ <;> simp [run_succ, step, hidle]

lemma step_config_of_steady {s : ErrorInjector} {i : In} (h : i.cfgWe = false) :
    (s.step i).type = s.type ∧ (s.step i).bitPos = s.bitPos ∧
      (s.step i).glitchNs = s.glitchNs := by
  simp [step, h]

/-- A number of strobes greater than 0 comes from the last of them. -/
lemma exists_strobe (h : FrameBegins inp a) (hn : a ≤ n) (hframe : InFrame inp a n) {k : ℕ}
    (hk : strobes inp n = k + 1) :
    ∃ t, a ≤ t ∧ t < n ∧ (inp t).bitTick = true ∧ strobes inp t = k ∧
      ∀ e, t < e → e < n → (inp e).bitTick = false := by
  induction n, hn using Nat.le_induction with
  | base =>
    rw [h.start.1] at hk
    cases hk
  | succ n hn ih =>
    rw [strobes_succ_of_active (hframe.last hn)] at hk
    cases htick : (inp n).bitTick with
    | true =>
      rw [htick, if_pos rfl] at hk
      exact ⟨n, hn, Nat.lt_succ_self n, htick, Nat.succ_injective hk, fun e he hen => by omega⟩
    | false =>
      rw [htick] at hk
      obtain ⟨t, hat, htn, hstrobe, hcount, hlast⟩ := ih (hframe.mono (Nat.le_succ n)) hk
      refine ⟨t, hat, Nat.lt_succ_of_lt htn, hstrobe, hcount, fun e he hen => ?_⟩
      rcases Nat.eq_or_lt_of_le (Nat.le_of_lt_succ hen) with rfl | hlt
      · exact htick
      · exact hlast e he hlt

section BitFrame

/-- What holds at every clock of the frame. -/
structure BitFrameInv (inp : ℕ → In) (a n : ℕ) : Prop where
  type : (run inp n).type = (run inp a).type
  bitPos : (run inp n).bitPos = (run inp a).bitPos
  bitCnt : (run inp n).bitCnt.toNat = ((run inp a).bitCnt.toNat + strobes inp n) % 2 ^ 16
  armed : (run inp n).armed = false

lemma BitFrame.type_ne (h : BitFrame inp a) : (run inp a).type ≠ 0 ∧ (run inp a).type ≠ 5 := by
  have htype := h.type
  generalize (run inp a).type = x at htype ⊢
  revert x
  decide

lemma BitFrame.inv (h : BitFrame inp a) (hn : a ≤ n) (hframe : InFrame inp a n) :
    BitFrameInv inp a n := by
  induction n, hn using Nat.le_induction with
  | base =>
    obtain ⟨hstrobes, harmed, -⟩ := h.begins.start
    refine ⟨rfl, rfl, ?_, harmed⟩
    rw [hstrobes, Nat.add_zero, Nat.mod_eq_of_lt (run inp a).bitCnt.isLt]
  | succ n hn ih =>
    have hinv := ih (hframe.mono (Nat.le_succ n))
    have hactive := hframe.last hn
    obtain ⟨htype, hpos, -⟩ := step_config_of_steady (s := run inp n) (h.steady n hn hframe)
    obtain ⟨hon, hbit⟩ := h.type_ne
    rw [← hinv.type] at hon hbit
    refine ⟨htype.trans hinv.type, hpos.trans hinv.bitPos,
      toNat_bitCnt_succ hon hactive hinv.bitCnt, ?_⟩
    have hbit' : ¬ (run inp n).type = 5#3 := hbit
    simp [run_succ, step, hactive, hinv.armed, hbit']

/-- The strobe that finds the counter at the position sets `inject`, and nothing else does. -/
lemma BitFrame.inject_succ_iff (h : BitFrame inp a) (hn : a ≤ n) (hframe : InFrame inp a (n + 1)) :
    (run inp (n + 1)).inject = true ↔ (inp n).bitTick = true ∧
      ((run inp a).bitCnt.toNat + strobes inp n) % 2 ^ 16 = (run inp a).bitPos.toNat := by
  have hinv := h.inv hn (hframe.mono (Nat.le_succ n))
  obtain ⟨hon, hbit⟩ := h.type_ne
  rw [← hinv.type] at hon hbit
  have hon' : ¬ (run inp n).type = 0#3 := hon
  have hbit' : ¬ (run inp n).type = 5#3 := hbit
  rw [← hinv.bitCnt, ← hinv.bitPos, BitVec.toNat_inj]
  simp [run_succ, step, atPos, hon', hbit', hframe.last hn, hinv.armed]

/-- **Bit errors.** They last one bit time in the frames that end with the strobe of the configured
bit, or do not come to it, and in no other. -/
theorem lastsOneBit_iff (h : BitFrame inp a) :
    LastsOneBit inp a ↔ CountsToPosition inp a ∧ EndsAtPosition inp a := by
  constructor
  · intro hlasts
    refine ⟨fun e he hframe htick => ?_, fun t ht hframe htick hpos => ?_⟩
    · have hiff := hlasts (e + 1) (Nat.le_succ_of_le he) hframe
      rw [h.inject_succ_iff he hframe, strobes_succ_of_active (hframe.last he), htick, if_pos rfl,
        Nat.add_right_cancel_iff] at hiff
      simpa using hiff
    · by_contra hgoes
      have hframe₂ := hframe.succ (by simpa using hgoes)
      have hiff := hlasts (t + 2) (by omega) hframe₂
      rw [h.inject_succ_iff (by omega) hframe₂, h.spaced t ht hframe₂ htick,
        strobes_succ_of_active (hframe₂.last (by omega)), h.spaced t ht hframe₂ htick,
        strobes_succ_of_active (hframe.last ht), htick, hpos] at hiff
      simp at hiff
  · rintro ⟨hcounts, hends⟩ n hn hframe
    rcases Nat.eq_or_lt_of_le hn with rfl | hlt
    · obtain ⟨hstrobes, -, hinject⟩ := h.begins.start
      rw [hinject, hstrobes]
      simp
    · obtain ⟨m, rfl⟩ : ∃ m, n = m + 1 := ⟨n - 1, by omega⟩
      have hm : a ≤ m := Nat.le_of_lt_succ hlt
      have hactive := hframe.last hm
      rw [h.inject_succ_iff hm hframe, strobes_succ_of_active hactive]
      cases htick : (inp m).bitTick with
      | true =>
        rw [if_pos rfl, Nat.add_right_cancel_iff, ← hcounts m hm hframe htick]
        simp
      | false =>
        -- the bit is over: had it been the configured one, so would the frame be
        refine iff_of_false (by simp) fun hpos => ?_
        obtain ⟨t, hat, htm, htick', hstrobe, -⟩ :=
          exists_strobe h.begins hm (hframe.mono (Nat.le_succ m)) hpos
        have hend := hends t hat (hframe.mono (by omega)) htick' hstrobe
        rw [hframe (t + 1) (by omega) (by omega)] at hend
        cases hend

/-- With the clock of the next strobe left out they last until then in the frames with that strobe
two clocks later as well. -/
theorem lastsUntilStrobe_iff (h : BitFrame inp a) :
    LastsUntilStrobe inp a ↔ CountsWithin inp a ∧ StrobeFollows inp a := by
  constructor
  · intro hlasts
    refine ⟨fun e he hframe htick => ?_, fun t ht hframe htick hpos => ?_⟩
    · have hiff := hlasts (e + 1) (Nat.le_succ_of_le he) hframe
      have hframe' := hframe.mono (Nat.le_succ (e + 1))
      rw [h.inject_succ_iff he hframe', strobes_succ_of_active (hframe'.last he), htick,
        if_pos rfl, Nat.add_right_cancel_iff, h.spaced e he hframe htick] at hiff
      simpa using hiff
    · have hiff := hlasts (t + 2) (by omega) hframe
      have hframe₂ := hframe.mono (Nat.le_succ (t + 2))
      rw [h.inject_succ_iff (by omega) hframe₂, h.spaced t ht hframe₂ htick,
        strobes_succ_of_active (hframe₂.last (by omega)), h.spaced t ht hframe₂ htick,
        strobes_succ_of_active (hframe t ht (by omega)), htick, hpos] at hiff
      simpa using hiff
  · rintro ⟨hcounts, hfollows⟩ n hn hframe
    rcases Nat.eq_or_lt_of_le hn with rfl | hlt
    · obtain ⟨hstrobes, -, hinject⟩ := h.begins.start
      rw [hinject, hstrobes]
      simp
    · obtain ⟨m, rfl⟩ : ∃ m, n = m + 1 := ⟨n - 1, by omega⟩
      have hm : a ≤ m := Nat.le_of_lt_succ hlt
      have hframe' := hframe.mono (Nat.le_succ (m + 1))
      rw [h.inject_succ_iff hm hframe', strobes_succ_of_active (hframe'.last hm)]
      cases htick : (inp m).bitTick with
      | true =>
        rw [if_pos rfl, Nat.add_right_cancel_iff, ← hcounts m hm hframe htick,
          h.spaced m hm hframe htick]
        simp
      | false =>
        refine iff_of_false (by simp) ?_
        rintro ⟨hpos, hnext⟩
        obtain ⟨t, hat, htm, htick', hstrobe, hlast⟩ :=
          exists_strobe h.begins hm (hframe.mono (by omega)) hpos
        have htwo := hfollows t hat (hframe.mono (by omega)) htick' hstrobe
        -- the strobe two clocks later is none of those up to clock `m + 1`
        have hquiet : ∀ e, t < e → e ≤ m + 1 → (inp e).bitTick = false := by
          intro e he hem
          rcases Nat.lt_trichotomy e m with hlt' | rfl | hgt
          · exact hlast e he hlt'
          · exact htick
          · rwa [show e = m + 1 by omega]
        rw [hquiet (t + 2) (by omega) (by omega)] at htwo
        cases htwo

end BitFrame

/-- A bit error at bit 0, configured at clock 0; a frame from clock 1 on with three clocks a bit. -/
def threeClockBits (n : ℕ) : In := ⟨n == 0, 1, 0, 1, n != 0, n % 3 == 1⟩

lemma threeClockBits_bitFrame : BitFrame threeClockBits 1 where
  begins := ⟨rfl, fun b hb => by rw [show b = 0 by omega]; rfl⟩
  type := by decide
  steady := fun e he _ => by simp [threeClockBits]; omega
  spaced := fun e _ _ htick => by simp [threeClockBits] at htick ⊢; omega

/-- The frame does not end with bit 0, so the error does not last that bit. -/
theorem lastsOneBit_iff_threeClockBits :
    ¬ EndsAtPosition threeClockBits 1 ∧ ¬ LastsOneBit threeClockBits 1 := by
  have hends : ¬ EndsAtPosition threeClockBits 1 := by
    intro h
    have hframe : InFrame threeClockBits 1 2 := fun e he he' => by
      obtain rfl : e = 1 := by omega
      rfl
    exact absurd (h 1 le_rfl hframe rfl (by decide)) (by decide)
  exact ⟨hends, fun h => hends ((lastsOneBit_iff threeClockBits_bitFrame).mp h).2⟩

/-- `inject` is low again at the second of the three clocks. -/
theorem bit_error_too_short : ¬ ∀ (inp : ℕ → In) (a : ℕ), BitFrame inp a → LastsOneBit inp a := by
  intro h
  have hframe : InFrame threeClockBits 1 3 := by
    intro e he he'
    simp [threeClockBits]
    omega
  have hiff := h threeClockBits 1 threeClockBits_bitFrame 3 (by decide) hframe
  exact absurd hiff (by decide)

/-! ### Glitches -/

/-- How many clocks the glitch under way is still going to set `inject`. -/
def remaining (s : ErrorInjector) : ℕ := if s.armed then s.glitchCnt.toNat + 1 else 0

variable (inp) in
/-- At clock `t` a glitch arrives at its position, and for as long as it should take and two clocks
more the frame goes on and the configuration is not rewritten. -/
structure GlitchArrives (t : ℕ) : Prop where
  type : (run inp t).type = 5
  atPos : (run inp t).atPos (inp t) = true
  active : ∀ e, t ≤ e → e < t + (run inp t).glitchNs.toNat + 3 → (inp e).frameActive = true
  steady : ∀ e, t ≤ e → e < t + (run inp t).glitchNs.toNat + 3 → (inp e).cfgWe = false

variable (inp) in
/-- Among the clocks after `t`, until three clocks past the configured width, `inject` is high at
`k` consecutive ones and at no other. -/
def HighFor (t k : ℕ) : Prop :=
  ∃ c, t < c ∧ ∀ n, t < n → n ≤ t + (run inp t).glitchNs.toNat + 3 →
    ((run inp n).inject = true ↔ c ≤ n ∧ n < c + k)

section Glitch

/-- One clock of a glitch frame at which no glitch arrives. -/
lemma step_glitch {s : ErrorInjector} {i : In} (htype : s.type = 5)
    (hactive : i.frameActive = true) (hquiet : s.atPos i = false) :
    ((s.step i).inject = true ↔ 0 < s.remaining) ∧
      (s.step i).remaining = s.remaining - 1 := by
  cases harmed : s.armed with
  | false => simp [step, remaining, htype, hactive, hquiet, harmed]
  | true =>
    by_cases hzero : s.glitchCnt = 0#8
    · simp [step, remaining, htype, hactive, hquiet, harmed, hzero]
    · have hdown := Counter.toNat_sub_one hzero
      simpa [step, remaining, htype, hactive, hquiet, harmed, hzero] using hdown

/-- The clock at which a glitch arrives. One that is under way goes on undisturbed. -/
lemma step_arrival {s : ErrorInjector} {i : In} (htype : s.type = 5)
    (hactive : i.frameActive = true) (hpos : s.atPos i = true) :
    (s.step i).inject = s.armed ∧
      (s.step i).remaining = if s.armed then s.glitchCnt.toNat else s.glitchNs.toNat + 1 := by
  cases harmed : s.armed with
  | false => simp [step, remaining, htype, hactive, hpos, harmed]
  | true =>
    by_cases hzero : s.glitchCnt = 0#8
    · simp [step, remaining, htype, hactive, hpos, harmed, hzero]
    · have hdown := Counter.toNat_sub_one hzero
      simpa [step, remaining, htype, hactive, hpos, harmed, hzero] using hdown

/-- One strobe at most is counted at a clock. -/
lemma step_bitCnt_le {s : ErrorInjector} {i : In} (htype : s.type ≠ 0)
    (hactive : i.frameActive = true) {p : BitVec 16} {d : ℕ} (hd : d + 1 < 2 ^ 16)
    (h : (s.bitCnt - p).toNat ≤ d) (hpos : 0 < (s.bitCnt - p).toNat) :
    ((s.step i).bitCnt - p).toNat ≤ d + 1 ∧ 0 < ((s.step i).bitCnt - p).toNat := by
  rw [step_bitCnt_of_active htype hactive]
  cases i.bitTick with
  | false => exact ⟨h.trans (Nat.le_succ d), hpos⟩
  | true =>
    have hone : (1 : BitVec 16).toNat = 1 := rfl
    rw [if_pos rfl, add_sub_right_comm, BitVec.toNat_add, hone, Nat.mod_eq_of_lt (by omega)]
    exact ⟨Nat.succ_le_succ h, Nat.succ_pos _⟩

/-- After the arrival the counter runs away from the position, and does not come round. -/
lemma GlitchArrives.after (h : GlitchArrives inp t) {j : ℕ}
    (hj : j ≤ (run inp t).glitchNs.toNat + 2) :
    (run inp (t + 1 + j)).type = 5 ∧ (run inp (t + 1 + j)).bitPos = (run inp t).bitPos ∧
      ((run inp (t + 1 + j)).bitCnt - (run inp t).bitPos).toNat ≤ j + 1 ∧
      0 < ((run inp (t + 1 + j)).bitCnt - (run inp t).bitPos).toNat := by
  have hg := (run inp t).glitchNs.isLt
  induction j with
  | zero =>
    have hon : (run inp t).type ≠ 0 := by rw [h.type]; decide
    obtain ⟨htype, hpos, -⟩ :=
      step_config_of_steady (s := run inp t) (h.steady t le_rfl (by omega))
    have harrive := h.atPos
    simp only [ErrorInjector.atPos, Bool.and_eq_true, beq_iff_eq] at harrive
    have hcnt := step_bitCnt_of_active hon (h.active t le_rfl (by omega))
    rw [harrive.1, if_pos rfl, harrive.2] at hcnt
    rw [Nat.add_zero, run_succ]
    refine ⟨htype.trans h.type, hpos, ?_⟩
    rw [hcnt, add_sub_cancel_left]
    exact ⟨le_rfl, Nat.one_pos⟩
  | succ j ih =>
    obtain ⟨htype, hpos, hle, hlt⟩ := ih (by omega)
    have hon : (run inp (t + 1 + j)).type ≠ 0 := by rw [htype]; decide
    obtain ⟨htype', hpos', -⟩ := step_config_of_steady (s := run inp (t + 1 + j))
      (h.steady (t + 1 + j) (by omega) (by omega))
    rw [← Nat.add_assoc, run_succ]
    exact ⟨htype'.trans htype, hpos'.trans hpos, step_bitCnt_le hon
      (h.active (t + 1 + j) (by omega) (by omega)) (by omega) hle hlt⟩

/-- From the clock after the arrival on the glitch under way is counted down. -/
lemma GlitchArrives.countdown (h : GlitchArrives inp t) {j : ℕ}
    (hj : j ≤ (run inp t).glitchNs.toNat + 2) :
    (run inp (t + 1 + j)).remaining = (run inp (t + 1)).remaining - j ∧
      (j < (run inp t).glitchNs.toNat + 2 →
        ((run inp (t + 1 + j + 1)).inject = true ↔ j < (run inp (t + 1)).remaining)) := by
  have hstep : ∀ k, k < (run inp t).glitchNs.toNat + 2 →
      ((run inp (t + 1 + k + 1)).inject = true ↔ 0 < (run inp (t + 1 + k)).remaining) ∧
        (run inp (t + 1 + k + 1)).remaining = (run inp (t + 1 + k)).remaining - 1 := by
    intro k hk
    obtain ⟨htype, hpos, -, hlt⟩ := h.after hk.le
    apply step_glitch htype (h.active (t + 1 + k) (by omega) (by omega))
    rw [ErrorInjector.atPos, hpos, Bool.and_eq_false_imp]
    intro _
    rw [beq_eq_false_iff_ne]
    intro heq
    rw [heq, sub_self] at hlt
    exact absurd hlt (by decide)
  have hremaining : ∀ k, k ≤ (run inp t).glitchNs.toNat + 2 →
      (run inp (t + 1 + k)).remaining = (run inp (t + 1)).remaining - k := by
    intro k hk
    induction k with
    | zero => rfl
    | succ k ih =>
      rw [← Nat.add_assoc, (hstep k hk).2, ih (by omega)]
      omega
  refine ⟨hremaining j hj, fun hlt => ?_⟩
  rw [(hstep j hlt).1, hremaining j hj]
  omega

/-- The pulse that follows an arrival, clock by clock. -/
lemma GlitchArrives.inject_iff (h : GlitchArrives inp t) {n : ℕ} (htn : t < n)
    (hn : n ≤ t + (run inp t).glitchNs.toNat + 3) :
    (run inp n).inject = true ↔
      if (run inp t).armed then n ≤ t + (run inp t).glitchCnt.toNat + 1
      else t + 2 ≤ n ∧ n ≤ t + 2 + (run inp t).glitchNs.toNat := by
  obtain ⟨hinject, hremaining⟩ := step_arrival h.type (h.active t le_rfl (by omega)) h.atPos
  rw [← run_succ] at hinject hremaining
  rcases Nat.eq_or_lt_of_le htn with rfl | hlt
  · rw [hinject]
    cases (run inp t).armed <;> simp
  · obtain ⟨j, rfl⟩ : ∃ j, n = t + 1 + j + 1 := ⟨n - t - 2, by omega⟩
    rw [(h.countdown (by omega)).2 (by omega), hremaining]
    cases (run inp t).armed
    · simp only [Bool.false_eq_true, if_false]
      omega
    · simp only [if_true]
      omega

/-- **Glitches.** A glitch is high for as many clocks as configured only if its arrival found
another under way that was going to last so long; one that begins with its arrival never is. -/
theorem highFor_width_iff (h : GlitchArrives inp t) :
    HighFor inp t (run inp t).glitchNs.toNat ↔
      (run inp t).armed = true ∧ (run inp t).glitchCnt.toNat + 1 = (run inp t).glitchNs.toNat := by
  have hinject := fun n => h.inject_iff (n := n)
  set g := (run inp t).glitchNs.toNat with hg
  constructor
  · rintro ⟨c, htc, hhigh⟩
    have hboth := fun n htn hn => (hinject n htn hn).symm.trans (hhigh n htn hn)
    cases harmed : (run inp t).armed with
    | false =>
      -- high at `t + 2` and at `t + 2 + g`, which are further apart than `g` consecutive clocks
      simp only [harmed, Bool.false_eq_true, if_false] at hboth
      have hfirst := (hboth (t + 2) (by omega) (by omega)).mp ⟨le_rfl, by omega⟩
      have hlast := (hboth (t + 2 + g) (by omega) (by omega)).mp ⟨by omega, le_rfl⟩
      have hbefore := mt (hboth (t + 1) (by omega) (by omega)).mpr (by omega)
      omega
    | true =>
      simp only [harmed, if_true] at hboth
      have hfirst := (hboth (t + 1) (by omega) (by omega)).mp (by omega)
      have hlast := (hboth (t + g) (by omega) (by omega)).mpr ⟨by omega, by omega⟩
      have hafter := mt (hboth (t + g + 1) (by omega) (by omega)).mp (by omega)
      exact ⟨rfl, by omega⟩
  · rintro ⟨harmed, hcnt⟩
    refine ⟨t + 1, Nat.lt_succ_self t, fun n htn hn => ?_⟩
    rw [hinject n htn hn, harmed, if_pos rfl]
    omega

/-- A glitch that begins with its arrival is high for one clock more than configured. -/
theorem highFor_iff_of_not_armed (h : GlitchArrives inp t) (harmed : (run inp t).armed = false)
    {k : ℕ} : HighFor inp t k ↔ k = (run inp t).glitchNs.toNat + 1 := by
  have hinject := fun n => h.inject_iff (n := n)
  simp only [harmed, Bool.false_eq_true, if_false] at hinject
  constructor
  · rintro ⟨c, htc, hhigh⟩
    have hboth := fun n htn hn => (hinject n htn hn).symm.trans (hhigh n htn hn)
    set g := (run inp t).glitchNs.toNat
    have hfirst := (hboth (t + 2) (by omega) (by omega)).mp ⟨le_rfl, by omega⟩
    have hlast := (hboth (t + 2 + g) (by omega) (by omega)).mp ⟨by omega, le_rfl⟩
    have hbefore := mt (hboth (t + 1) (by omega) (by omega)).mpr (by omega)
    have hafter := mt (hboth (t + 2 + g + 1) (by omega) (by omega)).mpr (by omega)
    omega
  · rintro rfl
    refine ⟨t + 2, by omega, fun n htn hn => ?_⟩
    rw [hinject n htn hn]
    omega

/-- While a glitch is under way the counter is past the position, by no more than the clocks that
have gone. -/
def PastPosition (s : ErrorInjector) : Prop :=
  s.armed = true → 0 < (s.bitCnt - s.bitPos).toNat ∧
    (s.bitCnt - s.bitPos).toNat + s.glitchCnt.toNat ≤ 256

lemma PastPosition.step {s : ErrorInjector} {i : In} (h : PastPosition s) (htype : s.type = 5)
    (hactive : i.frameActive = true) (hwe : i.cfgWe = false) : PastPosition (s.step i) := by
  intro harmed'
  have hon : s.type ≠ 0 := by rw [htype]; decide
  have hns := s.glitchNs.isLt
  rw [(step_config_of_steady hwe).2.1]
  cases harmed : s.armed with
  | true =>
    obtain ⟨hpos, hsum⟩ := h harmed
    have hne : ¬ s.glitchCnt = 0#8 := by
      intro hzero
      simp [ErrorInjector.step, htype, hactive, harmed, hzero] at harmed'
    have hdown : (s.step i).glitchCnt.toNat + 1 = s.glitchCnt.toNat := by
      rw [← Counter.toNat_sub_one hne]
      simp [ErrorInjector.step, htype, hactive, harmed, hne]
    obtain ⟨hle, hlt⟩ := step_bitCnt_le hon hactive (by omega) le_rfl hpos
    exact ⟨hlt, by omega⟩
  | false =>
    have harrive : s.atPos i = true := by
      by_contra hmiss
      simp [ErrorInjector.step, htype, hactive, harmed, hmiss] at harmed'
    have hload : (s.step i).glitchCnt = s.glitchNs := by
      simp [ErrorInjector.step, htype, hactive, harmed, harrive]
    simp only [atPos, Bool.and_eq_true, beq_iff_eq] at harrive
    have hcnt := step_bitCnt_of_active hon hactive
    rw [harrive.1, if_pos rfl, harrive.2] at hcnt
    rw [hcnt, add_sub_cancel_left, hload]
    exact ⟨Nat.one_pos, by rw [show (1 : BitVec 16).toNat = 1 from rfl]; omega⟩

/-- Only a rewritten configuration lets a glitch arrive while another is under way: within a frame
the counter does not come round so soon. -/
lemma not_armed_of_arrival (hbegins : FrameBegins inp a) (htype : (run inp a).type = 5)
    (hat : a ≤ t) (hframe : InFrame inp a t)
    (hsteady : ∀ e, a ≤ e → e < t → (inp e).cfgWe = false)
    (hpos : (run inp t).atPos (inp t) = true) : (run inp t).armed = false := by
  have hinv : (run inp t).type = 5 ∧ PastPosition (run inp t) := by
    clear hpos
    induction t, hat using Nat.le_induction with
    | base =>
      refine ⟨htype, fun harmed => ?_⟩
      rw [hbegins.start.2.1] at harmed
      cases harmed
    | succ n hn ih =>
      obtain ⟨htype', hpast⟩ := ih (hframe.mono (Nat.le_succ n))
        fun e he hen => hsteady e he (Nat.lt_succ_of_lt hen)
      have hwe := hsteady n hn (Nat.lt_succ_self n)
      exact ⟨(step_config_of_steady hwe).1.trans htype', hpast.step htype' (hframe.last hn) hwe⟩
  by_contra harmed
  obtain ⟨hlt, -⟩ := hinv.2 (by simpa using harmed)
  simp only [atPos, Bool.and_eq_true, beq_iff_eq] at hpos
  rw [hpos.2, sub_self] at hlt
  exact absurd hlt (by decide)

/-- In a frame with one configuration from its beginning no glitch has the configured width. -/
theorem not_highFor_width (hbegins : FrameBegins inp a) (htype : (run inp a).type = 5)
    (hat : a ≤ t) (hframe : InFrame inp a t)
    (hsteady : ∀ e, a ≤ e → e < t → (inp e).cfgWe = false) (h : GlitchArrives inp t) :
    ¬ HighFor inp t (run inp t).glitchNs.toNat := by
  rw [highFor_iff_of_not_armed h (not_armed_of_arrival hbegins htype hat hframe hsteady h.atPos)]
  exact (Nat.lt_succ_self _).ne

/-- A glitch of two clocks at bit 0, configured at clock 0; a frame with its first strobe at clock
1. -/
def twoClockGlitch (n : ℕ) : In := ⟨n == 0, 5, 0, 2, n != 0, n == 1⟩

lemma twoClockGlitch_arrives : GlitchArrives twoClockGlitch 1 where
  type := by decide
  atPos := by decide
  active := fun e he _ => by simp [twoClockGlitch]; omega
  steady := fun e he _ => by simp [twoClockGlitch]; omega

/-- No glitch is under way when it arrives, so it does not take two clocks. -/
theorem highFor_width_iff_twoClockGlitch : (run twoClockGlitch 1).armed = false ∧
    ¬ HighFor twoClockGlitch 1 (run twoClockGlitch 1).glitchNs.toNat := by
  refine ⟨by decide, fun h => ?_⟩
  exact absurd ((highFor_width_iff twoClockGlitch_arrives).mp h).1 (by decide)

/-- It is high at the clocks 3, 4 and 5. -/
theorem glitch_too_long : ¬ ∀ (inp : ℕ → In) (t : ℕ), GlitchArrives inp t →
    HighFor inp t (run inp t).glitchNs.toNat := by
  intro h
  obtain ⟨c, -, hhigh⟩ := h twoClockGlitch 1 twoClockGlitch_arrives
  have hwidth : (run twoClockGlitch 1).glitchNs.toNat = 2 := by decide
  rw [hwidth] at hhigh
  have hfirst := (hhigh 3 (by decide) (by decide)).mp (by decide)
  have hlast := (hhigh 5 (by decide) (by decide)).mp (by decide)
  omega

end Glitch

end ErrorInjector

end BusTestPlatform

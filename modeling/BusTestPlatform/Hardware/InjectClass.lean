import BusTestPlatform.Hardware.InjectWidth

/-!
# What the types of an injection mean

Six of the eight types do the same. A configuration switches the injector off, or sets `inject` for
the strobe of a bit, or lets a glitch of some width begin with it; nothing else about it can be told
from the line.
-/

namespace BusTestPlatform

open Clocked

namespace ErrorInjector

/-- The configuration registers. -/
structure Config where
  type : BitVec 3
  bitPos : BitVec 16
  glitchNs : BitVec 8
deriving DecidableEq

/-- What a configuration asks for. -/
inductive Behaviour
  | off
  | single (bitPos : BitVec 16)
  | glitch (bitPos : BitVec 16) (width : BitVec 8)
deriving DecidableEq

def Config.behaviour (c : Config) : Behaviour :=
  if c.type = 0 then .off
  else if c.type = 5 then .glitch c.bitPos c.glitchNs
  else .single c.bitPos

def config (s : ErrorInjector) : Config := ⟨s.type, s.bitPos, s.glitchNs⟩

def In.config (i : In) : Config := ⟨i.cfgType, i.cfgBitPos, i.cfgGlitchNs⟩

/-- The inputs with `c'` for `c` on the configuration wires. -/
def In.replace (c c' : Config) (i : In) : In :=
  if i.config = c then
    { i with cfgType := c'.type, cfgBitPos := c'.bitPos, cfgGlitchNs := c'.glitchNs }
  else i

/-- In no run, whatever else is written in it and when, does it make a difference to the line if
`c'` is written for `c`. -/
def Interchangeable (c c' : Config) : Prop :=
  ∀ (inp : ℕ → In) (n : ℕ), (run (fun k => (inp k).replace c c') n).inject = (run inp n).inject

/-! ### Configurations of one behaviour -/

lemma behaviour_eq_iff {c c' : Config} : c.behaviour = c'.behaviour ↔
    (c.type = 0 ↔ c'.type = 0) ∧ (c.type = 5 ↔ c'.type = 5) ∧
      (c.type ≠ 0 → c.bitPos = c'.bitPos) ∧ (c.type = 5 → c.glitchNs = c'.glitchNs) := by
  unfold Config.behaviour
  split_ifs with h0 h0' h5' h5 h0' h5' h0' h5' <;> simp_all

/-- The two injectors differ at most in what a configuration of one behaviour leaves open. -/
structure Alike (s t : ErrorInjector) : Prop where
  behaviour : s.config.behaviour = t.config.behaviour
  bitCnt : s.bitCnt = t.bitCnt
  glitchCnt : s.glitchCnt = t.glitchCnt
  armed : s.armed = t.armed
  inject : s.inject = t.inject

/-- The inputs differ at most in a configuration of one behaviour. -/
structure In.Alike (i j : In) : Prop where
  behaviour : i.config.behaviour = j.config.behaviour
  cfgWe : i.cfgWe = j.cfgWe
  frameActive : i.frameActive = j.frameActive
  bitTick : i.bitTick = j.bitTick

lemma config_step (s : ErrorInjector) (i : In) :
    (s.step i).config = if i.cfgWe then i.config else s.config := by
  cases hwe : i.cfgWe <;> simp [step, config, In.config, hwe]

lemma Alike.step {s t : ErrorInjector} {i j : In} (h : Alike s t) (hin : i.Alike j) :
    Alike (s.step i) (t.step j) := by
  obtain ⟨hoff, hglitch, hpos, hns⟩ := behaviour_eq_iff.mp h.behaviour
  simp only [config] at hoff hglitch hpos hns
  have hbehaviour : (s.step i).config.behaviour = (t.step j).config.behaviour := by
    rw [config_step, config_step, hin.cfgWe, apply_ite Config.behaviour, apply_ite Config.behaviour,
      hin.behaviour, h.behaviour]
  by_cases htype : s.type = 0#3
  · have htype' : t.type = 0#3 := hoff.mp htype
    refine ⟨hbehaviour, ?_, ?_, ?_, ?_⟩ <;>
      simp [ErrorInjector.step, htype, htype', h.bitCnt, h.glitchCnt]
  · have htype' : ¬ t.type = 0#3 := mt hoff.mpr htype
    have hat : s.atPos i = t.atPos j := by
      rw [atPos, atPos, hin.bitTick, h.bitCnt, hpos htype]
    by_cases hfive : s.type = 5#3
    · have hfive' : t.type = 5#3 := hglitch.mp hfive
      refine ⟨hbehaviour, ?_, ?_, ?_, ?_⟩ <;>
        simp [ErrorInjector.step, hfive, hfive', hat, hns hfive, hin.frameActive, hin.bitTick,
          h.bitCnt, h.glitchCnt, h.armed]
    · have hfive' : ¬ t.type = 5#3 := mt hglitch.mpr hfive
      have hne : (s.type != 5#3) = (t.type != 5#3) := by
        rw [bne_iff_ne.mpr hfive, bne_iff_ne.mpr hfive']
      refine ⟨hbehaviour, ?_, ?_, ?_, ?_⟩ <;>
        simp [ErrorInjector.step, htype, htype', hfive, hfive', hne, hat, hin.frameActive,
          hin.bitTick, h.bitCnt, h.glitchCnt, h.armed]

lemma In.replace_alike {c c' : Config} (h : c.behaviour = c'.behaviour) (i : In) :
    (i.replace c c').Alike i := by
  unfold In.replace
  split_ifs with hc
  · refine ⟨?_, rfl, rfl, rfl⟩
    rw [hc]
    exact h.symm
  · exact ⟨rfl, rfl, rfl, rfl⟩

lemma interchangeable_of_behaviour {c c' : Config} (h : c.behaviour = c'.behaviour) :
    Interchangeable c c' := by
  intro inp n
  have halike : Alike (run (fun k => (inp k).replace c c') n) (run inp n) := by
    induction n with
    | zero => exact ⟨rfl, rfl, rfl, rfl, rfl⟩
    | succ n ih => exact ih.step (In.replace_alike h (inp n))
  exact halike.inject

/-! ### Telling configurations apart -/

/-- `c` is written at clock 0, and then a frame has `k` strobes, one at each clock, and no more. -/
def probe (c : Config) (k n : ℕ) : In :=
  ⟨n == 0, c.type, c.bitPos, c.glitchNs, n != 0, n != 0 && decide (n ≤ k)⟩

/-- With `k` strobes the line is disturbed at clock `n`. -/
def Shows (c : Config) (k n : ℕ) : Prop := (run (probe c k) n).inject = true

variable {c c' : Config} {k n : ℕ}

lemma replace_probe (c c' : Config) (k n : ℕ) :
    (probe c k n).replace c c' = probe c' k n := by
  simp [In.replace, In.config, probe]

lemma run_probe_one (c : Config) (k : ℕ) : run (probe c k) 1 =
    { reset with type := c.type, bitPos := c.bitPos, glitchNs := c.glitchNs } := rfl

lemma config_probe (c : Config) (k n : ℕ) : (run (probe c k) (n + 1)).config = c := by
  induction n with
  | zero => rfl
  | succ n ih =>
    rw [run_succ, config_step, ih]
    simp [probe]

lemma type_probe (c : Config) (k n : ℕ) : (run (probe c k) (n + 1)).type = c.type :=
  congrArg Config.type (config_probe c k n)

lemma bitPos_probe (c : Config) (k n : ℕ) : (run (probe c k) (n + 1)).bitPos = c.bitPos :=
  congrArg Config.bitPos (config_probe c k n)

lemma bitCnt_probe (htype : c.type ≠ 0) :
    (run (probe c k) (n + 1)).bitCnt = BitVec.ofNat 16 (min n k) := by
  induction n with
  | zero =>
    rw [run_probe_one, Nat.zero_min]
    rfl
  | succ n ih =>
    rw [run_succ, step_bitCnt_of_active (by rwa [type_probe]) rfl, ih]
    rcases Nat.lt_or_ge n k with hlt | hge
    · have htick : (probe c k (n + 1)).bitTick = true := by simpa [probe] using hlt
      rw [if_pos htick, Nat.min_eq_left hlt.le, Nat.min_eq_left hlt, Counter.ofNat_succ]
    · have htick : ¬ (probe c k (n + 1)).bitTick = true := by simpa [probe] using hge
      rw [if_neg htick, Nat.min_eq_right hge, Nat.min_eq_right (Nat.le_succ_of_le hge)]

/-- The strobe that comes to the position is number `bit_pos`. -/
lemma atPos_probe (htype : c.type ≠ 0) (hk : k ≤ 2 ^ 16) :
    (run (probe c k) (n + 1)).atPos (probe c k (n + 1)) = true ↔ n = c.bitPos.toNat ∧ n < k := by
  rw [atPos, Bool.and_eq_true, beq_iff_eq, bitCnt_probe htype, bitPos_probe]
  have htick : (probe c k (n + 1)).bitTick = true ↔ n < k := by simp [probe]
  rw [htick, and_comm, and_congr_left_iff]
  intro hlt
  rw [Nat.min_eq_left hlt.le, ← BitVec.toNat_inj, BitVec.toNat_ofNat,
    Nat.mod_eq_of_lt (hlt.trans_le hk)]

lemma not_shows_zero (c : Config) (k : ℕ) : ¬ Shows c k 0 := Bool.false_ne_true

lemma not_shows_one (c : Config) (k : ℕ) : ¬ Shows c k 1 := by
  rw [Shows, run_probe_one]
  exact Bool.false_ne_true

lemma type_of_off (hc : c.behaviour = .off) : c.type = 0#3 := by
  unfold Config.behaviour at hc
  split_ifs at hc with h0
  exact h0

lemma type_of_single {b : BitVec 16} (hc : c.behaviour = .single b) :
    c.type ≠ 0#3 ∧ c.type ≠ 5#3 ∧ c.bitPos = b := by
  unfold Config.behaviour at hc
  split_ifs at hc with h0 h5
  exact ⟨h0, h5, Behaviour.single.inj hc⟩

lemma type_of_glitch {b : BitVec 16} {g : BitVec 8} (hc : c.behaviour = .glitch b g) :
    c.type = 5#3 ∧ c.bitPos = b ∧ c.glitchNs = g := by
  unfold Config.behaviour at hc
  split_ifs at hc with h0 h5
  exact ⟨h5, Behaviour.glitch.inj hc⟩

lemma not_shows_off (hc : c.behaviour = .off) : ¬ Shows c k n := by
  match n with
  | 0 => exact not_shows_zero c k
  | 1 => exact not_shows_one c k
  | n + 2 =>
    have hoff := (type_probe c k n).trans (type_of_off hc)
    rw [Shows, run_succ]
    simp [step, hoff]

/-- Nothing is armed, and nothing shows, before the strobe of the position. -/
lemma quiet_probe (htype : c.type ≠ 0) (hk : k ≤ 2 ^ 16)
    (hn : n ≤ c.bitPos.toNat ∨ k ≤ c.bitPos.toNat) :
    (run (probe c k) (n + 1)).armed = false ∧ ¬ Shows c k (n + 1) := by
  induction n with
  | zero => exact ⟨rfl, not_shows_one c k⟩
  | succ n ih =>
    obtain ⟨harmed, -⟩ := ih (hn.imp_left Nat.le_of_succ_le)
    have hat : (run (probe c k) (n + 1)).atPos (probe c k (n + 1)) = false := by
      rw [← Bool.not_eq_true, atPos_probe htype hk]
      rintro ⟨rfl, hlt⟩
      omega
    rw [Shows, run_succ]
    simp [step, harmed, hat]

lemma armed_probe (h5 : c.type ≠ 5#3) : (run (probe c k) (n + 1)).armed = false := by
  induction n with
  | zero => rfl
  | succ n ih =>
    have htype : ¬ (run (probe c k) (n + 1)).type = 5#3 := by rwa [type_probe]
    rw [run_succ]
    simp [step, ih, htype]

/-- A bit error shows at the clock after its strobe. -/
lemma shows_single {b : BitVec 16} (hc : c.behaviour = .single b) (hk : k ≤ 2 ^ 16) :
    Shows c k n ↔ n = b.toNat + 2 ∧ b.toNat < k := by
  obtain ⟨h0, h5, rfl⟩ := type_of_single hc
  match n with
  | 0 => exact iff_of_false (not_shows_zero c k) (by simp)
  | 1 => exact iff_of_false (not_shows_one c k) (by simp)
  | n + 2 =>
    have h0' : ¬ (run (probe c k) (n + 1)).type = 0#3 := by rwa [type_probe]
    have h5' : ((run (probe c k) (n + 1)).type != 5#3) = true := by rwa [type_probe, bne_iff_ne]
    have hshow : Shows c k (n + 2) ↔
        (run (probe c k) (n + 1)).atPos (probe c k (n + 1)) = true := by
      rw [Shows, run_succ]
      simp [step, h0', h5', armed_probe h5, probe]
    rw [hshow, atPos_probe h0 hk, Nat.add_right_cancel_iff]
    exact and_congr_right fun heq => by rw [heq]

lemma not_shows_glitch {b : BitVec 16} {g : BitVec 8} (hc : c.behaviour = .glitch b g)
    (hk : k ≤ b.toNat) : ¬ Shows c k n := by
  obtain ⟨h5, rfl, -⟩ := type_of_glitch hc
  have h0 : c.type ≠ 0 := by rw [h5]; decide
  cases n with
  | zero => exact not_shows_zero c k
  | succ n => exact (quiet_probe h0 (hk.trans c.bitPos.isLt.le) (Or.inr hk)).2

/-- A glitch shows from the second clock after its strobe on, for one clock more than its width. -/
lemma shows_glitch {b : BitVec 16} {g : BitVec 8} (hc : c.behaviour = .glitch b g)
    (hk : b.toNat < k) (hk' : k ≤ 2 ^ 16) (hn : n ≤ b.toNat + g.toNat + 4) :
    Shows c k n ↔ b.toNat + 3 ≤ n ∧ n ≤ b.toNat + 3 + g.toNat := by
  obtain ⟨h5, rfl, rfl⟩ := type_of_glitch hc
  have h0 : c.type ≠ 0 := by rw [h5]; decide
  have hns : (run (probe c k) (c.bitPos.toNat + 1)).glitchNs = c.glitchNs :=
    congrArg Config.glitchNs (config_probe c k _)
  rcases Nat.lt_or_ge (c.bitPos.toNat + 1) n with hlt | hge
  · have harrives : GlitchArrives (probe c k) (c.bitPos.toNat + 1) := by
      refine ⟨(type_probe c k _).trans h5, (atPos_probe h0 hk').mpr ⟨rfl, hk⟩, ?_, ?_⟩
      · intro e he _
        simp only [probe, bne_iff_ne]
        omega
      · intro e he _
        simp only [probe, beq_eq_false_iff_ne]
        omega
    have hiff := harrives.inject_iff hlt (by rw [hns]; omega)
    rw [(quiet_probe h0 hk' (Or.inl le_rfl)).1, if_neg Bool.false_ne_true, hns] at hiff
    rw [Shows, hiff]
  · refine iff_of_false ?_ (by omega)
    cases n with
    | zero => exact not_shows_zero c k
    | succ n => exact (quiet_probe h0 hk' (Or.inl (Nat.le_of_succ_le_succ hge))).2

lemma Interchangeable.shows (h : Interchangeable c c') (k n : ℕ) : Shows c' k n ↔ Shows c k n := by
  have hrun := h (probe c k) n
  simp only [replace_probe] at hrun
  rw [Shows, Shows, hrun]

lemma shows_single_self {b : BitVec 16} (hc : c.behaviour = .single b) :
    Shows c (b.toNat + 1) (b.toNat + 2) :=
  (shows_single hc b.isLt).mpr ⟨rfl, Nat.lt_succ_self _⟩

lemma shows_glitch_self {b : BitVec 16} {g : BitVec 8} (hc : c.behaviour = .glitch b g) :
    Shows c (b.toNat + 1) (b.toNat + 3) :=
  (shows_glitch hc (Nat.lt_succ_self _) b.isLt (by omega)).mpr ⟨le_rfl, Nat.le_add_right _ _⟩

/-- A glitch is not confused with a bit error, even where it lasts one clock: the strobe of the
latter has yet to come. -/
lemma not_single_of_glitch {b b' : BitVec 16} {g : BitVec 8}
    (h : ∀ k n, Shows c k n → Shows c' k n) (hc : c.behaviour = .glitch b g)
    (hc' : c'.behaviour = .single b') : False := by
  have hshow := (shows_single hc' b.isLt).mp (h _ _ (shows_glitch_self hc))
  omega

lemma pos_le_of_glitch {b b' : BitVec 16} {g g' : BitVec 8}
    (h : ∀ k n, Shows c k n → Shows c' k n) (hc : c.behaviour = .glitch b g)
    (hc' : c'.behaviour = .glitch b' g') : b'.toNat ≤ b.toNat := by
  by_contra hlt
  exact not_shows_glitch hc' (by omega) (h _ _ (shows_glitch_self hc))

lemma width_le_of_glitch {b : BitVec 16} {g g' : BitVec 8}
    (h : ∀ k n, Shows c k n → Shows c' k n) (hc : c.behaviour = .glitch b g)
    (hc' : c'.behaviour = .glitch b g') : g.toNat ≤ g'.toNat := by
  by_contra hlt
  have hlast := (shows_glitch hc (n := b.toNat + g'.toNat + 4) (Nat.lt_succ_self _) b.isLt
    (by omega)).mpr (by omega)
  have hlast' := (shows_glitch hc' (Nat.lt_succ_self _) b.isLt le_rfl).mp (h _ _ hlast)
  omega

/-- **Types.** Two configurations are told apart by some run exactly if they differ in behaviour:
the type is 0, or 5 with the position and the width, or any of the others with the position. -/
theorem interchangeable_iff (c c' : Config) :
    Interchangeable c c' ↔ c.behaviour = c'.behaviour := by
  refine ⟨fun h => ?_, interchangeable_of_behaviour⟩
  have hto := fun k n => (h.shows k n).mpr
  have hfrom := fun k n => (h.shows k n).mp
  cases hc : c.behaviour with
  | off =>
    cases hc' : c'.behaviour with
    | off => rfl
    | single b => exact absurd (hfrom _ _ (shows_single_self hc')) (not_shows_off hc)
    | glitch b g => exact absurd (hfrom _ _ (shows_glitch_self hc')) (not_shows_off hc)
  | single b =>
    cases hc' : c'.behaviour with
    | off => exact absurd (hto _ _ (shows_single_self hc)) (not_shows_off hc')
    | single b' =>
      have hshow := (shows_single hc' b.isLt).mp (hto _ _ (shows_single_self hc))
      rw [BitVec.eq_of_toNat_eq (Nat.add_right_cancel hshow.1)]
    | glitch b' g => exact (not_single_of_glitch hfrom hc' hc).elim
  | glitch b g =>
    cases hc' : c'.behaviour with
    | off => exact absurd (hto _ _ (shows_glitch_self hc)) (not_shows_off hc')
    | single b' => exact (not_single_of_glitch hto hc hc').elim
    | glitch b' g' =>
      obtain rfl : b = b' := BitVec.eq_of_toNat_eq
        (Nat.le_antisymm (pos_le_of_glitch hfrom hc' hc) (pos_le_of_glitch hto hc hc'))
      obtain rfl : g = g' := BitVec.eq_of_toNat_eq
        (Nat.le_antisymm (width_le_of_glitch hto hc hc') (width_le_of_glitch hfrom hc' hc))
      rfl

end ErrorInjector

end BusTestPlatform

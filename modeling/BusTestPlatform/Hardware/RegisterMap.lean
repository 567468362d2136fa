import BusTestPlatform.Hardware.Top

/-!
# The register map

Which registers an MCU access can reach. A control register of the map is a `Reg`, `addr` is its
address, and `held` is what its block stores for it. An edge that leaves the register alone makes
`coast` of it: the configuration as it was, the write pointer of a sampler and the deadline of a
slot moved by the block's own engine.

Filters, injectors and slots decode `mcu_we` and the address. The samplers do not: `smp_we` drives
nothing, and every `u_sampler` listens to bits 0 and 1 of the data bus at every edge.
-/

namespace BusTestPlatform

open Clocked

namespace Top

/-- The control registers of the map that belong to one channel or slot. -/
inductive Reg where
  | fltCfg (ch : Fin 4)
  | injCfg (ch : Fin 4)
  | smpCtrl (ch : Fin 4)
  | txsCfg (slot : BitVec 4)
deriving DecidableEq, Repr

/-- The address of a register: the block's base plus the channel or slot. -/
def Reg.addr : Reg → BitVec 8
  | fltCfg ch => 0x20 + BitVec.ofNat 8 ch
  | injCfg ch => 0x30 + BitVec.ofNat 8 ch
  | smpCtrl ch => 0x40 + BitVec.ofNat 8 ch
  | txsCfg slot => 0x50 + slot.setWidth 8

/-- What a block stores for a control register. -/
inductive Held where
  | fltCfg (f : HwFilter)
  | injCfg (type : BitVec 3) (bitPos : BitVec 16) (glitchNs : BitVec 8)
  | smpCtrl (captureOn : Bool) (wp : BitVec 12)
  | txsCfg (period next : BitVec 32)

/-- The part that only configuration and arm/stop commands set: not the write pointer of a
sampler and not the deadline of a slot. -/
def Held.config : Held → Held
  | .smpCtrl captureOn _ => .smpCtrl captureOn 0
  | .txsCfg period _ => .txsCfg period 0
  | h => h

def held (s : Top) : Reg → Held
  | .fltCfg c => .fltCfg (s.ch c).filter
  | .injCfg c =>
    .injCfg (s.ch c).injector.type (s.ch c).injector.bitPos (s.ch c).injector.glitchNs
  | .smpCtrl c => .smpCtrl (s.ch c).sampler.captureOn (s.ch c).sampler.wp
  | .txsCfg k => .txsCfg (s.txs.period k) (s.txs.next k)

/-- What an edge that leaves the register alone makes of it. -/
def coast (s : Top) : Reg → Held
  | .fltCfg c => s.held (.fltCfg c)
  | .injCfg c => s.held (.injCfg c)
  | .smpCtrl c =>
    let u := (s.ch c).sampler
    .smpCtrl u.captureOn (if u.captureOn then u.wp + 1 else u.wp)
  | .txsCfg k =>
    .txsCfg (s.txs.period k)
      (if s.txs.dispatchPulse = true ∧ s.txs.dispatchSlot = k then s.txs.next k + s.txs.period k
       else s.txs.next k)

lemma coast_config (s : Top) (r : Reg) : (s.coast r).config = (s.held r).config := by
  cases r <;> rfl

/-- The MCU writes the register at this edge. -/
def In.Writes (i : In) (r : Reg) : Prop := i.mcuWe = true ∧ i.mcuAddr = r.addr

instance (i : In) (r : Reg) : Decidable (i.Writes r) := inferInstanceAs (Decidable (_ ∧ _))

/-- At this edge no register but the one that the MCU writes is changed. -/
def Isolated (s : Top) (i : In) : Prop :=
  ∀ r, (s.step i).held r ≠ s.coast r → i.Writes r

/-- Every sampler that the MCU does not write has the state that bits 0 and 1 of the data bus ask
for: not capturing if bit 1 is set, capturing if bit 0 alone is. -/
def SamplersAgree (s : Top) (i : In) : Prop :=
  ∀ c, ¬ i.Writes (.smpCtrl c) →
    (i.mcuWdata.getLsbD 1 = true → (s.ch c).sampler.captureOn = false) ∧
    (i.mcuWdata.getLsbD 0 = true → i.mcuWdata.getLsbD 1 = false →
      (s.ch c).sampler.captureOn = true)

/-! ### Decoding -/

/-- Distinct registers have distinct addresses. -/
lemma Reg.addr_injective : Function.Injective Reg.addr := by
  intro r r' h
  cases r <;> cases r' <;> simp only [Reg.addr] at h <;> congr 1 <;> bv_omega

/-- A write changes no register but its own. -/
lemma Isolated.eq_of_writes {s : Top} {i : In} {r r' : Reg} (h : Isolated s i)
    (hw : i.Writes r) (hne : (s.step i).held r' ≠ s.coast r') : r' = r :=
  Reg.addr_injective ((h r' hne).2.symm.trans hw.2)

lemma In.decode_iff (i : In) (hi k : BitVec 4) :
    (i.block = hi ∧ i.index = k) ↔ i.mcuAddr = hi.setWidth 8 <<< 4 + k.setWidth 8 := by
  simp only [In.block, In.index, BitVec.toNat_eq, BitVec.extractLsb'_toNat, BitVec.toNat_add,
    BitVec.toNat_shiftLeft, BitVec.toNat_setWidth, Nat.shiftRight_eq_div_pow, Nat.shiftLeft_eq]
  have hh := hi.isLt
  have hk := k.isLt
  have ha := i.mcuAddr.isLt
  omega

lemma In.channelWe_iff (i : In) (hi : BitVec 4) (c : Fin 4) :
    i.channelWe hi c = true ↔
      i.mcuWe = true ∧ i.mcuAddr = hi.setWidth 8 <<< 4 + BitVec.ofNat 8 c := by
  have hc : (BitVec.ofNat 4 c).setWidth 8 = BitVec.ofNat 8 c := by
    apply BitVec.eq_of_toNat_eq
    simp only [BitVec.toNat_setWidth, BitVec.toNat_ofNat]
    omega
  rw [← hc, ← In.decode_iff]
  simp [In.channelWe, and_assoc]

/-! ### One edge -/

section
variable (s : Top) (i : In) (c : Fin 4) (k : BitVec 4)

lemma held_fltCfg_step :
    (s.step i).held (.fltCfg c) =
      if i.Writes (.fltCfg c) then
        .fltCfg
          { mask := i.mcuWdata.setWidth 29, value := i.mcuWdata.setWidth 29,
            lo := i.mcuWdata.setWidth 29, hi := i.mcuWdata.setWidth 29,
            acceptExt := i.mcuWdata.getLsbD 31 }
      else s.held (.fltCfg c) := by
  have hwe : i.channelWe 2 c = true ↔ i.Writes (.fltCfg c) := In.channelWe_iff i 2 c
  have hstep : (s.step i).held (.fltCfg c) =
      .fltCfg
        (if i.channelWe 2 c = true then
          { mask := i.mcuWdata.setWidth 29, value := i.mcuWdata.setWidth 29,
            lo := i.mcuWdata.setWidth 29, hi := i.mcuWdata.setWidth 29,
            acceptExt := i.mcuWdata.getLsbD 31 }
         else (s.ch c).filter) := rfl
  rw [hstep]
  simp only [hwe]
  split <;> rfl

lemma held_injCfg_step :
    (s.step i).held (.injCfg c) =
      if i.Writes (.injCfg c) then
        .injCfg (i.mcuWdata.extractLsb' 0 3) (i.mcuWdata.extractLsb' 3 16)
          (i.mcuWdata.extractLsb' 19 8)
      else s.held (.injCfg c) := by
  have hwe : i.channelWe 3 c = true ↔ i.Writes (.injCfg c) := In.channelWe_iff i 3 c
  have hstep : (s.step i).held (.injCfg c) =
      .injCfg
        (if i.channelWe 3 c = true then i.mcuWdata.extractLsb' 0 3 else (s.ch c).injector.type)
        (if i.channelWe 3 c = true then i.mcuWdata.extractLsb' 3 16 else (s.ch c).injector.bitPos)
        (if i.channelWe 3 c = true then i.mcuWdata.extractLsb' 19 8
         else (s.ch c).injector.glitchNs) := rfl
  rw [hstep]
  simp only [hwe]
  split <;> rfl

/-- The sampler's registers follow the data bus, whatever `mcu_we` and the address are. -/
lemma held_smpCtrl_step :
    (s.step i).held (.smpCtrl c) =
      .smpCtrl
        (if i.mcuWdata.getLsbD 1 then false
         else if i.mcuWdata.getLsbD 0 then true
         else (s.ch c).sampler.captureOn)
        (if (s.ch c).sampler.captureOn then (s.ch c).sampler.wp + 1 else (s.ch c).sampler.wp) := rfl

lemma cfgWe_iff :
    ((i.txsIn s.ts.tsNow s.txs.dispatchPulse).cfgWe = true ∧
        (i.txsIn s.ts.tsNow s.txs.dispatchPulse).cfgSlot = k) ↔ i.Writes (.txsCfg k) := by
  have hdec := In.decode_iff i 5 k
  simp only [In.txsIn, Bool.and_eq_true, beq_iff_eq, and_assoc, hdec]
  rfl

/-- Without a write to it a slot keeps its period, and its deadline moves at its dispatch only. -/
lemma held_txsCfg_step (hno : ¬ i.Writes (.txsCfg k)) :
    (s.step i).held (.txsCfg k) = s.coast (.txsCfg k) := by
  have hwe := mt (cfgWe_iff s i k).mp hno
  have hperiod : (s.step i).txs.period k = s.txs.period k :=
    (TxScheduler.step_period _ _ k).trans (if_neg hwe)
  by_cases hack : s.txs.dispatchPulse = true ∧ s.txs.dispatchSlot = k
  · have hnext : (s.step i).txs.next k = s.txs.next k + s.txs.period k :=
      TxScheduler.step_next_of_ack _ _ k hack.1 hack.2 hwe
    simp [held, coast, hperiod, hnext, hack]
  · have hnext : (s.step i).txs.next k = s.txs.next k :=
      TxScheduler.step_next_of_quiet _ _ k hwe hack
    simp [held, coast, hperiod, hnext, hack]

/-- A sampler coasts exactly when the data bus asks for the state it is in. -/
lemma held_smpCtrl_step_eq_coast_iff :
    (s.step i).held (.smpCtrl c) = s.coast (.smpCtrl c) ↔
      (i.mcuWdata.getLsbD 1 = true → (s.ch c).sampler.captureOn = false) ∧
      (i.mcuWdata.getLsbD 0 = true → i.mcuWdata.getLsbD 1 = false →
        (s.ch c).sampler.captureOn = true) := by
  rw [held_smpCtrl_step]
  simp only [coast, Held.smpCtrl.injEq, and_true]
  cases i.mcuWdata.getLsbD 1 <;> cases i.mcuWdata.getLsbD 0 <;>
    cases (s.ch c).sampler.captureOn <;> simp

/-- An edge is isolated exactly when the samplers that it does not write agree with the bus. -/
lemma isolated_iff : Isolated s i ↔ SamplersAgree s i := by
  constructor
  · intro h c hno
    by_contra hne
    exact hno (h (.smpCtrl c) (mt (held_smpCtrl_step_eq_coast_iff s i c).mp hne))
  · intro h r hne
    by_contra hno
    apply hne
    cases r with
    | fltCfg c => exact (held_fltCfg_step s i c).trans (if_neg hno)
    | injCfg c => exact (held_injCfg_step s i c).trans (if_neg hno)
    | smpCtrl c => exact (held_smpCtrl_step_eq_coast_iff s i c).mpr (h c hno)
    | txsCfg k => exact held_txsCfg_step s i k hno

end

/-! ### Runs -/

section
variable (mem : Fin 4 → BitVec 12 → Bool) (inp : ℕ → In)

/-- **Register-map isolation.** The edges of a run change no register that they do not write
exactly when at each of them the samplers that are not written already have the state that bits
0 and 1 of the data bus ask for. -/
theorem run_isolated_iff (N : ℕ) :
    (∀ n < N, Isolated (run mem inp n) (inp n)) ↔
      ∀ n < N, SamplersAgree (run mem inp n) (inp n) :=
  forall₂_congr fun n _ => isolated_iff (run mem inp n) (inp n)

/-- A bus at rest with bit 0 of the data lines high. -/
def idleBus (_ : ℕ) : In where
  ppsIn := false
  mcuAddr := 0x00
  mcuWdata := 1
  mcuWe := false
  ackLast := true

/-- The first idle cycle after reset arms every sampler. -/
theorem idle_bus_arms :
    ¬ ∀ (mem : Fin 4 → BitVec 12 → Bool) (inp : ℕ → In) (n : ℕ),
      Isolated (run mem inp n) (inp n) := by
  intro h
  have hagree := (isolated_iff _ _).mp (h (fun _ _ => false) idleBus 0)
  exact absurd ((hagree 0 (by decide)).2 rfl rfl) (by decide)

/-- The samplers of all channels move as one. -/
theorem samplers_in_step (c c' : Fin 4) (n : ℕ) :
    (run mem inp n).held (.smpCtrl c) = (run mem inp n).held (.smpCtrl c') := by
  induction n with
  | zero => rfl
  | succ n ih =>
    simp only [held, Held.smpCtrl.injEq] at ih
    rw [run_succ, held_smpCtrl_step, held_smpCtrl_step, ih.1, ih.2]

/-- As long as the samplers agree with the bus, a register that is not written keeps its
configuration. -/
theorem config_stable {r : Reg} {a b : ℕ} (hab : a ≤ b)
    (hagree : ∀ n, a ≤ n → n < b → SamplersAgree (run mem inp n) (inp n))
    (hno : ∀ n, a ≤ n → n < b → ¬ (inp n).Writes r) :
    ((run mem inp b).held r).config = ((run mem inp a).held r).config := by
  refine Clocked.runFrom_stable (fun s : Top => (s.held r).config) hab fun n hn hb => ?_
  have hisolated : Isolated (run mem inp n) (inp n) := (isolated_iff _ _).mpr (hagree n hn hb)
  have hcoast : (run mem inp (n + 1)).held r = (run mem inp n).coast r := by
    by_contra hne
    exact hno n hn hb (hisolated r hne)
  exact (congrArg Held.config hcoast).trans (coast_config _ r)

end

end Top

end BusTestPlatform

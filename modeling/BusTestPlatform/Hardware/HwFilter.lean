import BusTestPlatform.Lib.Clocked

/-!
# `hw_filter.v`

One channel's identifier filter (`ID_WIDTH = 29`): three tests, or-ed.

None of them can be switched off. Whatever is configured, the frames of one of the two types pass
with any identifier.
-/

namespace BusTestPlatform

/-- Configuration registers of `hw_filter`. -/
structure HwFilter where
  mask : BitVec 29
  value : BitVec 29
  lo : BitVec 29
  hi : BitVec 29
  acceptExt : Bool
deriving DecidableEq, Repr

namespace HwFilter

/-- Configuration inputs of `hw_filter` at one clock edge. -/
structure In where
  cfgWe : Bool
  cfgMask : BitVec 29
  cfgValue : BitVec 29
  cfgLo : BitVec 29
  cfgHi : BitVec 29
  cfgAcceptExt : Bool

def reset : HwFilter where
  mask := 0
  value := 0
  lo := 0
  hi := BitVec.allOnes 29
  acceptExt := true

def step (s : HwFilter) (i : In) : HwFilter :=
  if i.cfgWe then
    { mask := i.cfgMask, value := i.cfgValue, lo := i.cfgLo, hi := i.cfgHi,
      acceptExt := i.cfgAcceptExt }
  else s

def maskHit (s : HwFilter) (frameId : BitVec 29) : Bool := frameId &&& s.mask == s.value

def rangeHit (s : HwFilter) (frameId : BitVec 29) : Bool :=
  s.lo ≤ frameId && frameId ≤ s.hi

def typeHit (s : HwFilter) (frameExt : Bool) : Bool := frameExt == s.acceptExt

/-- The combinational output. -/
def pass (s : HwFilter) (frameId : BitVec 29) (frameExt frameValid : Bool) : Bool :=
  frameValid && (s.maskHit frameId || s.rangeHit frameId || s.typeHit frameExt)

/-! ### What a configuration can ask for -/

section
variable (s : HwFilter) (i : In) (frameId : BitVec 29) (frameExt : Bool)

/-- A write leaves nothing of the configuration before it. -/
lemma step_of_write (h : i.cfgWe = true) :
    s.step i = ⟨i.cfgMask, i.cfgValue, i.cfgLo, i.cfgHi, i.cfgAcceptExt⟩ :=
  if_pos h

lemma pass_valid_iff :
    s.pass frameId frameExt true = true ↔ frameId &&& s.mask = s.value ∨
      (s.lo ≤ frameId ∧ frameId ≤ s.hi) ∨ frameExt = s.acceptExt := by
  simp [pass, maskHit, rangeHit, typeHit, or_assoc]

end

/-- Written through `cfg_we` at any time, `i` makes a valid frame of either type pass exactly if its
identifier satisfies `p`. -/
def Selects (i : In) (p : BitVec 29 → Prop) : Prop :=
  i.cfgWe = true ∧ ∀ (s : HwFilter) (frameId : BitVec 29) (frameExt : Bool),
    (s.step i).pass frameId frameExt true = true ↔ p frameId

/-- Some configuration selects the frames that satisfy `p`. -/
def Expressible (p : BitVec 29 → Prop) : Prop := ∃ i, Selects i p

/-- A selection by identifier is that of all frames, because the accepted type passes regardless. -/
lemma expressible_iff {p : BitVec 29 → Prop} : Expressible p ↔ ∀ frameId, p frameId := by
  constructor
  · rintro ⟨i, hwe, hpass⟩ frameId
    rw [← hpass reset frameId i.cfgAcceptExt, pass_valid_iff, step_of_write _ _ hwe]
    exact Or.inr (Or.inr rfl)
  · intro hall
    refine ⟨⟨true, 0, 0, 0, 0, true⟩, rfl, fun s frameId frameExt => ?_⟩
    rw [pass_valid_iff, step_of_write _ _ rfl]
    exact iff_of_true (Or.inl BitVec.and_zero) (hall frameId)

lemma mask_all_iff {mask value : BitVec 29} :
    (∀ frameId : BitVec 29, frameId &&& mask = value) ↔ mask = 0 ∧ value = 0 := by
  constructor
  · intro hall
    have hvalue : value = 0 := by
      rw [← hall 0]
      exact BitVec.zero_and
    refine ⟨?_, hvalue⟩
    rw [← hvalue, ← hall (BitVec.allOnes 29), BitVec.allOnes_and]
  · rintro ⟨rfl, rfl⟩ frameId
    exact BitVec.and_zero

lemma range_all_iff {lo hi : BitVec 29} :
    (∀ frameId : BitVec 29, lo ≤ frameId ∧ frameId ≤ hi) ↔ lo = 0 ∧ hi = BitVec.allOnes 29 := by
  constructor
  · intro hall
    exact ⟨BitVec.le_zero_iff.mp (hall 0).1, BitVec.allOnes_le_iff.mp (hall _).2⟩
  · rintro ⟨rfl, rfl⟩ frameId
    refine ⟨BitVec.le_def.mpr (Nat.zero_le _), BitVec.le_def.mpr ?_⟩
    rw [BitVec.toNat_allOnes]
    exact Nat.le_sub_one_of_lt frameId.isLt

/-- The mask mode alone is to be had for the mask that accepts everything, and the range mode alone
for the full range. -/
theorem modes_expressible_iff (mask value lo hi : BitVec 29) :
    (Expressible (fun frameId => frameId &&& mask = value) ↔ mask = 0 ∧ value = 0) ∧
    (Expressible (fun frameId => lo ≤ frameId ∧ frameId ≤ hi) ↔
      lo = 0 ∧ hi = BitVec.allOnes 29) := by
  rw [expressible_iff, expressible_iff]
  exact ⟨mask_all_iff, range_all_iff⟩

/-- Neither of the two filters of the testbench can be had: identifier 0x123 under the mask 0x1FFF,
and 0x100 to 0x200. -/
theorem testbench_modes_not_expressible :
    ¬ Expressible (fun frameId => frameId &&& 0x1FFF = 0x123) ∧
    ¬ Expressible (fun frameId => 0x100 ≤ frameId ∧ frameId ≤ 0x200) := by
  rw [expressible_iff, expressible_iff]
  exact ⟨fun hall => absurd (hall 0x124) (by decide), fun hall => absurd (hall 0xFF) (by decide)⟩

end HwFilter

end BusTestPlatform

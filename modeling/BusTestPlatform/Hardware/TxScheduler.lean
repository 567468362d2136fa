import BusTestPlatform.Lib.Clocked

/-!
# `tx_scheduler.v`

The periodic transmit scheduler, with `SLOTS = 2 ^ SLOT_WIDTH` as in every instance and
`TICK_WIDTH = 32`.

Two `always` blocks assign to `next`: the configuration write and the acknowledgement. Where
both hit one slot at the same edge, the order of the two nonblocking assignments is not fixed by
the language, so the model takes it as an input (`ackLast`).
-/

namespace BusTestPlatform

/-- Registers of `tx_scheduler`. -/
structure TxScheduler (slotWidth : ℕ) where
  period : BitVec slotWidth → BitVec 32
  next : BitVec slotWidth → BitVec 32
  scan : BitVec slotWidth
  dispatchSlot : BitVec slotWidth
  dispatchPulse : Bool

namespace TxScheduler

variable {slotWidth : ℕ}

/-- Inputs of `tx_scheduler` at one clock edge. -/
structure In (slotWidth : ℕ) where
  cfgWe : Bool
  cfgSlot : BitVec slotWidth
  cfgPeriodTicks : BitVec 32
  baseTick : BitVec 32
  slotAck : Bool
  /-- Which assignment to `next` lands last when a write and an acknowledgement collide. -/
  ackLast : Bool

def reset (slotWidth : ℕ) : TxScheduler slotWidth where
  period := fun _ => 0
  next := fun _ => 0
  scan := 0
  dispatchSlot := 0
  dispatchPulse := false

/-- The first `always` block: `period[cfg_slot] <= cfg_period_ticks`. -/
def periodNext (s : TxScheduler slotWidth) (i : In slotWidth) : BitVec slotWidth → BitVec 32 :=
  if i.cfgWe then Function.update s.period i.cfgSlot i.cfgPeriodTicks else s.period

/-- `next[cfg_slot] <= base_tick + cfg_period_ticks`. -/
def writeNext (i : In slotWidth) (next : BitVec slotWidth → BitVec 32) :
    BitVec slotWidth → BitVec 32 :=
  if i.cfgWe then Function.update next i.cfgSlot (i.baseTick + i.cfgPeriodTicks) else next

/-- `next[dispatch_slot] <= next[dispatch_slot] + period[dispatch_slot]`, the right-hand side read
before the edge. -/
def ackNext (s : TxScheduler slotWidth) (i : In slotWidth)
    (next : BitVec slotWidth → BitVec 32) : BitVec slotWidth → BitVec 32 :=
  if i.slotAck then
    Function.update next s.dispatchSlot (s.next s.dispatchSlot + s.period s.dispatchSlot)
  else next

/-- `period[scan] != 0 && base_tick >= next[scan]`. -/
def due (s : TxScheduler slotWidth) (baseTick : BitVec 32) : Bool :=
  s.period s.scan != 0 && s.next s.scan ≤ baseTick

/-- The scan is at a slot that it dispatches at this edge. -/
def hit (s : TxScheduler slotWidth) (baseTick : BitVec 32) : Bool :=
  s.scan != 0 && decide (s.scan.toNat < 2 ^ slotWidth) && s.due baseTick

def step (s : TxScheduler slotWidth) (i : In slotWidth) : TxScheduler slotWidth where
  period := s.periodNext i
  next := if i.ackLast then s.ackNext i (writeNext i s.next) else writeNext i (s.ackNext i s.next)
  scan :=
    if s.scan = 0 then 1
    else if s.scan.toNat < 2 ^ slotWidth then
      if s.due i.baseTick then 0 else s.scan + 1
    else 0
  dispatchSlot := if s.hit i.baseTick then s.scan else s.dispatchSlot
  dispatchPulse := s.hit i.baseTick

/-! ### What one edge does -/

section
variable (s : TxScheduler slotWidth) (i : In slotWidth) (k : BitVec slotWidth)

@[simp] lemma reset_period : (reset slotWidth).period k = 0 := rfl
@[simp] lemma reset_dispatchPulse : (reset slotWidth).dispatchPulse = false := rfl

lemma step_period :
    (s.step i).period k =
      if i.cfgWe = true ∧ i.cfgSlot = k then i.cfgPeriodTicks else s.period k := by
  by_cases hwe : i.cfgWe = true
  · by_cases hk : i.cfgSlot = k
    · subst hk
      simp [step, periodNext, hwe]
    · simp [step, periodNext, hwe, hk, Function.update_of_ne (Ne.symm hk)]
  · simp [step, periodNext, hwe]

/-- A write that meets no acknowledgement of its slot sets the first deadline. -/
lemma step_next_of_write (hwe : i.cfgWe = true) (hslot : i.cfgSlot = k)
    (hack : ¬ (i.slotAck = true ∧ s.dispatchSlot = k)) :
    (s.step i).next k = i.baseTick + i.cfgPeriodTicks := by
  subst hslot
  by_cases ha : i.slotAck = true
  · have hne : i.cfgSlot ≠ s.dispatchSlot := fun h => hack ⟨ha, h.symm⟩
    cases hl : i.ackLast <;> simp [step, writeNext, ackNext, hwe, ha, hl, hne]
  · cases hl : i.ackLast <;> simp [step, writeNext, ackNext, hwe, ha, hl]

/-- An acknowledgement that meets no write to its slot moves the deadline by one period. -/
lemma step_next_of_ack (hack : i.slotAck = true) (hslot : s.dispatchSlot = k)
    (hwe : ¬ (i.cfgWe = true ∧ i.cfgSlot = k)) :
    (s.step i).next k = s.next k + s.period k := by
  subst hslot
  by_cases hw : i.cfgWe = true
  · have hne : s.dispatchSlot ≠ i.cfgSlot := fun h => hwe ⟨hw, h.symm⟩
    cases hl : i.ackLast <;> simp [step, writeNext, ackNext, hack, hw, hl, hne]
  · cases hl : i.ackLast <;> simp [step, writeNext, ackNext, hack, hw, hl]

/-- Any other slot keeps its deadline. -/
lemma step_next_of_quiet (hwe : ¬ (i.cfgWe = true ∧ i.cfgSlot = k))
    (hack : ¬ (i.slotAck = true ∧ s.dispatchSlot = k)) :
    (s.step i).next k = s.next k := by
  have hw : ∀ f : BitVec slotWidth → BitVec 32, writeNext i f k = f k := by
    intro f
    unfold writeNext
    split
    · rename_i h
      exact Function.update_of_ne (fun hk => hwe ⟨h, hk.symm⟩) _ _
    · rfl
  have ha : ∀ f : BitVec slotWidth → BitVec 32, s.ackNext i f k = f k := by
    intro f
    unfold ackNext
    split
    · rename_i h
      exact Function.update_of_ne (fun hk => hack ⟨h, hk.symm⟩) _ _
    · rfl
  cases hl : i.ackLast <;> simp [step, hl, hw, ha]

@[simp] lemma step_dispatchPulse : (s.step i).dispatchPulse = s.hit i.baseTick := rfl

lemma step_dispatchSlot :
    (s.step i).dispatchSlot = if s.hit i.baseTick then s.scan else s.dispatchSlot := rfl

lemma hit_iff (base : BitVec 32) :
    s.hit base = true ↔
      s.scan ≠ 0 ∧ s.period s.scan ≠ 0 ∧ (s.next s.scan).toNat ≤ base.toNat := by
  simp [hit, due, s.scan.isLt, BitVec.le_def]

/-- A hit restarts the scan; otherwise it moves on, wrapping from the last slot to 0. -/
lemma step_scan :
    (s.step i).scan = if s.hit i.baseTick then 0 else s.scan + 1 := by
  by_cases h0 : s.scan = BitVec.ofNat slotWidth 0
  · simp [step, hit, h0]
  · by_cases hd : s.due i.baseTick = true <;> simp [step, hit, h0, hd, s.scan.isLt]

end

end TxScheduler

end BusTestPlatform

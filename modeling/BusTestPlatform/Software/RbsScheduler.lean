import BusTestPlatform.Lib.Periodic
import BusTestPlatform.Software.BusFrame

/-!
# `rbs_scheduler.cpp`

Periodic transmit templates. `tick` appends to a vector of the caller's. A catch-up loop that never
ends is `none`.
-/

namespace BusTestPlatform

/-- `RbsTask`. -/
structure RbsTask where
  msgId : UInt32
  channel : UInt8
  busType : BusType
  periodUs : UInt32
  dlc : UInt8
  data : Vector UInt8 busMaxPayload
  enabled : Bool
  nextTickUs : UInt64

namespace RbsTask

/-- The frame that a tick at `nowUs` emits for the task. -/
def frame (t : RbsTask) (nowUs : UInt64) : BusFrame :=
  makeFrame t.busType t.channel .tx t.msgId false
    (t.busType == .canfd || t.busType == .canxl) t.dlc (some fun i => t.data[i]?.getD 0)
    (nowUs * 10)

/-- The `while` loop, with what is in `out` and the number emitted so far. It tests and changes
`next_tick_us` only, so one that has not ended after `2 ^ 64` rounds never does. -/
def catchUp (nowUs : UInt64) :
    ℕ → RbsTask → List BusFrame → ℕ → Option (RbsTask × List BusFrame × ℕ)
  | 0, _, _, _ => none
  | fuel + 1, t, out, emitted =>
    if t.nextTickUs ≤ nowUs then
      catchUp nowUs fuel { t with nextTickUs := t.nextTickUs + t.periodUs.toUInt64 }
        (out ++ [t.frame nowUs]) (emitted + 1)
    else some (t, out, emitted)

/-- The body of the `for` loop over the tasks. -/
def tick (nowUs : UInt64) (t : RbsTask) (out : List BusFrame) (emitted : ℕ) :
    Option (RbsTask × List BusFrame × ℕ) :=
  if t.enabled = false ∨ t.periodUs = 0 then some (t, out, emitted)
  else if t.nextTickUs = 0 then
    some ({ t with nextTickUs := nowUs + t.periodUs.toUInt64 }, out, emitted)
  else t.catchUp nowUs (2 ^ 64 + 1) out emitted

end RbsTask

/-- `RbsScheduler`. -/
structure RbsScheduler where
  tasks : List RbsTask

namespace RbsScheduler

/-- A scheduler without tasks. -/
def empty : RbsScheduler := ⟨[]⟩

def reset (s : RbsScheduler) : RbsScheduler :=
  ⟨s.tasks.map fun t => { t with nextTickUs := 0 }⟩

def addTask (s : RbsScheduler) (task : RbsTask) : RbsScheduler := ⟨s.tasks ++ [task]⟩

/-- `remove_task`: the first match goes. -/
def removeTask (s : RbsScheduler) (msgId : UInt32) (channel : UInt8) : RbsScheduler × Bool :=
  (⟨s.tasks.eraseP fun t => t.msgId == msgId && t.channel == channel⟩,
    s.tasks.any fun t => t.msgId == msgId && t.channel == channel)

def clearTasks (_ : RbsScheduler) : RbsScheduler := ⟨[]⟩

/-- The `for` loop of `tick`. -/
def tickTasks (nowUs : UInt64) :
    List RbsTask → List BusFrame → ℕ → Option (List RbsTask × List BusFrame × ℕ)
  | [], out, emitted => some ([], out, emitted)
  | t :: ts, out, emitted => do
    let (t, out, emitted) ← t.tick nowUs out emitted
    let (ts, out, emitted) ← tickTasks nowUs ts out emitted
    return (t :: ts, out, emitted)

/-- `tick`. `out` is the vector of the caller, `none` a null pointer. -/
def tick (s : RbsScheduler) (nowUs : UInt64) :
    Option (List BusFrame) → Option (RbsScheduler × Option (List BusFrame) × ℕ)
  | none => some (s, none, 0)
  | some out => do
    let (ts, out, emitted) ← tickTasks nowUs s.tasks out 0
    return (⟨ts⟩, some out, emitted)

/-- The calls a user makes. -/
inductive Call
  | addTask (task : RbsTask)
  | removeTask (msgId : UInt32) (channel : UInt8)
  | clearTasks
  | reset
  | tick (nowUs : UInt64) (out : Option (List BusFrame))

/-- What a call gives back: for `tick` the vector and the number emitted. -/
inductive Reply
  | done
  | removed (found : Bool)
  | ticked (out : Option (List BusFrame)) (emitted : ℕ)

def call (s : RbsScheduler) : Call → Option (RbsScheduler × Reply)
  | .addTask task => some (s.addTask task, .done)
  | .removeTask msgId channel =>
    some ((s.removeTask msgId channel).1, .removed (s.removeTask msgId channel).2)
  | .clearTasks => some (s.clearTasks, .done)
  | .reset => some (s.reset, .done)
  | .tick nowUs out => do
    let (s, out, emitted) ← s.tick nowUs out
    return (s, .ticked out emitted)

/-- A sequence of calls. -/
def run (s : RbsScheduler) : List Call → Option (RbsScheduler × List Reply)
  | [] => some (s, [])
  | c :: cs => do
    let (s, r) ← s.call c
    let (s, rs) ← s.run cs
    return (s, r :: rs)

end RbsScheduler

/-! ### What a tick does to one task -/

namespace RbsTask

/-- The frame does not depend on the schedule. -/
@[simp] lemma frame_setNext (t : RbsTask) (next nowUs : UInt64) :
    { t with nextTickUs := next }.frame nowUs = t.frame nowUs := rfl

lemma period_pos {t : RbsTask} (h : t.periodUs ≠ 0) : 0 < t.periodUs.toNat :=
  Nat.pos_of_ne_zero fun hzero => h (UInt32.toNat_inj.mp hzero)

/-- Without overflow the loop ends, `n` whole periods later, at the first deadline still ahead. -/
lemma catchUp_spec (nowUs : UInt64) (fuel : ℕ) (t : RbsTask) (out : List BusFrame) (emitted : ℕ)
    (hperiod : t.periodUs ≠ 0) (hnow : nowUs.toNat + t.periodUs.toNat < 2 ^ 64)
    (hfuel : nowUs.toNat + 1 < t.nextTickUs.toNat + fuel) (hne : 0 < fuel) :
    ∃ n next, t.catchUp nowUs fuel out emitted =
        some ({ t with nextTickUs := next }, out ++ List.replicate n (t.frame nowUs),
          emitted + n) ∧
      next.toNat = t.nextTickUs.toNat + t.periodUs.toNat * n ∧ nowUs.toNat < next.toNat ∧
      (0 < n → next.toNat ≤ nowUs.toNat + t.periodUs.toNat) := by
  induction fuel generalizing t out emitted with
  | zero => exact absurd hne (lt_irrefl 0)
  | succ fuel ih =>
    have hpos := period_pos hperiod
    rw [catchUp]
    by_cases hdue : t.nextTickUs ≤ nowUs
    · rw [if_pos hdue]
      have hle := UInt64.le_iff_toNat_le.mp hdue
      have hnext : (t.nextTickUs + t.periodUs.toUInt64).toNat =
          t.nextTickUs.toNat + t.periodUs.toNat := by
        rw [UInt64.toNat_add, UInt32.toNat_toUInt64]
        exact Nat.mod_eq_of_lt (by omega)
      obtain ⟨n, next, hrun, hval, hlt, hbound⟩ :=
        ih { t with nextTickUs := t.nextTickUs + t.periodUs.toUInt64 }
          (out ++ [t.frame nowUs]) (emitted + 1) hperiod hnow
          (by simp only [hnext]; omega) (by omega)
      simp only [hnext] at hval
      refine ⟨n + 1, next, ?_, ?_, hlt, fun _ => ?_⟩
      · rw [hrun, List.replicate_succ, List.append_assoc, Nat.add_assoc, Nat.add_comm 1 n]
        rfl
      · rw [hval, Nat.mul_succ]
        omega
      · -- the last round started at a deadline that had passed
        rcases Nat.eq_zero_or_pos n with rfl | hn
        · omega
        · exact hbound hn
    · rw [if_neg hdue]
      rw [UInt64.le_iff_toNat_le, not_le] at hdue
      exact ⟨0, t.nextTickUs, by simp, by simp, hdue, fun h => absurd h (lt_irrefl 0)⟩

lemma tick_idle {nowUs : UInt64} {t : RbsTask} (out : List BusFrame) (emitted : ℕ)
    (h : t.enabled = false ∨ t.periodUs = 0) : t.tick nowUs out emitted = some (t, out, emitted) :=
  if_pos h

/-- The first tick only anchors the schedule. -/
lemma tick_anchor {nowUs : UInt64} {t : RbsTask} (out : List BusFrame) (emitted : ℕ)
    (h : ¬(t.enabled = false ∨ t.periodUs = 0)) (hnext : t.nextTickUs = 0) :
    t.tick nowUs out emitted =
      some ({ t with nextTickUs := nowUs + t.periodUs.toUInt64 }, out, emitted) := by
  rw [tick, if_neg h, if_pos hnext]

lemma tick_due {nowUs : UInt64} {t : RbsTask} (out : List BusFrame) (emitted : ℕ)
    (h : ¬(t.enabled = false ∨ t.periodUs = 0)) (hnext : t.nextTickUs ≠ 0) :
    t.tick nowUs out emitted = t.catchUp nowUs (2 ^ 64 + 1) out emitted := by
  rw [tick, if_neg h, if_neg hnext]

end RbsTask

end BusTestPlatform

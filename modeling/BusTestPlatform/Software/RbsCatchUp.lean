import BusTestPlatform.Lib.Stride
import BusTestPlatform.Software.RbsScheduler

/-!
# When a tick returns

The catch-up loop strides around the ring of 64-bit times and ends when it stands on a deadline that
is ahead. Close to the end of the ring there may be none to stand on.
-/

namespace BusTestPlatform

namespace RbsTask

variable {nowUs : UInt64} {t : RbsTask}

/-- The deadline after `k` rounds of the loop. -/
def deadline (t : RbsTask) (k : ℕ) : UInt64 :=
  t.nextTickUs + UInt64.ofNat k * t.periodUs.toUInt64

/-- The last deadline that the loop can come to before the time wraps. -/
def lastDeadline (t : RbsTask) : ℕ := Stride.top (2 ^ 64) t.periodUs.toNat t.nextTickUs.toNat

/-- The tasks that a tick does something for. -/
def Active (t : RbsTask) : Prop := t.enabled = true ∧ t.periodUs ≠ 0

/-- The next frame of the task is still to come. -/
def Ahead (nowUs : UInt64) (t : RbsTask) : Prop := t.Active → nowUs < t.nextTickUs

/-- A tick at `nowUs` gets over the task. -/
def Passable (nowUs : UInt64) (t : RbsTask) : Prop :=
  t.Active → t.nextTickUs ≠ 0 → nowUs.toNat < t.lastDeadline

/-- There is a deadline ahead of `nowUs` for the task: a first one if it is to be anchored, and else
one that the loop can come to. -/
def CanGetAhead (nowUs : UInt64) (t : RbsTask) : Prop :=
  t.Active → if t.nextTickUs = 0 then nowUs.toNat + t.periodUs.toNat < 2 ^ 64
    else nowUs.toNat < t.lastDeadline

/-! ### The loop -/

@[simp] lemma deadline_zero (t : RbsTask) : t.deadline 0 = t.nextTickUs := by
  simp [deadline]

lemma deadline_succ (t : RbsTask) (k : ℕ) : t.deadline (k + 1) =
    { t with nextTickUs := t.nextTickUs + t.periodUs.toUInt64 }.deadline k := by
  simp only [deadline]
  rw [UInt64.ofNat_add, UInt64.add_mul, UInt64.add_assoc, UInt64.add_comm (UInt64.ofNat k * _)]
  simp

lemma toNat_deadline (t : RbsTask) (k : ℕ) : (t.deadline k).toNat =
    Stride.place (2 ^ 64) t.periodUs.toNat t.nextTickUs.toNat k := by
  rw [deadline, UInt64.toNat_add, UInt64.toNat_mul, UInt64.toNat_ofNat', UInt32.toNat_toUInt64,
    Nat.mod_mul_mod, Nat.add_mod_mod, Stride.place]

/-- The loop ends in the round that finds its deadline ahead. -/
lemma catchUp_eq_some {k fuel : ℕ} (out : List BusFrame) (emitted : ℕ)
    (hdue : ∀ j < k, t.deadline j ≤ nowUs) (hahead : nowUs < t.deadline k) (hfuel : k < fuel) :
    t.catchUp nowUs fuel out emitted =
      some ({ t with nextTickUs := t.deadline k }, out ++ List.replicate k (t.frame nowUs),
        emitted + k) := by
  induction k generalizing t fuel out emitted with
  | zero =>
    obtain ⟨fuel, rfl⟩ := Nat.exists_eq_add_of_lt hfuel
    rw [deadline_zero] at hahead
    rw [Nat.zero_add, catchUp, if_neg (UInt64.not_le.mpr hahead)]
    simp
  | succ k ih =>
    obtain ⟨fuel, rfl⟩ : ∃ f, fuel = f + 1 := ⟨fuel - 1, by omega⟩
    have hfirst := hdue 0 (Nat.succ_pos k)
    rw [deadline_zero] at hfirst
    rw [deadline_succ] at hahead
    rw [catchUp, if_pos hfirst, ih _ _ (fun j hj => ?_) hahead (Nat.lt_of_succ_lt_succ hfuel)]
    · simp [deadline_succ, List.replicate_succ, Nat.add_assoc, Nat.add_comm 1 k]
    · rw [← deadline_succ]
      exact hdue (j + 1) (Nat.succ_lt_succ hj)

/-- It never ends when all deadlines it comes to have passed. -/
lemma catchUp_eq_none (hdue : ∀ j, t.deadline j ≤ nowUs) (fuel : ℕ) (out : List BusFrame)
    (emitted : ℕ) : t.catchUp nowUs fuel out emitted = none := by
  induction fuel generalizing t out emitted with
  | zero => rfl
  | succ fuel ih =>
    have hfirst := hdue 0
    rw [deadline_zero] at hfirst
    rw [catchUp, if_pos hfirst]
    apply ih
    intro j
    rw [← deadline_succ]
    exact hdue (j + 1)

/-- A deadline ahead is come to within `2 ^ 64` rounds, if at all. -/
lemma exists_deadline_iff :
    (∃ k < 2 ^ 64 + 1, (∀ j < k, t.deadline j ≤ nowUs) ∧ nowUs < t.deadline k) ↔
      nowUs.toNat < t.lastDeadline := by
  rw [lastDeadline, ← Stride.exists_lt_place_iff (by decide)]
  simp only [UInt64.lt_iff_toNat_lt, UInt64.le_iff_toNat_le, toNat_deadline]
  constructor
  · rintro ⟨k, -, -, hk⟩
    exact ⟨k, hk⟩
  · rintro ⟨k, hk⟩
    rw [← Stride.place_mod] at hk
    have h : ∃ k, nowUs.toNat < Stride.place (2 ^ 64) t.periodUs.toNat t.nextTickUs.toNat k :=
      ⟨_, hk⟩
    classical
    have hfirst : Nat.find h ≤ k % 2 ^ 64 := Nat.find_min' h hk
    have hmod : k % 2 ^ 64 < 2 ^ 64 := Nat.mod_lt k (by decide)
    exact ⟨Nat.find h, by omega, fun j hj => not_lt.mp (Nat.find_min h hj), Nat.find_spec h⟩

/-- What the loop does, and when it ends. -/
lemma catchUp_iff {r : RbsTask × List BusFrame × ℕ} {out : List BusFrame} {emitted : ℕ} :
    t.catchUp nowUs (2 ^ 64 + 1) out emitted = some r ↔
      ∃ k < 2 ^ 64 + 1, (∀ j < k, t.deadline j ≤ nowUs) ∧ nowUs < t.deadline k ∧
        r = ({ t with nextTickUs := t.deadline k }, out ++ List.replicate k (t.frame nowUs),
          emitted + k) := by
  constructor
  · intro h
    by_cases hahead : ∃ k < 2 ^ 64 + 1, (∀ j < k, t.deadline j ≤ nowUs) ∧ nowUs < t.deadline k
    · obtain ⟨k, hfuel, hdue, hk⟩ := hahead
      rw [catchUp_eq_some out emitted hdue hk hfuel] at h
      exact ⟨k, hfuel, hdue, hk, (Option.some.inj h).symm⟩
    · rw [exists_deadline_iff, lastDeadline, ← Stride.exists_lt_place_iff (by decide)] at hahead
      rw [catchUp_eq_none fun j => ?_] at h
      · cases h
      · rw [UInt64.le_iff_toNat_le, toNat_deadline]
        exact not_lt.mp fun hj => hahead ⟨j, hj⟩
  · rintro ⟨k, hfuel, hdue, hk, rfl⟩
    exact catchUp_eq_some out emitted hdue hk hfuel

/-! ### One task -/

lemma not_active_iff : ¬ t.Active ↔ t.enabled = false ∨ t.periodUs = 0 := by
  rw [Active, not_and_or, not_ne_iff, Bool.not_eq_true]

lemma Active.not_idle (h : t.Active) : ¬(t.enabled = false ∨ t.periodUs = 0) :=
  fun hidle => not_active_iff.mpr hidle h

/-- A tick gets over the passable tasks and hangs at the others. -/
lemma tick_isSome_iff (out : List BusFrame) (emitted : ℕ) :
    (∃ r, t.tick nowUs out emitted = some r) ↔ t.Passable nowUs := by
  by_cases hon : t.Active
  · by_cases hnext : t.nextTickUs = 0
    · exact iff_of_true ⟨_, tick_anchor out emitted hon.not_idle hnext⟩
        fun _ hne => absurd hnext hne
    · rw [tick_due out emitted hon.not_idle hnext]
      simp only [catchUp_iff]
      constructor
      · rintro ⟨r, k, hfuel, hdue, hk, -⟩ _ _
        exact exists_deadline_iff.mp ⟨k, hfuel, hdue, hk⟩
      · intro h
        obtain ⟨k, hfuel, hdue, hk⟩ := exists_deadline_iff.mpr (h hon hnext)
        exact ⟨_, k, hfuel, hdue, hk, rfl⟩
  · exact iff_of_true ⟨_, tick_idle out emitted (not_active_iff.mp hon)⟩ fun h => absurd h hon

/-- The first deadline of a task is ahead unless the time wraps. -/
lemma Active.lt_anchor_iff (hon : t.Active) : nowUs < nowUs + t.periodUs.toUInt64 ↔
    nowUs.toNat + t.periodUs.toNat < 2 ^ 64 := by
  have hpos := period_pos hon.2
  have hnow := UInt64.toNat_lt nowUs
  have hlt := UInt32.toNat_lt t.periodUs
  rw [UInt64.lt_iff_toNat_lt, UInt64.toNat_add, UInt32.toNat_toUInt64]
  omega

/-- A tick leaves the task ahead if it can get there. -/
lemma tick_ahead_iff (out : List BusFrame) (emitted : ℕ) :
    (∃ r, t.tick nowUs out emitted = some r ∧ r.1.Ahead nowUs) ↔ t.CanGetAhead nowUs := by
  by_cases hon : t.Active
  · by_cases hnext : t.nextTickUs = 0
    · rw [CanGetAhead, if_pos hnext, tick_anchor out emitted hon.not_idle hnext]
      rw [← hon.lt_anchor_iff]
      constructor
      · rintro ⟨r, hr, hahead⟩ _
        cases hr
        exact hahead hon
      · intro h
        exact ⟨_, rfl, h⟩
    · rw [CanGetAhead, if_neg hnext, tick_due out emitted hon.not_idle hnext]
      simp only [catchUp_iff]
      constructor
      · rintro ⟨r, ⟨k, hfuel, hdue, hk, -⟩, -⟩ _
        exact exists_deadline_iff.mp ⟨k, hfuel, hdue, hk⟩
      · intro h
        obtain ⟨k, hfuel, hdue, hk⟩ := exists_deadline_iff.mpr (h hon)
        exact ⟨_, ⟨k, hfuel, hdue, hk, rfl⟩, fun _ => hk⟩
  · refine iff_of_true ⟨_, tick_idle out emitted (not_active_iff.mp hon), ?_⟩ ?_
    · exact fun h => absurd h hon
    · exact fun h => absurd h hon

end RbsTask

namespace RbsScheduler

variable {nowUs : UInt64} {ts : List RbsTask}

/-! ### All tasks -/

/-- What a tick does to the tasks it does to each of them, and it returns if it gets over all. -/
lemma tickTasks_forall_iff {P C : RbsTask → Prop}
    (h : ∀ t out emitted, (∃ r, RbsTask.tick nowUs t out emitted = some r ∧ P r.1) ↔ C t)
    (out : List BusFrame) (emitted : ℕ) :
    (∃ r, tickTasks nowUs ts out emitted = some r ∧ ∀ t ∈ r.1, P t) ↔ ∀ t ∈ ts, C t := by
  induction ts generalizing out emitted with
  | nil => exact iff_of_true ⟨_, rfl, by simp⟩ (by simp)
  | cons t ts ih =>
    rw [List.forall_mem_cons, ← h t out emitted]
    constructor
    · rintro ⟨r, hr, hP⟩
      rw [tickTasks, Option.bind_eq_bind, Option.bind_eq_some_iff] at hr
      obtain ⟨⟨t', out', emitted'⟩, ht, hr⟩ := hr
      rw [Option.bind_eq_bind, Option.bind_eq_some_iff] at hr
      obtain ⟨r', hts, hr⟩ := hr
      cases hr
      rw [List.forall_mem_cons] at hP
      exact ⟨⟨_, ht, hP.1⟩, (ih out' emitted').mp ⟨r', hts, hP.2⟩⟩
    · rintro ⟨⟨⟨t', out', emitted'⟩, ht, hP⟩, hC⟩
      obtain ⟨⟨ts', out'', emitted''⟩, hts, hPs⟩ := (ih out' emitted').mpr hC
      refine ⟨(t' :: ts', out'', emitted''), ?_, List.forall_mem_cons.mpr ⟨hP, hPs⟩⟩
      simp [tickTasks, ht, hts]

/-- The tick returns, with the next frame of every active task ahead. -/
def Settles (s : RbsScheduler) (nowUs : UInt64) (out : List BusFrame) : Prop :=
  ∃ s' out' emitted, s.tick nowUs (some out) = some (s', some out', emitted) ∧
    ∀ t ∈ s'.tasks, t.Ahead nowUs

lemma tick_eq_some_iff {s s' : RbsScheduler} {out out' : List BusFrame} {emitted : ℕ} :
    s.tick nowUs (some out) = some (s', some out', emitted) ↔
      tickTasks nowUs s.tasks out 0 = some (s'.tasks, out', emitted) := by
  rw [tick, Option.bind_eq_bind, Option.bind_eq_some_iff]
  constructor
  · rintro ⟨r, hr, h⟩
    cases h
    exact hr
  · intro h
    exact ⟨_, h, rfl⟩

/-- A tick returns exactly if it gets over every task. -/
theorem tick_returns_iff (s : RbsScheduler) (nowUs : UInt64) (out : List BusFrame) :
    (∃ s' out' emitted, s.tick nowUs (some out) = some (s', some out', emitted)) ↔
      ∀ t ∈ s.tasks, t.Passable nowUs := by
  have htasks : (∃ r, tickTasks nowUs s.tasks out 0 = some r ∧ ∀ t ∈ r.1, True) ↔
      ∀ t ∈ s.tasks, t.Passable nowUs :=
    tickTasks_forall_iff (fun t out emitted => by
      simpa only [and_true] using RbsTask.tick_isSome_iff out emitted) out 0
  rw [← htasks]
  constructor
  · rintro ⟨s', out', emitted, htick⟩
    exact ⟨_, tick_eq_some_iff.mp htick, fun _ _ => trivial⟩
  · rintro ⟨⟨ts, out', emitted⟩, htick, -⟩
    exact ⟨⟨ts⟩, out', emitted, tick_eq_some_iff.mpr htick⟩

/-- **Termination.** A tick returns and leaves every active task ahead exactly if every one of them
has a deadline ahead before the time wraps. -/
theorem settles_iff (s : RbsScheduler) (nowUs : UInt64) (out : List BusFrame) :
    s.Settles nowUs out ↔ ∀ t ∈ s.tasks, t.CanGetAhead nowUs := by
  rw [← tickTasks_forall_iff (fun t => t.tick_ahead_iff) out 0]
  constructor
  · rintro ⟨s', out', emitted, htick, hahead⟩
    exact ⟨_, tick_eq_some_iff.mp htick, hahead⟩
  · rintro ⟨⟨ts, out', emitted⟩, htick, hahead⟩
    exact ⟨⟨ts⟩, out', emitted, tick_eq_some_iff.mpr htick, hahead⟩

/-- Far enough from the end of the ring every task can get ahead. -/
theorem settles_of_add_lt {s : RbsScheduler} {nowUs : UInt64}
    (h : ∀ t ∈ s.tasks, t.Active → nowUs.toNat + t.periodUs.toNat < 2 ^ 64)
    (out : List BusFrame) : s.Settles nowUs out := by
  rw [settles_iff]
  intro t ht hon
  have hlt := h t ht hon
  split_ifs
  · exact hlt
  · have hgcd : t.periodUs.toNat.gcd (2 ^ 64) ≤ t.periodUs.toNat :=
      Nat.gcd_le_left _ (RbsTask.period_pos hon.2)
    rw [RbsTask.lastDeadline, Stride.top]
    omega

/-- A task of period 1000, anchored long ago. -/
def anchoredTask : RbsTask where
  msgId := 0x100
  channel := 0
  busType := .canfd
  periodUs := 1000
  dlc := 8
  data := Vector.replicate busMaxPayload 0
  enabled := true
  nextTickUs := 1000

/-- No time is later than the last one, so the loop goes on for ever. -/
theorem tick_hangs : RbsScheduler.tick ⟨[anchoredTask]⟩ 0xFFFFFFFFFFFFFFFF (some []) = none ∧
    ¬ ∀ (s : RbsScheduler) (nowUs : UInt64) (out : List BusFrame), s.Settles nowUs out := by
  have hloop : anchoredTask.tick 0xFFFFFFFFFFFFFFFF [] 0 = none := by
    rw [RbsTask.tick_due [] 0 (by simp [anchoredTask]) (by simp [anchoredTask])]
    apply RbsTask.catchUp_eq_none
    intro j
    rw [UInt64.le_iff_toNat_le]
    exact Nat.le_of_lt_succ (UInt64.toNat_lt _)
  have htick : RbsScheduler.tick ⟨[anchoredTask]⟩ 0xFFFFFFFFFFFFFFFF (some []) = none := by
    simp [tick, tickTasks, hloop]
  refine ⟨htick, fun h => ?_⟩
  obtain ⟨s', out', emitted, hreturns, -⟩ := h ⟨[anchoredTask]⟩ 0xFFFFFFFFFFFFFFFF []
  rw [htick] at hreturns
  cases hreturns

end RbsScheduler

end BusTestPlatform

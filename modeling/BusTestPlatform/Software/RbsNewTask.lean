import BusTestPlatform.Software.RbsCatchUp

/-!
# The first tick of a new task

`add_task` takes the deadline over from the caller's struct, so a task that is a copy of one that
has run comes in with a deadline long past.
-/

namespace BusTestPlatform

namespace RbsScheduler

variable {nowUs : UInt64} {s : RbsScheduler} {t : RbsTask} {out : List BusFrame}

/-- The first tick after `t` is added emits just what it would emit without `t`, and schedules the
first frame of `t`, if it is active, one period after `nowUs`. -/
def StartsQuietly (s : RbsScheduler) (t : RbsTask) (nowUs : UInt64) (out : List BusFrame) : Prop :=
  ∃ s' out' emitted next, s.tick nowUs (some out) = some (s', some out', emitted) ∧
    (s.addTask t).tick nowUs (some out) =
      some (s'.addTask { t with nextTickUs := next }, some out', emitted) ∧
    (t.Active → next.toNat = nowUs.toNat + t.periodUs.toNat)

lemma tickTasks_append (ts us : List RbsTask) (out : List BusFrame) (emitted : ℕ) :
    tickTasks nowUs (ts ++ us) out emitted = do
      let (ts, out, emitted) ← tickTasks nowUs ts out emitted
      let (us, out, emitted) ← tickTasks nowUs us out emitted
      return (ts ++ us, out, emitted) := by
  induction ts generalizing out emitted with
  | nil => simp [tickTasks]
  | cons t ts ih =>
    simp only [List.cons_append, tickTasks, ih]
    simp [Option.bind_assoc]

/-- The other tasks come first, and then the new one. -/
lemma addTask_tick_iff {s' : RbsScheduler} {t' : RbsTask} {out₁ out' : List BusFrame}
    {emitted₁ emitted' : ℕ}
    (h : s.tick nowUs (some out) = some (s', some out₁, emitted₁)) :
    (s.addTask t).tick nowUs (some out) = some (s'.addTask t', some out', emitted') ↔
      t.tick nowUs out₁ emitted₁ = some (t', out', emitted') := by
  rw [tick_eq_some_iff] at h ⊢
  rw [addTask, tickTasks_append, h]
  simp [addTask, tickTasks, Option.bind_eq_some_iff]

/-- The task is anchored by the tick, or would be anchored just so, before the time wraps. -/
def IsFresh (nowUs : UInt64) (t : RbsTask) : Prop :=
  t.Active → nowUs.toNat + t.periodUs.toNat < 2 ^ 64 ∧
    (t.nextTickUs = 0 ∨ t.nextTickUs.toNat = nowUs.toNat + t.periodUs.toNat)

/-- The part of the new task. -/
lemma tick_quiet_iff (out : List BusFrame) (emitted : ℕ) :
    (∃ next, t.tick nowUs out emitted = some ({ t with nextTickUs := next }, out, emitted) ∧
      (t.Active → next.toNat = nowUs.toNat + t.periodUs.toNat)) ↔ IsFresh nowUs t := by
  have hsum : (nowUs + t.periodUs.toUInt64).toNat =
      (nowUs.toNat + t.periodUs.toNat) % 2 ^ 64 := by
    rw [UInt64.toNat_add, UInt32.toNat_toUInt64]
  by_cases hon : t.Active
  · by_cases hnext : t.nextTickUs = 0
    · rw [RbsTask.tick_anchor out emitted hon.not_idle hnext]
      constructor
      · rintro ⟨next, htick, hfirst⟩ _
        cases htick
        have hval := hfirst hon
        refine ⟨?_, Or.inl hnext⟩
        rw [← hval]
        exact UInt64.toNat_lt _
      · intro h
        refine ⟨_, rfl, fun _ => ?_⟩
        rw [hsum, Nat.mod_eq_of_lt (h hon).1]
    · rw [RbsTask.tick_due out emitted hon.not_idle hnext]
      simp only [RbsTask.catchUp_iff]
      constructor
      · rintro ⟨next, ⟨k, -, -, -, hr⟩, hfirst⟩ _
        -- no frame, so no round
        obtain rfl : k = 0 := by
          have hcount := congrArg (fun r => r.2.2) hr
          simp only at hcount
          omega
        have hsame := congrArg (fun r => r.1.nextTickUs) hr
        simp only [RbsTask.deadline_zero] at hsame
        rw [← hsame, ← hfirst hon]
        exact ⟨UInt64.toNat_lt _, Or.inr rfl⟩
      · intro h
        have hval := (h hon).2.resolve_left hnext
        have hahead : nowUs < t.nextTickUs := by
          have hpos := RbsTask.period_pos hon.2
          rw [UInt64.lt_iff_toNat_lt, hval]
          omega
        refine ⟨t.nextTickUs, ⟨0, by decide, by simp, ?_, by simp⟩, fun _ => hval⟩
        rwa [RbsTask.deadline_zero]
  · refine iff_of_true ⟨t.nextTickUs, ?_, fun h => absurd h hon⟩ fun h => absurd h hon
    exact RbsTask.tick_idle out emitted (RbsTask.not_active_iff.mp hon)

/-- **New tasks.** A new task starts quietly exactly if it is inactive or comes in without a
deadline of its own, and the tick gets over the others. -/
theorem startsQuietly_iff (s : RbsScheduler) (t : RbsTask) (nowUs : UInt64) (out : List BusFrame) :
    s.StartsQuietly t nowUs out ↔ (∀ u ∈ s.tasks, u.Passable nowUs) ∧ IsFresh nowUs t := by
  rw [← tick_returns_iff s nowUs out]
  constructor
  · rintro ⟨s', out', emitted, next, hs, hst, hfirst⟩
    refine ⟨⟨s', out', emitted, hs⟩, ?_⟩
    exact (tick_quiet_iff out' emitted).mp ⟨next, (addTask_tick_iff hs).mp hst, hfirst⟩
  · rintro ⟨⟨s', out', emitted, hs⟩, hfresh⟩
    obtain ⟨next, htick, hfirst⟩ := (tick_quiet_iff out' emitted).mpr hfresh
    exact ⟨s', out', emitted, next, hs, (addTask_tick_iff hs).mpr htick, hfirst⟩

/-- A copy of a task that last ran at 1000. -/
def staleTask : RbsTask where
  msgId := 0x100
  channel := 0
  busType := .canfd
  periodUs := 100
  dlc := 8
  data := Vector.replicate busMaxPayload 0
  enabled := true
  nextTickUs := 1000

/-- Its first tick, at 1200, emits three frames at once. -/
theorem stale_task_bursts :
    (∃ s' out, (empty.addTask staleTask).tick 1200 (some []) = some (s', some out, 3)) ∧
      ¬ ∀ (s : RbsScheduler) (t : RbsTask) (nowUs : UInt64) (out : List BusFrame),
        s.StartsQuietly t nowUs out := by
  have hloop : staleTask.catchUp 1200 (2 ^ 64 + 1) [] 0 = _ :=
    RbsTask.catchUp_eq_some (k := 3) [] 0 (by decide) (by decide) (by decide)
  have htick : staleTask.tick 1200 [] 0 = _ :=
    (RbsTask.tick_due [] 0 (by simp [staleTask]) (by simp [staleTask])).trans hloop
  have hrun : ∃ s' out, (empty.addTask staleTask).tick 1200 (some []) = some (s', some out, 3) :=
    ⟨_, _, (addTask_tick_iff (s := empty) rfl).mpr htick⟩
  refine ⟨hrun, fun h => ?_⟩
  obtain ⟨s₁, out₁, hburst⟩ := hrun
  obtain ⟨s', out', emitted, next, hempty, hquiet, -⟩ := h empty staleTask 1200 []
  cases hempty
  rw [hburst] at hquiet
  cases hquiet

end RbsScheduler

end BusTestPlatform

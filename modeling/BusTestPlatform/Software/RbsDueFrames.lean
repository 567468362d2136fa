import BusTestPlatform.Software.RbsScheduler

/-!
# The scheduler emits the due frames

The scheduler is run together with a record for every task in it: the ticks the task has seen since
it was added or last reset, and the frames that its own part of the loop has emitted since. The
record is not read, so the run is the run of the code. Each task then follows its own schedule,
whatever the others are and however time is split into ticks.
-/

namespace BusTestPlatform

open Periodic

namespace RbsScheduler

/-- A task of the scheduler and its record. -/
structure Watched where
  /-- As it was given to `add_task`. -/
  template : RbsTask
  task : RbsTask
  seen : List UInt64
  /-- With each frame, the `now_us` of the tick that emitted it. -/
  frames : List (UInt64 × BusFrame)

namespace Watched

/-- The largest `now_us` seen. -/
def largest (w : Watched) : ℕ := w.seen.foldl (fun m nowUs => max m nowUs.toNat) 0

/-- The task's part of a tick, which emits what it appends to `out`. -/
def tick (nowUs : UInt64) (w : Watched) (out : List BusFrame) (emitted : ℕ) :
    Option (Watched × List BusFrame × ℕ) := do
  let (t, out', emitted') ← w.task.tick nowUs out emitted
  return ({ w with
            task := t
            seen := w.seen ++ [nowUs]
            frames := w.frames ++ (out'.drop out.length).map fun f => (nowUs, f) }, out', emitted')

end Watched

/-- `tickTasks` with records. -/
def watchTasks (nowUs : UInt64) :
    List Watched → List BusFrame → ℕ → Option (List Watched × List BusFrame × ℕ)
  | [], out, emitted => some ([], out, emitted)
  | w :: ws, out, emitted => do
    let (w, out, emitted) ← w.tick nowUs out emitted
    let (ws, out, emitted) ← watchTasks nowUs ws out emitted
    return (w :: ws, out, emitted)

/-- `call` with records. -/
def watchCall (ws : List Watched) : Call → Option (List Watched × Reply)
  | .addTask task => some (ws ++ [⟨task, task, [], []⟩], .done)
  | .removeTask msgId channel =>
    some (ws.eraseP fun w => w.task.msgId == msgId && w.task.channel == channel,
      .removed (ws.any fun w => w.task.msgId == msgId && w.task.channel == channel))
  | .clearTasks => some ([], .done)
  | .reset =>
    some (ws.map fun w => ⟨w.template, { w.task with nextTickUs := 0 }, [], []⟩, .done)
  | .tick _ none => some (ws, .ticked none 0)
  | .tick nowUs (some out) => do
    let (ws, out, emitted) ← watchTasks nowUs ws out 0
    return (ws, .ticked (some out) emitted)

/-- `run` with records. -/
def watch (ws : List Watched) : List Call → Option (List Watched × List Reply)
  | [] => some (ws, [])
  | c :: cs => do
    let (ws, r) ← watchCall ws c
    let (ws, rs) ← watch ws cs
    return (ws, r :: rs)

/-- The scheduler without the records. -/
def erase (ws : List Watched) : RbsScheduler := ⟨ws.map Watched.task⟩

/-- The time after the current period can be written down, for every task that a tick comes to. -/
def InRange (s : RbsScheduler) : List Call → Prop
  | [] => True
  | c :: cs =>
    (∀ nowUs out, c = .tick nowUs (some out) →
      ∀ t ∈ s.tasks, t.enabled = true → nowUs.toNat + t.periodUs.toNat < 2 ^ 64) ∧
    ∀ s' r, s.call c = some (s', r) → InRange s' cs

/-- `tick` returns how many frames it has appended, all stamped with its time. -/
def Answers : Call → Reply → Prop
  | .tick nowUs (some out), r =>
    ∃ fs, r = .ticked (some (out ++ fs)) fs.length ∧
      ∀ f ∈ fs, f.timestampNs100.toNat = nowUs.toNat * 10 % 2 ^ 64
  | .tick _ none, r => r = .ticked none 0
  | _, _ => True

/-- The frame is one of the task's, emitted at `nowUs`. -/
structure Carries (t : RbsTask) (nowUs : UInt64) (f : BusFrame) : Prop where
  id : f.id = t.msgId
  channel : f.channel = t.channel
  type : f.type = t.busType
  dir : f.dir = .tx
  dlc : f.dlc.toNat = min t.dlc.toNat busMaxPayload
  data : ∀ (i : ℕ) (hi : i < busMaxPayload), i < f.dlc.toNat → f.data[i] = t.data[i]
  timestamp : f.timestampNs100.toNat = nowUs.toNat * 10 % 2 ^ 64

lemma carries_frame (t : RbsTask) (nowUs : UInt64) : Carries t nowUs (t.frame nowUs) where
  id := rfl
  channel := rfl
  type := rfl
  dir := rfl
  dlc := makeFrame_dlc ..
  data i hi hdlc := by
    rw [RbsTask.frame, makeFrame_dlc] at hdlc
    exact (makeFrame_data _ _ _ _ _ _ _ _ _ hi (Nat.lt_min.mp hdlc).1).trans (by simp [hi])
  timestamp := UInt64.toNat_mul nowUs 10

/-! ### The records change nothing -/

lemma watchTasks_erase {nowUs : UInt64} {ws ws' : List Watched} {out out' : List BusFrame}
    {emitted emitted' : ℕ} (h : watchTasks nowUs ws out emitted = some (ws', out', emitted')) :
    tickTasks nowUs (ws.map Watched.task) out emitted =
      some (ws'.map Watched.task, out', emitted') := by
  induction ws generalizing out emitted ws' with
  | nil =>
    cases h
    rfl
  | cons w ws ih =>
    rw [watchTasks, Option.bind_eq_bind, Option.bind_eq_some_iff] at h
    obtain ⟨⟨w₁, out₁, emitted₁⟩, hw, h⟩ := h
    rw [Option.bind_eq_bind, Option.bind_eq_some_iff] at h
    obtain ⟨⟨ws₁, out₂, emitted₂⟩, hws, h⟩ := h
    cases h
    rw [Watched.tick, Option.bind_eq_bind, Option.bind_eq_some_iff] at hw
    obtain ⟨⟨t, out₃, emitted₃⟩, ht, hw⟩ := hw
    cases hw
    rw [List.map_cons, tickTasks, ht]
    simp [ih hws]

lemma watchCall_erase {ws ws' : List Watched} {c : Call} {r : Reply}
    (h : watchCall ws c = some (ws', r)) : (erase ws).call c = some (erase ws', r) := by
  cases c with
  | addTask task =>
    cases h
    simp [erase, call, addTask]
  | removeTask msgId channel =>
    cases h
    simp [erase, call, removeTask, List.eraseP_map, Function.comp_def]
  | clearTasks =>
    cases h
    simp [erase, call, clearTasks]
  | reset =>
    cases h
    simp [erase, call, reset]
  | tick nowUs out =>
    cases out with
    | none =>
      cases h
      rfl
    | some out =>
      rw [watchCall, Option.bind_eq_bind, Option.bind_eq_some_iff] at h
      obtain ⟨⟨ws₁, out₁, emitted₁⟩, hws, h⟩ := h
      cases h
      simp [erase, call, tick, watchTasks_erase hws]

lemma watch_erase {ws ws' : List Watched} {cs : List Call} {rs : List Reply}
    (h : watch ws cs = some (ws', rs)) : (erase ws).run cs = some (erase ws', rs) := by
  induction cs generalizing ws rs with
  | nil =>
    cases h
    rfl
  | cons c cs ih =>
    rw [watch, Option.bind_eq_bind, Option.bind_eq_some_iff] at h
    obtain ⟨⟨ws₁, r⟩, hc, h⟩ := h
    rw [Option.bind_eq_bind, Option.bind_eq_some_iff] at h
    obtain ⟨⟨ws₂, rs₁⟩, hcs, h⟩ := h
    cases h
    simp [run, watchCall_erase hc, ih hcs]

/-! ### Each task on its own schedule -/

/-- What holds of a task and its record at any time. -/
structure Watched.OnSchedule (w : Watched) : Prop where
  same : w.task = { w.template with nextTickUs := w.task.nextTickUs }
  idle : w.template.enabled = false ∨ w.template.periodUs = 0 → w.frames = []
  unseen : w.seen = [] → w.frames = [] ∧ w.task.nextTickUs = 0
  due : ¬(w.template.enabled = false ∨ w.template.periodUs = 0) → ∀ t₀ ∈ w.seen.head?,
    Elapsed t₀.toNat w.template.periodUs.toNat w.largest w.frames.length ∧
      w.task.nextTickUs.toNat =
        t₀.toNat + w.template.periodUs.toNat * (w.frames.length + 1)
  carries : ∀ x ∈ w.frames, x.2 = w.template.frame x.1

lemma onSchedule_new {t : RbsTask} (h : t.nextTickUs = 0) :
    Watched.OnSchedule ⟨t, t, [], []⟩ where
  same := rfl
  idle _ := rfl
  unseen _ := ⟨rfl, h⟩
  due _ t₀ ht₀ := by simp at ht₀
  carries x hx := by simp at hx

/-- `reset` anchors the task anew. -/
lemma Watched.OnSchedule.reset {w : Watched} (h : w.OnSchedule) :
    Watched.OnSchedule ⟨w.template, { w.task with nextTickUs := 0 }, [], []⟩ where
  same := by rw [h.same]
  idle _ := rfl
  unseen _ := ⟨rfl, rfl⟩
  due _ t₀ ht₀ := by simp at ht₀
  carries x hx := by simp at hx

@[simp] lemma largest_append (template task : RbsTask) (seen : List UInt64) (nowUs : UInt64)
    (frames : List (UInt64 × BusFrame)) :
    Watched.largest ⟨template, task, seen ++ [nowUs], frames⟩ =
      max (seen.foldl (fun m nowUs => max m nowUs.toNat) 0) nowUs.toNat := by
  simp [Watched.largest]

/-- The tasks that a tick does not pass over. -/
lemma Watched.OnSchedule.active {w : Watched} (h : w.OnSchedule)
    (hon : ¬(w.template.enabled = false ∨ w.template.periodUs = 0)) :
    ¬(w.task.enabled = false ∨ w.task.periodUs = 0) ∧ w.task.enabled = true ∧
      0 < w.template.periodUs.toNat := by
  rw [h.same]
  refine ⟨hon, ?_, ?_⟩
  · by_contra hne
    exact hon (Or.inl (Bool.eq_false_of_not_eq_true hne))
  · exact RbsTask.period_pos fun h0 => hon (Or.inr h0)

/-- A disabled or zero-period task is passed over. -/
lemma Watched.OnSchedule.tick_idle {w : Watched} (h : w.OnSchedule) (nowUs : UInt64)
    (hoff : w.template.enabled = false ∨ w.template.periodUs = 0) (out : List BusFrame)
    (emitted : ℕ) :
    ∃ w', w.tick nowUs out emitted = some (w', out, emitted) ∧ w'.OnSchedule := by
  have htick : w.task.tick nowUs out emitted = some (w.task, out, emitted) :=
    RbsTask.tick_idle out emitted (by rw [h.same]; exact hoff)
  refine ⟨{ w with seen := w.seen ++ [nowUs] }, by simp [Watched.tick, htick], ?_⟩
  exact
    { same := h.same
      idle := h.idle
      unseen := by simp
      due := fun hon => absurd hoff hon
      carries := h.carries }

/-- The first tick anchors the schedule. -/
lemma Watched.OnSchedule.tick_anchor {w : Watched} (h : w.OnSchedule) {nowUs : UInt64}
    (hon : ¬(w.template.enabled = false ∨ w.template.periodUs = 0)) (hseen : w.seen = [])
    (hnow : nowUs.toNat + w.template.periodUs.toNat < 2 ^ 64) (out : List BusFrame)
    (emitted : ℕ) :
    ∃ w', w.tick nowUs out emitted = some (w', out, emitted) ∧ w'.OnSchedule := by
  obtain ⟨hnone, hnext⟩ := h.unseen hseen
  obtain ⟨hactive, -, hpos⟩ := h.active hon
  have hanchor : (nowUs + w.template.periodUs.toUInt64).toNat =
      nowUs.toNat + w.template.periodUs.toNat := by
    rw [UInt64.toNat_add, UInt32.toNat_toUInt64]
    exact Nat.mod_eq_of_lt hnow
  have htick : w.task.tick nowUs out emitted =
      some ({ w.template with nextTickUs := nowUs + w.template.periodUs.toUInt64 }, out,
        emitted) := by
    rw [RbsTask.tick_anchor out emitted hactive hnext, h.same]
  refine ⟨⟨w.template, { w.template with nextTickUs := nowUs + w.template.periodUs.toUInt64 },
    [nowUs], []⟩, by simp [Watched.tick, htick, hseen, hnone], ?_⟩
  refine
    { same := rfl
      idle := fun _ => rfl
      unseen := by simp
      due := fun _ t₀ ht₀ => ?_
      carries := by simp }
  obtain rfl : nowUs = t₀ := by simpa using ht₀
  constructor
  · simpa [Watched.largest] using elapsed_anchor hpos
  · simpa using hanchor

/-- A later tick catches up with the deadlines that have passed. -/
lemma Watched.OnSchedule.tick_due {w : Watched} (h : w.OnSchedule) {nowUs t₀ : UInt64}
    (hon : ¬(w.template.enabled = false ∨ w.template.periodUs = 0)) (ht₀ : t₀ ∈ w.seen.head?)
    (hnow : nowUs.toNat + w.template.periodUs.toNat < 2 ^ 64) (out : List BusFrame)
    (emitted : ℕ) :
    ∃ w' n, w.tick nowUs out emitted =
        some (w', out ++ List.replicate n (w.template.frame nowUs), emitted + n) ∧
      w'.OnSchedule := by
  obtain ⟨hactive, -, hpos⟩ := h.active hon
  obtain ⟨hpassed, hnext⟩ := h.due hon t₀ ht₀
  have hperiod : w.task.periodUs = w.template.periodUs := by rw [h.same]
  have hpast : 0 < w.template.periodUs.toNat * (w.frames.length + 1) :=
    Nat.mul_pos hpos (Nat.succ_pos _)
  have hne : w.task.nextTickUs ≠ 0 := by
    intro h0
    rw [h0, UInt64.toNat_zero] at hnext
    omega
  obtain ⟨n, next, hrun, hval, hlt, hbound⟩ := RbsTask.catchUp_spec nowUs
    (2 ^ 64 + 1) w.task out emitted (fun h0 => hactive (Or.inr h0)) (by rwa [hperiod])
    (by have := UInt64.toNat_lt nowUs; omega) (Nat.succ_pos _)
  have hframe : w.task.frame nowUs = w.template.frame nowUs := by rw [h.same]; rfl
  rw [hframe] at hrun
  rw [hperiod, hnext, Nat.add_assoc, ← Nat.mul_add, Nat.add_right_comm] at hval
  refine ⟨⟨w.template, { w.task with nextTickUs := next }, w.seen ++ [nowUs],
    w.frames ++ List.replicate n (nowUs, w.template.frame nowUs)⟩, n, ?_, ?_⟩
  · rw [Watched.tick, RbsTask.tick_due out emitted hactive hne, hrun]
    simp
  refine
    { same := by rw [h.same]
      idle := fun hoff => absurd hoff hon
      unseen := by simp
      due := fun _ t₀' ht₀' => ?_
      carries := ?_ }
  · obtain rfl : t₀ = t₀' := by
      rw [List.head?_append, ht₀] at ht₀'
      simpa using ht₀'
    simp only [largest_append, List.length_append, List.length_replicate]
    refine ⟨?_, hval⟩
    rcases Nat.eq_zero_or_pos n with rfl | hn
    · exact hpassed.of_lt (hval ▸ hlt)
    · refine hpassed.of_le (Nat.lt_add_of_pos_right hn) ⟨?_, hval ▸ hlt⟩
      have := hbound hn
      rw [hval, hperiod, Nat.mul_succ, ← Nat.add_assoc] at this
      exact Nat.le_of_add_le_add_right this
  · intro x hx
    rcases List.mem_append.mp hx with hx | hx
    · exact h.carries x hx
    · rw [List.eq_of_mem_replicate hx]

/-- One tick keeps a task on its schedule and appends to `out` what the task emits. -/
lemma Watched.OnSchedule.tick {w : Watched} (h : w.OnSchedule) {nowUs : UInt64}
    (hnow : w.task.enabled = true → nowUs.toNat + w.task.periodUs.toNat < 2 ^ 64)
    (out : List BusFrame) (emitted : ℕ) :
    ∃ w' n, w.tick nowUs out emitted =
        some (w', out ++ List.replicate n (w.template.frame nowUs), emitted + n) ∧
      w'.OnSchedule := by
  by_cases hon : w.template.enabled = false ∨ w.template.periodUs = 0
  · obtain ⟨w', hrun, hw'⟩ := h.tick_idle nowUs hon out emitted
    exact ⟨w', 0, by simpa using hrun, hw'⟩
  · have hsum : nowUs.toNat + w.template.periodUs.toNat < 2 ^ 64 := by
      have hperiod : w.task.periodUs = w.template.periodUs := by rw [h.same]
      exact hperiod ▸ hnow (h.active hon).2.1
    cases hseen : w.seen with
    | nil =>
      obtain ⟨w', hrun, hw'⟩ := h.tick_anchor hon hseen hsum out emitted
      exact ⟨w', 0, by simpa using hrun, hw'⟩
    | cons t₀ later =>
      have ht₀ : t₀ ∈ w.seen.head? := by simp [hseen]
      exact h.tick_due hon ht₀ hsum out emitted

/-! ### Ticks, calls and runs -/

lemma watchTasks_spec {nowUs : UInt64} {ws : List Watched} (h : ∀ w ∈ ws, w.OnSchedule)
    (hnow : ∀ w ∈ ws, w.task.enabled = true → nowUs.toNat + w.task.periodUs.toNat < 2 ^ 64)
    (out : List BusFrame) (emitted : ℕ) :
    ∃ ws' fs, watchTasks nowUs ws out emitted = some (ws', out ++ fs, emitted + fs.length) ∧
      (∀ w ∈ ws', w.OnSchedule) ∧ ∀ f ∈ fs, f.timestampNs100 = nowUs * 10 := by
  induction ws generalizing out emitted with
  | nil => exact ⟨[], [], by simp [watchTasks], h, by simp⟩
  | cons w ws ih =>
    rw [List.forall_mem_cons] at h hnow
    obtain ⟨w', n, hw, hsched⟩ := h.1.tick hnow.1 out emitted
    obtain ⟨ws', fs, hws, hscheds, hstamp⟩ :=
      ih h.2 hnow.2 (out ++ List.replicate n (w.template.frame nowUs)) (emitted + n)
    refine ⟨w' :: ws', List.replicate n (w.template.frame nowUs) ++ fs, ?_, ?_, ?_⟩
    · simp [watchTasks, hw, hws, Nat.add_assoc]
    · exact List.forall_mem_cons.mpr ⟨hsched, hscheds⟩
    · intro f hf
      rcases List.mem_append.mp hf with hf | hf
      · rw [List.eq_of_mem_replicate hf]
        rfl
      · exact hstamp f hf

lemma watchCall_spec {ws : List Watched} {c : Call} (h : ∀ w ∈ ws, w.OnSchedule)
    (hadd : ∀ t, c = .addTask t → t.nextTickUs = 0)
    (hnow : ∀ nowUs out, c = .tick nowUs (some out) →
      ∀ t ∈ (erase ws).tasks, t.enabled = true → nowUs.toNat + t.periodUs.toNat < 2 ^ 64) :
    ∃ ws' r, watchCall ws c = some (ws', r) ∧ (∀ w ∈ ws', w.OnSchedule) ∧ Answers c r := by
  cases c with
  | addTask task =>
    refine ⟨_, _, rfl, fun w hw => ?_, trivial⟩
    rcases List.mem_append.mp hw with hw | hw
    · exact h w hw
    · rw [List.mem_singleton.mp hw]
      exact onSchedule_new (hadd task rfl)
  | removeTask msgId channel =>
    exact ⟨_, _, rfl, fun w hw => h w (List.mem_of_mem_eraseP hw), trivial⟩
  | clearTasks => exact ⟨_, _, rfl, by simp, trivial⟩
  | reset =>
    refine ⟨_, _, rfl, fun w hw => ?_, trivial⟩
    obtain ⟨w₀, hw₀, rfl⟩ := List.mem_map.mp hw
    exact (h w₀ hw₀).reset
  | tick nowUs out =>
    cases out with
    | none => exact ⟨ws, _, rfl, h, rfl⟩
    | some out =>
      obtain ⟨ws', fs, hrun, hsched, hstamp⟩ := watchTasks_spec h
        (fun w hw => hnow nowUs out rfl w.task (List.mem_map_of_mem hw)) out 0
      refine ⟨ws', .ticked (some (out ++ fs)) fs.length, ?_, hsched, fs, rfl, ?_⟩
      · simp [watchCall, hrun]
      · intro f hf
        rw [hstamp f hf]
        exact UInt64.toNat_mul nowUs 10

lemma watch_spec {ws : List Watched} {cs : List Call} (h : ∀ w ∈ ws, w.OnSchedule)
    (hadd : ∀ t, .addTask t ∈ cs → t.nextTickUs = 0) (hrange : InRange (erase ws) cs) :
    ∃ ws' rs, watch ws cs = some (ws', rs) ∧ (∀ w ∈ ws', w.OnSchedule) ∧
      List.Forall₂ Answers cs rs := by
  induction cs generalizing ws with
  | nil => exact ⟨ws, [], rfl, h, .nil⟩
  | cons c cs ih =>
    obtain ⟨hnow, hlater⟩ := hrange
    obtain ⟨ws₁, r, hc, h₁, hr⟩ :=
      watchCall_spec h (fun t ht => hadd t (ht ▸ List.mem_cons_self ..)) hnow
    obtain ⟨ws', rs, hcs, h', hrs⟩ := ih h₁ (fun t ht => hadd t (List.mem_cons_of_mem c ht))
      (hlater (erase ws₁) r (watchCall_erase hc))
    exact ⟨ws', r :: rs, by simp [watch, hc, hcs], h', .cons hr hrs⟩

/-! ### The schedule -/

lemma onSchedule_nil : ∀ w ∈ ([] : List Watched), w.OnSchedule :=
  fun _ hw => absurd hw List.not_mem_nil

/-- After any calls, a task has emitted one frame for every period that has passed between the first
tick it has seen and the latest time it has seen, whatever the other tasks are and however time is
split into ticks. -/
theorem emits_due_frames {cs : List Call} (hadd : ∀ t, .addTask t ∈ cs → t.nextTickUs = 0)
    (hrange : InRange empty cs) :
    ∃ ws rs, watch [] cs = some (ws, rs) ∧ empty.run cs = some (erase ws, rs) ∧
      List.Forall₂ Answers cs rs ∧
      ∀ w ∈ ws,
        (w.template.enabled = true → w.template.periodUs ≠ 0 → ∀ t₀ ∈ w.seen.head?,
          w.frames.length = (w.largest - t₀.toNat) / w.template.periodUs.toNat) ∧
        (w.seen = [] → w.frames = []) ∧
        (w.template.enabled = false ∨ w.template.periodUs = 0 → w.frames = []) ∧
        ∀ x ∈ w.frames, Carries w.template x.1 x.2 := by
  obtain ⟨ws, rs, hrun, hsched, hanswers⟩ :=
    watch_spec onSchedule_nil hadd hrange
  refine ⟨ws, rs, hrun, watch_erase hrun, hanswers, fun w hw => ⟨?_, ?_, ?_, ?_⟩⟩
  · intro hon hperiod t₀ ht₀
    exact ((hsched w hw).due (by simp [hon, hperiod]) t₀ ht₀).1.eq_div
  · exact fun hseen => ((hsched w hw).unseen hseen).1
  · exact (hsched w hw).idle
  · intro x hx
    rw [(hsched w hw).carries x hx]
    exact carries_frame w.template x.1

/-- A task of period 100. -/
def sampleTask : RbsTask where
  msgId := 0x100
  channel := 0
  busType := .canfd
  periodUs := 100
  dlc := 8
  data := Vector.replicate busMaxPayload 7
  enabled := true
  nextTickUs := 0

/-- Anchored at 1000, and then a tick that is two periods late. -/
def sampleCalls : List Call :=
  [.addTask sampleTask, .tick 1000 (some []), .tick 1250 (some [])]

theorem emits_due_frames_sample :
    ∃ ws rs, watch [] sampleCalls = some (ws, rs) ∧ ws.length = 1 ∧
      ∀ w ∈ ws, w.frames.length = 2 := by
  have hrange : InRange empty sampleCalls := by
    refine ⟨by simp, ?_⟩
    rintro _ _ ⟨⟩
    refine ⟨?_, ?_⟩
    · rintro _ _ ⟨⟩
      simp [empty, addTask, sampleTask]
    · rintro _ _ ⟨⟩
      refine ⟨?_, fun _ _ _ => trivial⟩
      rintro _ _ ⟨⟩
      simp [sampleTask]
  obtain ⟨ws, rs, hrun, -, -, hws⟩ := emits_due_frames (by simp [sampleCalls, sampleTask]) hrange
  cases hrun
  refine ⟨_, _, rfl, rfl, fun w hw => ?_⟩
  have hdue := (hws w hw).1
  obtain rfl := List.mem_singleton.mp hw
  exact hdue rfl (by simp [sampleTask]) 1000 rfl

end RbsScheduler

end BusTestPlatform

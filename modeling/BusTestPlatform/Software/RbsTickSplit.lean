import BusTestPlatform.Software.RbsCatchUp

/-!
# How often the scheduler is ticked

Once its tasks are anchored, a scheduler sends the same frames however often `tick` is called on the
way to a time, and is in the same state there. Only the stamps on the frames, and the order in which
tasks that are due together take their turns, depend on the ticks.
-/

namespace BusTestPlatform

namespace RbsTask

variable {a b nowUs : UInt64} {t t' t'' : RbsTask} {n : ℕ}

/-- The task has a deadline, if it is active. -/
def Anchored (t : RbsTask) : Prop := t.Active → t.nextTickUs ≠ 0

/-- A tick at `nowUs` makes `t'` of the task and sends `n` frames for it. -/
def Sends (nowUs : UInt64) (t t' : RbsTask) (n : ℕ) : Prop :=
  ∀ out emitted, t.tick nowUs out emitted =
    some (t', out ++ List.replicate n (t.frame nowUs), emitted + n)

/-! ### One task -/

/-- The first deadline ahead is come to before the loop of the model runs out of fuel. -/
lemma lt_fuel (hdue : ∀ j < n, t.deadline j ≤ nowUs) (hahead : nowUs < t.deadline n) :
    n < 2 ^ 64 + 1 := by
  have hexists : ∃ k,
      nowUs.toNat < Stride.place (2 ^ 64) t.periodUs.toNat t.nextTickUs.toNat k := by
    refine ⟨n, ?_⟩
    rwa [← toNat_deadline, ← UInt64.lt_iff_toNat_lt]
  rw [Stride.exists_lt_place_iff (by decide), ← lastDeadline, ← exists_deadline_iff] at hexists
  obtain ⟨k, hfuel, -, hk⟩ := hexists
  rcases Nat.lt_or_ge k n with hlt | hge
  · exact absurd hk (UInt64.not_lt.mpr (hdue k hlt))
  · exact hge.trans_lt hfuel

lemma sends_idle (h : ¬ t.Active) : Sends nowUs t t 0 := by
  intro out emitted
  rw [tick_idle out emitted (not_active_iff.mp h)]
  simp

/-- What a tick sends does not depend on what is in `out`. -/
lemma exists_sends {r : RbsTask × List BusFrame × ℕ} {out : List BusFrame} {emitted : ℕ}
    (h : t.tick nowUs out emitted = some r) :
    ∃ n, Sends nowUs t r.1 n ∧ r.2 = (out ++ List.replicate n (t.frame nowUs), emitted + n) := by
  by_cases hon : t.Active
  · by_cases hnext : t.nextTickUs = 0
    · rw [tick_anchor out emitted hon.not_idle hnext] at h
      cases h
      refine ⟨0, fun out emitted => ?_, by simp⟩
      rw [tick_anchor out emitted hon.not_idle hnext]
      simp
    · rw [tick_due out emitted hon.not_idle hnext, catchUp_iff] at h
      obtain ⟨k, hfuel, hdue, hahead, rfl⟩ := h
      refine ⟨k, fun out emitted => ?_, rfl⟩
      rw [tick_due out emitted hon.not_idle hnext]
      exact catchUp_eq_some out emitted hdue hahead hfuel
  · rw [tick_idle out emitted (not_active_iff.mp hon)] at h
    cases h
    exact ⟨0, sends_idle hon, by simp⟩

lemma Sends.unique {n' : ℕ} (h : Sends nowUs t t' n) (h' : Sends nowUs t t'' n') :
    t' = t'' ∧ n = n' := by
  have heq := (h [] 0).symm.trans (h' [] 0)
  simp only [Option.some.injEq, Prod.mk.injEq, Nat.zero_add] at heq
  exact ⟨heq.1, heq.2.2⟩

/-- An anchored task is brought to its first deadline ahead. -/
lemma sends_iff (hon : t.Active) (hnext : t.nextTickUs ≠ 0) : Sends nowUs t t' n ↔
    (∀ j < n, t.deadline j ≤ nowUs) ∧ nowUs < t.deadline n ∧
      t' = { t with nextTickUs := t.deadline n } := by
  have hsends : ∀ k, (∀ j < k, t.deadline j ≤ nowUs) → nowUs < t.deadline k →
      Sends nowUs t { t with nextTickUs := t.deadline k } k := by
    intro k hdue hahead out emitted
    rw [tick_due out emitted hon.not_idle hnext]
    exact catchUp_eq_some out emitted hdue hahead (lt_fuel hdue hahead)
  constructor
  · intro h
    have htick := h [] 0
    rw [tick_due [] 0 hon.not_idle hnext, catchUp_iff] at htick
    obtain ⟨k, -, hdue, hahead, -⟩ := htick
    obtain ⟨rfl, rfl⟩ := h.unique (hsends k hdue hahead)
    exact ⟨hdue, hahead, rfl⟩
  · rintro ⟨hdue, hahead, rfl⟩
    exact hsends n hdue hahead

lemma deadline_add (t : RbsTask) (j k : ℕ) :
    { t with nextTickUs := t.deadline j }.deadline k = t.deadline (j + k) := by
  simp only [deadline]
  rw [UInt64.ofNat_add, UInt64.add_mul, UInt64.add_assoc]

/-- A deadline ahead is not 0, which marks a task without one. -/
lemma ne_zero_of_lt {x y : UInt64} (h : x < y) : y ≠ 0 := by
  rintro rfl
  exact absurd h (UInt64.not_lt.mpr (UInt64.zero_le))

lemma Sends.anchored (h : Sends nowUs t t' n) (ht : t.Anchored) : t'.Anchored := by
  by_cases hon : t.Active
  · obtain ⟨-, hahead, rfl⟩ := (sends_iff hon (ht hon)).mp h
    exact fun _ => ne_zero_of_lt hahead
  · obtain ⟨rfl, -⟩ := h.unique (sends_idle hon)
    exact ht

/-- A tick does what an earlier one and then the tick itself do. -/
lemma sends_split (hab : a ≤ b) (ht : t.Anchored) : Sends b t t'' n ↔
    ∃ t' k l, Sends a t t' k ∧ Sends b t' t'' l ∧ n = k + l := by
  by_cases hon : t.Active
  · have hnext := ht hon
    -- After `k` rounds the task stands on its `k`th deadline.
    have hthen : ∀ {k l}, a < t.deadline k →
        (Sends b { t with nextTickUs := t.deadline k } t'' l ↔
          (∀ j < l, t.deadline (k + j) ≤ b) ∧ b < t.deadline (k + l) ∧
            t'' = { t with nextTickUs := t.deadline (k + l) }) := by
      intro k l hk
      have hon' : Active { t with nextTickUs := t.deadline k } := hon
      rw [sends_iff hon' (ne_zero_of_lt hk)]
      simp only [deadline_add]
    constructor
    · intro h
      obtain ⟨hdue, hahead, rfl⟩ := (sends_iff hon hnext).mp h
      classical
      have hfirst : ∃ k, a < t.deadline k := ⟨n, UInt64.lt_of_le_of_lt hab hahead⟩
      obtain ⟨l, hl⟩ := Nat.exists_eq_add_of_le
        (Nat.find_min' hfirst (UInt64.lt_of_le_of_lt hab hahead))
      refine ⟨_, Nat.find hfirst, l, (sends_iff hon hnext).mpr
        ⟨fun j hj => UInt64.not_lt.mp (Nat.find_min hfirst hj), Nat.find_spec hfirst, rfl⟩, ?_, hl⟩
      rw [hthen (Nat.find_spec hfirst), ← hl]
      exact ⟨fun j hj => hdue _ (by omega), hahead, rfl⟩
    · rintro ⟨t', k, l, hk, hl, rfl⟩
      obtain ⟨hdue, hahead, rfl⟩ := (sends_iff hon hnext).mp hk
      obtain ⟨hdue', hahead', rfl⟩ := (hthen hahead).mp hl
      refine (sends_iff hon hnext).mpr ⟨fun j hj => ?_, hahead', rfl⟩
      rcases Nat.lt_or_ge j k with hlt | hge
      · exact UInt64.le_trans (hdue j hlt) hab
      · obtain ⟨i, rfl⟩ := Nat.exists_eq_add_of_le hge
        exact hdue' i (Nat.lt_of_add_lt_add_left hj)
  · constructor
    · intro h
      obtain ⟨rfl, rfl⟩ := h.unique (sends_idle hon)
      exact ⟨t'', 0, 0, sends_idle hon, sends_idle hon, rfl⟩
    · rintro ⟨t', k, l, hk, hl, rfl⟩
      obtain ⟨rfl, rfl⟩ := hk.unique (sends_idle hon)
      simpa using hl

lemma untimed_frame (t : RbsTask) (nowUs : UInt64) :
    (t.frame nowUs).untimed = (t.frame 0).untimed := rfl

/-- A task keeps its template. -/
lemma Sends.frame_eq (h : Sends nowUs t t' n) : t'.frame 0 = t.frame 0 := by
  by_cases hon : t.Active
  · by_cases hnext : t.nextTickUs = 0
    · have htick := h [] 0
      rw [tick_anchor [] 0 hon.not_idle hnext] at htick
      simp only [Option.some.injEq, Prod.mk.injEq] at htick
      rw [← htick.1, frame_setNext]
    · obtain ⟨-, -, rfl⟩ := (sends_iff hon hnext).mp h
      rw [frame_setNext]
  · obtain ⟨rfl, -⟩ := h.unique (sends_idle hon)
    rfl

end RbsTask

namespace RbsScheduler

open RbsTask

variable {a b nowUs : UInt64} {ts us vs : List RbsTask} {m : Multiset BusFrame}

/-- The frames in `out`, in any order and without their time stamps. -/
def untimed (out : List BusFrame) : Multiset BusFrame := Multiset.ofList (out.map BusFrame.untimed)

/-- A tick at `nowUs` makes `us` of the tasks and sends the frames `m` for them. -/
inductive SendsAll (nowUs : UInt64) : List RbsTask → List RbsTask → Multiset BusFrame → Prop
  | nil : SendsAll nowUs [] [] 0
  | cons {t u ts us n m} : Sends nowUs t u n → SendsAll nowUs ts us m →
      SendsAll nowUs (t :: ts) (u :: us) (Multiset.replicate n (t.frame 0).untimed + m)

/-- Ticks at one time after the other make `us` of the tasks and send the frames `m` for them. -/
def SendsEach : List UInt64 → List RbsTask → List RbsTask → Multiset BusFrame → Prop
  | [], ts, us, m => us = ts ∧ m = 0
  | nowUs :: later, ts, vs, m =>
    ∃ us m₁ m₂, SendsAll nowUs ts us m₁ ∧ SendsEach later us vs m₂ ∧ m = m₁ + m₂

/-- `tick` at one time after the other, into one vector. -/
def ticks (s : RbsScheduler) :
    List UInt64 → List BusFrame → Option (RbsScheduler × List BusFrame × ℕ)
  | [], out => some (s, out, 0)
  | nowUs :: later, out => do
    let (s, out, emitted) ← s.tick nowUs (some out)
    let (s, out, more) ← s.ticks later (← out)
    return (s, out, emitted + more)

/-! ### One tick -/

lemma untimed_append (out fs : List BusFrame) : untimed (out ++ fs) = untimed out + untimed fs := by
  simp [untimed]

lemma untimed_replicate (n : ℕ) (t : RbsTask) (nowUs : UInt64) :
    untimed (List.replicate n (t.frame nowUs)) = Multiset.replicate n (t.frame 0).untimed := by
  rw [untimed, List.map_replicate, untimed_frame, Multiset.coe_replicate]

lemma SendsAll.tickTasks (h : SendsAll nowUs ts us m) (out : List BusFrame) (emitted : ℕ) :
    ∃ out', tickTasks nowUs ts out emitted = some (us, out', emitted + m.card) ∧
      untimed out' = untimed out + m := by
  induction h generalizing out emitted with
  | nil => exact ⟨out, by simp [RbsScheduler.tickTasks]⟩
  | @cons t u ts us n m ht _ ih =>
    obtain ⟨out', hrun, hout⟩ := ih (out ++ List.replicate n (t.frame nowUs)) (emitted + n)
    refine ⟨out', ?_, ?_⟩
    · simp [RbsScheduler.tickTasks, ht out emitted, hrun, Nat.add_assoc]
    · rw [hout, untimed_append, untimed_replicate, add_assoc]

lemma exists_sendsAll {r : List RbsTask × List BusFrame × ℕ} {out : List BusFrame} {emitted : ℕ}
    (h : tickTasks nowUs ts out emitted = some r) : ∃ m, SendsAll nowUs ts r.1 m := by
  induction ts generalizing r out emitted with
  | nil =>
    cases h
    exact ⟨0, .nil⟩
  | cons t ts ih =>
    rw [tickTasks, Option.bind_eq_bind, Option.bind_eq_some_iff] at h
    obtain ⟨r₁, ht, h⟩ := h
    rw [Option.bind_eq_bind, Option.bind_eq_some_iff] at h
    obtain ⟨r₂, hts, h⟩ := h
    cases h
    obtain ⟨n, hn, -⟩ := exists_sends ht
    obtain ⟨m, hm⟩ := ih hts
    exact ⟨_, .cons hn hm⟩

lemma SendsAll.anchored (h : SendsAll nowUs ts us m) (hts : ∀ t ∈ ts, t.Anchored) :
    ∀ u ∈ us, u.Anchored := by
  induction h with
  | nil => exact hts
  | cons ht _ ih =>
    rw [List.forall_mem_cons] at hts ⊢
    exact ⟨ht.anchored hts.1, ih hts.2⟩

lemma sendsAll_split (hab : a ≤ b) (hts : ∀ t ∈ ts, t.Anchored) : SendsAll b ts vs m ↔
    ∃ us m₁ m₂, SendsAll a ts us m₁ ∧ SendsAll b us vs m₂ ∧ m = m₁ + m₂ := by
  constructor
  · intro h
    induction h with
    | nil => exact ⟨[], 0, 0, .nil, .nil, rfl⟩
    | cons ht _ ih =>
      rw [List.forall_mem_cons] at hts
      obtain ⟨t', k, l, hk, hl, rfl⟩ := (sends_split hab hts.1).mp ht
      obtain ⟨us, m₁, m₂, h₁, h₂, rfl⟩ := ih hts.2
      refine ⟨t' :: us, _, _, .cons hk h₁, .cons hl h₂, ?_⟩
      rw [hk.frame_eq, Multiset.replicate_add, add_add_add_comm]
  · rintro ⟨us, m₁, m₂, h₁, h₂, rfl⟩
    induction h₁ generalizing vs m₂ with
    | nil =>
      cases h₂
      exact .nil
    | cons ht _ ih =>
      rw [List.forall_mem_cons] at hts
      cases h₂ with
      | cons ht' h₂ =>
        rw [ht.frame_eq, add_add_add_comm, ← Multiset.replicate_add]
        exact .cons ((sends_split hab hts.1).mpr ⟨_, _, _, ht, ht', rfl⟩) (ih hts.2 _ h₂)

/-! ### Any number of ticks -/

/-- What is left of an answer without the stamps and the order of the frames. -/
def summary (r : RbsScheduler × List BusFrame × ℕ) : RbsScheduler × Multiset BusFrame × ℕ :=
  (r.1, untimed r.2.1, r.2.2)

lemma ticks_cons (h : SendsAll nowUs ts us m) (later : List UInt64) (out : List BusFrame) :
    ∃ out', untimed out' = untimed out + m ∧ (RbsScheduler.mk ts).ticks (nowUs :: later) out =
      ((RbsScheduler.mk us).ticks later out').map fun r => (r.1, r.2.1, m.card + r.2.2) := by
  obtain ⟨out', hrun, hout⟩ := h.tickTasks out 0
  refine ⟨out', hout, ?_⟩
  rw [ticks, tick, hrun]
  cases hlater : (RbsScheduler.mk us).ticks later out' <;> simp [hlater]

/-- Without an answer from the first tick there is none. -/
lemma ticks_cons_eq_none (h : ¬ ∃ us m, SendsAll nowUs ts us m) (later : List UInt64)
    (out : List BusFrame) : (RbsScheduler.mk ts).ticks (nowUs :: later) out = none := by
  have hnone : tickTasks nowUs ts out 0 = none := by
    refine Option.eq_none_iff_forall_ne_some.mpr fun r hr => ?_
    obtain ⟨m, hm⟩ := exists_sendsAll hr
    exact h ⟨r.1, m, hm⟩
  rw [ticks, tick, hnone]
  rfl

lemma ticks_summary_iff {nows : List UInt64} {out : List BusFrame} {s' : RbsScheduler}
    {f : Multiset BusFrame} {n : ℕ} :
    ((RbsScheduler.mk ts).ticks nows out).map summary = some (s', f, n) ↔
      ∃ m, SendsEach nows ts s'.tasks m ∧ f = untimed out + m ∧ n = m.card := by
  induction nows generalizing ts out f n with
  | nil =>
    obtain ⟨us⟩ := s'
    simp only [ticks, summary, SendsEach, Option.map_some, Option.some.injEq, Prod.mk.injEq,
      RbsScheduler.mk.injEq]
    constructor
    · rintro ⟨rfl, rfl, rfl⟩
      exact ⟨0, ⟨rfl, rfl⟩, by simp⟩
    · rintro ⟨m, ⟨rfl, rfl⟩, rfl, rfl⟩
      simp
  | cons nowUs later ih =>
    constructor
    · intro h
      by_cases hsome : ∃ us m, SendsAll nowUs ts us m
      · obtain ⟨us, m₁, hm₁⟩ := hsome
        obtain ⟨out', hout, hrun⟩ := ticks_cons hm₁ later out
        rw [hrun, Option.map_map, Option.map_eq_some_iff] at h
        obtain ⟨r, hr, hrsum⟩ := h
        simp only [Function.comp, summary, Prod.mk.injEq] at hrsum
        obtain ⟨rfl, rfl, rfl⟩ := hrsum
        obtain ⟨m₂, hm₂, hf, hn⟩ := ih.mp (Option.map_eq_some_iff.mpr ⟨r, hr, rfl⟩)
        refine ⟨m₁ + m₂, ⟨us, m₁, m₂, hm₁, hm₂, rfl⟩, ?_, ?_⟩
        · rw [hf, hout, add_assoc]
        · rw [hn, Multiset.card_add]
      · rw [ticks_cons_eq_none hsome] at h
        cases h
    · rintro ⟨_, ⟨us, m₁, m₂, hm₁, hm₂, rfl⟩, rfl, rfl⟩
      obtain ⟨out', hout, hrun⟩ := ticks_cons hm₁ later out
      have hlater : ((RbsScheduler.mk us).ticks later out').map summary =
          some (s', untimed out' + m₂, m₂.card) := ih.mpr ⟨m₂, hm₂, rfl, rfl⟩
      obtain ⟨r, hr, hrsum⟩ := Option.map_eq_some_iff.mp hlater
      simp only [summary, Prod.mk.injEq] at hrsum
      obtain ⟨rfl, hf, hn⟩ := hrsum
      rw [hrun, hr, Option.map_some, Option.map_some, Option.some.injEq]
      simp only [summary, hf, hn, hout, Multiset.card_add, add_assoc]

/-- Anchored tasks answer to the last tick only. -/
lemma sendsEach_iff {nows : List UInt64} (hts : ∀ t ∈ ts, t.Anchored)
    (hnows : ∀ a ∈ nows, a ≤ b) : SendsEach (nows ++ [b]) ts vs m ↔ SendsAll b ts vs m := by
  induction nows generalizing ts m with
  | nil =>
    constructor
    · rintro ⟨us, m₁, m₂, hm₁, ⟨rfl, rfl⟩, rfl⟩
      rwa [add_zero]
    · exact fun h => ⟨vs, m, 0, h, ⟨rfl, rfl⟩, (add_zero m).symm⟩
  | cons a nows ih =>
    rw [List.forall_mem_cons] at hnows
    rw [sendsAll_split hnows.1 hts]
    refine exists_congr fun us => exists_congr fun m₁ => exists_congr fun m₂ => ?_
    refine and_congr_right fun hm₁ => and_congr_left fun _ => ?_
    exact ih (hm₁.anchored hts) hnows.2

/-- Ticking on the way to a time, also with a clock that goes back, changes neither what is sent up
to then, but for the stamps and the order, nor the state the scheduler is in, nor whether `tick`
returns. -/
theorem ticks_split (s : RbsScheduler) (nows : List UInt64) (b : UInt64) (out : List BusFrame)
    (hs : ∀ t ∈ s.tasks, t.Anchored) (hnows : ∀ a ∈ nows, a ≤ b) :
    (s.ticks (nows ++ [b]) out).map summary = (s.ticks [b] out).map summary := by
  obtain ⟨ts⟩ := s
  refine Option.ext fun r => ?_
  have hlast : ∀ us m, SendsEach ([] ++ [b]) ts us m ↔ SendsAll b ts us m := fun us m =>
    sendsEach_iff hs (List.forall_mem_nil _)
  rw [List.nil_append] at hlast
  rw [ticks_summary_iff, ticks_summary_iff]
  simp only [hlast, sendsEach_iff hs hnows]

/-- Two tasks, due from 10 and from 15 on. -/
def twoTasks : RbsScheduler :=
  ⟨[⟨0x100, 0, .can, 10, 8, Vector.replicate busMaxPayload 0, true, 10⟩,
    ⟨0x200, 1, .canfd, 25, 64, Vector.replicate busMaxPayload 0, true, 15⟩]⟩

theorem ticks_split_twoTasks :
    (twoTasks.ticks ([10, 31, 12] ++ [40]) []).map summary =
      (twoTasks.ticks [40] []).map summary :=
  ticks_split twoTasks [10, 31, 12] 40 [] (by simp [twoTasks, Anchored]) (by simp)

end RbsScheduler

end BusTestPlatform

import BusTestPlatform.Lib.Waiting
import BusTestPlatform.Software.CaptureNoLoss
import BusTestPlatform.Software.CaptureSingle

/-!
# `stop` returns

`stop` waits in `join` for the worker, which may be anywhere in its loop: before a poll that
returns a full batch, or with a batch still to push. No wait of the worker depends on another
thread, so a bounded number of its own steps takes it out of `run`, whatever the consumer does
in between.
-/

namespace BusTestPlatform

open Waiting

section
variable {w c : ℕ} {β : Type*}

/-- The cells that the copy in progress has done. -/
def ProducerPc.copied : ProducerPc w c β → ℕ
  | .copy _ _ k => k
  | _ => 0

/-- An upper bound for the steps until the call of `push` in progress returns. -/
def ProducerPc.rank : ProducerPc w c β → ℕ
  | .loadHead _ => c + 4
  | .loadTail _ _ => c + 3
  | .test _ _ _ => c + 2
  | .drop _ => 1
  | .copy _ _ k => c + 1 - k
  | .idle => 0
  | .sizeTail _ => 0

namespace Pipeline

variable {s s' : Pipeline w c β}

lemma ProducerStep.copied_le (h : ProducerStep s s') : s'.prod.copied ≤ c := by
  cases h with
  | copy hpc hlt => exact hlt
  | _ => exact Nat.zero_le _

lemma Reachable.copied_le {capacity : BitVec w} (h : Reachable capacity s) :
    s.prod.copied ≤ c := by
  induction h with
  | init buf => exact Nat.zero_le _
  | producer _ hstep _ => exact hstep.copied_le
  | consumer _ hstep ih => exact hstep.frame.1 ▸ ih

lemma ProducerStep.rank_lt (h : ProducerStep s s') (hp : s.prod.pending ≠ []) :
    s'.prod.rank < s.prod.rank := by
  cases h with
  | push frame hpc => exact absurd (congrArg ProducerPc.pending hpc) hp
  | size hpc hr => exact absurd (congrArg ProducerPc.pending hpc) hp
  | sizeTail hpc => exact absurd (congrArg ProducerPc.pending hpc) hp
  | copy hpc hk =>
    rw [hpc]
    change c + 1 - (_ + 1) < c + 1 - _
    omega
  | publish hpc =>
    rw [hpc]
    change 0 < c + 1 - c
    omega
  | loadHead hpc hr | loadTail hpc | drop hpc =>
    rw [hpc]
    exact Nat.lt_succ_self _
  | full hpc htest =>
    rw [hpc]
    change 1 < c + 2
    omega
  | room hpc htest =>
    rw [hpc]
    exact Nat.lt_succ_self _

/-- A call of `push` never waits. -/
lemma exists_producerStep (hp : s.prod.pending ≠ []) (hk : s.prod.copied ≤ c)
    (hread : s.seenHead ≤ s.head.last) : ∃ s', ProducerStep s s' := by
  cases hpc : s.prod with
  | idle => exact absurd (congrArg ProducerPc.pending hpc) hp
  | sizeTail h => exact absurd (congrArg ProducerPc.pending hpc) hp
  | loadHead frame => exact ⟨_, .loadHead hpc ⟨hread, le_rfl⟩⟩
  | loadTail frame h => exact ⟨_, .loadTail hpc⟩
  | test frame h t =>
    by_cases htest : s.capacity ≤ t - h
    · exact ⟨_, .full hpc htest⟩
    · exact ⟨_, .room hpc htest⟩
  | drop frame => exact ⟨_, .drop hpc⟩
  | copy frame t k =>
    rw [hpc] at hk
    rcases Nat.lt_or_eq_of_le hk with hlt | heq
    · exact ⟨_, .copy hpc hlt⟩
    · obtain rfl : k = c := heq
      exact ⟨_, .publish hpc⟩

end Pipeline

end

/-! ### How far the worker is from its end -/

/-- The frames of its batch that the worker has not done with. -/
def WorkerPc.remaining : WorkerPc → ℕ
  | .nextFrame rest => rest.length
  | .inPush rest => rest.length + 1
  | .addPushed rest => rest.length + 1
  | .addOffered rest => rest.length + 1
  | _ => 0

/-- The steps that one frame takes at most: those of `push`, two counters and the loop. -/
def frameSteps : ℕ := Abi.x8664.sizeofFrame + 7

/-- The steps that the end of a batch and of `run` take. -/
def WorkerPc.rank (prod : ProducerPc 64 Abi.x8664.sizeofFrame UInt8) : WorkerPc → ℕ
  | .none => 0
  | .exited => 0
  | .loadRunning => 1
  | .addCycles => 2
  | .nextFrame rest => 3 + rest.length * frameSteps
  | .readFrames => 4 + batchFrames * frameSteps
  | .addOffered rest => 4 + rest.length * frameSteps
  | .addPushed rest => 5 + rest.length * frameSteps
  | .inPush rest => 5 + rest.length * frameSteps + prod.rank

/-- The most steps of the worker that `stop` can have to wait for. -/
def stopSteps : ℕ := 4 + batchFrames * frameSteps

lemma WorkerPc.rank_le {pc : WorkerPc} (h : pc.remaining ≤ batchFrames)
    (prod : ProducerPc 64 Abi.x8664.sizeofFrame UInt8) : pc.rank prod ≤ stopSteps := by
  have hprod : prod.rank ≤ Abi.x8664.sizeofFrame + 4 := by
    cases prod <;> simp only [ProducerPc.rank] <;> omega
  have hframe : frameSteps = Abi.x8664.sizeofFrame + 7 := rfl
  have hmul := Nat.mul_le_mul_right frameSteps h
  cases pc with
  | nextFrame rest =>
    simp only [remaining, rank, stopSteps] at hmul ⊢
    omega
  | inPush rest | addPushed rest | addOffered rest =>
    simp only [remaining, rank, stopSteps, Nat.succ_mul] at hmul ⊢
    omega
  | _ =>
    simp only [rank, stopSteps]
    omega

namespace CaptureService

variable {cfg : SimConfig} {capacity : BitVec 64} {s s' : CaptureService}

/-- The thread of the worker has moved. -/
def Moved (s s' : CaptureService) : Prop := s'.worker ≠ s.worker ∨ s'.pipe.prod ≠ s.pipe.prod

def rank (s : CaptureService) : ℕ := s.worker.rank s.pipe.prod

/-- `stop` waits for the worker. -/
def Joining (s : CaptureService) : Prop := s.control = .join

/-- A batch is never longer than the array it is read into, and `running_` stays clear while `stop`
waits. -/
structure Bounded (s : CaptureService) : Prop where
  batch : s.worker.remaining ≤ batchFrames
  stopped : s.Joining → s.running = false

lemma Bounded.step (h : Bounded s) (hstep : Step s s') : Bounded s' := by
  have hbatch := h.batch
  have hstopped := h.stopped
  unfold Joining at hstopped
  cases hstep with
  | startRunning hpc hrun | stopStopped hpc hrun => exact h
  | start hpc hrun | isOpen hpc hopen | openDevice nowNs hpc hopen | storeRunning hpc =>
    exact ⟨hbatch, fun hj => absurd hj (by simp [Joining])⟩
  | spawn hpc | join hpc hexit =>
    exact ⟨Nat.zero_le _, fun hj => absurd hj (by simp [Joining])⟩
  | stop hpc hrun => exact ⟨hbatch, fun _ => rfl⟩
  | goOn hpc hrun | exit hpc hrun | endBatch hpc | addCycles hpc =>
    exact ⟨Nat.zero_le _, hstopped⟩
  | readFrames hpc hread => exact ⟨(SimUsbDevice.readFrames_spec hread).1, hstopped⟩
  | callPush hpc | addPushed hpc =>
    rw [hpc] at hbatch
    exact ⟨hbatch, hstopped⟩
  | addOffered hpc =>
    rw [hpc] at hbatch
    exact ⟨(Nat.le_succ _).trans hbatch, hstopped⟩
  | inPush hpc hcall hstep hmore => exact ⟨hbatch, hstopped⟩
  | pushReturns hpc hcall hstep hret =>
    rw [hpc] at hbatch
    refine ⟨?_, hstopped⟩
    split <;> exact hbatch
  | consumer hstep => exact ⟨hbatch, hstopped⟩

lemma Reachable.bounded (h : Reachable cfg capacity s) : Bounded s := by
  induction h with
  | closed buf => exact ⟨Nat.zero_le _, fun hj => absurd hj (by simp [Joining, init])⟩
  | opened buf nowNs => exact ⟨Nat.zero_le _, fun hj => absurd hj (by simp [Joining, init])⟩
  | step _ hstep ih => exact ih.step hstep

/-- While `stop` waits, every step of the worker brings it nearer to its end, and the consumer does
not bear on it. -/
lemma rank_step (h : Reachable cfg capacity s) (hj : s.Joining) (hstep : Step s s')
    (hj' : s'.Joining) : s'.rank < s.rank ∨ s'.rank = s.rank ∧ ¬ s.Moved s' := by
  have hproducer := h.inv.producer
  have hstopped := h.bounded.stopped hj
  unfold Joining at hj hj'
  unfold rank
  cases hstep with
  | startRunning hpc hrun | start hpc hrun | isOpen hpc hopen | openDevice nowNs hpc hopen
  | storeRunning hpc | spawn hpc | stopStopped hpc hrun | stop hpc hrun =>
    rw [hj] at hpc
    cases hpc
  | join hpc hexit => cases hj'
  | goOn hpc hrun =>
    rw [hstopped] at hrun
    cases hrun
  | exit hpc hrun | endBatch hpc | addCycles hpc | addPushed hpc =>
    left
    rw [hpc]
    simp only [WorkerPc.rank, List.length_nil]
    omega
  | readFrames hpc hread =>
    left
    have hlen := (SimUsbDevice.readFrames_spec hread).1
    have hmul := Nat.mul_le_mul_right frameSteps hlen
    rw [hpc]
    simp only [WorkerPc.rank]
    omega
  | callPush hpc =>
    left
    rw [hpc]
    simp only [WorkerPc.rank, Pipeline.beginPush, ProducerPc.rank, List.length_cons, Nat.succ_mul,
      frameSteps]
    omega
  | inPush hpc hcall hpush hmore =>
    left
    rw [hpc] at hproducer ⊢
    exact Nat.add_lt_add_left (hpush.rank_lt hproducer) _
  | pushReturns hpc hcall hpush hret =>
    left
    rw [hpc] at hproducer ⊢
    have hlt := hpush.rank_lt hproducer
    split <;> simp only [WorkerPc.rank] <;> omega
  | addOffered hpc =>
    left
    rw [hpc]
    simp only [WorkerPc.rank]
    omega
  | consumer hcons =>
    right
    have hprod := hcons.frame.1
    refine ⟨by rw [hprod], ?_⟩
    rintro (hmove | hmove)
    · exact hmove rfl
    · exact hmove hprod

/-- Until the worker is out of `run`, it can move. -/
lemma exists_moved (hch : cfg.HasChannel) (h : Reachable cfg capacity s) (hj : s.Joining)
    (hexit : s.worker ≠ .exited) : ∃ s', Step s s' ∧ s.Moved s' ∧ s'.Joining := by
  have hi := h.inv
  have hproducer := hi.producer
  cases hpc : s.worker with
  | none => exact absurd hpc (worker_ne_none_of_join h hj)
  | exited => exact absurd hpc hexit
  | loadRunning =>
    exact ⟨_, .exit hpc (h.bounded.stopped hj), Or.inl (by rw [hpc]; simp), hj⟩
  | readFrames =>
    obtain ⟨fs, dev, hread⟩ := h.readFrames_some hch 0 0
    exact ⟨_, .readFrames hpc hread, Or.inl (by rw [hpc]; simp), hj⟩
  | nextFrame rest =>
    cases rest with
    | nil => exact ⟨_, .endBatch hpc, Or.inl (by rw [hpc]; simp), hj⟩
    | cons f rest => exact ⟨_, .callPush hpc, Or.inl (by rw [hpc]; simp), hj⟩
  | inPush rest =>
    rw [hpc] at hproducer
    have hpipe := hi.pipe.inv hi.bounds.2
    have hread : s.pipe.seenHead ≤ s.pipe.head.last := hpipe.head.last_eq ▸ hpipe.seenHead
    obtain ⟨pipe, hstep⟩ := Pipeline.exists_producerStep hproducer hi.pipe.copied_le hread
    have hcall : s.pipe.prod ≠ .idle := fun hidle =>
      hproducer (congrArg ProducerPc.pending hidle)
    have hmoved : pipe.prod ≠ s.pipe.prod := fun heq =>
      (hstep.rank_lt hproducer).ne (congrArg ProducerPc.rank heq)
    by_cases hret : pipe.prod = .idle
    · exact ⟨_, .pushReturns hpc hcall hstep hret, Or.inr hmoved, hj⟩
    · exact ⟨_, .inPush hpc hcall hstep hret, Or.inr hmoved, hj⟩
  | addPushed rest => exact ⟨_, .addPushed hpc, Or.inl (by rw [hpc]; simp), hj⟩
  | addOffered rest => exact ⟨_, .addOffered hpc, Or.inl (by rw [hpc]; simp), hj⟩
  | addCycles => exact ⟨_, .addCycles hpc, Or.inl (by rw [hpc]; simp), hj⟩

/-- **`stop` returns.** However long `stop` has been waiting, with whatever the consumer did
meanwhile, the worker has taken at most `stopSteps` steps; it can take another one, or it is out of
`run` and the join is over. -/
theorem stop_returns (hch : cfg.HasChannel) (h : Reachable cfg capacity s) (hj : s.Joining)
    {n : ℕ} (hwait : Wait Step Moved Joining s n s') :
    n ≤ stopSteps ∧
      ((∃ u, Step s' u ∧ s'.Moved u ∧ u.Joining) ∨
        Step s' { s' with control := .idle, worker := .none }) := by
  have h' : Reachable cfg capacity s' := hwait.invariant h fun _ _ => .step
  have hj' : s'.Joining := hwait.isHeld hj
  have hrank := hwait.add_rank_le (I := Reachable cfg capacity) h hj (fun _ _ => .step)
    fun _ _ => rank_step
  refine ⟨?_, ?_⟩
  · exact (Nat.le_add_right n _).trans (hrank.trans (WorkerPc.rank_le h.bounded.batch _))
  · by_cases hexit : s'.worker = .exited
    · exact Or.inr (.join hj' hexit)
    · exact Or.inl (exists_moved hch h' hj' hexit)

/-- `stop` is called while the worker is about to poll, and the worker goes on by one step. -/
theorem stop_returns_oneStep : ∃ s s' : CaptureService, Reachable oneFramePerSecond 1 s ∧
    s.Joining ∧ Wait Step Moved Joining s 1 s' ∧ 1 ≤ stopSteps ∧
      ((∃ u, Step s' u ∧ s'.Moved u ∧ u.Joining) ∨
        Step s' { s' with control := .idle, worker := .none }) := by
  have hch : oneFramePerSecond.HasChannel := Or.inr ⟨0, by decide, by decide⟩
  have h₀ : Reachable oneFramePerSecond 1 _ := .closed fun _ _ => 0
  have h₁ := h₀.step (.start rfl rfl)
  have h₂ := h₁.step (.openDevice 0 rfl rfl)
  have h₃ := h₂.step (.storeRunning rfl)
  have h₄ := h₃.step (.spawn rfl)
  have h₅ := h₄.step (.goOn rfl rfl)
  have h₆ := h₅.step (.stop rfl rfl)
  obtain ⟨u, hstep, hmoved, hjoin⟩ := exists_moved hch h₆ rfl (by simp)
  have hwait := Wait.refl.own hstep hmoved hjoin
  exact ⟨_, u, h₆, rfl, hwait, stop_returns hch h₆ rfl hwait⟩

end CaptureService

end BusTestPlatform

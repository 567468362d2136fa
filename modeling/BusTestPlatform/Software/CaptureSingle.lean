import BusTestPlatform.Software.CaptureService
import BusTestPlatform.Software.CaptureControl

/-!
# One controller

`CaptureService` has one controller and one worker at a time, and its `stop` goes to the join
without looking at `worker_`. Its runs are runs of `CaptureControl` with a single controller: the
frames and the counters forgotten, a cycle of the worker is one step.
-/

namespace BusTestPlatform

open Guarded

/-- Where the worker is in its loop. -/
def WorkerPc.loop : WorkerPc → WorkerLoop
  | .loadRunning => .loadRunning
  | .none | .exited => .exited
  | _ => .cycle

/-- There is a thread to join. -/
def WorkerPc.joinable : WorkerPc → Bool
  | .none => false
  | _ => true

/-- Where the controller is in its call. -/
def ControlPc.call : ControlPc → CallPc
  | .idle => .idle
  | .checkOpen => .checkOpen
  | .storeRunning => .storeRunning
  | .spawn => .spawn
  | .join => .join

namespace CaptureService

/-- `a` is what shows of `s` in `running_`, `worker_`, the device and the calls. -/
structure Shows (s : CaptureService) (a : CaptureControl Unit) : Prop where
  fault : a.fault = none
  running : a.running = s.running
  isOpen : a.isOpen = s.dev.isOpen
  pc : a.pc () = s.control.call
  unjoinable : s.worker.joinable = false → a.worker = none
  joinable : s.worker.joinable → ∃ t, a.worker = some t ∧ t < a.created ∧ a.loop t = s.worker.loop

/-- A run of one controller. -/
def Controlled (isOpen : Bool) (a : CaptureControl Unit) : Prop :=
  Reach CaptureControl.step (fun _ _ => True) (CaptureControl.init isOpen) a

variable {s s' : CaptureService} {a : CaptureControl Unit} {isOpen : Bool}

/-- A step of the worker inside its cycle does not show. -/
lemma Shows.stutter (h : Shows s a) (hrunning : s'.running = s.running)
    (hopen : s'.dev.isOpen = s.dev.isOpen) (hcontrol : s'.control = s.control)
    (hnone : s'.worker.joinable) (hloop : s'.worker.loop = s.worker.loop)
    (hworker : s.worker.joinable) : Shows s' a where
  fault := h.fault
  running := h.running.trans hrunning.symm
  isOpen := h.isOpen.trans hopen.symm
  pc := h.pc.trans (congrArg ControlPc.call hcontrol.symm)
  unjoinable hn := absurd hnone (by simp [hn])
  joinable _ := by
    rw [hloop]
    exact h.joinable hworker

/-- A step of the worker between its load of `running_` and its cycle is one of its thread. -/
lemma Shows.work (h : Shows s a) (hrun : Controlled isOpen a) (hrunning : s'.running = s.running)
    (hopen : s'.dev.isOpen = s.dev.isOpen) (hcontrol : s'.control = s.control)
    (hnone : s'.worker.joinable) (hworker : s.worker.joinable)
    (hstep : ∀ t, t < a.created → a.loop t = s.worker.loop →
      a.work t = some { a with loop := Function.update a.loop t s'.worker.loop }) :
    ∃ a', Controlled isOpen a' ∧ Shows s' a' := by
  obtain ⟨t, ht, hlt, hloop⟩ := h.joinable hworker
  have hwork := (CaptureControl.step_work h.fault t).trans (hstep t hlt hloop)
  refine ⟨_, hrun.step trivial hwork, ?_⟩
  exact
    { fault := h.fault
      running := h.running.trans hrunning.symm
      isOpen := h.isOpen.trans hopen.symm
      pc := h.pc.trans (congrArg ControlPc.call hcontrol.symm)
      unjoinable := fun hn => absurd hnone (by simp [hn])
      joinable := fun _ => ⟨t, ht, hlt, Function.update_self ..⟩ }

/-- A step of the controller alone: its place, `running_` and the device change. -/
lemma Shows.controller {a' : CaptureControl Unit} (h : Shows s a) (hworker : s'.worker = s.worker)
    (hfault : a'.fault = none) (hrunning : a'.running = s'.running)
    (hopen : a'.isOpen = s'.dev.isOpen) (hpc : a'.pc () = s'.control.call)
    (hhandle : a'.worker = a.worker) (hcreated : a'.created = a.created)
    (hloop : a'.loop = a.loop) : Shows s' a' where
  fault := hfault
  running := hrunning
  isOpen := hopen
  pc := hpc
  unjoinable hn := by
    rw [hhandle]
    exact h.unjoinable (hworker ▸ hn)
  joinable hn := by
    rw [hworker] at hn ⊢
    rw [hhandle, hcreated, hloop]
    exact h.joinable hn

lemma Shows.call_eq {p : ControlPc} (h : Shows s a) (hpc : s.control = p) : a.pc () = p.call :=
  h.pc.trans (congrArg ControlPc.call hpc)

/-- The creation and the assignment, which are one step of the service. -/
lemma Shows.spawn (h : Shows s a) (hrun : Controlled isOpen a) (hpc : s.control = .spawn) :
    ∃ a', Controlled isOpen a' ∧ Shows { s with control := .idle, worker := .loadRunning } a' := by
  have hat : a.pc () = .spawn := h.call_eq hpc
  let b : CaptureControl Unit :=
    { a.goto () (.assign a.created a.live.card) with
      created := a.created + 1
      loop := Function.update a.loop a.created .loadRunning }
  have hcreate : a.step (.next () false) = some b := by
    rw [CaptureControl.step_next h.fault, CaptureControl.next, hat]
  have hrunb : Controlled isOpen b := hrun.step trivial hcreate
  have hatb : b.pc () = .assign a.created a.live.card := rfl
  have hnone : b.worker = none :=
    ((CaptureControl.inv_of_reach_subsingleton hrunb).phase.assign hatb).1
  have hassign := (CaptureControl.step_next (c := ()) (s := b) h.fault false).trans
    (CaptureControl.next_assign hatb hnone false)
  refine ⟨_, hrunb.step trivial hassign, ?_⟩
  exact
    { fault := h.fault
      running := h.running
      isOpen := h.isOpen
      pc := rfl
      unjoinable := fun hn => absurd hn (by simp [WorkerPc.joinable])
      joinable := fun _ => ⟨a.created, rfl, Nat.lt_succ_self _, Function.update_self ..⟩ }

/-- The exchange and the look at `worker_`, which is always joinable there. -/
lemma Shows.stop (h : Shows s a) (hrun : Controlled isOpen a) (hpc : s.control = .idle)
    (hr : s.running = true) :
    ∃ a', Controlled isOpen a' ∧ Shows { s with control := .join, running := false } a' := by
  let b : CaptureControl Unit := { a.goto () .checkJoinable with running := false }
  have hexchange : a.step (.stop ()) = some b := by
    rw [CaptureControl.step_stop h.fault (h.call_eq hpc),
      CaptureControl.stop_eq_of_running (h.running.trans hr)]
  have hrunb : Controlled isOpen b := hrun.step trivial hexchange
  have hatb : b.pc () = .checkJoinable := rfl
  obtain ⟨t, ht, -⟩ := (CaptureControl.inv_of_reach_subsingleton hrunb).phase.join
    (by rw [hatb]; rfl)
  have hlook := (CaptureControl.step_next (c := ()) (s := b) h.fault false).trans
    (CaptureControl.next_checkJoinable hatb ht false)
  exact ⟨_, hrunb.step trivial hlook, h.controller rfl h.fault rfl h.isOpen rfl rfl rfl rfl⟩

/-- What the service does can be done by a single controller and the threads it creates. -/
lemma Shows.step (h : Shows s a) (hrun : Controlled isOpen a) (hstep : Step s s') :
    ∃ a', Controlled isOpen a' ∧ Shows s' a' := by
  cases hstep with
  | startRunning hpc hr =>
    have hstart : a.step (.start ()) = some (a.startReturns () .startFalse) := by
      rw [CaptureControl.step_start h.fault (h.call_eq hpc),
        CaptureControl.start_eq_of_running (h.running.trans hr)]
    have hidle : s.control.call = .idle := congrArg ControlPc.call hpc
    exact ⟨_, hrun.step trivial hstart,
      h.controller rfl h.fault h.running h.isOpen hidle.symm rfl rfl rfl⟩
  | start hpc hr =>
    have hstart : a.step (.start ()) = some (a.goto () .checkOpen) := by
      rw [CaptureControl.step_start h.fault (h.call_eq hpc),
        CaptureControl.start_eq_of_stopped (h.running.trans hr)]
    exact ⟨_, hrun.step trivial hstart,
      h.controller rfl h.fault h.running h.isOpen rfl rfl rfl rfl⟩
  | isOpen hpc hopen =>
    have hat : a.pc () = .checkOpen := h.call_eq hpc
    have hnext : a.step (.next () false) = some (a.goto () .storeRunning) := by
      rw [CaptureControl.step_next h.fault, CaptureControl.next, hat]
      simp only [h.isOpen, hopen, if_true]
    exact ⟨_, hrun.step trivial hnext,
      h.controller rfl h.fault h.running h.isOpen rfl rfl rfl rfl⟩
  | openDevice nowNs hpc hopen =>
    have hat : a.pc () = .checkOpen := h.call_eq hpc
    have hnext : a.step (.next () false) = some (a.goto () .openDevice) := by
      rw [CaptureControl.step_next h.fault, CaptureControl.next, hat]
      simp [h.isOpen, hopen]
    have hopened := CaptureControl.step_next (c := ()) (s := a.goto () .openDevice) h.fault true
    exact ⟨_, (hrun.step trivial hnext).step trivial hopened,
      h.controller rfl h.fault h.running rfl rfl rfl rfl rfl⟩
  | storeRunning hpc =>
    have hat : a.pc () = .storeRunning := h.call_eq hpc
    have hnext : a.step (.next () false) = some { a.goto () .spawn with running := true } := by
      rw [CaptureControl.step_next h.fault, CaptureControl.next, hat]
    exact ⟨_, hrun.step trivial hnext, h.controller rfl h.fault rfl h.isOpen rfl rfl rfl rfl⟩
  | spawn hpc => exact h.spawn hrun hpc
  | stopStopped hpc hr =>
    have hstop : a.step (.stop ()) = some (a.stopReturns ()) := by
      rw [CaptureControl.step_stop h.fault (h.call_eq hpc),
        CaptureControl.stop_eq_of_stopped (h.running.trans hr)]
    have hidle : s.control.call = .idle := congrArg ControlPc.call hpc
    exact ⟨_, hrun.step trivial hstop,
      h.controller rfl h.fault h.running h.isOpen hidle.symm rfl rfl rfl⟩
  | stop hpc hr => exact h.stop hrun hpc hr
  | join hpc hexit =>
    have hat : a.pc () = .join := h.call_eq hpc
    obtain ⟨t, ht, -, hloop⟩ := h.joinable (by rw [hexit]; rfl)
    rw [hexit] at hloop
    have hjoin := (CaptureControl.step_next h.fault false).trans
      (CaptureControl.next_join hat ht hloop false)
    refine ⟨_, hrun.step trivial hjoin, ?_⟩
    exact
      { fault := h.fault
        running := h.running
        isOpen := h.isOpen
        pc := rfl
        unjoinable := fun _ => rfl
        joinable := fun hn => absurd hn (by simp [WorkerPc.joinable]) }
  | goOn hpc hr | exit hpc hr =>
    refine h.work hrun rfl rfl rfl rfl (by rw [hpc]; rfl) fun t hlt hloop => ?_
    rw [hpc] at hloop
    simp [CaptureControl.work, Nat.not_le.mpr hlt, hloop, WorkerPc.loop, h.running, hr]
  | addCycles hpc =>
    refine h.work hrun rfl rfl rfl rfl (by rw [hpc]; rfl) fun t hlt hloop => ?_
    rw [hpc] at hloop
    simp [CaptureControl.work, Nat.not_le.mpr hlt, hloop, WorkerPc.loop]
  | readFrames hpc hread =>
    exact ⟨a, hrun, h.stutter rfl (SimUsbDevice.readFrames_spec hread).2.2.1 rfl rfl
      (by rw [hpc]; rfl) (by rw [hpc]; rfl)⟩
  | callPush hpc | addPushed hpc | addOffered hpc | endBatch hpc =>
    exact ⟨a, hrun, h.stutter rfl rfl rfl rfl (by rw [hpc]; rfl) (by rw [hpc]; rfl)⟩
  | inPush hpc hcall hstep hmore =>
    exact ⟨a, hrun, h.stutter rfl rfl rfl (by rw [hpc]; rfl) rfl (by rw [hpc]; rfl)⟩
  | @pushReturns rest pipe hpc hcall hstep hret =>
    have hnone : (if pipe.lastPush then WorkerPc.addPushed rest
        else .addOffered rest).joinable := by
      split <;> rfl
    have hloop : (if pipe.lastPush then WorkerPc.addPushed rest else .addOffered rest).loop =
        .cycle := by
      split <;> rfl
    exact ⟨a, hrun, h.stutter rfl rfl rfl hnone (hloop.trans (by rw [hpc]; rfl))
      (by rw [hpc]; rfl)⟩
  | consumer hstep =>
    exact ⟨a, hrun, h.controller rfl h.fault h.running h.isOpen h.pc rfl rfl rfl⟩

lemma shows_init (dev : SimUsbDevice) (pipe : Pipeline 64 Abi.x8664.sizeofFrame UInt8) :
    Shows (CaptureService.init dev pipe) (CaptureControl.init dev.isOpen) where
  fault := rfl
  running := rfl
  isOpen := rfl
  pc := rfl
  unjoinable _ := rfl
  joinable hn := absurd hn (by simp [CaptureService.init, WorkerPc.joinable])

section
variable {cfg : SimConfig} {capacity : BitVec 64}

/-- Every run of the service is one of `CaptureControl` with a single controller. -/
theorem exists_controlled (h : Reachable cfg capacity s) :
    ∃ isOpen a, Controlled isOpen a ∧ Shows s a := by
  induction h with
  | closed buf => exact ⟨_, _, .refl, shows_init _ _⟩
  | opened buf nowNs => exact ⟨_, _, .refl, shows_init _ _⟩
  | step _ hstep ih =>
    obtain ⟨isOpen, a, hrun, hshows⟩ := ih
    obtain ⟨a', hrun', hshows'⟩ := hshows.step hrun hstep
    exact ⟨isOpen, a', hrun', hshows'⟩

/-- The look at `worker_` that `stop` takes would always have found it joinable. -/
theorem worker_ne_none_of_join (h : Reachable cfg capacity s) (hpc : s.control = .join) :
    s.worker ≠ .none := by
  obtain ⟨isOpen, a, hrun, hshows⟩ := exists_controlled h
  have hat : (a.pc ()).stopping := by
    rw [hshows.pc, hpc]
    rfl
  obtain ⟨t, ht, -⟩ := (CaptureControl.inv_of_reach_subsingleton hrun).phase.join hat
  intro hnone
  rw [hshows.unjoinable (by rw [hnone]; rfl)] at ht
  cases ht

end

end CaptureService

end BusTestPlatform

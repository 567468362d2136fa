import BusTestPlatform.Software.CaptureService
import BusTestPlatform.Software.SimHistory

/-!
# Nothing is lost on the capture path

The counters of the device, the service and the pipeline are updated at different points of the
worker's loop. The invariant says by how much each is behind; where the worker has been joined,
none is.
-/

namespace BusTestPlatform

/-- What the worker has not yet handed to the pipeline. -/
def WorkerPc.rest : WorkerPc → List BusFrame
  | .nextFrame rest => rest
  | .inPush rest => rest
  | .addPushed rest => rest
  | .addOffered rest => rest
  | _ => []

/-- 1 between the return of a push and its count in `offered_`. -/
def WorkerPc.uncounted : WorkerPc → ℕ
  | .addPushed _ => 1
  | .addOffered _ => 1
  | _ => 0

/-- 1 between the return of a successful push and its count in `pushed_`. -/
def WorkerPc.unpushed : WorkerPc → ℕ
  | .addPushed _ => 1
  | _ => 0

/-- The worker is in `push` exactly while the producer side of the pipeline is. -/
def WorkerPc.Matches : WorkerPc → ProducerPc 64 Abi.x8664.sizeofFrame UInt8 → Prop
  | .inPush _, prod => prod.pending ≠ []
  | _, prod => prod = .idle

/-- When there is a worker: from `spawn` on, until it is joined. -/
def ControlPc.Ok (running : Bool) (worker : WorkerPc) : ControlPc → Prop
  | .idle => running = false → worker = .none
  | .checkOpen => running = false ∧ worker = .none
  | .storeRunning => worker = .none
  | .spawn => running = true ∧ worker = .none
  | .join => True

/-- A live worker moves freely: no other call than `stop` is then in progress. -/
lemma ControlPc.Ok.move {pc : ControlPc} {running : Bool} {worker worker' : WorkerPc}
    (h : pc.Ok running worker) (hw : worker ≠ .none) : pc.Ok running worker' := by
  cases pc with
  | idle => exact fun hrun => absurd (h hrun) hw
  | checkOpen => exact absurd h.2 hw
  | storeRunning => exact absurd h hw
  | spawn => exact absurd h.2 hw
  | join => trivial

namespace CaptureService

/-- The invariant of the service. -/
structure Inv (capacity : BitVec 64) (s : CaptureService) : Prop where
  pipe : s.pipe.Reachable capacity
  produced : s.produced.map BusFrame.cells = s.pipe.calls ++ s.worker.rest.map BusFrame.cells
  generated : s.dev.generated.toNat = s.produced.length
  closed : s.dev.isOpen = false → s.produced = []
  offered : s.offered.toNat + s.worker.uncounted = s.pipe.done.length
  pushed : s.pushed.toNat + s.worker.unpushed = s.pipe.accepted.length
  producer : s.worker.Matches s.pipe.prod
  control : s.control.Ok s.running s.worker

variable {capacity : BitVec 64} {s s' : CaptureService}

/-- The 64-bit counters do not wrap, since `generated_` does not. -/
lemma Inv.bounds (hi : Inv capacity s) :
    s.pipe.done.length < 2 ^ 64 ∧ s.pipe.accepted.length < 2 ^ 64 := by
  have hcalls := congrArg List.length hi.pipe.counted.calls
  have hprod := congrArg List.length hi.produced
  have hlt := s.dev.generated.toNat_lt
  have hacc := s.pipe.accepted_add_drops
  rw [List.length_append, List.length_map] at hcalls
  rw [List.length_append, List.length_map, ← hi.generated] at hprod
  omega

lemma toNat_add_one {x : UInt64} (h : x.toNat + 1 < 2 ^ 64) : (x + 1).toNat = x.toNat + 1 := by
  rw [UInt64.toNat_add]
  exact Nat.mod_eq_of_lt h

lemma inv_init (dev : SimUsbDevice) (hdev : dev.generated = 0)
    (buf : ℕ → Cells Abi.x8664.sizeofFrame UInt8) :
    Inv capacity (init dev (Pipeline.init capacity buf)) where
  pipe := Pipeline.Reachable.init buf
  produced := rfl
  generated := congrArg UInt64.toNat hdev
  closed _ := rfl
  offered := rfl
  pushed := rfl
  producer := rfl
  control _ := rfl

/-- Inside `push` the pipeline moves on and the worker waits. -/
lemma inv_inPush {rest : List BusFrame} {pipe : Pipeline 64 Abi.x8664.sizeofFrame UInt8}
    (hi : Inv capacity s) (hpc : s.worker = .inPush rest)
    (hstep : Pipeline.ProducerStep s.pipe pipe) (hmore : pipe.prod ≠ .idle) :
    Inv capacity { s with pipe := pipe } := by
  have hp := hi.producer
  rw [hpc] at hp
  obtain ⟨hcalls, ⟨hpending, hdone⟩ | ⟨hret, -⟩⟩ := hstep.of_pending hp
  · refine { hi with pipe := hi.pipe.producer hstep, produced := ?_, offered := ?_, pushed := ?_,
                     producer := ?_ }
    · exact hi.produced.trans (congrArg (· ++ _) hcalls.symm)
    · exact hi.offered.trans (congrArg List.length hdone.symm)
    · exact hi.pushed.trans (congrArg List.length (Pipeline.accepted_congr hdone).symm)
    · rw [hpc]
      exact hpending
  · exact absurd hret hmore

/-- When `push` returns, the result says which counters are behind. -/
lemma inv_pushReturns {rest : List BusFrame} {pipe : Pipeline 64 Abi.x8664.sizeofFrame UInt8}
    (hi : Inv capacity s) (hpc : s.worker = .inPush rest)
    (hstep : Pipeline.ProducerStep s.pipe pipe) (hret : pipe.prod = .idle) :
    Inv capacity { s with pipe := pipe, worker := if pipe.lastPush then .addPushed rest
                                                  else .addOffered rest } := by
  have hp := hi.producer
  have hproduced := hi.produced
  have hoffered := hi.offered
  have hpushed := hi.pushed
  rw [hpc] at hp hproduced hoffered hpushed
  obtain ⟨hcalls, ⟨hpending, -⟩ | ⟨-, frame, r, hdone⟩⟩ := hstep.of_pending hp
  · exact absurd (congrArg ProducerPc.pending hret) hpending
  · have hdonelen : pipe.done.length = s.pipe.done.length + 1 := by
      rw [hdone, List.length_append, List.length_singleton]
    have hcontrol : ∀ worker, s.control.Ok s.running worker := fun worker =>
      hi.control.move (by rw [hpc]; simp)
    rw [Pipeline.lastPush_of_done hdone]
    cases r with
    | none =>
      have hacc := Pipeline.accepted_of_drop hdone
      refine { hi with pipe := hi.pipe.producer hstep, produced := ?_, offered := ?_, pushed := ?_,
                       producer := hret, control := hcontrol _ }
      · exact hproduced.trans (congrArg (· ++ _) hcalls.symm)
      · exact (congrArg (· + 1) hoffered).trans hdonelen.symm
      · exact hpushed.trans (congrArg List.length hacc.symm)
    | some i =>
      have hacc : pipe.accepted.length = s.pipe.accepted.length + 1 := by
        rw [Pipeline.accepted_of_accept hdone, List.length_append, List.length_singleton]
      refine { hi with pipe := hi.pipe.producer hstep, produced := ?_, offered := ?_, pushed := ?_,
                       producer := hret, control := hcontrol _ }
      · exact hproduced.trans (congrArg (· ++ _) hcalls.symm)
      · exact (congrArg (· + 1) hoffered).trans hdonelen.symm
      · exact (congrArg (· + 1) hpushed).trans hacc.symm

theorem inv_step (hi : Inv capacity s) (h : Step s s') : Inv capacity s' := by
  have hproduced := hi.produced
  have hoffered := hi.offered
  have hpushed := hi.pushed
  have hproducer := hi.producer
  have hcontrol := hi.control
  cases h with
  | startRunning hpc hrun => exact hi
  | start hpc hrun =>
    rw [hpc] at hcontrol
    exact { hi with control := ⟨hrun, hcontrol hrun⟩ }
  | isOpen hpc hopen =>
    rw [hpc] at hcontrol
    exact { hi with control := hcontrol.2 }
  | openDevice nowNs hpc hopen =>
    rw [hpc] at hcontrol
    have hnil := hi.closed hopen
    exact { hi with generated := (congrArg List.length hnil).symm, closed := fun _ => hnil,
                    control := hcontrol.2 }
  | storeRunning hpc =>
    rw [hpc] at hcontrol
    exact { hi with control := ⟨rfl, hcontrol⟩ }
  | spawn hpc =>
    rw [hpc] at hcontrol
    rw [hcontrol.2] at hproduced hoffered hpushed hproducer
    exact { hi with produced := hproduced, offered := hoffered, pushed := hpushed,
                    producer := hproducer,
                    control := fun hrun => absurd (hcontrol.1.symm.trans hrun) (by decide) }
  | stopStopped hpc hrun => exact hi
  | stop hpc hrun => exact { hi with control := trivial }
  | join hpc hexit =>
    rw [hexit] at hproduced hoffered hpushed hproducer
    exact { hi with produced := hproduced, offered := hoffered, pushed := hpushed,
                    producer := hproducer, control := fun _ => rfl }
  | goOn hpc hrun =>
    rw [hpc] at hproduced hoffered hpushed hproducer hcontrol
    exact { hi with produced := hproduced, offered := hoffered, pushed := hpushed,
                    producer := hproducer, control := hcontrol.move (by simp) }
  | exit hpc hrun =>
    rw [hpc] at hproduced hoffered hpushed hproducer hcontrol
    exact { hi with produced := hproduced, offered := hoffered, pushed := hpushed,
                    producer := hproducer, control := hcontrol.move (by simp) }
  | @readFrames _ _ fs dev hpc hread =>
    rw [hpc] at hproduced hoffered hpushed hproducer hcontrol
    obtain ⟨-, hgen, hopen, -, hclosed⟩ := SimUsbDevice.readFrames_spec hread
    refine { hi with produced := ?_, generated := ?_, closed := ?_, offered := hoffered,
                     pushed := hpushed, producer := hproducer,
                     control := hcontrol.move (by simp) }
    · rw [List.map_append, hproduced]
      exact congrArg (· ++ _) (List.append_nil _)
    · rw [hgen, hi.generated, List.length_append]
    · intro hc
      rw [hopen] at hc
      rw [hi.closed hc, hclosed hc]
      rfl
  | @callPush f rest hpc =>
    rw [hpc] at hproduced hoffered hpushed hproducer hcontrol
    refine { hi with pipe := hi.pipe.producer (.push f.cells hproducer), produced := ?_,
                     offered := hoffered, pushed := hpushed,
                     producer := List.cons_ne_nil _ _, control := hcontrol.move (by simp) }
    exact hproduced.trans (List.append_cons ..)
  | inPush hpc hcall hstep hmore => exact inv_inPush hi hpc hstep hmore
  | pushReturns hpc hcall hstep hret => exact inv_pushReturns hi hpc hstep hret
  | addPushed hpc =>
    rw [hpc] at hproduced hoffered hpushed hproducer hcontrol
    have hlt : s.pushed.toNat + 1 < 2 ^ 64 := hpushed.trans_lt hi.bounds.2
    exact { hi with produced := hproduced, offered := hoffered,
                    pushed := (toNat_add_one hlt).trans hpushed, producer := hproducer,
                    control := hcontrol.move (by simp) }
  | addOffered hpc =>
    rw [hpc] at hproduced hoffered hpushed hproducer hcontrol
    have hlt : s.offered.toNat + 1 < 2 ^ 64 := hoffered.trans_lt hi.bounds.1
    exact { hi with produced := hproduced, offered := (toNat_add_one hlt).trans hoffered,
                    pushed := hpushed, producer := hproducer,
                    control := hcontrol.move (by simp) }
  | endBatch hpc =>
    rw [hpc] at hproduced hoffered hpushed hproducer hcontrol
    exact { hi with produced := hproduced, offered := hoffered, pushed := hpushed,
                    producer := hproducer, control := hcontrol.move (by simp) }
  | addCycles hpc =>
    rw [hpc] at hproduced hoffered hpushed hproducer hcontrol
    exact { hi with produced := hproduced, offered := hoffered, pushed := hpushed,
                    producer := hproducer, control := hcontrol.move (by simp) }
  | consumer hstep =>
    obtain ⟨hprod, hcalls, hdone⟩ := hstep.frame
    refine { hi with pipe := hi.pipe.consumer hstep, produced := ?_, offered := ?_, pushed := ?_,
                     producer := ?_ }
    · exact hproduced.trans (congrArg (· ++ _) hcalls.symm)
    · exact hoffered.trans (congrArg List.length hdone.symm)
    · exact hpushed.trans (congrArg List.length hstep.accepted_eq.symm)
    · rw [hprod]
      exact hproducer

/-- The invariant holds whatever the interleaving, however often the service is restarted. -/
theorem Reachable.inv {cfg : SimConfig} (h : Reachable cfg capacity s) : Inv capacity s := by
  induction h with
  | closed buf => exact inv_init _ rfl buf
  | opened buf nowNs => exact inv_init _ rfl buf
  | step _ hstep ih => exact inv_step ih hstep

/-- **No silent loss.** Whenever the service is stopped, every generated frame is offered, every
offered frame is pushed or counted as dropped, every pushed frame is popped or queued, and what was
popped, followed by what is queued, is part of what was generated, in order. -/
theorem no_silent_loss {cfg : SimConfig} (h : Reachable cfg capacity s) (hs : s.Stopped) :
    s.dev.generated = s.offered ∧
    s.offered.toNat = s.pushed.toNat + s.pipe.dropped.toNat ∧
    s.pushed.toNat = s.pipe.popped.length + s.pipe.size.toNat ∧
    ∃ fs : List BusFrame, fs.Sublist s.produced ∧
      s.pipe.popped ++ s.pipe.queued = fs.map BusFrame.cells := by
  have hi := h.inv
  have hcontrol := hi.control
  rw [hs.1] at hcontrol
  have hworker := hcontrol hs.2
  have hproduced := hi.produced
  have hoffered := hi.offered
  have hpushed := hi.pushed
  have hproducer := hi.producer
  rw [hworker] at hproduced hoffered hpushed hproducer
  obtain ⟨hdone, hacc⟩ := hi.bounds
  have hpipe := hi.pipe.inv hacc
  obtain ⟨hcalls, hdropped⟩ := hi.pipe.counted
  rw [show s.pipe.prod = .idle from hproducer] at hcalls
  have hcalls : s.pipe.calls = s.pipe.done.map Prod.fst := hcalls.trans (List.append_nil _)
  have hproduced : s.produced.map BusFrame.cells = s.pipe.done.map Prod.fst :=
    hproduced.trans ((List.append_nil _).trans hcalls)
  have hsum := s.pipe.accepted_add_drops
  refine ⟨?_, ?_, ?_, ?_⟩
  · apply UInt64.toNat_inj.mp
    have hlen := congrArg List.length hproduced
    rw [List.length_map, List.length_map] at hlen
    exact hi.generated.trans (hlen.trans hoffered.symm)
  · have hdrops : s.pipe.dropped.toNat = s.pipe.drops := by
      rw [hdropped, BitVec.toNat_ofNat, Nat.mod_eq_of_lt (by omega)]
    rw [hdrops, show s.offered.toNat = _ from hoffered, show s.pushed.toNat = _ from hpushed]
    exact hsum.symm
  · rw [hpipe.size_eq hacc, show s.pushed.toNat = _ from hpushed]
    exact (Nat.add_sub_of_le (hpipe.seenTail.1.trans hpipe.seenTail.2)).symm
  · have hsub := s.pipe.accepted_sublist
    rw [← hproduced, List.sublist_map_iff] at hsub
    obtain ⟨fs, hfs, heq⟩ := hsub
    exact ⟨fs, hfs, (hpipe.popped_append_queued hacc).trans heq⟩

/-! ### The worker is never stuck -/

/-- The configuration of the device stays as the constructor made it. -/
lemma Step.cfg_eq (hch : s.dev.cfg.ChannelEnabled) (hstep : Step s s') :
    s'.dev.cfg = s.dev.cfg := by
  cases hstep with
  | @readFrames nowNs tsNs fs dev hpc hread =>
    obtain ⟨fs', dev', hread', hcfg⟩ :=
      SimUsbDevice.readFrames_some hch false batchFrames nowNs tsNs
    cases hread.symm.trans hread'
    exact hcfg
  | _ => rfl

/-- With a channel to send on, the device answers every poll, whatever the clock reads. -/
theorem Reachable.readFrames_some {cfg : SimConfig} (hch : cfg.HasChannel)
    (h : Reachable cfg capacity s) (nowNs tsNs : UInt64) :
    ∃ fs dev, s.dev.readFrames false batchFrames nowNs tsNs = some (fs, dev) := by
  have hdev : s.dev.cfg.ChannelEnabled := by
    induction h with
    | closed buf => exact SimUsbDevice.hasChannel_iff.mp hch
    | opened buf nowNs => exact SimUsbDevice.hasChannel_iff.mp hch
    | step _ hstep ih => exact hstep.cfg_eq ih ▸ ih
  obtain ⟨fs, dev, hread, -⟩ :=
    SimUsbDevice.readFrames_some hdev false batchFrames nowNs tsNs
  exact ⟨fs, dev, hread⟩

/-! ### A run -/

/-- A device with one enabled channel that sends one frame without payload every second. -/
def oneFramePerSecond : SimConfig where
  rateFramesPerSec := 1
  channelMask := 1
  busType := .can
  dlc := 0
  idBase := 0
  extended := false
  fd := false
  seed := 1

/-- A stop right after the one frame was read: it is pushed all the same. -/
theorem no_silent_loss_oneFrame : ∃ s, Reachable oneFramePerSecond 4 s ∧
    s.produced.length = 1 ∧ s.Stopped ∧ s.dev.generated = s.offered ∧
    s.offered.toNat = s.pushed.toNat + s.pipe.dropped.toNat := by
  have h₀ : Reachable oneFramePerSecond 4 _ := Reachable.opened (fun _ _ => 0) 0
  have h₁ := h₀.quiet (quiet_start rfl rfl rfl)
  have h₂ := h₁.step (.readFrames rfl
    (show SimUsbDevice.readFrames _ false batchFrames 1000000000 0 = _ from rfl))
  have h₃ := h₂.step (.stop rfl rfl)
  obtain ⟨buf, h₄⟩ := h₃.quietTo (quiet_push (p := 0) rfl ⟨le_rfl, le_rfl⟩ (by decide))
  have h₅ := h₄.step (.endBatch rfl)
  have h₆ := h₅.step (.addCycles rfl)
  have h₇ := h₆.step (.exit rfl rfl)
  have h₈ := h₇.step (.join rfl rfl)
  have hloss := no_silent_loss h₈ ⟨rfl, rfl⟩
  exact ⟨_, h₈, rfl, ⟨rfl, rfl⟩, hloss.1, hloss.2.1⟩

end CaptureService

end BusTestPlatform

import BusTestPlatform.Software.PipelineSpsc
import BusTestPlatform.Software.UsbDeviceSim

/-!
# `capture_service.cpp`

The worker thread that polls the simulated device and pushes into the pipeline, a controller thread
that calls `start` and `stop` one after the other, and the consumer of the pipeline. Each load,
store and counter update is a step; the push of a frame takes the steps of the pipeline.
-/

namespace BusTestPlatform

/-- `kBatchFrames`. -/
def batchFrames : ℕ := 256

/-- The cells of a `BusFrame` on the host: its bytes. -/
def BusFrame.cells (f : BusFrame) : Cells Abi.x8664.sizeofFrame UInt8 := fun i =>
  (f.image Abi.x8664).get ⟨i, (f.length_image Abi.x8664).symm ▸ i.isLt⟩

/-- A frame is determined by its cells. -/
lemma BusFrame.cells_injective : Function.Injective BusFrame.cells := by
  intro f g h
  have himage : f.image Abi.x8664 = g.image Abi.x8664 := by
    refine List.ext_get ?_ fun n hf hg => ?_
    · rw [f.length_image, g.length_image]
    · exact congrFun h ⟨n, f.length_image Abi.x8664 ▸ hf⟩
  exact BusFrame.image_injective himage

/-- Where the worker is. `rest` is what it has not yet handed to the pipeline of its batch. -/
inductive WorkerPc
  /-- No thread, or one that is joined. -/
  | none
  | loadRunning
  | readFrames
  | nextFrame (rest : List BusFrame)
  | inPush (rest : List BusFrame)
  | addPushed (rest : List BusFrame)
  | addOffered (rest : List BusFrame)
  | addCycles
  /-- `run` has returned. -/
  | exited

/-- Where the controller is, in `start` or in `stop`. -/
inductive ControlPc
  | idle
  | checkOpen
  | storeRunning
  | spawn
  | join

/-- `CaptureService` with its device and its pipeline. -/
structure CaptureService where
  dev : SimUsbDevice
  pipe : Pipeline 64 Abi.x8664.sizeofFrame UInt8
  running : Bool
  offered : UInt64
  pushed : UInt64
  pollCycles : UInt64
  worker : WorkerPc
  control : ControlPc
  /-- The frames the device has returned so far. -/
  produced : List BusFrame

namespace CaptureService

/-- A service on a device and a pipeline, before any call. -/
def init (dev : SimUsbDevice) (pipe : Pipeline 64 Abi.x8664.sizeofFrame UInt8) :
    CaptureService where
  dev := dev
  pipe := pipe
  running := false
  offered := 0
  pushed := 0
  pollCycles := 0
  worker := .none
  control := .idle
  produced := []

/-- A step of the service. -/
inductive Step : CaptureService → CaptureService → Prop
  /-- `start` returns `false`. -/
  | startRunning {s} (hpc : s.control = .idle) (hrun : s.running = true) : Step s s
  | start {s} (hpc : s.control = .idle) (hrun : s.running = false) :
      Step s { s with control := .checkOpen }
  | isOpen {s} (hpc : s.control = .checkOpen) (hopen : s.dev.isOpen = true) :
      Step s { s with control := .storeRunning }
  | openDevice {s} (nowNs : UInt64) (hpc : s.control = .checkOpen) (hopen : s.dev.isOpen = false) :
      Step s { s with control := .storeRunning, dev := s.dev.open nowNs }
  | storeRunning {s} (hpc : s.control = .storeRunning) :
      Step s { s with control := .spawn, running := true }
  | spawn {s} (hpc : s.control = .spawn) :
      Step s { s with control := .idle, worker := .loadRunning }
  /-- `stop` finds nothing to stop. -/
  | stopStopped {s} (hpc : s.control = .idle) (hrun : s.running = false) : Step s s
  | stop {s} (hpc : s.control = .idle) (hrun : s.running = true) :
      Step s { s with control := .join, running := false }
  | join {s} (hpc : s.control = .join) (hexit : s.worker = .exited) :
      Step s { s with control := .idle, worker := .none }
  | goOn {s} (hpc : s.worker = .loadRunning) (hrun : s.running = true) :
      Step s { s with worker := .readFrames }
  | exit {s} (hpc : s.worker = .loadRunning) (hrun : s.running = false) :
      Step s { s with worker := .exited }
  | readFrames {s} {nowNs tsNs : UInt64} {fs : List BusFrame} {dev : SimUsbDevice}
      (hpc : s.worker = .readFrames)
      (hread : s.dev.readFrames false batchFrames nowNs tsNs = some (fs, dev)) :
      Step s { s with worker := .nextFrame fs, dev := dev, produced := s.produced ++ fs }
  | callPush {s} {f : BusFrame} {rest : List BusFrame} (hpc : s.worker = .nextFrame (f :: rest)) :
      Step s { s with worker := .inPush rest, pipe := s.pipe.beginPush f.cells }
  | inPush {s} {rest : List BusFrame} {pipe : Pipeline 64 Abi.x8664.sizeofFrame UInt8}
      (hpc : s.worker = .inPush rest) (hcall : s.pipe.prod ≠ .idle)
      (hstep : Pipeline.ProducerStep s.pipe pipe) (hmore : pipe.prod ≠ .idle) :
      Step s { s with pipe := pipe }
  /-- `push` returns, and `pushed_` is next only if it returned `true`. -/
  | pushReturns {s} {rest : List BusFrame} {pipe : Pipeline 64 Abi.x8664.sizeofFrame UInt8}
      (hpc : s.worker = .inPush rest) (hcall : s.pipe.prod ≠ .idle)
      (hstep : Pipeline.ProducerStep s.pipe pipe) (hret : pipe.prod = .idle) :
      Step s { s with pipe := pipe,
                      worker := if pipe.lastPush then .addPushed rest else .addOffered rest }
  | addPushed {s} {rest : List BusFrame} (hpc : s.worker = .addPushed rest) :
      Step s { s with worker := .addOffered rest, pushed := s.pushed + 1 }
  | addOffered {s} {rest : List BusFrame} (hpc : s.worker = .addOffered rest) :
      Step s { s with worker := .nextFrame rest, offered := s.offered + 1 }
  | endBatch {s} (hpc : s.worker = .nextFrame []) : Step s { s with worker := .addCycles }
  /-- The yield after an empty batch changes nothing. -/
  | addCycles {s} (hpc : s.worker = .addCycles) :
      Step s { s with worker := .loadRunning, pollCycles := s.pollCycles + 1 }
  | consumer {s} {pipe : Pipeline 64 Abi.x8664.sizeofFrame UInt8}
      (hstep : Pipeline.ConsumerStep s.pipe pipe) : Step s { s with pipe := pipe }

/-- What can be reached by a service on a fresh pipeline and a fresh device, which may be opened
before. -/
inductive Reachable (cfg : SimConfig) (capacity : BitVec 64) : CaptureService → Prop
  | closed (buf : ℕ → Cells Abi.x8664.sizeofFrame UInt8) :
      Reachable cfg capacity (init (SimUsbDevice.new cfg) (Pipeline.init capacity buf))
  | opened (buf : ℕ → Cells Abi.x8664.sizeofFrame UInt8) (nowNs : UInt64) :
      Reachable cfg capacity
        (init ((SimUsbDevice.new cfg).open nowNs) (Pipeline.init capacity buf))
  | step {s s' : CaptureService} (h : Reachable cfg capacity s) (hstep : Step s s') :
      Reachable cfg capacity s'

/-- No call is in progress and the service is not running. -/
def Stopped (s : CaptureService) : Prop := s.control = .idle ∧ s.running = false

/-! ### Between two polls -/

/-- Steps one after the other that leave the device alone. -/
def Quiet : CaptureService → CaptureService → Prop :=
  Relation.ReflTransGen fun s s' => Step s s' ∧ s'.dev = s.dev

section Quiet

variable {cfg : SimConfig} {capacity : BitVec 64} {s s' s'' : CaptureService}
  {frame out : Cells Abi.x8664.sizeofFrame UInt8} {t : BitVec 64} {f : BusFrame}
  {rest : List BusFrame} {k n p : ℕ}

lemma Quiet.step (h : Quiet s s') (hstep : Step s' s'') (hdev : s''.dev = s'.dev) :
    Quiet s s'' :=
  h.tail ⟨hstep, hdev⟩

lemma Reachable.quiet (h : Reachable cfg capacity s) (hrun : Quiet s s') :
    Reachable cfg capacity s' := by
  induction hrun with
  | refl => exact h
  | tail _ hstep ih => exact ih.step hstep.1

lemma Reachable.quietTo {α : Type*} {next : α → CaptureService} (h : Reachable cfg capacity s)
    (hrun : ∃ x, Quiet s (next x)) : ∃ x, Reachable cfg capacity (next x) :=
  hrun.imp fun _ => h.quiet

/-- The copy of a frame into its slot, taken to its end. -/
lemma Quiet.copyIn (h : Quiet s s') (hpc : s'.worker = .inPush rest)
    (hprod : s'.pipe.prod = .copy frame t k) (hn : k + n = Abi.x8664.sizeofFrame) :
    ∃ buf, Quiet s { s' with
      pipe := { s'.pipe with prod := .copy frame t Abi.x8664.sizeofFrame, buf := buf } } := by
  induction n generalizing s' k with
  | zero =>
    obtain rfl : k = Abi.x8664.sizeofFrame := hn
    refine ⟨s'.pipe.buf, ?_⟩
    rw [← hprod]
    exact h
  | succ n ih =>
    have hk : k < Abi.x8664.sizeofFrame := hn ▸ Nat.lt_add_of_pos_right n.succ_pos
    have hstep := h.step (.inPush hpc (by rw [hprod]; simp) (.copy hprod hk) (by simp)) rfl
    obtain ⟨buf, hbuf⟩ := ih hstep hpc rfl (by omega)
    exact ⟨buf, hbuf⟩

/-- The copy of a frame out of its slot, taken to its end. -/
lemma Quiet.copyOut (h : Quiet s s') (hcons : s'.pipe.cons = .copy out t k)
    (hn : k + n = Abi.x8664.sizeofFrame) :
    ∃ out', Quiet s { s' with
      pipe := { s'.pipe with cons := .copy out' t Abi.x8664.sizeofFrame } } := by
  induction n generalizing s' out k with
  | zero =>
    obtain rfl : k = Abi.x8664.sizeofFrame := hn
    refine ⟨out, ?_⟩
    rw [← hcons]
    exact h
  | succ n ih =>
    have hk : k < Abi.x8664.sizeofFrame := hn ▸ Nat.lt_add_of_pos_right n.succ_pos
    have hstep := h.step (.consumer (.copy hcons hk)) rfl
    obtain ⟨out', hout⟩ := ih hstep rfl (by omega)
    exact ⟨out', hout⟩

/-- `push` returns `true`. -/
lemma step_accept (hpc : s.worker = .inPush rest)
    (hprod : s.pipe.prod = .copy frame t Abi.x8664.sizeofFrame) :
    Step s { s with
      worker := .addPushed rest
      pipe := { s.pipe with prod := .idle, tail := s.pipe.tail.store (t + 1),
                            done := s.pipe.done ++ [(frame, some (s.pipe.slot t))] } } := by
  have hret := Step.pushReturns hpc (by rw [hprod]; simp) (.publish hprod) rfl
  rwa [Pipeline.lastPush_of_done rfl] at hret

/-- `push` returns `false`. -/
lemma step_refuse (hpc : s.worker = .inPush rest) (hprod : s.pipe.prod = .drop frame) :
    Step s { s with
      worker := .addOffered rest
      pipe := { s.pipe with prod := .idle, dropped := s.pipe.dropped + 1,
                            done := s.pipe.done ++ [(frame, none)] } } := by
  have hret := Step.pushReturns hpc (by rw [hprod]; simp) (.drop hprod) rfl
  rwa [Pipeline.lastPush_of_done rfl] at hret

/-- `start` finds the device open, and the worker is at its first poll. -/
lemma quiet_start (hpc : s.control = .idle) (hrun : s.running = false)
    (hopen : s.dev.isOpen = true) :
    Quiet s { s with control := .idle, running := true, worker := .readFrames } := by
  have h₀ : Quiet s s := .refl
  have h₁ := h₀.step (.start hpc hrun) rfl
  have h₂ := h₁.step (.isOpen rfl hopen) rfl
  have h₃ := h₂.step (.storeRunning rfl) rfl
  have h₄ := h₃.step (.spawn rfl) rfl
  exact h₄.step (.goOn rfl rfl) rfl

/-- The next frame of the batch is pushed: the `head_` that `push` reads leaves room. -/
lemma quiet_push (hpc : s.worker = .nextFrame (f :: rest))
    (hp : s.pipe.head.Readable s.pipe.seenHead p)
    (hroom : ¬ s.pipe.capacity ≤ s.pipe.tail.current - s.pipe.head.val p) :
    ∃ buf, Quiet s { s with
      worker := .nextFrame rest, pushed := s.pushed + 1, offered := s.offered + 1,
      pipe := { s.pipe with
        prod := .idle, buf := buf, seenHead := p, calls := s.pipe.calls ++ [f.cells],
        tail := s.pipe.tail.store (s.pipe.tail.current + 1),
        done := s.pipe.done ++ [(f.cells, some (s.pipe.slot s.pipe.tail.current))] } } := by
  have h₀ : Quiet s s := .refl
  have h₁ := h₀.step (.callPush hpc) rfl
  have h₂ := h₁.step (.inPush rfl (by simp [Pipeline.beginPush]) (.loadHead rfl hp) (by simp)) rfl
  have h₃ := h₂.step (.inPush rfl (by simp) (.loadTail rfl) (by simp)) rfl
  have h₄ := h₃.step (.inPush rfl (by simp) (.room rfl hroom) (by simp)) rfl
  obtain ⟨buf, h₅⟩ := h₄.copyIn rfl rfl (Nat.zero_add _)
  have h₆ := h₅.step (step_accept rfl rfl) rfl
  have h₇ := h₆.step (.addPushed rfl) rfl
  have h₈ := h₇.step (.addOffered rfl) rfl
  exact ⟨buf, h₈⟩

/-- The next frame of the batch is dropped: the `head_` that `push` reads leaves no room. -/
lemma quiet_drop (hpc : s.worker = .nextFrame (f :: rest))
    (hp : s.pipe.head.Readable s.pipe.seenHead p)
    (hfull : s.pipe.capacity ≤ s.pipe.tail.current - s.pipe.head.val p) :
    Quiet s { s with
      worker := .nextFrame rest, offered := s.offered + 1,
      pipe := { s.pipe with
        prod := .idle, seenHead := p, calls := s.pipe.calls ++ [f.cells],
        dropped := s.pipe.dropped + 1, done := s.pipe.done ++ [(f.cells, none)] } } := by
  have h₀ : Quiet s s := .refl
  have h₁ := h₀.step (.callPush hpc) rfl
  have h₂ := h₁.step (.inPush rfl (by simp [Pipeline.beginPush]) (.loadHead rfl hp) (by simp)) rfl
  have h₃ := h₂.step (.inPush rfl (by simp) (.loadTail rfl) (by simp)) rfl
  have h₄ := h₃.step (.inPush rfl (by simp) (.full rfl hfull) (by simp)) rfl
  have h₅ := h₄.step (step_refuse rfl rfl) rfl
  exact h₅.step (.addOffered rfl) rfl

/-- A frame is popped: the `tail_` that `pop` reads is past it. -/
lemma quiet_pop (hidle : s.pipe.cons = .idle) (hp : s.pipe.tail.Readable s.pipe.seenTail p)
    (hsome : s.pipe.head.current ≠ s.pipe.tail.val p) :
    ∃ out, Quiet s { s with
      pipe := { s.pipe with
        cons := .idle, seenTail := p, head := s.pipe.head.store (s.pipe.head.current + 1),
        popped := s.pipe.popped ++ [out] } } := by
  have h₀ : Quiet s s := .refl
  have h₁ := h₀.step (.consumer (.pop (fun _ => 0) hidle)) rfl
  have h₂ := h₁.step (.consumer (.loadHead rfl)) rfl
  have h₃ := h₂.step (.consumer (.loadTail rfl hp)) rfl
  have h₄ := h₃.step (.consumer (.some rfl hsome)) rfl
  obtain ⟨out, h₅⟩ := h₄.copyOut rfl (Nat.zero_add _)
  exact ⟨out, h₅.step (.consumer (.publish rfl)) rfl⟩

/-- The batch is done, and the next poll is made. -/
lemma quiet_poll (hpc : s.worker = .nextFrame []) (hrun : s.running = true) :
    Quiet s { s with worker := .readFrames, pollCycles := s.pollCycles + 1 } := by
  have h₀ : Quiet s s := .refl
  have h₁ := h₀.step (.endBatch hpc) rfl
  have h₂ := h₁.step (.addCycles rfl) rfl
  exact h₂.step (.goOn rfl hrun) rfl

end Quiet

end CaptureService

end BusTestPlatform

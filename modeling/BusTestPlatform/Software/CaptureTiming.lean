import BusTestPlatform.Software.CaptureNoLoss
import BusTestPlatform.Software.SimStream

/-!
# When frames come out of the pipeline

The steady clock goes on while the service runs, and `read_frames` reads it twice. What the consumer
pops is stamped in order, no later than it is popped and no sooner than the rate allows.
-/

namespace BusTestPlatform

namespace SimUsbDevice

variable {d d' : SimUsbDevice} {nowNs tsNs : UInt64} {fs : List BusFrame}

lemma makeFrames_stamp {already : UInt64} {i n : ℕ}
    (h : makeFrames already tsNs d i n = some (fs, d')) :
    d'.cfg = d.cfg ∧ ∀ f ∈ fs, f.timestampNs100 = tsNs / 100 := by
  induction n generalizing d i fs with
  | zero =>
    cases h
    exact ⟨rfl, List.forall_mem_nil _⟩
  | succ n ih =>
    obtain ⟨ch, fs', -, hrest, rfl⟩ := makeFrames_succ_iff.mp h
    obtain ⟨hcfg, hstamps⟩ := ih hrest
    exact ⟨hcfg, List.forall_mem_cons.mpr ⟨rfl, hstamps⟩⟩

/-- The 64-bit arithmetic can only find fewer frames due than there are. -/
lemma toNat_due_le (d : SimUsbDevice) (elapsed : UInt64) :
    (d.due elapsed).toNat * 10 ^ 9 ≤ elapsed.toNat * d.cfg.rateFramesPerSec.toNat := by
  have hquot : (elapsed / 1000000000 * d.cfg.rateFramesPerSec.toUInt64).toNat ≤
      elapsed.toNat / 10 ^ 9 * d.cfg.rateFramesPerSec.toNat := by
    rw [UInt64.toNat_mul, UInt64.toNat_div, UInt32.toNat_toUInt64]
    exact Nat.mod_le _ _
  have hrem : (elapsed % 1000000000 * d.cfg.rateFramesPerSec.toUInt64 / 1000000000).toNat ≤
      elapsed.toNat % 10 ^ 9 * d.cfg.rateFramesPerSec.toNat / 10 ^ 9 := by
    rw [UInt64.toNat_div, UInt64.toNat_mul, UInt64.toNat_mod, UInt32.toNat_toUInt64]
    exact Nat.div_le_div_right (Nat.mod_le _ _)
  have hsum : (d.due elapsed).toNat ≤ elapsed.toNat / 10 ^ 9 * d.cfg.rateFramesPerSec.toNat +
      elapsed.toNat % 10 ^ 9 * d.cfg.rateFramesPerSec.toNat / 10 ^ 9 := by
    rw [due, UInt64.toNat_add]
    exact (Nat.mod_le _ _).trans (Nat.add_le_add hquot hrem)
  calc (d.due elapsed).toNat * 10 ^ 9
      ≤ elapsed.toNat / 10 ^ 9 * d.cfg.rateFramesPerSec.toNat * 10 ^ 9 +
          elapsed.toNat % 10 ^ 9 * d.cfg.rateFramesPerSec.toNat / 10 ^ 9 * 10 ^ 9 := by
        rw [← Nat.add_mul]
        exact Nat.mul_le_mul_right _ hsum
    _ ≤ elapsed.toNat / 10 ^ 9 * 10 ^ 9 * d.cfg.rateFramesPerSec.toNat +
          elapsed.toNat % 10 ^ 9 * d.cfg.rateFramesPerSec.toNat := by
        rw [Nat.mul_right_comm]
        exact Nat.add_le_add_left (Nat.div_mul_le_self _ _) _
    _ = elapsed.toNat * d.cfg.rateFramesPerSec.toNat := by
        rw [← Nat.add_mul, Nat.div_add_mod']

/-- What a call returns is stamped with its second reading, and no frame is made before it is due at
the first one. -/
lemma readFrames_stamp {maxFrames : ℕ}
    (h : d.readFrames false maxFrames nowNs tsNs = some (fs, d')) :
    d'.cfg = d.cfg ∧ (∀ f ∈ fs, f.timestampNs100 = tsNs / 100) ∧
      (fs ≠ [] → d'.generated.toNat * 10 ^ 9 ≤
        (nowNs - d.openedAtNs).toNat * d.cfg.rateFramesPerSec.toNat) := by
  by_cases hidle : d.Idle false maxFrames nowNs
  · rw [readFrames_of_idle hidle] at h
    cases h
    exact ⟨rfl, List.forall_mem_nil _, fun hne => absurd rfl hne⟩
  · have hcount := count_eq hidle
    have hgen := toNat_generated_add_count hidle
    rw [readFrames_of_not_idle hidle, Option.map_eq_some_iff] at h
    obtain ⟨⟨fs', d''⟩, hmake, heq⟩ := h
    cases heq
    obtain ⟨hcfg, hstamps⟩ := makeFrames_stamp hmake
    obtain ⟨-, hsame, -, -⟩ := makeFrames_spec hmake
    refine ⟨hcfg, hstamps, fun _ => ?_⟩
    have hlate := UInt64.le_of_lt (UInt64.not_le.mp (not_or.mp hidle).2)
    have hdue : (d''.generated + UInt64.ofNat (d.count maxFrames nowNs)).toNat ≤
        (d.due (nowNs - d.openedAtNs)).toNat := by
      rw [hsame, hgen, hcount]
      have := UInt64.le_iff_toNat_le.mp hlate
      omega
    exact (Nat.mul_le_mul_right _ hdue).trans (toNat_due_le d _)

end SimUsbDevice

namespace CaptureService

/-- A step of the service, from one reading of the clock to a later one. -/
inductive TimedStep : UInt64 → CaptureService → UInt64 → CaptureService → Prop
  | wait {clock clock' s} (h : clock ≤ clock') : TimedStep clock s clock' s
  | openDevice {clock nowNs s} (hnow : clock ≤ nowNs) (hpc : s.control = .checkOpen)
      (hopen : s.dev.isOpen = false) :
      TimedStep clock s nowNs { s with control := .storeRunning, dev := s.dev.open nowNs }
  | readFrames {clock nowNs tsNs s} {fs : List BusFrame} {dev : SimUsbDevice}
      (hnow : clock ≤ nowNs) (hts : nowNs ≤ tsNs) (hpc : s.worker = .readFrames)
      (hread : s.dev.readFrames false batchFrames nowNs tsNs = some (fs, dev)) :
      TimedStep clock s tsNs
        { s with worker := .nextFrame fs, dev := dev, produced := s.produced ++ fs }
  /-- Any other step: it does not read the clock. -/
  | untimed {clock s s'} (hstep : Step s s') (hdev : s'.dev = s.dev) : TimedStep clock s clock s'

/-- `Reachable`, with the clock. -/
inductive TimedReachable (cfg : SimConfig) (capacity : BitVec 64) :
    UInt64 → CaptureService → Prop
  | closed (buf : ℕ → Cells Abi.x8664.sizeofFrame UInt8) (clock : UInt64) :
      TimedReachable cfg capacity clock
        (init (SimUsbDevice.new cfg) (Pipeline.init capacity buf))
  | opened (buf : ℕ → Cells Abi.x8664.sizeofFrame UInt8) (nowNs : UInt64) :
      TimedReachable cfg capacity nowNs
        (init ((SimUsbDevice.new cfg).open nowNs) (Pipeline.init capacity buf))
  | step {clock clock' : UInt64} {s s' : CaptureService} (h : TimedReachable cfg capacity clock s)
      (hstep : TimedStep clock s clock' s') : TimedReachable cfg capacity clock' s'

/-- What the device has produced by the time `clock`. -/
structure OnTime (cfg : SimConfig) (clock : UInt64) (s : CaptureService) : Prop where
  config : s.dev.cfg = (SimUsbDevice.new cfg).cfg
  opened : s.dev.openedAtNs ≤ clock
  sorted : s.produced.Pairwise fun f g => f.timestampNs100 ≤ g.timestampNs100
  past : ∀ f ∈ s.produced, f.timestampNs100.toNat * 100 ≤ clock.toNat
  notEarly : ∀ i f, s.produced[i]? = some f → (i + 1) * 10 ^ 9 ≤
    (f.timestampNs100.toNat * 100 + 99 - s.dev.openedAtNs.toNat) * cfg.rate

variable {cfg : SimConfig} {capacity : BitVec 64} {s s' : CaptureService}
  {clock clock' nowNs tsNs : UInt64}

lemma TimedReachable.reachable (h : TimedReachable cfg capacity clock s) :
    Reachable cfg capacity s := by
  induction h with
  | closed buf => exact .closed buf
  | opened buf nowNs => exact .opened buf nowNs
  | step _ hstep ih =>
    cases hstep with
    | wait => exact ih
    | openDevice _ hpc hopen => exact ih.step (.openDevice _ hpc hopen)
    | readFrames _ _ hpc hread => exact ih.step (.readFrames hpc hread)
    | untimed hstep => exact ih.step hstep

/-- A device that stays as it is has returned nothing. -/
lemma produced_eq_of_dev_eq (hstep : Step s s') (hdev : s'.dev = s.dev) :
    s'.produced = s.produced := by
  cases hstep with
  | @readFrames _ _ fs dev hpc hread =>
    obtain ⟨-, hgen, -⟩ := SimUsbDevice.readFrames_spec hread
    have hdev : dev = s.dev := hdev
    rw [hdev, Nat.left_eq_add, List.length_eq_zero_iff] at hgen
    simp [hgen]
  | _ => rfl

lemma OnTime.later (h : OnTime cfg clock s) (hle : clock ≤ clock') : OnTime cfg clock' s :=
  { h with
    opened := UInt64.le_trans h.opened hle
    past := fun f hf => (h.past f hf).trans (UInt64.le_iff_toNat_le.mp hle) }

/-- The stamps of a batch, in whole units of 100 ns. -/
lemma stamp_bounds (tsNs : UInt64) :
    (tsNs / 100).toNat * 100 ≤ tsNs.toNat ∧ tsNs.toNat ≤ (tsNs / 100).toNat * 100 + 99 := by
  rw [UInt64.toNat_div]
  have := Nat.div_add_mod tsNs.toNat 100
  have := Nat.mod_lt tsNs.toNat (show 0 < 100 by decide)
  simp only [UInt64.reduceToNat]
  omega

lemma onTime_readFrames {fs : List BusFrame} {dev : SimUsbDevice} (h : OnTime cfg clock s)
    (hi : Inv capacity s) (hnow : clock ≤ nowNs) (hts : nowNs ≤ tsNs)
    (hread : s.dev.readFrames false batchFrames nowNs tsNs = some (fs, dev)) :
    OnTime cfg tsNs
      { s with worker := .nextFrame fs, dev := dev, produced := s.produced ++ fs } := by
  obtain ⟨hcfg, hstamps, hearly⟩ := SimUsbDevice.readFrames_stamp hread
  obtain ⟨-, hgen, -, hopened, -⟩ := SimUsbDevice.readFrames_spec hread
  have hle := UInt64.le_iff_toNat_le.mp (UInt64.le_trans hnow hts)
  have hstart := UInt64.le_trans h.opened hnow
  obtain ⟨hdown, hup⟩ := stamp_bounds tsNs
  refine ⟨hcfg.trans h.config, ?_, ?_, ?_, fun i f hf => ?_⟩
  · show dev.openedAtNs ≤ tsNs
    rw [hopened]
    exact UInt64.le_trans hstart hts
  · refine List.pairwise_append.mpr ⟨h.sorted, ?_, fun f hf g hg => ?_⟩
    · refine List.pairwise_of_forall_mem_list fun f hf g hg => ?_
      rw [hstamps f hf, hstamps g hg]
      exact UInt64.le_refl _
    · have := h.past f hf
      rw [hstamps g hg, UInt64.le_iff_toNat_le]
      omega
  · intro f hf
    rcases List.mem_append.mp hf with hf | hf
    · exact (h.past f hf).trans hle
    · rw [hstamps f hf]
      exact hdown
  · show (i + 1) * 10 ^ 9 ≤
      (f.timestampNs100.toNat * 100 + 99 - dev.openedAtNs.toNat) * cfg.rate
    have hf : (s.produced ++ fs)[i]? = some f := hf
    rw [hopened]
    rw [List.getElem?_append] at hf
    split_ifs at hf with hlt
    · exact h.notEarly i f hf
    · have hmem := List.mem_of_getElem? hf
      have hsome := (List.getElem?_eq_some_iff.mp hf).1
      have hcount : i + 1 ≤ dev.generated.toNat := by
        rw [hgen, hi.generated]
        omega
      rw [h.config, SimUsbDevice.toNat_rate, UInt64.toNat_sub_of_le _ _ hstart] at hearly
      rw [hstamps f hmem]
      have hnow := UInt64.le_iff_toNat_le.mp hts
      calc (i + 1) * 10 ^ 9
          ≤ dev.generated.toNat * 10 ^ 9 := Nat.mul_le_mul_right _ hcount
        _ ≤ (nowNs.toNat - s.dev.openedAtNs.toNat) * cfg.rate :=
          hearly (List.ne_nil_of_mem hmem)
        _ ≤ ((tsNs / 100).toNat * 100 + 99 - s.dev.openedAtNs.toNat) * cfg.rate :=
          Nat.mul_le_mul_right _ (by omega)

lemma onTime_step (h : OnTime cfg clock s) (hi : Inv capacity s)
    (hstep : TimedStep clock s clock' s') : OnTime cfg clock' s' := by
  cases hstep with
  | wait hle => exact h.later hle
  | openDevice hnow hpc hopen =>
    have hnil := hi.closed hopen
    refine ⟨h.config, UInt64.le_refl _, h.sorted, (h.later hnow).past, fun i f hf => ?_⟩
    have hf : s.produced[i]? = some f := hf
    rw [hnil] at hf
    cases hf
  | readFrames hnow hts hpc hread => exact onTime_readFrames h hi hnow hts hread
  | untimed hstep hdev =>
    have hproduced := produced_eq_of_dev_eq hstep hdev
    refine ⟨?_, ?_, ?_, ?_, ?_⟩
    · rw [hdev]
      exact h.config
    · rw [hdev]
      exact h.opened
    · rw [hproduced]
      exact h.sorted
    · rw [hproduced]
      exact h.past
    · rw [hproduced, hdev]
      exact h.notEarly

lemma TimedReachable.onTime (h : TimedReachable cfg capacity clock s) : OnTime cfg clock s := by
  induction h with
  | closed buf clock =>
    exact ⟨rfl, UInt64.zero_le, .nil, List.forall_mem_nil _, by simp [init]⟩
  | opened buf nowNs =>
    exact ⟨rfl, UInt64.le_refl _, .nil, List.forall_mem_nil _, by simp [init]⟩
  | step hreach hstep ih => exact onTime_step ih hreach.reachable.inv hstep

/-- What was popped are frames that the device has produced, in that order. -/
lemma popped_sublist (hi : Inv capacity s) :
    ∃ fs : List BusFrame, s.pipe.popped = fs.map BusFrame.cells ∧ fs.Sublist s.produced := by
  have hsub : s.pipe.popped.Sublist (s.produced.map BusFrame.cells) := by
    rw [hi.produced, hi.pipe.counted.calls, List.append_assoc]
    exact (((hi.pipe.inv hi.bounds.2).fifo.sublist).trans s.pipe.accepted_sublist).trans
      (List.sublist_append_left _ _)
  obtain ⟨fs, hfs, heq⟩ := List.sublist_map_iff.mp hsub
  exact ⟨fs, heq, hfs⟩

/-- **Stamps in order and in time.** In every order of steps, the frames that the consumer has
popped bear ascending stamps, none of them lies in the future, and by the time that is stamped on
the `j`th one the configured rate has brought up at least as many. -/
theorem popped_on_time (h : TimedReachable cfg capacity clock s) :
    ∃ fs : List BusFrame, s.pipe.popped = fs.map BusFrame.cells ∧
      (fs.Pairwise fun f g => f.timestampNs100 ≤ g.timestampNs100) ∧
      ∀ j f, fs[j]? = some f → f.timestampNs100.toNat * 100 ≤ clock.toNat ∧
        (j + 1) * 10 ^ 9 ≤
          (f.timestampNs100.toNat * 100 + 99 - s.dev.openedAtNs.toNat) * cfg.rate := by
  obtain ⟨fs, hpopped, hsub⟩ := popped_sublist h.reachable.inv
  have hontime := h.onTime
  refine ⟨fs, hpopped, hontime.sorted.sublist hsub, fun j f hf => ?_⟩
  obtain ⟨k, hk⟩ := List.sublist_iff_exists_orderEmbedding_getElem?_eq.mp hsub
  have hprod : s.produced[k j]? = some f := (hk j).symm.trans hf
  refine ⟨hontime.past f (List.mem_of_getElem? hprod), ?_⟩
  calc (j + 1) * 10 ^ 9
      ≤ (k j + 1) * 10 ^ 9 := Nat.mul_le_mul_right _ (Nat.succ_le_succ k.strictMono.le_apply)
    _ ≤ _ := hontime.notEarly (k j) f hprod

/-! ### A run -/

lemma TimedReachable.quiet (h : TimedReachable cfg capacity clock s) (hrun : Quiet s s') :
    TimedReachable cfg capacity clock s' := by
  induction hrun with
  | refl => exact h
  | tail _ hstep ih => exact ih.step (.untimed hstep.1 hstep.2)

lemma TimedReachable.quietTo {α : Type*} {next : α → CaptureService}
    (h : TimedReachable cfg capacity clock s) (hrun : ∃ x, Quiet s (next x)) :
    ∃ x, TimedReachable cfg capacity clock (next x) :=
  hrun.imp fun _ => h.quiet

/-- Frame `i` of the device that sends one frame a second, read when it is due. -/
def secondFrame (i : ℕ) : BusFrame :=
  SimUsbDevice.frameAt oneFramePerSecond 1 i (UInt64.ofNat ((i + 1) * 1000000000))

/-- That device when it has sent `i` frames. -/
def secondDevice (i : ℕ) : SimUsbDevice :=
  { SimUsbDevice.new oneFramePerSecond with
    isOpen := true
    generated := UInt64.ofNat i
    idOffset := UInt32.ofNat i }

lemma secondDevice_readFrames : ∀ i < 3, (secondDevice i).readFrames false batchFrames
    (UInt64.ofNat ((i + 1) * 1000000000)) (UInt64.ofNat ((i + 1) * 1000000000)) =
      some ([secondFrame i], secondDevice (i + 1)) := by
  intro i hi
  interval_cases i <;> rfl

/-- Three frames are read, one each second. There is room for one: the second finds the ring full,
the third does not, since the first has been popped. -/
lemma exists_drop_between : ∃ s, TimedReachable oneFramePerSecond 1 4000000000 s ∧
    s.pipe.popped = [(secondFrame 0).cells, (secondFrame 2).cells] ∧ s.pipe.dropped = 1 ∧
    s.dev.generated = 3 := by
  have h₀ : TimedReachable oneFramePerSecond 1 0 _ := .opened (fun _ _ => 0) 0
  have h₁ := h₀.quiet (quiet_start rfl rfl rfl)
  have h₂ := h₁.step (.readFrames UInt64.zero_le (UInt64.le_refl _) rfl
    (secondDevice_readFrames 0 (by decide)))
  obtain ⟨buf, h₃⟩ := h₂.quietTo (quiet_push (p := 0) rfl ⟨le_rfl, le_rfl⟩ (by decide))
  have h₄ := h₃.quiet (quiet_poll rfl rfl)
  have h₅ := h₄.step (.readFrames (by decide) (UInt64.le_refl _) rfl
    (secondDevice_readFrames 1 (by decide)))
  have h₆ := h₅.quiet (quiet_drop (p := 0) rfl ⟨le_rfl, le_rfl⟩
    (show (1 : BitVec 64) ≤ 1 - 0 by decide))
  have h₇ := h₆.quiet (quiet_poll rfl rfl)
  obtain ⟨out, h₈⟩ := h₇.quietTo
    (quiet_pop (p := 1) rfl ⟨Nat.zero_le 1, le_rfl⟩ (show (0 : BitVec 64) ≠ 1 by decide))
  have h₉ := h₈.step (.readFrames (by decide) (UInt64.le_refl _) rfl
    (secondDevice_readFrames 2 (by decide)))
  obtain ⟨buf', h₁₀⟩ := h₉.quietTo
    (quiet_push (p := 1) rfl ⟨Nat.zero_le 1, le_rfl⟩ (show ¬ (1 : BitVec 64) ≤ 1 - 1 by decide))
  have h₁₁ := h₁₀.step (.wait (show 3000000000 ≤ (4000000000 : UInt64) by decide))
  obtain ⟨out', h₁₂⟩ := h₁₁.quietTo
    (quiet_pop (p := 2) rfl ⟨Nat.le_succ 1, le_rfl⟩ (show (1 : BitVec 64) ≠ 2 by decide))
  have hi := h₁₂.reachable.inv
  have hfifo := (hi.pipe.inv hi.bounds.2).fifo
  have hpopped : [out, out'] = [(secondFrame 0).cells, (secondFrame 2).cells] :=
    hfifo.eq_of_length rfl
  exact ⟨_, h₁₂, hpopped, rfl, rfl⟩

/-- The first and the third frame are popped, in the order and at the pace of their stamps. -/
theorem popped_on_time_dropBetween : ∃ s, TimedReachable oneFramePerSecond 1 4000000000 s ∧
    s.pipe.popped = [(secondFrame 0).cells, (secondFrame 2).cells] ∧ s.pipe.dropped = 1 ∧
    (secondFrame 0).timestampNs100 ≤ (secondFrame 2).timestampNs100 ∧
    (secondFrame 2).timestampNs100.toNat * 100 ≤ 4000000000 ∧
    2 * 10 ^ 9 ≤ (secondFrame 2).timestampNs100.toNat * 100 + 99 - s.dev.openedAtNs.toNat := by
  obtain ⟨s, h, hpopped, hdropped, -⟩ := exists_drop_between
  obtain ⟨fs, hfs, hsorted, htimes⟩ := popped_on_time h
  obtain rfl : fs = [secondFrame 0, secondFrame 2] :=
    List.map_injective_iff.mpr BusFrame.cells_injective (hfs.symm.trans hpopped)
  obtain ⟨hpast, hearly⟩ := htimes 1 (secondFrame 2) rfl
  refine ⟨s, h, hpopped, hdropped, List.rel_of_pairwise_cons hsorted (by simp), hpast, ?_⟩
  simpa [SimConfig.rate, oneFramePerSecond] using hearly

end CaptureService

end BusTestPlatform

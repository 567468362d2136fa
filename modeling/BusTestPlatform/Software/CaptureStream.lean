import BusTestPlatform.Software.CaptureTiming

/-!
# What comes out of the pipeline

From the generator through the worker and the ring to the consumer: every frame that `pop` returns
is a whole frame of the generator's stream, the frames keep the order of the stream, and what is
missing in between has been counted as dropped.
-/

namespace BusTestPlatform

namespace CaptureService

open SimUsbDevice

variable {cfg : SimConfig} {capacity : BitVec 64} {s s' : CaptureService}

/-- The device is at the end of what it has returned, and that is the stream so far. -/
structure Streamed (cfg : SimConfig) (s : CaptureService) : Prop where
  generating : Generating cfg cfg.start s.dev s.dev.generated.toNat
  frames : ∀ i f, s.produced[i]? = some f → (new cfg).cfg.IsFrame i f

/-- An `open` finds the PRNG where the constructor left it, since a device that is closed has not
been read from. -/
lemma streamed_open (h : Streamed cfg s) (hi : Inv capacity s) (hopen : s.dev.isOpen = false)
    (nowNs : UInt64) :
    Generating cfg cfg.start (s.dev.open nowNs) (s.dev.open nowNs).generated.toNat := by
  have hprng := h.generating.prng
  rw [hi.generated, hi.closed hopen, List.length_nil, Nat.zero_mul,
    Function.iterate_zero_apply] at hprng
  rw [← hprng]
  exact generating_open h.generating.config nowNs

lemma streamed_step (h : Streamed cfg s) (hi : Inv capacity s) (hstep : Step s s') :
    Streamed cfg s' := by
  cases hstep with
  | openDevice nowNs hpc hopen => exact ⟨streamed_open h hi hopen nowNs, h.frames⟩
  | readFrames hpc hread =>
    obtain ⟨hfs, -, hdev⟩ := h.generating.readFrames hread
    refine ⟨hdev, fun i f hf => ?_⟩
    rw [List.getElem?_append] at hf
    split_ifs at hf with hlt
    · exact h.frames i f hf
    · have hch := hasChannel_of_readFrames h.generating.config hread
        (List.ne_nil_of_mem (List.mem_of_getElem? hf))
      rw [hfs, List.getElem?_map, Option.map_eq_some_iff] at hf
      obtain ⟨j, hj, rfl⟩ := hf
      obtain ⟨-, rfl⟩ := List.getElem?_eq_some_iff.mp hj
      rw [List.getElem_range, hi.generated, Nat.add_sub_cancel' (Nat.le_of_not_lt hlt)]
      exact isFrame_frameAt_new hch i _
  | _ => exact ⟨h.generating, h.frames⟩

lemma Reachable.streamed (h : Reachable cfg capacity s) : Streamed cfg s := by
  have hnil : ∀ i f, ([] : List BusFrame)[i]? = some f → (new cfg).cfg.IsFrame i f := by simp
  induction h with
  | closed buf => exact ⟨generating_new cfg, hnil⟩
  | opened buf nowNs => exact ⟨generating_open rfl nowNs, hnil⟩
  | step hreach hstep ih => exact streamed_step ih hreach.inv hstep

/-- The accepted frames in the order of their calls: at most `drops` calls are passed over. -/
lemma accepted_positions (pipe : Pipeline 64 Abi.x8664.sizeofFrame UInt8) :
    ∃ k : ℕ ↪o ℕ, ∀ j < pipe.accepted.length,
      pipe.accepted[j]? = (pipe.done.map Prod.fst)[k j]? ∧ k j ≤ j + pipe.drops := by
  obtain ⟨k, hk⟩ := List.sublist_iff_exists_orderEmbedding_getElem?_eq.mp pipe.accepted_sublist
  refine ⟨k, fun j hj => ⟨hk j, ?_⟩⟩
  -- The calls behind call `k j` hold all the later accepted frames.
  have hlast : k (pipe.accepted.length - 1) < pipe.done.length := by
    have hget := hk (pipe.accepted.length - 1)
    rw [List.getElem?_eq_getElem (by omega)] at hget
    have hlt := (List.getElem?_eq_some_iff.mp hget.symm).1
    rwa [List.length_map] at hlt
  have hgap := k.strictMono.add_le_nat (pipe.accepted.length - 1 - j) j
  have hsum := pipe.accepted_add_drops
  rw [show pipe.accepted.length - 1 - j + j = pipe.accepted.length - 1 by omega] at hgap
  omega

/-- **The consumer reads the stream.** At every moment there are positions in the stream, one for
each frame that was popped, in ascending order: the frame is that frame of the stream of the
device's configuration, unmixed, and between them only as many are missing as `dropped()` says. -/
theorem popped_stream (h : Reachable cfg capacity s) :
    ∃ k : ℕ → ℕ, StrictMono k ∧ ∀ j frame, s.pipe.popped[j]? = some frame →
      j ≤ k j ∧ k j ≤ j + s.pipe.dropped.toNat ∧ k j < s.dev.generated.toNat ∧
        ∃ f, (new cfg).cfg.IsFrame (k j) f ∧ frame = f.cells := by
  have hi := h.inv
  have hpipe := hi.pipe.inv hi.bounds.2
  obtain ⟨hcalls, hdropped⟩ := hi.pipe.counted
  have hsum := s.pipe.accepted_add_drops
  have hdone := hi.bounds.1
  have hdrops : s.pipe.dropped.toNat = s.pipe.drops := by
    rw [hdropped, BitVec.toNat_ofNat, Nat.mod_eq_of_lt (by omega)]
  obtain ⟨k, hk⟩ := accepted_positions s.pipe
  refine ⟨k, k.strictMono, fun j frame hj => ?_⟩
  have hacc : s.pipe.accepted[j]? = some frame := by
    obtain ⟨queued, hfifo⟩ := hpipe.fifo
    rw [← hfifo, List.getElem?_append_left (List.getElem?_eq_some_iff.mp hj).1, hj]
  obtain ⟨hget, hle⟩ := hk j (List.getElem?_eq_some_iff.mp hacc).1
  -- A call that has returned was made with a frame that the device had returned.
  have hproduced : (s.produced.map BusFrame.cells)[k j]? = some frame := by
    have hlt : k j < (s.pipe.done.map Prod.fst).length :=
      (List.getElem?_eq_some_iff.mp (hget.symm.trans hacc)).1
    rw [hi.produced, hcalls, List.append_assoc, List.getElem?_append_left hlt, ← hget, hacc]
  rw [List.getElem?_map] at hproduced
  obtain ⟨f, hf, rfl⟩ := Option.map_eq_some_iff.mp hproduced
  have hlt := (List.getElem?_eq_some_iff.mp hf).1
  refine ⟨k.strictMono.le_apply, hdrops ▸ hle, ?_, f, h.streamed.frames _ f hf, rfl⟩
  rw [hi.generated]
  exact hlt

/-- Of three frames the second is dropped: the two that are popped are number 0 and number 2. -/
theorem popped_stream_dropBetween : ∃ s, Reachable oneFramePerSecond 1 s ∧
    s.pipe.popped = [(secondFrame 0).cells, (secondFrame 2).cells] ∧ s.pipe.dropped = 1 ∧
    (new oneFramePerSecond).cfg.IsFrame 0 (secondFrame 0) ∧
    (new oneFramePerSecond).cfg.IsFrame 2 (secondFrame 2) := by
  obtain ⟨s, h, hpopped, hdropped, hgen⟩ := exists_drop_between
  obtain ⟨k, hmono, hk⟩ := popped_stream h.reachable
  obtain ⟨-, -, -, f, hf, hcells⟩ := hk 0 (secondFrame 0).cells (by rw [hpopped]; rfl)
  obtain ⟨-, -, hlt, g, hg, hcells'⟩ := hk 1 (secondFrame 2).cells (by rw [hpopped]; rfl)
  obtain rfl := BusFrame.cells_injective hcells
  obtain rfl := BusFrame.cells_injective hcells'
  -- The frames bear their numbers as ids.
  have hid : 0 = (0 + k 0) % 2 ^ 32 := hf.id
  have hid' : 2 = (0 + k 1) % 2 ^ 32 := hg.id
  have hlt : k 1 < 3 := by rwa [hgen] at hlt
  have hpos := hmono Nat.one_pos
  have hzero : k 0 = 0 := by omega
  have htwo : k 1 = 2 := by omega
  rw [hzero] at hf
  rw [htwo] at hg
  exact ⟨s, h.reachable, hpopped, hdropped, hf, hg⟩

end CaptureService

end BusTestPlatform

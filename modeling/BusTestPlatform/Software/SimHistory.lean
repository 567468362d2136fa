import BusTestPlatform.Software.UsbDeviceSim

/-!
# Histories of the traffic generator

`open` sets the counters back and leaves the PRNG where it is. So the frames since the last `open`
are an initial piece of a sequence that the configuration and the state of the PRNG at that `open`
determine, and the PRNG has made as many steps as payload bytes have been sent since construction.
-/

namespace BusTestPlatform

/-- There is a channel to send on: one of 0..7 is enabled, or the mask is 0 and stands for
channel 0. -/
def SimConfig.HasChannel (cfg : SimConfig) : Prop := cfg.channelMask = 0 ∨ cfg.ChannelEnabled

namespace SimUsbDevice

lemma hasChannel_iff {cfg : SimConfig} : cfg.HasChannel ↔ (new cfg).cfg.ChannelEnabled := by
  by_cases hmask : cfg.channelMask = 0
  · refine iff_of_true (Or.inl hmask) ⟨0, by decide, ?_⟩
    rw [new, if_pos hmask]
    exact (by decide : (1 : UInt32) &&& (1 <<< UInt32.ofNat 0) ≠ 0)
  · rw [SimConfig.HasChannel, or_iff_right hmask, SimConfig.ChannelEnabled,
      SimConfig.ChannelEnabled, new, if_neg hmask]

/-- The effective configuration is effective as it stands. -/
lemma new_new (cfg : SimConfig) : new (new cfg).cfg = new cfg := by
  simp only [new]
  split_ifs <;> simp_all

/-! ### Calls -/

/-- The calls that change a device. `read_frames` comes with the clock readings during it. -/
inductive Call
  | «open» (nowNs : UInt64)
  | close
  | readFrames (outIsNull : Bool) (maxFrames : ℕ) (nowNs tsNs : UInt64)

/-- A call, with the frames it returns. -/
def call (d : SimUsbDevice) : Call → Option (List BusFrame × SimUsbDevice)
  | .open nowNs => some ([], d.open nowNs)
  | .close => some ([], d.close)
  | .readFrames outIsNull maxFrames nowNs tsNs => d.readFrames outIsNull maxFrames nowNs tsNs

/-- The calls one after the other, with all the frames they return. -/
def calls (d : SimUsbDevice) : List Call → Option (List BusFrame × SimUsbDevice)
  | [] => some ([], d)
  | c :: cs => do
    let (fs, d) ← d.call c
    let (fs', d) ← d.calls cs
    return (fs ++ fs', d)

/-- The payload bytes of the frames. -/
def payloadBytes (fs : List BusFrame) : ℕ := (fs.map fun f => f.dlc.toNat).sum

/-! ### The frames since `open` -/

/-- Number `i` of the frames since an `open` that found the PRNG in state `p`. -/
def frameAt (cfg : SimConfig) (p : UInt64) (i : ℕ) (tsNs : UInt64) : BusFrame :=
  let d : SimUsbDevice :=
    { new cfg with
      prngState := xorshift^[i * (new cfg).cfg.dlc.toNat] p
      idOffset := UInt32.ofNat i }
  (d.makeNext (d.channels[i % d.channels.length]?.getD 0) tsNs).1

/-- `n` frames have been made since an `open` that found the PRNG in state `p`. -/
structure Generating (cfg : SimConfig) (p : UInt64) (d : SimUsbDevice) (n : ℕ) : Prop where
  config : d.cfg = (new cfg).cfg
  idOffset : d.idOffset = UInt32.ofNat n
  prng : d.prngState = xorshift^[n * (new cfg).cfg.dlc.toNat] p

@[simp] lemma fill_snd (data : Vector UInt8 busMaxPayload) (prng : UInt64) (b n : ℕ) :
    (fill data prng b n).2 = xorshift^[n] prng := by
  induction n generalizing data prng b with
  | zero => rfl
  | succ n ih => rw [fill, ih, Function.iterate_succ_apply]

variable {cfg : SimConfig} {p : UInt64} {d d' : SimUsbDevice} {n : ℕ} {fs : List BusFrame}

lemma generating_new (cfg : SimConfig) : Generating cfg (new cfg).prngState (new cfg) 0 where
  config := rfl
  idOffset := rfl
  prng := by rw [Nat.zero_mul, Function.iterate_zero_apply]

/-- `open` begins a sequence of its own. -/
lemma generating_open (h : d.cfg = (new cfg).cfg) (t₀ : UInt64) :
    Generating cfg d.prngState (d.open t₀) 0 where
  config := h
  idOffset := rfl
  prng := by
    rw [Nat.zero_mul, Function.iterate_zero_apply]
    rfl

lemma Generating.channels (h : Generating cfg p d n) : d.channels = (new cfg).channels := by
  rw [SimUsbDevice.channels, h.config]
  rfl

/-- The next frame of the sequence. -/
lemma Generating.makeNext (h : Generating cfg p d n) {ch : UInt8} (tsNs : UInt64)
    (hch : d.channels[n % d.channels.length]? = some ch) :
    (d.makeNext ch tsNs).1 = frameAt cfg p n tsNs ∧
      Generating cfg p (d.makeNext ch tsNs).2 (n + 1) := by
  constructor
  · rw [h.channels] at hch
    have hget : (new cfg).channels[n % (new cfg).channels.length]?.getD 0 = ch := by
      rw [hch, Option.getD_some]
    simp only [SimUsbDevice.makeNext, frameAt, h.config, h.idOffset, h.prng]
    congr 1
    exact hget.symm
  · refine ⟨h.config, ?_, ?_⟩
    · rw [UInt32.ofNat_add, ← h.idOffset]
      rfl
    · change (fill BusFrame.zero.data d.prngState 0 d.cfg.dlc.toNat).2 = _
      rw [fill_snd, h.prng, h.config, ← Function.iterate_add_apply, Nat.add_comm, Nat.succ_mul]

/-- The loop makes the next `k` frames of the sequence. -/
lemma Generating.makeFrames {already tsNs : UInt64} {i k : ℕ}
    (h : Generating cfg p d (already.toNat + i)) (hfit : already.toNat + i + k ≤ 2 ^ 64)
    (hrun : SimUsbDevice.makeFrames already tsNs d i k = some (fs, d')) :
    fs = (List.range k).map (fun j => frameAt cfg p (already.toNat + i + j) tsNs) ∧
      Generating cfg p d' (already.toNat + i + k) := by
  induction k generalizing d i fs with
  | zero =>
    cases hrun
    exact ⟨rfl, h⟩
  | succ k ih =>
    obtain ⟨ch, fs', hch, hrest, rfl⟩ := makeFrames_succ_iff.mp hrun
    have hnum : (already + UInt64.ofNat i).toNat = already.toNat + i := by
      rw [UInt64.toNat_add, UInt64.toNat_ofNat', Nat.add_mod_mod]
      exact Nat.mod_eq_of_lt (by omega)
    rw [hnum] at hch
    obtain ⟨hframe, hnext⟩ := h.makeNext tsNs hch
    obtain ⟨hfs, hd'⟩ := ih (i := i + 1) hnext (by omega) hrest
    refine ⟨?_, by rwa [← Nat.add_assoc, Nat.add_right_comm] at hd'⟩
    rw [List.range_succ_eq_map, List.map_cons, List.map_map, hframe, hfs]
    congr 1
    apply List.map_congr_left
    intro j _
    exact congrArg (frameAt cfg p · tsNs) (by omega)

/-- A call of `read_frames` returns the next frames of the sequence. -/
lemma Generating.readFrames {outIsNull : Bool} {maxFrames : ℕ} {nowNs tsNs : UInt64}
    (h : Generating cfg p d d.generated.toNat)
    (hrun : d.readFrames outIsNull maxFrames nowNs tsNs = some (fs, d')) :
    fs = (List.range fs.length).map (fun j => frameAt cfg p (d.generated.toNat + j) tsNs) ∧
      d'.generated.toNat = d.generated.toNat + fs.length ∧
      Generating cfg p d' d'.generated.toNat := by
  obtain ⟨-, hgen, -⟩ := readFrames_spec hrun
  rw [hgen]
  by_cases hidle : d.Idle outIsNull maxFrames nowNs
  · rw [readFrames_of_idle hidle] at hrun
    cases hrun
    exact ⟨rfl, rfl, h⟩
  · rw [readFrames_of_not_idle hidle, Option.map_eq_some_iff] at hrun
    obtain ⟨⟨fs', d''⟩, hmake, hrun⟩ := hrun
    cases hrun
    have hlen := (makeFrames_spec hmake).1
    have hfit : d.generated.toNat + fs.length ≤ 2 ^ 64 := by
      rw [← hgen]
      exact (UInt64.toNat_lt _).le
    rw [← hlen] at hmake
    obtain ⟨hfs, hd⟩ := Generating.makeFrames (i := 0) h hfit hmake
    exact ⟨hfs, rfl, hd.config, hd.idOffset, hd.prng⟩

/-- No frame comes from a device without a channel. -/
lemma hasChannel_of_readFrames {outIsNull : Bool} {maxFrames : ℕ} {nowNs tsNs : UInt64}
    (hcfg : d.cfg = (new cfg).cfg)
    (hrun : d.readFrames outIsNull maxFrames nowNs tsNs = some (fs, d')) (hne : fs ≠ []) :
    cfg.HasChannel := by
  by_cases hidle : d.Idle outIsNull maxFrames nowNs
  · rw [readFrames_of_idle hidle] at hrun
    cases hrun
    exact absurd rfl hne
  · rw [readFrames_of_not_idle hidle, Option.map_eq_some_iff] at hrun
    obtain ⟨⟨fs', d''⟩, hmake, hrun⟩ := hrun
    cases hrun
    cases hcount : d.count maxFrames nowNs with
    | zero =>
      rw [hcount] at hmake
      cases hmake
      exact absurd rfl hne
    | succ n =>
      rw [hcount] at hmake
      obtain ⟨ch, -, hch, -⟩ := makeFrames_succ_iff.mp hmake
      obtain ⟨i, hi, -⟩ := List.mem_map.mp (List.mem_of_getElem? hch)
      obtain ⟨hrange, hbit⟩ := List.mem_filter.mp hi
      rw [hcfg] at hbit
      exact hasChannel_iff.mpr ⟨i, List.mem_range.mp hrange, of_decide_eq_true hbit⟩

/-! ### Any calls -/

@[simp] lemma payloadBytes_nil : payloadBytes [] = 0 := rfl

lemma payloadBytes_append (fs fs' : List BusFrame) :
    payloadBytes (fs ++ fs') = payloadBytes fs + payloadBytes fs' := by
  rw [payloadBytes, List.map_append, List.sum_append]
  rfl

lemma frameAt_dlc (cfg : SimConfig) (p : UInt64) (i : ℕ) (tsNs : UInt64) :
    (frameAt cfg p i tsNs).dlc = (new cfg).cfg.dlc := rfl

/-- One call: the sequence goes on or a new one begins, and the PRNG steps once for every byte. -/
lemma Generating.call (h : Generating cfg p d d.generated.toNat) {c : Call}
    (hrun : d.call c = some (fs, d')) :
    (∃ p', Generating cfg p' d' d'.generated.toNat) ∧
      d'.prngState = xorshift^[payloadBytes fs] d.prngState := by
  cases c with
  | «open» nowNs =>
    cases hrun
    exact ⟨⟨_, generating_open h.config nowNs⟩, rfl⟩
  | close =>
    cases hrun
    exact ⟨⟨p, h.config, h.idOffset, h.prng⟩, rfl⟩
  | readFrames outIsNull maxFrames nowNs tsNs =>
    obtain ⟨hfs, hgen, hd'⟩ := h.readFrames hrun
    refine ⟨⟨p, hd'⟩, ?_⟩
    have hbytes : payloadBytes fs = fs.length * (new cfg).cfg.dlc.toNat := by
      rw [hfs, payloadBytes, List.map_map]
      simp [Function.comp_def, frameAt_dlc]
    rw [hd'.prng, h.prng, hbytes, ← Function.iterate_add_apply, hgen, Nat.add_comm, Nat.add_mul]

lemma Generating.calls {cs : List Call} (h : Generating cfg p d d.generated.toNat)
    (hrun : d.calls cs = some (fs, d')) :
    (∃ p', Generating cfg p' d' d'.generated.toNat) ∧
      d'.prngState = xorshift^[payloadBytes fs] d.prngState := by
  induction cs generalizing p d fs with
  | nil =>
    cases hrun
    exact ⟨⟨p, h⟩, rfl⟩
  | cons c cs ih =>
    rw [SimUsbDevice.calls, Option.bind_eq_bind, Option.bind_eq_some_iff] at hrun
    obtain ⟨⟨fs₁, d₁⟩, hc, hrun⟩ := hrun
    obtain ⟨⟨fs₂, d₂⟩, hcs, hrun⟩ := Option.bind_eq_some_iff.mp hrun
    cases hrun
    obtain ⟨⟨p₁, h₁⟩, hprng₁⟩ := h.call hc
    obtain ⟨hlater, hprng₂⟩ := ih h₁ hcs
    refine ⟨hlater, ?_⟩
    rw [hprng₂, hprng₁, payloadBytes_append, ← Function.iterate_add_apply, Nat.add_comm]

/-- After any calls a device has its configuration, and its PRNG has made one step for every payload
byte of all the frames it has returned. -/
theorem calls_spec {cs : List Call} (hrun : (new cfg).calls cs = some (fs, d)) :
    d.cfg = (new cfg).cfg ∧ d.prngState = xorshift^[payloadBytes fs] (new cfg).prngState := by
  obtain ⟨⟨p, hd⟩, hprng⟩ := (generating_new cfg).calls hrun
  exact ⟨hd.config, hprng⟩

end SimUsbDevice

end BusTestPlatform

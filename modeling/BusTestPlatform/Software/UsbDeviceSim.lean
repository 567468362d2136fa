import BusTestPlatform.Shared.BusTypes

/-!
# `usb_device_sim.cpp`

The traffic generator behind the HAL. Readings of the steady clock are arguments. A division by
zero, which the source does not guard against, is `none`.
-/

namespace BusTestPlatform

/-- `SimConfig`. -/
structure SimConfig where
  rateFramesPerSec : UInt32
  channelMask : UInt32
  busType : BusType
  dlc : UInt8
  idBase : UInt32
  extended : Bool
  fd : Bool
  seed : UInt64

/-- One of the channels 0..7 is enabled. -/
def SimConfig.ChannelEnabled (cfg : SimConfig) : Prop :=
  ∃ i < busMaxChannels, cfg.channelMask &&& (1 <<< UInt32.ofNat i) ≠ 0

/-- `SimUsbDevice`, with the effective configuration. -/
structure SimUsbDevice where
  cfg : SimConfig
  isOpen : Bool
  generated : UInt64
  openedAtNs : UInt64
  prngState : UInt64
  idOffset : UInt32

namespace SimUsbDevice

/-- The constructor. -/
def new (cfg : SimConfig) : SimUsbDevice where
  cfg :=
    { cfg with
      rateFramesPerSec := if cfg.rateFramesPerSec = 0 then 1 else cfg.rateFramesPerSec
      dlc := if busMaxPayload < cfg.dlc.toNat then UInt8.ofNat busMaxPayload else cfg.dlc
      channelMask := if cfg.channelMask = 0 then 1 else cfg.channelMask }
  isOpen := false
  generated := 0
  openedAtNs := 0
  prngState := if cfg.seed ≠ 0 then cfg.seed else 1
  idOffset := 0

/-- `open`, at the clock reading `nowNs`. The PRNG goes on where it was. -/
def «open» (d : SimUsbDevice) (nowNs : UInt64) : SimUsbDevice :=
  { d with openedAtNs := nowNs, generated := 0, idOffset := 0, isOpen := true }

def close (d : SimUsbDevice) : SimUsbDevice := { d with isOpen := false }

/-- The frames due after `elapsedNs`, in 64-bit arithmetic. -/
def due (d : SimUsbDevice) (elapsedNs : UInt64) : UInt64 :=
  (elapsedNs / 1000000000) * d.cfg.rateFramesPerSec.toUInt64 +
    ((elapsedNs % 1000000000) * d.cfg.rateFramesPerSec.toUInt64) / 1000000000

/-- The enabled channels in ascending order. -/
def channels (d : SimUsbDevice) : List UInt8 :=
  ((List.range busMaxChannels).filter fun i =>
    d.cfg.channelMask &&& (1 <<< UInt32.ofNat i) ≠ 0).map UInt8.ofNat

/-- One step of the payload generator. -/
def xorshift (x : UInt64) : UInt64 :=
  let x := x ^^^ (x <<< 13)
  let x := x ^^^ (x >>> 7)
  x ^^^ (x <<< 17)

/-- Fill payload bytes `b`, `b + 1`, ..., `n` of them. -/
def fill (data : Vector UInt8 busMaxPayload) (prng : UInt64) (b : ℕ) :
    ℕ → Vector UInt8 busMaxPayload × UInt64
  | 0 => (data, prng)
  | n + 1 =>
    let prng := xorshift prng
    fill (data.setIfInBounds b (prng >>> 56).toUInt8) prng (b + 1) n

/-- The next frame, on channel `ch` and stamped `tsNs`. -/
def makeNext (d : SimUsbDevice) (ch : UInt8) (tsNs : UInt64) : BusFrame × SimUsbDevice :=
  let payload := fill BusFrame.zero.data d.prngState 0 d.cfg.dlc.toNat
  ({ timestampNs100 := tsNs / 100
     type := d.cfg.busType
     channel := ch
     dir := .rx
     id := d.cfg.idBase + d.idOffset
     extended := if d.cfg.extended then 1 else 0
     fd := if d.cfg.fd then 1 else 0
     dlc := d.cfg.dlc
     data := payload.1
     status := .ok },
   { d with prngState := payload.2, idOffset := d.idOffset + 1 })

/-- The loop over `count` frames, from frame `i` of this call on. -/
def makeFrames (already tsNs : UInt64) (d : SimUsbDevice) (i : ℕ) :
    ℕ → Option (List BusFrame × SimUsbDevice)
  | 0 => some ([], d)
  | n + 1 => do
    let nch := d.channels.length
    let ch ← d.channels[(already + UInt64.ofNat i).toNat % nch]?
    let (f, d) := d.makeNext ch tsNs
    let (fs, d) ← makeFrames already tsNs d (i + 1) n
    return (f :: fs, d)

/-- `read_frames`, at the clock readings `nowNs` and `tsNs`: the frames written to `out`. -/
def readFrames (d : SimUsbDevice) (outIsNull : Bool) (maxFrames : ℕ) (nowNs tsNs : UInt64) :
    Option (List BusFrame × SimUsbDevice) :=
  if d.isOpen = false ∨ outIsNull = true ∨ maxFrames = 0 then some ([], d)
  else
    let due := d.due (nowNs - d.openedAtNs)
    let already := d.generated
    if due ≤ already then some ([], d)
    else do
      let count := min (due - already).toNat maxFrames
      let (fs, d) ← makeFrames already tsNs d 0 count
      return (fs, { d with generated := d.generated + UInt64.ofNat count })

/-! ### What a call of `read_frames` does -/

/-- One round of the loop. -/
lemma makeFrames_succ_iff {already tsNs : UInt64} {d d' : SimUsbDevice} {i n : ℕ}
    {fs : List BusFrame} : makeFrames already tsNs d i (n + 1) = some (fs, d') ↔
      ∃ ch fs', d.channels[(already + UInt64.ofNat i).toNat % d.channels.length]? = some ch ∧
        makeFrames already tsNs (d.makeNext ch tsNs).2 (i + 1) n = some (fs', d') ∧
        fs = (d.makeNext ch tsNs).1 :: fs' := by
  rw [makeFrames, Option.bind_eq_bind, Option.bind_eq_some_iff]
  constructor
  · rintro ⟨ch, hch, h⟩
    obtain ⟨⟨fs', d''⟩, hrest, h⟩ := Option.bind_eq_some_iff.mp h
    cases h
    exact ⟨ch, fs', hch, hrest, rfl⟩
  · rintro ⟨ch, fs', hch, hrest, rfl⟩
    exact ⟨ch, hch, Option.bind_eq_some_iff.mpr ⟨_, hrest, rfl⟩⟩

lemma makeFrames_spec {already tsNs : UInt64} {d d' : SimUsbDevice} {i n : ℕ} {fs : List BusFrame}
    (h : makeFrames already tsNs d i n = some (fs, d')) :
    fs.length = n ∧ d'.generated = d.generated ∧ d'.isOpen = d.isOpen ∧
      d'.openedAtNs = d.openedAtNs := by
  induction n generalizing d i fs with
  | zero =>
    cases h
    exact ⟨rfl, rfl, rfl, rfl⟩
  | succ n ih =>
    obtain ⟨ch, fs', -, hrest, rfl⟩ := makeFrames_succ_iff.mp h
    obtain ⟨hlen, hgen, hopen, hopened⟩ := ih hrest
    exact ⟨congrArg (· + 1) hlen, hgen, hopen, hopened⟩

/-- The call returns 0 at once, or with no frame due. -/
def Idle (d : SimUsbDevice) (outIsNull : Bool) (maxFrames : ℕ) (nowNs : UInt64) : Prop :=
  (d.isOpen = false ∨ outIsNull = true ∨ maxFrames = 0) ∨
    d.due (nowNs - d.openedAtNs) ≤ d.generated

/-- The frames that any other call makes. -/
def count (d : SimUsbDevice) (maxFrames : ℕ) (nowNs : UInt64) : ℕ :=
  min (d.due (nowNs - d.openedAtNs) - d.generated).toNat maxFrames

section

variable {d d' : SimUsbDevice} {outIsNull : Bool} {maxFrames : ℕ} {nowNs : UInt64}

lemma readFrames_of_idle (h : d.Idle outIsNull maxFrames nowNs) (tsNs : UInt64) :
    d.readFrames outIsNull maxFrames nowNs tsNs = some ([], d) := by
  rw [readFrames]
  rcases h with hclosed | hdue
  · rw [if_pos hclosed]
  · split_ifs
    · rfl
    · exact if_pos hdue

lemma readFrames_of_not_idle (h : ¬ d.Idle outIsNull maxFrames nowNs) (tsNs : UInt64) :
    d.readFrames outIsNull maxFrames nowNs tsNs =
      (makeFrames d.generated tsNs d 0 (d.count maxFrames nowNs)).map fun (fs, d') =>
        (fs, { d' with generated := d'.generated + UInt64.ofNat (d.count maxFrames nowNs) }) := by
  rw [Idle, not_or] at h
  rw [readFrames, if_neg h.1, Option.map_eq_bind]
  exact if_neg h.2

/-- The frames made, in numbers without wrap. -/
lemma count_eq (h : ¬ d.Idle outIsNull maxFrames nowNs) : d.count maxFrames nowNs =
    min ((d.due (nowNs - d.openedAtNs)).toNat - d.generated.toNat) maxFrames := by
  rw [Idle, not_or, UInt64.not_le] at h
  rw [count, UInt64.toNat_sub_of_le _ _ (UInt64.le_of_lt h.2)]

/-- The counter of the frames does not wrap: it never passes the number of frames due. -/
lemma toNat_generated_add_count (h : ¬ d.Idle outIsNull maxFrames nowNs) :
    (d.generated + UInt64.ofNat (d.count maxFrames nowNs)).toNat =
      d.generated.toNat + d.count maxFrames nowNs := by
  have hcount := count_eq h
  have hlt := UInt64.toNat_lt (d.due (nowNs - d.openedAtNs))
  have hlate := UInt64.lt_iff_toNat_lt.mp (UInt64.not_le.mp (not_or.mp h).2)
  rw [UInt64.toNat_add, UInt64.toNat_ofNat', Nat.add_mod_mod]
  exact Nat.mod_eq_of_lt (by omega)

/-- `generated()` counts exactly the frames that are returned. -/
lemma readFrames_spec {tsNs : UInt64} {fs : List BusFrame}
    (h : d.readFrames outIsNull maxFrames nowNs tsNs = some (fs, d')) :
    fs.length ≤ maxFrames ∧ d'.generated.toNat = d.generated.toNat + fs.length ∧
      d'.isOpen = d.isOpen ∧ d'.openedAtNs = d.openedAtNs ∧ (d.isOpen = false → fs = []) := by
  by_cases hidle : d.Idle outIsNull maxFrames nowNs
  · rw [readFrames_of_idle hidle] at h
    cases h
    exact ⟨Nat.zero_le _, rfl, rfl, rfl, fun _ => rfl⟩
  · rw [readFrames_of_not_idle hidle, Option.map_eq_some_iff] at h
    obtain ⟨⟨fs', d''⟩, hmake, h⟩ := h
    cases h
    obtain ⟨hlen, hgen, hopen, hopened⟩ := makeFrames_spec hmake
    refine ⟨hlen.trans_le (Nat.min_le_right ..), ?_, hopen, hopened, fun hc => ?_⟩
    · rw [hgen, toNat_generated_add_count hidle, hlen]
    · exact absurd (Or.inl (Or.inl hc)) hidle

/-- An open device returns what is due, as far as there is room for it. -/
lemma readFrames_length {tsNs : UInt64} {fs : List BusFrame} (hopen : d.isOpen = true)
    (h : d.readFrames false maxFrames nowNs tsNs = some (fs, d')) : fs.length =
      min ((d.due (nowNs - d.openedAtNs)).toNat - d.generated.toNat) maxFrames := by
  by_cases hidle : d.Idle false maxFrames nowNs
  · rw [readFrames_of_idle hidle] at h
    cases h
    rcases hidle with (hclosed | hnull | hroom) | hdue
    · rw [hopen] at hclosed
      cases hclosed
    · cases hnull
    · rw [hroom, Nat.min_zero, List.length_nil]
    · rw [Nat.sub_eq_zero_of_le (UInt64.le_iff_toNat_le.mp hdue), Nat.zero_min, List.length_nil]
  · rw [readFrames_of_not_idle hidle, Option.map_eq_some_iff] at h
    obtain ⟨⟨fs', d''⟩, hmake, h⟩ := h
    cases h
    rw [(makeFrames_spec hmake).1, count_eq hidle]

end

/-! ### With a channel enabled, every call returns -/

lemma channels_ne_nil {d : SimUsbDevice} (h : d.cfg.ChannelEnabled) : d.channels ≠ [] := by
  obtain ⟨i, hi, hbit⟩ := h
  refine List.ne_nil_of_mem (a := UInt8.ofNat i) (List.mem_map_of_mem ?_)
  exact List.mem_filter.mpr ⟨List.mem_range.mpr hi, decide_eq_true hbit⟩

lemma new_channelEnabled {cfg : SimConfig} (h : cfg.ChannelEnabled) :
    (new cfg).cfg.ChannelEnabled := by
  obtain ⟨i, hi, hbit⟩ := h
  have hmask : cfg.channelMask ≠ 0 := by
    intro h0
    rw [h0, UInt32.zero_and] at hbit
    exact hbit rfl
  refine ⟨i, hi, ?_⟩
  rw [new, if_neg hmask]
  exact hbit

lemma makeFrames_some {already tsNs : UInt64} {d : SimUsbDevice} {i n : ℕ}
    (h : d.cfg.ChannelEnabled) :
    ∃ fs d', makeFrames already tsNs d i n = some (fs, d') ∧ d'.cfg = d.cfg := by
  induction n generalizing d i with
  | zero => exact ⟨[], d, rfl, rfl⟩
  | succ n ih =>
    have hpos : 0 < d.channels.length := List.length_pos_iff.mpr (channels_ne_nil h)
    obtain ⟨ch, hget⟩ : ∃ ch,
        d.channels[(already + UInt64.ofNat i).toNat % d.channels.length]? = some ch :=
      ⟨_, List.getElem?_eq_getElem (Nat.mod_lt _ hpos)⟩
    obtain ⟨fs, d', hrest, hcfg⟩ := ih (d := (d.makeNext ch tsNs).2) (i := i + 1) h
    exact ⟨_, d', makeFrames_succ_iff.mpr ⟨ch, fs, hget, hrest, rfl⟩, hcfg⟩

lemma readFrames_some {d : SimUsbDevice} (h : d.cfg.ChannelEnabled) (outIsNull : Bool)
    (maxFrames : ℕ) (nowNs tsNs : UInt64) :
    ∃ fs d', d.readFrames outIsNull maxFrames nowNs tsNs = some (fs, d') ∧ d'.cfg = d.cfg := by
  by_cases hidle : d.Idle outIsNull maxFrames nowNs
  · exact ⟨[], d, readFrames_of_idle hidle tsNs, rfl⟩
  · obtain ⟨fs, d', hmake, hcfg⟩ : ∃ fs d',
        makeFrames d.generated tsNs d 0 (d.count maxFrames nowNs) = some (fs, d') ∧
          d'.cfg = d.cfg := makeFrames_some h
    rw [readFrames_of_not_idle hidle, hmake]
    exact ⟨fs, _, rfl, hcfg⟩

end SimUsbDevice

end BusTestPlatform

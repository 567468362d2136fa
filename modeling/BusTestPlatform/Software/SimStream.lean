import BusTestPlatform.Software.SimHistory

/-!
# The stream of the traffic generator

What the generator has returned since `open` is a prefix of one stream of frames, which the
configuration determines. How long the prefix is depends on the clock and on the room the callers
offered; how the frames were split over the calls does not matter.
-/

namespace BusTestPlatform

/-! ### The stream -/

/-- Byte `j` of the xorshift64 stream from `start` on. -/
def xorshiftByte (start : UInt64) (j : ℕ) : UInt8 :=
  (SimUsbDevice.xorshift^[j + 1] start >>> 56).toUInt8

namespace SimConfig

variable (cfg : SimConfig)

/-- The enabled channels in ascending order. -/
def enabledChannels : List ℕ := (List.range busMaxChannels).filter (cfg.channelMask.toNat.testBit ·)

/-- The rate of the device: 0 is taken as 1. -/
def rate : ℕ := if cfg.rateFramesPerSec = 0 then 1 else cfg.rateFramesPerSec.toNat

/-- The state that the payload generator starts in: 0 is taken as 1. -/
def start : UInt64 := if cfg.seed ≠ 0 then cfg.seed else 1

/-- `f` is frame number `i` of the stream. -/
structure IsFrame (i : ℕ) (f : BusFrame) : Prop where
  id : f.id.toNat = (cfg.idBase.toNat + i) % 2 ^ 32
  channel : cfg.enabledChannels[i % cfg.enabledChannels.length]? = some f.channel.toNat
  dlc : f.dlc.toNat = min cfg.dlc.toNat busMaxPayload
  data : ∀ (b : ℕ) (hb : b < busMaxPayload), b < f.dlc.toNat →
    f.data[b] = xorshiftByte cfg.start (i * f.dlc.toNat + b)

end SimConfig

namespace SimUsbDevice

/-! ### The payload -/

lemma fill_fst (data : Vector UInt8 busMaxPayload) (prng : UInt64) (b n : ℕ) {j : ℕ}
    (hj : j < busMaxPayload) : (fill data prng b n).1[j] =
      if b ≤ j ∧ j < b + n then (xorshift^[j - b + 1] prng >>> 56).toUInt8 else data[j] := by
  induction n generalizing data prng b with
  | zero =>
    rw [if_neg (by omega)]
    rfl
  | succ n ih =>
    rw [fill, ih]
    rcases Nat.lt_trichotomy j b with hlt | rfl | hgt
    · rw [if_neg (by omega), if_neg (by omega), Vector.getElem_setIfInBounds_ne hj hlt.ne']
    · rw [if_neg (by omega), if_pos (by omega), Vector.getElem_setIfInBounds_self hj, Nat.sub_self]
      rfl
    · have hsub : j - b = j - (b + 1) + 1 := by omega
      by_cases hin : j < b + 1 + n
      · rw [if_pos (by omega), if_pos (by omega), hsub,
          Function.iterate_succ_apply xorshift (j - (b + 1) + 1)]
      · rw [if_neg (by omega), if_neg (by omega), Vector.getElem_setIfInBounds_ne hj hgt.ne]

/-! ### The frames due -/

lemma toNat_rate (cfg : SimConfig) : (new cfg).cfg.rateFramesPerSec.toNat = cfg.rate := by
  simp only [new, SimConfig.rate]
  split_ifs <;> rfl

lemma rate_pos (cfg : SimConfig) : 0 < cfg.rate := by
  rw [SimConfig.rate]
  split_ifs with hzero
  · exact Nat.one_pos
  · exact Nat.pos_of_ne_zero fun h => hzero (UInt32.toNat_inj.mp h)

lemma rate_lt (cfg : SimConfig) : cfg.rate < 2 ^ 32 := by
  rw [← toNat_rate]
  exact UInt32.toNat_lt _

/-- The split computation is the exact quotient wherever that fits into 64 bits, and none of its
steps wraps. -/
lemma toNat_due {cfg : SimConfig} {d : SimUsbDevice} {elapsed : UInt64}
    (hcfg : d.cfg = (new cfg).cfg) (hfit : elapsed.toNat * cfg.rate / 10 ^ 9 < 2 ^ 64) :
    (elapsed / 1000000000).toNat * cfg.rate < 2 ^ 64 ∧
      (elapsed % 1000000000).toNat * cfg.rate < 2 ^ 64 ∧
      (d.due elapsed).toNat = elapsed.toNat * cfg.rate / 10 ^ 9 := by
  have hrate : d.cfg.rateFramesPerSec.toUInt64.toNat = cfg.rate := by
    rw [UInt32.toNat_toUInt64, hcfg, toNat_rate]
  have hrate_lt := rate_lt cfg
  have hdiv : (elapsed / 1000000000).toNat = elapsed.toNat / 10 ^ 9 := UInt64.toNat_div ..
  have hmod : (elapsed % 1000000000).toNat = elapsed.toNat % 10 ^ 9 := UInt64.toNat_mod ..
  have hsplit : elapsed.toNat * cfg.rate / 10 ^ 9 =
      elapsed.toNat / 10 ^ 9 * cfg.rate + elapsed.toNat % 10 ^ 9 * cfg.rate / 10 ^ 9 := by
    conv_lhs => rw [← Nat.div_add_mod elapsed.toNat (10 ^ 9), Nat.add_mul, Nat.mul_assoc]
    exact Nat.mul_add_div (by decide) _ _
  have hlow : elapsed.toNat % 10 ^ 9 * cfg.rate < 2 ^ 64 := by
    calc elapsed.toNat % 10 ^ 9 * cfg.rate
        ≤ 10 ^ 9 * cfg.rate := Nat.mul_le_mul_right _ (Nat.mod_lt _ (by decide)).le
      _ ≤ 10 ^ 9 * 2 ^ 32 := Nat.mul_le_mul_left _ hrate_lt.le
      _ < 2 ^ 64 := by decide
  rw [hsplit] at hfit
  have hhigh : elapsed.toNat / 10 ^ 9 * cfg.rate < 2 ^ 64 :=
    (Nat.le_add_right _ _).trans_lt hfit
  refine ⟨hdiv ▸ hhigh, hmod ▸ hlow, ?_⟩
  have hbillion : (1000000000 : UInt64).toNat = 10 ^ 9 := rfl
  rw [due, UInt64.toNat_add, UInt64.toNat_mul, UInt64.toNat_div, UInt64.toNat_div,
    UInt64.toNat_mul, UInt64.toNat_mod, hrate, hbillion, Nat.mod_eq_of_lt hhigh,
    Nat.mod_eq_of_lt hlow, Nat.mod_eq_of_lt hfit, hsplit]

lemma toNat_due_seconds {cfg : SimConfig} {d : SimUsbDevice} {k : ℕ}
    (hcfg : d.cfg = (new cfg).cfg) (hk : k < 2 ^ 32) :
    (d.due (UInt64.ofNat (k * 10 ^ 9))).toNat = k * cfg.rate := by
  have hlt : k * 10 ^ 9 < 2 ^ 64 := by omega
  have hval : (UInt64.ofNat (k * 10 ^ 9)).toNat = k * 10 ^ 9 := UInt64.toNat_ofNat_of_lt' hlt
  have hquot : (UInt64.ofNat (k * 10 ^ 9)).toNat * cfg.rate / 10 ^ 9 = k * cfg.rate := by
    rw [hval, Nat.mul_right_comm, Nat.mul_div_cancel _ (by decide)]
  have hfit : k * cfg.rate < 2 ^ 64 := by
    calc k * cfg.rate ≤ k * 2 ^ 32 := Nat.mul_le_mul_left k (rate_lt cfg).le
      _ < 2 ^ 32 * 2 ^ 32 := Nat.mul_lt_mul_of_pos_right hk (by decide)
  rw [(toNat_due hcfg (hquot.trans_lt hfit)).2.2, hquot]

/-! ### One frame -/

lemma channelMask_bit (m : UInt32) {i : ℕ} (hi : i < busMaxChannels) :
    m &&& (1 <<< UInt32.ofNat i) ≠ 0 ↔ m.toNat.testBit i = true := by
  have hval : (m &&& (1 <<< UInt32.ofNat i)).toNat = (m.toNat.testBit i).toNat * 2 ^ i := by
    have hlt : i < 32 := Nat.lt_trans hi (by decide)
    have hshift : ((1 : UInt32) <<< UInt32.ofNat i).toNat = 2 ^ i := by
      rw [UInt32.toNat_shiftLeft, UInt32.toNat_ofNat', Nat.mod_mod_of_dvd _ (by decide),
        Nat.mod_eq_of_lt hlt, UInt32.toNat_one, Nat.one_shiftLeft]
      exact Nat.mod_eq_of_lt (Nat.pow_lt_pow_right (by decide) hlt)
    rw [UInt32.toNat_and, hshift, Nat.and_two_pow]
  rw [Ne, ← UInt32.toNat_inj, hval]
  cases m.toNat.testBit i <;> simp

lemma channels_eq {cfg : SimConfig} {d : SimUsbDevice} (hcfg : d.cfg = (new cfg).cfg)
    (h : cfg.ChannelEnabled) : d.channels = cfg.enabledChannels.map UInt8.ofNat := by
  have hmask : d.cfg.channelMask = cfg.channelMask := by
    rw [hcfg]
    refine if_neg fun h0 => ?_
    obtain ⟨i, -, hbit⟩ := h
    rw [h0, UInt32.zero_and] at hbit
    exact hbit rfl
  rw [channels, SimConfig.enabledChannels, hmask]
  refine congrArg _ (List.filter_congr fun i hi => ?_)
  rw [decide_eq_decide.mpr (channelMask_bit _ (List.mem_range.mp hi)), Bool.decide_coe]

/-- `n` frames of the stream have been made since the device was opened at `t₀`. -/
structure Streaming (cfg : SimConfig) (t₀ : UInt64) (d : SimUsbDevice) (n : ℕ) : Prop where
  config : d.cfg = (new cfg).cfg
  isOpen : d.isOpen = true
  openedAt : d.openedAtNs = t₀
  idOffset : d.idOffset = UInt32.ofNat n
  prng : d.prngState = xorshift^[n * min cfg.dlc.toNat busMaxPayload] cfg.start

lemma streaming_open (cfg : SimConfig) (t₀ : UInt64) : Streaming cfg t₀ ((new cfg).open t₀) 0 where
  config := rfl
  isOpen := rfl
  openedAt := rfl
  idOffset := rfl
  prng := by
    rw [Nat.zero_mul]
    rfl

lemma toNat_dlc (cfg : SimConfig) : (new cfg).cfg.dlc.toNat = min cfg.dlc.toNat busMaxPayload := by
  by_cases h : busMaxPayload < cfg.dlc.toNat
  · simp only [new, h, if_true, Nat.min_eq_right h.le]
    rfl
  · simp only [new, h, if_false, Nat.min_eq_left (Nat.le_of_not_lt h)]

lemma Streaming.generating {cfg : SimConfig} {t₀ : UInt64} {d : SimUsbDevice} {n : ℕ}
    (h : Streaming cfg t₀ d n) : Generating cfg cfg.start d n :=
  ⟨h.config, h.idOffset, by rw [h.prng, toNat_dlc]⟩

lemma frameAt_data (cfg : SimConfig) (p : UInt64) (i : ℕ) (tsNs : UInt64) {b : ℕ}
    (hb : b < busMaxPayload) (hdlc : b < (new cfg).cfg.dlc.toNat) :
    (frameAt cfg p i tsNs).data[b] = xorshiftByte p (i * (new cfg).cfg.dlc.toNat + b) := by
  change (fill BusFrame.zero.data (xorshift^[i * (new cfg).cfg.dlc.toNat] p) 0
    (new cfg).cfg.dlc.toNat).1[b] = _
  rw [fill_fst _ _ _ _ hb, if_pos (by omega), Nat.sub_zero, ← Function.iterate_add_apply,
    xorshiftByte, Nat.add_comm (b + 1), ← Nat.add_assoc]

/-- A device that was constructed and opened makes the frames of the stream. -/
lemma isFrame_frameAt {cfg : SimConfig} (hch : cfg.ChannelEnabled) (i : ℕ) (tsNs : UInt64) :
    cfg.IsFrame i (frameAt cfg cfg.start i tsNs) := by
  refine ⟨?_, ?_, toNat_dlc cfg, fun b hb hlt => ?_⟩
  · change (cfg.idBase + UInt32.ofNat i).toNat = _
    rw [UInt32.toNat_add, UInt32.toNat_ofNat', Nat.add_mod_mod]
  · change _ = some ((new cfg).channels[i % (new cfg).channels.length]?.getD 0).toNat
    have hlen : 0 < (new cfg).channels.length :=
      List.length_pos_iff.mpr (channels_ne_nil (new_channelEnabled hch))
    rw [channels_eq rfl hch, List.length_map] at hlen ⊢
    obtain ⟨c, hc⟩ : ∃ c, cfg.enabledChannels[i % cfg.enabledChannels.length]? = some c :=
      ⟨_, List.getElem?_eq_getElem (Nat.mod_lt _ hlen)⟩
    have hlt : c < busMaxChannels :=
      List.mem_range.mp (List.mem_of_mem_filter (List.mem_of_getElem? hc))
    rw [List.getElem?_map, hc, Option.map_some, Option.getD_some,
      UInt8.toNat_ofNat_of_lt' (hlt.trans (by decide))]
  · exact frameAt_data cfg cfg.start i tsNs hb hlt

/-- Also with the mask 0, they are the stream of the effective configuration. -/
lemma isFrame_frameAt_new {cfg : SimConfig} (hch : cfg.HasChannel) (i : ℕ) (tsNs : UInt64) :
    (new cfg).cfg.IsFrame i (frameAt cfg cfg.start i tsNs) := by
  have hframe := isFrame_frameAt (hasChannel_iff.mp hch) i tsNs
  rwa [frameAt, new_new] at hframe

/-! ### One call -/

/-- The frames due at `nowNs`. -/
def dueBy (rate : ℕ) (t₀ nowNs : UInt64) : ℕ := (nowNs.toNat - t₀.toNat) * rate / 10 ^ 9

/-- A call returns what is due, as far as there is room for it. -/
lemma Streaming.readFrames {cfg : SimConfig} {t₀ nowNs : UInt64} {d : SimUsbDevice}
    (h : Streaming cfg t₀ d d.generated.toNat) (hch : cfg.ChannelEnabled) (htime : t₀ ≤ nowNs)
    (hfit : dueBy cfg.rate t₀ nowNs < 2 ^ 64) (maxFrames : ℕ) (tsNs : UInt64) :
    ∃ fs d', d.readFrames false maxFrames nowNs tsNs = some (fs, d') ∧
      Streaming cfg t₀ d' d'.generated.toNat ∧
      d'.generated.toNat =
        max d.generated.toNat (min (d.generated.toNat + maxFrames) (dueBy cfg.rate t₀ nowNs)) ∧
      d'.generated.toNat = d.generated.toNat + fs.length ∧
      ∀ j f, fs[j]? = some f → cfg.IsFrame (d.generated.toNat + j) f := by
  have helapsed : (nowNs - d.openedAtNs).toNat = nowNs.toNat - t₀.toNat := by
    rw [h.openedAt, UInt64.toNat_sub_of_le _ _ htime]
  have hdue : (d.due (nowNs - d.openedAtNs)).toNat = dueBy cfg.rate t₀ nowNs := by
    rw [dueBy, ← helapsed] at hfit ⊢
    exact (toNat_due h.config hfit).2.2
  have hd : d.cfg.ChannelEnabled := by
    rw [h.config]
    exact new_channelEnabled hch
  obtain ⟨fs, d', hrun, -⟩ := readFrames_some hd false maxFrames nowNs tsNs
  have hlen := readFrames_length h.isOpen hrun
  rw [hdue] at hlen
  obtain ⟨-, -, hopen, hopened, -⟩ := readFrames_spec hrun
  obtain ⟨hfs, hgen, hd'⟩ := h.generating.readFrames hrun
  refine ⟨fs, d', hrun, ⟨hd'.config, ?_, ?_, hd'.idOffset, ?_⟩, by omega, hgen, fun j f hf => ?_⟩
  · rw [hopen, h.isOpen]
  · rw [hopened, h.openedAt]
  · rw [hd'.prng, toNat_dlc]
  · rw [hfs, List.getElem?_map, Option.map_eq_some_iff] at hf
    obtain ⟨j', hj', rfl⟩ := hf
    obtain ⟨-, rfl⟩ := List.getElem?_eq_some_iff.mp hj'
    rw [List.getElem_range]
    exact isFrame_frameAt hch _ tsNs

/-! ### Any calls -/

/-- A call of `read_frames` with a buffer, and the clock readings during it. -/
structure Poll where
  maxFrames : ℕ
  nowNs : UInt64
  tsNs : UInt64

/-- The calls one after the other: the frames each returns and `generated()` after it. -/
def polls (d : SimUsbDevice) : List Poll → Option (List (List BusFrame × UInt64) × SimUsbDevice)
  | [] => some ([], d)
  | p :: ps => do
    let (fs, d) ← d.readFrames false p.maxFrames p.nowNs p.tsNs
    let (rs, d') ← d.polls ps
    return ((fs, d.generated) :: rs, d')

/-- After each call `generated()` is what is due, as far as there was room for it, and the call has
returned the increase. -/
def Counts (rate : ℕ) (t₀ : UInt64) : ℕ → List Poll → List (List BusFrame × UInt64) → Prop
  | _, [], rs => rs = []
  | n, p :: ps, rs => ∃ fs gen rs', rs = (fs, gen) :: rs' ∧
      gen.toNat = max n (min (n + p.maxFrames) (dueBy rate t₀ p.nowNs)) ∧
      fs.length = gen.toNat - n ∧ Counts rate t₀ gen.toNat ps rs'

lemma Streaming.polls {cfg : SimConfig} {t₀ : UInt64} {d : SimUsbDevice} {ps : List Poll}
    (h : Streaming cfg t₀ d d.generated.toNat) (hch : cfg.ChannelEnabled)
    (htime : ∀ p ∈ ps, t₀ ≤ p.nowNs) (hfit : ∀ p ∈ ps, dueBy cfg.rate t₀ p.nowNs < 2 ^ 64) :
    ∃ rs d', d.polls ps = some (rs, d') ∧ Counts cfg.rate t₀ d.generated.toNat ps rs ∧
      ∀ j f, (rs.flatMap Prod.fst)[j]? = some f → cfg.IsFrame (d.generated.toNat + j) f := by
  induction ps generalizing d with
  | nil => exact ⟨[], d, rfl, rfl, by simp⟩
  | cons p ps ih =>
    rw [List.forall_mem_cons] at htime hfit
    obtain ⟨fs, d₁, hread, hd₁, hgen, hlen, hfs⟩ :=
      h.readFrames hch htime.1 hfit.1 p.maxFrames p.tsNs
    obtain ⟨rs, d', hrun, hcounts, hrs⟩ := ih hd₁ htime.2 hfit.2
    refine ⟨(fs, d₁.generated) :: rs, d', ?_, ⟨fs, d₁.generated, rs, rfl, hgen, by omega, hcounts⟩,
      fun j f hf => ?_⟩
    · simp [SimUsbDevice.polls, hread, hrun]
    · rw [List.flatMap_cons, List.getElem?_append] at hf
      split_ifs at hf with hj
      · exact hfs j f hf
      · have := hrs _ f hf
        rwa [hlen, Nat.add_assoc, Nat.add_sub_cancel' (Nat.le_of_not_lt hj)] at this

/-- However the generator is polled after `open`, it has produced what was due as far as there was
room, with no wrap in the computation, and what it has returned altogether is a prefix of the one
stream of its configuration. -/
theorem polls_stream {cfg : SimConfig} {t₀ : UInt64} {ps : List Poll} (hch : cfg.ChannelEnabled)
    (htime : ∀ p ∈ ps, t₀ ≤ p.nowNs) (hfit : ∀ p ∈ ps, dueBy cfg.rate t₀ p.nowNs < 2 ^ 64) :
    (∃ rs d, ((new cfg).open t₀).polls ps = some (rs, d) ∧ Counts cfg.rate t₀ 0 ps rs ∧
      ∀ i f, (rs.flatMap Prod.fst)[i]? = some f → cfg.IsFrame i f) ∧
    ∀ p ∈ ps, ((p.nowNs - t₀) / 1000000000).toNat * cfg.rate < 2 ^ 64 ∧
      ((p.nowNs - t₀) % 1000000000).toNat * cfg.rate < 2 ^ 64 ∧
      (((new cfg).open t₀).due (p.nowNs - t₀)).toNat = dueBy cfg.rate t₀ p.nowNs := by
  constructor
  · obtain ⟨rs, d, hrun, hcounts, hrs⟩ := (streaming_open cfg t₀).polls hch htime hfit
    refine ⟨rs, d, hrun, hcounts, fun i f hf => ?_⟩
    have := hrs i f hf
    rwa [show ((new cfg).open t₀).generated.toNat = 0 from rfl, Nat.zero_add] at this
  · intro p hp
    have hfit' := hfit p hp
    rw [dueBy, ← UInt64.toNat_sub_of_le _ _ (htime p hp)] at hfit' ⊢
    exact toNat_due rfl hfit'

/-- Two channels and two frames a second. -/
def sampleConfig : SimConfig where
  rateFramesPerSec := 2
  channelMask := 5
  busType := .canfd
  dlc := 2
  idBase := 0xFFFFFFFF
  extended := false
  fd := true
  seed := 7

/-- The first call has room for one of the two frames that are due. -/
def samplePolls : List Poll := [⟨1, 1000000000, 1000000000⟩, ⟨8, 2000000000, 2000000000⟩]

theorem polls_stream_sample :
    ∃ rs d, ((new sampleConfig).open 0).polls samplePolls = some (rs, d) ∧
      rs.map (fun r => r.2.toNat) = [1, 4] ∧ rs.map (fun r => r.1.length) = [1, 3] := by
  have hch : sampleConfig.ChannelEnabled := ⟨0, by decide, by decide⟩
  have htime : ∀ p ∈ samplePolls, 0 ≤ p.nowNs := by simp [samplePolls]
  have hfit : ∀ p ∈ samplePolls, dueBy sampleConfig.rate 0 p.nowNs < 2 ^ 64 := by
    simp [samplePolls, dueBy, SimConfig.rate, sampleConfig]
  obtain ⟨⟨rs, d, hrun, hcounts, -⟩, -⟩ := polls_stream hch htime hfit
  refine ⟨rs, d, hrun, ?_⟩
  obtain ⟨fs₁, gen₁, rs₁, rfl, hgen₁, hlen₁, fs₂, gen₂, rs₂, rfl, hgen₂, hlen₂, rfl⟩ := hcounts
  have h1 : gen₁.toNat = 1 := hgen₁
  rw [h1] at hgen₂ hlen₂
  have h2 : gen₂.toNat = 4 := hgen₂
  simp [h1, h2, hlen₁, hlen₂]

/-- A configuration that leaves the rate and the seed at 0. -/
def zeroConfig : SimConfig where
  rateFramesPerSec := 0
  channelMask := 1
  busType := .canfd
  dlc := 2
  idBase := 0
  extended := false
  fd := true
  seed := 0

/-- One call, a second after `open`. -/
def onePoll : List Poll := [⟨1, 1000000000, 1000000000⟩]

/-- The device then runs at one frame a second, and its payload is not the stream of the seed 0. -/
theorem polls_zeroConfig : zeroConfig.ChannelEnabled ∧
    (∀ p ∈ onePoll, dueBy zeroConfig.rateFramesPerSec.toNat 0 p.nowNs < 2 ^ 64) ∧
    ∃ rs d, ((new zeroConfig).open 0).polls onePoll = some (rs, d) ∧
      ¬ Counts zeroConfig.rateFramesPerSec.toNat 0 0 onePoll rs ∧
      ∃ f, (rs.flatMap Prod.fst)[0]? = some f ∧
        f.data[1] ≠ xorshiftByte zeroConfig.seed (0 * f.dlc.toNat + 1) := by
  refine ⟨⟨0, by decide, by decide⟩, by simp [onePoll, dueBy, zeroConfig], _, _, rfl, ?_, _, rfl,
    ?_⟩
  · rintro ⟨fs, gen, rs', h, hgen, -⟩
    cases h
    exact absurd hgen (by decide)
  · decide

end SimUsbDevice

end BusTestPlatform

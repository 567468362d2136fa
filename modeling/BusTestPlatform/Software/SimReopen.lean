import BusTestPlatform.Software.BusFrame
import BusTestPlatform.Software.SimPeriod

/-!
# Reopening the traffic generator

`open` leaves the PRNG where it was, so the payload of the next run goes on from there. Since nine
bytes tell the state of the PRNG, the run can only be the same again if the state is.
-/

namespace BusTestPlatform

namespace SimUsbDevice

variable {cfg : SimConfig} {p q : UInt64} {d d' d₀ : SimUsbDevice} {fs : List BusFrame}
  {rs : List (List BusFrame × UInt64)} {ps : List Poll}

/-- However the two devices are polled, they return the same frames, as far as both return any. -/
def SameStream (d d₀ : SimUsbDevice) : Prop :=
  ∀ ps ps₀ : List Poll, ∃ rs e rs₀ e₀, d.polls ps = some (rs, e) ∧ d₀.polls ps₀ = some (rs₀, e₀) ∧
    ∀ (i : ℕ) (f f₀ : BusFrame), (rs.flatMap Prod.fst)[i]? = some f →
      (rs₀.flatMap Prod.fst)[i]? = some f₀ → f.untimed = f₀.untimed

/-! ### What polls return -/

lemma polls_some (h : d.cfg.ChannelEnabled) (ps : List Poll) :
    ∃ rs d', d.polls ps = some (rs, d') := by
  induction ps generalizing d with
  | nil => exact ⟨[], d, rfl⟩
  | cons p ps ih =>
    obtain ⟨fs, d₁, hread, hcfg⟩ := readFrames_some h false p.maxFrames p.nowNs p.tsNs
    obtain ⟨rs, d', hrun⟩ := ih (d := d₁) (hcfg ▸ h)
    exact ⟨(fs, d₁.generated) :: rs, d', by simp [polls, hread, hrun]⟩

/-- The frames returned are the next ones of the sequence. -/
lemma Generating.polls (h : Generating cfg p d d.generated.toNat)
    (hrun : d.polls ps = some (rs, d')) {j : ℕ} {f : BusFrame}
    (hf : (rs.flatMap Prod.fst)[j]? = some f) :
    ∃ tsNs, f = frameAt cfg p (d.generated.toNat + j) tsNs := by
  induction ps generalizing d rs j with
  | nil =>
    cases hrun
    simp at hf
  | cons poll ps ih =>
    rw [SimUsbDevice.polls, Option.bind_eq_bind, Option.bind_eq_some_iff] at hrun
    obtain ⟨⟨fs, d₁⟩, hread, hrun⟩ := hrun
    obtain ⟨⟨rs', d₂⟩, hrest, hrun⟩ := Option.bind_eq_some_iff.mp hrun
    cases hrun
    obtain ⟨hfs, hgen, h₁⟩ := h.readFrames hread
    rw [List.flatMap_cons, List.getElem?_append] at hf
    split_ifs at hf with hj
    · rw [hfs, List.getElem?_map, Option.map_eq_some_iff] at hf
      obtain ⟨j', hj', rfl⟩ := hf
      obtain ⟨-, rfl⟩ := List.getElem?_eq_some_iff.mp hj'
      exact ⟨poll.tsNs, by rw [List.getElem_range]⟩
    · obtain ⟨tsNs, hframe⟩ := ih h₁ hrest hf
      refine ⟨tsNs, ?_⟩
      rw [hframe, hgen, Nat.add_assoc, Nat.add_sub_cancel' (Nat.le_of_not_lt hj)]

/-! ### Equal and different sequences -/

/-- Without payload the PRNG does not show. -/
lemma frameAt_untimed_of (h : cfg.dlc = 0 ∨ p = q) (i : ℕ) (tsNs tsNs' : UInt64) :
    (frameAt cfg p i tsNs).untimed = (frameAt cfg q i tsNs').untimed := by
  rcases h with hdlc | rfl
  · have heff : (new cfg).cfg.dlc = 0 := by simp [new, hdlc]
    simp only [frameAt, makeNext, BusFrame.untimed, heff, UInt8.toNat_zero, fill]
    rfl
  · rfl

/-- Nine frames of the sequences tell the states apart, if there is any payload. -/
lemma eq_of_frameAt_untimed (hdlc : cfg.dlc ≠ 0) (tsNs tsNs' : UInt64)
    (h : ∀ i < 9, (frameAt cfg p i tsNs).untimed = (frameAt cfg q i tsNs').untimed) : p = q := by
  apply eq_of_xorshiftByte_eq
  intro j hj
  have hpos : 0 < (new cfg).cfg.dlc.toNat := by
    have hne : cfg.dlc.toNat ≠ 0 := fun hzero => hdlc (UInt8.toNat_inj.mp hzero)
    rw [toNat_dlc]
    exact Nat.lt_min.mpr ⟨Nat.pos_of_ne_zero hne, by decide⟩
  have hbyte := Nat.mod_lt j hpos
  have hfits : j % (new cfg).cfg.dlc.toNat < busMaxPayload := by
    refine hbyte.trans_le ?_
    rw [toNat_dlc]
    exact Nat.min_le_right ..
  -- byte `j` of the stream is in frame `j / dlc`
  have hdata := congrArg BusFrame.data (h (j / (new cfg).cfg.dlc.toNat)
    ((Nat.div_le_self ..).trans_lt hj))
  change (frameAt cfg p _ tsNs).data = (frameAt cfg q _ tsNs').data at hdata
  have hget := congrArg (fun v => v[j % (new cfg).cfg.dlc.toNat]) hdata
  rwa [frameAt_data _ _ _ _ hfits hbyte, frameAt_data _ _ _ _ hfits hbyte,
    Nat.div_add_mod'] at hget

/-- Nine seconds after `open`, with room for nine frames. -/
def ninePoll (t : UInt64) : Poll := ⟨9, t + 9000000000, 0⟩

/-- They return the first nine frames of the sequence. -/
lemma polls_ninePoll (hcfg : d.cfg = (new cfg).cfg) (t : UInt64)
    (hrun : (d.open t).polls [ninePoll t] = some (rs, d')) :
    rs.flatMap Prod.fst = (List.range 9).map fun j => frameAt cfg d.prngState j 0 := by
  rw [polls, Option.bind_eq_bind, Option.bind_eq_some_iff] at hrun
  obtain ⟨⟨fs, d₁⟩, hread, hrun⟩ := hrun
  cases hrun
  have hrate := rate_pos cfg
  have hdue : ((d.open t).due (t + 9000000000 - (d.open t).openedAtNs)).toNat = 9 * cfg.rate := by
    rw [show t + 9000000000 - (d.open t).openedAtNs = UInt64.ofNat (9 * 10 ^ 9) from
      add_sub_cancel_left t _]
    exact toNat_due_seconds hcfg (by decide)
  have hlen : fs.length = 9 := by
    rw [readFrames_length rfl hread]
    change min (((d.open t).due (t + 9000000000 - (d.open t).openedAtNs)).toNat - 0) 9 = 9
    omega
  obtain ⟨hfs, -, -⟩ := (generating_open hcfg t).readFrames hread
  rw [hlen] at hfs
  rw [List.flatMap_cons, List.flatMap_nil, List.append_nil, hfs]
  apply List.map_congr_left
  intro j _
  exact congrArg (frameAt cfg d.prngState · 0) (Nat.zero_add j)

/-! ### Reopening -/

/-- **Reopening.** After any calls, a device that is opened again sends the frames that it sent at
first exactly if it sends no payload or its PRNG happens to be in the state it was in at first: the
payload bytes so far are a multiple of the period. -/
theorem reopen_sameStream_iff (hch : cfg.HasChannel) {cs : List Call}
    (hrun : (new cfg).calls cs = some (fs, d)) (t t₀ : UInt64) :
    (SameStream (d.open t) ((new cfg).open t₀) ↔ cfg.dlc = 0 ∨ d.prngState = cfg.start) ∧
      (d.prngState = cfg.start ↔ period ∣ payloadBytes fs) := by
  refine ⟨?_, prngState_eq_start_iff hrun⟩
  obtain ⟨hcfg, -⟩ := calls_spec hrun
  have hdev : (d.open t).cfg.ChannelEnabled := by
    change d.cfg.ChannelEnabled
    rw [hcfg]
    exact hasChannel_iff.mp hch
  have hfresh : ((new cfg).open t₀).cfg.ChannelEnabled := hasChannel_iff.mp hch
  constructor
  · intro h
    by_cases hdlc : cfg.dlc = 0
    · exact Or.inl hdlc
    right
    obtain ⟨rs, e, rs₀, e₀, hpoll, hpoll₀, hsame⟩ := h [ninePoll t] [ninePoll t₀]
    rw [polls_ninePoll hcfg t hpoll, polls_ninePoll rfl t₀ hpoll₀] at hsame
    refine eq_of_frameAt_untimed hdlc 0 0 fun i hi => ?_
    apply hsame i <;> rw [List.getElem?_map, List.getElem?_range hi] <;> rfl
  · intro h ps ps₀
    obtain ⟨rs, e, hpoll⟩ := polls_some hdev ps
    obtain ⟨rs₀, e₀, hpoll₀⟩ := polls_some hfresh ps₀
    refine ⟨rs, e, rs₀, e₀, hpoll, hpoll₀, fun i f f₀ hf hf₀ => ?_⟩
    obtain ⟨tsNs, rfl⟩ := (generating_open hcfg t).polls hpoll hf
    obtain ⟨tsNs₀, rfl⟩ := (generating_open (d := new cfg) rfl t₀).polls hpoll₀ hf₀
    exact frameAt_untimed_of h _ _ _

/-- One frame is read and the device is closed. -/
def oneRead : List Call := [.open 0, .readFrames false 1 1000000000 1000000000, .close]

/-- The sample configuration with frames that have no payload. -/
def noPayload : SimConfig := { sampleConfig with dlc := 0 }

/-- After a frame of two payload bytes the stream is another one, after a frame of none the same. -/
theorem reopen_sameStream_iff_oneRead :
    (∃ fs d, (new sampleConfig).calls oneRead = some (fs, d) ∧ payloadBytes fs = 2 ∧
      ¬ SameStream (d.open 9) ((new sampleConfig).open 0)) ∧
    ∃ fs d, (new noPayload).calls oneRead = some (fs, d) ∧ fs.length = 1 ∧
      SameStream (d.open 9) ((new noPayload).open 0) := by
  have hch : sampleConfig.HasChannel := Or.inr ⟨0, by decide, by decide⟩
  have hch' : noPayload.HasChannel := Or.inr ⟨0, by decide, by decide⟩
  constructor
  · obtain ⟨hsame, hbytes⟩ :=
      reopen_sameStream_iff hch (show (new sampleConfig).calls oneRead = _ from rfl) 9 0
    refine ⟨_, _, rfl, rfl, fun h => ?_⟩
    rcases hsame.mp h with hdlc | hprng
    · exact absurd hdlc (by decide)
    · exact absurd (hbytes.mp hprng) (show ¬ period ∣ 2 by decide)
  · obtain ⟨hsame, -⟩ :=
      reopen_sameStream_iff hch' (show (new noPayload).calls oneRead = _ from rfl) 9 0
    exact ⟨_, _, rfl, rfl, hsame.mpr (Or.inl rfl)⟩

/-- One frame read before: the payload of the first frame after reopening is another one. -/
theorem reopened_stream_differs : ¬ ∀ (cfg : SimConfig) (cs : List Call) (fs : List BusFrame)
    (d : SimUsbDevice) (t t₀ : UInt64), cfg.HasChannel → (new cfg).calls cs = some (fs, d) →
      SameStream (d.open t) ((new cfg).open t₀) := by
  intro h
  have hsame := h sampleConfig [.open 0, .readFrames false 1 1000000000 1000000000] _ _ 0 0
    (Or.inr ⟨0, by decide, by decide⟩) rfl
  obtain ⟨rs, e, rs₀, e₀, hpoll, hpoll₀, hframes⟩ := hsame onePoll onePoll
  cases hpoll
  cases hpoll₀
  have hdata := congrArg (fun f => f.data[1]) (hframes 0 _ _ rfl rfl)
  exact absurd hdata (by decide)

end SimUsbDevice

end BusTestPlatform

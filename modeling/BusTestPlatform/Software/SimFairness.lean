import BusTestPlatform.Lib.Turns
import BusTestPlatform.Software.SimReopen

/-!
# The rate of a channel

`rate_frames_per_sec` is the rate of all enabled channels together. They take turns frame by frame,
and the turns go on from one call of `read_frames` to the next, so that each channel has its share
of every stretch of frames, however the calls cut the stretch up.
-/

namespace BusTestPlatform

namespace SimUsbDevice

variable {cfg : SimConfig}

/-- Whose turn it is depends on the number of the frame alone. -/
lemma frameAt_channel (hch : cfg.ChannelEnabled) (p : UInt64) (i : ℕ) (tsNs : UInt64) :
    cfg.enabledChannels[i % cfg.enabledChannels.length]? =
      some (frameAt cfg p i tsNs).channel.toNat :=
  (isFrame_frameAt hch i tsNs).channel

lemma nodup_enabledChannels (cfg : SimConfig) : cfg.enabledChannels.Nodup :=
  List.nodup_range.filter _

/-- **Each channel sends its share.** In every session, whatever calls came before its `open` and
however it is polled, each of the `k` enabled channels has `n / k` of any `n` frames in a row,
rounded down or up. -/
theorem channels_take_turns (hch : cfg.ChannelEnabled) {cs : List Call} {fs : List BusFrame}
    {d d' : SimUsbDevice} (hrun : (new cfg).calls cs = some (fs, d)) {t₀ : UInt64} {ps : List Poll}
    {rs : List (List BusFrame × UInt64)} (hpolls : (d.open t₀).polls ps = some (rs, d')) {c : ℕ}
    (hc : c ∈ cfg.enabledChannels) {m n : ℕ} (hmn : m + n ≤ (rs.flatMap Prod.fst).length) :
    let k := cfg.enabledChannels.length
    let sent := (((rs.flatMap Prod.fst).drop m).take n).countP (·.channel.toNat = c)
    n / k ≤ sent ∧ sent ≤ (n + k - 1) / k := by
  intro k sent
  obtain ⟨r, hr, hget⟩ := List.mem_iff_getElem.mp hc
  have hgen := generating_open (calls_spec hrun).1 t₀
  have hlen : (((rs.flatMap Prod.fst).drop m).take n).length = n := by
    rw [List.length_take, List.length_drop]
    omega
  have hturn : ∀ i f, (((rs.flatMap Prod.fst).drop m).take n)[i]? = some f →
      (decide (f.channel.toNat = c) = true ↔ (m + i) % k = r) := by
    intro i f hf
    have hi : i < n := hlen ▸ (List.getElem?_eq_some_iff.mp hf).1
    rw [List.getElem?_take_of_lt hi, List.getElem?_drop] at hf
    obtain ⟨tsNs, rfl⟩ := hgen.polls hpolls hf
    have hchannel := frameAt_channel hch d.prngState (m + i) tsNs
    rw [show (d.open t₀).generated.toNat = 0 from rfl, Nat.zero_add, decide_eq_true_iff]
    constructor
    · intro h
      rw [h, ← hget] at hchannel
      exact (nodup_enabledChannels cfg).getElem_inj_iff.mp
        (List.getElem?_eq_some_iff.mp hchannel).2
    · intro h
      rw [show (m + i) % cfg.enabledChannels.length = r from h, List.getElem?_eq_getElem hr,
        hget] at hchannel
      exact (Option.some.inj hchannel).symm
  have hcount : sent = n.count fun i => (m + i) % k = r :=
    (Turns.countP_eq_count hturn).trans (by rw [hlen])
  rw [hcount]
  exact Turns.count_window hr m n

/-- Four frames on two channels, in two calls: two are of channel 2. -/
theorem channels_take_turns_sample :
    ∃ rs d', ((new sampleConfig).open 0).polls samplePolls = some (rs, d') ∧
      (((rs.flatMap Prod.fst).drop 0).take 4).countP (·.channel.toNat = 2) = 2 := by
  have hch : sampleConfig.ChannelEnabled := ⟨0, by decide, by decide⟩
  have hpolls : ((new sampleConfig).open 0).polls samplePolls = some (_, _) := rfl
  have hnew : (new sampleConfig).calls [] = some (_, _) := rfl
  have hturns := channels_take_turns hch hnew hpolls (c := 2) (m := 0) (n := 4) (by decide)
    (by decide)
  exact ⟨_, _, hpolls, Nat.le_antisymm hturns.2 hturns.1⟩

end SimUsbDevice

end BusTestPlatform

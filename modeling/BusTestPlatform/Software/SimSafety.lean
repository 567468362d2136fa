import BusTestPlatform.Software.SimStream

/-!
# What `read_frames` touches

`read_frames` is written once more with a modulo that fails at zero and with accesses that fail
outside of the arrays, and does the same wherever there is a channel to send on. The constructor
takes care of the mask 0 only.
-/

namespace BusTestPlatform

namespace SimUsbDevice

/-! ### Checked accesses -/

/-- `xs[i] = x`. -/
def storeIn {α : Type*} {n : ℕ} (xs : Vector α n) (i : ℕ) (x : α) : Option (Vector α n) :=
  if i < n then some (xs.setIfInBounds i x) else none

/-- The loop that collects the enabled channels, from channel `i` on. -/
def collectChannels (mask : UInt32) (channels : Vector UInt8 busMaxChannels) (nch i : ℕ) :
    ℕ → Option (Vector UInt8 busMaxChannels × ℕ)
  | 0 => some (channels, nch)
  | n + 1 =>
    if mask &&& (1 <<< UInt32.ofNat i) ≠ 0 then do
      let channels ← storeIn channels nch (UInt8.ofNat i)
      collectChannels mask channels (nch + 1) (i + 1) n
    else collectChannels mask channels nch (i + 1) n

def fillChecked (data : Vector UInt8 busMaxPayload) (prng : UInt64) (b : ℕ) :
    ℕ → Option (Vector UInt8 busMaxPayload × UInt64)
  | 0 => some (data, prng)
  | n + 1 => do
    let prng := xorshift prng
    let data ← storeIn data b (prng >>> 56).toUInt8
    fillChecked data prng (b + 1) n

def makeFramesChecked {maxFrames : ℕ} (channels : Vector UInt8 busMaxChannels) (nch : ℕ)
    (already tsNs : UInt64) (d : SimUsbDevice) (out : Vector BusFrame maxFrames) (i : ℕ) :
    ℕ → Option (Vector BusFrame maxFrames × SimUsbDevice)
  | 0 => some (out, d)
  | n + 1 =>
    if nch = 0 then none
    else do
      let ch ← channels[(already + UInt64.ofNat i).toNat % nch]?
      let payload ← fillChecked BusFrame.zero.data d.prngState 0 d.cfg.dlc.toNat
      let out ← storeIn out i { (d.makeNext ch tsNs).1 with data := payload.1 }
      makeFramesChecked channels nch already tsNs
        { (d.makeNext ch tsNs).2 with prngState := payload.2 } out (i + 1) n

/-- `read_frames` with checked accesses. `channels` is what the local array holds at first, and
`out`, if it is not null, has room for `maxFrames`. -/
def readFramesChecked (d : SimUsbDevice) {maxFrames : ℕ} (out : Option (Vector BusFrame maxFrames))
    (channels : Vector UInt8 busMaxChannels) (nowNs tsNs : UInt64) :
    Option (ℕ × Option (Vector BusFrame maxFrames) × SimUsbDevice) :=
  match out with
  | none => some (0, none, d)
  | some buf =>
    if d.isOpen = false ∨ maxFrames = 0 then some (0, some buf, d)
    else
      let due := d.due (nowNs - d.openedAtNs)
      let already := d.generated
      if due ≤ already then some (0, some buf, d)
      else do
        let count := min (due - already).toNat maxFrames
        let (channels, nch) ← collectChannels d.cfg.channelMask channels 0 0 busMaxChannels
        let (buf, d) ← makeFramesChecked channels nch already tsNs d buf 0 count
        return (count, some buf, { d with generated := d.generated + UInt64.ofNat count })

/-- The call divides by no zero and stays inside of the arrays, and returns at most `maxFrames`
frames, each on an enabled channel and with a payload that fits. -/
def ReadsSafely (d : SimUsbDevice) {maxFrames : ℕ} (out : Option (Vector BusFrame maxFrames))
    (channels : Vector UInt8 busMaxChannels) (nowNs tsNs : UInt64) : Prop :=
  ∃ count out' d', d.readFramesChecked out channels nowNs tsNs = some (count, out', d') ∧
    count ≤ maxFrames ∧
    ∀ buf, out' = some buf → ∀ i < count, ∀ f, buf[i]? = some f →
      f.channel.toNat < busMaxChannels ∧
        d.cfg.channelMask &&& (1 <<< f.channel.toUInt32) ≠ 0 ∧ f.dlc.toNat ≤ busMaxPayload

/-! ### The checks hold -/

lemma storeIn_of_lt {α : Type*} {n i : ℕ} (xs : Vector α n) (h : i < n) (x : α) :
    storeIn xs i x = some (xs.setIfInBounds i x) :=
  if_pos h

lemma fillChecked_eq {data : Vector UInt8 busMaxPayload} {prng : UInt64} {b n : ℕ}
    (h : b + n ≤ busMaxPayload) : fillChecked data prng b n = some (fill data prng b n) := by
  induction n generalizing data prng b with
  | zero => rfl
  | succ n ih =>
    have hb : b < busMaxPayload := by omega
    rw [fillChecked, storeIn_of_lt data hb, Option.bind_eq_bind, Option.bind_some, ih (by omega),
      fill]

lemma take_store {α : Type*} {n i : ℕ} (xs : Vector α n) (h : i < n) (x : α) :
    (xs.setIfInBounds i x).toList.take (i + 1) = xs.toList.take i ++ [x] := by
  rw [Vector.toList_setIfInBounds, List.take_succ_eq_append_getElem (by simpa using h),
    List.take_set_of_le le_rfl, List.getElem_set_self]

/-- The channels collected are the enabled ones, in order. -/
lemma collectChannels_spec {mask : UInt32} {channels : Vector UInt8 busMaxChannels} {nch i n : ℕ}
    (hnch : nch ≤ i) (hn : i + n ≤ busMaxChannels) :
    ∃ channels' nch', collectChannels mask channels nch i n = some (channels', nch') ∧
      nch' ≤ i + n ∧ channels'.toList.take nch' = channels.toList.take nch ++
        ((List.range' i n).filter fun i => mask &&& (1 <<< UInt32.ofNat i) ≠ 0).map
          UInt8.ofNat := by
  induction n generalizing channels nch i with
  | zero => exact ⟨channels, nch, rfl, hnch, by simp⟩
  | succ n ih =>
    rw [collectChannels]
    by_cases hbit : mask &&& (1 <<< UInt32.ofNat i) ≠ 0
    · have hlt : nch < busMaxChannels := by omega
      rw [if_pos hbit, storeIn_of_lt channels hlt]
      obtain ⟨channels', nch', hrun, hle, htake⟩ :=
        ih (Nat.succ_le_succ hnch) (by omega)
      refine ⟨channels', nch', hrun, by omega, ?_⟩
      rw [htake, take_store channels hlt, List.range'_succ,
        List.filter_cons_of_pos (by simpa using hbit), List.map_cons, List.append_assoc]
      rfl
    · rw [if_neg hbit]
      obtain ⟨channels', nch', hrun, hle, htake⟩ := ih (Nat.le_succ_of_le hnch) (by omega)
      refine ⟨channels', nch', hrun, by omega, ?_⟩
      rw [htake, List.range'_succ, List.filter_cons_of_neg (by simpa using hbit)]

/-- What the loop leaves in the array is the list of the enabled channels. -/
lemma collectChannels_eq (d : SimUsbDevice) (channels : Vector UInt8 busMaxChannels) :
    ∃ channels', collectChannels d.cfg.channelMask channels 0 0 busMaxChannels =
        some (channels', d.channels.length) ∧
      ∀ j < d.channels.length, channels'[j]? = d.channels[j]? := by
  obtain ⟨channels', nch, hrun, hle, htake⟩ : ∃ channels' nch',
      collectChannels d.cfg.channelMask channels 0 0 busMaxChannels = some (channels', nch') ∧ _ :=
    collectChannels_spec le_rfl (Nat.zero_add busMaxChannels).le
  rw [← List.range_eq_range', List.take_zero, List.nil_append] at htake
  have hlist : channels'.toList.take nch = d.channels := htake
  have hnch : d.channels.length = nch := by
    rw [← hlist, List.length_take, Vector.length_toList]
    omega
  rw [hnch]
  refine ⟨channels', hrun, fun j hj => ?_⟩
  rw [← hlist, List.getElem?_take_of_lt hj, Vector.getElem?_toList]

/-- The loop over the frames writes those that the unchecked one returns. -/
lemma makeFramesChecked_eq {already tsNs : UInt64} {d d' : SimUsbDevice} {fs : List BusFrame}
    {maxFrames i n : ℕ} {channels : Vector UInt8 busMaxChannels}
    (hrun : makeFrames already tsNs d i n = some (fs, d'))
    (hdlc : d.cfg.dlc.toNat ≤ busMaxPayload)
    (hch : ∀ j < d.channels.length, channels[j]? = d.channels[j]?) (hfit : i + n ≤ maxFrames)
    (out : Vector BusFrame maxFrames) :
    ∃ out', makeFramesChecked channels d.channels.length already tsNs d out i n =
        some (out', d') ∧ (∀ k < i, out'[k]? = out[k]?) ∧
      ∀ j f, fs[j]? = some f → out'[i + j]? = some f := by
  induction n generalizing d i fs out with
  | zero =>
    cases hrun
    exact ⟨out, rfl, fun _ _ => rfl, by simp⟩
  | succ n ih =>
    obtain ⟨ch, fs', hget, hrest, rfl⟩ := makeFrames_succ_iff.mp hrun
    have hpos : d.channels.length ≠ 0 := by
      intro hzero
      rw [List.length_eq_zero_iff.mp hzero] at hget
      cases hget
    have hi : i < maxFrames := by omega
    have hmod : (already + UInt64.ofNat i).toNat % d.channels.length < d.channels.length :=
      Nat.mod_lt _ (Nat.pos_of_ne_zero hpos)
    obtain ⟨out', hmake, hbefore, hafter⟩ :=
      ih hrest hdlc hch (by omega) (out.setIfInBounds i (d.makeNext ch tsNs).1)
    refine ⟨out', ?_, fun k hk => ?_, ?_⟩
    · rw [makeFramesChecked, if_neg hpos, hch _ hmod, hget, Option.bind_eq_bind, Option.bind_some,
        fillChecked_eq (by omega), Option.bind_eq_bind, Option.bind_some, storeIn_of_lt out hi]
      exact hmake
    · rw [hbefore k (Nat.lt_succ_of_lt hk), Vector.getElem?_setIfInBounds_ne hk.ne']
    · rintro (_ | j) f hf
      · cases hf
        rw [Nat.add_zero, hbefore i (Nat.lt_succ_self i),
          Vector.getElem?_setIfInBounds_self_of_lt hi]
      · rw [← hafter j f hf]
        congr 1
        omega

section

variable {d d' : SimUsbDevice} {maxFrames : ℕ} {nowNs : UInt64} (out : Vector BusFrame maxFrames)
  (channels : Vector UInt8 busMaxChannels) (tsNs : UInt64)

lemma readFramesChecked_of_idle (h : d.Idle false maxFrames nowNs) :
    d.readFramesChecked (some out) channels nowNs tsNs = some (0, some out, d) := by
  simp only [Idle, Bool.false_eq_true, false_or] at h
  rw [readFramesChecked]
  rcases h with hclosed | hdue
  · rw [if_pos hclosed]
  · split_ifs
    · rfl
    · exact if_pos hdue

lemma readFramesChecked_of_not_idle (h : ¬ d.Idle false maxFrames nowNs) :
    d.readFramesChecked (some out) channels nowNs tsNs =
      (collectChannels d.cfg.channelMask channels 0 0 busMaxChannels).bind fun c =>
        (makeFramesChecked c.1 c.2 d.generated tsNs d out 0 (d.count maxFrames nowNs)).map fun r =>
          (d.count maxFrames nowNs, some r.1,
            { r.2 with generated := r.2.generated + UInt64.ofNat (d.count maxFrames nowNs) }) := by
  simp only [Idle, Bool.false_eq_true, false_or, not_or] at h
  rw [readFramesChecked, if_neg (not_or.mpr h.1)]
  simp only [Option.map_eq_bind]
  exact if_neg h.2

/-- The checked call returns what the unchecked one does, in the first entries of `out`. -/
lemma readFramesChecked_eq {fs : List BusFrame} {tsNs : UInt64}
    (hrun : d.readFrames false maxFrames nowNs tsNs = some (fs, d'))
    (hdlc : d.cfg.dlc.toNat ≤ busMaxPayload) :
    ∃ out', d.readFramesChecked (some out) channels nowNs tsNs = some (fs.length, some out', d') ∧
      ∀ (j : ℕ) (f : BusFrame), fs[j]? = some f → out'[j]? = some f := by
  by_cases hidle : d.Idle false maxFrames nowNs
  · rw [readFrames_of_idle hidle] at hrun
    cases hrun
    exact ⟨out, readFramesChecked_of_idle out channels tsNs hidle, by simp⟩
  · rw [readFrames_of_not_idle hidle, Option.map_eq_some_iff] at hrun
    obtain ⟨⟨fs', d''⟩, hmake, hrun⟩ := hrun
    cases hrun
    obtain ⟨channels', hcollect, hch⟩ := collectChannels_eq d channels
    obtain ⟨out', hchecked, -, hfs⟩ := makeFramesChecked_eq hmake hdlc hch
      ((Nat.zero_add _).trans_le (Nat.min_le_right ..)) out
    refine ⟨out', ?_, fun j f hf => by simpa using hfs j f hf⟩
    rw [readFramesChecked_of_not_idle out channels tsNs hidle, hcollect, Option.bind_some, hchecked,
      (makeFrames_spec hmake).1]
    rfl

/-- Without a channel to send on, the first frame that is due divides by zero. -/
lemma readFramesChecked_eq_none (hnil : d.channels = []) (hidle : ¬ d.Idle false maxFrames nowNs) :
    d.readFramesChecked (some out) channels nowNs tsNs = none := by
  obtain ⟨channels', hcollect, -⟩ := collectChannels_eq d channels
  obtain ⟨n, hn⟩ : ∃ n, d.count maxFrames nowNs = n + 1 := by
    have hcount := count_eq hidle
    simp only [Idle, not_or, UInt64.not_le, UInt64.lt_iff_toNat_lt] at hidle
    exact Nat.exists_eq_succ_of_ne_zero (by omega)
  rw [readFramesChecked_of_not_idle out channels tsNs hidle, hcollect, Option.bind_some, hn, hnil,
    List.length_nil, makeFramesChecked, if_pos rfl, Option.map_none]

end

/-! ### The frames returned -/

lemma frameAt_channel_mem {cfg : SimConfig} (hch : cfg.HasChannel) (p : UInt64) (i : ℕ)
    (tsNs : UInt64) : (frameAt cfg p i tsNs).channel ∈ (new cfg).channels := by
  change (new cfg).channels[i % (new cfg).channels.length]?.getD 0 ∈ _
  have hpos : 0 < (new cfg).channels.length :=
    List.length_pos_iff.mpr (channels_ne_nil (hasChannel_iff.mp hch))
  rw [List.getElem?_eq_getElem (Nat.mod_lt _ hpos), Option.getD_some]
  exact List.getElem_mem _

lemma toUInt32_ofNat : ∀ i < busMaxChannels, (UInt8.ofNat i).toUInt32 = UInt32.ofNat i := by
  decide

/-- The channels of the list are those of the mask. -/
lemma enabled_of_mem_channels {d : SimUsbDevice} {ch : UInt8} (h : ch ∈ d.channels) :
    ch.toNat < busMaxChannels ∧ d.cfg.channelMask &&& (1 <<< ch.toUInt32) ≠ 0 := by
  obtain ⟨i, hi, rfl⟩ := List.mem_map.mp h
  obtain ⟨hlt, hbit⟩ := List.mem_filter.mp hi
  rw [List.mem_range] at hlt
  rw [UInt8.toNat_ofNat_of_lt' (hlt.trans (by decide)), toUInt32_ofNat i hlt]
  exact ⟨hlt, by simpa using hbit⟩

lemma readsSafely_of_hasChannel {cfg : SimConfig} (hch : cfg.HasChannel) {cs : List Call}
    {fs : List BusFrame} {d : SimUsbDevice} (hrun : (new cfg).calls cs = some (fs, d))
    {maxFrames : ℕ} (out : Option (Vector BusFrame maxFrames))
    (channels : Vector UInt8 busMaxChannels) (nowNs tsNs : UInt64) :
    d.ReadsSafely out channels nowNs tsNs := by
  obtain ⟨⟨p, hd⟩, -⟩ := (generating_new cfg).calls hrun
  have hdlc : d.cfg.dlc.toNat ≤ busMaxPayload := by
    rw [hd.config, toNat_dlc]
    exact Nat.min_le_right ..
  have henabled : d.cfg.ChannelEnabled := by
    rw [hd.config]
    exact hasChannel_iff.mp hch
  cases out with
  | none => exact ⟨0, none, d, rfl, Nat.zero_le _, by simp⟩
  | some buf =>
    obtain ⟨fs', d', hread, -⟩ := readFrames_some henabled false maxFrames nowNs tsNs
    obtain ⟨out', hchecked, hout⟩ := readFramesChecked_eq buf channels hread hdlc
    obtain ⟨hfs, -, -⟩ := hd.readFrames hread
    refine ⟨fs'.length, some out', d', hchecked, (readFrames_spec hread).1, ?_⟩
    rintro _ ⟨⟩ i hi f hf
    have hframe : f = frameAt cfg p (d.generated.toNat + i) tsNs := by
      have hget : fs'[i]? = some (frameAt cfg p (d.generated.toNat + i) tsNs) := by
        rw [hfs, List.getElem?_map, List.getElem?_range hi]
        rfl
      rw [hout i _ hget] at hf
      exact (Option.some.inj hf).symm
    have hmem := frameAt_channel_mem hch p (d.generated.toNat + i) tsNs
    rw [← hframe, ← hd.channels] at hmem
    obtain ⟨hlt, hbit⟩ := enabled_of_mem_channels hmem
    refine ⟨hlt, hbit, ?_⟩
    rw [hframe, frameAt_dlc, ← hd.config]
    exact hdlc

lemma channels_eq_nil {cfg : SimConfig} (hch : ¬ cfg.HasChannel) : (new cfg).channels = [] := by
  rw [hasChannel_iff, SimConfig.ChannelEnabled] at hch
  rw [SimUsbDevice.channels, List.map_eq_nil_iff, List.filter_eq_nil_iff]
  intro i hi hbit
  exact hch ⟨i, List.mem_range.mp hi, of_decide_eq_true hbit⟩

/-- A second after `open` a frame is due. -/
lemma not_idle_second (cfg : SimConfig) :
    ¬ ((new cfg).open 0).Idle false 1 (UInt64.ofNat (1 * 10 ^ 9)) := by
  have hdue : (((new cfg).open 0).due (UInt64.ofNat (1 * 10 ^ 9))).toNat = 1 * cfg.rate :=
    toNat_due_seconds rfl (by decide)
  rintro (hclosed | hdone)
  · simp [SimUsbDevice.open] at hclosed
  · change ((new cfg).open 0).due (UInt64.ofNat (1 * 10 ^ 9) - 0) ≤ 0 at hdone
    rw [UInt64.sub_zero, UInt64.le_iff_toNat_le, hdue, Nat.one_mul] at hdone
    exact absurd hdone (Nat.not_le.mpr (rate_pos cfg))

/-- **Safety.** Every call of `read_frames` is safe, whatever has been called before, exactly if the
mask is 0 or enables one of the channels 0..7. -/
theorem readsSafely_iff (cfg : SimConfig) :
    (∀ (cs : List Call) (fs : List BusFrame) (d : SimUsbDevice), (new cfg).calls cs = some (fs, d) →
      ∀ (maxFrames : ℕ) (out : Option (Vector BusFrame maxFrames))
        (channels : Vector UInt8 busMaxChannels) (nowNs tsNs : UInt64),
        d.ReadsSafely out channels nowNs tsNs) ↔ cfg.HasChannel := by
  constructor
  · intro h
    by_contra hch
    obtain ⟨count, out', d', hrun, -⟩ := h [.open 0] [] ((new cfg).open 0) rfl 1
      (some #v[BusFrame.zero]) (Vector.replicate _ 0) (UInt64.ofNat (1 * 10 ^ 9)) 0
    have hnil : ((new cfg).open 0).channels = [] := channels_eq_nil hch
    rw [readFramesChecked_eq_none _ _ _ hnil (not_idle_second cfg)] at hrun
    cases hrun
  · intro hch cs fs d hrun maxFrames out channels nowNs tsNs
    exact readsSafely_of_hasChannel hch hrun out channels nowNs tsNs

/-- Channel 8 does not exist. The constructor keeps the mask, and the loop finds no channel. -/
theorem high_mask_divides_by_zero :
    ¬ ((new { sampleConfig with channelMask := 0x100 }).open 0).ReadsSafely
      (some #v[BusFrame.zero]) (Vector.replicate _ 0) 1000000000 1000000000 := by
  rintro ⟨count, out', d', hrun, -⟩
  have hnone : ((new { sampleConfig with channelMask := 0x100 }).open 0).readFramesChecked
      (some #v[BusFrame.zero]) (Vector.replicate _ 0) 1000000000 1000000000 = none :=
    readFramesChecked_eq_none _ _ _ (by decide) (not_idle_second _)
  rw [hnone] at hrun
  cases hrun

end SimUsbDevice

end BusTestPlatform

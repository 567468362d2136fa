import BusTestPlatform.Shared.BusTypes

/-!
# Frames as memory holds them

A frame that is copied in as bytes is whatever the bytes say: an enum member is a number, which need
not be one of its constants.
-/

namespace BusTestPlatform

open Bytes Layout

/-- `bt_bus_frame_t` with the enums as numbers. -/
structure RawFrame where
  timestampNs100 : UInt64
  type : ℕ
  channel : UInt8
  dir : ℕ
  id : UInt32
  extended : UInt8
  fd : UInt8
  dlc : UInt8
  data : Vector UInt8 busMaxPayload
  status : ℕ
deriving DecidableEq

/-- The offsets of the members, which are those of every frame. -/
def Abi.offsets (abi : Abi) : List ℕ := Layout.offsets (BusFrame.zero.members abi)

lemma Abi.offsets_x8664 : Abi.x8664.offsets = [0, 8, 12, 16, 20, 24, 25, 26, 27, 92] := rfl

namespace RawFrame

/-- The frame at `base`. -/
def read (abi : Abi) (m : Mem) (base : ℕ) : RawFrame :=
  let offset (k : ℕ) := base + abi.offsets.getD k 0
  { timestampNs100 := UInt64.ofNat (ofLe (load m (offset 0) 8))
    type := ofLe (load m (offset 1) abi.enumSize)
    channel := m (offset 2)
    dir := ofLe (load m (offset 3) abi.enumSize)
    id := UInt32.ofNat (ofLe (load m (offset 4) 4))
    extended := m (offset 5)
    fd := m (offset 6)
    dlc := m (offset 7)
    data := Vector.ofFn fun i => m (offset 8 + i.val)
    status := ofLe (load m (offset 9) abi.enumSize) }

/-- The frame with its enums as numbers. -/
def ofFrame (f : BusFrame) : RawFrame where
  timestampNs100 := f.timestampNs100
  type := f.type.code
  channel := f.channel
  dir := f.dir.code
  id := f.id
  extended := f.extended
  fd := f.fd
  dlc := f.dlc
  data := f.data
  status := f.status.code

lemma offsets_members (abi : Abi) (f : BusFrame) :
    Layout.offsets (f.members abi) = abi.offsets := by
  simp [Abi.offsets, Layout.offsets, offsetsFrom, BusFrame.members, BusFrame.word]

lemma apply_of_hasBytes_word {m : Mem} {off : ℕ} {b : UInt8}
    (h : HasBytes m off (leBytes 1 b.toNat)) : m off = b := by
  have := (hasBytes_cons.mp h).1
  rwa [UInt8.ofNat_toNat] at this

/-- What is stored as a frame is read as that frame. -/
theorem read_of_heldAt {abi : Abi} {m : Mem} {base : ℕ} {f : BusFrame}
    (h : BusFrame.HeldAt abi m base f) : read abi m base = ofFrame f := by
  have henum : 256 ≤ 256 ^ abi.enumSize := Nat.le_self_pow abi.enumSize_pos.ne' 256
  rw [BusFrame.HeldAt, Holds, holdsFrom_iff, ← Layout.offsets, offsets_members] at h
  simp only [BusFrame.members, BusFrame.word, List.forall₂_cons_right_iff,
    List.forall₂_nil_right_iff] at h
  obtain ⟨_, _, hts, ⟨_, _, htype, ⟨_, _, hch, ⟨_, _, hdir, ⟨_, _, hid, ⟨_, _, hext, ⟨_, _, hfd,
    ⟨_, _, hdlc, ⟨_, _, hdata, ⟨_, _, hst, rfl, rfl⟩, rfl⟩, rfl⟩, rfl⟩, rfl⟩, rfl⟩, rfl⟩, rfl⟩,
    rfl⟩, hoffsets⟩ := h
  simp only [read, hoffsets, ofFrame, mk.injEq, List.getD_cons_zero, List.getD_cons_succ]
  refine ⟨?_, ?_, ?_, ?_, ?_, ?_, ?_, ?_, ?_, ?_⟩
  · rw [ofLe_load hts f.timestampNs100.toNat_lt, UInt64.ofNat_toNat]
  · exact ofLe_load htype (f.type.code_lt.trans_le henum)
  · exact apply_of_hasBytes_word hch
  · exact ofLe_load hdir (f.dir.code_lt.trans_le henum)
  · rw [ofLe_load hid f.id.toNat_lt, UInt32.ofNat_toNat]
  · exact apply_of_hasBytes_word hext
  · exact apply_of_hasBytes_word hfd
  · exact apply_of_hasBytes_word hdlc
  · refine Vector.ext fun i hi => ?_
    rw [Vector.getElem_ofFn]
    exact hdata.apply_add (by simpa using hi)
  · exact ofLe_load hst (f.status.code_lt.trans_le henum)

end RawFrame

end BusTestPlatform

import BusTestPlatform.Lib.Layout

/-!
# `bus_types.h`

The frame that firmware and host share, as a value and as bytes. The header fixes the members and
their order; how wide an enum is, and with it every later offset and the size of the frame, is the
choice of the compiler that builds each side, its `Abi`.
-/

namespace BusTestPlatform

open Bytes Layout

/-- `bt_bus_type_t`. -/
inductive BusType
  | unknown | can | canfd | canxl | lin
deriving DecidableEq, Repr

/-- `bt_bus_direction_t`. -/
inductive BusDirection
  | rx | tx
deriving DecidableEq, Repr

/-- `bt_frame_status_t`. -/
inductive FrameStatus
  | ok | error | overrun
deriving DecidableEq, Repr

def BusType.code : BusType → ℕ
  | unknown => 0
  | can => 1
  | canfd => 2
  | canxl => 3
  | lin => 4

def BusDirection.code : BusDirection → ℕ
  | rx => 0
  | tx => 1

def FrameStatus.code : FrameStatus → ℕ
  | ok => 0
  | error => 1
  | overrun => 2

lemma BusType.code_lt (t : BusType) : t.code < 256 := by cases t <;> decide
lemma BusDirection.code_lt (d : BusDirection) : d.code < 256 := by cases d <;> decide
lemma FrameStatus.code_lt (s : FrameStatus) : s.code < 256 := by cases s <;> decide

lemma BusType.code_injective : Function.Injective BusType.code := by
  intro a b h
  cases a <;> cases b <;> first | rfl | cases h

lemma BusDirection.code_injective : Function.Injective BusDirection.code := by
  intro a b h
  cases a <;> cases b <;> first | rfl | cases h

lemma FrameStatus.code_injective : Function.Injective FrameStatus.code := by
  intro a b h
  cases a <;> cases b <;> first | rfl | cases h

/-- `BT_BUS_MAX_PAYLOAD`. -/
def busMaxPayload : ℕ := 64

/-- `BT_BUS_MAX_CHANNELS`. -/
def busMaxChannels : ℕ := 8

/-- `bt_bus_frame_t`, and `BusFrame` on the host. -/
structure BusFrame where
  timestampNs100 : UInt64
  type : BusType
  channel : UInt8
  dir : BusDirection
  id : UInt32
  extended : UInt8
  fd : UInt8
  dlc : UInt8
  data : Vector UInt8 busMaxPayload
  status : FrameStatus
deriving DecidableEq

/-- How a compiler lays out the shared header: the size of its enums. All other members have the
same size everywhere, and every member is aligned to its size. -/
structure Abi where
  enumSize : ℕ
  isSize : enumSize = 1 ∨ enumSize = 2 ∨ enumSize = 4

/-- The bare-metal AAPCS default of `arm-none-eabi-gcc`: the smallest integer that fits. -/
def Abi.stm32 : Abi where
  enumSize := 1
  isSize := Or.inl rfl

/-- The host compilers: `unsigned int`. -/
def Abi.x8664 : Abi where
  enumSize := 4
  isSize := Or.inr (Or.inr rfl)

lemma Abi.enumSize_pos (abi : Abi) : 0 < abi.enumSize := by
  rcases abi.isSize with h | h | h <;> rw [h] <;> decide

namespace BusFrame

/-- `BusFrame f{}`. -/
def zero : BusFrame where
  timestampNs100 := 0
  type := .unknown
  channel := 0
  dir := .rx
  id := 0
  extended := 0
  fd := 0
  dlc := 0
  data := Vector.replicate busMaxPayload 0
  status := .ok

/-- A member of an unsigned integer type of `w` bytes. -/
def word (w n : ℕ) : Member := ⟨w, leBytes w n⟩

/-- The members of a frame in the order of the header. The frame is not `BT_PACKED`. -/
def members (abi : Abi) (f : BusFrame) : List Member :=
  [word 8 f.timestampNs100.toNat,
   word abi.enumSize f.type.code,
   word 1 f.channel.toNat,
   word abi.enumSize f.dir.code,
   word 4 f.id.toNat,
   word 1 f.extended.toNat,
   word 1 f.fd.toNat,
   word 1 f.dlc.toNat,
   ⟨1, f.data.toList⟩,
   word abi.enumSize f.status.code]

end BusFrame

/-- `sizeof(bt_bus_frame_t)`: every frame has the size of the zero-initialised one. -/
def Abi.sizeofFrame (abi : Abi) : ℕ := sizeofStruct (BusFrame.zero.members abi)

lemma Abi.sizeofFrame_stm32 : Abi.stm32.sizeofFrame = 88 := rfl
lemma Abi.sizeofFrame_x8664 : Abi.x8664.sizeofFrame = 96 := rfl

lemma Abi.sizeofFrame_range (abi : Abi) : 0 < abi.sizeofFrame ∧ abi.sizeofFrame ≤ 96 := by
  obtain ⟨e, rfl | rfl | rfl⟩ := abi <;> decide

namespace BusFrame

variable (abi : Abi)

lemma align_pos (f : BusFrame) : ∀ x ∈ f.members abi, 0 < x.align := by
  have he := abi.enumSize_pos
  simp [members, word, he]

lemma sizeofStruct_members (f : BusFrame) : sizeofStruct (f.members abi) = abi.sizeofFrame := by
  simp [Abi.sizeofFrame, sizeofStruct, members, word, endOf, maxAlign]

/-- The frame is stored at `base`. -/
def HeldAt (m : Mem) (base : ℕ) (f : BusFrame) : Prop := Holds m base (f.members abi)

/-- The frames are stored one after the other, as a C array. -/
def ArrayAt (m : Mem) (base : ℕ) : List BusFrame → Prop
  | [] => True
  | f :: fs => HeldAt abi m base f ∧ ArrayAt m (base + abi.sizeofFrame) fs

/-- The bytes of a frame, padding 0. -/
def image (f : BusFrame) : List UInt8 := Layout.image (f.members abi)

lemma length_image (f : BusFrame) : (f.image abi).length = abi.sizeofFrame := by
  rw [image, Layout.length_image (f.align_pos abi), sizeofStruct_members]

variable {abi}

/-- What is stored determines every member of the frame. -/
lemma HeldAt.unique {m : Mem} {base : ℕ} {f g : BusFrame} (hf : HeldAt abi m base f)
    (hg : HeldAt abi m base g) : f = g := by
  have hshape : List.Forall₂
      (fun x y => x.align = y.align ∧ x.bytes.length = y.bytes.length)
      (f.members abi) (g.members abi) := by
    simp [members, word]
  have hbytes := HoldsFrom.bytes_eq hshape hf hg
  simp only [members, word, List.map_cons, List.map_nil, List.cons.injEq, and_true] at hbytes
  obtain ⟨hts, htype, hch, hdir, hid, hext, hfd, hdlc, hdata, hst⟩ := hbytes
  have henum : 256 ≤ 256 ^ abi.enumSize := Nat.le_self_pow abi.enumSize_pos.ne' 256
  cases f
  cases g
  simp only [mk.injEq]
  refine ⟨?_, ?_, ?_, ?_, ?_, ?_, ?_, ?_, ?_, ?_⟩
  · exact UInt64.toNat_inj.mp (leBytes_inj (UInt64.toNat_lt _) (UInt64.toNat_lt _) hts)
  · exact BusType.code_injective (leBytes_inj ((BusType.code_lt _).trans_le henum)
      ((BusType.code_lt _).trans_le henum) htype)
  · exact UInt8.toNat_inj.mp (leBytes_inj (UInt8.toNat_lt _) (UInt8.toNat_lt _) hch)
  · exact BusDirection.code_injective (leBytes_inj ((BusDirection.code_lt _).trans_le henum)
      ((BusDirection.code_lt _).trans_le henum) hdir)
  · exact UInt32.toNat_inj.mp (leBytes_inj (UInt32.toNat_lt _) (UInt32.toNat_lt _) hid)
  · exact UInt8.toNat_inj.mp (leBytes_inj (UInt8.toNat_lt _) (UInt8.toNat_lt _) hext)
  · exact UInt8.toNat_inj.mp (leBytes_inj (UInt8.toNat_lt _) (UInt8.toNat_lt _) hfd)
  · exact UInt8.toNat_inj.mp (leBytes_inj (UInt8.toNat_lt _) (UInt8.toNat_lt _) hdlc)
  · exact Vector.toList_inj.mp hdata
  · exact FrameStatus.code_injective (leBytes_inj ((FrameStatus.code_lt _).trans_le henum)
      ((FrameStatus.code_lt _).trans_le henum) hst)

lemma heldAt_of_image {m : Mem} {base : ℕ} {f : BusFrame} (h : HasBytes m base (f.image abi)) :
    HeldAt abi m base f :=
  holds_of_image (f.align_pos abi) h

/-- Frames with the same bytes are equal. -/
lemma image_injective : Function.Injective (image abi) := by
  intro f g h
  have hf : HeldAt abi (store (fun _ => 0) 0 (f.image abi)) 0 f :=
    heldAt_of_image (hasBytes_store _ _ _)
  have hg : HeldAt abi (store (fun _ => 0) 0 (g.image abi)) 0 g :=
    heldAt_of_image (hasBytes_store _ _ _)
  rw [← h] at hg
  exact hf.unique hg

/-- An array depends on its own bytes only, so a copy of the bytes is a copy of the frames. -/
lemma ArrayAt.transfer {m m' : Mem} {base base' : ℕ} {fs : List BusFrame}
    (hm : ∀ i < fs.length * abi.sizeofFrame, m' (base' + i) = m (base + i))
    (h : ArrayAt abi m base fs) : ArrayAt abi m' base' fs := by
  induction fs generalizing base base' with
  | nil => trivial
  | cons f fs ih =>
    obtain ⟨hhead, htail⟩ := h
    rw [List.length_cons, Nat.succ_mul] at hm
    constructor
    · refine Holds.transfer (f.align_pos abi) (fun i hi => hm i ?_) hhead
      rw [sizeofStruct_members] at hi
      omega
    · refine ih (fun i hi => ?_) htail
      rw [Nat.add_assoc, Nat.add_assoc]
      exact hm _ (by omega)

lemma arrayAt_of_images {m : Mem} {base : ℕ} {fs : List BusFrame}
    (h : HasBytes m base (fs.flatMap (image abi))) : ArrayAt abi m base fs := by
  induction fs generalizing base with
  | nil => trivial
  | cons f fs ih =>
    rw [List.flatMap_cons, hasBytes_append, length_image] at h
    exact ⟨heldAt_of_image h.1, ih h.2⟩

end BusFrame

end BusTestPlatform

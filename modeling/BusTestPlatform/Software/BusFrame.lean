import BusTestPlatform.Lib.Text
import BusTestPlatform.Shared.RawFrame

/-!
# `bus_frame.cpp`

A read of `data` outside its array is `none`.
-/

namespace BusTestPlatform

open Bytes Text

/-- `make_frame`. `data` is the memory the pointer points to, `none` the null pointer. -/
def makeFrame (type : BusType) (channel : UInt8) (dir : BusDirection) (id : UInt32)
    (extended fd : Bool) (dlc : UInt8) (data : Option Mem) (timestampNs100 : UInt64) : BusFrame :=
  let dlc := if busMaxPayload < dlc.toNat then UInt8.ofNat busMaxPayload else dlc
  { timestampNs100 := timestampNs100
    type := type
    channel := channel
    dir := dir
    id := id
    extended := if extended then 1 else 0
    fd := if fd then 1 else 0
    dlc := dlc
    data := match data with
      | some src => Vector.ofFn fun i => if i.val < dlc.toNat then src i.val else 0
      | none => BusFrame.zero.data
    status := .ok }

/-- `timestamp_ns`. -/
def timestampNs (f : RawFrame) : UInt64 := f.timestampNs100 * 100

/-- A frame apart from its time. -/
def BusFrame.untimed (f : BusFrame) : BusFrame := { f with timestampNs100 := 0 }

/-- `bt_bus_type_str`. -/
def busTypeStr (type : ℕ) : List Char :=
  if type = BusType.can.code then "CAN".toList
  else if type = BusType.canfd.code then "CANFD".toList
  else if type = BusType.canxl.code then "CANXL".toList
  else if type = BusType.lin.code then "LIN".toList
  else "UNKNOWN".toList

/-- The loop over the payload from byte `i` on, for as many rounds as the last argument says. -/
def payloadText (data : Vector UInt8 busMaxPayload) (i : ℕ) : ℕ → Option (List Char)
  | 0 => some []
  | n + 1 => do
    let b ← data[i]?
    let rest ← payloadText data (i + 1) n
    return zeroPad 2 (hex b.toNat) ++ ' ' :: rest

/-- `frame_to_string`. The text before the payload always fits into `buf`. -/
def frameToString (f : RawFrame) : Option (List Char) := do
  let ns := (timestampNs f).toNat
  let payload ← payloadText f.data 0 f.dlc.toNat
  return "[".toList ++ decimal (ns / 1000) ++ ".".toList ++ zeroPad 3 (decimal (ns % 1000)) ++
    " us] ".toList ++ busTypeStr f.type ++ " ch".toList ++ decimal f.channel.toNat ++
    (if f.dir = BusDirection.rx.code then " RX".toList else " TX".toList) ++
    " id=0x".toList ++ hex f.id.toNat ++ " ext=".toList ++ decimal f.extended.toNat ++
    " fd=".toList ++ decimal f.fd.toNat ++ " dlc=".toList ++ decimal f.dlc.toNat ++
    " st=".toList ++ decimal f.status ++ ' ' :: payload

lemma makeFrame_dlc (type : BusType) (channel : UInt8) (dir : BusDirection) (id : UInt32)
    (extended fd : Bool) (dlc : UInt8) (data : Option Mem) (ts : UInt64) :
    (makeFrame type channel dir id extended fd dlc data ts).dlc.toNat =
      min dlc.toNat busMaxPayload := by
  by_cases h : busMaxPayload < dlc.toNat
  · simp only [makeFrame, h, if_true, Nat.min_eq_right h.le]
    rfl
  · simp only [makeFrame, h, if_false, Nat.min_eq_left (Nat.le_of_not_lt h)]

/-- The payload is copied up to the length the frame has. -/
lemma makeFrame_data (type : BusType) (channel : UInt8) (dir : BusDirection) (id : UInt32)
    (extended fd : Bool) (dlc : UInt8) (src : Mem) (ts : UInt64) {i : ℕ} (hi : i < busMaxPayload)
    (hlen : i < dlc.toNat) :
    (makeFrame type channel dir id extended fd dlc (some src) ts).data[i] = src i := by
  have hdlc : i < (makeFrame type channel dir id extended fd dlc (some src) ts).dlc.toNat := by
    rw [makeFrame_dlc]
    exact Nat.lt_min.mpr ⟨hlen, hi⟩
  exact (Vector.getElem_ofFn hi).trans (if_pos hdlc)

lemma isSome_payloadText (data : Vector UInt8 busMaxPayload) {i n : ℕ} :
    (payloadText data i n).isSome = true ↔ n = 0 ∨ i + n ≤ busMaxPayload := by
  induction n generalizing i with
  | zero => simp [payloadText]
  | succ n ih =>
    rw [payloadText]
    by_cases hi : i < busMaxPayload
    · have hrest := ih (i := i + 1)
      rw [Vector.getElem?_eq_getElem hi]
      cases htext : payloadText data (i + 1) n with
      | none =>
        rw [htext] at hrest
        simp at hrest ⊢
        omega
      | some rest =>
        rw [htext] at hrest
        simp at hrest ⊢
        omega
    · rw [Vector.getElem?_eq_none (Nat.le_of_not_lt hi)]
      simp
      omega

/-- The loop stays inside the array when the length of the frame does. -/
lemma isSome_frameToString (f : RawFrame) :
    (frameToString f).isSome = true ↔ f.dlc.toNat ≤ busMaxPayload := by
  have hloop := isSome_payloadText f.data (i := 0) (n := f.dlc.toNat)
  rw [frameToString]
  cases htext : payloadText f.data 0 f.dlc.toNat with
  | none =>
    rw [htext] at hloop
    simp at hloop ⊢
    omega
  | some text =>
    rw [htext] at hloop
    simp at hloop ⊢
    omega

end BusTestPlatform

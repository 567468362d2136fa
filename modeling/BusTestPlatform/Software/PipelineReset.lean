import BusTestPlatform.Software.PipelineWrap

/-!
# `reset`

`Pipeline::reset` sets the indices and the counter back and leaves the frames where they are. What
a slot holds is only ever read after it was written again, so no caller can tell the pipeline from
a new one, whatever the capacity and however often the indices have wrapped or wrap later.
-/

namespace BusTestPlatform

namespace IdlePipeline

variable {w : ℕ} {α : Type*}

/-- `reset`. -/
def reset (s : IdlePipeline w α) : IdlePipeline w α :=
  { s with head := 0, tail := 0, dropped := 0 }

/-- `empty`. -/
def empty (s : IdlePipeline w α) : Bool := s.size = 0

/-- A call that changes the pipeline. -/
inductive Op (α : Type*)
  | call (c : PipelineCall α)
  | reset

/-- What a call answers, and the pipeline after it. `reset` answers nothing. -/
def op (s : IdlePipeline w α) : Op α → Option (PipelineReply α) × IdlePipeline w α
  | .call c => (some (s.call c).1, (s.call c).2)
  | .reset => (none, s.reset)

/-- The pipeline after some calls. -/
def afterOps (s : IdlePipeline w α) (ops : List (Op α)) : IdlePipeline w α :=
  ops.foldl (fun s o => (s.op o).2) s

/-- Two pipelines that differ at most in slots with no frame in them. -/
structure Alike (s t : IdlePipeline w α) : Prop where
  capacity : s.capacity = t.capacity
  head : s.head = t.head
  tail : s.tail = t.tail
  dropped : s.dropped = t.dropped
  frames : ∀ k < s.size.toNat, s.buf (s.slot (s.head + BitVec.ofNat w k)) =
    t.buf (s.slot (s.head + BitVec.ofNat w k))

section Alike

variable {s t : IdlePipeline w α}

lemma Alike.size_eq (h : Alike s t) : s.size = t.size := by
  rw [size, size, h.head, h.tail]

lemma Alike.slot_eq (h : Alike s t) (i : BitVec w) : s.slot i = t.slot i := by
  rw [slot, slot, h.capacity]

lemma head_add_size (s : IdlePipeline w α) :
    s.head + BitVec.ofNat w s.size.toNat = s.tail := by
  rw [BitVec.ofNat_toNat, BitVec.setWidth_eq, size, add_sub_cancel]

/-- The slot that is written is the same on both sides, also where it is the slot of an older
frame. -/
lemma Alike.pushed (h : Alike s t) (frame : α) :
    Alike { s with buf := Function.update s.buf (s.slot s.tail) frame, tail := s.tail + 1 }
      { t with buf := Function.update t.buf (t.slot t.tail) frame, tail := t.tail + 1 } where
  capacity := h.capacity
  head := h.head
  tail := congrArg (· + 1) h.tail
  dropped := h.dropped
  frames := by
    intro k hk
    have hsize : (s.tail + 1 - s.head).toNat ≤ s.size.toNat + 1 := by
      rw [add_sub_right_comm, BitVec.toNat_add]
      exact (Nat.mod_le _ _).trans (Nat.add_le_add_left (Nat.mod_le _ _) _)
    change Function.update s.buf (s.slot s.tail) frame (s.slot (s.head + BitVec.ofNat w k)) =
      Function.update t.buf (t.slot t.tail) frame (s.slot (s.head + BitVec.ofNat w k))
    rw [← h.tail, ← h.slot_eq]
    by_cases hslot : s.slot (s.head + BitVec.ofNat w k) = s.slot s.tail
    · rw [hslot, Function.update_self, Function.update_self]
    · rw [Function.update_of_ne hslot, Function.update_of_ne hslot]
      refine h.frames k (lt_of_le_of_ne (Nat.le_of_lt_succ (hk.trans_le hsize)) ?_)
      rintro rfl
      exact hslot (by rw [head_add_size])

lemma Alike.popped (h : Alike s t) (hne : s.head ≠ s.tail) :
    s.buf (s.slot s.head) = t.buf (t.slot t.head) ∧
      Alike { s with head := s.head + 1 } { t with head := t.head + 1 } := by
  have hsize : s.size ≠ 0 := fun hzero => hne (sub_eq_zero.mp hzero).symm
  have hpos : 0 < s.size.toNat := BitVec.toNat_pos_of_ne_zero hsize
  constructor
  · have hframe := h.frames 0 hpos
    rw [show s.head + BitVec.ofNat w 0 = s.head from add_zero s.head] at hframe
    rw [hframe, h.slot_eq, h.head]
  · refine ⟨h.capacity, congrArg (· + 1) h.head, h.tail, h.dropped, fun k hk => ?_⟩
    have hless : (s.tail - (s.head + 1)).toNat + 1 = s.size.toNat := by
      rw [← sub_sub]
      exact Counter.toNat_sub_one hsize
    have hindex : s.head + 1 + BitVec.ofNat w k = s.head + BitVec.ofNat w (k + 1) := by
      rw [← Counter.ofNat_succ, add_assoc, add_comm 1]
    have hframe := h.frames (k + 1) (hless ▸ Nat.succ_lt_succ hk)
    rw [← hindex] at hframe
    exact hframe

/-- A call is answered alike, and leaves both sides alike. -/
lemma Alike.call (h : Alike s t) (c : PipelineCall α) :
    (s.call c).1 = (t.call c).1 ∧ Alike (s.call c).2 (t.call c).2 := by
  cases c with
  | push frame =>
    have hfull : s.capacity ≤ s.tail - s.head ↔ t.capacity ≤ t.tail - t.head := by
      rw [h.capacity, h.head, h.tail]
    rw [IdlePipeline.call, IdlePipeline.call]
    by_cases hs : s.capacity ≤ s.tail - s.head
    · rw [push_of_full hs, push_of_full (hfull.mp hs)]
      exact ⟨rfl, h.capacity, h.head, h.tail, congrArg (· + 1) h.dropped, h.frames⟩
    · rw [push_of_room hs, push_of_room (mt hfull.mpr hs)]
      exact ⟨rfl, h.pushed frame⟩
  | pop out =>
    cases out with
    | none => exact ⟨rfl, h⟩
    | some out =>
      have hempty : s.head = s.tail ↔ t.head = t.tail := by
        rw [h.head, h.tail]
      rw [IdlePipeline.call, IdlePipeline.call]
      by_cases hs : s.head = s.tail
      · rw [pop_of_empty hs, pop_of_empty (hempty.mp hs)]
        exact ⟨rfl, h⟩
      · obtain ⟨hframe, hnext⟩ := h.popped hs
        rw [pop_of_ne hs, pop_of_ne (mt hempty.mpr hs), hframe]
        exact ⟨rfl, hnext⟩

/-- Without frames the capacity is all there is to tell. -/
lemma alike_reset (h : s.capacity = t.capacity) : Alike s.reset t.reset where
  capacity := h
  head := rfl
  tail := rfl
  dropped := rfl
  frames := by
    intro k hk
    have hsize : s.reset.size = 0#w := sub_self _
    rw [hsize, BitVec.toNat_zero] at hk
    exact absurd hk (Nat.not_lt_zero k)

lemma Alike.op (h : Alike s t) (o : Op α) :
    (s.op o).1 = (t.op o).1 ∧ Alike (s.op o).2 (t.op o).2 := by
  cases o with
  | call c => exact ⟨congrArg some (h.call c).1, (h.call c).2⟩
  | reset => exact ⟨rfl, alike_reset h.capacity⟩

lemma Alike.afterOps (h : Alike s t) (ops : List (Op α)) :
    Alike (s.afterOps ops) (t.afterOps ops) := by
  induction ops generalizing s t with
  | nil => exact h
  | cons o ops ih => exact ih (h.op o).2

end Alike

lemma afterOps_capacity (s : IdlePipeline w α) (ops : List (Op α)) :
    (s.afterOps ops).capacity = s.capacity := by
  induction ops generalizing s with
  | nil => rfl
  | cons o ops ih =>
    refine (ih _).trans ?_
    cases o with
    | call c => exact call_capacity s c
    | reset => rfl

/-- **`reset` makes a pipeline as good as new.** Whatever calls came before it, every later sequence
of calls, further resets among them, is answered as by a new pipeline of that capacity, and `size`,
`empty` and `dropped` say the same. -/
theorem reset_fresh (capacity : BitVec w) (buf buf' : ℕ → α) (before ops : List (Op α)) :
    let s := (((init capacity buf).afterOps before).reset).afterOps ops
    let t := (init capacity buf').afterOps ops
    (∀ o, (s.op o).1 = (t.op o).1) ∧ s.size = t.size ∧ s.empty = t.empty ∧
      s.dropped = t.dropped := by
  intro s t
  have hcap : ((init capacity buf).afterOps before).capacity = (init capacity buf').capacity :=
    afterOps_capacity _ before
  have h : Alike s t := (alike_reset hcap).afterOps ops
  refine ⟨fun o => (h.op o).1, h.size_eq, ?_, h.dropped⟩
  rw [empty, empty, h.size_eq]

end IdlePipeline

end BusTestPlatform

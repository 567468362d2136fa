import BusTestPlatform.Lib.Atomic
import BusTestPlatform.Lib.Counter
import BusTestPlatform.Lib.Ring

/-!
# `pipeline.cpp`

The ring between one producer thread, which calls `push` and `size`, and one consumer thread, which
calls `pop` and `size`. Every load, store and test of the source is a step of its own, and a frame
is copied cell by cell, so that the two threads interleave anywhere.

`w` is the width of `size_t`, `c` the number of cells of a frame and `β` what a cell holds.
-/

namespace BusTestPlatform

variable {w c : ℕ} {β : Type*}

/-- The cells of a frame. -/
abbrev Cells (c : ℕ) (β : Type*) := Fin c → β

/-- Where the producer is. -/
inductive ProducerPc (w c : ℕ) (β : Type*)
  | idle
  | loadHead (frame : Cells c β)
  | loadTail (frame : Cells c β) (h : BitVec w)
  | test (frame : Cells c β) (h t : BitVec w)
  | drop (frame : Cells c β)
  /-- `k` cells of `buf_[t % capacity_] = frame` are done. -/
  | copy (frame : Cells c β) (t : BitVec w) (k : ℕ)
  | sizeTail (h : BitVec w)

/-- The frame of the call of `push` in progress. -/
def ProducerPc.pending : ProducerPc w c β → List (Cells c β)
  | .idle => []
  | .loadHead frame => [frame]
  | .loadTail frame _ => [frame]
  | .test frame _ _ => [frame]
  | .drop frame => [frame]
  | .copy frame _ _ => [frame]
  | .sizeTail _ => []

/-- Where the consumer is. `out` is the caller's frame, with whatever it holds. -/
inductive ConsumerPc (w c : ℕ) (β : Type*)
  | idle
  | loadHead (out : Cells c β)
  | loadTail (out : Cells c β) (h : BitVec w)
  | test (out : Cells c β) (h t : BitVec w)
  /-- `k` cells of `*out = buf_[h % capacity_]` are done. -/
  | copy (out : Cells c β) (h : BitVec w) (k : ℕ)
  | sizeTail (h : BitVec w)

/-- The pipeline, its two threads, and the record of what they did. -/
structure Pipeline (w c : ℕ) (β : Type*) where
  buf : ℕ → Cells c β
  capacity : BitVec w
  head : Atomic w
  tail : Atomic w
  dropped : BitVec 64
  prod : ProducerPc w c β
  cons : ConsumerPc w c β
  /-- The number of the value of `head_` that the producer read last. -/
  seenHead : ℕ
  /-- The number of the value of `tail_` that the consumer read last. -/
  seenTail : ℕ
  /-- The frames with which `push` was called. -/
  calls : List (Cells c β)
  /-- The calls of `push` that returned: the slot of an accepted frame, `none` for `false`. -/
  done : List (Cells c β × Option ℕ)
  /-- The frames with which `pop` returned `true`. -/
  popped : List (Cells c β)
  /-- The results of `size`. -/
  sizes : List (BitVec w)

namespace Pipeline

/-- The constructor: a capacity of 0 is taken for 1. -/
def init (capacity : BitVec w) (buf : ℕ → Cells c β) : Pipeline w c β where
  buf := buf
  capacity := if 0 < capacity then capacity else 1
  head := Atomic.zero w
  tail := Atomic.zero w
  dropped := 0
  prod := .idle
  cons := .idle
  seenHead := 0
  seenTail := 0
  calls := []
  done := []
  popped := []
  sizes := []

/-- `i % capacity_`. -/
def slot (s : Pipeline w c β) (i : BitVec w) : ℕ := i.toNat % s.capacity.toNat

/-- One cell of a copy. -/
def setCell (x : Cells c β) (k : Fin c) (v : β) : Cells c β := Function.update x k v

/-- The frames for which `push` returned `true`, each with its slot. -/
def stored (s : Pipeline w c β) : List (ℕ × Cells c β) :=
  s.done.filterMap fun e => e.2.map fun i => (i, e.1)

/-- The frames for which `push` returned `true`. -/
def accepted (s : Pipeline w c β) : List (Cells c β) := s.stored.map Prod.snd

/-- The number of calls for which `push` returned `false`. -/
def drops (s : Pipeline w c β) : ℕ := s.done.countP fun e => e.2.isNone

/-- `size`, read while neither index moves. -/
def size (s : Pipeline w c β) : BitVec w := s.tail.current - s.head.current

/-- The frames still in the ring, oldest first. -/
def queued (s : Pipeline w c β) : List (Cells c β) :=
  (List.range s.size.toNat).map fun k => s.buf (s.slot (s.head.current + BitVec.ofNat w k))

/-- What the latest call of `push` that returned gave back. -/
def lastPush (s : Pipeline w c β) : Bool := s.done.getLast?.any fun e => e.2.isSome

/-! ### Steps -/

/-- A call of `push` begins. -/
def beginPush (s : Pipeline w c β) (frame : Cells c β) : Pipeline w c β :=
  { s with prod := .loadHead frame, calls := s.calls ++ [frame] }

/-- A step of the producer. -/
inductive ProducerStep : Pipeline w c β → Pipeline w c β → Prop
  | push {s} (frame : Cells c β) (hpc : s.prod = .idle) : ProducerStep s (s.beginPush frame)
  | loadHead {s} {frame : Cells c β} {p : ℕ} (hpc : s.prod = .loadHead frame)
      (hp : s.head.Readable s.seenHead p) :
      ProducerStep s { s with prod := .loadTail frame (s.head.val p), seenHead := p }
  | loadTail {s} {frame : Cells c β} {h : BitVec w} (hpc : s.prod = .loadTail frame h) :
      ProducerStep s { s with prod := .test frame h s.tail.current }
  | full {s} {frame : Cells c β} {h t : BitVec w} (hpc : s.prod = .test frame h t)
      (htest : s.capacity ≤ t - h) : ProducerStep s { s with prod := .drop frame }
  | drop {s} {frame : Cells c β} (hpc : s.prod = .drop frame) :
      ProducerStep s { s with prod := .idle, dropped := s.dropped + 1,
                              done := s.done ++ [(frame, none)] }
  | room {s} {frame : Cells c β} {h t : BitVec w} (hpc : s.prod = .test frame h t)
      (htest : ¬ s.capacity ≤ t - h) : ProducerStep s { s with prod := .copy frame t 0 }
  | copy {s} {frame : Cells c β} {t : BitVec w} {k : ℕ} (hpc : s.prod = .copy frame t k)
      (hk : k < c) :
      ProducerStep s { s with prod := .copy frame t (k + 1),
                              buf := Function.update s.buf (s.slot t)
                                (setCell (s.buf (s.slot t)) ⟨k, hk⟩ (frame ⟨k, hk⟩)) }
  | publish {s} {frame : Cells c β} {t : BitVec w} (hpc : s.prod = .copy frame t c) :
      ProducerStep s { s with prod := .idle, tail := s.tail.store (t + 1),
                              done := s.done ++ [(frame, some (s.slot t))] }
  | size {s} {p : ℕ} (hpc : s.prod = .idle) (hp : s.head.Readable s.seenHead p) :
      ProducerStep s { s with prod := .sizeTail (s.head.val p), seenHead := p }
  | sizeTail {s} {h : BitVec w} (hpc : s.prod = .sizeTail h) :
      ProducerStep s { s with prod := .idle, sizes := s.sizes ++ [s.tail.current - h] }

/-- A step of the consumer. A call of `pop` with a null pointer changes nothing. -/
inductive ConsumerStep : Pipeline w c β → Pipeline w c β → Prop
  | popNull {s} (hpc : s.cons = .idle) : ConsumerStep s s
  | pop {s} (out : Cells c β) (hpc : s.cons = .idle) :
      ConsumerStep s { s with cons := .loadHead out }
  | loadHead {s} {out : Cells c β} (hpc : s.cons = .loadHead out) :
      ConsumerStep s { s with cons := .loadTail out s.head.current }
  | loadTail {s} {out : Cells c β} {h : BitVec w} {p : ℕ} (hpc : s.cons = .loadTail out h)
      (hp : s.tail.Readable s.seenTail p) :
      ConsumerStep s { s with cons := .test out h (s.tail.val p), seenTail := p }
  | empty {s} {out : Cells c β} {h t : BitVec w} (hpc : s.cons = .test out h t) (htest : h = t) :
      ConsumerStep s { s with cons := .idle }
  | some {s} {out : Cells c β} {h t : BitVec w} (hpc : s.cons = .test out h t) (htest : h ≠ t) :
      ConsumerStep s { s with cons := .copy out h 0 }
  | copy {s} {out : Cells c β} {h : BitVec w} {k : ℕ} (hpc : s.cons = .copy out h k)
      (hk : k < c) :
      ConsumerStep s { s with cons := .copy
                                (setCell out ⟨k, hk⟩ (s.buf (s.slot h) ⟨k, hk⟩)) h (k + 1) }
  | publish {s} {out : Cells c β} {h : BitVec w} (hpc : s.cons = .copy out h c) :
      ConsumerStep s { s with cons := .idle, head := s.head.store (h + 1),
                              popped := s.popped ++ [out] }
  | size {s} (hpc : s.cons = .idle) :
      ConsumerStep s { s with cons := .sizeTail s.head.current }
  | sizeTail {s} {h : BitVec w} {p : ℕ} (hpc : s.cons = .sizeTail h)
      (hp : s.tail.Readable s.seenTail p) :
      ConsumerStep s { s with cons := .idle, seenTail := p,
                              sizes := s.sizes ++ [s.tail.val p - h] }

/-- What can be reached from a fresh pipeline by steps of the two threads, in any order. -/
inductive Reachable (capacity : BitVec w) : Pipeline w c β → Prop
  | init (buf : ℕ → Cells c β) : Reachable capacity (init capacity buf)
  | producer {s s' : Pipeline w c β} (h : Reachable capacity s) (hstep : ProducerStep s s') :
      Reachable capacity s'
  | consumer {s s' : Pipeline w c β} (h : Reachable capacity s) (hstep : ConsumerStep s s') :
      Reachable capacity s'

/-! ### The record -/

section Record

variable {s s' : Pipeline w c β} {frame : Cells c β}

lemma accepted_congr (h : s'.done = s.done) : s'.accepted = s.accepted := by
  rw [accepted, accepted, stored, stored, h]

lemma stored_of_accept {i : ℕ} (h : s'.done = s.done ++ [(frame, some i)]) :
    s'.stored = s.stored ++ [(i, frame)] := by
  simp [stored, h]

lemma accepted_of_accept {i : ℕ} (h : s'.done = s.done ++ [(frame, some i)]) :
    s'.accepted = s.accepted ++ [frame] := by
  simp [accepted, stored_of_accept h]

lemma stored_of_drop (h : s'.done = s.done ++ [(frame, none)]) : s'.stored = s.stored := by
  simp [stored, h]

lemma accepted_of_drop (h : s'.done = s.done ++ [(frame, none)]) : s'.accepted = s.accepted := by
  rw [accepted, stored_of_drop h, accepted]

lemma drops_of_accept {i : ℕ} (h : s'.done = s.done ++ [(frame, some i)]) :
    s'.drops = s.drops := by
  simp [drops, h]

lemma drops_of_drop (h : s'.done = s.done ++ [(frame, none)]) : s'.drops = s.drops + 1 := by
  simp [drops, h]

lemma lastPush_of_done {r : Option ℕ} (h : s'.done = s.done ++ [(frame, r)]) :
    s'.lastPush = r.isSome := by
  simp [lastPush, h]

/-- Every returned call of `push` was accepted or dropped. -/
lemma accepted_add_drops (s : Pipeline w c β) : s.accepted.length + s.drops = s.done.length := by
  rw [accepted, List.length_map, stored, drops]
  induction s.done with
  | nil => rfl
  | cons e es ih =>
    obtain ⟨frame, slot⟩ := e
    cases slot with
    | none =>
      rw [List.filterMap_cons_none rfl, List.countP_cons_of_pos rfl, List.length_cons, ← ih,
        Nat.add_assoc]
    | some i =>
      rw [List.countP_cons_of_neg (by simp), List.length_cons, ← ih]
      exact Nat.add_right_comm _ 1 _

lemma accepted_sublist (s : Pipeline w c β) : s.accepted.Sublist (s.done.map Prod.fst) := by
  rw [accepted, stored]
  induction s.done with
  | nil => exact List.Sublist.refl _
  | cons e es ih =>
    obtain ⟨frame, slot⟩ := e
    cases slot with
    | none =>
      rw [List.filterMap_cons_none rfl]
      exact ih.cons _
    | some i => exact ih.cons_cons _

end Record

/-! ### What a step leaves alone -/

section Frame

variable {s s' : Pipeline w c β}

/-- Nothing that was accepted is forgotten. -/
lemma ProducerStep.accepted_le (h : ProducerStep s s') :
    s.accepted.length ≤ s'.accepted.length := by
  cases h with
  | drop hpc => exact (congrArg List.length (accepted_of_drop rfl)).ge
  | publish hpc =>
    refine (Nat.le_add_right _ 1).trans_eq (Eq.symm ?_)
    exact (congrArg List.length (accepted_of_accept rfl)).trans List.length_append
  | _ => exact le_rfl

/-- A call of `push` goes on, or returns. -/
lemma ProducerStep.of_pending (h : ProducerStep s s') (hp : s.prod.pending ≠ []) :
    s'.calls = s.calls ∧ ((s'.prod.pending ≠ [] ∧ s'.done = s.done) ∨
      (s'.prod = .idle ∧ ∃ frame r, s'.done = s.done ++ [(frame, r)])) := by
  cases h with
  | drop hpc => exact ⟨rfl, Or.inr ⟨rfl, _, _, rfl⟩⟩
  | publish hpc => exact ⟨rfl, Or.inr ⟨rfl, _, _, rfl⟩⟩
  | push frame hpc => exact absurd (congrArg ProducerPc.pending hpc) hp
  | size hpc hr => exact absurd (congrArg ProducerPc.pending hpc) hp
  | sizeTail hpc => exact absurd (congrArg ProducerPc.pending hpc) hp
  | _ => exact ⟨rfl, Or.inl ⟨List.cons_ne_nil _ _, rfl⟩⟩

lemma ConsumerStep.frame (h : ConsumerStep s s') :
    s'.prod = s.prod ∧ s'.calls = s.calls ∧ s'.done = s.done := by
  cases h <;> exact ⟨rfl, rfl, rfl⟩

lemma ConsumerStep.accepted_eq (h : ConsumerStep s s') : s'.accepted = s.accepted :=
  accepted_congr h.frame.2.2

end Frame

/-! ### Every call is accounted for -/

/-- Every call of `push` has returned but the one in progress, and every refusal is counted. -/
structure Counted (s : Pipeline w c β) : Prop where
  calls : s.calls = s.done.map Prod.fst ++ s.prod.pending
  dropped : s.dropped = BitVec.ofNat 64 s.drops

lemma Counted.of_same {s s' : Pipeline w c β} (hs : Counted s) (hcalls : s'.calls = s.calls)
    (hdone : s'.done = s.done) (hpending : s'.prod.pending = s.prod.pending)
    (hdropped : s'.dropped = s.dropped) : Counted s' := by
  refine ⟨?_, ?_⟩
  · rw [hcalls, hdone, hpending]
    exact hs.calls
  · rw [hdropped, drops, hdone]
    exact hs.dropped

lemma Counted.producerStep {s s' : Pipeline w c β} (hs : Counted s) (h : ProducerStep s s') :
    Counted s' := by
  have hcalls := hs.calls
  cases h with
  | push frame hpc =>
    rw [hpc, ProducerPc.pending, List.append_nil] at hcalls
    exact ⟨congrArg (· ++ [frame]) hcalls, hs.dropped⟩
  | drop hpc =>
    rw [hpc] at hcalls
    refine ⟨?_, ?_⟩
    · rw [List.map_append]
      exact hcalls.trans (List.append_nil _).symm
    · refine Eq.trans ?_ (congrArg (BitVec.ofNat 64) (drops_of_drop rfl)).symm
      rw [BitVec.ofNat_add, ← hs.dropped]
      rfl
  | publish hpc =>
    rw [hpc] at hcalls
    refine ⟨?_, ?_⟩
    · rw [List.map_append]
      exact hcalls.trans (List.append_nil _).symm
    · exact hs.dropped.trans (congrArg (BitVec.ofNat 64) (drops_of_accept rfl)).symm
  | loadHead hpc _ => exact hs.of_same rfl rfl (congrArg ProducerPc.pending hpc).symm rfl
  | loadTail hpc => exact hs.of_same rfl rfl (congrArg ProducerPc.pending hpc).symm rfl
  | full hpc _ => exact hs.of_same rfl rfl (congrArg ProducerPc.pending hpc).symm rfl
  | room hpc _ => exact hs.of_same rfl rfl (congrArg ProducerPc.pending hpc).symm rfl
  | copy hpc _ => exact hs.of_same rfl rfl (congrArg ProducerPc.pending hpc).symm rfl
  | size hpc _ => exact hs.of_same rfl rfl (congrArg ProducerPc.pending hpc).symm rfl
  | sizeTail hpc => exact hs.of_same rfl rfl (congrArg ProducerPc.pending hpc).symm rfl

theorem Reachable.counted {capacity : BitVec w} {s : Pipeline w c β} (h : Reachable capacity s) :
    Counted s := by
  induction h with
  | init buf => exact ⟨rfl, rfl⟩
  | producer _ hstep ih => exact ih.producerStep hstep
  | consumer _ hstep ih => cases hstep <;> exact ⟨ih.calls, ih.dropped⟩

end Pipeline

end BusTestPlatform

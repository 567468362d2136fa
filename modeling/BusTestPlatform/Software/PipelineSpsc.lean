import BusTestPlatform.Software.Pipeline

/-!
# One producer, one consumer

The invariant of the pipeline under every interleaving of its two threads, and what follows: frames
come out in the order in which they went in, and the threads never meet in a slot.

Each thread knows its own index exactly and the other's from below. That is enough: a stale `head_`
makes the ring look fuller to the producer, a stale `tail_` emptier to the consumer.
-/

namespace BusTestPlatform

variable {w c : ℕ} {β : Type*}

/-- What the producer knows, when `head_` number `seen` is the last it read, `T` frames are accepted
and the ring has `cap` slots. -/
def ProducerPc.Ok (seen T cap : ℕ) (buf : ℕ → Cells c β) : ProducerPc w c β → Prop
  | .idle => True
  | .loadHead _ => True
  | .loadTail _ h => h = BitVec.ofNat w seen
  | .test _ h t => h = BitVec.ofNat w seen ∧ t = BitVec.ofNat w T
  | .drop _ => True
  | .copy frame t k =>
    t = BitVec.ofNat w T ∧ T < seen + cap ∧ ∀ i : Fin c, i.val < k → buf (T % cap) i = frame i
  | .sizeTail h => h = BitVec.ofNat w seen

/-- What the consumer knows, when it has popped `H` of the frames `xs` and `tail_` number `seen` is
the last it read. -/
def ConsumerPc.Ok (H seen : ℕ) (xs : List (Cells c β)) : ConsumerPc w c β → Prop
  | .idle => True
  | .loadHead _ => True
  | .loadTail _ h => h = BitVec.ofNat w H
  | .test _ h t => h = BitVec.ofNat w H ∧ t = BitVec.ofNat w seen
  | .copy out h k =>
    h = BitVec.ofNat w H ∧ H < seen ∧
      ∃ x, xs[H]? = some x ∧ ∀ i : Fin c, i.val < k → out i = x i
  | .sizeTail h => h = BitVec.ofNat w H

/-- The consumer does not notice another accepted frame. -/
lemma ConsumerPc.Ok.append {pc : ConsumerPc w c β} {H seen : ℕ} {xs : List (Cells c β)}
    (h : pc.Ok H seen xs) (frame : Cells c β) : pc.Ok H seen (xs ++ [frame]) := by
  cases pc with
  | copy out i k =>
    obtain ⟨hi, hlt, x, hx, hout⟩ := h
    refine ⟨hi, hlt, x, ?_, hout⟩
    rw [List.getElem?_append_left (List.getElem?_eq_some_iff.mp hx).1, hx]
  | _ => exact h

namespace Pipeline

/-- The slot the producer is writing. -/
def writing (s : Pipeline w c β) : Option ℕ :=
  match s.prod with
  | .copy _ t _ => some (s.slot t)
  | _ => none

/-- The slot the consumer is copying from. -/
def reading (s : Pipeline w c β) : Option ℕ :=
  match s.cons with
  | .copy _ h _ => some (s.slot h)
  | _ => none

/-- The slots of the accepted frames that are not consumed. -/
def occupied (s : Pipeline w c β) : List ℕ := (s.stored.drop s.popped.length).map Prod.fst

/-! ### Index words -/

section Words

lemma slot_ofNat (s : Pipeline w c β) {n : ℕ} (hn : n < 2 ^ w) :
    s.slot (BitVec.ofNat w n) = n % s.capacity.toNat := by
  rw [slot, BitVec.toNat_ofNat, Nat.mod_eq_of_lt hn]

end Words

/-! ### The invariant -/

/-- The invariant of the pipeline, as long as the number of accepted frames fits an index. -/
structure Inv (s : Pipeline w c β) : Prop where
  capacity : 0 < s.capacity.toNat
  tail : s.tail.Counts s.accepted.length
  head : s.head.Counts s.popped.length
  seenHead : s.seenHead ≤ s.popped.length
  seenTail : s.popped.length ≤ s.seenTail ∧ s.seenTail ≤ s.accepted.length
  room : s.accepted.length ≤ s.seenHead + s.capacity.toNat
  slots : s.stored.map Prod.fst =
    (List.range s.accepted.length).map fun j => j % s.capacity.toNat
  ring : Ring.Holds s.buf s.capacity.toNat s.popped.length s.accepted
  fifo : s.popped <+: s.accepted
  prod : s.prod.Ok s.seenHead s.accepted.length s.capacity.toNat s.buf
  cons : s.cons.Ok s.popped.length s.seenTail s.accepted
  sizes : ∀ r ∈ s.sizes, r.toNat ≤ s.capacity.toNat

lemma inv_init [NeZero w] (capacity : BitVec w) (buf : ℕ → Cells c β) :
    Inv (init capacity buf) where
  capacity := by
    rw [init]
    by_cases h : 0 < capacity
    · rw [if_pos h]
      exact BitVec.lt_def.mp h
    · rw [if_neg h]
      exact (BitVec.toNat_one (NeZero.pos w)).symm ▸ Nat.one_pos
  tail := Atomic.counts_zero
  head := Atomic.counts_zero
  seenHead := le_rfl
  seenTail := ⟨le_rfl, le_rfl⟩
  room := Nat.zero_le _
  slots := rfl
  ring := Ring.holds_nil
  fifo := List.nil_prefix
  prod := trivial
  cons := trivial
  sizes := by
    intro r hr
    cases hr

section Steps

variable {s s' : Pipeline w c β}

/-- A result of `size` that is the distance of two indices at most a round apart. -/
lemma sizes_append {s : Pipeline w c β} (hi : Inv s) {a b : ℕ} (hab : a ≤ b) (hb : b < 2 ^ w)
    (hcap : b ≤ a + s.capacity.toNat) :
    ∀ r ∈ s.sizes ++ [BitVec.ofNat w b - BitVec.ofNat w a], r.toNat ≤ s.capacity.toNat := by
  intro r hr
  rcases List.mem_append.mp hr with hr | hr
  · exact hi.sizes r hr
  · rw [List.mem_singleton.mp hr, Counter.toNat_ofNat_sub hab (Nat.lt_add_left a hb)]
    exact Nat.sub_le_iff_le_add'.mpr hcap

/-- One cell more of the frame is in its slot, and no frame that is held is touched. -/
lemma inv_copy {frame : Cells c β} {t : BitVec w} {k : ℕ} (hi : Inv s)
    (hT : s.accepted.length < 2 ^ w) (hpc : s.prod = .copy frame t k) (hk : k < c) :
    Inv { s with prod := .copy frame t (k + 1),
                 buf := Function.update s.buf (s.slot t)
                   (setCell (s.buf (s.slot t)) ⟨k, hk⟩ (frame ⟨k, hk⟩)) } := by
  have hp := hi.prod
  rw [hpc] at hp
  obtain ⟨rfl, hroom, hcells⟩ := hp
  have hslot := s.slot_ofNat hT
  refine { hi with ring := ?_, prod := ⟨rfl, hroom, ?_⟩ }
  · rw [hslot]
    exact hi.ring.write_next (hroom.trans_le (Nat.add_le_add_right hi.seenHead _)) _
  · intro i hik
    have hself : Function.update s.buf (s.slot (BitVec.ofNat w s.accepted.length))
        (setCell (s.buf (s.slot (BitVec.ofNat w s.accepted.length))) ⟨k, hk⟩ (frame ⟨k, hk⟩))
          (s.accepted.length % s.capacity.toNat) =
        setCell (s.buf (s.accepted.length % s.capacity.toNat)) ⟨k, hk⟩ (frame ⟨k, hk⟩) := by
      rw [hslot, Function.update_self]
    refine (congrFun hself i).trans ?_
    by_cases hik' : i = ⟨k, hk⟩
    · rw [hik', setCell, Function.update_self]
    · rw [setCell, Function.update_of_ne hik']
      refine hcells i (lt_of_le_of_ne (Nat.le_of_lt_succ hik) fun h => hik' ?_)
      exact Fin.ext h

/-- The frame in its slot is accepted. -/
lemma inv_publish {frame : Cells c β} {t : BitVec w} (hi : Inv s) (hT : s.accepted.length < 2 ^ w)
    (hpc : s.prod = .copy frame t c) :
    Inv { s with prod := .idle, tail := s.tail.store (t + 1),
                 done := s.done ++ [(frame, some (s.slot t))] } := by
  have hp := hi.prod
  rw [hpc] at hp
  obtain ⟨rfl, hroom, hcells⟩ := hp
  set s' : Pipeline w c β :=
    { s with prod := .idle, tail := s.tail.store (BitVec.ofNat w s.accepted.length + 1),
             done := s.done ++ [(frame, some (s.slot (BitVec.ofNat w s.accepted.length)))] }

  have hacc : s'.accepted = s.accepted ++ [frame] := accepted_of_accept rfl
  have hstored : s'.stored = s.stored ++ [(s.accepted.length % s.capacity.toNat, frame)] := by
    rw [← s.slot_ofNat hT]
    exact stored_of_accept rfl
  have hlen : s'.accepted.length = s.accepted.length + 1 := by
    rw [hacc, List.length_append, List.length_singleton]
  refine { hi with tail := ?_, seenTail := ?_, room := ?_, slots := ?_, ring := ?_, fifo := ?_,
                   prod := trivial, cons := ?_ }
  · rw [hlen]
    have hstore := hi.tail.store
    rw [← Counter.ofNat_succ] at hstore
    exact hstore
  · rw [hlen]
    exact ⟨hi.seenTail.1, hi.seenTail.2.trans (Nat.le_succ _)⟩
  · rw [hlen]
    exact hroom
  · rw [hstored, List.map_append, hi.slots, hlen, List.range_succ, List.map_append]
    rfl
  · rw [hacc]
    exact hi.ring.append (funext fun i => hcells i i.isLt)
  · rw [hacc]
    exact hi.fifo.trans (List.prefix_append ..)
  · rw [hacc]
    exact hi.cons.append frame

/-- A refused frame leaves the ring as it is. -/
lemma inv_drop (hi : Inv s) (frame : Cells c β) :
    Inv { s with prod := .idle, dropped := s.dropped + 1, done := s.done ++ [(frame, none)] } := by
  set s' : Pipeline w c β :=
    { s with prod := .idle, dropped := s.dropped + 1, done := s.done ++ [(frame, none)] }
  have hstored : s'.stored = s.stored := stored_of_drop rfl
  have hacc : s'.accepted = s.accepted := accepted_of_drop rfl
  refine { hi with tail := ?_, seenTail := ?_, room := ?_, slots := ?_, ring := ?_, fifo := ?_,
                   prod := trivial, cons := ?_ }
  · exact hacc ▸ hi.tail
  · exact hacc ▸ hi.seenTail
  · exact hacc ▸ hi.room
  · rw [hstored, hacc]
    exact hi.slots
  · exact hacc ▸ hi.ring
  · exact hacc ▸ hi.fifo
  · exact hacc ▸ hi.cons

theorem inv_producerStep (hi : Inv s) (hT' : s'.accepted.length < 2 ^ w)
    (h : ProducerStep s s') : Inv s' := by
  have hT : s.accepted.length < 2 ^ w := h.accepted_le.trans_lt hT'
  have hp := hi.prod
  cases h with
  | push frame hpc => exact { hi with prod := trivial }
  | @loadHead frame p hpc hr =>
    obtain ⟨hseen, hlast, hval⟩ := hi.head.readable hr
    exact { hi with seenHead := hlast, room := hi.room.trans (Nat.add_le_add_right hseen _),
                    prod := hval }
  | loadTail hpc =>
    rw [hpc] at hp
    exact { hi with prod := ⟨hp, hi.tail.current_eq⟩ }
  | full hpc htest => exact { hi with prod := trivial }
  | @drop frame hpc => exact inv_drop hi frame
  | room hpc htest =>
    rw [hpc] at hp
    obtain ⟨rfl, rfl⟩ := hp
    rw [BitVec.le_def, Counter.toNat_ofNat_sub
      (hi.seenHead.trans (hi.seenTail.1.trans hi.seenTail.2)) (Nat.lt_add_left _ hT)]
      at htest
    have hroom : s.accepted.length < s.seenHead + s.capacity.toNat := by omega
    exact { hi with prod := ⟨rfl, hroom, fun i hi0 => absurd hi0 (Nat.not_lt_zero _)⟩ }
  | copy hpc hk => exact inv_copy hi hT hpc hk
  | publish hpc => exact inv_publish hi hT hpc
  | @size p hpc hr =>
    obtain ⟨hseen, hlast, hval⟩ := hi.head.readable hr
    exact { hi with seenHead := hlast, room := hi.room.trans (Nat.add_le_add_right hseen _),
                    prod := hval }
  | sizeTail hpc =>
    rw [hpc] at hp
    refine { hi with prod := trivial, sizes := ?_ }
    rw [hi.tail.current_eq, show _ = _ from hp]
    exact sizes_append hi (hi.seenHead.trans (hi.seenTail.1.trans hi.seenTail.2)) hT hi.room

/-- The frame that was copied out leaves the ring. -/
lemma inv_pop {out : Cells c β} {h : BitVec w} (hi : Inv s)
    (hpc : s.cons = .copy out h c) :
    Inv { s with cons := .idle, head := s.head.store (h + 1), popped := s.popped ++ [out] } := by
  have hc := hi.cons
  rw [hpc] at hc
  obtain ⟨rfl, hlt, x, hx, hout⟩ := hc
  obtain rfl : out = x := funext fun i => hout i i.isLt
  obtain ⟨hH, hget⟩ := List.getElem?_eq_some_iff.mp hx
  have hlen : (s.popped ++ [out]).length = s.popped.length + 1 := by
    rw [List.length_append, List.length_singleton]
  refine { hi with head := ?_, seenHead := ?_, seenTail := ?_, ring := ?_, fifo := ?_,
                   cons := trivial }
  · rw [hlen, Counter.ofNat_succ]
    exact hi.head.store
  · rw [hlen]
    exact hi.seenHead.trans (Nat.le_succ _)
  · rw [hlen]
    exact ⟨hlt, hi.seenTail.2⟩
  · rw [hlen]
    exact hi.ring.mono (Nat.le_succ _)
  · have hsnoc := List.concat_get_prefix hi.fifo hH
    rwa [List.get_eq_getElem, hget] at hsnoc

theorem inv_consumerStep (hi : Inv s) (hT : s.accepted.length < 2 ^ w)
    (h : ConsumerStep s s') : Inv s' := by
  have hc := hi.cons
  cases h with
  | popNull hpc => exact hi
  | pop out hpc => exact { hi with cons := trivial }
  | loadHead hpc => exact { hi with cons := hi.head.current_eq }
  | @loadTail out h p hpc hr =>
    rw [hpc] at hc
    obtain ⟨hseen, hlast, hval⟩ := hi.tail.readable hr
    exact { hi with seenTail := ⟨hi.seenTail.1.trans hseen, hlast⟩, cons := ⟨hc, hval⟩ }
  | empty hpc htest => exact { hi with cons := trivial }
  | @some out h t hpc htest =>
    rw [hpc] at hc
    obtain ⟨rfl, rfl⟩ := hc
    have hne : s.popped.length ≠ s.seenTail := fun heq => htest (congrArg _ heq)
    have hlt := lt_of_le_of_ne hi.seenTail.1 hne
    have hH := hlt.trans_le hi.seenTail.2
    exact { hi with cons := ⟨rfl, hlt, s.accepted[s.popped.length],
      List.getElem?_eq_getElem hH, fun i hi0 => absurd hi0 (Nat.not_lt_zero _)⟩ }
  | @copy out h k hpc hk =>
    rw [hpc] at hc
    obtain ⟨rfl, hlt, x, hx, hout⟩ := hc
    obtain ⟨hH, hget⟩ := List.getElem?_eq_some_iff.mp hx
    have hslot : s.buf (s.slot (BitVec.ofNat w s.popped.length)) = x := by
      rw [s.slot_ofNat (hH.trans hT), hi.ring _ hH le_rfl, hget]
    refine { hi with cons := ⟨rfl, hlt, x, hx, fun i hik => ?_⟩ }
    rw [hslot]
    by_cases hik' : i = ⟨k, hk⟩
    · rw [hik', setCell, Function.update_self]
    · rw [setCell, Function.update_of_ne hik']
      exact hout i (lt_of_le_of_ne (Nat.le_of_lt_succ hik) fun h => hik' (Fin.ext h))
  | publish hpc => exact inv_pop hi hpc
  | size hpc => exact { hi with cons := hi.head.current_eq }
  | @sizeTail h p hpc hr =>
    rw [hpc] at hc
    obtain ⟨hseen, hlast, hval⟩ := hi.tail.readable hr
    have hpop := hi.seenTail.1.trans hseen
    refine { hi with seenTail := ⟨hpop, hlast⟩, cons := trivial, sizes := ?_ }
    rw [hval, show _ = _ from hc]
    exact sizes_append hi hpop (hlast.trans_lt hT)
      (hlast.trans (hi.room.trans (Nat.add_le_add_right hi.seenHead _)))

end Steps

/-- The invariant holds however the two threads are interleaved. -/
theorem Reachable.inv [NeZero w] {capacity : BitVec w} {s : Pipeline w c β}
    (h : Reachable capacity s) (hT : s.accepted.length < 2 ^ w) : Inv s := by
  induction h with
  | init buf => exact inv_init capacity buf
  | producer _ hstep ih => exact inv_producerStep (ih (hstep.accepted_le.trans_lt hT)) hT hstep
  | consumer _ hstep ih =>
    rw [hstep.accepted_eq] at hT
    exact inv_consumerStep (ih hT) hT hstep

/-! ### What the threads and their callers can rely on -/

/-- Read while the indices stand still, the ring holds what was accepted and not popped. -/
lemma Inv.size_eq {s : Pipeline w c β} (hi : Inv s) (hT : s.accepted.length < 2 ^ w) :
    s.size.toNat = s.accepted.length - s.popped.length := by
  rw [size, hi.tail.current_eq, hi.head.current_eq,
    Counter.toNat_ofNat_sub (hi.seenTail.1.trans hi.seenTail.2) (Nat.lt_add_left _ hT)]

lemma Inv.popped_append_queued {s : Pipeline w c β} (hi : Inv s)
    (hT : s.accepted.length < 2 ^ w) : s.popped ++ s.queued = s.accepted := by
  have hle := hi.seenTail.1.trans hi.seenTail.2
  have hqueued : s.queued = s.accepted.drop s.popped.length := by
    apply List.ext_getElem
    · rw [queued, List.length_map, List.length_range, List.length_drop, hi.size_eq hT]
    · intro k hk hk'
      rw [List.length_drop] at hk'
      have hlt : s.popped.length + k < s.accepted.length := Nat.add_lt_of_lt_sub' hk'
      rw [List.getElem_drop, ← hi.ring _ hlt (Nat.le_add_right ..)]
      simp only [queued, List.getElem_map, List.getElem_range]
      rw [hi.head.current_eq, ← BitVec.ofNat_add, s.slot_ofNat (hlt.trans hT)]
  calc s.popped ++ s.queued
      = s.accepted.take s.popped.length ++ s.accepted.drop s.popped.length := by
        rw [hqueued, ← List.prefix_iff_eq_take.mp hi.fifo]
    _ = s.accepted := List.take_append_drop ..

/-- The frames in the ring are in slots that the producer keeps away from. -/
lemma Inv.not_occupied {s : Pipeline w c β} (hi : Inv s) (hT : s.accepted.length < 2 ^ w) {i : ℕ}
    (hw : s.writing = some i) : i ∉ s.occupied ∧ s.reading ≠ some i := by
  have hp := hi.prod
  unfold writing at hw
  cases hpc : s.prod with
  | copy frame t k =>
    rw [hpc] at hp hw
    obtain ⟨rfl, hroom, -⟩ := hp
    obtain rfl : s.slot (BitVec.ofNat w s.accepted.length) = i := Option.some.inj hw
    have hround : s.accepted.length < s.popped.length + s.capacity.toNat :=
      hroom.trans_le (Nat.add_le_add_right hi.seenHead _)
    rw [s.slot_ofNat hT]
    constructor
    · intro hmem
      rw [occupied, List.map_drop, hi.slots] at hmem
      obtain ⟨k, hk, hslot⟩ := List.mem_iff_getElem.mp hmem
      rw [List.length_drop, List.length_map, List.length_range] at hk
      rw [List.getElem_drop, List.getElem_map, List.getElem_range] at hslot
      exact Ring.slot_ne (by omega) (by omega) hslot
    · intro hread
      have hc := hi.cons
      unfold reading at hread
      cases hcons : s.cons with
      | copy out h k =>
        rw [hcons] at hc hread
        obtain ⟨rfl, hlt, -⟩ := hc
        have hH : s.popped.length < s.accepted.length := hlt.trans_le hi.seenTail.2
        rw [Option.some.injEq, s.slot_ofNat (hH.trans hT)] at hread
        exact Ring.slot_ne hH hround hread
      | _ =>
        rw [hcons] at hread
        cases hread
  | _ =>
    rw [hpc] at hw
    cases hw

/-- What a user of the pipeline can rely on. -/
structure Linearizable (s : Pipeline w c β) : Prop where
  /-- Frames leave as they came: none lost, doubled, reordered or mixed. -/
  fifo : s.popped <+: s.accepted
  /-- The producer writes no slot with a frame in it, or one being copied out. -/
  exclusive : ∀ i, s.writing = some i → i ∉ s.occupied ∧ s.reading ≠ some i
  /-- Every call of `push` that returned was accepted or counted as dropped, not both. -/
  calls : s.calls = s.done.map Prod.fst ++ s.prod.pending
  counted : s.accepted.length + s.drops = s.done.length ∧ s.dropped = BitVec.ofNat 64 s.drops
  /-- No thread sees more frames than there are slots. -/
  sized : ∀ r ∈ s.sizes, r.toNat ≤ s.capacity.toNat

/-- **The pipeline is a queue**, for every capacity and every interleaving of one producer and one
consumer, until `2 ^ 64` frames have been accepted. -/
theorem linearizable {capacity : BitVec 64} {s : Pipeline 64 c β} (h : Reachable capacity s)
    (hT : s.accepted.length < 2 ^ 64) : Linearizable s := by
  have hi := h.inv hT
  have hc := h.counted
  exact ⟨hi.fifo, fun i => hi.not_occupied hT, hc.calls, ⟨s.accepted_add_drops, hc.dropped⟩,
    hi.sizes⟩

/-- The first pop reads a `tail_` from before the first frame and finds nothing; the second copies
that frame out while the next one is copied in; the third call of `push` reads a `head_` from before
both pops and drops its frame. -/
theorem linearizable_staleLoads : ∃ s : Pipeline 64 2 Bool, Reachable 2 s ∧
    s.calls = [![true, false], ![false, true], ![true, true]] ∧
    s.popped = [![true, false], ![false, true]] ∧ s.dropped = 1 ∧ Linearizable s := by
  have h₀ : Reachable 2 (init (2 : BitVec 64) fun _ (_ : Fin 2) => false) := Reachable.init _
  have h₁ := h₀.producer (.push ![true, false] rfl)
  have h₂ := h₁.producer (.loadHead rfl (show Atomic.Readable _ 0 0 from ⟨le_rfl, le_rfl⟩))
  have h₃ := h₂.producer (.loadTail rfl)
  have h₄ := h₃.producer (.room rfl (by decide))
  have h₅ := h₄.producer (.copy rfl Nat.two_pos)
  have h₆ := h₅.consumer (.pop (fun _ => false) rfl)
  have h₇ := h₆.producer (.copy rfl Nat.one_lt_two)
  have h₈ := h₇.producer (.publish rfl)
  have h₉ := h₈.consumer (.loadHead rfl)
  have h₁₀ := h₉.consumer (.loadTail rfl (show Atomic.Readable _ 0 0 from ⟨le_rfl, Nat.zero_le 1⟩))
  have h₁₁ := h₁₀.consumer (.empty rfl rfl)
  have h₁₂ := h₁₁.producer (.push ![false, true] rfl)
  have h₁₃ := h₁₂.producer (.loadHead rfl (show Atomic.Readable _ 0 0 from ⟨le_rfl, le_rfl⟩))
  have h₁₄ := h₁₃.consumer (.pop (fun _ => false) rfl)
  have h₁₅ := h₁₄.consumer (.loadHead rfl)
  have h₁₆ := h₁₅.consumer
    (.loadTail rfl (show Atomic.Readable _ 0 1 from ⟨Nat.zero_le 1, le_rfl⟩))
  have h₁₇ := h₁₆.producer (.loadTail rfl)
  have h₁₈ := h₁₇.producer (.room rfl (by decide))
  have h₁₉ := h₁₈.consumer (.some rfl (by decide))
  have h₂₀ := h₁₉.producer (.copy rfl Nat.two_pos)
  have h₂₁ := h₂₀.consumer (.copy rfl Nat.two_pos)
  have h₂₂ := h₂₁.consumer (.copy rfl Nat.one_lt_two)
  have h₂₃ := h₂₂.producer (.copy rfl Nat.one_lt_two)
  have h₂₄ := h₂₃.producer (.publish rfl)
  have h₂₅ := h₂₄.consumer (.publish rfl)
  have h₂₆ := h₂₅.consumer (.pop (fun _ => false) rfl)
  have h₂₇ := h₂₆.consumer (.loadHead rfl)
  have h₂₈ := h₂₇.consumer
    (.loadTail rfl (show Atomic.Readable _ 1 2 from ⟨Nat.le_succ 1, le_rfl⟩))
  have h₂₉ := h₂₈.consumer (.some rfl (by decide))
  have h₃₀ := h₂₉.consumer (.copy rfl Nat.two_pos)
  have h₃₁ := h₃₀.consumer (.copy rfl Nat.one_lt_two)
  have h₃₂ := h₃₁.consumer (.publish rfl)
  have h₃₃ := h₃₂.producer (.push ![true, true] rfl)
  have h₃₄ := h₃₃.producer (.loadHead rfl (show Atomic.Readable _ 0 0 from ⟨le_rfl, Nat.zero_le 2⟩))
  have h₃₅ := h₃₄.producer (.loadTail rfl)
  have h₃₆ := h₃₅.producer (.full rfl (by decide))
  have h₃₇ := h₃₆.producer (.drop rfl)
  have hlin := linearizable h₃₇ (show 2 < 2 ^ 64 by norm_num)
  exact ⟨_, h₃₇, rfl, hlin.fifo.eq_of_length rfl, rfl, hlin⟩

end Pipeline

end BusTestPlatform

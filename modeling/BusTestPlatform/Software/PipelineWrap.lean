import BusTestPlatform.Software.PipelineSpsc

/-!
# Index wrap

The calls of one thread at a time. Each is then one step from a pipeline at rest to another, and
the indices are words that wrap however often the calls make them.

Slot numbers go on from one index to the next across the wrap only if the capacity divides `2 ^ w`.
-/

namespace BusTestPlatform

/-- A pipeline no thread is inside of. -/
structure IdlePipeline (w : ℕ) (α : Type*) where
  buf : ℕ → α
  capacity : BitVec w
  head : BitVec w
  tail : BitVec w
  dropped : BitVec 64

/-- A call, with the caller's frame. `pop` may be given a null pointer. -/
inductive PipelineCall (α : Type*)
  | push (frame : α)
  | pop (out : Option α)

/-- What a call returns, and what `pop` leaves in the caller's frame. -/
inductive PipelineReply (α : Type*)
  | push (ok : Bool)
  | pop (ok : Bool) (out : Option α)

namespace IdlePipeline

variable {w : ℕ} {α : Type*}

def init (capacity : BitVec w) (buf : ℕ → α) : IdlePipeline w α where
  buf := buf
  capacity := if 0 < capacity then capacity else 1
  head := 0
  tail := 0
  dropped := 0

/-- `i % capacity_`. -/
def slot (s : IdlePipeline w α) (i : BitVec w) : ℕ := i.toNat % s.capacity.toNat

def push (s : IdlePipeline w α) (frame : α) : Bool × IdlePipeline w α :=
  let h := s.head
  let t := s.tail
  if s.capacity ≤ t - h then (false, { s with dropped := s.dropped + 1 })
  else (true, { s with buf := Function.update s.buf (s.slot t) frame, tail := t + 1 })

def pop (s : IdlePipeline w α) (out : Option α) : Bool × Option α × IdlePipeline w α :=
  match out with
  | none => (false, none, s)
  | some out =>
    let h := s.head
    let t := s.tail
    if h = t then (false, some out, s)
    else (true, some (s.buf (s.slot h)), { s with head := h + 1 })

def size (s : IdlePipeline w α) : BitVec w :=
  let h := s.head
  let t := s.tail
  t - h

lemma push_of_full {s : IdlePipeline w α} (h : s.capacity ≤ s.tail - s.head) (frame : α) :
    s.push frame = (false, { s with dropped := s.dropped + 1 }) :=
  if_pos h

lemma push_of_room {s : IdlePipeline w α} (h : ¬ s.capacity ≤ s.tail - s.head) (frame : α) :
    s.push frame = (true, { s with buf := Function.update s.buf (s.slot s.tail) frame,
                                   tail := s.tail + 1 }) :=
  if_neg h

lemma pop_of_empty {s : IdlePipeline w α} (h : s.head = s.tail) (out : α) :
    s.pop (some out) = (false, some out, s) :=
  if_pos h

lemma pop_of_ne {s : IdlePipeline w α} (h : s.head ≠ s.tail) (out : α) :
    s.pop (some out) = (true, some (s.buf (s.slot s.head)), { s with head := s.head + 1 }) :=
  if_neg h

/-- One call of `push` or `pop`. -/
def call (s : IdlePipeline w α) : PipelineCall α → PipelineReply α × IdlePipeline w α
  | .push frame => (.push (s.push frame).1, (s.push frame).2)
  | .pop out => (.pop (s.pop out).1 (s.pop out).2.1, (s.pop out).2.2)

/-- The pipeline after some calls. -/
def after (s : IdlePipeline w α) (calls : List (PipelineCall α)) : IdlePipeline w α :=
  calls.foldl (fun s c => (s.call c).2) s

/-! ### The queue it is meant to be -/

/-- How a queue of at most `cap` frames answers a call. -/
def queueCall (cap : ℕ) (q : List α) : PipelineCall α → PipelineReply α × List α
  | .push frame => (.push (BoundedQueue.push cap q frame).1, (BoundedQueue.push cap q frame).2)
  | .pop none => (.pop false none, q)
  | .pop (some out) =>
    match BoundedQueue.pop q with
    | (some frame, q) => (.pop true (some frame), q)
    | (none, q) => (.pop false (some out), q)

def queueAfter (cap : ℕ) (q : List α) (calls : List (PipelineCall α)) : List α :=
  calls.foldl (fun q c => (queueCall cap q c).2) q

/-- After any calls the pipeline holds as many frames as the queue, and answers the next call as
the queue does. -/
def IsFifo (s : IdlePipeline w α) : Prop :=
  ∀ calls : List (PipelineCall α),
    (s.after calls).size.toNat = (queueAfter s.capacity.toNat [] calls).length ∧
    ∀ c, ((s.after calls).call c).1 =
      (queueCall s.capacity.toNat (queueAfter s.capacity.toNat [] calls) c).1

/-! ### Calls as runs of the two threads -/

end IdlePipeline

namespace Pipeline

variable {w c : ℕ} {β : Type*} {s : Pipeline w c β}

/-- The pipeline as a single thread sees it. -/
def idle (s : Pipeline w c β) : IdlePipeline w (Cells c β) where
  buf := s.buf
  capacity := s.capacity
  head := s.head.current
  tail := s.tail.current
  dropped := s.dropped

/-- A frame of which `k` cells are copied over an old one. -/
def partly (frame old : Cells c β) (k : ℕ) : Cells c β :=
  fun i => if i.val < k then frame i else old i

lemma partly_zero (frame old : Cells c β) : partly frame old 0 = old := by
  funext i
  exact if_neg (Nat.not_lt_zero _)

lemma partly_all (frame old : Cells c β) : partly frame old c = frame := by
  funext i
  exact if_pos i.isLt

lemma setCell_partly (frame old : Cells c β) {k : ℕ} (hk : k < c) :
    setCell (partly frame old k) ⟨k, hk⟩ (frame ⟨k, hk⟩) = partly frame old (k + 1) := by
  funext i
  rcases lt_trichotomy i.val k with hlt | heq | hgt
  · rw [setCell, Function.update_of_ne (fun h => hlt.ne (congrArg Fin.val h)), partly, partly,
      if_pos hlt, if_pos (by omega)]
  · obtain rfl : i = ⟨k, hk⟩ := Fin.ext heq
    rw [setCell, Function.update_self, partly, if_pos (Nat.lt_succ_self k)]
  · rw [setCell, Function.update_of_ne (fun h => hgt.ne' (congrArg Fin.val h)), partly, partly,
      if_neg (by omega), if_neg (by omega)]

lemma copyIn_steps {frame : Cells c β} {t : BitVec w} (hpc : s.prod = .copy frame t 0) {k : ℕ}
    (hk : k ≤ c) :
    Relation.ReflTransGen ProducerStep s
      { s with prod := .copy frame t k,
               buf := Function.update s.buf (s.slot t) (partly frame (s.buf (s.slot t)) k) } := by
  induction k with
  | zero =>
    rw [partly_zero, Function.update_eq_self, ← hpc]
  | succ k ih =>
    have hstep := (ih (by omega)).tail (ProducerStep.copy rfl hk)
    simp only [slot, Function.update_self, Function.update_idem, setCell_partly] at hstep
    exact hstep

lemma copyOut_steps {out : Cells c β} {h : BitVec w} (hpc : s.cons = .copy out h 0) {k : ℕ}
    (hk : k ≤ c) :
    Relation.ReflTransGen ConsumerStep s
      { s with cons := .copy (partly (s.buf (s.slot h)) out k) h k } := by
  induction k with
  | zero => rw [partly_zero, ← hpc]
  | succ k ih =>
    have hstep := (ih (by omega)).tail (ConsumerStep.copy rfl hk)
    simp only [slot, setCell_partly] at hstep
    exact hstep

/-- A call of `push` that nothing comes between, and that reads the newest `head_`. -/
theorem push_steps (hpc : s.prod = .idle) (hseen : s.seenHead ≤ s.head.last)
    (frame : Cells c β) :
    ∃ s', Relation.ReflTransGen ProducerStep s s' ∧ s'.prod = .idle ∧ s'.cons = s.cons ∧
      s'.lastPush = (s.idle.push frame).1 ∧ s'.idle = (s.idle.push frame).2 := by
  have hbegin := Relation.ReflTransGen.single (ProducerStep.push frame hpc)
  have hhead := hbegin.tail (ProducerStep.loadHead rfl ⟨hseen, le_rfl⟩)
  have htail := hhead.tail (ProducerStep.loadTail rfl)
  by_cases hfull : s.capacity ≤ s.tail.current - s.head.current
  · have hpush := IdlePipeline.push_of_full (s := s.idle) hfull frame
    rw [hpush]
    exact ⟨_, (htail.tail (ProducerStep.full rfl hfull)).tail (ProducerStep.drop rfl), rfl, rfl,
      lastPush_of_done (s := s) (r := none) rfl, rfl⟩
  · have hpush := IdlePipeline.push_of_room (s := s.idle) hfull frame
    have hroom := htail.tail (ProducerStep.room rfl hfull)
    have hcopy := hroom.trans (copyIn_steps rfl le_rfl)
    rw [hpush]
    refine ⟨_, hcopy.tail (ProducerStep.publish rfl), rfl, rfl,
      lastPush_of_done (s := s) (r := some _) rfl, ?_⟩
    simp only [idle, partly_all, Atomic.current_store]
    rfl

/-- A call of `pop` that nothing comes between, and that reads the newest `tail_`. -/
theorem pop_steps (hpc : s.cons = .idle) (hseen : s.seenTail ≤ s.tail.last) (out : Cells c β) :
    ∃ s', Relation.ReflTransGen ConsumerStep s s' ∧ s'.cons = .idle ∧ s'.prod = s.prod ∧
      s'.popped = s.popped ++
        (if (s.idle.pop (some out)).1 then (s.idle.pop (some out)).2.1.toList else []) ∧
      s'.idle = (s.idle.pop (some out)).2.2 := by
  have hbegin := Relation.ReflTransGen.single (ConsumerStep.pop out hpc)
  have hhead := hbegin.tail (ConsumerStep.loadHead rfl)
  have htail := hhead.tail (ConsumerStep.loadTail rfl ⟨hseen, le_rfl⟩)
  by_cases hempty : s.head.current = s.tail.current
  · have hpop := IdlePipeline.pop_of_empty (s := s.idle) hempty out
    rw [hpop]
    exact ⟨_, htail.tail (ConsumerStep.empty rfl hempty), rfl, rfl, (List.append_nil _).symm, rfl⟩
  · have hpop := IdlePipeline.pop_of_ne (s := s.idle) hempty out
    have hsome := htail.tail (ConsumerStep.some rfl hempty)
    have hcopy := hsome.trans (copyOut_steps rfl le_rfl)
    rw [hpop]
    refine ⟨_, hcopy.tail (ConsumerStep.publish rfl), rfl, rfl, ?_, ?_⟩
    · simp only [partly_all]
      rfl
    · simp only [idle, Atomic.current_store]

end Pipeline

namespace IdlePipeline

variable {w : ℕ} {α : Type*}

/-! ### Capacities that divide the range of the indices -/

/-- The pipeline has accepted `xs`, of which the first `n` are out. The indices count both, wrapped,
and the slot of an index is the one of the number it stands for. -/
structure Represents (s : IdlePipeline w α) (xs : List α) (n : ℕ) : Prop where
  pos : 0 < s.capacity.toNat
  dvd : s.capacity.toNat ∣ 2 ^ w
  head : s.head = BitVec.ofNat w n
  tail : s.tail = BitVec.ofNat w xs.length
  popped : n ≤ xs.length
  room : xs.length ≤ n + s.capacity.toNat
  ring : Ring.Holds s.buf s.capacity.toNat n xs

section Represents

variable {s : IdlePipeline w α} {xs : List α} {n : ℕ}

lemma Represents.slot_eq (h : Represents s xs n) (j : ℕ) :
    s.slot (BitVec.ofNat w j) = j % s.capacity.toNat := by
  rw [slot, BitVec.toNat_ofNat, Nat.mod_mod_of_dvd j h.dvd]

lemma Represents.toNat_size (h : Represents s xs n) : s.size.toNat = xs.length - n := by
  have hroom := h.room
  have hcap := s.capacity.isLt
  rw [size, h.head, h.tail]
  exact Counter.toNat_ofNat_sub h.popped (by omega)

lemma Represents.full_iff (h : Represents s xs n) :
    s.capacity ≤ s.tail - s.head ↔ (xs.drop n).length = s.capacity.toNat := by
  have hroom := h.room
  have hsize : (s.tail - s.head).toNat = xs.length - n := h.toNat_size
  rw [BitVec.le_def, hsize, List.length_drop]
  omega

lemma Represents.empty_iff (h : Represents s xs n) : s.head = s.tail ↔ n = xs.length := by
  have hpopped := h.popped
  have hsize : (s.tail - s.head).toNat = xs.length - n := h.toNat_size
  constructor
  · intro heq
    rw [heq, BitVec.sub_self, BitVec.toNat_zero] at hsize
    omega
  · intro heq
    rw [h.head, h.tail, heq]

lemma Represents.push (h : Represents s xs n) (hroom : xs.length < n + s.capacity.toNat)
    (frame : α) :
    Represents { s with buf := Function.update s.buf (s.slot s.tail) frame,
                        tail := s.tail + 1 } (xs ++ [frame]) n where
  pos := h.pos
  dvd := h.dvd
  head := h.head
  tail := by rw [h.tail, Counter.ofNat_succ, List.length_append, List.length_singleton]
  popped := by
    rw [List.length_append]
    exact h.popped.trans (Nat.le_add_right _ _)
  room := by
    rw [List.length_append]
    exact hroom
  ring := by
    rw [h.tail, h.slot_eq]
    exact (h.ring.write_next hroom frame).append (Function.update_self ..)

lemma Represents.pop (h : Represents s xs n) (hlt : n < xs.length) :
    s.buf (s.slot s.head) = xs[n] ∧ Represents { s with head := s.head + 1 } xs (n + 1) := by
  refine ⟨?_, ?_⟩
  · rw [h.head, h.slot_eq]
    exact h.ring n hlt le_rfl
  · exact { h with
      head := by rw [h.head, Counter.ofNat_succ]
      popped := hlt
      room := h.room.trans (Nat.add_le_add_right (Nat.le_succ n) _)
      ring := h.ring.mono (Nat.le_succ n) }

/-- A call is answered as the queue answers it, and leaves both sides related. -/
lemma Represents.call (h : Represents s xs n) (c : PipelineCall α) :
    (s.call c).1 = (queueCall s.capacity.toNat (xs.drop n) c).1 ∧
    ∃ xs' n', Represents (s.call c).2 xs' n' ∧
      xs'.drop n' = (queueCall s.capacity.toNat (xs.drop n) c).2 := by
  cases c with
  | push frame =>
    rw [IdlePipeline.call, queueCall]
    by_cases hfull : s.capacity ≤ s.tail - s.head
    · rw [push_of_full hfull, BoundedQueue.push, if_pos (h.full_iff.mp hfull)]
      exact ⟨rfl, xs, n, { h with }, rfl⟩
    · have hne := mt h.full_iff.mpr hfull
      have hroom : xs.length < n + s.capacity.toNat := by
        have hle := h.room
        rw [List.length_drop] at hne
        omega
      rw [push_of_room hfull, BoundedQueue.push_drop_of_lt h.popped hroom]
      exact ⟨rfl, xs ++ [frame], n, h.push hroom frame, rfl⟩
  | pop out =>
    cases out with
    | none => exact ⟨rfl, xs, n, h, rfl⟩
    | some out =>
      rw [IdlePipeline.call, queueCall]
      by_cases hempty : s.head = s.tail
      · obtain rfl := h.empty_iff.mp hempty
        rw [pop_of_empty hempty, List.drop_length]
        exact ⟨rfl, xs, xs.length, h, List.drop_length⟩
      · have hlt := lt_of_le_of_ne h.popped (mt h.empty_iff.mpr hempty)
        obtain ⟨hframe, hnext⟩ := h.pop hlt
        rw [pop_of_ne hempty, hframe, BoundedQueue.pop_drop_of_lt hlt]
        exact ⟨rfl, xs, n + 1, hnext, rfl⟩

end Represents

@[simp] lemma call_capacity (s : IdlePipeline w α) (c : PipelineCall α) :
    (s.call c).2.capacity = s.capacity := by
  cases c with
  | push frame =>
    rw [call, push]
    split <;> rfl
  | pop out =>
    cases out with
    | none => rfl
    | some out =>
      rw [call, pop]
      split <;> rfl

lemma Represents.after {s : IdlePipeline w α} {xs : List α} {n : ℕ} (h : Represents s xs n)
    (calls : List (PipelineCall α)) :
    ∃ xs' n', Represents (s.after calls) xs' n' ∧ (s.after calls).capacity = s.capacity ∧
      xs'.drop n' = queueAfter s.capacity.toNat (xs.drop n) calls := by
  induction calls generalizing s xs n with
  | nil => exact ⟨xs, n, h, rfl, rfl⟩
  | cons c calls ih =>
    obtain ⟨-, xs₁, n₁, h₁, hqueue₁⟩ := h.call c
    obtain ⟨xs₂, n₂, h₂, hcap₂, hqueue₂⟩ := ih h₁
    rw [call_capacity] at hcap₂ hqueue₂
    refine ⟨xs₂, n₂, h₂, hcap₂, ?_⟩
    rw [hqueue₂, hqueue₁]
    rfl

lemma Represents.isFifo {s : IdlePipeline w α} (h : Represents s [] 0) : s.IsFifo := by
  intro calls
  obtain ⟨xs, n, hafter, hcap, hqueue⟩ := h.after calls
  rw [List.drop_nil] at hqueue
  rw [← hqueue, ← hcap, hafter.toNat_size, List.length_drop]
  exact ⟨rfl, fun c => (hafter.call c).1⟩

lemma toNat_capacity_init [NeZero w] (capacity : BitVec w) (buf : ℕ → α) :
    (init capacity buf).capacity.toNat = if capacity = 0 then 1 else capacity.toNat := by
  rw [init]
  by_cases h : capacity = 0
  · rw [if_pos h, if_neg (by simp [h])]
    exact BitVec.toNat_one (NeZero.pos w)
  · have hlt : 0 < capacity := (BitVec.pos_iff_ne_zero capacity).mpr h
    rw [if_neg h, if_pos hlt]

lemma capacity_init_pos [NeZero w] (capacity : BitVec w) (buf : ℕ → α) :
    0 < (init capacity buf).capacity.toNat := by
  rw [toNat_capacity_init]
  by_cases h : capacity = 0
  · rw [if_pos h]
    exact Nat.one_pos
  · rw [if_neg h]
    exact BitVec.toNat_pos_of_ne_zero h

/-! ### The others -/

section Wrap

variable {s : IdlePipeline w α}

/-- A frame in and out again. -/
def round (x : α) : List (PipelineCall α) := [.push x, .pop (some x)]

lemma after_append (s : IdlePipeline w α) (cs ds : List (PipelineCall α)) :
    s.after (cs ++ ds) = (s.after cs).after ds :=
  List.foldl_append

lemma queueAfter_append (cap : ℕ) (q : List α) (cs ds : List (PipelineCall α)) :
    queueAfter cap q (cs ++ ds) = queueAfter cap (queueAfter cap q cs) ds :=
  List.foldl_append

lemma after_round (hpos : 0 < s.capacity.toNat) (hrest : s.head = s.tail) (x : α) :
    (s.after (round x)).capacity = s.capacity ∧ (s.after (round x)).head = s.head + 1 ∧
      (s.after (round x)).tail = s.tail + 1 := by
  have hw : 0 < w := by
    by_contra hzero
    obtain rfl : w = 0 := by omega
    have := s.capacity.isLt
    omega
  have hroom : ¬ s.capacity ≤ s.tail - s.head := by
    rw [hrest, BitVec.sub_self, BitVec.le_def, BitVec.toNat_zero]
    omega
  have hne : s.tail ≠ s.tail + 1 := by
    intro h
    exact hw.ne' (BitVec.one_eq_zero_iff.mp (BitVec.add_right_eq_self.mp h.symm))
  rw [after, round, List.foldl_cons, List.foldl_cons, List.foldl_nil, call, push_of_room hroom,
    call, pop_of_ne (by rw [hrest]; exact hne)]
  exact ⟨rfl, rfl, rfl⟩

lemma after_rounds (hpos : 0 < s.capacity.toNat) (hhead : s.head = 0) (htail : s.tail = 0)
    (x : α) (k : ℕ) :
    (s.after (List.replicate k (round x)).flatten).capacity = s.capacity ∧
      (s.after (List.replicate k (round x)).flatten).head = BitVec.ofNat w k ∧
      (s.after (List.replicate k (round x)).flatten).tail = BitVec.ofNat w k := by
  induction k with
  | zero => exact ⟨rfl, hhead, htail⟩
  | succ k ih =>
    obtain ⟨hcap, hh, ht⟩ := ih
    rw [List.replicate_succ', List.flatten_append, List.flatten_singleton, after_append,
      ← Counter.ofNat_succ, ← hcap]
    have hround := after_round (x := x) (by rwa [hcap]) (hh.trans ht.symm)
    rwa [hh, ht] at hround

lemma queueAfter_rounds {cap : ℕ} (hcap : 0 < cap) (x : α) (k : ℕ) :
    queueAfter cap [] (List.replicate k (round x)).flatten = [] := by
  induction k with
  | zero => rfl
  | succ k ih =>
    rw [List.replicate_succ', List.flatten_append, List.flatten_singleton, queueAfter_append, ih]
    simp [round, queueAfter, queueCall, BoundedQueue.push, BoundedQueue.pop, hcap.ne]

lemma queueAfter_pushes {cap k : ℕ} (x y : α) (hk : k + 1 ≤ cap) :
    queueAfter cap [] (.push x :: List.replicate k (.push y)) = x :: List.replicate k y := by
  induction k with
  | zero =>
    have hne : 0 ≠ cap := by omega
    simp [queueAfter, queueCall, BoundedQueue.push, hne]
  | succ k ih =>
    have hne : k + 1 ≠ cap := by omega
    rw [List.replicate_succ', ← List.cons_append, queueAfter_append, ih (by omega)]
    simp [queueAfter, queueCall, BoundedQueue.push, hne, List.replicate_succ']

/-- Frames pushed across the wrap: the last index is in slot `(2 ^ w - 1) % cap`, and those after it
start from slot 0 again. -/
lemma after_pushes {k : ℕ} (hhead : s.head = BitVec.ofNat w (2 ^ w - 1))
    (htail : s.tail = BitVec.ofNat w (2 ^ w - 1)) (x y : α) (hk : k + 1 ≤ s.capacity.toNat) :
    (s.after (.push x :: List.replicate k (.push y))).capacity = s.capacity ∧
      (s.after (.push x :: List.replicate k (.push y))).head = BitVec.ofNat w (2 ^ w - 1) ∧
      (s.after (.push x :: List.replicate k (.push y))).tail = BitVec.ofNat w (2 ^ w + k) ∧
      ∀ i < k, (s.after (.push x :: List.replicate k (.push y))).buf i = y := by
  have hw := Nat.two_pow_pos w
  induction k with
  | zero =>
    have hroom : ¬ s.capacity ≤ s.tail - s.head := by
      rw [hhead, htail, BitVec.sub_self, BitVec.le_def, BitVec.toNat_zero]
      omega
    rw [List.replicate_zero, after, List.foldl_cons, List.foldl_nil, call, push_of_room hroom]
    refine ⟨rfl, hhead, ?_, fun i hi => absurd hi (Nat.not_lt_zero i)⟩
    simp only [htail, Counter.ofNat_succ, Nat.add_zero, Nat.sub_add_cancel hw]
  | succ k ih =>
    obtain ⟨hcap, hh, ht, hbuf⟩ := ih (by omega)
    have hcaplt := s.capacity.isLt
    rw [List.replicate_succ', ← List.cons_append, after_append]
    set s₁ := s.after (.push x :: List.replicate k (.push y))
    have hroom : ¬ s₁.capacity ≤ s₁.tail - s₁.head := by
      rw [hcap, hh, ht, BitVec.le_def, Counter.toNat_ofNat_sub (by omega) (by omega)]
      omega
    have hslot : s₁.slot s₁.tail = k := by
      rw [slot, hcap, ht, BitVec.toNat_ofNat, Nat.add_mod_left,
        Nat.mod_eq_of_lt (show k < 2 ^ w by omega), Nat.mod_eq_of_lt (by omega)]
    rw [after, List.foldl_cons, List.foldl_nil, call, push_of_room hroom]
    refine ⟨hcap, hh, ?_, ?_⟩
    · simp only [ht, Counter.ofNat_succ, Nat.add_assoc]
    · intro i hi
      simp only [hslot]
      rcases Nat.eq_or_lt_of_le (Nat.le_of_lt_succ hi) with rfl | hlt
      · rw [Function.update_self]
      · rw [Function.update_of_ne hlt.ne]
        exact hbuf i hlt

/-- With any other capacity a frame is overwritten while it is queued, when the indices wrap. -/
lemma not_isFifo [Nontrivial α] (hpos : 0 < s.capacity.toNat) (hhead : s.head = 0)
    (htail : s.tail = 0) (hdvd : ¬ s.capacity.toNat ∣ 2 ^ w) : ¬ s.IsFifo := by
  intro hfifo
  obtain ⟨x, y, hxy⟩ := exists_pair_ne α
  have hw := Nat.two_pow_pos w
  set cap := s.capacity.toNat with hcapDef
  set r := (2 ^ w - 1) % cap with hr
  have hrlt : r < cap := Nat.mod_lt _ hpos
  have hwrap : r + 2 ≤ cap := by
    have hne : r + 1 ≠ cap := by
      intro heq
      apply hdvd
      have hdiv := Nat.div_add_mod (2 ^ w - 1) cap
      refine ⟨(2 ^ w - 1) / cap + 1, ?_⟩
      rw [Nat.mul_add, Nat.mul_one]
      omega
    omega
  obtain ⟨hcap₁, hhead₁, htail₁⟩ := after_rounds hpos hhead htail x (2 ^ w - 1)
  obtain ⟨hcap₂, hhead₂, htail₂, hbuf₂⟩ := after_pushes (k := r + 1) hhead₁ htail₁ x y
    (by rw [hcap₁]; exact hwrap)
  have hsame := (hfifo ((List.replicate (2 ^ w - 1) (round x)).flatten ++
    (.push x :: List.replicate (r + 1) (.push y)))).2 (.pop (some x))
  rw [after_append, queueAfter_append, queueAfter_rounds hpos, queueAfter_pushes x y hwrap] at hsame
  set s₂ := (s.after (List.replicate (2 ^ w - 1) (round x)).flatten).after
    (.push x :: List.replicate (r + 1) (.push y))
  have hcaplt := s.capacity.isLt
  have hne : s₂.head ≠ s₂.tail := by
    intro heq
    have hsize := Counter.toNat_ofNat_sub (w := w) (a := 2 ^ w - 1) (b := 2 ^ w + (r + 1))
      (by omega) (by omega)
    rw [← hhead₂, ← htail₂, heq, BitVec.sub_self, BitVec.toNat_zero] at hsize
    omega
  have hslot : s₂.slot s₂.head = r := by
    rw [slot, hcap₂, hcap₁, hhead₂, BitVec.toNat_ofNat,
      Nat.mod_eq_of_lt (show 2 ^ w - 1 < 2 ^ w by omega)]
  rw [call, pop_of_ne hne, hslot, hbuf₂ r (Nat.lt_succ_self r)] at hsame
  simp only [queueCall, BoundedQueue.pop, PipelineReply.pop.injEq, Option.some.injEq,
    true_and] at hsame
  exact hxy hsame.symm

end Wrap

/-- The pipeline stays a queue across index wraps for the capacities that divide the range of the
indices, which are the powers of two, and for these only. -/
theorem isFifo_iff [NeZero w] [Nontrivial α] (capacity : BitVec w) (buf : ℕ → α) :
    (init capacity buf).IsFifo ↔ capacity = 0 ∨ capacity.toNat ∣ 2 ^ w := by
  have hcap := toNat_capacity_init capacity buf
  have hpos := capacity_init_pos capacity buf
  have hdvd : (init capacity buf).capacity.toNat ∣ 2 ^ w ↔
      capacity = 0 ∨ capacity.toNat ∣ 2 ^ w := by
    rw [hcap]
    by_cases h : capacity = 0
    · rw [if_pos h]
      exact iff_of_true (one_dvd _) (Or.inl h)
    · rw [if_neg h, or_iff_right h]
  rw [← hdvd]
  constructor
  · intro hfifo
    by_contra hnot
    exact not_isFifo hpos rfl rfl hnot hfifo
  · intro h
    exact Represents.isFifo ⟨hpos, h, rfl, rfl, le_rfl, Nat.zero_le _, Ring.holds_nil⟩

/-- The capacity a pipeline is given by default. -/
theorem isFifo_4096 : (init (4096 : BitVec 64) (fun _ => (0 : ℕ))).IsFifo :=
  (isFifo_iff 4096 _).mpr (Or.inr (by decide))

/-- The capacity of the test that wraps slot numbers. -/
theorem not_isFifo_three : ¬ (init (3 : BitVec 64) (fun _ => (0 : ℕ))).IsFifo ∧
    ¬ (init (3 : BitVec 32) (fun _ => (0 : ℕ))).IsFifo :=
  ⟨not_isFifo (by decide) rfl rfl (by decide), not_isFifo (by decide) rfl rfl (by decide)⟩

end IdlePipeline

end BusTestPlatform

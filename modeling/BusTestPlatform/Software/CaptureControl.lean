import BusTestPlatform.Lib.Guarded

/-!
# `CaptureService` under several controllers

`start` and `stop` of one service, called by any number of controller threads, with the worker
threads that `start` has created. Every access to `running_` and to `worker_` is a step; of the
worker's loop only the load of `running_` matters here, and a cycle of polling and pushing is one
step. `std::terminate` is a fault, after which nothing runs.

`start` loads `running_` and stores it later, and `stop` clears it before the join. Where no other
call falls into either gap, there is one worker at most.
-/

namespace BusTestPlatform

open Guarded

/-- Where a worker is in `run`. -/
inductive WorkerLoop where
  | loadRunning
  | cycle
  | exited
deriving DecidableEq, Repr

/-- The next step of a controller. -/
inductive CallPc where
  | idle
  | checkOpen
  | openDevice
  | storeRunning
  | spawn
  /-- The thread is created, with `alive` others at that moment, and not yet in `worker_`. -/
  | assign (thread alive : ℕ)
  | checkJoinable
  | join
deriving DecidableEq, Repr

/-- Inside `start`. -/
def CallPc.inStart : CallPc → Bool
  | checkOpen | openDevice | storeRunning | spawn | assign _ _ => true
  | _ => false

/-- Inside `start`, from the store of `running_` to the assignment of `worker_`. -/
def CallPc.spawning : CallPc → Bool
  | spawn | assign _ _ => true
  | _ => false

/-- Inside `stop`, from the exchange of `running_` to the end of the join. -/
def CallPc.stopping : CallPc → Bool
  | checkJoinable | join => true
  | _ => false

/-- In no gap of `start` or `stop`. -/
def CallPc.Outside (pc : CallPc) : Prop := pc.spawning = false ∧ pc.stopping = false

/-- A call that has returned, and what was so at that moment. -/
inductive Return where
  | startFalse
  /-- `start` returns `true`; `alive` workers were alive when it created its own. -/
  | startTrue (alive : ℕ)
  /-- `stop` returns while `alive` workers are alive. -/
  | stop (startInProgress : Bool) (alive : ℕ)
deriving DecidableEq, Repr

/-- What a return may report: `start` has created the only worker, and `stop` leaves none. -/
def Return.Good : Return → Prop
  | .startFalse => True
  | .startTrue alive => alive = 0
  | .stop startInProgress alive => startInProgress = false → alive = 0

/-- Why `std::terminate` was called. -/
inductive Fault where
  | joinableOverwritten
  | notJoinable
deriving DecidableEq, Repr

/-- `CaptureService` as its controllers `ι` see it. -/
structure CaptureControl (ι : Type) where
  running : Bool
  isOpen : Bool
  /-- The thread that `worker_` holds while it is joinable. -/
  worker : Option ℕ
  /-- The number of threads created so far. -/
  created : ℕ
  loop : ℕ → WorkerLoop
  pc : ι → CallPc
  fault : Option Fault
  /-- The calls that have returned, the latest first. -/
  returned : List Return

/-- What can happen next: a controller calls, goes on with its call (`opened` is what `open`
returns), or a worker goes on. -/
inductive ControlAct (ι : Type) where
  | start (c : ι)
  | stop (c : ι)
  | next (c : ι) (opened : Bool)
  | work (thread : ℕ)
deriving DecidableEq, Repr

namespace CaptureControl

variable {ι : Type}

/-- A service before any call. -/
def init (isOpen : Bool) : CaptureControl ι where
  running := false
  isOpen := isOpen
  worker := none
  created := 0
  loop _ := .loadRunning
  pc _ := .idle
  fault := none
  returned := []

/-- The threads that have not returned from `run`. -/
def live (s : CaptureControl ι) : Finset ℕ :=
  (Finset.range s.created).filter fun t => s.loop t ≠ .exited

section
variable [Fintype ι] [DecidableEq ι] (s : CaptureControl ι) (c : ι)

def goto (pc : CallPc) : CaptureControl ι := { s with pc := Function.update s.pc c pc }

def startReturns (r : Return) : CaptureControl ι :=
  { s.goto c .idle with returned := r :: s.returned }

def stopReturns : CaptureControl ι :=
  { s.goto c .idle with
    returned := .stop (decide (∃ d, (s.pc d).inStart)) s.live.card :: s.returned }

/-- The first step of `start`. -/
def start : CaptureControl ι :=
  if s.running then s.startReturns c .startFalse else s.goto c .checkOpen

/-- The first step of `stop`. -/
def stop : CaptureControl ι :=
  if s.running then { s.goto c .checkJoinable with running := false } else s.stopReturns c

/-- The next step of the call that `c` is in. A join waits for the end of the thread. -/
def next (opened : Bool) : Option (CaptureControl ι) :=
  match s.pc c with
  | .idle => none
  | .checkOpen => some (s.goto c (if s.isOpen then .storeRunning else .openDevice))
  | .openDevice =>
    if opened then some { s.goto c .storeRunning with isOpen := true }
    else some (s.startReturns c .startFalse)
  | .storeRunning => some { s.goto c .spawn with running := true }
  | .spawn =>
    some { s.goto c (.assign s.created s.live.card) with
      created := s.created + 1, loop := Function.update s.loop s.created .loadRunning }
  | .assign t alive =>
    if s.worker.isSome then some { s with fault := some .joinableOverwritten }
    else some { s.startReturns c (.startTrue alive) with worker := some t }
  | .checkJoinable => some (if s.worker.isSome then s.goto c .join else s.stopReturns c)
  | .join =>
    match s.worker with
    | none => some { s with fault := some .notJoinable }
    | some t => if s.loop t = .exited then some { s.stopReturns c with worker := none } else none

end

/-- The next step of thread `t`. -/
def work (s : CaptureControl ι) (t : ℕ) : Option (CaptureControl ι) :=
  if s.created ≤ t then none
  else
    match s.loop t with
    | .loadRunning =>
      some { s with loop := Function.update s.loop t (if s.running then .cycle else .exited) }
    | .cycle => some { s with loop := Function.update s.loop t .loadRunning }
    | .exited => none

def step [Fintype ι] [DecidableEq ι] (s : CaptureControl ι) (a : ControlAct ι) :
    Option (CaptureControl ι) :=
  if s.fault.isSome then none
  else
    match a with
    | .start c => if s.pc c = .idle then some (s.start c) else none
    | .stop c => if s.pc c = .idle then some (s.stop c) else none
    | .next c opened => s.next c opened
    | .work t => s.work t

section
variable [DecidableEq ι] {s : CaptureControl ι} {c : ι}

lemma start_eq_of_running (hrun : s.running = true) :
    s.start c = s.startReturns c .startFalse := if_pos hrun

lemma start_eq_of_stopped (hrun : s.running = false) : s.start c = s.goto c .checkOpen :=
  if_neg (by simp [hrun])

variable [Fintype ι]

lemma step_start (hfault : s.fault = none) (hpc : s.pc c = .idle) :
    s.step (.start c) = some (s.start c) := by
  simp [step, hfault, hpc]

lemma step_stop (hfault : s.fault = none) (hpc : s.pc c = .idle) :
    s.step (.stop c) = some (s.stop c) := by
  simp [step, hfault, hpc]

lemma stop_eq_of_running (hrun : s.running = true) :
    s.stop c = { s.goto c .checkJoinable with running := false } := if_pos hrun

lemma stop_eq_of_stopped (hrun : s.running = false) : s.stop c = s.stopReturns c :=
  if_neg (by simp [hrun])

lemma next_assign {t n : ℕ} (hpc : s.pc c = .assign t n) (hw : s.worker = none) (opened : Bool) :
    s.next c opened = some { s.startReturns c (.startTrue n) with worker := some t } := by
  simp [next, hpc, hw]

lemma next_checkJoinable {t : ℕ} (hpc : s.pc c = .checkJoinable) (hw : s.worker = some t)
    (opened : Bool) : s.next c opened = some (s.goto c .join) := by
  simp [next, hpc, hw]

lemma next_join {t : ℕ} (hpc : s.pc c = .join) (hw : s.worker = some t)
    (hexit : s.loop t = .exited) (opened : Bool) :
    s.next c opened = some { s.stopReturns c with worker := none } := by
  simp [next, hpc, hw, hexit]

lemma step_next (hfault : s.fault = none) (opened : Bool) :
    s.step (.next c opened) = s.next c opened := by
  simp [step, hfault]

lemma step_work (hfault : s.fault = none) (t : ℕ) : s.step (.work t) = s.work t := by
  simp [step, hfault]

end

/-- At most one producer. -/
structure Safe (s : CaptureControl ι) : Prop where
  alive_le_one : s.live.card ≤ 1
  no_fault : s.fault = none
  returned : ∀ r ∈ s.returned, r.Good

/-- The steps that keep apart the calls of different controllers: `start` stores `running_` while
it is still clear and no `stop` waits for a worker, `stop` clears it while no `start` is about to
create or assign a worker, and `stop` finds it clear while no other `stop` waits for a live one. -/
def Separate (s : CaptureControl ι) : ControlAct ι → Prop
  | .next c _ =>
    s.pc c = .storeRunning → s.running = false ∧ ∀ d, (s.pc d).stopping = false
  | .stop _ =>
    if s.running then ∀ d, (s.pc d).spawning = false
    else (∃ d, (s.pc d).stopping) → s.live = ∅
  | _ => True

instance [Fintype ι] (s : CaptureControl ι) : DecidablePred (Separate s)
  | .start _ => inferInstanceAs (Decidable True)
  | .stop _ => inferInstanceAs (Decidable (if s.running then _ else _))
  | .next _ _ => inferInstanceAs (Decidable (_ → _))
  | .work _ => inferInstanceAs (Decidable True)

/-! ### Where the controllers are -/

/-- No controller is at a place in `f`. -/
def Nowhere (f : CallPc → Bool) (pc : ι → CallPc) : Prop := ∀ d, f (pc d) = false

/-- No controller but `c` is at a place in `f`. -/
def OnlyAt (f : CallPc → Bool) (pc : ι → CallPc) (c : ι) : Prop := ∀ d ≠ c, f (pc d) = false

section
variable {f : CallPc → Bool} {pc : ι → CallPc} {c e : ι} {p : CallPc}

lemma Nowhere.onlyAt (h : Nowhere f pc) : OnlyAt f pc c := fun d _ => h d

lemma Nowhere.absurd {P : Prop} (h : Nowhere f pc) (hc : f (pc c) = true) : P := by
  rw [h c] at hc
  cases hc

lemma OnlyAt.eq (h : OnlyAt f pc e) (hc : f (pc c) = true) : c = e := by
  by_contra hne
  rw [h c hne] at hc
  cases hc

variable [DecidableEq ι]

lemma OnlyAt.moves (h : OnlyAt f pc c) : OnlyAt f (Function.update pc c p) c := by
  intro d hd
  rw [Function.update_of_ne hd]
  exact h d hd

lemma OnlyAt.leaves (h : OnlyAt f pc c) (hp : f p = false) :
    Nowhere f (Function.update pc c p) := by
  intro d
  by_cases hd : d = c
  · subst hd
    rwa [Function.update_self]
  · exact h.moves d hd

lemma Nowhere.update (h : Nowhere f pc) (hp : f p = false) : Nowhere f (Function.update pc c p) :=
  h.onlyAt.leaves hp

lemma OnlyAt.update (h : OnlyAt f pc e) (hp : f p = false) :
    OnlyAt f (Function.update pc c p) e := by
  intro d hd
  by_cases hdc : d = c
  · subst hdc
    rwa [Function.update_self]
  · rw [Function.update_of_ne hdc]
    exact h d hd

/-- A step of a controller that is not in `f` leaves the one that is where it is. -/
lemma update_stays (hc : f (pc c) = false) (he : f (pc e) = true) :
    Function.update pc c p e = pc e := by
  refine Function.update_of_ne ?_ p pc
  rintro rfl
  rw [hc] at he
  cases he

end

/-! ### The phases of the service

Off, starting, on and stopping: `Phase` says who is inside a gap, whether `worker_` is joinable and
which thread may be alive. Calls that are in no gap do not show in it.
-/

/-- The phases, as relations of `running_`, `worker_`, the live threads and the calls. -/
inductive Phase (pc : ι → CallPc) : Bool → Option ℕ → Finset ℕ → Prop
  | off (hspawn : Nowhere CallPc.spawning pc) (hstop : Nowhere CallPc.stopping pc) :
      Phase pc false none ∅
  | spawning (c : ι) (hpc : pc c = .spawn) (hspawn : OnlyAt CallPc.spawning pc c)
      (hstop : Nowhere CallPc.stopping pc) :
      Phase pc true none ∅
  | assigning (c : ι) {t : ℕ} {live : Finset ℕ} (hpc : pc c = .assign t 0)
      (hspawn : OnlyAt CallPc.spawning pc c) (hstop : Nowhere CallPc.stopping pc)
      (hlive : live ⊆ {t}) :
      Phase pc true none live
  | on {t : ℕ} {live : Finset ℕ} (hspawn : Nowhere CallPc.spawning pc)
      (hstop : Nowhere CallPc.stopping pc) (hlive : live ⊆ {t}) :
      Phase pc true (some t) live
  | stopping (c : ι) {t : ℕ} {live : Finset ℕ} (hpc : (pc c).stopping)
      (hspawn : Nowhere CallPc.spawning pc) (hstop : OnlyAt CallPc.stopping pc c)
      (hlive : live ⊆ {t}) :
      Phase pc false (some t) live

namespace Phase

variable {pc : ι → CallPc} {running : Bool} {worker : Option ℕ} {live live' : Finset ℕ} {c : ι}

lemma exists_subset_singleton (h : Phase pc running worker live) : ∃ t, live ⊆ {t} := by
  cases h with
  | off => exact ⟨0, Finset.empty_subset _⟩
  | spawning => exact ⟨0, Finset.empty_subset _⟩
  | assigning _ _ _ _ hlive => exact ⟨_, hlive⟩
  | on _ _ hlive => exact ⟨_, hlive⟩
  | stopping _ _ _ _ hlive => exact ⟨_, hlive⟩

lemma live_le_one (h : Phase pc running worker live) : live.card ≤ 1 := by
  obtain ⟨t, hlive⟩ := h.exists_subset_singleton
  exact (Finset.card_le_card hlive).trans_eq (Finset.card_singleton t)

/-- Workers end at any time. -/
lemma mono (h : Phase pc running worker live) (hsub : live' ⊆ live) :
    Phase pc running worker live' := by
  cases h with
  | off hspawn hstop =>
    obtain rfl := Finset.subset_empty.mp hsub
    exact .off hspawn hstop
  | spawning c hpc hspawn hstop =>
    obtain rfl := Finset.subset_empty.mp hsub
    exact .spawning c hpc hspawn hstop
  | assigning c hpc hspawn hstop hlive =>
    exact .assigning c hpc hspawn hstop (hsub.trans hlive)
  | on hspawn hstop hlive => exact .on hspawn hstop (hsub.trans hlive)
  | stopping c hpc hspawn hstop hlive =>
    exact .stopping c hpc hspawn hstop (hsub.trans hlive)

/-- Off, or a `stop` is between its exchange and its join. -/
lemma eq_empty_of_stopped (h : Phase pc false worker live)
    (hlive : (∃ d, (pc d).stopping) → live = ∅) : live = ∅ := by
  cases h with
  | off => rfl
  | stopping c hpc => exact hlive ⟨c, hpc⟩

variable [DecidableEq ι] {p : CallPc}

/-- A step between places that are in no gap keeps the phase. -/
lemma goto (h : Phase pc running worker live) (hc : (pc c).Outside) (hp : p.Outside) :
    Phase (Function.update pc c p) running worker live := by
  cases h with
  | off hspawn hstop => exact .off (hspawn.update hp.1) (hstop.update hp.2)
  | spawning e hpc hspawn hstop =>
    have hstay : Function.update pc c p e = pc e := update_stays hc.1 (by rw [hpc]; rfl)
    exact .spawning e (hstay.trans hpc) (hspawn.update hp.1) (hstop.update hp.2)
  | assigning e hpc hspawn hstop hlive =>
    have hstay : Function.update pc c p e = pc e := update_stays hc.1 (by rw [hpc]; rfl)
    exact .assigning e (hstay.trans hpc) (hspawn.update hp.1) (hstop.update hp.2) hlive
  | on hspawn hstop hlive => exact .on (hspawn.update hp.1) (hstop.update hp.2) hlive
  | stopping e hpc hspawn hstop hlive =>
    have hstay : Function.update pc c p e = pc e := update_stays hc.2 hpc
    exact .stopping e (by rwa [hstay]) (hspawn.update hp.1) (hstop.update hp.2) hlive

/-- `running_.store(true)` from the phase off. -/
lemma store (h : Phase pc false worker live) (hnone : Nowhere CallPc.stopping pc) :
    Phase (Function.update pc c .spawn) true worker live := by
  cases h with
  | off hspawn hstop =>
    exact .spawning c (Function.update_self ..) hspawn.onlyAt.moves (hstop.update rfl)
  | stopping e hpc => exact hnone.absurd hpc

/-- A call at the creation is the only one in a gap, and no worker is alive. -/
lemma spawn (h : Phase pc running worker live) (hc : pc c = .spawn) :
    live = ∅ ∧ ∀ t, Phase (Function.update pc c (.assign t 0)) running worker {t} := by
  have hin : (pc c).spawning = true := by rw [hc]; rfl
  cases h with
  | off hspawn => exact hspawn.absurd hin
  | spawning e hpc hspawn hstop =>
    obtain rfl := hspawn.eq hin
    refine ⟨rfl, fun t => ?_⟩
    exact .assigning c (Function.update_self ..) hspawn.moves (hstop.update rfl) subset_rfl
  | assigning e hpc hspawn =>
    obtain rfl := hspawn.eq hin
    cases hc.symm.trans hpc
  | on hspawn => exact hspawn.absurd hin
  | stopping _ _ hspawn => exact hspawn.absurd hin

/-- A call at the assignment finds `worker_` not joinable, and no worker but its own. -/
lemma assign {t n : ℕ} (h : Phase pc running worker live) (hc : pc c = .assign t n) :
    worker = none ∧ n = 0 ∧ Phase (Function.update pc c .idle) running (some t) live := by
  have hin : (pc c).spawning = true := by rw [hc]; rfl
  cases h with
  | off hspawn => exact hspawn.absurd hin
  | spawning e hpc hspawn =>
    obtain rfl := hspawn.eq hin
    cases hc.symm.trans hpc
  | assigning e hpc hspawn hstop hlive =>
    obtain rfl := hspawn.eq hin
    obtain ⟨rfl, rfl⟩ := CallPc.assign.inj (hc.symm.trans hpc)
    exact ⟨rfl, rfl, .on (hspawn.leaves rfl) (hstop.update rfl) hlive⟩
  | on hspawn => exact hspawn.absurd hin
  | stopping _ _ hspawn => exact hspawn.absurd hin

/-- `running_.exchange(false)` that reads `true` outside the gap of a `start`. -/
lemma stop (h : Phase pc true worker live) (hnone : Nowhere CallPc.spawning pc) :
    Phase (Function.update pc c .checkJoinable) false worker live := by
  have hin : (Function.update pc c .checkJoinable c).stopping = true := by
    rw [Function.update_self]
    rfl
  cases h with
  | spawning e hpc => exact hnone.absurd (c := e) (by rw [hpc]; rfl)
  | assigning e hpc => exact hnone.absurd (c := e) (by rw [hpc]; rfl)
  | on hspawn hstop hlive => exact .stopping c hin (hspawn.update rfl) hstop.onlyAt.moves hlive

/-- A call before its join finds `worker_` joinable, and is the only one in a gap. -/
lemma join (h : Phase pc running worker live) (hc : (pc c).stopping) :
    ∃ t, worker = some t ∧ live ⊆ {t} ∧
      Phase (Function.update pc c .join) running worker live ∧
      (live = ∅ → Phase (Function.update pc c .idle) running none live) := by
  have hin : (Function.update pc c .join c).stopping = true := by
    rw [Function.update_self]
    rfl
  cases h with
  | off _ hstop => exact hstop.absurd hc
  | spawning _ _ _ hstop => exact hstop.absurd hc
  | assigning _ _ _ hstop => exact hstop.absurd hc
  | on _ hstop => exact hstop.absurd hc
  | @stopping e t _ _ hspawn hstop hlive =>
    obtain rfl := hstop.eq hc
    refine ⟨t, rfl, hlive, .stopping c hin (hspawn.update rfl) hstop.moves hlive, ?_⟩
    rintro rfl
    exact .off (hspawn.update rfl) (hstop.leaves rfl)

end Phase

/-! ### One step -/

/-- The invariant of the service. -/
structure Inv (s : CaptureControl ι) : Prop where
  fault : s.fault = none
  phase : Phase s.pc s.running s.worker s.live
  returned : ∀ r ∈ s.returned, r.Good

lemma Inv.safe {s : CaptureControl ι} (h : Inv s) : Safe s where
  alive_le_one := h.phase.live_le_one
  no_fault := h.fault
  returned := h.returned

lemma inv_init (isOpen : Bool) : Inv (init isOpen : CaptureControl ι) where
  fault := rfl
  phase := .off (fun _ => rfl) fun _ => rfl
  returned _ hr := absurd hr List.not_mem_nil

/-- The thread that is created while none is alive is the only one. -/
lemma live_spawn {s : CaptureControl ι} (h : s.live = ∅) :
    (Finset.range (s.created + 1)).filter
        (fun t => Function.update s.loop s.created .loadRunning t ≠ .exited) ⊆ {s.created} := by
  intro u hu
  simp only [Finset.mem_filter, Finset.mem_range] at hu
  rcases Nat.lt_succ_iff_lt_or_eq.mp hu.1 with hlt | rfl
  · have hloop : s.loop u ≠ .exited :=
      Function.update_of_ne hlt.ne WorkerLoop.loadRunning s.loop ▸ hu.2
    have hmem : u ∈ s.live := Finset.mem_filter.mpr ⟨Finset.mem_range.mpr hlt, hloop⟩
    simp [h] at hmem
  · exact Finset.mem_singleton_self _

/-- Once the only thread that may be alive has ended, none is. -/
lemma live_eq_empty {s : CaptureControl ι} {t : ℕ} (hlive : s.live ⊆ {t})
    (hexit : s.loop t = .exited) : s.live = ∅ := by
  refine Finset.eq_empty_of_forall_notMem fun u hu => ?_
  obtain rfl := Finset.mem_singleton.mp (hlive hu)
  exact (Finset.mem_filter.mp hu).2 hexit

lemma live_work {s s' : CaptureControl ι} {t : ℕ} (h : s.work t = some s') :
    s'.live ⊆ s.live ∧ s' = { s with loop := s'.loop } := by
  have hlive : ∀ l, s.loop t ≠ .exited →
      ({ s with loop := Function.update s.loop t l } : CaptureControl ι).live ⊆ s.live := by
    intro l hl u hu
    simp only [live, Finset.mem_filter] at hu ⊢
    refine ⟨hu.1, ?_⟩
    by_cases hut : u = t
    · subst hut
      exact hl
    · exact Function.update_of_ne hut l s.loop ▸ hu.2
  unfold work at h
  split at h
  · cases h
  · split at h
    · rename_i hl
      obtain rfl := Option.some.inj h
      exact ⟨hlive _ (by simp [hl]), rfl⟩
    · rename_i hl
      obtain rfl := Option.some.inj h
      exact ⟨hlive _ (by simp [hl]), rfl⟩
    · cases h

section
variable [DecidableEq ι] {s s' : CaptureControl ι} {c : ι}

lemma Inv.startReturns {r : Return} (h : Inv s) (hr : r.Good) (hc : (s.pc c).Outside) :
    Inv (s.startReturns c r) where
  fault := h.fault
  phase := h.phase.goto hc ⟨rfl, rfl⟩
  returned := List.forall_mem_cons.mpr ⟨hr, h.returned⟩

lemma Inv.goto {pc : CallPc} (h : Inv s) (hc : (s.pc c).Outside) (hpc : pc.Outside) :
    Inv (s.goto c pc) where
  fault := h.fault
  phase := h.phase.goto hc hpc
  returned := h.returned

lemma inv_start (h : Inv s) (hpc : s.pc c = .idle) : Inv (s.start c) := by
  have hc : (s.pc c).Outside := hpc ▸ ⟨rfl, rfl⟩
  unfold start
  split
  · exact h.startReturns trivial hc
  · exact h.goto hc ⟨rfl, rfl⟩

variable [Fintype ι]

lemma inv_stop (h : Inv s) (hpc : s.pc c = .idle) (hsep : s.Separate (.stop c)) :
    Inv (s.stop c) := by
  have hphase := h.phase
  unfold stop
  unfold Separate at hsep
  cases hrun : s.running with
  | true =>
    rw [if_pos hrun] at hsep
    rw [hrun] at hphase
    exact ⟨h.fault, hphase.stop hsep, h.returned⟩
  | false =>
    rw [if_neg (by simp [hrun])] at hsep
    rw [hrun] at hphase
    have hnone : s.live.card = 0 := Finset.card_eq_zero.mpr (hphase.eq_empty_of_stopped hsep)
    have hc : (s.pc c).Outside := hpc ▸ ⟨rfl, rfl⟩
    exact ⟨h.fault, h.phase.goto hc ⟨rfl, rfl⟩,
      List.forall_mem_cons.mpr ⟨fun _ => hnone, h.returned⟩⟩

lemma inv_next {opened : Bool} (h : Inv s) (hsep : s.Separate (.next c opened))
    (hstep : s.next c opened = some s') : Inv s' := by
  unfold next at hstep
  cases hpc : s.pc c with
  | idle => simp [hpc] at hstep
  | checkOpen =>
    simp only [hpc, Option.some.injEq] at hstep
    subst hstep
    have hc : (s.pc c).Outside := hpc ▸ ⟨rfl, rfl⟩
    split
    · exact h.goto hc ⟨rfl, rfl⟩
    · exact h.goto hc ⟨rfl, rfl⟩
  | openDevice =>
    have hc : (s.pc c).Outside := hpc ▸ ⟨rfl, rfl⟩
    simp only [hpc] at hstep
    split at hstep
    · obtain rfl := Option.some.inj hstep
      exact ⟨h.fault, h.phase.goto hc ⟨rfl, rfl⟩, h.returned⟩
    · obtain rfl := Option.some.inj hstep
      exact h.startReturns trivial hc
  | storeRunning =>
    simp only [hpc, Option.some.injEq] at hstep
    subst hstep
    obtain ⟨hrun, hstop⟩ := hsep hpc
    have hphase := h.phase
    rw [hrun] at hphase
    exact ⟨h.fault, hphase.store hstop, h.returned⟩
  | spawn =>
    simp only [hpc, Option.some.injEq] at hstep
    subst hstep
    obtain ⟨hnone, hphase⟩ := h.phase.spawn hpc
    rw [hnone, Finset.card_empty]
    exact ⟨h.fault, (hphase s.created).mono (live_spawn hnone), h.returned⟩
  | assign t alive =>
    simp only [hpc] at hstep
    obtain ⟨hnone, hn, hphase⟩ := h.phase.assign hpc
    rw [hnone] at hstep
    obtain rfl := Option.some.inj hstep
    exact ⟨h.fault, hphase, List.forall_mem_cons.mpr ⟨hn, h.returned⟩⟩
  | checkJoinable =>
    simp only [hpc, Option.some.injEq] at hstep
    subst hstep
    obtain ⟨t, ht, -, hphase, -⟩ := h.phase.join (by rw [hpc]; rfl)
    rw [ht]
    exact ⟨h.fault, hphase, h.returned⟩
  | join =>
    simp only [hpc] at hstep
    obtain ⟨t, ht, hlive, -, hphase⟩ := h.phase.join (by rw [hpc]; rfl)
    simp only [ht] at hstep
    split at hstep
    · rename_i hexit
      obtain rfl := Option.some.inj hstep
      have hnone := live_eq_empty hlive hexit
      have hgood : s.live.card = 0 := Finset.card_eq_zero.mpr hnone
      exact ⟨h.fault, hphase hnone, List.forall_mem_cons.mpr ⟨fun _ => hgood, h.returned⟩⟩
    · cases hstep

lemma inv_step {a : ControlAct ι} (h : Inv s) (hsep : s.Separate a)
    (hstep : s.step a = some s') : Inv s' := by
  unfold step at hstep
  rw [if_neg (by simp [h.fault])] at hstep
  cases a with
  | start c =>
    obtain ⟨hpc, hs⟩ := Option.ite_none_right_eq_some.mp hstep
    obtain rfl := Option.some.inj hs
    exact inv_start h hpc
  | stop c =>
    obtain ⟨hpc, hs⟩ := Option.ite_none_right_eq_some.mp hstep
    obtain rfl := Option.some.inj hs
    exact inv_stop h hpc hsep
  | next c opened => exact inv_next h hsep hstep
  | work t =>
    obtain ⟨hlive, heq⟩ := live_work hstep
    rw [heq] at hlive ⊢
    exact ⟨h.fault, h.phase.mono hlive, h.returned⟩

end

/-! ### Runs -/

section
variable [Fintype ι] [DecidableEq ι]

lemma inv_of_reach {isOpen : Bool} {s : CaptureControl ι}
    (h : Reach step Separate (init isOpen) s) : Inv s :=
  h.invariant (inv_init isOpen) fun _ _ _ => inv_step

/-- **One producer.** In every run whose steps keep the calls of the controllers apart, at most one
worker is alive, no joinable `worker_` is overwritten, a `start` that returns `true` has created
the only worker, and no worker is alive when a `stop` returns and no `start` is in progress. -/
theorem one_producer {isOpen : Bool} {s : CaptureControl ι}
    (h : Reach step Separate (init isOpen) s) : Safe s :=
  (inv_of_reach h).safe

end

/-- Two controllers start a service at the same time: both find `running_` clear. -/
def bothStart : List (ControlAct (Fin 2)) :=
  [.start 0, .start 1, .next 0 true, .next 1 true, .next 0 true, .next 0 true, .next 0 true,
   .next 1 true, .next 1 true, .next 1 true]

/-- Two workers are alive, and the second is assigned over the first. -/
theorem both_start_overwrites :
    ¬ ∀ (isOpen : Bool) (s : CaptureControl (Fin 2)),
      Reach step (fun _ _ => True) (init isOpen) s → Safe s := by
  intro h
  have hrun : (exec step (fun _ _ => True) (init true) bothStart).map
      (fun s => (s.live.card, s.fault)) = some (2, some .joinableOverwritten) := by decide
  obtain ⟨s, hreach, hs⟩ := exists_reach_of_exec _ hrun
  have hlive := (h true s hreach).alive_le_one
  rw [(Prod.mk.inj hs).1] at hlive
  omega

/-- One controller starts, the worker polls once, and the other controller stops. -/
theorem one_producer_sample :
    ∃ s : CaptureControl (Fin 2), s.returned = [.stop false 0, .startTrue 0] ∧ Safe s := by
  have hrun : (exec step Separate (init false)
      [.start (0 : Fin 2), .next 0 true, .next 0 true, .next 0 true, .next 0 true, .next 0 true,
        .work 0, .work 0, .stop 1, .next 1 true, .work 0, .next 1 true]).map
      (fun s => s.returned) = some [.stop false 0, .startTrue 0] := by decide
  obtain ⟨s, hreach, hs⟩ := exists_reach_of_exec _ hrun
  exact ⟨s, hs, one_producer hreach⟩

/-! ### A single controller -/

/-- A call between the load of `running_` and its store still finds it clear. -/
def Unraced (s : CaptureControl ι) : Prop :=
  ∀ c, (s.pc c).inStart → (s.pc c).spawning = false → s.running = false

section
variable [Fintype ι] [DecidableEq ι] [Subsingleton ι] {s s' : CaptureControl ι} {c : ι}

omit [Fintype ι] in
lemma unraced_update {pc : CallPc} {running : Bool}
    (hpc : pc.inStart → pc.spawning = false → running = false) (d : ι) :
    (Function.update s.pc c pc d).inStart → (Function.update s.pc c pc d).spawning = false →
      running = false := by
  obtain rfl := Subsingleton.elim c d
  rwa [Function.update_self]

omit [Fintype ι] in
/-- At any other place there is nothing to find. -/
lemma unraced_settled {pc : CallPc} {running : Bool} (hpc : (pc.inStart && !pc.spawning) = false)
    (d : ι) :
    (Function.update s.pc c pc d).inStart → (Function.update s.pc c pc d).spawning = false →
      running = false := by
  refine unraced_update (fun hin hout => ?_) d
  rw [hin, hout] at hpc
  cases hpc

lemma unraced_next {opened : Bool} (h : Unraced s) (hstep : s.next c opened = some s') :
    Unraced s' := by
  have hc := h c
  unfold next at hstep
  cases hpc : s.pc c with
  | idle => simp [hpc] at hstep
  | checkOpen =>
    simp only [hpc, Option.some.injEq] at hstep
    subst hstep
    rw [hpc] at hc
    exact unraced_update fun _ _ => hc rfl rfl
  | openDevice =>
    rw [hpc] at hc
    simp only [hpc] at hstep
    split at hstep <;> obtain rfl := Option.some.inj hstep
    · exact unraced_update fun _ _ => hc rfl rfl
    · exact unraced_settled rfl
  | storeRunning =>
    simp only [hpc, Option.some.injEq] at hstep
    subst hstep
    exact unraced_settled rfl
  | spawn =>
    simp only [hpc, Option.some.injEq] at hstep
    subst hstep
    exact unraced_settled rfl
  | assign t alive =>
    simp only [hpc] at hstep
    split at hstep <;> obtain rfl := Option.some.inj hstep
    · exact h
    · exact unraced_settled rfl
  | checkJoinable =>
    simp only [hpc, Option.some.injEq] at hstep
    subst hstep
    split <;> exact unraced_settled rfl
  | join =>
    simp only [hpc] at hstep
    split at hstep
    · obtain rfl := Option.some.inj hstep
      exact h
    · split at hstep
      · obtain rfl := Option.some.inj hstep
        exact unraced_settled rfl
      · cases hstep

lemma unraced_step {a : ControlAct ι} (h : Unraced s) (hstep : s.step a = some s') :
    Unraced s' := by
  unfold step at hstep
  split at hstep
  · cases hstep
  · cases a with
    | start c =>
      obtain ⟨-, hs⟩ := Option.ite_none_right_eq_some.mp hstep
      obtain rfl := Option.some.inj hs
      unfold start
      split
      · exact unraced_settled rfl
      · rename_i hrun
        exact unraced_update fun _ _ => eq_false_of_ne_true hrun
    | stop c =>
      obtain ⟨-, hs⟩ := Option.ite_none_right_eq_some.mp hstep
      obtain rfl := Option.some.inj hs
      unfold stop
      split <;> exact unraced_settled rfl
    | next c opened => exact unraced_next h hstep
    | work t =>
      rw [(live_work hstep).2]
      exact h

/-- With one controller no call falls into the gap of another. -/
lemma separate_of_subsingleton {a : ControlAct ι} (h : Unraced s)
    (hstep : s.step a = some s') : s.Separate a := by
  unfold step at hstep
  split at hstep
  · cases hstep
  · cases a with
    | start c => trivial
    | work t => trivial
    | next c opened =>
      intro hpc
      have hc := h c
      rw [hpc] at hc
      refine ⟨hc rfl rfl, fun d => ?_⟩
      rw [Subsingleton.elim d c, hpc]
      rfl
    | stop c =>
      obtain ⟨hpc, -⟩ := Option.ite_none_right_eq_some.mp hstep
      have hidle : ∀ d, s.pc d = .idle := fun d => Subsingleton.elim c d ▸ hpc
      change if s.running then ∀ d, (s.pc d).spawning = false
        else (∃ d, (s.pc d).stopping) → s.live = ∅
      split
      · exact fun d => by rw [hidle d]; rfl
      · rintro ⟨d, hd⟩
        simp [hidle d, CallPc.stopping] at hd

lemma inv_of_reach_subsingleton {isOpen : Bool}
    (h : Reach step (fun _ _ => True) (init isOpen) s) : Inv s := by
  have hinit : Unraced (init isOpen : CaptureControl ι) := fun _ _ _ => rfl
  have hreach := h.of_invariant hinit (fun _ _ _ => separate_of_subsingleton)
    fun _ _ _ => unraced_step
  exact inv_of_reach hreach.1

/-- Calls from one thread are always safe. -/
theorem one_controller {isOpen : Bool} (h : Reach step (fun _ _ => True) (init isOpen) s) :
    Safe s :=
  (inv_of_reach_subsingleton h).safe

end

end CaptureControl

end BusTestPlatform

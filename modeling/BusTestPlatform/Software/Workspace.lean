import BusTestPlatform.Lib.Table
import BusTestPlatform.Shared.BusTypes

/-!
# `workspace.cpp`, `channel.cpp` and `node.cpp`

The container of channels and nodes. It hands out pointers and never removes anything, so a pointer
is a place in `channels_` or `nodes_`; a call through any other pointer is `none`. A load estimate
is a value of a type `R` with a zero: the code stores it and does no arithmetic with it.
-/

namespace BusTestPlatform.Core

/-- `Channel`. -/
structure Channel (R : Type*) where
  id : UInt8
  type : BusType
  name : List Char
  enabled : Bool
  rxCount : UInt64
  txCount : UInt64
  errorCount : UInt64
  totalFrames : UInt64
  loadEstimatePercent : R

/-- `Node`. -/
structure Node where
  name : List Char
  channelId : UInt8
  scriptPath : List Char
  active : Bool

/-- What happens on a channel and is counted there. -/
inductive BusEvent
  | frameRx | frameTx | error
deriving DecidableEq

/-- The calls that change a channel. -/
inductive ChannelCall (R : Type*)
  | setEnabled (enabled : Bool)
  | on (e : BusEvent)
  | setLoadEstimate (percent : R)
  | resetStats

/-- The calls that change a node. -/
inductive NodeCall
  | setScriptPath (p : List Char)
  | setActive (active : Bool)

namespace Channel

variable {R : Type*} [Zero R]

/-- The constructor. -/
def new (id : UInt8) (type : BusType) (name : List Char) : Channel R where
  id := id
  type := type
  name := name
  enabled := true
  rxCount := 0
  txCount := 0
  errorCount := 0
  totalFrames := 0
  loadEstimatePercent := 0

def onFrameRx (c : Channel R) : Channel R :=
  { c with rxCount := c.rxCount + 1, totalFrames := c.totalFrames + 1 }

def onFrameTx (c : Channel R) : Channel R :=
  { c with txCount := c.txCount + 1, totalFrames := c.totalFrames + 1 }

def onError (c : Channel R) : Channel R := { c with errorCount := c.errorCount + 1 }

def resetStats (c : Channel R) : Channel R :=
  { c with rxCount := 0, txCount := 0, errorCount := 0, totalFrames := 0, loadEstimatePercent := 0 }

def call (c : Channel R) : ChannelCall R → Channel R
  | .setEnabled enabled => { c with enabled := enabled }
  | .on .frameRx => c.onFrameRx
  | .on .frameTx => c.onFrameTx
  | .on .error => c.onError
  | .setLoadEstimate percent => { c with loadEstimatePercent := percent }
  | .resetStats => c.resetStats

/-- `rx_count`, `tx_count` and `error_count`. -/
def counter (c : Channel R) : BusEvent → UInt64
  | .frameRx => c.rxCount
  | .frameTx => c.txCount
  | .error => c.errorCount

/-- What a channel is constructed with, and keeps. -/
def decl (c : Channel R) : UInt8 × BusType × List Char := (c.id, c.type, c.name)

end Channel

namespace Node

/-- The constructor. -/
def new (name : List Char) (channelId : UInt8) (scriptPath : List Char) : Node where
  name := name
  channelId := channelId
  scriptPath := scriptPath
  active := true

def call (n : Node) : NodeCall → Node
  | .setScriptPath p => { n with scriptPath := p }
  | .setActive active => { n with active := active }

/-- What a node is constructed with, and keeps. -/
def decl (n : Node) : List Char × UInt8 := (n.name, n.channelId)

end Node

/-- `Workspace`. -/
structure Workspace (R : Type*) where
  channels : List (Channel R)
  nodes : List Node

/-- The calls that change a workspace or what it holds. -/
inductive WorkspaceCall (R : Type*)
  | addChannel (id : UInt8) (type : BusType) (name : List Char)
  | addNode (name : List Char) (channelId : UInt8) (scriptPath : List Char)
  | channel (p : ℕ) (c : ChannelCall R)
  | node (p : ℕ) (c : NodeCall)
  | resetAllStats

namespace Workspace

variable {R : Type*} [Zero R]

def empty : Workspace R where
  channels := []
  nodes := []

/-- `find_channel`. -/
def findChannel (w : Workspace R) (id : UInt8) : Option ℕ := w.channels.findIdx? (·.id = id)

/-- `add_channel`: the pointer to the channel, or the null pointer. -/
def addChannel (w : Workspace R) (id : UInt8) (type : BusType) (name : List Char) :
    Option ℕ × Workspace R :=
  if (w.findChannel id).isSome then (none, w)
  else (some w.channels.length, { w with channels := w.channels ++ [Channel.new id type name] })

/-- `find_node`. -/
def findNode (w : Workspace R) (name : List Char) : Option ℕ := w.nodes.findIdx? (·.name = name)

/-- `add_node`. -/
def addNode (w : Workspace R) (name : List Char) (channelId : UInt8) (scriptPath : List Char) :
    Option ℕ × Workspace R :=
  if (w.findNode name).isSome then (none, w)
  else (some w.nodes.length, { w with nodes := w.nodes ++ [Node.new name channelId scriptPath] })

/-- `reset_all_stats`. -/
def resetAllStats (w : Workspace R) : Workspace R :=
  { w with channels := w.channels.map Channel.resetStats }

def call (w : Workspace R) : WorkspaceCall R → Option (Workspace R)
  | .addChannel id type name => some (w.addChannel id type name).2
  | .addNode name channelId scriptPath => some (w.addNode name channelId scriptPath).2
  | .channel p c =>
    if p < w.channels.length then some { w with channels := w.channels.modify p (·.call c) }
    else none
  | .node p c =>
    if p < w.nodes.length then some { w with nodes := w.nodes.modify p (·.call c) } else none
  | .resetAllStats => some w.resetAllStats

/-- The calls one after the other. -/
def run (w : Workspace R) : List (WorkspaceCall R) → Option (Workspace R)
  | [] => some w
  | c :: cs => (w.call c).bind (·.run cs)

variable {w w' w'' : Workspace R}

lemma run_cons {c : WorkspaceCall R} {cs : List (WorkspaceCall R)} :
    w.run (c :: cs) = some w'' ↔ ∃ w', w.call c = some w' ∧ w'.run cs = some w'' := by
  rw [run, Option.bind_eq_some_iff]

/-! ### What is declared -/

/-- The channel a call asks for. -/
def channelDecl : WorkspaceCall R → Option (UInt8 × BusType × List Char)
  | .addChannel id type name => some (id, type, name)
  | _ => none

/-- The node a call asks for. -/
def nodeDecl : WorkspaceCall R → Option (List Char × UInt8)
  | .addNode name channelId _ => some (name, channelId)
  | _ => none

lemma map_modify {α β : Type*} (f : α → β) {g : α → α} (hg : ∀ x, f (g x) = f x) (xs : List α)
    (i : ℕ) : (xs.modify i g).map f = xs.map f := by
  refine List.ext_getElem? fun j => ?_
  rw [List.getElem?_map, List.getElem?_map, List.getElem?_modify]
  by_cases hij : i = j
  · simp [hij, Function.comp_def, hg]
  · simp [hij]

lemma decl_call (c : Channel R) (e : ChannelCall R) : (c.call e).decl = c.decl := by
  rcases e with _ | (_ | _ | _) | _ | _ <;> rfl

omit [Zero R] in
lemma findChannel_eq (w : Workspace R) (id : UInt8) :
    w.findChannel id = Table.find Prod.fst (w.channels.map Channel.decl) id := by
  rw [Table.find_map]
  rfl

omit [Zero R] in
lemma findNode_eq (w : Workspace R) (name : List Char) :
    w.findNode name = Table.find Prod.fst (w.nodes.map Node.decl) name := by
  rw [Table.find_map]
  rfl

/-- A call adds the channel and the node it asks for to what is declared, and nothing else. -/
lemma call_decl {c : WorkspaceCall R} (h : w.call c = some w') :
    w'.channels.map Channel.decl =
      Table.addAll Prod.fst (w.channels.map Channel.decl) (channelDecl c).toList ∧
    w'.nodes.map Node.decl =
      Table.addAll Prod.fst (w.nodes.map Node.decl) (nodeDecl c).toList := by
  cases c with
  | addChannel id type name =>
    obtain rfl := Option.some.inj h
    change _ = Table.add Prod.fst _ (id, type, name) ∧ _ = _
    rw [Table.add, ← findChannel_eq, addChannel]
    split_ifs
    · exact ⟨rfl, rfl⟩
    · exact ⟨List.map_append, rfl⟩
  | addNode name channelId scriptPath =>
    obtain rfl := Option.some.inj h
    change _ = _ ∧ _ = Table.add Prod.fst _ (name, channelId)
    rw [Table.add, ← findNode_eq, addNode]
    split_ifs
    · exact ⟨rfl, rfl⟩
    · exact ⟨rfl, List.map_append⟩
  | channel p c =>
    obtain ⟨-, hs⟩ := Option.ite_none_right_eq_some.mp h
    obtain rfl := Option.some.inj hs
    exact ⟨map_modify _ (decl_call · c) _ _, rfl⟩
  | node p c =>
    obtain ⟨-, hs⟩ := Option.ite_none_right_eq_some.mp h
    obtain rfl := Option.some.inj hs
    exact ⟨rfl, map_modify _ (fun n => by cases c <;> rfl) _ _⟩
  | resetAllStats =>
    obtain rfl := Option.some.inj h
    refine ⟨?_, rfl⟩
    rw [resetAllStats, List.map_map]
    rfl

lemma run_decl {cs : List (WorkspaceCall R)} (h : w.run cs = some w') :
    w'.channels.map Channel.decl =
      Table.addAll Prod.fst (w.channels.map Channel.decl) (cs.filterMap channelDecl) ∧
    w'.nodes.map Node.decl =
      Table.addAll Prod.fst (w.nodes.map Node.decl) (cs.filterMap nodeDecl) := by
  induction cs generalizing w with
  | nil =>
    obtain rfl := Option.some.inj h
    exact ⟨rfl, rfl⟩
  | cons c cs ih =>
    obtain ⟨w₁, hc, hcs⟩ := run_cons.mp h
    obtain ⟨hchannels, hnodes⟩ := call_decl hc
    obtain ⟨hchannels', hnodes'⟩ := ih hcs
    have hcons {α : Type _} (f : WorkspaceCall R → Option α) :
        (c :: cs).filterMap f = (f c).toList ++ cs.filterMap f := by
      cases hf : f c with
      | none => rw [List.filterMap_cons_none hf]; rfl
      | some d => rw [List.filterMap_cons_some hf]; rfl
    rw [hchannels', hnodes', hchannels, hnodes, hcons, hcons]
    exact ⟨List.foldl_append.symm, List.foldl_append.symm⟩

/-- What has been declared by any calls is the table of what they ask for. -/
lemma run_empty_decl {cs : List (WorkspaceCall R)} (h : empty.run cs = some w) :
    w.channels.map Channel.decl = Table.addAll Prod.fst [] (cs.filterMap channelDecl) ∧
      w.nodes.map Node.decl = Table.addAll Prod.fst [] (cs.filterMap nodeDecl) :=
  run_decl h

/-- **The registry.** After any calls, ids and names are unique; what is found under an id or a name
is what was added first under it; and a pointer once found stays the pointer to it, whatever is
called later. -/
theorem registry_run {cs ds : List (WorkspaceCall R)} (h : empty.run cs = some w)
    (hlater : w.run ds = some w') :
    ((w.channels.map Channel.id).Nodup ∧ (w.nodes.map Node.name).Nodup) ∧
    (∀ id, ((w.findChannel id).bind fun p => w'.channels[p]?.map Channel.decl) =
        (cs.filterMap channelDecl).find? (·.1 = id) ∧
      ∀ p, w.findChannel id = some p → w'.findChannel id = some p) ∧
    ∀ name, ((w.findNode name).bind fun p => w'.nodes[p]?.map Node.decl) =
        (cs.filterMap nodeDecl).find? (·.1 = name) ∧
      ∀ p, w.findNode name = some p → w'.findNode name = some p := by
  obtain ⟨hchannels, hnodes⟩ := run_empty_decl h
  obtain ⟨hchannels', hnodes'⟩ := run_decl hlater
  refine ⟨⟨?_, ?_⟩, fun id => ?_, fun name => ?_⟩
  · have hids : ((Table.addAll Prod.fst [] (cs.filterMap channelDecl)).map Prod.fst).Nodup :=
      Table.nodup_addAll_nil _
    rwa [← hchannels, List.map_map] at hids
  · have hnames : ((Table.addAll Prod.fst [] (cs.filterMap nodeDecl)).map Prod.fst).Nodup :=
      Table.nodup_addAll_nil _
    rwa [← hnodes, List.map_map] at hnames
  · simp only [findChannel_eq, ← List.getElem?_map, hchannels', hchannels]
    exact Table.find_addAll_addAll _ _ id
  · simp only [findNode_eq, ← List.getElem?_map, hnodes', hnodes]
    exact Table.find_addAll_addAll _ _ name

/-- The workspace of `cmd_demo`. -/
def demo : List (WorkspaceCall ℕ) :=
  [.addChannel 0 .canfd "CAN FD #0".toList, .addChannel 1 .canfd "CAN FD #1".toList,
   .addChannel 2 .lin "LIN #0".toList, .addNode "ECU_Engine".toList 0 [], .channel 0 (.on .frameRx),
   .channel 0 (.on .frameRx), .channel 0 (.on .frameTx)]

/-- A second channel under the id 2 is refused, and the pointer to the first one stays. -/
theorem registry_run_demo : ∃ w w' : Workspace ℕ, empty.run demo = some w ∧
    w.run [.addChannel 2 .can []] = some w' ∧ w'.channels.length = 3 ∧
      w'.findChannel 2 = some 2 := by
  have h : empty.run demo = some _ := rfl
  obtain ⟨-, hchannels, -⟩ := registry_run h
    (show Workspace.run (R := ℕ) _ [.addChannel 2 .can []] = some _ from rfl)
  exact ⟨_, _, h, rfl, rfl, (hchannels 2).2 2 rfl⟩

/-! ### What is counted -/

/-- The number of events on the channel at `p` since its last reset, after one more call. -/
def tally (e : BusEvent) (p n : ℕ) : WorkspaceCall R → ℕ
  | .resetAllStats => 0
  | .channel q .resetStats => if q = p then 0 else n
  | .channel q (.on e') => if q = p ∧ e' = e then n + 1 else n
  | _ => n

/-- The number of events on the channel at `p` since its last reset. -/
def countedSince (e : BusEvent) (p : ℕ) (cs : List (WorkspaceCall R)) : ℕ :=
  cs.foldl (tally e p) 0

/-- The counters hold the numbers `n`, which are 0 where there is no channel yet. -/
structure Counted (w : Workspace R) (n : BusEvent → ℕ → ℕ) : Prop where
  counter : ∀ p c, w.channels[p]? = some c → ∀ e, c.counter e = UInt64.ofNat (n e p)
  total : ∀ c ∈ w.channels, c.totalFrames = c.rxCount + c.txCount
  absent : ∀ e p, w.channels.length ≤ p → n e p = 0

lemma total_call {c : Channel R} (h : c.totalFrames = c.rxCount + c.txCount) (e : ChannelCall R) :
    (c.call e).totalFrames = (c.call e).rxCount + (c.call e).txCount := by
  rcases e with _ | (_ | _ | _) | _ | _
  · exact h
  · change c.totalFrames + 1 = c.rxCount + 1 + c.txCount
    rw [h, add_right_comm]
  · change c.totalFrames + 1 = c.rxCount + (c.txCount + 1)
    rw [h, add_assoc]
  · exact h
  · exact h
  · rfl

lemma counter_call {c : Channel R} {n : ℕ} {e : BusEvent} (h : c.counter e = UInt64.ofNat n)
    (a : ChannelCall R) (p : ℕ) :
    (c.call a).counter e = UInt64.ofNat (tally e p n (.channel p a)) := by
  rcases a with _ | e' | _ | _
  · exact h
  · by_cases he : e' = e
    · subst he
      rw [tally, if_pos ⟨rfl, rfl⟩, UInt64.ofNat_add, ← h]
      cases e' <;> rfl
    · rw [tally, if_neg (fun hpe => he hpe.2), ← h]
      cases e' <;> cases e <;> first | rfl | exact absurd rfl he
  · exact h
  · rw [tally, if_pos rfl]
    cases e <;> rfl

omit [Zero R] in
lemma tally_of_ne {e : BusEvent} {p q n : ℕ} (h : q ≠ p) (a : ChannelCall R) :
    tally e p n (.channel q a) = n := by
  cases a <;> simp [tally, h]

lemma Counted.addChannel {n : BusEvent → ℕ → ℕ} (h : Counted w n) (id : UInt8) (type : BusType)
    (name : List Char) : Counted (w.addChannel id type name).2 n := by
  rw [Workspace.addChannel]
  split_ifs
  · exact h
  · refine ⟨fun p c hc e => ?_, ?_, fun e p hp => ?_⟩
    · rcases Nat.lt_trichotomy p w.channels.length with hlt | rfl | hgt
      · rw [List.getElem?_append_left hlt] at hc
        exact h.counter p c hc e
      · rw [List.getElem?_concat_length, Option.some.injEq] at hc
        rw [h.absent e _ le_rfl, ← hc]
        cases e <;> rfl
      · rw [List.getElem?_eq_none (by simpa using hgt)] at hc
        cases hc
    · rw [List.forall_mem_append]
      exact ⟨h.total, by simp [Channel.new]⟩
    · rw [List.length_append] at hp
      exact h.absent e p (by omega)

lemma Counted.call {n : BusEvent → ℕ → ℕ} (h : Counted w n) {c : WorkspaceCall R}
    (hc : w.call c = some w') : Counted w' fun e p => tally e p (n e p) c := by
  cases c with
  | addChannel id type name =>
    obtain rfl := Option.some.inj hc
    exact h.addChannel id type name
  | addNode name channelId scriptPath =>
    obtain rfl := Option.some.inj hc
    have hsame : (w.addNode name channelId scriptPath).2.channels = w.channels := by
      rw [Workspace.addNode]
      split_ifs <;> rfl
    exact ⟨hsame ▸ h.counter, hsame ▸ h.total, hsame ▸ h.absent⟩
  | node p c =>
    obtain ⟨-, hs⟩ := Option.ite_none_right_eq_some.mp hc
    obtain rfl := Option.some.inj hs
    exact ⟨h.counter, h.total, h.absent⟩
  | resetAllStats =>
    obtain rfl := Option.some.inj hc
    refine ⟨fun p c hp e => ?_, fun c hmem => ?_, fun _ _ _ => rfl⟩
    · obtain ⟨c', -, rfl⟩ := Option.map_eq_some_iff.mp (List.getElem?_map.symm.trans hp)
      cases e <;> rfl
    · obtain ⟨c', -, rfl⟩ := List.mem_map.mp hmem
      rfl
  | channel q a =>
    obtain ⟨hq, hs⟩ := Option.ite_none_right_eq_some.mp hc
    obtain rfl := Option.some.inj hs
    have hlen : (w.channels.modify q (·.call a)).length = w.channels.length := by simp
    refine ⟨fun p c hp e => ?_, fun c hmem => ?_, fun e p hp => ?_⟩
    · rw [List.getElem?_modify] at hp
      obtain ⟨c', hc', rfl⟩ := Option.map_eq_some_iff.mp hp
      by_cases hqp : q = p
      · subst hqp
        simp only [if_true]
        exact counter_call (h.counter q c' hc' e) a q
      · simp only [hqp, if_false, tally_of_ne hqp]
        exact h.counter p c' hc' e
    · obtain ⟨p, hp⟩ := List.mem_iff_getElem?.mp hmem
      rw [List.getElem?_modify] at hp
      obtain ⟨c', hc', rfl⟩ := Option.map_eq_some_iff.mp hp
      have htotal := h.total c' (List.mem_of_getElem? hc')
      split_ifs
      · exact total_call htotal a
      · exact htotal
    · change (w.channels.modify q (·.call a)).length ≤ p at hp
      rw [hlen] at hp
      rw [tally_of_ne (hq.trans_le hp).ne]
      exact h.absent e p hp

lemma Counted.run {n : BusEvent → ℕ → ℕ} {cs : List (WorkspaceCall R)} (h : Counted w n)
    (hrun : w.run cs = some w') : Counted w' fun e p => cs.foldl (tally e p) (n e p) := by
  induction cs generalizing w n with
  | nil =>
    obtain rfl := Option.some.inj hrun
    exact h
  | cons c cs ih =>
    obtain ⟨w₁, hc, hcs⟩ := run_cons.mp hrun
    exact ih (h.call hc) hcs

/-- **The statistics.** After any calls, each counter of a channel is the number of its events since
the channel was last reset, alone or with all others, modulo `2 ^ 64`, and `total_frames` is the
sum of the received and the sent ones. -/
theorem statistics_run {cs : List (WorkspaceCall R)} (h : empty.run cs = some w) {p : ℕ}
    {c : Channel R} (hc : w.channels[p]? = some c) :
    (∀ e, (c.counter e).toNat = countedSince e p cs % 2 ^ 64) ∧
      c.totalFrames = c.rxCount + c.txCount := by
  have hempty : Counted (empty : Workspace R) fun _ _ => 0 :=
    ⟨fun p c hp => by simp [empty] at hp, fun c hmem => absurd hmem List.not_mem_nil,
      fun _ _ _ => rfl⟩
  have hw := hempty.run h
  refine ⟨fun e => ?_, hw.total c (List.mem_of_getElem? hc)⟩
  rw [hw.counter p c hc e, UInt64.toNat_ofNat']
  rfl

/-- What `cmd_demo` prints for the first channel. -/
theorem statistics_run_demo : ∃ (w : Workspace ℕ) (c : Channel ℕ), empty.run demo = some w ∧
    w.channels[0]? = some c ∧ c.rxCount.toNat = 2 ∧ c.txCount.toNat = 1 ∧
      c.totalFrames = c.rxCount + c.txCount := by
  have h : empty.run demo = some _ := rfl
  obtain ⟨hcounters, htotal⟩ := statistics_run h (p := 0) rfl
  exact ⟨_, _, h, rfl, hcounters .frameRx, hcounters .frameTx, htotal⟩

end Workspace

end BusTestPlatform.Core

import BusTestPlatform.Hardware.RegisterMap

/-!
# Filters behind the register map

A filter takes its mask, its value and both its bounds from the same bits of the one word that the
MCU writes. What is left of its three tests is one set of bits that identifiers must have, and one
type of frames that need not.
-/

namespace BusTestPlatform

namespace HwFilter

/-- The configuration that a word on the data bus stands for in `top`. -/
def ofWord (d : BitVec 32) : HwFilter where
  mask := d.setWidth 29
  value := d.setWidth 29
  lo := d.setWidth 29
  hi := d.setWidth 29
  acceptExt := d.getLsbD 31

/-- What a filter that rejects some frames asks for: identifiers with `bits`, unless the frame is of
the type `ext`. -/
structure Selection where
  bits : BitVec 29
  ext : Bool
  nonzero : bits ≠ 0

def Selection.Accepts (x : Selection) (frameId : BitVec 29) (frameExt : Bool) : Prop :=
  frameId &&& x.bits = x.bits ∨ frameExt = x.ext

/-- The selection of a filter that was written `d` last, or never. Without one all frames pass. -/
def selection (d : Option (BitVec 32)) : Option Selection :=
  d.bind fun d => if h : d.setWidth 29 = 0 then none else some ⟨d.setWidth 29, d.getLsbD 31, h⟩

lemma pass_ofWord_iff (d : BitVec 32) (frameId : BitVec 29) (frameExt : Bool) :
    (ofWord d).pass frameId frameExt true = true ↔
      frameId &&& d.setWidth 29 = d.setWidth 29 ∨ frameExt = d.getLsbD 31 := by
  rw [pass_valid_iff]
  simp only [ofWord]
  constructor
  · rintro (hmask | ⟨hlo, hhi⟩ | hext)
    · exact Or.inl hmask
    · rw [BitVec.le_antisymm hhi hlo]
      exact Or.inl BitVec.and_self
    · exact Or.inr hext
  · rintro (hmask | hext)
    · exact Or.inl hmask
    · exact Or.inr (Or.inr hext)

/-- A frame of the other type needs the bits, and without any it has none of them. -/
lemma Selection.not_accepts_zero (s : Selection) : ¬ s.Accepts 0 (!s.ext) := by
  rintro (hbits | hext)
  · exact s.nonzero (hbits.symm.trans BitVec.zero_and)
  · simp at hext

lemma Selection.accepts_other_iff (s : Selection) (frameId : BitVec 29) :
    s.Accepts frameId (!s.ext) ↔ frameId &&& s.bits = s.bits := by
  simp [Accepts]

lemma Selection.ext_of_accepts {s t : Selection}
    (h : ∀ frameId frameExt, s.Accepts frameId frameExt ↔ t.Accepts frameId frameExt) : s = t := by
  have htype : s.ext = t.ext := by
    by_contra hne
    apply t.not_accepts_zero
    rw [← h]
    exact Or.inr (Bool.eq_not_of_ne hne).symm
  have hbits : ∀ frameId, frameId &&& s.bits = s.bits ↔ frameId &&& t.bits = t.bits := by
    intro frameId
    rw [← s.accepts_other_iff, ← t.accepts_other_iff, htype, h]
  have hst := (hbits s.bits).mp BitVec.and_self
  have hts := (hbits t.bits).mpr BitVec.and_self
  rw [BitVec.and_comm, hst] at hts
  cases s
  cases t
  simp_all

/-- Selections that accept the same frames are the same. -/
lemma selection_ext {x y : Option Selection}
    (h : ∀ frameId frameExt,
      (∀ s ∈ x, s.Accepts frameId frameExt) ↔ ∀ s ∈ y, s.Accepts frameId frameExt) : x = y := by
  cases x with
  | none =>
    cases y with
    | none => rfl
    | some t => exact (t.not_accepts_zero ((h 0 _).mp (by simp) t rfl)).elim
  | some s =>
    cases y with
    | none => exact (s.not_accepts_zero ((h 0 _).mpr (by simp) s rfl)).elim
    | some t =>
      simp only [Option.mem_some_iff, forall_eq'] at h
      rw [Selection.ext_of_accepts h]

end HwFilter

namespace Top

open HwFilter

variable (mem mem' : Fin 4 → BitVec 12 → Bool) (inp inp' : ℕ → In) (c c' : Fin 4) (n n' : ℕ)

/-- The word that the MCU wrote last to the register before clock edge `n`. -/
def lastWord (r : Reg) : ℕ → Option (BitVec 32)
  | 0 => none
  | n + 1 => if (inp n).Writes r then some (inp n).mcuWdata else lastWord r n

/-- A valid frame passes the filter of channel `c` before clock edge `n`. -/
def Passes (frameId : BitVec 29) (frameExt : Bool) : Prop :=
  ((run mem inp n).ch c).filter.pass frameId frameExt true = true

/-- The selection of channel `c` before clock edge `n`. -/
def selected : Option Selection := selection (lastWord inp (.fltCfg c) n)

lemma filter_run : ((run mem inp n).ch c).filter =
    match lastWord inp (.fltCfg c) n with
    | none => HwFilter.reset
    | some d => ofWord d := by
  induction n with
  | zero => rfl
  | succ n ih =>
    have hstep := held_fltCfg_step (run mem inp n) (inp n) c
    rw [run_succ, lastWord]
    split_ifs at hstep ⊢
    · exact Held.fltCfg.inj hstep
    · exact (Held.fltCfg.inj hstep).trans ih

lemma passes_iff (frameId : BitVec 29) (frameExt : Bool) :
    Passes mem inp c n frameId frameExt ↔
      ∀ s ∈ selected inp c n, s.Accepts frameId frameExt := by
  rw [Passes, filter_run, selected]
  cases lastWord inp (.fltCfg c) n with
  | none => simp [selection, pass_valid_iff, HwFilter.reset]
  | some d =>
    simp only [pass_ofWord_iff, selection, Option.bind_some]
    split_ifs with hzero
    · simp [hzero]
    · simp [Selection.Accepts]

/-- **Filters of the device.** In every run the filter of a channel passes the frames that the
selection of the last word written to it accepts, and two filters, at any clocks of any runs, pass
the same frames only with the same selection. -/
theorem filter_selects :
    (∀ frameId frameExt, Passes mem inp c n frameId frameExt ↔
      ∀ s ∈ selected inp c n, s.Accepts frameId frameExt) ∧
    ((∀ frameId frameExt, Passes mem inp c n frameId frameExt ↔
      Passes mem' inp' c' n' frameId frameExt) ↔ selected inp c n = selected inp' c' n') := by
  refine ⟨passes_iff mem inp c n, ?_⟩
  simp only [passes_iff]
  exact ⟨selection_ext, fun h frameId frameExt => by rw [h]⟩

end Top

end BusTestPlatform

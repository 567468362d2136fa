import BusTestPlatform.Lib.Clocked

/-!
# `error_injector.v`

One channel's error injector. A nonblocking assignment later in the `always` block overrides an
earlier one, which is why the registers below are computed from the last assignment backwards.
-/

namespace BusTestPlatform

/-- Registers of `error_injector`. -/
structure ErrorInjector where
  type : BitVec 3
  bitPos : BitVec 16
  glitchNs : BitVec 8
  bitCnt : BitVec 16
  glitchCnt : BitVec 8
  armed : Bool
  inject : Bool
deriving DecidableEq, Repr

namespace ErrorInjector

/-- Inputs of `error_injector` at one clock edge. -/
structure In where
  cfgWe : Bool
  cfgType : BitVec 3
  cfgBitPos : BitVec 16
  cfgGlitchNs : BitVec 8
  frameActive : Bool
  bitTick : Bool

def reset : ErrorInjector where
  type := 0
  bitPos := 0
  glitchNs := 1
  bitCnt := 0
  glitchCnt := 0
  armed := false
  inject := false

/-- The bit strobe at the configured position: `bit_tick` with `bit_cnt == bit_pos_r`. -/
def atPos (s : ErrorInjector) (i : In) : Bool := i.bitTick && s.bitCnt == s.bitPos

def step (s : ErrorInjector) (i : In) : ErrorInjector where
  type := if i.cfgWe then i.cfgType else s.type
  bitPos := if i.cfgWe then i.cfgBitPos else s.bitPos
  glitchNs := if i.cfgWe then i.cfgGlitchNs else s.glitchNs
  bitCnt :=
    if s.type = 0 then s.bitCnt
    else if i.frameActive then if i.bitTick then s.bitCnt + 1 else s.bitCnt
    else 0
  glitchCnt :=
    if s.type = 0 then s.glitchCnt
    else if i.frameActive then
      -- the countdown of the `armed` branch is the last assignment, so it wins over a reload
      if s.armed && s.glitchCnt != 0 then s.glitchCnt - 1
      else if s.atPos i && s.type == 5 then s.glitchNs
      else s.glitchCnt
    else 0
  armed :=
    if s.type = 0 then false
    else if i.frameActive then
      if s.armed && s.glitchCnt == 0 then false
      else if s.atPos i && s.type == 5 then true
      else s.armed
    else false
  inject :=
    if s.type = 0 then false
    else if i.frameActive then s.armed || (s.atPos i && s.type != 5)
    else false

end ErrorInjector

end BusTestPlatform
